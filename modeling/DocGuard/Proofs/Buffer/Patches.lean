import DocGuard.Proofs.Buffer.Chunks

/-! Patches of buffers: at a position, data is put in the place of some bytes. Patches of places that
lie apart can be made in either order, if the place of the one behind is moved by what the one in front
has added or taken away. -/
namespace DocGuard.Buffer

/-- Data for a place in a buffer, and how many bytes it replaces there. -/
structure Patch where
  position : Int
  data : List UInt8
  length : Int
  deriving DecidableEq, Repr

/-- Moves the cursor to the place of a patch and replaces the bytes there. Both steps answer. -/
def patch (b : Buffer) (p : Patch) : (Except Error Unit × Except Error Int) × Buffer :=
  (((b.seek p.position).1, ((b.seek p.position).2.update p.data p.length).1),
    ((b.seek p.position).2.update p.data p.length).2)

namespace Patch

/-- The answers to a patch that is made. -/
def made (p : Patch) : Except Error Unit × Except Error Int :=
  (.ok (), .ok p.data.length)

/-- The patch, once another one has been made in front of its place. -/
def behind (second first : Patch) : Patch :=
  { second with position := second.position - first.length + first.data.length }

/-- The patch has its place in the buffer and asks for `bytes`: those before the place, then its data,
then what is left behind the bytes that it removes. -/
def Gives (p : Patch) (b : Buffer) (bytes : List UInt8) : Prop :=
  ∃ before removed after, b.content = before ++ removed ++ after ∧ p.position = before.length ∧
    (removed ++ after).drop p.length.toNat = after ∧ bytes = before ++ p.data ++ after

end Patch

/-- The bytes of a buffer, cut up at the places of two patches of which the first lies in front. What
the second one removes may be cut short by the end. -/
structure Regions (b : Buffer) (first second : Patch) where
  before : List UInt8
  removed : List UInt8
  between : List UInt8
  cut : List UInt8
  rest : List UInt8
  content : b.content = before ++ removed ++ between ++ cut ++ rest
  first_position : first.position = before.length
  first_length : first.length = removed.length
  second_position : second.position = (before ++ removed ++ between).length
  second_length : cut.length = min second.length.toNat (cut ++ rest).length

section OnePatch
variable {b : Buffer} {p : Patch} {bytes : List UInt8}

private theorem Patch.Gives.patched (h : p.Gives b bytes) (fits : bytes.length < 2 ^ 63) :
    (b.patch p).1 = p.made ∧ (b.patch p).2.content = bytes := by
  obtain ⟨before, removed, after, content, position, left, rfl⟩ := h
  rw [List.append_assoc] at content
  obtain ⟨moved, shown⟩ := seek_shows content
  rw [← position] at moved shown
  have short : (Split.update ⟨before, removed ++ after⟩ p.data p.length).2.size < 2 ^ 63 := by
    rw [Split.update_eq, Split.size, left, ← List.length_append]
    exact fits
  obtain ⟨count, updated⟩ := shown.update p.data p.length short
  rw [Split.update_eq] at count
  rw [Split.update_eq, left] at updated
  exact ⟨Prod.ext moved count, updated.content⟩

/-- A patch that would make the buffer too long is refused, though the cursor has been moved. -/
theorem Patch.Gives.refused (h : p.Gives b bytes) (long : ¬ bytes.length < 2 ^ 63) :
    ∃ cause, (b.patch p).1 = (.ok (), .error cause) := by
  obtain ⟨before, removed, after, content, position, left, rfl⟩ := h
  rw [List.append_assoc] at content
  obtain ⟨moved, shown⟩ := seek_shows content
  rw [← position] at moved shown
  have deleted := (shown.delete p.length).2
  rw [Split.delete_eq, left] at deleted
  have tooLong : 2 ^ 63 ≤ Split.size ⟨before, after⟩ + p.data.length := by
    simp only [Split.size, List.length_append] at long ⊢
    omega
  obtain ⟨cause, refused⟩ := puts_insert.refuses deleted p.data tooLong
  exact ⟨cause, Prod.ext moved refused⟩

end OnePatch

section TwoPatches
variable {b c : Buffer} {first second : Patch}

private theorem exists_front (bytes : List UInt8) {n : Nat} (within : n ≤ bytes.length) :
    ∃ front back, bytes = front ++ back ∧ n = front.length :=
  ⟨bytes.take n, bytes.drop n, (List.take_append_drop ..).symm, (List.length_take_of_le within).symm⟩

private theorem nonempty_regions (front : 0 ≤ first.position) (long : 0 ≤ first.length)
    (apart : first.position + first.length ≤ second.position) (within : second.position ≤ b.size) :
    Nonempty (Regions b first second) := by
  obtain ⟨start, atStart⟩ := Int.eq_ofNat_of_zero_le front
  obtain ⟨length, ofLength⟩ := Int.eq_ofNat_of_zero_le long
  obtain ⟨place, atPlace⟩ := Int.eq_ofNat_of_zero_le (show 0 ≤ second.position by omega)
  rw [atStart, ofLength, atPlace] at apart
  rw [atPlace, size] at within
  -- The bytes are cut from behind: at the second place, behind what the first patch removes, and at
  -- the first place.
  obtain ⟨front, after, content, rfl⟩ := exists_front b.content (Int.ofNat_le.1 within)
  have inFront : start + length ≤ front.length := by omega
  obtain ⟨middle, between, rfl, reached⟩ := exists_front front inFront
  have inMiddle : start ≤ middle.length := by omega
  obtain ⟨before, removed, rfl, rfl⟩ := exists_front middle inMiddle
  rw [List.length_append] at reached
  refine ⟨⟨before, removed, between, after.take second.length.toNat, after.drop second.length.toNat,
    ?_, atStart, ?_, atPlace, ?_⟩⟩
  · rw [content, List.append_assoc _ (after.take _), List.take_append_drop]
  · rw [ofLength]
    omega
  · rw [List.take_append_drop, List.length_take]

namespace Regions

def withFirst (r : Regions b first second) : List UInt8 :=
  r.before ++ first.data ++ r.between ++ r.cut ++ r.rest

def withSecond (r : Regions b first second) : List UInt8 :=
  r.before ++ r.removed ++ r.between ++ second.data ++ r.rest

def withBoth (r : Regions b first second) : List UInt8 :=
  r.before ++ first.data ++ r.between ++ second.data ++ r.rest

/-- A signed number of 64 bits can count the bytes, whichever of the patches are made. -/
structure Fits (r : Regions b first second) : Prop where
  first : r.withFirst.length < 2 ^ 63
  second : r.withSecond.length < 2 ^ 63
  both : r.withBoth.length < 2 ^ 63

private theorem fits_of_size (r : Regions b first second)
    (room : b.size + first.data.length + second.data.length < 2 ^ 63) : r.Fits := by
  rw [size, r.content] at room
  simp only [List.length_append] at room
  constructor <;> simp only [withFirst, withSecond, withBoth, List.length_append] <;> omega

private theorem drop_cut (r : Regions b first second) :
    (r.cut ++ r.rest).drop second.length.toNat = r.rest := by
  have short := r.second_length
  rcases Nat.le_total second.length.toNat (r.cut ++ r.rest).length with within | beyond
  · rw [Nat.min_eq_left within] at short
    exact List.drop_left' short
  · rw [Nat.min_eq_right beyond, List.length_append] at short
    have none : r.rest = [] := List.length_eq_zero_iff.1 (by omega)
    rw [List.drop_eq_nil_of_le beyond, none]

private theorem drop_removed (r : Regions b first second) (after : List UInt8) :
    (r.removed ++ after).drop first.length.toNat = after := by
  rw [r.first_length, Int.toNat_natCast, List.drop_left]

private theorem first_gives (r : Regions b first second) : first.Gives b r.withFirst := by
  refine ⟨r.before, r.removed, r.between ++ r.cut ++ r.rest, ?_, r.first_position,
    r.drop_removed _, ?_⟩
  · rw [r.content]
    simp only [List.append_assoc]
  · simp only [withFirst, List.append_assoc]

private theorem second_gives (r : Regions b first second) : second.Gives b r.withSecond :=
  ⟨_, r.cut, r.rest, r.content, r.second_position, r.drop_cut, rfl⟩

private theorem first_gives_both (r : Regions b first second) (content : c.content = r.withSecond) :
    first.Gives c r.withBoth := by
  refine ⟨r.before, r.removed, r.between ++ second.data ++ r.rest, ?_, r.first_position,
    r.drop_removed _, ?_⟩
  · rw [content, withSecond]
    simp only [List.append_assoc]
  · simp only [withBoth, List.append_assoc]

private theorem second_gives_both (r : Regions b first second) (content : c.content = r.withFirst) :
    (second.behind first).Gives c r.withBoth := by
  refine ⟨r.before ++ first.data ++ r.between, r.cut, r.rest, content, ?_, r.drop_cut, rfl⟩
  have place := r.second_position
  have length := r.first_length
  simp only [Patch.behind, List.length_append] at place ⊢
  omega

end Regions

/-- Two patches of places that lie apart can be made in either order. If nothing becomes too long on
the way, as when there is room for all bytes and all data together, both orders find their places and
take all the data, and both leave the bytes before, between and behind the places as they were, with the
data of each patch in the place of what it removes. If something does become too long, then one of the
four updates is refused. -/
theorem patches_commute (b : Buffer) (first second : Patch) (front : 0 ≤ first.position)
    (long : 0 ≤ first.length) (apart : first.position + first.length ≤ second.position)
    (within : second.position ≤ b.size) :
    let backward := inTurn patch b [second, first]
    let forward := inTurn patch b [first, second.behind first]
    ∃ r : Regions b first second,
      (b.size + first.data.length + second.data.length < 2 ^ 63 → r.Fits) ∧
      (r.Fits → backward.1 = [second.made, first.made] ∧ forward.1 = [first.made, second.made] ∧
        backward.2.content = r.withBoth ∧ forward.2.content = r.withBoth ∧
        backward.2.size = forward.2.size) ∧
      (¬ r.Fits → ∃ cause, (.ok (), .error cause) ∈ backward.1 ++ forward.1) := by
  intro backward forward
  obtain ⟨r⟩ := nonempty_regions front long apart within
  refine ⟨r, r.fits_of_size, fun fits => ?_, fun long => ?_⟩
  · obtain ⟨secondMade, behind⟩ := r.second_gives.patched fits.second
    obtain ⟨firstMade, before⟩ := r.first_gives.patched fits.first
    obtain ⟨thenFirst, down⟩ := (r.first_gives_both behind).patched fits.both
    obtain ⟨thenSecond, up⟩ := (r.second_gives_both before).patched fits.both
    refine ⟨?_, ?_, down, up, ?_⟩
    · exact congrArg₂ (fun x y => [x, y]) secondMade thenFirst
    · exact congrArg₂ (fun x y => [x, y]) firstMade thenSecond
    · exact congrArg List.length (down.trans up.symm)
  · by_cases fitsFirst : r.withFirst.length < 2 ^ 63
    · by_cases fitsSecond : r.withSecond.length < 2 ^ 63
      · -- Each patch could be made alone, and the one that comes second is refused.
        have tooLong : ¬ r.withBoth.length < 2 ^ 63 := fun both => long ⟨fitsFirst, fitsSecond, both⟩
        have behind := (r.second_gives.patched fitsSecond).2
        obtain ⟨cause, refused⟩ := (r.first_gives_both behind).refused tooLong
        exact ⟨cause, by simp [backward, inTurn, refused]⟩
      · obtain ⟨cause, refused⟩ := r.second_gives.refused fitsSecond
        exact ⟨cause, by simp [backward, inTurn, refused]⟩
    · obtain ⟨cause, refused⟩ := r.first_gives.refused fitsFirst
      exact ⟨cause, by simp [forward, inTurn, refused]⟩

/-- Places that touch, with a removal that goes past the end in both orders. -/
theorem patches_commute_past_the_end :
    let b := ofBytes [0, 1, 2, 3, 4, 5, 6, 7]
    let first : Patch := ⟨1, [10, 11, 12, 13], 2⟩
    let second : Patch := ⟨3, [20], 100⟩
    0 ≤ first.position ∧ 0 ≤ first.length ∧ first.position + first.length ≤ second.position ∧
      second.position ≤ b.size ∧
      (inTurn patch b [second, first]).1 = [(.ok (), .ok 1), (.ok (), .ok 4)] ∧
      (inTurn patch b [first, second.behind first]).1 = [(.ok (), .ok 4), (.ok (), .ok 1)] ∧
      (inTurn patch b [second, first]).2.content = [0, 10, 11, 12, 13, 20] ∧
      (inTurn patch b [first, second.behind first]).2.content = [0, 10, 11, 12, 13, 20] := by
  intro b first second
  have front : 0 ≤ first.position := by decide
  have long : 0 ≤ first.length := by decide
  have apart : first.position + first.length ≤ second.position := by decide
  have within : second.position ≤ b.size := by decide
  obtain ⟨r, room, taken, -⟩ := patches_commute b first second front long apart within
  obtain ⟨backward, forward, down, up, -⟩ := taken (room (by decide))
  have patched : (inTurn patch b [second, first]).2.content = [0, 10, 11, 12, 13, 20] := by
    decide +kernel
  exact ⟨front, long, apart, within, backward, forward, patched, (up.trans down.symm).trans patched⟩

end TwoPatches

end DocGuard.Buffer
