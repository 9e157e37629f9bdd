import Mathlib.Algebra.Group.Nat.Defs
import Mathlib.Data.List.Infix
import DocGuard.Buffer.Op

/-! Buffers as split lists: the bytes before the cursor and those behind it. On a split list an
edit is a change of one end of a list, without offsets and sizes, and a buffer that stays below the
largest length cannot be told from the split list by any history of operations. -/
namespace DocGuard.Buffer

/-- Bytes that are cut in two at the cursor. -/
structure Split where
  before : List UInt8
  after : List UInt8
  deriving DecidableEq, Repr

namespace Split

/-- All bytes are behind the cursor. -/
def ofBytes (bytes : List UInt8) : Split :=
  ⟨[], bytes⟩

def bytes (s : Split) : List UInt8 :=
  s.before ++ s.after

def size (s : Split) : Nat :=
  s.before.length + s.after.length

/-- Moves up to `n` bytes over the cursor. -/
def read (s : Split) (n : Nat) : List UInt8 × Split :=
  let moved := s.after.take n
  (moved, ⟨s.before ++ moved, s.after.drop n⟩)

/-- A length that is not positive moves nothing. -/
def readBytes (s : Split) (n : Int) : List UInt8 × Split :=
  if n ≤ 0 then ([], s) else s.read n.toNat

/-- Puts bytes in front of the cursor. -/
def insert (s : Split) (data : List UInt8) : Nat × Split :=
  (data.length, ⟨s.before ++ data, s.after⟩)

/-- Drops up to `n` bytes behind the cursor, and tells how many. -/
def delete (s : Split) (n : Int) : Nat × Split :=
  if n ≤ 0 then (0, s) else (min n.toNat s.after.length, ⟨s.before, s.after.drop n.toNat⟩)

/-- Drops bytes, then puts others in their place. -/
def update (s : Split) (data : List UInt8) (n : Int) : Nat × Split :=
  (s.delete n).2.insert data

/-- Drops as many bytes as are put in their place. -/
def write (s : Split) (data : List UInt8) : Nat × Split :=
  s.update data data.length

/-- Cuts the bytes anew. A cut that is not within them is refused. -/
def seek (s : Split) (position : Int) : Except Error Unit × Split :=
  if position < 0 then (.error (.invalidArgument .negativePosition), s)
  else if position ≤ s.size then
    (.ok (), ⟨s.bytes.take position.toNat, s.bytes.drop position.toNat⟩)
  else (.error (.invalidArgument (.positionBeyondEnd position s.size)), s)

/-- Moves all bytes over the cursor, if it moves any at all. -/
def drain (s : Split) (chunk : Nat) : List UInt8 × Split :=
  if chunk = 0 then ([], s) else (s.after, ⟨s.before ++ s.after, []⟩)

/-- The answer to an operation and the split list after it. -/
def step (s : Split) : Op → Answer × Split
  | .read n => (.bytes (s.read n).1, (s.read n).2)
  | .readBytes n => (.bytes (s.readBytes n).1, (s.readBytes n).2)
  | .insert data => (.count (s.insert data).1, (s.insert data).2)
  | .delete n => (.count (s.delete n).1, (s.delete n).2)
  | .update data n => (.count (s.update data n).1, (s.update data n).2)
  | .write data => (.count (s.write data).1, (s.write data).2)
  | .seek position => (.ofUnit (s.seek position).1, (s.seek position).2)
  | .setSize _ => (.failed (.notImplemented "setting stream size directly"), s)
  | .flush | .canRead | .canWrite => (.flag true, s)
  | .isEmpty => (.flag s.bytes.isEmpty, s)
  | .position => (.count s.before.length, s)
  | .size => (.count s.size, s)
  | .drain chunk => (.bytes (s.drain chunk).1, (s.drain chunk).2)

/-- The answers to a list of operations, in order, and the split list after them. -/
def steps (s : Split) : List Op → List Answer × Split
  | [] => ([], s)
  | op :: ops =>
    let (answer, next) := s.step op
    let (answers, last) := next.steps ops
    (answer :: answers, last)

theorem readBytes_eq (s : Split) (n : Int) : s.readBytes n = s.read n.toNat := by
  by_cases none : n ≤ 0
  · have zero : n.toNat = 0 := Int.toNat_of_nonpos none
    simp [readBytes, read, none, zero]
  · exact if_neg none

theorem delete_eq (s : Split) (n : Int) :
    s.delete n = (min n.toNat s.after.length, ⟨s.before, s.after.drop n.toNat⟩) := by
  by_cases none : n ≤ 0
  · have zero : n.toNat = 0 := Int.toNat_of_nonpos none
    simp [delete, none, zero]
  · exact if_neg none

theorem update_eq (s : Split) (data : List UInt8) (n : Int) :
    s.update data n = (data.length, ⟨s.before ++ data, s.after.drop n.toNat⟩) := by
  rw [update, delete_eq, insert]

theorem write_eq (s : Split) (data : List UInt8) :
    s.write data = (data.length, ⟨s.before ++ data, s.after.drop data.length⟩) := by
  rw [write, update_eq, Int.toNat_natCast]

end Split

/-- A buffer shows a split list: it holds both parts, one behind the other, and its cursor stands
between them. -/
structure Shows (b : Buffer) (s : Split) : Prop where
  content : b.content = s.before ++ s.after
  position : b.position = s.before.length
  size : b.size = s.before.length + s.after.length

section Refinement
variable {b : Buffer} {s : Split}

private theorem Shows.of_parts (content : b.content = s.before ++ s.after)
    (position : b.position = s.before.length) : b.Shows s := by
  refine ⟨content, position, ?_⟩
  rw [Buffer.size, content, List.length_append]

theorem exists_shows (b : Buffer) : ∃ s : Split, b.Shows s :=
  ⟨⟨b.content.take b.position, b.content.drop b.position⟩,
    .of_parts (List.take_append_drop ..).symm (List.length_take_of_le b.position_le).symm⟩

theorem Shows.unique {c : Buffer} (h : b.Shows s) (g : c.Shows s) : b = c := by
  obtain ⟨content, position, fits⟩ := b
  obtain ⟨other, place, fits'⟩ := c
  obtain rfl : content = other := h.content.trans g.content.symm
  obtain rfl : position = place := h.position.trans g.position.symm
  rfl

theorem ofBytes_shows (bytes : List UInt8) : (ofBytes bytes).Shows (.ofBytes bytes) :=
  .of_parts rfl rfl

theorem Shows.remaining (h : b.Shows s) : b.remaining = s.after.length := by
  rw [Buffer.remaining, h.size, h.position]
  omega

theorem Shows.take_position (h : b.Shows s) : b.content.take b.position = s.before := by
  rw [h.content, h.position, List.take_left]

theorem Shows.drop_position (h : b.Shows s) : b.content.drop b.position = s.after := by
  rw [h.content, h.position, List.drop_left]

private theorem Shows.drop_beyond (h : b.Shows s) (n : Nat) :
    b.content.drop (b.position + n) = s.after.drop n := by
  rw [← List.drop_drop, h.drop_position]

theorem Shows.read (h : b.Shows s) (n : Nat) :
    (b.read n).1 = (s.read n).1 ∧ (b.read n).2.Shows (s.read n).2 := by
  have moved : (b.read n).1 = s.after.take n := by
    rw [Buffer.read, h.drop_position]
  refine ⟨moved, .of_parts ?_ ?_⟩
  · calc (b.read n).2.content
        = s.before ++ s.after := h.content
      _ = s.before ++ (s.after.take n ++ s.after.drop n) := by rw [List.take_append_drop]
      _ = (s.read n).2.before ++ (s.read n).2.after := (List.append_assoc ..).symm
  · calc (b.read n).2.position
        = s.before.length + min n s.after.length := by
          simp only [Buffer.read, h.position, h.remaining]
      _ = (s.read n).2.before.length := by
          simp only [Split.read, List.length_append, List.length_take]

theorem Shows.readBytes (h : b.Shows s) (n : Int) :
    (b.readBytes n).1 = (s.readBytes n).1 ∧ (b.readBytes n).2.Shows (s.readBytes n).2 := by
  rw [Split.readBytes_eq]
  exact h.read n.toNat

/-- As long as the result is not too long, the bytes are put before the cursor. -/
theorem Shows.insert (h : b.Shows s) (data : List UInt8) (fits : (s.insert data).2.size < 2 ^ 63) :
    (b.insert data).1 = .ok (s.insert data).1 ∧ (b.insert data).2.Shows (s.insert data).2 := by
  have short : ¬ maxLength < b.size + data.length := by
    rw [h.size]
    simp only [Split.insert, Split.size, List.length_append] at fits
    unfold maxLength
    omega
  unfold Buffer.insert
  rw [if_neg short]
  refine ⟨rfl, .of_parts ?_ ?_⟩
  · simp only [h.take_position, h.drop_position, Split.insert]
  · simp only [h.position, Split.insert, List.length_append]

theorem Shows.delete (h : b.Shows s) (n : Int) :
    (b.delete n).1 = (s.delete n).1 ∧ (b.delete n).2.Shows (s.delete n).2 := by
  rw [Split.delete_eq]
  have count : (b.delete n).1 = min n.toNat s.after.length := by
    simp only [Buffer.delete, h.remaining]
  -- dropping more than there is drops all
  have rest : (b.delete n).2.content = s.before ++ s.after.drop n.toNat := by
    simp only [Buffer.delete, h.take_position, h.drop_beyond, h.remaining]
    rcases Nat.le_total n.toNat s.after.length with short | long
    · rw [Nat.min_eq_left short]
    · rw [Nat.min_eq_right long, List.drop_length, List.drop_eq_nil_of_le long]
  exact ⟨count, .of_parts rest h.position⟩

theorem Shows.update (h : b.Shows s) (data : List UInt8) (n : Int)
    (fits : (s.update data n).2.size < 2 ^ 63) :
    (b.update data n).1 = .ok (s.update data n).1 ∧ (b.update data n).2.Shows (s.update data n).2 :=
  (h.delete n).2.insert data fits

theorem Shows.seek (h : b.Shows s) (position : Int) :
    (b.seek position).1 = (s.seek position).1 ∧ (b.seek position).2.Shows (s.seek position).2 := by
  have size : b.content.length = s.size := h.size
  unfold Buffer.seek Split.seek
  by_cases negative : position < 0
  · rw [if_pos negative, if_pos negative]
    exact ⟨rfl, h⟩
  by_cases within : position ≤ s.size
  · have reached : position.toNat ≤ b.content.length := by omega
    have long : position.toNat ≤ s.bytes.length := by
      rw [Split.bytes, ← h.content]
      exact reached
    rw [if_neg negative, dif_pos reached, if_neg negative, if_pos within]
    refine ⟨rfl, .of_parts ?_ ?_⟩
    · rw [List.take_append_drop]
      exact h.content
    · simp only [List.length_take]
      omega
  · have beyond : ¬ position.toNat ≤ b.content.length := by omega
    have told : b.size = s.size := h.size
    rw [if_neg negative, dif_neg beyond, if_neg negative, if_neg within, told]
    exact ⟨rfl, h⟩

/-- The cursor can be moved to each place in the content. -/
theorem seek_shows {before after : List UInt8} (content : b.content = before ++ after) :
    (b.seek before.length).1 = .ok () ∧ (b.seek before.length).2.Shows ⟨before, after⟩ := by
  have reached : (before.length : Int).toNat ≤ b.content.length := by
    rw [content, List.length_append]
    omega
  unfold Buffer.seek
  rw [if_neg (by omega), dif_pos reached]
  exact ⟨rfl, .of_parts content (Int.toNat_natCast _)⟩

/-- Reading in chunks comes to the end, whatever the size of the chunks. -/
theorem Shows.drain (h : b.Shows s) (chunk : Nat) :
    (b.drain chunk).1 = (s.drain chunk).1 ∧ (b.drain chunk).2.Shows (s.drain chunk).2 := by
  induction left : s.after.length using Nat.strong_induction_on generalizing b s with
  | _ n ih =>
    subst left
    rw [Buffer.drain, h.remaining]
    by_cases none : chunk = 0
    · have still : ¬ (0 < chunk ∧ 0 < s.after.length) := by omega
      rw [dif_neg still, Split.drain, if_pos none]
      exact ⟨rfl, h⟩
    rw [Split.drain, if_neg none]
    by_cases ended : s.after.length = 0
    · have still : ¬ (0 < chunk ∧ 0 < s.after.length) := by omega
      have empty : s.after = [] := List.length_eq_zero_iff.1 ended
      rw [dif_neg still]
      refine ⟨empty.symm, .of_parts ?_ ?_⟩
      · rw [h.content, List.append_nil]
      · rw [h.position, empty, List.append_nil]
    -- one chunk is read, and the rest is drained from what is left
    have more : 0 < chunk ∧ 0 < s.after.length := by omega
    obtain ⟨moved, shown⟩ := h.read chunk
    have shorter : (s.read chunk).2.after.length < s.after.length := by
      simp only [Split.read, List.length_drop]
      omega
    obtain ⟨rest, last⟩ := ih _ shorter shown rfl
    have onward : (s.read chunk).2.drain chunk =
        (s.after.drop chunk, ⟨s.before ++ s.after, []⟩) := by
      simp only [Split.drain, none, if_false, Split.read, List.append_assoc,
        List.take_append_drop]
    rw [onward] at rest last
    rw [dif_pos more]
    refine ⟨?_, last⟩
    calc (b.read chunk).1 ++ ((b.read chunk).2.drain chunk).1
        = s.after.take chunk ++ s.after.drop chunk := by rw [moved, rest]; rfl
      _ = s.after := List.take_append_drop ..

/-- An operation gives the same answer on both sides, and keeps them together. -/
theorem Shows.step (h : b.Shows s) (op : Op) (fits : (s.step op).2.size < 2 ^ 63) :
    (b.step op).1 = (s.step op).1 ∧ (b.step op).2.Shows (s.step op).2 := by
  cases op with
  | read n => exact ⟨congrArg Answer.bytes (h.read n).1, (h.read n).2⟩
  | readBytes n => exact ⟨congrArg Answer.bytes (h.readBytes n).1, (h.readBytes n).2⟩
  | insert data =>
    obtain ⟨answer, shown⟩ := h.insert data fits
    exact ⟨congrArg Answer.ofCount answer, shown⟩
  | delete n =>
    obtain ⟨answer, shown⟩ := h.delete n
    exact ⟨congrArg (fun count : Nat => Answer.count count) answer, shown⟩
  | update data n =>
    obtain ⟨answer, shown⟩ := h.update data n fits
    exact ⟨congrArg Answer.ofCount answer, shown⟩
  | write data =>
    obtain ⟨answer, shown⟩ := h.update data data.length fits
    exact ⟨congrArg Answer.ofCount answer, shown⟩
  | seek position => exact ⟨congrArg Answer.ofUnit (h.seek position).1, (h.seek position).2⟩
  | setSize size => exact ⟨rfl, h⟩
  | flush | canRead | canWrite => exact ⟨rfl, h⟩
  | isEmpty =>
    refine ⟨congrArg Answer.flag ?_, h⟩
    rw [Buffer.isEmpty, Buffer.size, h.content, ← Split.bytes]
    cases s.bytes <;> rfl
  | position => exact ⟨congrArg (fun n : Nat => Answer.count n) h.position, h⟩
  | size => exact ⟨congrArg (fun n : Nat => Answer.count n) h.size, h⟩
  | drain chunk => exact ⟨congrArg Answer.bytes (h.drain chunk).1, (h.drain chunk).2⟩

theorem Shows.steps (h : b.Shows s) (ops : List Op)
    (fits : ∀ done, done <+: ops → (s.steps done).2.size < 2 ^ 63) :
    (b.steps ops).1 = (s.steps ops).1 ∧
      ∀ done, done <+: ops → (b.steps done).2.Shows (s.steps done).2 := by
  induction ops generalizing b s with
  | nil =>
    refine ⟨rfl, fun done short => ?_⟩
    obtain rfl := List.prefix_nil.1 short
    exact h
  | cons op ops ih =>
    have first : (s.step op).2.size < 2 ^ 63 := fits [op] (List.prefix_append [op] ops)
    obtain ⟨answer, shown⟩ := h.step op first
    have later : ∀ done, done <+: ops → ((s.step op).2.steps done).2.size < 2 ^ 63 :=
      fun done short => fits (op :: done) ((List.prefix_cons_inj op).2 short)
    obtain ⟨answers, states⟩ := ih shown later
    refine ⟨congrArg₂ List.cons answer answers, fun done short => ?_⟩
    rcases List.prefix_cons_iff.1 short with rfl | ⟨rest, rfl, shorter⟩
    · exact h
    · exact states rest shorter

end Refinement

end DocGuard.Buffer
