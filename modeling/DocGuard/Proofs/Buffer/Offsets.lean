import Mathlib.Algebra.Group.Nat.Defs
import Mathlib.Algebra.Order.Ring.Int
import DocGuard.Buffer.Editable

/-! Positions asked for in words of 64 bits: an unsigned word from the start, or a signed one from the
end or from the cursor. The position that is meant may be one that no signed word can tell. A cursor
that is moved with words alone, by sums that are checked for overflow, goes where it goes with numbers
without bounds. -/
namespace DocGuard.Buffer

/-- Moves the cursor with words alone: the answer, and where the cursor stands then. -/
def seekWords (size position : Int64) (o : Offset) : Except StreamError UInt64 × Int64 :=
  match o.target? size position with
  | none => (.error .outOfRange, position)
  | some t =>
    if t < 0 then (.error (.badPosition .negativePosition), position)
    else if size < t then
      (.error (.badPosition (.positionBeyondEnd t.toInt size.toInt)), position)
    else (.ok t.toUInt64, t)

/-- Why a position is refused that lies outside of the buffer. -/
def refusal (b : Buffer) (t : Int) : ArgumentError :=
  if t < 0 then .negativePosition else .positionBeyondEnd t b.size

variable {b : Buffer} {t : Int} {whence : Whence}

section Words

theorem isSigned64_iff (n : Int) : isSigned64 n = true ↔ -2 ^ 63 ≤ n ∧ n < 2 ^ 63 := by
  simp [isSigned64]

private theorem map_toInt_signedWord? (n : UInt64) :
    (signedWord? n).map Int64.toInt = if isSigned64 n.toNat then some (n.toNat : Int) else none := by
  unfold signedWord?
  split_ifs with small signed signed
  · simp [Int64.toInt_ofNat_of_lt small]
  · rw [isSigned64_iff] at signed
    omega
  · rw [isSigned64_iff] at signed
    omega
  · rfl

theorem saddOverflow_iff (m n : Int64) :
    m.toBitVec.saddOverflow n.toBitVec = true ↔ ¬ isSigned64 (m.toInt + n.toInt) = true := by
  rw [isSigned64_iff]
  simp only [BitVec.saddOverflow, Int64.toInt_toBitVec, Bool.or_eq_true, decide_eq_true_eq]
  omega

private theorem map_toInt_addWords? (m n : Int64) :
    (addWords? m n).map Int64.toInt =
      if isSigned64 (m.toInt + n.toInt) then some (m.toInt + n.toInt) else none := by
  unfold addWords?
  by_cases overflow : m.toBitVec.saddOverflow n.toBitVec = true
  · rw [if_pos overflow, if_neg ((saddOverflow_iff m n).1 overflow)]
    rfl
  · have signed := Decidable.not_not.1 (mt (saddOverflow_iff m n).2 overflow)
    have sum : (m + n).toInt = m.toInt + n.toInt := BitVec.toInt_add_of_not_saddOverflow overflow
    rw [if_neg overflow, if_pos signed, Option.map_some, sum]

theorem toInt_size (short : b.size < 2 ^ 63) : (Int64.ofNat b.size).toInt = b.size :=
  Int64.toInt_ofNat_of_lt short

theorem toInt_position (short : b.size < 2 ^ 63) : (Int64.ofNat b.position).toInt = b.position :=
  Int64.toInt_ofNat_of_lt (Nat.lt_of_le_of_lt b.position_le short)

private theorem map_toInt_target? (short : b.size < 2 ^ 63) (o : Offset) :
    (o.target? (.ofNat b.size) (.ofNat b.position)).map Int64.toInt =
      if isSigned64 (b.target o.whence) then some (b.target o.whence) else none := by
  cases o with
  | start n => exact map_toInt_signedWord? n
  | fromEnd n =>
    have sum := map_toInt_addWords? (.ofNat b.size) n
    rw [toInt_size short] at sum
    exact sum
  | fromCursor n =>
    have sum := map_toInt_addWords? (.ofNat b.position) n
    rw [toInt_position short] at sum
    exact sum

end Words

section Numbers

theorem seek_of_within (low : 0 ≤ t) (high : t ≤ b.size) :
    ∃ moved, b.seek t = (.ok (), moved) ∧ moved.content = b.content ∧ (moved.position : Int) = t := by
  have reached : t.toNat ≤ b.content.length := by
    rw [size] at high
    omega
  refine ⟨⟨b.content, t.toNat, reached⟩, ?_, rfl, Int.toNat_of_nonneg low⟩
  rw [seek, if_neg (by omega), dif_pos reached]

/-- A position outside of the buffer is refused. -/
theorem seek_of_outside (outside : ¬ (0 ≤ t ∧ t ≤ b.size)) :
    b.seek t = (.error (.invalidArgument (b.refusal t)), b) := by
  unfold seek refusal
  split_ifs with negative within
  · rfl
  · rw [size] at outside
    omega
  · rfl

private theorem seekTo_of_far (far : ¬ isSigned64 (b.target whence) = true) :
    b.seekTo whence = (.error .outOfRange, b) :=
  if_neg far

private theorem seekTo_of_within (short : b.size < 2 ^ 63) (low : 0 ≤ b.target whence)
    (high : b.target whence ≤ b.size) :
    ∃ moved, b.seekTo whence = (.ok (b.target whence).toNat, moved) ∧ moved.content = b.content ∧
      (moved.position : Int) = b.target whence := by
  have signed : isSigned64 (b.target whence) = true := by
    rw [isSigned64_iff]
    omega
  obtain ⟨moved, sought, content, position⟩ := seek_of_within low high
  refine ⟨moved, ?_, content, position⟩
  rw [seekTo, if_pos signed, sought, ← position, Int.toNat_natCast]

private theorem seekTo_of_outside (signed : isSigned64 (b.target whence) = true)
    (outside : ¬ (0 ≤ b.target whence ∧ b.target whence ≤ b.size)) :
    b.seekTo whence = (.error (.badPosition (b.refusal (b.target whence))), b) := by
  rw [seekTo, if_pos signed, seek_of_outside outside]
  rfl

end Numbers

section Agreement
variable {o : Offset}

private theorem seekWords_of_none {size position : Int64} (h : o.target? size position = none) :
    seekWords size position o = (.error .outOfRange, position) := by
  rw [seekWords, h]

private theorem seekWords_of_some {size position w : Int64} (h : o.target? size position = some w) :
    seekWords size position o =
      if w < 0 then (.error (.badPosition .negativePosition), position)
      else if size < w then
        (.error (.badPosition (.positionBeyondEnd w.toInt size.toInt)), position)
      else (.ok w.toUInt64, w) := by
  rw [seekWords, h]

theorem toNat_toUInt64 {w : Int64} (h : 0 ≤ w.toInt) : w.toUInt64.toNat = w.toInt.toNat := by
  have nonneg : 0 ≤ w := Int64.le_iff_toInt_le.2 h
  rw [Int64.toNat_toUInt64_of_le nonneg]
  rfl

theorem lt_zero_iff (w : Int64) : w < 0 ↔ w.toInt < 0 :=
  Int64.lt_iff_toInt_lt

theorem size_lt_iff (short : b.size < 2 ^ 63) (w : Int64) :
    .ofNat b.size < w ↔ (b.size : Int) < w.toInt := by
  rw [Int64.lt_iff_toInt_lt, toInt_size short]

/-- Words move the cursor as numbers do, and nothing on the way is too large for them. -/
theorem seekWords_agrees (short : b.size < 2 ^ 63) (o : Offset) :
    let words := seekWords (.ofNat b.size) (.ofNat b.position) o
    words.1.map UInt64.toNat = (b.seekTo o.whence).1 ∧
      words.2.toInt = (b.seekTo o.whence).2.position := by
  intro words
  have meant := map_toInt_target? short o
  by_cases signed : isSigned64 (b.target o.whence) = true
  · rw [if_pos signed] at meant
    obtain ⟨w, found, same⟩ := Option.map_eq_some_iff.1 meant
    have answer : words = _ := seekWords_of_some found
    simp only [lt_zero_iff, size_lt_iff short, toInt_size short, same] at answer
    by_cases negative : b.target o.whence < 0
    · rw [if_pos negative] at answer
      rw [answer, seekTo_of_outside signed (by omega), refusal, if_pos negative]
      exact ⟨rfl, toInt_position short⟩
    by_cases beyond : b.size < b.target o.whence
    · rw [if_neg negative, if_pos beyond] at answer
      rw [answer, seekTo_of_outside signed (by omega), refusal, if_neg negative]
      exact ⟨rfl, toInt_position short⟩
    · rw [if_neg negative, if_neg beyond] at answer
      obtain ⟨moved, sought, -, position⟩ :=
        seekTo_of_within short (Int.not_lt.1 negative) (Int.not_lt.1 beyond)
      have told : w.toUInt64.toNat = (b.target o.whence).toNat := by
        rw [toNat_toUInt64 (by omega), same]
      rw [answer, sought]
      exact ⟨congrArg Except.ok told, same.trans position.symm⟩
  · rw [if_neg signed] at meant
    have answer : words = _ := seekWords_of_none (Option.map_eq_none_iff.1 meant)
    rw [answer, seekTo_of_far signed]
    exact ⟨rfl, toInt_position short⟩

end Agreement

section Wordings

private theorem head?_of_beginning {c : Char} (beginning rest : String)
    (first : beginning.toList.head? = some c) : (beginning ++ rest).toList.head? = some c := by
  rw [String.toList_append, List.head?_append, first]
  rfl

private theorem refusal_message_ne (b : Buffer) (t : Int) :
    (b.refusal t).message ≠ StreamError.outOfRange.message := by
  unfold refusal
  split_ifs
  · decide
  · have begun := head?_of_beginning (c := 'P') "Position "
      (toString t ++ (" must not be larger than size " ++ toString (b.size : Int))) (by decide)
    rw [← String.append_assoc, ← String.append_assoc] at begun
    intro same
    have other : some 'P' = StreamError.outOfRange.message.toList.head? :=
      begun.symm.trans (congrArg (fun text : String => text.toList.head?) same)
    exact absurd other (by decide)

end Wordings

/-- A position that is asked for in words is reached exactly if it lies within the buffer, and is then
the answer and the place of the cursor. Otherwise nothing changes, and the error is one of invalid
input: that the position is out of range, if no signed word can tell it, and else what the buffer itself
says against it. Words alone come to the same, so that nothing overflows on the way. All that is asked of
the buffer is that a signed number of 64 bits can count its bytes, as those of every buffer in memory. -/
theorem seekTo_exact (b : Buffer) (short : b.size < 2 ^ 63) (o : Offset) :
    let t := b.target o.whence
    let words := seekWords (.ofNat b.size) (.ofNat b.position) o
    (0 ≤ t ∧ t ≤ b.size → ∃ moved, b.seekTo o.whence = (.ok t.toNat, moved) ∧
        moved.content = b.content ∧ (moved.position : Int) = t) ∧
      (¬ (0 ≤ t ∧ t ≤ b.size) → ∃ e, b.seekTo o.whence = (.error e, b) ∧ e.kind = .invalidInput ∧
        (e.message = "seek position out of range" ↔ ¬ (-2 ^ 63 ≤ t ∧ t < 2 ^ 63)) ∧
        (-2 ^ 63 ≤ t ∧ t < 2 ^ 63 → ∃ cause,
          b.seek t = (.error (.invalidArgument cause), b) ∧ e.message = cause.message)) ∧
      words.1.map UInt64.toNat = (b.seekTo o.whence).1 ∧
      words.2.toInt = (b.seekTo o.whence).2.position := by
  intro t words
  refine ⟨fun within => seekTo_of_within short within.1 within.2, fun outside => ?_,
    seekWords_agrees short o⟩
  by_cases signed : isSigned64 t = true
  · have range := (isSigned64_iff t).1 signed
    refine ⟨_, seekTo_of_outside signed outside, rfl, ?_, fun _ => ?_⟩
    · exact iff_of_false (b.refusal_message_ne t) (not_not_intro range)
    · exact ⟨_, seek_of_outside outside, rfl⟩
  · have range := mt (isSigned64_iff t).2 signed
    exact ⟨_, seekTo_of_far signed, rfl, iff_of_true rfl range, fun told => absurd told range⟩

/-- From a cursor in the middle, the largest offset leads to where no word reaches, the least one in
front of the start, and one from the end to the start. -/
theorem seekTo_exact_at_extremes :
    let b : Buffer := ⟨[1, 2, 3, 4, 5], 2, by decide⟩
    b.size < 2 ^ 63 ∧
      (∃ e, b.seekTo (Offset.fromCursor Int64.maxValue).whence = (.error e, b) ∧
        e.message = "seek position out of range") ∧
      (∃ e, b.seekTo (Offset.fromCursor Int64.minValue).whence = (.error e, b) ∧
        e.message ≠ "seek position out of range") ∧
      ∃ moved, b.seekTo (Offset.fromEnd (-5)).whence = (.ok 0, moved) ∧
        (moved.position : Int) = 0 := by
  intro b
  have short : b.size < 2 ^ 63 := by decide
  obtain ⟨-, far, -⟩ := b.seekTo_exact short (.fromCursor Int64.maxValue)
  obtain ⟨-, before, -⟩ := b.seekTo_exact short (.fromCursor Int64.minValue)
  obtain ⟨start, -⟩ := b.seekTo_exact short (.fromEnd (-5))
  obtain ⟨e, failed, -, told, -⟩ := far (by decide)
  obtain ⟨e', failed', -, told', -⟩ := before (by decide)
  obtain ⟨moved, sought, -, position⟩ := start (by decide)
  exact ⟨short, ⟨e, failed, told.2 (by decide)⟩,
    ⟨e', failed', fun same => told'.1 same (by decide)⟩, moved, sought, position⟩

end DocGuard.Buffer
