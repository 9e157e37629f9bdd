import DocGuard.Proofs.Buffer.Offsets
import DocGuard.Proofs.Buffer.Undo

/-! The fields of an editable buffer. While a signed word can count the bytes, each operation that changes
the fields one by one with checked words changes them together, as one changes bytes with a cursor among
them; a buffer of fields is then as little to be told from a split list as those bytes are. -/
namespace DocGuard
open Buffer EditableBuffer

section Words
variable {m n : Nat}

private theorem addWords?_ofNat (small : m + n < 2 ^ 63) :
    addWords? (.ofNat m) (.ofNat n) = some (.ofNat (m + n)) := by
  have signed : isSigned64 ((Int64.ofNat m).toInt + (Int64.ofNat n).toInt) = true := by
    rw [Int64.toInt_ofNat_of_lt (by omega), Int64.toInt_ofNat_of_lt (by omega), isSigned64_iff]
    omega
  rw [addWords?, if_neg fun overflow => (saddOverflow_iff ..).1 overflow signed, Int64.ofNat_add]

private theorem subWords?_ofNat (less : n ≤ m) (small : m < 2 ^ 63) :
    subWords? (.ofNat m) (.ofNat n) = some (.ofNat (m - n)) := by
  have within : ¬ (Int64.ofNat m).toBitVec.ssubOverflow (Int64.ofNat n).toBitVec = true := by
    simp only [BitVec.ssubOverflow, Int64.toInt_toBitVec, Bool.or_eq_true, decide_eq_true_eq]
    rw [Int64.toInt_ofNat_of_lt small, Int64.toInt_ofNat_of_lt (by omega)]
    omega
  rw [subWords?, if_neg within, Int64.ofNat_sub m n less]

private theorem ofNat_lt_ofNat_iff (left : m < 2 ^ 63) (right : n < 2 ^ 63) :
    Int64.ofNat m < .ofNat n ↔ m < n := by
  rw [Int64.lt_iff_toInt_lt, Int64.toInt_ofNat_of_lt left, Int64.toInt_ofNat_of_lt right,
    Int.ofNat_lt]

private theorem zero_lt_ofNat_iff (small : n < 2 ^ 63) : 0 < Int64.ofNat n ↔ 0 < n :=
  ofNat_lt_ofNat_iff (m := 0) (by omega) small

private theorem min_ofNat (left : m < 2 ^ 63) (right : n < 2 ^ 63) :
    min (Int64.ofNat m) (.ofNat n) = .ofNat (min m n) := by
  have less : Int64.ofNat m ≤ .ofNat n ↔ m ≤ n := by
    rw [Int64.le_iff_toInt_le, Int64.toInt_ofNat_of_lt left, Int64.toInt_ofNat_of_lt right,
      Int.ofNat_le]
  change (if Int64.ofNat m ≤ .ofNat n then _ else _) = _
  by_cases first : m ≤ n
  · rw [if_pos (less.2 first), Nat.min_eq_left first]
  · rw [if_neg (mt less.1 first), Nat.min_eq_right (by omega)]

private theorem index_ofNat (small : n < 2 ^ 63) : index (.ofNat n) = n := by
  have told : (Int64.ofNat n).toInt = n := Int64.toInt_ofNat_of_lt small
  rw [index, toNat_toUInt64 (by omega), told, Int.toNat_natCast]

private theorem toNat_eq_zero {w : Int64} (none : w ≤ 0) : w.toInt.toNat = 0 :=
  Int.toNat_of_nonpos (Int64.le_iff_toInt_le.1 none)

private theorem toInt_toNat_lt (w : Int64) : w.toInt.toNat < 2 ^ 63 := by
  have upper := w.toInt_lt
  omega

private theorem min_of_pos {w : Int64} (positive : ¬ w ≤ 0) (small : n < 2 ^ 63) :
    min w (.ofNat n) = .ofNat (min w.toInt.toNat n) := by
  have natural : Int64.ofNat w.toInt.toNat = w := by
    rw [Int64.le_iff_toInt_le, Int64.toInt_zero] at positive
    rw [← Int64.toInt_inj, Int64.toInt_ofNat_of_lt (toInt_toNat_lt w), Int.toNat_of_nonneg (by omega)]
  rw [← min_ofNat (toInt_toNat_lt w) small, natural]

end Words

section Slices
variable {bytes data : List UInt8} {first count : Nat}

private theorem slice?_eq (within : first + count ≤ bytes.length) :
    slice? bytes first (first + count) = some ((bytes.drop first).take count) := by
  rw [slice?, if_pos ⟨Nat.le_add_right .., within⟩, List.drop_take, Nat.add_sub_cancel_left]

private theorem splice?_eq (within : first + count ≤ bytes.length) :
    splice? bytes first (first + count) data =
      some (bytes.take first ++ data ++ bytes.drop (first + count)) := by
  rw [splice?, if_pos ⟨Nat.le_add_right .., within⟩]

end Slices

namespace Buffer
variable {b : Buffer}

private theorem remaining_le (b : Buffer) : b.position + b.remaining = b.content.length := by
  have := b.position_le
  rw [remaining, size]
  omega

private theorem length_read (b : Buffer) (n : Nat) : (b.read n).1.length = min n b.remaining := by
  rw [read, List.length_take, List.length_drop, remaining, size]

private theorem kept_remaining (short : b.size < 2 ^ 63) :
    b.kept.remaining? = some (.ofNat b.remaining) :=
  subWords?_ofNat b.position_le short

private theorem kept_index (short : b.size < 2 ^ 63) : index b.kept.position = b.position :=
  index_ofNat (Nat.lt_of_le_of_lt b.position_le short)

private theorem read_kept (b : Buffer) (n : Nat) :
    (b.read n).2.kept = ⟨b.content, .ofNat b.size, .ofNat (b.position + min n b.remaining)⟩ :=
  rfl

private theorem kept_read (short : b.size < 2 ^ 63) {buf : List UInt8}
    (room : buf.length < 2 ^ 63) :
    b.kept.read buf = some
      ((.ofNat (b.read buf.length).1.length,
        (b.read buf.length).1 ++ buf.drop (b.read buf.length).1.length),
       (b.read buf.length).2.kept) := by
  have left := b.remaining_le
  have long : b.content.length < 2 ^ 63 := short
  have counted : min (.ofNat buf.length) (.ofNat b.remaining) =
      Int64.ofNat (min buf.length b.remaining) := min_ofNat room (by omega)
  have told := b.length_read buf.length
  rw [told, read_kept]
  simp only [EditableBuffer.read, kept_remaining short, Option.bind_eq_bind, Option.bind_some, counted]
  generalize size : min buf.length b.remaining = count at told ⊢
  -- with nothing to read no slice is cut, so that its bounds say nothing
  by_cases none : count = 0
  · subst none
    have nothing : (b.read buf.length).1 = [] := List.length_eq_zero_iff.1 told
    rw [nothing, if_neg (by decide)]
    rfl
  · have some : 0 < Int64.ofNat count := (zero_lt_ofNat_iff (by omega)).2 (by omega)
    have copied : slice? b.content b.position (b.position + count) = .some (b.read buf.length).1 := by
      rw [slice?_eq (by omega), Option.some.injEq]
      refine List.take_eq_take_iff.2 ?_
      rw [List.length_drop]
      omega
    have filled : splice? buf 0 count (b.read buf.length).1 =
        .some ((b.read buf.length).1 ++ buf.drop count) := by
      have fits : 0 ≤ count ∧ count ≤ buf.length := by omega
      rw [splice?, if_pos fits, List.take_zero, List.nil_append]
    have moved : addWords? (.ofNat b.position) (.ofNat count) =
        .some (.ofNat (b.position + count)) := addWords?_ofNat (by omega)
    rw [if_pos some, kept_index short, index_ofNat (by omega)]
    simp only [kept, copied, filled, moved, Option.bind_some]
    rfl

private theorem read_min_remaining (b : Buffer) (n : Nat) :
    b.read (min n b.remaining) = b.read n := by
  have left := b.remaining_le
  refine Prod.ext ?_ ?_
  · refine List.take_eq_take_iff.2 ?_
    rw [List.length_drop]
    omega
  · simp only [read, Nat.min_assoc, Nat.min_self]

private theorem kept_readBytes (short : b.size < 2 ^ 63) (limit : Int64) :
    b.kept.readBytes limit =
      some ((b.readBytes limit.toInt).1, (b.readBytes limit.toInt).2.kept) := by
  have left := b.remaining_le
  have long : b.content.length < 2 ^ 63 := short
  unfold EditableBuffer.readBytes Buffer.readBytes
  by_cases none : limit ≤ 0
  · rw [if_pos none, toNat_eq_zero none]
    rfl
  · have room := min_of_pos none (show b.remaining < 2 ^ 63 by omega)
    generalize limit.toInt.toNat = n at room ⊢
    have fits : min n b.remaining < 2 ^ 63 := by omega
    have nonneg : 0 ≤ Int64.ofNat (min n b.remaining) := by
      rw [Int64.le_iff_toInt_le, Int64.toInt_ofNat_of_lt fits, Int64.toInt_zero]
      omega
    have copied := kept_read short
      (show (List.replicate (min n b.remaining) (0 : UInt8)).length < 2 ^ 63 by
        rwa [List.length_replicate])
    rw [List.length_replicate, read_min_remaining] at copied
    have told := b.length_read n
    rw [if_neg none]
    simp only [kept_remaining short, Option.bind_eq_bind, Option.bind_some, room, guard, if_pos nonneg,
      index_ofNat fits, copied]
    rw [told, index_ofNat fits, List.take_left' told]
    rfl

private theorem signedWord?_ofNat {n : Nat} (small : n < 2 ^ 63) :
    signedWord? (.ofNat n) = some (.ofNat n) := by
  have word : n < 2 ^ 64 := by omega
  have same : (UInt64.ofNat n).toNat = n := UInt64.toNat_ofNat_of_lt' word
  rw [signedWord?, same]
  exact if_pos small

private theorem insert_kept (b : Buffer) (data : List UInt8) :
    (b.insert data).2.kept = if maxLength < b.size + data.length then b.kept else
      ⟨b.content.take b.position ++ data ++ b.content.drop b.position,
        .ofNat (b.size + data.length), .ofNat (b.position + data.length)⟩ := by
  have within := b.position_le
  unfold insert
  split
  · rfl
  · rw [kept, Buffer.size, EditableBuffer.mk.injEq]
    refine ⟨rfl, congrArg Int64.ofNat ?_, rfl⟩
    simp only [List.length_append, List.length_take, List.length_drop, Buffer.size]
    omega

private theorem kept_insert (short : b.size < 2 ^ 63) {data : List UInt8}
    (small : data.length < 2 ^ 63) :
    b.kept.insert data =
      some ((b.insert data).1.map Int64.ofInt, (b.insert data).2.kept) := by
  have within := b.position_le
  have most : b.size ≤ maxLength := Nat.le_of_lt_succ short
  rw [insert_kept]
  unfold EditableBuffer.insert Buffer.insert
  -- nothing is put in without a look at the room that is left
  by_cases none : data = []
  · have fits : ¬ maxLength < b.size + data.length := by
      rw [none]
      exact Nat.not_lt.2 most
    rw [if_neg fits, if_neg fits, none]
    simp only [List.append_nil, List.take_append_drop]
    rfl
  have some : data.isEmpty = false := List.isEmpty_eq_false_iff.2 none
  have room : subWords? Int64.maxValue b.kept.size = .some (.ofNat (maxLength - b.size)) :=
    subWords?_ofNat most (by decide)
  have full : Int64.ofNat (maxLength - b.size) < .ofNat data.length ↔
      maxLength < b.size + data.length := by
    rw [ofNat_lt_ofNat_iff (by unfold maxLength; omega) small]
    omega
  simp only [some, Bool.false_eq_true, if_false, signedWord?_ofNat small, room, full,
    Option.bind_eq_bind, Option.bind_some]
  by_cases beyond : maxLength < b.size + data.length
  · have asked : min data.length maxLength = data.length := Nat.min_eq_left (Nat.le_of_lt_succ small)
    have size : b.kept.size.toInt = b.size := toInt_size short
    simp only [if_pos beyond, asked, size, Int64.toInt_ofNat_of_lt small]
    rfl
  · have fits : b.size + data.length < 2 ^ 63 := by
      unfold maxLength at beyond
      omega
    have spliced : splice? b.content b.position b.position data =
        .some (b.content.take b.position ++ data ++ b.content.drop b.position) := by
      rw [splice?, if_pos ⟨Nat.le_refl _, within⟩]
    have size : addWords? (.ofNat b.size) (.ofNat data.length) =
        .some (.ofNat (b.size + data.length)) := addWords?_ofNat fits
    have position : addWords? (.ofNat b.position) (.ofNat data.length) =
        .some (.ofNat (b.position + data.length)) :=
      addWords?_ofNat (Nat.lt_of_le_of_lt (Nat.add_le_add_right within _) fits)
    simp only [if_neg beyond, kept_index short]
    simp only [kept, spliced, size, position, Option.bind_some]
    rfl

private theorem delete_kept (b : Buffer) (n : Int) : (b.delete n).2.kept =
    ⟨b.content.take b.position ++ b.content.drop (b.position + (b.delete n).1),
      .ofNat (b.size - (b.delete n).1), .ofNat b.position⟩ := by
  have left := b.remaining_le
  have size : (b.delete n).2.size = b.size - (b.delete n).1 := by
    simp only [Buffer.size, delete, List.length_append, List.length_take, List.length_drop]
    omega
  rw [kept, size]
  rfl

private theorem kept_delete (short : b.size < 2 ^ 63) (count : Int64) :
    b.kept.delete count =
      some (.ofNat (b.delete count.toInt).1, (b.delete count.toInt).2.kept) := by
  have left := b.remaining_le
  have long : b.content.length < 2 ^ 63 := short
  have told : (b.delete count.toInt).1 = min count.toInt.toNat b.remaining := rfl
  rw [delete_kept]
  unfold EditableBuffer.delete
  by_cases none : count ≤ 0
  · rw [toNat_eq_zero none, Nat.zero_min] at told
    rw [if_pos none, told, Nat.add_zero, List.take_append_drop]
    rfl
  · have room := min_of_pos none (show b.remaining < 2 ^ 63 by omega)
    rw [if_neg none]
    simp only [kept_remaining short, Option.bind_eq_bind, Option.bind_some, room, told]
    have most : min count.toInt.toNat b.remaining ≤ b.remaining := Nat.min_le_right ..
    generalize min count.toInt.toNat b.remaining = n at most ⊢
    by_cases stays : n = 0
    · subst stays
      rw [if_neg (by decide), Nat.add_zero, List.take_append_drop]
      rfl
    · have some : 0 < Int64.ofNat n := (zero_lt_ofNat_iff (by omega)).2 (by omega)
      have removed : splice? b.content b.position (b.position + n) [] =
          .some (b.content.take b.position ++ b.content.drop (b.position + n)) := by
        rw [splice?_eq (by omega), List.append_nil]
      have fewer : subWords? (.ofNat b.size) (.ofNat n) = .some (.ofNat (b.size - n)) :=
        subWords?_ofNat (by rw [Buffer.size]; omega) short
      rw [if_pos some, kept_index short, index_ofNat (by omega)]
      simp only [kept, removed, fewer, Option.bind_some]
      rfl

private theorem kept_update (short : b.size < 2 ^ 63) {data : List UInt8}
    (small : data.length < 2 ^ 63)
    (count : Int64) :
    b.kept.update data count =
      some ((b.update data count.toInt).1.map Int64.ofInt, (b.update data count.toInt).2.kept) := by
  simp only [EditableBuffer.update, kept_delete short, Option.bind_eq_bind, Option.bind_some]
  exact kept_insert (Nat.lt_of_le_of_lt (b.size_delete_le count.toInt) short) small

/-- The removal of an update stands where the splice is refused, here for a size that no bytes in memory
have. -/
example : (⟨[1, 2, 3], 0x7FFFFFFFFFFFFFFF, 1⟩ : EditableBuffer).update [7, 8] 1 =
    some (.error (.capacityExceeded 0x7FFFFFFFFFFFFFFE 2), ⟨[1, 3], 0x7FFFFFFFFFFFFFFE, 1⟩) := by
  decide

private theorem kept_write (short : b.size < 2 ^ 63) {data : List UInt8}
    (small : data.length < 2 ^ 63) :
    b.kept.write data =
      some ((b.write data).1.map Int64.ofInt, (b.write data).2.kept) := by
  rw [EditableBuffer.write, signedWord?_ofNat small, Option.getD_some, kept_update short small,
    Int64.toInt_ofNat_of_lt small]
  rfl

private theorem kept_seek (short : b.size < 2 ^ 63) (position : Int64) :
    b.kept.seek position = ((b.seek position.toInt).1, (b.seek position.toInt).2.kept) := by
  have beyond : b.kept.size < position ↔ b.size < position.toInt := size_lt_iff short position
  have told : b.kept.size.toInt = b.size := toInt_size short
  simp only [EditableBuffer.seek, lt_zero_iff, beyond, told]
  by_cases within : 0 ≤ position.toInt ∧ position.toInt ≤ b.size
  · obtain ⟨moved, sought, content, reached⟩ := seek_of_within within.1 within.2
    have size : moved.size = b.size := by rw [Buffer.size, content, Buffer.size]
    have place : Int64.ofNat moved.position = position := by
      rw [← Int64.toInt_inj, Int64.toInt_ofNat_of_lt (by omega), reached]
    rw [if_neg (by omega), if_neg (by omega), sought, kept, kept, content, size, place]
  · rw [seek_of_outside within, refusal]
    split
    · rfl
    · rw [if_pos (by omega)]

private theorem kept_ioRead (short : b.size < 2 ^ 63) {buf : List UInt8}
    (room : buf.length < 2 ^ 63) :
    b.kept.ioRead buf = some
      (((Int64.ofNat (b.read buf.length).1.length).toUInt64,
        (b.read buf.length).1 ++ buf.drop (b.read buf.length).1.length),
       (b.read buf.length).2.kept) := by
  simp only [EditableBuffer.ioRead, kept_read short room, Option.bind_eq_bind, Option.bind_some,
    Option.pure_def]

private theorem toNat_length_read (short : b.size < 2 ^ 63) (n : Nat) :
    (Int64.ofNat (b.read n).1.length).toUInt64.toNat = (b.read n).1.length := by
  have left := b.remaining_le
  have told := b.length_read n
  have long : b.content.length < 2 ^ 63 := short
  exact index_ofNat (by omega)

/-- A general stream that is to give exactly `n` bytes gives them if they are left, and else fails at the
end of the bytes. -/
theorem kept_ioReadExact (short : b.size < 2 ^ 63) {n : Nat} (small : n < 2 ^ 63) :
    b.kept.ioReadExact n = some
      (if n ≤ b.remaining then .ok (b.read n).1 else .error .unexpectedEnd, (b.read n).2.kept) := by
  have copied := kept_ioRead short
    (show (List.replicate n (0 : UInt8)).length < 2 ^ 63 by rwa [List.length_replicate])
  rw [List.length_replicate] at copied
  simp only [EditableBuffer.ioReadExact, copied, Option.bind_eq_bind, Option.bind_some,
    toNat_length_read short]
  rw [b.length_read n]
  by_cases enough : n ≤ b.remaining
  · have whole : min n b.remaining = n := Nat.min_eq_left enough
    rw [if_pos whole, if_pos enough, whole, List.drop_replicate, Nat.sub_self, List.replicate_zero,
      List.append_nil]
    rfl
  · rw [if_neg (by omega), if_neg enough]
    rfl

/-- A general stream that is to give all it has gives the bytes behind the cursor, which then stands at
the end. -/
theorem kept_ioReadToEnd (short : b.size < 2 ^ 63) :
    b.kept.ioReadToEnd =
      some (b.content.drop b.position, ⟨b.content, .ofNat b.size, .ofNat b.size⟩) := by
  have left := b.remaining_le
  have long : b.content.length < 2 ^ 63 := short
  have rest : index (.ofNat b.remaining) = b.remaining := index_ofNat (by omega)
  have copied := kept_ioRead short
    (show (List.replicate b.remaining (0 : UInt8)).length < 2 ^ 63 by
      rw [List.length_replicate]
      omega)
  rw [List.length_replicate] at copied
  have all : (b.read b.remaining).1 = b.content.drop b.position :=
    List.take_of_length_le (by rw [List.length_drop]; omega)
  have last : b.position + b.remaining = b.size := left
  simp only [EditableBuffer.ioReadToEnd, kept_remaining short, Option.bind_eq_bind, Option.bind_some,
    rest, copied, toNat_length_read short, List.take_left]
  rw [all, read_kept, Nat.min_self, last]
  rfl

private theorem ioSeek_eq (e : EditableBuffer) (o : Offset) :
    e.ioSeek o = ((seekWords e.size e.position o).1,
      { e with position := (seekWords e.size e.position o).2 }) := by
  unfold ioSeek seekWords
  cases o.target? e.size e.position with
  | none => rfl
  | some target =>
    simp only [EditableBuffer.seek]
    split_ifs <;> rfl

private theorem content_seekTo (b : Buffer) (whence : Whence) :
    (b.seekTo whence).2.content = b.content := by
  have same : (b.seek (b.target whence)).2.content = b.content :=
    @content_step b (.seek (b.target whence)) rfl
  unfold seekTo
  split_ifs
  · split <;> simp_all
  · rfl

/-- The fields move the cursor as a general stream does. -/
theorem kept_ioSeek (short : b.size < 2 ^ 63) (o : Offset) :
    (b.kept.ioSeek o).1.map UInt64.toNat = (b.seekTo o.whence).1 ∧
      (b.kept.ioSeek o).2 = (b.seekTo o.whence).2.kept := by
  obtain ⟨answer, place⟩ := seekWords_agrees short o
  have content := b.content_seekTo o.whence
  have size : (b.seekTo o.whence).2.size = b.size := by rw [Buffer.size, content, Buffer.size]
  have word : (seekWords b.kept.size b.kept.position o).2 = .ofNat (b.seekTo o.whence).2.position := by
    rw [← Int64.toInt_inj, toInt_position (size.trans_lt short)]
    exact place
  rw [ioSeek_eq, word]
  refine ⟨answer, ?_⟩
  rw [kept, kept, content, size]

end Buffer

theorem Slice.length_lt (s : Slice) : s.bytes.length < 2 ^ 63 :=
  Nat.lt_succ_of_le s.short

/-- The reply to a call, where its operation has the given answer: what is read is put at the start of
the room for it, and the rest of the room stays. -/
def StreamCall.reply : StreamCall → Answer → Reply
  | .read buf, .bytes data => .filled data.length (data ++ buf.bytes.drop data.length)
  | _, a => .answer a

namespace EditableBuffer

/-- The reply to a call, where its operation has the given answer. -/
def Call.reply : Call → Answer → Reply
  | .own call, a | .stream call, a => call.reply a
  | .ioRead buf, a => (StreamCall.read buf).reply a
  | .ioWrite _, .failed cause => .refused (.ofError cause)
  | .ioFlush, _ => .answer .done
  | _, a => .answer a

end EditableBuffer

namespace Buffer
variable {b : Buffer}

private theorem insert_cases (b : Buffer) (data : List UInt8) :
    (b.insert data).1 = .ok (data.length : Int) ∨ ∃ cause, (b.insert data).1 = .error cause := by
  unfold insert
  split
  case isTrue => exact .inr ⟨_, rfl⟩
  case isFalse => exact .inl rfl

private theorem map_toInt_insert (b : Buffer) (data : Slice) :
    ((b.insert data.bytes).1.map Int64.ofInt).map Int64.toInt = (b.insert data.bytes).1 := by
  unfold insert
  split
  · rfl
  · exact congrArg Except.ok (Int64.toInt_ofNat_of_lt data.length_lt)

/-- The functions of the buffer itself do with the fields what is done with the bytes and the cursor. -/
theorem kept_perform (short : b.size < 2 ^ 63) (c : StreamCall) :
    b.kept.perform c = some (c.reply (b.step c.op).1, (b.step c.op).2.kept) := by
  have left := b.remaining_le
  have long : b.content.length < 2 ^ 63 := short
  cases c with
  | read buf =>
    have told := b.length_read buf.bytes.length
    have counted : (Int64.ofNat (b.read buf.bytes.length).1.length).toInt =
        (b.read buf.bytes.length).1.length := Int64.toInt_ofNat_of_lt (by omega)
    simp only [EditableBuffer.perform, kept_read short buf.length_lt, Option.map_some, counted]
    rfl
  | insert data =>
    simp only [EditableBuffer.perform, kept_insert short data.length_lt, Option.map_some, Prod.map,
      Reply.ofCount, map_toInt_insert]
    rfl
  | update data count =>
    simp only [EditableBuffer.perform, kept_update short data.length_lt, Option.map_some, Prod.map,
      Reply.ofCount, Buffer.update, map_toInt_insert]
    rfl
  | write data =>
    simp only [EditableBuffer.perform, kept_write short data.length_lt, Option.map_some, Prod.map,
      Reply.ofCount, Buffer.write, Buffer.update, map_toInt_insert]
    rfl
  | delete count =>
    have fewer : (b.delete count.toInt).1 ≤ b.remaining := Nat.min_le_right ..
    have counted : (Int64.ofNat (b.delete count.toInt).1).toInt = (b.delete count.toInt).1 :=
      Int64.toInt_ofNat_of_lt (by omega)
    simp only [EditableBuffer.perform, kept_delete short, Option.map_some, counted]
    rfl
  | seek position =>
    simp only [EditableBuffer.perform, kept_seek short]
    rfl
  | position =>
    have told : b.kept.position.toInt = b.position := toInt_position short
    simp only [EditableBuffer.perform, told]
    rfl
  | size =>
    have told : b.kept.size.toInt = b.size := toInt_size short
    simp only [EditableBuffer.perform, told]
    rfl
  | flush | canRead | canWrite | setSize => rfl

private theorem perform_stream (e : EditableBuffer) (c : StreamCall) :
    EditableStream.perform e c = e.perform c := by
  cases c <;> rfl

/-- Whichever way it is called, a buffer does with its fields what is done with the bytes and the
cursor. -/
theorem kept_call (short : b.size < 2 ^ 63) (c : Call) :
    b.kept.call c = some (c.reply (b.step c.op).1, (b.step c.op).2.kept) := by
  have left := b.remaining_le
  have long : b.content.length < 2 ^ 63 := short
  cases c with
  | own c => exact kept_perform short c
  | stream c => exact (perform_stream b.kept c).trans (kept_perform short c)
  | readBytes limit =>
    simp only [EditableBuffer.call, kept_readBytes short, Option.map_some]
    rfl
  | isEmpty =>
    have told : b.kept.size.toInt = b.size := toInt_size short
    have none : b.kept.isEmpty = b.isEmpty := by
      rw [EditableBuffer.isEmpty, Buffer.isEmpty, Bool.eq_iff_iff, beq_iff_eq, beq_iff_eq,
        ← Int64.toInt_inj, told, Int64.toInt_zero, Int.natCast_eq_zero]
    simp only [EditableBuffer.call, none]
    rfl
  | ioRead buf =>
    simp only [EditableBuffer.call, kept_ioRead short buf.length_lt, Option.map_some,
      toNat_length_read short]
    rfl
  | ioWrite data =>
    simp only [EditableBuffer.call, EditableBuffer.ioWrite, kept_write short data.length_lt,
      Option.bind_eq_bind, Option.bind_some, Option.map_some, Option.pure_def]
    rcases insert_cases (b.delete data.bytes.length).2 data.bytes with done | ⟨cause, failed⟩
    · have written : (b.write data.bytes).1 = .ok (data.bytes.length : Int) := done
      have counted : (Int64.ofInt data.bytes.length).toUInt64.toNat = data.bytes.length :=
        index_ofNat data.length_lt
      simp only [written, Except.map, Except.mapError, counted, Call.op, Buffer.step]
      rfl
    · have refused : (b.write data.bytes).1 = .error cause := failed
      simp only [refused, Except.map, Except.mapError, Call.op, Buffer.step]
      rfl
  | ioFlush => rfl

/-- The fields do what is done with the bytes and the cursor, through any history. -/
theorem kept_calls (short : b.size < 2 ^ 63) (cs : List Call) :
    b.kept.calls cs = some (List.zipWith Call.reply cs (b.steps (cs.map Call.op)).1,
      (b.steps (cs.map Call.op)).2.kept) := by
  induction cs generalizing b with
  | nil => rfl
  | cons c cs ih =>
    simp only [EditableBuffer.calls, kept_call short, Option.bind_eq_bind, Option.bind_some,
      ih (size_step_lt short c.op)]
    rfl

end Buffer

namespace EditableBuffer

private theorem new_eq (bytes : List UInt8) : new bytes = (Buffer.ofBytes bytes).kept :=
  rfl

/-- An editable buffer shows a split list: it holds both parts, one behind the other, its cursor stands
between them, and its size is the number of bytes in both. -/
structure Shows (b : EditableBuffer) (s : Split) : Prop where
  content : b.content = s.before ++ s.after
  position : b.position.toInt = s.before.length
  size : b.size.toInt = s.before.length + s.after.length

private theorem kept_shows {b : Buffer} {s : Split} (h : b.Shows s) (short : s.size < 2 ^ 63) :
    b.kept.Shows s := by
  have bound : b.size < 2 ^ 63 := h.size.trans_lt short
  refine ⟨h.content, (toInt_position bound).trans ?_, (toInt_size bound).trans ?_⟩
  · rw [h.position]
  · rw [h.size, Int.natCast_add]

/-- Every history of calls on an editable buffer, each through its own functions, as an editable stream
or as a general byte stream, whatever the words given as lengths and positions: nothing panics, every
reply is the one that the split list gives, and after each call the buffer holds both parts, with the
cursor between them and the number of bytes in both as its size. All that is asked is that the bytes
never become as many as a signed word cannot count. -/
theorem calls_refine_split (bytes : List UInt8) (cs : List Call)
    (fits : ∀ done, done <+: cs →
      ((Split.ofBytes bytes).steps (done.map Call.op)).2.size < 2 ^ 63) :
    ∀ done, done <+: cs → ∃ b,
      (new bytes).calls done =
        some (List.zipWith Call.reply done ((Split.ofBytes bytes).steps (done.map Call.op)).1, b) ∧
      b.Shows ((Split.ofBytes bytes).steps (done.map Call.op)).2 := by
  intro done early
  have short : (Buffer.ofBytes bytes).size < 2 ^ 63 :=
    (Nat.zero_add _).symm.trans_lt (fits [] (List.nil_prefix ..))
  have bounded : ∀ ops, ops <+: done.map Call.op →
      ((Split.ofBytes bytes).steps ops).2.size < 2 ^ 63 := by
    intro ops earlier
    obtain ⟨first, before, rfl⟩ := List.prefix_map_iff.1 earlier
    exact fits first (before.trans early)
  obtain ⟨answers, states⟩ := (ofBytes_shows bytes).steps (done.map Call.op) bounded
  refine ⟨_, ?_, kept_shows (states _ (List.prefix_refl _)) (fits done early)⟩
  rw [new_eq, kept_calls short, answers]

/-- A history with lengths and positions at both ends of their range, called in each way. -/
theorem calls_refine_split_at_extremes :
    let cs : List Call := [.own (.seek 2), .stream (.delete Int64.maxValue),
      .own (.insert ⟨[9, 9], by decide⟩), .stream (.seek Int64.minValue), .own (.seek 5),
      .stream (.seek 1), .readBytes Int64.minValue, .stream (.update ⟨[7], by decide⟩ Int64.maxValue),
      .ioWrite ⟨[5, 6], by decide⟩, .isEmpty, .own (.seek 0), .ioRead ⟨[0, 0, 0, 0, 0], by decide⟩,
      .stream (.read ⟨[1], by decide⟩), .own (.setSize 3), .ioFlush, .stream .size]
    let split := (Split.ofBytes [1, 2, 3, 4, 5]).steps (cs.map Call.op)
    ∃ b, (new [1, 2, 3, 4, 5]).calls cs = some (List.zipWith Call.reply cs split.1, b) ∧
      List.zipWith Call.reply cs split.1 = [.answer .done, .answer (.count 3), .answer (.count 2),
        .answer (.failed (.invalidArgument .negativePosition)),
        .answer (.failed (.invalidArgument (.positionBeyondEnd 5 4))), .answer .done,
        .answer (.bytes []), .answer (.count 1), .answer (.count 2), .answer (.flag false),
        .answer .done, .filled 4 [1, 7, 5, 6, 0], .filled 0 [1],
        .answer (.failed (.notImplemented "setting stream size directly")), .answer .done,
        .answer (.count 4)] ∧
      b.Shows ⟨[1, 7, 5, 6], []⟩ := by
  intro cs split
  have fits : ∀ done, done <+: cs →
      ((Split.ofBytes [1, 2, 3, 4, 5]).steps (done.map Call.op)).2.size < 2 ^ 63 := by
    intro done early
    have listed : ∀ done ∈ cs.inits,
        ((Split.ofBytes [1, 2, 3, 4, 5]).steps (done.map Call.op)).2.size < 2 ^ 63 := by
      decide +kernel
    exact listed done ((List.mem_inits done cs).2 early)
  obtain ⟨b, replies, shown⟩ := calls_refine_split [1, 2, 3, 4, 5] cs fits cs (List.prefix_refl cs)
  exact ⟨b, replies, by decide +kernel, shown⟩

end EditableBuffer
end DocGuard
