import Mathlib.Algebra.Order.BigOperators.Group.List
import Mathlib.Algebra.Order.Ring.Int
import DocGuard.Proofs.Buffer.Split

/-! Buffers that are written, read or cut down in chunks. The chunks come to the same as all at once,
wherever the end of the buffer falls among them, and empty chunks make no difference. -/
namespace DocGuard.Buffer
variable {α β : Type} {b last : Buffer} {s : Split}

/-- An operation with each of some arguments in turn: the answers, and the buffer after the last. -/
def inTurn (op : Buffer → α → β × Buffer) (b : Buffer) : List α → List β × Buffer
  | [] => ([], b)
  | x :: xs => ((op b x).1 :: (inTurn op (op b x).2 xs).1, (inTurn op (op b x).2 xs).2)

/-- What some lengths ask for together. A length that is not positive asks for nothing. -/
def asked (lengths : List Int) : Int :=
  (lengths.filter (0 < ·)).sum

/-- Reads of `chunk` bytes, until one of them gives nothing: all that they give, and the buffer after
the last. -/
inductive ReadsOut (chunk : Nat) : Buffer → List UInt8 → Buffer → Prop where
  | ended {b : Buffer} : (b.read chunk).1 = [] → ReadsOut chunk b [] (b.read chunk).2
  | more {b last : Buffer} {rest : List UInt8} : (b.read chunk).1 ≠ [] →
      ReadsOut chunk (b.read chunk).2 rest last → ReadsOut chunk b ((b.read chunk).1 ++ rest) last

section Lengths

private theorem asked_nonneg (lengths : List Int) : 0 ≤ asked lengths := by
  refine List.sum_nonneg fun n mem => ?_
  have positive : 0 < n := by simpa using (List.mem_filter.1 mem).2
  exact positive.le

private theorem toNat_asked (lengths : List Int) :
    (asked lengths).toNat = (lengths.map Int.toNat).sum := by
  induction lengths with
  | nil => rfl
  | cons n ns ih =>
    have rest := asked_nonneg ns
    rw [List.map_cons, List.sum_cons, ← ih]
    by_cases positive : 0 < n
    · have whole : asked (n :: ns) = n + asked ns := by simp [asked, positive]
      omega
    · have whole : asked (n :: ns) = asked ns := by simp [asked, positive]
      omega

end Lengths

section Reading

private theorem Split.read_add (s : Split) (m n : Nat) :
    s.read (m + n) = ((s.read m).1 ++ ((s.read m).2.read n).1, ((s.read m).2.read n).2) := by
  simp only [read, List.take_add, List.drop_drop, List.append_assoc]

private theorem Shows.inTurn_read (h : b.Shows s) (lengths : List Nat) :
    (inTurn Buffer.read b lengths).1.flatten = (s.read lengths.sum).1 ∧
      (inTurn Buffer.read b lengths).2.Shows (s.read lengths.sum).2 := by
  induction lengths generalizing b s with
  | nil => exact ⟨rfl, by simpa [inTurn, Split.read] using h⟩
  | cons n ns ih =>
    obtain ⟨first, shown⟩ := h.read n
    obtain ⟨others, last⟩ := ih shown
    rw [List.sum_cons, Split.read_add]
    exact ⟨congrArg₂ List.append first others, last⟩

private theorem inTurn_read (b : Buffer) (lengths : List Nat) :
    ((inTurn read b lengths).1.flatten, (inTurn read b lengths).2) = b.read lengths.sum := by
  obtain ⟨s, shown⟩ := b.exists_shows
  obtain ⟨bytes, after⟩ := shown.inTurn_read lengths
  obtain ⟨whole, once⟩ := shown.read lengths.sum
  exact Prod.ext (bytes.trans whole.symm) (after.unique once)

private theorem inTurn_readBytes_eq (b : Buffer) (lengths : List Int) :
    inTurn readBytes b lengths = inTurn read b (lengths.map Int.toNat) := by
  induction lengths generalizing b with
  | nil => rfl
  | cons n ns ih => simp only [inTurn, List.map_cons, ih, readBytes]

private theorem inTurn_readBytes (b : Buffer) (lengths : List Int) :
    ((inTurn readBytes b lengths).1.flatten, (inTurn readBytes b lengths).2) =
      b.readBytes (asked lengths) := by
  rw [inTurn_readBytes_eq, inTurn_read, readBytes, toNat_asked]

end Reading

section Deleting

private theorem Shows.inTurn_delete (h : b.Shows s) (lengths : List Int) :
    (inTurn Buffer.delete b lengths).1.sum = (s.delete (asked lengths)).1 ∧
      (inTurn Buffer.delete b lengths).2.Shows (s.delete (asked lengths)).2 := by
  rw [Split.delete_eq, toNat_asked]
  induction lengths generalizing b s with
  | nil => exact ⟨by simp [inTurn], by simpa [inTurn] using h⟩
  | cons n ns ih =>
    obtain ⟨first, shown⟩ := h.delete n
    rw [Split.delete_eq] at first shown
    obtain ⟨others, last⟩ := ih shown
    rw [List.map_cons, List.sum_cons]
    constructor
    · simp only [inTurn, List.sum_cons, first, others, List.length_drop]
      omega
    · simpa only [inTurn, List.drop_drop] using last

private theorem inTurn_delete (b : Buffer) (lengths : List Int) :
    ((inTurn delete b lengths).1.sum, (inTurn delete b lengths).2) = b.delete (asked lengths) := by
  obtain ⟨s, shown⟩ := b.exists_shows
  obtain ⟨count, after⟩ := shown.inTurn_delete lengths
  obtain ⟨whole, once⟩ := shown.delete (asked lengths)
  exact Prod.ext (count.trans whole.symm) (after.unique once)

end Deleting

section Putting
variable {put : Buffer → List UInt8 → Except Error Int × Buffer}
  {effect : Split → List UInt8 → Split} {reach : Split → Nat} {chunks : List (List UInt8)}

/-- A way to put data into a buffer. It has an effect on the split list, where data can be put piece by
piece, and reaches up to some length; data that would make this too long is refused. -/
structure Puts (put : Buffer → List UInt8 → Except Error Int × Buffer)
    (effect : Split → List UInt8 → Split) (reach : Split → Nat) : Prop where
  takes : ∀ {b : Buffer} {s : Split}, b.Shows s → s.size < 2 ^ 63 → ∀ data : List UInt8,
    reach s + data.length < 2 ^ 63 →
    (put b data).1 = .ok data.length ∧ (put b data).2.Shows (effect s data) ∧
      (effect s data).size < 2 ^ 63
  refuses : ∀ {b : Buffer} {s : Split}, b.Shows s → ∀ data : List UInt8,
    2 ^ 63 ≤ reach s + data.length → ∃ cause, (put b data).1 = .error cause
  nothing : ∀ s, effect s [] = s
  joins : ∀ s first second, effect (effect s first) second = effect s (first ++ second)
  reaches : ∀ s data, reach (effect s data) = reach s + data.length
  reach_le : ∀ s, reach s ≤ s.size

/-- Chunks of data come to the same as the whole data. If the data fits, the buffers are equal, and the
counts of the chunks add up to the count of the whole, its length. If it does not fit, the whole is
refused, and so is a chunk. -/
structure AgreesInChunks (put : Buffer → List UInt8 → Except Error Int × Buffer) (b : Buffer)
    (chunks : List (List UInt8)) (fits : Prop) : Prop where
  taken : fits → (inTurn put b chunks).2 = (put b chunks.flatten).2 ∧
    (put b chunks.flatten).1 = .ok chunks.flatten.length ∧
    ∃ counts : List Int, (inTurn put b chunks).1 = counts.map .ok ∧
      counts.sum = chunks.flatten.length
  refused : ¬ fits → (∃ cause, (put b chunks.flatten).1 = .error cause) ∧
    ∃ cause, .error cause ∈ (inTurn put b chunks).1

private theorem sum_lengths (chunks : List (List UInt8)) :
    (chunks.map fun chunk => (chunk.length : Int)).sum = chunks.flatten.length := by
  induction chunks with
  | nil => rfl
  | cons chunk chunks ih => simp [ih]

private theorem Puts.takes_inTurn (p : Puts put effect reach) (h : b.Shows s)
    (short : s.size < 2 ^ 63)
    (fits : reach s + chunks.flatten.length < 2 ^ 63) :
    (inTurn put b chunks).1 = (chunks.map fun chunk => (chunk.length : Int)).map .ok ∧
      (inTurn put b chunks).2.Shows (effect s chunks.flatten) := by
  induction chunks generalizing b s with
  | nil =>
    refine ⟨rfl, ?_⟩
    rw [List.flatten_nil, p.nothing]
    exact h
  | cons chunk chunks ih =>
    rw [List.flatten_cons, List.length_append] at fits
    obtain ⟨count, shown, bound⟩ := p.takes h short chunk (by omega)
    obtain ⟨counts, last⟩ := ih shown bound (by rw [p.reaches]; omega)
    rw [p.joins] at last
    exact ⟨congrArg₂ List.cons count counts, last⟩

private theorem Puts.refuses_inTurn (p : Puts put effect reach) (h : b.Shows s)
    (short : s.size < 2 ^ 63)
    (long : 2 ^ 63 ≤ reach s + chunks.flatten.length) :
    ∃ cause, .error cause ∈ (inTurn put b chunks).1 := by
  induction chunks generalizing b s with
  | nil =>
    have within := p.reach_le s
    rw [List.flatten_nil, List.length_nil] at long
    omega
  | cons chunk chunks ih =>
    rw [List.flatten_cons, List.length_append] at long
    -- Either this chunk is the one that no longer fits, or a later one is.
    by_cases fits : reach s + chunk.length < 2 ^ 63
    · obtain ⟨-, shown, bound⟩ := p.takes h short chunk fits
      obtain ⟨cause, mem⟩ := ih shown bound (by rw [p.reaches]; omega)
      exact ⟨cause, List.mem_cons_of_mem _ mem⟩
    · obtain ⟨cause, refused⟩ := p.refuses h chunk (by omega)
      exact ⟨cause, by simp [inTurn, refused]⟩

private theorem Puts.agreesInChunks (p : Puts put effect reach) (h : b.Shows s)
    (short : s.size < 2 ^ 63)
    (chunks : List (List UInt8)) :
    AgreesInChunks put b chunks (reach s + chunks.flatten.length < 2 ^ 63) where
  taken fits := by
    obtain ⟨count, once, -⟩ := p.takes h short _ fits
    obtain ⟨counts, after⟩ := p.takes_inTurn h short fits
    exact ⟨after.unique once, count, _, counts, sum_lengths chunks⟩
  refused long := ⟨p.refuses h _ (Nat.le_of_not_lt long),
    p.refuses_inTurn h short (Nat.le_of_not_lt long)⟩

theorem puts_insert : Puts insert (fun s data => (s.insert data).2) Split.size where
  takes {b s} h short data fits := by
    have size : (s.insert data).2.size = s.size + data.length := by
      simp only [Split.insert, Split.size, List.length_append]
      omega
    obtain ⟨count, shown⟩ := h.insert data (size ▸ fits)
    exact ⟨count, shown, size ▸ fits⟩
  refuses {b s} h data long := by
    have tooLong : maxLength < b.size + data.length := by
      rw [h.size, maxLength]
      simp only [Split.size] at long
      omega
    exact ⟨_, by rw [insert, if_pos tooLong]⟩
  nothing s := by simp [Split.insert]
  joins s first second := by simp [Split.insert]
  reaches s data := by
    simp only [Split.insert, Split.size, List.length_append]
    omega
  reach_le s := le_refl _

private theorem puts_write : Puts write (fun s data => (s.write data).2) (·.before.length) where
  takes {b s} h short data fits := by
    have size : (s.write data).2.size < 2 ^ 63 := by
      simp only [Split.write_eq, Split.size, List.length_append, List.length_drop] at *
      omega
    obtain ⟨count, shown⟩ := h.update data data.length size
    exact ⟨count, shown, size⟩
  refuses {b s} h data long := by
    -- A write removes nothing in front of the cursor, and this alone leaves no room for the data.
    have position := (b.delete data.length).2.position_le
    have tooLong : maxLength < (b.delete data.length).2.size + data.length := by
      have same : (b.delete data.length).2.position = s.before.length := h.position
      rw [maxLength, size]
      omega
    exact ⟨_, by rw [write, update, insert, if_pos tooLong]⟩
  nothing s := by simp [Split.write_eq]
  joins s first second := by simp [Split.write_eq]
  reaches s data := by simp [Split.write_eq]
  reach_le s := Nat.le_add_right _ _

end Putting

section ReadingOut
variable {chunk : Nat} {bytes : List UInt8}

private theorem read_eq_nil (some : 0 < chunk) : (b.read chunk).1 = [] ↔ b.remaining = 0 := by
  simp only [read, List.take_eq_nil_iff, List.drop_eq_nil_iff, remaining, size]
  omega

/-- Reads that have come to an end gave all bytes from the cursor on. -/
theorem ReadsOut.reads (some : 0 < chunk) (h : ReadsOut chunk b bytes last) :
    bytes = b.content.drop b.position ∧ last.content = b.content ∧ last.position = b.size := by
  induction h with
  | @ended b none =>
    have ended := (read_eq_nil some).1 none
    have bound := b.position_le
    simp only [read, remaining, size] at ended ⊢
    exact ⟨(List.drop_eq_nil_of_le (by omega)).symm, trivial, by omega⟩
  | @more b last rest _ _ ih =>
    obtain ⟨s, shown⟩ := b.exists_shows
    obtain ⟨first, onward⟩ := shown.read chunk
    obtain ⟨others, content, position⟩ := ih
    refine ⟨?_, content, position⟩
    rw [others, first, onward.drop_position, shown.drop_position]
    exact List.take_append_drop chunk s.after

private theorem readsOut_drain (some : 0 < chunk) (b : Buffer) :
    ReadsOut chunk b (b.drain chunk).1 (b.drain chunk).2 := by
  induction left : b.remaining using Nat.strong_induction_on generalizing b with
  | _ n ih =>
    subst left
    rw [drain]
    split_ifs with further
    · have nonempty : (b.read chunk).1 ≠ [] := by
        rw [ne_eq, read_eq_nil some]
        omega
      have shorter : (b.read chunk).2.remaining < b.remaining := by
        have bound := b.position_le
        simp only [read, remaining, size] at further ⊢
        omega
      exact .more nonempty (ih _ shorter _ rfl)
    · have ended : b.remaining = 0 := by omega
      -- A loop of reads makes one read more than the bytes need; it must not move the cursor.
      have same : (b.read chunk).2 = b := by
        obtain ⟨s, shown⟩ := b.exists_shows
        have none : s.after = [] := List.length_eq_zero_iff.1 (shown.remaining ▸ ended)
        have onward := (shown.read chunk).2
        simp only [Split.read, none, List.take_nil, List.drop_nil, List.append_nil] at onward
        rw [← none] at onward
        exact onward.unique shown
      have stop : ReadsOut chunk b [] (b.read chunk).2 := .ended ((read_eq_nil some).2 ended)
      rw [same] at stop
      exact stop

end ReadingOut

/-- It does not matter in which chunks a buffer is written, filled, cut down or read. Writes and inserts
of chunks leave the buffer that the whole data leaves and take as many bytes in all, and if the whole
data is refused, since the buffer would grow too long, then so is a chunk. Deletes and reads come to one
of the sum of their lengths, of which only the positive ones count. Reads of one length come to an end,
and then have given just the bytes from the cursor on and moved the cursor behind them. -/
theorem chunks_do_not_matter (b : Buffer) (short : b.size < 2 ^ 63) :
    (∀ chunks, AgreesInChunks write b chunks (b.position + chunks.flatten.length < 2 ^ 63)) ∧
      (∀ chunks, AgreesInChunks insert b chunks (b.size + chunks.flatten.length < 2 ^ 63)) ∧
      (∀ lengths, (inTurn delete b lengths).1.sum = (b.delete (asked lengths)).1 ∧
        (inTurn delete b lengths).2 = (b.delete (asked lengths)).2) ∧
      (∀ lengths, (inTurn readBytes b lengths).1.flatten = (b.readBytes (asked lengths)).1 ∧
        (inTurn readBytes b lengths).2 = (b.readBytes (asked lengths)).2) ∧
      (∀ lengths, (inTurn read b lengths).1.flatten = (b.read lengths.sum).1 ∧
        (inTurn read b lengths).2 = (b.read lengths.sum).2) ∧
      ∀ chunk, 0 < chunk → ReadsOut chunk b (b.drain chunk).1 (b.drain chunk).2 ∧
        ∀ bytes last, ReadsOut chunk b bytes last →
          bytes = b.content.drop b.position ∧ last.content = b.content ∧ last.position = b.size := by
  obtain ⟨s, shown⟩ := b.exists_shows
  have bound : s.size < 2 ^ 63 := by
    rw [Split.size, ← shown.size]
    exact short
  refine ⟨fun chunks => ?_, fun chunks => ?_, fun lengths => ?_, fun lengths => ?_, fun lengths => ?_,
    fun chunk some => ⟨readsOut_drain some b, fun bytes last ended => ended.reads some⟩⟩
  · rw [shown.position]
    exact puts_write.agreesInChunks shown bound chunks
  · rw [shown.size]
    exact puts_insert.agreesInChunks shown bound chunks
  · exact Prod.ext_iff.1 (b.inTurn_delete lengths)
  · exact Prod.ext_iff.1 (b.inTurn_readBytes lengths)
  · exact Prod.ext_iff.1 (b.inTurn_read lengths)

/-- Chunks at the end of a buffer, where they cross its end. -/
theorem chunks_do_not_matter_at_the_end :
    let b := ((ofBytes [1, 2, 3, 4, 5, 6]).seek 4).2
    b.size < 2 ^ 63 ∧
      (inTurn write b [[7], [], [8, 9, 10]]).2 = (b.write [7, 8, 9, 10]).2 ∧
      (b.write [7, 8, 9, 10]).2.content = [1, 2, 3, 4, 7, 8, 9, 10] ∧
      (inTurn delete b [-3, 1, 0, 5]).1.sum = 2 ∧
      (inTurn readBytes b [1, -1, 100]).1.flatten = [5, 6] ∧
      ReadsOut 4 b [5, 6] (b.drain 4).2 := by
  intro b
  have short : b.size < 2 ^ 63 := by decide
  obtain ⟨written, -, deleted, bytes, -, out⟩ := b.chunks_do_not_matter short
  refine ⟨short, ((written [[7], [], [8, 9, 10]]).taken (by decide)).1, by decide +kernel, ?_, ?_, ?_⟩
  · exact (deleted [-3, 1, 0, 5]).1.trans (by decide +kernel)
  · exact (bytes [1, -1, 100]).1.trans (by decide +kernel)
  · have drained : (b.drain 4).1 = [5, 6] := ((out 4 (by decide)).2 _ _ (out 4 (by decide)).1).1
    exact drained ▸ (out 4 (by decide)).1

end DocGuard.Buffer
