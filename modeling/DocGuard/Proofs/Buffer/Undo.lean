import DocGuard.Proofs.Buffer.Split

/-! Edits of buffers and how they are undone. An edit replaces some bytes at the cursor by others. Who
notes where that was, which bytes are gone, and how many came for them, can take back a whole history
of edits, the last one first. -/
namespace DocGuard.Buffer

/-- The operation may change the bytes of a buffer. -/
def Op.isEdit : Op → Bool
  | .insert _ | .delete _ | .update .. | .write _ => true
  | _ => false

/-- What is noted of an edit: where the cursor stood, which bytes were removed there, and how many were
put in. -/
structure Edit where
  position : Nat
  removed : List UInt8
  inserted : Nat
  deriving DecidableEq, Repr

/-- The number of bytes that went in; none if they were refused. -/
def accepted : Except Error Int → Nat
  | .ok n => n.toNat
  | .error _ => 0

/-- The note of an operation, if it is an edit. The bytes that it removes are those that a read of the
same length would give. -/
def edit? (b : Buffer) : Op → Option Edit
  | .insert data => some ⟨b.position, [], accepted (b.insert data).1⟩
  | .delete n => some ⟨b.position, (b.readBytes n).1, 0⟩
  | .update data n => some ⟨b.position, (b.readBytes n).1, accepted (b.update data n).1⟩
  | .write data => some ⟨b.position, (b.readBytes data.length).1, accepted (b.write data).1⟩
  | _ => none

def edits (b : Buffer) : List Op → List Edit
  | [] => []
  | op :: ops => (b.edit? op).toList ++ (b.step op).2.edits ops

/-- An edit is taken back: the cursor can be moved to where it stood, as many bytes as were put in are
there to be deleted, and the removed bytes go in again. -/
structure Undoes (e : Edit) (b back : Buffer) : Prop where
  seeks : (b.seek e.position).1 = .ok ()
  deletes : ((b.seek e.position).2.delete e.inserted).1 = e.inserted
  updates : (b.seek e.position).2.update e.removed e.inserted = (.ok e.removed.length, back)

/-- Edits are taken back, one after the other. -/
inductive UndoesAll : List Edit → Buffer → Buffer → Prop where
  | nil (b : Buffer) : UndoesAll [] b b
  | cons {e : Edit} {edits : List Edit} {b middle back : Buffer} :
      Undoes e b middle → UndoesAll edits middle back → UndoesAll (e :: edits) b back

/-- What an edit made of some bytes: those that it removed stood at its position, and as many as were
put in stand there now. -/
def Edit.Splices (e : Edit) (old new : List UInt8) : Prop :=
  ∃ before inserted rest, old = before ++ e.removed ++ rest ∧ e.position = before.length ∧
    new = before ++ inserted ++ rest ∧ e.inserted = inserted.length

variable {b c back : Buffer} {s : Split} {op : Op} {ops : List Op} {e : Edit}

section Contents

private theorem content_drain (b : Buffer) (chunk : Nat) :
    (b.drain chunk).2.content = b.content := by
  obtain ⟨s, shown⟩ := b.exists_shows
  rw [(shown.drain chunk).2.content, shown.content, Split.drain]
  split <;> simp

/-- An operation that does not edit leaves the bytes. -/
theorem content_step (h : op.isEdit = false) : (b.step op).2.content = b.content := by
  cases op with
  | insert data | delete n | update data n | write data => cases h
  | seek position =>
    simp only [step, seek]
    split_ifs <;> rfl
  | drain chunk => exact b.content_drain chunk
  | _ => rfl

theorem content_steps (h : ∀ op ∈ ops, op.isEdit = false) :
    (b.steps ops).2.content = b.content := by
  induction ops generalizing b with
  | nil => rfl
  | cons op ops ih =>
    obtain ⟨first, others⟩ := List.forall_mem_cons.1 h
    exact (ih others).trans (content_step first)

end Contents

section Edits

private theorem edit?_eq_none_iff : b.edit? op = none ↔ op.isEdit = false := by
  cases op <;> simp [edit?, Op.isEdit]

private theorem Shows.content_insert (h : b.Shows s) (data : List UInt8) :
    ∃ inserted, (b.insert data).2.content = s.before ++ inserted ++ s.after ∧
      accepted (b.insert data).1 = inserted.length := by
  unfold Buffer.insert
  split_ifs
  · exact ⟨[], by simpa using h.content, rfl⟩
  · exact ⟨data, by simp only [h.take_position, h.drop_position], Int.toNat_natCast _⟩

private theorem splices_insert (b : Buffer) (data : List UInt8) :
    Edit.Splices ⟨b.position, [], accepted (b.insert data).1⟩ b.content
      (b.insert data).2.content := by
  obtain ⟨s, shown⟩ := b.exists_shows
  obtain ⟨inserted, content, count⟩ := shown.content_insert data
  exact ⟨s.before, inserted, s.after, by simpa using shown.content, shown.position, content, count⟩

/-- A removal takes what a read would give. -/
theorem Shows.removes (h : b.Shows s) (n : Int) :
    b.content = s.before ++ (b.readBytes n).1 ++ s.after.drop n.toNat ∧
      (b.delete n).2.Shows ⟨s.before, s.after.drop n.toNat⟩ := by
  have deleted := (h.delete n).2
  rw [Split.delete_eq] at deleted
  refine ⟨?_, deleted⟩
  rw [(h.readBytes n).1, Split.readBytes_eq, Split.read, List.append_assoc, List.take_append_drop]
  exact h.content

private theorem splices_delete (b : Buffer) (n : Int) :
    Edit.Splices ⟨b.position, (b.readBytes n).1, 0⟩ b.content (b.delete n).2.content := by
  obtain ⟨s, shown⟩ := b.exists_shows
  obtain ⟨content, deleted⟩ := shown.removes n
  exact ⟨s.before, [], s.after.drop n.toNat, content, shown.position, by simpa using deleted.content,
    rfl⟩

private theorem splices_update (b : Buffer) (data : List UInt8) (n : Int) :
    Edit.Splices ⟨b.position, (b.readBytes n).1, accepted (b.update data n).1⟩ b.content
      (b.update data n).2.content := by
  obtain ⟨s, shown⟩ := b.exists_shows
  obtain ⟨content, deleted⟩ := shown.removes n
  obtain ⟨inserted, updated, count⟩ := deleted.content_insert data
  exact ⟨s.before, inserted, s.after.drop n.toNat, content, shown.position, updated, count⟩

private theorem splices_step (noted : b.edit? op = some e) :
    e.Splices b.content (b.step op).2.content := by
  cases op with
  | insert data =>
    cases noted
    exact b.splices_insert data
  | delete n =>
    cases noted
    exact b.splices_delete n
  | update data n =>
    cases noted
    exact b.splices_update data n
  | write data =>
    cases noted
    exact b.splices_update data data.length
  | _ => cases noted

end Edits

section Length

theorem size_delete_le (b : Buffer) (n : Int) : (b.delete n).2.size ≤ b.size := by
  simp only [delete, size, List.length_append, List.length_take, List.length_drop]
  omega

private theorem size_insert_lt (short : b.size < 2 ^ 63) (data : List UInt8) :
    (b.insert data).2.size < 2 ^ 63 := by
  unfold insert
  split_ifs with tooLong
  · exact short
  · have bounded := b.position_le
    simp only [size, maxLength, List.length_append, List.length_take, List.length_drop] at *
    omega

/-- No operation makes a buffer too long. -/
theorem size_step_lt (short : b.size < 2 ^ 63) (op : Op) : (b.step op).2.size < 2 ^ 63 := by
  have removed (n : Int) : (b.delete n).2.size < 2 ^ 63 := (b.size_delete_le n).trans_lt short
  cases edits : op.isEdit with
  | false =>
    rw [size, content_step edits]
    exact short
  | true =>
    cases op with
    | insert data => exact size_insert_lt short data
    | delete n => exact removed n
    | update data n => exact size_insert_lt (removed n) data
    | write data => exact size_insert_lt (removed data.length) data
    | _ => cases edits

end Length

section Undoing

private theorem Edit.Splices.exists_undoes {old : List UInt8} (h : e.Splices old c.content)
    (short : old.length < 2 ^ 63) : ∃ back, Undoes e c back ∧ back.content = old := by
  obtain ⟨before, inserted, rest, rfl, position, new, count⟩ := h
  rw [List.append_assoc] at new
  obtain ⟨seeks, shown⟩ := seek_shows new
  rw [← position] at seeks shown
  -- The update gives the old bytes, which were not too long, so that nothing is refused here.
  have fits : (Split.update ⟨before, inserted ++ rest⟩ e.removed e.inserted).2.size < 2 ^ 63 := by
    simpa [Split.update_eq, Split.size, count, Nat.add_assoc] using short
  obtain ⟨answer, back⟩ := shown.update e.removed e.inserted fits
  have deletes := (shown.delete e.inserted).1
  rw [Split.update_eq] at answer back
  rw [Split.delete_eq] at deletes
  refine ⟨_, ⟨seeks, ?_, Prod.ext answer rfl⟩, ?_⟩
  · rw [deletes, count]
    simp
  · rw [back.content, count]
    simp

theorem UndoesAll.snoc {edits : List Edit} (h : UndoesAll edits b c) (last : Undoes e c back) :
    UndoesAll (edits ++ [e]) b back := by
  induction h with
  | nil b => exact .cons last (.nil back)
  | cons first _ ih => exact .cons first (ih last)

/-- Every history of operations can be taken back from its notes, the last edit first: the cursor can
be moved to where it was, all that was put in is there to be deleted, and after the last step the bytes
are those of the beginning. The history may hold operations that fail or that do not edit. All that is
asked of the buffer is that a signed number of 64 bits can count its bytes, as those of every buffer in
memory. -/
theorem edits_undone (b : Buffer) (short : b.size < 2 ^ 63) (ops : List Op) :
    ∃ back, UndoesAll (b.edits ops).reverse (b.steps ops).2 back ∧ back.content = b.content ∧
      back.size = b.size := by
  suffices undone : ∃ back, UndoesAll (b.edits ops).reverse (b.steps ops).2 back ∧
      back.content = b.content by
    obtain ⟨back, undoes, content⟩ := undone
    exact ⟨back, undoes, content, congrArg List.length content⟩
  -- The later edits are taken back first. They leave the bytes as they were behind the first operation,
  -- though not the cursor, and this is all that the first edit needs to be taken back in its turn.
  induction ops generalizing b with
  | nil => exact ⟨b, .nil b, rfl⟩
  | cons op ops ih =>
    obtain ⟨middle, undoes, content⟩ := ih (b.step op).2 (size_step_lt short op)
    cases noted : b.edit? op with
    | none =>
      refine ⟨middle, ?_, content.trans (content_step (edit?_eq_none_iff.1 noted))⟩
      simpa [edits, steps, noted] using undoes
    | some e =>
      have spliced := splices_step noted
      rw [← content] at spliced
      obtain ⟨back, last, restored⟩ := spliced.exists_undoes short
      refine ⟨back, ?_, restored⟩
      simpa [edits, steps, noted] using undoes.snoc last

/-- A history with deletes and overwrites past the end, and with seeks that fail. -/
theorem edits_undone_past_the_end :
    let b := ofBytes [1, 2, 3, 4, 5]
    let ops : List Op := [.seek 3, .delete 100, .seek (-1), .insert [8, 9], .seek 4, .write [6, 7, 8],
      .seek 0x7FFFFFFFFFFFFFFF, .seek 1, .update [0] (-5)]
    b.size < 2 ^ 63 ∧ b.edits ops = [⟨3, [4, 5], 0⟩, ⟨3, [], 2⟩, ⟨4, [9], 3⟩, ⟨1, [], 1⟩] ∧
      (b.steps ops).2.content = [1, 0, 2, 3, 8, 6, 7, 8] ∧
      ∃ back, UndoesAll (b.edits ops).reverse (b.steps ops).2 back ∧
        back.content = [1, 2, 3, 4, 5] := by
  intro b ops
  have short : b.size < 2 ^ 63 := by decide
  obtain ⟨back, undoes, content, -⟩ := b.edits_undone short ops
  exact ⟨short, by decide +kernel, by decide +kernel, back, undoes, content⟩

end Undoing

end DocGuard.Buffer
