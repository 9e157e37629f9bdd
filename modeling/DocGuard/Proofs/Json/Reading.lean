import Mathlib.Data.List.Perm.Basic
import DocGuard.Json.Record
import DocGuard.Proofs.Json.Skipping
import DocGuard.Proofs.Lookup

/-! Records are read as they are written: whatever the order of the members, the padding, the escapes
and the members of other names, the texts of the fields are found. -/
namespace DocGuard.Json
variable {s t : List Char}

section Strings

private theorem joined_eq {d : Char} (high : 0x10000 ≤ d.toNat) :
    joined (0xD800 + (d.toNat - 0x10000) / 0x400) (0xDC00 + (d.toNat - 0x10000) % 0x400) = d := by
  have whole : ((0xD800 + (d.toNat - 0x10000) / 0x400) - 0xD800) * 0x400 +
      ((0xDC00 + (d.toNat - 0x10000) % 0x400) - 0xDC00) + 0x10000 = d.toNat := by
    omega
  rw [joined, whole, Char.ofNat_toNat]

private theorem not_surrogate (d : Char) :
    isLeading d.toNat = false ∧ isTrailing d.toNat = false := by
  have valid := d.valid
  simp only [UInt32.isValidChar, Nat.isValidChar] at valid
  have same : d.toNat = d.val.toNat := rfl
  constructor
  · simp only [isLeading, Bool.and_eq_false_iff, decide_eq_false_iff_not]
    omega
  · simp only [isTrailing, Bool.and_eq_false_iff, decide_eq_false_iff_not]
    omega

private theorem surrogates {d : Char} :
    isLeading (0xD800 + (d.toNat - 0x10000) / 0x400) = true ∧
      isTrailing (0xD800 + (d.toNat - 0x10000) / 0x400) = false ∧
      isTrailing (0xDC00 + (d.toNat - 0x10000) % 0x400) = true := by
  have valid := d.valid
  simp only [UInt32.isValidChar, Nat.isValidChar] at valid
  have same : d.toNat = d.val.toNat := rfl
  simp only [isLeading, isTrailing, Bool.and_eq_true, Bool.and_eq_false_iff, decide_eq_true_eq,
    decide_eq_false_iff_not]
  omega

/-- A string is read as the text that it spells. -/
theorem Spells.read_eq {text : List Char} (h : Spells s text t) :
    readString 0 s = .ok (text, t) := by
  induction h with
  | close t => rfl
  | plain quote backslash control _ ih =>
    have printable := Char.not_lt.2 control
    simp [readString, quote, backslash, printable, ih, Bind.bind, Except.bind, Pure.pure,
      Except.pure]
  | letter among _ ih =>
    simp [readString, readEscape, letter_ne_u among, escaped?_of_letter among, ih, Bind.bind,
      Except.bind, Pure.pure, Except.pure]
  | unit digits _ ih =>
    simp [readString, readEscape, readHex_eq digits, not_surrogate, ih, Bind.bind, Except.bind,
      Pure.pure, Except.pure]
  | pair high leading trailing _ ih =>
    simp [readString, readEscape, readTrailing, readHex_eq leading, readHex_eq trailing, surrogates,
      joined_eq high, ih, Bind.bind, Except.bind, Pure.pure, Except.pure]

theorem Spells.spans {text : List Char} (h : Spells s text t) : SpansString s t := by
  induction h with
  | close t => exact .close t
  | plain quote backslash printable _ ih => exact .plain quote backslash printable ih
  | letter among _ ih => exact .letter among ih
  | unit digits _ ih => exact .number digits ih
  | pair _ leading trailing _ ih => exact .number leading (.number trailing ih)

end Strings

section Members
variable {names : List String} {fields found earlier rest : List (String × String)}
  {key left : List Char}

theorem readText_eq {value text : List Char} (blanks : SpansBlanks s ('"' :: value))
    (spelled : Spells value text t) : readText s = .ok (String.ofList text, t) := by
  simp [readText, blanks.dropBlanks_cons, isBlank, spelled.read_eq, Bind.bind, Except.bind,
    Pure.pure, Except.pure]

private theorem nextKey?_first (blanks : SpansBlanks s ('"' :: key)) :
    nextKey? true s = .ok (some key) := by
  simp [nextKey?, blanks.dropBlanks_cons, isBlank]

private theorem nextKey?_next {comma : List Char} (mark : SpansBlanks s (',' :: comma))
    (blanks : SpansBlanks comma ('"' :: key)) : nextKey? false s = .ok (some key) := by
  simp [nextKey?, mark.dropBlanks_cons, blanks.dropBlanks_cons, isBlank]

private theorem nextKey?_close (blanks : SpansBlanks s ('\x7d' :: t)) :
    nextKey? false s = .ok none := by
  simp [nextKey?, blanks.dropBlanks_cons, isBlank]

theorem SpansMember.parts (h : SpansMember names found s t) :
    ∃ key colon blank value, s = '"' :: key ∧ SpansString key colon ∧
      SpansBlanks colon (':' :: blank) ∧ SpansBlanks blank value ∧ Spans .value value t := by
  cases h with
  | named _ name colon blanks value =>
    exact ⟨_, _, _, _, rfl, name.spans, colon, blanks, .string value.spans⟩
  | further _ name colon blanks value => exact ⟨_, _, _, _, rfl, name.spans, colon, blanks, value⟩

theorem SpansMember.length_lt (h : SpansMember names found s t) : t.length < s.length := by
  obtain ⟨key, colon, blank, value, rfl, name, mark, blanks, content⟩ := h.parts
  have first := name.length_lt
  have second := mark.length_le
  have third := blanks.length_le
  have fourth := content.length_lt
  simp only [List.length_cons] at second ⊢
  omega

/-- Reading passes over a member, and keeps its text if its name is asked for. -/
theorem SpansMember.read_eq {bound : Nat} {isFirst : Bool}
    (h : SpansMember names found ('"' :: key) left) (next : nextKey? isFirst s = .ok (some key))
    (ends : Ends left) (fresh : ∀ entry ∈ found, entry.1 ∉ earlier.map Prod.fst) :
    readMembersWithin names (bound + 1) isFirst earlier s =
      readMembersWithin names bound false (earlier ++ found) left := by
  cases h with
  | @named name text _ colon blank value _ asked spelled mark blanks content =>
    have missing : earlier.lookup name = none := lookup_of_not_mem (fresh (name, text) (by simp))
    simp [readMembersWithin, next, spelled.read_eq, asked, missing, skipColon_eq mark,
      readText_eq blanks content, Bind.bind, Except.bind]
  | @further name _ colon blank value _ unasked spelled mark blanks content =>
    simp [readMembersWithin, next, spelled.read_eq, unasked, skipColon_eq mark,
      skipValue_eq blanks content ends, Bind.bind, Except.bind]

theorem SpansRest.ends (h : SpansRest names rest s t) : Ends s := by
  cases h with
  | close blanks => exact blanks.ends (.inr (.inr rfl))
  | next mark _ _ _ => exact mark.ends (.inl rfl)

theorem SpansRest.length_lt (h : SpansRest names rest s t) : t.length < s.length := by
  induction h with
  | close blanks =>
    have shorter := blanks.length_le
    simp only [List.length_cons] at shorter
    omega
  | next mark blanks member _ ih =>
    have first := mark.length_le
    have second := blanks.length_le
    have third := member.length_lt
    simp only [List.length_cons] at first
    omega

/-- Reading keeps the texts of the members up to the end of the object, if no name comes twice. -/
theorem SpansRest.read_eq (h : SpansRest names rest s t) {bound : Nat}
    (enough : s.length ≤ bound + t.length) (once : ((earlier ++ rest).map Prod.fst).Nodup) :
    readMembersWithin names bound false earlier s = .ok (earlier ++ rest, '\x7d' :: t) := by
  induction h generalizing bound earlier with
  | close blanks =>
    have shorter := blanks.length_le
    simp only [List.length_cons] at shorter
    obtain ⟨n, rfl⟩ : ∃ n, bound = n + 1 := ⟨bound - 1, by omega⟩
    simp [readMembersWithin, nextKey?_close blanks, blanks.dropBlanks_cons, isBlank, Bind.bind,
      Except.bind, Pure.pure, Except.pure]
  | @next found rest s comma member left t mark blanks item tail ih =>
    have first := mark.length_le
    have second := blanks.length_le
    have third := item.length_lt
    have fourth := tail.length_lt
    simp only [List.length_cons] at first
    obtain ⟨n, rfl⟩ : ∃ n, bound = n + 1 := ⟨bound - 1, by omega⟩
    obtain ⟨key, -, -, -, rfl, -⟩ := item.parts
    rw [← List.append_assoc] at once ⊢
    -- a name that is found already would come twice
    have fresh : ∀ entry ∈ found, entry.1 ∉ earlier.map Prod.fst := by
      rw [List.map_append, List.map_append, List.nodup_append, List.nodup_append] at once
      intro entry among twice
      exact once.1.2.2 _ twice _ (List.mem_map_of_mem among) rfl
    rw [item.read_eq (nextKey?_next mark blanks) tail.ends fresh]
    exact ih (by omega) once

private theorem inOrder_eq (complete : ∀ entry ∈ fields, found.lookup entry.1 = some entry.2) :
    inOrder found (fields.map Prod.fst) = .ok (fields.map Prod.snd) := by
  induction fields with
  | nil => rfl
  | cons field fields ih =>
    obtain ⟨first, others⟩ := List.forall_mem_cons.1 complete
    simp [inOrder, first, ih others, Functor.map, Except.map]

/-- A record is read as the texts of its fields. -/
theorem parseRecord_eq {shape : Shape} (names : shape.fields = fields.map Prod.fst)
    (once : shape.fields.Nodup) (h : IsRecord fields s) :
    parseRecord shape s = .ok (fields.map Prod.snd) := by
  obtain @⟨found, rest, _, object, member, left, trailing, blanks, gap, first, others, padding,
    perm⟩ := h
  have unique : ((found ++ rest).map Prod.fst).Nodup :=
    (perm.map Prod.fst).nodup_iff.2 (names ▸ once)
  obtain ⟨key, -, -, -, rfl, -⟩ := first.parts
  have shorter : left.length < object.length := by
    have inner := gap.length_le
    have onward := first.length_lt
    omega
  have opened : readMembersWithin shape.fields (object.length + 1) true [] object =
      readMembersWithin shape.fields object.length false found left := by
    rw [names]
    exact first.read_eq (nextKey?_first gap) others.ends (by simp)
  have finished : readMembersWithin shape.fields object.length false found left =
      .ok (found ++ rest, '\x7d' :: trailing) := by
    rw [names]
    exact others.read_eq (by omega) unique
  have complete : inOrder (found ++ rest) shape.fields = .ok (fields.map Prod.snd) := by
    rw [names]
    exact inOrder_eq fun entry among => lookup_of_mem unique (perm.mem_iff.2 among)
  have ended : pastEnd '\x7d' ('\x7d' :: trailing) = trailing := rfl
  have clear : dropBlanks trailing = [] := padding.dropBlanks_eq
  simp [parseRecord, readRecord, blanks.dropBlanks_cons, isBlank, readObject, opened, finished,
    complete, ended, clear, Bind.bind, Except.bind, Pure.pure, Except.pure]

end Members

end DocGuard.Json
