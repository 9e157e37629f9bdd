import DocGuard.Proofs.Json.Writing

/-! A reader for any JSON value. It is put together from the scans of the parts and from the reader of
strings that records are read with, and takes numbers as they are spelled. It reads JSON texts only.
What is written compactly is read back by it, and by the reader of records as far as that one asks
for it. -/
namespace DocGuard.Json
variable {s t : List Char} {v : Value} {values : List Value} {members : List (String × Value)}
  {bound n : Nat}

/-- What was read of a text when something is left of it. -/
def spelling (s left : List Char) : String :=
  String.ofList (s.take (s.length - left.length))

namespace Value

mutual

/-- Reads the value that the text starts with, blanks before it included. The first argument bounds
the number of nested steps. -/
def parseWithin : Nat → List Char → Except Fault (Value × List Char)
  | 0, s => fail .endOfValue s
  | bound + 1, s =>
    match dropBlanks s with
    | [] => fail .endOfValue []
    | c :: rest =>
      if c = 'n' then do return (.null, ← skipWord ['u', 'l', 'l'] rest)
      else if c = 't' then do return (.bool true, ← skipWord ['r', 'u', 'e'] rest)
      else if c = 'f' then do return (.bool false, ← skipWord ['a', 'l', 's', 'e'] rest)
      else if c = '-' then do
        let left ← skipNumber rest
        return (.number (spelling (c :: rest) left), left)
      else if c.isDigit then do
        let left ← skipNumber (c :: rest)
        return (.number (spelling (c :: rest) left), left)
      else if c = '"' then do
        let (text, left) ← readString 0 rest
        return (.string (String.ofList text), left)
      else if c = '[' then
        match dropBlanks rest with
        | [] => fail .endOfList []
        | d :: after =>
          if d = ']' then .ok (.list [], after)
          else do
            let (values, left) ← parseElementsWithin bound (d :: after)
            return (.list values, left)
      else if c = '\x7b' then
        match dropBlanks rest with
        | [] => fail .endOfObject []
        | d :: after =>
          if d = '\x7d' then .ok (.object [], after)
          else do
            let (members, left) ← parseMembersWithin bound (d :: after)
            return (.object members, left)
      else failAt .expectedValue (c :: rest)

/-- Reads the elements of a list and its end. -/
def parseElementsWithin : Nat → List Char → Except Fault (List Value × List Char)
  | 0, s => fail .endOfValue s
  | bound + 1, s => do
    let (v, left) ← parseWithin bound s
    match dropBlanks left with
    | [] => fail .endOfList []
    | c :: rest =>
      if c = ',' then do
        let (values, left) ← parseElementsWithin bound rest
        return (v :: values, left)
      else if c = ']' then .ok ([v], rest)
      else failAt .expectedCommaOrListEnd (c :: rest)

/-- Reads the members of an object and its end. A name that comes twice is kept twice. -/
def parseMembersWithin : Nat → List Char → Except Fault (List (String × Value) × List Char)
  | 0, s => fail .endOfValue s
  | bound + 1, s =>
    match dropBlanks s with
    | [] => fail .endOfObject []
    | q :: key =>
      if q = '"' then do
        let (name, colon) ← readString 0 key
        let (v, left) ← parseWithin bound (← skipColon colon)
        match dropBlanks left with
        | [] => fail .endOfObject []
        | c :: rest =>
          if c = ',' then do
            let (members, left) ← parseMembersWithin bound rest
            return ((String.ofList name, v) :: members, left)
          else if c = '\x7d' then .ok ([(String.ofList name, v)], rest)
          else failAt .expectedCommaOrObjectEnd (c :: rest)
      else failAt .keyNotString (q :: key)

end

/-- Reads a text that is one value with blanks around it. -/
def parse (text : String) : Except Fault Value := do
  let (v, left) ← parseWithin (2 * text.toList.length + 1) text.toList
  match dropBlanks left with
  | [] => return v
  | c :: rest => failAt .trailingCharacters (c :: rest)

/-- The compact text of a value is read as the value, whatever stands behind it. -/
def ReadsBack (v : Value) : Prop :=
  ∀ bound t, Ends t → v.write.length ≤ bound → parseWithin bound (v.write ++ t) = .ok (v, t)

end Value

open Value

private theorem spelling_append (text t : List Char) :
    spelling (text ++ t) t = String.ofList text := by
  simp [spelling]

section Steps

private theorem parseWithin_number {text : String} (numeral : IsNumeral text.toList)
    (ends : Ends t) :
    parseWithin (n + 1) (text.toList ++ t) = .ok (.number text, t) := by
  have skipped := (numeral t).skip_eq ends
  have spelled := spelling_append text.toList t
  obtain ⟨c, rest, same, solid, -, -⟩ := (Spans.number (numeral t)).head
  obtain ⟨_, _, again, digit⟩ := (numeral t).head
  rw [same] at again skipped spelled ⊢
  cases again
  have noWord : c ≠ 'n' ∧ c ≠ 't' ∧ c ≠ 'f' ∧ c ≠ '-' := by
    refine ⟨?_, ?_, ?_, ?_⟩
    all_goals
      rintro rfl
      cases digit
  simp [parseWithin, (SpansBlanks.none _).dropBlanks_cons solid, noWord, digit, skipped, spelled,
    Bind.bind, Except.bind, Pure.pure, Except.pure]

private theorem parseWithin_negative {text : String} {digits : List Char}
    (signed : text.toList = '-' :: digits) (numeral : IsNumeral digits) (ends : Ends t) :
    parseWithin (n + 1) (text.toList ++ t) = .ok (.number text, t) := by
  have skipped := (numeral t).skip_eq ends
  have spelled := spelling_append text.toList t
  rw [signed, List.cons_append] at spelled ⊢
  rw [← signed, String.ofList_toList] at spelled
  simp [parseWithin, (SpansBlanks.none _).dropBlanks_cons, isBlank, skipped, spelled, Bind.bind,
    Except.bind, Pure.pure, Except.pure]

private theorem parseElementsWithin_last (first : parseWithin n s = .ok (v, ']' :: t)) :
    parseElementsWithin (n + 1) s = .ok ([v], t) := by
  simp [parseElementsWithin, first, (SpansBlanks.none _).dropBlanks_cons, isBlank, Bind.bind,
    Except.bind]

private theorem parseElementsWithin_next {rest : List Char}
    (first : parseWithin n s = .ok (v, ',' :: rest))
    (others : parseElementsWithin n rest = .ok (values, t)) :
    parseElementsWithin (n + 1) s = .ok (v :: values, t) := by
  simp [parseElementsWithin, first, others, (SpansBlanks.none _).dropBlanks_cons, isBlank,
    Bind.bind, Except.bind, Pure.pure, Except.pure]

private theorem parseMembersWithin_last {name : String} {key colon : List Char}
    (spelled : Spells key name.toList (':' :: colon))
    (first : parseWithin n colon = .ok (v, '\x7d' :: t)) :
    parseMembersWithin (n + 1) ('"' :: key) = .ok ([(name, v)], t) := by
  simp [parseMembersWithin, spelled.read_eq, skipColon_eq (.none _), first,
    (SpansBlanks.none _).dropBlanks_cons, isBlank, Bind.bind, Except.bind]

private theorem parseMembersWithin_next {name : String} {key colon rest : List Char}
    (spelled : Spells key name.toList (':' :: colon))
    (first : parseWithin n colon = .ok (v, ',' :: rest))
    (others : parseMembersWithin n rest = .ok (members, t)) :
    parseMembersWithin (n + 1) ('"' :: key) = .ok ((name, v) :: members, t) := by
  simp [parseMembersWithin, spelled.read_eq, skipColon_eq (.none _), first, others,
    (SpansBlanks.none _).dropBlanks_cons, isBlank, Bind.bind, Except.bind, Pure.pure, Except.pure]

private theorem parseWithin_list (parts : Spans .elements s t)
    (inner : parseElementsWithin n s = .ok (values, t)) :
    parseWithin (n + 1) ('[' :: s) = .ok (.list values, t) := by
  obtain ⟨c, rest, rfl, solid, full, -⟩ := parts.head
  simp [parseWithin, (SpansBlanks.none _).dropBlanks_cons, isBlank,
    (SpansBlanks.none _).dropBlanks_cons solid, full, inner, Bind.bind, Except.bind, Pure.pure,
    Except.pure]

private theorem parseWithin_object (parts : Spans .members s t)
    (inner : parseMembersWithin n s = .ok (members, t)) :
    parseWithin (n + 1) ('\x7b' :: s) = .ok (.object members, t) := by
  obtain ⟨c, rest, rfl, solid, -, full⟩ := parts.head
  simp [parseWithin, (SpansBlanks.none _).dropBlanks_cons, isBlank,
    (SpansBlanks.none _).dropBlanks_cons solid, full, inner, Bind.bind, Except.bind, Pure.pure,
    Except.pure]

end Steps

private theorem ends_of_mark {c : Char} (mark : c = ',' ∨ c = ']' ∨ c = '\x7d') : Ends (c :: t) :=
  (SpansBlanks.none _).ends mark

section Parts

private theorem parseElementsWithin_written (each : ∀ v ∈ values, v.ReadsBack)
    (filled : values ≠ [])
    (enough : (writeElements values).length ≤ bound) :
    parseElementsWithin bound (writeElements values ++ t) = .ok (values, t) := by
  induction values generalizing bound with
  | nil => exact absurd rfl filled
  | cons v values ih =>
    obtain ⟨first, others⟩ := List.forall_mem_cons.1 each
    rw [writeElements_cons] at enough ⊢
    rw [List.length_append] at enough
    rw [List.append_assoc]
    cases values with
    | nil =>
      have tail : writtenTail [] = [']'] := rfl
      rw [tail, List.length_singleton] at enough
      obtain ⟨n, rfl⟩ : ∃ n, bound = n + 1 := ⟨bound - 1, by omega⟩
      exact parseElementsWithin_last (first n _ (ends_of_mark (by simp)) (by omega))
    | cons next values =>
      have tail : writtenTail (next :: values) = ',' :: writeElements (next :: values) := rfl
      rw [tail, List.length_cons] at enough
      obtain ⟨n, rfl⟩ : ∃ n, bound = n + 1 := ⟨bound - 1, by omega⟩
      exact parseElementsWithin_next (first n _ (ends_of_mark (by simp)) (by omega))
        (ih others (List.cons_ne_nil _ _) (by omega))

private theorem parseMembersWithin_written (each : ∀ member ∈ members, member.2.ReadsBack)
    (filled : members ≠ []) (enough : (writeMembers members).length ≤ bound) :
    parseMembersWithin bound (writeMembers members ++ t) = .ok (members, t) := by
  induction members generalizing bound with
  | nil => exact absurd rfl filled
  | cons member members ih =>
    obtain ⟨first, others⟩ := List.forall_mem_cons.1 each
    obtain ⟨key, quoted, spelled⟩ :=
      spells_writeString (t := ':' :: (member.2.write ++ (writtenRest members ++ t))) member.1
    rw [writeMembers_cons] at enough ⊢
    simp only [List.length_append, List.length_cons] at enough
    rw [List.append_assoc, List.cons_append, List.append_assoc, quoted]
    obtain ⟨n, rfl⟩ : ∃ n, bound = n + 1 := ⟨bound - 1, by omega⟩
    cases members with
    | nil => exact parseMembersWithin_last spelled (first n _ (ends_of_mark (by simp)) (by omega))
    | cons next members =>
      have tail : writtenRest (next :: members) = ',' :: writeMembers (next :: members) := rfl
      rw [tail, List.length_cons] at enough
      exact parseMembersWithin_next spelled (first n _ (ends_of_mark (by simp)) (by omega))
        (ih others (List.cons_ne_nil _ _) (by omega))

private theorem Value.WellSpelled.readsBack_of_steps (h : v.WellSpelled)
    (step : ∀ n t, Ends t → v.write.length ≤ n + 1 →
      parseWithin (n + 1) (v.write ++ t) = .ok (v, t)) : v.ReadsBack := by
  intro bound t ends enough
  have room : (v.write ++ t).length ≤ bound + t.length := by
    rw [List.length_append]
    omega
  obtain ⟨n, rfl⟩ := (h.spans t).bound_eq room
  exact step n t ends enough

/-- Every value is read back from its compact text. -/
theorem Value.WellSpelled.readsBack (h : v.WellSpelled) : v.ReadsBack := by
  induction h with
  | null => exact readsBack_of_steps .null fun _ _ _ _ => rfl
  | bool value =>
    refine readsBack_of_steps (.bool value) fun _ _ _ _ => ?_
    cases value <;> rfl
  | number numeral =>
    exact readsBack_of_steps (.number numeral) fun _ _ ends _ => parseWithin_number numeral ends
  | negative signed numeral =>
    exact readsBack_of_steps (.negative signed numeral)
      fun _ _ ends _ => parseWithin_negative signed numeral ends
  | string text =>
    refine readsBack_of_steps (.string text) fun n t _ _ => ?_
    obtain ⟨content, quoted, spelled⟩ := spells_writeString (t := t) text
    rw [Value.write, quoted]
    simp [parseWithin, (SpansBlanks.none _).dropBlanks_cons, isBlank, spelled.read_eq, Bind.bind,
      Except.bind, Pure.pure, Except.pure]
  | @list elements well ih =>
    refine readsBack_of_steps (.list well) fun n t _ enough => ?_
    cases elements with
    | nil => rfl
    | cons v values =>
      have parts : Spans .elements (writeElements (v :: values) ++ t) t :=
        spans_writeElements (fun other among => (well other among).spans) (List.cons_ne_nil _ _)
      exact parseWithin_list parts
        (parseElementsWithin_written ih (List.cons_ne_nil _ _) (Nat.le_of_succ_le_succ enough))
  | @object members well ih =>
    refine readsBack_of_steps (.object well) fun n t _ enough => ?_
    cases members with
    | nil => rfl
    | cons member members =>
      have parts : Spans .members (writeMembers (member :: members) ++ t) t :=
        spans_writeMembers (fun other among => (well other among).spans) (List.cons_ne_nil _ _)
      exact parseWithin_object parts
        (parseMembersWithin_written ih (List.cons_ne_nil _ _) (Nat.le_of_succ_le_succ enough))

private theorem Value.WellSpelled.parse_render (h : v.WellSpelled) : parse v.render = .ok v := by
  have ends : Ends [] := nofun
  have inner := h.readsBack (2 * v.write.length + 1) [] ends (by omega)
  rw [List.append_nil] at inner
  simp [parse, Value.render, inner, dropBlanks, Bind.bind, Except.bind, Pure.pure, Except.pure]

end Parts

section Scans

theorem bind_eq_ok {α β : Type} {first : Except Fault α} {next : α → Except Fault β} {value : β} :
    (first >>= next) = .ok value ↔ ∃ middle, first = .ok middle ∧ next middle = .ok value := by
  cases first <;> simp [Bind.bind, Except.bind]

theorem failAt_ne_ok {α : Type} {cause : Cause} {value : α} : failAt cause s ≠ .ok value := by
  intro h
  cases h

private theorem exists_hex_digits {m : Nat} (h : readHex s = .ok m) :
    ∃ a b c d rest, s = a :: b :: c :: d :: rest := by
  unfold readHex at h
  split at h
  · cases h
  · split at h
    · exact ⟨_, _, _, _, _, rfl⟩
    · cases h

private theorem exists_second_half {m : Nat} {d : Char} (h : readTrailing m s = .ok d) :
    ∃ n rest, s = '\\' :: 'u' :: rest ∧ readHex rest = .ok n := by
  cases s with
  | nil => cases h
  | cons b rest =>
    simp only [readTrailing] at h
    split_ifs at h with mark
    · subst mark
      cases rest with
      | nil => cases h
      | cons u rest =>
        simp only at h
        split_ifs at h with letter
        · subst letter
          obtain ⟨n, digits, -⟩ := bind_eq_ok.1 h
          exact ⟨n, rest, rfl, digits⟩
        · cases h
    · cases h

private theorem skipString_escape {d : Char} (h : readEscape s = .ok (d, n))
    (passed : skipString n s = .ok t) : skipString 0 ('\\' :: s) = .ok t := by
  cases s with
  | nil => cases h
  | cons c rest =>
    simp only [readEscape] at h
    split_ifs at h with number
    · subst number
      obtain ⟨m, first, h⟩ := bind_eq_ok.1 h
      split_ifs at h with trailing leading
      · cases h
      · obtain ⟨e, second, h⟩ := bind_eq_ok.1 h
        cases h
        obtain ⟨a, b, c, d, rest, rfl⟩ := exists_hex_digits first
        obtain ⟨_, rest, whole, third⟩ := exists_second_half second
        simp only [List.drop_succ_cons, List.drop_zero] at whole
        subst whole
        obtain ⟨i, j, k, l, rest, rfl⟩ := exists_hex_digits third
        simpa [skipString, scanEscape, first, third, Bind.bind, Except.bind, Pure.pure,
          Except.pure] using passed
      · cases h
        simpa [skipString, scanEscape, first, Bind.bind, Except.bind, Pure.pure, Except.pure] using passed
    · split at h
      case h_1 letter =>
        cases h
        simpa [skipString, scanEscape, number, letter, Bind.bind, Except.bind] using passed
      case h_2 => cases h

private theorem skipString_of_readString {text : List Char} (h : readString n s = .ok (text, t)) :
    skipString n s = .ok t := by
  induction s generalizing n text with
  | nil => cases n <;> cases h
  | cons c rest ih =>
    cases n with
    | succ n => exact ih h
    | zero =>
      simp only [readString] at h
      split_ifs at h with quote backslash control
      · cases h
        simp [skipString, quote]
      · subst backslash
        obtain ⟨⟨d, n⟩, escape, h⟩ := bind_eq_ok.1 h
        obtain ⟨⟨text, left⟩, onward, h⟩ := bind_eq_ok.1 h
        cases h
        exact skipString_escape escape (ih onward)
      · cases h
      · obtain ⟨⟨text, left⟩, onward, h⟩ := bind_eq_ok.1 h
        cases h
        simp [skipString, quote, backslash, control, ih onward]

private theorem left_of_bind {f : List Char → Value} {first : Except Fault (List Char)}
    (h : (first >>= fun left => Pure.pure (f left, left)) = .ok (v, t)) : first = .ok t := by
  obtain ⟨left, passed, h⟩ := bind_eq_ok.1 h
  cases h
  exact passed

private theorem read_of_bind {α β : Type} {f : α → β} {first : Except Fault (α × List Char)}
    {value : β}
    (h : (first >>= fun read => Pure.pure (f read.1, read.2)) = .ok (value, t)) :
    ∃ read, first = .ok (read, t) := by
  obtain ⟨⟨read, left⟩, passed, h⟩ := bind_eq_ok.1 h
  cases h
  exact ⟨read, passed⟩

private theorem ite_eq_ok {α : Type} {p : Prop} [Decidable p]
    {one two : Except Fault (α × List Char)}
    {first second : Except Fault (List Char)} {read : α} (yes : one = .ok (read, t) → first = .ok t)
    (no : two = .ok (read, t) → second = .ok t) :
    (if p then one else two) = .ok (read, t) → (if p then first else second) = .ok t := by
  split
  · exact yes
  · exact no

private theorem skipValueWithin_of_parse
    (elements : ∀ {s t values}, parseElementsWithin n s = .ok (values, t) →
      skipElementsWithin n s = .ok t)
    (parts : ∀ {s t members}, parseMembersWithin n s = .ok (members, t) →
      skipMembersWithin n s = .ok t)
    (h : parseWithin (n + 1) s = .ok (v, t)) : skipValueWithin (n + 1) s = .ok t := by
  simp only [parseWithin] at h
  simp only [skipValueWithin]
  cases start : dropBlanks s with
  | nil =>
    rw [start] at h
    cases h
  | cons c rest =>
    simp only [start] at h ⊢
    revert h
    -- three words and two kinds of numbers, then strings, lists and objects
    iterate 5 refine ite_eq_ok left_of_bind ?_
    refine ite_eq_ok (fun h => ?_)
      (ite_eq_ok (fun h => ?_) (ite_eq_ok (fun h => ?_) failAt_ne_ok.elim))
    · obtain ⟨_, passed⟩ := read_of_bind (f := fun text => string (String.ofList text)) h
      exact skipString_of_readString passed
    · cases inner : dropBlanks rest with
      | nil =>
        rw [inner] at h
        cases h
      | cons d after =>
        simp only [inner] at h ⊢
        revert h
        refine ite_eq_ok (fun h => ?_) fun h => ?_
        · cases h
          rfl
        · obtain ⟨_, passed⟩ := read_of_bind h
          exact elements passed
    · cases inner : dropBlanks rest with
      | nil =>
        rw [inner] at h
        cases h
      | cons d after =>
        simp only [inner] at h ⊢
        revert h
        refine ite_eq_ok (fun h => ?_) fun h => ?_
        · cases h
          rfl
        · obtain ⟨_, passed⟩ := read_of_bind h
          exact parts passed

private theorem skipElementsWithin_of_parse
    (value : ∀ {s t v}, parseWithin n s = .ok (v, t) → skipValueWithin n s = .ok t)
    (others : ∀ {s t values}, parseElementsWithin n s = .ok (values, t) →
      skipElementsWithin n s = .ok t)
    (h : parseElementsWithin (n + 1) s = .ok (values, t)) :
    skipElementsWithin (n + 1) s = .ok t := by
  obtain ⟨⟨v, left⟩, first, h⟩ := bind_eq_ok.1 h
  refine bind_eq_ok.2 ⟨left, value first, ?_⟩
  cases start : dropBlanks left with
  | nil =>
    simp only [start] at h
    cases h
  | cons c rest =>
    simp only [start] at h ⊢
    revert h
    refine ite_eq_ok (fun h => ?_) (ite_eq_ok (fun h => ?_) failAt_ne_ok.elim)
    · obtain ⟨_, onward⟩ := read_of_bind h
      exact others onward
    · cases h
      rfl

private theorem skipMembersWithin_of_parse
    (value : ∀ {s t v}, parseWithin n s = .ok (v, t) → skipValueWithin n s = .ok t)
    (others : ∀ {s t members}, parseMembersWithin n s = .ok (members, t) →
      skipMembersWithin n s = .ok t)
    (h : parseMembersWithin (n + 1) s = .ok (members, t)) :
    skipMembersWithin (n + 1) s = .ok t := by
  simp only [parseMembersWithin] at h
  simp only [skipMembersWithin]
  cases start : dropBlanks s with
  | nil =>
    rw [start] at h
    cases h
  | cons q key =>
    simp only [start] at h ⊢
    revert h
    refine ite_eq_ok (fun h => ?_) failAt_ne_ok.elim
    obtain ⟨⟨name, colon⟩, named, h⟩ := bind_eq_ok.1 h
    obtain ⟨content, mark, h⟩ := bind_eq_ok.1 h
    obtain ⟨⟨v, left⟩, first, h⟩ := bind_eq_ok.1 h
    refine bind_eq_ok.2 ⟨colon, skipString_of_readString named, ?_⟩
    refine bind_eq_ok.2 ⟨content, mark, bind_eq_ok.2 ⟨left, value first, ?_⟩⟩
    cases behind : dropBlanks left with
    | nil =>
      simp only [behind] at h
      cases h
    | cons c rest =>
      simp only [behind] at h ⊢
      revert h
      refine ite_eq_ok (fun h => ?_) (ite_eq_ok (fun h => ?_) failAt_ne_ok.elim)
      · obtain ⟨_, onward⟩ := read_of_bind h
        exact others onward
      · cases h
        rfl

private theorem skip_of_parse (bound : Nat) :
    (∀ {s t v}, parseWithin bound s = .ok (v, t) → skipValueWithin bound s = .ok t) ∧
      (∀ {s t values}, parseElementsWithin bound s = .ok (values, t) →
        skipElementsWithin bound s = .ok t) ∧
      ∀ {s t members}, parseMembersWithin bound s = .ok (members, t) →
        skipMembersWithin bound s = .ok t := by
  induction bound with
  | zero => exact ⟨nofun, nofun, nofun⟩
  | succ n ih =>
    obtain ⟨value, elements, parts⟩ := ih
    exact ⟨skipValueWithin_of_parse elements parts, skipElementsWithin_of_parse value elements,
      skipMembersWithin_of_parse value parts⟩

private theorem isText_of_parse {text : String} (h : parse text = .ok v) : isText text = true := by
  obtain ⟨⟨v, left⟩, read, h⟩ := bind_eq_ok.1 h
  have passed : skipValue text.toList = .ok left := (skip_of_parse _).1 read
  simp only [isText, passed]
  cases clear : dropBlanks left with
  | nil => rfl
  | cons c rest =>
    simp only [clear] at h
    cases h

end Scans

/-- The text is that of one object. A reader for any value finds exactly these members in it, and a
reader of records the texts of all that it asks for and the object holds. -/
structure ReadsAs (text : String) (members : List (String × Value)) : Prop where
  isText : isText text = true
  value : parse text = .ok (.object members)
  record : ∀ (shape : Shape) (fields : List (String × String)),
    shape.fields = fields.map Prod.fst → shape.fields.Nodup →
    (∀ field ∈ fields, (field.1, .string field.2) ∈ members) →
    parseRecord shape text.toList = .ok (fields.map Prod.snd)

/-- The compact text of an object with different names reads as the object. -/
theorem readsAs_render (filled : members ≠ [])
    (spelled : ∀ member ∈ members, member.2.WellSpelled) (keys : (members.map Prod.fst).Nodup) :
    ReadsAs (Value.object members).render members where
  isText := isText_of_parse (Value.WellSpelled.object spelled).parse_render
  value := (Value.WellSpelled.object spelled).parse_render
  record := fun shape fields names once held => by
    rw [Value.render, String.toList_ofList]
    exact parseRecord_written names once filled spelled keys held

end DocGuard.Json
