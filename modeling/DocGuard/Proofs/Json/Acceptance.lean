import DocGuard.Proofs.Json.Reading
import DocGuard.Proofs.Json.Scanning

/-! The texts that a record is read from. There are two kinds of them: an object that holds each field
once, and a list of the texts of the fields in their order. Nothing else is read. -/
namespace DocGuard.Json
variable {s t u : List Char}

section Grammar

/-- The elements of a list that spell some texts one by one, up to the end of the list. -/
inductive SpansTexts : List String → List Char → List Char → Prop where
  | last {text : String} {s value left t : List Char} : SpansBlanks s ('"' :: value) →
      Spells value text.toList left → SpansBlanks left (']' :: t) → SpansTexts [text] s t
  | next {text : String} {texts : List String} {s value left comma t : List Char} :
      SpansBlanks s ('"' :: value) → Spells value text.toList left →
      SpansBlanks left (',' :: comma) → SpansTexts texts comma t → SpansTexts (text :: texts) s t

/-- The text is a list, with blanks around it, of strings that spell some texts in their order. -/
inductive IsListing (texts : List String) : List Char → Prop where
  | mk {s elements trailing : List Char} : SpansBlanks s ('[' :: elements) →
      SpansTexts texts elements trailing → SpansBlanks trailing [] → IsListing texts s

private theorem SpansTexts.of_blanks {texts : List String} (blanks : SpansBlanks s u)
    (h : SpansTexts texts u t) : SpansTexts texts s t := by
  cases h with
  | last quoted spelled closing => exact .last (blanks.trans quoted) spelled closing
  | next quoted spelled mark others => exact .next (blanks.trans quoted) spelled mark others

theorem SpansTexts.head {texts : List String} (h : SpansTexts texts s t) :
    ∃ value, SpansBlanks s ('"' :: value) := by
  cases h with
  | last quoted _ _ => exact ⟨_, quoted⟩
  | next quoted _ _ _ => exact ⟨_, quoted⟩

end Grammar

section Values
variable {α : Type}

private theorem failType_ne_ok {expected : String} {value : α} :
    failType expected s ≠ .ok value := by
  intro h
  cases s with
  | nil => cases h
  | cons c rest =>
    simp only [failType] at h
    split_ifs at h
    -- three words, two kinds of numbers and a string are passed first
    iterate 6
      · obtain ⟨_, _, h⟩ := bind_eq_ok.1 h
        cases h
    · cases h
    · cases h
    · exact failAt_ne_ok h

private theorem spells_of_readText {text : String} (h : readText s = .ok (text, t)) :
    ∃ value, SpansBlanks s ('"' :: value) ∧ Spells value text.toList t := by
  unfold readText at h
  split at h
  · cases h
  · rename_i c rest start
    split_ifs at h with quote
    · obtain ⟨⟨text, left⟩, read, h⟩ := bind_eq_ok.1 h
      cases h
      rw [String.toList_ofList]
      exact ⟨rest, quote ▸ spansBlanks_of_eq start, spells_of_read read⟩
    · exact absurd h failType_ne_ok

end Values

section Members
variable {names : List String} {found earlier : Fields} {key left : List Char}

private theorem spansBlanks_of_nextKey? (h : nextKey? true s = .ok (some key)) :
    SpansBlanks s ('"' :: key) := by
  unfold nextKey? at h
  split at h
  · cases h
  · rename_i c rest start
    simp only [if_true] at h
    split_ifs at h with closed quote
    · cases h
    · cases h
      exact quote ▸ spansBlanks_of_eq start
    · cases h

private theorem exists_comma_of_nextKey? (h : nextKey? false s = .ok (some key)) :
    ∃ comma, SpansBlanks s (',' :: comma) ∧ SpansBlanks comma ('"' :: key) := by
  unfold nextKey? at h
  split at h
  · cases h
  · rename_i c rest start
    simp only [Bool.false_eq_true, if_false] at h
    split_ifs at h with closed comma
    · cases h
    · split at h
      · cases h
      · rename_i d more behind
        split_ifs at h with quote
        · cases h
          exact ⟨rest, comma ▸ spansBlanks_of_eq start, quote ▸ spansBlanks_of_eq behind⟩
        · cases h
        · cases h
    · cases h

private theorem exists_close_of_nextKey? {isFirst : Bool} (h : nextKey? isFirst s = .ok none) :
    ∃ rest, dropBlanks s = '\x7d' :: rest := by
  unfold nextKey? at h
  split at h
  · cases h
  · rename_i c rest start
    split_ifs at h with closed isFirst quote comma
    · exact ⟨rest, closed ▸ start⟩
    · cases h
    · cases h
    · split at h
      · cases h
      · split_ifs at h
        all_goals cases h
    · cases h

/-- One step of reading members: the end of the object, or a member with the rest behind it. -/
theorem readMembersWithin_cases {bound : Nat} {isFirst : Bool}
    (h : readMembersWithin names (bound + 1) isFirst earlier s = .ok (found, left)) :
    (nextKey? isFirst s = .ok none ∧ found = earlier ∧ left = dropBlanks s) ∨
      ∃ key member rest, nextKey? isFirst s = .ok (some key) ∧
        SpansMember names member ('"' :: key) rest ∧
        ((earlier.map Prod.fst).Nodup → ((earlier ++ member).map Prod.fst).Nodup) ∧
        readMembersWithin names bound false (earlier ++ member) rest = .ok (found, left) := by
  obtain ⟨next, due, h⟩ := bind_eq_ok.1 h
  cases next with
  | none =>
    cases h
    exact .inl ⟨due, rfl, rfl⟩
  | some key =>
    refine .inr ⟨key, ?_⟩
    obtain ⟨⟨name, colon⟩, named, h⟩ := bind_eq_ok.1 h
    have spelled : Spells key (String.ofList name).toList colon := by
      rw [String.toList_ofList]
      exact spells_of_read named
    simp only at h
    split_ifs at h with asked twice
    · cases h
    · obtain ⟨value, mark, h⟩ := bind_eq_ok.1 h
      obtain ⟨⟨text, rest⟩, read, h⟩ := bind_eq_ok.1 h
      obtain ⟨content, quoted, content_spelled⟩ := spells_of_readText read
      refine ⟨_, rest, due, .named asked spelled (spansBlanks_of_skipColon mark) quoted
        content_spelled, fun once => ?_, h⟩
      have fresh : String.ofList name ∉ earlier.map Prod.fst := fun among =>
        twice (lookup_isSome_of_mem among)
      rw [List.map_append]
      exact once.append (List.nodup_singleton _) (by simpa using fresh)
    · obtain ⟨value, mark, h⟩ := bind_eq_ok.1 h
      obtain ⟨rest, passed, h⟩ := bind_eq_ok.1 h
      exact ⟨[], rest, due, .further asked spelled (spansBlanks_of_skipColon mark)
        (spansBlanks_dropBlanks value) (spans_of_skipValue passed), by simp, by simpa using h⟩

private theorem SpansMember.names_mem {member : Fields} (h : SpansMember names member s t) :
    ∀ entry ∈ member, entry.1 ∈ names := by
  cases h with
  | named asked _ _ _ _ => simpa using asked
  | further _ _ _ _ _ => simp

private theorem spansRest_of_read {bound : Nat}
    (h : readMembersWithin names bound false earlier s = .ok (found, left))
    (once : (earlier.map Prod.fst).Nodup) :
    ∃ rest t, found = earlier ++ rest ∧ left = '\x7d' :: t ∧ SpansRest names rest s t ∧
      (found.map Prod.fst).Nodup ∧ ∀ entry ∈ rest, entry.1 ∈ names := by
  induction bound generalizing earlier s with
  | zero => cases h
  | succ bound ih =>
    rcases readMembersWithin_cases h with ⟨due, rfl, rfl⟩ | ⟨key, member, rest, due, part, fresh, h⟩
    · obtain ⟨t, closed⟩ := exists_close_of_nextKey? due
      exact ⟨[], t, by simp, closed, .close (spansBlanks_of_eq closed), once, by simp⟩
    · obtain ⟨others, t, whole, ended, onward, unique, asked⟩ := ih h (fresh once)
      obtain ⟨comma, mark, quote⟩ := exists_comma_of_nextKey? due
      refine ⟨member ++ others, t, by rw [whole, List.append_assoc], ended,
        .next mark quote part onward, unique, fun entry among => ?_⟩
      exact (List.mem_append.1 among).elim (part.names_mem entry) (asked entry)

end Members

section Objects
variable {fields found : Fields} {names texts : List String} {left : List Char}

private theorem exists_fields_of_inOrder (h : inOrder found names = .ok texts) :
    ∃ fields : Fields, fields.map Prod.fst = names ∧ fields.map Prod.snd = texts ∧
      ∀ entry ∈ fields, found.lookup entry.1 = some entry.2 := by
  induction names generalizing texts with
  | nil =>
    cases h
    exact ⟨[], rfl, rfl, by simp⟩
  | cons name names ih =>
    simp only [inOrder] at h
    split at h
    · cases h
    · rename_i text held
      cases tail : inOrder found names with
      | error missing =>
        rw [tail] at h
        cases h
      | ok others =>
        rw [tail] at h
        cases h
        obtain ⟨fields, rfl, rfl, complete⟩ := ih tail
        exact ⟨(name, text) :: fields, rfl, rfl, by simpa [held] using complete⟩

private theorem perm_of_lookups (unique : (found.map Prod.fst).Nodup)
    (asked : ∀ entry ∈ found, entry.1 ∈ fields.map Prod.fst) (once : (fields.map Prod.fst).Nodup)
    (complete : ∀ entry ∈ fields, found.lookup entry.1 = some entry.2) : found.Perm fields := by
  refine (List.perm_ext_iff_of_nodup (.of_map _ unique) (.of_map _ once)).2 fun entry => ?_
  constructor
  · intro among
    obtain ⟨field, held, same⟩ := List.mem_map.1 (asked entry among)
    have text : some entry.2 = some field.2 := by
      rw [← complete field held, same]
      exact (lookup_of_mem unique among).symm
    rw [Prod.ext same.symm (Option.some.inj text)]
    exact held
  · intro among
    exact mem_of_lookup (complete entry among)

private theorem exists_fields_of_readObject {shape : Shape} (filled : shape.fields ≠ [])
    (once : shape.fields.Nodup) (h : readObject shape s = .ok (texts, left)) :
    ∃ fields : Fields, fields.map Prod.fst = shape.fields ∧ fields.map Prod.snd = texts ∧
      ∀ {whole : List Char}, SpansBlanks whole ('\x7b' :: s) → SpansBlanks left [] →
        IsRecord fields whole := by
  obtain ⟨⟨found, stop⟩, read, h⟩ := bind_eq_ok.1 h
  simp only at h
  split at h
  · cases h
  · rename_i texts ordered
    cases h
    obtain ⟨fields, names, rfl, complete⟩ := exists_fields_of_inOrder ordered
    refine ⟨fields, names, rfl, fun {whole} opened trailing => ?_⟩
    rcases readMembersWithin_cases read with ⟨-, rfl, -⟩ | ⟨key, member, rest, due, part, fresh, read⟩
    · -- of no members at all the first field would be missing
      cases fields with
      | nil => exact absurd names.symm filled
      | cons field fields => simpa using complete field (by simp)
    · obtain ⟨others, t, rfl, rfl, onward, unique, asked⟩ :=
        spansRest_of_read read (fresh List.nodup_nil)
      rw [List.nil_append] at complete unique
      rw [← names] at part onward asked once
      have perm : (member ++ others).Perm fields := by
        refine perm_of_lookups unique (fun entry among => ?_) once complete
        exact (List.mem_append.1 among).elim (part.names_mem entry) (asked entry)
      exact .mk opened (spansBlanks_of_nextKey? due) part onward trailing perm

end Objects

section Lists
variable {shape : Shape} {names texts : List String} {left : List Char} {done : Nat}

private theorem nextElement?_first {value : List Char} (quoted : SpansBlanks s ('"' :: value)) :
    nextElement? true s = .ok (some ('"' :: value)) := by
  simp [nextElement?, quoted.dropBlanks_cons, isBlank]

private theorem nextElement?_next {comma value : List Char} (mark : SpansBlanks s (',' :: comma))
    (quoted : SpansBlanks comma ('"' :: value)) :
    nextElement? false s = .ok (some ('"' :: value)) := by
  simp [nextElement?, mark.dropBlanks_cons, quoted.dropBlanks_cons, isBlank]

/-- Strings are read one by one from where the first of them is due. -/
theorem SpansTexts.read_eq (h : SpansTexts texts s t) (shape : Shape) (done : Nat)
    (names : List String) (start : List Char) (count : names.length = texts.length)
    (due : nextElement? (done == 0) start = .ok (some (dropBlanks s))) :
    ∃ left, readElements shape done names start = .ok (texts, left) ∧ closeList left = .ok t := by
  induction h generalizing done names start with
  | @last text s value left t quoted spelled closing =>
    obtain ⟨name, rfl⟩ := List.length_eq_one_iff.1 count
    rw [quoted.dropBlanks_cons (by decide)] at due
    have closed : closeList left = .ok t := by
      simp [closeList, closing.dropBlanks_cons, isBlank]
    refine ⟨left, ?_, closed⟩
    simp [readElements, due, readText_eq (.none _) spelled, Bind.bind, Except.bind, Pure.pure,
      Except.pure]
  | @next text texts s value left comma t quoted spelled mark others ih =>
    obtain ⟨name, names, rfl⟩ := List.exists_cons_of_length_eq_add_one count
    rw [quoted.dropBlanks_cons (by decide)] at due
    obtain ⟨_, blanks⟩ := others.head
    obtain ⟨stop, read, closed⟩ := ih (done + 1) names left (Nat.succ.inj count) (by
      rw [blanks.dropBlanks_cons (by decide)]
      exact nextElement?_next mark blanks)
    refine ⟨stop, ?_, closed⟩
    simp [readElements, due, readText_eq (.none _) spelled, read, Bind.bind, Except.bind, Pure.pure,
      Except.pure]

private theorem exists_comma_of_nextElement? {element : List Char}
    (h : nextElement? false s = .ok (some element)) :
    ∃ comma, SpansBlanks s (',' :: comma) ∧ SpansBlanks comma element := by
  unfold nextElement? at h
  split at h
  · cases h
  · rename_i c rest start
    simp only [Bool.false_eq_true, if_false] at h
    split_ifs at h with closed comma
    · cases h
    · split at h
      · cases h
      · rename_i d more behind
        split_ifs at h
        · cases h
        · cases h
          exact ⟨rest, comma ▸ spansBlanks_of_eq start, spansBlanks_of_eq behind⟩
    · cases h

private theorem spansBlanks_of_nextElement? {element : List Char}
    (h : nextElement? true s = .ok (some element)) : SpansBlanks s element := by
  unfold nextElement? at h
  split at h
  · cases h
  · rename_i c rest start
    simp only [if_true] at h
    split_ifs at h
    · cases h
    · cases h
      exact spansBlanks_of_eq start

private theorem spansBlanks_of_closeList (h : closeList s = .ok t) : SpansBlanks s (']' :: t) := by
  unfold closeList at h
  split at h
  · cases h
  · rename_i c rest start
    split_ifs at h with closed comma
    · cases h
      exact closed ▸ spansBlanks_of_eq start
    · split at h <;> cases h
    · cases h

private theorem spansTexts_of_read (filled : names ≠ [])
    (h : readElements shape done names s = .ok (texts, left)) (closed : closeList left = .ok t) :
    texts.length = names.length ∧
      ∃ element, nextElement? (done == 0) s = .ok (some element) ∧ SpansTexts texts element t := by
  induction names generalizing done s texts with
  | nil => exact absurd rfl filled
  | cons name names ih =>
    obtain ⟨next, due, h⟩ := bind_eq_ok.1 h
    cases next with
    | none => cases h
    | some element =>
      obtain ⟨⟨text, rest⟩, read, h⟩ := bind_eq_ok.1 h
      obtain ⟨⟨others, stop⟩, onward, h⟩ := bind_eq_ok.1 h
      cases h
      obtain ⟨value, quoted, spelled⟩ := spells_of_readText read
      cases names with
      | nil =>
        cases onward
        exact ⟨rfl, element, due, .last quoted spelled (spansBlanks_of_closeList closed)⟩
      | cons second names =>
        obtain ⟨count, next, again, texts⟩ := ih (List.cons_ne_nil _ _) onward
        obtain ⟨comma, mark, blanks⟩ := exists_comma_of_nextElement? again
        exact ⟨by simpa using count, element, due,
          .next quoted spelled mark (texts.of_blanks blanks)⟩

end Lists

section Records
variable {shape : Shape} {texts : List String}

theorem IsListing.parse_eq (h : IsListing texts s) (count : texts.length = shape.fields.length) :
    parseRecord shape s = .ok texts := by
  obtain ⟨opened, elements, trailing⟩ := h
  obtain ⟨value, blanks⟩ := elements.head
  obtain ⟨left, read, closed⟩ := elements.read_eq shape 0 shape.fields _ count.symm (by
    rw [blanks.dropBlanks_cons (by decide)]
    exact nextElement?_first blanks)
  simp [parseRecord, readRecord, opened.dropBlanks_cons, isBlank, readList, read, closed,
    spansBlanks_nil_iff.1 trailing, Bind.bind, Except.bind, Pure.pure, Except.pure]

/-- A record is read from an object with its fields and from a list of their texts, and from nothing
else. -/
theorem parseRecord_iff (filled : shape.fields ≠ []) (once : shape.fields.Nodup) :
    parseRecord shape s = .ok texts ↔
      (∃ fields : Fields, fields.map Prod.fst = shape.fields ∧ fields.map Prod.snd = texts ∧
        IsRecord fields s) ∨
      texts.length = shape.fields.length ∧ IsListing texts s := by
  constructor
  · intro h
    obtain ⟨⟨texts, left⟩, read, h⟩ := bind_eq_ok.1 h
    simp only at h
    split at h
    · rename_i clear
      cases h
      have trailing := spansBlanks_of_eq clear
      unfold readRecord at read
      split at read
      · cases read
      · rename_i c rest start
        split_ifs at read with object list
        · obtain ⟨fields, names, texts, record⟩ := exists_fields_of_readObject filled once read
          exact .inl ⟨fields, names, texts, record (object ▸ spansBlanks_of_eq start) trailing⟩
        · obtain ⟨⟨texts, stop⟩, elements, read⟩ := bind_eq_ok.1 read
          obtain ⟨closing, closed, read⟩ := bind_eq_ok.1 read
          cases read
          obtain ⟨count, element, due, spelled⟩ := spansTexts_of_read filled elements closed
          exact .inr ⟨count, .mk (list ▸ spansBlanks_of_eq start)
            (spelled.of_blanks (spansBlanks_of_nextElement? due)) trailing⟩
        · exact absurd read failType_ne_ok
    · cases h
  · rintro (⟨fields, names, rfl, record⟩ | ⟨count, listing⟩)
    · exact parseRecord_eq names.symm once record
    · exact listing.parse_eq count

end Records

end DocGuard.Json
