import DocGuard.Json.Value
import DocGuard.Proofs.Json.Reading

/-! What is written as JSON is in the grammar, and spells what was written. A record of texts can
therefore be read back. -/
namespace DocGuard.Json
variable {t : List Char}

private theorem isHex_digitChar {n : Nat} (small : n < 16) : IsHex (Nat.digitChar n) n :=
  ⟨small, .inl rfl⟩

private theorem isHexNumber_control {c : Char} (control : c < ' ') :
    IsHexNumber '0' '0' (Nat.digitChar (c.toNat / 16)) (Nat.digitChar (c.toNat % 16)) c.toNat := by
  have small : c.toNat < 32 := control
  exact ⟨0, 0, c.toNat / 16, c.toNat % 16, isHex_digitChar (by omega), isHex_digitChar (by omega),
    isHex_digitChar (by omega), isHex_digitChar (by omega), by omega⟩

/-- A character is written so that it is spelled, whatever character it is. -/
theorem Spells.written {s text : List Char} (c : Char) (h : Spells s text t) :
    Spells (writtenChar c ++ s) (c :: text) t := by
  unfold writtenChar
  split_ifs with quote backslash backspace tab newline feed carriage control
  · subst quote
    exact .letter (by decide) h
  · subst backslash
    exact .letter (by decide) h
  · subst backspace
    exact .letter (by decide) h
  · subst tab
    exact .letter (by decide) h
  · subst newline
    exact .letter (by decide) h
  · subst feed
    exact .letter (by decide) h
  · subst carriage
    exact .letter (by decide) h
  · exact .unit (isHexNumber_control control) h
  · exact .plain quote backslash (Char.not_lt.1 control) h

theorem spells_writeString (text : String) :
    ∃ s, writeString text ++ t = '"' :: s ∧ Spells s text.toList t := by
  refine ⟨text.toList.flatMap writtenChar ++ '"' :: t, by simp [writeString], ?_⟩
  induction text.toList with
  | nil => exact .close t
  | cons c rest ih =>
    rw [List.flatMap_cons, List.append_assoc]
    exact ih.written c

def isPlain (c : Char) : Bool :=
  c != '"' && c != '\\' && ' ' ≤ c

/-- What needs no escape spells itself. -/
theorem Spells.ofPlain {text : List Char} (plain : text.all isPlain) :
    Spells (text ++ '"' :: t) text t := by
  induction text with
  | nil => exact .close t
  | cons c text ih =>
    simp only [List.all_cons, isPlain, Bool.and_eq_true, bne_iff_ne, decide_eq_true_eq] at plain
    obtain ⟨⟨⟨quote, backslash⟩, printable⟩, others⟩ := plain
    exact .plain quote backslash printable (ih others)

section Values
variable {v : Value} {values : List Value} {members : List (String × Value)}

/-- The text is a number without its sign, whatever stands behind it. -/
def IsNumeral (text : List Char) : Prop :=
  ∀ t, SpansNumber (text ++ t) t

/-- The numbers in a value are spelled as numbers are; all else is spelled well in any case. -/
inductive Value.WellSpelled : Value → Prop where
  | null : WellSpelled .null
  | bool (value : Bool) : WellSpelled (.bool value)
  | number {text : String} : IsNumeral text.toList → WellSpelled (.number text)
  | negative {text : String} {digits : List Char} : text.toList = '-' :: digits →
      IsNumeral digits → WellSpelled (.number text)
  | string (text : String) : WellSpelled (.string text)
  | list {elements : List Value} : (∀ v ∈ elements, WellSpelled v) → WellSpelled (.list elements)
  | object {members : List (String × Value)} : (∀ member ∈ members, WellSpelled member.2) →
      WellSpelled (.object members)

def writtenTail (values : List Value) : List Char :=
  if values.isEmpty then [']'] else ',' :: writeElements values

theorem writeElements_cons (v : Value) (values : List Value) :
    writeElements (v :: values) = v.write ++ writtenTail values := by
  cases values <;> simp [writeElements, writtenTail]

def writtenRest (members : List (String × Value)) : List Char :=
  if members.isEmpty then ['\x7d'] else ',' :: writeMembers members

theorem writeMembers_cons (name : String) (v : Value) (members : List (String × Value)) :
    writeMembers ((name, v) :: members) =
      writeString name ++ ':' :: (v.write ++ writtenRest members) := by
  cases members <;> simp [writeMembers, writtenRest]

theorem spans_writeElements (each : ∀ v ∈ values, ∀ t, Spans .value (v.write ++ t) t)
    (filled : values ≠ []) : Spans .elements (writeElements values ++ t) t := by
  induction values with
  | nil => exact absurd rfl filled
  | cons v values ih =>
    obtain ⟨first, others⟩ := List.forall_mem_cons.1 each
    rw [writeElements_cons, List.append_assoc]
    cases values with
    | nil => exact .lastElement (first _) (.none _)
    | cons next values => exact .element (first _) (.none _) (.none _) (ih others nofun)

theorem spans_writeMembers (each : ∀ member ∈ members, ∀ t, Spans .value (member.2.write ++ t) t)
    (filled : members ≠ []) : Spans .members (writeMembers members ++ t) t := by
  induction members with
  | nil => exact absurd rfl filled
  | cons member members ih =>
    obtain ⟨first, others⟩ := List.forall_mem_cons.1 each
    obtain ⟨name, quoted, spelled⟩ :=
      spells_writeString (t := ':' :: (member.2.write ++ (writtenRest members ++ t))) member.1
    rw [writeMembers_cons, List.append_assoc, List.cons_append, List.append_assoc, quoted]
    cases members with
    | nil => exact .lastMember spelled.spans (.none _) (.none _) (first _) (.none _)
    | cons next members =>
      exact .member spelled.spans (.none _) (.none _) (first _) (.none _) (.none _)
        (ih others nofun)

/-- A value is written as the grammar has it. -/
theorem Value.WellSpelled.spans (h : v.WellSpelled) (t : List Char) :
    Spans .value (v.write ++ t) t := by
  induction h generalizing t with
  | null => exact .nullWord t
  | bool value =>
    cases value with
    | false => exact .falseWord t
    | true => exact .trueWord t
  | number numeral => exact .number (numeral t)
  | negative signed numeral =>
    rw [Value.write, signed]
    exact .negative (numeral t)
  | string text =>
    obtain ⟨content, quoted, spelled⟩ := spells_writeString (t := t) text
    rw [Value.write, quoted]
    exact .string spelled.spans
  | @list elements _ ih =>
    cases elements with
    | nil => exact .emptyList (.none _)
    | cons v elements => exact .list (.none _) (spans_writeElements ih nofun)
  | @object members _ ih =>
    cases members with
    | nil => exact .emptyObject (.none _)
    | cons member members => exact .object (.none _) (spans_writeMembers ih nofun)

end Values

section Records
variable {names : List String} {member : String × Value} {members : List (String × Value)}
  {fields : List (String × String)}

/-- The texts that are found under some names. -/
def textsUnder (names : List String) (members : List (String × Value)) :
    List (String × String) :=
  members.filterMap fun member =>
    match member with
    | (name, .string text) => if name ∈ names then some (name, text) else none
    | _ => none

/-- Under the names there are texts only. -/
def TextsOnly (names : List String) (members : List (String × Value)) : Prop :=
  ∀ member ∈ members, member.1 ∈ names → ∃ text, member.2 = .string text

private theorem textsUnder_cons :
    textsUnder names (member :: members) =
      textsUnder names [member] ++ textsUnder names members := by
  simp only [textsUnder, List.filterMap_cons, List.filterMap_nil]
  split <;> rfl

private theorem mem_textsUnder {field : String × String} :
    field ∈ textsUnder names members ↔ (field.1, .string field.2) ∈ members ∧ field.1 ∈ names := by
  simp only [textsUnder, List.mem_filterMap]
  constructor
  · rintro ⟨⟨name, v⟩, among, found⟩
    cases v <;> simp only [reduceCtorEq] at found
    split_ifs at found with asked
    cases found
    exact ⟨among, asked⟩
  · rintro ⟨among, asked⟩
    exact ⟨_, among, by simp [asked]⟩

private theorem textsUnder_sublist :
    ((textsUnder names members).map Prod.fst).Sublist (members.map Prod.fst) := by
  induction members with
  | nil => exact .slnil
  | cons member members ih =>
    obtain ⟨name, v⟩ := member
    cases v
    case string text =>
      by_cases asked : name ∈ names
      · simpa [textsUnder, asked] using ih
      · simpa [textsUnder, asked] using ih.cons name
    all_goals simpa [textsUnder] using ih.cons name

private theorem spansMember_written (spelled : member.2.WellSpelled)
    (textual : member.1 ∈ names → ∃ text, member.2 = .string text) :
    SpansMember names (textsUnder names [member]) (writeMembers (member :: members))
      (writtenRest members) := by
  obtain ⟨name, v⟩ := member
  by_cases asked : name ∈ names
  · obtain ⟨text, rfl⟩ := textual asked
    obtain ⟨value, content, inner⟩ := spells_writeString (t := writtenRest members) text
    obtain ⟨key, quoted, outer⟩ := spells_writeString (t := ':' :: '"' :: value) name
    rw [writeMembers_cons, Value.write, content, quoted]
    simpa [textsUnder, asked] using
      SpansMember.named asked outer (.none _) (.none _) inner
  · obtain ⟨key, quoted, outer⟩ :=
      spells_writeString (t := ':' :: (v.write ++ writtenRest members)) name
    have nothing : textsUnder names [(name, v)] = [] := by
      cases v <;> simp [textsUnder, asked]
    rw [writeMembers_cons, quoted, nothing]
    exact .further asked outer (.none _) (.none _) (spelled.spans _)

private theorem spansRest_written (spelled : ∀ member ∈ members, member.2.WellSpelled)
    (textual : TextsOnly names members) :
    SpansRest names (textsUnder names members) (writtenRest members) [] := by
  induction members with
  | nil => exact .close (.none _)
  | cons member members ih =>
    obtain ⟨wellFirst, wellOthers⟩ := List.forall_mem_cons.1 spelled
    obtain ⟨first, others⟩ := List.forall_mem_cons.1 textual
    rw [textsUnder_cons]
    exact .next (.none _) (.none _) (spansMember_written wellFirst first) (ih wellOthers others)

private theorem isRecord_of_texts (filled : members ≠ [])
    (spelled : ∀ member ∈ members, member.2.WellSpelled)
    (textual : TextsOnly (fields.map Prod.fst) members)
    (complete : (textsUnder (fields.map Prod.fst) members).Perm fields) :
    IsRecord fields (Value.object members).write := by
  cases members with
  | nil => exact absurd rfl filled
  | cons member members =>
    obtain ⟨wellFirst, wellOthers⟩ := List.forall_mem_cons.1 spelled
    obtain ⟨first, others⟩ := List.forall_mem_cons.1 textual
    rw [textsUnder_cons] at complete
    exact .mk (.none _) (.none _) (spansMember_written wellFirst first)
      (spansRest_written wellOthers others) (.none _) complete

def textMembers (fields : List (String × String)) : List (String × Value) :=
  fields.map fun field => (field.1, .string field.2)

/-- The compact text of an object of texts is a record of them. -/
theorem isRecord_written (filled : fields ≠ []) :
    IsRecord fields (Value.object (textMembers fields)).write := by
  have texts : ∀ member ∈ textMembers fields, ∃ text, member.2 = .string text := by
    intro member among
    obtain ⟨field, -, rfl⟩ := List.mem_map.1 among
    exact ⟨_, rfl⟩
  have whole : textsUnder (fields.map Prod.fst) (textMembers fields) = fields := by
    rw [textsUnder, textMembers, List.filterMap_map]
    refine (List.filterMap_congr fun field among => ?_).trans (List.filterMap_some)
    exact if_pos (List.mem_map_of_mem among)
  refine isRecord_of_texts (by simpa [textMembers] using filled) (fun member among => ?_)
    (fun member among _ => texts member among) (.of_eq whole)
  obtain ⟨text, content⟩ := texts member among
  rw [content]
  exact .string text

/-- An object is read for the texts that it holds under different names, past all that it holds
under others. -/
theorem parseRecord_written {shape : Shape} (names : shape.fields = fields.map Prod.fst)
    (once : shape.fields.Nodup) (filled : members ≠ [])
    (spelled : ∀ member ∈ members, member.2.WellSpelled) (keys : (members.map Prod.fst).Nodup)
    (held : ∀ field ∈ fields, (field.1, .string field.2) ∈ members) :
    parseRecord shape (Value.object members).write = .ok (fields.map Prod.snd) := by
  -- a member that is asked for is the one that the field is held in
  have agrees : ∀ member ∈ members, ∀ field ∈ fields, field.1 = member.1 →
      (field.1, Value.string field.2) = member :=
    fun member among field present same =>
      List.inj_on_of_nodup_map keys (held field present) among same
  have textual : TextsOnly (fields.map Prod.fst) members := by
    intro member among asked
    obtain ⟨field, present, same⟩ := List.mem_map.1 asked
    exact ⟨field.2, (congrArg Prod.snd (agrees member among field present same)).symm⟩
  have complete : (textsUnder (fields.map Prod.fst) members).Perm fields := by
    have single : (textsUnder (fields.map Prod.fst) members).Nodup :=
      (keys.sublist textsUnder_sublist).of_map _
    refine (List.perm_ext_iff_of_nodup single ((names ▸ once).of_map _)).2 fun field => ?_
    rw [mem_textsUnder]
    constructor
    · rintro ⟨among, asked⟩
      obtain ⟨other, present, same⟩ := List.mem_map.1 asked
      have equal := agrees _ among other present same
      rw [Prod.mk.injEq, Value.string.injEq] at equal
      rwa [← Prod.ext equal.1 equal.2]
    · exact fun present => ⟨held field present, List.mem_map_of_mem present⟩
  exact parseRecord_eq names once (isRecord_of_texts filled spelled textual complete)

end Records
end DocGuard.Json
