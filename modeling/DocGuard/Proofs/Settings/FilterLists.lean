import Mathlib.Data.List.DropRight
import DocGuard.Settings.EngineConfig

/-! Filters as texts: entries between commas, each of them a name with blanks around it, or blanks
alone. A list is read entry by entry, so that lists can be put together and taken apart at every comma,
and it fails at the first entry that is something else. -/
namespace DocGuard

section Sequences
variable {ε α β : Type} {first : Except ε α} {next : α → Except ε β}

theorem bind_eq_ok_iff {value : β} :
    (first >>= next) = .ok value ↔ ∃ middle, first = .ok middle ∧ next middle = .ok value := by
  cases first <;> simp [Bind.bind, Except.bind]

theorem bind_eq_error_iff {e : ε} : (first >>= next) = .error e ↔
    first = .error e ∨ ∃ middle, first = .ok middle ∧ next middle = .error e := by
  cases first <;> simp [Bind.bind, Except.bind]

end Sequences

namespace Text
variable {cs core : List Char}

/-- What is left of some characters without the blanks at both ends. -/
def Trims (cs core : List Char) : Prop :=
  ∃ before after, cs = before ++ core ++ after ∧ (∀ c ∈ before, isBlank c = true) ∧
    (∀ c ∈ after, isBlank c = true) ∧ (∀ c ∈ core.head?, isBlank c = false) ∧
    ∀ c ∈ core.getLast?, isBlank c = false

private theorem Trims.trimChars_eq (h : Trims cs core) : trimChars cs = core := by
  obtain ⟨before, after, rfl, blank, blank', first, last⟩ := h
  have start : (before ++ core ++ after).dropWhile isBlank = (core ++ after).dropWhile isBlank := by
    rw [List.append_assoc, List.dropWhile_append_of_pos blank]
  rw [trimChars, start]
  cases core with
  | nil =>
    -- All is blank, and goes in front already.
    have none : after.dropWhile isBlank = [] := List.dropWhile_eq_nil_iff.2 blank'
    rw [List.nil_append, none]
    rfl
  | cons c rest =>
    have begun : isBlank c = false := first c rfl
    have ended : (c :: rest).rdropWhile isBlank = c :: rest := by
      refine List.rdropWhile_eq_self_iff.2 fun some => ?_
      rw [last _ (List.getLast?_eq_getLast_of_ne_nil some)]
      exact Bool.false_ne_true
    have reversed : ∀ x ∈ after.reverse, isBlank x = true :=
      fun x mem => blank' x (List.mem_reverse.1 mem)
    rw [List.cons_append, List.dropWhile_cons_of_neg (by simp [begun]), ← List.cons_append,
      List.reverse_append, List.dropWhile_append_of_pos reversed]
    exact ended

private theorem trims_trimChars (cs : List Char) : Trims cs (trimChars cs) := by
  let onward := cs.dropWhile isBlank
  have cut : onward = trimChars cs ++ onward.rtakeWhile isBlank :=
    List.rdropWhile_append_rtakeWhile.symm
  refine ⟨cs.takeWhile isBlank, onward.rtakeWhile isBlank, ?_, fun c => List.mem_takeWhile_imp,
    fun c => List.mem_rtakeWhile_imp, fun c first => ?_, fun c last => ?_⟩
  · rw [List.append_assoc, ← cut, List.takeWhile_append_dropWhile]
  · have begun : onward.head? = some c := by
      rw [cut, List.head?_append, first]
      rfl
    have plain := List.head?_dropWhile_not isBlank cs
    rw [begun] at plain
    exact plain
  · have ended : (onward.reverse.dropWhile isBlank).head? = some c := by
      rw [← List.getLast?_reverse]
      exact last
    have plain := List.head?_dropWhile_not isBlank onward.reverse
    rw [ended] at plain
    exact plain

end Text

namespace LabelFilter
open Text

section Names

private theorem name_plain (f : LabelFilter) :
    ∀ c ∈ f.name.toList, isBlank c = false ∧ c ≠ ',' := by
  have plain : (f.name.toList.all fun c => !isBlank c && c != ',') = true := by
    cases f <;> decide +kernel
  intro c mem
  simpa using List.all_eq_true.1 plain c mem

private theorem toList_name_ne_nil (f : LabelFilter) : f.name.toList ≠ [] := by
  cases f <;> decide

theorem ofName_name (f : LabelFilter) : ofName f.name = .ok f := by
  cases f <;> decide

private theorem ofName_of_unknown {name : String} (unknown : ∀ f : LabelFilter, f.name ≠ name) :
    ofName name = .error (.invalidArgument (.unknownFilter name)) := by
  unfold ofName
  split
  · rename_i f found
    have same := List.find?_some found
    exact absurd (beq_iff_eq.1 same) (unknown f)
  · rfl

end Names

/-- The letters of a filter's name; none, if there is no filter. -/
def letters : Option LabelFilter → List Char
  | some f => f.name.toList
  | Option.none => []

/-- An entry of a list: the name of a filter, or none, with blanks around it. -/
structure Entry where
  before : List Char
  filter : Option LabelFilter
  after : List Char
  blank_before : ∀ c ∈ before, isBlank c = true
  blank_after : ∀ c ∈ after, isBlank c = true

def Entry.text (e : Entry) : List Char :=
  e.before ++ letters e.filter ++ e.after

def write (entries : List Entry) : String :=
  String.ofList ([','].intercalate (entries.map Entry.text))

/-- The first entry in some pieces that is neither a name nor blank is `name`, without the blanks around
it. -/
def FirstUnknown (pieces : List (List Char)) (name : String) : Prop :=
  ∃ (earlier : List Entry) (piece : List Char) (later : List (List Char)),
    pieces = earlier.map Entry.text ++ piece :: later ∧ Trims piece name.toList ∧ name ≠ "" ∧
      ∀ f : LabelFilter, f.name ≠ name

/-- The filters of a list that is cut up at its commas. -/
def readPieces (pieces : List (List Char)) : Except Error (List LabelFilter) :=
  (((pieces.map trimChars).filter (!·.isEmpty)).map String.ofList).mapM ofName

section Entries
variable {piece : List Char} {pieces : List (List Char)}

private theorem letters_plain (filter : Option LabelFilter) :
    ∀ c ∈ letters filter, isBlank c = false ∧ c ≠ ',' := by
  cases filter with
  | none => exact fun c mem => absurd mem List.not_mem_nil
  | some f => exact f.name_plain

private theorem Entry.trims (e : Entry) : Trims e.text (letters e.filter) :=
  ⟨e.before, e.after, rfl, e.blank_before, e.blank_after,
    fun c first => (letters_plain e.filter c (List.mem_of_mem_head? first)).1,
    fun c last => (letters_plain e.filter c (List.mem_of_mem_getLast? last)).1⟩

private theorem exists_entry (filter : Option LabelFilter) (h : Trims piece (letters filter)) :
    ∃ e : Entry, e.text = piece ∧ e.filter = filter := by
  obtain ⟨before, after, rfl, blank, blank', -, -⟩ := h
  exact ⟨⟨before, filter, after, blank, blank'⟩, rfl, rfl⟩

private theorem Entry.comma_not_mem (e : Entry) : ',' ∉ e.text := by
  have plain : isBlank ',' = false := by decide
  intro mem
  rw [Entry.text, List.mem_append, List.mem_append] at mem
  obtain (mem | mem) | mem := mem
  · exact Bool.false_ne_true (plain.symm.trans (e.blank_before _ mem))
  · exact (letters_plain e.filter _ mem).2 rfl
  · exact Bool.false_ne_true (plain.symm.trans (e.blank_after _ mem))

private theorem entry_or_unknown (piece : List Char) :
    (∃ e : Entry, e.text = piece) ∨
      ∃ name : String, Trims piece name.toList ∧ name ≠ "" ∧ ∀ f : LabelFilter, f.name ≠ name := by
  have trims := trims_trimChars piece
  by_cases empty : trimChars piece = []
  · rw [empty] at trims
    obtain ⟨e, text, -⟩ := exists_entry Option.none trims
    exact .inl ⟨e, text⟩
  rw [← String.toList_ofList (l := trimChars piece)] at trims
  by_cases known : ∃ f : LabelFilter, f.name = String.ofList (trimChars piece)
  · obtain ⟨f, name⟩ := known
    rw [← name] at trims
    obtain ⟨e, text, -⟩ := exists_entry (some f) trims
    exact .inl ⟨e, text⟩
  · refine .inr ⟨_, trims, fun none => empty ?_, fun f same => known ⟨f, same⟩⟩
    rw [← String.toList_ofList (l := trimChars piece), none]
    rfl

end Entries

section Reading
variable {entries : List Entry} {pieces : List (List Char)} {name : String}

private theorem readPieces_append (front back : List (List Char)) :
    readPieces (front ++ back) = do
      let first ← readPieces front
      let rest ← readPieces back
      return first ++ rest := by
  simp only [readPieces, List.map_append, List.filter_append, List.mapM_append]

private theorem readPieces_cons {piece : List Char} {name : String}
    (trims : Trims piece name.toList)
    (some : name ≠ "") (pieces : List (List Char)) :
    readPieces (piece :: pieces) = do return (← ofName name) :: (← readPieces pieces) := by
  have kept : name.toList.isEmpty = false := by
    rw [List.isEmpty_eq_false_iff, ne_eq, String.toList_eq_nil_iff]
    exact some
  simp only [readPieces, List.map_cons, trims.trimChars_eq]
  rw [List.filter_cons_of_pos (by simp [kept]), List.map_cons, String.ofList_toList, List.mapM_cons]

private theorem readPieces_blank {piece : List Char} (trims : Trims piece [])
    (pieces : List (List Char)) :
    readPieces (piece :: pieces) = readPieces pieces := by
  simp [readPieces, trims.trimChars_eq]

private theorem readPieces_entries (entries : List Entry) :
    readPieces (entries.map Entry.text) = .ok (entries.filterMap Entry.filter) := by
  induction entries with
  | nil => rfl
  | cons e entries ih =>
    have trims := e.trims
    cases found : e.filter with
    | none =>
      rw [found] at trims
      rw [List.map_cons, readPieces_blank trims, ih, List.filterMap_cons_none found]
    | some f =>
      rw [found] at trims
      have named : f.name ≠ "" := fun empty => f.toList_name_ne_nil (by rw [empty]; rfl)
      rw [List.map_cons, readPieces_cons trims named, ih, ofName_name,
        List.filterMap_cons_some found]
      rfl

private theorem readPieces_unknown (h : FirstUnknown pieces name) :
    readPieces pieces = .error (.invalidArgument (.unknownFilter name)) := by
  obtain ⟨earlier, piece, later, rfl, trims, some, unknown⟩ := h
  rw [readPieces_append, readPieces_entries, readPieces_cons trims some, ofName_of_unknown unknown]
  rfl

private theorem entries_or_unknown (pieces : List (List Char)) :
    (∃ entries : List Entry, pieces = entries.map Entry.text) ∨ ∃ name, FirstUnknown pieces name := by
  induction pieces with
  | nil => exact .inl ⟨[], rfl⟩
  | cons piece pieces ih =>
    rcases entry_or_unknown piece with ⟨e, rfl⟩ | ⟨name, trims, some, unknown⟩
    · rcases ih with ⟨entries, rfl⟩ | ⟨name, earlier, next, later, rfl, unknown⟩
      · exact .inl ⟨e :: entries, rfl⟩
      · exact .inr ⟨name, e :: earlier, next, later, rfl, unknown⟩
    · exact .inr ⟨name, [], piece, pieces, rfl, trims, some, unknown⟩

end Reading

section Lists
variable {text : String} {filters : List LabelFilter} {e : Error}

private theorem splitOn_append (a b : String) :
    (a ++ "," ++ b).toList.splitOn ',' = a.toList.splitOn ',' ++ b.toList.splitOn ',' := by
  rw [String.toList_append, String.toList_append, List.append_assoc]
  exact List.splitOn_append_cons_self _ _

private theorem parseList_append (a b : String) :
    parseList (a ++ "," ++ b) = do
      let front ← parseList a
      let back ← parseList b
      return front ++ back := by
  have cut := readPieces_append (a.toList.splitOn ',') (b.toList.splitOn ',')
  rw [← splitOn_append] at cut
  exact cut

private theorem parseList_eq_ok_iff : parseList text = .ok filters ↔
    ∃ entries, text = write entries ∧ filters = entries.filterMap Entry.filter := by
  constructor
  · intro read
    rcases entries_or_unknown (text.toList.splitOn ',') with ⟨entries, cut⟩ | ⟨name, unknown⟩
    · have whole := readPieces_entries entries
      rw [← cut] at whole
      refine ⟨entries, ?_, Except.ok.inj (read.symm.trans whole)⟩
      rw [write, ← cut, List.intercalate_splitOn, String.ofList_toList]
    · exact absurd (read.symm.trans (readPieces_unknown unknown)) nofun
  · rintro ⟨entries, rfl, rfl⟩
    have whole := readPieces_entries entries
    cases entries with
    | nil =>
      -- No entries are written like a single one that is blank.
      exact readPieces_entries [⟨[], Option.none, [], nofun, nofun⟩]
    | cons e entries =>
      have apart : ∀ piece ∈ (e :: entries).map Entry.text, ',' ∉ piece := by
        intro piece mem
        obtain ⟨other, -, rfl⟩ := List.mem_map.1 mem
        exact other.comma_not_mem
      rw [← List.splitOn_intercalate ',' apart (List.cons_ne_nil _ _)] at whole
      rw [write, ← whole]
      show readPieces ((String.ofList _).toList.splitOn ',') = _
      rw [String.toList_ofList]

private theorem parseList_eq_error_iff : parseList text = .error e ↔
    ∃ name, FirstUnknown (text.toList.splitOn ',') name ∧
      e = .invalidArgument (.unknownFilter name) := by
  constructor
  · intro refused
    rcases entries_or_unknown (text.toList.splitOn ',') with ⟨entries, cut⟩ | ⟨name, unknown⟩
    · have whole := readPieces_entries entries
      rw [← cut] at whole
      exact absurd (refused.symm.trans whole) nofun
    · exact ⟨name, unknown, Except.error.inj (refused.symm.trans (readPieces_unknown unknown))⟩
  · rintro ⟨name, unknown, rfl⟩
    exact readPieces_unknown unknown

private theorem parseList_append_eq_ok_iff {a b : String} :
    parseList (a ++ "," ++ b) = .ok filters ↔
    ∃ front back, parseList a = .ok front ∧ parseList b = .ok back ∧ filters = front ++ back := by
  rw [parseList_append, bind_eq_ok_iff]
  constructor
  · rintro ⟨front, readFront, read⟩
    obtain ⟨back, readBack, joined⟩ := bind_eq_ok_iff.1 read
    exact ⟨front, back, readFront, readBack, (Except.ok.inj joined).symm⟩
  · rintro ⟨front, back, readFront, readBack, rfl⟩
    exact ⟨front, readFront, bind_eq_ok_iff.2 ⟨back, readBack, rfl⟩⟩

private theorem parseList_append_eq_error_iff {a b : String} :
    parseList (a ++ "," ++ b) = .error e ↔
    parseList a = .error e ∨ (∃ front, parseList a = .ok front) ∧ parseList b = .error e := by
  rw [parseList_append, bind_eq_error_iff]
  refine or_congr_right ⟨?_, ?_⟩
  · rintro ⟨front, readFront, refused⟩
    rcases bind_eq_error_iff.1 refused with refused | ⟨back, -, joined⟩
    · exact ⟨⟨front, readFront⟩, refused⟩
    · cases joined
  · rintro ⟨⟨front, readFront⟩, refused⟩
    exact ⟨front, readFront, bind_eq_error_iff.2 (.inl refused)⟩

end Lists

end LabelFilter

namespace EngineConfig
open LabelFilter

private theorem applyAll_pair (c : EngineConfig) (first second : Change) :
    c.applyAll [first, second] = c.apply first >>= fun next => next.apply second := by
  simp [applyAll]

private theorem read_both (add : EngineConfig → List LabelFilter → EngineConfig)
    (joins : ∀ c front back, add (add c front) back = add c (front ++ back)) (c : EngineConfig)
    (a b : String) :
    (do return add (add c (← parseList a)) (← parseList b) : Except Error EngineConfig) =
      do return add c (← parseList (a ++ "," ++ b)) := by
  simp only [parseList_append, joins, bind_assoc, pure_bind]

private theorem enable_append (c : EngineConfig) (a b : String) :
    c.applyAll [.enable a, .enable b] = c.apply (.enable (a ++ "," ++ b)) := by
  rw [applyAll_pair]
  simp only [apply, bind_assoc, pure_bind]
  refine read_both (fun c filters => { c with enabled := c.enabled ++ filters }) ?_ c a b
  intro c front back
  simp only [List.append_assoc]

private theorem disable_append (c : EngineConfig) (a b : String) :
    c.applyAll [.disable a, .disable b] = c.apply (.disable (a ++ "," ++ b)) := by
  rw [applyAll_pair]
  simp only [apply, bind_assoc, pure_bind]
  refine read_both (fun c filters => { c with disabled := c.disabled ++ filters }) ?_ c a b
  intro c front back
  simp only [List.append_assoc]

end EngineConfig

/-- Lists of filters are read part by part. Two lists with a comma between them are read if each of them
is, as the filters of the first and then those of the second, and otherwise the error is the one of the
first list that is refused. A list is refused for its first entry that is neither blank nor a name, and
the error names this entry without the blanks around it. The lists that are read are those of entries,
each a name or nothing with any blanks around it, and they are read as the filters named. So filters
are enabled, or disabled, by two lists as they are by the one list of both. -/
theorem LabelFilter.reads_by_parts :
    (∀ a b filters, parseList (a ++ "," ++ b) = .ok filters ↔
        ∃ front back, parseList a = .ok front ∧ parseList b = .ok back ∧ filters = front ++ back) ∧
      (∀ a b e, parseList (a ++ "," ++ b) = .error e ↔
        parseList a = .error e ∨ (∃ front, parseList a = .ok front) ∧ parseList b = .error e) ∧
      (∀ text e, parseList text = .error e ↔
        ∃ name, FirstUnknown (text.toList.splitOn ',') name ∧
          e = .invalidArgument (.unknownFilter name)) ∧
      (∀ text filters, parseList text = .ok filters ↔
        ∃ entries, text = write entries ∧ filters = entries.filterMap Entry.filter) ∧
      ∀ (c : EngineConfig) (a b : String),
        c.applyAll [.enable a, .enable b] = c.apply (.enable (a ++ "," ++ b)) ∧
        c.applyAll [.disable a, .disable b] = c.apply (.disable (a ++ "," ++ b)) :=
  ⟨fun _ _ _ => parseList_append_eq_ok_iff, fun _ _ _ => parseList_append_eq_error_iff,
    fun _ _ => parseList_eq_error_iff, fun _ _ => parseList_eq_ok_iff,
    fun c a b => ⟨c.enable_append a b, c.disable_append a b⟩⟩

example : LabelFilter.parseList "None,\u3000HyokProtection\t,, Hyok , None" =
    .error (.invalidArgument (.unknownFilter "Hyok")) := by
  decide +kernel

end DocGuard
