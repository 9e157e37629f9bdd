import Mathlib.Data.List.DropRight
import DocGuard.Document.OutputPath

/-! Names in their parts. A name is a directory with a final segment, and the segment is a base with
an extension, which a wrapper takes together with the extension before it. An output path is the
name with the mark between base and extension; a name without a final segment has none. -/
namespace DocGuard.OutputPath
variable {directory segment base last : List Char}

/-- The extension is that of files that wrap another one, in whatever case it is written. -/
def IsWrapper (extension : List Char) : Prop :=
  Text.eqIgnoringAsciiCase (String.ofList extension) wrapper = true

/-- A final segment in its base and its extension. The extension starts at the last point, or at the
point before that of a wrapper. -/
inductive Cut : List Char → List Char → Prop where
  | pointless {base : List Char} : '.' ∉ base → Cut base []
  | plain {base last : List Char} : '.' ∉ last → (IsWrapper ('.' :: last) → '.' ∉ base) →
      Cut base ('.' :: last)
  | wrapped {base inner last : List Char} : '.' ∉ last → IsWrapper ('.' :: last) → '.' ∉ inner →
      Cut base ('.' :: inner ++ '.' :: last)

/-- A name in its parts. The directory reaches up to the last separator, and is empty if there is
none. -/
structure Parts (name directory base extension : List Char) : Prop where
  whole : name = directory ++ (base ++ extension)
  separated : ∀ c, directory.getLast? = some c → isSeparator c = true
  segment : ∀ c ∈ base ++ extension, isSeparator c = false
  cut : Cut base extension

/-- The path is the name with the mark before its extension. -/
def Marks (name path : String) : Prop :=
  ∃ directory base extension, Parts name.toList directory base extension ∧
    base ++ extension ≠ [] ∧ path.toList = directory ++ base ++ mark.toList ++ extension

section Extension

private theorem rtakeWhile_segment
    (separated : ∀ c, directory.getLast? = some c → isSeparator c = true)
    (inside : ∀ c ∈ segment, isSeparator c = false) :
    ((directory ++ segment).reverse.takeWhile fun c => !isSeparator c).reverse = segment := by
  have stops : directory.reverse.takeWhile (fun c => !isSeparator c) = [] := by
    cases whole : directory.reverse with
    | nil => rfl
    | cons c rest =>
      have ends : directory.getLast? = some c := by
        rw [← List.head?_reverse, whole]
        rfl
      exact List.takeWhile_cons_of_neg (by simp [separated c ends])
  rw [List.reverse_append, List.takeWhile_append_of_pos, stops, List.append_nil,
    List.reverse_reverse]
  intro c mem
  simp [inside c (List.mem_reverse.1 mem)]

theorem extension_of_pointless
    (separated : ∀ c, directory.getLast? = some c → isSeparator c = true)
    (inside : ∀ c ∈ segment, isSeparator c = false) (pointless : '.' ∉ segment) :
    extension (directory ++ segment) = [] := by
  simp only [extension, rtakeWhile_segment separated inside]
  exact if_neg pointless

theorem extension_of_point
    (separated : ∀ c, directory.getLast? = some c → isSeparator c = true)
    (inside : ∀ c ∈ base ++ '.' :: last, isSeparator c = false) (pointless : '.' ∉ last) :
    extension (directory ++ (base ++ '.' :: last)) = '.' :: last := by
  have tail : ((base ++ '.' :: last).reverse.takeWhile (· ≠ '.')).reverse = last := by
    rw [List.reverse_append, List.reverse_cons, List.append_assoc, List.takeWhile_append_of_pos]
    · simp
    · intro c mem
      have different : c ≠ '.' := by
        rintro rfl
        exact pointless (List.mem_reverse.1 mem)
      simpa using different
  simp only [extension, rtakeWhile_segment separated inside]
  rw [tail, if_pos (by simp)]

end Extension

section Parts
variable {name stem extension : List Char}

theorem extensionLength_of_single (found : OutputPath.extension (stem ++ last) = last)
    (single : ¬ IsWrapper last) : extensionLength (stem ++ last) = last.length := by
  simp only [extensionLength, found]
  exact if_neg single

theorem extensionLength_of_wrapper (found : OutputPath.extension (stem ++ last) = last)
    (wraps : IsWrapper last) :
    extensionLength (stem ++ last) = last.length + (OutputPath.extension stem).length := by
  have before : (stem ++ last).take ((stem ++ last).length - last.length) = stem := by simp
  simp only [extensionLength, found, before]
  exact if_pos wraps

private theorem Parts.extensionLength_eq (h : Parts name directory base extension) :
    extensionLength name = extension.length := by
  obtain ⟨rfl, separated, inside, cut⟩ := h
  cases cut with
  | pointless pointless =>
    rw [List.append_nil] at inside
    have found : OutputPath.extension ((directory ++ base) ++ []) = [] := by
      rw [List.append_nil]
      exact extension_of_pointless separated inside pointless
    rw [← List.append_assoc]
    exact extensionLength_of_single found (by unfold IsWrapper; decide)
  | @plain last pointless bare =>
    have found := extension_of_point separated inside pointless
    rw [← List.append_assoc] at found ⊢
    by_cases wraps : IsWrapper ('.' :: last)
    · have alone : OutputPath.extension (directory ++ base) = [] :=
        extension_of_pointless separated (fun c mem => inside c (by simp [mem])) (bare wraps)
      rw [extensionLength_of_wrapper found wraps, alone]
      rfl
    · exact extensionLength_of_single found wraps
  | @wrapped inner last pointless wraps single =>
    rw [← List.append_assoc base] at inside ⊢
    have found := extension_of_point separated inside pointless
    have before : OutputPath.extension (directory ++ (base ++ '.' :: inner)) = '.' :: inner :=
      extension_of_point separated (fun c mem => inside c (List.mem_append_left _ mem)) single
    rw [← List.append_assoc] at found ⊢
    rw [extensionLength_of_wrapper found wraps, before, List.length_append, Nat.add_comm]

theorem exists_last_point (mem : '.' ∈ segment) :
    ∃ stem last, segment = stem ++ '.' :: last ∧ '.' ∉ last := by
  obtain ⟨before, after, whole, first⟩ := List.eq_append_cons_of_mem (List.mem_reverse.2 mem)
  refine ⟨after.reverse, before.reverse, ?_, by simpa using first⟩
  rw [← List.reverse_reverse segment, whole]
  simp

private theorem exists_cut (segment : List Char) :
    ∃ base extension, segment = base ++ extension ∧ Cut base extension := by
  by_cases mem : '.' ∈ segment
  · obtain ⟨stem, last, rfl, pointless⟩ := exists_last_point mem
    by_cases wrapped : IsWrapper ('.' :: last) ∧ '.' ∈ stem
    · obtain ⟨wraps, more⟩ := wrapped
      obtain ⟨base, inner, rfl, single⟩ := exists_last_point more
      exact ⟨base, '.' :: inner ++ '.' :: last, by simp, .wrapped pointless wraps single⟩
    · exact ⟨stem, '.' :: last, rfl, .plain pointless fun wraps more => wrapped ⟨wraps, more⟩⟩
  · exact ⟨segment, [], by simp, .pointless mem⟩

/-- Every name has its parts. -/
theorem exists_parts (name : List Char) :
    ∃ directory base extension, Parts name directory base extension := by
  let inside : Char → Bool := fun c => !isSeparator c
  obtain ⟨base, extension, whole, cut⟩ := exists_cut (name.rtakeWhile inside)
  refine ⟨name.rdropWhile inside, base, extension, ?_, ?_, ?_, cut⟩
  · rw [← whole, List.rdropWhile_append_rtakeWhile]
  · intro c ends
    obtain ⟨filled, rfl⟩ := List.mem_getLast?_eq_getLast ends
    simpa [inside] using List.rdropWhile_last_not inside name filled
  · intro c mem
    rw [← whole] at mem
    simpa [inside] using List.mem_rtakeWhile_imp mem

/-- A name has one directory, one base and one extension. -/
theorem Parts.unique {above stem rest : List Char} (h : Parts name directory base extension)
    (g : Parts name above stem rest) : above = directory ∧ stem = base ∧ rest = extension := by
  have segments : stem ++ rest = base ++ extension := by
    rw [← rtakeWhile_segment g.separated g.segment, ← g.whole, h.whole,
      rtakeWhile_segment h.separated h.segment]
  have wholes : above ++ (stem ++ rest) = directory ++ (base ++ extension) :=
    g.whole.symm.trans h.whole
  rw [segments] at wholes
  have lengths : rest.length = extension.length :=
    g.extensionLength_eq.symm.trans h.extensionLength_eq
  exact ⟨List.append_cancel_right wholes, List.append_inj' segments lengths⟩

end Parts

theorem derive_of_parts {name : String} {extension : List Char}
    (parts : Parts name.toList directory base extension) (filled : base ++ extension ≠ []) :
    derive name = .ok (String.ofList (directory ++ base ++ mark.toList ++ extension)) := by
  obtain ⟨c, ends⟩ := Option.ne_none_iff_exists'.1 (mt List.getLast?_eq_none_iff.1 filled)
  have last : name.toList.getLast? = some c := by
    rw [parts.whole, List.getLast?_append, ends]
    rfl
  have inside := parts.segment c (List.mem_of_getLast? ends)
  have whole : name.toList = directory ++ base ++ extension := by
    rw [parts.whole, List.append_assoc]
  have stem : name.toList.length - extensionLength name.toList = (directory ++ base).length := by
    rw [parts.extensionLength_eq, whole, List.length_append, Nat.add_sub_cancel]
  simp only [derive, last, inside]
  rw [stem, whole, List.take_left, List.drop_left]
  rfl

theorem derive_of_directory {name : String} (parts : Parts name.toList directory [] []) :
    derive name = .error (.invalidArgument (.noFileName name)) := by
  have whole : name.toList = directory := by simpa using parts.whole
  simp only [derive]
  split
  · rfl
  · next c ends => rw [if_pos (parts.separated c (whole ▸ ends))]

/-- The output path has the mark before the extension of the name. -/
theorem derive_eq_ok_iff {name path : String} : derive name = .ok path ↔ Marks name path := by
  constructor
  · intro h
    obtain ⟨directory, base, extension, parts⟩ := exists_parts name.toList
    have filled : base ++ extension ≠ [] := by
      intro absent
      obtain ⟨rfl, rfl⟩ := List.append_eq_nil_iff.1 absent
      rw [derive_of_directory parts] at h
      cases h
    refine ⟨directory, base, extension, parts, filled, ?_⟩
    rw [derive_of_parts parts filled] at h
    cases h
    exact String.toList_ofList
  · rintro ⟨directory, base, extension, parts, filled, written⟩
    rw [derive_of_parts parts filled, ← written, String.ofList_toList]

theorem Marks.length_lt {name path : String} (h : Marks name path) :
    name.toList.length < path.toList.length := by
  obtain ⟨directory, base, extension, parts, -, written⟩ := h
  have marked : 0 < mark.toList.length := by decide
  rw [written, parts.whole]
  simp only [List.length_append]
  omega

theorem Marks.ne_name {name path : String} (h : Marks name path) : path ≠ name := by
  rintro rfl
  exact Nat.lt_irrefl _ h.length_lt

theorem Marks.ne_empty {name path : String} (h : Marks name path) : path ≠ "" := by
  rintro rfl
  exact Nat.not_lt_zero _ h.length_lt

end DocGuard.OutputPath
