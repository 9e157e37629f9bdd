import DocGuard.Proofs.Document.OutputPath
import DocGuard.Text.Basic

/-! Output paths cut at bytes. Places in a text can be told by the bytes in front of them, and then a
place may fall inside a character, where no text can be cut. The places at which a name is cut for its
output path never do, whatever characters the name has, and what comes of the cuts is the path. -/
namespace DocGuard
variable {before after cs : List Char}

namespace Text

/-- Cuts a text behind a number of bytes. There is no cut inside a character or beyond the end. -/
def cutAtByte : List Char → Nat → Option (List Char × List Char)
  | cs, 0 => some ([], cs)
  | [], _ + 1 => none
  | c :: cs, n + 1 =>
    if c.utf8Size ≤ n + 1 then
      (cutAtByte cs (n + 1 - c.utf8Size)).map fun (before, after) => (c :: before, after)
    else none

/-- The number of bytes in front of the last character of a kind. -/
def lastByteOf (kind : Char → Bool) : List Char → Option Nat
  | [] => none
  | c :: cs =>
    match lastByteOf kind cs with
    | some n => some (c.utf8Size + n)
    | none => if kind c then some 0 else none

private theorem utf8Size_nil : utf8Size [] = 0 := rfl

private theorem utf8Size_cons (c : Char) (cs : List Char) :
    utf8Size (c :: cs) = c.utf8Size + utf8Size cs := rfl

private theorem utf8Size_append (before after : List Char) :
    utf8Size (before ++ after) = utf8Size before + utf8Size after := by
  induction before with
  | nil => exact (Nat.zero_add _).symm
  | cons c before ih => simp only [List.cons_append, utf8Size_cons, ih, Nat.add_assoc]

private theorem cutAtByte_append (before after : List Char) :
    cutAtByte (before ++ after) (utf8Size before) = some (before, after) := by
  induction before with
  | nil => simp [utf8Size_nil, cutAtByte]
  | cons c before ih =>
    obtain ⟨n, size⟩ := Nat.exists_eq_succ_of_ne_zero (Nat.pos_iff_ne_zero.1 c.utf8Size_pos)
    have more : utf8Size (c :: before) = (n + utf8Size before) + 1 := by
      rw [utf8Size_cons, size]
      omega
    have fits : c.utf8Size ≤ n + utf8Size before + 1 := by omega
    have rest : n + utf8Size before + 1 - c.utf8Size = utf8Size before := by omega
    rw [more, List.cons_append, cutAtByte, if_pos fits, rest, ih]
    rfl

-- The first character has two bytes, and there is no cut between them.
example : cutAtByte ['ü', 'x'] 1 = none := by decide

private theorem cutAtByte_sub (before after : List Char) :
    cutAtByte (before ++ after) (utf8Size (before ++ after) - utf8Size after) =
      some (before, after) := by
  rw [utf8Size_append, Nat.add_sub_cancel, cutAtByte_append]

private theorem lastByteOf_eq_none {kind : Char → Bool} (none : ∀ c ∈ cs, kind c = false) :
    lastByteOf kind cs = .none := by
  induction cs with
  | nil => rfl
  | cons c cs ih =>
    obtain ⟨first, rest⟩ := List.forall_mem_cons.1 none
    simp [lastByteOf, ih rest, first]

private theorem lastByteOf_append {kind : Char → Bool} {c : Char} (found : kind c = true)
    (none : ∀ c ∈ after, kind c = false) :
    lastByteOf kind (before ++ c :: after) = some (utf8Size before) := by
  induction before with
  | nil => simp [lastByteOf, lastByteOf_eq_none none, found, utf8Size_nil]
  | cons first before ih => simp [lastByteOf, ih, utf8Size_cons]

end Text

namespace OutputPath
open Text
variable {directory segment base extension : List Char}

/-- The final segment of a name, behind the last separator, which is one byte. -/
def segmentAtBytes (name : List Char) : Option (List Char) :=
  match lastByteOf isSeparator name with
  | some n => (cutAtByte name (n + 1)).map Prod.snd
  | none => some name

/-- The extension of a name, cut off before the last point of its final segment. -/
def extensionAtBytes (name : List Char) : Option (List Char) := do
  let segment ← segmentAtBytes name
  match lastByteOf (· == '.') segment with
  | some n => (cutAtByte segment n).map Prod.snd
  | none => some []

/-- What stands before a wrapper is cut off too. -/
def wrappedAtBytes (stem last : List Char) : Option (List Char) :=
  if eqIgnoringAsciiCase (String.ofList last) wrapper then extensionAtBytes stem else some []

/-- The name with the mark before its extension. The bytes of the extension are counted from the
end. -/
def markedAtBytes (name : List Char) : Option (List Char) := do
  let extension ← extensionAtBytes name
  let (stem, last) ← cutAtByte name (utf8Size name - utf8Size extension)
  let wrapped ← wrappedAtBytes stem last
  let (stem, rest) ← cutAtByte name (utf8Size name - (utf8Size extension + utf8Size wrapped))
  return stem ++ mark.toList ++ rest

/-- The output path for a proposed name, made with cuts at bytes only. There is none if a cut falls
inside a character. -/
def deriveAtBytes (name : String) : Option (Except Error String) :=
  match name.toList.getLast? with
  | none => some (.error (.invalidArgument (.noFileName name)))
  | some last =>
    if isSeparator last then some (.error (.invalidArgument (.noFileName name)))
    else (markedAtBytes name.toList).map fun path => .ok (String.ofList path)

private theorem utf8Size_of_isSeparator {c : Char} (h : isSeparator c = true) : c.utf8Size = 1 := by
  simp only [isSeparator, Bool.or_eq_true, beq_iff_eq] at h
  rcases h with rfl | rfl <;> decide

private theorem segmentAtBytes_eq
    (separated : ∀ c, directory.getLast? = some c → isSeparator c = true)
    (inside : ∀ c ∈ segment, isSeparator c = false) :
    segmentAtBytes (directory ++ segment) = some segment := by
  unfold segmentAtBytes
  rcases List.eq_nil_or_concat directory with rfl | ⟨above, c, rfl⟩
  · rw [List.nil_append, lastByteOf_eq_none inside]
  · rw [List.concat_eq_append] at separated ⊢
    have found : isSeparator c = true := separated c (by simp)
    have behind : utf8Size above + 1 = utf8Size (above ++ [c]) := by
      rw [utf8Size_append, utf8Size_cons, utf8Size_of_isSeparator found, utf8Size_nil]
    have cut : cutAtByte (above ++ [c] ++ segment) (utf8Size above + 1) =
        some (above ++ [c], segment) := by
      rw [behind, cutAtByte_append]
    rw [List.append_assoc, List.singleton_append] at cut ⊢
    rw [lastByteOf_append found inside]
    simp only [cut, Option.map_some]

private theorem extensionAtBytes_eq (name : List Char) :
    extensionAtBytes name = some (OutputPath.extension name) ∧
      ∃ stem, name = stem ++ OutputPath.extension name := by
  obtain ⟨directory, base, extension, rfl, separated, inside, -⟩ := exists_parts name
  generalize base ++ extension = segment at inside
  have pointless : ∀ cs : List Char, '.' ∉ cs → ∀ c ∈ cs, (c == '.') = false := by
    intro cs absent c mem
    have different : c ≠ '.' := by
      rintro rfl
      exact absent mem
    simpa using different
  simp only [extensionAtBytes, segmentAtBytes_eq separated inside, Option.bind_eq_bind,
    Option.bind_some]
  by_cases mem : '.' ∈ segment
  · obtain ⟨base, last, rfl, absent⟩ := exists_last_point mem
    have found : lastByteOf (· == '.') (base ++ '.' :: last) = some (utf8Size base) :=
      lastByteOf_append (by simp) (pointless last absent)
    rw [extension_of_point separated inside absent]
    simp only [found, cutAtByte_append, Option.map_some]
    exact ⟨trivial, directory ++ base, (List.append_assoc ..).symm⟩
  · have nowhere : lastByteOf (· == '.') segment = none := lastByteOf_eq_none (pointless _ mem)
    rw [extension_of_pointless separated inside mem]
    simp only [nowhere]
    exact ⟨trivial, directory ++ segment, (List.append_nil _).symm⟩

private theorem wrappedAtBytes_eq {stem last : List Char}
    (found : OutputPath.extension (stem ++ last) = last) :
    ∃ above wrapped, stem = above ++ wrapped ∧ wrappedAtBytes stem last = some wrapped ∧
      extensionLength (stem ++ last) = wrapped.length + last.length := by
  unfold wrappedAtBytes
  by_cases wraps : IsWrapper last
  · obtain ⟨inner, above, parted⟩ := extensionAtBytes_eq stem
    refine ⟨above, OutputPath.extension stem, parted, ?_, ?_⟩
    · exact (if_pos wraps).trans inner
    · rw [extensionLength_of_wrapper found wraps, Nat.add_comm]
  · refine ⟨stem, [], (List.append_nil _).symm, if_neg wraps, ?_⟩
    rw [extensionLength_of_single found wraps, List.length_nil, Nat.zero_add]

private theorem markedAtBytes_eq (name : List Char) :
    markedAtBytes name = some (name.take (name.length - extensionLength name) ++ mark.toList ++
      name.drop (name.length - extensionLength name)) := by
  obtain ⟨cut, stem, whole⟩ := extensionAtBytes_eq name
  generalize same : OutputPath.extension name = last at cut whole
  subst whole
  obtain ⟨above, wrapped, rfl, inner, length⟩ := wrappedAtBytes_eq same
  have outer := cutAtByte_sub (above ++ wrapped) last
  have rest := cutAtByte_sub above (wrapped ++ last)
  rw [utf8Size_append wrapped, Nat.add_comm (utf8Size wrapped)] at rest
  have stem : (above ++ wrapped ++ last).length - extensionLength (above ++ wrapped ++ last) =
      above.length := by
    simp only [length, List.length_append]
    omega
  rw [stem]
  rw [List.append_assoc] at cut outer ⊢
  simp only [markedAtBytes, cut, outer, inner, rest, Option.bind_eq_bind, Option.bind_some,
    Option.pure_def, List.take_left, List.drop_left]

private theorem deriveAtBytes_eq (name : String) : deriveAtBytes name = some (derive name) := by
  simp only [deriveAtBytes, derive, markedAtBytes_eq, Option.map_some]
  cases name.toList.getLast? with
  | none => rfl
  | some last =>
    dsimp only
    split <;> rfl

private theorem parts_of_directory {name : String} :
    (∃ directory, Parts name.toList directory [] []) ↔
      name = "" ∨ ∃ stem, name = stem ++ "/" ∨ name = stem ++ "\\" := by
  constructor
  · rintro ⟨directory, parts⟩
    have whole : name.toList = directory := by simpa using parts.whole
    rcases List.eq_nil_or_concat directory with rfl | ⟨above, c, rfl⟩
    · exact .inl (String.toList_inj.1 whole)
    · rw [List.concat_eq_append] at parts whole
      have found := parts.separated c (by simp)
      simp only [isSeparator, Bool.or_eq_true, beq_iff_eq] at found
      refine .inr ⟨String.ofList above, found.imp ?_ ?_⟩
      · rintro rfl
        exact String.toList_inj.1 (by simp [whole])
      · rintro rfl
        exact String.toList_inj.1 (by simp [whole])
  · have single : ∀ directory : List Char,
        (∀ c, directory.getLast? = some c → isSeparator c = true) → Parts directory directory [] [] :=
      fun directory separated => ⟨by simp, separated, by simp, .pointless (by simp)⟩
    rintro (rfl | ⟨stem, rfl | rfl⟩)
    · exact ⟨_, single _ (by simp)⟩
    · exact ⟨_, single _ (by simp [isSeparator])⟩
    · exact ⟨_, single _ (by simp [isSeparator])⟩

/-- A name has one directory, one base and one extension, and its output path has the mark between
the base and the extension. Only a name without a final segment has no path. The cuts at bytes come to
the same, so that none of them falls inside a character. -/
theorem derive_by_parts (name : String) :
    (derive name = .error (.invalidArgument (.noFileName name)) ↔
        name = "" ∨ ∃ stem, name = stem ++ "/" ∨ name = stem ++ "\\") ∧
      (∃ directory base extension, Parts name.toList directory base extension ∧
        (∀ above stem rest, Parts name.toList above stem rest →
          above = directory ∧ stem = base ∧ rest = extension) ∧
        (derive name = .error (.invalidArgument (.noFileName name)) ∨
          derive name = .ok (String.ofList (directory ++ base ++ mark.toList ++ extension)))) ∧
      deriveAtBytes name = some (derive name) := by
  obtain ⟨directory, base, extension, parts⟩ := exists_parts name.toList
  rw [← parts_of_directory]
  refine ⟨⟨fun fails => ?_, fun ⟨_, alone⟩ => derive_of_directory alone⟩,
    ⟨directory, base, extension, parts, fun _ _ _ => parts.unique, ?_⟩, deriveAtBytes_eq name⟩
  · by_cases filled : base ++ extension = []
    · obtain ⟨rfl, rfl⟩ := List.append_eq_nil_iff.1 filled
      exact ⟨directory, parts⟩
    · cases fails.symm.trans (derive_of_parts parts filled)
  · by_cases filled : base ++ extension = []
    · obtain ⟨rfl, rfl⟩ := List.append_eq_nil_iff.1 filled
      exact .inl (derive_of_directory parts)
    · exact .inr (derive_of_parts parts filled)

end OutputPath
end DocGuard
