import DocGuard.Proofs.Document.OutputPath

/-! Output paths that are taken for names again. The mark holds neither a point nor a separator, so
that an output path has the directory and the extension of its name, and its base is that of the name
with the mark. Hence the name can be told from the path, and the marks of repeated changes stand in a
row. -/
namespace DocGuard.OutputPath
variable {directory base extension : List Char} {name path : String}

/-- The output path of a name, the output path of that, and so on. -/
def deriveTimes : Nat → String → Except Error String
  | 0, name => .ok name
  | n + 1, name => derive name >>= deriveTimes n

def marks (n : Nat) : List Char :=
  (List.replicate n mark.toList).flatten

private theorem marks_succ (n : Nat) : marks (n + 1) = mark.toList ++ marks n := by
  rw [marks, List.replicate_succ, List.flatten_cons, marks]

private theorem pointless_marked (pointless : '.' ∉ base) : '.' ∉ base ++ mark.toList := by
  have absent : '.' ∉ mark.toList := by decide
  simp [pointless, absent]

theorem Cut.marked (h : Cut base extension) : Cut (base ++ mark.toList) extension := by
  cases h with
  | pointless pointless => exact .pointless (pointless_marked pointless)
  | plain pointless bare => exact .plain pointless fun wraps => pointless_marked (bare wraps)
  | wrapped pointless wraps single => exact .wrapped pointless wraps single

theorem Parts.marked {name : List Char} (h : Parts name directory base extension) :
    Parts (directory ++ base ++ mark.toList ++ extension) directory (base ++ mark.toList)
      extension where
  whole := by simp only [List.append_assoc]
  separated := h.separated
  segment := by
    have inside : ∀ c ∈ mark.toList, isSeparator c = false := by simp [mark, isSeparator]
    intro c mem
    simp only [List.mem_append] at mem
    rcases mem with (mem | mem) | mem
    · exact h.segment c (List.mem_append_left _ mem)
    · exact inside c mem
    · exact h.segment c (List.mem_append_right _ mem)
  cut := h.cut.marked

private theorem filled_marked : (base ++ mark.toList) ++ extension ≠ [] := by
  have some : mark.toList ≠ [] := by decide
  simp [some]

theorem Marks.parts (h : Marks name path) :
    ∃ directory base extension, Parts name.toList directory base extension ∧
      base ++ extension ≠ [] ∧ Parts path.toList directory (base ++ mark.toList) extension := by
  obtain ⟨directory, base, extension, parts, filled, written⟩ := h
  exact ⟨directory, base, extension, parts, filled, written ▸ parts.marked⟩

private theorem Marks.name_unique {other : String} (h : Marks name path) (g : Marks other path) :
    other = name := by
  obtain ⟨directory, base, extension, parts, -, marked⟩ := h.parts
  obtain ⟨above, stem, rest, others, -, remarked⟩ := g.parts
  -- The parts of the path are unique, so both names have its directory and its extension.
  obtain ⟨rfl, same, rfl⟩ := marked.unique remarked
  obtain rfl := List.append_cancel_right same
  exact String.toList_inj.1 (others.whole.trans parts.whole.symm)

private theorem deriveTimes_of_parts (n : Nat) (parts : Parts name.toList directory base extension)
    (filled : base ++ extension ≠ []) :
    deriveTimes n name = .ok (String.ofList (directory ++ base ++ marks n ++ extension)) := by
  induction n generalizing name base with
  | zero =>
    have whole : directory ++ base ++ marks 0 ++ extension = name.toList := by
      rw [parts.whole, marks]
      simp
    rw [whole, String.ofList_toList]
    rfl
  | succ n ih =>
    have marked := parts.marked
    rw [← String.toList_ofList (l := directory ++ base ++ mark.toList ++ extension)] at marked
    calc deriveTimes (n + 1) name
        = deriveTimes n (String.ofList (directory ++ base ++ mark.toList ++ extension)) := by
          rw [deriveTimes, derive_of_parts parts filled]
          rfl
      _ = .ok (String.ofList (directory ++ (base ++ mark.toList) ++ marks n ++ extension)) :=
          ih marked filled_marked
      _ = .ok (String.ofList (directory ++ base ++ marks (n + 1) ++ extension)) := by
          simp only [marks_succ, List.append_assoc]

/-- Different names have different output paths. An output path is a name again, with the directory and
the extension of the name that it was made for, and so has an output path of its own; after any number
of rounds the marks stand in a row between base and extension. -/
theorem derive_tells_apart (derived : derive name = .ok path) :
    (∀ other, derive other = .ok path → other = name) ∧
      (∃ further, derive path = .ok further) ∧
      ∃ directory base extension, Parts name.toList directory base extension ∧
        Parts path.toList directory (base ++ mark.toList) extension ∧
        ∀ n, deriveTimes n name = .ok (String.ofList (directory ++ base ++ marks n ++ extension)) := by
  have written : Marks name path := derive_eq_ok_iff.1 derived
  obtain ⟨directory, base, extension, parts, filled, marked⟩ := written.parts
  refine ⟨fun other same => written.name_unique (derive_eq_ok_iff.1 same),
    ⟨_, derive_of_parts marked filled_marked⟩, directory, base, extension, parts, marked,
    fun n => ?_⟩
  exact deriveTimes_of_parts n parts filled

/-- A wrapper in mixed case, behind a base that is marked already, in a directory with a point. -/
theorem derive_tells_wrapper_apart :
    derive "v1.2/plän_modified.docx.PFile" = .ok "v1.2/plän_modified_modified.docx.PFile" ∧
      (∀ other, derive other = .ok "v1.2/plän_modified_modified.docx.PFile" →
        other = "v1.2/plän_modified.docx.PFile") ∧
      deriveTimes 2 "v1.2/plän_modified.docx.PFile" =
        .ok "v1.2/plän_modified_modified_modified.docx.PFile" := by
  have derived : derive "v1.2/plän_modified.docx.PFile" =
      .ok "v1.2/plän_modified_modified.docx.PFile" := by decide +kernel
  exact ⟨derived, (derive_tells_apart derived).1, by decide +kernel⟩

end DocGuard.OutputPath
