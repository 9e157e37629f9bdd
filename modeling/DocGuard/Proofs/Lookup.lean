import Mathlib.Data.List.Nodup

/-! Lists of entries that are looked up by their keys. -/
namespace DocGuard
variable {α β : Type} [BEq α] [LawfulBEq α] {entries more : List (α × β)} {key : α} {value : β}

omit [LawfulBEq α] in
theorem lookup_append_of_some (h : entries.lookup key = some value) :
    (entries ++ more).lookup key = some value := by
  rw [List.lookup_append, h]
  rfl

/-- Where no key is there twice, an entry is found by its key. -/
theorem lookup_of_mem (once : (entries.map Prod.fst).Nodup) (mem : (key, value) ∈ entries) :
    entries.lookup key = some value := by
  obtain ⟨earlier, later, rfl⟩ := List.append_of_mem mem
  refine List.lookup_eq_some_iff.2 ⟨earlier, later, rfl, fun entry among => ?_⟩
  rw [List.map_append, List.nodup_append] at once
  have different : entry.1 ≠ key :=
    once.2.2 _ (List.mem_map_of_mem among) _ (by simp)
  simpa using Ne.symm different

theorem mem_of_lookup (found : entries.lookup key = some value) : (key, value) ∈ entries := by
  obtain ⟨earlier, later, rfl, -⟩ := List.lookup_eq_some_iff.1 found
  simp

theorem lookup_of_not_mem (missing : key ∉ entries.map Prod.fst) : entries.lookup key = none := by
  refine List.lookup_eq_none_iff.2 fun entry among => ?_
  have different : entry.1 ≠ key := by
    rintro rfl
    exact missing (List.mem_map_of_mem among)
  simpa using Ne.symm different

theorem lookup_isSome_of_mem (among : key ∈ entries.map Prod.fst) :
    (entries.lookup key).isSome = true := by
  cases found : entries.lookup key with
  | some _ => rfl
  | none =>
    obtain ⟨entry, held, rfl⟩ := List.mem_map.1 among
    simpa using List.lookup_eq_none_iff.1 found entry held

end DocGuard
