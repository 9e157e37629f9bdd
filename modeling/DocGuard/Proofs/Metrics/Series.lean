import DocGuard.Metrics.Series

/-! Series as maps from label values to values. A change shows under its own labels and nowhere else,
as long as the labels ascend, and it keeps them ascending. -/
namespace DocGuard.Metrics.Series
variable {α : Type} {zero : α} {labels key : List String} {change : α → α}
  {entries : List (List String × α)}

def Ascending (s : Series α) : Prop :=
  s.entries.Pairwise fun first second => first.1 < second.1

theorem ascending_empty : Ascending ({} : Series α) :=
  List.Pairwise.nil

private theorem labels_of_mem_alter {entry : List String × α}
    (mem : entry ∈ alter zero labels change entries) :
    entry.1 = labels ∨ ∃ old ∈ entries, old.1 = entry.1 := by
  induction entries with
  | nil =>
    cases List.mem_singleton.1 mem
    exact .inl rfl
  | cons first rest ih =>
    unfold alter at mem
    split at mem
    case isTrue same =>
      rcases List.mem_cons.1 mem with rfl | mem
      · exact .inl same.symm
      · exact .inr ⟨entry, List.mem_cons_of_mem _ mem, rfl⟩
    case isFalse =>
      split at mem
      · rcases List.mem_cons.1 mem with rfl | mem
        · exact .inl rfl
        · exact .inr ⟨entry, mem, rfl⟩
      · rcases List.mem_cons.1 mem with rfl | mem
        · exact .inr ⟨first, List.mem_cons_self, rfl⟩
        · rcases ih mem with same | ⟨old, mem, same⟩
          · exact .inl same
          · exact .inr ⟨old, List.mem_cons_of_mem _ mem, same⟩

private theorem pairwise_alter (h : entries.Pairwise fun first second => first.1 < second.1) :
    (alter zero labels change entries).Pairwise fun first second => first.1 < second.1 := by
  induction entries with
  | nil => exact List.pairwise_singleton _ _
  | cons first rest ih =>
    obtain ⟨below, ascending⟩ := List.pairwise_cons.1 h
    unfold alter
    split
    case isTrue => exact List.pairwise_cons.2 ⟨below, ascending⟩
    case isFalse different =>
      split
      case isTrue before =>
        refine List.pairwise_cons.2 ⟨fun entry mem => ?_, h⟩
        rcases List.mem_cons.1 mem with rfl | mem
        · exact before
        · exact List.lt_trans before (below entry mem)
      case isFalse after =>
        refine List.pairwise_cons.2 ⟨fun entry mem => ?_, ih ascending⟩
        rcases labels_of_mem_alter mem with same | ⟨old, mem, same⟩
        · rw [same]
          rcases Std.lt_trichotomy labels first.1 with less | equal | more
          · exact absurd less after
          · exact absurd equal different
          · exact more
        · rw [← same]
          exact below old mem

theorem lookup_of_below (h : ∀ entry ∈ entries, labels < entry.1) : entries.lookup labels = none := by
  refine List.lookup_eq_none_iff.2 fun entry mem => ?_
  have different : labels ≠ entry.1 := by
    intro same
    have less := h entry mem
    rw [same] at less
    exact List.lt_irrefl _ less
  simpa using different

theorem lookup_cons_eq (first : List String × α) : (first :: entries).lookup key =
    if key = first.1 then some first.2 else entries.lookup key := by
  obtain ⟨labels, value⟩ := first
  by_cases same : key = labels
  · simp [same]
  · simp [List.lookup_cons, beq_false_of_ne same, same]

private theorem lookup_alter (h : entries.Pairwise fun first second => first.1 < second.1) :
    (alter zero labels change entries).lookup key =
      if key = labels then some (change ((entries.lookup labels).getD zero))
      else entries.lookup key := by
  induction entries with
  | nil => simp [alter, lookup_cons_eq]
  | cons first rest ih =>
    obtain ⟨below, ascending⟩ := List.pairwise_cons.1 h
    unfold alter
    split
    case isTrue same =>
      by_cases here : key = first.1 <;> simp [lookup_cons_eq, same, here]
    case isFalse different =>
      split
      case isTrue before =>
        have missing : (first :: rest).lookup labels = none := by
          apply lookup_of_below
          intro entry mem
          rcases List.mem_cons.1 mem with rfl | mem
          · exact before
          · exact List.lt_trans before (below entry mem)
        rw [lookup_cons_eq, missing]
        rfl
      case isFalse after =>
        rw [lookup_cons_eq, ih ascending, lookup_cons_eq, lookup_cons_eq, if_neg different]
        by_cases here : key = first.1
        · have other : key ≠ labels := fun same => different (same.symm.trans here)
          simp [here, Ne.symm different]
        · simp [here]

variable {s : Series α}

theorem ascending_update (h : s.Ascending) : (s.update zero labels change).Ascending :=
  pairwise_alter h

theorem value_update (h : s.Ascending) : (s.update zero labels change).value zero key =
    if key = labels then change (s.value zero labels) else s.value zero key := by
  unfold value update
  rw [lookup_alter h]
  split <;> rfl

theorem ascending_touch (h : s.Ascending) : (s.touch zero labels).Ascending :=
  ascending_update h

theorem value_touch (h : s.Ascending) : (s.touch zero labels).value zero key = s.value zero key := by
  unfold touch
  rw [value_update h]
  split
  case isTrue same => rw [same, id]
  case isFalse => rfl

end DocGuard.Metrics.Series
