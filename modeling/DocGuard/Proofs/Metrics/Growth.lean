import DocGuard.Metrics.Exposition
import DocGuard.Proofs.Metrics.Series

/-! What looks leave behind in a metric. A series that is looked at and was not there comes into being
with the value zero, so that with and without looks a metric differs by such series only. This is kept by
every change, shows in no value, and shows in the text as further samples and families that are zero. -/
namespace DocGuard.Metrics

/-- The second list is the first one with further elements in between. The elements of the first are
`kept` and the further ones are `added`. -/
inductive Grown {α : Type} (kept : α → α → Prop) (added : α → Prop) : List α → List α → Prop where
  | nil : Grown kept added [] []
  | keep {a b : α} {as bs : List α} : kept a b → Grown kept added as bs →
      Grown kept added (a :: as) (b :: bs)
  | add {b : α} {as bs : List α} : added b → Grown kept added as bs → Grown kept added as (b :: bs)

namespace Grown
variable {α β : Type} {added : α → Prop} {as bs : List α}

theorem sublist (h : Grown Eq added as bs) : as.Sublist bs := by
  induction h with
  | nil => exact .slnil
  | keep same _ ih =>
    cases same
    exact .cons_cons _ ih
  | add _ _ ih => exact .cons _ ih

private theorem added_of_nil {kept : α → α → Prop} (h : Grown kept added [] bs) :
    ∀ b ∈ bs, added b := by
  generalize empty : ([] : List α) = as at h
  induction h with
  | nil => simp
  | keep => cases empty
  | add new _ ih => exact List.forall_mem_cons.2 ⟨new, ih empty⟩

theorem map {f : α → β} {more : β → Prop} (h : Grown Eq added as bs)
    (new : ∀ b, added b → more (f b)) : Grown Eq more (as.map f) (bs.map f) := by
  induction h with
  | nil => exact .nil
  | keep same _ ih => exact .keep (congrArg f same) ih
  | add other _ ih => exact .add (new _ other) ih

end Grown

namespace Series
variable {α : Type} {zero : α} {labels key : List String} {change : α → α}
  {entries less more : List (List String × α)}

/-- The second series of a metric are the first ones and further ones, which are zero. -/
structure Padded (zero : α) (s t : Series α) : Prop where
  ascending : t.Ascending
  grown : Grown Eq (fun entry => entry.2 = zero) s.entries t.entries

private theorem alter_cons (first : List String × α) : alter zero labels change (first :: entries) =
    if labels = first.1 then (first.1, change first.2) :: entries
    else if labels < first.1 then (labels, change zero) :: first :: entries
    else first :: alter zero labels change entries :=
  rfl

private theorem alter_of_below (h : ∀ entry ∈ entries, labels < entry.1) :
    alter zero labels change entries = (labels, change zero) :: entries := by
  cases entries with
  | nil => rfl
  | cons first rest =>
    have before : labels < first.1 := h first List.mem_cons_self
    have different : labels ≠ first.1 := fun same => List.lt_irrefl _ (same ▸ before)
    rw [alter_cons, if_neg different, if_pos before]

/-- A further series does not stand in the way of a change: what it would start from is zero with it and
without it. -/
theorem grown_alter (ascending : more.Pairwise fun first second => first.1 < second.1)
    (h : Grown Eq (fun entry => entry.2 = zero) less more) :
    Grown Eq (fun entry => entry.2 = zero) (alter zero labels change less)
      (alter zero labels change more) := by
  induction h with
  | nil => exact .keep rfl .nil
  | @keep first _ less more same rest ih =>
    cases same
    rw [alter_cons, alter_cons]
    split
    case isTrue => exact .keep rfl rest
    case isFalse =>
      split
      · exact .keep rfl (.keep rfl rest)
      · exact .keep rfl (ih (List.pairwise_cons.1 ascending).2)
  | @add first less more none rest ih =>
    obtain ⟨below, later⟩ := List.pairwise_cons.1 ascending
    have above : ∀ entry ∈ less, first.1 < entry.1 := fun entry mem =>
      below entry (rest.sublist.subset mem)
    rw [alter_cons]
    split
    case isTrue same =>
      -- The change meets the further series, and on the other side it makes a new one out of zero.
      rw [alter_of_below (same ▸ above), same, none]
      exact .keep rfl rest
    case isFalse =>
      split
      case isTrue before =>
        rw [alter_of_below fun entry mem => List.lt_trans before (above entry mem)]
        exact .keep rfl (.add none rest)
      case isFalse => exact .add none (ih later)

private theorem grown_touch (h : Grown Eq (fun entry => entry.2 = zero) less more) :
    Grown Eq (fun entry => entry.2 = zero) less (alter zero labels id more) := by
  induction h with
  | nil => exact .add rfl .nil
  | keep same rest ih =>
    rw [alter_cons]
    split
    case isTrue => exact .keep same rest
    case isFalse =>
      split
      · exact .add rfl (.keep same rest)
      · exact .keep same ih
  | add none rest ih =>
    rw [alter_cons]
    split
    case isTrue => exact .add none rest
    case isFalse =>
      split
      · exact .add rfl (.add none rest)
      · exact .add none ih

private theorem lookup_of_grown (ascending : more.Pairwise fun first second => first.1 < second.1)
    (h : Grown Eq (fun entry => entry.2 = zero) less more) :
    (more.lookup key).getD zero = (less.lookup key).getD zero := by
  induction h with
  | nil => rfl
  | keep same rest ih =>
    cases same
    rw [lookup_cons_eq, lookup_cons_eq]
    split
    case isTrue => rfl
    case isFalse => exact ih (List.pairwise_cons.1 ascending).2
  | @add first less more none rest ih =>
    obtain ⟨below, later⟩ := List.pairwise_cons.1 ascending
    rw [lookup_cons_eq]
    split
    case isTrue same =>
      rw [lookup_of_below fun entry mem => same ▸ below entry (rest.sublist.subset mem)]
      exact none
    case isFalse => exact ih later

namespace Padded
variable {s t : Series α}

theorem refl (h : s.Ascending) : s.Padded zero s := by
  refine ⟨h, ?_⟩
  induction s.entries with
  | nil => exact .nil
  | cons first rest ih => exact .keep rfl ih

theorem value (h : s.Padded zero t) (key : List String) : t.value zero key = s.value zero key :=
  lookup_of_grown h.ascending h.grown

theorem update (h : s.Padded zero t) :
    (s.update zero labels change).Padded zero (t.update zero labels change) :=
  ⟨ascending_update h.ascending, grown_alter h.ascending h.grown⟩

theorem along (h : s.Padded zero t) :
    (s.touch zero labels).Padded zero (t.touch zero labels) :=
  h.update

theorem aside (h : s.Padded zero t) : s.Padded zero (t.touch zero labels) :=
  ⟨ascending_touch h.ascending, grown_touch h.grown⟩

end Padded
end Series

/-- The samples of one series whose value is zero; of a histogram nothing was observed. -/
inductive ZeroSeries : Kind → List Sample → Prop where
  | number (kind : Kind) (labels : List (String × String)) : kind ≠ .histogram →
      ZeroSeries kind [⟨"", labels, "0"⟩]
  | histogram (bounds : List Nat) (labels : List (String × String)) :
      ZeroSeries .histogram (Histogram.samples bounds labels {})

namespace Family

/-- The second family has the header of the first and the same series, and further ones that are zero. -/
structure Padded (f g : Family) : Prop where
  header : g.name = f.name ∧ g.help = f.help ∧ g.kind = f.kind
  samples : ∃ less more : List (List Sample), f.samples = less.flatten ∧ g.samples = more.flatten ∧
    Grown Eq (ZeroSeries f.kind) less more

/-- The family has series, and all of them are zero. -/
def IsZero (f : Family) : Prop :=
  ∃ series : List (List Sample), series ≠ [] ∧ f.samples = series.flatten ∧
    ∀ samples ∈ series, ZeroSeries f.kind samples

def shown (families : List Family) : List Family :=
  families.filter (!·.samples.isEmpty)

/-- A family that is shown stays, and one that is not may come in, if it is zero. -/
theorem grown_shown {f g : Family} {fs gs : List Family} (kept : f.Padded g)
    (filled : f.samples ≠ [] → g.samples ≠ []) (added : f.samples = [] → g.samples ≠ [] → g.IsZero)
    (rest : Grown Padded IsZero (shown fs) (shown gs)) :
    Grown Padded IsZero (shown (f :: fs)) (shown (g :: gs)) := by
  unfold shown at rest ⊢
  by_cases before : f.samples = []
  · by_cases after : g.samples = []
    · simpa [before, after] using rest
    · simpa [before, after] using Grown.add (added before after) rest
  · simpa [before, filled before] using Grown.keep kept rest

end Family

section Shown
variable {α : Type} {zero : α} {s t : Series α} {name help : String} {kind : Kind}
  {labels : List String} {samples : List (String × String) → α → List Sample}
  {entry : List String × α}

def Series.block (labels : List String) (samples : List (String × String) → α → List Sample)
    (entry : List String × α) : List Sample :=
  samples (labels.zip entry.1) entry.2

private theorem Series.samples_family : (s.family name help kind labels samples).samples =
    (s.entries.map (block labels samples)).flatten :=
  List.flatMap_def

private theorem Series.samples_family_eq_nil (filled : ∀ pairs value, samples pairs value ≠ []) :
    (s.family name help kind labels samples).samples = [] ↔ s.entries = [] := by
  refine List.flatMap_eq_nil_iff.trans ⟨fun none => ?_, fun none => ?_⟩
  · exact List.eq_nil_iff_forall_not_mem.2 fun entry mem => filled _ _ (none entry mem)
  · simp [none]

private theorem Series.zero_block (zeroes : ∀ pairs, ZeroSeries kind (samples pairs zero))
    (h : entry.2 = zero) : ZeroSeries kind (block labels samples entry) := by
  cases h
  exact zeroes _

/-- The families of a metric among those that are shown, with and without further series. -/
theorem Series.Padded.grown_shown {fs gs : List Family} (h : s.Padded zero t)
    (zeroes : ∀ pairs, ZeroSeries kind (samples pairs zero))
    (filled : ∀ pairs value, samples pairs value ≠ [])
    (rest : Grown Family.Padded Family.IsZero (Family.shown fs) (Family.shown gs)) :
    Grown Family.Padded Family.IsZero
      (Family.shown (s.family name help kind labels samples :: fs))
      (Family.shown (t.family name help kind labels samples :: gs)) := by
  have grown := h.grown
  refine Family.grown_shown ⟨⟨rfl, rfl, rfl⟩, _, _, samples_family, samples_family,
    grown.map fun _ none => zero_block zeroes none⟩ ?_ ?_ rest
  · intro some none
    rw [samples_family_eq_nil filled] at none
    have empty : s.entries = [] := List.sublist_nil.1 (none ▸ grown.sublist)
    exact some ((samples_family_eq_nil filled).2 empty)
  · intro before after
    rw [samples_family_eq_nil filled] at before
    rw [before] at grown
    have some : t.entries ≠ [] := mt (samples_family_eq_nil filled).2 after
    refine ⟨t.entries.map (block labels samples), by simpa using some, samples_family, ?_⟩
    intro samples mem
    obtain ⟨entry, among, rfl⟩ := List.mem_map.1 mem
    exact zero_block zeroes (grown.added_of_nil entry among)

end Shown
end DocGuard.Metrics
