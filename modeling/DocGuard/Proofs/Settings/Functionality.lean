import Mathlib.Data.List.Nodup
import DocGuard.Proofs.Settings.FilterLists

/-! The filters that an engine gets, on or off. Each filter that a configuration names is there once, in
the stead of what was set for it before, and since the disabled ones are gone through last, one that is
disabled anywhere is off. -/
namespace DocGuard

namespace LabelFilter

private theorem name_injective : Function.Injective name := by
  intro f g same
  have read := ofName_name f
  rw [same, ofName_name g] at read
  exact (Except.ok.inj read).symm

private theorem eq_name_of_ofName {text : String} {f : LabelFilter} (h : ofName text = .ok f) :
    text = f.name := by
  unfold ofName at h
  split at h
  · rename_i g found
    cases h
    have same := List.find?_some found
    exact (beq_iff_eq.1 same).symm
  · cases h

private theorem mapM_ofName {names : List String} {filters : List LabelFilter} :
    names.mapM ofName = .ok filters ↔ names = filters.map name := by
  constructor
  · intro read
    induction names generalizing filters with
    | nil =>
      cases read
      rfl
    | cons text names ih =>
      rw [List.mapM_cons] at read
      obtain ⟨f, first, read⟩ := bind_eq_ok_iff.1 read
      obtain ⟨rest, others, read⟩ := bind_eq_ok_iff.1 read
      cases read
      rw [List.map_cons, ← ih others, eq_name_of_ofName first]
  · rintro rfl
    induction filters with
    | nil => rfl
    | cons f filters ih =>
      rw [List.map_cons, List.mapM_cons, ofName_name, ih]
      rfl

private theorem parseList_eq_ok_iff_entries {text : String} {filters : List LabelFilter} :
    parseList text = .ok filters ↔ entries text = filters.map name :=
  mapM_ofName

private theorem exists_parseList {text : String}
    (known : ∀ entry ∈ entries text, ∃ f, name f = entry) :
    ∃ filters, parseList text = .ok filters := by
  have named : ∃ filters : List LabelFilter, filters.map name = entries text := by
    generalize entries text = names at known
    induction names with
    | nil => exact ⟨[], rfl⟩
    | cons entry rest ih =>
      obtain ⟨⟨f, first⟩, others⟩ := List.forall_mem_cons.1 known
      obtain ⟨filters, rest⟩ := ih others
      exact ⟨f :: filters, congrArg₂ List.cons first rest⟩
  obtain ⟨filters, same⟩ := named
  exact ⟨filters, parseList_eq_ok_iff_entries.2 same.symm⟩

end LabelFilter

namespace EngineConfig
open LabelFilter

def Change.enables : Change → List String
  | .enable names => entries names
  | _ => []

def Change.disables : Change → List String
  | .disable names => entries names
  | _ => []

def Change.isSwitch : Change → Bool
  | .enable _ | .disable _ => true
  | _ => false

/-- The last `x` among some names stands before the last `y`. -/
def LastBefore (names : List String) (x y : String) : Prop :=
  ∃ earlier later, names = earlier ++ x :: later ∧ x ∉ later ∧ y ∈ later

/-- Each filter among some names is set once, and no other, in the order in which the names stand for
the last time. -/
structure Lists (names : List String) (set : List (LabelFilter × Bool)) : Prop where
  once : (set.map Prod.fst).Nodup
  named : ∀ f, f ∈ set.map Prod.fst ↔ f.name ∈ names
  ordered : (set.map Prod.fst).Pairwise fun f g => LastBefore names f.name g.name

/-- The filters among the names `on` and `off` are set, those among `off` to be off and the others to be
on. -/
structure Switched (on off : List String) (set : List (LabelFilter × Bool)) : Prop extends
    Lists (on ++ off) set where
  off_iff : ∀ f value, (f, value) ∈ set → (value = false ↔ f.name ∈ off)

section Switching
variable {names on off : List String} {set : List (LabelFilter × Bool)} {f : LabelFilter}

private theorem map_fst_switch (set : List (LabelFilter × Bool)) (f : LabelFilter) (value : Bool) :
    (switch set f value).map Prod.fst = (set.map Prod.fst).filter (· ≠ f) ++ [f] := by
  simp [switch, List.filter_map, Function.comp_def]

private theorem mem_switch {g : LabelFilter} {value now : Bool} :
    (g, value) ∈ switch set f now ↔ (g, value) ∈ set ∧ g ≠ f ∨ g = f ∧ value = now := by
  simp [switch]

private theorem lastBefore_of_last {x y z : String} {earlier later : List String} (last : x ∉ later)
    (other : x ≠ z) (behind : y ∈ later ++ [z]) :
    LastBefore (earlier ++ x :: later ++ [z]) x y := by
  refine ⟨earlier, later ++ [z], ?_, ?_, behind⟩
  · rw [List.append_assoc, List.cons_append]
  · rw [List.mem_append, List.mem_singleton]
    exact not_or.2 ⟨last, other⟩

theorem LastBefore.snoc {x y z : String} (h : LastBefore names x y) (other : x ≠ z) :
    LastBefore (names ++ [z]) x y := by
  obtain ⟨earlier, later, rfl, last, behind⟩ := h
  exact lastBefore_of_last last other (List.mem_append_left _ behind)

private theorem exists_last {x : String} (mem : x ∈ names) :
    ∃ earlier later, names = earlier ++ x :: later ∧ x ∉ later := by
  induction names with
  | nil => cases mem
  | cons y names ih =>
    by_cases again : x ∈ names
    · obtain ⟨earlier, later, rfl, last⟩ := ih again
      exact ⟨y :: earlier, later, rfl, last⟩
    · obtain rfl : x = y := (List.mem_cons.1 mem).resolve_right again
      exact ⟨[], names, rfl, again⟩

private theorem lastBefore_snoc {x y : String} (mem : x ∈ names) (other : x ≠ y) :
    LastBefore (names ++ [y]) x y := by
  obtain ⟨earlier, later, rfl, last⟩ := exists_last mem
  exact lastBefore_of_last last other (List.mem_append_right _ (List.mem_singleton_self y))

/-- A filter that is switched goes to the end, in the stead of where it was. -/
theorem Lists.switch (h : Lists names set) (f : LabelFilter) (value : Bool) :
    Lists (names ++ [f.name]) (switch set f value) := by
  have keys := map_fst_switch set f value
  constructor
  · rw [keys, List.nodup_append]
    refine ⟨h.once.filter _, List.nodup_singleton f, ?_⟩
    intro g kept other last
    obtain rfl := List.mem_singleton.1 last
    simpa using (List.mem_filter.1 kept).2
  · intro g
    rw [keys, List.mem_append, List.mem_append, List.mem_filter, List.mem_singleton,
      List.mem_singleton, h.named, name_injective.eq_iff]
    by_cases same : g = f <;> simp [same]
  · -- The filters that stay keep their order, and each of them was named before this one.
    rw [keys, List.pairwise_append]
    refine ⟨?_, List.pairwise_singleton _ f, ?_⟩
    · refine (h.ordered.filter _).imp_of_mem ?_
      intro x y kept _ before
      have other : x ≠ f := by simpa using (List.mem_filter.1 kept).2
      exact before.snoc (name_injective.ne other)
    · intro x kept y last
      obtain rfl := List.mem_singleton.1 last
      obtain ⟨mem, other⟩ := List.mem_filter.1 kept
      exact lastBefore_snoc ((h.named x).1 mem) (name_injective.ne (by simpa using other))

theorem Switched.nil : Switched [] [] [] where
  once := List.nodup_nil
  named f := by simp
  ordered := List.Pairwise.nil
  off_iff f value mem := by cases mem

/-- A filter that is enabled is on, as long as none is disabled. -/
theorem Switched.enable (h : Switched on [] set) (f : LabelFilter) :
    Switched (on ++ [f.name]) [] (switch set f true) where
  toLists := by
    have listed := h.toLists.switch f true
    rw [List.append_nil] at listed ⊢
    exact listed
  off_iff g value mem := by
    rcases mem_switch.1 mem with ⟨kept, -⟩ | ⟨-, rfl⟩
    · exact h.off_iff g value kept
    · simp

/-- A filter that is disabled is off. -/
theorem Switched.disable (h : Switched on off set) (f : LabelFilter) :
    Switched on (off ++ [f.name]) (switch set f false) where
  toLists := by
    rw [← List.append_assoc]
    exact h.toLists.switch f false
  off_iff g value mem := by
    rw [List.mem_append, List.mem_singleton]
    rcases mem_switch.1 mem with ⟨kept, other⟩ | ⟨rfl, rfl⟩
    · rw [h.off_iff g value kept, name_injective.eq_iff]
      exact (or_iff_left other).symm
    · exact iff_of_true rfl (.inr rfl)

private theorem Switched.enable_all (h : Switched on [] set) (filters : List LabelFilter) :
    Switched (on ++ filters.map name) [] (filters.foldl (switch · · true) set) := by
  induction filters generalizing on set with
  | nil =>
    rw [List.map_nil, List.append_nil]
    exact h
  | cons f filters ih =>
    have further := ih (h.enable f)
    rw [List.append_assoc] at further
    exact further

private theorem Switched.disable_all (h : Switched on off set) (filters : List LabelFilter) :
    Switched on (off ++ filters.map name) (filters.foldl (switch · · false) set) := by
  induction filters generalizing off set with
  | nil =>
    rw [List.map_nil, List.append_nil]
    exact h
  | cons f filters ih =>
    have further := ih (h.disable f)
    rw [List.append_assoc] at further
    exact further

private theorem switched_functionality (c : EngineConfig) :
    Switched (c.enabled.map name) (c.disabled.map name) c.functionality := by
  have gone : c.functionality =
      c.disabled.foldl (switch · · false) (c.enabled.foldl (switch · · true) []) := by
    simp only [functionality, List.foldl_append, List.foldl_map]
  rw [gone]
  exact (Switched.nil.enable_all c.enabled).disable_all c.disabled

end Switching

section Changes
variable {c next last : EngineConfig} {change : Change} {changes : List Change}

/-- The names in the lists of the changes that enable filters, in order. -/
def enabledNames (changes : List Change) : List String :=
  changes.flatMap Change.enables

def disabledNames (changes : List Change) : List String :=
  changes.flatMap Change.disables

private theorem apply_enable_eq_ok {names : String} (h : c.apply (.enable names) = .ok next) :
    ∃ filters, entries names = filters.map name ∧
      next = { c with enabled := c.enabled ++ filters } := by
  obtain ⟨filters, read, added⟩ := bind_eq_ok_iff.1 h
  exact ⟨filters, parseList_eq_ok_iff_entries.1 read, (Except.ok.inj added).symm⟩

private theorem apply_disable_eq_ok {names : String} (h : c.apply (.disable names) = .ok next) :
    ∃ filters, entries names = filters.map name ∧
      next = { c with disabled := c.disabled ++ filters } := by
  obtain ⟨filters, read, added⟩ := bind_eq_ok_iff.1 h
  exact ⟨filters, parseList_eq_ok_iff_entries.1 read, (Except.ok.inj added).symm⟩

private theorem names_of_apply (h : c.apply change = .ok next) :
    next.enabled.map name = c.enabled.map name ++ change.enables ∧
      next.disabled.map name = c.disabled.map name ++ change.disables := by
  cases change with
  | enable names =>
    obtain ⟨filters, read, rfl⟩ := apply_enable_eq_ok h
    simp only [Change.enables, Change.disables, List.map_append, List.append_nil, read, and_self]
  | disable names =>
    obtain ⟨filters, read, rfl⟩ := apply_disable_eq_ok h
    simp only [Change.enables, Change.disables, List.map_append, List.append_nil, read, and_self]
  | _ =>
    cases h
    simp only [Change.enables, Change.disables, List.append_nil, and_self]

private theorem applyAll_cons (c : EngineConfig) (change : Change) (changes : List Change) :
    c.applyAll (change :: changes) = c.apply change >>= fun next => next.applyAll changes := by
  rw [applyAll, List.foldlM_cons]
  rfl

/-- Changes that are taken one after the other add the names in all their lists. -/
theorem names_of_applyAll (h : c.applyAll changes = .ok last) :
    last.enabled.map name = c.enabled.map name ++ enabledNames changes ∧
      last.disabled.map name = c.disabled.map name ++ disabledNames changes := by
  induction changes generalizing c with
  | nil =>
    cases h
    simp [enabledNames, disabledNames]
  | cons change changes ih =>
    rw [applyAll_cons] at h
    obtain ⟨next, taken, h⟩ := bind_eq_ok_iff.1 h
    obtain ⟨on, off⟩ := names_of_apply taken
    obtain ⟨on', off'⟩ := ih h
    rw [on, List.append_assoc] at on'
    rw [off, List.append_assoc] at off'
    exact ⟨on', off'⟩

private theorem exists_apply (c : EngineConfig)
    (known : ∀ entry ∈ change.enables ++ change.disables, ∃ f, name f = entry) :
    ∃ next, c.apply change = .ok next := by
  cases change with
  | enable names =>
    simp only [Change.enables, Change.disables, List.append_nil] at known
    obtain ⟨filters, read⟩ := exists_parseList known
    rw [apply, read]
    exact ⟨_, rfl⟩
  | disable names =>
    simp only [Change.enables, Change.disables, List.nil_append] at known
    obtain ⟨filters, read⟩ := exists_parseList known
    rw [apply, read]
    exact ⟨_, rfl⟩
  | _ => exact ⟨_, rfl⟩

/-- Changes are taken if all names in their lists are those of filters. -/
theorem exists_applyAll (c : EngineConfig)
    (known : ∀ entry ∈ enabledNames changes ++ disabledNames changes, ∃ f, name f = entry) :
    ∃ last, c.applyAll changes = .ok last := by
  induction changes generalizing c with
  | nil => exact ⟨c, rfl⟩
  | cons change changes ih =>
    simp only [enabledNames, disabledNames, List.flatMap_cons, List.mem_append] at known ih
    have first : ∀ entry ∈ change.enables ++ change.disables, ∃ f, name f = entry := by
      intro entry mem
      rcases List.mem_append.1 mem with mem | mem
      · exact known entry (.inl (.inl mem))
      · exact known entry (.inr (.inl mem))
    obtain ⟨next, taken⟩ := exists_apply c first
    obtain ⟨last, others⟩ := ih next fun entry mem =>
      known entry (mem.imp .inr .inr)
    refine ⟨last, ?_⟩
    rw [applyAll_cons, taken]
    exact others

end Changes

section Settings
variable {c next : EngineConfig} {policy : Option String} {auth : AuthContext}
  {settings : EngineSettings}

private theorem functionality_of_settings (h : c.settings policy auth = .ok settings) :
    settings.functionality = c.functionality := by
  obtain ⟨mode, -, built⟩ := bind_eq_ok_iff.1 h
  cases built
  rfl

private theorem exists_settings {mode : Option ContainerDecryption}
    (h : c.containerDecryption = .ok mode)
    (policy : Option String) (auth : AuthContext) :
    ∃ settings, c.settings policy auth = .ok settings := by
  unfold EngineConfig.settings
  rw [h]
  exact ⟨_, rfl⟩

private theorem containerDecryption_of_apply {change : Change} (switches : change.isSwitch = true)
    (h : c.apply change = .ok next) : next.containerDecryption = c.containerDecryption := by
  cases change with
  | enable names =>
    obtain ⟨filters, -, rfl⟩ := apply_enable_eq_ok h
    rfl
  | disable names =>
    obtain ⟨filters, -, rfl⟩ := apply_disable_eq_ok h
    rfl
  | _ => cases switches

private theorem containerDecryption_of_applyAll {changes : List Change}
    (switches : ∀ change ∈ changes, change.isSwitch = true) (h : c.applyAll changes = .ok next) :
    next.containerDecryption = c.containerDecryption := by
  induction changes generalizing c with
  | nil =>
    cases h
    rfl
  | cons change changes ih =>
    obtain ⟨first, others⟩ := List.forall_mem_cons.1 switches
    rw [applyAll_cons] at h
    obtain ⟨middle, taken, h⟩ := bind_eq_ok_iff.1 h
    exact (ih others h).trans (containerDecryption_of_apply first taken)

end Settings

/-- Whatever changes make a configuration, an engine gets each filter that one of their lists names
once, and no other: off if a list of those that disable names it, and else on. The filters stand in the
order in which they are named for the last time, if all the lists that disable came behind all those
that enable. Nothing hangs on how both kinds, or other changes, come among each other. Changes that only
enable and disable filters always make settings. -/
theorem disabled_stays_off {changes : List Change} {c : EngineConfig}
    (made : applyAll {} changes = .ok c) :
    (∀ policy auth settings, c.settings policy auth = .ok settings →
        Switched (enabledNames changes) (disabledNames changes) settings.functionality) ∧
      ((∀ change ∈ changes, change.isSwitch = true) →
        ∀ policy auth, ∃ settings, c.settings policy auth = .ok settings) ∧
      ∀ others, enabledNames others = enabledNames changes →
        disabledNames others = disabledNames changes →
        ∃ c', applyAll {} others = .ok c' ∧ ∀ policy policy' auth auth' settings settings',
          c.settings policy auth = .ok settings → c'.settings policy' auth' = .ok settings' →
          settings'.functionality = settings.functionality := by
  obtain ⟨on, off⟩ := names_of_applyAll made
  simp only [List.map_nil, List.nil_append] at on off
  refine ⟨fun policy auth settings built => ?_, fun switches => ?_, fun others sameOn sameOff => ?_⟩
  · rw [functionality_of_settings built, ← on, ← off]
    exact switched_functionality c
  · exact exists_settings (containerDecryption_of_applyAll switches made)
  · have known : ∀ entry ∈ enabledNames others ++ disabledNames others,
        ∃ f : LabelFilter, f.name = entry := by
      intro entry mem
      rw [sameOn, sameOff, ← on, ← off, ← List.map_append] at mem
      obtain ⟨f, -, same⟩ := List.mem_map.1 mem
      exact ⟨f, same⟩
    obtain ⟨c', taken⟩ := exists_applyAll {} known
    obtain ⟨on', off'⟩ := names_of_applyAll taken
    simp only [List.map_nil, List.nil_append] at on' off'
    have enabled : c'.enabled = c.enabled :=
      name_injective.list_map (on'.trans (sameOn.trans on.symm))
    have disabled : c'.disabled = c.disabled :=
      name_injective.list_map (off'.trans (sameOff.trans off.symm))
    refine ⟨c', taken, fun policy policy' auth auth' settings settings' built built' => ?_⟩
    rw [functionality_of_settings built, functionality_of_settings built', functionality,
      functionality, enabled, disabled]

/-- A filter that is enabled before and after it is disabled. -/
theorem disabled_stays_off_between :
    let changes : List Change := [.enable "HyokProtection, None",
      .disable "HyokProtection,,AdhocProtection", .enable "HyokProtection"]
    ∃ c, applyAll {} changes = .ok c ∧ ∀ auth, ∃ settings, c.settings none auth = .ok settings ∧
      settings.functionality = [(.none, true), (.hyokProtection, false), (.adhocProtection, false)] ∧
      Switched (enabledNames changes) (disabledNames changes) settings.functionality := by
  intro changes
  have made : applyAll {} changes = .ok { ({} : EngineConfig) with
      enabled := [.hyokProtection, .none, .hyokProtection]
      disabled := [.hyokProtection, .adhocProtection] } := by
    decide +kernel
  obtain ⟨switched, builds, -⟩ := disabled_stays_off made
  refine ⟨_, made, fun auth => ?_⟩
  obtain ⟨settings, built⟩ := builds (by decide) none auth
  refine ⟨settings, built, ?_, switched none auth settings built⟩
  rw [functionality_of_settings built]
  decide

end EngineConfig
end DocGuard
