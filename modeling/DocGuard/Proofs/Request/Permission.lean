import Mathlib.Algebra.Order.BigOperators.Group.List
import Mathlib.Algebra.Order.Group.Nat
import Mathlib.Data.List.Forall2
import DocGuard.Proofs.Host.Actions
import DocGuard.Request.Steps

/-! The rights that a policy grants, and the check before a change. A right counts in whatever case it
is granted and asked for. The owner right brings all others with it in capitals only; in another
spelling it is a right like the others, and does not let a document be exported. -/
namespace DocGuard
open Program DocGuard.Action

namespace Text
variable {s t u : String}

private theorem eqIgnoringAsciiCase_iff :
    eqIgnoringAsciiCase s t = true ↔ s.toList.map Char.toLower = t.toList.map Char.toLower :=
  beq_iff_eq

private theorem eqIgnoringAsciiCase_symm (h : eqIgnoringAsciiCase s t = true) :
    eqIgnoringAsciiCase t s = true :=
  eqIgnoringAsciiCase_iff.2 (eqIgnoringAsciiCase_iff.1 h).symm

private theorem eqIgnoringAsciiCase_trans (h : eqIgnoringAsciiCase s t = true)
    (g : eqIgnoringAsciiCase t u = true) : eqIgnoringAsciiCase s u = true :=
  eqIgnoringAsciiCase_iff.2 ((eqIgnoringAsciiCase_iff.1 h).trans (eqIgnoringAsciiCase_iff.1 g))

private theorem length_of_eqIgnoringAsciiCase (h : eqIgnoringAsciiCase s t = true) :
    s.toList.length = t.toList.length := by
  simpa using congrArg List.length (eqIgnoringAsciiCase_iff.1 h)

end Text

open Text

namespace Right
variable {right other : String} {granted others : List String}

/-- The right is among the granted ones, in whatever case. -/
def IsSpelledIn (right : String) (granted : List String) : Prop :=
  ∃ name ∈ granted, eqIgnoringAsciiCase name right = true

instance : Decidable (IsSpelledIn right granted) :=
  inferInstanceAs (Decidable (∃ name ∈ granted, eqIgnoringAsciiCase name right = true))

/-- The same rights, one by one, in whatever case. -/
def SameButCase : List String → List String → Prop :=
  List.Forall₂ fun name other => eqIgnoringAsciiCase name other = true

theorem IsSpelledIn.of_eq (h : IsSpelledIn right granted)
    (same : eqIgnoringAsciiCase right other = true) : IsSpelledIn other granted := by
  obtain ⟨name, mem, spelled⟩ := h
  exact ⟨name, mem, eqIgnoringAsciiCase_trans spelled same⟩

theorem IsSpelledIn.mono (h : IsSpelledIn right granted) (more : granted ⊆ others) :
    IsSpelledIn right others := by
  obtain ⟨name, mem, spelled⟩ := h
  exact ⟨name, more mem, spelled⟩

theorem SameButCase.symm (h : SameButCase granted others) : SameButCase others granted :=
  (h.imp fun _ _ => eqIgnoringAsciiCase_symm).flip

private theorem IsSpelledIn.recased (h : IsSpelledIn right granted)
    (same : SameButCase granted others) :
    IsSpelledIn right others := by
  induction same with
  | nil => exact h
  | @cons name other granted others first rest ih =>
    obtain ⟨found, mem, spelled⟩ := h
    rcases List.mem_cons.1 mem with rfl | mem
    · exact ⟨other, List.mem_cons_self,
        eqIgnoringAsciiCase_trans (eqIgnoringAsciiCase_symm first) spelled⟩
    · exact (ih ⟨found, mem, spelled⟩).mono (List.subset_cons_self other others)

private theorem isSpelledIn_recased (same : SameButCase granted others) :
    IsSpelledIn right others ↔ IsSpelledIn right granted :=
  ⟨fun h => h.recased same.symm, fun h => h.recased same⟩

private theorem isSpelledIn_of_mem (mem : right ∈ granted) : IsSpelledIn right granted :=
  ⟨right, mem, eqIgnoringAsciiCase_iff.2 rfl⟩

private theorem exists_not_isSpelledIn (granted : List String) :
    ∃ right, ¬ IsSpelledIn right granted := by
  let lengths := granted.map fun name => name.toList.length
  refine ⟨String.ofList (List.replicate (lengths.sum + 1) 'x'), ?_⟩
  rintro ⟨name, mem, spelled⟩
  have length : name.toList.length = lengths.sum + 1 := by
    simpa using length_of_eqIgnoringAsciiCase spelled
  have bound : name.toList.length ≤ lengths.sum := List.le_sum_of_mem (List.mem_map_of_mem mem)
  omega

end Right

namespace Policy
open DocGuard.Right
variable {p q : Policy} {right : String}

private theorem grants_iff :
    p.grants right = true ↔ IsSpelledIn right p.granted ∨ ownerName ∈ p.granted := by
  simp only [grants, List.any_eq_true, Bool.or_eq_true, beq_iff_eq]
  constructor
  · rintro ⟨name, mem, spelled | rfl⟩
    · exact .inl ⟨name, mem, spelled⟩
    · exact .inr mem
  · rintro (⟨name, mem, spelled⟩ | mem)
    · exact ⟨name, mem, .inl spelled⟩
    · exact ⟨ownerName, mem, .inr rfl⟩

private theorem grants_mono (more : p.granted ⊆ q.granted) (h : p.grants right = true) :
    q.grants right = true := by
  rw [grants_iff] at h ⊢
  exact h.imp (fun spelled => spelled.mono more) fun owns => more owns

private theorem grants_owner_iff : p.grants ownerName = true ↔ IsSpelledIn ownerName p.granted := by
  rw [grants_iff]
  exact or_iff_left_of_imp isSpelledIn_of_mem

private theorem grants_all_iff : (∀ right, p.grants right = true) ↔ ownerName ∈ p.granted := by
  constructor
  · intro all
    obtain ⟨right, unspelled⟩ := exists_not_isSpelledIn p.granted
    exact (grants_iff.1 (all right)).resolve_left unspelled
  · intro owns right
    exact grants_iff.2 (.inr owns)

private theorem grants_recased (same : SameButCase p.granted q.granted) :
    q.grants right = p.grants right ↔
      IsSpelledIn right p.granted ∨ (ownerName ∈ q.granted ↔ ownerName ∈ p.granted) := by
  rw [Bool.eq_iff_iff, grants_iff, grants_iff, isSpelledIn_recased same]
  tauto

private theorem path_checkRights {d : DocumentHandle} {host after : Host} {exit : Exit Unit} :
    Path (d.checkRights host) [.replied (.getProtection d) (.succeeded (some p))] (exit, after) ↔
      exit = (if p.grants exportName then .value () else .error (DocumentHandle.deniedBy p)) ∧
        after = host := by
  have judged : Path (d.checkRights host) [.replied (.getProtection d) (.succeeded (some p))]
      (exit, after) ↔ Path ((if p.grants exportName then Pure.pure () else
        fail (DocumentHandle.deniedBy p) : Action Unit) host) [] (exit, after) := by
    -- Asking for the protection is the only call; what comes after is a question of the policy.
    unfold DocumentHandle.checkRights DocumentHandle.protection
    rw [Action.bind_assoc, path_call_bind_iff]
    constructor
    · rintro (⟨reply, rest, same, path⟩ | ⟨-, -, same⟩)
      · cases same
        exact path
      · cases same
    · intro path
      exact .inl ⟨_, [], rfl, path⟩
  rw [judged]
  cases p.grants exportName with
  | true => simp only [if_true, path_return_iff, true_and]
  | false => simp only [Bool.false_eq_true, if_false, path_fail_iff, true_and]

/-- What a policy grants, and whom the check before a change lets pass. The case of a right that is
asked for does not count, and more rights grant no less. The case of the granted rights does not
count either, but for the owner right: it is granted in each spelling, and brings all other rights
with it exactly in capitals. So the check denies a user who is granted neither the right to export, in
any case, nor the owner right in capitals, and no other. -/
theorem grants_by_spelling (p : Policy) :
    (∀ right other, eqIgnoringAsciiCase right other = true → p.grants other = p.grants right) ∧
      (∀ (q : Policy) right, p.granted ⊆ q.granted → p.grants right = true →
        q.grants right = true) ∧
      (∀ (q : Policy) right, SameButCase p.granted q.granted →
        (q.grants right = p.grants right ↔
          IsSpelledIn right p.granted ∨ (ownerName ∈ q.granted ↔ ownerName ∈ p.granted))) ∧
      (p.grants ownerName = true ↔ IsSpelledIn ownerName p.granted) ∧
      ((∀ right, p.grants right = true) ↔ ownerName ∈ p.granted) ∧
      ∀ (d : DocumentHandle) (host after : Host) (exit : Exit Unit),
        Path (d.checkRights host) [.replied (.getProtection d) (.succeeded (some p))]
            (exit, after) ↔
          exit = (if IsSpelledIn exportName p.granted ∨ ownerName ∈ p.granted then .value ()
            else .error (DocumentHandle.deniedBy p)) ∧ after = host := by
  refine ⟨fun right other same => ?_, fun q right => grants_mono, fun q right => grants_recased,
    grants_owner_iff, grants_all_iff, fun d host after exit => ?_⟩
  · rw [Bool.eq_iff_iff, grants_iff, grants_iff]
    have spelled : IsSpelledIn other p.granted ↔ IsSpelledIn right p.granted :=
      ⟨fun h => h.of_eq (eqIgnoringAsciiCase_symm same), fun h => h.of_eq same⟩
    rw [spelled]
  · simp only [path_checkRights, grants_iff]

/-- A user who is granted the owner right in small letters has this right and may not export, as one
with the right in capitals may. The check denies this user the change. -/
theorem owner_in_small_letters :
    let p : Policy := { owner := "ann", granted := ["owner"] }
    p.grants ownerName = true ∧ p.grants exportName = false ∧
      SameButCase p.granted [ownerName] ∧
      ({ p with granted := [ownerName] } : Policy).grants exportName = true ∧
      ∀ (d : DocumentHandle) (host : Host),
        Path (d.checkRights host) [.replied (.getProtection d) (.succeeded (some p))]
          (.error (.accessDenied exportName (some "ann") none), host) := by
  intro p
  refine ⟨by decide, by decide, .cons (by decide) .nil, by decide, fun d host => ?_⟩
  exact path_checkRights.2 ⟨by decide, rfl⟩

end Policy
end DocGuard
