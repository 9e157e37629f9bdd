import Mathlib.Data.List.TakeWhile
import DocGuard.Service.Invoke

/-! What is left in a registry when the metrics of a service are registered there. The names are taken
one after the other up to the first that is taken already, and those before it stay, so that after a
failure a registry is as it was only if it held the very first name. -/
namespace DocGuard
open Metrics

namespace Metrics.Registry

private theorem takeWhile_free_of_not_mem {name : String} {names taken : List String}
    (other : name ∉ names) :
    names.takeWhile (· ∉ taken ++ [name]) = names.takeWhile (· ∉ taken) := by
  induction names with
  | nil => rfl
  | cons next names ih =>
    obtain ⟨different, others⟩ := not_or.1 (mt List.mem_cons.2 other)
    rw [List.takeWhile_cons, List.takeWhile_cons, ih others]
    simp [Ne.symm different]

private theorem registerAll_eq {names : List String} (r : Registry) (once : names.Nodup) :
    r.registerAll names =
      (if ∃ name ∈ names, name ∈ r.names then .error (.metrics .alreadyRegistered) else .ok (),
        ⟨r.names ++ names.takeWhile (· ∉ r.names)⟩) := by
  induction names generalizing r with
  | nil => simp [registerAll]
  | cons name names ih =>
    obtain ⟨other, once⟩ := List.nodup_cons.1 once
    by_cases taken : name ∈ r.names
    · simp [registerAll, register, taken]
    · have later : (∃ next ∈ names, next ∈ r.names ++ [name]) ↔ ∃ next ∈ names, next ∈ r.names := by
        refine exists_congr fun next => and_congr_right fun mem => ?_
        have different : next ≠ name := fun same => other (same ▸ mem)
        simp [different]
      simp only [registerAll, register, taken, if_false, ih ⟨r.names ++ [name]⟩ once, later,
        takeWhile_free_of_not_mem other]
      simp [taken]

end Metrics.Registry

namespace Service

/-- What comes of registering the metrics of a service. It fails exactly if one of their names is taken.
In any case the names up to the first that is taken are registered: all of them, if none is, and none of
them, if the first one is. -/
structure Registers {α : Type} (r : Registry) (result : Except Error α × Registry) : Prop where
  fails_iff : (∃ e, result.1 = .error e) ↔ ∃ name ∈ Stats.names, name ∈ r.names
  failure : ∀ e, result.1 = .error e → e = .metrics .alreadyRegistered
  success : ∀ value, result.1 = .ok value → result.2.names = r.names ++ Stats.names
  added : result.2.names = r.names ++ Stats.names.takeWhile (· ∉ r.names)
  unchanged_iff : result.2 = r ↔ "msip_request_count" ∈ r.names

private theorem registers_up_to_taken {α : Type} (r : Registry) (value : α) :
    Registers r (if ∃ name ∈ Stats.names, name ∈ r.names then
        .error (.metrics .alreadyRegistered) else .ok value,
      ⟨r.names ++ Stats.names.takeWhile (· ∉ r.names)⟩) := by
  constructor
  · split
    case isTrue taken => simp [taken]
    case isFalse free => simp [free]
  · intro e error
    split at error
    · exact (Except.error.inj error).symm
    · cases error
  · intro _ made
    split at made
    case isTrue => cases made
    case isFalse free =>
      have all : Stats.names.takeWhile (· ∉ r.names) = Stats.names := by
        refine List.takeWhile_eq_self_iff.2 fun name mem => ?_
        simpa using fun taken => free ⟨name, mem, taken⟩
      rw [all]
  · rfl
  · by_cases first : "msip_request_count" ∈ r.names
    · simp [Stats.names, first]
    · refine iff_of_false (fun same => ?_) first
      have more := congrArg (List.length ∘ Registry.names) same
      simp [Stats.names, first] at more

/-- The metrics of a service are registered alone as they are together with the service. A failure keeps
the names before the one that was taken. -/
theorem registers_names_in_turn (options : RunOptions) (r : Registry) :
    Registers r (Stats.registered r) ∧ Registers r (registered options r) := by
  have names : Stats.names.Nodup := by decide
  have alone := registers_up_to_taken r ({} : Stats)
  have whole := registers_up_to_taken r ({ options } : Service)
  have all := r.registerAll_eq names
  by_cases taken : ∃ name ∈ Stats.names, name ∈ r.names
  · simp only [taken, if_true] at alone whole all
    simp only [registered, Stats.registered, all]
    exact ⟨alone, whole⟩
  · simp only [taken, if_false] at alone whole all
    simp only [registered, Stats.registered, all]
    exact ⟨alone, whole⟩

/-- Beside the name of the gauge the registration fails, and still the registry is not as it was: two
names stay behind. -/
theorem registered_beside_gauge :
    let r : Registry := ⟨["msip_active_requests"]⟩
    (registered {} r).1 = .error (.metrics .alreadyRegistered) ∧ (registered {} r).2 ≠ r ∧
      (registered {} r).2.names =
        ["msip_active_requests", "msip_request_count", "msip_request_latency_seconds"] := by
  exact ⟨rfl, by decide, rfl⟩

end Service
end DocGuard
