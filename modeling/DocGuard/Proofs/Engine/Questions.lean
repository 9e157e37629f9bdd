import DocGuard.Proofs.Host.Actions
import DocGuard.Host.Profiles

/-! What a program may ask at all, whatever the answers are, and what it asks last. A bound on its
questions holds of every run of it, and is put together from bounds on its parts. -/
namespace DocGuard
variable {α β : Type} {allowed : Question → Prop}

namespace Program

/-- Every question of the program is allowed. -/
def Asks (allowed : Question → Prop) : Program α → Prop
  | .done _ => True
  | .ask q next => allowed q ∧ ∀ answer, (next answer).Asks allowed

namespace Asks

theorem done (value : α) : (Program.done value).Asks allowed := True.intro

theorem question {q : Question} (h : allowed q) : (Program.question q).Asks allowed :=
  ⟨h, fun _ => .done _⟩

theorem bind {first : Program α} {next : α → Program β} (h : first.Asks allowed)
    (g : ∀ value, (next value).Asks allowed) : (first.bind next).Asks allowed := by
  induction first with
  | done value => exact g value
  | ask q rest ih => exact ⟨h.1, fun answer => ih answer (h.2 answer)⟩

/-- What happens along a path was allowed. -/
theorem of_path {program : Program α} {events : List Event} {value : α} (h : program.Asks allowed)
    (path : Path program events value) : ∀ e ∈ events, allowed e.question := by
  induction path with
  | done value => simp
  | ask q next answer events value _ ih =>
    intro e mem
    rcases List.mem_cons.1 mem with rfl | mem
    · exact h.1
    · exact ih (h.2 answer) e mem

end Asks
end Program

namespace Action

/-- Every question of the action is allowed, whatever the host is. -/
def Asks (allowed : Question → Prop) (action : Action α) : Prop :=
  ∀ host, (action host).Asks allowed

theorem asks_pure {value : α} : Asks allowed (Pure.pure value : Action α) :=
  fun _ => .done _

theorem asks_fail {cause : Error} : Asks allowed (fail cause : Action α) :=
  fun _ => .done _

theorem asks_ofExcept {result : Except Error α} : Asks allowed (ofExcept result) := by
  cases result with
  | ok value => exact asks_pure
  | error cause => exact asks_fail

theorem asks_get : Asks allowed get :=
  fun _ => .done _

theorem asks_modify {change : Host → Host} : Asks allowed (modify change) :=
  fun _ => .done _

theorem asks_ofProgram {program : Program α} (h : program.Asks allowed) :
    Asks allowed (ofProgram program) :=
  fun _ => h.bind fun _ => .done _

theorem asks_call {c : Call} (h : allowed (.call c)) : Asks allowed (call c) := by
  intro host
  refine (Program.Asks.question h).bind fun answer => ?_
  cases answer <;> exact .done _

theorem asks_bind {first : Action α} {next : α → Action β} (h : Asks allowed first)
    (g : ∀ value, Asks allowed (next value)) : Asks allowed (first >>= next) := by
  intro host
  refine (h host).bind fun ended => ?_
  obtain ⟨value | cause | _, after⟩ := ended
  · exact g value after
  · exact .done _
  · exact .done _

theorem asks_result {c : Call} {result : c.Reply → Except Error α} (h : allowed (.call c)) :
    Asks allowed (call c >>= fun reply => ofExcept (result reply)) :=
  asks_bind (asks_call h) fun _ => asks_ofExcept

theorem asks_attempt {action : Action α} (h : Asks allowed action) :
    Asks allowed (attempt action) := by
  intro host
  refine (h host).bind fun ended => ?_
  obtain ⟨value | cause | _, after⟩ := ended <;> exact .done _

/-- Behind a poisoned lock the action is done all the same, and a record in the log tells of it. -/
theorem asks_locked {action : Action α} (h : Asks allowed action)
    (warns : ∀ record, allowed (.log record)) : Asks allowed (Host.locked action) := by
  intro host
  unfold Host.locked
  split
  · refine (Program.Asks.question (warns _)).bind fun _ => (h host).bind fun ended => ?_
    obtain ⟨value | cause | _, after⟩ := ended <;> exact .done _
  · refine (h host).bind fun ended => ?_
    obtain ⟨value | cause | _, after⟩ := ended <;> exact .done _

/-- Whoever comes to a value of the action has asked a question of this kind last. -/
def AsksLast (asked : Question → Prop) (action : Action α) : Prop :=
  ∀ host after events value, Program.Path (action host) events (.value value, after) →
    ∃ first e, events = first ++ [e] ∧ asked e.question

theorem asksLast_bind {asked : Question → Prop} {first : Action α} {next : α → Action β}
    (h : ∀ value, AsksLast asked (next value)) : AsksLast asked (first >>= next) := by
  intro host after events value path
  rcases path_bind_iff.1 path with ⟨before, rest, middle, between, rfl, -, last⟩ | ⟨_, ended, -⟩ |
    ⟨ended, -⟩
  · obtain ⟨more, e, rfl, question⟩ := h middle _ _ _ _ last
    exact ⟨before ++ more, e, (List.append_assoc ..).symm, question⟩
  · cases ended
  · cases ended

theorem asksLast_result {asked : Question → Prop} {c : Call}
    {result : c.Reply → Except Error α} (h : asked (.call c)) :
    AsksLast asked (call c >>= fun reply => ofExcept (result reply)) := by
  intro host after events value path
  rcases path_call_bind_iff.1 path with ⟨reply, rest, rfl, last⟩ | ⟨ended, -, -⟩
  · cases given : result reply with
    | ok found =>
      rw [given] at last
      obtain ⟨rfl, -, -⟩ := path_pure_iff.1 last
      exact ⟨[], .replied c reply, rfl, h⟩
    | error cause =>
      rw [given] at last
      obtain ⟨-, ended, -⟩ := path_fail_iff.1 last
      cases ended
  · cases ended

end Action
end DocGuard
