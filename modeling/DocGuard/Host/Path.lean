import DocGuard.Engine.Path
import DocGuard.Host.Basic

/-! Paths of actions, one law for each way to make one. A composed action goes on only along a path
of its first part that ends with a value; an error or a panic is its end. -/
namespace DocGuard.Action
open Program
variable {α β : Type} {host after : Host} {events : List Event}

theorem path_pure_iff {value : α} {exit : Exit α} :
    Path ((pure value : Action α) host) events (exit, after) ↔
      events = [] ∧ exit = .value value ∧ after = host := by
  simp only [pure, Path.done_iff, Prod.mk.injEq]

theorem path_fail_iff {cause : Error} {exit : Exit α} :
    Path ((fail cause : Action α) host) events (exit, after) ↔
      events = [] ∧ exit = .error cause ∧ after = host := by
  simp only [fail, Path.done_iff, Prod.mk.injEq]

theorem path_get_iff {exit : Exit Host} :
    Path (get host) events (exit, after) ↔ events = [] ∧ exit = .value host ∧ after = host := by
  simp only [get, Path.done_iff, Prod.mk.injEq]

theorem path_modify_iff {change : Host → Host} {exit : Exit Unit} :
    Path (modify change host) events (exit, after) ↔
      events = [] ∧ exit = .value () ∧ after = change host := by
  simp only [modify, Path.done_iff, Prod.mk.injEq]

theorem path_ofProgram_iff {program : Program α} {exit : Exit α} :
    Path (ofProgram program host) events (exit, after) ↔
      after = host ∧ ∃ value, exit = .value value ∧ Path program events value := by
  constructor
  · intro h
    obtain ⟨before, _, value, rfl, g, last⟩ := Path.bind_iff.1 h
    obtain ⟨rfl, last⟩ := Path.done_iff.1 last
    cases last
    exact ⟨rfl, value, rfl, by simpa using g⟩
  · rintro ⟨rfl, value, rfl, h⟩
    exact Path.bind_iff.2 ⟨events, [], value, (List.append_nil _).symm, h, .done _⟩

/-- A call is one event. Without a reply it panics. -/
theorem path_call_iff {c : Call} {exit : Exit c.Reply} :
    Path (call c host) events (exit, after) ↔
      after = host ∧
        ((∃ reply, exit = .value reply ∧ events = [⟨.call c, some reply⟩]) ∨
          (exit = .panic ∧ events = [⟨.call c, none⟩])) := by
  constructor
  · intro h
    obtain ⟨_, _, answer, rfl, g, last⟩ := Path.bind_iff.1 h
    obtain rfl := Path.question_iff.1 g
    cases answer with
    | some reply =>
      cases last
      exact ⟨rfl, .inl ⟨reply, rfl, rfl⟩⟩
    | none =>
      cases last
      exact ⟨rfl, .inr ⟨rfl, rfl⟩⟩
  · rintro ⟨rfl, ⟨reply, rfl, rfl⟩ | ⟨rfl, rfl⟩⟩
    · exact Path.bind_iff.2 ⟨_, [], some reply, rfl, Path.question_iff.2 rfl, .done _⟩
    · exact Path.bind_iff.2 ⟨_, [], none, rfl, Path.question_iff.2 rfl, .done _⟩

theorem path_bind_iff {first : Action α} {next : α → Action β} {exit : Exit β} :
    Path ((first >>= next) host) events (exit, after) ↔
      (∃ before rest value middle, events = before ++ rest ∧
          Path (first host) before (.value value, middle) ∧
          Path (next value middle) rest (exit, after)) ∨
        (∃ cause, exit = .error cause ∧ Path (first host) events (.error cause, after)) ∨
        (exit = .panic ∧ Path (first host) events (.panic, after)) := by
  constructor
  · intro h
    obtain ⟨before, rest, ⟨middleExit, middle⟩, rfl, g, last⟩ := Path.bind_iff.1 h
    cases middleExit with
    | value value => exact .inl ⟨before, rest, value, middle, rfl, g, last⟩
    | error cause =>
      cases last
      exact .inr (.inl ⟨cause, rfl, by simpa using g⟩)
    | panic =>
      cases last
      exact .inr (.inr ⟨rfl, by simpa using g⟩)
  · rintro (⟨before, rest, value, middle, rfl, h, g⟩ | ⟨cause, rfl, h⟩ | ⟨rfl, h⟩)
    · exact Path.bind_iff.2 ⟨before, rest, _, rfl, h, g⟩
    · exact Path.bind_iff.2 ⟨events, [], _, (List.append_nil _).symm, h, .done _⟩
    · exact Path.bind_iff.2 ⟨events, [], _, (List.append_nil _).symm, h, .done _⟩

theorem path_attempt_iff {action : Action α} {exit : Exit (Except Error α)} :
    Path (attempt action host) events (exit, after) ↔
      (∃ value, exit = .value (.ok value) ∧ Path (action host) events (.value value, after)) ∨
        (∃ cause, exit = .value (.error cause) ∧
          Path (action host) events (.error cause, after)) ∨
        (exit = .panic ∧ Path (action host) events (.panic, after)) := by
  constructor
  · intro h
    obtain ⟨before, rest, ⟨middleExit, middle⟩, rfl, g, last⟩ := Path.bind_iff.1 h
    cases middleExit with
    | value value =>
      cases last
      exact .inl ⟨value, rfl, by simpa using g⟩
    | error cause =>
      cases last
      exact .inr (.inl ⟨cause, rfl, by simpa using g⟩)
    | panic =>
      cases last
      exact .inr (.inr ⟨rfl, by simpa using g⟩)
  · rintro (⟨value, rfl, h⟩ | ⟨cause, rfl, h⟩ | ⟨rfl, h⟩)
    · exact Path.bind_iff.2 ⟨events, [], _, (List.append_nil _).symm, h, .done _⟩
    · exact Path.bind_iff.2 ⟨events, [], _, (List.append_nil _).symm, h, .done _⟩
    · exact Path.bind_iff.2 ⟨events, [], _, (List.append_nil _).symm, h, .done _⟩

end DocGuard.Action
