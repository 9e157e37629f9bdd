import DocGuard.Host.Path
import DocGuard.Proofs.Engine.Exchanges

/-! Actions as a sequence of calls: binds associate, so that every action is a call with what
follows it, and a path through it is that call and a path through what follows. -/
namespace DocGuard

protected theorem Program.bind_assoc {α β γ : Type} (first : Program α) (second : α → Program β)
    (third : β → Program γ) :
    (first.bind second).bind third = first.bind fun value => (second value).bind third := by
  induction first with
  | done value => rfl
  | ask q next ih =>
    simp only [Program.bind]
    congr 1
    funext answer
    exact ih answer

def Exit.map {α β : Type} (f : α → β) : Exit α → Exit β
  | value v => .value (f v)
  | error cause => .error cause
  | panic => .panic

namespace Action
open Program
variable {α β γ : Type} {host after : Host} {events : List Event}

protected theorem bind_assoc (first : Action α) (second : α → Action β) (third : β → Action γ) :
    (first >>= second) >>= third = first >>= fun value => second value >>= third := by
  funext host
  refine (Program.bind_assoc _ _ _).trans ?_
  refine congrArg ((first host).bind ·) ?_
  funext ⟨exit, middle⟩
  cases exit <;> rfl

@[simp] theorem ofExcept_ok (value : α) : ofExcept (.ok value) = Pure.pure value := rfl

@[simp] theorem ofExcept_error (cause : Error) :
    (ofExcept (.error cause) : Action α) = fail cause := rfl

@[simp] theorem fail_bind (cause : Error) (next : α → Action β) :
    fail cause >>= next = fail cause := rfl

@[simp] theorem pure_bind (value : α) (next : α → Action β) :
    Pure.pure value >>= next = next value := rfl

theorem get_bind (next : Host → Action α) (host : Host) :
    (get >>= next) host = next host host := rfl

theorem path_return_iff {value : α} {exit : Exit α} :
    Path ((Pure.pure value : Action α) host) events (exit, after) ↔
      events = [] ∧ exit = .value value ∧ after = host :=
  path_pure_iff

theorem path_bind_return {action : Action α} {f : α → β} {exit : Exit β}
    (h : Path ((action >>= fun value => Pure.pure (f value)) host) events (exit, after)) :
    ∃ ended, Path (action host) events (ended, after) ∧ exit = ended.map f := by
  rcases path_bind_iff.1 h with ⟨before, rest, value, middle, rfl, first, last⟩ |
    ⟨cause, rfl, first⟩ | ⟨rfl, first⟩
  · obtain ⟨rfl, rfl, rfl⟩ := path_return_iff.1 last
    exact ⟨.value value, by simpa using first, rfl⟩
  · exact ⟨.error cause, first, rfl⟩
  · exact ⟨.panic, first, rfl⟩

private theorem path_ofProgram_bind_iff {program : Program α} {next : α → Action β}
    {exit : Exit β} :
    Path ((ofProgram program >>= next) host) events (exit, after) ↔
      ∃ before rest value, events = before ++ rest ∧ Path program before value ∧
        Path (next value host) rest (exit, after) := by
  simp only [path_bind_iff, path_ofProgram_iff]
  constructor
  · rintro (⟨before, rest, value, middle, rfl, ⟨rfl, _, same, h⟩, g⟩ | ⟨_, _, _, _, h, _⟩ |
      ⟨_, _, _, h, _⟩)
    · cases same
      exact ⟨before, rest, value, rfl, h, g⟩
    · cases h
    · cases h
  · rintro ⟨before, rest, value, rfl, h, g⟩
    exact .inl ⟨before, rest, value, host, rfl, ⟨rfl, value, rfl, h⟩, g⟩

theorem path_call_bind_iff {c : Call} {next : c.Reply → Action α} {exit : Exit α} :
    Path ((call c >>= next) host) events (exit, after) ↔
      (∃ reply rest, events = .replied c reply :: rest ∧
          Path (next reply host) rest (exit, after)) ∨
        (exit = .panic ∧ after = host ∧ events = [.unanswered c]) := by
  simp only [path_bind_iff, path_call_iff]
  constructor
  · rintro (⟨_, rest, reply, _, rfl, ⟨rfl, ⟨_, same, rfl⟩ | ⟨absurd, _⟩⟩, h⟩ |
      ⟨_, _, _, ⟨_, h, _⟩ | ⟨h, _⟩⟩ | ⟨rfl, rfl, ⟨_, h, _⟩ | ⟨_, rfl⟩⟩)
    · cases same
      exact .inl ⟨reply, rest, rfl, h⟩
    · cases absurd
    · cases h
    · cases h
    · cases h
    · exact .inr ⟨rfl, rfl, rfl⟩
  · rintro (⟨reply, rest, rfl, h⟩ | ⟨rfl, rfl, rfl⟩)
    · exact .inl ⟨[.replied c reply], rest, reply, host, rfl, ⟨rfl, .inl ⟨reply, rfl, rfl⟩⟩, h⟩
    · exact .inr (.inr ⟨rfl, rfl, .inr ⟨trivial, rfl⟩⟩)

/-- A look for a file is one event. -/
theorem path_fileExists_bind_iff {path : String} {next : Bool → Action α} {exit : Exit α} :
    Path ((ofProgram (.fileExists path) >>= next) host) events (exit, after) ↔
      ∃ found rest, events = .looked path found :: rest ∧
        Path (next found host) rest (exit, after) := by
  refine path_ofProgram_bind_iff.trans ?_
  constructor
  · rintro ⟨_, rest, found, rfl, look, h⟩
    obtain rfl := Path.question_iff.1 look
    exact ⟨found, rest, rfl, h⟩
  · rintro ⟨found, rest, rfl, h⟩
    exact ⟨_, rest, found, rfl, Path.question_iff.2 rfl, h⟩

/-- A record in the log is one event. -/
theorem path_log_bind_iff {level : LogLevel} {text : String} {next : Unit → Action α}
    {exit : Exit α} :
    Path ((log level text >>= next) host) events (exit, after) ↔
      ∃ rest, events = ⟨.log ⟨level, text⟩, ()⟩ :: rest ∧
        Path (next () host) rest (exit, after) := by
  refine path_ofProgram_bind_iff.trans ?_
  constructor
  · rintro ⟨_, rest, _, rfl, record, h⟩
    obtain rfl := Path.question_iff.1 record
    exact ⟨rest, rfl, h⟩
  · rintro ⟨rest, rfl, h⟩
    exact ⟨_, rest, (), rfl, Path.question_iff.2 rfl, h⟩

end Action

def Run.attempted {σ α : Type} (run : Run σ (Exit α × Host)) :
    Run σ (Exit (Except Error α) × Host) :=
  { run with
    value := match run.value with
      | (.value value, after) => (.value (.ok value), after)
      | (.error cause, after) => (.value (.error cause), after)
      | (.panic, after) => (.panic, after) }

theorem World.run_attempt {σ α : Type} (w : World σ) (state : σ) (files : FileTree)
    (action : Action α) (host : Host) :
    w.run state files (action.attempt host) = (w.run state files (action host)).attempted := by
  have bound : w.run state files (action.attempt host) =
      w.run state files ((action host).bind _) := rfl
  rw [bound, World.run_bind]
  generalize w.run state files (action host) = inner
  rcases inner with ⟨⟨value | cause | _, after⟩, state, files, events⟩
  all_goals simp [World.run, Pure.pure, Run.attempted]

/-- An action whose value is mapped runs as the action does. -/
theorem World.run_bind_pure {σ α β : Type} (w : World σ) (state : σ) (files : FileTree)
    (action : Action α) (further : α → β) (host : Host) :
    w.run state files ((action >>= fun value => (Pure.pure (further value) : Action β)) host) =
      let ran := w.run state files (action host)
      { ran with value := (ran.value.1.map further, ran.value.2) } := by
  have bound : w.run state files ((action >>= fun value => Pure.pure (further value)) host) =
      w.run state files ((action host).bind _) := rfl
  rw [bound, World.run_bind]
  generalize w.run state files (action host) = ran
  obtain ⟨⟨value | cause | _, after⟩, state, files, events⟩ := ran
  all_goals simp [World.run, Pure.pure, Action.pure, Exit.map]

end DocGuard
