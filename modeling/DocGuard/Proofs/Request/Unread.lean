import DocGuard.Proofs.Request.HandOver

/-! Requests whose document is to be read into memory and cannot be read. Such a request is over
with that error. It has done what comes before the reading, and no engine has seen the document. -/
namespace DocGuard
open Program DocGuard.Action
variable {σ α β : Type} {w : World σ} {state : σ} {files : FileTree} {host after : Host}
  {o : RunOptions} {r : Request} {path : String} {engaging : Bool} {cause : FileError}

/-- The file cannot be read when a request comes to it. -/
def World.CannotRead (w : World σ) (state : σ) (files : FileTree) (r : Request) (engaging : Bool)
    (host after : Host) (cause : FileError) : Prop :=
  let before := w.run state files (r.beforeReading engaging host)
  before.value = (.value (), after) ∧ before.files.read r.source = .error cause

/-- A run that is over when its document turns out not to be readable. It ends so, and has done only
what comes before the reading: the last call made the engine, if there is one to be made, and
the document was not handed over. -/
structure Run.StopsUnread (run : Run σ (Exit α × Host)) (before : Run σ β) (engaging : Bool)
    (ended : Exit α × Host) : Prop where
  value : run.value = ended
  outside : (run.state, run.files) = (before.state, before.files)
  calls : run.calls = before.calls
  last :
    if engaging then ∃ first profile settings, run.calls = first ++ [.addEngine profile settings]
    else run.calls = []
  silent : ∀ c ∈ run.calls, c.source? = none

/-- A run that ends with the reading of a file that cannot be read. -/
def Run.unread (before : Run σ β) (path : String) (cause : FileError) (ended : Exit α × Host) :
    Run σ (Exit α × Host) :=
  ⟨ended, before.state, before.files, before.events ++ [⟨.readFile path, .error cause⟩]⟩

private theorem World.run_prepareSource_unread (w : World σ)
    (unread : files.read path = .error cause)
    (further : Source → Action α) :
    w.run state files (((o.loading true).prepareSource path >>= further) host) =
      ⟨(.error (.io cause), host), state, files, [⟨.readFile path, .error cause⟩]⟩ := by
  rw [RunOptions.prepareSource_bind rfl]
  simp only [World.run, World.answer, unread]

private theorem World.last_call_beforeReading
    (ended : (w.run state files (r.beforeReading engaging host)).value = (.value (), after)) :
    let before := w.run state files (r.beforeReading engaging host)
    if engaging then ∃ first profile settings, before.calls = first ++ [.addEngine profile settings]
      else before.calls = [] := by
  intro before
  have valid := validate_of_beforeReading ended
  cases engaging with
  | false =>
    simp only [before, Request.beforeReading, valid, ofExcept_ok, Action.pure_bind]
    rfl
  | true =>
    simp only [before, World.run_beforeReading w valid] at ended ⊢
    have path := w.path_run state files (r.createEngine host)
    generalize w.run state files (r.createEngine host) = made at ended path ⊢
    obtain ⟨⟨engine | cause | _, _⟩, state, files, events⟩ := made
    · obtain ⟨first, ⟨_, answer⟩, rfl, profile, settings, rfl⟩ := asksLast_createEngine _ _ _ _ path
      refine ⟨first.filterMap Event.call?, profile, settings, ?_⟩
      simp [Run.calls_eq_call?, Event.call?]
    · cases ended
    · cases ended

section Unreadable

theorem World.CannotRead.stopsUnread (unread : w.CannotRead state files r engaging host after cause)
    (ended : Exit α × Host) :
    let before := w.run state files (r.beforeReading engaging host)
    (before.unread r.source cause ended).StopsUnread before engaging ended := by
  intro before
  have calls : (before.unread r.source cause ended).calls = before.calls := by
    simp [Run.unread, Run.calls_eq_call?, Event.call?]
  refine ⟨rfl, rfl, calls, ?_, fun c among => ?_⟩
  · rw [calls]
    exact World.last_call_beforeReading unread.1
  · rw [calls, Run.calls_eq_call?] at among
    obtain ⟨⟨question, answer⟩, mem, called⟩ := List.mem_filterMap.1 among
    cases question <;> cases called
    exact (asks_beforeReading host).of_path (w.path_run state files _) _ mem

private theorem World.CannotRead.run_engaged
    (unread : w.CannotRead state files r true host after cause)
    (further : EngineHandle → Source → Action α) :
    w.run state files ((r.createEngine >>= fun engine =>
        (o.loading true).prepareSource r.source >>= further engine) host) =
      (w.run state files (r.beforeReading true host)).unread r.source cause
        (.error (.io cause), after) := by
  obtain ⟨ended, read⟩ := unread
  have valid := validate_of_beforeReading ended
  have bound : w.run state files ((r.createEngine >>= fun engine =>
      (o.loading true).prepareSource r.source >>= further engine) host) =
      w.run state files ((r.createEngine host).bind _) := rfl
  simp only [World.run_beforeReading w valid] at ended read ⊢
  rw [bound, World.run_bind]
  generalize w.run state files (r.createEngine host) = made at ended read ⊢
  obtain ⟨⟨engine | cause | _, _⟩, state, files, events⟩ := made
  · cases ended
    simp only [World.run_prepareSource_unread w read, Run.unread]
  · cases ended
  · cases ended

theorem World.CannotRead.run_describe (unread : w.CannotRead state files r true host after cause) :
    w.run state files (r.describe (o.loading true) host) =
      (w.run state files (r.beforeReading true host)).unread r.source cause
        (.error (.io cause), after) := by
  rw [Request.describe_eq (validate_of_beforeReading unread.1)]
  exact unread.run_engaged _

variable (unread : w.CannotRead state files r r.operation.isMutating host after cause)
include unread

theorem World.CannotRead.run_run :
    w.run state files (r.run (o.loading true) host) =
      (w.run state files (r.beforeReading r.operation.isMutating host)).unread r.source cause
        (.error (.io cause), after) := by
  have valid := validate_of_beforeReading unread.1
  by_cases inspects : r.operation = .inspect
  · obtain ⟨ended, read⟩ := unread
    simp only [Request.beforeReading, valid, inspects, ofExcept_ok, Action.pure_bind]
      at ended read ⊢
    obtain rfl : host = after := congrArg Prod.snd ended
    simp only [Request.run, valid, ofExcept_ok, Action.pure_bind, inspects, Request.inspectPath,
      Action.bind_assoc]
    exact w.run_prepareSource_unread read _
  · rw [Operation.isMutating_of_ne inspects] at unread ⊢
    obtain ⟨finish, -, same⟩ := Request.run_eq valid inspects (o := o)
    rw [same true]
    exact unread.run_engaged _

theorem World.CannotRead.run_execute :
    w.run state files (r.execute (o.loading true) host) =
      (w.run state files (r.beforeReading r.operation.isMutating host)).unread r.source cause
        (.value ⟨r.operation.kind, r.source, .failed (Error.io cause).message⟩, after) := by
  rw [Request.execute_eq, World.run_bind, World.run_attempt, unread.run_run]
  simp [Run.unread, Run.attempted, Request.conclude, Error.isFatal, World.run, Pure.pure,
    Action.pure]

end Unreadable

end DocGuard
