import DocGuard.Proofs.Request.Course

/-! Fatal errors: the execution of a request fails for no other reason than a commit that tells of a
failure and leaves a file behind. Every other error is an ordinary failure in the report. -/
namespace DocGuard

/-- No collaborator reports an error of integrity, with the exception of the provider of
credentials. -/
def World.KeepsIntegrity {σ : Type} (w : World σ) : Prop :=
  ∀ state files c reply cause, (w.reply state files c).1 = some reply →
    (∀ request, c ≠ .acquireToken request) → c.failure reply = some cause → cause.isFatal = false

namespace Schedule
open Program
variable {r : Request} {o : RunOptions} {k next last : Known} {host : Host} {stage : Stage}
  {stages : List Stage} {xs before rest : List Event} {e : Event} {c : Call}
  {d : DocumentHandle} {p : String} {exit : Exit Outcome} {cause : Error}

private theorem failureIn_of_learn {α : Type} {result : Except Error α} {f : α → Known}
    (h : Known.learn result f = .error (.error cause)) : failureIn result = some cause := by
  obtain ⟨_, rfl, same⟩ := Known.learn_eq_error.1 h
  cases same
  rfl

private theorem asAuthentication_isFatal : cause.asAuthentication.isFatal = false := by
  cases cause <;> rfl

/-- The fatal errors that stages end with are errors that a collaborator reports. -/
theorem judge_fatal {reply : c.Reply} (judged : stage.judge k c reply = .error (.error cause))
    (fatal : cause.isFatal = true) :
    (∀ request, c ≠ .acquireToken request) ∧ c.failure reply = some cause := by
  unfold Stage.judge at judged
  split at judged
  case h_1 _ result =>
    rcases result with failed | _ <;> cases judged
    rw [asAuthentication_isFatal] at fatal
    cases fatal
  case h_7 =>
    obtain ⟨_, failed, same⟩ := Known.learn_eq_error.1 judged
    cases same
    rw [derive_error failed] at fatal
    cases fatal
  case h_8 _ result =>
    rcases result with (_ | policy) | _ | _
    case succeeded.some =>
      simp only [Completion.result] at judged
      split at judged <;> cases judged
      cases fatal
    all_goals cases judged
    all_goals exact ⟨by simp, rfl⟩
  case h_10 _ _ result =>
    rcases result with (_ | _) | _ | _ <;> cases judged
    · cases fatal
    all_goals exact ⟨by simp, rfl⟩
  case h_16 _ flag => cases flag <;> cases judged
  case h_17 _ _ result =>
    rcases result with (_ | _) | _ | _ <;> cases judged
    · cases fatal
    all_goals exact ⟨by simp, rfl⟩
  case h_2 | h_18 | h_19 => cases judged
  all_goals exact ⟨by simp, failureIn_of_learn judged⟩

/-- A run that ends with a fatal error that nobody reports found a file where none may be. -/
theorem Follows.fatal (h : Follows r o k stages xs (.error cause)) (fatal : cause.isFatal = true)
    (honest : ∀ c reply, .replied c reply ∈ xs → (∀ request, c ≠ .acquireToken request) →
      c.failure reply ≠ some cause) :
    ∃ before d p, xs = before ++ [.replied (.commit d p) (.succeeded false), .looked p true] ∧
      cause = .commitIntegrity p := by
  rcases h.ending with ⟨_, _, _, _, absurd⟩ |
    ⟨passed, stage, later, before, tail, known, -, rfl, -, stops⟩
  · cases absurd
  cases stops with
  | unready _ cause work ordinary =>
    rw [ordinary] at fatal
    cases fatal
  | refused _ c reply exit inner due judged =>
    obtain ⟨other, failed⟩ := judge_fatal judged fatal
    exact (honest c reply (by simp) other failed).elim
  | commitFailed d output reply cause found due failed =>
    exact (honest (.commit d output) reply (by simp) nofun (failureIn_eq_some.2 failed)).elim
  | leftFile d output due => exact ⟨before, d, output, rfl, rfl⟩
  | nothingWritten d output due => cases fatal

/-- A commit that tells that it failed ends the run with a look for a file. -/
theorem Follows.failedCommit
    (h : Follows r o k stages (before ++ .replied (.commit d p) (.succeeded false) :: rest) exit) :
    rest = [.looked p true] ∧ exit = .error (.commitIntegrity p) ∨
      rest = [.looked p false] ∧ exit = .error (.engine .nothingWritten) := by
  obtain ⟨passed, stage, later, known, -, -, due, ends⟩ := h.split rfl
  obtain ⟨rfl, -⟩ := Stage.due_commit due
  rcases ends with ⟨_, next, same, judged, -⟩ | stops
  · cases same
    cases judged
  · cases stops with
    | refused _ c reply exit inner => exact (inner rfl).elim
    | commitFailed d output reply cause found due failed => cases failed
    | leftFile d output due => exact .inl ⟨rfl, rfl⟩
    | nothingWritten d output due => exact .inr ⟨rfl, rfl⟩

theorem Follows.panicked (h : Follows r o k stages xs .panic) : ∃ c, .unanswered c ∈ xs := by
  rcases h.ending with ⟨_, _, _, _, absurd⟩ |
    ⟨passed, stage, later, before, tail, known, -, rfl, -, stops⟩
  · cases absurd
  cases stops with
  | panicked _ c due => exact ⟨c, by simp⟩
  | refused _ c reply exit inner due judged => exact (Stage.judge_ne_panic due judged).elim

/-- In a world the execution of a request ends as its run does, and has the same exchanges. -/
theorem run_execute {σ : Type} (w : World σ) (state : σ) (files : FileTree) :
    (w.run state files (r.execute o host)).value.1 =
        reported r (w.run state files (r.run o host)).value.1 ∧
      exchanges (w.run state files (r.execute o host)).events =
        exchanges (w.run state files (r.run o host)).events := by
  have bound : w.run state files (r.execute o host) =
      w.run state files (((r.run o).attempt host).bind _) := rfl
  rw [bound, World.run_bind, World.run_attempt]
  generalize w.run state files (r.run o host) = inner
  rcases inner with ⟨⟨value | cause | _, after⟩, state, files, events⟩
  · exact ⟨rfl, (exchanges_append events _).trans (List.append_nil _)⟩
  · by_cases fatal : cause.isFatal = true
    · simp [Run.attempted, reported, fatal, World.run, Action.fail]
    · simp only [Run.attempted, reported, fatal]
      exact ⟨rfl, (exchanges_append events _).trans (List.append_nil _)⟩
  · exact ⟨rfl, (exchanges_append events _).trans (List.append_nil _)⟩

private theorem reported_eq_error {exit : Exit Outcome} :
    reported r exit = .error cause ↔ exit = .error cause ∧ cause.isFatal = true := by
  cases exit with
  | value outcome => simp [reported]
  | error other =>
    by_cases fatal : other.isFatal = true
    · simp only [reported, fatal, if_true, Exit.error.injEq]
      constructor
      · rintro rfl
        exact ⟨rfl, fatal⟩
      · exact And.left
    · simp only [reported, fatal, Exit.error.injEq]
      constructor
      · exact nofun
      · rintro ⟨rfl, absurd⟩
        exact (fatal absurd).elim
  | panic => simp [reported]

section Run
variable {σ : Type} {w : World σ} {state : σ} {files : FileTree}

theorem follows_execute : Follows r o (Known.initial r host) (ofRequest r host)
    (exchanges (w.run state files (r.execute o host)).events)
    (w.run state files (r.run o host)).value.1 := by
  rw [(run_execute w state files).2]
  exact keeps_run _ _ _ (w.path_run state files (r.run o host))

private theorem honest_execute (honest : w.KeepsIntegrity) {reply : c.Reply}
    (fatal : cause.isFatal = true)
    (mem : .replied c reply ∈ exchanges (w.run state files (r.execute o host)).events)
    (other : ∀ request, c ≠ .acquireToken request) : c.failure reply ≠ some cause := by
  intro failed
  obtain ⟨state, files, given⟩ := w.reply_of_run _ _ _ (mem_of_mem_exchanges mem)
  rw [honest state files c reply cause given other failed] at fatal
  cases fatal

theorem found_of_run {found : Bool}
    (whole : (w.run state files (r.execute o host)).events =
      before ++ .replied (.commit d p) (.succeeded false) :: rest)
    (looks : exchanges rest = [.looked p found]) :
    (w.after state files (before ++ [.replied (.commit d p) (.succeeded false)])).2.pathExists p =
      found :=
  w.look_of_run state files _ whole looks

private theorem execute_error_iff (honest : w.KeepsIntegrity) :
    (w.run state files (r.execute o host)).value.1 = .error cause ↔ ∃ before rest d p,
      (w.run state files (r.execute o host)).events =
        before ++ .replied (.commit d p) (.succeeded false) :: rest ∧
      (w.after state files (before ++ [.replied (.commit d p) (.succeeded false)])).2.pathExists p
        = true ∧ cause = .commitIntegrity p := by
  have follows : Follows r o _ _ (exchanges (w.run state files (r.execute o host)).events) _ :=
    follows_execute
  rw [(run_execute w state files).1, reported_eq_error]
  constructor
  · rintro ⟨failed, fatal⟩
    rw [failed] at follows
    obtain ⟨quiet, d, p, whole, rfl⟩ := follows.fatal fatal fun c reply mem other =>
      honest_execute honest fatal mem other
    -- the two exchanges stand among events that are none
    obtain ⟨before, tail, same, -, looks⟩ := List.filter_eq_append_iff.1 whole
    obtain ⟨silent, rest, rfl, nothing, -, looks⟩ := List.filter_eq_cons_iff.1 looks
    have whole : (w.run state files (r.execute o host)).events =
        before ++ silent ++ .replied (.commit d p) (.succeeded false) :: rest := by simp [same]
    exact ⟨before ++ silent, rest, d, p, whole, found_of_run whole looks, rfl⟩
  · rintro ⟨before, rest, d, p, whole, found, rfl⟩
    rw [whole, exchanges_append, exchanges_call] at follows
    rcases follows.failedCommit with ⟨-, failed⟩ | ⟨looks, -⟩
    · exact ⟨failed, rfl⟩
    · rw [found_of_run whole looks] at found
      cases found

/-- An execution that does not fail reports what the run returns, or fails with. -/
theorem execute_reports (ordinary : ∀ cause, (w.run state files (r.execute o host)).value.1 ≠
      .error cause) :
    ((w.run state files (r.execute o host)).value.1 = .panic ∧
        ∃ c, .unanswered c ∈ (w.run state files (r.execute o host)).events) ∨
      ∃ outcome, (w.run state files (r.execute o host)).value.1 =
          .value ⟨r.operation.kind, r.source, outcome⟩ ∧
        ((w.run state files (r.run o host)).value.1 = .value outcome ∨
          ∃ cause, (w.run state files (r.run o host)).value.1 = .error cause ∧
            outcome = .failed cause.message) := by
  have follows : Follows r o _ _ (exchanges (w.run state files (r.execute o host)).events) _ :=
    follows_execute
  have ends : (w.run state files (r.execute o host)).value.1 = reported r _ :=
    (run_execute w state files).1
  cases exit : (w.run state files (r.run o host)).value.1 with
  | value outcome =>
    rw [exit] at ends
    exact .inr ⟨outcome, ends, .inl rfl⟩
  | error cause =>
    rw [exit] at ends
    have survives : cause.isFatal = false := by
      cases fatal : cause.isFatal with
      | false => rfl
      | true => exact (ordinary cause (ends.trans (reported_eq_error.2 ⟨rfl, fatal⟩))).elim
    refine .inr ⟨.failed cause.message, ?_, .inr ⟨cause, rfl, rfl⟩⟩
    rw [ends, reported]
    simp [survives]
  | panic =>
    rw [exit] at ends follows
    obtain ⟨c, mem⟩ := follows.panicked
    exact .inl ⟨ends, c, mem_of_mem_exchanges mem⟩

private theorem execute_failedCommit (honest : w.KeepsIntegrity) {reply : Completion Bool}
    (whole : (w.run state files (r.execute o host)).events =
      before ++ .replied (.commit d p) reply :: rest) (failed : reply.result = .error cause) :
    (w.run state files (r.execute o host)).value.1 =
      .value ⟨r.operation.kind, r.source, .failed cause.message⟩ := by
  have follows : Follows r o _ _ (exchanges (w.run state files (r.execute o host)).events) _ :=
    follows_execute
  rw [whole, exchanges_append, exchanges_call] at follows
  have reports : (Event.replied (.commit d p) reply).failure? = some cause :=
    failureIn_eq_some.2 failed
  obtain ⟨c, called, exit, -⟩ := follows.failure reports
  cases called
  have survives : cause.isFatal = false := by
    cases fatal : cause.isFatal with
    | false => rfl
    | true =>
      have mem : .replied (.commit d p) reply ∈
          exchanges (w.run state files (r.execute o host)).events := by simp [whole]
      exact (honest_execute honest fatal mem nofun (failureIn_eq_some.2 failed)).elim
  rw [(run_execute w state files).1, exit, reported]
  simp [Call.blame, survives]

end Run

end Schedule

/-- The execution of a request fails exactly if a commit completes with false and leaves a file at
its path, and then with an error of integrity. Else, unless a collaborator panics, it reports what
its run returns, or fails with; a commit that completes with an error is an ordinary failure. -/
theorem World.execute_fails_iff {σ : Type} (w : World σ) (honest : w.KeepsIntegrity) (state : σ)
    (files : FileTree) (r : Request) (o : RunOptions) (host : Host) :
    let run := w.run state files (r.execute o host)
    let inner := w.run state files (r.run o host)
    (∀ cause, run.value.1 = .error cause ↔ ∃ before rest d p,
        run.events = before ++ .replied (.commit d p) (.succeeded false) :: rest ∧
        (w.after state files (before ++ [.replied (.commit d p) (.succeeded false)])).2.pathExists p
          = true ∧ cause = .commitIntegrity p) ∧
      ((∀ cause, run.value.1 ≠ .error cause) →
        (run.value.1 = .panic ∧ ∃ c, .unanswered c ∈ run.events) ∨
          ∃ outcome, run.value.1 = .value ⟨r.operation.kind, r.source, outcome⟩ ∧
            (inner.value.1 = .value outcome ∨
              ∃ cause, inner.value.1 = .error cause ∧ outcome = .failed cause.message)) ∧
      ∀ before rest d p reply cause, run.events = before ++ .replied (.commit d p) reply :: rest →
        reply.result = .error cause →
        run.value.1 = .value ⟨r.operation.kind, r.source, .failed cause.message⟩ := by
  refine ⟨fun cause => Schedule.execute_error_iff honest, Schedule.execute_reports, ?_⟩
  intro before rest d p reply cause whole failed
  exact Schedule.execute_failedCommit honest whole failed

theorem World.obliging_keepsIntegrity (protection : Option Policy) (written : Bool) :
    (World.obliging protection written).KeepsIntegrity := by
  intro state files c reply cause given other failed
  cases c <;> cases given <;> cases failed

/-- A commit that tells that it wrote nothing, where a file stands at its path. -/
theorem World.obliging_execute_fails :
    let w := World.obliging (some { granted := ["EXPORT"] }) false
    let files : FileTree :=
      { entries := [(["tmp"], .directory), (["tmp", "documents"], .directory),
          (["tmp", "documents", "report_modified.docx"], .file [])] }
    let r := (Request.unprotect "report.docx" "app").withToken "token"
    let run := w.run () files (r.execute {} {})
    w.KeepsIntegrity ∧ run.value.1 = .error (.commitIntegrity "report_modified.docx") ∧
      ∃ before rest d p,
        run.events = before ++ .replied (.commit d p) (.succeeded false) :: rest ∧
        (w.after () files (before ++ [.replied (.commit d p) (.succeeded false)])).2.pathExists p
          = true ∧ Error.commitIntegrity "report_modified.docx" = .commitIntegrity p := by
  intro w files r run
  have honest : w.KeepsIntegrity := World.obliging_keepsIntegrity _ _
  have failed : run.value.1 = .error (.commitIntegrity "report_modified.docx") := by
    decide +kernel
  exact ⟨honest, failed, ((w.execute_fails_iff honest () files r {} {}).1 _).1 failed⟩

end DocGuard
