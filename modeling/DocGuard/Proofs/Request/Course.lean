import DocGuard.Proofs.Request.Passage
import DocGuard.Proofs.Request.Steps

/-! The course of a request: its run follows the schedule of its operation, whatever the
collaborators reply. -/
namespace DocGuard.Schedule
open Program DocGuard.Action
variable {r : Request} {o : RunOptions} {k : Known} {host : Host}

/-- What the run knows when the document of the request is open and may be exported. -/
structure Opened (r : Request) (target : Target) (k : Known) : Prop where
  engine : k.engine = some target.engine
  document : k.document = some target.document
  output : k.output = some target.output
  status : k.status = target.status
  asked : r.operation = .unprotect → target.status.isSome

private theorem performs_statusFor {source : Source} (named : source.identifier = r.source)
    (fresh : k.status = none) :
    Performs r o k (if r.operation = .unprotect then [.contentStatus] else []) (r.statusFor source)
      host fun asked last _ => last.engine = k.engine ∧ last.status = asked.1 ∧
        asked.2.identifier = r.source ∧ (r.operation = .unprotect → asked.1.isSome) := by
  unfold Request.statusFor
  cases operation : r.operation with
  | unprotect =>
    refine performs_bind (performs_queryStatus named) ?_
    rintro ⟨status, source⟩ _ middle ⟨rfl, same⟩
    exact performs_pure ⟨rfl, rfl, same, fun _ => rfl⟩
  | inspect | protect => exact performs_pure ⟨rfl, fresh, named, nofun⟩
  | setLabel id options => exact performs_pure ⟨rfl, fresh, named, nofun⟩
  | deleteLabel options => exact performs_pure ⟨rfl, fresh, named, nofun⟩

private theorem performs_openTarget :
    Performs r o (Known.initial r host) (opening r host) (r.openTarget o) host
      fun target last _ => Opened r target last := by
  have made : Performs r o (Known.initial r host) (engine r host) r.createEngine host
      fun engine last _ => last.engine = some engine ∧ last.status = none := by
    refine performs_createEngine rfl ?_ ?_
    · intro answer fixed
      simp only [Known.initial, fixed]
    · intro passing
      simp only [Known.initial, passing]
  unfold opening Request.openTarget
  rw [List.append_assoc]
  refine performs_bind made fun engine known middle ⟨ready, fresh⟩ => ?_
  refine performs_local_bind isLocal_prepareSource ?_ fun source middle named => ?_
  · split <;> exact ⟨_, _, rfl, rfl⟩
  refine performs_bind (performs_statusFor named fresh) ?_
  rintro ⟨status, source⟩ asked middle ⟨kept, learnt, named, present⟩
  have opens : Performs r o asked [.openSource] (o.openDocument engine source) middle
      fun d last after => last = { asked with document := some d } ∧ after = middle :=
    performs_ask ⟨engine, source, kept.trans ready, named, rfl⟩ (by decide) fun _ => rfl
  refine performs_bind opens ?_
  rintro d _ middle ⟨rfl, rfl⟩
  refine performs_call ⟨d, rfl, rfl⟩ (by decide) fun name => ?_
  simp only [Stage.judge]
  cases OutputPath.derive name with
  | error cause => exact .inr ⟨cause, rfl, rfl⟩
  | ok output =>
    refine .inl ⟨_, rfl, ?_⟩
    refine performs_bind (performs_checkRights rfl) ?_
    rintro _ _ middle rfl
    exact performs_pure ⟨kept.trans ready, rfl, rfl, learnt, present⟩

/-- A commit without a file is an ordinary failure; with one it is as the engine tells. -/
theorem keeps_write {d : DocumentHandle} {output : String} (document : k.document = some d)
    (named : k.output = some output) (mutating : r.operation ≠ .inspect) :
    Keeps r o k [.commit, .notifyCommit] (do
      match (← call (.commit d output)).result with
      | .ok true =>
        call (.notifyCommit d r.source)
        return .committed output
      | .ok false =>
        if ← ofProgram (.fileExists output) then fail (.commitIntegrity output)
        else fail (.engine .nothingWritten)
      | .error cause =>
        if ← ofProgram (.fileExists output) then
          log .warn ("Commit of " ++ r.source ++ " failed but left a file at " ++ output)
        fail cause) host := by
  have due : Stage.commit.Due r o k (.commit d output) := ⟨d, output, document, named, rfl⟩
  have failing : ∀ (reply : Completion Bool) (cause : Error) events exit after,
      reply.result = .error cause → Path ((do
        if ← ofProgram (.fileExists output) then
          log .warn ("Commit of " ++ r.source ++ " failed but left a file at " ++ output)
        fail cause : Action Outcome) host) events (exit, after) →
      Follows r o k [.commit, .notifyCommit] (.replied (.commit d output) reply :: exchanges events)
        exit := by
    intro reply cause events exit after failed path
    obtain ⟨found, rest, rfl, look⟩ := path_fileExists_bind_iff.1 path
    have ends : exchanges rest = [] ∧ exit = .error cause := by
      cases found with
      | true =>
        obtain ⟨rest, rfl, warned⟩ := path_log_bind_iff.1 look
        obtain ⟨rfl, rfl, rfl⟩ := path_fail_iff.1 warned
        exact ⟨rfl, rfl⟩
      | false =>
        obtain ⟨rfl, rfl, rfl⟩ := path_fail_iff.1 look
        exact ⟨rfl, rfl⟩
    obtain ⟨quiet, rfl⟩ := ends
    rw [exchanges_fileExists, quiet]
    exact .stop (.commitFailed d output reply cause found due failed)
  intro events exit after path
  rcases path_call_bind_iff.1 path with ⟨reply, rest, rfl, onward⟩ | ⟨rfl, rfl, rfl⟩
  case inr => exact .stop (.panicked _ _ due)
  cases reply with
  | failed cause => exact failing _ cause _ _ _ rfl onward
  | dropped => exact failing _ .cancelled _ _ _ rfl onward
  | succeeded written =>
    cases written with
    | true =>
      refine .pass (.commit d output) (.succeeded true) due rfl ?_
      have told : Keeps r o k [.notifyCommit]
          (call (.notifyCommit d r.source) >>= fun _ => Pure.pure (.committed output)) host := by
        refine keeps_call ⟨d, document, rfl⟩ nofun fun reply => .inl ⟨k, rfl, ?_⟩
        intro events exit after path
        obtain ⟨rfl, rfl, rfl⟩ := path_return_iff.1 path
        refine .finish ?_
        cases operation : r.operation <;> simp_all [Known.outcome?]
      exact told _ _ _ onward
    | false =>
      obtain ⟨found, rest, rfl, look⟩ := path_fileExists_bind_iff.1 onward
      cases found with
      | true =>
        obtain ⟨rfl, rfl, rfl⟩ := path_fail_iff.1 look
        exact .stop (.leftFile d output due)
      | false =>
        obtain ⟨rfl, rfl, rfl⟩ := path_fail_iff.1 look
        exact .stop (.nothingWritten d output due)

private theorem keeps_commit {d : DocumentHandle} {output : String} (document : k.document = some d)
    (named : k.output = some output) (mutating : r.operation ≠ .inspect) :
    Keeps r o k closing (d.commit output r.source) host := by
  refine keeps_call ⟨d, document, rfl⟩ nofun fun modified => ?_
  cases modified with
  | false => exact .inr ⟨_, rfl, rfl⟩
  | true => exact .inl ⟨k, rfl, keeps_write document named mutating⟩

private theorem startWithWork_opening : StartWithWork (opening r host) := by
  unfold opening engine
  rw [List.append_assoc, List.append_assoc, List.append_assoc]
  split
  · exact ⟨_, _, rfl, rfl⟩
  · rw [List.nil_append, ← List.append_assoc]
    exact startWithWork_loading.append _

private theorem startWithWork_ofRequest : StartWithWork (ofRequest r host) := by
  unfold ofRequest
  split
  · exact ⟨_, _, rfl, rfl⟩
  · rw [List.append_assoc]
    exact startWithWork_opening.append _

private theorem keeps_runUnprotect (operation : r.operation = .unprotect) :
    Keeps r o (Known.initial r host) (opening r host ++ .removeProtection :: closing)
      (r.runUnprotect o) host := by
  refine keeps_bind performs_openTarget fun target known middle opened => ?_
  have present := opened.asked operation
  have learnt := opened.status
  obtain ⟨status, asked⟩ := Option.isSome_iff_exists.1 present
  rw [asked] at learnt ⊢
  cases needed : status.needsUnprotect with
  | true =>
    simp only [Option.map_some, Option.getD_some, needed, if_true]
    refine keeps_ask ⟨target.document, status, opened.document, learnt, needed, rfl⟩ nofun
      (fun _ => rfl) fun _ => ?_
    exact keeps_commit opened.document opened.output (by simp [operation])
  | false =>
    intro events exit after path
    simp only [Option.map_some, Option.getD_some, needed] at path
    obtain ⟨rfl, rfl, rfl⟩ := path_return_iff.1 path
    exact .stop (.idle status learnt needed)

private theorem keeps_runProtect {path : String} (operation : r.operation = .protect) :
    Keeps r o (Known.initial r host)
      (opening r host ++ .openReference path :: .referencePolicy path :: .setProtection :: closing)
      (r.runProtect o path) host := by
  refine keeps_bind performs_openTarget fun target known middle opened => ?_
  refine keeps_bind (performs_referencePolicy opened.engine) ?_
  rintro policy _ middle ⟨reference, rfl⟩
  refine keeps_ask ⟨target.document, policy, opened.document, rfl, rfl⟩ nofun (fun _ => rfl)
    fun _ => ?_
  exact keeps_commit opened.document opened.output (by simp [operation])

private theorem keeps_runSetLabel {id : String} {options : LabelingOptions}
    (operation : r.operation = .setLabel id options) :
    Keeps r o (Known.initial r host)
      (opening r host ++ .labelById id :: .setLabel options :: closing)
      (r.runSetLabel o id options) host := by
  refine keeps_bind performs_openTarget fun target known middle opened => ?_
  refine keeps_ask ⟨target.engine, opened.engine, rfl⟩ nofun (fun _ => rfl) fun label => ?_
  refine keeps_ask ⟨target.document, label, opened.document, rfl, rfl⟩ nofun (fun _ => rfl)
    fun _ => ?_
  exact keeps_commit opened.document opened.output (by simp [operation])

private theorem keeps_runDeleteLabel {options : LabelingOptions}
    (operation : r.operation = .deleteLabel options) :
    Keeps r o (Known.initial r host) (opening r host ++ .deleteLabel options :: closing)
      (r.runDeleteLabel o options) host := by
  refine keeps_bind performs_openTarget fun target known middle opened => ?_
  refine keeps_ask ⟨target.document, opened.document, rfl⟩ nofun (fun _ => rfl) fun _ => ?_
  exact keeps_commit opened.document opened.output (by simp [operation])

private theorem keeps_inspectPath (operation : r.operation = .inspect) :
    Keeps r o k [.contentStatus] (do return .inspected (← Request.inspectPath o r.source))
      host := by
  simp only [Request.inspectPath, Action.bind_assoc]
  refine keeps_local_bind isLocal_prepareSource ⟨_, _, rfl, rfl⟩ fun source middle named => ?_
  refine keeps_bind (performs_queryStatus named) ?_
  rintro ⟨status, source⟩ _ middle ⟨rfl, -⟩
  intro events exit after path
  obtain ⟨rfl, rfl, rfl⟩ := path_return_iff.1 path
  exact .finish (by rw [operation]; rfl)

/-- A run follows the schedule of its request. -/
theorem keeps_run : Keeps r o (Known.initial r host) (ofRequest r host) (r.run o) host := by
  have valid : IsLocal (ofExcept r.validate) host fun _ after => after = host :=
    isLocal_ofExcept (fun _ => validate_error) fun _ _ => rfl
  refine keeps_local_bind valid startWithWork_ofRequest ?_
  rintro _ host rfl
  unfold ofRequest change
  cases operation : r.operation with
  | inspect => exact keeps_inspectPath operation
  | unprotect =>
    simp only [List.append_assoc]
    exact keeps_runUnprotect operation
  | protect =>
    simp only [List.append_assoc]
    cases reference : r.reference with
    | some path => exact keeps_runProtect operation
    | none =>
      intro events exit after path
      obtain ⟨rfl, rfl, rfl⟩ := path_fail_iff.1 path
      exact (startWithWork_opening.append _).unready rfl
  | setLabel id options =>
    simp only [List.append_assoc]
    exact keeps_runSetLabel operation
  | deleteLabel options =>
    simp only [List.append_assoc]
    exact keeps_runDeleteLabel operation

/-- How the execution of a request ends when its run ends so. -/
def reported (r : Request) : Exit Outcome → Exit Report
  | .value outcome => .value ⟨r.operation.kind, r.source, outcome⟩
  | .error cause =>
    if cause.isFatal then .error cause
    else .value ⟨r.operation.kind, r.source, .failed cause.message⟩
  | .panic => .panic

/-- The execution of a request is its run, and a record in the log after a success. -/
theorem path_execute {events : List Event} {exit : Exit Report} {after : Host}
    (h : Path (r.execute o host) events (exit, after)) :
    ∃ inner ran, Path (r.run o host) inner (ran, after) ∧ exchanges events = exchanges inner ∧
      exit = reported r ran := by
  rcases path_bind_iff.1 h with ⟨inner, rest, result, middle, rfl, attempted, last⟩ |
    ⟨cause, rfl, attempted⟩ | ⟨rfl, attempted⟩
  · rcases path_attempt_iff.1 attempted with ⟨outcome, same, path⟩ | ⟨cause, same, path⟩ |
      ⟨absurd, -⟩
    · cases same
      obtain ⟨rest, rfl, ended⟩ := path_log_bind_iff.1 last
      obtain ⟨rfl, rfl, rfl⟩ := path_return_iff.1 ended
      exact ⟨inner, .value outcome, path, by simp, rfl⟩
    · cases same
      simp only at last
      unfold reported
      split at last
      case isTrue fatal =>
        obtain ⟨rfl, rfl, rfl⟩ := path_fail_iff.1 last
        exact ⟨inner, .error cause, path, by simp, by simp [fatal]⟩
      case isFalse ordinary =>
        obtain ⟨rfl, rfl, rfl⟩ := path_return_iff.1 last
        exact ⟨inner, .error cause, path, by simp, by simp [ordinary]⟩
    · cases absurd
  · rcases path_attempt_iff.1 attempted with ⟨_, same, -⟩ | ⟨_, same, -⟩ | ⟨same, -⟩ <;> cases same
  · rcases path_attempt_iff.1 attempted with ⟨_, same, -⟩ | ⟨_, same, -⟩ | ⟨-, path⟩
    · cases same
    · cases same
    · exact ⟨events, .panic, path, rfl, rfl⟩

/-- A run asks the collaborators what is next in the schedule of its operation, and goes past a
stage only with success. A call that fails is the last one, and its error is the end of the run. -/
theorem run_follows_schedule {events : List Event} {exit : Exit Outcome} {after : Host}
    (path : Path (r.run o host) events (exit, after)) :
    Follows r o (Known.initial r host) (ofRequest r host) (exchanges events) exit ∧
      (∃ made, made <+: ofRequest r host ∧
        List.Forall₂ (fun stage c => ∃ known, stage.Due r o known c) made
          ((exchanges events).filterMap Event.call?)) ∧
      ∀ before e rest cause, exchanges events = before ++ e :: rest → e.failure? = some cause →
        ∃ c, e.call? = some c ∧ exit = .error (c.blame cause) ∧ ∀ x ∈ rest, x.call? = none := by
  have follows : Follows r o (Known.initial r host) (ofRequest r host) (exchanges events) exit :=
    keeps_run events exit after path
  refine ⟨follows, follows.calls_prefix, ?_⟩
  intro before e rest cause whole failed
  rw [whole] at follows
  exact follows.failure failed

theorem obliging_run_follows_schedule :
    let r := (Request.protect "report.docx" "template.docx" "app").withToken "token"
    let run := (World.obliging (some { granted := ["EXPORT"] }) true).run () {} (r.run {} {})
    run.value.1 = .value (.committed "report_modified.docx") ∧
      run.calls.length = (ofRequest r {}).length ∧
      Follows r {} (Known.initial r {}) (ofRequest r {}) (exchanges run.events) run.value.1 :=
  ⟨by decide +kernel, by decide +kernel, (run_follows_schedule (World.path_run ..)).1⟩

end DocGuard.Schedule
