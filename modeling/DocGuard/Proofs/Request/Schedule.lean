import DocGuard.Proofs.Engine.Exchanges
import DocGuard.Request.Run

/-! Schedules: the stages of a request in the order in which it asks the collaborators. A stage says
which call is due, given what the run has learnt so far, and what a reply to it means. A run follows
a schedule when its exchanges go through the stages one after the other, each with success, to the
end or to the stage that stops it. -/
namespace DocGuard

/-- A document without protection may be exported, and one whose policy grants the right. -/
def mayExport (protection : Option Policy) : Bool :=
  protection.all fun policy => policy.grants Right.exportName

/-- The error that a run ends with when a call fails. -/
def Call.blame : Call → Error → Error
  | acquireToken _, cause => cause.asAuthentication
  | _, cause => cause

namespace Schedule

/-- A stage of a request. The source is the document that it is about, the reference the one whose
policy it copies. -/
inductive Stage where
  | acquireToken
  | consent
  | loadProfile
  | addEngine
  | contentStatus
  | openSource
  | outputFileName
  | checkRights
  | removeProtection
  | openReference (path : String)
  | referencePolicy (path : String)
  | setProtection
  | labelById (id : String)
  | setLabel (options : LabelingOptions)
  | deleteLabel (options : LabelingOptions)
  | isModified
  | commit
  | notifyCommit
  deriving DecidableEq

/-- The stages that load the profile of the application. A profile that is loaded is not loaded
again, and a host that has one answer to all questions for consent asks nobody for it. -/
def loading (r : Request) (host : Host) : List Stage :=
  if (host.profiles.lookup r.applicationId).isSome then []
  else (if host.config.consent = .provider then [.consent] else []) ++ [.loadProfile]

/-- The stages that make an engine. A host that passes tokens on asks nobody for one. -/
def engine (r : Request) (host : Host) : List Stage :=
  (if host.config.tokens = .provider then [.acquireToken] else []) ++ loading r host ++ [.addEngine]

/-- The stages that open the source and check the rights to it. -/
def opening (r : Request) (host : Host) : List Stage :=
  engine r host ++ (if r.operation = .unprotect then [.contentStatus] else [])
    ++ [.openSource, .outputFileName, .checkRights]

/-- The stages that change the source. -/
def change (r : Request) : List Stage :=
  match r.operation with
  | .inspect => []
  | .unprotect => [.removeProtection]
  | .protect =>
    let path := r.reference.getD ""
    [.openReference path, .referencePolicy path, .setProtection]
  | .setLabel id options => [.labelById id, .setLabel options]
  | .deleteLabel options => [.deleteLabel options]

/-- The stages that write the source. -/
def closing : List Stage :=
  [.isModified, .commit, .notifyCommit]

/-- The schedule of a request to a host. -/
def ofRequest (r : Request) (host : Host) : List Stage :=
  match r.operation with
  | .inspect => [.contentStatus]
  | _ => opening r host ++ change r ++ closing

/-- What a run has learnt. -/
structure Known where
  credential : Option Secret := none
  consent : Option Consent := none
  profile : Option ProfileHandle := none
  engine : Option EngineHandle := none
  status : Option Status := none
  document : Option DocumentHandle := none
  output : Option String := none
  reference : Option DocumentHandle := none
  policy : Option Policy := none
  label : Option Label := none

namespace Known

/-- What is known before the first call. -/
def initial (r : Request) (host : Host) : Known where
  credential := match host.config.tokens with
    | .passThrough => r.token
    | .provider => none
  consent := match host.config.consent with
    | .fixed answer => some answer
    | .provider => none
  profile := host.profiles.lookup r.applicationId

/-- How a run ends that went through its schedule. -/
def outcome? (k : Known) : Operation → Option Outcome
  | .inspect => k.status.map .inspected
  | _ => k.output.map .committed

/-- What is learnt from a result; an error ends the run. -/
def learn {α : Type} (result : Except Error α) (next : α → Known) : Except (Exit Outcome) Known :=
  match result with
  | .ok value => .ok (next value)
  | .error cause => .error (.error cause)

end Known

namespace Stage
variable (r : Request) (o : RunOptions) (k : Known)

/-- The call is due at a stage. -/
def Due : Stage → Call → Prop
  | acquireToken, c =>
    c = .acquireToken { applicationId := r.applicationId, username := r.user, token := r.token }
  | consent, c => c = .consent r.applicationId
  | loadProfile, c => ∃ answer settings, k.consent = some answer ∧
      settings.application = { id := r.applicationId } ∧ settings.telemetry = answer.isGranted ∧
      c = .loadProfile settings
  | addEngine, c => ∃ credential profile settings, k.credential = some credential ∧
      k.profile = some profile ∧ settings.auth = { identity := r.user, credential } ∧
      c = .addEngine profile settings
  | contentStatus, c => ∃ source : Source, source.identifier = r.source ∧ c = .contentStatus source
  | openSource, c => ∃ engine, ∃ source : Source, k.engine = some engine ∧
      source.identifier = r.source ∧ c = .openDocument engine source o.openOptions
  | outputFileName, c => ∃ d, k.document = some d ∧ c = .outputFileName d
  | checkRights, c => ∃ d, k.document = some d ∧ c = .getProtection d
  | removeProtection, c => ∃ d status, k.document = some d ∧ k.status = some status ∧
      status.needsUnprotect = true ∧ c = .removeProtection d
  | openReference path, c => ∃ engine, k.engine = some engine ∧
      c = .openDocument engine (.path path) o.openOptions
  | referencePolicy _, c => ∃ d, k.reference = some d ∧ c = .getProtection d
  | setProtection, c => ∃ d policy, k.document = some d ∧ k.policy = some policy ∧
      c = .setProtection d policy
  | labelById id, c => ∃ engine, k.engine = some engine ∧ c = .labelById engine id
  | setLabel options, c => ∃ d label, k.document = some d ∧ k.label = some label ∧
      c = .setLabel d label options
  | deleteLabel options, c => ∃ d, k.document = some d ∧ c = .deleteLabel d options
  | isModified, c => ∃ d, k.document = some d ∧ c = .isModified d
  | commit, c => ∃ d output, k.document = some d ∧ k.output = some output ∧ c = .commit d output
  | notifyCommit, c => ∃ d, k.document = some d ∧ c = .notifyCommit d r.source

/-- What a reply means to a stage: what the run knows from then on, or how it ends. No other call is
due than those in front, so that the last line is never reached. -/
def judge : Stage → (c : Call) → c.Reply → Except (Exit Outcome) Known
  | acquireToken, .acquireToken _, reply =>
    Known.learn (Except.mapError Error.asAuthentication reply)
      fun credential => { k with credential := some credential }
  | consent, .consent _, answer => .ok { k with consent := some answer }
  | loadProfile, .loadProfile _, reply =>
    Known.learn reply.result fun profile => { k with profile := some profile }
  | addEngine, .addEngine .., reply =>
    Known.learn reply.result fun engine => { k with engine := some engine }
  | contentStatus, .contentStatus _, reply =>
    Known.learn reply.status fun status => { k with status := some status }
  | openSource, .openDocument .., reply =>
    Known.learn reply.result fun document => { k with document := some document }
  | outputFileName, .outputFileName _, name =>
    Known.learn (OutputPath.derive name) fun output => { k with output := some output }
  | checkRights, .getProtection _, reply =>
    match reply.result with
    | .error cause => .error (.error cause)
    | .ok none => .ok k
    | .ok (some policy) =>
      if policy.grants Right.exportName then .ok k
      else .error (.error (DocumentHandle.deniedBy policy))
  | openReference _, .openDocument .., reply =>
    Known.learn reply.result fun document => { k with reference := some document }
  | referencePolicy path, .getProtection _, reply =>
    match reply.result with
    | .error cause => .error (.error cause)
    | .ok none => .error (.error (.invalidArgument (.unprotectedReference path)))
    | .ok (some policy) => .ok { k with policy := some policy }
  | labelById _, .labelById .., reply =>
    Known.learn reply fun label => { k with label := some label }
  | removeProtection, .removeProtection _, reply | setProtection, .setProtection .., reply
  | setLabel _, .setLabel .., reply | deleteLabel _, .deleteLabel .., reply =>
    Known.learn reply.result fun _ => k
  | isModified, .isModified _, flag =>
    bif flag then .ok k else .error (.value (.noChange Outcome.nothingToCommit))
  | commit, .commit .., reply =>
    match reply.result with
    | .error cause => .error (.error cause)
    | .ok false => .error (.error (.engine .nothingWritten))
    | .ok true => .ok k
  | notifyCommit, .notifyCommit .., _ => .ok k
  | _, _, _ => .error .panic

/-- Before these stages the library works on its own, and can fail: it checks the request, or reads
the settings or the source. -/
def needsWork : Stage → Bool
  | acquireToken | consent | loadProfile | addEngine | contentStatus | openSource => true
  | _ => false

/-- The run stops at a stage, with its last exchanges. After a commit that did not succeed it looks
for a file at the output path; there must be none when the engine tells that it wrote none. -/
inductive Stops : Stage → List Event → Exit Outcome → Prop where
  | unready (stage : Stage) (cause : Error) :
      stage.needsWork = true → cause.isFatal = false → Stops stage [] (.error cause)
  | idle (status : Status) : k.status = some status → status.needsUnprotect = false →
      Stops removeProtection [] (.value (.noChange Outcome.notProtected))
  | panicked (stage : Stage) (c : Call) :
      stage.Due r o k c → Stops stage [.unanswered c] .panic
  | refused (stage : Stage) (c : Call) (reply : c.Reply) (exit : Exit Outcome) :
      stage ≠ commit → stage.Due r o k c → stage.judge k c reply = .error exit →
      Stops stage [.replied c reply] exit
  | commitFailed (d : DocumentHandle) (output : String) (reply : Completion Bool) (cause : Error)
      (found : Bool) : commit.Due r o k (.commit d output) → reply.result = .error cause →
      Stops commit [.replied (.commit d output) reply, .looked output found] (.error cause)
  | leftFile (d : DocumentHandle) (output : String) : commit.Due r o k (.commit d output) →
      Stops commit [.replied (.commit d output) (.succeeded false), .looked output true]
        (.error (.commitIntegrity output))
  | nothingWritten (d : DocumentHandle) (output : String) : commit.Due r o k (.commit d output) →
      Stops commit [.replied (.commit d output) (.succeeded false), .looked output false]
        (.error (.engine .nothingWritten))

end Stage

variable (r : Request) (o : RunOptions)

/-- Exchanges that go through all of some stages, from what is known before to what is known after
them. -/
inductive Passes : Known → List Stage → List Event → Known → Prop where
  | nil (k : Known) : Passes k [] [] k
  | cons {k next last : Known} {stage : Stage} {stages : List Stage} {xs : List Event} (c : Call)
      (reply : c.Reply) : stage.Due r o k c → stage.judge k c reply = .ok next →
      Passes next stages xs last → Passes k (stage :: stages) (.replied c reply :: xs) last

/-- Exchanges that follow a schedule up to the end of the run. -/
inductive Follows : Known → List Stage → List Event → Exit Outcome → Prop where
  | finish {k : Known} {outcome : Outcome} : k.outcome? r.operation = some outcome →
      Follows k [] [] (.value outcome)
  | stop {k : Known} {stage : Stage} {stages : List Stage} {xs : List Event} {exit : Exit Outcome} :
      stage.Stops r o k xs exit → Follows k (stage :: stages) xs exit
  | pass {k next : Known} {stage : Stage} {stages : List Stage} {xs : List Event}
      {exit : Exit Outcome} (c : Call) (reply : c.Reply) : stage.Due r o k c →
      stage.judge k c reply = .ok next → Follows next stages xs exit →
      Follows k (stage :: stages) (.replied c reply :: xs) exit

variable {r o} {k middle last : Known} {stages first second : List Stage} {xs ys : List Event}
  {exit : Exit Outcome}

theorem Passes.append (h : Passes r o k first xs middle) (g : Passes r o middle second ys last) :
    Passes r o k (first ++ second) (xs ++ ys) last := by
  induction h with
  | nil k => exact g
  | cons c reply due judged _ ih => exact .cons c reply due judged (ih g)

theorem Passes.follows (h : Passes r o k first xs middle) (g : Follows r o middle second ys exit) :
    Follows r o k (first ++ second) (xs ++ ys) exit := by
  induction h with
  | nil k => exact g
  | cons c reply due judged _ ih => exact .pass c reply due judged (ih g)

end Schedule
end DocGuard
