import DocGuard.Proofs.Engine.Questions
import DocGuard.Request.Run

/-! How a document comes to the engine. A run makes an engine, prepares the source, hands it over
once or twice, and goes on with the open document. Before that nothing is handed over, and behind it
only the reference is. -/
namespace DocGuard
open DocGuard.Action

/-- The document that a call hands over. -/
def Call.source? : Call → Option Source
  | contentStatus source | openDocument _ source _ => some source
  | _ => none

namespace Question

def HandsNothing : Question → Prop
  | call c => c.source? = none
  | _ => True

/-- A question behind the opening of the document: if it hands over one, it opens the reference, by
its path. No file is read and no clock. -/
def IsOnward (reference : Option String) : Question → Prop
  | call c => c.source? = none ∨ ∃ engine path options, reference = some path ∧
      c = .openDocument engine (.path path) options
  | fileExists _ | log _ => True
  | readFile _ | clock => False

end Question

section Engine
variable {r : Request}

private theorem asks_readSettings {c : EngineConfig} {auth : AuthContext} :
    (c.readSettings auth).Asks Question.HandsNothing := by
  have policy : c.readPolicy.Asks Question.HandsNothing := by
    unfold EngineConfig.readPolicy
    split
    · exact .done _
    · refine (Program.Asks.question True.intro).bind fun answer => ?_
      split
      · exact .done _
      · split <;> exact .done _
  refine policy.bind fun read => ?_
  split <;> exact .done _

private theorem asks_authenticate : Asks Question.HandsNothing r.authenticate := by
  have token : Asks Question.HandsNothing r.acquireToken := by
    refine asks_bind asks_get fun host => ?_
    split
    · exact asks_ofExcept
    · exact asks_result rfl
  refine asks_bind (asks_attempt token) fun acquired => ?_
  split
  · exact asks_pure
  · exact asks_fail

/-- For a profile one asks for consent and to load it, and writes to the log. -/
theorem asks_profile {allowed : Question → Prop} {application : Application}
    (consents : ∀ id, allowed (.call (.consent id)))
    (loads : ∀ settings, allowed (.call (.loadProfile settings)))
    (warns : ∀ record, allowed (.log record)) : Asks allowed (Host.profile application) := by
  have running : Asks allowed Host.checkRunning := by
    refine asks_bind asks_get fun host => ?_
    split
    · exact asks_fail
    · exact asks_pure
  have consent : Asks allowed (Host.askConsent application.id) := by
    refine asks_bind asks_get fun host => ?_
    split
    · exact asks_pure
    · exact asks_call (consents _)
  have loading : Asks allowed (Host.loadProfile application) := by
    refine asks_bind consent fun answer => asks_bind asks_get fun host => ?_
    refine asks_bind (asks_call (loads _)) fun loaded => asks_bind asks_ofExcept fun profile => ?_
    exact asks_bind asks_modify fun _ => asks_pure
  have found : Asks allowed (Host.findOrLoad application) := by
    refine asks_bind asks_get fun host => ?_
    split
    · exact asks_pure
    · exact loading
  refine asks_bind running fun _ => asks_bind asks_ofExcept fun _ => ?_
  exact asks_locked found warns

theorem asks_createEngine : Asks Question.HandsNothing r.createEngine := by
  refine asks_bind asks_authenticate fun auth => ?_
  refine asks_bind (asks_profile (fun _ => rfl) (fun _ => rfl) fun _ => True.intro) fun profile => ?_
  refine asks_bind asks_get fun host => asks_bind (asks_ofProgram asks_readSettings) fun read => ?_
  exact asks_bind asks_ofExcept fun settings => asks_result rfl

theorem asksLast_createEngine :
    AsksLast (fun q => ∃ profile settings, q = .call (.addEngine profile settings))
      r.createEngine := by
  refine asksLast_bind fun auth => asksLast_bind fun profile => ?_
  refine asksLast_bind fun present => asksLast_bind fun read => ?_
  exact asksLast_bind fun settings => asksLast_result ⟨profile, settings, rfl⟩

end Engine

section Documents
variable {reference : Option String} {d : DocumentHandle}

private theorem asks_onward_call {c : Call} (other : c.source? = none) :
    Asks (Question.IsOnward reference) (call c) :=
  asks_call (.inl other)

private theorem asks_onward_result {α : Type} {c : Call} {result : c.Reply → Except Error α}
    (other : c.source? = none) :
    Asks (Question.IsOnward reference) (call c >>= fun reply => ofExcept (result reply)) :=
  asks_result (.inl other)

private theorem asks_checkRights : Asks (Question.IsOnward reference) d.checkRights := by
  refine asks_bind (asks_onward_result rfl) fun protection => ?_
  split
  · exact asks_pure
  · split
    · exact asks_pure
    · exact asks_fail

private theorem asks_commit {output source : String} :
    Asks (Question.IsOnward reference) (d.commit output source) := by
  have looks : Asks (Question.IsOnward reference) (ofProgram (.fileExists output)) :=
    asks_ofProgram (.question True.intro)
  have warns {text : String} : Asks (Question.IsOnward reference) (log .warn text) :=
    asks_ofProgram (.question True.intro)
  refine asks_bind (asks_onward_call rfl) fun modified => ?_
  split
  · exact asks_pure
  · refine asks_bind (asks_onward_call rfl) fun committed => ?_
    split
    · exact asks_bind (asks_onward_call rfl) fun _ => asks_pure
    · refine asks_bind looks fun found => ?_
      split <;> exact asks_fail
    · refine asks_bind looks fun found => ?_
      split
      · exact asks_bind warns fun _ => asks_fail
      · exact asks_fail

theorem asks_describe : Asks (Question.IsOnward reference) d.describe := by
  refine asks_bind (asks_onward_result rfl) fun label => ?_
  exact asks_bind (asks_onward_result rfl) fun protection => asks_pure

private theorem asks_referencePolicy {o : RunOptions} {engine : EngineHandle} {path : String} :
    Asks (Question.IsOnward (some path)) (Request.referencePolicy o engine path) := by
  refine asks_bind (asks_result (.inr ⟨engine, path, _, rfl, rfl⟩)) fun document => ?_
  refine asks_bind (asks_onward_result rfl) fun protection => ?_
  split
  · exact asks_pure
  · exact asks_fail

end Documents

section Handing
variable {α : Type}

/-- Asks for the flags of a document if they are wanted. -/
def Source.asked (wanted : Bool) (s : Source) : Action (Option Status × Source) := do
  if wanted then
    let (status, source) ← s.queryStatus
    return (some status, source)
  else return (none, s)

/-- Hands the document over, for its flags if they are wanted and then to be opened, and goes on with
what is open. -/
def RunOptions.handOver (o : RunOptions) (wanted : Bool) (engine : EngineHandle)
    (next : Option Status → DocumentHandle → Action α) (source : Source) : Action α := do
  let (status, source) ← source.asked wanted
  next status (← o.openDocument engine source)

section Equations
variable {o : RunOptions} {engine : EngineHandle} {source : Source} {path : String}
  {next : Option Status → DocumentHandle → Action α}

theorem RunOptions.prepareSource_path (stays : o.loadIntoMemory = false) :
    o.prepareSource path = Pure.pure (.path path) := by
  simp [prepareSource, stays]

/-- A document that is read into memory is read whole, and whatever comes next is given the buffer.
-/
theorem RunOptions.prepareSource_bind (loads : o.loadIntoMemory = true)
    (further : Source → Action α) (host : Host) :
    (o.prepareSource path >>= further) host = .ask (.readFile path) fun read =>
      match read with
      | .ok bytes => further (.buffer (.ofBytes bytes) path) host
      | .error cause => .done (.error (.io cause), host) := by
  have whole : o.prepareSource path = ofProgram (Buffer.ofFile path) >>= fun read =>
      ofExcept read >>= fun content => Pure.pure (.buffer content path) := by
    simp only [prepareSource, loads, if_true]
  rw [whole]
  refine congrArg (Program.ask (.readFile path)) (funext fun read => ?_)
  cases read <;> rfl

theorem RunOptions.handOver_unasked :
    o.handOver false engine next source = o.openDocument engine source >>= next none :=
  rfl

theorem RunOptions.handOver_asked :
    o.handOver true engine next source = call (.contentStatus source) >>= fun reply =>
      ofExcept reply.status >>= fun status => ofExcept (source.rewound reply.edits) >>=
        fun start => o.openDocument engine start >>= next (some status) := by
  simp only [handOver, Source.asked, if_true, Source.queryStatus, Action.bind_assoc,
    Action.pure_bind]

end Equations

def RunOptions.loading (o : RunOptions) (load : Bool) : RunOptions :=
  { o with loadIntoMemory := load }

namespace Request
variable {r : Request} {o : RunOptions}

/-- Only to remove a protection the flags are asked for. -/
def wantsStatus (r : Request) : Bool :=
  match r.operation with
  | .unprotect => true
  | _ => false

/-- The document that is handed over besides that of the request. -/
def otherDocument (r : Request) : Option String :=
  match r.operation with
  | .protect => r.reference
  | _ => none

/-- What a request does with its open document: it fixes the output path and checks the right to
export, and then does what the operation is. -/
def proceed (finish : Target → Action Outcome) (engine : EngineHandle) (status : Option Status)
    (document : DocumentHandle) : Action Outcome := do
  let output ← ofExcept (OutputPath.derive (← call (.outputFileName document)))
  document.checkRights
  finish { engine, document, output, status }

theorem asks_proceed {reference : Option String} {finish : Target → Action Outcome}
    {engine : EngineHandle} {status : Option Status} {document : DocumentHandle}
    (h : ∀ target, Asks (Question.IsOnward reference) (finish target)) :
    Asks (Question.IsOnward reference) (proceed finish engine status document) := by
  refine asks_bind (asks_onward_call rfl) fun name => asks_bind asks_ofExcept fun output => ?_
  exact asks_bind asks_checkRights fun _ => h _

private theorem statusFor_eq (source : Source) :
    r.statusFor source = source.asked r.wantsStatus := by
  unfold statusFor wantsStatus
  cases r.operation <;> rfl

theorem openTarget_bind (finish : Target → Action Outcome) :
    r.openTarget o >>= finish = r.createEngine >>= fun engine =>
      o.prepareSource r.source >>= o.handOver r.wantsStatus engine (proceed finish engine) := by
  simp only [openTarget, Action.bind_assoc, Action.pure_bind, statusFor_eq]
  rfl

theorem describe_eq (valid : r.validate = .ok ()) :
    r.describe o = r.createEngine >>= fun engine => o.prepareSource r.source >>=
      o.handOver false engine fun _ document => document.describe := by
  simp only [describe, valid, ofExcept_ok, Action.pure_bind]
  rfl

section Finishing
variable {target : Target}

def unprotectOpen (r : Request) (target : Target) : Action Outcome := do
  if (target.status.map Status.needsUnprotect).getD false then
    ofExcept (← call (.removeProtection target.document)).result
    target.document.commit target.output r.source
  else return .noChange Outcome.notProtected

def protectOpen (r : Request) (o : RunOptions) (reference : String) (target : Target) :
    Action Outcome := do
  let policy ← referencePolicy o target.engine reference
  ofExcept (← call (.setProtection target.document policy)).result
  target.document.commit target.output r.source

def setLabelOpen (r : Request) (labelId : String) (options : LabelingOptions) (target : Target) :
    Action Outcome := do
  let label ← ofExcept (← call (.labelById target.engine labelId))
  ofExcept (← call (.setLabel target.document label options)).result
  target.document.commit target.output r.source

def deleteLabelOpen (r : Request) (options : LabelingOptions) (target : Target) :
    Action Outcome := do
  ofExcept (← call (.deleteLabel target.document options)).result
  target.document.commit target.output r.source

private theorem asks_unprotectOpen {reference : Option String} :
    Asks (Question.IsOnward reference) (r.unprotectOpen target) := by
  unfold unprotectOpen
  split
  · refine asks_bind (asks_onward_call rfl) fun removed => ?_
    exact asks_bind asks_ofExcept fun _ => asks_commit
  · exact asks_pure

private theorem asks_protectOpen {reference : String} :
    Asks (Question.IsOnward (some reference)) (r.protectOpen o reference target) := by
  refine asks_bind asks_referencePolicy fun policy => ?_
  refine asks_bind (asks_onward_call rfl) fun given => ?_
  exact asks_bind asks_ofExcept fun _ => asks_commit

private theorem asks_setLabelOpen {reference : Option String} {id : String}
    {options : LabelingOptions} :
    Asks (Question.IsOnward reference) (r.setLabelOpen id options target) := by
  refine asks_bind (asks_onward_call rfl) fun found => asks_bind asks_ofExcept fun label => ?_
  refine asks_bind (asks_onward_call rfl) fun given => ?_
  exact asks_bind asks_ofExcept fun _ => asks_commit

private theorem asks_deleteLabelOpen {reference : Option String} {options : LabelingOptions} :
    Asks (Question.IsOnward reference) (r.deleteLabelOpen options target) := by
  refine asks_bind (asks_onward_call rfl) fun deleted => ?_
  exact asks_bind asks_ofExcept fun _ => asks_commit

end Finishing

theorem exists_reference (valid : r.validate = .ok ()) (protects : r.operation = .protect) :
    ∃ reference, r.reference = some reference := by
  cases given : r.reference with
  | some reference => exact ⟨reference, rfl⟩
  | none =>
    simp only [validate, protects, given, Option.getD_none] at valid
    split at valid
    · cases valid
    · split at valid <;> cases valid

/-- The run of a request that is to change its document. What it does with the open document does not
depend on how the document was handed over. -/
theorem run_eq (valid : r.validate = .ok ()) (mutating : r.operation ≠ .inspect) :
    ∃ finish : Target → Action Outcome,
      (∀ target, Asks (Question.IsOnward r.otherDocument) (finish target)) ∧
      ∀ load, r.run (o.loading load) = r.createEngine >>= fun engine =>
        (o.loading load).prepareSource r.source >>=
          (o.loading load).handOver r.wantsStatus engine (proceed finish engine) := by
  cases operation : r.operation with
  | inspect => exact absurd operation mutating
  | unprotect =>
    refine ⟨r.unprotectOpen, fun target => asks_unprotectOpen, fun load => ?_⟩
    rw [← openTarget_bind]
    simp only [run, valid, ofExcept_ok, Action.pure_bind, operation]
    rfl
  | protect =>
    obtain ⟨reference, given⟩ := exists_reference valid operation
    refine ⟨r.protectOpen o reference, fun target => ?_, fun load => ?_⟩
    · simp only [otherDocument, operation, given]
      exact asks_protectOpen
    · rw [← openTarget_bind]
      simp only [run, valid, ofExcept_ok, Action.pure_bind, operation, given]
      rfl
  | setLabel id options =>
    refine ⟨r.setLabelOpen id options, fun target => asks_setLabelOpen, fun load => ?_⟩
    rw [← openTarget_bind]
    simp only [run, valid, ofExcept_ok, Action.pure_bind, operation]
    rfl
  | deleteLabel options =>
    refine ⟨r.deleteLabelOpen options, fun target => asks_deleteLabelOpen, fun load => ?_⟩
    rw [← openTarget_bind]
    simp only [run, valid, ofExcept_ok, Action.pure_bind, operation]
    rfl

/-- What an execution adds to the run of its request: a record of a success, and an error becomes a
failure unless it is fatal. -/
def conclude (r : Request) :
    Exit (Except Error Outcome) × Host → Program (Exit Report × Host)
  | (.value (.ok outcome), after) =>
    let report : Report := ⟨r.operation.kind, r.source, outcome⟩
    (Action.log .info report.line >>= fun _ => Pure.pure report) after
  | (.value (.error cause), after) =>
    (if cause.isFatal then fail cause
      else Pure.pure ⟨r.operation.kind, r.source, .failed cause.message⟩ : Action Report) after
  | (.error cause, after) => .done (.error cause, after)
  | (.panic, after) => .done (.panic, after)

theorem execute_eq (host : Host) :
    r.execute o host = ((r.run o).attempt host).bind r.conclude := by
  refine congrArg (((r.run o).attempt host).bind ·) (funext fun ended => ?_)
  obtain ⟨⟨cause | outcome⟩ | cause | _, after⟩ := ended <;> rfl

end Request
end Handing

section Reading
variable {r : Request} {engaging : Bool}

theorem Operation.isMutating_of_ne {operation : Operation} (mutating : operation ≠ .inspect) :
    operation.isMutating = true := by
  cases operation with
  | inspect => exact absurd rfl mutating
  | unprotect | protect | setLabel | deleteLabel => rfl

/-- What a request does before it comes to its document. An inspection needs no engine. -/
def Request.beforeReading (r : Request) (engaging : Bool) : Action Unit := do
  ofExcept r.validate
  if engaging then r.createEngine >>= fun _ => Pure.pure ()

theorem asks_beforeReading : Asks Question.HandsNothing (r.beforeReading engaging) := by
  refine asks_bind asks_ofExcept fun _ => ?_
  cases engaging with
  | true => exact asks_bind asks_createEngine fun _ => asks_pure
  | false => exact asks_pure

variable {σ α : Type} {w : World σ} {state : σ} {files : FileTree} {host after : Host}

theorem World.run_beforeReading (w : World σ) {r : Request} (valid : r.validate = .ok ()) :
    let made := w.run state files (r.createEngine host)
    w.run state files (r.beforeReading true host) =
      { made with value := (made.value.1.map fun _ => (), made.value.2) } := by
  simp only [Request.beforeReading, valid, ofExcept_ok, Action.pure_bind, if_true]
  exact w.run_bind_pure state files r.createEngine (fun _ => ()) host

theorem validate_of_beforeReading
    (ended : (w.run state files (r.beforeReading engaging host)).value = (.value (), after)) :
    r.validate = .ok () := by
  cases valid : r.validate with
  | ok _ => rfl
  | error cause =>
    simp only [Request.beforeReading, valid, ofExcept_error, fail_bind] at ended
    cases ended

end Reading
end DocGuard
