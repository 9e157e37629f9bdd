import DocGuard.Request.Steps

/-! The run of a request. An inspection asks for the flags of the document. Every other operation
makes an engine, opens the document, fixes the output path, checks the right to export, changes the
document and commits it. The gateway takes texts and answers with a JSON text; there is an answer to
every error, and the empty text stands for an argument that is absent. -/
namespace DocGuard

/-- What is open for a request that changes a document. The flags are known if they were asked for.
-/
structure Target where
  engine : EngineHandle
  document : DocumentHandle
  output : String
  status : Option Status

namespace Request
open DocGuard.Action

def inspectPath (o : RunOptions) (path : String) : Action Status := do
  return (← (← o.prepareSource path).queryStatus).1

/-- Asks for the flags where the operation depends on them. -/
def statusFor (r : Request) (source : Source) : Action (Option Status × Source) := do
  match r.operation with
  | .unprotect =>
    let (status, source) ← source.queryStatus
    return (some status, source)
  | _ => return (none, source)

/-- Opens the document of a request, with the path that it will be written to. -/
def openTarget (r : Request) (o : RunOptions) : Action Target := do
  let engine ← r.createEngine
  let source ← o.prepareSource r.source
  let (status, source) ← r.statusFor source
  let document ← o.openDocument engine source
  let output ← ofExcept (OutputPath.derive (← call (.outputFileName document)))
  document.checkRights
  return { engine, document, output, status }

/-- The policy of the reference document, which must have one. -/
def referencePolicy (o : RunOptions) (engine : EngineHandle) (path : String) : Action Policy := do
  let document ← o.openDocument engine (.path path)
  match ← document.protection with
  | some policy => return policy
  | none => fail (.invalidArgument (.unprotectedReference path))

/-- Removes the protection of the document, if there is something to remove. -/
def runUnprotect (r : Request) (o : RunOptions) : Action Outcome := do
  let target ← r.openTarget o
  if (target.status.map Status.needsUnprotect).getD false then
    ofExcept (← call (.removeProtection target.document)).result
    target.document.commit target.output r.source
  else return .noChange Outcome.notProtected

def runProtect (r : Request) (o : RunOptions) (reference : String) : Action Outcome := do
  let target ← r.openTarget o
  let policy ← referencePolicy o target.engine reference
  ofExcept (← call (.setProtection target.document policy)).result
  target.document.commit target.output r.source

def runSetLabel (r : Request) (o : RunOptions) (labelId : String) (options : LabelingOptions) :
    Action Outcome := do
  let target ← r.openTarget o
  let label ← ofExcept (← call (.labelById target.engine labelId))
  ofExcept (← call (.setLabel target.document label options)).result
  target.document.commit target.output r.source

def runDeleteLabel (r : Request) (o : RunOptions) (options : LabelingOptions) : Action Outcome := do
  let target ← r.openTarget o
  ofExcept (← call (.deleteLabel target.document options)).result
  target.document.commit target.output r.source

/-- Runs a request; an error of any step ends it. -/
def run (r : Request) (o : RunOptions) : Action Outcome := do
  ofExcept r.validate
  match r.operation with
  | .inspect => return .inspected (← inspectPath o r.source)
  | .unprotect => r.runUnprotect o
  | .protect =>
    match r.reference with
    | some reference => r.runProtect o reference
    | none => fail (.invalidArgument .noReference)
  | .setLabel labelId options => r.runSetLabel o labelId options
  | .deleteLabel options => r.runDeleteLabel o options

def describe (r : Request) (o : RunOptions) : Action Description := do
  ofExcept r.validate
  let engine ← r.createEngine
  let source ← o.prepareSource r.source
  (← o.openDocument engine source).describe

/-- Runs a request and reports on it. Every error but a fatal one is an ordinary failure. -/
def execute (r : Request) (o : RunOptions) : Action Report := do
  match ← attempt (r.run o) with
  | .ok outcome =>
    let report : Report := ⟨r.operation.kind, r.source, outcome⟩
    log .info report.line
    return report
  | .error cause =>
    if cause.isFatal then fail cause
    else return ⟨r.operation.kind, r.source, .failed cause.message⟩

def executeToJson (r : Request) (o : RunOptions) : Action String := do
  return (← r.execute o).json

end Request

namespace Gateway
open DocGuard.Action

/-- Answers a request. A fatal error is logged and answered as a failure. -/
def respond (r : Request) : Action String := do
  match ← attempt (r.executeToJson {}) with
  | .ok text => return text
  | .error cause =>
    log .error (r.operation.kind.name ++ " " ++ r.source ++ ": " ++ cause.message)
    return (Report.mk r.operation.kind r.source (.failed cause.message)).json

def inspect (file applicationId : String) : Action String :=
  respond (.inspect file applicationId)

def unprotect (token file applicationId : String) : Action String :=
  respond ((Request.unprotect file applicationId).withToken token)

def protect (token file reference user applicationId : String) : Action String :=
  respond (((Request.protect file reference applicationId).withToken token).withUser user)

end Gateway
end DocGuard
