import DocGuard.Document.OutputPath
import DocGuard.Host.Profiles
import DocGuard.Request.Report

/-! The steps that requests are made of. Each asks one collaborator, or reads one file, and fails
when that fails. -/
namespace DocGuard

/-- How the documents of requests are opened. -/
structure RunOptions where
  loadIntoMemory : Bool := false
  dataState : DataState := .rest
  auditDiscovery : Bool := false
  deriving DecidableEq, Repr

def RunOptions.openOptions (o : RunOptions) : OpenOptions :=
  { dataState := o.dataState, auditDiscovery := o.auditDiscovery }

/-- An error of the provider of credentials counts as a failed authentication. -/
def Error.asAuthentication : Error → Error
  | .authentication cause => .authentication cause
  | cause => .authentication (.refused cause.message)

namespace EngineConfig

/-- Reads the policy file, if one is configured. -/
def readPolicy (c : EngineConfig) : Program (Except Error (Option String)) := do
  match c.policyFile with
  | none => return .ok none
  | some path =>
    let unreadable := fun cause => Error.invalidArgument (.unreadablePolicyFile path cause)
    match ← Program.readFile path with
    | .error cause => return .error (unreadable cause)
    | .ok bytes =>
      match Text.ofUtf8? bytes with
      | none => return .error (unreadable .notUtf8)
      | some text => return .ok (some text)

/-- The settings of one engine. An unreadable policy file comes before all other errors. -/
def readSettings (c : EngineConfig) (auth : AuthContext) :
    Program (Except Error EngineSettings) := do
  match ← c.readPolicy with
  | .error cause => return .error cause
  | .ok policy => return c.settings policy auth

end EngineConfig

namespace Buffer

/-- Reads a file into a buffer. -/
def ofFile (path : String) : Program (Except Error Buffer) := do
  match ← Program.readFile path with
  | .ok bytes => return .ok (ofBytes bytes)
  | .error cause => return .error (.io cause)

end Buffer

namespace Request
open DocGuard.Action

def acquireToken (r : Request) : Action Secret := do
  let request : CredentialRequest :=
    { applicationId := r.applicationId, username := r.user, token := r.token }
  match (← get).config.tokens with
  | .passThrough => ofExcept request.passThrough
  | .provider => ofExcept (← call (.acquireToken request))

/-- The identity of a request, with its credential. -/
def authenticate (r : Request) : Action AuthContext := do
  match ← attempt r.acquireToken with
  | .ok credential => return { identity := r.user, credential }
  | .error cause => fail cause.asAuthentication

/-- Makes the engine for a request. -/
def createEngine (r : Request) : Action EngineHandle := do
  let auth ← r.authenticate
  let profile ← Host.profile { id := r.applicationId }
  let settings ← ofExcept (← ofProgram ((← get).config.engine.readSettings auth))
  ofExcept (← call (.addEngine profile settings)).result

end Request

namespace RunOptions
open DocGuard.Action

/-- What the engine is handed of the document at a path. -/
def prepareSource (o : RunOptions) (path : String) : Action Source := do
  if o.loadIntoMemory then
    let content ← ofExcept (← ofProgram (Buffer.ofFile path))
    return .buffer content path
  else return .path path

def openDocument (o : RunOptions) (engine : EngineHandle) (source : Source) :
    Action DocumentHandle := do
  ofExcept (← call (.openDocument engine source o.openOptions)).result

end RunOptions

namespace Source
open DocGuard.Action

/-- The buffer as the engine left it, with the cursor at the start again. -/
def rewound (edits : List Buffer.Op) : Source → Except Error Source
  | path p => .ok (path p)
  | buffer content identifier =>
    match (content.steps edits).2.seek 0 with
    | (.ok (), start) => .ok (buffer start identifier)
    | (.error cause, _) => .error cause

/-- The flags of a document, and the source as it is after the question for them. -/
def queryStatus (s : Source) : Action (Status × Source) := do
  let reply ← call (.contentStatus s)
  let status ← ofExcept reply.status
  return (status, ← ofExcept (s.rewound reply.edits))

end Source

namespace DocumentHandle
open DocGuard.Action

def label (d : DocumentHandle) : Action (Option AppliedLabel) := do
  ofExcept (← call (.getLabel d)).result

def protection (d : DocumentHandle) : Action (Option Policy) := do
  ofExcept (← call (.getProtection d)).result

def describe (d : DocumentHandle) : Action Description := do
  let label ← d.label
  return { label, protection := ← d.protection }

/-- What a policy denies to a user without the right to export. An owner without a name is not told.
-/
def deniedBy (policy : Policy) : Error :=
  .accessDenied Right.exportName (if policy.owner.isEmpty then none else some policy.owner)
    policy.referrer

/-- Fails unless the present user may export the document. -/
def checkRights (d : DocumentHandle) : Action Unit := do
  match ← d.protection with
  | none => return
  | some policy =>
    if policy.grants Right.exportName then return else fail (deniedBy policy)

/-- Writes the document if it is changed. A commit that fails must leave no file behind; if it tells
that it failed and there is one, that is fatal. -/
def commit (d : DocumentHandle) (output source : String) : Action Outcome := do
  if !(← call (.isModified d)) then return .noChange Outcome.nothingToCommit
  match (← call (.commit d output)).result with
  | .ok true =>
    call (.notifyCommit d source)
    return .committed output
  | .ok false =>
    if ← ofProgram (.fileExists output) then fail (.commitIntegrity output)
    else fail (.engine .nothingWritten)
  | .error cause =>
    if ← ofProgram (.fileExists output) then
      log .warn ("Commit of " ++ source ++ " failed but left a file at " ++ output)
    fail cause

end DocumentHandle
end DocGuard
