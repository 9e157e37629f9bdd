import DocGuard.Buffer.Op
import DocGuard.Document.Source
import DocGuard.Engine.Completion
import DocGuard.Settings.Application
import DocGuard.Settings.EngineConfig

/-! The calls on the collaborators of the library: the engine that protects documents, the provider
of credentials and the provider of consent. Each call has its own type of replies. -/
namespace DocGuard

/-- The root object that engines are made from, known by a number. -/
structure ProfileHandle where
  number : Nat
  deriving DecidableEq, Repr

/-- An engine bound to one identity, known by a number. -/
structure EngineHandle where
  number : Nat
  deriving DecidableEq, Repr

/-- An open document, known by a number. -/
structure DocumentHandle where
  number : Nat
  deriving DecidableEq, Repr

/-- A call on a collaborator. -/
inductive Call where
  | acquireToken (request : CredentialRequest)
  | consent (applicationId : String)
  | loadProfile (settings : ProfileSettings)
  | addEngine (profile : ProfileHandle) (settings : EngineSettings)
  | contentStatus (source : Source)
  | openDocument (engine : EngineHandle) (source : Source) (options : OpenOptions)
  | labelById (engine : EngineHandle) (id : String)
  | getLabel (document : DocumentHandle)
  | getProtection (document : DocumentHandle)
  | setLabel (document : DocumentHandle) (label : Label) (options : LabelingOptions)
  | deleteLabel (document : DocumentHandle) (options : LabelingOptions)
  | setProtection (document : DocumentHandle) (policy : Policy)
  | removeProtection (document : DocumentHandle)
  | isModified (document : DocumentHandle)
  | outputFileName (document : DocumentHandle)
  | commit (document : DocumentHandle) (output : String)
  | notifyCommit (document : DocumentHandle) (source : String)
  | shutdown (maxTeardown : Option Duration)

/-- The answer to a question for the flags of a document, with what the engine did to the buffer
that it was handed, if it was handed one. -/
structure StatusReply where
  edits : List Buffer.Op
  status : Except Error Status

/-- What a call is replied with, if the collaborator replies. -/
def Call.Reply : Call → Type
  | acquireToken _ => Except Error Secret
  | consent _ => Consent
  | loadProfile _ => Completion ProfileHandle
  | addEngine .. => Completion EngineHandle
  | contentStatus _ => StatusReply
  | openDocument .. => Completion DocumentHandle
  | labelById .. => Except Error Label
  | getLabel _ => Completion (Option AppliedLabel)
  | getProtection _ => Completion (Option Policy)
  | setLabel .. | deleteLabel .. | setProtection .. | removeProtection _ => Completion Unit
  | isModified _ => Bool
  | outputFileName _ => String
  | commit .. => Completion Bool
  | notifyCommit .. | shutdown _ => Unit

/-- The calls that change an open document. -/
def Call.isMutating : Call → Bool
  | setLabel .. | deleteLabel .. | setProtection .. | removeProtection _ => true
  | _ => false

end DocGuard
