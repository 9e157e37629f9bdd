import DocGuard.Error
import DocGuard.Text.Basic

/-! Secrets, which are shown by their length only, how a credential is asked for, and the identity that
an engine is bound to. -/
namespace DocGuard

/-- A text that is not to be shown. -/
structure Secret where
  text : String
  deriving DecidableEq

namespace Secret

/-- The secret of a text, where the empty text stands for none. -/
def nonEmpty (text : String) : Option Secret :=
  if text.isEmpty then none else some ⟨text⟩

def isEmpty (s : Secret) : Bool :=
  s.text.isEmpty

def size (s : Secret) : Nat :=
  Text.utf8Size s.text.toList

def summary (s : Secret) : String :=
  "Secret \x7b len: " ++ toString s.size ++ " \x7d"

/-- What may be shown of a secret, with a line for its length. -/
def report (s : Secret) : String :=
  "Secret \x7b\n    len: " ++ toString s.size ++ ",\n\x7d"

end Secret

/-- What is known when a credential is asked for. -/
structure CredentialRequest where
  applicationId : String
  username : Option String := none
  password : Option Secret := none
  token : Option Secret := none
  deriving DecidableEq

/-- Answers with the token of the request itself; a request without one fails. -/
def CredentialRequest.passThrough (r : CredentialRequest) : Except Error Secret :=
  match r.token with
  | some token => .ok token
  | none => .error (.authentication (.noToken r.applicationId))

/-- The user that an engine acts for, if one is named, and the credential that it presents. -/
structure AuthContext where
  identity : Option String := none
  credential : Secret
  deriving DecidableEq

/-- The answer to a question for consent. -/
inductive Consent where
  | accept
  | acceptAlways
  | reject
  deriving DecidableEq, Repr

def Consent.name : Consent → String
  | accept => "Accept"
  | acceptAlways => "AcceptAlways"
  | reject => "Reject"

def Consent.isGranted : Consent → Bool
  | reject => false
  | _ => true

end DocGuard
