import DocGuard.Document.Label
import DocGuard.Error
import DocGuard.Identity.Credential
import DocGuard.Text.Basic

/-! Requests to do one operation on one document. -/
namespace DocGuard

/-- What is done to a document. Protecting copies the policy of a reference document. -/
inductive Operation where
  | inspect
  | unprotect
  | protect
  | setLabel (labelId : String) (options : LabelingOptions)
  | deleteLabel (options : LabelingOptions)
  deriving DecidableEq, Repr

/-- An operation without its parameters. -/
inductive OperationKind where
  | inspect
  | unprotect
  | protect
  | setLabel
  | deleteLabel
  deriving DecidableEq, Repr

def OperationKind.name : OperationKind → String
  | inspect => "inspect"
  | unprotect => "unprotect"
  | protect => "protect"
  | setLabel => "set_label"
  | deleteLabel => "delete_label"

namespace Operation

def kind : Operation → OperationKind
  | inspect => .inspect
  | unprotect => .unprotect
  | protect => .protect
  | setLabel .. => .setLabel
  | deleteLabel _ => .deleteLabel

/-- Every operation but the inspection changes the document. -/
def isMutating : Operation → Bool
  | inspect => false
  | _ => true

end Operation

/-- A request. The reference is the document whose policy is copied. -/
structure Request where
  source : String
  applicationId : String
  operation : Operation
  token : Option Secret := none
  reference : Option String := none
  user : Option String := none
  deriving DecidableEq

namespace Request

def inspect (source applicationId : String) : Request :=
  { source, applicationId, operation := .inspect }

def unprotect (source applicationId : String) : Request :=
  { source, applicationId, operation := .unprotect }

def protect (source reference applicationId : String) : Request :=
  { source, applicationId, operation := .protect, reference := some reference }

def setLabel (source applicationId labelId : String) (options : LabelingOptions) : Request :=
  { source, applicationId, operation := .setLabel labelId options }

def deleteLabel (source applicationId : String) (options : LabelingOptions) : Request :=
  { source, applicationId, operation := .deleteLabel options }

/-- Gives the token; an empty one stands for none. -/
def withToken (r : Request) (token : String) : Request :=
  { r with token := Secret.nonEmpty token }

/-- Names the user; an empty name stands for none. -/
def withUser (r : Request) (user : String) : Request :=
  { r with user := if user.isEmpty then none else some user }

/-- The checks that need no engine, in this order: a source, an application, a label where one is to
be set, a reference where a policy is to be copied. -/
def validate (r : Request) : Except Error Unit :=
  if r.source.isEmpty then .error (.invalidArgument .noSourcePath)
  else if Text.isBlankText r.applicationId then .error (.invalidArgument .blankApplicationId)
  else
    match r.operation with
    | .setLabel labelId _ =>
      if Text.isBlankText labelId then .error (.invalidArgument .blankLabelId) else .ok ()
    | .protect =>
      if (r.reference.getD "").isEmpty then .error (.invalidArgument .noReference) else .ok ()
    | _ => .ok ()

end Request
end DocGuard
