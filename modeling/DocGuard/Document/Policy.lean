import DocGuard.Text.Basic

/-! Protection policies and the rights that they grant. -/
namespace DocGuard

/-- The names of the rights that the library itself asks about. -/
def Right.exportName : String := "EXPORT"

@[inherit_doc Right.exportName]
def Right.ownerName : String := "OWNER"

/-- Whether a policy comes from a published template or was made for one document. -/
inductive PolicyKind where
  | templateBased
  | custom
  deriving DecidableEq, Repr

def PolicyKind.name : PolicyKind → String
  | templateBased => "TemplateBased"
  | custom => "Custom"

/-- The rights, or the roles, that a set of users is granted. -/
structure Grant where
  users : List String
  names : List String
  deriving DecidableEq, Repr

/-- The protection of a document. `granted` holds the rights of the present user; the time is in
seconds since 1970. -/
structure Policy where
  name : String := ""
  templateId : Option String := none
  kind : PolicyKind := .templateBased
  owner : String := ""
  referrer : Option String := none
  userRights : List Grant := []
  userRoles : List Grant := []
  validUntil : Option Int := none
  granted : List String := []
  deriving DecidableEq, Repr

namespace Policy

/-- The present user holds a right that is granted in any case of its letters, and every right when
granted the owner right in capitals. -/
def grants (p : Policy) (right : String) : Bool :=
  p.granted.any fun granted =>
    Text.eqIgnoringAsciiCase granted right || granted == Right.ownerName

def expires (p : Policy) : Bool :=
  p.validUntil.isSome

end Policy
end DocGuard
