/-! Sensitivity labels, the labels on documents, and how a label is asked for. -/
namespace DocGuard

/-- A sensitivity label; a sublabel has a parent. -/
inductive Label where
  | mk (id name : String) (sensitivity : Int) (parent : Option Label)
  deriving Inhabited, Repr

namespace Label

def id : Label → String
  | mk id _ _ _ => id

def name : Label → String
  | mk _ name _ _ => name

/-- The rank of the label; a higher one is more sensitive. -/
def sensitivity : Label → Int
  | mk _ _ sensitivity _ => sensitivity

def parent : Label → Option Label
  | mk _ _ _ parent => parent

end Label

/-- Who applied a label: a user, a privileged process, or a policy on its own. -/
inductive Assignment where
  | standard
  | privileged
  | auto
  deriving DecidableEq, Repr

def Assignment.name : Assignment → String
  | standard => "Standard"
  | privileged => "Privileged"
  | auto => "Auto"

/-- A key and a value that a vendor attaches to a label. -/
structure LabelProperty where
  vendor : String
  key : String
  value : String
  deriving DecidableEq, Repr

/-- A label as it stands on a document. The time is in seconds since 1970. -/
structure AppliedLabel where
  label : Label
  assignment : Assignment := .standard
  created : Option Int := none
  properties : List LabelProperty := []
  deriving Repr

def AppliedLabel.isPrivileged (l : AppliedLabel) : Bool :=
  l.assignment == .privileged

/-- How a label is set or removed. -/
structure LabelingOptions where
  assignment : Assignment := .standard
  justification : Option String := none
  properties : List LabelProperty := []
  deriving DecidableEq, Repr

namespace LabelingOptions

def withAssignment (o : LabelingOptions) (assignment : Assignment) : LabelingOptions :=
  { o with assignment }

/-- Gives the reason for a lower sensitivity; an empty text withdraws it. -/
def justify (o : LabelingOptions) (text : String) : LabelingOptions :=
  { o with justification := if text.isEmpty then none else some text }

/-- Attaches one more property. -/
def addProperty (o : LabelingOptions) (property : LabelProperty) : LabelingOptions :=
  { o with properties := o.properties ++ [property] }

def isJustified (o : LabelingOptions) : Bool :=
  o.justification.isSome

end LabelingOptions
end DocGuard
