import DocGuard.Error
import DocGuard.Text.Basic

/-! Kinds of labels that can be switched on or off, and lists of their names. -/
namespace DocGuard

/-- A kind of labels. -/
inductive LabelFilter where
  | none
  | customProtection
  | templateProtection
  | doNotForwardProtection
  | adhocProtection
  | hyokProtection
  | predefinedTemplateProtection
  | doubleKeyProtection
  | doubleKeyUserDefinedProtection
  | sensitiveInformationClassifier
  | machineLearningClassifier
  | extendedSensitiveInformationClassifier
  deriving DecidableEq, Repr

namespace LabelFilter

def all : List LabelFilter :=
  [.none, .customProtection, .templateProtection, .doNotForwardProtection, .adhocProtection,
   .hyokProtection, .predefinedTemplateProtection, .doubleKeyProtection,
   .doubleKeyUserDefinedProtection, .sensitiveInformationClassifier, .machineLearningClassifier,
   .extendedSensitiveInformationClassifier]

def name : LabelFilter → String
  | none => "None"
  | customProtection => "CustomProtection"
  | templateProtection => "TemplateProtection"
  | doNotForwardProtection => "DoNotForwardProtection"
  | adhocProtection => "AdhocProtection"
  | hyokProtection => "HyokProtection"
  | predefinedTemplateProtection => "PredefinedTemplateProtection"
  | doubleKeyProtection => "DoubleKeyProtection"
  | doubleKeyUserDefinedProtection => "DoubleKeyUserDefinedProtection"
  | sensitiveInformationClassifier => "SensitiveInformationClassifier"
  | machineLearningClassifier => "MachineLearningClassifier"
  | extendedSensitiveInformationClassifier => "ExtendedSensitiveInformationClassifier"

/-- The kind of a name, in exactly these letters. -/
def ofName (name : String) : Except Error LabelFilter :=
  match all.find? (·.name == name) with
  | some filter => .ok filter
  | Option.none => .error (.invalidArgument (.unknownFilter name))

/-- The entries of a list: what stands between the commas, without the blanks around it. -/
def entries (list : String) : List String :=
  ((list.toList.splitOn ',').map Text.trimChars).filter (!·.isEmpty) |>.map String.ofList

/-- The kinds named in a list. Entries of blanks alone are passed over; the first unknown name
fails. -/
def parseList (list : String) : Except Error (List LabelFilter) :=
  (entries list).mapM ofName

end LabelFilter
end DocGuard
