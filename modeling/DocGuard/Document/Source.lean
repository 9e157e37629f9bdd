import DocGuard.Buffer.Basic
import DocGuard.Document.Label
import DocGuard.Document.Policy
import DocGuard.Text.Quoted

/-! What the engine is handed of a document, and what it tells of one: its flags without opening it, and
its label and its protection. -/
namespace DocGuard

/-- Whether a document is protected, carries a label, and embeds objects that are protected. -/
structure Status where
  isProtected : Bool := false
  isLabeled : Bool := false
  hasProtectedObjects : Bool := false
  deriving DecidableEq, Repr

/-- There is something to remove when the document or an object in it is protected. -/
def Status.needsUnprotect (s : Status) : Bool :=
  s.isProtected || s.hasProtectedObjects

/-- A document is handed over by its path, or as a buffer under a name that shows its format. -/
inductive Source where
  | path (path : String)
  | buffer (content : Buffer) (identifier : String)

namespace Source

/-- The name by which the engine knows the document. -/
def identifier : Source → String
  | path p => p
  | buffer _ identifier => identifier

/-- A line on the source for diagnosis; of a buffer it shows the size only. -/
def summary : Source → String
  | path p => "Path(" ++ Text.quoted p ++ ")"
  | buffer content identifier =>
    "Stream \x7b identifier: " ++ Text.quoted identifier ++ ", size: " ++ toString content.size
      ++ " \x7d"

end Source

/-- Whether a document is stored, under way or in use; told to the engine for its audit. -/
inductive DataState where
  | rest
  | motion
  | use
  deriving DecidableEq, Repr

def DataState.name : DataState → String
  | rest => "Rest"
  | motion => "Motion"
  | use => "Use"

/-- How a document is opened. -/
structure OpenOptions where
  dataState : DataState := .rest
  auditDiscovery : Bool := false
  customSettings : List (String × String) := []
  deriving DecidableEq, Repr

/-- The label and the protection of an open document. -/
structure Description where
  label : Option AppliedLabel := none
  protection : Option Policy := none

def Description.isPlain (d : Description) : Bool :=
  d.label.isNone && d.protection.isNone

end DocGuard
