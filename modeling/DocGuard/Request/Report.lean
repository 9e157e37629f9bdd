import DocGuard.Document.Source
import DocGuard.Json.Value
import DocGuard.Request.Basic

/-! How a request ended, and the two texts of it: a line for the log and a JSON object for the
caller. -/
namespace DocGuard

/-- How a request ended. -/
inductive Outcome where
  | inspected (status : Status)
  | committed (path : String)
  | noChange (reason : String)
  | failed (message : String)
  deriving DecidableEq, Repr

/-- Why nothing was done to a document without protection. -/
def Outcome.notProtected : String :=
  "File is not protected and does not contain protected objects, no change made."

/-- Why nothing was written of a document that did not change. -/
def Outcome.nothingToCommit : String :=
  "No changes to commit"

/-- The one report on a request. -/
structure Report where
  kind : OperationKind
  source : String
  outcome : Outcome
  deriving DecidableEq, Repr

namespace Report

/-- The operation did what it is for. A document that was left as it is does not count. -/
def succeeded (r : Report) : Bool :=
  match r.outcome with
  | .inspected _ | .committed _ => true
  | .noChange _ | .failed _ => false

/-- The file that was written. -/
def outputPath (r : Report) : Option String :=
  match r.outcome with
  | .committed path => some path
  | _ => none

/-- What failed, or why nothing changed; empty after a success. -/
def errorMessage (r : Report) : String :=
  match r.outcome with
  | .noChange text | .failed text => text
  | .inspected _ | .committed _ => ""

def status (r : Report) : Option Status :=
  match r.outcome with
  | .inspected status => some status
  | _ => none

/-- The object for the caller, its names ascending. An inspection gives the flags or an error, with
the path of the source; every other report gives the path that was written. -/
def payload (r : Report) : Json.Value :=
  match r.outcome, r.kind with
  | .inspected status, _ =>
    .object [
      ("labeled", .bool status.isLabeled),
      ("path", .string r.source),
      ("protected", .bool status.isProtected),
      ("protected_objects", .bool status.hasProtectedObjects),
      ("status", .bool true)]
  | .failed message, .inspect =>
    .object [("error", .string message), ("path", .string r.source), ("status", .bool false)]
  | _, _ =>
    .object [
      ("error", .string r.errorMessage),
      ("path", .string (r.outputPath.getD "")),
      ("status", .bool r.succeeded)]

def json (r : Report) : String :=
  r.payload.render

def line (r : Report) : String :=
  let subject := r.kind.name ++ " " ++ r.source
  match r.outcome with
  | .inspected status =>
    subject ++ ": protected=" ++ toString status.isProtected
      ++ ", labeled=" ++ toString status.isLabeled
      ++ ", protected_objects=" ++ toString status.hasProtectedObjects
  | .committed path => subject ++ ": wrote " ++ path
  | .noChange reason => subject ++ ": " ++ reason
  | .failed message => subject ++ " failed: " ++ message

end Report
end DocGuard
