import DocGuard.Json.Record
import DocGuard.Request.Basic

/-! The methods of the service, and the bodies that they take. -/
namespace DocGuard.Service

/-- What the service can be asked to do. -/
inductive Method where
  | inspectFile
  | unprotectFile
  | protectFile
  deriving DecidableEq, Repr

namespace Method

def all : List Method :=
  [inspectFile, unprotectFile, protectFile]

def name : Method → String
  | inspectFile => "inspect_file"
  | unprotectFile => "unprotect_file"
  | protectFile => "protect_file"

/-- The name under which the work for a method is timed. -/
def externalFunction : Method → String
  | inspectFile => "get_file_status"
  | unprotectFile => "unprotect_file"
  | protectFile => "protect_file"

def index : Method → Nat
  | inspectFile => 0
  | unprotectFile => 1
  | protectFile => 2

/-- The method of a name, in exactly these letters. -/
def ofName (name : String) : Except Error Method :=
  match all.find? (·.name == name) with
  | some method => .ok method
  | none => .error (.invalidArgument (.unknownMethod name))

end Method

/-- The record that a method takes. -/
def Method.shape : Method → Json.Shape
  | inspectFile => ⟨"FileData", ["file", "application_id"]⟩
  | unprotectFile => ⟨"UnprotectFileData", ["file", "application_id", "scc_token"]⟩
  | protectFile =>
    ⟨"ProtectFileData", ["file", "application_id", "scc_token", "user", "encrypted_file"]⟩

/-- The request that the texts of a record make, given in the order of the fields. -/
def Method.request (method : Method) (texts : List String) : Request :=
  let text := fun n => texts.getD n ""
  match method with
  | inspectFile => .inspect (text 0) (text 1)
  | unprotectFile => (Request.unprotect (text 0) (text 1)).withToken (text 2)
  | protectFile =>
    ((Request.protect (text 0) (text 4) (text 1)).withToken (text 2)).withUser (text 3)

/-- The request in a body, or the wording of what is wrong with it. -/
def Method.readBody (method : Method) (body : String) : Except String Request :=
  let text := body.toList
  match Json.parseRecord method.shape text with
  | .error fault => .error (fault.message text)
  | .ok texts => .ok (method.request texts)

end DocGuard.Service
