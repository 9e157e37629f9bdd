/-! The ways in which an operation can fail, and the one wording of each. -/
namespace DocGuard

/-- Why a file could not be read. -/
inductive FileError where
  | notFound
  | notDirectory
  | isDirectory
  | nameTooLong
  | nulInPath
  | notUtf8
  | other (text : String)
  deriving DecidableEq, Repr

/-- The wording of a file error; the numbers are those of the operating system. -/
def FileError.message : FileError → String
  | .notFound => "No such file or directory (os error 2)"
  | .notDirectory => "Not a directory (os error 20)"
  | .isDirectory => "Is a directory (os error 21)"
  | .nameTooLong => "File name too long (os error 36)"
  | .nulInPath => "file name contained an unexpected NUL byte"
  | .notUtf8 => "stream did not contain valid UTF-8"
  | .other text => text

/-- The parts of an application's description that must not be blank. -/
inductive ApplicationField where
  | id
  | name
  | version
  deriving DecidableEq, Repr

def ApplicationField.text : ApplicationField → String
  | .id => "id"
  | .name => "name"
  | .version => "version"

/-- Why an argument was refused. -/
inductive ArgumentError where
  | negativePosition
  | positionBeyondEnd (position size : Int)
  | noFileName (name : String)
  | blankApplication (field : ApplicationField)
  | unknownFilter (name : String)
  | bothDecryptionModes
  | unreadablePolicyFile (path : String) (cause : FileError)
  | noSourcePath
  | blankApplicationId
  | blankLabelId
  | noReference
  | unprotectedReference (path : String)
  | unknownMethod (name : String)
  | other (text : String)
  deriving DecidableEq, Repr

def ArgumentError.message : ArgumentError → String
  | .negativePosition => "Position must not be less than zero"
  | .positionBeyondEnd position size =>
    "Position " ++ toString position ++ " must not be larger than size " ++ toString size
  | .noFileName name => "Cannot derive an output path from '" ++ name ++ "': no file name"
  | .blankApplication field => "Application " ++ field.text ++ " must not be empty"
  | .unknownFilter name => "Filter type not recognized: " ++ name
  | .bothDecryptionModes => "Both decrypt_top_only and decrypt_all cannot be set at the same time"
  | .unreadablePolicyFile path cause =>
    "Cannot read policy file '" ++ path ++ "': " ++ cause.message
  | .noSourcePath => "Source path must not be empty"
  | .blankApplicationId => "Application id must not be empty"
  | .blankLabelId => "Label id must not be empty"
  | .noReference => "Protect requires a reference protected file"
  | .unprotectedReference path => "Reference file '" ++ path ++ "' is not protected"
  | .unknownMethod name => "Unknown method: " ++ name
  | .other text => text

/-- Why no credential was found. -/
inductive AuthenticationError where
  | noToken (applicationId : String)
  | refused (text : String)
  deriving DecidableEq, Repr

def AuthenticationError.message : AuthenticationError → String
  | .noToken applicationId => "No protection token supplied for application " ++ applicationId
  | .refused text => text

/-- A failure in dealing with the protection engine. What the engine itself reports is passed on
word for word. -/
inductive EngineError where
  | reported (text : String)
  | shutDown
  | nothingWritten
  deriving DecidableEq, Repr

def EngineError.message : EngineError → String
  | .reported text => text
  | .shutDown => "Process context has been shut down"
  | .nothingWritten => "Commit failed; no output file was written"

/-- Why a metric was not registered or not shown. -/
inductive MetricError where
  | alreadyRegistered
  | other (text : String)
  deriving DecidableEq, Repr

def MetricError.message : MetricError → String
  | .alreadyRegistered => "Duplicate metrics collector registration attempted"
  | .other text => "Error: " ++ text

/-- Every failure of the library. -/
inductive Error where
  | io (cause : FileError)
  | invalidArgument (cause : ArgumentError)
  | capacityExceeded (size requested : Int)
  | notImplemented (feature : String)
  | authentication (cause : AuthenticationError)
  | engine (cause : EngineError)
  | accessDenied (required : String) (owner referrer : Option String)
  | commitIntegrity (path : String)
  | cancelled
  | metrics (cause : MetricError)
  deriving DecidableEq, Repr

namespace Error

/-- The wording of an error. A denied access names the owner of the policy when there is one. -/
def message : Error → String
  | io cause => "I/O error: " ++ cause.message
  | invalidArgument cause => "Invalid argument: " ++ cause.message
  | capacityExceeded size requested =>
    "Inserting " ++ toString requested ++ " bytes into a stream of " ++ toString size
      ++ " bytes would exceed maximum stream length"
  | notImplemented feature => "Not implemented: " ++ feature
  | authentication cause => "Authentication failed: " ++ cause.message
  | engine cause => cause.message
  | accessDenied required owner _ =>
    "A minimum right of " ++ required ++ " is required to change label or protection"
      ++ (match owner with
          | some name => " (owner: " ++ name ++ ")"
          | none => "")
  | commitIntegrity path => "Commit reported failure but left an output file at '" ++ path ++ "'"
  | cancelled => "Operation cancelled: the engine dropped its completion without a result"
  | metrics cause => "Metrics error: " ++ cause.message

/-- A fatal error tells of an inconsistent file and is never turned into an ordinary failure. -/
def isFatal : Error → Bool
  | commitIntegrity _ => true
  | _ => false

/-- The errors that come from the protection engine. -/
def isEngineError : Error → Bool
  | engine _ | cancelled | accessDenied .. => true
  | _ => false

/-- The errors that come from what the caller passed. -/
def isArgumentError : Error → Bool
  | invalidArgument _ | notImplemented _ | capacityExceeded .. => true
  | _ => false

end Error
end DocGuard
