import DocGuard.Error
import DocGuard.Text.Basic

/-! The application that a request comes from, and what is set for its profile. -/
namespace DocGuard

/-- An application with its registration id. -/
structure Application where
  id : String
  name : String := "docseal"
  version : String := "0.1.0"
  deriving DecidableEq, Repr

/-- An application needs an id, a name and a version that are not blank; the first that is decides
the error. -/
def Application.validate (a : Application) : Except Error Unit :=
  if Text.isBlankText a.id then .error (.invalidArgument (.blankApplication .id))
  else if Text.isBlankText a.name then .error (.invalidArgument (.blankApplication .name))
  else if Text.isBlankText a.version then .error (.invalidArgument (.blankApplication .version))
  else .ok ()

/-- A span of time in nanoseconds. -/
structure Duration where
  nanoseconds : Nat
  deriving DecidableEq, Repr

namespace Duration

def ofMilliseconds (n : Nat) : Duration :=
  ⟨n * 1000000⟩

def milliseconds (d : Duration) : Nat :=
  d.nanoseconds / 1000000

/-- A number with decimals: `part` of `unit`, behind the point and without zeros at the end. -/
def decimal (whole part unit : Nat) : String :=
  let places := (Nat.toDigits 10 (unit + part)).drop 1
  let digits := (places.reverse.dropWhile (· = '0')).reverse
  toString whole ++ (if digits.isEmpty then "" else "." ++ String.ofList digits)

def seconds (d : Duration) : String :=
  decimal (d.nanoseconds / 1000000000) (d.nanoseconds % 1000000000) 1000000000

/-- The span in the largest unit of which it has at least one, with its decimals. -/
def text (d : Duration) : String :=
  let n := d.nanoseconds
  if 1000000000 ≤ n then d.seconds ++ "s"
  else if 1000000 ≤ n then decimal (n / 1000000) (n % 1000000) 1000000 ++ "ms"
  else if 1000 ≤ n then decimal (n / 1000) (n % 1000) 1000 ++ "µs"
  else toString n ++ "ns"

end Duration

/-- How much an engine reports, and how long its end may take; without a bound it takes its time. -/
structure Diagnostics where
  auditEnhanced : Bool := true
  maxTeardown : Option Duration := some (.ofMilliseconds 2000)
  deriving DecidableEq, Repr

/-- Where an engine keeps the state of a profile. -/
inductive CacheStorage where
  | inMemory
  | onDisk
  | onDiskEncrypted
  deriving DecidableEq, Repr

def CacheStorage.name : CacheStorage → String
  | inMemory => "InMemory"
  | onDisk => "OnDisk"
  | onDiskEncrypted => "OnDiskEncrypted"

/-- What a profile is loaded with. -/
structure ProfileSettings where
  application : Application
  cache : CacheStorage
  telemetry : Bool
  diagnostics : Diagnostics
  deriving DecidableEq, Repr

end DocGuard
