import DocGuard.Engine.Program

/-! The state that a host, a running program that uses the library, keeps for all its requests, and
the actions on it. An action ends with a value, with an error or in a panic, and in each case leaves
a state. -/
namespace DocGuard

/-- Who is asked for credentials. -/
inductive TokenSource where
  | passThrough
  | provider
  deriving DecidableEq, Repr

/-- Who is asked for consent. -/
inductive ConsentSource where
  | fixed (answer : Consent)
  | provider
  deriving DecidableEq, Repr

/-- What a host is started with and does not change. -/
structure HostConfig where
  tokens : TokenSource := .passThrough
  consent : ConsentSource := .fixed .acceptAlways
  engine : EngineConfig := {}
  diagnostics : Diagnostics := {}
  cache : CacheStorage := .inMemory
  deriving DecidableEq

/-- The state of a host: the profiles that are loaded, by application id, whether the engine is shut
down, and whether the lock of the profiles was held in a panic. -/
structure Host where
  config : HostConfig := {}
  profiles : List (String × ProfileHandle) := []
  isShutDown : Bool := false
  isPoisoned : Bool := false
  deriving DecidableEq

/-- How an action ends. -/
inductive Exit (α : Type) where
  | value (value : α)
  | error (cause : Error)
  | panic
  deriving DecidableEq, Repr

/-- A program that reads and changes the state of a host. -/
def Action (α : Type) : Type :=
  Host → Program (Exit α × Host)

namespace Action
variable {α β : Type}

def pure (value : α) : Action α :=
  fun host => .done (.value value, host)

/-- Goes on with the value of the first action; an error and a panic end both. -/
def bind (first : Action α) (next : α → Action β) : Action β := fun host => do
  match ← first host with
  | (.value value, after) => next value after
  | (.error cause, after) => return (.error cause, after)
  | (.panic, after) => return (.panic, after)

instance : Monad Action where
  pure := Action.pure
  bind := Action.bind

def fail (cause : Error) : Action α :=
  fun host => .done (.error cause, host)

/-- Ends as a computation without effects does. -/
def ofExcept : Except Error α → Action α
  | .ok value => Action.pure value
  | .error cause => fail cause

/-- Runs a program that leaves the state alone. -/
def ofProgram (program : Program α) : Action α := fun host => do
  return (.value (← program), host)

def get : Action Host :=
  fun host => .done (.value host, host)

def modify (change : Host → Host) : Action Unit :=
  fun host => .done (.value (), change host)

def log (level : LogLevel) (text : String) : Action Unit :=
  ofProgram (.log level text)

/-- Calls a collaborator and waits for its reply. -/
def call (c : Call) : Action c.Reply := fun host => do
  match ← Program.question (.call c) with
  | some reply => return (.value reply, host)
  | none => return (.panic, host)

/-- Ends with the error instead of passing it on. -/
def attempt (action : Action α) : Action (Except Error α) := fun host => do
  match ← action host with
  | (.value value, after) => return (.value (.ok value), after)
  | (.error cause, after) => return (.value (.error cause), after)
  | (.panic, after) => return (.panic, after)

end Action
end DocGuard
