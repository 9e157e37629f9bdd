import DocGuard.Service.Stats
import DocGuard.Request.Run

/-! The service: it takes a method and a JSON body and answers with a code and a body. Each request
is counted and timed. -/
namespace DocGuard
open Metrics (Registry)

namespace Service

/-- An answer, with a code as HTTP has it. -/
structure Response where
  code : Nat
  body : String
  deriving DecidableEq, Repr

/-- The type that every body is announced with. -/
def Response.contentType (_ : Response) : String :=
  "application/json"

def Response.isOk (r : Response) : Bool :=
  r.code == 200

end Service

/-- A service with its options and its metrics. -/
structure Service where
  options : RunOptions := {}
  stats : Service.Stats := {}
  deriving DecidableEq

/-- What an invocation leaves; a panic gives no response. -/
structure Service.Invoked where
  response : Option Service.Response
  host : Host
  service : Service

namespace Service

/-- A service whose metrics are registered. -/
def registered (options : RunOptions) (r : Registry) : Except Error Service × Registry :=
  match Stats.registered r with
  | (.ok stats, next) => (.ok { options, stats }, next)
  | (.error cause, next) => (.error cause, next)

/-- The service when a timer is let go: its request ends now, as an error unless the timer was given
another end. -/
def release (s : Service) (timer : Timer) (given : Option RequestStatus) : Program Service := do
  return { s with stats := s.stats.finish timer (given.getD .error) (← Program.clock) }

/-- The service with the request of a timer ended now. -/
def finish (s : Service) (timer : Timer) (status : RequestStatus) : Program Service :=
  s.release timer (some status)

/-- The service with a call into the library counted that began at a time. -/
def observe (s : Service) (method : Method) (succeeded : Bool) (began : Duration) :
    Program Service := do
  let time := elapsed began (← Program.clock)
  return { s with stats := s.stats.observe method.externalFunction succeeded time }

/-- Runs the request of an invocation and ends its timer. A panic passes by the count of calls, and
lets the timer go. -/
def serve (s : Service) (host : Host) (method : Method) (timer : Timer) (request : Request) :
    Program Invoked := do
  let began ← Program.clock
  match ← request.executeToJson s.options host with
  | (.value body, host) =>
    let s ← s.observe method true began
    return ⟨some ⟨200, body⟩, host, ← s.finish timer .success⟩
  | (.error cause, host) =>
    let s ← s.observe method false began
    Program.log .error ("Error in " ++ method.name ++ ": " ++ cause.message)
    return ⟨some ⟨500, cause.message⟩, host, ← s.finish timer .error⟩
  | (.panic, host) => return ⟨none, host, ← s.release timer none⟩

/-- Answers an invocation. An unknown method and a body that is no request are answered without a
call on a collaborator. -/
def invoke (s : Service) (host : Host) (method body : String) : Program Invoked := do
  match Method.ofName method with
  | .error cause =>
    Program.log .warn cause.message
    return ⟨some ⟨404, cause.message⟩, host, s⟩
  | .ok method =>
    Program.log .info ("Received " ++ method.name ++ " invocation")
    let (timer, stats) := s.stats.start method (← Program.clock)
    let s := { s with stats }
    match method.readBody body with
    | .error text =>
      Program.log .info ("Validation error in " ++ method.name ++ ": " ++ text)
      return ⟨some ⟨400, text⟩, host, ← s.finish timer .validationError⟩
    | .ok request => s.serve host method timer request

end Service
end DocGuard
