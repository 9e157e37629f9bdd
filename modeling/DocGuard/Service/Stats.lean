import DocGuard.Metrics.Exposition
import DocGuard.Service.Method

/-! The metrics of the service: its requests by method and end, those under way, and the calls into
the library by function and end, with the times that they took. -/
namespace DocGuard.Service
open Metrics

/-- How a request ended. -/
inductive RequestStatus where
  | success
  | validationError
  | error
  deriving DecidableEq, Repr

def RequestStatus.name : RequestStatus → String
  | success => "success"
  | validationError => "validation_error"
  | error => "error"

/-- The bounds in milliseconds for the times of requests. -/
def requestBounds : List Nat :=
  [50, 100, 250, 500, 750, 1000, 2500, 5000, 7500, 10000, 15000, 30000, 60000]

/-- The bounds in milliseconds for the times of calls into the library. -/
def externalBounds : List Nat :=
  [10, 25, 50, 100, 250, 500, 750, 1000, 2500, 5000]

/-- The numbers of one method at some time. They are words of 64 bits. -/
structure MethodSnapshot where
  success : UInt64 := 0
  validationError : UInt64 := 0
  error : UInt64 := 0
  active : Int := 0
  totalLatency : Duration := ⟨0⟩
  deriving DecidableEq, Repr

namespace MethodSnapshot

/-- Adds two counters. A sum that no word holds is a panic, which gives nothing. -/
def addCounts (m n : UInt64) : Option UInt64 :=
  if m.toNat + n.toNat < 0x10000000000000000 then some (m + n) else none

/-- The number of requests that ended, or a panic. -/
def finished (s : MethodSnapshot) : Option UInt64 := do
  addCounts (← addCounts s.success s.validationError) s.error

/-- The largest mean, in nanoseconds. -/
def maxAverage : Nat := 0xFFFFFFFFFFFFFFFF

/-- The mean time of the requests that ended, rounded down, if there are any. A panic on the way to
their number is passed on. -/
def averageLatency (s : MethodSnapshot) : Option (Option Duration) := do
  let n ← s.finished
  if n = 0 then return none
  return some ⟨min (s.totalLatency.nanoseconds / n.toNat) maxAverage⟩

end MethodSnapshot

/-- The numbers of one function at some time. -/
structure ExternalSnapshot where
  success : Nat := 0
  error : Nat := 0
  totalLatency : Duration := ⟨0⟩
  deriving DecidableEq, Repr

/-- The metrics of a service. -/
structure Stats where
  requestCount : Series Nat := {}
  requestLatency : Series Histogram := {}
  activeRequests : Series Int := {}
  externalCount : Series Nat := {}
  externalLatency : Series Histogram := {}
  deriving DecidableEq, Repr

/-- A request under way, and when it started. -/
structure Timer where
  method : Method
  started : Duration
  deriving DecidableEq, Repr

def elapsed (since now : Duration) : Duration :=
  ⟨now.nanoseconds - since.nanoseconds⟩

namespace Stats

/-- The names of the metrics, in the order in which they are registered. -/
def names : List String :=
  ["msip_request_count", "msip_request_latency_seconds", "msip_active_requests",
   "msip_external_call_count", "msip_external_call_latency_seconds"]

/-- New metrics, registered under their names. -/
def registered (r : Registry) : Except Error Stats × Registry :=
  match r.registerAll names with
  | (.ok (), next) => (.ok {}, next)
  | (.error cause, next) => (.error cause, next)

def start (s : Stats) (method : Method) (now : Duration) : Timer × Stats :=
  (⟨method, now⟩, { s with activeRequests := s.activeRequests.update 0 [method.name] (· + 1) })

/-- Counts a request that ended. -/
def record (s : Stats) (method : Method) (status : RequestStatus) (time : Duration) : Stats :=
  { s with
    requestCount := s.requestCount.update 0 [method.name, status.name] (· + 1)
    requestLatency := s.requestLatency.update {} [method.name] (·.observe time)
    activeRequests := s.activeRequests.update 0 [method.name] (· - 1) }

/-- Ends a request. One that is let go without an end is to be ended as an error. -/
def finish (s : Stats) (timer : Timer) (status : RequestStatus) (now : Duration) : Stats :=
  s.record timer.method status (elapsed timer.started now)

/-- Counts a call into the library, by whether it succeeded. -/
def observe (s : Stats) (function : String) (succeeded : Bool) (time : Duration) : Stats :=
  let status := if succeeded then RequestStatus.success else .error
  { s with
    externalCount := s.externalCount.update 0 [function, status.name] (· + 1)
    externalLatency := s.externalLatency.update {} [function] (·.observe time) }

def count (s : Stats) (method : Method) (status : RequestStatus) : Nat × Stats :=
  let labels := [method.name, status.name]
  (s.requestCount.value 0 labels, { s with requestCount := s.requestCount.touch 0 labels })

def active (s : Stats) (method : Method) : Int × Stats :=
  let labels := [method.name]
  (s.activeRequests.value 0 labels, { s with activeRequests := s.activeRequests.touch 0 labels })

/-- The number of requests of all methods under way. -/
def activeTotal (s : Stats) : Int × Stats :=
  Method.all.foldl
    (fun (total, s) method =>
      let (n, s) := s.active method
      (total + n, s))
    (0, s)

def snapshot (s : Stats) (method : Method) : MethodSnapshot × Stats :=
  let latency := s.requestLatency.value {} [method.name]
  let s := { s with requestLatency := s.requestLatency.touch {} [method.name] }
  let (success, s) := s.count method .success
  let (validationError, s) := s.count method .validationError
  let (error, s) := s.count method .error
  let (active, s) := s.active method
  ({ success := .ofNat success
     validationError := .ofNat validationError
     error := .ofNat error
     active
     totalLatency := latency.sum }, s)

def externalSnapshot (s : Stats) (function : String) : ExternalSnapshot × Stats :=
  let key := fun (status : RequestStatus) => [function, status.name]
  ({ success := s.externalCount.value 0 (key .success)
     error := s.externalCount.value 0 (key .error)
     totalLatency := (s.externalLatency.value {} [function]).sum },
   { s with
     externalCount := (s.externalCount.touch 0 (key .success)).touch 0 (key .error)
     externalLatency := s.externalLatency.touch {} [function] })

/-- The families that have series, by ascending names. -/
def families (s : Stats) : List Family :=
  [s.activeRequests.family "msip_active_requests" "Number of requests currently being processed"
     .gauge ["method"] numberSample,
   s.externalCount.family "msip_external_call_count" "Count of calls into the protection workflow"
     .counter ["function", "status"] numberSample,
   s.externalLatency.family "msip_external_call_latency_seconds"
     "Time spent in the protection workflow" .histogram ["function"]
     (Histogram.samples externalBounds),
   s.requestCount.family "msip_request_count" "Count of requests received" .counter
     ["method", "status"] numberSample,
   s.requestLatency.family "msip_request_latency_seconds" "Time spent processing request" .histogram
     ["method"] (Histogram.samples requestBounds)].filter (!·.samples.isEmpty)

/-- The lines of all families. Only those of the service are told, not what others have put into the
registry beside them. -/
def lines (s : Stats) : List String :=
  s.families.flatMap Family.lines

def summary (s : Stats) : String × Stats :=
  let (n, s) := s.activeTotal
  ("ServiceStats \x7b active_requests: " ++ toString n ++ ", .. \x7d", s)

end Stats
end DocGuard.Service
