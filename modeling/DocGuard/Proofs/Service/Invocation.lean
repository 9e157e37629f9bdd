import DocGuard.Engine.Path
import DocGuard.Proofs.Engine.Exchanges
import DocGuard.Service.Invoke

/-! What an invocation of the service does: which answer it gives, what it asks the collaborators,
and what it leaves in the metrics. -/
namespace DocGuard

section Asking
variable {α : Type} {events : List Event} {value : α}

private theorem Program.path_clock_bind {next : Duration → Program α}
    (h : Path (clock >>= next) events value) :
    ∃ (now : Duration) (rest : List Event), events = ⟨.clock, now⟩ :: rest ∧
      Path (next now) rest value :=
  Path.ask_iff.1 h

private theorem Program.path_log_bind {level : LogLevel} {text : String} {next : Unit → Program α}
    (h : Path (log level text >>= next) events value) :
    ∃ rest, events = ⟨.log ⟨level, text⟩, ()⟩ :: rest ∧ Path (next ()) rest value := by
  obtain ⟨_, rest, rfl, last⟩ := Path.ask_iff.1 h
  exact ⟨rest, rfl, last⟩

end Asking

namespace Service
open Program

/-- How an invocation of a known method ends. -/
inductive Ending where
  | answered (body : String)
  | invalid (text : String)
  | failed (cause : Error)
  | panicked

namespace Ending

/-- The end of an invocation whose request was executed. -/
def ofExit : Exit String → Ending
  | .value body => answered body
  | .error cause => failed cause
  | .panic => panicked

def response : Ending → Option Response
  | answered body => some ⟨200, body⟩
  | invalid text => some ⟨400, text⟩
  | failed cause => some ⟨500, cause.message⟩
  | panicked => none

/-- The end of the timer. -/
def status : Ending → RequestStatus
  | answered _ => .success
  | invalid _ => .validationError
  | failed _ | panicked => .error

/-- Whether the call into the library that is counted succeeded, if one is. -/
def called : Ending → Option Bool
  | answered _ => some true
  | failed _ => some false
  | invalid _ | panicked => none

end Ending

namespace Stats

/-- The metrics with a call into the library counted, if it came back. -/
def counted (s : Stats) (method : Method) (called : Option Bool) (time : Duration) : Stats :=
  match called with
  | some succeeded => s.observe method.externalFunction succeeded time
  | none => s

/-- The metrics after an invocation that was started and ended at some times: one timer was started
and ended, and the call into the library was counted in between. -/
def invoked (s : Stats) (method : Method) (ending : Ending) (started time ended : Duration) :
    Stats :=
  ((s.start method started).2.counted method ending.called time).finish (s.start method started).1
    ending.status ended

end Stats

/-- The ways in which an invocation can go, with its exchanges and what it leaves. -/
inductive Invocation (s : Service) (host : Host) (name body : String) :
    List Event → Invoked → Prop where
  | unknown (cause : Error) : Method.ofName name = .error cause →
      Invocation s host name body [] ⟨some ⟨404, cause.message⟩, host, s⟩
  | invalid (method : Method) (text : String) (started ended : Duration) :
      Method.ofName name = .ok method → method.readBody body = .error text →
      Invocation s host name body [] ⟨(Ending.invalid text).response, host,
        { s with stats := s.stats.invoked method (.invalid text) started ⟨0⟩ ended }⟩
  | served (method : Method) (request : Request) (inner : List Event) (exit : Exit String)
      (after : Host) (started time ended : Duration) : Method.ofName name = .ok method →
      method.readBody body = .ok request →
      Path (request.executeToJson s.options host) inner (exit, after) →
      Invocation s host name body (exchanges inner) ⟨(Ending.ofExit exit).response, after,
        { s with stats := s.stats.invoked method (.ofExit exit) started time ended }⟩

variable {s : Service} {host : Host} {name body : String} {events : List Event} {left : Invoked}

theorem path_release {timer : Timer} {given : Option RequestStatus} {after : Service}
    (h : Path (s.release timer given) events after) : exchanges events = [] ∧
      ∃ now, after = { s with stats := s.stats.finish timer (given.getD .error) now } := by
  obtain ⟨now, rest, rfl, last⟩ := path_clock_bind h
  obtain ⟨rfl, rfl⟩ := Path.done_iff.1 last
  exact ⟨rfl, now, rfl⟩

private theorem path_observe {method : Method} {succeeded : Bool} {began : Duration}
    {after : Service}
    (h : Path (s.observe method succeeded began) events after) : exchanges events = [] ∧
      ∃ time, after = { s with stats := s.stats.observe method.externalFunction succeeded time } := by
  obtain ⟨now, rest, rfl, last⟩ := path_clock_bind h
  obtain ⟨rfl, rfl⟩ := Path.done_iff.1 last
  exact ⟨rfl, _, rfl⟩

private theorem path_ended {timer : Timer} {given : Option RequestStatus}
    {response : Option Response}
    (h : Path (s.release timer given >>= fun after => Pure.pure ⟨response, host, after⟩) events
      left) :
    exchanges events = [] ∧ ∃ ended, left = ⟨response, host,
      { s with stats := s.stats.finish timer (given.getD .error) ended }⟩ := by
  obtain ⟨before, rest, after, rfl, release, last⟩ := Path.bind_iff.1 h
  obtain ⟨quiet, ended, rfl⟩ := path_release release
  obtain ⟨rfl, rfl⟩ := Path.done_iff.1 last
  exact ⟨by simpa using quiet, ended, rfl⟩

private theorem path_serve {method : Method} {request : Request} {timer : Timer}
    (h : Path (s.serve host method timer request) events left) :
    ∃ inner exit after time ended, Path (request.executeToJson s.options host) inner (exit, after) ∧
      exchanges events = exchanges inner ∧ left =
        ⟨(Ending.ofExit exit).response, after, ⟨s.options, (s.stats.counted method
          (Ending.ofExit exit).called time).finish timer (Ending.ofExit exit).status ended⟩⟩ := by
  obtain ⟨began, executing, rfl, execution⟩ := path_clock_bind h
  obtain ⟨inner, ending, ⟨exit, after⟩, rfl, path, ended⟩ := Path.bind_iff.1 execution
  cases exit with
  | value body =>
    obtain ⟨counting, last, counted, rfl, observe, closing⟩ := Path.bind_iff.1 ended
    obtain ⟨silent, time, rfl⟩ := path_observe observe
    obtain ⟨quiet, now, rfl⟩ := path_ended closing
    refine ⟨inner, _, after, time, now, path, ?_, rfl⟩
    rw [exchanges_clock, exchanges_append, exchanges_append, silent, quiet, List.append_nil,
      List.append_nil]
  | error cause =>
    obtain ⟨counting, recording, counted, rfl, observe, recorded⟩ := Path.bind_iff.1 ended
    obtain ⟨silent, time, rfl⟩ := path_observe observe
    obtain ⟨last, rfl, closing⟩ := path_log_bind recorded
    obtain ⟨quiet, now, rfl⟩ := path_ended closing
    refine ⟨inner, _, after, time, now, path, ?_, rfl⟩
    rw [exchanges_clock, exchanges_append, exchanges_append, silent, exchanges_log, quiet,
      List.append_nil, List.append_nil]
  | panic =>
    obtain ⟨quiet, now, rfl⟩ := path_ended ended
    refine ⟨inner, _, after, ⟨0⟩, now, path, ?_, rfl⟩
    rw [exchanges_clock, exchanges_append, quiet, List.append_nil]

/-- An invocation goes in one of these ways. -/
theorem path_invoke (h : Path (s.invoke host name body) events left) :
    s.Invocation host name body (exchanges events) left := by
  unfold invoke at h
  cases known : Method.ofName name with
  | error cause =>
    rw [known] at h
    obtain ⟨rest, rfl, last⟩ := path_log_bind h
    obtain ⟨rfl, rfl⟩ := Path.done_iff.1 last
    exact .unknown cause known
  | ok method =>
    rw [known] at h
    obtain ⟨timing, rfl, timed⟩ := path_log_bind h
    obtain ⟨started, reading, rfl, answered⟩ := path_clock_bind timed
    cases read : method.readBody body with
    | error text =>
      simp only [read] at answered
      obtain ⟨ending, rfl, ended⟩ := path_log_bind answered
      obtain ⟨quiet, now, rfl⟩ := path_ended ended
      rw [exchanges_log, exchanges_clock, exchanges_log, quiet]
      exact .invalid method text started now known read
    | ok request =>
      simp only [read] at answered
      obtain ⟨inner, exit, after, time, ended, path, same, rfl⟩ := path_serve answered
      rw [exchanges_log, exchanges_clock, same]
      exact .served method request inner exit after started time ended known read path

end Service
end DocGuard
