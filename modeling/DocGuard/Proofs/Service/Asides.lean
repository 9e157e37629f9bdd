import DocGuard.Proofs.Engine.Alike
import DocGuard.Proofs.Service.Accounting
import DocGuard.Proofs.Service.Padding

/-! Looks at the metrics of a service between what is done with it. With them and without them the service
asks its collaborators the same and answers the same, and every later look shows the same figures. Only a
later text may have series in addition that were looked at before they had a value, and they are zero. -/
namespace DocGuard.Service
open Metrics Program

/-- What can be asked about the metrics: a figure, the line for diagnosis, or the text of all. -/
inductive Inquiry where
  | look (look : Stats.Look)
  | summary
  | text

/-- What comes back of what is done at a desk. A call under observation comes back with or without
success, or with neither, if it panicked. -/
inductive Answer where
  | nothing
  | response (response : Option Response)
  | returned (succeeded : Option Bool)
  | gauge (n : Int)
  | count (n : Nat)
  | snapshot (figures : MethodSnapshot)
  | external (figures : ExternalSnapshot)
  | summary (line : String)
  | text (lines : List String)

def Stats.Look.answer (s : Stats) : Stats.Look → Answer
  | active method => .gauge (s.active method).1
  | count method status => .count (s.count method status).1
  | snapshot method => .snapshot (s.snapshot method).1
  | external function => .external (s.externalSnapshot function).1
  | total => .gauge s.activeTotal.1

namespace Inquiry

def answer (s : Stats) : Inquiry → Answer
  | look asked => asked.answer s
  | summary => .summary s.summary.1
  | text => .text s.lines

def stats (s : Stats) : Inquiry → Stats
  | look asked => asked.stats s
  | summary => s.summary.2
  | text => s

end Inquiry

/-- Two answers are the same, or they are the texts of metrics, of which the second have further series that
are zero. These stand among the others of their family, or in a family of their own, which has a header. -/
inductive Answer.Agrees : Answer → Answer → Prop where
  | same (answer : Answer) : Agrees answer answer
  | text (s t : Stats) : s.Padded t → Grown Family.Padded Family.IsZero s.families t.families →
      Agrees (.text s.lines) (.text t.lines)

/-- What is done at a desk. The timer that is let go is told by its place among the open ones. -/
inductive Act where
  | start (method : Method)
  | release (place : Nat) (given : Option RequestStatus)
  | invoke (name body : String)
  | observe (function : String) (call : Program (Option Bool))
  | inquire (inquiry : Inquiry)

namespace Desk

def withStats (d : Desk) (stats : Stats) : Desk :=
  { d with service := { d.service with stats } }

def perform (d : Desk) : Act → Program (Answer × Desk)
  | .start method => do
    let (timer, stats) := d.service.stats.start method (← clock)
    return (.nothing, { d.withStats stats with timers := timer :: d.timers })
  | .release place given =>
    match d.timers[place]? with
    | none => return (.nothing, d)
    | some timer => do
      let service ← d.service.release timer given
      return (.nothing, { d with service, timers := d.timers.eraseIdx place })
  | .invoke name body => do
    let left ← d.service.invoke d.host name body
    return (.response left.response, { d with service := left.service, host := left.host })
  | .observe function call => do
    let began ← clock
    match ← call with
    | none => return (.returned none, d)
    | some succeeded =>
      let time := elapsed began (← clock)
      return (.returned succeeded, d.withStats (d.service.stats.observe function succeeded time))
  | .inquire inquiry =>
    return (inquiry.answer d.service.stats, d.withStats (inquiry.stats d.service.stats))

/-- Does one thing after the other, with inquiries in between whose answers are put aside. -/
def work (d : Desk) : List (Act ⊕ Inquiry) → Program (List Answer × Desk)
  | [] => return ([], d)
  | .inl act :: rest => do
    let (answer, next) ← d.perform act
    let (answers, last) ← next.work rest
    return (answer :: answers, last)
  | .inr aside :: rest => do
    let (_, next) ← d.perform (.inquire aside)
    next.work rest

end Desk

/-- The second service has the options of the first, and in its metrics further series, which are zero. -/
structure Padded (s t : Service) : Prop where
  options : t.options = s.options
  stats : s.stats.Padded t.stats

/-- What is left of an invocation is the same up to further series in the metrics. -/
structure Invoked.Padded (left right : Invoked) : Prop where
  response : right.response = left.response
  host : right.host = left.host
  service : left.service.Padded right.service

/-- The desks are the same up to further series in the metrics. -/
structure Desk.Padded (d e : Desk) : Prop where
  service : d.service.Padded e.service
  host : e.host = d.host
  timers : e.timers = d.timers

namespace Padded
variable {s t : Service} {host : Host} {method : Method} {timer : Timer}
  {given : Option RequestStatus} {response : Option Response}

theorem release (h : s.Padded t) :
    Alike Service.Padded (s.release timer given) (t.release timer given) :=
  .ask .clock fun now => .done ⟨h.options, h.stats.finish now⟩

theorem observe {succeeded : Bool} {began : Duration} (h : s.Padded t) :
    Alike Service.Padded (s.observe method succeeded began) (t.observe method succeeded began) :=
  .ask .clock fun _ => .done ⟨h.options, h.stats.observe⟩

theorem ended (h : s.Padded t) : Alike Invoked.Padded
    (s.release timer given >>= fun after => Pure.pure ⟨response, host, after⟩)
    (t.release timer given >>= fun after => Pure.pure ⟨response, host, after⟩) :=
  h.release.bind fun _ _ padded => .done ⟨rfl, rfl, padded⟩

theorem serve {request : Request} (h : s.Padded t) :
    Alike Invoked.Padded (s.serve host method timer request) (t.serve host method timer request) := by
  unfold Service.serve
  -- The request sees the options and the host only, and so it is one program on both sides.
  rw [h.options]
  refine .ask .clock fun began => .behind (request.executeToJson s.options host) ?_
  rintro ⟨exit, after⟩
  cases exit with
  | value body => exact h.observe.bind fun _ _ counted => counted.ended
  | error cause => exact h.observe.bind fun _ _ counted => .ask (.log _) fun _ => counted.ended
  | panic => exact h.ended

theorem invoke (name body : String) (h : s.Padded t) :
    Alike Invoked.Padded (s.invoke host name body) (t.invoke host name body) := by
  unfold Service.invoke
  cases Method.ofName name with
  | error cause => exact .ask (.log _) fun _ => .done ⟨rfl, rfl, h⟩
  | ok method =>
    refine .ask (.log _) fun _ => .ask .clock fun started => ?_
    have begun : Service.Padded { s with stats := (s.stats.start method started).2 }
        { t with stats := (t.stats.start method started).2 } := ⟨h.options, h.stats.start started⟩
    cases method.readBody body with
    | error text => exact .ask (.log _) fun _ => begun.ended
    | ok request => exact begun.serve

end Padded

section Inquiries
variable {s t : Stats}

private theorem Stats.Look.answer_eq (look : Stats.Look) (h : s.Padded t) :
    look.answer t = look.answer s := by
  cases look with
  | active method => exact congrArg Answer.gauge h.active
  | count method status => exact congrArg Answer.count h.count
  | snapshot method => exact congrArg Answer.snapshot h.snapshot
  | external function => exact congrArg Answer.external h.externalSnapshot
  | total => exact congrArg Answer.gauge h.activeTotal

theorem Inquiry.agrees (inquiry : Inquiry) (h : s.Padded t) :
    (inquiry.answer s).Agrees (inquiry.answer t) := by
  cases inquiry with
  | look asked =>
    rw [answer, answer, asked.answer_eq h]
    exact .same _
  | summary =>
    rw [answer, answer, h.summary]
    exact .same _
  | text => exact .text s t h h.families

private theorem Inquiry.touches (inquiry : Inquiry) : Stats.Touches inquiry.stats := by
  cases inquiry with
  | look asked => exact .look asked
  | summary => exact .activeTotal
  | text => exact ⟨id, id⟩

end Inquiries

namespace Desk.Padded
variable {d e : Desk}

theorem aside (h : d.Padded e) (inquiry : Inquiry) :
    d.Padded (e.withStats (inquiry.stats e.service.stats)) :=
  ⟨⟨h.service.options, inquiry.touches.aside h.service.stats⟩, h.host, h.timers⟩

/-- The same thing done at both desks. -/
theorem perform (h : d.Padded e) (act : Act) :
    Alike (fun bare full => bare.1.Agrees full.1 ∧ bare.2.Padded full.2) (d.perform act)
      (e.perform act) := by
  obtain ⟨s, _, _⟩ := d
  obtain ⟨t, host, timers⟩ := e
  obtain ⟨service, rfl, rfl⟩ := h
  cases act with
  | start method =>
    refine .ask .clock fun now => .done ⟨.same _, ?_⟩
    exact ⟨⟨service.options, service.stats.start now⟩, rfl, rfl⟩
  | release place given =>
    dsimp only [Desk.perform]
    cases timers[place]? with
    | none => exact .done ⟨.same _, service, rfl, rfl⟩
    | some timer => exact service.release.bind fun _ _ after => .done ⟨.same _, after, rfl, rfl⟩
  | invoke name body =>
    refine (service.invoke name body).bind fun left right padded => ?_
    rw [padded.response]
    exact .done ⟨.same _, padded.service, padded.host, rfl⟩
  | observe function call =>
    refine .ask .clock fun began => .behind call fun came => ?_
    cases came with
    | none => exact .done ⟨.same _, service, rfl, rfl⟩
    | some succeeded =>
      exact .ask .clock fun _ => .done ⟨.same _, ⟨service.options, service.stats.observe⟩, rfl, rfl⟩
  | inquire inquiry =>
    refine .done ⟨inquiry.agrees service.stats, ?_⟩
    exact ⟨⟨service.options, inquiry.touches.along service.stats⟩, rfl, rfl⟩

/-- One thing after the other at both desks, with inquiries in between at the second. -/
theorem work (h : d.Padded e) (items : List (Act ⊕ Inquiry)) :
    Alike (fun bare full => List.Forall₂ Answer.Agrees bare.1 full.1 ∧ bare.2.Padded full.2)
      (d.work (items.filter Sum.isLeft)) (e.work items) := by
  -- On the items, for all desks: an act takes both on, an inquiry aside takes on the second alone.
  induction items generalizing d e with
  | nil => exact .done ⟨.nil, h⟩
  | cons item items ih =>
    cases item with
    | inl act =>
      refine (h.perform act).bind fun _ _ ⟨agrees, next⟩ => (ih next).bind fun _ _ ⟨rest, last⟩ => ?_
      exact .done ⟨.cons agrees rest, last⟩
    | inr aside => exact ih (h.aside aside)

end Desk.Padded

/-- Whatever is done with a new service, inquiries in between disturb nothing. The service asks the world the
same with them and without them, and every answer is the same, except that a text may have series in
addition, which are zero. -/
theorem asides_disturb_nothing (options : RunOptions) (host : Host) (items : List (Act ⊕ Inquiry)) :
    let desk : Desk := ⟨{ options }, host, []⟩
    Alike (fun bare full => List.Forall₂ Answer.Agrees bare.1 full.1)
      (desk.work (items.filter Sum.isLeft)) (desk.work items) := by
  intro desk
  have start : desk.Padded desk := ⟨⟨rfl, Stats.padded_empty⟩, rfl, rfl⟩
  exact (start.work items).mono fun _ _ padded => padded.1

/-- A look at a figure that was never counted leaves a family behind. -/
example : let look : Inquiry := .look (.count .inspectFile .error)
    ({} : Stats).lines = [] ∧ (look.stats {}).lines =
      ["# HELP msip_request_count Count of requests received", "# TYPE msip_request_count counter",
        "msip_request_count\x7bmethod=\"inspect_file\",status=\"error\"\x7d 0"] := by
  decide +kernel

end DocGuard.Service
