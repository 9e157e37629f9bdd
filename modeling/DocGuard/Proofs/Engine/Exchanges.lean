import Mathlib.Data.List.Basic
import DocGuard.Engine.Path

/-! What the collaborators and the file tree see of a run: its calls, and its looks for files. The
other events, which read a file, read the clock or write to the log, change nothing outside. A reply
to a call can report an error; letting go of an operation is reported as a cancellation. -/
namespace DocGuard

def failureIn {α : Type} : Except Error α → Option Error
  | .ok _ => none
  | .error cause => some cause

theorem failureIn_eq_some {α : Type} {result : Except Error α} {cause : Error} :
    failureIn result = some cause ↔ result = .error cause := by
  cases result <;> simp [failureIn]

namespace Call

/-- The error that a reply reports. -/
def failure : (c : Call) → c.Reply → Option Error
  | acquireToken _, reply => failureIn reply
  | loadProfile _, reply => failureIn reply.result
  | addEngine .., reply => failureIn reply.result
  | contentStatus _, reply => failureIn reply.status
  | openDocument .., reply => failureIn reply.result
  | labelById .., reply => failureIn reply
  | getLabel _, reply => failureIn reply.result
  | getProtection _, reply => failureIn reply.result
  | setLabel .., reply | deleteLabel .., reply | setProtection .., reply
  | removeProtection _, reply => failureIn reply.result
  | commit .., reply => failureIn reply.result
  | consent _, _ | isModified _, _ | outputFileName _, _ => none
  | notifyCommit .., _ | shutdown _, _ => none

/-- The document that a call changes or commits. -/
def altered : Call → Option DocumentHandle
  | setLabel d .. | deleteLabel d _ | setProtection d _ | removeProtection d | commit d _ => some d
  | _ => none

def isCommit : Call → Bool
  | commit .. => true
  | _ => false

end Call

namespace Event

abbrev replied (c : Call) (reply : c.Reply) : Event :=
  ⟨.call c, some reply⟩

/-- A call without a reply: the collaborator panicked. -/
abbrev unanswered (c : Call) : Event :=
  ⟨.call c, none⟩

abbrev looked (path : String) (found : Bool) : Event :=
  ⟨.fileExists path, found⟩

def call? (e : Event) : Option Call :=
  match e.question with
  | .call c => some c
  | _ => none

/-- Calls and looks for files are exchanges with the world outside. -/
def isExchange (e : Event) : Bool :=
  match e.question with
  | .call _ | .fileExists _ => true
  | _ => false

/-- The error that the reply of a call reports. -/
def failure? : Event → Option Error
  | ⟨.call c, some reply⟩ => c.failure reply
  | _ => none

def isCall (kind : Call → Bool) (e : Event) : Bool :=
  e.call?.any kind

@[simp] theorem call?_replied (c : Call) (reply : c.Reply) : (replied c reply).call? = some c := rfl

@[simp] theorem call?_looked (path : String) (found : Bool) :
    (looked path found).call? = none := rfl

@[simp] theorem failure?_replied (c : Call) (reply : c.Reply) :
    (replied c reply).failure? = c.failure reply := rfl

@[simp] theorem isCall_replied (kind : Call → Bool) (c : Call) (reply : c.Reply) :
    (replied c reply).isCall kind = kind c := rfl

theorem failure?_eq_some {e : Event} {cause : Error} :
    e.failure? = some cause ↔ ∃ c reply, e = replied c reply ∧ c.failure reply = some cause := by
  constructor
  · intro h
    unfold failure? at h
    split at h
    · exact ⟨_, _, rfl, h⟩
    · cases h
  · rintro ⟨c, reply, rfl, h⟩
    exact h

end Event

def exchanges (events : List Event) : List Event :=
  events.filter Event.isExchange

@[simp] theorem exchanges_nil : exchanges [] = [] := rfl

@[simp] theorem exchanges_append (first second : List Event) :
    exchanges (first ++ second) = exchanges first ++ exchanges second :=
  List.filter_append ..

@[simp] theorem exchanges_call (c : Call) (answer : Option c.Reply) (events : List Event) :
    exchanges (⟨.call c, answer⟩ :: events) = ⟨.call c, answer⟩ :: exchanges events := rfl

@[simp] theorem exchanges_fileExists (path : String) (found : Bool) (events : List Event) :
    exchanges (⟨.fileExists path, found⟩ :: events) =
      ⟨.fileExists path, found⟩ :: exchanges events := rfl

@[simp] theorem exchanges_readFile (path : String) (answer : Except FileError (List UInt8))
    (events : List Event) : exchanges (⟨.readFile path, answer⟩ :: events) = exchanges events := rfl

@[simp] theorem exchanges_clock (time : Duration) (events : List Event) :
    exchanges (⟨.clock, time⟩ :: events) = exchanges events := rfl

@[simp] theorem exchanges_log (record : LogRecord) (events : List Event) :
    exchanges (⟨.log record, ()⟩ :: events) = exchanges events := rfl

theorem mem_exchanges_of_call {c : Call} {e : Event} {events : List Event} (mem : e ∈ events)
    (called : e.call? = some c) : e ∈ exchanges events := by
  refine List.mem_filter.2 ⟨mem, ?_⟩
  obtain ⟨question, answer⟩ := e
  cases question <;> cases called
  rfl

theorem mem_of_mem_exchanges {e : Event} {events : List Event} (mem : e ∈ exchanges events) :
    e ∈ events :=
  (List.mem_filter.1 mem).1

namespace Run
variable {σ α : Type}

theorem calls_eq_call? (run : Run σ α) : run.calls = run.events.filterMap Event.call? := by
  refine List.filterMap_congr fun e _ => ?_
  obtain ⟨question, answer⟩ := e
  cases question <;> rfl

theorem calls_eq (run : Run σ α) : run.calls = (exchanges run.events).filterMap Event.call? := by
  rw [calls, exchanges, List.filterMap_filter]
  refine List.filterMap_congr fun e _ => ?_
  obtain ⟨question, answer⟩ := e
  cases question <;> rfl

end Run

namespace World

/-- A world whose collaborators do what they are asked. Its documents share one protection, and its
commits end as they are told to. -/
def obliging (protection : Option Policy) (written : Bool) : World Unit where
  reply := fun _ files c => (some (match c with
    | .acquireToken _ => .ok ⟨"secret"⟩
    | .consent _ => .accept
    | .loadProfile _ => .succeeded ⟨0⟩
    | .addEngine .. => .succeeded ⟨0⟩
    | .contentStatus _ => { edits := [], status := .ok { isProtected := protection.isSome } }
    | .openDocument .. => .succeeded ⟨0⟩
    | .labelById _ id => .ok (.mk id "Confidential" 1 none)
    | .getLabel _ => .succeeded none
    | .getProtection _ => .succeeded protection
    | .setLabel .. | .deleteLabel .. | .setProtection .. | .removeProtection _ => .succeeded ()
    | .isModified _ => true
    | .outputFileName _ => "report.docx"
    | .commit .. => .succeeded written
    | .notifyCommit .. | .shutdown _ => ()), (), files)
  time := fun _ => ⟨0⟩

variable {σ : Type}

/-- The collaborators and the files after some events. -/
def after (w : World σ) (state : σ) (files : FileTree) : List Event → σ × FileTree
  | [] => (state, files)
  | e :: events =>
    let (_, state, files) := w.answer state files e.question
    w.after state files events

private theorem after_exchanges (w : World σ) (state : σ) (files : FileTree) (events : List Event) :
    w.after state files (exchanges events) = w.after state files events := by
  induction events generalizing state files with
  | nil => rfl
  | cons e events ih =>
    obtain ⟨question, answer⟩ := e
    cases question with
    | call c => exact ih _ _
    | fileExists path => exact ih _ _
    | readFile path => exact ih _ _
    | clock => exact ih _ _
    | log record => exact ih _ _

/-- Each answer in a run is the world's answer at that moment. -/
theorem answer_of_run {α : Type} (w : World σ) (state : σ) (files : FileTree) (program : Program α)
    {before rest : List Event} {e : Event}
    (h : (w.run state files program).events = before ++ e :: rest) :
    (w.answer (w.after state files before).1 (w.after state files before).2 e.question).1 =
      e.answer := by
  induction program generalizing state files before with
  | done value => simp [run] at h
  | ask q next ih =>
    cases before with
    | nil =>
      simp only [run, List.nil_append, List.cons.injEq] at h
      obtain ⟨rfl, -⟩ := h
      rfl
    | cons first before =>
      simp only [run, List.cons_append, List.cons.injEq] at h
      obtain ⟨rfl, h⟩ := h
      have later := ih _ _ _ h
      exact later

private theorem after_append (w : World σ) (state : σ) (files : FileTree)
    (first second : List Event) :
    w.after state files (first ++ second) =
      w.after (w.after state files first).1 (w.after state files first).2 second := by
  induction first generalizing state files with
  | nil => rfl
  | cons e first ih => exact ih _ _

/-- Between a call and the next exchange nothing outside changes, so that a look for a file shows
the files as the call left them. -/
theorem look_of_run {α : Type} (w : World σ) (state : σ) (files : FileTree) (program : Program α)
    {before rest tail : List Event} {e : Event} {path : String} {found : Bool}
    (h : (w.run state files program).events = before ++ e :: rest)
    (looks : exchanges rest = .looked path found :: tail) :
    (w.after state files (before ++ [e])).2.pathExists path = found := by
  obtain ⟨silent, later, rfl, quiet, -, -⟩ := List.filter_eq_cons_iff.1 looks
  have nothing : exchanges silent = [] := List.filter_eq_nil_iff.2 quiet
  have whole : (w.run state files program).events =
      (before ++ [e] ++ silent) ++ .looked path found :: later := by simp [h]
  have answer := w.answer_of_run state files program whole
  rw [after_append, ← after_exchanges _ _ _ silent, nothing] at answer
  exact answer

theorem reply_of_run {α : Type} (w : World σ) (state : σ) (files : FileTree) (program : Program α)
    {c : Call} {reply : c.Reply}
    (h : .replied c reply ∈ (w.run state files program).events) :
    ∃ state files, (w.reply state files c).1 = some reply := by
  obtain ⟨before, rest, whole⟩ := List.append_of_mem h
  exact ⟨_, _, w.answer_of_run state files program whole⟩

/-- The run of a composed program is the run of its first part and then that of the second. -/
theorem run_bind {α β : Type} (w : World σ) (state : σ) (files : FileTree) (first : Program α)
    (next : α → Program β) :
    w.run state files (first.bind next) =
      let one := w.run state files first
      let two := w.run one.state one.files (next one.value)
      { two with events := one.events ++ two.events } := by
  induction first generalizing state files with
  | done value => rfl
  | ask q rest ih =>
    simp only [Program.bind, run]
    rw [ih]
    rfl

end World
end DocGuard
