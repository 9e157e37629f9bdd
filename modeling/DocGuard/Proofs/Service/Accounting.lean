import DocGuard.Proofs.Service.Figures

/-! The books of a service: its figures are those of what happened, in whatever order timers are
opened and let go and methods are invoked, and whether or not the engine fails or panics. -/
namespace DocGuard.Service
open Program

/-- A service at work, with its host and the timers that are open. -/
structure Desk where
  service : Service
  host : Host
  timers : List Timer

/-- What can happen at a desk. A timer is let go with the status that it was given, if it was given
one. An invocation is kept with the service and the host that it met, and what it left. -/
inductive Entry where
  | opened (method : Method)
  | closed (timer : Timer) (given : Option RequestStatus)
  | invoked (service : Service) (host : Host) (name body : String) (events : List Event)
      (left : Invoked)
  | looked (look : Stats.Look)

/-- One event at a desk. -/
inductive Desk.Step : Desk → Entry → Desk → Prop where
  | opened (d : Desk) (method : Method) (now : Duration) :
      Step d (.opened method)
        ⟨{ d.service with stats := (d.service.stats.start method now).2 }, d.host,
          (d.service.stats.start method now).1 :: d.timers⟩
  | closed (d : Desk) (timer : Timer) (given : Option RequestStatus) (events : List Event)
      (after : Service) : timer ∈ d.timers → Path (d.service.release timer given) events after →
      Step d (.closed timer given) ⟨after, d.host, d.timers.erase timer⟩
  | invoked (d : Desk) (name body : String) (events : List Event) (left : Invoked) :
      Path (d.service.invoke d.host name body) events left →
      Step d (.invoked d.service d.host name body events left) ⟨left.service, left.host, d.timers⟩
  | looked (d : Desk) (look : Stats.Look) :
      Step d (.looked look)
        ⟨{ d.service with stats := look.stats d.service.stats }, d.host, d.timers⟩

/-- Any number of events, one after the other. -/
inductive Desk.Steps : Desk → List Entry → Desk → Prop where
  | nil (d : Desk) : Steps d [] d
  | cons {d middle last : Desk} {entry : Entry} {entries : List Entry} :
      d.Step entry middle → Steps middle entries last → Steps d (entry :: entries) last

/-- The status that stands for an answer of a known method; no answer is an error. -/
def Invoked.status (left : Invoked) : RequestStatus :=
  match left.response.map Response.code with
  | some 200 => .success
  | some 400 => .validationError
  | _ => .error

namespace Entry

/-- The method whose timer was started. -/
def started : Entry → Option Method
  | opened method => some method
  | invoked _ _ name _ _ _ => (Method.ofName name).toOption
  | _ => none

/-- The method whose timer was ended, and the status that it was ended with. -/
def ended : Entry → Option (Method × RequestStatus)
  | closed timer given => some (timer.method, given.getD .error)
  | invoked _ _ name _ _ left => (Method.ofName name).toOption.map fun method => (method, left.status)
  | _ => none

/-- The method that was answered, and the code of the answer. -/
def answered : Entry → Option (Method × Nat)
  | invoked _ _ name _ _ left =>
    match (Method.ofName name).toOption, left.response with
    | some method, some response => some (method, response.code)
    | _, _ => none
  | _ => none

end Entry

/-- The code with which a call into the library is answered. -/
def codeOf (succeeded : Bool) : Nat :=
  if succeeded then 200 else 500

private theorem Ending.status_of_response {ending : Ending} {left : Invoked}
    (h : left.response = ending.response) : left.status = ending.status := by
  unfold Invoked.status
  rw [h]
  cases ending <;> rfl

/-- The books agree with what happened. -/
structure Balanced (entries : List Entry) (d : Desk) : Prop where
  ordered : d.service.stats.Ordered
  active : ∀ m, (d.service.stats.active m).1 = d.timers.countP (·.method = m)
  count : ∀ m status,
    (d.service.stats.count m status).1 = entries.countP (·.ended = some (m, status))
  called : ∀ m succeeded,
    d.service.stats.called m succeeded = entries.countP (·.answered = some (m, codeOf succeeded))
  started : ∀ m, entries.countP (·.started = some m) =
    d.timers.countP (·.method = m) + entries.countP (·.ended.map Prod.fst = some m)

/-- An invocation of a known method starts and ends one timer of it. -/
theorem Invocation.known {s : Service} {host : Host} {name body : String} {events : List Event}
    {left : Invoked} {method : Method} (h : s.Invocation host name body events left)
    (known : Method.ofName name = .ok method) :
    ∃ ending started time ended, left.response = ending.response ∧
      left.service = { s with stats := s.stats.invoked method ending started time ended } := by
  cases h with
  | unknown cause unknown => cases known.symm.trans unknown
  | invalid _ text started ended same read =>
    cases known.symm.trans same
    exact ⟨_, started, ⟨0⟩, ended, rfl, rfl⟩
  | served _ request inner exit after started time ended same read path =>
    cases known.symm.trans same
    exact ⟨_, started, time, ended, rfl, rfl⟩

/-- An invocation of no known method leaves the service as it is. -/
theorem Invocation.unchanged {s : Service} {host : Host} {name body : String} {events : List Event}
    {left : Invoked} {cause : Error} (h : s.Invocation host name body events left)
    (unknown : Method.ofName name = .error cause) : left.service = s := by
  cases h with
  | unknown _ _ => rfl
  | invalid method text started ended known _ => cases unknown.symm.trans known
  | served method request inner exit after started time ended known _ _ =>
    cases unknown.symm.trans known

namespace Balanced
variable {entries : List Entry} {d after last : Desk} {entry : Entry}

theorem initial {options : RunOptions} {host : Host} :
    Balanced [] ⟨{ options }, host, []⟩ where
  ordered := Stats.ordered_empty
  active _ := rfl
  count _ _ := rfl
  called m succeeded := by cases succeeded <;> rfl
  started _ := rfl

private theorem unmoved (h : Balanced entries d) (same : after.timers = d.timers)
    (agrees : d.service.stats.Agrees after.service.stats) (unstarted : entry.started = none)
    (unended : entry.ended = none) (unanswered : entry.answered = none) :
    Balanced (entries ++ [entry]) after := by
  constructor
  · exact agrees.ordered
  · intro m
    rw [agrees.active, same, h.active]
  · intro m status
    rw [agrees.count, h.count, List.countP_append]
    simp [unended]
  · intro m succeeded
    rw [agrees.called, h.called, List.countP_append]
    simp [unanswered]
  · intro m
    have before := h.started m
    simpa [List.countP_append, unstarted, unended, same] using before

theorem opened (h : Balanced entries d) (method : Method) (now : Duration) :
    Balanced (entries ++ [.opened method])
      ⟨{ d.service with stats := (d.service.stats.start method now).2 }, d.host,
        (d.service.stats.start method now).1 :: d.timers⟩ := by
  have more : ∀ m, ((d.service.stats.start method now).1 :: d.timers).countP (·.method = m) =
      d.timers.countP (·.method = m) + if method = m then 1 else 0 := by
    intro m
    rw [List.countP_cons]
    by_cases same : method = m <;> simp [Stats.start, same]
  constructor
  · have ordered : (d.service.stats.start method now).2.Ordered := Stats.ordered_start h.ordered
    exact ordered
  · intro m
    rw [Stats.active_start h.ordered, h.active, more]
    split <;> simp
  · intro m status
    rw [List.countP_append]
    exact h.count m status
  · intro m succeeded
    rw [List.countP_append]
    exact h.called m succeeded
  · intro m
    rw [List.countP_append, List.countP_append, h.started m, more]
    simp [Entry.started, Entry.ended]
    omega

theorem closed (h : Balanced entries d) {timer : Timer} (mem : timer ∈ d.timers)
    (given : Option RequestStatus) (now : Duration) :
    Balanced (entries ++ [.closed timer given])
      ⟨{ d.service with stats := d.service.stats.finish timer (given.getD .error) now }, d.host,
        d.timers.erase timer⟩ := by
  have fewer : ∀ m, d.timers.countP (·.method = m) =
      (d.timers.erase timer).countP (·.method = m) + if timer.method = m then 1 else 0 := by
    intro m
    have perm := (List.perm_cons_erase mem).countP_eq (fun t : Timer => decide (t.method = m))
    rw [perm, List.countP_cons]
    simp
  constructor
  · have ordered : (d.service.stats.finish timer (given.getD .error) now).Ordered :=
      Stats.ordered_finish h.ordered
    exact ordered
  · intro m
    rw [Stats.active_finish h.ordered, h.active, fewer]
    split <;> simp
  · intro m status
    rw [Stats.count_finish h.ordered, h.count, List.countP_append]
    simp [Entry.ended]
  · intro m succeeded
    rw [List.countP_append]
    exact h.called m succeeded
  · intro m
    rw [List.countP_append, List.countP_append, h.started m, fewer]
    simp [Entry.started, Entry.ended]
    omega

theorem invoked (h : Balanced entries d) {name body : String} {events : List Event} {left : Invoked}
    (path : Path (d.service.invoke d.host name body) events left) :
    Balanced (entries ++ [.invoked d.service d.host name body events left])
      ⟨left.service, left.host, d.timers⟩ := by
  have way := path_invoke path
  cases known : Method.ofName name with
  | error cause =>
    refine h.unmoved rfl ?_ ?_ ?_ ?_
    · rw [way.unchanged known]
      exact ⟨h.ordered, fun _ => rfl, fun _ _ => rfl, fun _ _ => rfl⟩
    · simp [Entry.started, known, Except.toOption]
    · simp [Entry.ended, known, Except.toOption]
    · simp [Entry.answered, known, Except.toOption]
  | ok method =>
    obtain ⟨ending, began, time, now, answer, service⟩ := way.known known
    have status := Ending.status_of_response answer
    constructor
    · rw [service]
      have ordered : (d.service.stats.invoked method ending began time now).Ordered :=
        Stats.ordered_invoked h.ordered
      exact ordered
    · intro m
      rw [service]
      exact (Stats.active_invoked h.ordered).trans (h.active m)
    · intro m asked
      rw [service, List.countP_append, ← h.count]
      refine (Stats.count_invoked h.ordered).trans ?_
      simp [Entry.ended, known, Except.toOption, status]
    · intro m succeeded
      rw [service, List.countP_append, ← h.called]
      refine (Stats.called_invoked h.ordered).trans ?_
      have counted : (Entry.invoked d.service d.host name body events left).answered =
          some (m, codeOf succeeded) ↔ method = m ∧ ending.called = some succeeded := by
        simp only [Entry.answered, known, Except.toOption, answer]
        cases ending <;> cases succeeded <;> simp [Ending.response, Ending.called, codeOf]
      simp [counted]
    · intro m
      rw [List.countP_append, List.countP_append, h.started m]
      simp [Entry.started, Entry.ended, known, Except.toOption]
      omega

/-- An event keeps the books balanced. -/
theorem step (h : Balanced entries d) (g : d.Step entry after) :
    Balanced (entries ++ [entry]) after := by
  cases g with
  | opened method now => exact h.opened method now
  | closed timer given events after mem path =>
    obtain ⟨-, now, rfl⟩ := path_release path
    exact h.closed mem given now
  | invoked name body events left path => exact h.invoked path
  | looked look => exact h.unmoved rfl (look.agrees h.ordered) rfl rfl rfl

theorem steps {more : List Entry} (h : Balanced entries d) (g : d.Steps more last) :
    Balanced (entries ++ more) last := by
  induction g generalizing entries with
  | nil d => simpa using h
  | cons first rest ih =>
    have later := ih (h.step first)
    simpa using later

end Balanced

private theorem countP_ended (entries : List Entry) (m : Method) :
    entries.countP (·.ended.map Prod.fst = some m) =
      entries.countP (·.ended = some (m, .success)) +
        entries.countP (·.ended = some (m, .validationError)) +
          entries.countP (·.ended = some (m, .error)) := by
  induction entries with
  | nil => rfl
  | cons entry entries ih =>
    simp only [List.countP_cons, ih]
    cases ended : entry.ended with
    | none => simp
    | some pair =>
      obtain ⟨method, status⟩ := pair
      by_cases same : method = m
      · cases status <;> simp [same] <;> omega
      · simp [same]

/-- The accounts of a service after some events. The gauge shows the timers that are open, each
counter the timers that ended with its status, and no timer is lost. The calls into the library are
counted by the answers of their methods. An invocation of a known method runs one timer and ends it
by its answer; an unknown method changes nothing and asks nobody. -/
structure Accounts (entries : List Entry) (last : Desk) : Prop where
  active : ∀ m, (last.service.stats.active m).1 = last.timers.countP (·.method = m)
  count : ∀ m status,
    (last.service.stats.count m status).1 = entries.countP (·.ended = some (m, status))
  balance : ∀ m, (entries.countP (·.started = some m) : Int) =
    (last.service.stats.active m).1 + ((last.service.stats.count m .success).1 +
      (last.service.stats.count m .validationError).1 +
        (last.service.stats.count m .error).1 : Nat)
  succeeded : ∀ m, (last.service.stats.externalSnapshot m.externalFunction).1.success =
    entries.countP (·.answered = some (m, 200))
  failed : ∀ m, (last.service.stats.externalSnapshot m.externalFunction).1.error =
    entries.countP (·.answered = some (m, 500))
  known : ∀ s host name body events left m, .invoked s host name body events left ∈ entries →
    Method.ofName name = .ok m → ∃ ending started time ended, left.response = ending.response ∧
      left.service = { s with stats := s.stats.invoked m ending started time ended }
  unknown : ∀ s host name body events left cause, .invoked s host name body events left ∈ entries →
    Method.ofName name = .error cause →
    exchanges events = [] ∧ left = ⟨some ⟨404, cause.message⟩, host, s⟩

/-- What an invocation among some events did. -/
theorem Desk.Steps.invocation {d last : Desk} {entries : List Entry} {s : Service} {host : Host}
    {name body : String} {events : List Event} {left : Invoked} (h : d.Steps entries last)
    (mem : .invoked s host name body events left ∈ entries) :
    s.Invocation host name body (exchanges events) left := by
  induction h with
  | nil d => cases mem
  | cons step rest ih =>
    rcases List.mem_cons.1 mem with rfl | mem
    · cases step with
      | invoked name body events left path => exact path_invoke path
    · exact ih mem

/-- The accounts of a new service are right after any number of events. -/
theorem Desk.Steps.accounts {options : RunOptions} {host : Host} {entries : List Entry} {last : Desk}
    (h : Desk.Steps ⟨{ options }, host, []⟩ entries last) : Accounts entries last := by
  have balanced : Balanced entries last := by
    simpa using Balanced.initial.steps h
  constructor
  · exact balanced.active
  · exact balanced.count
  · intro m
    rw [balanced.active, balanced.count, balanced.count, balanced.count, balanced.started,
      countP_ended]
    exact Int.natCast_add ..
  · exact fun m => balanced.called m true
  · exact fun m => balanced.called m false
  · intro s host name body events left m mem known
    exact (h.invocation mem).known known
  · intro s host name body events left cause mem unknown
    have way := h.invocation mem
    generalize exchanges events = xs at way ⊢
    cases way with
    | unknown other same =>
      cases unknown.symm.trans same
      exact ⟨rfl, rfl⟩
    | invalid method text started ended known => cases unknown.symm.trans known
    | served method request inner exit after started time ended known =>
      cases unknown.symm.trans known

/-- Collaborators that tell the flags of a document once, then end with a fatal error, and then panic.
The state counts the questions. -/
def wavering : World Nat where
  reply := fun asked files c =>
    match c with
    | .contentStatus _ =>
      match asked with
      | 0 => (some { edits := [], status := .ok {} }, 1, files)
      | 1 => (some { edits := [], status := .error (.commitIntegrity "a.docx") }, 2, files)
      | n => (none, n, files)
    | other => (((World.obliging none true).reply () files other).1, asked, files)
  time := fun _ => ⟨0⟩

/-- What is done at a desk. The latest timer is the one that is let go. -/
inductive Job where
  | start (method : Method)
  | release (given : Option RequestStatus)
  | invoke (name body : String)

/-- Does some jobs in a world, with the time at zero for the timers that it starts. -/
def Desk.attend {σ : Type} (w : World σ) (state : σ) (files : FileTree) (d : Desk) :
    List Job → List Entry × Desk
  | [] => ([], d)
  | .start method :: jobs =>
    let begun := d.service.stats.start method ⟨0⟩
    let rest := Desk.attend w state files
      ⟨{ d.service with stats := begun.2 }, d.host, begun.1 :: d.timers⟩ jobs
    (.opened method :: rest.1, rest.2)
  | .release given :: jobs =>
    match d.timers with
    | [] => Desk.attend w state files d jobs
    | timer :: timers =>
      let run := w.run state files (d.service.release timer given)
      let rest := Desk.attend w run.state run.files
        ⟨run.value, d.host, (timer :: timers).erase timer⟩ jobs
      (.closed timer given :: rest.1, rest.2)
  | .invoke name body :: jobs =>
    let run := w.run state files (d.service.invoke d.host name body)
    let rest := Desk.attend w run.state run.files
      ⟨run.value.service, run.value.host, d.timers⟩ jobs
    (.invoked d.service d.host name body run.events run.value :: rest.1, rest.2)

private theorem Desk.steps_attend {σ : Type} (w : World σ) (state : σ) (files : FileTree) (d : Desk)
    (jobs : List Job) :
    d.Steps (d.attend w state files jobs).1 (d.attend w state files jobs).2 := by
  induction jobs generalizing state files d with
  | nil => exact .nil d
  | cons job jobs ih =>
    cases job with
    | start method => exact .cons (.opened d method ⟨0⟩) (ih _ _ _)
    | release given =>
      unfold Desk.attend
      cases there : d.timers with
      | nil => exact ih _ _ _
      | cons timer timers =>
        have step := Desk.Step.closed d timer given _ _ (by simp [there])
          (w.path_run state files (d.service.release timer given))
        rw [there] at step
        exact .cons step (ih _ _ _)
    | invoke name body =>
      exact .cons (.invoked d name body _ _ (w.path_run state files _)) (ih _ _ _)

/-- A day with every kind of answer, and with timers that are ended, let go and left open. -/
theorem wavering_accounts :
    let body := "\x7b\"file\": \"a.docx\", \"application_id\": \"app\"\x7d"
    let jobs := [.start .protectFile, .invoke "inspect_file" body, .invoke "inspect_file" body,
      .start .inspectFile, .invoke "inspect_file" body, .release none, .invoke "inspect_file" "",
      .invoke "list_labels" body, .start .inspectFile, .release (some .success)]
    let day := Desk.attend wavering 0 {} ⟨{}, {}, []⟩ jobs
    day.1.filterMap Entry.answered = [(.inspectFile, 200), (.inspectFile, 500),
        (.inspectFile, 400)] ∧
      day.1.filterMap Entry.ended = [(.inspectFile, .success), (.inspectFile, .error),
        (.inspectFile, .error), (.inspectFile, .error), (.inspectFile, .validationError),
        (.inspectFile, .success)] ∧
      day.2.timers.map Timer.method = [.protectFile] ∧ Accounts day.1 day.2 := by
  intro body jobs day
  have steps := Desk.steps_attend wavering 0 {} ⟨{}, {}, []⟩ jobs
  exact ⟨by decide +kernel, by decide +kernel, by decide +kernel, steps.accounts⟩

end DocGuard.Service
