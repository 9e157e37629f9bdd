import DocGuard.Proofs.Request.Course

/-! The gate in front of every change: in each task of a session on one host, a document is changed
or written only after the question for its protection has shown that it may be exported. -/
namespace DocGuard

/-- What a host is asked to do. -/
inductive Task where
  | run (r : Request) (o : RunOptions)
  | execute (r : Request) (o : RunOptions)
  | executeToJson (r : Request) (o : RunOptions)
  | describe (r : Request) (o : RunOptions)
  | inspect (path : String) (o : RunOptions)
  | shutdown

/-- What a task ends with. -/
inductive Answer where
  | outcome (outcome : Outcome)
  | report (report : Report)
  | json (text : String)
  | description (description : Description)
  | status (status : Status)
  | nothing

namespace Task

def action : Task → Action Answer
  | run r o => do return .outcome (← r.run o)
  | execute r o => do return .report (← r.execute o)
  | executeToJson r o => do return .json (← r.executeToJson o)
  | describe r o => do return .description (← r.describe o)
  | inspect path o => do return .status (← Request.inspectPath o path)
  | shutdown => do
    Host.shutdown
    return .nothing

/-- The request of a task that may change its document. -/
def request? : Task → Option Request
  | run r _ | execute r _ | executeToJson r _ => some r
  | _ => none

/-- How a task ends when its run ends with an ordinary error. -/
def failing (cause : Error) : Task → Exit Answer
  | execute r _ => .value (.report ⟨r.operation.kind, r.source, .failed cause.message⟩)
  | executeToJson r _ =>
    .value (.json (Report.json ⟨r.operation.kind, r.source, .failed cause.message⟩))
  | _ => .error cause

end Task

/-- A task that was done, with all that happened and its end. -/
structure Deed where
  task : Task
  events : List Event
  exit : Exit Answer

/-- Tasks that are done on one host, one after the other. -/
inductive Session : Host → List Deed → Host → Prop where
  | nil (host : Host) : Session host [] host
  | cons {host middle after : Host} {deeds : List Deed} (deed : Deed) :
      (deed.task.action host).Path deed.events (deed.exit, middle) → Session middle deeds after →
      Session host (deed :: deeds) after

/-- The events hold no question for a protection. -/
def NoProtectionAsked (events : List Event) : Prop :=
  ∀ x ∈ events, ∀ d, x.call? ≠ some (.getProtection d)

/-- The gate of a deed. A document is changed or written only after the first question for a
protection, about that document, was answered with one under which it may be exported. A policy
without the right is the last answer, and the access is denied. Tasks that are to look only change
and write nothing. -/
structure Deed.Gated (deed : Deed) : Prop where
  authorized : ∀ before e rest c d, exchanges deed.events = before ++ e :: rest →
    e.call? = some c → c.altered = some d →
    ∃ first second protection, before =
        first ++ .replied (.getProtection d) (.succeeded protection) :: second ∧
      mayExport protection = true ∧ NoProtectionAsked first
  denied : ∀ before d policy rest, deed.task.request?.isSome → exchanges deed.events =
      before ++ .replied (.getProtection d) (.succeeded (some policy)) :: rest →
    NoProtectionAsked before → policy.grants Right.exportName = false →
    rest = [] ∧ deed.exit = deed.task.failing (.accessDenied Right.exportName
      (if policy.owner = "" then none else some policy.owner) policy.referrer)
  readOnly : (∀ r, deed.task.request? = some r → r.operation = .inspect) →
    ∀ e ∈ exchanges deed.events, ∀ c, e.call? = some c → c.altered = none

namespace Schedule
open Program DocGuard.Action
variable {r : Request} {o : RunOptions} {k : Known} {host : Host} {before rest : List Event}
  {e : Event} {c : Call} {d : DocumentHandle} {exit : Exit Outcome}

private theorem Follows.authorized (h : Follows r o k (ofRequest r host) (before ++ e :: rest) exit)
    (called : e.call? = some c) (altered : c.altered = some d) :
    ∃ first second protection, before =
        first ++ .replied (.getProtection d) (.succeeded protection) :: second ∧
      mayExport protection = true ∧ NoProtectionAsked first := by
  obtain ⟨passed, stage, later, known, whole, passes, due, -⟩ := h.split called
  obtain ⟨beyond, document⟩ := Stage.due_altered due altered
  obtain ⟨-, more, rfl, behind⟩ := opening_passed whole beyond
  obtain ⟨first, second, opened, rfl, opening, -, same, -⟩ := passes.behind_opening behind
  obtain ⟨start, other, name, output, protection, rfl, quiet, -, allowed, opens, -⟩ :=
    opening.opened
  cases document.symm.trans (same.trans opens)
  refine ⟨start ++ [.replied (.outputFileName d) name], second, protection, by simp, allowed, ?_⟩
  intro x mem other asked
  rcases List.mem_append.1 mem with mem | mem
  · exact quiet x mem other asked
  · cases List.mem_singleton.1 mem
    cases asked

private theorem Follows.denied {policy : Policy}
    (h : Follows r o k (ofRequest r host)
      (before ++ .replied (.getProtection d) (.succeeded (some policy)) :: rest) exit)
    (first : NoProtectionAsked before) (withheld : policy.grants Right.exportName = false) :
    rest = [] ∧ exit = .error (DocumentHandle.deniedBy policy) := by
  obtain ⟨passed, stage, later, known, whole, passes, due, ends⟩ := h.split rfl
  have checks : stage = .checkRights := by
    cases opens : stage.opens with
    | true => cases stage <;> simp_all [Stage.Due, Stage.opens]
    | false =>
      -- the opening is passed, and so an earlier question was asked in it
      obtain ⟨-, more, rfl, behind⟩ := opening_passed whole opens
      obtain ⟨_, second, opened, rfl, opening, -⟩ := passes.behind_opening behind
      obtain ⟨start, other, name, output, protection, rfl, -⟩ := opening.opened
      refine (first (.replied (.getProtection other) (.succeeded protection)) ?_ other rfl).elim
      simp
  subst checks
  have judged : Stage.checkRights.judge known (.getProtection d) (.succeeded (some policy)) =
      .error (.error (DocumentHandle.deniedBy policy)) := by
    simp [Stage.judge, Completion.result, withheld]
  rcases ends with ⟨_, next, same, passed, -⟩ | stops
  · cases same
    rw [judged] at passed
    cases passed
  · cases stops with
    | refused _ c reply exit inner due refused =>
      rw [judged] at refused
      cases refused
      exact ⟨rfl, rfl⟩

section ReadOnly
variable {α β : Type}

/-- The action changes no document and writes none. -/
def IsReadOnly (action : Action α) : Prop :=
  ∀ host events exit after, Path (action host) events (exit, after) →
    ∀ e ∈ exchanges events, ∀ c, e.call? = some c → c.altered = none

private theorem isReadOnly_quiet {action : Action α}
    (h : ∀ host events exit after, Path (action host) events (exit, after) →
      exchanges events = []) : IsReadOnly action := by
  intro host events exit after path e mem
  rw [h host events exit after path] at mem
  cases mem

private theorem isReadOnly_pure {value : α} : IsReadOnly (Pure.pure value) := by
  refine isReadOnly_quiet fun host events exit after path => ?_
  obtain ⟨rfl, -, -⟩ := path_return_iff.1 path
  rfl

private theorem isReadOnly_ofExcept {result : Except Error α} : IsReadOnly (ofExcept result) := by
  cases result with
  | ok value => exact isReadOnly_pure
  | error cause =>
    refine isReadOnly_quiet fun host events exit after path => ?_
    obtain ⟨rfl, -, -⟩ := path_fail_iff.1 path
    rfl

private theorem isReadOnly_call (looks : c.altered = none) : IsReadOnly (call c) := by
  intro host events exit after path e mem other called
  obtain ⟨-, ⟨reply, -, rfl⟩ | ⟨-, rfl⟩⟩ := path_call_iff.1 path
  · cases List.mem_singleton.1 mem
    cases called
    exact looks
  · cases List.mem_singleton.1 mem
    cases called
    exact looks

private theorem isReadOnly_bind {action : Action α} {next : α → Action β} (h : IsReadOnly action)
    (g : ∀ value, IsReadOnly (next value)) : IsReadOnly (action >>= next) := by
  intro host events exit after path e mem
  rcases path_bind_iff.1 path with ⟨before, rest, value, middle, rfl, one, two⟩ |
    ⟨cause, rfl, one⟩ | ⟨rfl, one⟩
  · rw [exchanges_append] at mem
    rcases List.mem_append.1 mem with mem | mem
    · exact h _ _ _ _ one e mem
    · exact g value _ _ _ _ two e mem
  · exact h _ _ _ _ one e mem
  · exact h _ _ _ _ one e mem

private theorem isReadOnly_createEngine : IsReadOnly r.createEngine := by
  intro host events exit after path e mem c called
  have performs := performs_createEngine (r := r) (o := {}) (k := Known.initial r host) rfl
    (by intro answer fixed; simp only [Known.initial, fixed])
    (by intro passing; simp only [Known.initial, passing]) events exit after path
  have due : ∃ stage ∈ engine r host, ∃ known, stage.Due r {} known c := by
    cases exit with
    | value value =>
      obtain ⟨last, passed, -⟩ := performs
      obtain ⟨stage, among, known, _, _, rfl, due, -⟩ := passed.exists_stage mem
      cases called
      exact ⟨stage, among, known, due⟩
    | error cause => simpa using (performs []).exists_stage mem called
    | panic => simpa using (performs []).exists_stage mem called
  obtain ⟨stage, among, known, due⟩ := due
  cases altered : c.altered with
  | none => rfl
  | some d =>
    have never := (Stage.due_altered due altered).1
    have early : stage ∈ opening r host := by simp [opening, among]
    rw [mem_opening early] at never
    cases never

private theorem isReadOnly_prepareSource {path : String} : IsReadOnly (o.prepareSource path) :=
  isReadOnly_quiet fun _ _ _ _ path => (isLocal_prepareSource _ _ _ path).1

private theorem isReadOnly_inspectPath {path : String} :
    IsReadOnly (Request.inspectPath o path) := by
  refine isReadOnly_bind isReadOnly_prepareSource fun source => ?_
  refine isReadOnly_bind ?_ fun _ => isReadOnly_pure
  refine isReadOnly_bind (isReadOnly_call rfl) fun reply => ?_
  refine isReadOnly_bind isReadOnly_ofExcept fun status => ?_
  exact isReadOnly_bind isReadOnly_ofExcept fun _ => isReadOnly_pure

private theorem isReadOnly_describe : IsReadOnly (r.describe o) := by
  refine isReadOnly_bind isReadOnly_ofExcept fun _ => ?_
  refine isReadOnly_bind isReadOnly_createEngine fun engine => ?_
  refine isReadOnly_bind isReadOnly_prepareSource fun source => ?_
  refine isReadOnly_bind (isReadOnly_bind (isReadOnly_call rfl) fun _ => isReadOnly_ofExcept)
    fun d => ?_
  refine isReadOnly_bind (isReadOnly_bind (isReadOnly_call rfl) fun _ => isReadOnly_ofExcept)
    fun label => ?_
  refine isReadOnly_bind (isReadOnly_bind (isReadOnly_call rfl) fun _ => isReadOnly_ofExcept)
    fun protection => isReadOnly_pure

private theorem isReadOnly_get : IsReadOnly get := by
  refine isReadOnly_quiet fun host events exit after path => ?_
  obtain ⟨rfl, -, -⟩ := path_get_iff.1 path
  rfl

private theorem isReadOnly_modify {change : Host → Host} : IsReadOnly (modify change) := by
  refine isReadOnly_quiet fun host events exit after path => ?_
  obtain ⟨rfl, -, -⟩ := path_modify_iff.1 path
  rfl

private theorem isReadOnly_locked {action : Action α} (h : IsReadOnly action) :
    IsReadOnly (Host.locked action) := by
  intro host events exit after path e mem
  obtain ⟨inner, middle, same, inside, -⟩ := path_locked path
  rw [same] at mem
  exact h _ _ _ _ inside e mem

private theorem isReadOnly_shutdown : IsReadOnly Host.shutdown := by
  have marks : IsReadOnly Host.markShutDown :=
    isReadOnly_bind isReadOnly_get fun _ => isReadOnly_bind isReadOnly_modify fun _ =>
      isReadOnly_pure
  refine isReadOnly_bind marks fun before => ?_
  cases before with
  | true => exact isReadOnly_pure
  | false =>
    refine isReadOnly_bind (isReadOnly_locked isReadOnly_modify) fun _ => ?_
    exact isReadOnly_bind isReadOnly_get fun _ => isReadOnly_call rfl

private theorem isReadOnly_run (inspects : r.operation = .inspect) : IsReadOnly (r.run o) := by
  intro host events exit after path e mem c called
  have follows := keeps_run events exit after path
  rw [ofRequest, inspects] at follows
  obtain ⟨stage, among, known, due⟩ := follows.exists_stage mem called
  cases List.mem_singleton.1 among
  obtain ⟨source, -, rfl⟩ := due
  rfl

private theorem isReadOnly_execute (inspects : r.operation = .inspect) :
    IsReadOnly (r.execute o) := by
  intro host events exit after path
  obtain ⟨inner, ran, inside, same, -⟩ := path_execute path
  rw [same]
  exact isReadOnly_run inspects _ _ _ _ inside

end ReadOnly

/-- A task that is to run a request has the exchanges of its run. -/
theorem path_task {task : Task} {events : List Event} {answer : Exit Answer} {after : Host}
    {request : Request} (h : Path (task.action host) events (answer, after))
    (runs : task.request? = some request) :
    ∃ options inner ran, Path (request.run options host) inner (ran, after) ∧
      exchanges events = exchanges inner ∧
      ∀ cause, ran = .error cause → cause.isFatal = false → answer = task.failing cause := by
  cases task with
  | run r o =>
    cases runs
    obtain ⟨ran, path, rfl⟩ := path_bind_return h
    refine ⟨o, events, ran, path, rfl, ?_⟩
    rintro cause rfl -
    rfl
  | execute r o =>
    cases runs
    obtain ⟨ended, path, rfl⟩ := path_bind_return h
    obtain ⟨inner, ran, inside, same, rfl⟩ := path_execute path
    refine ⟨o, inner, ran, inside, same, ?_⟩
    rintro cause rfl ordinary
    simp [reported, ordinary, Exit.map, Task.failing]
  | executeToJson r o =>
    cases runs
    obtain ⟨text, rendered, rfl⟩ := path_bind_return h
    obtain ⟨ended, path, rfl⟩ := path_bind_return rendered
    obtain ⟨inner, ran, inside, same, rfl⟩ := path_execute path
    refine ⟨o, inner, ran, inside, same, ?_⟩
    rintro cause rfl ordinary
    simp [reported, ordinary, Exit.map, Task.failing]
  | describe r o => cases runs
  | inspect path o => cases runs
  | shutdown => cases runs

private theorem isReadOnly_task {task : Task}
    (inspects : ∀ r, task.request? = some r → r.operation = .inspect) :
    IsReadOnly task.action := by
  cases task with
  | run r o => exact isReadOnly_bind (isReadOnly_run (inspects r rfl)) fun _ => isReadOnly_pure
  | execute r o =>
    exact isReadOnly_bind (isReadOnly_execute (inspects r rfl)) fun _ => isReadOnly_pure
  | executeToJson r o =>
    have reports : IsReadOnly (r.executeToJson o) :=
      isReadOnly_bind (isReadOnly_execute (inspects r rfl)) fun _ => isReadOnly_pure
    exact isReadOnly_bind reports fun _ => isReadOnly_pure
  | describe r o => exact isReadOnly_bind isReadOnly_describe fun _ => isReadOnly_pure
  | inspect path o => exact isReadOnly_bind isReadOnly_inspectPath fun _ => isReadOnly_pure
  | shutdown => exact isReadOnly_bind isReadOnly_shutdown fun _ => isReadOnly_pure

private theorem gated_of_path {deed : Deed} {after : Host}
    (h : Path (deed.task.action host) deed.events (deed.exit, after)) : deed.Gated where
  authorized := by
    intro before e rest c d whole called altered
    cases runs : deed.task.request? with
    | none =>
      have none := isReadOnly_task (by simp [runs]) _ _ _ _ h e (by simp [whole]) c called
      rw [altered] at none
      cases none
    | some request =>
      obtain ⟨options, inner, ran, path, same, -⟩ := path_task h runs
      have follows := keeps_run _ _ _ path
      rw [← same, whole] at follows
      exact follows.authorized called altered
  denied := by
    intro before d policy rest runs whole first withheld
    obtain ⟨request, runs⟩ := Option.isSome_iff_exists.1 runs
    obtain ⟨options, inner, ran, path, same, ends⟩ := path_task h runs
    have follows := keeps_run _ _ _ path
    rw [← same, whole] at follows
    obtain ⟨rfl, rfl⟩ := follows.denied first withheld
    refine ⟨rfl, (ends _ rfl rfl).trans ?_⟩
    simp [DocumentHandle.deniedBy]
  readOnly := fun inspects => isReadOnly_task inspects _ _ _ _ h

end Schedule

/-- Every task of a session is gated. -/
theorem Session.gated {host after : Host} {deeds : List Deed} (session : Session host deeds after) :
    ∀ deed ∈ deeds, deed.Gated := by
  induction session with
  | nil host => simp
  | cons deed path rest ih =>
    intro other mem
    cases mem with
    | head => exact Schedule.gated_of_path path
    | tail _ mem => exact ih other mem

/-- A session of two runs on one host: the first may export, the second may not. -/
theorem gated_session_of_two :
    let task := Task.run ((Request.unprotect "report.docx" "app").withToken "token") {}
    let granted := (World.obliging (some { granted := ["EXPORT"] }) true).run () {} (task.action {})
    let withheld := (World.obliging (some { owner := "ann" }) true).run () {}
      (task.action granted.value.2)
    let first : Deed := ⟨task, granted.events, granted.value.1⟩
    let second : Deed := ⟨task, withheld.events, withheld.value.1⟩
    granted.calls.map (·.altered) = [none, none, none, none, none, none, some ⟨0⟩, none, some ⟨0⟩,
        none] ∧
      withheld.calls.map (·.altered) = [none, none, none, none, none] ∧
      first.Gated ∧ second.Gated := by
  intro task granted withheld first second
  have one := World.path_run (World.obliging (some { granted := ["EXPORT"] }) true) () {}
    (task.action {})
  have two := World.path_run (World.obliging (some { owner := "ann" }) true) () {}
    (task.action granted.value.2)
  have session : Session {} [first, second] withheld.value.2 :=
    .cons first one (.cons second two (.nil _))
  exact ⟨by decide +kernel, by decide +kernel, session.gated first (by simp),
    session.gated second (by simp)⟩

end DocGuard
