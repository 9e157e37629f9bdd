import Mathlib.Data.List.Basic
import DocGuard.Proofs.Request.Unread

/-! Requests with their document in memory and on disk. To collaborators that do not tell a buffer
from a path both are one request: two runs go side by side, one with the buffer and one with the
path, and part ways only where the file cannot be read. -/
namespace DocGuard
open Program DocGuard.Action

/-- Collaborators that know a document by its name only. What they reply does not depend on whether
they are handed a buffer or a path. They may keep what they were handed: some of their states, with the
files, are alike, which is to say that no later reply and no look for a file tells them apart. -/
structure World.Blind {σ : Type} (w : World σ) (alike : σ × FileTree → σ × FileTree → Prop) :
    Prop where
  refl : ∀ one, alike one one
  looks : ∀ {one two}, alike one two → ∀ path, one.2.pathExists path = two.2.pathExists path
  replies : ∀ {one two}, alike one two → ∀ c : Call, c.source? = none →
    (w.reply one.1 one.2 c).1 = (w.reply two.1 two.2 c).1 ∧
      alike (w.reply one.1 one.2 c).2 (w.reply two.1 two.2 c).2
  asked : ∀ {one two}, alike one two → ∀ s t : Source, s.identifier = t.identifier →
    (w.reply one.1 one.2 (.contentStatus s)).1.map StatusReply.status =
        (w.reply two.1 two.2 (.contentStatus t)).1.map StatusReply.status ∧
      alike (w.reply one.1 one.2 (.contentStatus s)).2 (w.reply two.1 two.2 (.contentStatus t)).2
  opened : ∀ {one two}, alike one two → ∀ (engine : EngineHandle) (options : OpenOptions)
    (s t : Source), s.identifier = t.identifier →
    (w.reply one.1 one.2 (.openDocument engine s options)).1 =
        (w.reply two.1 two.2 (.openDocument engine t options)).1 ∧
      alike (w.reply one.1 one.2 (.openDocument engine s options)).2
        (w.reply two.1 two.2 (.openDocument engine t options)).2

/-- The calls of two runs that hand over one document, from memory and by its path. They are the
same but for the source until the document is open, and the same from then on. Of other documents
only the reference is handed over, by its path. -/
inductive Mirrored (path : String) (reference : Option String) : List Call → List Call → Prop where
  | done : Mirrored path reference [] []
  | same (c : Call) {one two : List Call} : c.source? = none → Mirrored path reference one two →
      Mirrored path reference (c :: one) (c :: two)
  | asked (content : Buffer) {one two : List Call} : Mirrored path reference one two →
      Mirrored path reference (.contentStatus (.buffer content path) :: one)
        (.contentStatus (.path path) :: two)
  | opened (engine : EngineHandle) (content : Buffer) (options : OpenOptions) (rest : List Call) :
      (∀ c ∈ rest, ∀ source, c.source? = some source →
        ∃ other, reference = some other ∧ source = .path other) →
      Mirrored path reference (.openDocument engine (.buffer content path) options :: rest)
        (.openDocument engine (.path path) options :: rest)

/-- Two runs end alike, with the same records in the log, and their calls mirror each other. -/
structure Run.Mirrors {σ α : Type} (alike : σ × FileTree → σ × FileTree → Prop) (path : String)
    (reference : Option String) (one two : Run σ α) : Prop where
  value : one.value = two.value
  outside : alike (one.state, one.files) (two.state, two.files)
  log : one.log = two.log
  calls : Mirrored path reference one.calls two.calls

variable {σ α β : Type} {w : World σ} {alike : σ × FileTree → σ × FileTree → Prop}
  {path : String} {reference : Option String}

section Runs
variable {one two : Run σ α}

theorem Mirrored.append {first one two : List Call} (nothing : ∀ c ∈ first, c.source? = none)
    (h : Mirrored path reference one two) :
    Mirrored path reference (first ++ one) (first ++ two) := by
  induction first with
  | nil => exact h
  | cons c first ih =>
    obtain ⟨none, others⟩ := List.forall_mem_cons.1 nothing
    exact .same c none (ih others)

/-- Runs that begin with the same events, in which nothing is handed over. -/
theorem Run.Mirrors.behind {before : List Event} (h : Mirrors alike path reference one two)
    (nothing : ∀ e ∈ before, e.question.HandsNothing) :
    Mirrors alike path reference { one with events := before ++ one.events }
      { two with events := before ++ two.events } where
  value := h.value
  outside := h.outside
  log := by
    have same := h.log
    simp only [Run.log] at same
    simp only [Run.log, List.filterMap_append, same]
  calls := by
    simp only [Run.calls, List.filterMap_append]
    refine h.calls.append fun c among => ?_
    obtain ⟨⟨question, answer⟩, mem, called⟩ := List.mem_filterMap.1 among
    cases question <;> cases called
    exact nothing _ mem

theorem Run.Mirrors.read {read : Except FileError (List UInt8)}
    (h : Mirrors alike path reference one two) :
    Mirrors alike path reference { one with events := ⟨.readFile path, read⟩ :: one.events } two :=
  ⟨h.value, h.outside, h.log, h.calls⟩

end Runs

section Steps
variable {one two : σ × FileTree} {host : Host} {engine : EngineHandle} {content : Buffer}

private theorem World.run_call_bind (w : World σ) (state : σ) (files : FileTree) (c : Call)
    (next : c.Reply → Action α) (host : Host) :
    w.run state files ((call c >>= next) host) =
      let replied := w.reply state files c
      let rest := w.run replied.2.1 replied.2.2 (match replied.1 with
        | some reply => next reply host
        | none => .done (.panic, host))
      { rest with events := ⟨.call c, replied.1⟩ :: rest.events } := by
  have asks : (call c >>= next) host = .ask (.call c) fun answer => _ := rfl
  rw [asks]
  simp only [World.run, World.answer]
  generalize w.reply state files c = replied
  obtain ⟨answer, after⟩ := replied
  cases answer <;> rfl

/-- From states that are alike, what comes behind the opening goes on in the same way. -/
theorem World.Blind.run_onward (blind : w.Blind alike) {program : Program α}
    (onward : program.Asks (Question.IsOnward reference)) (same : alike one two) :
    (w.run one.1 one.2 program).value = (w.run two.1 two.2 program).value ∧
      (w.run one.1 one.2 program).events = (w.run two.1 two.2 program).events ∧
      alike ((w.run one.1 one.2 program).state, (w.run one.1 one.2 program).files)
        ((w.run two.1 two.2 program).state, (w.run two.1 two.2 program).files) := by
  induction program generalizing one two with
  | done value => exact ⟨rfl, rfl, same⟩
  | ask q next ih =>
    obtain ⟨permitted, rest⟩ := onward
    cases q with
    | call c =>
      obtain ⟨reply, again⟩ : (w.reply one.1 one.2 c).1 = (w.reply two.1 two.2 c).1 ∧
          alike (w.reply one.1 one.2 c).2 (w.reply two.1 two.2 c).2 := by
        rcases permitted with nothing | ⟨engine, path, options, -, rfl⟩
        · exact blind.replies same c nothing
        · exact blind.opened same engine options _ _ rfl
      obtain ⟨value, events, after⟩ := ih (w.reply two.1 two.2 c).1 (rest _) again
      simp only [World.run, World.answer, reply]
      exact ⟨value, by rw [events], after⟩
    | fileExists path =>
      have found := blind.looks same path
      obtain ⟨value, events, after⟩ := ih (two.2.pathExists path) (rest _) same
      simp only [World.run, World.answer, found]
      exact ⟨value, by rw [events], after⟩
    | log record =>
      obtain ⟨value, events, after⟩ := ih () (rest _) same
      exact ⟨value, congrArg (_ :: ·) events, after⟩
    | readFile path => cases permitted
    | clock => cases permitted

/-- What comes behind the reply to the opening of a document. -/
def afterOpening (further : DocumentHandle → Action α) (host : Host) :
    Option (Completion DocumentHandle) → Program (Exit α × Host)
  | some reply => (ofExcept reply.result >>= further) host
  | none => .done (.panic, host)

private theorem asks_afterOpening {further : DocumentHandle → Action α}
    (onward : ∀ document, Asks (Question.IsOnward reference) (further document)) (host : Host)
    (reply : Option (Completion DocumentHandle)) :
    (afterOpening further host reply).Asks (Question.IsOnward reference) := by
  cases reply with
  | some reply => exact asks_bind asks_ofExcept onward host
  | none => exact .done _

private theorem World.run_openDocument_bind (w : World σ) (state : σ) (files : FileTree)
    (o : RunOptions)
    (engine : EngineHandle) (source : Source) (further : DocumentHandle → Action α) (host : Host) :
    w.run state files ((o.openDocument engine source >>= further) host) =
      let replied := w.reply state files (.openDocument engine source o.openOptions)
      let rest := w.run replied.2.1 replied.2.2 (afterOpening further host replied.1)
      let opening : Event := ⟨.call (.openDocument engine source o.openOptions), replied.1⟩
      { rest with events := opening :: rest.events } := by
  simp only [RunOptions.openDocument, Action.bind_assoc, World.run_call_bind]
  generalize w.reply state files (.openDocument engine source o.openOptions) = replied
  obtain ⟨answer, after⟩ := replied
  cases answer <;> rfl

private theorem only_reference {events : List Event}
    (onward : ∀ e ∈ events, Question.IsOnward reference e.question) :
    ∀ c ∈ events.filterMap Event.call?, ∀ source, c.source? = some source →
      ∃ other, reference = some other ∧ source = .path other := by
  intro c among source handed
  obtain ⟨⟨question, answer⟩, mem, called⟩ := List.mem_filterMap.1 among
  cases question <;> cases called
  rcases onward _ mem with nothing | ⟨engine, other, options, given, rfl⟩
  · cases nothing.symm.trans handed
  · cases handed
    exact ⟨other, given, rfl⟩

private theorem World.Blind.mirrors_open (blind : w.Blind alike) (same : alike one two)
    {o : RunOptions}
    {further : DocumentHandle → Action α}
    (onward : ∀ document, Asks (Question.IsOnward reference) (further document)) :
    Run.Mirrors alike path reference
      (w.run one.1 one.2 ((o.openDocument engine (.buffer content path) >>= further) host))
      (w.run two.1 two.2 ((o.openDocument engine (.path path) >>= further) host)) := by
  obtain ⟨reply, again⟩ :=
    blind.opened same engine o.openOptions (.buffer content path) (.path path) rfl
  have program := congrArg (afterOpening further host) reply
  obtain ⟨value, events, after⟩ := blind.run_onward (asks_afterOpening onward host
    (w.reply two.1 two.2 (.openDocument engine (.path path) o.openOptions)).1) again
  simp only [World.run_openDocument_bind, program]
  refine ⟨value, after, by simp only [Run.log, List.filterMap_cons, events], ?_⟩
  simp only [Run.calls_eq_call?, List.filterMap_cons, Event.call?, events]
  exact .opened engine content o.openOptions _
    (only_reference ((asks_afterOpening onward host _).of_path (w.path_run _ _ _)))

/-- A question for the flags of the document, before it is opened. -/
theorem Run.Mirrors.asked {first second : Run σ α} (h : Mirrors alike path reference first second)
    {answer : Question.Answer (.call (.contentStatus (.buffer content path)))}
    {other : Question.Answer (.call (.contentStatus (.path path)))} :
    Mirrors alike path reference
      { first with events :=
        ⟨.call (.contentStatus (.buffer content path)), answer⟩ :: first.events }
      { second with events := ⟨.call (.contentStatus (.path path)), other⟩ :: second.events } :=
  ⟨h.value, h.outside, h.log, .asked content h.calls⟩

theorem Run.Mirrors.ended (same : alike one two) (value : α) :
    Mirrors alike path reference (w.run one.1 one.2 (.done value))
      (w.run two.1 two.2 (.done value)) :=
  ⟨rfl, same, rfl, .done⟩

private theorem World.Blind.mirrors_status (blind : w.Blind alike) (same : alike one two)
    {further : Status → Source → Action α}
    (onward : ∀ {one two}, alike one two → ∀ status start, Run.Mirrors alike path reference
      (w.run one.1 one.2 (further status (.buffer start path) host))
      (w.run two.1 two.2 (further status (.path path) host))) :
    let asking := fun source : Source => (call (.contentStatus source) >>= fun reply =>
      ofExcept reply.status >>= fun status => ofExcept (source.rewound reply.edits) >>=
        fun start => further status start) host
    Run.Mirrors alike path reference (w.run one.1 one.2 (asking (.buffer content path)))
      (w.run two.1 two.2 (asking (.path path))) := by
  intro asking
  obtain ⟨reply, again⟩ := blind.asked same (.buffer content path) (.path path) rfl
  simp only [asking, World.run_call_bind]
  refine Run.Mirrors.asked ?_
  generalize w.reply one.1 one.2 (.contentStatus (.buffer content path)) = first at reply again
  generalize w.reply two.1 two.2 (.contentStatus (.path path)) = second at reply again
  obtain ⟨_ | ⟨edits, status⟩, after⟩ := first
  · obtain ⟨_ | _, last⟩ := second
    · exact .ended again _
    · cases reply
  · obtain ⟨_ | ⟨others, found⟩, last⟩ := second
    · cases reply
    · obtain rfl : status = found := Option.some.inj reply
      cases status with
      | error cause => exact .ended again _
      | ok status => exact onward again status _

private theorem World.Blind.mirrors_handOver (blind : w.Blind alike) (same : alike one two)
    {o : RunOptions}
    {wanted : Bool} {next : Option Status → DocumentHandle → Action α}
    (onward : ∀ status document, Asks (Question.IsOnward reference) (next status document)) :
    Run.Mirrors alike path reference
      (w.run one.1 one.2 (o.handOver wanted engine next (.buffer content path) host))
      (w.run two.1 two.2 (o.handOver wanted engine next (.path path) host)) := by
  cases wanted with
  | false =>
    simp only [RunOptions.handOver_unasked]
    exact blind.mirrors_open same (onward none)
  | true =>
    simp only [RunOptions.handOver_asked]
    exact blind.mirrors_status same fun again status start =>
      blind.mirrors_open again (onward (some status))

end Steps

section Requests
variable {state : σ} {files : FileTree} {host : Host} {o : RunOptions} {bytes : List UInt8}

/-- The file at the path can be read. -/
def FileTree.CanRead (files : FileTree) (path : String) : Prop :=
  ∃ bytes, files.read path = .ok bytes

private theorem World.mirrors_prepare (readable : files.CanRead path)
    {further : Source → Action α}
    (onward : ∀ content, Run.Mirrors alike path reference
      (w.run state files (further (.buffer content path) host))
      (w.run state files (further (.path path) host))) :
    Run.Mirrors alike path reference
      (w.run state files (((o.loading true).prepareSource path >>= further) host))
      (w.run state files (((o.loading false).prepareSource path >>= further) host)) := by
  obtain ⟨bytes, read⟩ := readable
  rw [RunOptions.prepareSource_bind rfl, RunOptions.prepareSource_path rfl, Action.pure_bind]
  simp only [World.run, World.answer, read]
  exact (onward (.ofBytes bytes)).read

private theorem World.Blind.mirrors_bind (blind : w.Blind alike) {first : Action β}
    (nothing : Asks Question.HandsNothing first) {one two : β → Action α}
    (h : ∀ value after, (w.run state files (first host)).value = (.value value, after) →
      Run.Mirrors alike path reference
        (w.run (w.run state files (first host)).state (w.run state files (first host)).files
          (one value after))
        (w.run (w.run state files (first host)).state (w.run state files (first host)).files
          (two value after))) :
    Run.Mirrors alike path reference (w.run state files ((first >>= one) host))
      (w.run state files ((first >>= two) host)) := by
  have silent := (nothing host).of_path (w.path_run state files (first host))
  have bound (next : β → Action α) : w.run state files ((first >>= next) host) =
      w.run state files ((first host).bind _) := rfl
  rw [bound one, bound two, World.run_bind, World.run_bind]
  generalize w.run state files (first host) = ran at h silent ⊢
  obtain ⟨⟨value | cause | _, after⟩, state, files, events⟩ := ran
  · exact (h value after rfl).behind silent
  · exact (Run.Mirrors.ended (blind.refl (state, files)) (Exit.error cause, after)).behind silent
  · exact (Run.Mirrors.ended (blind.refl (state, files)) (Exit.panic, after)).behind silent

private theorem World.Blind.mirrors_engaged (blind : w.Blind alike) {r : Request} {wanted : Bool}
    (readable : ∀ engine, (w.run state files (r.createEngine host)).value.1 = .value engine →
      (w.run state files (r.createEngine host)).files.CanRead path)
    {next : EngineHandle → Option Status → DocumentHandle → Action α}
    (onward : ∀ engine status document,
      Asks (Question.IsOnward reference) (next engine status document)) :
    let engaged := fun load : Bool => r.createEngine >>= fun engine =>
      (o.loading load).prepareSource path >>= o.handOver wanted engine (next engine)
    Run.Mirrors alike path reference (w.run state files (engaged true host))
      (w.run state files (engaged false host)) := by
  intro engaged
  refine blind.mirrors_bind asks_createEngine fun engine after ended => ?_
  refine World.mirrors_prepare (readable engine (congrArg Prod.fst ended)) fun content => ?_
  exact blind.mirrors_handOver (blind.refl (_, _)) (onward engine)

/-- When a request comes to its document, the file can be read. -/
def World.CanReadSource (w : World σ) (state : σ) (files : FileTree) (r : Request) (engaging : Bool)
    (host : Host) : Prop :=
  let before := w.run state files (r.beforeReading engaging host)
  before.value.1 = .value () → before.files.CanRead r.source

theorem World.CanReadSource.engaged {r : Request} (valid : r.validate = .ok ())
    (readable : w.CanReadSource state files r true host) (engine : EngineHandle)
    (ended : (w.run state files (r.createEngine host)).value.1 = .value engine) :
    (w.run state files (r.createEngine host)).files.CanRead r.source := by
  simp only [World.CanReadSource, World.run_beforeReading w valid, ended] at readable
  exact readable rfl

private theorem World.Blind.mirrors_inspect (blind : w.Blind alike) (readable : files.CanRead path)
    (further : Status → α) :
    let inspecting := fun load : Bool => Request.inspectPath (o.loading load) path >>= fun status =>
      (Pure.pure (further status) : Action α)
    Run.Mirrors alike path reference (w.run state files (inspecting true host))
      (w.run state files (inspecting false host)) := by
  intro inspecting
  simp only [inspecting, Request.inspectPath, Source.queryStatus, Action.bind_assoc,
    Action.pure_bind]
  refine World.mirrors_prepare readable fun content => ?_
  exact blind.mirrors_status (blind.refl (state, files)) fun again _ _ => .ended again _

private theorem World.Blind.mirrors_run (blind : w.Blind alike) {r : Request}
    (readable : w.CanReadSource state files r r.operation.isMutating host) :
    Run.Mirrors alike r.source r.otherDocument (w.run state files (r.run (o.loading true) host))
      (w.run state files (r.run (o.loading false) host)) := by
  cases valid : r.validate with
  | error cause =>
    simp only [Request.run, valid, ofExcept_error, fail_bind]
    exact Run.Mirrors.ended (blind.refl (state, files)) _
  | ok _ =>
    by_cases inspects : r.operation = .inspect
    · have file : files.CanRead r.source := by
        simp only [World.CanReadSource, Request.beforeReading, valid, inspects] at readable
        exact readable rfl
      simp only [Request.run, valid, ofExcept_ok, Action.pure_bind, inspects]
      exact blind.mirrors_inspect file Outcome.inspected
    · rw [Operation.isMutating_of_ne inspects] at readable
      obtain ⟨finish, onward, same⟩ := Request.run_eq valid inspects (o := o)
      rw [same true, same false]
      exact blind.mirrors_engaged (readable.engaged valid) fun _ _ _ =>
        Request.asks_proceed onward

private theorem World.Blind.mirrors_describe (blind : w.Blind alike) {r : Request}
    (readable : w.CanReadSource state files r true host) :
    Run.Mirrors alike r.source none (w.run state files (r.describe (o.loading true) host))
      (w.run state files (r.describe (o.loading false) host)) := by
  cases valid : r.validate with
  | error cause =>
    simp only [Request.describe, valid, ofExcept_error, fail_bind]
    exact Run.Mirrors.ended (blind.refl (state, files)) _
  | ok _ =>
    rw [Request.describe_eq valid, Request.describe_eq valid]
    exact blind.mirrors_engaged (readable.engaged valid) fun _ _ _ => asks_describe

end Requests

section Executions

/-- The question only writes to the log. -/
def Question.IsRecord : Question → Prop
  | log _ => True
  | _ => False

private theorem World.run_records (w : World σ) {program : Program α}
    (records : program.Asks Question.IsRecord) :
    ∃ value events, (∀ state files, w.run state files program = ⟨value, state, files, events⟩) ∧
      events.filterMap Event.call? = [] := by
  induction program with
  | done value => exact ⟨value, [], fun _ _ => rfl, rfl⟩
  | ask q next ih =>
    obtain ⟨permitted, rest⟩ := records
    cases q with
    | log record =>
      obtain ⟨value, events, same, silent⟩ := ih () (rest ())
      refine ⟨value, ⟨.log record, ()⟩ :: events, fun state files => ?_, silent⟩
      simp only [World.run, World.answer, same]
    | call | readFile | fileExists | clock => cases permitted

private theorem Run.Mirrors.bind_records {state other : σ} {files tree : FileTree}
    {first second : Program α} {next : α → Program β}
    (h : Mirrors alike path reference (w.run state files first) (w.run other tree second))
    (records : ∀ value, (next value).Asks Question.IsRecord) :
    Mirrors alike path reference (w.run state files (first.bind next))
      (w.run other tree (second.bind next)) := by
  obtain ⟨value, events, same, silent⟩ := w.run_records (records (w.run other tree second).value)
  have log := h.log
  have calls := h.calls
  simp only [Run.log] at log
  simp only [Run.calls_eq_call?] at calls
  rw [World.run_bind, World.run_bind]
  simp only [h.value, same]
  refine ⟨rfl, h.outside, ?_, ?_⟩
  · simp only [Run.log, List.filterMap_append, log]
  · simpa only [Run.calls_eq_call?, List.filterMap_append, silent, List.append_nil] using calls

theorem Run.Mirrors.attempted {one two : Run σ (Exit α × Host)}
    (h : Mirrors alike path reference one two) :
    Mirrors alike path reference one.attempted two.attempted where
  value := by simp only [Run.attempted, h.value]
  outside := h.outside
  log := h.log
  calls := h.calls

private theorem Request.asks_conclude (r : Request) (ended : Exit (Except Error Outcome) × Host) :
    (r.conclude ended).Asks Question.IsRecord := by
  obtain ⟨⟨cause | outcome⟩ | cause | _, after⟩ := ended
  · simp only [conclude]
    split <;> exact .done _
  · exact asks_bind (asks_ofProgram (.question True.intro)) (fun _ => asks_pure) after
  · exact .done _
  · exact .done _

variable {state : σ} {files : FileTree} {host : Host} {o : RunOptions} {r : Request}

private theorem World.Blind.mirrors_execute (blind : w.Blind alike)
    (readable : w.CanReadSource state files r r.operation.isMutating host) :
    Run.Mirrors alike r.source r.otherDocument
      (w.run state files (r.execute (o.loading true) host))
      (w.run state files (r.execute (o.loading false) host)) := by
  rw [Request.execute_eq, Request.execute_eq]
  refine Run.Mirrors.bind_records ?_ r.asks_conclude
  rw [World.run_attempt, World.run_attempt]
  exact (blind.mirrors_run readable).attempted

end Executions

/-- To collaborators that know a document by its name only it makes no difference whether it is read
into memory. If it can be read, both ways come to the same result in the same state, and the calls
are the same but for the source that is handed over. If it cannot, the request with the buffer ends
with that error where the file is read, before anything is handed over. -/
theorem World.Blind.staging_unseen (blind : w.Blind alike) (state : σ) (files : FileTree)
    (r : Request) (o : RunOptions) (host : Host) :
    let changes := r.operation.isMutating
    let before := fun engaging => w.run state files (r.beforeReading engaging host)
    let ran := fun load => w.run state files (r.run (o.loading load) host)
    let executed := fun load => w.run state files (r.execute (o.loading load) host)
    let described := fun load => w.run state files (r.describe (o.loading load) host)
    (w.CanReadSource state files r changes host →
      Run.Mirrors alike r.source r.otherDocument (ran true) (ran false) ∧
        Run.Mirrors alike r.source r.otherDocument (executed true) (executed false)) ∧
    (w.CanReadSource state files r true host →
      Run.Mirrors alike r.source none (described true) (described false)) ∧
    ∀ after cause,
      (w.CannotRead state files r changes host after cause →
        (ran true).StopsUnread (before changes) changes (.error (.io cause), after) ∧
          (executed true).StopsUnread (before changes) changes
            (.value ⟨r.operation.kind, r.source, .failed (Error.io cause).message⟩, after)) ∧
      (w.CannotRead state files r true host after cause →
        (described true).StopsUnread (before true) true (.error (.io cause), after)) := by
  intro changes before ran executed described
  refine ⟨fun readable => ⟨blind.mirrors_run readable, blind.mirrors_execute readable⟩,
    blind.mirrors_describe, fun after cause => ⟨fun unread => ?_, fun unread => ?_⟩⟩
  · simp only [ran, executed, unread.run_run, unread.run_execute]
    exact ⟨unread.stopsUnread _, unread.stopsUnread _⟩
  · simp only [described, unread.run_describe]
    exact unread.stopsUnread _

private theorem World.obliging_blind (protection : Option Policy) (written : Bool) :
    (obliging protection written).Blind Eq where
  refl := fun _ => rfl
  looks := by
    rintro one _ rfl path
    rfl
  replies := by
    rintro one _ rfl c -
    exact ⟨rfl, rfl⟩
  asked := by
    rintro one _ rfl s t -
    exact ⟨rfl, rfl⟩
  opened := by
    rintro one _ rfl engine options s t -
    exact ⟨rfl, rfl⟩

/-- A policy is copied to a document that is there, and to one that is not. -/
theorem World.obliging_staging_unseen :
    let w := obliging (some { granted := ["EXPORT"] }) true
    let files : FileTree :=
      { entries := [(["tmp"], .directory), (["tmp", "documents"], .directory),
          (["tmp", "documents", "report.docx"], .file [1, 2, 3])] }
    let r := (Request.protect "report.docx" "reference.docx" "app").withToken "token"
    let executed := fun files load =>
      w.run () files (r.execute { loadIntoMemory := load } {})
    w.Blind Eq ∧
      Run.Mirrors Eq "report.docx" (some "reference.docx") (executed files true)
        (executed files false) ∧
      (executed files true).value.1 =
        .value ⟨.protect, "report.docx", .committed "report_modified.docx"⟩ ∧
      (executed {} true).StopsUnread (w.run () {} (r.beforeReading true {})) true
        (.value ⟨.protect, "report.docx", .failed (Error.io .notFound).message⟩,
          { profiles := [("app", ⟨0⟩)] }) := by
  intro w files r executed
  have blind : w.Blind Eq := obliging_blind _ _
  refine ⟨blind, ?_, by decide +kernel, ?_⟩
  · exact ((World.Blind.staging_unseen blind () files r {} {}).1
      fun _ => ⟨[1, 2, 3], by decide +kernel⟩).2
  · exact (((World.Blind.staging_unseen blind () {} r {} {}).2.2 _ .notFound).1
      ⟨by decide +kernel, by decide +kernel⟩).2

end DocGuard
