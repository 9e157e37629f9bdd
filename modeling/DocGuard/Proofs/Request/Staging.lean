import DocGuard.Proofs.Buffer.Undo
import DocGuard.Proofs.Host.Custody
import DocGuard.Proofs.Request.HandOver

/-! Requests whose document is read into memory. The engine is handed a buffer with all that stands
in the file, from the start on, and with just those changes that the engine itself made to it when
it was asked for the flags. -/
namespace DocGuard
open Program DocGuard.Action

section Buffers
open Buffer

/-- The buffer holds what some operations made of some bytes, and is read from the start on. On
lists without a limit the operations make the same of the bytes, and if none of them edits, the
bytes are as they were. -/
structure Buffer.Holds (b : Buffer) (bytes : List UInt8) (ops : List Op) : Prop where
  position : b.position = 0
  content : b.content = ((ofBytes bytes).steps ops).2.content
  spliced : (∀ done, done <+: ops → ((Split.ofBytes bytes).steps done).2.size < 2 ^ 63) →
    b.content = ((Split.ofBytes bytes).steps ops).2.bytes
  unedited : (∀ op ∈ ops, op.isEdit = false) → b.content = bytes
  drained : ∀ chunk, 0 < chunk → (b.drain chunk).1 = b.content

variable {b : Buffer} {bytes : List UInt8} {ops : List Op}

private theorem Buffer.drain_of_start (start : b.position = 0) {chunk : Nat} (some : 0 < chunk) :
    (b.drain chunk).1 = b.content := by
  obtain ⟨s, shown⟩ := b.exists_shows
  have none : s.before = [] := List.length_eq_zero_iff.1 (shown.position ▸ start)
  rw [(shown.drain chunk).1, shown.content, Split.drain, if_neg (Nat.ne_of_gt some), none,
    List.nil_append]

private theorem Buffer.holds_of_start (start : b.position = 0)
    (content : b.content = ((ofBytes bytes).steps ops).2.content) : b.Holds bytes ops where
  position := start
  content := content
  spliced := fun fits =>
    content.trans (((ofBytes_shows bytes).steps ops fits).2 ops (List.prefix_refl ops)).content
  unedited := fun untouched => content.trans (content_steps untouched)
  drained := fun _ some => drain_of_start start some

end Buffers

section Stages

/-- What happens between the making of the engine and the opening of a document that is read into
memory. If the flags are wanted they are asked for, and the engine may change the buffer. -/
inductive Staging (path : String) (bytes : List UInt8) : Bool → List Buffer.Op → List Event → Prop
    where
  | read : Staging path bytes false [] [⟨.readFile path, .ok bytes⟩]
  | asked (edits : List Buffer.Op) (status : Status) : Staging path bytes true edits
      [⟨.readFile path, .ok bytes⟩,
        .replied (.contentStatus (.buffer (.ofBytes bytes) path)) ⟨edits, .ok status⟩]

/-- The ways in which a document is taken from a file into memory and from there to the engine: the
file is not read, the question for the flags, if they are wanted, fails, or the document is opened. -/
inductive Taking (path : String) (wanted : Bool) (engine : EngineHandle) (options : OpenOptions)
    (onward : Question → Prop) : List Event → Prop where
  | unread (cause : FileError) : Taking path wanted engine options onward
      [⟨.readFile path, .error cause⟩]
  | unanswered (bytes : List UInt8) : wanted = true → Taking path wanted engine options onward
      [⟨.readFile path, .ok bytes⟩, .unanswered (.contentStatus (.buffer (.ofBytes bytes) path))]
  | refused (bytes : List UInt8) (edits : List Buffer.Op) (cause : Error) : wanted = true →
      Taking path wanted engine options onward [⟨.readFile path, .ok bytes⟩,
        .replied (.contentStatus (.buffer (.ofBytes bytes) path)) ⟨edits, .error cause⟩]
  | opened {bytes : List UInt8} {edits : List Buffer.Op} {staging rest : List Event}
      {content : Buffer} (answer) : Staging path bytes wanted edits staging →
      content.Holds bytes edits → (∀ e ∈ rest, onward e.question) →
      Taking path wanted engine options onward
        (staging ++ ⟨.call (.openDocument engine (.buffer content path) options), answer⟩ :: rest)

variable {α : Type} {o : RunOptions} {r : Request} {path : String} {wanted : Bool}
  {engine : EngineHandle} {onward : Question → Prop} {host after : Host} {events : List Event}
  {exit : Exit α} {next : Option Status → DocumentHandle → Action α}

private theorem path_openDocument {source : Source} {further : DocumentHandle → Action α}
    (goes : ∀ document, Asks onward (further document))
    (h : Path ((o.openDocument engine source >>= further) host) events (exit, after)) :
    ∃ answer rest, events =
        ⟨.call (.openDocument engine source o.openOptions), answer⟩ :: rest ∧
      ∀ e ∈ rest, onward e.question := by
  unfold RunOptions.openDocument at h
  rw [Action.bind_assoc] at h
  rcases path_call_bind_iff.1 h with ⟨reply, rest, rfl, path⟩ | ⟨-, -, rfl⟩
  · refine ⟨some reply, rest, rfl, ?_⟩
    exact (asks_bind asks_ofExcept goes host).of_path path
  · exact ⟨none, [], rfl, by simp⟩

private theorem rewound_buffer (content : Buffer) (edits : List Buffer.Op) (path : String) :
    ∃ start : Buffer, (Source.buffer content path).rewound edits = .ok (.buffer start path) ∧
      start.position = 0 ∧ start.content = (content.steps edits).2.content :=
  ⟨_, rfl, rfl, rfl⟩

/-- A document that is taken into memory is taken in one of these ways. -/
theorem path_take (loads : o.loadIntoMemory = true)
    (goes : ∀ status document, Asks onward (next status document))
    (h : Path ((o.prepareSource path >>= o.handOver wanted engine next) host) events
      (exit, after)) :
    Taking path wanted engine o.openOptions onward events := by
  rw [RunOptions.prepareSource_bind loads] at h
  obtain ⟨read, rest, rfl, taken⟩ := Path.ask_iff.1 h
  cases read with
  | error cause =>
    obtain ⟨rfl, -⟩ := Path.done_iff.1 taken
    exact .unread cause
  | ok bytes =>
    cases wanted with
    | false =>
      obtain ⟨answer, rest, rfl, allowed⟩ := path_openDocument (goes none) taken
      exact .opened answer .read (Buffer.holds_of_start rfl rfl) allowed
    | true =>
      simp only [RunOptions.handOver_asked] at taken
      rcases path_call_bind_iff.1 taken with ⟨⟨edits, status⟩, rest, rfl, asked⟩ | ⟨-, -, rfl⟩
      · cases status with
        | error cause =>
          obtain ⟨rfl, -, -⟩ := path_fail_iff.1 asked
          exact .refused bytes edits cause rfl
        | ok status =>
          obtain ⟨start, rewound, first, content⟩ :=
            rewound_buffer (.ofBytes bytes) edits path
          simp only [ofExcept_ok, Action.pure_bind, rewound] at asked
          obtain ⟨answer, rest, rfl, allowed⟩ := path_openDocument (goes (some status)) asked
          exact .opened answer (.asked edits status) (Buffer.holds_of_start first content) allowed
      · exact .unanswered bytes rfl

/-- What happens in a run that hands over a document: nothing is handed over while the engine is made,
and then the document is taken, unless the run is over. -/
def Takes (path : String) (wanted : Bool) (options : OpenOptions) (reference : Option String)
    (events : List Event) : Prop :=
  ∃ made taken, events = made ++ taken ∧ (∀ e ∈ made, e.question.HandsNothing) ∧
    (taken = [] ∨
      ∃ engine, Taking path wanted engine options (Question.IsOnward reference) taken)

private theorem path_createEngine_bind {further : EngineHandle → Action α}
    (h : Path ((r.createEngine >>= further) host) events (exit, after)) :
    ∃ made rest, events = made ++ rest ∧ (∀ e ∈ made, e.question.HandsNothing) ∧
      (rest = [] ∨ ∃ engine middle, Path (further engine middle) rest (exit, after)) := by
  rcases path_bind_iff.1 h with ⟨made, rest, engine, middle, rfl, path, further⟩ |
    ⟨cause, rfl, path⟩ | ⟨rfl, path⟩
  · exact ⟨made, rest, rfl, (asks_createEngine host).of_path path, .inr ⟨engine, middle, further⟩⟩
  · exact ⟨events, [], by simp, (asks_createEngine host).of_path path, .inl rfl⟩
  · exact ⟨events, [], by simp, (asks_createEngine host).of_path path, .inl rfl⟩

private theorem takes_of_path {reference : Option String} (loads : o.loadIntoMemory = true)
    {further : EngineHandle → Option Status → DocumentHandle → Action α}
    (goes : ∀ engine status document,
      Asks (Question.IsOnward reference) (further engine status document))
    (h : Path ((r.createEngine >>= fun engine => o.prepareSource path >>=
      o.handOver wanted engine (further engine)) host) events (exit, after)) :
    Takes path wanted o.openOptions reference events := by
  obtain ⟨made, rest, rfl, nothing, rfl | ⟨engine, middle, taken⟩⟩ := path_createEngine_bind h
  · exact ⟨made, [], rfl, nothing, .inl rfl⟩
  · exact ⟨made, rest, rfl, nothing, .inr ⟨engine, path_take loads (goes engine) taken⟩⟩

private theorem loading_true (loads : o.loadIntoMemory = true) : o.loading true = o := by
  obtain ⟨_, _, _⟩ := o
  cases loads
  rfl

private theorem takes_run {exit : Exit Outcome} (loads : o.loadIntoMemory = true)
    (mutating : r.operation ≠ .inspect) (h : Path (r.run o host) events (exit, after)) :
    Takes r.source r.wantsStatus o.openOptions r.otherDocument events := by
  cases valid : r.validate with
  | error cause =>
    simp only [Request.run, valid, ofExcept_error, fail_bind] at h
    obtain ⟨rfl, -, -⟩ := path_fail_iff.1 h
    exact ⟨[], [], rfl, by simp, .inl rfl⟩
  | ok _ =>
    obtain ⟨finish, onward, same⟩ := Request.run_eq valid mutating (o := o)
    have whole := same true
    rw [loading_true loads] at whole
    rw [whole] at h
    exact takes_of_path loads (fun _ _ _ => Request.asks_proceed onward) h

private theorem takes_describe {exit : Exit Description} (loads : o.loadIntoMemory = true)
    (h : Path (r.describe o host) events (exit, after)) :
    Takes r.source false o.openOptions none events := by
  cases valid : r.validate with
  | error cause =>
    simp only [Request.describe, valid, ofExcept_error, fail_bind] at h
    obtain ⟨rfl, -, -⟩ := path_fail_iff.1 h
    exact ⟨[], [], rfl, by simp, .inl rfl⟩
  | ok _ =>
    rw [Request.describe_eq valid] at h
    exact takes_of_path loads (fun _ _ _ => asks_describe) h

end Stages

section Openings

def Call.isOpening : Call → Bool
  | openDocument .. => true
  | _ => false

variable {path : String} {wanted : Bool} {engine opener : EngineHandle} {options : OpenOptions}
  {reference : Option String} {bytes : List UInt8} {edits : List Buffer.Op}
  {events before rest : List Event} {source : Source} {opening : OpenOptions}

private theorem Staging.isOpening_eq_false (h : Staging path bytes wanted edits events) :
    ∀ e ∈ events, e.isCall Call.isOpening = false := by
  cases h <;> simp [Event.isCall, Event.call?, Call.isOpening]

private theorem eq_second {e first second : Event} (h : before ++ e :: rest = [first, second])
    (other : e ≠ first) : e = second ∧ rest = [] := by
  cases before with
  | nil => exact absurd (List.cons.inj h).1 other
  | cons _ before =>
    obtain ⟨-, h⟩ := List.cons.inj h
    cases before with
    | nil => exact List.cons.inj h
    | cons _ before => simp at h

private theorem Staging.of_status {reply : StatusReply}
    (h : Staging path bytes wanted edits
      (before ++ .replied (.contentStatus source) reply :: rest)) : wanted = true ∧ rest = [] := by
  generalize whole : before ++ .replied (.contentStatus source) reply :: rest = staging at h
  cases h with
  | read =>
    have among : .replied (.contentStatus source) reply ∈
        [(⟨.readFile path, .ok bytes⟩ : Event)] := by
      simp [← whole]
    cases List.mem_singleton.1 among
  | asked edits status => exact ⟨rfl, (eq_second whole (by rintro ⟨⟩)).2⟩

/-- The first document that is opened is the buffer as it was staged, and any other is the reference.
-/
theorem Taking.of_opening {answer : Question.Answer (.call (.openDocument opener source opening))}
    (h : Taking path wanted engine options (Question.IsOnward reference)
      (before ++ ⟨.call (.openDocument opener source opening), answer⟩ :: rest)) :
    (∃ bytes edits content, Staging path bytes wanted edits before ∧
      source = .buffer content path ∧ content.Holds bytes edits) ∨
    (∃ e ∈ before, e.isCall Call.isOpening = true) ∧
      ∃ other, reference = some other ∧ source = .path other := by
  generalize whole : before ++ ⟨.call (.openDocument opener source opening), answer⟩ :: rest =
    taken at h
  have among : ⟨.call (.openDocument opener source opening), answer⟩ ∈ taken := by
    simp [← whole]
  cases h with
  | unread cause => cases List.mem_singleton.1 among
  | unanswered bytes | refused bytes edits cause =>
    rcases List.mem_pair.1 among with same | same <;> cases same
  | @opened bytes edits staging later content reply staged holds onward =>
    rcases split_append whole.symm with ⟨middle, rfl, -⟩ | ⟨middle, rfl, same⟩
    · have never := staged.isOpening_eq_false
        ⟨.call (.openDocument opener source opening), answer⟩ (by simp)
      cases never
    · cases middle with
      | nil =>
        cases same
        exact .inl ⟨bytes, edits, content, by simpa using staged, rfl, holds⟩
      | cons first middle =>
        cases same
        refine .inr ⟨⟨_, List.mem_append_right _ List.mem_cons_self, rfl⟩, ?_⟩
        rcases onward ⟨.call (.openDocument opener source opening), answer⟩
          (List.mem_append_right _ List.mem_cons_self) with nothing | ⟨_, other, _, given, opens⟩
        · cases nothing
        · cases opens
          exact ⟨other, given, rfl⟩

private theorem Taking.of_status {status : Status}
    (h : Taking path wanted engine options (Question.IsOnward reference)
      (before ++ .replied (.contentStatus source) ⟨edits, .ok status⟩ :: rest)) :
    wanted = true ∧ ∃ opened answer more,
      rest = ⟨.call (.openDocument engine opened options), answer⟩ :: more := by
  generalize whole : before ++ .replied (.contentStatus source) ⟨edits, .ok status⟩ :: rest =
    taken at h
  have among : .replied (.contentStatus source) ⟨edits, .ok status⟩ ∈ taken := by
    simp [← whole]
  cases h with
  | unread cause => cases List.mem_singleton.1 among
  | unanswered bytes | refused bytes edits cause =>
    rcases List.mem_pair.1 among with same | same <;> cases same
  | @opened bytes changes staging later content reply staged holds onward =>
    rcases split_append whole.symm with ⟨middle, rfl, rfl⟩ | ⟨middle, rfl, same⟩
    · obtain ⟨asks, rfl⟩ := staged.of_status
      exact ⟨asks, _, reply, later, rfl⟩
    · cases middle with
      | nil => cases same
      | cons first middle =>
        cases same
        rcases onward (.replied (.contentStatus source) ⟨edits, .ok status⟩)
          (List.mem_append_right _ List.mem_cons_self) with nothing | ⟨_, _, _, _, opens⟩
        · cases nothing
        · cases opens

end Openings

section Inspections
variable {o : RunOptions} {r : Request} {path : String} {host after : Host} {events : List Event}

/-- The ways in which a document is inspected that is read into memory. -/
inductive Inspecting (path : String) : List Event → Exit Status → Prop where
  | unread (cause : FileError) :
      Inspecting path [⟨.readFile path, .error cause⟩] (.error (.io cause))
  | unanswered (bytes : List UInt8) : Inspecting path [⟨.readFile path, .ok bytes⟩,
      .unanswered (.contentStatus (.buffer (.ofBytes bytes) path))] .panic
  | refused (bytes : List UInt8) (edits : List Buffer.Op) (cause : Error) :
      Inspecting path [⟨.readFile path, .ok bytes⟩,
        .replied (.contentStatus (.buffer (.ofBytes bytes) path)) ⟨edits, .error cause⟩]
        (.error cause)
  | answered (bytes : List UInt8) (edits : List Buffer.Op) (status : Status) :
      Inspecting path [⟨.readFile path, .ok bytes⟩,
        .replied (.contentStatus (.buffer (.ofBytes bytes) path)) ⟨edits, .ok status⟩]
        (.value status)

private theorem path_inspect {exit : Exit Status} (loads : o.loadIntoMemory = true)
    (h : Path (Request.inspectPath o path host) events (exit, after)) :
    Inspecting path events exit := by
  unfold Request.inspectPath at h
  rw [RunOptions.prepareSource_bind loads] at h
  obtain ⟨read, rest, rfl, taken⟩ := Path.ask_iff.1 h
  cases read with
  | error cause =>
    obtain ⟨rfl, ended⟩ := Path.done_iff.1 taken
    cases ended
    exact .unread cause
  | ok bytes =>
    simp only [Source.queryStatus, Action.bind_assoc, Action.pure_bind] at taken
    rcases path_call_bind_iff.1 taken with ⟨⟨edits, status⟩, rest, rfl, asked⟩ | ⟨rfl, -, rfl⟩
    · cases status with
      | error cause =>
        obtain ⟨rfl, rfl, -⟩ := path_fail_iff.1 asked
        exact .refused bytes edits cause
      | ok status =>
        obtain ⟨start, rewound, -⟩ := rewound_buffer (.ofBytes bytes) edits path
        simp only [ofExcept_ok, Action.pure_bind, rewound] at asked
        obtain ⟨rfl, rfl, -⟩ := path_return_iff.1 asked
        exact .answered bytes edits status
    · exact .unanswered bytes

private theorem inspecting_run {exit : Exit Outcome} (loads : o.loadIntoMemory = true)
    (inspects : r.operation = .inspect) (h : Path (r.run o host) events (exit, after)) :
    events = [] ∨ ∃ ended, Inspecting r.source events ended ∧ exit = ended.map .inspected := by
  cases valid : r.validate with
  | error cause =>
    simp only [Request.run, valid, ofExcept_error, fail_bind] at h
    exact .inl (path_fail_iff.1 h).1
  | ok _ =>
    simp only [Request.run, valid, ofExcept_ok, Action.pure_bind, inspects] at h
    obtain ⟨ended, inspection, rfl⟩ := path_bind_return h
    exact .inr ⟨ended, path_inspect loads inspection, rfl⟩

private theorem Inspecting.of_status {before rest : List Event} {source : Source}
    {edits : List Buffer.Op}
    {status : Status} {exit : Exit Status}
    (h : Inspecting path (before ++ .replied (.contentStatus source) ⟨edits, .ok status⟩ :: rest)
      exit) : rest = [] ∧ exit = .value status := by
  generalize whole : before ++ .replied (.contentStatus source) ⟨edits, .ok status⟩ :: rest =
    events at h
  have among : .replied (.contentStatus source) ⟨edits, .ok status⟩ ∈ events := by
    simp [← whole]
  cases h with
  | unread cause => cases List.mem_singleton.1 among
  | unanswered bytes | refused bytes edits cause =>
    rcases List.mem_pair.1 among with same | same <;> cases same
  | answered bytes changes found =>
    obtain ⟨same, ended⟩ := eq_second whole (by rintro ⟨⟩)
    cases same
    exact ⟨ended, rfl⟩

private theorem Inspecting.isOpening_eq_false {exit : Exit Status}
    (h : Inspecting path events exit) :
    ∀ e ∈ events, e.isCall Call.isOpening = false := by
  cases h <;> simp [Event.isCall, Event.call?, Call.isOpening]

end Inspections

namespace World
variable {σ : Type} (w : World σ) (state : σ) (files : FileTree) {r : Request} {o : RunOptions}

/-- Before a document is handed over as a source, nothing else was. The file at its path was read
whole, the question for its flags was put if they were wanted, and the source is a buffer with what
the engine then made of the bytes of the file. -/
inductive Stages (path : String) (wanted : Bool) : List Event → Source → Prop where
  | mk {earlier staging : List Event} {bytes : List UInt8} {edits : List Buffer.Op}
      {content : Buffer} : (∀ e ∈ earlier, e.question.HandsNothing) →
      (w.after state files earlier).2.read path = .ok bytes →
      Staging path bytes wanted edits staging → content.Holds bytes edits →
      Stages path wanted (earlier ++ staging) (.buffer content path)

variable {w state files} {α : Type} {program : Program α} {path : String} {wanted : Bool}
  {options opening : OpenOptions} {reference : Option String} {before rest : List Event}
  {opener : EngineHandle} {source : Source}

private theorem read_of_staging {earlier staging : List Event} {bytes : List UInt8}
    {edits : List Buffer.Op} (staged : Staging path bytes wanted edits staging)
    (h : (w.run state files program).events = earlier ++ (staging ++ rest)) :
    (w.after state files earlier).2.read path = .ok bytes := by
  cases staged with
  | read => exact w.answer_of_run state files program h
  | asked edits status => exact w.answer_of_run state files program h

private theorem stages_of_takes
    (takes : Takes path wanted options reference (w.run state files program).events)
    {answer : Question.Answer (.call (.openDocument opener source opening))}
    (h : (w.run state files program).events =
      before ++ ⟨.call (.openDocument opener source opening), answer⟩ :: rest) :
    w.Stages state files path wanted before source ∨
      (∃ e ∈ before, e.isCall Call.isOpening = true) ∧
        ∃ other, reference = some other ∧ source = .path other := by
  obtain ⟨made, taken, whole, nothing, took⟩ := takes
  rcases split_append (whole.symm.trans h) with ⟨middle, rfl, -⟩ | ⟨middle, rfl, rfl⟩
  · have none := nothing ⟨.call (.openDocument opener source opening), answer⟩ (by simp)
    cases none
  · rcases took with none | ⟨engine, taking⟩
    · simp at none
    · rcases taking.of_opening with ⟨bytes, edits, content, staged, rfl, holds⟩ |
        ⟨⟨e, among, opens⟩, other⟩
      · exact .inl (.mk nothing (read_of_staging staged whole) staged holds)
      · exact .inr ⟨⟨e, List.mem_append_right _ among, opens⟩, other⟩

private theorem stages_run {host : Host} (loads : o.loadIntoMemory = true)
    {answer : Question.Answer (.call (.openDocument opener source opening))}
    (h : (w.run state files (r.run o host)).events =
      before ++ ⟨.call (.openDocument opener source opening), answer⟩ :: rest) :
    w.Stages state files r.source r.wantsStatus before source ∨
      (∃ e ∈ before, e.isCall Call.isOpening = true) ∧
        ∃ reference, r.otherDocument = some reference ∧ source = .path reference := by
  have path := w.path_run state files (r.run o host)
  by_cases inspects : r.operation = .inspect
  · -- nothing is opened
    rcases inspecting_run loads inspects path with none | ⟨ended, inspecting, -⟩
    · simp [none] at h
    · have among : ⟨.call (.openDocument opener source opening), answer⟩ ∈
          (w.run state files (r.run o host)).events := by
        rw [h]
        exact List.mem_append_right before List.mem_cons_self
      cases inspecting.isOpening_eq_false _ among
  · exact stages_of_takes (takes_run loads inspects path) h

private theorem wantsStatus_iff : r.wantsStatus = true ↔ r.operation = .unprotect := by
  unfold Request.wantsStatus
  cases r.operation <;> simp

private theorem goes_on_of_status {host : Host} (loads : o.loadIntoMemory = true)
    {edits : List Buffer.Op} {status : Status}
    (h : (w.run state files (r.run o host)).events =
      before ++ .replied (.contentStatus source) ⟨edits, .ok status⟩ :: rest) :
    (r.operation = .inspect ∧ rest = [] ∧
      (w.run state files (r.run o host)).value.1 = .value (.inspected status)) ∨
    (r.operation = .unprotect ∧ ∃ engine opened answer more,
      rest = ⟨.call (.openDocument engine opened o.openOptions), answer⟩ :: more) := by
  have path := w.path_run state files (r.run o host)
  by_cases inspects : r.operation = .inspect
  · rcases inspecting_run loads inspects path with none | ⟨ended, inspecting, same⟩
    · simp [none] at h
    · rw [h] at inspecting
      obtain ⟨rfl, rfl⟩ := inspecting.of_status
      exact .inl ⟨inspects, rfl, same⟩
  · obtain ⟨made, taken, whole, nothing, took⟩ := takes_run loads inspects path
    rcases split_append (whole.symm.trans h) with ⟨middle, rfl, -⟩ | ⟨middle, rfl, rfl⟩
    · have none := nothing (.replied (.contentStatus source) ⟨edits, .ok status⟩) (by simp)
      cases none
    · rcases took with none | ⟨engine, taking⟩
      · simp at none
      · obtain ⟨wanted, opened, answer, more, same⟩ := taking.of_status
        exact .inr ⟨wantsStatus_iff.1 wanted, engine, opened, answer, more, same⟩

section Progress
variable {host after : Host} {engine : EngineHandle} {bytes : List UInt8} {earlier : List Event}
  {events : List Event} {c : Call}

/-- After what has happened before, the file is read whole, and with nothing in between the call is
made. -/
def ReadsThenCalls (earlier : List Event) (path : String) (bytes : List UInt8) (c : Call)
    (events : List Event) : Prop :=
  ∃ answer rest, events = earlier ++ ⟨.readFile path, .ok bytes⟩ :: ⟨.call c, answer⟩ :: rest

private theorem exists_events_call (c : Call) (next : c.Reply → Action α) (host : Host) :
    ∃ answer rest, (w.run state files ((call c >>= next) host)).events = ⟨.call c, answer⟩ :: rest := by
  have path := w.path_run state files ((call c >>= next) host)
  rcases path_call_bind_iff.1 path with ⟨reply, rest, events, -⟩ | ⟨-, -, events⟩
  · exact ⟨some reply, rest, events⟩
  · exact ⟨none, [], events⟩

/-- Once the engine is made and the file can be read, the document is handed over: to be asked for its
flags if they are wanted, and else to be opened. -/
theorem readsThenCalls_of_made (wanted : Bool) (loads : o.loadIntoMemory = true)
    (made : (w.run state files (r.createEngine host)).value = (.value engine, after))
    (readable : (w.run state files (r.createEngine host)).files.read path = .ok bytes)
    (next : EngineHandle → Option Status → DocumentHandle → Action α) :
    ReadsThenCalls (w.run state files (r.createEngine host)).events path bytes
      (if wanted then .contentStatus (.buffer (.ofBytes bytes) path)
        else .openDocument engine (.buffer (.ofBytes bytes) path) o.openOptions)
      (w.run state files ((r.createEngine >>= fun engine => o.prepareSource path >>=
        o.handOver wanted engine (next engine)) host)).events := by
  have bound : w.run state files ((r.createEngine >>= fun engine => o.prepareSource path >>=
      o.handOver wanted engine (next engine)) host) =
      w.run state files ((r.createEngine host).bind _) := rfl
  rw [bound, World.run_bind]
  generalize w.run state files (r.createEngine host) = created at made readable ⊢
  obtain ⟨_, state, files, earlier⟩ := created
  cases made
  simp only [RunOptions.prepareSource_bind loads, World.run, World.answer]
  rw [readable]
  -- what comes behind the reading begins with the call
  suffices first : ∃ answer rest, (w.run state files (o.handOver wanted engine (next engine)
      (.buffer (.ofBytes bytes) path) after)).events = ⟨.call _, answer⟩ :: rest by
    obtain ⟨answer, rest, events⟩ := first
    exact ⟨answer, rest, by rw [events]⟩
  cases wanted with
  | false =>
    rw [RunOptions.handOver_unasked, RunOptions.openDocument, Action.bind_assoc]
    exact exists_events_call ..
  | true =>
    rw [RunOptions.handOver_asked]
    exact exists_events_call ..

variable (loads : o.loadIntoMemory = true) (valid : r.validate = .ok ())
  (made : (w.run state files (r.createEngine host)).value = (.value engine, after))
  (readable : (w.run state files (r.createEngine host)).files.read r.source = .ok bytes)
include loads valid made readable

private theorem readsThenCalls_describe :
    ReadsThenCalls (w.run state files (r.createEngine host)).events r.source bytes
      (.openDocument engine (.buffer (.ofBytes bytes) r.source) o.openOptions)
      (w.run state files (r.describe o host)).events := by
  rw [Request.describe_eq valid]
  exact readsThenCalls_of_made false loads made readable _

private theorem readsThenCalls_run (mutating : r.operation ≠ .inspect) :
    ReadsThenCalls (w.run state files (r.createEngine host)).events r.source bytes
      (if r.wantsStatus then .contentStatus (.buffer (.ofBytes bytes) r.source)
        else .openDocument engine (.buffer (.ofBytes bytes) r.source) o.openOptions)
      (w.run state files (r.run o host)).events := by
  obtain ⟨finish, -, same⟩ := Request.run_eq valid mutating (o := o)
  have whole := same true
  rw [loading_true loads] at whole
  rw [whole]
  exact readsThenCalls_of_made _ loads made readable _

end Progress

/-- A document that is read into memory comes to the engine whole. Whatever is in the file, whatever
the engine does to the buffer when it is asked for the flags, and whatever the collaborators do else,
the first document that is opened is the buffer under the path of the source, with its cursor at the
start and with the bytes of the file as the engine left them. The only other one is the reference,
handed over by its path. After a question for the flags that succeeds the cursor is always moved back:
an inspection is over, and a removal of the protection goes on to open the document. And once the
engine is made and the file is read, the document is handed over at once: to be opened, with just the
bytes of the file, or by a removal of the protection to be asked for its flags. -/
theorem stages_whole_document (w : World σ) (state : σ) (files : FileTree) (r : Request)
    (o : RunOptions) (host : Host) (loads : o.loadIntoMemory = true) :
    let run := w.run state files (r.run o host)
    let described := w.run state files (r.describe o host)
    let created := w.run state files (r.createEngine host)
    (∀ before engine source options answer rest,
      run.events = before ++ ⟨.call (.openDocument engine source options), answer⟩ :: rest →
      w.Stages state files r.source r.wantsStatus before source ∨
        (∃ e ∈ before, e.isCall Call.isOpening = true) ∧
          ∃ reference, r.otherDocument = some reference ∧ source = .path reference) ∧
    (∀ before engine source options answer rest,
      described.events = before ++ ⟨.call (.openDocument engine source options), answer⟩ :: rest →
      w.Stages state files r.source false before source) ∧
    (∀ before source edits status rest,
      run.events = before ++ .replied (.contentStatus source) ⟨edits, .ok status⟩ :: rest →
      (r.operation = .inspect ∧ rest = [] ∧ run.value.1 = .value (.inspected status)) ∨
        (r.operation = .unprotect ∧ ∃ engine opened answer more,
          rest = ⟨.call (.openDocument engine opened o.openOptions), answer⟩ :: more)) ∧
    ∀ engine after bytes, r.validate = .ok () → created.value = (.value engine, after) →
      created.files.read r.source = .ok bytes →
      let staged := Source.buffer (.ofBytes bytes) r.source
      ReadsThenCalls created.events r.source bytes (.openDocument engine staged o.openOptions)
        described.events ∧
      (r.operation = .unprotect →
        ReadsThenCalls created.events r.source bytes (.contentStatus staged) run.events) ∧
      (r.operation ≠ .inspect → r.operation ≠ .unprotect →
        ReadsThenCalls created.events r.source bytes (.openDocument engine staged o.openOptions)
          run.events) := by
  intro run described created
  refine ⟨fun before engine source options answer rest h => stages_run loads h, ?_,
    fun before source edits status rest h => goes_on_of_status loads h, ?_⟩
  · intro before engine source options answer rest h
    have takes := takes_describe loads (w.path_run state files (r.describe o host))
    rcases stages_of_takes takes h with staged | ⟨-, _, none, -⟩
    · exact staged
    · cases none
  · intro engine after bytes valid made readable staged
    refine ⟨readsThenCalls_describe loads valid made readable, fun removes => ?_,
      fun mutating keeps => ?_⟩
    · have first := readsThenCalls_run loads valid made readable (by simp [removes])
      rwa [if_pos (wantsStatus_iff.2 removes)] at first
    · have first := readsThenCalls_run loads valid made readable mutating
      rwa [if_neg (mt wantsStatus_iff.1 keeps)] at first

/-- Collaborators that do what they are asked, and work on the buffer when they are asked for the
flags. -/
def editing (edits : List Buffer.Op) : World Unit where
  reply := fun state files c =>
    match c with
    | .contentStatus _ => (some ⟨edits, .ok { isProtected := true }⟩, state, files)
    | c => (obliging (some { granted := ["EXPORT"] }) true).reply state files c
  time := fun _ => ⟨0⟩

/-- The question for the flags leaves the cursor in the middle and the buffer changed. The buffer that
is opened starts at the start and has the change. To set a label, or to describe the document, it is
opened as it was read. -/
theorem editing_stages_whole_document :
    let w := editing [.read 2, .insert [9], .seek 100]
    let files : FileTree :=
      { entries := [(["tmp"], .directory), (["tmp", "documents"], .directory),
          (["tmp", "documents", "report.docx"], .file [1, 2, 3])] }
    let r := (Request.unprotect "report.docx" "app").withToken "token"
    let o : RunOptions := { loadIntoMemory := true }
    let run := w.run () files (r.run o {})
    o.loadIntoMemory = true ∧
      (run.calls.filterMap fun c => match c with
        | .openDocument _ (.buffer content name) _ => some (name, content.position, content.content)
        | _ => none) = [("report.docx", 0, [1, 2, 9, 3])] ∧
      ∃ before engine source options answer rest,
        run.events = before ++ ⟨.call (.openDocument engine source options), answer⟩ :: rest ∧
          w.Stages () files "report.docx" true before source ∧
      let labels := (Request.setLabel "report.docx" "app" "label" {}).withToken "token"
      let opens : EngineHandle → Call := fun engine =>
        .openDocument engine (.buffer (.ofBytes [1, 2, 3]) "report.docx") o.openOptions
      ∃ made engine, ReadsThenCalls made "report.docx" [1, 2, 3] (opens engine)
          (w.run () files (labels.run o {})).events ∧
        ReadsThenCalls made "report.docx" [1, 2, 3] (opens engine)
          (w.run () files (labels.describe o {})).events := by
  intro w files r o run
  have opens : run.events.any (·.isCall Call.isOpening) = true := by
    decide +kernel
  obtain ⟨⟨question, answer⟩, among, opening⟩ := List.any_eq_true.1 opens
  obtain ⟨engine, source, options, rfl⟩ : ∃ engine source options,
      question = .call (.openDocument engine source options) := by
    cases question with
    | call c =>
      cases c with
      | openDocument engine source options => exact ⟨engine, source, options, rfl⟩
      | _ => cases opening
    | _ => cases opening
  obtain ⟨before, rest, whole⟩ := List.append_of_mem among
  refine ⟨rfl, by decide +kernel, before, engine, source, options, answer, rest, whole, ?_, ?_⟩
  · rcases (stages_whole_document w () files r o {} rfl).1 before engine source options answer rest
      whole with staged | ⟨-, _, other, -⟩
    · exact staged
    · cases other
  · intro labels opens
    have valid : labels.validate = .ok () := by decide +kernel
    let created := w.run () files (labels.createEngine {})
    have made : created.value = (.value ⟨0⟩, created.value.2) := Prod.ext (by decide +kernel) rfl
    have readable : created.files.read "report.docx" = .ok [1, 2, 3] := by decide +kernel
    obtain ⟨described, -, opened⟩ :=
      (stages_whole_document w () files labels o {} rfl).2.2.2 _ _ _ valid made readable
    exact ⟨created.events, ⟨0⟩, opened nofun nofun, described⟩

end World

end DocGuard
