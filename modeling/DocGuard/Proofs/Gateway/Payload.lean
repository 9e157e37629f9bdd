import DocGuard.Proofs.Document.OutputPath
import DocGuard.Proofs.Request.CommitProtocol
import DocGuard.Proofs.Request.ReportText
import DocGuard.Proofs.Service.Agreement

/-! What the payloads of the gateway tell. A host program learns from them alone whether a file was
written and where, what the flags of a file are, and what went wrong: an error that is fatal to the
execution of the request is told like any other. -/
namespace DocGuard
variable {σ α : Type} {events : List Event} {ran : Exit Outcome}

private theorem mem_exchanges_replied {c : Call} {reply : c.Reply} :
    .replied c reply ∈ exchanges events ↔ .replied c reply ∈ events :=
  ⟨mem_of_mem_exchanges, fun mem => mem_exchanges_of_call mem rfl⟩

namespace Schedule
variable {r : Request} {o : RunOptions} {k : Known} {host : Host} {xs : List Event}
  {d : DocumentHandle} {p : String} {exit : Exit Outcome}

theorem Follows.wrote (h : Follows r o k (ofRequest r host) xs exit)
    (mem : .replied (.commit d p) (.succeeded true) ∈ xs) :
    p ≠ "" ∧ (exit ≠ .panic → exit = .value (.committed p)) := by
  obtain ⟨before, rest, rfl⟩ := List.append_of_mem mem
  obtain ⟨_, _, name, _, _, -, derived, -⟩ := h.prepared rfl
  exact ⟨(OutputPath.derive_eq_ok_iff.1 derived).ne_empty, h.notified.2⟩

/-- A run that changes a document ends with a commit, or with the reason why there was none. -/
theorem Follows.outcome {outcome : Outcome}
    (h : Follows r o k (ofRequest r host) xs (.value outcome))
    (mutating : r.operation ≠ .inspect) :
    (∃ p, outcome = .committed p) ∨ ∃ reason, outcome = .noChange reason := by
  rcases h.value with ⟨last, -, known⟩ | ⟨_, _, _, _, _, _, rfl⟩ | ⟨_, _, _, _, _, _, rfl⟩
  · rw [outcome?_of_mutating mutating] at known
    obtain ⟨p, -, rfl⟩ := Option.map_eq_some_iff.1 known
    exact .inl ⟨p, rfl⟩
  · exact .inr ⟨_, rfl⟩
  · exact .inr ⟨_, rfl⟩

/-- An inspection ends with the flags that the engine tells, or fails without any. -/
theorem Follows.inspected (h : Follows r o k (ofRequest r host) xs exit)
    (inspects : r.operation = .inspect) :
    exit = .panic ∨
      (∃ source edits status, .replied (.contentStatus source) ⟨edits, .ok status⟩ ∈ xs ∧
        exit = .value (.inspected status)) ∨
      ∃ cause, exit = .error cause ∧
        ∀ source edits status, .replied (.contentStatus source) ⟨edits, .ok status⟩ ∉ xs := by
  rw [ofRequest_inspect inspects] at h
  cases h with
  | stop stops =>
    cases stops with
    | unready _ cause => exact .inr (.inr ⟨cause, rfl, by simp⟩)
    | panicked _ c => exact .inl rfl
    | refused _ c reply exit _ due judged =>
      obtain ⟨source, -, rfl⟩ := due
      obtain ⟨cause, failed, rfl⟩ := Known.learn_eq_error.1 judged
      refine .inr (.inr ⟨cause, rfl, fun _ _ _ mem => ?_⟩)
      cases List.mem_singleton.1 mem
      cases failed
  | pass c reply due judged follows =>
    obtain ⟨source, -, rfl⟩ := due
    obtain ⟨status, told, rfl⟩ := Known.learn_eq_ok.1 judged
    obtain ⟨edits, result⟩ := reply
    cases told
    cases follows with
    | finish known =>
      rw [inspects] at known
      cases known
      exact .inr (.inl ⟨source, edits, status, by simp, rfl⟩)

private theorem Follows.asks_status {e : Event} {c : Call}
    (h : Follows r o k (ofRequest r host) xs exit)
    (inspects : r.operation = .inspect) (mem : e ∈ xs) (called : e.call? = some c) :
    ∃ source : Source, source.identifier = r.source ∧ c = .contentStatus source := by
  rw [ofRequest_inspect inspects] at h
  obtain ⟨stage, among, known, due⟩ := h.exists_stage mem called
  cases List.mem_singleton.1 among
  exact due

end Schedule

namespace Gateway
open Json

/-- What the payload of a change tells: its status is that of the one commit, its path the one that
was written, and its error the text of the error, or of the reason, that the run ended with. -/
structure ChangeTold (events : List Event) (ran : Exit Outcome) (error path : String)
    (status : Bool) : Prop where
  succeeded : status = true ↔ ∃ d p, .replied (.commit d p) (.succeeded true) ∈ events
  written : ∀ d p, .replied (.commit d p) (.succeeded true) ∈ events →
    path = p ∧ p ≠ "" ∧ error = ""
  otherwise : status = false → path = "" ∧
    (ran = .value (.noChange error) ∨ ∃ cause, ran = .error cause ∧ error = cause.message)

/-- The members of the payload of an inspection: those for flags exactly if the engine told some. -/
inductive InspectionTold (events : List Event) (ran : Exit Outcome) (file : String) :
    List (String × Value) → Prop where
  | flags (source : Source) (edits : List Buffer.Op) (status : Status) :
      .replied (.contentStatus source) ⟨edits, .ok status⟩ ∈ events →
      InspectionTold events ran file [
        ("labeled", .bool status.isLabeled),
        ("path", .string file),
        ("protected", .bool status.isProtected),
        ("protected_objects", .bool status.hasProtectedObjects),
        ("status", .bool true)]
  | failure (cause : Error) :
      (∀ source edits status,
        .replied (.contentStatus source) ⟨edits, .ok status⟩ ∉ events) →
      ran = .error cause →
      InspectionTold events ran file
        [("error", .string cause.message), ("path", .string file), ("status", .bool false)]

/-- The members of a payload tell what happened. -/
def Told (events : List Event) (ran : Exit Outcome) :
    Arguments → List (String × Value) → Prop
  | .inspect file _, members => InspectionTold events ran file members
  | .unprotect .., members | .protect .., members => ∃ error path status,
      members = [("error", .string error), ("path", .string path), ("status", .bool status)] ∧
        ChangeTold events ran error path status

/-- The answer to a request whose run ends so. Fatal or not, an error is told. -/
def answer (r : Request) : Exit Outcome → Exit String
  | .value outcome => .value (Report.mk r.operation.kind r.source outcome).json
  | .error cause => .value (Report.mk r.operation.kind r.source (.failed cause.message)).json
  | .panic => .panic

section Reports
variable {r : Request} {o : RunOptions} {k : Schedule.Known} {host : Host} {xs : List Event}
  {exit : Exit Outcome}
open Schedule

private theorem kind_ne_inspect {operation : Operation} (mutating : operation ≠ .inspect) :
    operation.kind ≠ .inspect := by
  cases operation <;> first | contradiction | exact nofun

/-- Without a commit that succeeds the payload tells of a failure. -/
theorem ChangeTold.unwritten {error : String} (follows : Follows r o k (ofRequest r host) xs exit)
    (ended : exit = .value (.noChange error) ∨ ∃ cause, exit = .error cause ∧ error = cause.message) :
    ChangeTold xs exit error "" false := by
  have nothing : ∀ d p, .replied (.commit d p) (.succeeded true) ∉ xs := by
    intro d p mem
    obtain ⟨-, ends⟩ := follows.wrote mem
    rcases ended with rfl | ⟨cause, rfl, -⟩ <;> cases ends nofun
  exact {
    succeeded := ⟨nofun, fun ⟨d, p, mem⟩ => (nothing d p mem).elim⟩
    written := fun d p mem => (nothing d p mem).elim
    otherwise := fun _ => ⟨rfl, ended⟩ }

theorem ChangeTold.wrote {p : String}
    (follows : Follows r o k (ofRequest r host) xs (.value (.committed p))) :
    ChangeTold xs (.value (.committed p)) "" p true where
  succeeded := by
    obtain ⟨before, rest, d, rfl⟩ := follows.committed
    exact ⟨fun _ => ⟨d, p, by simp⟩, fun _ => rfl⟩
  written := fun d other mem => by
    obtain ⟨named, ends⟩ := follows.wrote mem
    cases ends nofun
    exact ⟨rfl, named, rfl⟩
  otherwise := nofun

private theorem exists_changeTold (follows : Follows r o k (ofRequest r host) xs exit)
    (mutating : r.operation ≠ .inspect) (unbroken : exit ≠ .panic) :
    ∃ report : Report, answer r exit = .value report.json ∧ ∃ error path status,
      report.Tells [("error", .string error), ("path", .string path), ("status", .bool status)] ∧
        ChangeTold xs exit error path status := by
  cases exit with
  | value outcome =>
    refine ⟨_, rfl, ?_⟩
    rcases follows.outcome mutating with ⟨p, rfl⟩ | ⟨reason, rfl⟩
    · exact ⟨_, _, _, .committed _ _ p, .wrote follows⟩
    · exact ⟨_, _, _, .noChange _ _ reason, .unwritten follows (.inl rfl)⟩
  | error cause =>
    exact ⟨_, rfl, _, _, _, .failed _ _ (kind_ne_inspect mutating),
      .unwritten follows (.inr ⟨cause, rfl, rfl⟩)⟩
  | panic => exact absurd rfl unbroken

private theorem exists_inspectionTold (follows : Follows r o k (ofRequest r host) xs exit)
    (inspects : r.operation = .inspect) (unbroken : exit ≠ .panic) :
    ∃ report : Report, answer r exit = .value report.json ∧ ∃ members,
      report.Tells members ∧ InspectionTold xs exit r.source members := by
  have kind : r.operation.kind = .inspect := by rw [inspects]; rfl
  rcases follows.inspected inspects with broken | ⟨source, edits, status, mem, rfl⟩ |
    ⟨cause, rfl, missing⟩
  · exact absurd broken unbroken
  · exact ⟨_, rfl, _, .inspected _ _ status, .flags source edits status mem⟩
  · refine ⟨_, rfl, _, ?_, .failure cause missing rfl⟩
    rw [kind]
    exact .notInspected _ _

end Reports

section Answers
variable {w : World σ} {state : σ} {files : FileTree} {host : Host} {r : Request}

private theorem run_respond_eq :
    (w.run state files (respond r host)).ActsAs (w.run state files (r.run {} host)) ∧
      (w.run state files (respond r host)).value.1 =
        answer r (w.run state files (r.run {} host)).value.1 := by
  have responds :
      (w.run state files (respond r host)).ActsAs (w.run state files (r.executeToJson {} host)) ∧
        (w.run state files (respond r host)).value = _ :=
    run_respond
  have works :
      (w.run state files (r.executeToJson {} host)).ActsAs (w.run state files (r.run {} host)) ∧
        (w.run state files (r.executeToJson {} host)).value.1 = _ :=
    run_executeToJson
  refine ⟨responds.1.trans works.1, ?_⟩
  rw [congrArg Prod.fst responds.2, works.2]
  cases (w.run state files (r.run {} host)).value.1 with
  | value outcome => rfl
  | panic => rfl
  | error cause =>
    cases fatal : cause.isFatal <;> simp [Schedule.reported, fatal, Exit.map, answered, answer]

private theorem told_of_exchanges {arguments : Arguments} {members : List (String × Value)}
    (h : Told (exchanges events) ran arguments members) : Told events ran arguments members := by
  cases arguments with
  | inspect file =>
    cases h with
    | flags source edits status mem =>
      exact .flags source edits status (mem_exchanges_replied.1 mem)
    | failure cause missing failed =>
      exact .failure cause (fun _ _ _ mem => missing _ _ _ (mem_exchanges_replied.2 mem)) failed
  | unprotect | protect =>
    obtain ⟨error, path, status, same, told⟩ := h
    exact ⟨error, path, status, same, {
      succeeded := told.succeeded.trans
        (exists_congr fun d => exists_congr fun p => mem_exchanges_replied)
      written := fun d p mem => told.written d p (mem_exchanges_replied.2 mem)
      otherwise := told.otherwise }⟩

end Answers

/-- The gateway answers every call with a payload, unless a collaborator panics, and the payload
tells what happened. Of a request that changes a document it tells the path of the one commit that
succeeded, or an error or a reason and no path. Of an inspection it tells the flags exactly if they
were told by the engine, and no collaborator is asked for anything else. -/
theorem payload_tells (w : World σ) (state : σ) (files : FileTree) (host : Host)
    (arguments : Arguments) :
    let run := w.run state files (arguments.gateway host)
    let ran := (w.run state files (arguments.request.run {} host)).value.1
    ((run.value.1 = .panic ∧ ∃ c, .unanswered c ∈ run.events) ∨
      ∃ payload members, run.value.1 = .value payload ∧ ReadsAs payload members ∧
        Told run.events ran arguments members) ∧
    ∀ file applicationId, arguments = .inspect file applicationId → ∀ e ∈ run.events, ∀ c,
      e.call? = some c → ∃ source : Source, source.identifier = file ∧ c = .contentStatus source := by
  intro run ran
  have answers : run.ActsAs (w.run state files (arguments.request.run {} host)) ∧
      run.value.1 = answer arguments.request ran := by
    simp only [run, Arguments.gateway_eq]
    exact run_respond_eq
  have follows : Schedule.Follows arguments.request {} (.initial arguments.request host)
      (Schedule.ofRequest arguments.request host) (exchanges run.events) ran := by
    rw [answers.1.exchanges]
    exact Schedule.keeps_run _ _ _ (w.path_run state files (arguments.request.run {} host))
  constructor
  · by_cases broken : ran = .panic
    · rw [broken] at follows
      obtain ⟨c, mem⟩ := follows.panicked
      refine .inl ⟨?_, c, mem_of_mem_exchanges mem⟩
      rw [answers.2, broken]
      rfl
    · have told : ∃ report : Report, answer arguments.request ran = .value report.json ∧
          ∃ members, report.Tells members ∧ Told (exchanges run.events) ran arguments members := by
        cases arguments with
        | inspect file => exact exists_inspectionTold follows rfl broken
        | unprotect | protect =>
          obtain ⟨report, same, error, path, status, tells, told⟩ :=
            exists_changeTold follows nofun broken
          exact ⟨report, same, _, tells, error, path, status, rfl, told⟩
      obtain ⟨report, same, members, tells, told⟩ := told
      exact .inr ⟨report.json, members, answers.2.trans same, tells.readsAs, told_of_exchanges told⟩
  · rintro file applicationId rfl e mem c called
    exact follows.asks_status rfl (mem_exchanges_of_call mem called) called

end Gateway
end DocGuard
