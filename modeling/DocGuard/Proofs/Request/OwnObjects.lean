import DocGuard.Proofs.Host.Custody
import DocGuard.Proofs.Request.HandOver

/-! The objects that a request works on. Once an engine is made, a request calls that engine and the
documents that it opened itself, and nothing else. From its host it takes the configuration only, so
that with two hosts of one configuration it asks the same as long as it is answered the same. -/
namespace DocGuard
open DocGuard.Action

/-- What the engine makes for a request. -/
inductive Object where
  | engine (e : EngineHandle)
  | document (d : DocumentHandle)
  deriving DecidableEq

namespace Call

/-- The object that a call is made on. -/
def receiver? : Call → Option Object
  | openDocument e .. | labelById e _ => some (.engine e)
  | getLabel d | getProtection d | setLabel d .. | deleteLabel d _ | setProtection d _
  | removeProtection d | isModified d | outputFileName d | commit d _ | notifyCommit d _ =>
    some (.document d)
  | acquireToken _ | consent _ | loadProfile _ | addEngine .. | contentStatus _ | shutdown _ => none

/-- The objects that a call made, as the reply tells. -/
def made : (c : Call) → Option c.Reply → List Object
  | addEngine .., some (.succeeded e) => [.engine e]
  | openDocument .., some (.succeeded d) => [.document d]
  | _, _ => []

end Call

namespace Question

def made : (q : Question) → q.Answer → List Object
  | call c, answer => c.made answer
  | _, _ => []

/-- A question of a request that has some objects. It may be a call on one of them or on none, but
none for the sake of a profile. -/
def IsOwn (known : List Object) : Question → Prop
  | call c => c.concernsProfiles = false ∧ ∀ object, c.receiver? = some object → object ∈ known
  | readFile _ | fileExists _ | log _ => True
  | clock => False

/-- A look at a file, or a record in the log. -/
def IsLocal : Question → Prop
  | readFile _ | fileExists _ | log _ => True
  | call _ | clock => False

variable {known : List Object} {q : Question}

theorem IsOwn.mono {further : List Object} (h : q.IsOwn known) (more : known ⊆ further) :
    q.IsOwn further := by
  cases q with
  | call c => exact ⟨h.1, fun object receives => more (h.2 object receives)⟩
  | readFile path | fileExists path | log record => exact True.intro
  | clock => exact h

private theorem IsLocal.isOwn (h : q.IsLocal) : q.IsOwn known := by
  cases q with
  | call c => exact h.elim
  | readFile path | fileExists path | log record => exact True.intro
  | clock => exact h

theorem IsLocal.made (h : q.IsLocal) (answer : q.Answer) : q.made answer = [] := by
  cases q with
  | call c => exact h.elim
  | readFile path | fileExists path | log record | clock => rfl

end Question

namespace Program
variable {α β : Type}

/-- Two programs ask the same questions, on objects that are known or that they made, as long as they
are answered the same. They end with related values, which may depend on the objects known then. -/
inductive Lockstep (post : α → β → List Object → Prop) :
    List Object → Program α → Program β → Prop where
  | done {known : List Object} {one : α} {two : β} :
      post one two known → Lockstep post known (.done one) (.done two)
  | ask {known : List Object} (q : Question) {one : q.Answer → Program α}
      {two : q.Answer → Program β} : q.IsOwn known →
      (∀ answer, Lockstep post (q.made answer ++ known) (one answer) (two answer)) →
      Lockstep post known (.ask q one) (.ask q two)

namespace Lockstep
variable {γ δ : Type} {post : α → β → List Object → Prop} {further : γ → δ → List Object → Prop}
  {known : List Object} {one : Program α} {two : Program β}

theorem imp {weaker : α → β → List Object → Prop} (h : Lockstep post known one two)
    (g : ∀ value₁ value₂ later, post value₁ value₂ later → weaker value₁ value₂ later) :
    Lockstep weaker known one two := by
  induction h with
  | done ended => exact .done (g _ _ _ ended)
  | ask q own _ ih => exact .ask q own ih

theorem bind {next₁ : α → Program γ} {next₂ : β → Program δ} (h : Lockstep post known one two)
    (g : ∀ value₁ value₂ later, post value₁ value₂ later →
      Lockstep further later (next₁ value₁) (next₂ value₂)) :
    Lockstep further known (one.bind next₁) (two.bind next₂) := by
  induction h with
  | done ended => exact g _ _ _ ended
  | ask q own _ ih => exact .ask q own ih

theorem asks {allowed : Question → Prop} (h : Lockstep post known one two)
    (g : ∀ known q, Question.IsOwn known q → allowed q) : one.Asks allowed := by
  induction h with
  | done _ => exact .done _
  | ask q own _ ih => exact ⟨g _ q own, ih⟩

theorem run {σ : Type} (w : World σ) (state : σ) (files : FileTree)
    (h : Lockstep post known one two) :
    ∃ value₂ later, post (w.run state files one).value value₂ later := by
  induction h generalizing state files with
  | done ended => exact ⟨_, _, ended⟩
  | ask q _ _ ih => exact ih _ _ _

private theorem of_local {program : Program α} (h : program.Asks Question.IsLocal) :
    Lockstep (fun value₁ value₂ later => value₁ = value₂ ∧ later = known) known program program := by
  induction program with
  | done value => exact .done ⟨rfl, rfl⟩
  | ask q next ih =>
    refine .ask q h.1.isOwn fun answer => ?_
    rw [h.1.made, List.nil_append]
    exact ih answer (h.2 answer)

end Lockstep
end Program

namespace Action
variable {α β : Type}

/-- An action ended alike with two hosts, and left both as they were. Known from then on is what was
known before, and what comes with the value. -/
structure SameEnd (made : α → List Object) (one two : Host) (known : List Object)
    (ended₁ ended₂ : Exit α × Host) (later : List Object) : Prop where
  exit : ended₁.1 = ended₂.1
  host₁ : ended₁.2 = one
  host₂ : ended₂.2 = two
  kept : known ⊆ later
  made : ∀ value, ended₁.1 = .value value → made value ⊆ later

/-- The action calls the known objects and those that it makes, whatever else is known. It reads
nothing of its host but the configuration and changes nothing of it. Some objects come with its
value. -/
def Confined (known : List Object) (action : Action α) (made : α → List Object) : Prop :=
  ∀ (one two : Host) (all : List Object), one.config = two.config → known ⊆ all →
    Program.Lockstep (SameEnd made one two all) all (action one) (action two)

/-- The action hands no objects on. -/
abbrev Closed (known : List Object) (action : Action α) : Prop :=
  Confined known action fun _ => []

section Rules
variable {known : List Object} {made : α → List Object} {made' : β → List Object}

theorem Confined.mono {action : Action α} {further : List Object} (h : Confined known action made)
    (more : known ⊆ further) : Confined further action made :=
  fun one two all config there => h one two all config (List.Subset.trans more there)

theorem Confined.asks {action : Action α} {allowed : Question → Prop}
    (h : Confined known action made) (g : ∀ known q, Question.IsOwn known q → allowed q) :
    Asks allowed action :=
  fun host => (h host host known rfl (List.Subset.refl _)).asks g

theorem asks_of_closed {action : Action α} {allowed : Question → Prop} (h : Closed [] action)
    (g : ∀ known q, Question.IsOwn known q → allowed q) : Asks allowed action :=
  h.asks g

theorem Confined.host_run {σ : Type} {action : Action α} (w : World σ) (state : σ)
    (files : FileTree) (host : Host) (h : Confined known action made) :
    (w.run state files (action host)).value.2 = host := by
  obtain ⟨_, _, same⟩ := (h host host known rfl (List.Subset.refl _)).run w state files
  exact same.host₁

private theorem confined_pure {value : α} (h : made value ⊆ known) :
    Confined known (Pure.pure value : Action α) made :=
  fun _ _ _ _ there => .done ⟨rfl, rfl, rfl, List.Subset.refl _, by
    rintro _ ⟨⟩
    exact List.Subset.trans h there⟩

theorem confined_fail {cause : Error} : Confined known (fail cause : Action α) made :=
  fun _ _ _ _ _ => .done ⟨rfl, rfl, rfl, List.Subset.refl _, nofun⟩

private theorem confined_ofExcept {result : Except Error α}
    (h : ∀ value, result = .ok value → made value ⊆ known) :
    Confined known (ofExcept result) made := by
  cases result with
  | ok value => exact confined_pure (h value rfl)
  | error cause => exact confined_fail

theorem closed_pure {value : α} : Closed known (Pure.pure value : Action α) :=
  confined_pure (List.nil_subset _)

theorem closed_ofExcept {result : Except Error α} : Closed known (ofExcept result) :=
  confined_ofExcept fun _ _ => List.nil_subset _

private theorem confined_call {c : Call} (h : Question.IsOwn known (.call c)) :
    Confined known (call c) fun reply => c.made (some reply) := by
  intro one two all _ there
  refine .ask (.call c) (h.mono there) fun answer => ?_
  cases answer with
  | some reply =>
    refine .done ⟨rfl, rfl, rfl, List.subset_append_right .., ?_⟩
    rintro _ ⟨⟩
    exact List.subset_append_left ..
  | none => exact .done ⟨rfl, rfl, rfl, List.subset_append_right .., nofun⟩

theorem confined_ofProgram {program : Program α} (h : program.Asks Question.IsLocal) :
    Closed known (ofProgram program) := by
  intro one two all _ _
  refine (Program.Lockstep.of_local h).bind ?_
  rintro value _ _ ⟨rfl, rfl⟩
  exact .done ⟨rfl, rfl, rfl, List.Subset.refl _, fun _ _ => List.nil_subset _⟩

private theorem confined_bind {first : Action α} {next : α → Action β}
    (h : Confined known first made)
    (g : ∀ value, Confined (made value ++ known) (next value) made') :
    Confined known (first >>= next) made' := by
  intro one two all config there
  refine (h one two all config there).bind ?_
  rintro ⟨exit, _⟩ ⟨_, _⟩ later ⟨rfl, rfl, rfl, kept, brought⟩
  cases exit with
  | value value =>
    have enough : made value ++ known ⊆ later :=
      List.append_subset.2 ⟨brought value rfl, List.Subset.trans there kept⟩
    refine (g value _ _ later config enough).imp ?_
    rintro _ _ _ ⟨exit, host₁, host₂, onward, brought⟩
    exact ⟨exit, host₁, host₂, List.Subset.trans kept onward, brought⟩
  | error cause => exact .done ⟨rfl, rfl, rfl, kept, nofun⟩
  | panic => exact .done ⟨rfl, rfl, rfl, kept, nofun⟩

theorem closed_bind {first : Action α} {next : α → Action β} (h : Closed known first)
    (g : ∀ value, Confined known (next value) made') : Confined known (first >>= next) made' :=
  confined_bind h g

private theorem confined_get_bind {next : Host → Action α}
    (only : ∀ one two : Host, one.config = two.config → next one = next two)
    (h : ∀ host, Confined known (next host) made) : Confined known (get >>= next) made := by
  intro one two all config there
  have same := h one one two all config there
  rw [get_bind, get_bind, ← only one two config]
  exact same

private theorem closed_attempt {action : Action α} (h : Closed known action) :
    Closed known (attempt action) := by
  intro one two all config there
  refine (h one two all config there).bind ?_
  rintro ⟨exit, _⟩ ⟨_, _⟩ later ⟨rfl, rfl, rfl, kept, -⟩
  cases exit <;> exact .done ⟨rfl, rfl, rfl, kept, fun _ _ => List.nil_subset _⟩

private theorem confined_result {c : Call} {result : c.Reply → Except Error α}
    (h : Question.IsOwn known (.call c))
    (g : ∀ reply value, result reply = .ok value → made value ⊆ c.made (some reply)) :
    Confined known (call c >>= fun reply => ofExcept (result reply)) made :=
  confined_bind (confined_call h) fun reply => confined_ofExcept fun value given =>
    List.Subset.trans (g reply value given) (List.subset_append_left ..)

private theorem closed_result {c : Call} {result : c.Reply → Except Error α}
    (h : Question.IsOwn known (.call c)) :
    Closed known (call c >>= fun reply => ofExcept (result reply)) :=
  confined_result h fun _ _ _ => List.nil_subset _

end Rules
end Action

section Reading
variable {known : List Object} {config : EngineConfig} {auth : AuthContext} {o : RunOptions}
  {path : String}

theorem asks_local_readPolicy : config.readPolicy.Asks Question.IsLocal := by
  unfold EngineConfig.readPolicy
  split
  · exact .done _
  · refine (Program.Asks.question True.intro).bind fun answer => ?_
    split
    · exact .done _
    · split <;> exact .done _

theorem asks_local_readSettings : (config.readSettings auth).Asks Question.IsLocal := by
  refine asks_local_readPolicy.bind fun read => ?_
  split <;> exact .done _

theorem closed_prepareSource : Closed known (o.prepareSource path) := by
  have reads : (Buffer.ofFile path).Asks Question.IsLocal := by
    refine (Program.Asks.question True.intro).bind fun answer => ?_
    split <;> exact .done _
  unfold RunOptions.prepareSource
  split
  · refine closed_bind (confined_ofProgram reads) fun read => ?_
    refine closed_bind closed_ofExcept fun content => ?_
    exact closed_pure
  · exact closed_pure

end Reading

section Documents
variable {known : List Object} {o : RunOptions} {source : Source} {engine : EngineHandle}
  {d : DocumentHandle}

private theorem own_of_receiver {c : Call} {object : Object} (mem : object ∈ known)
    (receives : c.receiver? = some object) (other : c.concernsProfiles = false) :
    Question.IsOwn known (.call c) := by
  refine ⟨other, fun object same => ?_⟩
  cases receives.symm.trans same
  exact mem

private theorem closed_queryStatus : Closed known source.queryStatus := by
  refine closed_bind (confined_call ⟨rfl, nofun⟩) fun reply => ?_
  refine closed_bind closed_ofExcept fun status => ?_
  refine closed_bind closed_ofExcept fun start => ?_
  exact closed_pure

private theorem closed_asked {wanted : Bool} : Closed known (source.asked wanted) := by
  unfold Source.asked
  split
  · exact closed_bind closed_queryStatus fun _ => closed_pure
  · exact closed_pure

private theorem confined_openDocument (mem : .engine engine ∈ known) :
    Confined known (o.openDocument engine source) fun d => [.document d] := by
  refine confined_result (own_of_receiver mem rfl rfl) fun reply d opened => ?_
  cases reply with
  | succeeded other =>
    cases opened
    exact List.Subset.refl _
  | failed cause => cases opened
  | dropped => cases opened

variable (mem : .document d ∈ known)
include mem

private theorem closed_protection : Closed known d.protection :=
  closed_result (own_of_receiver mem rfl rfl)

private theorem closed_checkRights : Closed known d.checkRights := by
  refine closed_bind (closed_protection mem) fun protection => ?_
  split
  · exact closed_pure
  · split
    · exact closed_pure
    · exact confined_fail

theorem closed_describe : Closed known d.describe := by
  refine closed_bind (closed_result (own_of_receiver mem rfl rfl)) fun label => ?_
  exact closed_bind (closed_protection mem) fun protection => closed_pure

private theorem closed_commit {output path : String} : Closed known (d.commit output path) := by
  have looks : Closed known (ofProgram (.fileExists output)) :=
    confined_ofProgram (.question True.intro)
  have warns {text : String} : Closed known (log .warn text) :=
    confined_ofProgram (.question True.intro)
  refine closed_bind (confined_call (own_of_receiver mem rfl rfl)) fun modified => ?_
  split
  · exact closed_pure
  · refine closed_bind (confined_call (own_of_receiver mem rfl rfl)) fun written => ?_
    split
    · refine closed_bind (confined_call (own_of_receiver mem rfl rfl)) fun _ => ?_
      exact closed_pure
    · refine closed_bind looks fun found => ?_
      split <;> exact confined_fail
    · refine closed_bind looks fun found => ?_
      split
      · exact closed_bind warns fun _ => confined_fail
      · exact confined_fail

private theorem closed_change {c : Call} {result : c.Reply → Except Error Unit}
    {output path : String}
    (own : Question.IsOwn known (.call c)) :
    Closed known (call c >>= fun reply => ofExcept (result reply) >>= fun _ =>
      d.commit output path) :=
  confined_bind (confined_call own) fun _ =>
    closed_bind closed_ofExcept fun _ =>
      (closed_commit mem).mono (List.subset_append_right ..)

end Documents

namespace Request
variable {r : Request} {o : RunOptions} {known : List Object} {target : Target}

private theorem closed_referencePolicy {engine : EngineHandle} {path : String}
    (mem : .engine engine ∈ known) : Closed known (referencePolicy o engine path) := by
  refine confined_bind (confined_openDocument mem) fun reference => ?_
  refine closed_bind (closed_protection List.mem_cons_self) fun protection => ?_
  split
  · exact closed_pure
  · exact confined_fail

private theorem closed_unprotectOpen (mem : .document target.document ∈ known) :
    Closed known (r.unprotectOpen target) := by
  unfold unprotectOpen
  split
  · exact closed_change mem (own_of_receiver mem rfl rfl)
  · exact closed_pure

private theorem closed_protectOpen {reference : String} (engine : .engine target.engine ∈ known)
    (mem : .document target.document ∈ known) : Closed known (r.protectOpen o reference target) :=
  closed_bind (closed_referencePolicy engine) fun _ =>
    closed_change mem (own_of_receiver mem rfl rfl)

private theorem closed_setLabelOpen {id : String} {options : LabelingOptions}
    (engine : .engine target.engine ∈ known) (mem : .document target.document ∈ known) :
    Closed known (r.setLabelOpen id options target) := by
  refine closed_bind (confined_call (own_of_receiver engine rfl rfl)) fun found => ?_
  refine closed_bind closed_ofExcept fun label => ?_
  exact closed_change mem (own_of_receiver mem rfl rfl)

private theorem closed_deleteLabelOpen {options : LabelingOptions}
    (mem : .document target.document ∈ known) : Closed known (r.deleteLabelOpen options target) :=
  closed_change mem (own_of_receiver mem rfl rfl)

private theorem closed_proceed {finish : Target → Action Outcome} {engine : EngineHandle}
    {status : Option Status} {document : DocumentHandle} (mem : .document document ∈ known)
    (finishes : ∀ output, Closed known (finish ⟨engine, document, output, status⟩)) :
    Closed known (proceed finish engine status document) := by
  refine closed_bind (confined_call (own_of_receiver mem rfl rfl)) fun name => ?_
  refine closed_bind closed_ofExcept fun output => ?_
  exact closed_bind (closed_checkRights mem) fun _ => finishes output

theorem closed_handOver {α : Type} {engine : EngineHandle} {source : Source} {wanted : Bool}
    {next : Option Status → DocumentHandle → Action α} (mem : .engine engine ∈ known)
    (h : ∀ status d, Closed (.document d :: known) (next status d)) :
    Closed known (o.handOver wanted engine next source) := by
  refine closed_bind closed_asked fun asked => ?_
  exact confined_bind (confined_openDocument mem) fun document => h asked.1 document

/-- The request with a token of its own, or without one. -/
def bearing (r : Request) (token : Option Secret) : Request :=
  { r with token }

section Bearing
variable {token : Option Secret}

@[simp] theorem bearing_self : r.bearing r.token = r := rfl

@[simp] theorem validate_bearing : (r.bearing token).validate = r.validate := rfl

@[simp] theorem operation_bearing : (r.bearing token).operation = r.operation := rfl

@[simp] theorem reference_bearing : (r.bearing token).reference = r.reference := rfl

@[simp] theorem source_bearing : (r.bearing token).source = r.source := rfl

@[simp] theorem token_bearing : (r.bearing token).token = token := rfl

end Bearing

/-- What a request does with its engine, up to the end that depends on the operation. -/
def engaged (r : Request) (o : RunOptions) (finish : Target → Action Outcome)
    (engine : EngineHandle) : Action Outcome :=
  o.prepareSource r.source >>= o.handOver r.wantsStatus engine (proceed finish engine)

private theorem closed_engaged {finish : Target → Action Outcome} {engine : EngineHandle}
    (finishes : ∀ status document output, Closed [.document document, .engine engine]
      (finish ⟨engine, document, output, status⟩)) :
    Closed [.engine engine] (r.engaged o finish engine) := by
  refine closed_bind closed_prepareSource fun source => ?_
  refine closed_handOver List.mem_cons_self fun status document => ?_
  exact closed_proceed List.mem_cons_self fun output => finishes status document output

/-- A request that changes its document makes an engine, and works from then on with that engine and
the documents that it opened. Its token is for the making of the engine only. -/
theorem exists_engaged (valid : r.validate = .ok ()) (mutating : r.operation ≠ .inspect) :
    ∃ finish : Target → Action Outcome,
      (∀ engine, Closed [.engine engine] (r.engaged o finish engine)) ∧
      ∀ token, (r.bearing token).run o =
        (r.bearing token).createEngine >>= r.engaged o finish := by
  have opens (token : Option Secret) (finish : Target → Action Outcome) :
      (r.bearing token).createEngine >>= r.engaged o finish =
        (r.bearing token).openTarget o >>= finish :=
    (openTarget_bind finish).symm
  simp only [opens, run, validate_bearing, operation_bearing, reference_bearing, source_bearing,
    valid, ofExcept_ok, Action.pure_bind]
  cases operation : r.operation with
  | inspect => exact absurd operation mutating
  | unprotect =>
    refine ⟨r.unprotectOpen, fun engine => closed_engaged fun status document output => ?_,
      fun token => rfl⟩
    exact closed_unprotectOpen List.mem_cons_self
  | protect =>
    obtain ⟨reference, given⟩ := exists_reference valid operation
    rw [given]
    refine ⟨r.protectOpen o reference, fun engine => closed_engaged fun status document output => ?_,
      fun token => rfl⟩
    exact closed_protectOpen (by simp) List.mem_cons_self
  | setLabel id options =>
    refine ⟨r.setLabelOpen id options, fun engine => closed_engaged fun status document output => ?_,
      fun token => rfl⟩
    exact closed_setLabelOpen (by simp) List.mem_cons_self
  | deleteLabel options =>
    refine ⟨r.deleteLabelOpen options, fun engine => closed_engaged fun status document output => ?_,
      fun token => rfl⟩
    exact closed_deleteLabelOpen List.mem_cons_self

theorem run_of_inspect (valid : r.validate = .ok ()) (inspects : r.operation = .inspect) :
    r.run o = inspectPath o r.source >>= fun status => Pure.pure (.inspected status) := by
  simp only [run, valid, ofExcept_ok, Action.pure_bind, inspects]

theorem run_of_invalid {cause : Error} (invalid : r.validate = .error cause) :
    r.run o = fail cause := by
  simp only [run, invalid, ofExcept_error, fail_bind]

/-- An execution reports on a run. -/
theorem exists_reporting : ∃ reporting : Except Error Outcome → Action Report,
    (∀ result, Closed [] (reporting result)) ∧
      r.execute o = attempt (r.run o) >>= reporting := by
  refine ⟨_, fun result => ?_, rfl⟩
  cases result with
  | ok outcome =>
    exact closed_bind (confined_ofProgram (.question True.intro)) fun _ => closed_pure
  | error cause =>
    dsimp only
    split
    · exact confined_fail
    · exact closed_pure

theorem closed_inspectPath {path : String} : Closed known (inspectPath o path) :=
  closed_bind closed_prepareSource fun _ => closed_bind closed_queryStatus fun _ =>
    closed_pure

theorem closed_authenticate : Closed known r.authenticate := by
  have token : Closed known r.acquireToken := by
    refine confined_get_bind (fun one two same => by simp only [same]) fun host => ?_
    split
    · exact closed_ofExcept
    · exact closed_result ⟨rfl, fun _ none => by cases none⟩
  refine closed_bind (closed_attempt token) fun acquired => ?_
  split
  · exact closed_pure
  · exact confined_fail

def makeEngine (auth : AuthContext) (profile : ProfileHandle) : Action EngineHandle := do
  let settings ← ofExcept (← ofProgram ((← get).config.engine.readSettings auth))
  ofExcept (← call (.addEngine profile settings)).result

theorem createEngine_eq : r.createEngine = r.authenticate >>= fun auth =>
    Host.profile { id := r.applicationId } >>= makeEngine auth :=
  rfl

end Request
end DocGuard
