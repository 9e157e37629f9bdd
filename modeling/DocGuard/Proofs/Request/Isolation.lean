import DocGuard.Proofs.Host.ProfileLife
import DocGuard.Proofs.Request.OwnObjects

/-! Requests do not influence each other. Of all that a request does to its host only the profile of
its application stays, so that a later request finds the host as good as new: it is spared the load
of its profile if that is there, and does and ends otherwise as it would with a host that was just
started. -/
namespace DocGuard
open Program DocGuard.Action

def Exit.ofLoad : Option (Completion ProfileHandle) → Exit ProfileHandle
  | some reply => .ofResult reply.result
  | none => .panic

/-- An attempt to load a profile gets no consent, or is answered behind it. -/
theorem HostConfig.Attempts.cases {config : HostConfig} {application : Application}
    {xs : List Event} {exit : Exit ProfileHandle} (h : config.Attempts application xs exit) :
    (config.consent = .provider ∧ xs = [.unanswered (.consent application.id)] ∧ exit = .panic) ∨
      ∃ answer asked reply, config.Asks application.id answer asked ∧ exit = .ofLoad reply ∧
        xs = asked ++ [⟨.call (.loadProfile (config.profileSettings application answer)), reply⟩] := by
  cases h with
  | unanswered source => exact .inl ⟨source, rfl, rfl⟩
  | panicked answer asked asks => exact .inr ⟨answer, asked, none, asks, rfl, rfl⟩
  | ended answer asked reply asks => exact .inr ⟨answer, asked, some reply, asks, rfl, rfl⟩

namespace World
variable {σ θ : Type}

/-- Collaborators that are led by the arguments of a call only, and on an object also by what there
is to see of it: how it was made, and the calls on it. A handle stands for how its object was made,
and a new object is seen as new. File trees are alike if no reply and no look tells them apart; the
calls for a profile are not led by the files, and change nothing that is seen of them. -/
structure Impartial (w : World σ) (view : σ → Object → θ) (alike : FileTree → FileTree → Prop) :
    Prop where
  equivalence : Equivalence alike
  reads : ∀ {files files'}, alike files files' → ∀ path, files.read path = files'.read path
  looks : ∀ {files files'}, alike files files' →
    ∀ path, files.pathExists path = files'.pathExists path
  replies : ∀ {files files'}, alike files files' → ∀ here there c,
    (∀ object, c.receiver? = some object → view here object = view there object) →
    let one := w.reply here files c
    let two := w.reply there files' c
    one.1 = two.1 ∧ alike one.2.2 two.2.2 ∧ ∀ object,
      object ∈ c.made one.1 ∨ view here object = view there object →
        view one.2.1 object = view two.2.1 object
  profiles : ∀ c, c.asksProfile = true → ∀ here files,
    (∀ there files', (w.reply here files c).1 = (w.reply there files' c).1) ∧
      alike (w.reply here files c).2.2 files

/-- An event that can take place in a world. -/
def Allows (w : World σ) (e : Event) : Prop :=
  ∃ state files, (w.answer state files e.question).1 = e.answer

private theorem allows_of_run {α : Type} (w : World σ) (state : σ) (files : FileTree)
    (program : Program α) :
    ∀ e ∈ (w.run state files program).events, w.Allows e := by
  intro e mem
  obtain ⟨before, rest, whole⟩ := List.append_of_mem mem
  exact ⟨_, _, w.answer_of_run state files program whole⟩

variable {w : World σ} {view : σ → Object → θ} {alike : FileTree → FileTree → Prop}

namespace Impartial
variable (impartial : w.Impartial view alike)
include impartial

private theorem allows_unique {c : Call} {answer answer' : Option c.Reply}
    (asks : c.asksProfile = true)
    (h : w.Allows ⟨.call c, answer⟩) (g : w.Allows ⟨.call c, answer'⟩) : answer = answer' := by
  obtain ⟨here, files, given⟩ := h
  obtain ⟨there, files', given'⟩ := g
  exact given.symm.trans (((impartial.profiles c asks here files).1 there files').trans given')

private theorem asks_unique {config : HostConfig} {id : String} {answer answer' : Consent}
    {asked asked' : List Event} (h : config.Asks id answer asked)
    (g : config.Asks id answer' asked') (allowed : ∀ e ∈ asked, w.Allows e)
    (allowed' : ∀ e ∈ asked', w.Allows e) : answer = answer' ∧ asked = asked' := by
  cases h with
  | fixed source =>
    cases g with
    | fixed source' =>
      cases source.symm.trans source'
      exact ⟨rfl, rfl⟩
    | provider source' => cases source.symm.trans source'
  | provider source =>
    cases g with
    | fixed source' => cases source.symm.trans source'
    | provider source' =>
      have one := allowed _ List.mem_cons_self
      have two := allowed' _ List.mem_cons_self
      cases impartial.allows_unique rfl one two
      exact ⟨rfl, rfl⟩

private theorem not_asks {config : HostConfig} {id : String} {answer : Consent} {asked : List Event}
    (source : config.consent = .provider) (none : w.Allows (.unanswered (.consent id)))
    (asks : config.Asks id answer asked) (allowed : ∀ e ∈ asked, w.Allows e) : False := by
  cases asks with
  | fixed source' => cases source.symm.trans source'
  | provider source' =>
    have some := allowed _ List.mem_cons_self
    cases impartial.allows_unique rfl none some

private theorem attempts_unique {config : HostConfig} {application : Application}
    {xs ys : List Event}
    {exit exit' : Exit ProfileHandle} (h : config.Attempts application xs exit)
    (g : config.Attempts application ys exit') (allowed : ∀ e ∈ xs, w.Allows e)
    (allowed' : ∀ e ∈ ys, w.Allows e) : xs = ys ∧ exit = exit' := by
  rcases h.cases with ⟨source, rfl, rfl⟩ | ⟨answer, asked, reply, asks, rfl, rfl⟩ <;>
    rcases g.cases with ⟨source', rfl, rfl⟩ | ⟨answer', asked', reply', asks', rfl, rfl⟩
  · exact ⟨rfl, rfl⟩
  · exact (impartial.not_asks source (allowed _ List.mem_cons_self) asks' fun e mem =>
      allowed' e (List.mem_append_left _ mem)).elim
  · exact (impartial.not_asks source' (allowed' _ List.mem_cons_self) asks fun e mem =>
      allowed e (List.mem_append_left _ mem)).elim
  · obtain ⟨rfl, rfl⟩ := impartial.asks_unique asks asks'
      (fun e mem => allowed e (List.mem_append_left _ mem))
      fun e mem => allowed' e (List.mem_append_left _ mem)
    have one := allowed _ (List.mem_append_right _ List.mem_cons_self)
    have two := allowed' _ (List.mem_append_right _ List.mem_cons_self)
    cases impartial.allows_unique rfl one two
    exact ⟨rfl, rfl⟩

end Impartial

/-- The profile is what the loading of it brings. -/
def Provided (w : World σ) (config : HostConfig) (id : String) (profile : ProfileHandle) : Prop :=
  ∃ xs, config.Attempts { id } xs (.value profile) ∧ ∀ e ∈ xs, w.Allows e

/-- A host of this configuration that has no profiles but those that the world brings. -/
structure Stocks (w : World σ) (config : HostConfig) (host : Host) : Prop where
  same : host.config = config
  provided : ∀ id profile, (id, profile) ∈ host.profiles → w.Provided config id profile

/-- What holds of the host before a run of the action holds after it. -/
def Keeps {α : Type} (w : World σ) (holds : Host → Prop) (action : Action α) : Prop :=
  ∀ host state files, holds host → holds (w.run state files (action host)).value.2

section Keeping
variable {α β : Type} {holds : Host → Prop} {known : List Object} {made : α → List Object}

private theorem keeps_confined {action : Action α} (h : Confined known action made) :
    w.Keeps holds action := by
  intro host state files before
  rw [h.host_run w state files host]
  exact before

private theorem keeps_closed {action : Action α} (h : Closed [] action) : w.Keeps holds action :=
  keeps_confined h

theorem keeps_bind {first : Action α} {next : α → Action β} (h : w.Keeps holds first)
    (g : ∀ value, w.Keeps holds (next value)) : w.Keeps holds (first >>= next) := by
  intro host state files before
  have bound : w.run state files ((first >>= next) host) =
      w.run state files ((first host).bind _) := rfl
  rw [bound, run_bind]
  have middle := h host state files before
  generalize w.run state files (first host) = ran at middle ⊢
  obtain ⟨⟨value | cause | _, after⟩, state, files, events⟩ := ran
  · exact g value after state files middle
  · exact middle
  · exact middle

private theorem keeps_attempt {action : Action α} (h : w.Keeps holds action) :
    w.Keeps holds (attempt action) := by
  intro host state files before
  rw [run_attempt]
  have after := h host state files before
  generalize w.run state files (action host) = ran at after ⊢
  obtain ⟨⟨value | cause | _, _⟩, _, _, _⟩ := ran <;> exact after

private theorem keeps_get : w.Keeps holds get :=
  fun _ _ _ before => before

theorem keeps_call {c : Call} : w.Keeps holds (call c) := by
  intro host state files before
  have same : (w.run state files (call c host)).value.2 = host := by
    have path := w.path_run state files (call c host)
    exact (path_call_iff.1 path).1
  rwa [same]

end Keeping

section Stocking
variable {config : HostConfig} {host : Host} {application : Application} {r : Request}
  {o : RunOptions}

private theorem loads_attempts {xs : List Event} {exit : Exit ProfileHandle} {id : String}
    {profile : ProfileHandle} (h : config.Attempts application xs exit)
    (loaded : (id, profile) ∈ loads xs) : id = application.id ∧ exit = .value profile := by
  rcases h.cases with ⟨-, rfl, rfl⟩ | ⟨answer, asked, reply, asks, rfl, rfl⟩
  · cases loaded
  · rw [loads_append, Host.loads_asks asks, List.nil_append] at loaded
    obtain ⟨e, mem, found⟩ := List.mem_filterMap.1 loaded
    cases List.mem_singleton.1 mem
    obtain _ | (_ | _ | _) := reply <;> cases found
    exact ⟨rfl, rfl⟩

private theorem keeps_profile {id : String} : w.Keeps (w.Stocks config) (Host.profile { id }) := by
  intro host state files stocks
  have path := w.path_run state files (Host.profile { id } host)
  have allowed := w.allows_of_run state files (Host.profile { id } host)
  generalize w.run state files (Host.profile { id } host) = ran at path allowed ⊢
  obtain ⟨provides, gains⟩ := Host.path_profile path
  have allowed' : ∀ e ∈ exchanges ran.events, w.Allows e :=
    fun e mem => allowed e (mem_of_mem_exchanges mem)
  refine ⟨gains.config.trans stocks.same, fun key profile mem => ?_⟩
  rw [gains.profiles] at mem
  rcases List.mem_append.1 mem with mem | mem
  · exact stocks.provided key profile mem
  · generalize exchanges ran.events = xs at provides mem allowed'
    generalize ran.value.1 = exit at provides
    cases provides with
    | stopped _ | refused _ _ _ | cached _ _ _ _ => cases mem
    | attempted _ _ _ _ _ attempts =>
      rw [stocks.same] at attempts
      obtain ⟨rfl, ended⟩ := loads_attempts attempts mem
      rw [ended] at attempts
      exact ⟨xs, attempts, allowed'⟩

private theorem config_of_keeps {α : Type} {action : Action α} {state : σ} {files : FileTree}
    {after : Host}
    {value : α} (h : w.Keeps (w.Stocks config) action) (stocks : w.Stocks config host)
    (ended : (w.run state files (action host)).value = (.value value, after)) :
    after.config = config := by
  have kept := h host state files stocks
  rw [ended] at kept
  exact kept.same

private theorem keeps_shutdown : w.Keeps (w.Stocks config) Host.shutdown := by
  intro host state files stocks
  rcases Host.path_shutdown (w.path_run state files (Host.shutdown host)) with
    ⟨-, -, same⟩ | ⟨-, -, same⟩
  · rwa [same]
  · rw [same]
    exact ⟨stocks.same, nofun⟩

private theorem keeps_createEngine : w.Keeps (w.Stocks config) r.createEngine := by
  refine keeps_bind (keeps_closed Request.closed_authenticate) fun auth => ?_
  refine keeps_bind keeps_profile fun profile => keeps_bind keeps_get fun host => ?_
  refine keeps_bind (keeps_closed (confined_ofProgram asks_local_readSettings)) fun read => ?_
  refine keeps_bind (keeps_closed closed_ofExcept) fun settings => ?_
  exact keeps_bind keeps_call fun _ => keeps_closed closed_ofExcept

theorem keeps_run : w.Keeps (w.Stocks config) (r.run o) := by
  cases valid : r.validate with
  | error cause =>
    rw [Request.run_of_invalid valid]
    exact keeps_closed confined_fail
  | ok _ =>
    by_cases inspects : r.operation = .inspect
    · rw [Request.run_of_inspect valid inspects]
      exact keeps_closed (closed_bind Request.closed_inspectPath fun _ => closed_pure)
    · obtain ⟨finish, closed, same⟩ := Request.exists_engaged valid inspects (o := o)
      rw [← Request.bearing_self (r := r), same]
      exact keeps_bind keeps_createEngine fun engine => keeps_confined (closed engine)

private theorem keeps_execute : w.Keeps (w.Stocks config) (r.execute o) := by
  obtain ⟨reporting, closed, same⟩ := Request.exists_reporting (r := r) (o := o)
  rw [same]
  exact keeps_bind (keeps_attempt keeps_run) fun result => keeps_closed (closed result)

private theorem keeps_describe : w.Keeps (w.Stocks config) (r.describe o) := by
  cases valid : r.validate with
  | error cause =>
    rw [Request.describe, valid]
    exact keeps_closed confined_fail
  | ok _ =>
    rw [Request.describe_eq valid]
    refine keeps_bind keeps_createEngine fun engine => ?_
    have onward : Closed [.engine engine] (o.prepareSource r.source >>=
        o.handOver false engine fun _ document => document.describe) :=
      closed_bind closed_prepareSource fun source => Request.closed_handOver List.mem_cons_self
        fun _ document => closed_describe List.mem_cons_self
    exact keeps_confined onward

private theorem keeps_task {task : Task} : w.Keeps (w.Stocks config) task.action := by
  have mapped {α : Type} {action : Action α} {f : α → Answer}
      (h : w.Keeps (w.Stocks config) action) :
      w.Keeps (w.Stocks config) (action >>= fun value => Pure.pure (f value)) :=
    keeps_bind h fun _ => keeps_closed closed_pure
  cases task with
  | run r o => exact mapped keeps_run
  | execute r o => exact mapped keeps_execute
  | executeToJson r o => exact mapped (keeps_bind keeps_execute fun _ => keeps_closed closed_pure)
  | describe r o => exact mapped keeps_describe
  | inspect path o => exact mapped (keeps_closed Request.closed_inspectPath)
  | shutdown => exact mapped (f := fun _ => .nothing) keeps_shutdown

end Stocking

/-- Requests that a host was used for in a world, each at a time of its own, with their exchanges.
They may have ended in any way. -/
inductive Past (w : World σ) : Host → List Event → Host → Prop where
  | start (host : Host) : Past w host [] host
  | next {host last : Host} {journal : List Event} (task : Task) (state : σ) (files : FileTree) :
      Past w (w.run state files (task.action host)).value.2 journal last →
      Past w host (exchanges (w.run state files (task.action host)).events ++ journal) last

namespace Past
variable {config : HostConfig} {host last : Host} {before journal : List Event}

theorem sound (past : w.Past host journal last) (h : Sound config before host) :
    Sound config (before ++ journal) last := by
  induction past generalizing before with
  | start host => simpa using h
  | @next host last journal task state files _ ih =>
    rw [← List.append_assoc]
    apply ih
    have path := w.path_run state files (task.action host)
    by_cases closes : task = .shutdown
    · subst closes
      obtain ⟨exit, released, -⟩ := path_bind_return (f := fun _ => Answer.nothing) path
      exact (h.shutdown released).2
    · exact h.custody (tends_task closes _ _ _ path)

private theorem stocks (past : w.Past host journal last) (h : w.Stocks config host) :
    w.Stocks config last := by
  induction past with
  | start host => exact h
  | next task state files _ ih => exact ih (keeps_task _ state files h)

theorem profiles (past : w.Past { config } journal last) (running : last.isShutDown = false) :
    last.profiles = loads journal := by
  have cached := (past.sound Sound.initial).cached
  simpa [running] using cached

end Past

private theorem past_live (w : World σ) (host : Host) (state : σ) (files : FileTree)
    (tasks : List Task) :
    let life := w.live host state files (tasks.map .task)
    w.Past host (journal life.visits) life.host := by
  induction tasks generalizing host state files with
  | nil => exact .start host
  | cons task tasks ih =>
    have same : w.run state files ((Use.task task).action host) = _ :=
      w.run_bind_pure state files task.action Yield.answer host
    simp only [List.map_cons, live, journal_cons, same]
    exact .next task state files (ih _ _ _)

end World

/-- Calls that a request makes whose profile is loaded already, or is not. -/
def Call.remains (loaded : Bool) (c : Call) : Bool :=
  !(loaded && c.asksProfile)

/-- One run goes as the other, and is spared some calls. The objects that come with its value are
seen as the same. -/
structure Run.Abreast {σ θ α : Type} (view : σ → Object → θ) (alike : FileTree → FileTree → Prop)
    (loaded : Bool) (made : α → List Object) (here there : Run σ (Exit α × Host)) : Prop where
  exit : here.value.1 = there.value.1
  files : alike here.files there.files
  calls : here.calls = there.calls.filter (Call.remains loaded)
  made : ∀ value, here.value.1 = .value value →
    ∀ object ∈ made value, view here.state object = view there.state object

section Abreast
variable {σ θ α β : Type} {w : World σ} {view : σ → Object → θ}
  {alike : FileTree → FileTree → Prop} {loaded : Bool} {here there : σ} {files files' : FileTree}
  {made : α → List Object} {made' : β → List Object} {one two : Host}

/-- Two actions that start abreast, and go on from a value abreast. -/
theorem Run.Abreast.bind {first second : Action α} {next next' : α → Action β}
    (h : (w.run here files (first one)).Abreast view alike loaded made
      (w.run there files' (second two)))
    (g : ∀ value host host',
      (w.run here files (first one)).value = (.value value, host) →
      (w.run there files' (second two)).value = (.value value, host') →
      let ran := w.run here files (first one)
      let ran' := w.run there files' (second two)
      (w.run ran.state ran.files (next value host)).Abreast view alike loaded made'
        (w.run ran'.state ran'.files (next' value host'))) :
    (w.run here files ((first >>= next) one)).Abreast view alike loaded made'
      (w.run there files' ((second >>= next') two)) := by
  have bound : w.run here files ((first >>= next) one) =
      w.run here files ((first one).bind _) := rfl
  have bound' : w.run there files' ((second >>= next') two) =
      w.run there files' ((second two).bind _) := rfl
  rw [bound, bound', World.run_bind, World.run_bind]
  generalize w.run here files (first one) = ran at h g ⊢
  generalize w.run there files' (second two) = ran' at h g ⊢
  obtain ⟨⟨exit, host⟩, state, files, events⟩ := ran
  obtain ⟨⟨exit', host'⟩, state', files', events'⟩ := ran'
  obtain ⟨rfl, trees, calls, -⟩ := h
  cases exit with
  | value value =>
    obtain ⟨exit, trees, later, made⟩ := g value host host' rfl rfl
    refine ⟨exit, trees, ?_, made⟩
    simp only [Run.calls_eq_call?, List.filterMap_append, List.filter_append] at calls later ⊢
    rw [calls, later]
  | error cause =>
    refine ⟨rfl, trees, ?_, by rintro _ ⟨⟩⟩
    simpa [Run.calls_eq_call?, World.run, Pure.pure] using calls
  | panic =>
    refine ⟨rfl, trees, ?_, by rintro _ ⟨⟩⟩
    simpa [Run.calls_eq_call?, World.run, Pure.pure] using calls

theorem Run.Abreast.attempted {ran ran' : Run σ (Exit α × Host)}
    (h : ran.Abreast view alike loaded made ran') :
    ran.attempted.Abreast view alike loaded (fun _ => []) ran'.attempted := by
  obtain ⟨⟨exit, host⟩, state, files, events⟩ := ran
  obtain ⟨⟨exit', host'⟩, state', files', events'⟩ := ran'
  obtain ⟨rfl, trees, calls, -⟩ := h
  cases exit <;> exact ⟨rfl, trees, calls, nofun⟩

private theorem World.abreast_ofExcept {result : Except Error α} (start : alike files files')
    (seen : ∀ value, result = .ok value →
      ∀ object ∈ made value, view here object = view there object) :
    (w.run here files (ofExcept result one)).Abreast view alike loaded made
      (w.run there files' (ofExcept result two)) := by
  cases result with
  | ok value =>
    refine ⟨rfl, start, rfl, ?_⟩
    rintro _ ⟨⟩
    exact seen value rfl
  | error cause => exact ⟨rfl, start, rfl, nofun⟩

private theorem Call.remains_of_unasked {c : Call} (h : c.asksProfile = false) :
    c.remains loaded = true := by
  simp [Call.remains, h]

private theorem Call.asksProfile_of_unconcerned {c : Call} (h : c.concernsProfiles = false) :
    c.asksProfile = false := by
  cases c <;> first | rfl | cases h

namespace World.Impartial
variable (impartial : w.Impartial view alike)
include impartial

/-- Two programs in lockstep are answered the same, and what they know is seen as the same. By
induction on the programs: a call on an object that is known meets it in the same condition. -/
theorem run_lockstep {post : α → β → List Object → Prop} {known : List Object} {first : Program α}
    {second : Program β} (h : Program.Lockstep post known first second)
    (start : alike files files') (seen : ∀ object ∈ known, view here object = view there object) :
    let ran := w.run here files first
    let ran' := w.run there files' second
    alike ran.files ran'.files ∧ ran.calls = ran'.calls.filter (Call.remains loaded) ∧
      ∃ later, post ran.value ran'.value later ∧
        ∀ object ∈ later, view ran.state object = view ran'.state object := by
  induction h generalizing here there files files' with
  | done ended => exact ⟨start, rfl, _, ended, seen⟩
  | @ask known q _ _ own _ ih =>
    cases q with
    | call c =>
      obtain ⟨same, trees, after⟩ := impartial.replies start here there c fun object receives =>
        seen object (own.2 object receives)
      have remains : c.remains loaded = true :=
        Call.remains_of_unasked (Call.asksProfile_of_unconcerned own.1)
      have known' : ∀ object ∈ c.made (w.reply here files c).1 ++ known,
          view (w.reply here files c).2.1 object = view (w.reply there files' c).2.1 object := by
        intro object mem
        exact after object ((List.mem_append.1 mem).imp_right (seen object))
      obtain ⟨trees, calls, later⟩ := ih (w.reply here files c).1 trees known'
      simp only [World.run, World.answer, ← same]
      refine ⟨trees, ?_, later⟩
      exact (congrArg (c :: ·) calls).trans (List.filter_cons_of_pos remains).symm
    | readFile path =>
      simp only [World.run, World.answer, impartial.reads start path]
      exact ih (files'.read path) start seen
    | fileExists path =>
      simp only [World.run, World.answer, impartial.looks start path]
      exact ih (files'.pathExists path) start seen
    | clock => exact own.elim
    | log record => exact ih () start seen

private theorem abreast_confined {known : List Object} {action : Action α}
    (h : Confined known action made) (config : one.config = two.config)
    (start : alike files files') (seen : ∀ object ∈ known, view here object = view there object) :
    (w.run here files (action one)).Abreast view alike loaded made
      (w.run there files' (action two)) := by
  obtain ⟨trees, calls, later, ended, seen⟩ :=
    impartial.run_lockstep (h one two known config (List.Subset.refl _)) start seen
  exact ⟨ended.exit, trees, calls, fun value is object mem =>
    seen object (ended.made value is mem)⟩

private theorem files_of_asks {program : Program α}
    (h : program.Asks fun q => ∀ c, q = .call c → c.asksProfile = true) :
    alike (w.run here files program).files files := by
  induction program generalizing here files with
  | done value => exact impartial.equivalence.refl files
  | ask q next ih =>
    cases q with
    | call c =>
      have kept := (impartial.profiles c (h.1 c rfl) here files).2
      exact impartial.equivalence.trans (ih _ (h.2 _)) kept
    | readFile path | fileExists path | clock | log record => exact ih _ (h.2 _)

private theorem files_of_profile {application : Application} {host : Host} :
    alike (w.run here files (Host.profile application host)).files files := by
  refine impartial.files_of_asks (asks_profile ?_ ?_ ?_ host)
  · rintro id _ ⟨⟩
    rfl
  · rintro settings _ ⟨⟩
    rfl
  · rintro record _ ⟨⟩

private theorem provides_abreast {config : HostConfig} {host : Host} {id : String}
    {xs ys : List Event}
    {exit exit' : Exit ProfileHandle} (stocks : w.Stocks config host)
    (running : host.isShutDown = false) (h : host.Provides { id } xs exit)
    (g : ({ config } : Host).Provides { id } ys exit') (allowed : ∀ e ∈ xs, w.Allows e)
    (allowed' : ∀ e ∈ ys, w.Allows e) :
    exit = exit' ∧ xs.filterMap Event.call? = (ys.filterMap Event.call?).filter
      (Call.remains (host.profiles.lookup id).isSome) := by
  cases valid : Application.validate { id } with
  | error cause =>
    obtain ⟨rfl, rfl⟩ := h.of_invalid running valid
    obtain ⟨rfl, rfl⟩ := g.of_invalid rfl valid
    exact ⟨rfl, rfl⟩
  | ok _ =>
    have attempts := g.of_fresh rfl valid rfl
    cases found : host.profiles.lookup id with
    | some profile =>
      -- the profile was loaded as it is loaded now
      obtain ⟨rfl, rfl⟩ := h.of_cached running valid found
      obtain ⟨zs, loaded, allowed''⟩ := stocks.provided id profile (mem_of_lookup found)
      obtain ⟨-, rfl⟩ := impartial.attempts_unique loaded attempts allowed'' allowed'
      refine ⟨rfl, (List.filter_eq_nil_iff.2 fun c mem => ?_).symm⟩
      obtain ⟨e, mem, called⟩ := List.mem_filterMap.1 mem
      simp [Call.remains, asksProfile_of_attempts attempts e mem c called]
    | none =>
      have same := h.of_fresh running valid found
      rw [stocks.same] at same
      obtain ⟨rfl, rfl⟩ := impartial.attempts_unique same attempts allowed allowed'
      refine ⟨rfl, (List.filter_eq_self.2 fun c _ => ?_).symm⟩
      simp [Call.remains]

private theorem abreast_profile {config : HostConfig} {host : Host} {id : String}
    (stocks : w.Stocks config host) (running : host.isShutDown = false)
    (start : alike files files') :
    (w.run here files (Host.profile { id } host)).Abreast view alike
      (host.profiles.lookup id).isSome (fun _ => [])
      (w.run there files' (Host.profile { id } { config })) := by
  have trees : alike (w.run here files (Host.profile { id } host)).files
      (w.run there files' (Host.profile { id } { config })).files :=
    impartial.equivalence.trans impartial.files_of_profile
      (impartial.equivalence.trans start (impartial.equivalence.symm impartial.files_of_profile))
  obtain ⟨provides, -⟩ := Host.path_profile (w.path_run here files (Host.profile { id } host))
  obtain ⟨provides', -⟩ :=
    Host.path_profile (w.path_run there files' (Host.profile { id } { config }))
  obtain ⟨exit, calls⟩ := impartial.provides_abreast stocks running provides provides'
    (fun e mem => w.allows_of_run _ _ _ e (mem_of_mem_exchanges mem))
    fun e mem => w.allows_of_run _ _ _ e (mem_of_mem_exchanges mem)
  exact ⟨exit, trees, by rw [Run.calls_eq, Run.calls_eq, calls], nofun⟩

private theorem abreast_call {c : Call} (free : c.receiver? = none) (other : c.asksProfile = false)
    (start : alike files files') :
    (w.run here files (call c one)).Abreast view alike loaded (fun reply => c.made (some reply))
      (w.run there files' (call c two)) := by
  obtain ⟨same, trees, after⟩ := impartial.replies start here there c (by simp [free])
  have remains : [c] = [c].filter (Call.remains loaded) := by
    simp [Call.remains_of_unasked other]
  simp only [call, Bind.bind, Program.question, Program.bind, World.run, World.answer]
  generalize w.reply here files c = reply at same trees after ⊢
  generalize w.reply there files' c = reply' at same trees after ⊢
  obtain ⟨answer, state, tree⟩ := reply
  obtain ⟨_, state', tree'⟩ := reply'
  obtain rfl : answer = _ := same
  cases answer with
  | none => exact ⟨rfl, trees, remains, by rintro _ ⟨⟩⟩
  | some reply =>
    refine ⟨rfl, trees, remains, ?_⟩
    rintro _ ⟨⟩ object mem
    exact after object (.inl mem)

private theorem abreast_closed_bind {action : Action α} {next next' : α → Action β}
    (h : Closed [] action) (config : one.config = two.config) (start : alike files files')
    (g : ∀ value (here there : σ) (files files' : FileTree), alike files files' →
      (w.run here files (next value one)).Abreast view alike loaded made'
        (w.run there files' (next' value two))) :
    (w.run here files ((action >>= next) one)).Abreast view alike loaded made'
      (w.run there files' ((action >>= next') two)) := by
  have begins : (w.run here files (action one)).Abreast view alike loaded (fun _ => [])
      (w.run there files' (action two)) := impartial.abreast_confined h config start nofun
  refine begins.bind fun value host host' is is' => ?_
  have kept := h.host_run w here files one
  have kept' := h.host_run w there files' two
  rw [is] at kept
  rw [is'] at kept'
  obtain rfl : host = one := kept
  obtain rfl : host' = two := kept'
  exact g value _ _ _ _ begins.files

private theorem abreast_makeEngine {auth : AuthContext} {profile : ProfileHandle}
    (config : one.config = two.config) (start : alike files files') :
    (w.run here files (Request.makeEngine auth profile one)).Abreast view alike loaded
      (fun engine => [.engine engine])
      (w.run there files' (Request.makeEngine auth profile two)) := by
  let making (config : HostConfig) : Action EngineHandle :=
    ofProgram (config.engine.readSettings auth) >>= fun read => ofExcept read >>= fun settings =>
      call (.addEngine profile settings) >>= fun reply => ofExcept reply.result
  have first : Request.makeEngine auth profile one = making two.config one := by
    rw [← config]
    rfl
  have second : Request.makeEngine auth profile two = making two.config two := rfl
  rw [first, second]
  refine impartial.abreast_closed_bind (confined_ofProgram asks_local_readSettings) config start ?_
  intro read here there files files' start
  refine impartial.abreast_closed_bind closed_ofExcept config start ?_
  intro settings here there files files' start
  let engaging : Call := .addEngine profile settings
  have made : (w.run here files (call engaging one)).Abreast view alike loaded
      (fun reply => engaging.made (some reply)) (w.run there files' (call engaging two)) :=
    impartial.abreast_call rfl rfl start
  refine made.bind fun reply host host' is is' => ?_
  refine World.abreast_ofExcept made.files fun engine ready => ?_
  cases reply with
  | succeeded other =>
    cases ready
    exact made.made (.succeeded engine) (by rw [is])
  | failed cause => cases ready
  | dropped => cases ready

section Making
variable {config : HostConfig} {host : Host} {r : Request} {o : RunOptions}
  (stocks : w.Stocks config host) (running : host.isShutDown = false) (start : alike files files')
include stocks running start

private theorem abreast_createEngine :
    (w.run here files (r.createEngine host)).Abreast view alike
      (host.profiles.lookup r.applicationId).isSome (fun engine => [.engine engine])
      (w.run there files' (r.createEngine { config })) := by
  have fresh : w.Stocks config { config } := ⟨rfl, nofun⟩
  rw [Request.createEngine_eq]
  refine impartial.abreast_closed_bind Request.closed_authenticate stocks.same start ?_
  intro auth here there files files' start
  have provides : (w.run here files (Host.profile { id := r.applicationId } host)).Abreast view
      alike (host.profiles.lookup r.applicationId).isSome (fun _ => [])
      (w.run there files' (Host.profile { id := r.applicationId } { config })) :=
    impartial.abreast_profile stocks running start
  refine provides.bind fun profile one two is is' => ?_
  have config := (World.config_of_keeps World.keeps_profile stocks is).trans
    (World.config_of_keeps World.keeps_profile fresh is').symm
  exact impartial.abreast_makeEngine config provides.files

private theorem abreast_run :
    (w.run here files (r.run o host)).Abreast view alike
      (host.profiles.lookup r.applicationId).isSome (fun _ => [])
      (w.run there files' (r.run o { config })) := by
  have fresh : w.Stocks config { config } := ⟨rfl, nofun⟩
  have closed (action : Action Outcome) (h : Closed [] action) :
      (w.run here files (action host)).Abreast view alike
        (host.profiles.lookup r.applicationId).isSome (fun _ => [])
        (w.run there files' (action { config })) :=
    impartial.abreast_confined h stocks.same start nofun
  cases valid : r.validate with
  | error cause =>
    rw [Request.run_of_invalid valid]
    exact closed _ confined_fail
  | ok _ =>
    by_cases inspects : r.operation = .inspect
    · rw [Request.run_of_inspect valid inspects]
      exact closed _ (closed_bind Request.closed_inspectPath fun _ => closed_pure)
    · obtain ⟨finish, confined, same⟩ := Request.exists_engaged valid inspects (o := o)
      have whole : r.run o = r.createEngine >>= r.engaged o finish := same r.token
      rw [whole]
      have engages : (w.run here files (r.createEngine host)).Abreast view alike
          (host.profiles.lookup r.applicationId).isSome (fun engine => [.engine engine])
          (w.run there files' (r.createEngine { config })) :=
        impartial.abreast_createEngine stocks running start
      refine engages.bind fun engine one two is is' => ?_
      have config := (World.config_of_keeps World.keeps_createEngine stocks is).trans
        (World.config_of_keeps World.keeps_createEngine fresh is').symm
      exact impartial.abreast_confined (confined engine) config engages.files
        (engages.made engine (by rw [is]))

private theorem abreast_execute :
    (w.run here files (r.execute o host)).Abreast view alike
      (host.profiles.lookup r.applicationId).isSome (fun _ => [])
      (w.run there files' (r.execute o { config })) := by
  have fresh : w.Stocks config { config } := ⟨rfl, nofun⟩
  obtain ⟨reporting, closed, same⟩ := Request.exists_reporting (r := r) (o := o)
  rw [same]
  have attempts : (w.run here files (attempt (r.run o) host)).Abreast view alike
      (host.profiles.lookup r.applicationId).isSome (fun _ => [])
      (w.run there files' (attempt (r.run o) { config })) := by
    rw [World.run_attempt, World.run_attempt]
    exact (impartial.abreast_run stocks running start).attempted
  refine attempts.bind fun result one two is is' => ?_
  have keeps : w.Keeps (w.Stocks config) (attempt (r.run o)) := keeps_attempt keeps_run
  have config := (World.config_of_keeps keeps stocks is).trans
    (World.config_of_keeps keeps fresh is').symm
  exact impartial.abreast_confined (closed result) config attempts.files nofun

end Making

end World.Impartial
end Abreast

namespace World

/-- Collaborators that reply by the arguments of a call and, on an object, by its past: the calls that
led to it and those on it. They change the files in the same way. -/
def ofPast (answer : List Call → (c : Call) → Option c.Reply)
    (effect : List Call → Call → FileTree → FileTree) : World (Object → List Call) where
  reply := fun pasts files c =>
    let past := (c.receiver?.map pasts).getD []
    let reply := answer past c
    (reply, fun object =>
      if object ∈ c.made reply ∨ c.receiver? = some object then past ++ [c] else pasts object,
      effect past c files)
  time := fun _ => ⟨0⟩

/-- Collaborators that are led by the past of their objects are impartial, if no load of a profile
changes a file. -/
theorem impartial_ofPast {answer : List Call → (c : Call) → Option c.Reply}
    {effect : List Call → Call → FileTree → FileTree}
    (kept : ∀ past c files, c.asksProfile = true → effect past c files = files) :
    (ofPast answer effect).Impartial id Eq where
  equivalence := eq_equivalence
  reads := by
    rintro files _ rfl path
    rfl
  looks := by
    rintro files _ rfl path
    rfl
  replies := by
    rintro files _ rfl here there c seen
    have past : (c.receiver?.map here).getD [] = (c.receiver?.map there).getD [] := by
      cases receives : c.receiver? with
      | none => rfl
      | some object => exact seen object receives
    simp only [ofPast, past, true_and, id]
    intro object known
    by_cases concerned : object ∈ c.made (answer ((c.receiver?.map there).getD []) c) ∨
        c.receiver? = some object
    · rw [if_pos concerned, if_pos concerned]
    · rw [if_neg concerned, if_neg concerned]
      exact known.resolve_left fun made => concerned (.inl made)
  profiles := by
    intro c asks here files
    have free : c.receiver? = none := by
      cases c <;> first | rfl | cases asks
    refine ⟨fun there files' => ?_, ?_⟩
    · simp only [ofPast, free]
      rfl
    · exact kept _ c files asks

/-- Collaborators with a memory for each object. A document is known by the number of calls on its
engine, is modified once it was changed, and cannot be written once it has a label. The profile of one
application is never ready. -/
def mindful : World (Object → List Call) :=
  ofPast (fun past c =>
    match c with
    | .loadProfile settings =>
      some (if settings.application.id = "stalled" then .dropped else .succeeded ⟨0⟩)
    | .openDocument .. => some (.succeeded ⟨past.length⟩)
    | .isModified _ => some (past.any Call.isMutating)
    | .commit .. => some (.succeeded !past.any fun c =>
        match c with
        | .setLabel .. => true
        | _ => false)
    | c => ((obliging (some { granted := ["EXPORT"] }) true).reply () {} c).1)
    fun _ _ files => files

end World

end DocGuard
