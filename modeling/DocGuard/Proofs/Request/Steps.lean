import DocGuard.Proofs.Request.Performance

/-! The steps of requests, each with the stages that it performs and what the run knows after it. -/
namespace DocGuard.Schedule
open Program DocGuard.Action

section Local

private theorem path_readPolicy {c : EngineConfig} {events : List Event}
    {value : Except Error (Option String)} (h : Path c.readPolicy events value) :
    exchanges events = [] ∧ ∀ cause, value = .error cause → cause.isFatal = false := by
  unfold EngineConfig.readPolicy at h
  split at h
  · obtain ⟨rfl, rfl⟩ := Path.done_iff.1 h
    exact ⟨rfl, nofun⟩
  · obtain ⟨before, rest, answer, rfl, read, last⟩ := Path.bind_iff.1 h
    obtain rfl := Path.question_iff.1 read
    have ends : rest = [] ∧ ∀ cause, value = .error cause → cause.isFatal = false := by
      split at last
      · obtain ⟨rfl, rfl⟩ := Path.done_iff.1 last
        exact ⟨rfl, by rintro _ ⟨⟩; rfl⟩
      · split at last
        · obtain ⟨rfl, rfl⟩ := Path.done_iff.1 last
          exact ⟨rfl, by rintro _ ⟨⟩; rfl⟩
        · obtain ⟨rfl, rfl⟩ := Path.done_iff.1 last
          exact ⟨rfl, nofun⟩
    obtain ⟨rfl, ordinary⟩ := ends
    exact ⟨rfl, ordinary⟩

private theorem settings_auth {c : EngineConfig} {policy : Option String} {auth : AuthContext}
    {settings : EngineSettings} (h : c.settings policy auth = .ok settings) :
    settings.auth = auth := by
  simp only [EngineConfig.settings, Bind.bind, Except.bind] at h
  split at h
  · cases h
  · cases h
    rfl

private theorem settings_error {c : EngineConfig} {policy : Option String} {auth : AuthContext}
    {cause : Error} (h : c.settings policy auth = .error cause) : cause.isFatal = false := by
  simp only [EngineConfig.settings, Bind.bind, Except.bind] at h
  split at h
  case h_1 failed =>
    cases h
    unfold EngineConfig.containerDecryption at failed
    split at failed <;> cases failed
    rfl
  case h_2 => cases h

theorem path_readSettings {c : EngineConfig} {auth : AuthContext} {events : List Event}
    {value : Except Error EngineSettings} (h : Path (c.readSettings auth) events value) :
    exchanges events = [] ∧ (∀ cause, value = .error cause → cause.isFatal = false) ∧
      ∀ settings, value = .ok settings → settings.auth = auth := by
  obtain ⟨before, rest, policy, rfl, read, last⟩ := Path.bind_iff.1 h
  obtain ⟨quiet, ordinary⟩ := path_readPolicy read
  cases policy with
  | error cause =>
    obtain ⟨rfl, rfl⟩ := Path.done_iff.1 last
    refine ⟨by simp [quiet], ?_, nofun⟩
    rintro _ ⟨⟩
    exact ordinary cause rfl
  | ok policy =>
    obtain ⟨rfl, rfl⟩ := Path.done_iff.1 last
    exact ⟨by simp [quiet], fun _ => settings_error, fun _ => settings_auth⟩

theorem path_ofFile {path : String} {events : List Event} {value : Except Error Buffer}
    (h : Path (Buffer.ofFile path) events value) :
    exchanges events = [] ∧ ∀ cause, value = .error cause → cause.isFatal = false := by
  obtain ⟨before, rest, answer, rfl, read, last⟩ := Path.bind_iff.1 h
  obtain rfl := Path.question_iff.1 read
  split at last
  · obtain ⟨rfl, rfl⟩ := Path.done_iff.1 last
    exact ⟨rfl, nofun⟩
  · obtain ⟨rfl, rfl⟩ := Path.done_iff.1 last
    exact ⟨rfl, by rintro _ ⟨⟩; rfl⟩

theorem validate_error {r : Request} {cause : Error} (h : r.validate = .error cause) :
    cause.isFatal = false := by
  unfold Request.validate at h
  repeat' split at h
  all_goals cases h
  all_goals rfl

private theorem application_error {a : Application} {cause : Error}
    (h : a.validate = .error cause) :
    cause.isFatal = false := by
  unfold Application.validate at h
  repeat' split at h
  all_goals cases h
  all_goals rfl

theorem derive_error {name : String} {cause : Error} (h : OutputPath.derive name = .error cause) :
    cause.isFatal = false := by
  unfold OutputPath.derive at h
  dsimp only at h
  split at h
  · cases h
    rfl
  · split at h <;> cases h
    rfl

theorem isLocal_prepareSource {o : RunOptions} {path : String} {host : Host} :
    IsLocal (o.prepareSource path) host fun source _ => source.identifier = path := by
  unfold RunOptions.prepareSource
  split
  · have read : IsLocal (ofProgram (Buffer.ofFile path)) host fun content _ =>
        ∀ cause, content = .error cause → cause.isFatal = false :=
      isLocal_ofProgram fun _ _ => path_ofFile
    refine isLocal_bind read fun content middle ordinary => ?_
    cases content with
    | ok buffer => exact isLocal_pure rfl
    | error cause => exact isLocal_fail (ordinary cause rfl)
  · exact isLocal_pure rfl

private theorem rewound_eq_ok (s : Source) (edits : List Buffer.Op) :
    ∃ start, s.rewound edits = .ok start ∧ start.identifier = s.identifier := by
  cases s with
  | path p => exact ⟨.path p, rfl, rfl⟩
  | buffer content identifier => exact ⟨.buffer _ identifier, rfl, rfl⟩

private theorem isLocal_authenticate {r : Request} {host : Host}
    (passing : host.config.tokens = .passThrough) :
    IsLocal r.authenticate host fun auth after =>
      after = host ∧ auth.identity = r.user ∧ r.token = some auth.credential := by
  unfold IsLocal
  cases given : r.token with
  | some token =>
    have same : r.authenticate host =
        (Pure.pure { identity := r.user, credential := token } : Action AuthContext) host := by
      obtain ⟨⟨tokens, _, _, _, _⟩, _, _, _⟩ := host
      obtain ⟨_, _, _, _, _, _⟩ := r
      cases passing
      cases given
      rfl
    rw [same]
    exact isLocal_pure ⟨rfl, rfl, rfl⟩
  | none =>
    have same : r.authenticate host =
        (fail (.authentication (.noToken r.applicationId)) : Action AuthContext) host := by
      obtain ⟨⟨tokens, _, _, _, _⟩, _, _, _⟩ := host
      obtain ⟨_, _, _, _, _, _⟩ := r
      cases passing
      cases given
      rfl
    rw [same]
    exact isLocal_fail rfl

/-- A lock adds no exchange, and leaves the state of an action that does not panic. A panic changes
nothing but the lock itself. -/
theorem path_locked {α : Type} {action : Action α} {host after : Host} {events : List Event}
    {exit : Exit α} (h : Path (Host.locked action host) events (exit, after)) :
    ∃ inner middle, exchanges events = exchanges inner ∧ Path (action host) inner (exit, middle) ∧
      (exit ≠ .panic → after = middle) ∧
      after = { middle with isPoisoned := after.isPoisoned } := by
  -- both branches go on in the same way, with a lock that is poisoned by a panic only
  have inside : ∀ (next : Exit α × Host → Program (Exit α × Host)) (events : List Event),
      Path ((action host).bind next) events (exit, after) →
      (∀ middle, next (.panic, middle) = .done (.panic, { middle with isPoisoned := true })) →
      (∀ value middle, next (.value value, middle) = .done (.value value, middle)) →
      (∀ cause middle, next (.error cause, middle) = .done (.error cause, middle)) →
      ∃ middle, Path (action host) events (exit, middle) ∧ (exit ≠ .panic → after = middle) ∧
        after = { middle with isPoisoned := after.isPoisoned } := by
    intro next events h panics ends fails
    obtain ⟨inner, rest, ⟨ended, middle⟩, rfl, path, last⟩ := Path.bind_iff.1 h
    cases ended with
    | panic =>
      rw [panics] at last
      obtain ⟨rfl, last⟩ := Path.done_iff.1 last
      cases last
      exact ⟨middle, by simpa using path, fun ended => (ended rfl).elim, rfl⟩
    | value value =>
      rw [ends] at last
      obtain ⟨rfl, last⟩ := Path.done_iff.1 last
      cases last
      exact ⟨after, by simpa using path, fun _ => rfl, rfl⟩
    | error cause =>
      rw [fails] at last
      obtain ⟨rfl, last⟩ := Path.done_iff.1 last
      cases last
      exact ⟨after, by simpa using path, fun _ => rfl, rfl⟩
  unfold Host.locked at h
  split at h
  · obtain ⟨record, rest, _, rfl, warned, last⟩ := Path.bind_iff.1 h
    obtain rfl := Path.question_iff.1 warned
    obtain ⟨middle, path, left⟩ :=
      inside _ rest last (fun _ => rfl) (fun _ _ => rfl) fun _ _ => rfl
    exact ⟨rest, middle, rfl, path, left⟩
  · obtain ⟨middle, path, left⟩ :=
      inside _ events h (fun _ => rfl) (fun _ _ => rfl) fun _ _ => rfl
    exact ⟨events, middle, rfl, path, left⟩

end Local

variable {r : Request} {o : RunOptions} {k : Known} {host : Host}

theorem performs_queryStatus {s : Source} (named : s.identifier = r.source) :
    Performs r o k [.contentStatus] s.queryStatus host fun asked last _ =>
      last = { k with status := some asked.1 } ∧ asked.2.identifier = r.source := by
  refine performs_call ⟨s, named, rfl⟩ (by decide) ?_
  rintro ⟨edits, status⟩
  cases status with
  | error cause => exact .inr ⟨cause, rfl, rfl⟩
  | ok status =>
    obtain ⟨start, rewound, same⟩ := rewound_eq_ok s edits
    refine .inl ⟨_, rfl, ?_⟩
    simp only [ofExcept_ok, pure_bind, rewound]
    exact performs_pure ⟨rfl, same.trans named⟩

theorem performs_checkRights {d : DocumentHandle} (known : k.document = some d) :
    Performs r o k [.checkRights] d.checkRights host fun _ last _ => last = k := by
  unfold DocumentHandle.checkRights DocumentHandle.protection
  rw [Action.bind_assoc]
  refine performs_call ⟨d, known, rfl⟩ (by decide) fun reply => ?_
  cases reply with
  | failed cause => exact .inr ⟨cause, rfl, rfl⟩
  | dropped => exact .inr ⟨.cancelled, rfl, rfl⟩
  | succeeded protection =>
    cases protection with
    | none => exact .inl ⟨k, rfl, performs_pure rfl⟩
    | some policy =>
      by_cases grants : policy.grants Right.exportName = true
      · refine .inl ⟨k, by simp [Stage.judge, Completion.result, grants], ?_⟩
        simpa [Completion.result, grants] using performs_pure rfl
      · exact .inr ⟨DocumentHandle.deniedBy policy,
          by simp [Stage.judge, Completion.result, grants], by simp [Completion.result, grants]⟩

theorem performs_referencePolicy {engine : EngineHandle} {path : String}
    (known : k.engine = some engine) :
    Performs r o k [.openReference path, .referencePolicy path]
      (Request.referencePolicy o engine path) host fun policy last _ =>
        ∃ reference, last = { k with reference := some reference, policy := some policy } := by
  have opens : Performs r o k [.openReference path] (o.openDocument engine (.path path)) host
      fun d last after => last = { k with reference := some d } ∧ after = host :=
    performs_ask ⟨engine, known, rfl⟩ (by simp) fun _ => rfl
  refine performs_bind opens ?_
  rintro d _ _ ⟨rfl, rfl⟩
  rw [DocumentHandle.protection, Action.bind_assoc]
  refine performs_call ⟨d, rfl, rfl⟩ (by simp) fun reply => ?_
  cases reply with
  | failed cause => exact .inr ⟨cause, rfl, rfl⟩
  | dropped => exact .inr ⟨.cancelled, rfl, rfl⟩
  | succeeded protection =>
    cases protection with
    | none => exact .inr ⟨_, rfl, rfl⟩
    | some policy => exact .inl ⟨_, rfl, performs_pure ⟨d, rfl⟩⟩

private theorem performs_authenticate (asking : host.config.tokens = .provider) :
    Performs r o k [.acquireToken] r.authenticate host fun auth last after =>
      after = host ∧ auth.identity = r.user ∧
        last = { k with credential := some auth.credential } := by
  let request : CredentialRequest :=
    { applicationId := r.applicationId, username := r.user, token := r.token }
  have same : r.authenticate host = (call (.acquireToken request) >>= fun reply =>
      ofExcept (Except.mapError Error.asAuthentication reply) >>= fun credential =>
        Pure.pure { identity := r.user, credential } : Action AuthContext) host := by
    obtain ⟨⟨tokens, _, _, _, _⟩, _, _, _⟩ := host
    cases asking
    refine congrArg (Program.ask _) (funext fun answer => ?_)
    rcases answer with _ | (_ | _) <;> rfl
  unfold Performs
  rw [same]
  refine performs_call rfl (by decide) fun reply => ?_
  cases reply with
  | ok credential => exact .inl ⟨_, rfl, performs_pure ⟨rfl, rfl, rfl⟩⟩
  | error cause => exact .inr ⟨cause.asAuthentication, rfl, rfl⟩

private theorem performs_locked {α : Type} {stages : List Stage} {action : Action α}
    {post : α → Known → Host → Prop} (h : Performs r o k stages action host post) :
    Performs r o k stages (Host.locked action) host post := by
  intro events exit after path
  obtain ⟨inner, middle, same, path, left, -⟩ := path_locked path
  rw [same]
  cases exit with
  | value value =>
    obtain rfl := left nofun
    exact h _ _ _ path
  | error cause => exact h _ _ _ path
  | panic => exact h _ _ _ path

private theorem isLocal_askConsent {id : String} {answer : Consent}
    (fixed : host.config.consent = .fixed answer) :
    IsLocal (Host.askConsent id) host fun consent _ => consent = answer := by
  have same : Host.askConsent id host = (Pure.pure answer : Action Consent) host := by
    obtain ⟨⟨_, consent, _, _, _⟩, _, _, _⟩ := host
    cases fixed
    rfl
  unfold IsLocal
  rw [same]
  exact isLocal_pure rfl

private theorem performs_askConsent (asking : host.config.consent = .provider) :
    Performs r o k [.consent] (Host.askConsent r.applicationId) host fun consent last _ =>
      last = { k with consent := some consent } := by
  have same : Host.askConsent r.applicationId host =
      (call (.consent r.applicationId) >>= Pure.pure : Action Consent) host := by
    obtain ⟨⟨_, consent, _, _, _⟩, _, _, _⟩ := host
    cases asking
    refine congrArg (Program.ask _) (funext fun answer => ?_)
    cases answer <;> rfl
  unfold Performs
  rw [same]
  exact performs_call rfl (by decide) fun consent => .inl ⟨_, rfl, performs_pure rfl⟩

private theorem performs_loadProfile
    (asked : ∀ answer, host.config.consent = .fixed answer → k.consent = some answer) :
    Performs r o k ((if host.config.consent = .provider then [.consent] else []) ++ [.loadProfile])
      (Host.loadProfile { id := r.applicationId }) host fun profile last _ =>
      last.profile = some profile ∧ last.credential = k.credential ∧ last.status = k.status := by
  -- once the consent is known, the profile is loaded with it
  have load : ∀ (known : Known) (consent : Consent) (middle : Host), known.consent = some consent →
      known.credential = k.credential → known.status = k.status →
      Performs r o known [.loadProfile] (do
        let config := (← get).config
        let loaded ← call (.loadProfile {
          application := { id := r.applicationId }
          cache := config.cache
          telemetry := consent.isGranted
          diagnostics := config.diagnostics })
        let profile ← ofExcept loaded.result
        modify fun host => { host with profiles := host.profiles ++ [(r.applicationId, profile)] }
        return profile) middle fun profile last _ =>
          last.profile = some profile ∧ last.credential = k.credential ∧
            last.status = k.status := by
    intro known consent middle given credential status
    refine performs_local_bind (isLocal_get rfl) ⟨_, _, rfl, rfl⟩ fun host _ _ => ?_
    refine performs_call ⟨consent, _, given, rfl, rfl, rfl⟩ (by decide) fun reply => ?_
    cases reply with
    | failed cause => exact .inr ⟨cause, rfl, rfl⟩
    | dropped => exact .inr ⟨.cancelled, rfl, rfl⟩
    | succeeded profile => exact .inl ⟨_, rfl, performs_pure ⟨rfl, credential, status⟩⟩
  cases source : host.config.consent with
  | fixed answer =>
    refine performs_local_bind (isLocal_askConsent source) ⟨_, _, rfl, rfl⟩ ?_
    rintro _ middle rfl
    exact load k _ middle (asked _ source) rfl rfl
  | provider =>
    refine performs_bind (performs_askConsent source) ?_
    rintro consent _ middle rfl
    exact load _ consent middle rfl rfl rfl

private theorem performs_findOrLoad (cached : k.profile = host.profiles.lookup r.applicationId)
    (asked : ∀ answer, host.config.consent = .fixed answer → k.consent = some answer) :
    Performs r o k (loading r host) (Host.findOrLoad { id := r.applicationId }) host
      fun profile last _ => last.profile = some profile ∧ last.credential = k.credential ∧
        last.status = k.status := by
  unfold Performs loading
  cases found : host.profiles.lookup r.applicationId with
  | some profile =>
    have same : Host.findOrLoad { id := r.applicationId } host =
        (Pure.pure profile : Action ProfileHandle) host := by
      unfold Host.findOrLoad
      rw [get_bind]
      simp only [found]
    rw [same]
    exact performs_pure ⟨cached.trans found, rfl, rfl⟩
  | none =>
    have same : Host.findOrLoad { id := r.applicationId } host =
        Host.loadProfile { id := r.applicationId } host := by
      unfold Host.findOrLoad
      rw [get_bind]
      simp only [found]
    rw [same]
    exact performs_loadProfile asked

theorem startWithWork_loading : StartWithWork (loading r host ++ [.addEngine]) := by
  unfold loading
  split
  · exact ⟨_, _, rfl, rfl⟩
  · split <;> exact ⟨_, _, rfl, rfl⟩

/-- From the authentication on: the profile, the settings and the engine itself. -/
theorem performs_addEngine {auth : AuthContext} (identity : auth.identity = r.user)
    (credential : k.credential = some auth.credential)
    (cached : k.profile = host.profiles.lookup r.applicationId)
    (asked : ∀ answer, host.config.consent = .fixed answer → k.consent = some answer) :
    Performs r o k (loading r host ++ [.addEngine]) (do
      let profile ← Host.profile { id := r.applicationId }
      let settings ← ofExcept (← ofProgram ((← get).config.engine.readSettings auth))
      ofExcept (← call (.addEngine profile settings)).result) host fun engine last _ =>
        last.engine = some engine ∧ last.status = k.status := by
  have running : IsLocal Host.checkRunning host fun _ after => after = host := by
    intro events exit after path
    obtain ⟨_, _, isShutDown, _⟩ := host
    cases isShutDown with
    | true =>
      obtain ⟨rfl, rfl, rfl⟩ := path_fail_iff.1 path
      exact ⟨rfl, rfl⟩
    | false =>
      obtain ⟨rfl, rfl, rfl⟩ := path_return_iff.1 path
      exact ⟨rfl, rfl⟩
  simp only [Host.profile, Action.bind_assoc]
  refine performs_local_bind running startWithWork_loading ?_
  rintro _ host rfl
  have valid : IsLocal (ofExcept (Application.validate { id := r.applicationId })) host
      fun _ after => after = host :=
    isLocal_ofExcept (fun _ => application_error) fun _ _ => rfl
  refine performs_local_bind valid startWithWork_loading ?_
  rintro _ host rfl
  refine performs_bind (performs_locked (performs_findOrLoad cached asked)) ?_
  rintro profile known middle ⟨loaded, kept, status⟩
  have present : IsLocal get middle fun _ after => after = middle := isLocal_get rfl
  refine performs_local_bind present ⟨_, _, rfl, rfl⟩ ?_
  rintro host middle rfl
  have read : IsLocal (ofProgram (host.config.engine.readSettings auth)) middle fun settings _ =>
      (∀ cause, settings = .error cause → cause.isFatal = false) ∧
        ∀ value, settings = .ok value → value.auth = auth :=
    isLocal_ofProgram fun _ _ => path_readSettings
  refine performs_local_bind read ⟨_, _, rfl, rfl⟩ fun settings middle ⟨ordinary, made⟩ => ?_
  have settled : IsLocal (ofExcept settings) middle fun value _ => value.auth = auth :=
    isLocal_ofExcept ordinary made
  refine performs_local_bind settled ⟨_, _, rfl, rfl⟩ fun settings middle same => ?_
  have due : Stage.addEngine.Due r o known (.addEngine profile settings) :=
    ⟨auth.credential, profile, settings, kept.trans credential, loaded, by rw [same, ← identity],
      rfl⟩
  refine (performs_ask due (by decide) fun _ => rfl).weaken ?_
  rintro engine last _ ⟨rfl, -⟩
  exact ⟨rfl, status⟩

theorem performs_createEngine (cached : k.profile = host.profiles.lookup r.applicationId)
    (asked : ∀ answer, host.config.consent = .fixed answer → k.consent = some answer)
    (passed : host.config.tokens = .passThrough → k.credential = r.token) :
    Performs r o k (engine r host) r.createEngine host fun engine last _ =>
      last.engine = some engine ∧ last.status = k.status := by
  rw [engine, List.append_assoc]
  unfold Request.createEngine
  cases source : host.config.tokens with
  | passThrough =>
    refine performs_local_bind (isLocal_authenticate source) startWithWork_loading ?_
    rintro auth _ ⟨rfl, identity, given⟩
    exact performs_addEngine identity ((passed source).trans given) cached asked
  | provider =>
    refine performs_bind (performs_authenticate source) ?_
    rintro auth _ _ ⟨rfl, identity, rfl⟩
    exact performs_addEngine identity rfl cached asked

end DocGuard.Schedule
