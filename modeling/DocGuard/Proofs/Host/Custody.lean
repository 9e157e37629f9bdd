import Mathlib.Data.List.Induction
import DocGuard.Proofs.Host.Profiles
import DocGuard.Proofs.Lookup
import DocGuard.Proofs.Request.Course

/-! How actions deal with the profiles of their host. Whatever a request asks of the collaborators,
it loads no profile that is there, asks for consent just before it loads one and for nothing else,
and makes engines from the profile of its application only. -/
namespace DocGuard
open Program DocGuard.Action

namespace Call

/-- The call is made for the sake of a profile. -/
def asksProfile : Call → Bool
  | consent _ | loadProfile _ => true
  | _ => false

/-- The call has to do with profiles: it asks for one, uses one, or releases them all. -/
def concernsProfiles : Call → Bool
  | consent _ | loadProfile _ | addEngine .. | shutdown _ => true
  | _ => false

end Call

namespace Event

/-- The bound on the time of a shutdown that an event tells the engine of. -/
def teardown? (e : Event) : Option (Option Duration) :=
  match e.question with
  | .call (.shutdown maxTeardown) => some maxTeardown
  | _ => none

private theorem isCall_eq_false {kind : Call → Bool} {e : Event} {c : Call}
    (h : e.isCall kind = false)
    (called : e.call? = some c) : kind c = false := by
  simpa [isCall, called] using h

private theorem call?_of_loaded {e : Event} {id : String} {profile : ProfileHandle}
    (h : e.loaded? = some (id, profile)) :
    ∃ settings, e.call? = some (.loadProfile settings) ∧ settings.application.id = id := by
  unfold loaded? at h
  split at h
  case h_1 settings profile =>
    cases h
    exact ⟨settings, rfl, rfl⟩
  case h_2 => cases h

theorem call?_of_teardown {e : Event} {bound : Option Duration} (h : e.teardown? = some bound) :
    e.call? = some (.shutdown bound) := by
  obtain ⟨question, answer⟩ := e
  unfold teardown? at h
  split at h
  case h_1 same =>
    cases h
    cases same
    rfl
  case h_2 => cases h

end Event

/-- An event stands in one of two lists that are put together. -/
theorem split_append {first second before rest : List Event} {e : Event}
    (h : first ++ second = before ++ e :: rest) :
    (∃ middle, first = before ++ e :: middle ∧ rest = middle ++ second) ∨
      ∃ middle, before = first ++ middle ∧ second = middle ++ e :: rest := by
  rcases List.append_eq_append_iff.1 h with ⟨middle, rfl, same⟩ | ⟨middle, rfl, same⟩
  · exact .inr ⟨middle, rfl, same⟩
  · cases middle with
    | nil => exact .inr ⟨[], by simp, same.symm⟩
    | cons other middle =>
      cases same
      exact .inl ⟨middle, rfl, rfl⟩

/-- A profile is loaded with the consent that was asked for just before. -/
def HostConfig.Consented (config : HostConfig) (before : List Event) (settings : ProfileSettings) :
    Prop :=
  ∃ earlier asked answer, before = earlier ++ asked ∧
    config.Asks settings.application.id answer asked ∧ settings.telemetry = answer.isGranted

/-- Profiles are loaded and asked for in order: for none that is present, with consent, and an answer
to the question for consent is used at once. -/
structure LoadsInOrder (config : HostConfig) (present : List (String × ProfileHandle))
    (xs : List Event) : Prop where
  loading : ∀ before e rest settings, xs = before ++ e :: rest →
    e.call? = some (.loadProfile settings) →
    (present ++ loads before).lookup settings.application.id = none ∧
      config.Consented before settings
  asking : ∀ before id (answer : Option Consent) rest,
    xs = before ++ ⟨.call (.consent id), answer⟩ :: rest →
    (present ++ loads before).lookup id = none ∧ (answer.isSome → ∃ e later settings,
      rest = e :: later ∧ e.call? = some (.loadProfile settings) ∧ settings.application.id = id)

namespace LoadsInOrder
variable {config : HostConfig} {present : List (String × ProfileHandle)} {xs ys : List Event}

theorem of_unasked (h : ∀ e ∈ xs, e.isCall Call.asksProfile = false) :
    LoadsInOrder config present xs := by
  constructor
  · rintro before e rest settings rfl called
    cases Event.isCall_eq_false (h e (by simp)) called
  · rintro before id answer rest rfl
    cases Event.isCall_eq_false (h ⟨.call (.consent id), answer⟩ (by simp)) rfl

theorem append (h : LoadsInOrder config present xs)
    (g : LoadsInOrder config (present ++ loads xs) ys) : LoadsInOrder config present (xs ++ ys) := by
  constructor
  · intro before e rest settings whole called
    rcases split_append whole with ⟨between, rfl, rfl⟩ | ⟨between, rfl, rfl⟩
    · exact h.loading before e between settings rfl called
    · obtain ⟨fresh, earlier, asked, answer, rfl, asks, telemetry⟩ :=
        g.loading between e rest settings rfl called
      rw [List.append_assoc, ← loads_append] at fresh
      exact ⟨fresh, xs ++ earlier, asked, answer, (List.append_assoc ..).symm, asks, telemetry⟩
  · intro before id answer rest whole
    rcases split_append whole with ⟨between, rfl, rfl⟩ | ⟨between, rfl, rfl⟩
    · obtain ⟨fresh, onward⟩ := h.asking before id answer between rfl
      refine ⟨fresh, fun answered => ?_⟩
      obtain ⟨e, later, settings, rfl, called, same⟩ := onward answered
      exact ⟨e, later ++ ys, settings, rfl, called, same⟩
    · have asked := g.asking between id answer rest rfl
      rw [List.append_assoc, ← loads_append] at asked
      exact asked

/-- No profile is loaded twice. -/
theorem once (h : LoadsInOrder config [] xs) : ((loads xs).map Prod.fst).Nodup := by
  have fresh : ∀ before e rest settings, xs = before ++ e :: rest →
      e.call? = some (.loadProfile settings) →
      (loads before).lookup settings.application.id = none :=
    fun before e rest settings whole called => (h.loading before e rest settings whole called).1
  clear h
  induction xs using List.reverseRecOn with
  | nil => exact List.nodup_nil
  | append_singleton xs last ih =>
    have before : ((loads xs).map Prod.fst).Nodup := by
      apply ih
      rintro before e rest settings rfl called
      exact fresh before e (rest ++ [last]) settings (by simp) called
    cases loaded : last.loaded? with
    | none => simpa [loads, loaded] using before
    | some pair =>
      obtain ⟨id, profile⟩ := pair
      obtain ⟨settings, called, rfl⟩ := Event.call?_of_loaded loaded
      have absent := List.lookup_eq_none_iff.1 (fresh xs last [] settings rfl called)
      have one : loads [last] = [(settings.application.id, profile)] := by simp [loads, loaded]
      rw [loads_append, one, List.map_append]
      refine List.nodup_append.2 ⟨before, by simp, ?_⟩
      rintro _ mem _ single rfl
      obtain ⟨pair, earlier, same⟩ := List.mem_map.1 mem
      have different := absent pair earlier
      rw [same, List.mem_singleton.1 single] at different
      simp at different

end LoadsInOrder

/-- The custody of the profiles of a host through some exchanges of an action that is no shutdown.
The owner is the application that engines are made for. -/
structure Custody (owner : Option String) (host : Host) (xs : List Event) (after : Host) : Prop where
  gains : host.Gains xs after
  unclosed : ∀ e ∈ xs, e.teardown? = none
  stopped : host.isShutDown = true → ∀ e ∈ xs, e.isCall Call.asksProfile = false
  order : LoadsInOrder host.config host.profiles xs
  engines : ∀ e ∈ xs, ∀ profile settings, e.call? = some (.addEngine profile settings) →
    ∃ id, owner = some id ∧ after.profiles.lookup id = some profile

section Unasked
variable {xs : List Event}

private theorem unasked_of_unconcerned (h : ∀ e ∈ xs, e.isCall Call.concernsProfiles = false) :
    ∀ e ∈ xs, e.isCall Call.asksProfile = false := by
  intro e mem
  cases called : e.call? with
  | none => simp [Event.isCall, called]
  | some c =>
    have other := Event.isCall_eq_false (h e mem) called
    cases c <;> simp_all [Event.isCall, Call.asksProfile, Call.concernsProfiles]

theorem loads_of_unasked (h : ∀ e ∈ xs, e.isCall Call.asksProfile = false) : loads xs = [] := by
  apply List.filterMap_eq_nil_iff.2
  intro e mem
  cases loaded : e.loaded? with
  | none => rfl
  | some pair =>
    obtain ⟨settings, called, -⟩ := Event.call?_of_loaded loaded
    cases Event.isCall_eq_false (h e mem) called

end Unasked

namespace Custody
variable {owner : Option String} {host middle after : Host} {xs ys : List Event}

private theorem of_unconcerned (h : ∀ e ∈ xs, e.isCall Call.concernsProfiles = false)
    (gains : host.Gains xs after) : Custody owner host xs after := by
  have never : ∀ e ∈ xs, ∀ c, e.call? = some c → c.concernsProfiles = false :=
    fun e mem c called => Event.isCall_eq_false (h e mem) called
  constructor
  · exact gains
  · intro e mem
    cases told : e.teardown? with
    | none => rfl
    | some bound => cases never e mem _ (Event.call?_of_teardown told)
  · exact fun _ => unasked_of_unconcerned h
  · exact .of_unasked (unasked_of_unconcerned h)
  · intro e mem profile settings called
    cases never e mem _ called

theorem quiet (h : ∀ e ∈ xs, e.isCall Call.concernsProfiles = false) :
    Custody owner host xs host :=
  of_unconcerned h (Host.gains_of_loads (loads_of_unasked (unasked_of_unconcerned h)))

theorem append (h : Custody owner host xs middle) (g : Custody owner middle ys after) :
    Custody owner host (xs ++ ys) after := by
  have kept : after.profiles = host.profiles ++ loads (xs ++ ys) := by
    rw [g.gains.profiles, h.gains.profiles, loads_append, List.append_assoc]
  constructor
  · exact ⟨g.gains.config.trans h.gains.config, g.gains.isShutDown.trans h.gains.isShutDown, kept⟩
  · intro e mem
    rcases List.mem_append.1 mem with mem | mem
    · exact h.unclosed e mem
    · exact g.unclosed e mem
  · intro stopped e mem
    rcases List.mem_append.1 mem with mem | mem
    · exact h.stopped stopped e mem
    · exact g.stopped (h.gains.isShutDown.trans stopped) e mem
  · have order := g.order
    rw [h.gains.config, h.gains.profiles] at order
    exact h.order.append order
  · intro e mem profile settings called
    rcases List.mem_append.1 mem with mem | mem
    · obtain ⟨id, same, found⟩ := h.engines e mem profile settings called
      rw [g.gains.profiles]
      exact ⟨id, same, lookup_append_of_some found⟩
    · exact g.engines e mem profile settings called

end Custody

/-- Each path of an action from a host keeps custody of the profiles. -/
def Tends {α : Type} (owner : Option String) (action : Action α) (host : Host) : Prop :=
  ∀ events exit after, Path (action host) events (exit, after) →
    Custody owner host (exchanges events) after

section Rules
variable {α β : Type} {owner : Option String} {host : Host} {c : Call}

theorem tends_pure {value : α} : Tends owner (Pure.pure value) host := by
  intro events exit after path
  obtain ⟨rfl, -, rfl⟩ := path_return_iff.1 path
  exact .quiet (by simp)

private theorem tends_fail {cause : Error} : Tends owner (fail cause : Action α) host := by
  intro events exit after path
  obtain ⟨rfl, -, rfl⟩ := path_fail_iff.1 path
  exact .quiet (by simp)

private theorem tends_ofExcept {result : Except Error α} : Tends owner (ofExcept result) host := by
  cases result with
  | ok value => exact tends_pure
  | error cause => exact tends_fail

private theorem tends_ofProgram {program : Program α}
    (h : ∀ events value, Path program events value → ∀ e ∈ exchanges events, e.call? = none) :
    Tends owner (ofProgram program) host := by
  intro events exit after path
  obtain ⟨rfl, value, -, inside⟩ := path_ofProgram_iff.1 path
  apply Custody.quiet
  intro e mem
  simp [Event.isCall, h events value inside e mem]

private theorem tends_log {level : LogLevel} {text : String} :
    Tends owner (log level text) host := by
  refine tends_ofProgram fun events value path e mem => ?_
  obtain rfl := Path.question_iff.1 path
  cases mem

private theorem tends_fileExists {path : String} :
    Tends owner (ofProgram (.fileExists path)) host := by
  refine tends_ofProgram fun events value path => ?_
  obtain rfl := Path.question_iff.1 path
  simp [Event.call?]

private theorem tends_call (other : c.concernsProfiles = false) : Tends owner (call c) host := by
  intro events exit after path
  obtain ⟨rfl, ⟨reply, -, rfl⟩ | ⟨-, rfl⟩⟩ := path_call_iff.1 path
  all_goals
    apply Custody.quiet
    intro e mem
    cases List.mem_singleton.1 mem
    exact other

theorem tends_bind {action : Action α} {next : α → Action β} (h : Tends owner action host)
    (g : ∀ events value middle, Path (action host) events (.value value, middle) →
      Tends owner (next value) middle) : Tends owner (action >>= next) host := by
  intro events exit after path
  rcases path_bind_iff.1 path with ⟨before, rest, value, middle, rfl, first, second⟩ |
    ⟨cause, rfl, first⟩ | ⟨rfl, first⟩
  · rw [exchanges_append]
    exact (h _ _ _ first).append (g _ _ _ first _ _ _ second)
  · exact h _ _ _ first
  · exact h _ _ _ first

private theorem tends_get_bind {next : Host → Action α} (h : Tends owner (next host) host) :
    Tends owner (get >>= next) host :=
  h

private theorem tends_ask {result : c.Reply → Except Error α} (other : c.concernsProfiles = false) :
    Tends owner (call c >>= fun reply => ofExcept (result reply)) host :=
  tends_bind (tends_call other) fun _ _ _ _ => tends_ofExcept

private theorem tends_attempt {action : Action α} (h : Tends owner action host) :
    Tends owner (attempt action) host := by
  intro events exit after path
  rcases path_attempt_iff.1 path with ⟨_, -, inside⟩ | ⟨_, -, inside⟩ | ⟨-, inside⟩
  all_goals exact h _ _ _ inside

end Rules

section Profile
variable {owner : Option String} {config : HostConfig} {host after : Host}
  {application : Application} {xs : List Event} {exit : Exit ProfileHandle}

/-- An attempt to load a profile is the call to load it, behind the question for consent. -/
theorem attempts_shape (h : config.Attempts application xs exit) :
    (config.consent = .provider ∧ xs = [.unanswered (.consent application.id)]) ∨
      ∃ answer asked load, xs = asked ++ [load] ∧ config.Asks application.id answer asked ∧
        load.call? = some (.loadProfile (config.profileSettings application answer)) := by
  cases h with
  | unanswered source => exact .inl ⟨source, rfl⟩
  | panicked answer asked asks => exact .inr ⟨answer, asked, _, rfl, asks, rfl⟩
  | ended answer asked reply asks => exact .inr ⟨answer, asked, _, rfl, asks, rfl⟩

theorem mem_asks {answer : Consent} {asked : List Event} {id : String} {e : Event}
    (h : config.Asks id answer asked) (mem : e ∈ asked) : e.call? = some (.consent id) := by
  cases h with
  | fixed source => cases mem
  | provider source =>
    cases List.mem_singleton.1 mem
    rfl

/-- A call to load a profile that is not present, made with consent, is in order. -/
theorem inOrder_load {present : List (String × ProfileHandle)} {answer : Consent}
    {asked : List Event} {load : Event} (asks : config.Asks application.id answer asked)
    (called : load.call? = some (.loadProfile (config.profileSettings application answer)))
    (fresh : present.lookup application.id = none) :
    LoadsInOrder config present (asked ++ [load]) := by
  constructor
  · intro before e rest settings whole loads
    rcases split_append whole with ⟨middle, rfl, -⟩ | ⟨middle, rfl, last⟩
    · have other := mem_asks asks (e := e) (by simp)
      cases other.symm.trans loads
    · cases middle with
      | cons first middle => simp at last
      | nil =>
        cases last
        cases called.symm.trans loads
        rw [List.append_nil, Host.loads_asks asks, List.append_nil]
        exact ⟨fresh, [], asked, answer, rfl, asks, rfl⟩
  · intro before id consent rest whole
    rcases split_append whole with ⟨middle, question, rfl⟩ | ⟨middle, rfl, last⟩
    · -- the one question is followed by the load
      cases asks with
      | fixed source => simp at question
      | provider source =>
        cases before with
        | cons first before => simp at question
        | nil =>
          cases question
          rw [loads_nil, List.append_nil]
          exact ⟨fresh, fun _ => ⟨load, [], _, rfl, called, rfl⟩⟩
    · cases middle with
      | cons first middle => simp at last
      | nil =>
        cases last
        cases called

private theorem inOrder_attempts {present : List (String × ProfileHandle)}
    (h : config.Attempts application xs exit) (fresh : present.lookup application.id = none) :
    LoadsInOrder config present xs := by
  rcases attempts_shape h with ⟨source, rfl⟩ | ⟨answer, asked, load, rfl, asks, called⟩
  · constructor
    · intro before e rest settings whole called
      have mem : e ∈ [Event.unanswered (.consent application.id)] := by simp [whole]
      cases List.mem_singleton.1 mem
      cases called
    · intro before id answer rest whole
      cases before with
      | cons first before => simp at whole
      | nil =>
        cases whole
        rw [loads_nil, List.append_nil]
        exact ⟨fresh, nofun⟩
  · exact inOrder_load asks called fresh

/-- An attempt makes no calls but those for the profile. -/
theorem asksProfile_of_attempts (h : config.Attempts application xs exit) :
    ∀ e ∈ xs, ∀ c, e.call? = some c → c.asksProfile = true := by
  intro e mem c called
  rcases attempts_shape h with ⟨-, rfl⟩ | ⟨answer, asked, load, rfl, asks, loads⟩
  · cases List.mem_singleton.1 mem
    cases called
    rfl
  · rcases List.mem_append.1 mem with mem | mem
    · cases (mem_asks asks mem).symm.trans called
      rfl
    · cases List.mem_singleton.1 mem
      cases loads.symm.trans called
      rfl

private theorem custody_attempts (h : host.config.Attempts application xs exit)
    (running : host.isShutDown = false) (fresh : host.profiles.lookup application.id = none)
    (gains : host.Gains xs after) : Custody owner host xs after := by
  have asks := asksProfile_of_attempts h
  constructor
  · exact gains
  · intro e mem
    cases told : e.teardown? with
    | none => rfl
    | some bound => cases asks e mem _ (Event.call?_of_teardown told)
  · simp [running]
  · exact inOrder_attempts h fresh
  · intro e mem profile settings called
    cases asks e mem _ called

theorem tends_profile : Tends owner (Host.profile application) host := by
  intro events exit after path
  obtain ⟨provides, gains⟩ := Host.path_profile path
  generalize exchanges events = xs at provides gains
  cases provides with
  | stopped isShutDown => exact .of_unconcerned (by simp) gains
  | refused cause running refused => exact .of_unconcerned (by simp) gains
  | cached profile running valid found => exact .of_unconcerned (by simp) gains
  | attempted _ _ running valid fresh attempts =>
    exact custody_attempts attempts running fresh gains

private theorem lookup_of_profile {events : List Event} {profile : ProfileHandle}
    (h : Path (Host.profile application host) events (.value profile, after)) :
    after.profiles.lookup application.id = some profile := by
  obtain ⟨provides, gains⟩ := Host.path_profile h
  rw [gains.profiles]
  generalize exchanges events = xs at provides gains
  cases provides with
  | cached _ running valid found => exact lookup_append_of_some found
  | attempted _ _ running valid fresh attempts =>
    generalize same : Exit.value profile = exit at attempts
    cases attempts with
    | unanswered source => cases same
    | panicked answer asked asks => cases same
    | ended answer asked reply asks =>
      cases reply with
      | failed cause => cases same
      | dropped => cases same
      | succeeded loaded =>
        cases same
        rw [loads_append, Host.loads_asks asks, List.lookup_append, fresh]
        exact List.lookup_cons_self

end Profile

section Request
variable {owner : Option String} {host : Host} {r : Request} {o : RunOptions}

private theorem tends_authenticate : Tends owner r.authenticate host := by
  have acquires : Tends owner r.acquireToken host := by
    refine tends_get_bind ?_
    cases host.config.tokens with
    | passThrough => exact tends_ofExcept
    | provider => exact tends_ask rfl
  refine tends_bind (tends_attempt acquires) fun _ result middle _ => ?_
  cases result with
  | ok credential => exact tends_pure
  | error cause => exact tends_fail

private theorem tends_addEngine {id : String} {profile : ProfileHandle} {settings : EngineSettings}
    (present : host.profiles.lookup id = some profile) :
    Tends (some id) (call (.addEngine profile settings)) host := by
  intro events exit after path
  have only : after = host ∧ ∃ answer, events = [⟨.call (.addEngine profile settings), answer⟩] := by
    obtain ⟨rfl, ⟨reply, -, rfl⟩ | ⟨-, rfl⟩⟩ := path_call_iff.1 path
    · exact ⟨rfl, some reply, rfl⟩
    · exact ⟨rfl, none, rfl⟩
  obtain ⟨rfl, answer, rfl⟩ := only
  have called : ∀ e ∈ exchanges [⟨.call (.addEngine profile settings), answer⟩],
      e.call? = some (.addEngine profile settings) := by
    intro e mem
    cases List.mem_singleton.1 mem
    rfl
  have unasked : ∀ e ∈ exchanges [⟨.call (.addEngine profile settings), answer⟩],
      e.isCall Call.asksProfile = false := by
    intro e mem
    simp [Event.isCall, called e mem, Call.asksProfile]
  constructor
  · exact Host.gains_of_loads rfl
  · intro e mem
    cases told : e.teardown? with
    | none => rfl
    | some bound => cases (called e mem).symm.trans (Event.call?_of_teardown told)
  · exact fun _ => unasked
  · exact .of_unasked unasked
  · intro e mem other load engine
    cases (called e mem).symm.trans engine
    exact ⟨id, rfl, present⟩

private theorem tends_createEngine : Tends (some r.applicationId) r.createEngine host := by
  refine tends_bind tends_authenticate fun _ auth middle _ => ?_
  refine tends_bind tends_profile fun _ profile loaded path => ?_
  have present := lookup_of_profile path
  refine tends_get_bind ?_
  refine tends_bind (tends_ofProgram fun _ _ read => ?_) ?_
  · simp [(Schedule.path_readSettings read).1]
  intro _ settings same read
  obtain ⟨rfl, -⟩ := path_ofProgram_iff.1 read
  cases settings with
  | error cause => exact tends_fail
  | ok settings =>
    rw [ofExcept_ok, pure_bind]
    exact tends_bind (tends_addEngine present) fun _ _ _ _ => tends_ofExcept

private theorem tends_prepareSource {path : String} : Tends owner (o.prepareSource path) host := by
  unfold RunOptions.prepareSource
  split
  · refine tends_bind (tends_ofProgram fun _ _ read => ?_) fun _ _ _ _ => ?_
    · simp [(Schedule.path_ofFile read).1]
    · exact tends_bind tends_ofExcept fun _ _ _ _ => tends_pure
  · exact tends_pure

private theorem tends_queryStatus {source : Source} : Tends owner source.queryStatus host := by
  refine tends_bind (tends_call rfl) fun _ reply _ _ => ?_
  refine tends_bind tends_ofExcept fun _ status _ _ => ?_
  exact tends_bind tends_ofExcept fun _ _ _ _ => tends_pure

private theorem tends_statusFor {source : Source} : Tends owner (r.statusFor source) host := by
  unfold Request.statusFor
  split
  · exact tends_bind tends_queryStatus fun _ _ _ _ => tends_pure
  · exact tends_pure

private theorem tends_openDocument {engine : EngineHandle} {source : Source} :
    Tends owner (o.openDocument engine source) host :=
  tends_ask rfl

private theorem tends_checkRights {d : DocumentHandle} : Tends owner d.checkRights host := by
  refine tends_bind (tends_ask rfl) fun _ protection _ _ => ?_
  cases protection with
  | none => exact tends_pure
  | some policy =>
    dsimp only
    split
    · exact tends_pure
    · exact tends_fail

private theorem tends_commit {d : DocumentHandle} {output source : String} :
    Tends owner (d.commit output source) host := by
  unfold DocumentHandle.commit
  refine tends_bind (tends_call rfl) fun _ modified _ _ => ?_
  cases modified with
  | false => exact tends_pure
  | true =>
    refine tends_bind (tends_call rfl) fun _ written _ _ => ?_
    dsimp only
    split
    · exact tends_bind (tends_call rfl) fun _ _ _ _ => tends_pure
    · refine tends_bind tends_fileExists fun _ found _ _ => ?_
      cases found <;> exact tends_fail
    · refine tends_bind tends_fileExists fun _ found _ _ => ?_
      cases found with
      | true => exact tends_bind tends_log fun _ _ _ _ => tends_fail
      | false => exact tends_fail

private theorem tends_openTarget : Tends (some r.applicationId) (r.openTarget o) host := by
  refine tends_bind tends_createEngine fun _ engine _ _ => ?_
  refine tends_bind tends_prepareSource fun _ source _ _ => ?_
  refine tends_bind tends_statusFor fun _ asked _ _ => ?_
  refine tends_bind tends_openDocument fun _ document _ _ => ?_
  refine tends_bind (tends_call rfl) fun _ name _ _ => ?_
  refine tends_bind tends_ofExcept fun _ output _ _ => ?_
  exact tends_bind tends_checkRights fun _ _ _ _ => tends_pure

private theorem tends_referencePolicy {engine : EngineHandle} {path : String} :
    Tends owner (Request.referencePolicy o engine path) host := by
  refine tends_bind tends_openDocument fun _ document _ _ => ?_
  refine tends_bind (tends_ask rfl) fun _ protection _ _ => ?_
  cases protection with
  | none => exact tends_fail
  | some policy => exact tends_pure

private theorem tends_change {c : Call} {result : c.Reply → Except Error Unit} {d : DocumentHandle}
    {output source : String} (other : c.concernsProfiles = false) :
    Tends owner (call c >>= fun reply => ofExcept (result reply) >>= fun _ =>
      d.commit output source) host := by
  refine tends_bind (tends_call other) fun _ reply _ _ => ?_
  exact tends_bind tends_ofExcept fun _ _ _ _ => tends_commit

private theorem tends_runUnprotect : Tends (some r.applicationId) (r.runUnprotect o) host := by
  refine tends_bind tends_openTarget fun _ target _ _ => ?_
  split
  · exact tends_change rfl
  · exact tends_pure

private theorem tends_runProtect {path : String} :
    Tends (some r.applicationId) (r.runProtect o path) host := by
  refine tends_bind tends_openTarget fun _ target _ _ => ?_
  exact tends_bind tends_referencePolicy fun _ policy _ _ => tends_change rfl

private theorem tends_runSetLabel {id : String} {options : LabelingOptions} :
    Tends (some r.applicationId) (r.runSetLabel o id options) host := by
  refine tends_bind tends_openTarget fun _ target _ _ => ?_
  refine tends_bind (tends_call rfl) fun _ reply _ _ => ?_
  exact tends_bind tends_ofExcept fun _ label _ _ => tends_change rfl

private theorem tends_runDeleteLabel {options : LabelingOptions} :
    Tends (some r.applicationId) (r.runDeleteLabel o options) host :=
  tends_bind tends_openTarget fun _ _ _ _ => tends_change rfl

theorem tends_inspectPath {path : String} : Tends owner (Request.inspectPath o path) host := by
  refine tends_bind tends_prepareSource fun _ source _ _ => ?_
  exact tends_bind tends_queryStatus fun _ _ _ _ => tends_pure

/-- A run makes engines for its application only. -/
theorem tends_run : Tends (some r.applicationId) (r.run o) host := by
  refine tends_bind tends_ofExcept fun _ _ _ _ => ?_
  split
  · exact tends_bind tends_inspectPath fun _ _ _ _ => tends_pure
  · exact tends_runUnprotect
  · split
    · exact tends_runProtect
    · exact tends_fail
  · exact tends_runSetLabel
  · exact tends_runDeleteLabel

theorem tends_describe : Tends (some r.applicationId) (r.describe o) host := by
  refine tends_bind tends_ofExcept fun _ _ _ _ => ?_
  refine tends_bind tends_createEngine fun _ engine _ _ => ?_
  refine tends_bind tends_prepareSource fun _ source _ _ => ?_
  refine tends_bind tends_openDocument fun _ document _ _ => ?_
  refine tends_bind (tends_ask rfl) fun _ label _ _ => ?_
  exact tends_bind (tends_ask rfl) fun _ _ _ _ => tends_pure

theorem tends_execute : Tends (some r.applicationId) (r.execute o) host := by
  refine tends_bind (tends_attempt tends_run) fun _ result _ _ => ?_
  cases result with
  | ok outcome => exact tends_bind tends_log fun _ _ _ _ => tends_pure
  | error cause =>
    dsimp only
    split
    · exact tends_fail
    · exact tends_pure

theorem tends_executeToJson : Tends (some r.applicationId) (r.executeToJson o) host :=
  tends_bind tends_execute fun _ _ _ _ => tends_pure

end Request
end DocGuard
