import DocGuard.Proofs.Request.Steps

/-! What a request for a profile does, and what a shutdown does. A profile that is loaded is handed
out without a call; any other is loaded with the consent that was asked for just before. -/
namespace DocGuard
open Program DocGuard.Action

/-- The application and the profile that an event shows to be loaded. -/
def Event.loaded? : Event → Option (String × ProfileHandle)
  | ⟨.call (.loadProfile settings), some (.succeeded profile)⟩ =>
    some (settings.application.id, profile)
  | _ => none

/-- The profiles that are loaded in some events, in order. -/
def loads (events : List Event) : List (String × ProfileHandle) :=
  events.filterMap Event.loaded?

@[simp] theorem loads_nil : loads [] = [] := rfl

@[simp] theorem loads_append (first second : List Event) :
    loads (first ++ second) = loads first ++ loads second :=
  List.filterMap_append

def Exit.ofResult {α : Type} : Except Error α → Exit α
  | .ok result => .value result
  | .error cause => .error cause

namespace HostConfig

/-- What the profile of an application is loaded with under an answer to the question for consent.
-/
def profileSettings (config : HostConfig) (application : Application) (answer : Consent) :
    ProfileSettings where
  application
  cache := config.cache
  telemetry := answer.isGranted
  diagnostics := config.diagnostics

/-- The exchanges that bring an answer to the question for consent; there are none where the answer
is fixed. -/
inductive Asks (config : HostConfig) (id : String) : Consent → List Event → Prop where
  | fixed (answer : Consent) : config.consent = .fixed answer → Asks config id answer []
  | provider (answer : Consent) : config.consent = .provider →
      Asks config id answer [.replied (.consent id) answer]

/-- The exchanges of an attempt to load the profile of an application, and how it ends. -/
inductive Attempts (config : HostConfig) (application : Application) :
    List Event → Exit ProfileHandle → Prop where
  | unanswered : config.consent = .provider →
      Attempts config application [.unanswered (.consent application.id)] .panic
  | panicked (answer : Consent) (asked : List Event) : config.Asks application.id answer asked →
      Attempts config application
        (asked ++ [.unanswered (.loadProfile (config.profileSettings application answer))]) .panic
  | ended (answer : Consent) (asked : List Event) (reply : Completion ProfileHandle) :
      config.Asks application.id answer asked →
      Attempts config application
        (asked ++ [.replied (.loadProfile (config.profileSettings application answer)) reply])
        (.ofResult reply.result)

end HostConfig

namespace Host
variable {host after : Host} {application : Application} {events : List Event} {id : String}

private theorem path_askConsent {exit : Exit Consent}
    (h : Path (askConsent id host) events (exit, after)) :
    after = host ∧ ((∃ answer, exit = .value answer ∧ host.config.Asks id answer events) ∨
      (exit = .panic ∧ host.config.consent = .provider ∧ events = [.unanswered (.consent id)])) := by
  unfold askConsent at h
  rw [get_bind] at h
  cases source : host.config.consent with
  | fixed answer =>
    rw [source] at h
    obtain ⟨rfl, rfl, rfl⟩ := path_return_iff.1 h
    exact ⟨rfl, .inl ⟨answer, rfl, .fixed answer source⟩⟩
  | provider =>
    rw [source] at h
    obtain ⟨rfl, ⟨answer, rfl, rfl⟩ | ⟨rfl, rfl⟩⟩ := path_call_iff.1 h
    · exact ⟨rfl, .inl ⟨answer, rfl, .provider answer source⟩⟩
    · exact ⟨rfl, .inr ⟨rfl, rfl, rfl⟩⟩

/-- What an action that is no shutdown leaves of its host: the profiles that were loaded are added to
those that were there. -/
structure Gains (host : Host) (events : List Event) (after : Host) : Prop where
  config : after.config = host.config
  isShutDown : after.isShutDown = host.isShutDown
  profiles : after.profiles = host.profiles ++ loads events

theorem gains_of_loads (h : loads events = []) : host.Gains events host :=
  ⟨rfl, rfl, by rw [h, List.append_nil]⟩

theorem loads_asks {config : HostConfig} {answer : Consent} (h : config.Asks id answer events) :
    loads events = [] := by
  cases h <;> rfl

/-- An attempt to load a profile keeps what it loads and nothing else. -/
theorem path_loadProfile {exit : Exit ProfileHandle}
    (h : Path (loadProfile application host) events (exit, after)) :
    host.config.Attempts application events exit ∧ host.Gains events after := by
  unfold loadProfile at h
  rcases path_bind_iff.1 h with ⟨asked, rest, answer, middle, rfl, consent, load⟩ |
    ⟨cause, rfl, consent⟩ | ⟨rfl, consent⟩
  · obtain ⟨rfl, ⟨_, same, asks⟩ | ⟨absurd, -⟩⟩ := path_askConsent consent
    case inr => cases absurd
    cases same
    rw [get_bind] at load
    rcases path_call_bind_iff.1 load with ⟨reply, rest, rfl, onward⟩ | ⟨rfl, rfl, rfl⟩
    · have ends : rest = [] ∧ exit = .ofResult reply.result ∧ middle.Gains [.replied (.loadProfile
          (middle.config.profileSettings application answer)) reply] after := by
        cases reply with
        | succeeded profile =>
          obtain ⟨rfl, rfl, rfl⟩ := path_return_iff.1 onward
          exact ⟨rfl, rfl, rfl, rfl, rfl⟩
        | failed cause =>
          obtain ⟨rfl, rfl, rfl⟩ := path_fail_iff.1 onward
          exact ⟨rfl, rfl, gains_of_loads rfl⟩
        | dropped =>
          obtain ⟨rfl, rfl, rfl⟩ := path_fail_iff.1 onward
          exact ⟨rfl, rfl, gains_of_loads rfl⟩
      obtain ⟨rfl, rfl, gains⟩ := ends
      refine ⟨.ended answer asked reply asks, gains.config, gains.isShutDown, ?_⟩
      rw [loads_append, loads_asks asks, List.nil_append]
      exact gains.profiles
    · refine ⟨.panicked answer asked asks, gains_of_loads ?_⟩
      rw [loads_append, loads_asks asks]
      rfl
  · obtain ⟨-, ⟨_, absurd, -⟩ | ⟨absurd, -⟩⟩ := path_askConsent consent <;> cases absurd
  · obtain ⟨rfl, ⟨_, absurd, -⟩ | ⟨-, source, rfl⟩⟩ := path_askConsent consent
    · cases absurd
    · exact ⟨.unanswered source, gains_of_loads rfl⟩

/-- How a request for a profile can go, with its exchanges and its end. -/
inductive Provides (host : Host) (application : Application) :
    List Event → Exit ProfileHandle → Prop where
  | stopped : host.isShutDown = true →
      Provides host application [] (.error (.engine .shutDown))
  | refused (cause : Error) : host.isShutDown = false → application.validate = .error cause →
      Provides host application [] (.error cause)
  | cached (profile : ProfileHandle) : host.isShutDown = false → application.validate = .ok () →
      host.profiles.lookup application.id = some profile →
      Provides host application [] (.value profile)
  | attempted (events : List Event) (exit : Exit ProfileHandle) : host.isShutDown = false →
      application.validate = .ok () → host.profiles.lookup application.id = none →
      host.config.Attempts application events exit → Provides host application events exit

namespace Provides
variable {xs : List Event} {exit : Exit ProfileHandle}

theorem of_stopped (h : host.Provides application xs exit) (stopped : host.isShutDown = true) :
    xs = [] ∧ exit = .error (.engine .shutDown) := by
  cases h with
  | stopped _ => exact ⟨rfl, rfl⟩
  | refused cause running _ => cases stopped.symm.trans running
  | cached profile running _ _ => cases stopped.symm.trans running
  | attempted _ _ running _ _ _ => cases stopped.symm.trans running

theorem of_invalid {cause : Error} (h : host.Provides application xs exit)
    (running : host.isShutDown = false) (invalid : application.validate = .error cause) :
    xs = [] ∧ exit = .error cause := by
  cases h with
  | stopped stopped => cases running.symm.trans stopped
  | refused other _ refused =>
    cases invalid.symm.trans refused
    exact ⟨rfl, rfl⟩
  | cached profile _ valid _ => cases invalid.symm.trans valid
  | attempted _ _ _ valid _ _ => cases invalid.symm.trans valid

theorem of_cached {profile : ProfileHandle} (h : host.Provides application xs exit)
    (running : host.isShutDown = false) (valid : application.validate = .ok ())
    (found : host.profiles.lookup application.id = some profile) :
    xs = [] ∧ exit = .value profile := by
  cases h with
  | stopped stopped => cases running.symm.trans stopped
  | refused cause _ refused => cases valid.symm.trans refused
  | cached other _ _ there =>
    cases found.symm.trans there
    exact ⟨rfl, rfl⟩
  | attempted _ _ _ _ fresh _ => cases found.symm.trans fresh

theorem of_fresh (h : host.Provides application xs exit) (running : host.isShutDown = false)
    (valid : application.validate = .ok ()) (fresh : host.profiles.lookup application.id = none) :
    host.config.Attempts application xs exit := by
  cases h with
  | stopped stopped => cases running.symm.trans stopped
  | refused cause _ refused => cases valid.symm.trans refused
  | cached profile _ _ there => cases fresh.symm.trans there
  | attempted _ _ _ _ _ attempts => exact attempts

end Provides

theorem exchanges_attempts {config : HostConfig} {exit : Exit ProfileHandle}
    (h : config.Attempts application events exit) : exchanges events = events := by
  cases h with
  | unanswered source => rfl
  | panicked answer asked asks => cases asks <;> rfl
  | ended answer asked reply asks => cases asks <;> rfl

private theorem path_findOrLoad {exit : Exit ProfileHandle} (running : host.isShutDown = false)
    (valid : application.validate = .ok ())
    (h : Path (findOrLoad application host) events (exit, after)) :
    host.Provides application (exchanges events) exit ∧ host.Gains (exchanges events) after := by
  unfold findOrLoad at h
  rw [get_bind] at h
  cases found : host.profiles.lookup application.id with
  | some profile =>
    simp only [found] at h
    obtain ⟨rfl, rfl, rfl⟩ := path_return_iff.1 h
    exact ⟨.cached profile running valid found, gains_of_loads rfl⟩
  | none =>
    simp only [found] at h
    obtain ⟨attempts, gains⟩ := path_loadProfile h
    rw [exchanges_attempts attempts]
    exact ⟨.attempted _ _ running valid found attempts, gains⟩

/-- Whichever way a request for a profile goes, the host keeps what is loaded in it. -/
theorem path_profile {exit : Exit ProfileHandle}
    (h : Path (profile application host) events (exit, after)) :
    host.Provides application (exchanges events) exit ∧ host.Gains (exchanges events) after := by
  have checks : profile application host = (if host.isShutDown then
      (fail (.engine .shutDown) : Action ProfileHandle) host else
      (ofExcept application.validate >>= fun _ => locked (findOrLoad application)) host) := by
    obtain ⟨_, _, isShutDown, _⟩ := host
    cases isShutDown <;> rfl
  rw [checks] at h
  cases running : host.isShutDown with
  | true =>
    rw [if_pos running] at h
    obtain ⟨rfl, rfl, rfl⟩ := path_fail_iff.1 h
    exact ⟨.stopped running, gains_of_loads rfl⟩
  | false =>
    rw [if_neg (by simp [running])] at h
    cases valid : application.validate with
    | error cause =>
      rw [valid] at h
      obtain ⟨rfl, rfl, rfl⟩ := path_fail_iff.1 h
      exact ⟨.refused cause running valid, gains_of_loads rfl⟩
    | ok _ =>
      rw [valid] at h
      obtain ⟨inner, middle, same, path, -, left⟩ := Schedule.path_locked h
      obtain ⟨provides, gains⟩ := path_findOrLoad running valid path
      rw [same, left]
      exact ⟨provides, gains.config, gains.isShutDown, gains.profiles⟩

/-- The first shutdown releases the profiles and tells the engine, the others do nothing. -/
theorem path_shutdown {exit : Exit Unit} (h : Path (shutdown host) events (exit, after)) :
    (host.isShutDown = true ∧ exchanges events = [] ∧ after = host) ∨
      (host.isShutDown = false ∧
        (∃ answer, exchanges events =
          [⟨.call (.shutdown host.config.diagnostics.maxTeardown), answer⟩]) ∧
        after = { host with profiles := [], isShutDown := true }) := by
  obtain ⟨config, profiles, isShutDown, isPoisoned⟩ := host
  cases isShutDown with
  | true =>
    obtain ⟨rfl, -, rfl⟩ := path_return_iff.1 h
    exact .inl ⟨rfl, rfl, rfl⟩
  | false =>
    -- what follows the mark
    let release : Action Unit := releaseProfiles >>= fun _ => get >>= fun host =>
      call (.shutdown host.config.diagnostics.maxTeardown)
    have marked : Path (release ⟨config, profiles, true, isPoisoned⟩) events (exit, after) := h
    have released : ∀ {xs : List Event} {ended : Exit Unit} {middle : Host},
        Path (releaseProfiles ⟨config, profiles, true, isPoisoned⟩) xs (ended, middle) →
        exchanges xs = [] ∧ ended = .value () ∧ middle = ⟨config, [], true, isPoisoned⟩ := by
      intro xs ended middle path
      obtain ⟨inner, changed, same, inside, left, -⟩ := Schedule.path_locked path
      obtain ⟨rfl, rfl, rfl⟩ := path_modify_iff.1 inside
      exact ⟨same, rfl, left nofun⟩
    rcases path_bind_iff.1 marked with ⟨before, rest, _, middle, rfl, first, told⟩ |
      ⟨_, _, first⟩ | ⟨_, first⟩
    · obtain ⟨quiet, -, rfl⟩ := released first
      have tells : Path (call (.shutdown config.diagnostics.maxTeardown)
          ⟨config, [], true, isPoisoned⟩) rest (exit, after) := told
      have only : ∀ answer, exchanges (before ++
          [⟨.call (.shutdown config.diagnostics.maxTeardown), answer⟩]) =
            [⟨.call (.shutdown config.diagnostics.maxTeardown), answer⟩] := by
        intro answer
        rw [exchanges_append, quiet]
        rfl
      obtain ⟨rfl, ⟨reply, -, rfl⟩ | ⟨-, rfl⟩⟩ := path_call_iff.1 tells
      · exact .inr ⟨rfl, ⟨some reply, only _⟩, rfl⟩
      · exact .inr ⟨rfl, ⟨none, only _⟩, rfl⟩
    · obtain ⟨-, absurd, -⟩ := released first
      cases absurd
    · obtain ⟨-, absurd, -⟩ := released first
      cases absurd

end Host
end DocGuard
