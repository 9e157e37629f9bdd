import DocGuard.Proofs.Host.Custody
import DocGuard.Proofs.Request.RightsGate

/-! The profiles of a host over its whole life. The host is used in any order and as often as one
likes, its collaborators reply as they like or panic, and at the end it is dropped. -/
namespace DocGuard
open Program DocGuard.Action

namespace Application
variable {a : Application}

/-- Nothing is left of the id, the name or the version when blanks are trimmed. -/
def isBlank (a : Application) : Bool :=
  Text.isBlankText a.id || Text.isBlankText a.name || Text.isBlankText a.version

private theorem validate_of_not_blank (h : a.isBlank = false) : a.validate = .ok () := by
  simp only [isBlank, Bool.or_eq_false_iff] at h
  simp [validate, h]

private theorem validate_of_blank (h : a.isBlank = true) :
    ∃ field, a.validate = .error (.invalidArgument (.blankApplication field)) := by
  simp only [isBlank, Bool.or_eq_true] at h
  unfold validate
  split
  · exact ⟨.id, rfl⟩
  · split
    · exact ⟨.name, rfl⟩
    · split
      · exact ⟨.version, rfl⟩
      · simp_all

end Application

/-- What a host is used for. -/
inductive Use where
  | profile (application : Application)
  | task (task : Task)

/-- What a use ends with. -/
inductive Yield where
  | profile (profile : ProfileHandle)
  | answer (answer : Answer)

namespace Use

def action : Use → Action Yield
  | profile application => do return .profile (← Host.profile application)
  | task t => do return .answer (← t.action)

def owner : Use → Option String
  | task (.run r _) | task (.execute r _) | task (.executeToJson r _) | task (.describe r _) =>
    some r.applicationId
  | _ => none

end Use

/-- A use that took place, from one state of the host to the next. -/
structure Visit where
  host : Host
  use : Use
  events : List Event
  exit : Exit Yield
  after : Host

/-- Uses of one host, one after the other. -/
inductive Visits : Host → List Visit → Host → Prop where
  | nil (host : Host) : Visits host [] host
  | cons {visits : List Visit} {last : Host} (visit : Visit) :
      Path (visit.use.action visit.host) visit.events (visit.exit, visit.after) →
      Visits visit.after visits last → Visits visit.host (visit :: visits) last

def journal (visits : List Visit) : List Event :=
  visits.flatMap fun visit => exchanges visit.events

@[simp] theorem journal_nil : journal [] = [] := rfl

@[simp] theorem journal_cons (visit : Visit) (visits : List Visit) :
    journal (visit :: visits) = exchanges visit.events ++ journal visits := rfl

theorem Visits.split {host last : Host} {earlier later : List Visit} {visit : Visit}
    (h : Visits host (earlier ++ visit :: later) last) :
    Visits host earlier visit.host ∧
      Path (visit.use.action visit.host) visit.events (visit.exit, visit.after) := by
  induction earlier generalizing host with
  | nil =>
    cases h with
    | cons _ path rest => exact ⟨.nil _, path⟩
  | cons first earlier ih =>
    cases h with
    | cons _ path rest =>
      obtain ⟨before, there⟩ := ih rest
      exact ⟨.cons first path before, there⟩

theorem tends_task {task : Task} {host : Host} (h : task ≠ .shutdown) :
    Tends (Use.task task).owner task.action host := by
  cases task with
  | run r o => exact tends_bind tends_run fun _ _ _ _ => tends_pure
  | execute r o => exact tends_bind tends_execute fun _ _ _ _ => tends_pure
  | executeToJson r o => exact tends_bind tends_executeToJson fun _ _ _ _ => tends_pure
  | describe r o => exact tends_bind tends_describe fun _ _ _ _ => tends_pure
  | inspect path o => exact tends_bind tends_inspectPath fun _ _ _ _ => tends_pure
  | shutdown => exact absurd rfl h

private theorem tends_use {use : Use} {host : Host} (h : use ≠ .task .shutdown) :
    Tends use.owner use.action host := by
  cases use with
  | profile application =>
    rw [Use.action]
    exact tends_bind tends_profile fun _ _ _ _ => tends_pure
  | task t =>
    have kept : t ≠ .shutdown := by
      rintro rfl
      exact h rfl
    rw [Use.action]
    exact tends_bind (tends_task kept) fun _ _ _ _ => tends_pure

/-- The invariant of a life: how the state of a host and the exchanges so far belong together. -/
structure Sound (config : HostConfig) (journal : List Event) (host : Host) : Prop where
  same : host.config = config
  cached : host.profiles = if host.isShutDown then [] else loads journal
  order : LoadsInOrder config [] journal
  teardown : journal.filterMap Event.teardown? =
    if host.isShutDown then [config.diagnostics.maxTeardown] else []

namespace Sound
variable {config : HostConfig} {past xs events : List Event} {host after last : Host}

theorem initial : Sound config [] { config } where
  same := rfl
  cached := rfl
  order := .of_unasked (by simp)
  teardown := rfl

theorem custody {owner : Option String} (h : Sound config past host)
    (kept : Custody owner host xs after) : Sound config (past ++ xs) after := by
  have unclosed : xs.filterMap Event.teardown? = [] := List.filterMap_eq_nil_iff.2 kept.unclosed
  constructor
  · exact kept.gains.config.trans h.same
  · rw [kept.gains.profiles, h.cached, kept.gains.isShutDown, loads_append]
    cases running : host.isShutDown with
    | true => simpa using loads_of_unasked (kept.stopped running)
    | false => rfl
  · apply h.order.append
    cases running : host.isShutDown with
    | true => exact .of_unasked (kept.stopped running)
    | false =>
      have order := kept.order
      rw [h.same, h.cached, running] at order
      exact order
  · rw [List.filterMap_append, unclosed, List.append_nil, kept.gains.isShutDown]
    exact h.teardown

theorem shutdown {exit : Exit Unit} (h : Sound config past host)
    (path : Path (Host.shutdown host) events (exit, after)) :
    after.isShutDown = true ∧ Sound config (past ++ exchanges events) after := by
  rcases Host.path_shutdown path with ⟨stopped, quiet, rfl⟩ | ⟨running, ⟨answer, told⟩, rfl⟩
  · rw [quiet, List.append_nil]
    exact ⟨stopped, h⟩
  · rw [told]
    refine ⟨rfl, h.same, rfl, h.order.append (.of_unasked ?_), ?_⟩
    · simp [Event.isCall, Event.call?, Call.asksProfile]
    · rw [List.filterMap_append, h.teardown, running, h.same]
      rfl

private theorem path_closing {visit : Visit}
    (path : Path (visit.use.action visit.host) visit.events (visit.exit, visit.after))
    (closes : visit.use = .task .shutdown) :
    ∃ exit, Path (Host.shutdown visit.host) visit.events (exit, visit.after) := by
  rw [closes, Use.action] at path
  obtain ⟨answered, inner, -⟩ := path_bind_return path
  obtain ⟨exit, inside, -⟩ := path_bind_return (f := fun _ => Answer.nothing) inner
  exact ⟨exit, inside⟩

private theorem visit {visit : Visit} (h : Sound config past visit.host)
    (path : Path (visit.use.action visit.host) visit.events (visit.exit, visit.after)) :
    Sound config (past ++ exchanges visit.events) visit.after := by
  by_cases closes : visit.use = .task .shutdown
  · obtain ⟨exit, released⟩ := path_closing path closes
    exact (h.shutdown released).2
  · exact h.custody (tends_use closes _ _ _ path)

theorem visits {visits : List Visit} (h : Sound config past host) (g : Visits host visits last) :
    Sound config (past ++ journal visits) last := by
  induction g generalizing past with
  | nil host => simpa using h
  | cons visit path rest ih =>
    rw [journal_cons, ← List.append_assoc]
    exact ih (h.visit path)

end Sound

/-- What a visit does, with the exchanges before it. As long as the engine runs, the profiles are
those that were loaded. A profile that was loaded is handed out without a call, any other is tried
again; an application with a blank field and a host without engine are refused without a call. Only
what is loaded is added to the profiles, and engines are made from the profile of the application
that the visit is for. -/
structure Visit.Orderly (visit : Visit) (before : List Event) : Prop where
  cached : visit.host.profiles = if visit.host.isShutDown then [] else loads before
  reused : ∀ application profile, visit.use = .profile application → application.isBlank = false →
    visit.host.isShutDown = false → (application.id, profile) ∈ loads before →
    exchanges visit.events = [] ∧ visit.exit = .value (.profile profile)
  attempted : ∀ application, visit.use = .profile application → application.isBlank = false →
    visit.host.isShutDown = false → (∀ profile, (application.id, profile) ∉ loads before) →
    ∃ ended, visit.exit = ended.map Yield.profile ∧
      visit.host.config.Attempts application (exchanges visit.events) ended
  blank : ∀ application, visit.use = .profile application → application.isBlank = true →
    visit.host.isShutDown = false → exchanges visit.events = [] ∧
      ∃ field, visit.exit = .error (.invalidArgument (.blankApplication field))
  stopped : ∀ application, visit.use = .profile application → visit.host.isShutDown = true →
    exchanges visit.events = [] ∧ visit.exit = .error (.engine .shutDown)
  gains : visit.use ≠ .task .shutdown → visit.host.Gains (exchanges visit.events) visit.after
  engines : ∀ e ∈ exchanges visit.events, ∀ profile settings,
    e.call? = some (.addEngine profile settings) → visit.host.isShutDown = false ∧ ∃ id,
      visit.use.owner = some id ∧ (id, profile) ∈ loads (before ++ exchanges visit.events)

/-- What holds of the profiles over the life of a host, with the exchanges of its end. -/
structure ProfileLife (config : HostConfig) (visits : List Visit) (last : Host)
    (final : List Event) : Prop where
  orderly : ∀ earlier visit later, visits = earlier ++ visit :: later →
    visit.Orderly (journal earlier)
  cached : last.profiles = if last.isShutDown then [] else loads (journal visits)
  order : LoadsInOrder config [] (journal visits ++ final)
  once : ((loads (journal visits ++ final)).map Prod.fst).Nodup
  atMostOnce : ((journal visits).filterMap Event.teardown?).length ≤ 1
  teardown : (journal visits ++ final).filterMap Event.teardown? =
    [config.diagnostics.maxTeardown]

namespace Sound
variable {config : HostConfig} {past final : List Event} {host last gone : Host} {visit : Visit}

/-- How a request for a profile goes. -/
theorem path_profile {application : Application}
    (path : Path (visit.use.action visit.host) visit.events (visit.exit, visit.after))
    (asks : visit.use = .profile application) :
    ∃ ended, visit.exit = ended.map Yield.profile ∧
      visit.host.Provides application (exchanges visit.events) ended := by
  rw [asks, Use.action] at path
  obtain ⟨ended, inside, same⟩ := path_bind_return path
  exact ⟨ended, same, (Host.path_profile inside).1⟩

private theorem orderly (h : Sound config past visit.host)
    (path : Path (visit.use.action visit.host) visit.events (visit.exit, visit.after)) :
    visit.Orderly past := by
  constructor
  · exact h.cached
  · intro application profile asks filled running loaded
    obtain ⟨ended, same, provides⟩ := path_profile path asks
    have found : visit.host.profiles.lookup application.id = some profile := by
      rw [h.cached, running]
      exact lookup_of_mem h.order.once loaded
    obtain ⟨quiet, rfl⟩ :=
      provides.of_cached running (Application.validate_of_not_blank filled) found
    exact ⟨quiet, same⟩
  · intro application asks filled running unloaded
    obtain ⟨ended, same, provides⟩ := path_profile path asks
    have fresh : visit.host.profiles.lookup application.id = none := by
      refine Option.eq_none_iff_forall_ne_some.2 fun profile found => ?_
      rw [h.cached, running] at found
      exact unloaded profile (mem_of_lookup found)
    exact ⟨ended, same,
      provides.of_fresh running (Application.validate_of_not_blank filled) fresh⟩
  · intro application asks blank running
    obtain ⟨ended, same, provides⟩ := path_profile path asks
    obtain ⟨field, invalid⟩ := Application.validate_of_blank blank
    obtain ⟨quiet, rfl⟩ := provides.of_invalid running invalid
    exact ⟨quiet, field, same⟩
  · intro application asks stopped
    obtain ⟨ended, same, provides⟩ := path_profile path asks
    obtain ⟨quiet, rfl⟩ := provides.of_stopped stopped
    exact ⟨quiet, same⟩
  · intro stays
    exact (tends_use stays _ _ _ path).gains
  · intro e mem profile settings called
    have stays : visit.use ≠ .task .shutdown := by
      intro closes
      obtain ⟨exit, released⟩ := path_closing path closes
      rcases Host.path_shutdown released with ⟨-, quiet, -⟩ | ⟨-, ⟨answer, told⟩, -⟩
      · simp [quiet] at mem
      · rw [told] at mem
        cases List.mem_singleton.1 mem
        cases called
    have kept := tends_use stays _ _ _ path
    obtain ⟨id, same, found⟩ := kept.engines e mem profile settings called
    have after := (h.custody kept).cached
    rw [after, kept.gains.isShutDown] at found
    cases running : visit.host.isShutDown with
    | true => simp [running] at found
    | false =>
      rw [running] at found
      exact ⟨rfl, id, same, mem_of_lookup found⟩

end Sound

/-- Over the life of a host each profile is loaded at most once, with consent, and is handed out as
long as the engine runs. The engine is told once, with the configured bound, that it is to end. -/
theorem Visits.profileLife {config : HostConfig} {visits : List Visit} {last gone : Host}
    {final : List Event} {exit : Exit Unit} (life : Visits { config } visits last)
    (dropped : Path (Host.shutdown last) final (exit, gone)) :
    ProfileLife config visits last (exchanges final) := by
  have sound : Sound config (journal visits) last := by
    simpa using Sound.initial.visits life
  obtain ⟨stopped, ended⟩ := sound.shutdown dropped
  constructor
  · rintro earlier visit later rfl
    obtain ⟨before, path⟩ := life.split
    have there : Sound config (journal earlier) visit.host := by
      simpa using Sound.initial.visits before
    exact there.orderly path
  · exact sound.cached
  · exact ended.order
  · exact ended.order.once
  · rw [sound.teardown]
    split <;> simp
  · simpa [stopped] using ended.teardown

/-- A life in a world, with the state that it leaves. -/
structure Life (σ : Type) where
  visits : List Visit
  host : Host
  state : σ
  files : FileTree

namespace World
variable {σ : Type}

/-- Uses a host in a world, one use after the other. -/
def live (w : World σ) (host : Host) (state : σ) (files : FileTree) : List Use → Life σ
  | [] => ⟨[], host, state, files⟩
  | use :: uses =>
    let run := w.run state files (use.action host)
    let rest := w.live run.value.2 run.state run.files uses
    { rest with visits := ⟨host, use, run.events, run.value.1, run.value.2⟩ :: rest.visits }

private theorem path_action {α : Type} (w : World σ) (state : σ) (files : FileTree)
    (action : Action α)
    (host : Host) :
    Path (action host) (w.run state files (action host)).events
      ((w.run state files (action host)).value.1, (w.run state files (action host)).value.2) :=
  w.path_run state files (action host)

private theorem visits_live (w : World σ) (host : Host) (state : σ) (files : FileTree)
    (uses : List Use) :
    Visits host (w.live host state files uses).visits (w.live host state files uses).host := by
  induction uses generalizing host state files with
  | nil => exact .nil host
  | cons use uses ih => exact .cons ⟨host, use, _, _, _⟩ (w.path_run state files _) (ih _ _ _)

/-- Collaborators that end the first attempts to load a profile in all other ways before one
succeeds. The state counts the attempts. -/
def reluctant : World Nat where
  reply := fun attempts files c =>
    match c with
    | .loadProfile _ =>
      match attempts with
      | 0 => (some (.failed .cancelled), 1, files)
      | 1 => (some .dropped, 2, files)
      | 2 => (none, 3, files)
      | n => (some (.succeeded ⟨n⟩), n + 1, files)
    | .consent _ => (some (if attempts = 0 then .reject else .accept), attempts, files)
    | other => (((obliging none true).reply () files other).1, attempts, files)
  time := fun _ => ⟨0⟩

end World

/-- A life with three attempts that fail, a workflow that loads the profile, two hits, a blank
application, and a shutdown before the end. -/
theorem reluctant_profileLife :
    let app : Use := .profile { id := "app" }
    let task := Task.execute ((Request.deleteLabel "a.docx" "app" {}).withToken "token") {}
    let config : HostConfig := { consent := .provider }
    let uses := [app, app, app, .task task, app, .profile { id := "app", name := " " },
      .task .shutdown, app, .task .shutdown]
    let life := World.reluctant.live { config } 0 {} uses
    let drop := World.reluctant.run life.state life.files (Host.shutdown life.host)
    (journal life.visits).countP (Event.isCall Call.asksProfile) = 8 ∧
      loads (journal life.visits) = [("app", ⟨3⟩)] ∧
      ProfileLife config life.visits life.host (exchanges drop.events) := by
  intro app task config uses life drop
  have lived := World.reluctant.visits_live { config } 0 {} uses
  have dropped := World.reluctant.path_action life.state life.files Host.shutdown life.host
  exact ⟨by decide +kernel, by decide +kernel, lived.profileLife dropped⟩

end DocGuard
