import DocGuard.Proofs.Host.Custody

/-! Calls for profiles and shutdowns on one host at the same time. A call takes its steps one by one,
each of them at once, and other calls may take steps in between. The flag of a shutdown is read in a
step of its own, before the lock of the profiles is taken, and is not read again under the lock. So a
call that was admitted before the shutdown can load a profile behind it; no other call can. -/
namespace DocGuard
open Program DocGuard.Action

/-- The next step of a call. A call for a profile reads the flag, and then looks the profile up and
loads it with the lock held. A shutdown sets the flag, releases the profiles with the lock held, and
tells the engine. -/
inductive Turn where
  | check (application : Application)
  | obtain (application : Application)
  | mark
  | release
  | tell
  | finished
  deriving DecidableEq

namespace Turn

/-- Takes the step, and tells the next one of the same call. -/
def action : Turn → Action Turn
  | check application => do
    Host.checkRunning
    ofExcept application.validate
    return .obtain application
  | obtain application => do
    let _ ← Host.locked (Host.findOrLoad application)
    return .finished
  | mark => do
    if ← Host.markShutDown then return .finished else return .release
  | release => do
    Host.releaseProfiles
    return .tell
  | tell => do
    call (.shutdown (← get).config.diagnostics.maxTeardown)
    return .finished
  | finished => return .finished

/-- Some steps of one call, with those of no other in between. -/
def alone : Nat → Turn → Action Unit
  | 0, _ => Pure.pure ()
  | n + 1, turn => turn.action >>= alone n

/-- The two steps of a call for a profile are the whole call. -/
theorem alone_check (application : Application) :
    alone 2 (check application) = Host.profile application >>= fun _ => Pure.pure () := by
  simp only [alone, action, Host.profile, Action.bind_assoc, Action.pure_bind]

private theorem alone_release : alone 2 release = (do
    Host.releaseProfiles
    call (.shutdown (← get).config.diagnostics.maxTeardown)) := by
  simp only [alone, action, Action.bind_assoc, Action.pure_bind]
  refine congrArg (Host.releaseProfiles >>= ·) (funext fun _ => ?_)
  refine congrArg (get >>= ·) (funext fun host => funext fun after => ?_)
  refine congrArg (Program.ask (.call (.shutdown host.config.diagnostics.maxTeardown)))
    (funext fun answer => ?_)
  cases answer <;> rfl

/-- The three steps of a shutdown are the whole shutdown. -/
theorem alone_mark : alone 3 mark = Host.shutdown := by
  have marked : alone 3 mark = Host.markShutDown >>= fun before =>
      (if before then (Pure.pure finished : Action Turn) else Pure.pure release) >>= alone 2 :=
    Action.bind_assoc ..
  rw [marked]
  refine congrArg (Host.markShutDown >>= ·) (funext fun before => ?_)
  cases before with
  | true => rfl
  | false => exact alone_release

/-- A call that has not begun. -/
def isStart : Turn → Bool
  | check _ | mark => true
  | _ => false

/-- A call for a profile that read the flag and did not yet take the lock. -/
def isAdmitted : Turn → Bool
  | obtain _ => true
  | _ => false

/-- A shutdown that set the flag and did not yet release the profiles. -/
def isReleasing : Turn → Bool
  | release => true
  | _ => false

/-- A shutdown that set the flag and did not yet tell the engine. -/
def isClosing : Turn → Bool
  | release | tell => true
  | _ => false

end Turn

def Call.loads : Call → Bool
  | loadProfile _ => true
  | _ => false

/-- A call ends with its value, its error or its panic. -/
def Exit.next : Exit Turn → Turn
  | .value turn => turn
  | _ => .finished

/-- All that a step can do: its exchanges, the next step of the call, and the host behind it. -/
inductive Turn.Does (host : Host) : Turn → List Event → Turn → Host → Prop where
  | refused (application : Application) : Does host (check application) [] finished host
  | admitted (application : Application) : host.isShutDown = false →
      Does host (check application) [] (obtain application) host
  | obtained (application : Application) (xs : List Event) (after : Host) : host.Gains xs after →
      (∀ e ∈ xs, e.teardown? = none) → xs.countP (Event.isCall Call.loads) ≤ 1 →
      Does host (obtain application) xs finished after
  | marked : host.isShutDown = false → Does host mark [] release { host with isShutDown := true }
  | late : host.isShutDown = true → Does host mark [] finished host
  | released : Does host release [] tell { host with profiles := [] }
  | told (answer : Option Unit) : Does host tell
      [⟨.call (.shutdown host.config.diagnostics.maxTeardown), answer⟩] finished host
  | idle : Does host finished [] finished host

namespace Turn
variable {host after : Host} {turn : Turn} {events : List Event} {exit : Exit Turn}
  {application : Application}

private theorem does_check (path : Path ((check application).action host) events (exit, after)) :
    (check application).Does host (exchanges events) exit.next after := by
  obtain ⟨config, profiles, isShutDown, isPoisoned⟩ := host
  cases isShutDown with
  | true =>
    obtain ⟨rfl, rfl, rfl⟩ := path_fail_iff.1 path
    exact .refused application
  | false =>
    have checked : Path ((ofExcept application.validate >>= fun _ =>
        Pure.pure (obtain application)) ⟨config, profiles, false, isPoisoned⟩) events
          (exit, after) := path
    cases valid : application.validate with
    | error cause =>
      rw [valid] at checked
      obtain ⟨rfl, rfl, rfl⟩ := path_fail_iff.1 checked
      exact .refused application
    | ok _ =>
      rw [valid] at checked
      obtain ⟨rfl, rfl, rfl⟩ := path_return_iff.1 checked
      exact .admitted application rfl

private theorem countP_attempts {config : HostConfig} {xs : List Event} {ended : Exit ProfileHandle}
    (h : config.Attempts application xs ended) : xs.countP (Event.isCall Call.loads) ≤ 1 := by
  rcases attempts_shape h with ⟨-, rfl⟩ | ⟨answer, asked, load, rfl, asks, -⟩
  · exact List.countP_le_length
  · have none : asked.countP (Event.isCall Call.loads) = 0 := by
      refine List.countP_eq_zero.2 fun e mem => ?_
      simp [Event.isCall, mem_asks asks mem, Call.loads]
    rw [List.countP_append, none, Nat.zero_add]
    exact List.countP_le_length

private theorem does_obtain (path : Path ((obtain application).action host) events (exit, after)) :
    (obtain application).Does host (exchanges events) exit.next after := by
  obtain ⟨ended, locked, rfl⟩ := path_bind_return (f := fun _ => finished) path
  have last : (ended.map fun _ => finished).next = finished := by cases ended <;> rfl
  obtain ⟨inner, middle, same, inside, -, left⟩ := Schedule.path_locked locked
  rw [last, same, left]
  unfold Host.findOrLoad at inside
  rw [get_bind] at inside
  cases found : host.profiles.lookup application.id with
  | some profile =>
    simp only [found] at inside
    obtain ⟨rfl, -, rfl⟩ := path_return_iff.1 inside
    exact .obtained application [] _ ⟨rfl, rfl, (List.append_nil _).symm⟩ (by simp) (by simp)
  | none =>
    simp only [found] at inside
    obtain ⟨attempts, gains⟩ := Host.path_loadProfile inside
    rw [Host.exchanges_attempts attempts]
    refine .obtained application inner _ ⟨gains.config, gains.isShutDown, gains.profiles⟩
      (fun e mem => ?_) (countP_attempts attempts)
    cases told : e.teardown? with
    | none => rfl
    | some bound =>
      cases asksProfile_of_attempts attempts e mem _ (Event.call?_of_teardown told)

private theorem does_release (path : Path (release.action host) events (exit, after)) :
    release.Does host (exchanges events) exit.next after := by
  obtain ⟨ended, locked, rfl⟩ := path_bind_return (f := fun _ => tell) path
  obtain ⟨inner, middle, same, inside, kept, -⟩ := Schedule.path_locked locked
  obtain ⟨rfl, rfl, rfl⟩ := path_modify_iff.1 inside
  rw [same, kept nofun]
  exact .released

private theorem does_tell (path : Path (tell.action host) events (exit, after)) :
    tell.Does host (exchanges events) exit.next after := by
  have told : Path ((call (.shutdown host.config.diagnostics.maxTeardown) >>= fun _ =>
      Pure.pure finished) host) events (exit, after) := path
  obtain ⟨ended, called, rfl⟩ := path_bind_return (f := fun _ => finished) told
  have last : (ended.map fun _ => finished).next = finished := by cases ended <;> rfl
  rw [last]
  obtain ⟨rfl, ⟨reply, -, rfl⟩ | ⟨-, rfl⟩⟩ := path_call_iff.1 called
  · exact .told (some reply)
  · exact .told none

private theorem does_of_path (path : Path (turn.action host) events (exit, after)) :
    turn.Does host (exchanges events) exit.next after := by
  cases turn with
  | check application => exact does_check path
  | obtain application => exact does_obtain path
  | mark =>
    obtain ⟨config, profiles, isShutDown, isPoisoned⟩ := host
    cases isShutDown with
    | true =>
      obtain ⟨rfl, rfl, rfl⟩ := path_return_iff.1 path
      exact .late rfl
    | false =>
      obtain ⟨rfl, rfl, rfl⟩ := path_return_iff.1 path
      exact .marked rfl
  | release => exact does_release path
  | tell => exact does_tell path
  | finished =>
    obtain ⟨rfl, rfl, rfl⟩ := path_return_iff.1 path
    exact .idle

end Turn

/-- A host with the calls that are made on it, each with its next step. -/
structure Crowd where
  host : Host
  turns : List Turn

namespace Crowd

/-- One of the calls takes its next step, with whatever replies; the exchanges are told. -/
inductive Step : Crowd → List Event → Crowd → Prop where
  | take {crowd : Crowd} {place : Nat} {turn : Turn} {events : List Event} {exit : Exit Turn}
      {after : Host} : crowd.turns[place]? = some turn →
      Path (turn.action crowd.host) events (exit, after) →
      Step crowd (exchanges events) ⟨after, crowd.turns.set place exit.next⟩

/-- Any number of steps, in any order of the calls. -/
inductive Steps : Crowd → List Event → Crowd → Prop where
  | none (crowd : Crowd) : Steps crowd [] crowd
  | more {crowd next last : Crowd} {xs journal : List Event} : Step crowd xs next →
      Steps next journal last → Steps crowd (xs ++ journal) last

variable {crowd next last middle : Crowd} {xs journal : List Event}

theorem Steps.append (h : Steps crowd xs middle) (g : Steps middle journal last) :
    Steps crowd (xs ++ journal) last := by
  induction h with
  | none crowd => exact g
  | more step _ ih =>
    rw [List.append_assoc]
    exact .more step (ih g)

/-- A step is what its turn can do, and the other calls stay where they are: a kind of turns is counted
as before, less the turn that was taken and with the next one. -/
theorem Step.does (h : Step crowd xs next) : ∃ turn ∈ crowd.turns, ∃ further,
    turn.Does crowd.host xs further next.host ∧ ∀ kind : Turn → Bool,
      next.turns.countP kind + (if kind turn then 1 else 0) =
        crowd.turns.countP kind + if kind further then 1 else 0 := by
  cases h with
  | @take place turn events exit after there path =>
    obtain ⟨inside, rfl⟩ := List.getElem?_eq_some_iff.1 there
    refine ⟨_, List.getElem_mem inside, exit.next, Turn.does_of_path path, fun kind => ?_⟩
    have one : (if kind crowd.turns[place] then 1 else 0) ≤ crowd.turns.countP kind := by
      split
      case isTrue counted => exact List.countP_pos_iff.2 ⟨_, List.getElem_mem inside, counted⟩
      case isFalse => exact Nat.zero_le _
    rw [List.countP_set inside]
    omega

/-- The flag, counted: one shutdown is past it, and has told the engine or is about to. -/
def flag (crowd : Crowd) : Nat :=
  if crowd.host.isShutDown then 1 else 0

private theorem flag_le (crowd : Crowd) : crowd.flag ≤ 1 := by
  unfold flag
  split <;> decide

private theorem Step.flag_account (h : Step crowd xs next) :
    (xs.filterMap Event.teardown?).length + next.turns.countP Turn.isClosing + crowd.flag =
      crowd.turns.countP Turn.isClosing + next.flag := by
  obtain ⟨turn, -, further, does, counts⟩ := h.does
  have count := counts Turn.isClosing
  obtain ⟨host, turns⟩ := crowd
  obtain ⟨after, turns'⟩ := next
  unfold flag
  cases does with
  | obtained application _ _ gains quiet once =>
    have unclosed : xs.filterMap Event.teardown? = [] := List.filterMap_eq_nil_iff.2 quiet
    have same : after.isShutDown = host.isShutDown := gains.isShutDown
    simp only [unclosed, same, Turn.isClosing, Bool.false_eq_true, if_false, List.length_nil]
      at count ⊢
    omega
  | told answer =>
    have told : List.filterMap Event.teardown?
        [⟨.call (.shutdown host.config.diagnostics.maxTeardown), answer⟩] =
          [host.config.diagnostics.maxTeardown] := rfl
    simp only [told, Turn.isClosing, List.length_singleton] at count ⊢
    simp at count
    omega
  | refused | admitted | marked | late | released | idle =>
    simp_all [Turn.isClosing]

/-- The flag is never taken back. -/
theorem Step.isShutDown (h : Step crowd xs next) (set : crowd.host.isShutDown = true) :
    next.host.isShutDown = true := by
  obtain ⟨turn, -, further, does, -⟩ := h.does
  obtain ⟨host, turns⟩ := crowd
  obtain ⟨after, turns'⟩ := next
  cases does with
  | obtained application _ _ gains => exact gains.isShutDown.trans set
  | _ => first | exact set | rfl

private theorem Step.loads_le (h : Step crowd xs next) (set : crowd.host.isShutDown = true) :
    xs.countP (Event.isCall Call.loads) + next.turns.countP Turn.isAdmitted ≤
      crowd.turns.countP Turn.isAdmitted := by
  obtain ⟨turn, -, further, does, counts⟩ := h.does
  have count := counts Turn.isAdmitted
  obtain ⟨host, turns⟩ := crowd
  obtain ⟨after, turns'⟩ := next
  cases does with
  | obtained application _ _ gains quiet once =>
    simp only [Turn.isAdmitted, if_true, Bool.false_eq_true, if_false] at count ⊢
    omega
  | admitted application running => cases set.symm.trans running
  | told answer => simp_all [Turn.isAdmitted, Event.isCall, Event.call?, Call.loads]
  | _ => simp_all [Turn.isAdmitted]

/-- Behind the flag, where no call for a profile is admitted, the profiles are released or will be
by the shutdown that set it. -/
theorem Step.released (h : Step crowd xs next) (set : crowd.host.isShutDown = true)
    (unadmitted : crowd.turns.countP Turn.isAdmitted = 0)
    (soon : crowd.host.profiles = [] ∨ 0 < crowd.turns.countP Turn.isReleasing) :
    next.host.profiles = [] ∨ 0 < next.turns.countP Turn.isReleasing := by
  obtain ⟨turn, among, further, does, counts⟩ := h.does
  have count := counts Turn.isReleasing
  obtain ⟨host, turns⟩ := crowd
  obtain ⟨after, turns'⟩ := next
  cases does with
  | obtained application _ _ gains quiet once =>
    have admitted := List.countP_eq_zero.1 unadmitted _ among
    exact (admitted rfl).elim
  | released => exact .inl rfl
  | _ => simp_all [Turn.isReleasing]

private theorem Step.of_set (h : Step crowd xs next) (running : crowd.host.isShutDown = false)
    (set : next.host.isShutDown = true) :
    next.turns.countP Turn.isAdmitted = crowd.turns.countP Turn.isAdmitted ∧
      0 < next.turns.countP Turn.isReleasing := by
  obtain ⟨turn, -, further, does, counts⟩ := h.does
  have admitted := counts Turn.isAdmitted
  have releasing := counts Turn.isReleasing
  obtain ⟨host, turns⟩ := crowd
  obtain ⟨after, turns'⟩ := next
  cases does with
  | obtained application _ _ gains => cases (gains.isShutDown.trans running).symm.trans set
  | marked _ => simp_all [Turn.isAdmitted, Turn.isReleasing]
  | _ => cases running.symm.trans set

section Runs
variable (h : Steps crowd journal last)
include h

private theorem Steps.flag_account :
    (journal.filterMap Event.teardown?).length + last.turns.countP Turn.isClosing + crowd.flag =
      crowd.turns.countP Turn.isClosing + last.flag := by
  induction h with
  | none crowd => simp
  | more step _ ih =>
    have first := step.flag_account
    rw [List.filterMap_append, List.length_append]
    omega

theorem Steps.isShutDown (set : crowd.host.isShutDown = true) : last.host.isShutDown = true := by
  induction h with
  | none crowd => exact set
  | more step _ ih => exact ih (step.isShutDown set)

private theorem Steps.loads_le (set : crowd.host.isShutDown = true) :
    journal.countP (Event.isCall Call.loads) + last.turns.countP Turn.isAdmitted ≤
      crowd.turns.countP Turn.isAdmitted := by
  induction h with
  | none crowd => simp
  | more step _ ih =>
    have first := step.loads_le set
    have rest := ih (step.isShutDown set)
    rw [List.countP_append]
    omega

theorem Steps.released (set : crowd.host.isShutDown = true)
    (unadmitted : crowd.turns.countP Turn.isAdmitted = 0)
    (soon : crowd.host.profiles = [] ∨ 0 < crowd.turns.countP Turn.isReleasing) :
    last.host.profiles = [] ∨ 0 < last.turns.countP Turn.isReleasing := by
  induction h with
  | none crowd => exact soon
  | more step _ ih =>
    have admitted := step.loads_le set
    exact ih (step.isShutDown set) (by omega) (step.released set unadmitted soon)

end Runs

/-- However the steps of calls for profiles and of shutdowns come, the engine is told at most once
that it is to end. Behind the step that sets the flag no more profiles are loaded than calls were
admitted before it and had not taken the lock. If there are none, no profile is loaded from then on,
and once the engine is told the host has no profiles. -/
theorem Steps.shutdown_final {config : HostConfig} {calls : List Turn}
    (starts : ∀ turn ∈ calls, turn.isStart = true) (h : Steps ⟨{ config }, calls⟩ journal last) :
    (journal.filterMap Event.teardown?).length ≤ 1 ∧
      ∀ before crowd xs marked later, journal = before ++ (xs ++ later) →
        Steps ⟨{ config }, calls⟩ before crowd → Step crowd xs marked → Steps marked later last →
        crowd.host.isShutDown = false → marked.host.isShutDown = true →
        later.countP (Event.isCall Call.loads) ≤ crowd.turns.countP Turn.isAdmitted ∧
          (crowd.turns.countP Turn.isAdmitted = 0 → later.filterMap Event.teardown? ≠ [] →
            last.host.profiles = []) := by
  have opened : calls.countP Turn.isClosing = 0 := by
    refine List.countP_eq_zero.2 fun turn mem => ?_
    have start := starts turn mem
    cases turn <;> first | exact Bool.false_ne_true | cases start
  have once := h.flag_account
  have bound := last.flag_le
  refine ⟨?_, ?_⟩
  · simp only [opened] at once
    omega
  · intro before crowd xs marked later whole earlier step onward running set
    obtain ⟨same, releasing⟩ := step.of_set running set
    have loads := onward.loads_le set
    refine ⟨by omega, fun unadmitted told => ?_⟩
    have rest := onward.flag_account
    have issued := List.length_pos_iff.2 told
    have start := earlier.flag_account
    have first := step.flag_account
    have unset : crowd.flag = 0 := by simp [flag, running]
    have one : marked.flag = 1 := by simp [flag, set]
    simp only [opened] at start
    have bounded : last.turns.countP Turn.isReleasing ≤ last.turns.countP Turn.isClosing := by
      refine List.countP_mono_left fun turn _ releases => ?_
      cases turn <;> first | rfl | cases releases
    have soon := onward.released set (by omega) (.inr releasing)
    exact soon.resolve_right (by omega)

end Crowd

namespace World
variable {σ : Type}

/-- Lets the call at a place take its next step. -/
def step (w : World σ) (state : σ) (files : FileTree) (crowd : Crowd) (place : Nat) : Run σ Crowd :=
  match crowd.turns[place]? with
  | none => ⟨crowd, state, files, []⟩
  | some turn =>
    let ran := w.run state files (turn.action crowd.host)
    ⟨⟨ran.value.2, crowd.turns.set place ran.value.1.next⟩, ran.state, ran.files,
      exchanges ran.events⟩

private theorem step_of_turn (w : World σ) (state : σ) (files : FileTree) {crowd : Crowd}
    {place : Nat}
    {turn : Turn} (there : crowd.turns[place]? = some turn) :
    Crowd.Step crowd (w.step state files crowd place).events
      (w.step state files crowd place).value := by
  simp only [step, there]
  exact .take there (w.path_run _ _ _)

/-- Lets the calls take their steps in a given order, by their places. -/
def interleave (w : World σ) (state : σ) (files : FileTree) (crowd : Crowd) : List Nat → Run σ Crowd
  | [] => ⟨crowd, state, files, []⟩
  | place :: places =>
    let first := w.step state files crowd place
    let rest := w.interleave first.state first.files first.value places
    { rest with events := first.events ++ rest.events }

private theorem steps_interleave (w : World σ) (state : σ) (files : FileTree) (crowd : Crowd)
    (places : List Nat) :
    let ran := w.interleave state files crowd places
    Crowd.Steps crowd ran.events ran.value := by
  induction places generalizing state files crowd with
  | nil => exact .none crowd
  | cons place places ih =>
    cases there : crowd.turns[place]? with
    | none =>
      simp only [interleave, step, there]
      exact ih state files crowd
    | some turn => exact .more (w.step_of_turn state files there) (ih _ _ _)

end World

namespace Crowd

/-- Two calls for a profile and two shutdowns, where the flag is set between the first call and the
second. The engine is told once, and the profile is released. -/
theorem obliging_shutdown_final :
    let w := World.obliging none true
    let calls : List Turn := [.check { id := "app" }, .mark, .check { id := "app" }, .mark]
    let before := w.interleave () {} ⟨{}, calls⟩ [0, 0]
    let marked := w.step () {} before.value 1
    let later := w.interleave () {} marked.value [3, 2, 1, 1]
    let journal := before.events ++ (marked.events ++ later.events)
    (∀ turn ∈ calls, turn.isStart = true) ∧ Steps ⟨{}, calls⟩ journal later.value ∧
      before.value.host.profiles = [("app", ⟨0⟩)] ∧
      (journal.filterMap Event.teardown?).length ≤ 1 ∧ later.events.length = 1 ∧
      later.events.countP (Event.isCall Call.loads) ≤ 0 ∧ later.value.host.profiles = [] := by
  intro w calls before marked later journal
  have starts : ∀ turn ∈ calls, turn.isStart = true := by decide
  have earlier : Steps ⟨{}, calls⟩ before.events before.value := w.steps_interleave () {} _ _
  have there : before.value.turns[1]? = some .mark := by decide +kernel
  have step : Step before.value marked.events marked.value := w.step_of_turn () {} there
  have onward : Steps marked.value later.events later.value := w.steps_interleave () {} _ _
  have whole : Steps ⟨{ config := {} }, calls⟩ journal later.value := earlier.append (.more step onward)
  obtain ⟨once, behind⟩ := Steps.shutdown_final starts whole
  have none : before.value.turns.countP Turn.isAdmitted = 0 := by decide +kernel
  obtain ⟨loads, released⟩ := behind _ _ _ _ _ rfl earlier step onward (by decide +kernel)
    (by decide +kernel)
  rw [none] at loads
  exact ⟨starts, whole, by decide +kernel, once, by decide +kernel, loads,
    released none (by decide +kernel)⟩

/-- A call for a profile is admitted, then a shutdown takes all its steps, and then the call goes on:
it loads a profile when the engine was told to end, and the host keeps it. -/
theorem shutdown_not_final : ¬ ∀ (config : HostConfig) (calls : List Turn) (journal : List Event)
    (last : Crowd), (∀ turn ∈ calls, turn.isStart = true) →
    Steps ⟨{ config }, calls⟩ journal last →
    (journal.filterMap Event.teardown?).length ≤ 1 ∧
      ∀ before e later, journal = before ++ e :: later → e.teardown?.isSome = true →
        later.countP (Event.isCall Call.loads) = 0 ∧ last.host.profiles = [] := by
  intro final
  let calls : List Turn := [.check { id := "app" }, .mark]
  let ran := (World.obliging none true).interleave () {} ⟨{}, calls⟩ [0, 1, 1, 1, 0]
  have steps : Steps ⟨{}, calls⟩ ran.events ran.value :=
    (World.obliging none true).steps_interleave () {} _ _
  have told : (ran.events.head?.any fun e => e.teardown?.isSome) = true := by decide +kernel
  have kept : ran.value.host.profiles = [("app", ⟨0⟩)] := by decide +kernel
  have ends := (final {} calls ran.events ran.value (by decide) steps).2
  cases journal : ran.events with
  | nil => simp [journal] at told
  | cons e later =>
    rw [journal] at told
    have released := (ends [] e later journal (by simpa using told)).2
    rw [kept] at released
    cases released

end Crowd
end DocGuard
