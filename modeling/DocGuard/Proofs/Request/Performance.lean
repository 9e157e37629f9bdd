import DocGuard.Proofs.Host.Actions
import DocGuard.Proofs.Request.Schedule

/-! Actions against schedules. An action is local if it has no exchange with the world; it performs
stages if each of its paths goes through them or stops at one; it keeps to a schedule if each of its
paths follows that to the end. There is one rule for each way to put actions together. -/
namespace DocGuard.Schedule
open Program DocGuard.Action
variable {α β : Type}

/-- The action asks nobody, and fails with ordinary errors only. -/
def IsLocal (action : Action α) (host : Host) (post : α → Host → Prop) : Prop :=
  ∀ events exit after, Path (action host) events (exit, after) → exchanges events = [] ∧
    match exit with
    | .value value => post value after
    | .error cause => cause.isFatal = false
    | .panic => False

/-- The action goes through some stages, and is done with what it knows then; where it fails the run
stops at one of them, whatever stages come later. -/
def Performs (r : Request) (o : RunOptions) (k : Known) (stages : List Stage) (action : Action α)
    (host : Host) (post : α → Known → Host → Prop) : Prop :=
  ∀ events exit after, Path (action host) events (exit, after) →
    match exit with
    | .value value => ∃ last, Passes r o k stages (exchanges events) last ∧ post value last after
    | .error cause => ∀ later, Follows r o k (stages ++ later) (exchanges events) (.error cause)
    | .panic => ∀ later, Follows r o k (stages ++ later) (exchanges events) .panic

/-- The action follows a schedule to the end of the run. -/
def Keeps (r : Request) (o : RunOptions) (k : Known) (stages : List Stage) (action : Action Outcome)
    (host : Host) : Prop :=
  ∀ events exit after, Path (action host) events (exit, after) →
    Follows r o k stages (exchanges events) exit

/-- The library may work on its own before the first of the stages. -/
def StartWithWork (stages : List Stage) : Prop :=
  ∃ stage rest, stages = stage :: rest ∧ stage.needsWork = true

theorem StartWithWork.unready {r : Request} {o : RunOptions} {k : Known} {stages : List Stage}
    {cause : Error} (h : StartWithWork stages) (ordinary : cause.isFatal = false) :
    Follows r o k stages [] (.error cause) := by
  obtain ⟨stage, rest, rfl, work⟩ := h
  exact .stop (.unready stage cause work ordinary)

theorem StartWithWork.append {first : List Stage} (h : StartWithWork first)
    (second : List Stage) : StartWithWork (first ++ second) := by
  obtain ⟨stage, rest, rfl, work⟩ := h
  exact ⟨stage, rest ++ second, rfl, work⟩

section Local
variable {host : Host}

theorem isLocal_pure {value : α} {post : α → Host → Prop} (h : post value host) :
    IsLocal (Pure.pure value) host post := by
  intro events exit after path
  obtain ⟨rfl, rfl, rfl⟩ := path_return_iff.1 path
  exact ⟨rfl, h⟩

theorem isLocal_fail {cause : Error} {post : α → Host → Prop} (h : cause.isFatal = false) :
    IsLocal (fail cause) host post := by
  intro events exit after path
  obtain ⟨rfl, rfl, rfl⟩ := path_fail_iff.1 path
  exact ⟨rfl, h⟩

theorem isLocal_ofExcept {result : Except Error α} {post : α → Host → Prop}
    (ordinary : ∀ cause, result = .error cause → cause.isFatal = false)
    (h : ∀ value, result = .ok value → post value host) : IsLocal (ofExcept result) host post := by
  cases result with
  | ok value => exact isLocal_pure (h value rfl)
  | error cause => exact isLocal_fail (ordinary cause rfl)

theorem isLocal_get {post : Host → Host → Prop} (h : post host host) :
    IsLocal get host post := by
  intro events exit after path
  obtain ⟨rfl, rfl, rfl⟩ := path_get_iff.1 path
  exact ⟨rfl, h⟩

theorem isLocal_ofProgram {program : Program α} {post : α → Host → Prop}
    (h : ∀ events value, Path program events value → exchanges events = [] ∧ post value host) :
    IsLocal (ofProgram program) host post := by
  intro events exit after path
  obtain ⟨rfl, value, rfl, inside⟩ := path_ofProgram_iff.1 path
  exact h events value inside

theorem isLocal_bind {action : Action α} {next : α → Action β} {mid : α → Host → Prop}
    {post : β → Host → Prop} (h : IsLocal action host mid)
    (g : ∀ value middle, mid value middle → IsLocal (next value) middle post) :
    IsLocal (action >>= next) host post := by
  intro events exit after path
  rcases path_bind_iff.1 path with ⟨before, rest, value, middle, rfl, first, second⟩ |
    ⟨cause, rfl, first⟩ | ⟨rfl, first⟩
  · obtain ⟨quiet, reached⟩ := h _ _ _ first
    obtain ⟨silent, ends⟩ := g value middle reached _ _ _ second
    exact ⟨by simp [quiet, silent], ends⟩
  · exact h _ _ _ first
  · exact h _ _ _ first

end Local

section Performs
variable {r : Request} {o : RunOptions} {k : Known} {host : Host} {stage : Stage}
  {stages first second : List Stage}

theorem performs_pure {value : α} {post : α → Known → Host → Prop} (h : post value k host) :
    Performs r o k [] (Pure.pure value) host post := by
  intro events exit after path
  obtain ⟨rfl, rfl, rfl⟩ := path_return_iff.1 path
  exact ⟨k, .nil k, h⟩

theorem Performs.weaken {action : Action α} {mid post : α → Known → Host → Prop}
    (h : Performs r o k stages action host mid)
    (g : ∀ value last after, mid value last after → post value last after) :
    Performs r o k stages action host post := by
  intro events exit after path
  have reached := h events exit after path
  cases exit with
  | value value =>
    obtain ⟨last, passed, holds⟩ := reached
    exact ⟨last, passed, g value last after holds⟩
  | error cause => exact reached
  | panic => exact reached

theorem performs_bind {action : Action α} {next : α → Action β} {mid : α → Known → Host → Prop}
    {post : β → Known → Host → Prop} (h : Performs r o k first action host mid)
    (g : ∀ value last middle, mid value last middle →
      Performs r o last second (next value) middle post) :
    Performs r o k (first ++ second) (action >>= next) host post := by
  intro events exit after path
  rcases path_bind_iff.1 path with ⟨before, rest, value, middle, rfl, one, two⟩ |
    ⟨cause, rfl, one⟩ | ⟨rfl, one⟩
  · obtain ⟨known, passed, reached⟩ := h _ _ _ one
    have rest := g value known middle reached _ _ _ two
    cases exit with
    | value value =>
      obtain ⟨last, through, holds⟩ := rest
      exact ⟨last, by simpa using passed.append through, holds⟩
    | error cause =>
      intro later
      simpa using passed.follows (rest later)
    | panic =>
      intro later
      simpa using passed.follows (rest later)
  · intro later
    simpa using h _ _ _ one (second ++ later)
  · intro later
    simpa using h _ _ _ one (second ++ later)

theorem performs_local_bind {action : Action α} {next : α → Action β} {mid : α → Host → Prop}
    {post : β → Known → Host → Prop} (h : IsLocal action host mid) (work : StartWithWork stages)
    (g : ∀ value middle, mid value middle →
      Performs r o k stages (next value) middle post) :
    Performs r o k stages (action >>= next) host post := by
  intro events exit after path
  rcases path_bind_iff.1 path with ⟨before, rest, value, middle, rfl, one, two⟩ |
    ⟨cause, rfl, one⟩ | ⟨rfl, one⟩
  · obtain ⟨quiet, reached⟩ := h _ _ _ one
    simpa [quiet] using g value middle reached _ _ _ two
  · obtain ⟨quiet, ordinary⟩ := h _ _ _ one
    intro later
    rw [quiet]
    exact (work.append later).unready ordinary
  · exact (h _ _ _ one).2.elim

/-- A call is one stage. What the action does after the reply is to fit what the stage makes of it.
-/
theorem performs_call {c : Call} {next : c.Reply → Action α} {post : α → Known → Host → Prop}
    (due : stage.Due r o k c) (inner : stage ≠ .commit)
    (h : ∀ reply, (∃ known, stage.judge k c reply = .ok known ∧
        Performs r o known stages (next reply) host post) ∨
      ∃ cause, stage.judge k c reply = .error (.error cause) ∧ next reply = fail cause) :
    Performs r o k (stage :: stages) (call c >>= next) host post := by
  intro events exit after path
  rcases path_call_bind_iff.1 path with ⟨reply, rest, rfl, onward⟩ | ⟨rfl, rfl, rfl⟩
  · rcases h reply with ⟨known, judged, goes⟩ | ⟨cause, judged, fails⟩
    · have rest := goes _ _ _ onward
      cases exit with
      | value value =>
        obtain ⟨last, passed, holds⟩ := rest
        exact ⟨last, .cons c reply due judged passed, holds⟩
      | error cause => exact fun later => .pass c reply due judged (rest later)
      | panic => exact fun later => .pass c reply due judged (rest later)
    · rw [fails] at onward
      obtain ⟨rfl, rfl, rfl⟩ := path_fail_iff.1 onward
      exact fun later => .stop (.refused stage c reply _ inner due judged)
  · exact fun later => .stop (.panicked stage c due)

/-- A call whose reply is a result, of which a stage learns the value. -/
theorem performs_ask {c : Call} {result : c.Reply → Except Error α} {next : α → Known}
    (due : stage.Due r o k c) (inner : stage ≠ .commit)
    (judged : ∀ reply, stage.judge k c reply = Known.learn (result reply) next) :
    Performs r o k [stage] (call c >>= fun reply => ofExcept (result reply)) host
      fun value last after => last = next value ∧ after = host := by
  apply performs_call due inner
  intro reply
  rw [judged reply]
  cases result reply with
  | ok value => exact .inl ⟨next value, rfl, performs_pure ⟨rfl, rfl⟩⟩
  | error cause => exact .inr ⟨cause, rfl, rfl⟩

theorem keeps_bind {action : Action α} {next : α → Action Outcome} {mid : α → Known → Host → Prop}
    (h : Performs r o k first action host mid)
    (g : ∀ value last middle, mid value last middle →
      Keeps r o last second (next value) middle) :
    Keeps r o k (first ++ second) (action >>= next) host := by
  intro events exit after path
  rcases path_bind_iff.1 path with ⟨before, rest, value, middle, rfl, one, two⟩ |
    ⟨cause, rfl, one⟩ | ⟨rfl, one⟩
  · obtain ⟨known, passed, reached⟩ := h _ _ _ one
    simpa using passed.follows (g value known middle reached _ _ _ two)
  · exact h _ _ _ one second
  · exact h _ _ _ one second

theorem keeps_local_bind {action : Action α} {next : α → Action Outcome} {mid : α → Host → Prop}
    (h : IsLocal action host mid) (work : StartWithWork stages)
    (g : ∀ value middle, mid value middle → Keeps r o k stages (next value) middle) :
    Keeps r o k stages (action >>= next) host := by
  intro events exit after path
  rcases path_bind_iff.1 path with ⟨before, rest, value, middle, rfl, one, two⟩ |
    ⟨cause, rfl, one⟩ | ⟨rfl, one⟩
  · obtain ⟨quiet, reached⟩ := h _ _ _ one
    simpa [quiet] using g value middle reached _ _ _ two
  · obtain ⟨quiet, ordinary⟩ := h _ _ _ one
    rw [quiet]
    exact work.unready ordinary
  · exact (h _ _ _ one).2.elim

/-- A call is one stage also where the action may end in good order after the reply. -/
theorem keeps_call {c : Call} {next : c.Reply → Action Outcome} (due : stage.Due r o k c)
    (inner : stage ≠ .commit)
    (h : ∀ reply, (∃ known, stage.judge k c reply = .ok known ∧
        Keeps r o known stages (next reply) host) ∨
      ∃ exit, stage.judge k c reply = .error exit ∧ next reply host = .done (exit, host)) :
    Keeps r o k (stage :: stages) (call c >>= next) host := by
  intro events exit after path
  rcases path_call_bind_iff.1 path with ⟨reply, rest, rfl, onward⟩ | ⟨rfl, rfl, rfl⟩
  · rcases h reply with ⟨known, judged, goes⟩ | ⟨ending, judged, ends⟩
    · exact .pass c reply due judged (goes _ _ _ onward)
    · rw [ends] at onward
      obtain ⟨rfl, same⟩ := Path.done_iff.1 onward
      cases same
      exact .stop (.refused stage c reply _ inner due judged)
  · exact .stop (.panicked stage c due)

/-- A call whose reply is a result, of which a stage learns the value. -/
theorem keeps_ask {c : Call} {result : c.Reply → Except Error α} {learnt : α → Known}
    {next : α → Action Outcome} (due : stage.Due r o k c) (inner : stage ≠ .commit)
    (judged : ∀ reply, stage.judge k c reply = Known.learn (result reply) learnt)
    (h : ∀ value, Keeps r o (learnt value) stages (next value) host) :
    Keeps r o k (stage :: stages) (call c >>= fun reply => ofExcept (result reply) >>= next)
      host := by
  refine keeps_call due inner fun reply => ?_
  rw [judged reply]
  cases result reply with
  | ok value => exact .inl ⟨learnt value, rfl, h value⟩
  | error cause => exact .inr ⟨.error cause, rfl, rfl⟩

end Performs
end DocGuard.Schedule
