import DocGuard.Proofs.Request.Stages
import Mathlib.Data.List.Forall2

/-! Where in its schedule a run is at each of its exchanges. A call tells the stage that it is due
at, so that the exchanges before it have passed all earlier stages. -/
namespace DocGuard.Schedule
variable {r : Request} {o : RunOptions} {k next last : Known} {stage : Stage}
  {stages first second : List Stage} {xs before rest : List Event} {e : Event} {c : Call}
  {exit : Exit Outcome}

section Passes

theorem Passes.split (h : Passes r o k (first ++ second) xs last) :
    ∃ before rest known, xs = before ++ rest ∧ Passes r o k first before known ∧
      Passes r o known second rest last := by
  induction first generalizing k xs with
  | nil => exact ⟨[], xs, k, rfl, .nil k, h⟩
  | cons stage first ih =>
    cases h with
    | cons c reply due judged h =>
      obtain ⟨before, rest, known, rfl, passed, later⟩ := ih h
      exact ⟨_, rest, known, rfl, .cons c reply due judged passed, later⟩

theorem Passes.single (h : Passes r o k [stage] xs last) :
    ∃ c reply, xs = [.replied c reply] ∧ stage.Due r o k c ∧ stage.judge k c reply = .ok last := by
  cases h with
  | cons c reply due judged h =>
    cases h
    exact ⟨c, reply, rfl, due, judged⟩

/-- An exchange on the way is the call of one of the stages. -/
theorem Passes.exists_stage (h : Passes r o k stages xs last) (mem : e ∈ xs) :
    ∃ stage ∈ stages, ∃ known c reply, e = .replied c reply ∧ stage.Due r o known c ∧
      c.failure reply = none := by
  induction h with
  | nil k => cases mem
  | @cons k next last stage stages xs c reply due judged h ih =>
    cases mem with
    | head =>
      exact ⟨stage, .head _, k, c, reply, rfl, due, Stage.failure_of_judge due judged⟩
    | tail _ mem =>
      obtain ⟨stage, among, found⟩ := ih mem
      exact ⟨stage, .tail _ among, found⟩

/-- No call of a kind is made at stages that are not for it. -/
theorem Passes.not_called {kind : Call → Bool} {suited : Stage → Bool}
    (h : Passes r o k stages xs last)
    (suits : ∀ stage known c, stage.Due r o known c → kind c = true → suited stage = true)
    (unsuited : ∀ stage ∈ stages, suited stage = false) : ∀ x ∈ xs, x.isCall kind = false := by
  intro x mem
  obtain ⟨stage, among, known, c, reply, rfl, due, -⟩ := h.exists_stage mem
  cases called : kind c with
  | false => exact called
  | true =>
    have suit := suits stage known c due called
    rw [unsuited stage among] at suit
    cases suit

/-- The flags that are known were known before, or are told on the way. -/
theorem Passes.status_told (h : Passes r o k stages xs last) :
    last.status = k.status ∨ ∃ source edits status, last.status = some status ∧
      .replied (.contentStatus source) ⟨edits, .ok status⟩ ∈ xs := by
  induction h with
  | nil k => exact .inl rfl
  | @cons k next last stage stages xs c reply due judged h ih =>
    rcases ih with same | ⟨source, edits, status, known, mem⟩
    · by_cases asks : stage = .contentStatus
      · subst asks
        obtain ⟨source, -, rfl⟩ := due
        obtain ⟨edits, answer⟩ := reply
        obtain ⟨status, told, rfl⟩ := Known.learn_eq_ok.1 judged
        cases told
        exact .inr ⟨source, edits, status, same, .head _⟩
      · exact .inl (same.trans ((Stage.judge_preserves judged).2.2 asks))
    · exact .inr ⟨source, edits, status, known, .tail _ mem⟩

/-- What is known of the document stays as it is after the stages that open it. -/
theorem Passes.preserves (h : Passes r o k stages xs last) :
    (.openSource ∉ stages → last.document = k.document) ∧
      (.outputFileName ∉ stages → last.output = k.output) ∧
      (.contentStatus ∉ stages → last.status = k.status) := by
  induction h with
  | nil k => exact ⟨fun _ => rfl, fun _ => rfl, fun _ => rfl⟩
  | cons c reply due judged h ih =>
    obtain ⟨document, output, status⟩ := Stage.judge_preserves judged
    simp only [List.mem_cons, not_or]
    exact ⟨fun ⟨other, away⟩ => (ih.1 away).trans (document (Ne.symm other)),
      fun ⟨other, away⟩ => (ih.2.1 away).trans (output (Ne.symm other)),
      fun ⟨other, away⟩ => (ih.2.2 away).trans (status (Ne.symm other))⟩

theorem mem_opening {host : Host} (h : stage ∈ opening r host) :
    stage.opens = true := by
  have all : ∀ stage ∈ [Stage.acquireToken, .consent, .loadProfile, .addEngine, .contentStatus,
      .openSource, .outputFileName, .checkRights], stage.opens = true := by
    decide
  refine all stage ?_
  simp only [Schedule.opening, engine, loading, List.mem_append] at h
  grind

theorem ofRequest_inspect {host : Host} (inspects : r.operation = .inspect) :
    ofRequest r host = [.contentStatus] := by
  rw [ofRequest, inspects]

theorem ofRequest_eq {host : Host} (mutating : r.operation ≠ .inspect) :
    ofRequest r host = opening r host ++ (change r ++ closing) := by
  rw [ofRequest, List.append_assoc]
  split
  · contradiction
  · rfl

/-- The stages up to one that is not needed to open the document begin with all that are. -/
theorem opening_passed {host : Host} {passed later : List Stage}
    (h : ofRequest r host = passed ++ stage :: later) (beyond : stage.opens = false) :
    r.operation ≠ .inspect ∧
      ∃ more, passed = opening r host ++ more ∧ change r ++ closing = more ++ stage :: later := by
  have mutating : r.operation ≠ .inspect := by
    intro inspects
    have alone : stage ∈ [Stage.contentStatus] := by
      rw [← ofRequest_inspect inspects, h]
      simp
    cases List.mem_singleton.1 alone
    cases beyond
  refine ⟨mutating, ?_⟩
  rw [ofRequest_eq mutating] at h
  rcases List.append_eq_append_iff.1 h with ⟨more, rfl, same⟩ | ⟨more, same, rest⟩
  · exact ⟨more, rfl, same⟩
  · cases more with
    | nil => exact ⟨[], by simpa using same.symm, rest.symm⟩
    | cons first more =>
      simp only [List.cons_append, List.cons.injEq] at rest
      obtain ⟨rfl, -⟩ := rest
      rw [mem_opening (show stage ∈ opening r host by rw [same]; simp)] at beyond
      cases beyond

/-- When a document is open its output path is fixed by the name that the engine proposed, and the
first question for a protection has shown that it may be exported. -/
theorem Passes.opened {host : Host} (h : Passes r o k (opening r host) xs last) :
    ∃ before d name output protection, xs = before ++ [.replied (.outputFileName d) name,
        .replied (.getProtection d) (.succeeded protection)] ∧
      (∀ x ∈ before, ∀ other, x.call? ≠ some (.getProtection other)) ∧
      OutputPath.derive name = .ok output ∧ mayExport protection = true ∧
      last.document = some d ∧ last.output = some output := by
  obtain ⟨first, rest, ready, rfl, made, h⟩ := h.split
  have quiet : ∀ x ∈ first, ∀ other, x.call? ≠ some (.getProtection other) := by
    intro x mem other called
    obtain ⟨stage, among, known, c, reply, rfl, due, -⟩ := made.exists_stage mem
    cases called
    have asks := Stage.asksProtection_of_due due
    have never : stage.asksProtection = false := by
      simp only [engine, loading, List.mem_append] at among
      grind [Stage.asksProtection]
    rw [never] at asks
    cases asks
  cases h with
  | cons c reply due judged h =>
    obtain ⟨_, _, -, -, rfl⟩ := due
    obtain ⟨d, -, rfl⟩ := Known.learn_eq_ok.1 judged
    cases h with
    | cons c name due judged h =>
      obtain ⟨_, same, rfl⟩ := due
      cases same
      obtain ⟨output, derived, rfl⟩ := Known.learn_eq_ok.1 judged
      obtain ⟨c, answer, rfl, ⟨_, same, rfl⟩, judged⟩ := h.single
      cases same
      obtain ⟨protection, rfl, allowed, rfl⟩ := Stage.judge_checkRights judged
      refine ⟨first ++ [.replied _ reply], d, name, output, protection, by simp, ?_, derived,
        allowed, rfl, rfl⟩
      intro x mem other called
      rcases List.mem_append.1 mem with mem | mem
      · exact quiet x mem other called
      · cases List.mem_singleton.1 mem
        cases called

theorem opens_of_mem_later (h : stage ∈ change r ++ closing) : stage.opens = false := by
  have all : ∀ stage ∈ change r ++ closing, stage.opens = false := by
    unfold change
    cases r.operation <;> simp [closing, Stage.opens]
  exact all stage h

/-- Behind the opening the document, its output path and its flags stay as they are. -/
theorem Passes.behind_opening {host : Host} {more later : List Stage}
    (h : Passes r o k (Schedule.opening r host ++ more) xs last)
    (behind : change r ++ closing = more ++ later) :
    ∃ before rest opened, xs = before ++ rest ∧
      Passes r o k (Schedule.opening r host) before opened ∧ Passes r o opened more rest last ∧
      last.document = opened.document ∧ last.output = opened.output ∧
      last.status = opened.status := by
  obtain ⟨before, rest, opened, rfl, first, second⟩ := h.split
  have away : ∀ stage : Stage, stage.opens = true → stage ∉ more := by
    intro stage opens mem
    have never : stage.opens = false :=
      opens_of_mem_later (by rw [behind]; exact List.mem_append_left _ mem)
    rw [opens] at never
    cases never
  obtain ⟨document, output, status⟩ := second.preserves
  exact ⟨before, rest, opened, rfl, first, second, document (away _ rfl), output (away _ rfl),
    status (away _ rfl)⟩

end Passes

section Follows

/-- A run goes through its whole schedule, or stops at one of its stages. -/
theorem Follows.ending (h : Follows r o k stages xs exit) :
    (∃ last outcome, Passes r o k stages xs last ∧ last.outcome? r.operation = some outcome ∧
        exit = .value outcome) ∨
      ∃ passed stage later before tail known, stages = passed ++ stage :: later ∧
        xs = before ++ tail ∧ Passes r o k passed before known ∧
        stage.Stops r o known tail exit := by
  induction h with
  | finish outcome => exact .inl ⟨_, _, .nil _, outcome, rfl⟩
  | @stop k stage stages xs exit stops =>
    exact .inr ⟨[], stage, stages, [], xs, k, rfl, rfl, .nil k, stops⟩
  | @pass k next stage stages xs exit c reply due judged h ih =>
    rcases ih with ⟨last, outcome, passed, done, rfl⟩ |
      ⟨passed, other, later, before, tail, known, rfl, rfl, through, stops⟩
    · exact .inl ⟨last, outcome, .cons c reply due judged passed, done, rfl⟩
    · exact .inr ⟨stage :: passed, other, later, .replied c reply :: before, tail, known, rfl, rfl,
        .cons c reply due judged through, stops⟩

/-- A call in a run is due at a stage, and all earlier stages are passed. -/
theorem Follows.split (h : Follows r o k stages (before ++ e :: rest) exit)
    (called : e.call? = some c) :
    ∃ passed stage later known, stages = passed ++ stage :: later ∧
      Passes r o k passed before known ∧ stage.Due r o known c ∧
      ((∃ reply next, e = .replied c reply ∧ stage.judge known c reply = .ok next ∧
          Follows r o next later rest exit) ∨ stage.Stops r o known (e :: rest) exit) := by
  generalize whole : before ++ e :: rest = xs at h
  induction h generalizing before with
  | finish outcome => simp at whole
  | @stop k stage stages xs exit stops =>
    subst whole
    obtain ⟨rfl, due, -⟩ := stops.call called
    exact ⟨[], stage, stages, k, rfl, .nil k, due, .inr stops⟩
  | @pass k next stage stages xs exit first reply due judged h ih =>
    cases before with
    | nil =>
      simp only [List.nil_append, List.cons.injEq] at whole
      obtain ⟨rfl, rfl⟩ := whole
      cases called
      exact ⟨[], stage, stages, k, rfl, .nil k, due, .inl ⟨reply, next, rfl, judged, h⟩⟩
    | cons head before =>
      simp only [List.cons_append, List.cons.injEq] at whole
      obtain ⟨rfl, whole⟩ := whole
      obtain ⟨passed, other, later, known, rfl, through, found⟩ := ih whole
      exact ⟨stage :: passed, other, later, known, rfl, .cons first reply due judged through, found⟩

theorem Follows.exists_stage (h : Follows r o k stages xs exit) (mem : e ∈ xs)
    (called : e.call? = some c) : ∃ stage ∈ stages, ∃ known, stage.Due r o known c := by
  obtain ⟨before, rest, rfl⟩ := List.append_of_mem mem
  obtain ⟨passed, stage, later, known, rfl, -, due, -⟩ := h.split called
  exact ⟨stage, by simp, known, due⟩

/-- There are no more calls of a kind than stages for it. -/
theorem Follows.countP_le {kind : Call → Bool} {suited : Stage → Bool}
    (h : Follows r o k stages xs exit)
    (suits : ∀ stage known c, stage.Due r o known c → kind c = true → suited stage = true) :
    xs.countP (Event.isCall kind) ≤ stages.countP suited := by
  have one : ∀ stage known c, stage.Due r o known c →
      (if kind c = true then 1 else 0) ≤ if suited stage = true then 1 else 0 := by
    intro stage known c due
    split
    case isTrue called => simp [suits stage known c due called]
    case isFalse => exact Nat.zero_le _
  induction h with
  | finish outcome => simp
  | @stop k stage stages xs exit stops =>
    rcases stops.shape with rfl | ⟨e, tail, c, rfl, called, due, quiet⟩
    · simp
    · have silent : tail.countP (Event.isCall kind) = 0 := by
        refine List.countP_eq_zero.2 fun x mem => ?_
        simp [Event.isCall, quiet x mem]
      have bound := one stage k c due
      simp only [List.countP_cons, silent, Event.isCall, called, Option.any_some]
      omega
  | @pass k next stage stages xs exit c reply due judged h ih =>
    have bound := one stage k c due
    have head : (Event.replied c reply :: xs).countP (Event.isCall kind) =
        xs.countP (Event.isCall kind) + if kind c = true then 1 else 0 :=
      List.countP_cons
    rw [head, List.countP_cons]
    omega

/-- Nothing is asked after an error, and the run ends with it. -/
theorem Follows.failure {cause : Error} (h : Follows r o k stages (before ++ e :: rest) exit)
    (failed : e.failure? = some cause) :
    ∃ c, e.call? = some c ∧ exit = .error (c.blame cause) ∧ ∀ x ∈ rest, x.call? = none := by
  obtain ⟨c, reply, rfl, failed⟩ := Event.failure?_eq_some.1 failed
  obtain ⟨passed, stage, later, known, -, -, due, ⟨_, next, same, judged, -⟩ | stops⟩ := h.split rfl
  · cases same
    rw [Stage.judge_of_failure due failed] at judged
    cases judged
  · have last : stage.Stops r o known ([] ++ .replied c reply :: rest) exit := stops
    exact ⟨c, rfl, stops.failure failed, (last.call rfl).2.2⟩

/-- The calls of a run, each due at its stage, are those of the first stages of the schedule. -/
theorem Follows.calls_prefix (h : Follows r o k stages xs exit) :
    ∃ made, made <+: stages ∧
      List.Forall₂ (fun stage c => ∃ known, stage.Due r o known c) made
        (xs.filterMap Event.call?) := by
  induction h with
  | finish outcome => exact ⟨[], List.nil_prefix, .nil⟩
  | @stop k stage stages xs exit stops =>
    rcases stops.shape with rfl | ⟨e, tail, c, rfl, called, due, quiet⟩
    · exact ⟨[], List.nil_prefix, .nil⟩
    · have silent : tail.filterMap Event.call? = [] := List.filterMap_eq_nil_iff.2 quiet
      refine ⟨[stage], ⟨stages, rfl⟩, ?_⟩
      rw [List.filterMap_cons_some called, silent]
      exact .cons ⟨k, due⟩ .nil
  | @pass k next stage stages xs exit c reply due judged h ih =>
    obtain ⟨made, ⟨later, rfl⟩, matched⟩ := ih
    refine ⟨stage :: made, ⟨later, rfl⟩, ?_⟩
    rw [List.filterMap_cons_some (Event.call?_replied c reply)]
    exact .cons ⟨k, due⟩ matched

end Follows
end DocGuard.Schedule
