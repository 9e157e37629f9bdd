import DocGuard.Proofs.Request.Course
import Mathlib.Data.List.Basic

/-! The commit protocol: what comes before the one commit of a run and what after it, and how the
outcome of the run tells of it. -/
namespace DocGuard

/-- The flags show nothing to remove, so that an unprotection ends before its change. -/
structure ShownUnprotected (r : Request) (xs : List Event) : Prop where
  unprotects : r.operation = .unprotect
  succeeded : ∀ x ∈ xs, x.failure? = none
  shown : ∃ source edits status, .replied (.contentStatus source) ⟨edits, .ok status⟩ ∈ xs ∧
    status.isProtected = false ∧ status.hasProtectedObjects = false
  opened : ∃ before d protection, mayExport protection = true ∧
    xs = before ++ [.replied (.getProtection d) (.succeeded protection)]
  unchanged : ∀ x ∈ xs, x.isCall Call.isMutating = false
  unwritten : ∀ x ∈ xs, x.isCall Call.isCommit = false

/-- The engine tells that the document is not modified, so that it is not written. -/
structure FoundUnmodified (xs : List Event) : Prop where
  succeeded : ∀ x ∈ xs, x.failure? = none
  found : ∃ before d, xs = before ++ [.replied (.isModified d) false]
  unwritten : ∀ x ∈ xs, x.isCall Call.isCommit = false

/-- The commit protocol between the exchanges of a run and its end. A panic of the engine is no end
in the sense of the protocol. -/
structure CommitProtocol (r : Request) (xs : List Event) (exit : Exit Outcome) : Prop where
  once : xs.countP (Event.isCall Call.isCommit) ≤ 1
  changedOnce : xs.countP (Event.isCall Call.isMutating) ≤ 1
  prepared : ∀ before e rest d p, xs = before ++ e :: rest → e.call? = some (.commit d p) →
    ∃ first second name change reply, before =
        first ++ .replied (.outputFileName d) name :: second ++
          [.replied change reply, .replied (.isModified d) true] ∧
      OutputPath.derive name = .ok p ∧ change.isMutating = true ∧ change.altered = some d ∧
      change.failure reply = none ∧ ∀ x ∈ first ++ second, x.isCall Call.isMutating = false
  notified : ∀ before rest d p, xs = before ++ .replied (.commit d p) (.succeeded true) :: rest →
    ∃ e, rest = [e] ∧ e.call? = some (.notifyCommit d r.source)
  notifiedOnly : ∀ before e rest d s, xs = before ++ e :: rest →
    e.call? = some (.notifyCommit d s) → s = r.source ∧ rest = [] ∧
      ∃ first p, before = first ++ [.replied (.commit d p) (.succeeded true)]
  committed : ∀ p, exit = .value (.committed p) ↔ exit ≠ .panic ∧
    ∃ before rest d, xs = before ++ .replied (.commit d p) (.succeeded true) :: rest
  noChange : ∀ reason, exit = .value (.noChange reason) ↔
    reason = Outcome.notProtected ∧ ShownUnprotected r xs ∨
      reason = Outcome.nothingToCommit ∧ FoundUnmodified xs
  kinds : ∀ outcome, exit = .value outcome →
    (r.operation = .inspect ↔ ∃ status, outcome = .inspected status)

namespace Schedule
variable {r : Request} {o : RunOptions} {k next last : Known} {host : Host} {stage : Stage}
  {stages more later : List Stage} {xs before rest : List Event} {e : Event} {c : Call}
  {d : DocumentHandle} {p : String} {exit : Exit Outcome}

section Positions

private theorem closing_position {front back : List Stage}
    (whole : closing = front ++ stage :: back)
    (h : change r ++ closing = more ++ stage :: later) :
    more = change r ++ front ∧ later = back := by
  have away : ∀ stage ∈ closing, stage ∉ change r := by
    unfold change closing
    cases r.operation <;> simp
  have once : closing.Nodup := by decide
  rw [whole] at once
  have absent : stage ∉ change r ++ front := by
    have other := away stage (by simp [whole])
    grind [List.nodup_append, List.nodup_cons]
  have last : stage ∉ back := by
    grind [List.nodup_append, List.nodup_cons]
  rw [whole, ← List.append_assoc] at h
  obtain ⟨rfl, -, rfl⟩ := (List.append_cons_inj_of_notMem absent last).1 h
  exact ⟨rfl, rfl⟩

private theorem closing_passed {front back passed : List Stage}
    (place : closing = front ++ stage :: back)
    (h : ofRequest r host = passed ++ stage :: later) :
    r.operation ≠ .inspect ∧ passed = opening r host ++ (change r ++ front) ∧ later = back := by
  have beyond : stage.opens = false := opens_of_mem_later (r := r) (by simp [place])
  obtain ⟨mutating, more, rfl, behind⟩ := opening_passed h beyond
  obtain ⟨rfl, rfl⟩ := closing_position place behind
  exact ⟨mutating, rfl, rfl⟩

private theorem removal_position (h : change r ++ closing = more ++ .removeProtection :: later) :
    r.operation = .unprotect ∧ more = [] := by
  have mem : Stage.removeProtection ∈ change r ++ closing := by simp [h]
  unfold change at h mem
  cases operation : r.operation with
  | unprotect =>
    rw [operation] at h
    cases more with
    | nil => exact ⟨rfl, rfl⟩
    | cons first more =>
      have again : closing = more ++ .removeProtection :: later := (List.cons.inj h).2
      have mem : Stage.removeProtection ∈ closing := by simp [again]
      simp [closing] at mem
  | inspect | protect => simp [operation, closing] at mem
  | setLabel id options => simp [operation, closing] at mem
  | deleteLabel options => simp [operation, closing] at mem

private theorem rights_position {passed : List Stage} (mutating : r.operation ≠ .inspect)
    (h : ofRequest r host = passed ++ .checkRights :: later) : later = change r ++ closing := by
  have absent : Stage.checkRights ∉ engine r host ++
      (if r.operation = .unprotect then [.contentStatus] else []) ++
        [.openSource, .outputFileName] := by
    simp only [engine, loading, List.mem_append]
    grind
  have last : Stage.checkRights ∉ change r ++ closing := by
    intro mem
    have never := opens_of_mem_later mem
    cases never
  rw [ofRequest_eq mutating] at h
  have whole : (engine r host ++ (if r.operation = .unprotect then [.contentStatus] else []) ++
      [.openSource, .outputFileName]) ++ .checkRights :: (change r ++ closing) =
        passed ++ .checkRights :: later := by
    rw [← h, opening]
    simp
  exact ((List.append_cons_inj_of_notMem absent last).1 whole).2.2.symm

private theorem change_eq (mutating : r.operation ≠ .inspect) :
    ∃ lookups stage, change r = lookups ++ [stage] ∧ stage.changes = true ∧
      ∀ other ∈ lookups, other.changes = false := by
  unfold change
  cases operation : r.operation with
  | inspect => exact (mutating operation).elim
  | unprotect => exact ⟨[], _, rfl, rfl, nofun⟩
  | protect => exact ⟨[.openReference _, .referencePolicy _], _, rfl, rfl, by simp [Stage.changes]⟩
  | setLabel id options => exact ⟨[.labelById id], _, rfl, rfl, by simp [Stage.changes]⟩
  | deleteLabel options => exact ⟨[], _, rfl, rfl, nofun⟩

private theorem Passes.not_mutating (h : Passes r o k stages xs last)
    (quiet : ∀ stage ∈ stages, stage.changes = false) :
    ∀ x ∈ xs, x.isCall Call.isMutating = false :=
  h.not_called (fun _ _ _ => Stage.due_mutating) quiet

/-- When the change is made the output path was fixed before it, and it was the only one. -/
theorem Passes.changed (h : Passes r o k (opening r host ++ change r) xs last)
    (mutating : r.operation ≠ .inspect) :
    ∃ first second name c reply d output, xs =
        first ++ .replied (.outputFileName d) name :: second ++ [.replied c reply] ∧
      OutputPath.derive name = .ok output ∧ c.isMutating = true ∧ c.altered = some d ∧
      c.failure reply = none ∧ (∀ x ∈ first ++ second, x.isCall Call.isMutating = false) ∧
      last.document = some d ∧ last.output = some output := by
  obtain ⟨_, _, known, rfl, opening, changing, document, named, -⟩ := h.behind_opening rfl
  obtain ⟨lookups, stage, whole, changes, looks⟩ := change_eq mutating
  have preliminary := opening.not_mutating fun _ mem => Stage.changes_of_opens (mem_opening mem)
  obtain ⟨start, d, name, output, protection, rfl, -, derived, -, opens, fixed⟩ := opening.opened
  rw [whole] at changing
  obtain ⟨between, _, ready, rfl, looking, altering⟩ := changing.split
  have searching := looking.not_mutating looks
  have away : Stage.openSource ∉ lookups := by
    intro mem
    have never : Stage.openSource.opens = false :=
      opens_of_mem_later (r := r) (by rw [whole]; simp [mem])
    cases never
  obtain ⟨c, reply, rfl, due, judged⟩ := altering.single
  obtain ⟨mutates, other, same, altered⟩ := Stage.due_changes due changes
  cases same.symm.trans ((looking.preserves.1 away).trans opens)
  refine ⟨start, .replied (.getProtection d) (.succeeded protection) :: between, name, c, reply, d,
    output, by simp, derived, mutates, altered, Stage.failure_of_judge due judged, ?_,
    document.trans opens, named.trans fixed⟩
  intro x mem
  simp only [List.mem_append, List.mem_cons] at mem
  rcases mem with mem | rfl | mem
  · exact preliminary x (by simp [mem])
  · rfl
  · exact searching x mem

end Positions

section Protocol

/-- A commit that succeeds writes the document to the path that was fixed for it. -/
theorem Passes.written
    (h : Passes r o k (opening r host ++ (change r ++ [.isModified, .commit])) xs last) :
    ∃ first d p, xs = first ++ [.replied (.commit d p) (.succeeded true)] ∧
      last.document = some d ∧ last.output = some p := by
  rw [show opening r host ++ (change r ++ [.isModified, .commit]) =
    (opening r host ++ (change r ++ [.isModified])) ++ [.commit] by simp] at h
  obtain ⟨first, _, known, rfl, -, commits⟩ := h.split
  obtain ⟨c, reply, rfl, ⟨d, p, document, output, rfl⟩, judged⟩ := commits.single
  obtain ⟨rfl, rfl⟩ := Stage.judge_commit judged
  exact ⟨first, d, p, rfl, document, output⟩

theorem Follows.prepared (h : Follows r o k (ofRequest r host) (before ++ e :: rest) exit)
    (called : e.call? = some (.commit d p)) :
    ∃ first second name change reply, before =
        first ++ .replied (.outputFileName d) name :: second ++
          [.replied change reply, .replied (.isModified d) true] ∧
      OutputPath.derive name = .ok p ∧ change.isMutating = true ∧ change.altered = some d ∧
      change.failure reply = none ∧ ∀ x ∈ first ++ second, x.isCall Call.isMutating = false := by
  obtain ⟨passed, stage, later, known, whole, passes, due, -⟩ := h.split called
  obtain ⟨rfl, document, output⟩ := Stage.due_commit due
  have place : closing = [.isModified] ++ .commit :: [.notifyCommit] := rfl
  obtain ⟨mutating, rfl, -⟩ := closing_passed place whole
  rw [← List.append_assoc] at passes
  obtain ⟨_, _, ready, rfl, changed, asks⟩ := passes.split
  obtain ⟨first, second, name, c, reply, other, path, rfl, derived, mutates, altered, succeeds,
    quiet, opens, fixed⟩ := changed.changed mutating
  obtain ⟨_, answer, rfl, ⟨asked, same, rfl⟩, judged⟩ := asks.single
  obtain ⟨rfl, rfl⟩ := Stage.judge_isModified judged
  cases document.symm.trans same
  cases document.symm.trans opens
  cases output.symm.trans fixed
  exact ⟨first, second, name, c, reply, by simp, derived, mutates, altered, succeeds, quiet⟩

theorem outcome?_of_mutating {operation : Operation} (mutating : operation ≠ .inspect) :
    k.outcome? operation = k.output.map .committed := by
  cases operation <;> first | rfl | contradiction

/-- The engine is told of the file at last, and the run ends with the outcome. -/
theorem Follows.told (h : Follows r o k [.notifyCommit] xs exit) (document : k.document = some d) :
    (∃ e, xs = [e] ∧ e.call? = some (.notifyCommit d r.source)) ∧
      (exit ≠ .panic → ∃ outcome, k.outcome? r.operation = some outcome ∧
        exit = .value outcome) := by
  cases h with
  | stop stops =>
    cases stops with
    | unready _ cause work => cases work
    | panicked _ c due =>
      obtain ⟨_, known, rfl⟩ := due
      cases document.symm.trans known
      exact ⟨⟨_, rfl, rfl⟩, fun ended => (ended rfl).elim⟩
    | refused _ c reply exit inner due judged =>
      obtain ⟨_, -, rfl⟩ := due
      cases judged
  | pass c reply due judged h =>
    obtain ⟨_, known, rfl⟩ := due
    cases document.symm.trans known
    cases judged
    cases h with
    | finish outcome => exact ⟨⟨_, rfl, rfl⟩, fun _ => ⟨_, outcome, rfl⟩⟩

theorem Follows.notified
    (h : Follows r o k (ofRequest r host)
      (before ++ .replied (.commit d p) (.succeeded true) :: rest) exit) :
    (∃ e, rest = [e] ∧ e.call? = some (.notifyCommit d r.source)) ∧
      (exit ≠ .panic → exit = .value (.committed p)) := by
  obtain ⟨passed, stage, later, known, whole, passes, due, ends⟩ := h.split rfl
  obtain ⟨rfl, document, output⟩ := Stage.due_commit due
  have place : closing = [.isModified] ++ .commit :: [.notifyCommit] := rfl
  obtain ⟨mutating, -, rfl⟩ := closing_passed place whole
  rcases ends with ⟨_, next, same, judged, follows⟩ | stops
  · cases same
    obtain ⟨-, rfl⟩ := Stage.judge_commit judged
    obtain ⟨last, ends⟩ := follows.told document
    refine ⟨last, fun ended => ?_⟩
    obtain ⟨outcome, known, rfl⟩ := ends ended
    rw [outcome?_of_mutating mutating, output] at known
    cases known
    rfl
  · cases stops with
    | refused _ c reply exit inner => exact (inner rfl).elim
    | commitFailed d output reply cause found due failed => cases failed

private theorem Follows.notifiedOnly {s : String}
    (h : Follows r o k (ofRequest r host) (before ++ e :: rest) exit)
    (called : e.call? = some (.notifyCommit d s)) : s = r.source ∧ rest = [] ∧
      ∃ first p, before = first ++ [.replied (.commit d p) (.succeeded true)] := by
  obtain ⟨passed, stage, later, known, whole, passes, due, ends⟩ := h.split called
  obtain ⟨rfl, document, rfl⟩ := Stage.due_notifyCommit due
  have place : closing = [.isModified, .commit] ++ .notifyCommit :: [] := rfl
  obtain ⟨-, rfl, rfl⟩ := closing_passed place whole
  obtain ⟨first, other, p, rfl, opened, -⟩ := passes.written
  cases document.symm.trans opened
  refine ⟨rfl, ?_, first, p, rfl⟩
  rcases ends with ⟨_, next, rfl, judged, follows⟩ | stops
  · cases follows
    rfl
  · cases stops <;> rfl

/-- A run that ends well went through its schedule, or found that nothing is to be done. -/
theorem Follows.value {outcome : Outcome}
    (h : Follows r o k (ofRequest r host) xs (.value outcome)) :
    (∃ last, Passes r o k (ofRequest r host) xs last ∧
        last.outcome? r.operation = some outcome) ∨
      (∃ known status, r.operation = .unprotect ∧ Passes r o k (opening r host) xs known ∧
        known.status = some status ∧ status.needsUnprotect = false ∧
        outcome = .noChange Outcome.notProtected) ∨
      ∃ before d known, xs = before ++ [.replied (.isModified d) false] ∧
        r.operation ≠ .inspect ∧ Passes r o k (opening r host ++ change r) before known ∧
        outcome = .noChange Outcome.nothingToCommit := by
  rcases h.ending with ⟨last, _, passed, known, same⟩ |
    ⟨passed, stage, later, before, tail, known, whole, rfl, passes, stops⟩
  · cases same
    exact .inl ⟨last, passed, known⟩
  · cases stops with
    | idle status flags needed =>
      obtain ⟨mutating, more, rfl, behind⟩ := opening_passed whole rfl
      obtain ⟨unprotects, rfl⟩ := removal_position behind
      rw [List.append_nil] at passes ⊢
      exact .inr (.inl ⟨known, status, unprotects, passes, flags, needed, rfl⟩)
    | refused _ c reply exit inner due judged =>
      obtain ⟨rfl, rfl, d, same⟩ := Stage.judge_eq_value judged
      have place : closing = [] ++ .isModified :: [.commit, .notifyCommit] := rfl
      obtain ⟨mutating, rfl, -⟩ := closing_passed place whole
      rw [List.append_nil] at passes
      rw [same]
      exact .inr (.inr ⟨before, d, known, rfl, mutating, passes, rfl⟩)

private theorem Follows.commit_once (h : Follows r o k (ofRequest r host) xs exit) :
    xs.countP (Event.isCall Call.isCommit) ≤ 1 := by
  refine Nat.le_trans (h.countP_le fun _ _ _ => Stage.due_writing) ?_
  by_cases inspects : r.operation = .inspect
  · rw [ofRequest_inspect inspects]
    decide
  · have early : (opening r host).countP Stage.writes = 0 :=
      List.countP_eq_zero.2 fun stage mem => by simp [Stage.writes_of_opens (mem_opening mem)]
    have middle : (change r).countP Stage.writes = 0 := by
      unfold change
      cases r.operation <;> simp [Stage.writes]
    rw [ofRequest_eq inspects, List.countP_append, List.countP_append, early, middle]
    decide

private theorem Follows.changed_once (h : Follows r o k (ofRequest r host) xs exit) :
    xs.countP (Event.isCall Call.isMutating) ≤ 1 := by
  refine Nat.le_trans (h.countP_le fun _ _ _ => Stage.due_mutating) ?_
  by_cases inspects : r.operation = .inspect
  · rw [ofRequest_inspect inspects]
    decide
  · obtain ⟨lookups, stage, whole, -, looks⟩ := change_eq inspects
    have early : (opening r host).countP Stage.changes = 0 :=
      List.countP_eq_zero.2 fun stage mem => by
        simp [Stage.changes_of_opens (mem_opening mem)]
    have middle : lookups.countP Stage.changes = 0 :=
      List.countP_eq_zero.2 fun stage mem => by simp [looks stage mem]
    have late : closing.countP Stage.changes = 0 := by decide
    rw [ofRequest_eq inspects, whole, List.countP_append, List.countP_append, List.countP_append,
      early, middle, late]
    simp only [List.countP_cons, List.countP_nil]
    split <;> omega

theorem Passes.succeeded (h : Passes r o k stages xs last) : ∀ x ∈ xs, x.failure? = none := by
  intro x mem
  obtain ⟨_, -, _, c, reply, rfl, -, succeeds⟩ := h.exists_stage mem
  exact succeeds

private theorem Passes.not_commit (h : Passes r o k stages xs last) (away : .commit ∉ stages) :
    ∀ x ∈ xs, x.isCall Call.isCommit = false := by
  refine h.not_called (fun _ _ _ => Stage.due_writing) fun stage mem => ?_
  cases stage <;> first | rfl | exact (away mem).elim

private theorem Follows.shownUnprotected {known : Known} {status : Status} (fresh : k.status = none)
    (unprotects : r.operation = .unprotect) (h : Passes r o k (opening r host) xs known)
    (flags : known.status = some status) (needed : status.needsUnprotect = false) :
    ShownUnprotected r xs where
  unprotects := unprotects
  succeeded := h.succeeded
  shown := by
    rcases h.status_told with same | ⟨source, edits, told, same, mem⟩
    · rw [flags, fresh] at same
      cases same
    · cases flags.symm.trans same
      simp only [Status.needsUnprotect, Bool.or_eq_false_iff] at needed
      exact ⟨source, edits, status, mem, needed.1, needed.2⟩
  opened := by
    obtain ⟨start, d, name, output, protection, rfl, -, -, allowed, -⟩ := h.opened
    exact ⟨start ++ [.replied (.outputFileName d) name], d, protection, allowed, by simp⟩
  unchanged := h.not_mutating fun _ mem => Stage.changes_of_opens (mem_opening mem)
  unwritten := by
    refine h.not_commit fun mem => ?_
    have opens := mem_opening mem
    cases opens

private theorem Follows.noChange_of_shown (shown : ShownUnprotected r xs)
    (h : Follows r o k (ofRequest r host) xs exit) :
    exit = .value (.noChange Outcome.notProtected) := by
  obtain ⟨before, d, protection, allowed, rfl⟩ := shown.opened
  obtain ⟨passed, stage, later, known, whole, -, due, ends⟩ := h.split rfl
  have mutating : r.operation ≠ .inspect := by simp [shown.unprotects]
  have checks : stage = .checkRights := by
    have asks := Stage.asksProtection_of_due due
    have among : stage ∈ ofRequest r host := by simp [whole]
    rw [ofRequest_eq mutating] at among
    rcases List.mem_append.1 among with early | late
    · have opens := mem_opening early
      cases stage <;> simp_all [Stage.opens, Stage.asksProtection]
    · simp only [change, shown.unprotects, closing, List.mem_append, List.mem_cons,
        List.not_mem_nil, or_false] at late
      rcases late with rfl | rfl | rfl | rfl <;> cases asks
  subst checks
  obtain rfl := rights_position mutating whole
  have accepts := Stage.judge_of_mayExport (k := known) (d := d) allowed
  rcases ends with ⟨_, next, same, judged, follows⟩ | stops
  · simp only [change, shown.unprotects] at follows
    cases follows with
    | stop stops =>
      cases stops with
      | unready _ cause work => cases work
      | idle => rfl
  · cases stops with
    | refused _ c reply exit inner due judged =>
      rw [accepts] at judged
      cases judged

private theorem Follows.noChange_of_found (found : FoundUnmodified xs)
    (h : Follows r o k (ofRequest r host) xs exit) :
    exit = .value (.noChange Outcome.nothingToCommit) := by
  obtain ⟨before, d, rfl⟩ := found.found
  obtain ⟨passed, stage, later, known, -, -, due, ends⟩ := h.split rfl
  obtain ⟨rfl, -⟩ := Stage.due_isModified due
  rcases ends with ⟨_, next, same, judged, -⟩ | stops
  · cases same
    cases judged
  · cases stops with
    | refused _ c reply exit inner due judged =>
      cases judged
      rfl

/-- An outcome at the end of the schedule is what the operation is for. -/
theorem Follows.committed
    (h : Follows r o k (ofRequest r host) xs (.value (.committed p))) :
    ∃ before rest d, xs = before ++ .replied (.commit d p) (.succeeded true) :: rest := by
  rcases h.value with ⟨last, passed, known⟩ | ⟨_, _, _, _, _, _, absurd⟩ |
    ⟨_, _, _, _, _, _, absurd⟩
  · have mutating : r.operation ≠ .inspect := by
      intro inspects
      rw [inspects] at known
      cases flags : last.status <;> simp [Known.outcome?, flags] at known
    rw [outcome?_of_mutating mutating] at known
    have whole : ofRequest r host =
        (opening r host ++ (change r ++ [.isModified, .commit])) ++ [.notifyCommit] := by
      rw [ofRequest_eq mutating]
      simp [closing]
    rw [whole] at passed
    obtain ⟨_, rest, ready, rfl, writes, tells⟩ := passed.split
    obtain ⟨first, d, path, rfl, -, output⟩ := writes.written
    rw [tells.preserves.2.1 (by simp), output] at known
    cases known
    exact ⟨first, rest, d, by simp⟩
  · cases absurd
  · cases absurd

theorem Follows.noChange {reason : String} (fresh : k.status = none)
    (h : Follows r o k (ofRequest r host) xs (.value (.noChange reason))) :
    reason = Outcome.notProtected ∧ ShownUnprotected r xs ∨
      reason = Outcome.nothingToCommit ∧ FoundUnmodified xs := by
  rcases h.value with ⟨last, -, known⟩ | ⟨known, status, unprotects, passed, flags, needed, same⟩ |
    ⟨before, d, known, rfl, mutating, passed, same⟩
  · cases operation : r.operation <;> rw [operation] at known <;> cases status : last.status <;>
      cases output : last.output <;> simp [Known.outcome?, status, output] at known
  · cases same
    exact .inl ⟨rfl, Follows.shownUnprotected fresh unprotects passed flags needed⟩
  · cases same
    refine .inr ⟨rfl, ?_, ⟨before, d, rfl⟩, ?_⟩
    · intro x mem
      rcases List.mem_append.1 mem with mem | mem
      · exact passed.succeeded x mem
      · cases List.mem_singleton.1 mem
        rfl
    · intro x mem
      have away : .commit ∉ opening r host ++ change r := by
        intro mem
        rcases List.mem_append.1 mem with early | late
        · have opens := mem_opening early
          cases opens
        · unfold change at late
          split at late <;> simp at late
      rcases List.mem_append.1 mem with mem | mem
      · exact passed.not_commit away x mem
      · cases List.mem_singleton.1 mem
        rfl

private theorem Follows.kinds {outcome : Outcome}
    (h : Follows r o k (ofRequest r host) xs (.value outcome)) :
    r.operation = .inspect ↔ ∃ status, outcome = .inspected status := by
  rcases h.value with ⟨last, -, known⟩ | ⟨_, _, unprotects, _, _, _, rfl⟩ |
    ⟨_, _, _, _, mutating, _, rfl⟩
  · by_cases inspects : r.operation = .inspect
    · rw [inspects] at known
      obtain ⟨status, -, rfl⟩ := Option.map_eq_some_iff.1 known
      simp [inspects]
    · rw [outcome?_of_mutating inspects] at known
      obtain ⟨path, -, rfl⟩ := Option.map_eq_some_iff.1 known
      simp [inspects]
  · simp [unprotects]
  · simp [mutating]

/-- Every run keeps to the commit protocol. -/
theorem run_keeps_commit_protocol {events : List Event} {exit : Exit Outcome} {after : Host}
    (path : (r.run o host).Path events (exit, after)) :
    CommitProtocol r (exchanges events) exit := by
  have follows : Follows r o (Known.initial r host) (ofRequest r host) (exchanges events) exit :=
    keeps_run events exit after path
  exact {
    once := follows.commit_once
    changedOnce := follows.changed_once
    prepared := by
      intro before e rest d p whole called
      rw [whole] at follows
      exact follows.prepared called
    notified := by
      intro before rest d p whole
      rw [whole] at follows
      exact follows.notified.1
    notifiedOnly := by
      intro before e rest d s whole called
      rw [whole] at follows
      exact follows.notifiedOnly called
    committed := by
      intro p
      constructor
      · rintro rfl
        exact ⟨nofun, follows.committed⟩
      · rintro ⟨ended, before, rest, d, whole⟩
        rw [whole] at follows
        exact follows.notified.2 ended
    noChange := by
      intro reason
      constructor
      · rintro rfl
        exact follows.noChange rfl
      · rintro (⟨rfl, shown⟩ | ⟨rfl, found⟩)
        · exact follows.noChange_of_shown shown
        · exact follows.noChange_of_found found
    kinds := by
      rintro outcome rfl
      exact follows.kinds }

theorem obliging_run_keeps_commit_protocol :
    let r := (Request.unprotect "report.docx" "app").withToken "token"
    let run := (World.obliging (some { granted := ["EXPORT"] }) true).run () {} (r.run {} {})
    run.value.1 = .value (.committed "report_modified.docx") ∧
      run.calls.map Call.isCommit = [false, false, false, false, false, false, false, false, true,
        false] ∧
      CommitProtocol r (exchanges run.events) run.value.1 :=
  ⟨by decide +kernel, by decide +kernel, run_keeps_commit_protocol (World.path_run ..)⟩

end Protocol

end Schedule
end DocGuard
