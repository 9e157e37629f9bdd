import DocGuard.Proofs.Request.Schedule

/-! The stages of a schedule one by one: which call is due at each, what a reply makes of what is
known, and where a run stops. Behind the opening of the source only its own stages change or write
it. -/
namespace DocGuard.Schedule
variable {r : Request} {o : RunOptions} {k next : Known} {stage : Stage} {before rest : List Event}
  {e : Event} {c : Call} {xs : List Event} {exit : Exit Outcome}

namespace Known
variable {α : Type} {result : Except Error α} {f : α → Known}

theorem learn_eq_ok : learn result f = .ok next ↔ ∃ value, result = .ok value ∧ next = f value := by
  cases result <;> simp [learn, eq_comm]

theorem learn_eq_error :
    learn result f = .error exit ↔ ∃ cause, result = .error cause ∧ exit = .error cause := by
  cases result <;> simp [learn, eq_comm]

private theorem learn_of_failure {cause : Error} (h : failureIn result = some cause) :
    learn result f = .error (.error cause) :=
  learn_eq_error.2 ⟨cause, failureIn_eq_some.1 h, rfl⟩

private theorem learn_ne_panic : learn result f ≠ .error .panic := by
  intro h
  obtain ⟨_, -, same⟩ := learn_eq_error.1 h
  cases same

end Known

namespace Stage

def changes : Stage → Bool
  | removeProtection | setProtection | setLabel _ | deleteLabel _ => true
  | _ => false

def writes : Stage → Bool
  | commit => true
  | _ => false

/-- The stage is one of those that open the source and check the rights to it. -/
def opens : Stage → Bool
  | acquireToken | consent | loadProfile | addEngine | contentStatus | openSource | outputFileName
  | checkRights => true
  | _ => false

def asksProtection : Stage → Bool
  | checkRights | referencePolicy _ => true
  | _ => false

theorem writes_of_opens (h : stage.opens = true) : stage.writes = false := by
  cases stage <;> simp_all [opens, writes]

theorem changes_of_opens (h : stage.opens = true) : stage.changes = false := by
  cases stage <;> simp_all [opens, changes]

theorem due_commit {d : DocumentHandle} {p : String} (h : stage.Due r o k (.commit d p)) :
    stage = commit ∧ k.document = some d ∧ k.output = some p := by
  cases stage <;> simp_all [Due]

theorem due_notifyCommit {d : DocumentHandle} {s : String}
    (h : stage.Due r o k (.notifyCommit d s)) :
    stage = notifyCommit ∧ k.document = some d ∧ s = r.source := by
  cases stage <;> grind [Due]

theorem due_isModified {d : DocumentHandle} (h : stage.Due r o k (.isModified d)) :
    stage = isModified ∧ k.document = some d := by
  cases stage <;> simp_all [Due]

theorem due_altered {d : DocumentHandle} (h : stage.Due r o k c) (altered : c.altered = some d) :
    stage.opens = false ∧ k.document = some d := by
  cases stage <;> simp only [Due] at h <;> grind [Call.altered, opens]

theorem due_mutating (h : stage.Due r o k c) (mutating : c.isMutating = true) :
    stage.changes = true := by
  cases stage <;> simp only [Due] at h <;> grind [Call.isMutating, changes]

theorem due_writing (h : stage.Due r o k c) (writing : c.isCommit = true) :
    stage.writes = true := by
  cases stage <;> simp only [Due] at h <;> grind [Call.isCommit, writes]

theorem due_changes (h : stage.Due r o k c) (changes : stage.changes = true) :
    c.isMutating = true ∧ ∃ d, k.document = some d ∧ c.altered = some d := by
  cases stage <;> simp only [Due] at h <;> grind [Call.isMutating, Call.altered, Stage.changes]

theorem asksProtection_of_due {d : DocumentHandle} (h : stage.Due r o k (.getProtection d)) :
    stage.asksProtection = true := by
  cases stage <;> simp_all [Due, asksProtection]

/-- A reply that is an error ends the run. -/
theorem judge_of_failure {reply : c.Reply} {cause : Error} (due : stage.Due r o k c)
    (failed : c.failure reply = some cause) :
    stage.judge k c reply = .error (.error (c.blame cause)) := by
  cases stage with
  | acquireToken =>
    subst due
    refine Known.learn_of_failure (failureIn_eq_some.2 ?_)
    rw [failureIn_eq_some.1 failed]
    rfl
  | consent =>
    subst due
    cases failed
  | loadProfile =>
    obtain ⟨_, _, _, _, _, rfl⟩ := due
    exact Known.learn_of_failure failed
  | addEngine =>
    obtain ⟨_, _, _, _, _, _, rfl⟩ := due
    exact Known.learn_of_failure failed
  | contentStatus =>
    obtain ⟨_, _, rfl⟩ := due
    exact Known.learn_of_failure failed
  | openSource =>
    obtain ⟨_, _, _, _, rfl⟩ := due
    exact Known.learn_of_failure failed
  | openReference path | labelById id =>
    obtain ⟨_, _, rfl⟩ := due
    exact Known.learn_of_failure failed
  | checkRights | referencePolicy path =>
    obtain ⟨_, _, rfl⟩ := due
    simp only [judge, failureIn_eq_some.1 failed]
    rfl
  | removeProtection | setProtection | setLabel options =>
    obtain ⟨_, _, _, _, _, rfl⟩ := due
    exact Known.learn_of_failure failed
  | deleteLabel options =>
    obtain ⟨_, _, rfl⟩ := due
    exact Known.learn_of_failure failed
  | commit =>
    obtain ⟨_, _, _, _, rfl⟩ := due
    simp only [judge, failureIn_eq_some.1 failed]
    rfl
  | outputFileName | isModified | notifyCommit =>
    obtain ⟨_, _, rfl⟩ := due
    cases failed

theorem failure_of_judge {reply : c.Reply} (due : stage.Due r o k c)
    (judged : stage.judge k c reply = .ok next) : c.failure reply = none := by
  cases failed : c.failure reply with
  | none => rfl
  | some cause =>
    rw [judge_of_failure due failed] at judged
    cases judged

/-- A stage ends a run with a panic only where the collaborator panics. -/
theorem judge_ne_panic {reply : c.Reply} (due : stage.Due r o k c) :
    stage.judge k c reply ≠ .error .panic := by
  intro judged
  cases stage with
  | acquireToken =>
    subst due
    exact Known.learn_ne_panic judged
  | consent =>
    subst due
    cases judged
  | loadProfile =>
    obtain ⟨_, _, _, _, _, rfl⟩ := due
    exact Known.learn_ne_panic judged
  | addEngine =>
    obtain ⟨_, _, _, _, _, _, rfl⟩ := due
    exact Known.learn_ne_panic judged
  | contentStatus | outputFileName | openReference path | labelById id | deleteLabel options =>
    obtain ⟨_, _, rfl⟩ := due
    exact Known.learn_ne_panic judged
  | openSource =>
    obtain ⟨_, _, _, _, rfl⟩ := due
    exact Known.learn_ne_panic judged
  | removeProtection | setProtection | setLabel options =>
    obtain ⟨_, _, _, _, _, rfl⟩ := due
    exact Known.learn_ne_panic judged
  | checkRights =>
    obtain ⟨_, _, rfl⟩ := due
    rcases reply with (_ | policy) | _ | _
    case succeeded.some =>
      simp only [judge, Completion.result] at judged
      split at judged <;> cases judged
    all_goals cases judged
  | referencePolicy path =>
    obtain ⟨_, _, rfl⟩ := due
    rcases reply with (_ | _) | _ | _ <;> cases judged
  | isModified =>
    obtain ⟨_, _, rfl⟩ := due
    cases reply <;> cases judged
  | commit =>
    obtain ⟨_, _, _, _, rfl⟩ := due
    rcases reply with (_ | _) | _ | _ <;> cases judged
  | notifyCommit =>
    obtain ⟨_, _, rfl⟩ := due
    cases judged

/-- Each thing that is known changes at its own stage only. -/
theorem judge_preserves {reply : c.Reply} (h : stage.judge k c reply = .ok next) :
    (stage ≠ openSource → next.document = k.document) ∧
      (stage ≠ outputFileName → next.output = k.output) ∧
      (stage ≠ contentStatus → next.status = k.status) := by
  unfold judge at h
  split at h
  case h_16 _ flag =>
    cases flag <;> cases h
    simp
  all_goals grind [Known.learn_eq_ok]

theorem judge_of_mayExport {d : DocumentHandle} {protection : Option Policy}
    (allowed : mayExport protection = true) :
    checkRights.judge k (.getProtection d) (.succeeded protection) = .ok k := by
  cases protection with
  | none => rfl
  | some policy =>
    have grants : policy.grants Right.exportName = true := allowed
    simp [judge, Completion.result, grants]

/-- A run stops in good order only where the document is found unmodified. -/
theorem judge_eq_value {reply : c.Reply} {outcome : Outcome}
    (h : stage.judge k c reply = .error (.value outcome)) :
    stage = isModified ∧ outcome = .noChange Outcome.nothingToCommit ∧
      ∃ d, Event.replied c reply = .replied (.isModified d) false := by
  unfold judge at h
  split at h
  case h_16 d flag =>
    cases flag <;> cases h
    exact ⟨rfl, rfl, d, rfl⟩
  all_goals grind [Known.learn_eq_error]

theorem judge_isModified {d : DocumentHandle} {reply : Bool}
    (h : isModified.judge k (.isModified d) reply = .ok next) : reply = true ∧ next = k := by
  cases reply <;> cases h
  exact ⟨rfl, rfl⟩

theorem judge_commit {d : DocumentHandle} {p : String} {reply : Completion Bool}
    (h : commit.judge k (.commit d p) reply = .ok next) : reply = .succeeded true ∧ next = k := by
  rcases reply with (_ | _) | _ | _ <;> cases h
  exact ⟨rfl, rfl⟩

/-- Where a run stops there is one call at most, and a look for a file at most after it. -/
theorem Stops.shape (h : stage.Stops r o k xs exit) :
    xs = [] ∨ ∃ e tail c, xs = e :: tail ∧ e.call? = some c ∧ stage.Due r o k c ∧
      ∀ x ∈ tail, x.call? = none := by
  cases h with
  | unready => exact .inl rfl
  | idle => exact .inl rfl
  | panicked _ c due => exact .inr ⟨_, [], c, rfl, rfl, due, by simp⟩
  | refused _ c reply exit inner due judged => exact .inr ⟨_, [], c, rfl, rfl, due, by simp⟩
  | commitFailed d output reply cause found due failed =>
    exact .inr ⟨_, [.looked output found], _, rfl, rfl, due, by simp⟩
  | leftFile d output due => exact .inr ⟨_, [.looked output true], _, rfl, rfl, due, by simp⟩
  | nothingWritten d output due =>
    exact .inr ⟨_, [.looked output false], _, rfl, rfl, due, by simp⟩

theorem Stops.call (h : stage.Stops r o k (before ++ e :: rest) exit) (called : e.call? = some c) :
    before = [] ∧ stage.Due r o k c ∧ ∀ x ∈ rest, x.call? = none := by
  rcases h.shape with absurd | ⟨head, tail, first, whole, same, due, quiet⟩
  · simp at absurd
  cases before with
  | nil =>
    simp only [List.nil_append, List.cons.injEq] at whole
    obtain ⟨rfl, rfl⟩ := whole
    cases called.symm.trans same
    exact ⟨rfl, due, quiet⟩
  | cons x before =>
    simp only [List.cons_append, List.cons.injEq] at whole
    obtain ⟨rfl, rfl⟩ := whole
    have silent := quiet e (by simp)
    rw [called] at silent
    cases silent

/-- A stage at which the reply is an error stops the run with that error. -/
theorem Stops.failure {reply : c.Reply} {cause : Error}
    (h : stage.Stops r o k (.replied c reply :: rest) exit)
    (failed : c.failure reply = some cause) :
    exit = .error (c.blame cause) := by
  cases h with
  | refused _ c reply exit inner due judged =>
    rw [judge_of_failure due failed] at judged
    cases judged
    rfl
  | commitFailed d output reply other found due result =>
    simp only [Call.failure, failureIn_eq_some, result] at failed
    cases failed
    rfl
  | leftFile => cases failed
  | nothingWritten => cases failed

/-- The rights are checked with success only by a protection under which the document may be
exported; with a policy that does not grant the right the access is denied. -/
theorem judge_checkRights {d : DocumentHandle} {reply : Completion (Option Policy)}
    (h : checkRights.judge k (.getProtection d) reply = .ok next) :
    ∃ protection, reply = .succeeded protection ∧ mayExport protection = true ∧ next = k := by
  rcases reply with protection | cause | _
  case failed => cases h
  case dropped => cases h
  refine ⟨protection, rfl, ?_⟩
  rcases protection with _ | policy
  · cases h
    exact ⟨rfl, rfl⟩
  · simp only [judge, Completion.result] at h
    split at h
    case isTrue grants =>
      cases h
      exact ⟨grants, rfl⟩
    case isFalse => cases h

end Stage

end DocGuard.Schedule
