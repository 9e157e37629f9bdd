import DocGuard.Proofs.Metrics.Series
import DocGuard.Proofs.Service.Invocation

/-! The figures of a service: the requests of a method under way, those that ended with a status, and
the calls into the library that came back with or without success. Each step of the metrics is a
change of these figures, and a look at them is none. -/
namespace DocGuard.Service
open Metrics

private theorem Method.name_inj {a b : Method} : a.name = b.name ↔ a = b := by
  cases a <;> cases b <;> simp [Method.name]

private theorem Method.externalFunction_inj {a b : Method} :
    a.externalFunction = b.externalFunction ↔ a = b := by
  cases a <;> cases b <;> simp [Method.externalFunction]

private theorem RequestStatus.name_inj {a b : RequestStatus} : a.name = b.name ↔ a = b := by
  cases a <;> cases b <;> simp [RequestStatus.name]

namespace Stats

/-- The calls into the library for a method, by whether they succeeded. -/
def called (s : Stats) (method : Method) (succeeded : Bool) : Nat :=
  let snapshot := (s.externalSnapshot method.externalFunction).1
  if succeeded then snapshot.success else snapshot.error

/-- The labels of the series behind the figures ascend. -/
structure Ordered (s : Stats) : Prop where
  counts : s.requestCount.Ascending
  active : s.activeRequests.Ascending
  external : s.externalCount.Ascending

theorem ordered_empty : Ordered {} :=
  ⟨Series.ascending_empty, Series.ascending_empty, Series.ascending_empty⟩

variable {s t : Stats} {method m : Method} {status st : RequestStatus} {now time : Duration}
  {timer : Timer} {succeeded b : Bool}

private theorem called_eq : s.called method succeeded = s.externalCount.value 0
    [method.externalFunction, (if succeeded then RequestStatus.success else .error).name] := by
  cases succeeded <;> rfl

private theorem calledName_inj : (if succeeded then RequestStatus.success else .error).name =
    (if b then RequestStatus.success else .error).name ↔ succeeded = b := by
  cases succeeded <;> cases b <;> simp [RequestStatus.name]

theorem ordered_start (h : s.Ordered) : (s.start method now).2.Ordered :=
  ⟨h.counts, Series.ascending_update h.active, h.external⟩

theorem ordered_finish (h : s.Ordered) : (s.finish timer status now).Ordered :=
  ⟨Series.ascending_update h.counts, Series.ascending_update h.active, h.external⟩

private theorem ordered_observe {function : String} (h : s.Ordered) :
    (s.observe function succeeded time).Ordered :=
  ⟨h.counts, h.active, Series.ascending_update h.external⟩

theorem active_start (h : s.Ordered) :
    ((s.start method now).2.active m).1 = (s.active m).1 + if method = m then 1 else 0 := by
  simp only [active, start, Series.value_update h.active, List.cons.injEq, and_true, Method.name_inj]
  by_cases same : m = method
  · simp [same]
  · simp [same, Ne.symm same]

theorem active_finish (h : s.Ordered) : ((s.finish timer status now).active m).1 =
    (s.active m).1 - if timer.method = m then 1 else 0 := by
  simp only [active, finish, record, Series.value_update h.active, List.cons.injEq, and_true,
    Method.name_inj]
  by_cases same : m = timer.method
  · simp [same]
  · simp [same, Ne.symm same]

theorem count_finish (h : s.Ordered) : ((s.finish timer status now).count m st).1 =
    (s.count m st).1 + if timer.method = m ∧ status = st then 1 else 0 := by
  simp only [count, finish, record, Series.value_update h.counts, List.cons.injEq, and_true,
    Method.name_inj, RequestStatus.name_inj]
  by_cases same : m = timer.method ∧ st = status
  · simp [same]
  · have other : ¬ (timer.method = m ∧ status = st) := fun h => same ⟨h.1.symm, h.2.symm⟩
    simp [same, other]

private theorem called_observe (h : s.Ordered) :
    (s.observe method.externalFunction succeeded time).called m b =
      s.called m b + if method = m ∧ succeeded = b then 1 else 0 := by
  simp only [called_eq, observe, Series.value_update h.external, List.cons.injEq, and_true,
    Method.externalFunction_inj, calledName_inj]
  by_cases same : m = method ∧ b = succeeded
  · simp [same]
  · have other : ¬ (method = m ∧ succeeded = b) := fun h => same ⟨h.1.symm, h.2.symm⟩
    simp [same, other]

section Invoked
variable {ending : Ending} {started ended : Duration} {back : Option Bool}

private theorem ordered_counted (h : s.Ordered) : (s.counted method back time).Ordered := by
  cases back with
  | none => exact h
  | some succeeded => exact ordered_observe h

private theorem active_counted : ((s.counted method back time).active m).1 = (s.active m).1 := by
  cases back <;> rfl

private theorem count_counted : ((s.counted method back time).count m st).1 = (s.count m st).1 := by
  cases back <;> rfl

private theorem called_counted (h : s.Ordered) : (s.counted method back time).called m b =
    s.called m b + if method = m ∧ back = some b then 1 else 0 := by
  cases back with
  | none => simp [counted]
  | some succeeded => simpa [counted] using called_observe h

theorem ordered_invoked (h : s.Ordered) : (s.invoked method ending started time ended).Ordered :=
  ordered_finish (ordered_counted (ordered_start h))

theorem active_invoked (h : s.Ordered) :
    ((s.invoked method ending started time ended).active m).1 = (s.active m).1 := by
  unfold invoked
  rw [active_finish (ordered_counted (ordered_start h)), active_counted, active_start h]
  exact Int.add_sub_cancel ..

theorem count_invoked (h : s.Ordered) :
    ((s.invoked method ending started time ended).count m st).1 =
      (s.count m st).1 + if method = m ∧ ending.status = st then 1 else 0 := by
  unfold invoked
  rw [count_finish (ordered_counted (ordered_start h)), count_counted]
  rfl

theorem called_invoked (h : s.Ordered) :
    (s.invoked method ending started time ended).called m b =
      s.called m b + if method = m ∧ ending.called = some b then 1 else 0 := by
  have ordered : (s.start method started).2.Ordered := ordered_start h
  exact called_counted ordered

end Invoked

/-- The figures of two metrics are the same. -/
structure Agrees (s t : Stats) : Prop where
  ordered : t.Ordered
  active : ∀ m, (t.active m).1 = (s.active m).1
  count : ∀ m status, (t.count m status).1 = (s.count m status).1
  called : ∀ m succeeded, t.called m succeeded = s.called m succeeded

namespace Agrees
variable {u : Stats}

theorem trans (h : s.Agrees t) (g : t.Agrees u) : s.Agrees u where
  ordered := g.ordered
  active m := (g.active m).trans (h.active m)
  count m status := (g.count m status).trans (h.count m status)
  called m succeeded := (g.called m succeeded).trans (h.called m succeeded)

private theorem of_active (h : s.Ordered) : s.Agrees (s.active method).2 where
  ordered := ⟨h.counts, Series.ascending_touch h.active, h.external⟩
  active _ := Series.value_touch h.active
  count _ _ := rfl
  called _ _ := rfl

private theorem of_count (h : s.Ordered) : s.Agrees (s.count method status).2 where
  ordered := ⟨Series.ascending_touch h.counts, h.active, h.external⟩
  active _ := rfl
  count _ _ := Series.value_touch h.counts
  called _ _ := rfl

private theorem of_externalSnapshot {function : String} (h : s.Ordered) :
    s.Agrees (s.externalSnapshot function).2 where
  ordered := ⟨h.counts, h.active, Series.ascending_touch (Series.ascending_touch h.external)⟩
  active _ := rfl
  count _ _ := rfl
  called m succeeded := by
    rw [called_eq, called_eq]
    exact (Series.value_touch (Series.ascending_touch h.external)).trans
      (Series.value_touch h.external)

private theorem of_snapshot (h : s.Ordered) : s.Agrees (s.snapshot method).2 := by
  let looked : Stats := { s with requestLatency := s.requestLatency.touch {} [method.name] }
  have latency : s.Agrees looked :=
    ⟨⟨h.counts, h.active, h.external⟩, fun _ => rfl, fun _ _ => rfl, fun _ _ => rfl⟩
  have success : s.Agrees (looked.count method .success).2 := latency.trans (of_count latency.ordered)
  have invalid : s.Agrees ((looked.count method .success).2.count method .validationError).2 :=
    success.trans (of_count success.ordered)
  have error : s.Agrees (((looked.count method .success).2.count method .validationError).2.count
      method .error).2 := invalid.trans (of_count invalid.ordered)
  exact error.trans (of_active error.ordered)

private theorem of_activeTotal (h : s.Ordered) : s.Agrees s.activeTotal.2 := by
  have inspect : s.Agrees (s.active .inspectFile).2 := of_active h
  have unprotect : s.Agrees ((s.active .inspectFile).2.active .unprotectFile).2 :=
    inspect.trans (of_active inspect.ordered)
  exact unprotect.trans (of_active unprotect.ordered)

end Agrees

/-- A look at the metrics. -/
inductive Look where
  | active (method : Method)
  | count (method : Method) (status : RequestStatus)
  | snapshot (method : Method)
  | external (function : String)
  | total

def Look.stats (s : Stats) : Look → Stats
  | active method => (s.active method).2
  | count method status => (s.count method status).2
  | snapshot method => (s.snapshot method).2
  | external function => (s.externalSnapshot function).2
  | total => s.activeTotal.2

theorem Look.agrees (look : Look) (h : s.Ordered) : s.Agrees (look.stats s) := by
  cases look with
  | active method => exact .of_active h
  | count method status => exact .of_count h
  | snapshot method => exact .of_snapshot h
  | external function => exact .of_externalSnapshot h
  | total => exact .of_activeTotal h

end Stats
end DocGuard.Service
