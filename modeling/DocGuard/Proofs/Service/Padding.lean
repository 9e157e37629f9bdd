import DocGuard.Proofs.Metrics.Growth
import DocGuard.Proofs.Service.Figures

/-! What looks leave behind in the metrics of a service. They differ from those without looks by series
that are zero, every step of the service and every look keeps this, and it shows in no figure. The text
has these series in addition. -/
namespace DocGuard.Service
open Metrics

namespace Stats

/-- The second metrics have the series of the first and further ones, which are zero. -/
structure Padded (s t : Stats) : Prop where
  requestCount : s.requestCount.Padded 0 t.requestCount
  requestLatency : s.requestLatency.Padded {} t.requestLatency
  activeRequests : s.activeRequests.Padded 0 t.activeRequests
  externalCount : s.externalCount.Padded 0 t.externalCount
  externalLatency : s.externalLatency.Padded {} t.externalLatency

variable {s t : Stats} {method : Method} {status : RequestStatus} {function : String}

theorem padded_empty : Padded {} {} :=
  ⟨.refl Series.ascending_empty, .refl Series.ascending_empty, .refl Series.ascending_empty,
    .refl Series.ascending_empty, .refl Series.ascending_empty⟩

/-- What leaves at most series behind that are zero: both where it is done on both sides, and where it is
done on the side that has such series already. -/
structure Touches (f : Stats → Stats) : Prop where
  along : ∀ {s t : Stats}, s.Padded t → (f s).Padded (f t)
  aside : ∀ {s t : Stats}, s.Padded t → s.Padded (f t)

namespace Touches

private theorem comp {f g : Stats → Stats} (second : Touches g) (first : Touches f) :
    Touches (g ∘ f) where
  along h := second.along (first.along h)
  aside h := second.aside (first.aside h)

theorem latency : Touches fun s => { s with
    requestLatency := s.requestLatency.touch {} [method.name] } where
  along h := { h with requestLatency := h.requestLatency.along }
  aside h := { h with requestLatency := h.requestLatency.aside }

theorem count : Touches fun s => (s.count method status).2 where
  along h := { h with requestCount := h.requestCount.along }
  aside h := { h with requestCount := h.requestCount.aside }

theorem active : Touches fun s => (s.active method).2 where
  along h := { h with activeRequests := h.activeRequests.along }
  aside h := { h with activeRequests := h.activeRequests.aside }

theorem external : Touches fun s => (s.externalSnapshot function).2 where
  along h := { h with
    externalCount := h.externalCount.along.along
    externalLatency := h.externalLatency.along }
  aside h := { h with
    externalCount := h.externalCount.aside.aside
    externalLatency := h.externalLatency.aside }

theorem snapshot : Touches fun s => (s.snapshot method).2 :=
  active.comp (count.comp (count.comp (count.comp latency)))

theorem activeTotal : Touches fun s => s.activeTotal.2 :=
  active.comp (active.comp active)

theorem look (look : Look) : Touches look.stats := by
  cases look with
  | active method => exact active
  | count method status => exact count
  | snapshot method => exact snapshot
  | external function => exact external
  | total => exact activeTotal

end Touches

namespace Padded

section Steps
variable {time : Duration} {timer : Timer} {succeeded : Bool}

theorem start (now : Duration) (h : s.Padded t) : (s.start method now).2.Padded (t.start method now).2 :=
  { h with activeRequests := h.activeRequests.update }

theorem finish (now : Duration) (h : s.Padded t) :
    (s.finish timer status now).Padded (t.finish timer status now) :=
  { h with
    requestCount := h.requestCount.update
    requestLatency := h.requestLatency.update
    activeRequests := h.activeRequests.update }

theorem observe (h : s.Padded t) :
    (s.observe function succeeded time).Padded (t.observe function succeeded time) :=
  { h with
    externalCount := h.externalCount.update
    externalLatency := h.externalLatency.update }

end Steps

section Figures

theorem active (h : s.Padded t) : (t.active method).1 = (s.active method).1 :=
  h.activeRequests.value _

theorem count (h : s.Padded t) : (t.count method status).1 = (s.count method status).1 :=
  h.requestCount.value _

theorem externalSnapshot (h : s.Padded t) :
    (t.externalSnapshot function).1 = (s.externalSnapshot function).1 := by
  simp only [Stats.externalSnapshot, h.externalCount.value, h.externalLatency.value]

/-- The figures of a method are taken one after the other, each from the metrics that the looks before it
left. -/
theorem snapshot (h : s.Padded t) : (t.snapshot method).1 = (s.snapshot method).1 := by
  simp only [Stats.snapshot, Stats.count, Stats.active, h.requestLatency.value, h.requestCount.value,
    h.requestCount.along.value, h.requestCount.along.along.value, h.activeRequests.value]

theorem activeTotal (h : s.Padded t) : t.activeTotal.1 = s.activeTotal.1 := by
  simp only [Stats.activeTotal, Method.all, List.foldl, Stats.active, h.activeRequests.value,
    h.activeRequests.along.value, h.activeRequests.along.along.value]

theorem summary (h : s.Padded t) : t.summary.1 = s.summary.1 := by
  have line (u : Stats) : u.summary.1 =
      "ServiceStats \x7b active_requests: " ++ toString u.activeTotal.1 ++ ", .. \x7d" := rfl
  rw [line, line, h.activeTotal]

end Figures

/-- In the text there are further series and families, and they are zero. -/
theorem families (h : s.Padded t) : Grown Family.Padded Family.IsZero s.families t.families := by
  have counter : ∀ pairs, ZeroSeries .counter (numberSample pairs (0 : Nat)) := fun pairs =>
    .number .counter pairs nofun
  have gauge : ∀ pairs, ZeroSeries .gauge (numberSample pairs (0 : Int)) := fun pairs =>
    .number .gauge pairs nofun
  have histogram (bounds : List Nat) :
      ∀ pairs h, Histogram.samples bounds pairs h ≠ [] := by
    simp [Histogram.samples]
  exact h.activeRequests.grown_shown gauge (fun _ _ => List.cons_ne_nil _ _)
    (h.externalCount.grown_shown counter (fun _ _ => List.cons_ne_nil _ _)
    (h.externalLatency.grown_shown (.histogram _) (histogram _)
    (h.requestCount.grown_shown counter (fun _ _ => List.cons_ne_nil _ _)
    (h.requestLatency.grown_shown (.histogram _) (histogram _) .nil))))

end Padded
end Stats
end DocGuard.Service
