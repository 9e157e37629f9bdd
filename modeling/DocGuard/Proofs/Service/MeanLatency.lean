import Mathlib.Algebra.Order.Group.Nat
import DocGuard.Service.Stats

/-! The mean time of the requests of a method. It is the total divided by the number of requests and
rounded down, or the largest mean that can be told, as long as this number fits into a word. The number
is summed up in words, and a sum that is too large for one is a panic. -/
namespace DocGuard.Service.MethodSnapshot

/-- The requests that ended, in whatever way, counted without a bound. -/
def ended (s : MethodSnapshot) : Nat :=
  s.success.toNat + s.validationError.toNat + s.error.toNat

/-- A mean of a total over some requests, both times in nanoseconds: the quotient rounded down, or the
largest mean, if the quotient is larger. -/
def IsMean (total count mean : Nat) : Prop :=
  0 < count ∧
    (mean * count ≤ total ∧ total < (mean + 1) * count ∧ mean ≤ maxAverage ∨
      mean = maxAverage ∧ (maxAverage + 1) * count ≤ total)

variable {s : MethodSnapshot} {a : Duration} {total count mean : Nat}

private theorem addCounts_eq_some_iff {m n k : UInt64} :
    addCounts m n = some k ↔ k.toNat = m.toNat + n.toNat := by
  have bound := k.toNat_lt
  rw [addCounts, Option.ite_none_right_eq_some, Option.some.injEq, ← UInt64.toNat_inj,
    UInt64.toNat_add]
  omega

private theorem finished_eq_some_iff {n : UInt64} : s.finished = some n ↔ n.toNat = s.ended := by
  have bound := n.toNat_lt
  simp only [finished, Option.bind_eq_bind, Option.bind_eq_some_iff, addCounts_eq_some_iff, ended]
  constructor
  · rintro ⟨first, early, late⟩
    rw [late, early]
  · intro sum
    have early : s.success.toNat + s.validationError.toNat < 2 ^ 64 := by omega
    refine ⟨.ofNat (s.success.toNat + s.validationError.toNat), ?_, ?_⟩
    · exact UInt64.toNat_ofNat_of_lt' early
    · rw [UInt64.toNat_ofNat_of_lt' early, sum]

private theorem finished_eq_none_iff : s.finished = none ↔ 2 ^ 64 ≤ s.ended := by
  rw [Option.eq_none_iff_forall_ne_some]
  simp only [ne_eq, finished_eq_some_iff]
  constructor
  · intro untold
    by_contra fits
    exact untold (.ofNat s.ended) (UInt64.toNat_ofNat_of_lt' (Nat.lt_of_not_le fits))
  · intro large n same
    have bound := n.toNat_lt
    omega

private theorem ended_eq_zero_iff :
    s.ended = 0 ↔ s.success = 0 ∧ s.validationError = 0 ∧ s.error = 0 := by
  simp only [ended, Nat.add_eq_zero_iff, and_assoc, ← UInt64.toNat_inj, UInt64.toNat_zero]

private theorem isMean_iff (some : 0 < count) :
    IsMean total count mean ↔ mean = min (total / count) maxAverage := by
  have rounded : mean = total / count ↔ mean * count ≤ total ∧ total < (mean + 1) * count :=
    Nat.le_antisymm_iff.trans (and_congr (Nat.le_div_iff_mul_le some)
      (Nat.lt_succ_iff.symm.trans (Nat.div_lt_iff_lt_mul some)))
  have beyond : maxAverage < total / count ↔ (maxAverage + 1) * count ≤ total := by
    rw [← Nat.succ_le_iff, Nat.le_div_iff_mul_le some]
  unfold IsMean
  rw [← and_assoc, ← rounded, ← beyond]
  omega

private theorem averageLatency_of_finished {n : UInt64} (told : s.finished = some n) :
    s.averageLatency = some (if n = 0 then none
      else some ⟨min (s.totalLatency.nanoseconds / n.toNat) maxAverage⟩) := by
  simp only [averageLatency, told, Option.bind_eq_bind, Option.bind_some]
  split <;> rfl

private theorem averageLatency_eq_none_iff : s.averageLatency = none ↔ s.finished = none := by
  cases told : s.finished with
  | none => simp [averageLatency, told]
  | some n => simp [averageLatency_of_finished told]

private theorem averageLatency_eq_some_none_iff : s.averageLatency = some none ↔ s.ended = 0 := by
  cases told : s.finished with
  | none =>
    have large := finished_eq_none_iff.1 told
    rw [averageLatency_eq_none_iff.2 told]
    exact iff_of_false nofun (by omega)
  | some n =>
    have sum := finished_eq_some_iff.1 told
    have zero : n = 0 ↔ s.ended = 0 := by
      rw [← UInt64.toNat_inj, UInt64.toNat_zero, sum]
    rw [averageLatency_of_finished told, ← zero]
    split <;> simp_all

private theorem averageLatency_eq_some_some_iff : s.averageLatency = some (some a) ↔
    s.ended < 2 ^ 64 ∧ IsMean s.totalLatency.nanoseconds s.ended a.nanoseconds := by
  cases told : s.finished with
  | none =>
    have large := finished_eq_none_iff.1 told
    rw [averageLatency_eq_none_iff.2 told]
    exact iff_of_false nofun (by omega)
  | some n =>
    have sum := finished_eq_some_iff.1 told
    have fits : s.ended < 2 ^ 64 := sum ▸ n.toNat_lt
    rw [averageLatency_of_finished told, Option.some.injEq, ← sum]
    split
    case isTrue zero =>
      refine iff_of_false nofun fun mean => ?_
      exact mean.2.1.ne' (by rw [zero, UInt64.toNat_zero])
    case isFalse other =>
      have some : 0 < n.toNat := by
        rw [Nat.pos_iff_ne_zero, ne_eq, ← UInt64.toNat_zero, UInt64.toNat_inj]
        exact other
      rw [isMean_iff some, Option.some.injEq]
      constructor
      · rintro rfl
        exact ⟨n.toNat_lt, rfl⟩
      · rintro ⟨-, same⟩
        rw [← same]

/-- The mean time, whatever the counters are. The number of requests that ended is told, and told
exactly, if it fits into a word, and else both the number and the mean are a panic. Otherwise there is
no mean exactly if no request ended, and else it is the mean over all that did. -/
theorem averageLatency_over_finished (s : MethodSnapshot) :
    (∀ n, s.finished = some n ↔ n.toNat = s.ended) ∧
      (s.finished = none ↔ 2 ^ 64 ≤ s.ended) ∧
      (s.averageLatency = none ↔ 2 ^ 64 ≤ s.ended) ∧
      (s.averageLatency = some none ↔ s.success = 0 ∧ s.validationError = 0 ∧ s.error = 0) ∧
      ∀ a, s.averageLatency = some (some a) ↔
        s.ended < 2 ^ 64 ∧ IsMean s.totalLatency.nanoseconds s.ended a.nanoseconds := by
  refine ⟨fun n => finished_eq_some_iff, finished_eq_none_iff, ?_, ?_,
    fun a => averageLatency_eq_some_some_iff⟩
  · rw [averageLatency_eq_none_iff, finished_eq_none_iff]
  · rw [averageLatency_eq_some_none_iff, ended_eq_zero_iff]

/-- One request more than a word holds: the number and the mean panic, though the mean is zero. -/
theorem averageLatency_beyond_word :
    let s : MethodSnapshot := { success := 0xFFFFFFFFFFFFFFFF, error := 1, totalLatency := ⟨1000000000⟩ }
    s.ended = 2 ^ 64 ∧ s.finished = none ∧ s.averageLatency = none ∧
      IsMean s.totalLatency.nanoseconds s.ended 0 := by
  refine ⟨by decide, by decide, by decide, by decide, .inl ⟨by decide, by decide, by decide⟩⟩

end DocGuard.Service.MethodSnapshot
