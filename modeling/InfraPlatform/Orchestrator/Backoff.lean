import InfraPlatform.Orchestrator.Model

/-!
# Backoff

`backoff` of the reconciler and `ScheduleRetry` wait `2^n` seconds before attempt `n`, at most 60.
Both multiply by `time.Second` in `int64` before they compare with the maximum, so from
`n = 34` on the product wraps.  It is then negative or zero, except where the wrapped product
happens to be positive and is cut to the maximum.

* `delay_exact_iff`: for which `n` the delay is the one that is meant.
* `backoff_negative`: it is not at 34.
-/

namespace Orchestrator

open ControlPlane (Time Duration second)
open ControlPlane.Reconciler (backoff maxBackoff pow2Int64)
open Lib (wrapInt64)

/-- `min(2^n, 60)` seconds -/
def cappedExponential (n : Int) : Duration := min (2 ^ n.toNat) 60 * second

/-- What is meant for attempt `n`: the capped power of two in both modules, a positive delay, and none that is
shorter than an earlier one. -/
structure DelayExact (n : Int) : Prop where
  reconciler : backoff n = cappedExponential n
  retry : ∀ (job : Job) (now : Time), job.retryCount + 1 = n →
    (scheduleRetry job now).runAfter = now + cappedExponential n
  positive : 0 < backoff n
  nondecreasing : ∀ m, 1 ≤ m → m ≤ n → backoff m ≤ backoff n

/-- The attempts whose product fits `int64`, and those whose wrapped product is positive. -/
def fits (n : Int) : Prop := n ≤ 33 ∨ n ∈ [37, 41, 42, 45, 47, 50, 51, 53]

instance (n : Int) : Decidable (fits n) := inferInstanceAs (Decidable (n ≤ 33 ∨ n ∈ [37, 41, 42, 45, 47, 50, 51, 53]))

/-- From 63 on the power does not fit `int64` itself, and the product is zero. -/
theorem backoff_of_large {n : Int} (hn : 63 ≤ n) : backoff n = 0 := by
  have hpow : pow2Int64 n = -2 ^ 63 := by
    unfold pow2Int64
    rw [if_neg (by omega), if_neg (by omega)]
  unfold backoff
  rw [hpow]
  decide

theorem cappedExponential_pos (n : Int) : 0 < cappedExponential n := by
  unfold cappedExponential second
  positivity

theorem cappedExponential_mono {m n : Int} (h : m ≤ n) : cappedExponential m ≤ cappedExponential n := by
  have hpow : (2 : Int) ^ m.toNat ≤ 2 ^ n.toNat := pow_le_pow_right₀ (by decide) (Int.toNat_le_toNat h)
  exact mul_le_mul_of_nonneg_right (min_le_min_right 60 hpow) (by decide)

theorem backoff_exact_iff {n : Int} (hn : 1 ≤ n) : backoff n = cappedExponential n ↔ fits n := by
  by_cases hsmall : n < 63
  · interval_cases n <;> decide
  · have hlarge : 63 ≤ n := not_lt.mp hsmall
    rw [backoff_of_large hlarge]
    refine iff_of_false (cappedExponential_pos n).ne fun h => ?_
    unfold fits at h
    simp only [List.mem_cons, List.not_mem_nil, or_false] at h
    omega

theorem backoff_le_max (n : Int) : backoff n ≤ maxBackoff := by
  unfold backoff
  dsimp only
  split
  · exact le_rfl
  · next h => exact not_lt.mp h

/-- The delay is never longer than it is meant to be. -/
theorem backoff_le {n : Int} (hn : 1 ≤ n) : backoff n ≤ cappedExponential n := by
  by_cases hsmall : n ≤ 33
  · exact ((backoff_exact_iff hn).mpr (.inl hsmall)).le
  · have hmax : maxBackoff = cappedExponential 34 := by decide
    calc backoff n ≤ maxBackoff := backoff_le_max n
      _ = cappedExponential 34 := hmax
      _ ≤ cappedExponential n := cappedExponential_mono (by omega)

/-- **When the backoff is the capped power of two.** -/
theorem delay_exact_iff {n : Int} (hn : 1 ≤ n) : DelayExact n ↔ fits n := by
  constructor
  · intro h
    exact (backoff_exact_iff hn).mp h.reconciler
  · intro hfits
    have hexact := (backoff_exact_iff hn).mpr hfits
    refine ⟨hexact, fun job now hjob => ?_, ?_, fun m hm hle => ?_⟩
    · change now + backoff (job.retryCount + 1) = now + cappedExponential n
      rw [hjob, hexact]
    · rw [hexact]
      exact cappedExponential_pos n
    · rw [hexact]
      exact (backoff_le hm).trans (cappedExponential_mono hle)

theorem delay_exact_iff_third : fits 3 ∧ DelayExact 3 := ⟨by decide, (delay_exact_iff (by decide)).mpr (by decide)⟩

/-- Attempt 34 is due in the past, attempt 55 at once. -/
theorem backoff_negative : backoff 34 < 0 ∧ backoff 55 = 0 ∧ ¬ ∀ n, 1 ≤ n → DelayExact n := by
  refine ⟨by decide, by decide, fun h => ?_⟩
  have hpos := (h 34 (by decide)).positive
  revert hpos
  decide

end Orchestrator
