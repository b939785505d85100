import Mathlib.Tactic

/-!
# Streaks and switches with two thresholds

A history of results is a `List Bool`, the newest first.

* `Ends k v l`: the newest `k` results of `l` are all `v`.
* `streak l`: the signed length of the run of equal results that `l` ends in, positive
  for `true` and negative for `false`.
* `tally`: the counter that is reset when the sign changes; `streak_cons` says that it keeps the streak.
* `switched off on l`: a switch that starts on, goes off when the newest `off` results are all
  `false`, and on when the newest `on` are all `true`.
-/

namespace Lib

/-- The newest `k` results are all `v`. -/
def Ends (k : Nat) (v : Bool) (l : List Bool) : Prop := k ≤ l.length ∧ ∀ r ∈ l.take k, r = v

instance (k : Nat) (v : Bool) (l : List Bool) : Decidable (Ends k v l) :=
  inferInstanceAs (Decidable (k ≤ l.length ∧ ∀ r ∈ l.take k, r = v))

/-- How many of the newest results are `v`. -/
def lastRun (v : Bool) (l : List Bool) : Nat := (l.takeWhile (· == v)).length

def streak (l : List Bool) : Int := lastRun true l - lastRun false l

/-- The counter after one more result. -/
def tally (count : Int) (r : Bool) : Int := if r then max count 0 + 1 else min count 0 - 1

def switched (off on : Nat) : List Bool → Bool
  | [] => true
  | r :: l => if Ends off false (r :: l) then false else if Ends on true (r :: l) then true else switched off on l

/-! ## Runs -/

@[simp] theorem lastRun_cons_self (v : Bool) (l : List Bool) : lastRun v (v :: l) = lastRun v l + 1 := by
  simp [lastRun]

@[simp] theorem lastRun_cons_not (v : Bool) (l : List Bool) : lastRun v ((!v) :: l) = 0 := by
  simp [lastRun]

theorem le_lastRun_iff {k : Nat} {v : Bool} {l : List Bool} : k ≤ lastRun v l ↔ Ends k v l := by
  induction l generalizing k with
  | nil =>
    cases k with
    | zero => simp [Ends]
    | succ k => simp [Ends, lastRun]
  | cons r l ih =>
    cases k with
    | zero => simp [Ends]
    | succ k =>
      by_cases hr : r = v
      · subst hr
        rw [lastRun_cons_self, Nat.add_le_add_iff_right, ih]
        simp [Ends]
      · have hv : r = !v := by cases r <;> cases v <;> simp_all
        subst hv
        simp [Ends]

/-- A history ends in one kind of result only. -/
theorem lastRun_eq_zero (v : Bool) (l : List Bool) : lastRun v l = 0 ∨ lastRun (!v) l = 0 := by
  cases l with
  | nil => exact .inl rfl
  | cons r l =>
    by_cases hr : r = v
    · subst hr
      exact .inr (by simpa using lastRun_cons_not (!r) l)
    · have hv : r = !v := by cases r <;> cases v <;> simp_all
      exact .inl (by rw [hv, lastRun_cons_not])

/-! ## The counter -/

@[simp] theorem streak_nil : streak [] = 0 := rfl

theorem streak_true (l : List Bool) : streak (true :: l) = lastRun true (true :: l) := by
  have h := lastRun_cons_not false l
  simp only [Bool.not_false] at h
  simp [streak, h]

theorem streak_false (l : List Bool) : streak (false :: l) = -lastRun false (false :: l) := by
  have h := lastRun_cons_not true l
  simp only [Bool.not_true] at h
  simp [streak, h]

/-- **The counter keeps the streak.** -/
theorem streak_cons (r : Bool) (l : List Bool) : streak (r :: l) = tally (streak l) r := by
  have hone := lastRun_eq_zero true l
  rw [Bool.not_true] at hone
  cases r with
  | true =>
    rw [streak_true, lastRun_cons_self]
    simp only [tally, streak, if_true]
    omega
  | false =>
    rw [streak_false, lastRun_cons_self]
    simp only [tally, streak, Bool.false_eq_true, if_false]
    omega

/-- A counter at or above a positive threshold: the newest results were all successes. -/
theorem le_streak_iff {k : Int} {l : List Bool} (hk : 0 < k) : k ≤ streak l ↔ Ends k.toNat true l := by
  rw [← le_lastRun_iff]
  have hone := lastRun_eq_zero true l
  rw [Bool.not_true] at hone
  unfold streak
  omega

theorem le_neg_streak_iff {k : Int} {l : List Bool} (hk : 0 < k) : k ≤ -streak l ↔ Ends k.toNat false l := by
  rw [← le_lastRun_iff]
  have hone := lastRun_eq_zero true l
  rw [Bool.not_true] at hone
  unfold streak
  omega

/-! ## The switch -/

theorem Ends.head {k : Nat} {v r : Bool} {l : List Bool} (hk : 0 < k) (h : Ends k v (r :: l)) : r = v := by
  obtain ⟨k, rfl⟩ := Nat.exists_eq_succ_of_ne_zero (Nat.ne_of_gt hk)
  exact h.2 r List.mem_cons_self

/-- A success turns the switch on or leaves it. -/
theorem switched_true {off on : Nat} (hoff : 0 < off) (l : List Bool) :
    switched off on (true :: l) = if Ends on true (true :: l) then true else switched off on l := by
  rw [switched, if_neg fun h => Bool.noConfusion (h.head hoff)]

/-- A failure turns the switch off or leaves it. -/
theorem switched_false {off on : Nat} (hon : 0 < on) (l : List Bool) :
    switched off on (false :: l) = if Ends off false (false :: l) then false else switched off on l := by
  rw [switched]
  split
  · rfl
  · rw [if_neg fun h => Bool.noConfusion (h.head hon)]

end Lib
