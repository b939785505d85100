import InfraPlatform.Lib.Streak
import InfraPlatform.Proxy.Model

/-!
# Health checks

`internal/health`: the checker counts consecutive results for each backend name and sets a backend's flag when
a count reaches a threshold.

A result is recorded in two parts, since the lock covers the count only: `count` updates the count
and `settle` sets the flag and the gauge behind `onStatusChange`.  The count is unbounded here (an
`int` overflows after 2^63 probes), and log lines are left out.

`hysteresis`: in a pool whose names are distinct, the count of each backend is its streak, and its flag is
the switch with the two thresholds.
-/

namespace Proxy

open Lib

/-! ## The checker -/

structure HealthConfig where
  unhealthyThreshold : Int
  healthyThreshold : Int
deriving DecidableEq, Repr

structure Checker where
  unhealthyThreshold : Int
  healthyThreshold : Int
  /-- consecutive successes (positive) or failures (negative), by name -/
  counts : String → Int := fun _ => 0

def Checker.new (cfg : HealthConfig) : Checker where
  unhealthyThreshold := if cfg.unhealthyThreshold ≤ 0 then 1 else cfg.unhealthyThreshold
  healthyThreshold := if cfg.healthyThreshold ≤ 0 then 1 else cfg.healthyThreshold

/-- The checker, the flags of the backends by pointer, and the gauge of the registry by name. -/
structure Health where
  checker : Checker
  alive : Nat → Bool := fun _ => true
  gauge : String → Option Bool := fun _ => none

/-- What a probe comes to: `none` is a request that cannot be built. -/
def passes : Option Outcome → Bool
  | some (.response status) => 200 ≤ status.code && status.code < 300
  | _ => false

namespace Checker

variable (c : Checker)

def setCount (name : String) (n : Int) : Checker := { c with counts := Function.update c.counts name n }

/-- The locked part of `recordSuccess`: the consecutive successes. -/
def countSuccess (name : String) : Int × Checker :=
  let n := (if c.counts name < 0 then 0 else c.counts name) + 1
  (n, c.setCount name n)

/-- The locked part of `recordFailure`: the consecutive failures. -/
def countFailure (name : String) : Int × Checker :=
  let n := (if c.counts name > 0 then 0 else c.counts name) - 1
  (-n, c.setCount name n)

def count (name : String) (ok : Bool) : Int × Checker := if ok then c.countSuccess name else c.countFailure name

end Checker

namespace Health

variable (h : Health)

def setAlive (b : Backend) (alive : Bool) : Health := { h with alive := Function.update h.alive b.key alive }

/-- The callback that `main` gives the checker. -/
def onStatusChange (b : Backend) : Health :=
  { h with gauge := Function.update h.gauge b.name (some (h.alive b.key)) }

/-- The rest of `recordSuccess`. -/
def settleSuccess (b : Backend) (consecutive : Int) : Health :=
  (if consecutive ≥ h.checker.healthyThreshold then h.setAlive b true else h).onStatusChange b

/-- The rest of `recordFailure`. -/
def settleFailure (b : Backend) (consecutive : Int) : Health :=
  (if consecutive ≥ h.checker.unhealthyThreshold then h.setAlive b false else h).onStatusChange b

def settle (b : Backend) (ok : Bool) (consecutive : Int) : Health :=
  if ok then h.settleSuccess b consecutive else h.settleFailure b consecutive

def recordSuccess (b : Backend) : Health :=
  { h with checker := (h.checker.countSuccess b.name).2 }.settleSuccess b (h.checker.countSuccess b.name).1

def recordFailure (b : Backend) : Health :=
  { h with checker := (h.checker.countFailure b.name).2 }.settleFailure b (h.checker.countFailure b.name).1

/-- `check` once the probe is back. -/
def check (b : Backend) (o : Option Outcome) : Health := if passes o then h.recordSuccess b else h.recordFailure b

def record (b : Backend) (ok : Bool) : Health := if ok then h.recordSuccess b else h.recordFailure b

/-- A sequence of results, in the order in which they are recorded. -/
def recordAll (results : List (Backend × Bool)) : Health := results.foldl (fun h r => h.record r.1 r.2) h

end Health

/-- A new checker over backends that are alive. -/
def Health.start (cfg : HealthConfig) : Health := { checker := .new cfg }

/-- The results of one backend, the newest first. -/
def resultsOf (b : Backend) (results : List (Backend × Bool)) : List Bool :=
  ((results.filter fun r => r.1 = b).map Prod.snd).reverse

/-! ## The count is a tally -/

theorem Checker.count_fst (c : Checker) (name : String) (ok : Bool) :
    (c.count name ok).1 = if ok then tally (c.counts name) ok else -tally (c.counts name) ok := by
  cases ok with
  | true =>
    simp only [count, countSuccess, tally, if_true]
    split <;> omega
  | false =>
    simp only [count, countFailure, tally, Bool.false_eq_true, if_false]
    split <;> omega

theorem Checker.count_snd (c : Checker) (name : String) (ok : Bool) :
    (c.count name ok).2 = c.setCount name (tally (c.counts name) ok) := by
  cases ok with
  | true =>
    simp only [count, countSuccess, tally, if_true]
    congr 1
    split <;> omega
  | false =>
    simp only [count, countFailure, tally, Bool.false_eq_true, if_false]
    congr 1
    split <;> omega

namespace Health

variable (h : Health) (b : Backend) (ok : Bool)

theorem record_eq : h.record b ok =
    { h with checker := (h.checker.count b.name ok).2 }.settle b ok (h.checker.count b.name ok).1 := by
  cases ok <;> rfl

@[simp] theorem settle_checker (n : Int) : (h.settle b ok n).checker = h.checker := by
  unfold settle settleSuccess settleFailure onStatusChange setAlive
  repeat' split
  all_goals rfl

/-- The flag of a backend after a success or a failure was counted as the `n`-th in a row. -/
theorem settle_alive (n : Int) (k : Nat) : (h.settle b ok n).alive k =
    if k = b.key ∧ (if ok then h.checker.healthyThreshold else h.checker.unhealthyThreshold) ≤ n then ok
    else h.alive k := by
  unfold settle settleSuccess settleFailure onStatusChange setAlive
  cases ok with
  | true =>
    by_cases hn : h.checker.healthyThreshold ≤ n <;> by_cases hk : k = b.key <;> simp [hn, hk]
  | false =>
    by_cases hn : h.checker.unhealthyThreshold ≤ n <;> by_cases hk : k = b.key <;> simp [hn, hk]

/-- A flag goes down only with enough failures in a row. -/
theorem down_of_settle {h : Health} {b : Backend} {ok : Bool} {n : Int} {k : Nat} (halive : h.alive k = true)
    (hdead : (h.settle b ok n).alive k = false) : k = b.key ∧ ok = false ∧ h.checker.unhealthyThreshold ≤ n := by
  rw [settle_alive, halive] at hdead
  cases ok with
  | true => simp at hdead
  | false =>
    simp only [Bool.false_eq_true, if_false] at hdead
    split at hdead
    · next hset => exact ⟨hset.1, rfl, hset.2⟩
    · cases hdead

theorem record_counts (name : String) : (h.record b ok).checker.counts name =
    if name = b.name then tally (h.checker.counts b.name) ok else h.checker.counts name := by
  rw [record_eq, settle_checker, Checker.count_snd]
  exact Function.update_apply ..

theorem record_thresholds : (h.record b ok).checker.unhealthyThreshold = h.checker.unhealthyThreshold ∧
    (h.record b ok).checker.healthyThreshold = h.checker.healthyThreshold := by
  rw [record_eq, settle_checker, Checker.count_snd]
  exact ⟨rfl, rfl⟩

end Health

/-! ## Hysteresis -/

theorem resultsOf_snoc (b a : Backend) (ok : Bool) (results : List (Backend × Bool)) :
    resultsOf b (results ++ [(a, ok)]) = if a = b then ok :: resultsOf b results else resultsOf b results := by
  unfold resultsOf
  by_cases ha : a = b <;> simp [ha]

theorem Checker.new_thresholds (cfg : HealthConfig) :
    0 < (Checker.new cfg).unhealthyThreshold ∧ 0 < (Checker.new cfg).healthyThreshold := by
  unfold Checker.new
  constructor <;> simp only <;> split <;> omega

/-- What the checker holds of backend `b` after `results`: its streak, and the switch with the two thresholds. -/
structure Health.Tracks (h : Health) (c : Checker) (b : Backend) (results : List (Backend × Bool)) : Prop where
  unhealthyThreshold : h.checker.unhealthyThreshold = c.unhealthyThreshold
  healthyThreshold : h.checker.healthyThreshold = c.healthyThreshold
  counts : h.checker.counts b.name = streak (resultsOf b results)
  alive : h.alive b.key = switched c.unhealthyThreshold.toNat c.healthyThreshold.toNat (resultsOf b results)

/-- A result of the backend itself. -/
theorem Health.Tracks.own {h : Health} {c : Checker} {b : Backend} {results : List (Backend × Bool)}
    (ht : h.Tracks c b results) (hu : 0 < c.unhealthyThreshold) (hh : 0 < c.healthyThreshold) (ok : Bool) :
    (h.record b ok).Tracks c b (results ++ [(b, ok)]) := by
  obtain ⟨hunhealthy, hhealthy, hcount, halive⟩ := ht
  obtain ⟨h1, h2⟩ := h.record_thresholds b ok
  have hnew : tally (h.checker.counts b.name) ok = streak (ok :: resultsOf b results) := by
    rw [hcount, streak_cons]
  refine ⟨h1.trans hunhealthy, h2.trans hhealthy, ?_, ?_⟩
  · rw [h.record_counts, if_pos rfl, resultsOf_snoc, if_pos rfl, hnew]
  · rw [h.record_eq, settle_alive, Checker.count_fst, Checker.count_snd, hnew, resultsOf_snoc, if_pos rfl]
    simp only [Checker.setCount, hunhealthy, hhealthy, halive, true_and]
    cases ok with
    | true =>
      rw [switched_true (by omega)]
      simp only [if_true, le_streak_iff hh]
    | false =>
      rw [switched_false (by omega)]
      simp only [Bool.false_eq_true, if_false, le_neg_streak_iff hu]

/-- A result of another backend, with a name and a pointer of its own. -/
theorem Health.Tracks.other {h : Health} {c : Checker} {a b : Backend} {results : List (Backend × Bool)}
    (ht : h.Tracks c b results) (hname : b.name ≠ a.name) (hkey : b.key ≠ a.key) (ok : Bool) :
    (h.record a ok).Tracks c b (results ++ [(a, ok)]) := by
  obtain ⟨hunhealthy, hhealthy, hcount, halive⟩ := ht
  obtain ⟨h1, h2⟩ := h.record_thresholds a ok
  have hab : a ≠ b := fun hab => hname (by rw [hab])
  refine ⟨h1.trans hunhealthy, h2.trans hhealthy, ?_, ?_⟩
  · rw [h.record_counts, if_neg hname, resultsOf_snoc, if_neg hab, hcount]
  · rw [h.record_eq, settle_alive, if_neg fun hk => hkey hk.1, resultsOf_snoc, if_neg hab]
    exact halive

/-- **Hysteresis.**  Whatever results a pool with distinct names is probed with, each backend's count is the signed
length of its final run, and it is alive as the switch says: it goes off at a result that completes a run of
`unhealthyThreshold` failures, and on at one that completes a run of `healthyThreshold` successes. -/
theorem hysteresis (cfg : HealthConfig) (pool : Pool) (hnames : (pool.backends.map Backend.name).Nodup)
    (results : List (Backend × Bool)) (hresults : ∀ r ∈ results, r.1 ∈ pool.backends) :
    ∀ b ∈ pool.backends,
      ((Health.start cfg).recordAll results).checker.counts b.name = streak (resultsOf b results) ∧
      ((Health.start cfg).recordAll results).alive b.key =
        switched (Checker.new cfg).unhealthyThreshold.toNat (Checker.new cfg).healthyThreshold.toNat
          (resultsOf b results) := by
  intro b hb
  suffices key : ((Health.start cfg).recordAll results).Tracks (.new cfg) b results from ⟨key.counts, key.alive⟩
  obtain ⟨hu, hh⟩ := Checker.new_thresholds cfg
  -- one more result at a time
  induction results using List.reverseRecOn with
  | nil => exact ⟨rfl, rfl, rfl, rfl⟩
  | append_singleton results r ih =>
    have hr : r.1 ∈ pool.backends := hresults r (by simp)
    have ih := ih fun q hq => hresults q (List.mem_append_left _ hq)
    have hstep : (Health.start cfg).recordAll (results ++ [r]) =
        ((Health.start cfg).recordAll results).record r.1 r.2 := by
      simp [Health.recordAll]
    rw [hstep]
    by_cases hrb : r.1 = b
    · obtain ⟨a, ok⟩ := r
      obtain rfl : a = b := hrb
      exact ih.own hu hh ok
    · refine ih.other (fun hname => hrb ?_) (fun hkey => hrb ?_) r.2
      · exact (List.inj_on_of_nodup_map hnames hb hr hname).symm
      · exact (List.inj_on_of_nodup_map pool.nodup hb hr hkey).symm

def firstBackend : Backend := .new 0 "a" 1

def secondBackend : Backend := .new 1 "b" 1

def twoBackends : Pool := ⟨[firstBackend, secondBackend], by decide⟩

/-- One backend fails twice and then recovers, the other one fails in between. -/
def flapping : List (Backend × Bool) :=
  [(firstBackend, false), (secondBackend, false), (firstBackend, false), (firstBackend, true)]

theorem hysteresis_flapping : resultsOf firstBackend flapping = [true, false, false] ∧
    ((Health.start ⟨2, 2⟩).recordAll flapping).checker.counts "a" = streak [true, false, false] ∧
    ((Health.start ⟨2, 2⟩).recordAll flapping).alive 0 = switched 2 2 [true, false, false] := by
  have hresults : resultsOf firstBackend flapping = [true, false, false] := by decide
  have h := hysteresis ⟨2, 2⟩ twoBackends (by decide) flapping (by decide) firstBackend (by decide)
  rw [hresults] at h
  exact ⟨hresults, h⟩

example : streak [true, false, false] = 1 ∧ switched 2 2 [true, false, false] = false := by decide

end Proxy
