import InfraPlatform.Proxy.Ring
import InfraPlatform.Proxy.Serve

/-!
# Failover

The handler leaves it to the balancer to find another backend for a retry.  A failed attempt gives its connection
back before the next `Next`, so least connections picks the same backend again; weighted round robin stays with
a backend until its weight is used up; and round robin moves on by one, but for the wrap of the counter.

* `tried_attemptLoop`: the backends that a request tries are the owners of consecutive slots of the ring.
* `fails_over_iff`: when every retry goes to a backend not yet tried.
-/

namespace Proxy

open Lib

/-! ## What a request tries -/

/-- The strategy over a healthy list that stays the same; the `k`-th attempt ends with `outcomes k`. -/
def Strategy.env (strategy : Strategy) (healthy : List Backend) (outcomes : Nat → Outcome) : Env UInt64 where
  next w := strategy.next healthy w.conns w.env
  clientDo _ w := (outcomes w.tried.length, w.env)

/-- The retries out of a budget, from attempt `a` on. -/
def retriesMade (outcomes : Nat → Outcome) : Nat → Nat → Nat
  | 0, _ => 0
  | budget + 1, a => if (outcomes a).failed.isSome then retriesMade outcomes budget (a + 1) + 1 else 0

theorem retriesMade_le (outcomes : Nat → Outcome) (budget a : Nat) : retriesMade outcomes budget a ≤ budget := by
  induction budget generalizing a with
  | zero => exact le_rfl
  | succ budget ih =>
    rw [retriesMade]
    split
    · have := ih (a + 1)
      omega
    · omega

/-- The counter after `Next`. -/
def Strategy.advance : Strategy → UInt64 → UInt64
  | .leastConn, c => c
  | .roundRobin, c | .weightedRoundRobin, c => c + 1

def Strategy.pick (strategy : Strategy) (b : Backend) (rest : List Backend) (activeConns : Nat → Int) (c : UInt64) :
    Backend :=
  match strategy with
  | .roundRobin => RoundRobin.pick c b rest
  | .leastConn => LeastConn.pick activeConns b rest
  | .weightedRoundRobin => WeightedRoundRobin.pick c b rest

theorem Strategy.next_cons (strategy : Strategy) (b : Backend) (rest : List Backend) (activeConns : Nat → Int)
    (c : UInt64) : strategy.next (b :: rest) activeConns c =
      (some (strategy.pick b rest activeConns c), strategy.advance c) := by
  cases strategy <;> rfl

section loop

variable (strategy : Strategy) (b : Backend) (rest : List Backend) (outcomes : Nat → Outcome)

/-- One round: an attempt on the strategy's pick, and then either the end or the next round. -/
theorem strategy_round (n last : Nat) (w : World UInt64) :
    ∃ w' : World UInt64,
      w'.tried = w.tried ++ [(strategy.pick b rest w.conns w.env, outcomes w.tried.length)] ∧
      w'.env = strategy.advance w.env ∧ w'.conns = w.conns ∧
      if (outcomes w.tried.length).failed.isSome ∧ n ≠ 0 then
        ∃ status, Prog.run (exec (strategy.env (b :: rest) outcomes)) (attemptLoop true (n + 1) last) w =
          Prog.run (exec (strategy.env (b :: rest) outcomes)) (attemptLoop true n status) w'
      else (Prog.run (exec (strategy.env (b :: rest) outcomes)) (attemptLoop true (n + 1) last) w).2.tried =
        w'.tried := by
  have hnext : (strategy.env (b :: rest) outcomes).next w =
      (some (strategy.pick b rest w.conns w.env), strategy.advance w.env) := strategy.next_cons b rest w.conns w.env
  have hout : (w.asking (strategy.env (b :: rest) outcomes)).outcome (strategy.env (b :: rest) outcomes)
      (strategy.pick b rest w.conns w.env) = outcomes w.tried.length := rfl
  have henv : ((w.asking (strategy.env (b :: rest) outcomes)).trying (strategy.env (b :: rest) outcomes)
      (strategy.pick b rest w.conns w.env)).env = strategy.advance w.env := congrArg Prod.snd hnext
  rw [run_round]
  simp only [hnext, hout]
  cases hfail : (outcomes w.tried.length).failed with
  | none => exact ⟨_, rfl, henv, rfl, rfl⟩
  | some status =>
    by_cases hn : n = 0
    · subst hn
      simp only [Option.isSome_some, ne_eq, not_true_eq_false, and_false, if_false, Bool.not_true, beq_self_eq_true,
        Bool.or_true, if_true, run_giveUp]
      exact ⟨_, rfl, henv, rfl, rfl⟩
    · simp only [Option.isSome_some, ne_eq, hn, not_false_eq_true, and_true, if_true, Bool.not_true, Bool.false_or,
        beq_iff_eq, if_false, Prog.run_bind]
      refine ⟨_, ?_, ?_, ?_, status, rfl⟩
      · rfl
      · exact henv
      · rfl

/-- **The backends tried**, with `n` retries left. -/
theorem tried_attemptLoop (n last : Nat) (w : World UInt64) :
    (Prog.run (exec (strategy.env (b :: rest) outcomes)) (attemptLoop true (n + 1) last) w).2.tried.map Prod.fst =
      w.tried.map Prod.fst ++ (List.range (retriesMade outcomes n w.tried.length + 1)).map
        fun k => strategy.pick b rest w.conns (strategy.advance^[k] w.env) := by
  induction n generalizing last w with
  | zero =>
    obtain ⟨w', htried, -, -, hround⟩ := strategy_round strategy b rest outcomes 0 last w
    rw [if_neg (by simp)] at hround
    rw [hround, htried]
    simp [retriesMade]
  | succ n ih =>
    obtain ⟨w', htried, henv, hconns, hround⟩ := strategy_round strategy b rest outcomes (n + 1) last w
    rw [retriesMade]
    by_cases hfail : (outcomes w.tried.length).failed.isSome = true
    · rw [if_pos ⟨hfail, Nat.succ_ne_zero n⟩] at hround
      obtain ⟨status, hround⟩ := hround
      have hlen : w'.tried.length = w.tried.length + 1 := by rw [htried]; simp
      rw [hround, ih, if_pos hfail, hlen, hconns, henv, htried,
        List.range_succ_eq_map (n := retriesMade outcomes n (w.tried.length + 1) + 1)]
      simp [List.map_map, Function.comp_def]
    · rw [if_neg (fun h => hfail h.1)] at hround
      rw [hround, htried, if_neg hfail]
      simp

end loop

/-! ## New backends -/

/-- Every retry goes to a backend not yet tried, as long as there is one. -/
def FailsOver (healthy tried : List Backend) : Prop :=
  ∀ k b, 0 < k → tried[k]? = some b → (∃ u ∈ healthy, u.key ∉ (tried.take k).map Backend.key) →
    b.key ∉ (tried.take k).map Backend.key

/-- With `K` the retries that have a new backend to go to: the next `K` slots from the counter on are each the last
slot of a backend, and the walk over the ring meets no backend twice. -/
def Spread (strategy : Strategy) (healthy : List Backend) (counter : UInt64) (retries : Nat) : Prop :=
  min retries (healthy.length - 1) = 0 ∨
    Ring.Spreads (strategy.ring healthy) (2 ^ 64) counter.toNat (min retries (healthy.length - 1))

instance (strategy : Strategy) (healthy : List Backend) (counter : UInt64) (retries : Nat) :
    Decidable (Spread strategy healthy counter retries) := inferInstanceAs (Decidable (_ ∨ _))

/-- Least connections never spreads retries. -/
theorem spread_leastConn_iff (healthy : List Backend) (counter : UInt64) (retries : Nat) :
    Spread .leastConn healthy counter retries ↔ min retries (healthy.length - 1) = 0 := by
  constructor
  · rintro (h | ⟨-, h⟩)
    · exact h
    · simp only [Strategy.ring, List.length_singleton] at h
      split at h
      · omega
      · have := counter.toNat_lt
        omega
  · exact .inl

/-- Round robin does, unless the counter wraps meanwhile. -/
theorem spread_roundRobin (healthy : List Backend) {counter : UInt64} {retries : Nat}
    (h : counter.toNat + retries < 2 ^ 64) : Spread .roundRobin healthy counter retries := by
  by_cases hK : min retries (healthy.length - 1) = 0
  · exact .inl hK
  · refine .inr ⟨fun k hk _ => ?_, ?_⟩
    · have hlen : (Strategy.roundRobin.ring healthy).sum = healthy.length := units_sum healthy
      have hlt : (counter.toNat + k) % 2 ^ 64 % (Strategy.roundRobin.ring healthy).sum < healthy.length := by
        rw [hlen]
        exact Nat.mod_lt _ (by omega)
      exact isLast_units hlt
    · rw [if_pos (by omega)]
      simp only [Strategy.ring, List.length_map]
      omega

theorem advance_toNat (strategy : Strategy) (b : Backend) (rest : List Backend) (c : UInt64) (k : Nat) :
    Ring.owner (strategy.ring (b :: rest)) ((strategy.advance^[k] c).toNat % (strategy.ring (b :: rest)).sum) =
      Ring.owner (strategy.ring (b :: rest)) ((c.toNat + k) % 2 ^ 64 % (strategy.ring (b :: rest)).sum) := by
  have hcount (k : Nat) : ((fun c : UInt64 => c + 1)^[k] c).toNat = (c.toNat + k) % 2 ^ 64 := by
    induction k with
    | zero => exact (Nat.mod_eq_of_lt c.toNat_lt).symm
    | succ k ih =>
      rw [Function.iterate_succ_apply', UInt64.toNat_add, ih, UInt64.toNat_one, Nat.mod_add_mod, Nat.add_assoc]
  cases strategy with
  | leastConn =>
    -- the ring has one slot
    simp only [Strategy.ring, List.sum_singleton, Nat.mod_one]
  | roundRobin | weightedRoundRobin => exact congrArg (fun c => Ring.owner _ (c % _)) (hcount k)

/-- The keys of the backends that the runs belong to are different. -/
theorem runsOf_nodup (strategy : Strategy) {b : Backend} {rest : List Backend} (activeConns : Nat → Int)
    (h : ((b :: rest).map Backend.key).Nodup) :
    ((strategy.runsOf (b :: rest) activeConns).map Backend.key).Nodup := by
  cases strategy with
  | leastConn => exact List.nodup_singleton _
  | roundRobin | weightedRoundRobin => exact h

/-- Picks are equal exactly where the slots have the same owner. -/
theorem pick_key_eq_iff (strategy : Strategy) {b : Backend} {rest : List Backend} (activeConns : Nat → Int)
    (hnd : ((b :: rest).map Backend.key).Nodup) (c c' : UInt64) :
    (strategy.pick b rest activeConns c).key = (strategy.pick b rest activeConns c').key ↔
      Ring.owner (strategy.ring (b :: rest)) (c.toNat % (strategy.ring (b :: rest)).sum) =
        Ring.owner (strategy.ring (b :: rest)) (c'.toNat % (strategy.ring (b :: rest)).sum) := by
  have hpick (c : UInt64) : (strategy.runsOf (b :: rest) activeConns)[Ring.owner (strategy.ring (b :: rest))
      (c.toNat % (strategy.ring (b :: rest)).sum)]? = some (strategy.pick b rest activeConns c) := by
    rw [← strategy.next_eq, strategy.next_cons]
  have hkey (c : UInt64) := congrArg (Option.map Backend.key) (hpick c)
  simp only [← List.getElem?_map, Option.map_some] at hkey
  have hlt (c : UInt64) : Ring.owner (strategy.ring (b :: rest)) (c.toNat % (strategy.ring (b :: rest)).sum) <
      ((strategy.runsOf (b :: rest) activeConns).map Backend.key).length := by
    rw [List.length_map]
    exact (Ring.owner_lt (Nat.mod_lt _ (strategy.ring_sum_pos b rest))).trans_le
      (strategy.ring_length_le b rest activeConns)
  rw [← Option.some_inj, ← hkey c, ← hkey c', List.getElem?_inj (hlt c) (runsOf_nodup strategy activeConns hnd)]

theorem leastConn_mem (activeConns : Nat → Int) (b : Backend) (rest : List Backend) :
    LeastConn.pick activeConns b rest ∈ b :: rest := by
  unfold LeastConn.pick
  induction rest generalizing b with
  | nil => exact List.mem_cons_self
  | cons b' rest ih =>
    rw [List.foldl_cons]
    split
    · exact List.mem_cons_of_mem _ (ih b')
    · rcases List.mem_cons.mp (ih b) with h | h
      · rw [h]
        exact List.mem_cons_self
      · exact List.mem_cons_of_mem _ (List.mem_cons_of_mem _ h)

theorem pick_mem (strategy : Strategy) (b : Backend) (rest : List Backend) (activeConns : Nat → Int) (c : UInt64) :
    strategy.pick b rest activeConns c ∈ b :: rest := by
  have hmem : strategy.pick b rest activeConns c ∈ strategy.runsOf (b :: rest) activeConns := by
    refine List.mem_of_getElem? ((strategy.next_eq b rest activeConns c).symm.trans ?_)
    rw [strategy.next_cons]
  cases strategy with
  | leastConn => exact leastConn_mem activeConns b rest
  | roundRobin | weightedRoundRobin => exact hmem

/-- The property of a list of picks. -/
theorem failsOver_map_iff {healthy : List Backend} (hnd : (healthy.map Backend.key).Nodup) {g : Nat → Backend}
    {r : Nat} (hmem : ∀ k ≤ r, g k ∈ healthy) : FailsOver healthy ((List.range (r + 1)).map g) ↔
      Ring.Distinct (fun k => (g k).key) (min r (healthy.length - 1)) := by
  have hfresh := Ring.fresh_iff_distinct hnd (g := fun k => (g k).key) (r := r)
    fun k hk => List.mem_map_of_mem (hmem k hk)
  rw [List.length_map] at hfresh
  rw [← hfresh]
  have htake {k : Nat} (hk : k ≤ r) : (((List.range (r + 1)).map g).take k).map Backend.key =
      (List.range k).map fun k => (g k).key := by
    rw [← List.map_take, List.take_range, Nat.min_eq_left (by omega), List.map_map]
    rfl
  have hget {k : Nat} {b : Backend} : ((List.range (r + 1)).map g)[k]? = some b ↔ k ≤ r ∧ g k = b := by
    rw [List.getElem?_map, Option.map_eq_some_iff]
    constructor
    · rintro ⟨j, hj, rfl⟩
      obtain ⟨hlt, rfl⟩ := List.getElem?_eq_some_iff.mp hj
      rw [List.length_range] at hlt
      rw [List.getElem_range]
      exact ⟨by omega, rfl⟩
    · rintro ⟨hk, rfl⟩
      exact ⟨k, by rw [List.getElem?_range (by omega)], rfl⟩
  unfold FailsOver
  constructor
  · intro h k hk hkr hleft
    have hnew := h k (g k) hk (hget.mpr ⟨hkr, rfl⟩)
    rw [htake hkr] at hnew
    refine hnew ?_
    obtain ⟨u, hu, hnot⟩ := hleft
    obtain ⟨b, hb, rfl⟩ := List.mem_map.mp hu
    exact ⟨b, hb, hnot⟩
  · intro h k b hk hb hleft
    obtain ⟨hkr, rfl⟩ := hget.mp hb
    rw [htake hkr] at hleft ⊢
    obtain ⟨u, hu, hnot⟩ := hleft
    exact h k hk hkr ⟨u.key, List.mem_map_of_mem hu, hnot⟩

theorem Pool.healthy_nodup (pool : Pool) (alive : Nat → Bool) : ((pool.healthy alive).map Backend.key).Nodup :=
  pool.nodup.sublist (List.filter_sublist.map _)

/-- What an idempotent request tries. -/
theorem tried_serve (strategy : Strategy) (b : Backend) (rest : List Backend) (outcomes : Nat → Outcome)
    {maxRetries : Int64} {method : String} (hm : idempotentMethods method = true) (w : World UInt64) {n : Nat}
    (hn : (maxRetries + 1).toInt.toNat = n + 1) :
    (serve (strategy.env (b :: rest) outcomes) maxRetries method w).tried.map Prod.fst =
      (List.range (retriesMade outcomes n 0 + 1)).map
        fun k => strategy.pick b rest w.conns (strategy.advance^[k] w.env) := by
  unfold serve serveHTTP
  rw [Prog.run_bind, hm, hn]
  exact tried_attemptLoop strategy b rest outcomes n 0 { w with asked := [], tried := [], written := [] }

/-- Without a healthy backend, or without an attempt, nothing is tried. -/
theorem tried_serve_nil (strategy : Strategy) (healthy : List Backend) (outcomes : Nat → Outcome) (maxRetries : Int64)
    (method : String) (w : World UInt64) (h : healthy = [] ∨ (maxRetries + 1).toInt.toNat = 0) :
    (serve (strategy.env healthy outcomes) maxRetries method w).tried = [] := by
  unfold serve serveHTTP
  rw [Prog.run_bind]
  cases hn : (maxRetries + 1).toInt.toNat with
  | zero =>
    rw [attemptLoop, run_giveUp]
    rfl
  | succ n =>
    obtain rfl : healthy = [] := by
      rcases h with h | h
      · exact h
      · omega
    rw [run_round]
    rfl

/-- **Failover.**  Every retry of an idempotent request goes to a backend not yet tried, as long as there is a healthy
one, exactly where the strategy's ring spreads the retries. -/
theorem fails_over_iff (strategy : Strategy) (pool : Pool) (alive : Nat → Bool) (outcomes : Nat → Outcome)
    (maxRetries : Int64) {method : String} (hm : idempotentMethods method = true) (w : World UInt64) :
    FailsOver (pool.healthy alive)
        ((serve (strategy.env (pool.healthy alive) outcomes) maxRetries method w).tried.map Prod.fst) ↔
      Spread strategy (pool.healthy alive) w.env (retriesMade outcomes ((maxRetries + 1).toInt.toNat - 1) 0) := by
  have hnd := pool.healthy_nodup alive
  generalize pool.healthy alive = healthy at hnd
  unfold Spread
  cases healthy with
  | nil =>
    rw [tried_serve_nil strategy [] outcomes maxRetries method w (.inl rfl)]
    simp [FailsOver]
  | cons b rest =>
    cases hn : (maxRetries + 1).toInt.toNat with
    | zero =>
      rw [tried_serve_nil strategy (b :: rest) outcomes maxRetries method w (.inr hn)]
      simp [FailsOver, retriesMade]
    | succ n =>
      have hbound : n + 1 < 2 ^ 63 := by
        have := (maxRetries + 1).toInt_lt
        omega
      have hle := retriesMade_le outcomes n 0
      rw [tried_serve strategy b rest outcomes hm w hn, Nat.add_sub_cancel,
        failsOver_map_iff hnd fun k _ => pick_mem strategy b rest w.conns _]
      have hK : min (retriesMade outcomes n 0) ((b :: rest).length - 1) < 2 ^ 64 := by omega
      generalize min (retriesMade outcomes n 0) ((b :: rest).length - 1) = K at hK
      have hkeys : Ring.Distinct (fun k => (strategy.pick b rest w.conns (strategy.advance^[k] w.env)).key) K ↔
          Ring.Spreads (strategy.ring (b :: rest)) (2 ^ 64) w.env.toNat K := by
        refine (Ring.Distinct.congr fun i _ j _ => ?_).trans (Ring.distinct_iff_spreads
          (strategy.ring_pos b rest) (strategy.ring_sum_pos b rest) w.env.toNat_lt hK)
        rw [pick_key_eq_iff strategy w.conns hnd, advance_toNat, advance_toNat]
      rw [hkeys]
      constructor
      · exact .inr
      · rintro (rfl | h)
        · exact Ring.spreads_zero (Nat.zero_lt_of_lt (Ring.owner_lt (strategy.ring_sum_pos b rest))) w.env.toNat_lt
        · exact h

/-- Two backends of different weights. -/
def pair : Pool := ⟨[Backend.new 0 "b1" 3, Backend.new 1 "b2" 1], by decide⟩

theorem fails_over_iff_roundRobin :
    (serve (Strategy.roundRobin.env (pair.healthy fun _ => true) fun _ => .failure) 1 "GET" { env := 4 }).tried.map
      (fun t => t.1.name) = ["b1", "b2"] ∧
    FailsOver (pair.healthy fun _ => true)
      ((serve (Strategy.roundRobin.env (pair.healthy fun _ => true) fun _ => .failure) 1 "GET" { env := 4 }).tried.map
        Prod.fst) :=
  ⟨by decide +kernel,
    (fails_over_iff .roundRobin pair (fun _ => true) (fun _ => .failure) 1 (by decide) { env := 4 }).mpr
      (by decide +kernel)⟩

/-- Least connections and weighted round robin retry on the backend that has just failed. -/
theorem retried_same_backend :
    ¬ FailsOver (pair.healthy fun _ => true)
      ((serve (Strategy.leastConn.env (pair.healthy fun _ => true) fun _ => .failure) 1 "GET" { env := 0 }).tried.map
        Prod.fst) ∧
    ¬ FailsOver (pair.healthy fun _ => true)
      ((serve (Strategy.weightedRoundRobin.env (pair.healthy fun _ => true) fun _ => .failure) 1 "GET"
        { env := 0 }).tried.map Prod.fst) := by
  have hsame {tried : List Backend} (htried : tried = [Backend.new 0 "b1" 3, Backend.new 0 "b1" 3]) :
      ¬ FailsOver (pair.healthy fun _ => true) tried := by
    rw [htried]
    intro h
    refine h 1 _ Nat.one_pos rfl ⟨Backend.new 1 "b2" 1, ?_, ?_⟩ ?_ <;> decide +kernel
  exact ⟨hsame (by decide +kernel), hsame (by decide +kernel)⟩

end Proxy
