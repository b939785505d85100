import InfraPlatform.Lib.Ring
import InfraPlatform.Proxy.Model

/-!
# The strategies as rings

Each strategy walks a ring whose runs belong to backends: round robin has one slot for each healthy backend, weighted
round robin as many as its weight, and least connections a single slot, that of the backend it picks.

* `Strategy.next_eq`: `Next` at counter `c` picks the owner of slot `c` of the ring.

The weights are summed in `int`.  A sum that overflows to a negative number or 0 makes weighted round robin a plain
one; a sum that overflows further to a positive number `T` leaves the ring with `T` slots, which the first
backends fill (`clip`).
-/

namespace Proxy

open Lib

/-! ## Weights -/

/-- A weight as a number of slots. -/
def Backend.slots (b : Backend) : Nat := b.weight.toUInt64.toNat

theorem toNat_of_pos {x : Int64} (h : 0 < x) : 0 < x.toUInt64.toNat ∧ x.toUInt64.toNat < 2 ^ 63 := by
  have hpos : 0 < x.toInt := Int64.lt_iff_toInt_lt.mp h
  have hmod : x.toInt = (x.toUInt64.toNat : Int).bmod (2 ^ 64) := BitVec.toInt_eq_toNat_bmod x.toBitVec
  have hlt := x.toUInt64.toNat_lt
  rw [Int.bmod_def] at hmod
  split at hmod <;> omega

theorem Backend.slots_pos (b : Backend) : 0 < b.slots := (toNat_of_pos b.weight_pos).1

theorem Backend.slots_lt (b : Backend) : b.slots < 2 ^ 63 := (toNat_of_pos b.weight_pos).2

/-- The first `left` slots, given out in order. -/
def clip : Nat → List Backend → List Nat
  | _, [] => []
  | left, b :: rest => if left ≤ b.slots then [left] else b.slots :: clip (left - b.slots) rest

theorem clip_pos {left : Nat} (h : 0 < left) (bs : List Backend) : ∀ r ∈ clip left bs, 0 < r := by
  induction bs generalizing left with
  | nil => simp [clip]
  | cons b rest ih =>
    rw [clip]
    split
    · simpa using h
    · intro r hr
      rcases List.mem_cons.mp hr with rfl | hr
      · exact b.slots_pos
      · exact ih (by omega) r hr

theorem clip_length_le (left : Nat) (bs : List Backend) : (clip left bs).length ≤ bs.length := by
  induction bs generalizing left with
  | nil => simp [clip]
  | cons b rest ih =>
    rw [clip]
    split
    · simp
    · have := ih (left - b.slots)
      simp only [List.length_cons]
      omega

theorem clip_sum {left : Nat} {bs : List Backend} (h : left ≤ (bs.map Backend.slots).sum) :
    (clip left bs).sum = left := by
  induction bs generalizing left with
  | nil =>
    simp at h
    simp [clip, h]
  | cons b rest ih =>
    rw [List.map_cons, List.sum_cons] at h
    rw [clip]
    split
    · simp
    · rw [List.sum_cons, ih (by omega)]
      omega

/-- The next cumulative weight does not wrap as a `uint64`. -/
theorem cumulative_add {cumulative : Int64} (h : cumulative.toUInt64.toNat < 2 ^ 63) (b : Backend) :
    (cumulative + b.weight).toUInt64.toNat = cumulative.toUInt64.toNat + b.slots := by
  have hb := b.slots_lt
  unfold Backend.slots at hb ⊢
  rw [Int64.toUInt64_add, UInt64.toNat_add, Nat.mod_eq_of_lt (by omega)]

/-- The walk over the cumulative weights finds the owner of the slot. -/
theorem walk_eq {T pos : Nat} (hpos : pos < T) (hT : T < 2 ^ 63) (b : Backend) (rest : List Backend)
    {cumulative : Int64} (hC : cumulative.toUInt64.toNat ≤ pos)
    (hsum : T ≤ cumulative.toUInt64.toNat + ((b :: rest).map Backend.slots).sum) :
    (b :: rest)[Ring.owner (clip (T - cumulative.toUInt64.toNat) (b :: rest)) (pos - cumulative.toUInt64.toNat)]? =
      some (WeightedRoundRobin.walk pos cumulative b rest) := by
  induction rest generalizing b cumulative with
  | nil =>
    rw [List.map_cons, List.map_nil, List.sum_singleton] at hsum
    rw [clip, if_pos (by omega), Ring.owner, if_pos (by omega), WeightedRoundRobin.walk]
    rfl
  | cons b' rest ih =>
    rw [List.map_cons, List.sum_cons] at hsum
    rw [clip, WeightedRoundRobin.walk, cumulative_add (by omega)]
    by_cases hleft : T - cumulative.toUInt64.toNat ≤ b.slots
    · -- the slots end in this run
      rw [if_pos hleft, if_pos (by omega), Ring.owner, if_pos (by omega)]
      rfl
    · rw [if_neg hleft, Ring.owner]
      by_cases hin : pos < cumulative.toUInt64.toNat + b.slots
      · rw [if_pos hin, if_pos (by omega)]
        rfl
      · rw [if_neg hin, if_neg (by omega), List.getElem?_cons_succ, Nat.sub_sub, Nat.sub_sub,
          ← cumulative_add (by omega) b]
        exact ih b' (by rw [cumulative_add (by omega)]; omega) (by rw [cumulative_add (by omega)]; omega)

theorem totalWeight_toNat (bs : List Backend) :
    (WeightedRoundRobin.totalWeight bs).toUInt64.toNat = (bs.map Backend.slots).sum % 2 ^ 64 := by
  have hfold (start : Int64) : (bs.foldl (fun total b => total + b.weight) start).toUInt64.toNat =
      (start.toUInt64.toNat + (bs.map Backend.slots).sum) % 2 ^ 64 := by
    induction bs generalizing start with
    | nil => simp [Nat.mod_eq_of_lt start.toUInt64.toNat_lt]
    | cons b rest ih =>
      rw [List.foldl_cons, ih, List.map_cons, List.sum_cons, Int64.toUInt64_add, UInt64.toNat_add, Backend.slots,
        Nat.mod_add_mod, Nat.add_assoc]
  have hzero : (0 : Int64).toUInt64.toNat = 0 := rfl
  rw [WeightedRoundRobin.totalWeight, hfold, hzero, Nat.zero_add]

/-! ## The rings -/

/-- The runs of a strategy's ring. -/
def Strategy.ring (strategy : Strategy) (healthy : List Backend) : List Nat :=
  match strategy with
  | .roundRobin => healthy.map fun _ => 1
  | .leastConn => [1]
  | .weightedRoundRobin =>
    if WeightedRoundRobin.totalWeight healthy ≤ 0 then healthy.map fun _ => 1
    else clip (WeightedRoundRobin.totalWeight healthy).toUInt64.toNat healthy

/-- The backends that the runs belong to. -/
def Strategy.runsOf (strategy : Strategy) (healthy : List Backend) (activeConns : Nat → Int) : List Backend :=
  match strategy, healthy with
  | .leastConn, b :: rest => [LeastConn.pick activeConns b rest]
  | _, healthy => healthy

/-- The slots of a ring with one slot for each backend. -/
theorem units_sum (bs : List Backend) : (bs.map fun _ => 1).sum = bs.length := by simp

theorem owner_units {bs : List Backend} {s : Nat} (h : s < bs.length) : Ring.owner (bs.map fun _ => 1) s = s := by
  induction bs generalizing s with
  | nil => simp at h
  | cons b rest ih =>
    rw [List.length_cons] at h
    rw [List.map_cons, Ring.owner]
    split
    · omega
    · rw [ih (by omega)]
      omega

theorem isLast_units {bs : List Backend} {s : Nat} (h : s < bs.length) :
    Ring.isLast (bs.map fun _ => 1) s = true := by
  induction bs generalizing s with
  | nil => simp at h
  | cons b rest ih =>
    rw [List.length_cons] at h
    rw [List.map_cons, Ring.isLast]
    split
    · simp
      omega
    · exact ih (by omega)

theorem roundRobin_eq (c : UInt64) (b : Backend) (rest : List Backend) :
    (b :: rest)[Ring.owner ((b :: rest).map fun _ => 1) (c.toNat % ((b :: rest).map fun _ => 1).sum)]? =
      some (RoundRobin.pick c b rest) := by
  have hlt : c.toNat % (b :: rest).length < (b :: rest).length := Nat.mod_lt _ (Nat.succ_pos _)
  rw [units_sum, owner_units hlt, List.getElem?_eq_getElem hlt]
  rfl

theorem weighted_eq (c : UInt64) (b : Backend) (rest : List Backend)
    (h : ¬ WeightedRoundRobin.totalWeight (b :: rest) ≤ 0) :
    (clip (WeightedRoundRobin.totalWeight (b :: rest)).toUInt64.toNat (b :: rest)).sum =
        (WeightedRoundRobin.totalWeight (b :: rest)).toUInt64.toNat ∧
    (b :: rest)[Ring.owner (clip (WeightedRoundRobin.totalWeight (b :: rest)).toUInt64.toNat (b :: rest))
      (c.toNat % (WeightedRoundRobin.totalWeight (b :: rest)).toUInt64.toNat)]? =
        some (WeightedRoundRobin.pick c b rest) := by
  obtain ⟨hpos, hlt⟩ := toNat_of_pos (Int64.not_le.mp h)
  have hle : (WeightedRoundRobin.totalWeight (b :: rest)).toUInt64.toNat ≤ ((b :: rest).map Backend.slots).sum := by
    rw [totalWeight_toNat]
    exact Nat.mod_le _ _
  refine ⟨clip_sum hle, ?_⟩
  have hstart : (0 : Int64).toUInt64.toNat ≤ c.toNat % (WeightedRoundRobin.totalWeight (b :: rest)).toUInt64.toNat :=
    Nat.zero_le _
  have hwalk := walk_eq (Nat.mod_lt c.toNat hpos) hlt b rest hstart (hle.trans (Nat.le_add_left _ _))
  rw [WeightedRoundRobin.pick, if_neg h]
  exact hwalk

namespace Strategy

variable (strategy : Strategy) (b : Backend) (rest : List Backend)

theorem ring_pos : ∀ r ∈ strategy.ring (b :: rest), 0 < r := by
  have hunits : ∀ r ∈ (b :: rest).map fun _ => 1, 0 < r := by
    intro r hr
    obtain ⟨_, _, rfl⟩ := List.mem_map.mp hr
    exact Nat.one_pos
  unfold ring
  cases strategy with
  | roundRobin => exact hunits
  | leastConn => simp
  | weightedRoundRobin =>
    simp only
    split
    · exact hunits
    · next h => exact clip_pos (toNat_of_pos (Int64.not_le.mp h)).1 _

theorem ring_sum_pos : 0 < (strategy.ring (b :: rest)).sum := by
  have hunits : 0 < ((b :: rest).map fun _ => 1).sum := by
    rw [units_sum]
    exact Nat.succ_pos _
  unfold ring
  cases strategy with
  | roundRobin => exact hunits
  | leastConn => exact Nat.one_pos
  | weightedRoundRobin =>
    simp only
    split
    · exact hunits
    · next h =>
      rw [(weighted_eq 0 b rest h).1]
      exact (toNat_of_pos (Int64.not_le.mp h)).1

/-- **`Next` picks the owner of the slot that the counter stands for.** -/
theorem next_eq (activeConns : Nat → Int) (c : UInt64) :
    (strategy.next (b :: rest) activeConns c).1 =
      (strategy.runsOf (b :: rest) activeConns)[Ring.owner (strategy.ring (b :: rest))
        (c.toNat % (strategy.ring (b :: rest)).sum)]? := by
  cases strategy with
  | roundRobin => exact (roundRobin_eq c b rest).symm
  | leastConn =>
    simp only [next, ring, runsOf, List.sum_singleton, Nat.mod_one]
    rfl
  | weightedRoundRobin =>
    simp only [next, ring, runsOf]
    split
    · next h =>
      rw [WeightedRoundRobin.pick, if_pos h]
      exact (roundRobin_eq c b rest).symm
    · next h =>
      obtain ⟨hsum, hpick⟩ := weighted_eq c b rest h
      rw [hsum, hpick]

theorem ring_length_le (activeConns : Nat → Int) :
    (strategy.ring (b :: rest)).length ≤ (strategy.runsOf (b :: rest) activeConns).length := by
  cases strategy with
  | roundRobin => simp [ring, runsOf]
  | leastConn => simp [ring, runsOf]
  | weightedRoundRobin =>
    simp only [ring, runsOf]
    split
    · simp
    · exact clip_length_le _ _

end Strategy

end Proxy
