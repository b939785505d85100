import InfraPlatform.Proxy.Ring

/-!
# What the strategies pick

`Next` of the three strategies over a slice of backends, with the panics that Go's operators can raise, and what
the picks of one call and of a sequence of calls are.

* `Strategy.run_eq`: no panic; the code computes what `Strategy.next` says.
* `next_healthy`: an error exactly if nobody is alive, otherwise a backend that was alive; for least connections the
  first one with the fewest.
* `weighted_calls_units`: with unit weights weighted round robin and round robin are the same, call by call.
* `weighted_window`: in a turn of weighted round robin each backend comes as often as its weight says.
-/

namespace Proxy

open Lib

/-! ## Slices and panics -/

/-- A slice of backends, whose length is an `int`.  A backend may be listed twice. -/
structure Slice where
  backends : List Backend
  length_lt : backends.length < 2 ^ 63

namespace Slice

/-- `pool.Healthy()` -/
def healthy (pool : Slice) (alive : Nat → Bool) : Slice where
  backends := pool.backends.filter fun b => alive b.key
  length_lt := (List.length_filter_le _ _).trans_lt pool.length_lt

/-- `len(healthy)` -/
def len (healthy : Slice) : Int64 := Int64.ofNat healthy.backends.length

end Slice

inductive Panic where
  | divideByZero | indexOutOfRange
deriving DecidableEq, Repr

/-- `x % y` -/
def remainder (x y : UInt64) : Except Panic UInt64 := if y = 0 then .error .divideByZero else .ok (x % y)

namespace Slice

/-- `healthy[i]` -/
def index (healthy : Slice) (i : Int) : Except Panic Backend :=
  if i < 0 then .error .indexOutOfRange
  else match healthy.backends[i.toNat]? with
    | some b => .ok b
    | none => .error .indexOutOfRange

/-- `healthy[1:]` -/
def tail (healthy : Slice) : Except Panic (List Backend) :=
  if healthy.len < 1 then .error .indexOutOfRange else .ok (healthy.backends.drop 1)

end Slice

/-! ## `Next` -/

/-- The pick of `RoundRobin.Next`, and of `WeightedRoundRobin.Next` without weights; `counter.Add(1) - 1` is the
counter before. -/
def RoundRobin.advance (healthy : Slice) (counter : UInt64) : Except Panic (Option Backend × UInt64) := do
  let idx := counter + 1 - 1
  let i ← remainder idx healthy.len.toUInt64
  let b ← healthy.index i.toNat
  pure (some b, counter + 1)

def RoundRobin.next (healthy : Slice) (counter : UInt64) : Except Panic (Option Backend × UInt64) :=
  if healthy.len = 0 then pure (none, counter) else RoundRobin.advance healthy counter

/-- The loop over the cumulative weights. -/
def WeightedRoundRobin.search (pos : UInt64) (cumulative : Int64) : List Backend → Option Backend
  | [] => none
  | b :: rest => if pos < (cumulative + b.weight).toUInt64 then some b else search pos (cumulative + b.weight) rest

def WeightedRoundRobin.next (healthy : Slice) (counter : UInt64) : Except Panic (Option Backend × UInt64) :=
  if healthy.len = 0 then pure (none, counter)
  else if totalWeight healthy.backends ≤ 0 then RoundRobin.advance healthy counter
  else do
    let idx := counter + 1 - 1
    let pos ← remainder idx (totalWeight healthy.backends).toUInt64
    match search pos 0 healthy.backends with
    | some b => pure (some b, counter + 1)
    | none => do
      let b ← healthy.index (healthy.len - 1).toInt
      pure (some b, counter + 1)

def LeastConn.next (activeConns : Nat → Int) (healthy : Slice) (counter : UInt64) :
    Except Panic (Option Backend × UInt64) :=
  if healthy.len = 0 then pure (none, counter)
  else do
    let best ← healthy.index 0
    let rest ← healthy.tail
    pure (some (rest.foldl (fun best b => if activeConns b.key < activeConns best.key then b else best) best), counter)

/-- `Next` of the balancer that the configuration names; least connections has no counter. -/
def Strategy.run (strategy : Strategy) (healthy : Slice) (activeConns : Nat → Int) (counter : UInt64) :
    Except Panic (Option Backend × UInt64) :=
  match strategy with
  | .roundRobin => RoundRobin.next healthy counter
  | .leastConn => LeastConn.next activeConns healthy counter
  | .weightedRoundRobin => WeightedRoundRobin.next healthy counter

/-! ## No panics -/

namespace Slice

variable {healthy : Slice} {b : Backend} {rest : List Backend}

theorem len_toUInt64 (healthy : Slice) : healthy.len.toUInt64.toNat = healthy.backends.length := by
  have hlt := healthy.length_lt
  have hlen : healthy.len.toUInt64 = UInt64.ofNat healthy.backends.length := rfl
  rw [hlen, UInt64.toNat_ofNat_of_lt' (show healthy.backends.length < 2 ^ 64 by omega)]

theorem len_toInt (healthy : Slice) : healthy.len.toInt = healthy.backends.length := by
  have hlt := healthy.length_lt
  exact Int64.toInt_ofNat_of_lt hlt

theorem len_eq_zero (healthy : Slice) : healthy.len = 0 ↔ healthy.backends = [] := by
  have hlen := healthy.len_toInt
  rw [← Int64.toInt_inj, hlen, Int64.toInt_zero]
  simp

theorem len_ne_zero (h : healthy.backends = b :: rest) : ¬ healthy.len = 0 := by
  rw [healthy.len_eq_zero, h]
  exact List.cons_ne_nil b rest

theorem index_eq {i : Nat} (h : healthy.backends[i]? = some b) : healthy.index i = pure b := by
  unfold index
  rw [if_neg (by omega), Int.toNat_natCast, h]
  rfl

theorem tail_eq (h : healthy.backends = b :: rest) : healthy.tail = pure rest := by
  have hlen := healthy.len_toInt
  rw [h, List.length_cons] at hlen
  have hone : ¬ healthy.len < 1 := by
    rw [Int64.lt_iff_toInt_lt, hlen, Int64.toInt_one]
    omega
  rw [tail, if_neg hone, h]
  rfl

end Slice

theorem remainder_eq {x y : UInt64} (h : 0 < y.toNat) : remainder x y = pure (x % y) := by
  have hne : y ≠ 0 := fun h0 => by rw [h0] at h; exact absurd h (by decide)
  rw [remainder, if_neg hne]
  rfl

variable {healthy : Slice} {b : Backend} {rest : List Backend}

theorem RoundRobin.advance_eq (h : healthy.backends = b :: rest) (counter : UInt64) :
    RoundRobin.advance healthy counter = .ok (some (RoundRobin.pick counter b rest), counter + 1) := by
  have hlen := healthy.len_toUInt64
  rw [h] at hlen
  have hget : healthy.backends[counter.toNat % (b :: rest).length]? = some (RoundRobin.pick counter b rest) := by
    have hlt : counter.toNat % (b :: rest).length < (b :: rest).length := Nat.mod_lt _ (Nat.succ_pos _)
    rw [h, List.getElem?_eq_getElem hlt]
    rfl
  have hpos : 0 < healthy.len.toUInt64.toNat := by
    rw [hlen]
    exact Nat.succ_pos _
  unfold RoundRobin.advance
  simp only [UInt64.add_sub_cancel, remainder_eq hpos, pure_bind, UInt64.toNat_mod, hlen, Slice.index_eq hget]
  rfl

/-- The loop and the return after it are the walk. -/
theorem WeightedRoundRobin.search_eq (pos : UInt64) (cumulative : Int64) (b : Backend) (rest : List Backend) :
    (search pos cumulative (b :: rest)).getD ((b :: rest).getLast (List.cons_ne_nil b rest)) =
      walk pos.toNat cumulative b rest := by
  induction rest generalizing cumulative b with
  | nil =>
    rw [search, walk]
    split <;> rfl
  | cons b' rest ih =>
    rw [search, walk]
    simp only [UInt64.lt_iff_toNat_lt]
    split
    · rfl
    · rw [List.getLast_cons_cons]
      exact ih (cumulative + b.weight) b'

theorem WeightedRoundRobin.next_eq (h : healthy.backends = b :: rest) (counter : UInt64) :
    WeightedRoundRobin.next healthy counter = .ok (some (WeightedRoundRobin.pick counter b rest), counter + 1) := by
  unfold WeightedRoundRobin.next WeightedRoundRobin.pick
  rw [if_neg (Slice.len_ne_zero h), h]
  by_cases htotal : totalWeight (b :: rest) ≤ 0
  · rw [if_pos htotal, if_pos htotal, RoundRobin.advance_eq h]
  · obtain ⟨hpos, -⟩ := toNat_of_pos (Int64.not_le.mp htotal)
    have hwalk := search_eq (counter % (totalWeight (b :: rest)).toUInt64) 0 b rest
    rw [UInt64.toNat_mod] at hwalk
    rw [if_neg htotal, if_neg htotal, ← hwalk]
    simp only [UInt64.add_sub_cancel, remainder_eq hpos, pure_bind]
    cases hsearch : search (counter % (totalWeight (b :: rest)).toUInt64) 0 (b :: rest) with
    | some c => rfl
    | none =>
      -- the last backend, at `len(healthy) - 1`
      have hlast : healthy.backends[rest.length]? = some ((b :: rest).getLast (List.cons_ne_nil b rest)) := by
        rw [h, List.getLast_eq_getElem, List.getElem?_eq_getElem (by simp)]
        simp
      have hint : (healthy.len - 1).toInt = (rest.length : Int) := by
        have hlen := healthy.len_toInt
        have hlt := healthy.length_lt
        rw [h, List.length_cons] at hlen hlt
        rw [Int64.toInt_sub, hlen, Int64.toInt_one, Int.bmod_eq_of_le (by omega) (by omega)]
        omega
      rw [hint, Slice.index_eq hlast]
      rfl

theorem LeastConn.next_eq (h : healthy.backends = b :: rest) (activeConns : Nat → Int) (counter : UInt64) :
    LeastConn.next activeConns healthy counter = .ok (some (LeastConn.pick activeConns b rest), counter) := by
  have hhead : healthy.backends[0]? = some b := by rw [h]; rfl
  have hfirst : healthy.index 0 = pure b := Slice.index_eq hhead
  rw [LeastConn.next, if_neg (Slice.len_ne_zero h), hfirst, Slice.tail_eq h]
  rfl

/-- **The code does not panic**, and it computes `Strategy.next`. -/
theorem Strategy.run_eq (strategy : Strategy) (healthy : Slice) (activeConns : Nat → Int) (counter : UInt64) :
    strategy.run healthy activeConns counter = .ok (strategy.next healthy.backends activeConns counter) := by
  cases h : healthy.backends with
  | nil =>
    have hzero := healthy.len_eq_zero.mpr h
    cases strategy with
    | roundRobin => exact if_pos hzero
    | leastConn => exact if_pos hzero
    | weightedRoundRobin => exact if_pos hzero
  | cons b rest =>
    cases strategy with
    | roundRobin => exact (if_neg (Slice.len_ne_zero h)).trans (RoundRobin.advance_eq h counter)
    | leastConn => exact LeastConn.next_eq h activeConns counter
    | weightedRoundRobin => exact WeightedRoundRobin.next_eq h counter

/-! ## The picks of one call -/

/-- The first backend of the list with the fewest connections. -/
def IsLeast (activeConns : Nat → Int) (healthy : List Backend) (b : Backend) : Prop :=
  ∃ before after, healthy = before ++ b :: after ∧ (∀ c ∈ before, activeConns b.key < activeConns c.key) ∧
    ∀ c ∈ after, activeConns b.key ≤ activeConns c.key

theorem LeastConn.pick_least (activeConns : Nat → Int) (b : Backend) (rest : List Backend) :
    IsLeast activeConns (b :: rest) (LeastConn.pick activeConns b rest) := by
  -- over the part of the list that the loop has seen
  induction rest using List.reverseRecOn with
  | nil => exact ⟨[], [], rfl, by simp, by simp⟩
  | append_singleton rest c ih =>
    obtain ⟨before, after, hsplit, hbefore, hafter⟩ := ih
    have hpick : LeastConn.pick activeConns b (rest ++ [c]) =
        if activeConns c.key < activeConns (LeastConn.pick activeConns b rest).key then c
        else LeastConn.pick activeConns b rest := by
      unfold LeastConn.pick
      rw [List.foldl_append]
      rfl
    rw [hpick]
    split
    · next hless =>
      refine ⟨b :: rest, [], by simp, ?_, by simp⟩
      intro d hd
      rw [hsplit, List.mem_append, List.mem_cons] at hd
      rcases hd with hd | rfl | hd
      · exact hless.trans (hbefore d hd)
      · exact hless
      · exact hless.trans_le (hafter d hd)
    · next hmore =>
      refine ⟨before, after ++ [c], ?_, hbefore, ?_⟩
      · rw [← List.cons_append, hsplit, List.append_assoc]
        rfl
      · intro d hd
        rcases List.mem_append.mp hd with hd | hd
        · exact hafter d hd
        · obtain rfl := List.mem_singleton.mp hd
          exact not_lt.mp hmore

theorem IsLeast.mem {activeConns : Nat → Int} {healthy : List Backend} (h : IsLeast activeConns healthy b) :
    b ∈ healthy := by
  obtain ⟨before, after, rfl, -, -⟩ := h
  simp

theorem WeightedRoundRobin.walk_mem (pos : Nat) (cumulative : Int64) (b : Backend) (rest : List Backend) :
    walk pos cumulative b rest ∈ b :: rest := by
  induction rest generalizing cumulative b with
  | nil => exact List.mem_cons_self
  | cons b' rest ih =>
    rw [walk]
    split
    · exact List.mem_cons_self
    · exact List.mem_cons_of_mem b (ih (cumulative + b.weight) b')

theorem Strategy.next_mem (strategy : Strategy) (b : Backend) (rest : List Backend) (activeConns : Nat → Int)
    (counter : UInt64) : ∃ c ∈ b :: rest, (strategy.next (b :: rest) activeConns counter).1 = some c := by
  cases strategy with
  | roundRobin => exact ⟨_, List.get_mem _ _, rfl⟩
  | leastConn => exact ⟨_, (LeastConn.pick_least activeConns b rest).mem, rfl⟩
  | weightedRoundRobin =>
    refine ⟨_, ?_, rfl⟩
    unfold WeightedRoundRobin.pick
    split
    · exact List.get_mem _ _
    · exact WeightedRoundRobin.walk_mem _ _ _ _

/-- **`Next` is total and picks healthy backends**, whatever the weights add up to: it does not panic, it returns
an error exactly if nobody is alive, and otherwise a backend of the pool that is; least connections returns the
first one with the fewest. -/
theorem next_healthy (strategy : Strategy) (pool : Slice) (alive : Nat → Bool) (activeConns : Nat → Int)
    (counter : UInt64) : ∃ picked counter',
      strategy.run (pool.healthy alive) activeConns counter = .ok (picked, counter') ∧
      (picked = none ↔ ∀ b ∈ pool.backends, alive b.key = false) ∧
      (∀ b, picked = some b → b ∈ pool.backends ∧ alive b.key = true) ∧
      (∀ b, strategy = .leastConn → picked = some b → IsLeast activeConns (pool.healthy alive).backends b) := by
  refine ⟨(strategy.next (pool.healthy alive).backends activeConns counter).1,
    (strategy.next (pool.healthy alive).backends activeConns counter).2,
    strategy.run_eq (pool.healthy alive) activeConns counter, ?_⟩
  have hnone : (pool.healthy alive).backends = [] ↔ ∀ b ∈ pool.backends, alive b.key = false := by
    simp [Slice.healthy]
  have hmem {b : Backend} (hb : b ∈ (pool.healthy alive).backends) : b ∈ pool.backends ∧ alive b.key = true :=
    List.mem_filter.mp hb
  rw [← hnone]
  cases h : (pool.healthy alive).backends with
  | nil => exact ⟨by simp [Strategy.next], by simp [Strategy.next], by simp [Strategy.next]⟩
  | cons b rest =>
    obtain ⟨c, hc, hnext⟩ := strategy.next_mem b rest activeConns counter
    rw [hnext]
    refine ⟨by simp, ?_, ?_⟩
    · rintro d hd
      obtain rfl := Option.some.inj hd
      exact hmem (by rw [h]; exact hc)
    · rintro d rfl hd
      rw [← hnext] at hd
      obtain rfl := Option.some.inj hd
      exact LeastConn.pick_least activeConns b rest

/-! ## Sequences of calls -/

/-- What one call of `Next` sees. -/
structure Seen where
  healthy : Slice
  activeConns : Nat → Int

/-- Calls one after the other: what each returns, and the counter after them. -/
def Strategy.calls (strategy : Strategy) (counter : UInt64) : List Seen → Except Panic (List (Option Backend) × UInt64)
  | [] => pure ([], counter)
  | seen :: later => do
    let (picked, counter) ← strategy.run seen.healthy seen.activeConns counter
    let (picks, counter) ← strategy.calls counter later
    pure (picked :: picks, counter)

theorem Strategy.calls_cons (strategy : Strategy) (counter : UInt64) (seen : Seen) (later : List Seen) :
    strategy.calls counter (seen :: later) =
      (strategy.calls (strategy.next seen.healthy.backends seen.activeConns counter).2 later).map fun out =>
        ((strategy.next seen.healthy.backends seen.activeConns counter).1 :: out.1, out.2) := by
  rw [Strategy.calls, strategy.run_eq]
  change (strategy.calls (strategy.next seen.healthy.backends seen.activeConns counter).2 later >>= fun out =>
    pure (_ :: out.1, out.2)) = _
  cases strategy.calls (strategy.next seen.healthy.backends seen.activeConns counter).2 later <;> rfl

theorem pos_of_toNat {x : Int64} (hpos : 0 < x.toUInt64.toNat) (hlt : x.toUInt64.toNat < 2 ^ 63) : 0 < x := by
  have hmod : x.toInt = (x.toUInt64.toNat : Int).bmod (2 ^ 64) := BitVec.toInt_eq_toNat_bmod x.toBitVec
  rw [Int.bmod_eq_of_le (by omega) (by omega)] at hmod
  rw [Int64.lt_iff_toInt_lt, hmod, Int64.toInt_zero]
  omega

/-- Slots that are all there are not clipped. -/
theorem clip_all (bs : List Backend) : clip (bs.map Backend.slots).sum bs = bs.map Backend.slots := by
  induction bs with
  | nil => rfl
  | cons b rest ih =>
    rw [List.map_cons, List.sum_cons, clip]
    split
    · next hle =>
      -- nothing comes after a last run
      cases rest with
      | nil => simp
      | cons b' rest =>
        have hpos := b'.slots_pos
        rw [List.map_cons, List.sum_cons] at hle
        omega
    · rw [Nat.add_sub_cancel_left, ih]

/-- Without overflow each backend has as many slots as its weight. -/
theorem ring_weights {b : Backend} {rest : List Backend} (h : ((b :: rest).map Backend.slots).sum < 2 ^ 63) :
    Strategy.weightedRoundRobin.ring (b :: rest) = (b :: rest).map Backend.slots := by
  have htotal : (WeightedRoundRobin.totalWeight (b :: rest)).toUInt64.toNat = ((b :: rest).map Backend.slots).sum := by
    rw [totalWeight_toNat, Nat.mod_eq_of_lt (by omega)]
  have hsum : 0 < ((b :: rest).map Backend.slots).sum := by
    have hpos := b.slots_pos
    rw [List.map_cons, List.sum_cons]
    omega
  have hpos : ¬ WeightedRoundRobin.totalWeight (b :: rest) ≤ 0 :=
    Int64.not_le.mpr (pos_of_toNat (by rw [htotal]; exact hsum) (by rw [htotal]; exact h))
  unfold Strategy.ring
  simp only
  rw [if_neg hpos, htotal, clip_all]

/-! ## Unit weights -/

theorem ring_units {b : Backend} {rest : List Backend} (hunit : ∀ c ∈ b :: rest, c.weight = 1)
    (hlen : (b :: rest).length < 2 ^ 63) :
    Strategy.weightedRoundRobin.ring (b :: rest) = Strategy.roundRobin.ring (b :: rest) := by
  have hslots : (b :: rest).map Backend.slots = (b :: rest).map fun _ => 1 :=
    List.map_congr_left fun c hc => by
      rw [Backend.slots, hunit c hc]
      rfl
  rw [ring_weights (by rw [hslots, units_sum]; exact hlen), hslots]
  rfl

theorem next_units (healthy : Slice) (hunit : ∀ b ∈ healthy.backends, b.weight = 1) (activeConns : Nat → Int)
    (counter : UInt64) : Strategy.weightedRoundRobin.next healthy.backends activeConns counter =
      Strategy.roundRobin.next healthy.backends activeConns counter := by
  have hlen := healthy.length_lt
  cases h : healthy.backends with
  | nil => rfl
  | cons b rest =>
    rw [h] at hunit hlen
    refine Prod.ext ?_ rfl
    rw [Strategy.next_eq, Strategy.next_eq, ring_units hunit hlen]
    rfl

def unitPair : Slice where
  backends := [Backend.new 0 "a" 1, Backend.new 1 "b" 1]
  length_lt := by decide

/-- **Round robin is the unit-weight case**: call by call the same backend or the same error, and the same
counter, over any changes of who is alive. -/
theorem weighted_calls_units (pool : Slice) (calls : List ((Nat → Bool) × (Nat → Int)))
    (hunit : ∀ call ∈ calls, ∀ b ∈ (pool.healthy call.1).backends, b.weight = 1) (counter : UInt64) :
    Strategy.weightedRoundRobin.calls counter (calls.map fun call => ⟨pool.healthy call.1, call.2⟩) =
      Strategy.roundRobin.calls counter (calls.map fun call => ⟨pool.healthy call.1, call.2⟩) := by
  induction calls generalizing counter with
  | nil => rfl
  | cons call later ih =>
    have hnext := next_units (pool.healthy call.1) (hunit call List.mem_cons_self) call.2 counter
    rw [List.map_cons, Strategy.calls_cons, Strategy.calls_cons, hnext,
      ih (fun c hc => hunit c (List.mem_cons_of_mem call hc))]

/-- Two backends of weight 1, of which the second is alive in the second call only. -/
theorem weighted_calls_units_two :
    Strategy.weightedRoundRobin.calls 18446744073709551615
        [⟨unitPair.healthy fun key => key == 0, fun _ => 0⟩, ⟨unitPair.healthy fun _ => true, fun _ => 0⟩] =
      Strategy.roundRobin.calls 18446744073709551615
        [⟨unitPair.healthy fun key => key == 0, fun _ => 0⟩, ⟨unitPair.healthy fun _ => true, fun _ => 0⟩] :=
  weighted_calls_units unitPair [(fun key => key == 0, fun _ => 0), (fun _ => true, fun _ => 0)] (by decide) _

/-! ## A turn of weighted round robin -/

/-- The calls of a turn before the counter wraps. -/
theorem calls_window (healthy : Slice) (activeConns : Nat → Int) {b : Backend} {rest : List Backend}
    (h : healthy.backends = b :: rest) (hsum : (healthy.backends.map Backend.slots).sum < 2 ^ 63) (n : Nat) (c : UInt64)
    (hc : c.toNat + n ≤ 2 ^ 64) :
    ∃ counter', Strategy.weightedRoundRobin.calls c (List.replicate n ⟨healthy, activeConns⟩) =
      .ok ((List.range n).map fun k => healthy.backends[Ring.owner (healthy.backends.map Backend.slots)
        ((c.toNat + k) % (healthy.backends.map Backend.slots).sum)]?, counter') := by
  induction n generalizing c with
  | zero => exact ⟨c, rfl⟩
  | succ n ih =>
    have hnext : Strategy.weightedRoundRobin.next healthy.backends activeConns c =
        (healthy.backends[Ring.owner (healthy.backends.map Backend.slots)
          (c.toNat % (healthy.backends.map Backend.slots).sum)]?, c + 1) := by
      rw [h] at hsum ⊢
      refine Prod.ext ?_ rfl
      rw [Strategy.next_eq, ring_weights hsum]
      rfl
    rw [List.replicate_succ, Strategy.calls_cons, hnext, List.range_succ_eq_map]
    cases n with
    | zero => exact ⟨c + 1, rfl⟩
    | succ n =>
      have hsucc : (c + 1).toNat = c.toNat + 1 := by
        rw [UInt64.toNat_add, UInt64.toNat_one, Nat.mod_eq_of_lt (by omega)]
      obtain ⟨counter', hcalls⟩ := ih (c + 1) (by omega)
      refine ⟨counter', ?_⟩
      simp only
      rw [hcalls, List.map_cons, List.map_map]
      simp only [Except.map, hsucc, Function.comp_def, Nat.succ_eq_add_one, Nat.add_zero, Nat.add_assoc, Nat.add_comm 1]

theorem Backend.slots_eq (b : Backend) : (b.slots : Int) = b.weight.toInt := by
  have hlt := b.slots_lt
  have hmod : b.weight.toInt = (b.slots : Int).bmod (2 ^ 64) := BitVec.toInt_eq_toNat_bmod b.weight.toBitVec
  rw [hmod, Int.bmod_eq_of_le (by omega) (by omega)]

/-- **Weighted round robin is proportional**: as many calls as the weights add up to, with the list unchanged, return
every entry of the list as often as its weight says. -/
theorem weighted_window (healthy : Slice) (hne : healthy.backends ≠ []) (activeConns : Nat → Int) (W : Nat)
    (hW : (W : Int) = (healthy.backends.map fun b => b.weight.toInt).sum) (hlt : W < 2 ^ 63) (c : UInt64)
    (hc : c.toNat + W ≤ 2 ^ 64) :
    ∃ picks counter', Strategy.weightedRoundRobin.calls c (List.replicate W ⟨healthy, activeConns⟩) =
        .ok (picks, counter') ∧
      picks.Perm (healthy.backends.flatMap fun b => List.replicate b.weight.toInt.toNat (some b)) ∧
      (healthy.backends.Nodup → ∀ b ∈ healthy.backends, (picks.count (some b) : Int) = b.weight.toInt) := by
  have hslots (b : Backend) : b.weight.toInt.toNat = b.slots := by
    rw [← b.slots_eq]
    rfl
  have hsum : (healthy.backends.map Backend.slots).sum = W := by
    have hcast : ((healthy.backends.map Backend.slots).sum : Int) =
        (healthy.backends.map fun b => b.weight.toInt).sum := by
      rw [Nat.cast_list_sum, List.map_map]
      exact congrArg List.sum (List.map_congr_left fun b _ => b.slots_eq)
    omega
  obtain ⟨b, rest, h⟩ := List.exists_cons_of_ne_nil hne
  obtain ⟨counter', hcalls⟩ := calls_window healthy activeConns h (by omega) W c hc
  have hturn := Ring.turn_perm Backend.slots healthy.backends c.toNat
  rw [hsum] at hcalls hturn
  have hperm : ((List.range W).map fun k =>
      healthy.backends[Ring.owner (healthy.backends.map Backend.slots) ((c.toNat + k) % W)]?).Perm
        (healthy.backends.flatMap fun b => List.replicate b.weight.toInt.toNat (some b)) := by
    simpa only [List.map_flatMap, List.map_replicate, hslots] using hturn
  refine ⟨_, counter', hcalls, hperm, fun hnd b hb => ?_⟩
  have hother (d : Backend) (hd : d ≠ b) : List.count (some b) (List.replicate d.weight.toInt.toNat (some d)) = 0 := by
    simp [List.count_replicate, hd]
  rw [hperm.count_eq, List.count_flatMap, Function.comp_def,
    List.sum_map_eq_nsmul_single b _ (fun d hd _ => hother d hd), List.count_eq_one_of_mem hnd hb, one_smul,
    List.count_replicate_self, hslots, b.slots_eq]

/-- Two backends of weights 2 and 1, both alive. -/
def twoToOne : Slice where
  backends := [Backend.new 0 "a" 2, Backend.new 1 "b" 1]
  length_lt := by decide

theorem weighted_window_twoToOne : ∃ picks counter',
    Strategy.weightedRoundRobin.calls 5 (List.replicate 3 ⟨twoToOne, fun _ => 0⟩) = .ok (picks, counter') ∧
      picks.count (some (Backend.new 0 "a" 2)) = 2 ∧ picks.count (some (Backend.new 1 "b" 1)) = 1 := by
  obtain ⟨picks, counter', hcalls, -, hcount⟩ :=
    weighted_window twoToOne (by decide) (fun _ => 0) 3 (by decide) (by decide) 5 (by decide)
  have hnd : twoToOne.backends.Nodup := by decide
  have ha := hcount hnd (Backend.new 0 "a" 2) (by decide)
  have hb := hcount hnd (Backend.new 1 "b" 1) (by decide)
  exact ⟨picks, counter', hcalls, Int.ofNat_inj.mp ha, Int.ofNat_inj.mp hb⟩

end Proxy
