import Mathlib.Tactic

/-!
# A ring of runs

The slots `0, …, T - 1` of a ring are divided into runs of given lengths, one after the other, and a counter
modulo `M` walks over the slots: counter value `c` stands for slot `c % T`.  `owner` is the run of a slot,
`isLast` says that a slot is the last one of its run.

* `owner_next`: one step leaves the run exactly from its last slot.
* `owner_walk`: from last slots only, `k` steps go `k` runs further.
* `distinct_iff_spreads`: when `K + 1` consecutive counter values lie in different runs.  Where the counter
  wraps (`M` need not be a multiple of `T`) the walk starts over at slot 0.
* `fresh_iff_distinct`: picking something new as long as there is something new.
* `turn_perm`: a whole turn, from any slot, meets each run as often as it has slots.
-/

namespace Lib.Ring

/-- The run that slot `s` lies in. -/
def owner : List Nat → Nat → Nat
  | [], _ => 0
  | r :: rs, s => if s < r then 0 else owner rs (s - r) + 1

/-- Slot `s` is the last one of its run. -/
def isLast : List Nat → Nat → Bool
  | [], _ => false
  | r :: rs, s => if s < r then s + 1 = r else isLast rs (s - r)

/-- The first `K + 1` values of `f` are different. -/
def Distinct {α : Type} (f : Nat → α) (K : Nat) : Prop := ∀ i j, i < j → j ≤ K → f i ≠ f j

/-- What it takes for `K + 1` counter values from `c` on to lie in different runs: each slot that is left is the
last one of its run, and the walk does not meet a run again. -/
def Spreads (rs : List Nat) (M c K : Nat) : Prop :=
  (∀ k < K, c + k + 1 ≠ M → isLast rs ((c + k) % M % rs.sum) = true) ∧
  if c + K < M then K < rs.length
  else owner rs (c % rs.sum) + (M - c) ≤ rs.length ∧ K < owner rs (c % rs.sum) + (M - c)

instance (rs : List Nat) (M c K : Nat) : Decidable (Spreads rs M c K) := inferInstanceAs (Decidable (_ ∧ _))

theorem spreads_zero {rs : List Nat} {M c : Nat} (hrs : 0 < rs.length) (hc : c < M) : Spreads rs M c 0 := by
  refine ⟨fun k hk => absurd hk (Nat.not_lt_zero k), ?_⟩
  rw [Nat.add_zero, if_pos hc]
  exact hrs

/-! ## One step -/

theorem owner_lt {rs : List Nat} {s : Nat} (h : s < rs.sum) : owner rs s < rs.length := by
  induction rs generalizing s with
  | nil => simp at h
  | cons r rs ih =>
    rw [List.sum_cons] at h
    rw [owner, List.length_cons]
    split
    · omega
    · have := ih (s := s - r) (by omega)
      omega

theorem owner_zero {rs : List Nat} (hpos : ∀ r ∈ rs, 0 < r) : owner rs 0 = 0 := by
  cases rs with
  | nil => rfl
  | cons r rs =>
    have := hpos r List.mem_cons_self
    rw [owner, if_pos this]

theorem owner_succ {rs : List Nat} (hpos : ∀ r ∈ rs, 0 < r) {s : Nat} (h : s + 1 < rs.sum) :
    owner rs (s + 1) = owner rs s + (isLast rs s).toNat := by
  induction rs generalizing s with
  | nil => simp at h
  | cons r rs ih =>
    have hrs : ∀ r ∈ rs, 0 < r := fun r hr => hpos r (List.mem_cons_of_mem _ hr)
    rw [List.sum_cons] at h
    rw [owner, owner, isLast]
    by_cases hs : s < r
    · rw [if_pos hs, if_pos hs]
      by_cases hs' : s + 1 < r
      · rw [if_pos hs']
        have hne : ¬ s + 1 = r := by omega
        simp [hne]
      · -- the next slot is the first one of the next run
        have heq : s + 1 = r := by omega
        rw [if_neg hs', heq, Nat.sub_self, owner_zero hrs]
        simp
    · have hsub : s + 1 - r = s - r + 1 := by omega
      rw [if_neg hs, if_neg hs, if_neg (by omega), hsub, ih hrs (by omega)]
      omega

theorem isLast_end {rs : List Nat} (hpos : ∀ r ∈ rs, 0 < r) {s : Nat} (h : s + 1 = rs.sum) :
    isLast rs s = true ∧ owner rs s + 1 = rs.length := by
  induction rs generalizing s with
  | nil => simp at h
  | cons r rs ih =>
    have hrs : ∀ r ∈ rs, 0 < r := fun r hr => hpos r (List.mem_cons_of_mem _ hr)
    rw [List.sum_cons] at h
    rw [isLast, owner, List.length_cons]
    by_cases hs : s < r
    · -- then this is the only run
      have hsum : rs.sum = 0 := by omega
      have hnil : rs = [] := by
        cases rs with
        | nil => rfl
        | cons r' rs =>
          have := hrs r' List.mem_cons_self
          rw [List.sum_cons] at hsum
          omega
      subst hnil
      rw [if_pos hs, if_pos hs]
      simp at h ⊢
      exact h
    · obtain ⟨hl, ho⟩ := ih hrs (s := s - r) (by omega)
      rw [if_neg hs, if_neg hs]
      exact ⟨hl, by omega⟩

theorem owner_next {rs : List Nat} (hpos : ∀ r ∈ rs, 0 < r) {s : Nat} (h : s < rs.sum) :
    owner rs ((s + 1) % rs.sum) = if isLast rs s then (owner rs s + 1) % rs.length else owner rs s := by
  by_cases hs : s + 1 < rs.sum
  · have hlt := owner_lt hs
    rw [Nat.mod_eq_of_lt hs]
    rw [owner_succ hpos hs] at hlt ⊢
    cases hl : isLast rs s <;> simp [hl] at hlt ⊢
    rw [Nat.mod_eq_of_lt hlt]
  · obtain ⟨hl, ho⟩ := isLast_end hpos (s := s) (by omega)
    have hend : s + 1 = rs.sum := by omega
    rw [hend, Nat.mod_self, owner_zero hpos, if_pos hl, ho, Nat.mod_self]

/-! ## Walks -/

theorem owner_walk {rs : List Nat} (hpos : ∀ r ∈ rs, 0 < r) (hT : 0 < rs.sum) {s m : Nat}
    (hlast : ∀ k < m, isLast rs ((s + k) % rs.sum) = true) :
    ∀ k ≤ m, owner rs ((s + k) % rs.sum) = (owner rs (s % rs.sum) + k) % rs.length := by
  intro k
  induction k with
  | zero =>
    intro _
    rw [Nat.add_zero, Nat.add_zero, Nat.mod_eq_of_lt (owner_lt (Nat.mod_lt _ hT))]
  | succ k ih =>
    intro hk
    have hstep := owner_next hpos (Nat.mod_lt (s + k) hT)
    rw [Nat.mod_add_mod, hlast k (by omega), if_pos rfl, ih (by omega), Nat.mod_add_mod] at hstep
    rw [← Nat.add_assoc, hstep, ← Nat.add_assoc]

/-- The walk up to and after the wrap of the counter. -/
theorem owner_counter {rs : List Nat} (hpos : ∀ r ∈ rs, 0 < r) (hT : 0 < rs.sum) {M c K : Nat} (hc : c < M)
    (hK : K < M) (hlast : ∀ k < K, c + k + 1 ≠ M → isLast rs ((c + k) % M % rs.sum) = true) {k : Nat} (hk : k ≤ K) :
    owner rs ((c + k) % M % rs.sum) =
      if c + k < M then (owner rs (c % rs.sum) + k) % rs.length else (k - (M - c)) % rs.length := by
  split
  · next hlt =>
    rw [Nat.mod_eq_of_lt hlt]
    refine owner_walk hpos hT (m := k) (fun j hj => ?_) k le_rfl
    have h := hlast j (by omega) (by omega)
    rwa [Nat.mod_eq_of_lt (show c + j < M by omega)] at h
  · next hge =>
    have hmod (j : Nat) (hj : j ≤ k - (M - c)) : (c + (M - c + j)) % M = j := by
      rw [← Nat.add_assoc, Nat.add_sub_cancel' hc.le, Nat.add_mod_left, Nat.mod_eq_of_lt (by omega)]
    have hwalk := owner_walk hpos hT (s := 0) (m := k - (M - c)) (fun j hj => ?_) (k - (M - c)) le_rfl
    · rw [Nat.zero_mod, owner_zero hpos, Nat.zero_add] at hwalk
      rw [show c + k = c + (M - c + (k - (M - c))) by omega, hmod _ le_rfl, hwalk]
    · have h := hlast (M - c + j) (by omega) (by omega)
      rwa [hmod j (by omega), ← Nat.zero_add j] at h

theorem distinct_rotation {n : Nat} (hn : 0 < n) (i K : Nat) : Distinct (fun k => (i + k) % n) K ↔ K < n := by
  constructor
  · intro h
    by_contra hge
    exact h 0 n hn (by omega) (by simp)
  · intro hK a b hab hb heq
    have hmod : a ≡ b [MOD n] := Nat.ModEq.add_left_cancel' i heq
    exact absurd (hmod.eq_of_lt_of_lt (by omega) (by omega)) (by omega)

/-- A rotation by `w` steps from `i`, started over at 0. -/
theorem distinct_restart {n i w K : Nat} (hi : i < n) (hw : 0 < w) (hwK : w ≤ K) :
    Distinct (fun k => if k < w then (i + k) % n else (k - w) % n) K ↔ i + w ≤ n ∧ K < i + w := by
  constructor
  · intro h
    have hle : i + w ≤ n := by
      -- otherwise the rotation reaches 0 before it starts over there
      by_contra hlt
      refine h (n - i) w (by omega) hwK ?_
      simp only [if_pos (show n - i < w by omega), Nat.lt_irrefl, if_false, Nat.sub_self, Nat.zero_mod]
      rw [Nat.add_sub_cancel' hi.le, Nat.mod_self]
    refine ⟨hle, ?_⟩
    by_contra hge
    refine h 0 (w + i) (by omega) (by omega) ?_
    simp only [if_pos hw, if_neg (show ¬ w + i < w by omega), Nat.add_sub_cancel_left, Nat.add_zero]
  · rintro ⟨hle, hK⟩ a b hab hb heq
    by_cases ha : a < w <;> by_cases hbw : b < w <;> simp only [if_pos, ha, hbw, if_false] at heq
    · rw [Nat.mod_eq_of_lt (by omega), Nat.mod_eq_of_lt (by omega)] at heq
      omega
    · rw [Nat.mod_eq_of_lt (by omega), Nat.mod_eq_of_lt (by omega)] at heq
      omega
    · omega
    · rw [Nat.mod_eq_of_lt (by omega), Nat.mod_eq_of_lt (by omega)] at heq
      omega

theorem Distinct.congr {α β : Type} {f : Nat → α} {g : Nat → β} {K : Nat}
    (h : ∀ i ≤ K, ∀ j ≤ K, f i = f j ↔ g i = g j) : Distinct f K ↔ Distinct g K := by
  unfold Distinct
  constructor
  · intro hf i j hij hj heq
    exact hf i j hij hj ((h i (by omega) j hj).mpr heq)
  · intro hg i j hij hj heq
    exact hg i j hij hj ((h i (by omega) j hj).mp heq)

/-- Steps between different runs are taken from last slots. -/
theorem isLast_of_distinct {rs : List Nat} (hpos : ∀ r ∈ rs, 0 < r) (hT : 0 < rs.sum) {M c K : Nat} (hc : c < M)
    (hK : K < M) (h : Distinct (fun k => owner rs ((c + k) % M % rs.sum)) K) :
    ∀ k < K, c + k + 1 ≠ M → isLast rs ((c + k) % M % rs.sum) = true := by
  intro k hk hwrap
  by_contra hl
  refine h k (k + 1) (by omega) (by omega) ?_
  have hstep := owner_next hpos (Nat.mod_lt ((c + k) % M) hT)
  rw [if_neg hl, Nat.mod_add_mod] at hstep
  simp only
  rw [← hstep, ← Nat.add_assoc]
  congr 2
  by_cases hlt : c + k + 1 < M
  · rw [Nat.mod_eq_of_lt hlt, Nat.mod_eq_of_lt (by omega)]
  · have h1 : (c + k) % M = c + k - M := by rw [Nat.mod_eq_sub_mod (by omega), Nat.mod_eq_of_lt (by omega)]
    have h2 : (c + k + 1) % M = c + k + 1 - M := by rw [Nat.mod_eq_sub_mod (by omega), Nat.mod_eq_of_lt (by omega)]
    omega

/-- **Consecutive counter values in different runs.** -/
theorem distinct_iff_spreads {rs : List Nat} (hpos : ∀ r ∈ rs, 0 < r) (hT : 0 < rs.sum) {M c K : Nat} (hc : c < M)
    (hK : K < M) : Distinct (fun k => owner rs ((c + k) % M % rs.sum)) K ↔ Spreads rs M c K := by
  have hi : owner rs (c % rs.sum) < rs.length := owner_lt (Nat.mod_lt _ hT)
  suffices key : (∀ k < K, c + k + 1 ≠ M → isLast rs ((c + k) % M % rs.sum) = true) →
      (Distinct (fun k => owner rs ((c + k) % M % rs.sum)) K ↔
        if c + K < M then K < rs.length
        else owner rs (c % rs.sum) + (M - c) ≤ rs.length ∧ K < owner rs (c % rs.sum) + (M - c)) by
    constructor
    · intro h
      have hlast := isLast_of_distinct hpos hT hc hK h
      exact ⟨hlast, (key hlast).mp h⟩
    · rintro ⟨hlast, h⟩
      exact (key hlast).mpr h
  intro hlast
  have hwalk (k : Nat) (hk : k ≤ K) := owner_counter hpos hT hc hK hlast hk
  split
  · next hlt =>
    rw [← distinct_rotation (show 0 < rs.length by omega) (owner rs (c % rs.sum)) K]
    refine Distinct.congr fun k hk j hj => ?_
    rw [hwalk k hk, hwalk j hj, if_pos (by omega), if_pos (by omega)]
  · next hge =>
    rw [← distinct_restart hi (show 0 < M - c by omega) (show M - c ≤ K by omega)]
    have hless (k : Nat) : c + k < M ↔ k < M - c := by omega
    refine Distinct.congr fun k hk j hj => ?_
    rw [hwalk k hk, hwalk j hj]
    simp only [hless]

/-! ## Picks that are new as long as something new is left -/

/-- Of the picks from `all` after the first, each is new as long as something new is left: that takes different
picks until all are picked, and no more. -/
theorem fresh_iff_distinct {α : Type} {all : List α} (hnd : all.Nodup) {g : Nat → α} {r : Nat}
    (hmem : ∀ k ≤ r, g k ∈ all) :
    (∀ k, 0 < k → k ≤ r → (∃ u ∈ all, u ∉ (List.range k).map g) → g k ∉ (List.range k).map g) ↔
      Distinct g (min r (all.length - 1)) := by
  have hmap {k : Nat} {u : α} : u ∈ (List.range k).map g ↔ ∃ i < k, g i = u := by simp
  constructor
  · intro h i j hij hj heq
    -- fewer picks than elements: something new is left
    have hleft : ∃ u ∈ all, u ∉ (List.range j).map g := by
      by_contra hnone
      simp only [not_exists, not_and, not_not] at hnone
      have hlen := (hnd.subperm hnone).length_le
      rw [List.length_map, List.length_range] at hlen
      omega
    exact h j (by omega) (by omega) hleft (hmap.mpr ⟨i, hij, heq⟩)
  · intro h k hk hkr hleft hin
    obtain ⟨i, hi, heq⟩ := hmap.mp hin
    by_cases hK : k ≤ min r (all.length - 1)
    · exact h i k hi hK heq
    · -- every element has been picked among the first ones
      obtain ⟨u, hu, hnew⟩ := hleft
      have hpos : 0 < all.length := List.length_pos_of_mem hu
      have hpicked : ((List.range all.length).map g).Nodup := by
        refine List.Nodup.map_on ?_ List.nodup_range
        intro a ha b hb hab
        rw [List.mem_range] at ha hb
        rcases Nat.lt_trichotomy a b with hlt | heq | hlt
        · exact absurd hab (h a b hlt (by omega))
        · exact heq
        · exact absurd hab.symm (h b a hlt (by omega))
      have hsub : (List.range all.length).map g ⊆ all := by
        intro v hv
        obtain ⟨i, hi, rfl⟩ := hmap.mp hv
        exact hmem i (by omega)
      have hperm := (hpicked.subperm hsub).perm_of_length_le (by simp)
      obtain ⟨i, hi, rfl⟩ := hmap.mp (hperm.mem_iff.mpr hu)
      exact hnew (hmap.mpr ⟨i, by omega, rfl⟩)

/-! ## A whole turn -/

/-- From slot 0 on, the owners of the slots are the runs one after the other. -/
theorem turn_eq {α : Type} (size : α → Nat) (xs : List α) :
    ((List.range (xs.map size).sum).map fun s => xs[owner (xs.map size) s]?) =
      (xs.flatMap fun x => List.replicate (size x) x).map some := by
  induction xs with
  | nil => rfl
  | cons x xs ih =>
    have hfirst : ((List.range (size x)).map fun s => (x :: xs)[owner ((x :: xs).map size) s]?) =
        (List.replicate (size x) x).map some := by
      rw [List.map_replicate]
      refine List.eq_replicate_iff.mpr ⟨by simp, fun y hy => ?_⟩
      obtain ⟨s, hs, rfl⟩ := List.mem_map.mp hy
      rw [List.map_cons, owner, if_pos (List.mem_range.mp hs)]
      rfl
    have hrest (s : Nat) : (x :: xs)[owner ((x :: xs).map size) (size x + s)]? = xs[owner (xs.map size) s]? := by
      rw [List.map_cons, owner, if_neg (by omega), Nat.add_sub_cancel_left, List.getElem?_cons_succ]
    rw [List.flatMap_cons, List.map_append, ← ih, ← hfirst, List.map_cons, List.sum_cons, List.range_add,
      List.map_append, List.map_map, ← List.map_cons]
    congr 1
    exact List.map_congr_left fun s _ => hrest s

/-- `T` consecutive slots of a ring of `T` slots are the slots of the ring. -/
theorem window_perm {α : Type} (f : Nat → α) (T c : Nat) :
    ((List.range T).map fun k => f ((c + k) % T)).Perm ((List.range T).map f) := by
  have hrotate : ((List.range T).map fun k => (c + k) % T) = (List.range T).rotate c := by
    refine List.ext_getElem (by simp) fun k hk _ => ?_
    rw [List.getElem_map, List.getElem_range, List.getElem_rotate, List.getElem_range, List.length_range, Nat.add_comm]
  have hmap : ((List.range T).map fun k => f ((c + k) % T)) = ((List.range T).rotate c).map f := by
    rw [← hrotate, List.map_map]
    rfl
  rw [hmap]
  exact (List.rotate_perm (List.range T) c).map f

/-- **A whole turn meets each run as often as it has slots.** -/
theorem turn_perm {α : Type} (size : α → Nat) (xs : List α) (c : Nat) :
    ((List.range (xs.map size).sum).map fun k => xs[owner (xs.map size) ((c + k) % (xs.map size).sum)]?).Perm
      ((xs.flatMap fun x => List.replicate (size x) x).map some) := by
  have hwindow := window_perm (fun s => xs[owner (xs.map size) s]?) (xs.map size).sum c
  rwa [turn_eq] at hwindow

end Lib.Ring
