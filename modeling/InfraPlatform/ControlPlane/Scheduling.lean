import InfraPlatform.ControlPlane.Passes

/-!
# The outcome of a scheduling pass

What `Tick`, run without interleaving, leaves in the store, from the greedy placement that it is (`tick_plan`).

* `tick_accounts`: every node carries exactly the reservations of the pods that moved to it and is not
  overfilled by them, a pod that is ready and was not moved fits on no healthy node, and nothing else changes;
  `tick_jobs_wrap`: only the number of jobs may pass the largest `int`, on a node without a limit.
* `no_overtaking`: a pod is not passed over for a later one that requests at least as much.
* `tick_order_irrelevant`: the order in which the store lists pods and nodes does not show, where creation times of
  pending pods and registration times of nodes are distinct.
-/

namespace ControlPlane.Scheduler

open Lib Lib.Prog

/-! ## The placement of a pass -/

theorem sortByCreatedAt_sorted (l : List Pod) : (sortByCreatedAt l).Pairwise fun a b => a.createdAt ≤ b.createdAt := by
  have : Std.Total fun a b : Pod => a.createdAt ≤ b.createdAt := ⟨fun a b => le_total a.createdAt b.createdAt⟩
  have : IsTrans Pod fun a b => a.createdAt ≤ b.createdAt := ⟨fun _ _ _ => le_trans⟩
  exact List.pairwise_insertionSort _ l

/-- The pods that are ready in the order in which the pass took them up, the nodes as listed and as the pass left
them, and its dispatches. -/
structure Outcome [A : Arith] (T : Time → Prop) (now : Time) (s : Store) (order : List Pod) (nodes copies : List Node)
    (plan : Plan) (s' : Store) : Prop where
  mem : ∀ p, p ∈ order ↔ s.pods.get p.id = some p ∧ p.status = .pending ∧ ready now p
  nodup : (order.map Pod.id).Nodup
  sorted : order.Pairwise fun a b => a.createdAt ≤ b.createdAt
  listed : nodes.Perm s.nodes.rows
  pairs : plan.map (fun x => (x.1, x.2.1)) = (policy s).placed nodes order
  times : ∀ x ∈ plan, T x.2.2
  left : copies = (policy s).left nodes order
  store : s' = dispatchAll s plan
  current : ∀ n ∈ copies, s'.nodes.get n.id = some n

variable {T : Time → Prop} {now : Time} {s s' : Store}

theorem tick_outcome [A : Arith] {r : Option Stats} (h : Runs (ExecIn T) (tick now) s r s') :
    ∃ order nodes copies plan, Outcome T now s order nodes copies plan s' := by
  obtain ⟨listed, nodes, copies, plan, hperm, hnodes, hplan⟩ := tick_plan h
  have hperm' := (sortByCreatedAt_perm listed).trans hperm
  refine ⟨(sortByCreatedAt listed).filter (ready now), nodes, copies, plan, fun p => ?_, ?_, ?_, hnodes, hplan.pairs,
    hplan.times, hplan.left, hplan.store, hplan.current⟩
  · rw [List.mem_filter, mem_of_perm_filter hperm']
    simp [and_assoc]
  · exact (List.Sublist.map Pod.id List.filter_sublist).nodup (nodup_of_perm_filter hperm')
  · exact (sortByCreatedAt_sorted listed).sublist List.filter_sublist

namespace Outcome

variable [A : Arith] {order : List Pod} {nodes copies : List Node} {plan : Plan}
  (h : Outcome T now s order nodes copies plan s')

include h

theorem placed_pods : plan.map Prod.fst = ((policy s).placed nodes order).map Prod.fst := by
  rw [← h.pairs, List.map_map]
  rfl

theorem mem_order {x : Pod × Node × Time} (hx : x ∈ plan) : x.1 ∈ order := by
  have hin : x.1 ∈ plan.map Prod.fst := List.mem_map_of_mem hx
  rw [h.placed_pods] at hin
  exact Policy.placed_sublist.subset hin

theorem plan_nodup : (plan.map fun x => x.1.id).Nodup := by
  have hsub : (plan.map fun x => x.1.id).Sublist (order.map Pod.id) := by
    have hmap : (plan.map fun x => x.1.id) = (plan.map Prod.fst).map Pod.id := by
      rw [List.map_map]
      rfl
    rw [hmap, h.placed_pods]
    exact Policy.placed_sublist.map Pod.id
  exact hsub.nodup h.nodup

/-! ### Pods -/

theorem moved {x : Pod × Node × Time} (hx : x ∈ plan) :
    s'.pods.get x.1.id = some (Store.movePod (assigned x.1 x.2.1) .scheduled "" x.2.2) := by
  obtain ⟨l₁, l₂, hsplit⟩ := List.append_of_mem hx
  have hnd := h.plan_nodup
  rw [hsplit, List.map_append, List.map_cons, List.nodup_append, List.nodup_cons] at hnd
  -- no later dispatch is of the same pod
  have hlast : ∀ y ∈ l₂, y.1.id ≠ x.1.id := by
    intro y hy hid
    exact hnd.2.1.1 (List.mem_map.mpr ⟨y, hy, hid⟩)
  have hall : s' = dispatchAll (dispatched (dispatchAll s l₁) x.1 x.2.1 x.2.2) l₂ := by
    rw [h.store, hsplit]
    simp [dispatchAll]
  rw [hall, dispatchAll_pods_ne hlast, dispatched_pods_get, if_pos rfl]

theorem unmoved {p : Pod} (hp : s.pods.get p.id = some p) (hnot : p ∉ plan.map Prod.fst) :
    s'.pods.get p.id = some p := by
  rw [h.store, dispatchAll_pods_ne, hp]
  intro x hx hid
  -- the pod of the dispatch is stored under the same key
  have hstored := ((h.mem x.1).mp (h.mem_order hx)).1
  rw [hid, hp] at hstored
  exact hnot (List.mem_map.mpr ⟨x, hx, (Option.some.inj hstored).symm⟩)

/-- A pending pod is scheduled exactly if the pass placed it. -/
theorem scheduled_iff {p : Pod} (hp : s.pods.get p.id = some p) (hst : p.status = .pending) :
    (s'.pods.get p.id).map Pod.status = some .scheduled ↔ p ∈ plan.map Prod.fst := by
  constructor
  · intro hs
    by_contra hnot
    rw [h.unmoved hp hnot, Option.map_some, hst] at hs
    cases hs
  · intro hin
    obtain ⟨x, hx, rfl⟩ := List.mem_map.mp hin
    rw [h.moved hx]
    rfl

/-! ### Nodes -/

/-- A dispatch goes to a node that is stored, and was healthy. -/
theorem origin {x : Pod × Node × Time} (hx : x ∈ plan) :
    ∃ n, s.nodes.get n.id = some n ∧ n.status = .healthy ∧ n.id = x.2.1.id := by
  have hin : (x.1, x.2.1) ∈ (policy s).placed nodes order := by
    rw [← h.pairs]
    exact List.mem_map.mpr ⟨x, hx, rfl⟩
  have hstem := (Policy.inv (P := policy s) (fun c => ∃ n ∈ nodes, n.id = c.id ∧ n.status = c.status)
    (fun c p _ ⟨n, hn, hid, hs⟩ => ⟨n, hn, hid, hs⟩) fun c hc => ⟨c, hc, rfl, rfl⟩).1 _ hin
  obtain ⟨n, hn, hid, hs⟩ := hstem
  refine ⟨n, Table.mem_rows_iff.mp (h.listed.mem_iff.mp hn), ?_, hid⟩
  rw [hs]
  exact (Policy.placed_fits _ hin).1

/-- The pods placed on a node. -/
theorem load_eq (k : String) : (policy s).load ((policy s).placed nodes order) k =
    (plan.filter fun x => x.2.1.id = k).map Prod.fst := by
  unfold Policy.load
  rw [← h.pairs, List.filter_map, List.map_map]
  rfl

/-- They are the pods that arrived there. -/
theorem load_perm (k : String) :
    ((policy s).load ((policy s).placed nodes order) k).Perm (arrivals s s' k) := by
  rw [h.load_eq]
  have hnd : ((plan.filter fun x => x.2.1.id = k).map Prod.fst).Nodup := by
    have hpods : (plan.map Prod.fst).Nodup := by
      refine List.Nodup.of_map Pod.id ?_
      rw [List.map_map]
      exact h.plan_nodup
    exact (List.Sublist.map Prod.fst List.filter_sublist).nodup hpods
  have hrows : (arrivals s s' k).Nodup := (List.Nodup.of_map Pod.id s.pods.nodup).filter _
  refine (List.perm_ext_iff_of_nodup hnd hrows).mpr fun p => ?_
  unfold arrivals
  rw [List.mem_filter, Table.mem_rows_iff, List.mem_map]
  constructor
  · rintro ⟨x, hx, rfl⟩
    obtain ⟨hx, hk⟩ := List.mem_filter.mp hx
    obtain ⟨hp, hst, -⟩ := (h.mem x.1).mp (h.mem_order hx)
    refine ⟨hp, ?_⟩
    have hk : x.2.1.id = k := by simpa using hk
    unfold arrived
    rw [h.moved hx]
    simp [hst, hk, assigned]
  · rintro ⟨hp, harr⟩
    unfold arrived at harr
    simp only [Bool.and_eq_true, beq_iff_eq] at harr
    obtain ⟨hst, hany⟩ := harr
    have hin : p ∈ plan.map Prod.fst := by
      by_contra hnot
      rw [h.unmoved hp hnot] at hany
      simp [hst] at hany
    obtain ⟨x, hx, rfl⟩ := List.mem_map.mp hin
    rw [h.moved hx] at hany
    refine ⟨x, List.mem_filter.mpr ⟨hx, ?_⟩, rfl⟩
    simpa [assigned] using hany

/-- **The nodes after a pass**: each one is stored as the pass's copy of it, with which it is related by what relates a
node to itself and is kept when a pod that fits is taken in. -/
theorem node_copy (R : Node → List Pod → Node → Prop) (h0 : ∀ n, s.nodes.get n.id = some n → R n [] n)
    (hstep : ∀ n l c p, R n l c → (policy s).fits c p → R n (l ++ [p]) (reserve c (requiredFor s p)))
    {k : String} {n : Node} (hn : s.nodes.get k = some n) :
    ∃ c ∈ copies, s'.nodes.get k = some c ∧ R n ((policy s).load ((policy s).placed nodes order) k) c := by
  have hid : n.id = k := Table.key_of_get hn
  subst hid
  have hkey : n.id ∈ copies.map Node.id := by
    rw [h.left]
    change n.id ∈ ((policy s).left nodes order).map (policy s).key
    rw [Policy.keys_left]
    exact List.mem_map_of_mem (h.listed.mem_iff.mpr (Table.mem_of_get hn))
  obtain ⟨c, hc, hid⟩ := List.mem_map.mp hkey
  have hleft := hc
  rw [h.left] at hleft
  have hbins : ∀ m ∈ nodes, R m [] m := fun m hm => h0 m (Table.mem_rows_iff.mp (h.listed.mem_iff.mp hm))
  obtain ⟨m, hm, hkm, hR⟩ := Policy.load_inv R hbins hstep c hleft
  -- the node that the copy stems from is the one stored
  have hmn : s.nodes.get m.id = some m := Table.mem_rows_iff.mp (h.listed.mem_iff.mp hm)
  change m.id = c.id at hkm
  rw [hkm, hid, hn] at hmn
  obtain rfl : n = m := Option.some.inj hmn
  change R n ((policy s).load ((policy s).placed nodes order) c.id) c at hR
  rw [hid] at hR
  exact ⟨c, hc, by rw [← hid]; exact h.current c hc, hR⟩

/-- No node appears. -/
theorem nodes_none {k : String} (hk : s.nodes.get k = none) : s'.nodes.get k = none := by
  rw [h.store, dispatchAll_nodes_ne, hk]
  rintro x hx rfl
  obtain ⟨n, hn, -, hid⟩ := h.origin hx
  rw [← hid, hn] at hk
  cases hk

theorem node_mem_copies {n : Node} (hn : s'.nodes.get n.id = some n) : n ∈ copies := by
  cases hk : s.nodes.get n.id with
  | none =>
    rw [h.nodes_none hk] at hn
    cases hn
  | some m =>
    obtain ⟨c, hc, hget, -⟩ := h.node_copy (fun _ _ _ => True) (fun _ _ => trivial) (fun _ _ _ _ _ _ => trivial) hk
    rw [hn] at hget
    obtain rfl := Option.some.inj hget
    exact hc

end Outcome

/-! ## Accounts and work conservation -/

def NonnegRequests (s : Store) : Prop := ∀ d ∈ s.deployments.rows, 0 ≤ d.resources.cpu ∧ 0 ≤ d.resources.memoryMB

theorem NonnegRequests.required (h : NonnegRequests s) (p : Pod) :
    0 ≤ (requiredFor s p).cpu ∧ 0 ≤ (requiredFor s p).memoryMB := by
  unfold requiredFor Store.getDeployment
  cases hd : s.deployments.get p.deploymentID with
  | none => exact ⟨le_refl 0, le_refl 0⟩
  | some d => exact h d (Table.mem_of_get hd)

/-- Reservations only take room away, in any arithmetic of integers. -/
theorem NonnegRequests.shrinks [A : Arith] (hsub : ∀ a b, A.sub a b = a - b) (h : NonnegRequests s) (n : Node)
    (p q : Pod) (hq : (policy s).fits n q) (hfit : (policy s).fits ((policy s).take n q) p) : (policy s).fits n p := by
  obtain ⟨hs, hroom⟩ := hfit
  obtain ⟨-, hcpu, hmem⟩ := Node.hasCapacityFor_iff.mp hroom
  obtain ⟨hfull, -, hmem'⟩ := Node.hasCapacityFor_iff.mp hq.2
  obtain ⟨hcpu₀, hmem₀⟩ := h.required q
  refine ⟨hs, Node.hasCapacityFor_iff.mpr ⟨hfull, ?_, ?_⟩⟩
  · change _ ≤ A.sub n.available.cpu (requiredFor s q).cpu at hcpu
    rw [hsub] at hcpu
    exact le_trans hcpu (sub_le_self n.available.cpu hcpu₀)
  · have hle := A.int_le_self (n.available.memoryMB - (requiredFor s q).memoryMB) (sub_nonneg.mpr hmem')
    exact le_trans (le_trans hmem hle) (sub_le_self n.available.memoryMB hmem₀)

/-- What nodes store are Go `int`s. -/
def Int64Nodes (s : Store) : Prop :=
  ∀ n ∈ s.nodes.rows, IsInt64 n.available.memoryMB ∧ IsInt64 n.runningJobs ∧ IsInt64 n.maxConcurrent

/-- The pod was moved: it was ready, and went to a node that was healthy. -/
def MovedBy (now : Time) (s s' : Store) (p : Pod) : Prop :=
  p.status = .pending ∧ ready now p ∧ ∃ n t, s.nodes.get n.id = some n ∧ n.status = .healthy ∧
    s'.pods.get p.id = some (Store.movePod (assigned p n) .scheduled "" t)

/-- What a pass from `s` leaves in `s'`. -/
structure TickAccounts (now : Time) (s s' : Store) : Prop where
  pods : ∀ p, s.pods.get p.id = some p → s'.pods.get p.id = some p ∨ MovedBy now s s' p
  noPods : ∀ k, s.pods.get k = none → s'.pods.get k = none
  nodes : ∀ k n, s.nodes.get k = some n → s'.nodes.get k = some { n with
    available :=
      { cpu := n.available.cpu - ((arrivals s s' k).map fun p => (requiredFor s p).cpu).sum
        memoryMB := n.available.memoryMB - ((arrivals s s' k).map fun p => (requiredFor s p).memoryMB).sum }
    runningJobs := wrapInt64 (n.runningJobs + (arrivals s s' k).length) }
  noNodes : ∀ k, s.nodes.get k = none → s'.nodes.get k = none
  /-- a node that received a pod is not overfilled -/
  room : ∀ k n, s'.nodes.get k = some n → arrivals s s' k ≠ [] →
    0 ≤ n.available.cpu ∧ 0 ≤ n.available.memoryMB ∧ (0 < n.maxConcurrent → n.runningJobs ≤ n.maxConcurrent)
  /-- a pod that is ready and still pending fits on no healthy node -/
  conserving : ∀ p, s'.pods.get p.id = some p → p.status = .pending → ready now p →
    ∀ k n, s'.nodes.get k = some n → n.status = .healthy → n.hasCapacityFor (requiredFor s' p) = false
  deployments : s'.deployments = s.deployments
  services : s'.services = s.services

namespace Outcome

variable [A : Arith] {order : List Pod} {nodes copies : List Node} {plan : Plan}
  (h : Outcome T now s order nodes copies plan s')

include h

theorem movedBy {p : Pod} (hp : p ∈ plan.map Prod.fst) : MovedBy now s s' p := by
  obtain ⟨x, hx, rfl⟩ := List.mem_map.mp hp
  obtain ⟨-, hst, hr⟩ := (h.mem x.1).mp (h.mem_order hx)
  obtain ⟨n, hn, hs, hid⟩ := h.origin hx
  refine ⟨hst, hr, n, x.2.2, hn, hs, ?_⟩
  have hsame : assigned x.1 n = assigned x.1 x.2.1 := by
    unfold assigned
    rw [hid]
  rw [hsame]
  exact h.moved hx

theorem conserves (hsub : ∀ a b, A.sub a b = a - b) (hreq : NonnegRequests s) {p : Pod}
    (hp : s'.pods.get p.id = some p) (hst : p.status = .pending) (hr : ready now p) {k : String} {n : Node}
    (hn : s'.nodes.get k = some n) (hs : n.status = .healthy) : n.hasCapacityFor (requiredFor s' p) = false := by
  have hid : n.id = k := Table.key_of_get hn
  subst hid
  -- a pod of the plan is not pending any more
  have hne : ∀ x ∈ plan, x.1.id ≠ p.id := by
    intro x hx hid
    have hmoved := h.moved hx
    rw [hid, hp] at hmoved
    have hpend := congrArg Pod.status (Option.some.inj hmoved)
    rw [hst] at hpend
    cases hpend
  have hstored : s.pods.get p.id = some p := by
    rw [← hp, h.store, dispatchAll_pods_ne hne]
  have hnot : p ∉ ((policy s).placed nodes order).map Prod.fst := by
    rw [← h.placed_pods]
    intro hin
    obtain ⟨x, hx, rfl⟩ := List.mem_map.mp hin
    exact hne x hx rfl
  have hcopy := h.node_mem_copies hn
  rw [h.left] at hcopy
  have hfits := Policy.rejected (hreq.shrinks hsub) ((h.mem p).mpr ⟨hstored, hst, hr⟩) hnot n hcopy
  rw [h.store, requiredFor_dispatchAll]
  by_contra hroom
  exact hfits ⟨hs, by simpa using hroom⟩

end Outcome

/-- What a node `n` has become when it has taken in the pods `l`, in Go's integers. -/
structure Loaded (s : Store) (n : Node) (l : List Pod) (c : Node) : Prop where
  node : c = { n with
    available :=
      { cpu := n.available.cpu - (l.map fun p => (requiredFor s p).cpu).sum
        memoryMB := n.available.memoryMB - (l.map fun p => (requiredFor s p).memoryMB).sum }
    runningJobs := wrapInt64 (n.runningJobs + l.length) }
  ints : IsInt64 c.available.memoryMB ∧ IsInt64 c.runningJobs ∧ IsInt64 c.maxConcurrent
  room : l ≠ [] →
    0 ≤ c.available.cpu ∧ 0 ≤ c.available.memoryMB ∧ (0 < c.maxConcurrent → c.runningJobs ≤ c.maxConcurrent)

theorem Loaded.start {n : Node} (h : Int64Nodes s) (hn : s.nodes.get n.id = some n) : Loaded s n [] n := by
  have hints := h n (Table.mem_of_get hn)
  refine ⟨?_, hints, fun hnil => absurd rfl hnil⟩
  simp [wrapInt64_of hints.2.1]

section Int64

variable [A : Arith] (hint : ∀ x, A.int x = wrapInt64 x) (hsub : ∀ a b, A.sub a b = a - b)

include hint hsub

/-- A pod that fits takes no more than there is, so that only the count of jobs may wrap around. -/
theorem Loaded.reserve {n c : Node} {l : List Pod} {p : Pod} (h : Loaded s n l c) (hreq : NonnegRequests s)
    (hfit : (policy s).fits c p) : Loaded s n (l ++ [p]) (reserve c (requiredFor s p)) := by
  obtain ⟨hfull, hcpu, hmem⟩ := Node.hasCapacityFor_iff.mp hfit.2
  obtain ⟨-, hmem₀⟩ := hreq.required p
  obtain ⟨⟨-, hmax⟩, hjobs, hlimit⟩ := h.ints
  have hleft : IsInt64 (c.available.memoryMB - (requiredFor s p).memoryMB) := ⟨by omega, by omega⟩
  have hres : Scheduler.reserve c (requiredFor s p) = { c with
      available :=
        { cpu := c.available.cpu - (requiredFor s p).cpu
          memoryMB := c.available.memoryMB - (requiredFor s p).memoryMB }
      runningJobs := wrapInt64 (c.runningJobs + 1) } := by
    simp only [Scheduler.reserve, hint, hsub, wrapInt64_of hleft]
  rw [hres]
  refine ⟨?_, ⟨hleft, isInt64_wrapInt64 _, hlimit⟩, fun _ => ⟨sub_nonneg.mpr hcpu, sub_nonneg.mpr hmem, fun hpos => ?_⟩⟩
  · rw [h.node]
    simp only [wrapInt64_wrapInt64_add, List.map_append, List.map_cons, List.map_nil, List.sum_append, List.sum_cons,
      List.sum_nil, List.length_append, List.length_cons, List.length_nil, add_zero, sub_sub, Nat.cast_add, add_assoc]
    rfl
  · -- below a limit the next number is an `int` still
    have hlt := hfull hpos
    have hnext : IsInt64 (c.runningJobs + 1) := by
      obtain ⟨hlo, -⟩ := hjobs
      obtain ⟨-, hhi⟩ := hlimit
      exact ⟨by omega, by omega⟩
    change wrapInt64 (c.runningJobs + 1) ≤ c.maxConcurrent
    rw [wrapInt64_of hnext]
    omega

variable {order : List Pod} {nodes copies : List Node} {plan : Plan}

/-- A node after a pass, with the pods that arrived. -/
theorem Outcome.loaded (h : Outcome T now s order nodes copies plan s') (hints : Int64Nodes s) (hreq : NonnegRequests s)
    {k : String} {n : Node} (hn : s.nodes.get k = some n) :
    ∃ c l, s'.nodes.get k = some c ∧ l.Perm (arrivals s s' k) ∧ Loaded s n l c := by
  obtain ⟨c, -, hc, hloaded⟩ := h.node_copy (Loaded s) (fun _ => Loaded.start hints)
    (fun _ _ _ _ hl hfit => hl.reserve hint hsub hreq hfit) hn
  exact ⟨c, _, hc, h.load_perm k, hloaded⟩

theorem Outcome.accounts (h : Outcome T now s order nodes copies plan s') (hints : Int64Nodes s)
    (hreq : NonnegRequests s) : TickAccounts now s s' := by
  constructor
  · intro p hp
    by_cases hin : p ∈ plan.map Prod.fst
    · exact .inr (h.movedBy hin)
    · exact .inl (h.unmoved hp hin)
  · intro k hk
    rw [h.store, dispatchAll_pods_ne, hk]
    rintro x hx rfl
    rw [((h.mem x.1).mp (h.mem_order hx)).1] at hk
    cases hk
  · intro k n hn
    obtain ⟨c, l, hc, hl, hloaded⟩ := h.loaded hint hsub hints hreq hn
    rw [hc, hloaded.node, (hl.map _).sum_eq, (hl.map _).sum_eq, hl.length_eq]
  · intro k hk
    exact h.nodes_none hk
  · intro k n hn harr
    cases hk : s.nodes.get k with
    | none =>
      rw [h.nodes_none hk] at hn
      cases hn
    | some m =>
      obtain ⟨c, l, hc, hl, hloaded⟩ := h.loaded hint hsub hints hreq hk
      obtain rfl : c = n := Option.some.inj (hc.symm.trans hn)
      refine hloaded.room fun hnil => harr ?_
      rw [hnil] at hl
      exact hl.symm.eq_nil
  · intro p hp hst hr k n hn hs
    exact h.conserves hsub hreq hp hst hr hn hs
  · rw [h.store]
    exact (dispatchAll_frame s plan).1
  · rw [h.store]
    exact (dispatchAll_frame s plan).2

end Int64

/-- **A pass accounts exactly and leaves no work that it could do.** -/
theorem tick_accounts {r : Option Stats} (hints : Int64Nodes s) (hreq : NonnegRequests s)
    (h : Runs Exec (tick (A := .int64) now) s r s') : TickAccounts now s s' := by
  obtain ⟨order, nodes, copies, plan, hout⟩ := tick_outcome (A := .int64) (execIn_all h)
  exact Outcome.accounts (A := .int64) (fun _ => rfl) (fun _ _ => rfl) hout hints hreq

/-- Three pods and one node, which has no room for the second one once it has the first. -/
def crowdedStore : Store :=
  (((((({} : Store).putDeployment { id := "small", resources := ⟨1, 40⟩, status := .active }).putDeployment
    { id := "large", resources := ⟨1, 90⟩, status := .active }).putNode
    { id := "node", status := .healthy, available := ⟨4, 100⟩, maxConcurrent := 3, registeredAt := 1 }).putPod
    { id := "first", deploymentID := "small", status := .pending, createdAt := 1 }).putPod
    { id := "second", deploymentID := "large", status := .pending, createdAt := 2 }).putPod
    { id := "third", deploymentID := "small", status := .pending, createdAt := 3 }

def crowdedTick : Option Stats × Store := (tick 5).run (fun c s => s.exec 5 c) crowdedStore

theorem runs_crowdedTick : Runs (ExecIn (· = 5)) (tick 5) crowdedStore crowdedTick.1 crowdedTick.2 :=
  run_runs _ (exec_allowedIn (T := (· = 5)) rfl) _ _

theorem nonneg_crowdedStore : NonnegRequests crowdedStore := by
  unfold NonnegRequests
  decide +kernel

/-- The same pass in Go's integers. -/
def crowdedTick64 : Option Stats × Store := (tick (A := .int64) 5).run (fun c s => s.exec 5 c) crowdedStore

theorem tick_accounts_crowded : Int64Nodes crowdedStore ∧ NonnegRequests crowdedStore ∧
    TickAccounts 5 crowdedStore crowdedTick64.2 ∧
    (arrivals crowdedStore crowdedTick64.2 "node").map Pod.id = ["first", "third"] := by
  have hints : Int64Nodes crowdedStore := by
    unfold Int64Nodes
    decide +kernel
  have hrun : Runs Exec (tick (A := .int64) 5) crowdedStore crowdedTick64.1 crowdedTick64.2 :=
    run_runs _ (exec_allowed 5) _ _
  exact ⟨hints, nonneg_crowdedStore, tick_accounts hints nonneg_crowdedStore hrun, by decide +kernel⟩

/-- A node without a limit that reports the largest number of jobs, and a pod. -/
def saturatedStore : Store :=
  (({} : Store).putNode { id := "node", status := .healthy, runningJobs := 2 ^ 63 - 1 }).putPod
    { id := "pod", deploymentID := "", status := .pending }

/-- The number of jobs does not grow by one: it wraps around. -/
theorem tick_jobs_wrap :
    ¬ ∀ (now : Time) (s s' : Store) (r : Option Stats), Int64Nodes s → NonnegRequests s →
      Runs Exec (tick (A := .int64) now) s r s' → ∀ k n n', s.nodes.get k = some n → s'.nodes.get k = some n' →
      n'.runningJobs = n.runningJobs + (arrivals s s' k).length := by
  intro h
  have hrun := run_runs (fun c s => s.exec 1 c) (exec_allowed 1) (tick (A := .int64) 1) saturatedStore
  have hjobs := h 1 saturatedStore _ _ (by unfold Int64Nodes; decide +kernel) (by unfold NonnegRequests; decide +kernel)
    hrun "node" _ _ rfl rfl
  revert hjobs
  decide +kernel

/-! ## First come, first served -/

/-- **No overtaking.**  A ready pod that was created earlier than another one, and requests no more, is scheduled if
the other one is. -/
theorem no_overtaking {r : Option Stats} {p q : Pod} (hreq : NonnegRequests s) (h : Runs Exec (tick now) s r s')
    (hp : s.pods.get p.id = some p) (hq : s.pods.get q.id = some q) (hpst : p.status = .pending)
    (hqst : q.status = .pending) (hpr : ready now p) (hqr : ready now q) (hfirst : p.createdAt < q.createdAt)
    (hcpu : (requiredFor s p).cpu ≤ (requiredFor s q).cpu)
    (hmem : (requiredFor s p).memoryMB ≤ (requiredFor s q).memoryMB)
    (hsched : (s'.pods.get q.id).map Pod.status = some .scheduled) :
    (s'.pods.get p.id).map Pod.status = some .scheduled := by
  obtain ⟨order, nodes, copies, plan, hout⟩ := tick_outcome (execIn_all h)
  rw [hout.scheduled_iff hq hqst, hout.placed_pods] at hsched
  rw [hout.scheduled_iff hp hpst, hout.placed_pods]
  obtain ⟨l₁, l₂, rfl⟩ := List.append_of_mem ((hout.mem p).mpr ⟨hp, hpst, hpr⟩)
  -- the later pod comes later in the order
  have hlater : q ∈ l₂ := by
    have hin := (hout.mem q).mpr ⟨hq, hqst, hqr⟩
    rcases List.mem_append.mp hin with hin | hin
    · have hsorted := (List.pairwise_append.mp hout.sorted).2.2 q hin p List.mem_cons_self
      exact absurd hfirst (not_lt.mpr hsorted)
    · rcases List.mem_cons.mp hin with rfl | hin
      · exact absurd hfirst (lt_irrefl _)
      · exact hin
  refine Policy.not_overtaken (hreq.shrinks fun _ _ => rfl) (List.Nodup.of_map Pod.id hout.nodup) hlater ?_ hsched
  rintro n ⟨hs, hroom⟩
  obtain ⟨hfull, hc, hm⟩ := Node.hasCapacityFor_iff.mp hroom
  exact ⟨hs, Node.hasCapacityFor_iff.mpr ⟨hfull, le_trans hcpu hc, le_trans hmem hm⟩⟩

theorem no_overtaking_crowded :
    (crowdedTick.2.pods.get "third").map Pod.status = some .scheduled ∧
    (crowdedTick.2.pods.get "first").map Pod.status = some .scheduled := by
  have hthird : (crowdedTick.2.pods.get "third").map Pod.status = some .scheduled := by decide +kernel
  refine ⟨hthird, ?_⟩
  exact no_overtaking (p := { id := "first", deploymentID := "small", status := .pending, createdAt := 1 })
    (q := { id := "third", deploymentID := "small", status := .pending, createdAt := 3 }) nonneg_crowdedStore
    (ExecIn.exec runs_crowdedTick) (by decide +kernel) (by decide +kernel) rfl rfl (by decide) (by decide) (by decide)
    (by decide +kernel) (by decide +kernel) hthird

/-! ## The order of the listings -/

/-- Pending pods are told apart by their creation, nodes by their registration. -/
structure Distinguished (s : Store) : Prop where
  pods : ∀ p ∈ s.pods.rows, ∀ q ∈ s.pods.rows, p.status = .pending → q.status = .pending →
    p.createdAt = q.createdAt → p = q
  nodes : ∀ n ∈ s.nodes.rows, ∀ m ∈ s.nodes.rows, n.registeredAt = m.registeredAt → n = m

def unstamped (p : Pod) : Pod := { p with scheduledAt := none }

/-- The same store but for the times at which pods were scheduled. -/
structure SameUnstamped (s t : Store) : Prop where
  deployments : s.deployments = t.deployments
  nodes : s.nodes = t.nodes
  services : s.services = t.services
  pods : ∀ k, (s.pods.get k).map unstamped = (t.pods.get k).map unstamped

/-- The nodes depend on the dispatches only, not on their times. -/
theorem dispatchAll_nodes (s : Store) (plan : Plan) : (dispatchAll s plan).nodes =
    (plan.map fun x => (x.1, x.2.1)).foldl (fun t x => t.put (reserve x.2 (requiredFor s x.1))) s.nodes := by
  induction plan using List.reverseRecOn with
  | nil => rfl
  | append_singleton plan x ih =>
    rw [dispatchAll_snoc, List.map_append, List.foldl_append, ← ih]
    change (dispatchAll s plan).nodes.put (reserve x.2.1 (requiredFor (dispatchAll s plan) x.1)) = _
    rw [requiredFor_dispatchAll]
    rfl

section Order

variable {T₁ T₂ : Time → Prop} {s₁ s₂ : Store} {order₁ order₂ : List Pod} {nodes₁ nodes₂ copies₁ copies₂ : List Node}
  {plan₁ plan₂ : Plan} (hdist : Distinguished s) (h₁ : Outcome T₁ now s order₁ nodes₁ copies₁ plan₁ s₁)
  (h₂ : Outcome T₂ now s order₂ nodes₂ copies₂ plan₂ s₂)

include hdist h₁ h₂

theorem order_eq : order₁ = order₂ := by
  have hperm : order₁.Perm order₂ := by
    refine (List.perm_ext_iff_of_nodup (.of_map Pod.id h₁.nodup) (.of_map Pod.id h₂.nodup)).mpr fun p => ?_
    rw [h₁.mem, h₂.mem]
  refine hperm.eq_of_pairwise ?_ h₁.sorted h₂.sorted
  intro p q hp hq hpq hqp
  obtain ⟨hp, hpst, -⟩ := (h₁.mem p).mp hp
  obtain ⟨hq, hqst, -⟩ := (h₂.mem q).mp hq
  exact hdist.pods p (Table.mem_rows_iff.mpr hp) q (Table.mem_rows_iff.mpr hq) hpst hqst (le_antisymm hpq hqp)

theorem pairs_eq : plan₁.map (fun x => (x.1, x.2.1)) = plan₂.map fun x => (x.1, x.2.1) := by
  rw [h₁.pairs, h₂.pairs, order_eq hdist h₁ h₂]
  have hperm : nodes₂.Perm nodes₁ := h₂.listed.trans h₁.listed.symm
  refine Policy.placed_perm (fun l => ∀ n ∈ l, ∀ m ∈ l, n.registeredAt = m.registeredAt → n = m) ?_ ?_ hperm ?_
  · -- a reservation keeps the registration time
    intro l p b hl hb n hn m hm hreg
    have hbl := ((policy s).choose_some hb).1
    rcases Policy.mem_fill hn with rfl | ⟨hn, hnk⟩
    · rcases Policy.mem_fill hm with rfl | ⟨hm, hmk⟩
      · rfl
      · obtain rfl := hl b hbl m hm hreg
        exact absurd rfl hmk
    · rcases Policy.mem_fill hm with rfl | ⟨hm, hmk⟩
      · obtain rfl := hl n hn b hbl hreg
        exact absurd rfl hnk
      · exact hl n hn m hm hreg
  · intro l l' p hl hperm
    exact selectNode_perm hl hperm
  · intro n hn m hm
    exact hdist.nodes n (h₂.listed.mem_iff.mp hn) m (h₂.listed.mem_iff.mp hm)

/-- A pod that one pass moved the other one moved to the same node. -/
theorem moved_both {x : Pod × Node × Time} (hx : x ∈ plan₁) :
    (s₁.pods.get x.1.id).map unstamped = (s₂.pods.get x.1.id).map unstamped := by
  have hin : (x.1, x.2.1) ∈ plan₂.map fun x => (x.1, x.2.1) := by
    rw [← pairs_eq hdist h₁ h₂]
    exact List.mem_map.mpr ⟨x, hx, rfl⟩
  obtain ⟨y, hy, hyx⟩ := List.mem_map.mp hin
  obtain ⟨hp, hn⟩ := Prod.mk.inj hyx
  have hmoved := h₂.moved hy
  rw [hp, hn] at hmoved
  rw [h₁.moved hx, hmoved]
  rfl

theorem sameUnstamped : SameUnstamped s₁ s₂ := by
  constructor
  · rw [h₁.store, h₂.store, (dispatchAll_frame s plan₁).1, (dispatchAll_frame s plan₂).1]
  · rw [h₁.store, h₂.store, dispatchAll_nodes, dispatchAll_nodes, pairs_eq hdist h₁ h₂]
  · rw [h₁.store, h₂.store, (dispatchAll_frame s plan₁).2, (dispatchAll_frame s plan₂).2]
  · intro k
    by_cases hk₁ : ∃ x ∈ plan₁, x.1.id = k
    · obtain ⟨x, hx, rfl⟩ := hk₁
      exact moved_both hdist h₁ h₂ hx
    · by_cases hk₂ : ∃ x ∈ plan₂, x.1.id = k
      · obtain ⟨x, hx, rfl⟩ := hk₂
        exact (moved_both hdist h₂ h₁ hx).symm
      · rw [h₁.store, h₂.store, dispatchAll_pods_ne fun x hx hid => hk₁ ⟨x, hx, hid⟩,
          dispatchAll_pods_ne fun x hx hid => hk₂ ⟨x, hx, hid⟩]

end Order

/-- A plan of which all times are `t` is known from its pods and nodes. -/
theorem plan_of_pairs {plan : Plan} {t : Time} (h : ∀ x ∈ plan, x.2.2 = t) :
    (plan.map fun x => (x.1, x.2.1)).map (fun x => (x.1, x.2, t)) = plan := by
  rw [List.map_map]
  conv_rhs => rw [← List.map_id plan]
  refine List.map_congr_left fun x hx => ?_
  rw [Function.comp_apply, ← h x hx]
  rfl

/-- **The order of the listings does not show.**  Two passes from the same store differ at most in the times that
`TransitionPod` writes, and not at all if the clock readings are the same. -/
theorem tick_order_irrelevant (hdist : Distinguished s) :
    (∀ r₁ r₂ s₁ s₂, Runs Exec (tick now) s r₁ s₁ → Runs Exec (tick now) s r₂ s₂ → SameUnstamped s₁ s₂) ∧
    ∀ t r₁ r₂ s₁ s₂, Runs (ExecIn (· = t)) (tick now) s r₁ s₁ → Runs (ExecIn (· = t)) (tick now) s r₂ s₂ →
      s₁ = s₂ := by
  constructor
  · intro r₁ r₂ s₁ s₂ hrun₁ hrun₂
    obtain ⟨_, _, _, _, h₁⟩ := tick_outcome (execIn_all hrun₁)
    obtain ⟨_, _, _, _, h₂⟩ := tick_outcome (execIn_all hrun₂)
    exact sameUnstamped hdist h₁ h₂
  · intro t r₁ r₂ s₁ s₂ hrun₁ hrun₂
    obtain ⟨_, _, _, plan₁, h₁⟩ := tick_outcome hrun₁
    obtain ⟨_, _, _, plan₂, h₂⟩ := tick_outcome hrun₂
    have hplan : plan₁ = plan₂ := by
      rw [← plan_of_pairs h₁.times, ← plan_of_pairs h₂.times, pairs_eq hdist h₁ h₂]
    rw [h₁.store, h₂.store, hplan]

/-- Whatever the order of the listings, a pass over the crowded store at time 5 ends in this store. -/
theorem tick_order_irrelevant_crowded : Distinguished crowdedStore ∧
    ∀ r s', Runs (ExecIn (· = 5)) (tick 5) crowdedStore r s' → s' = crowdedTick.2 := by
  have hdist : Distinguished crowdedStore := ⟨by decide +kernel, by decide +kernel⟩
  refine ⟨hdist, fun r s' h => ?_⟩
  exact (tick_order_irrelevant hdist).2 5 _ _ _ _ h runs_crowdedTick

end ControlPlane.Scheduler
