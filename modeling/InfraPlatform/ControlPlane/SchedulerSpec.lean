import Mathlib.Data.Prod.Lex
import InfraPlatform.Lib.FirstMin
import InfraPlatform.Lib.Greedy
import InfraPlatform.ControlPlane.StoreSpec
import InfraPlatform.ControlPlane.Scheduler

/-!
# What a scheduling pass does to the store

`tick`, run without interleaving, is a sequence of `Dispatch`es: each moves one
pending pod to a healthy node with room for it and takes the pod's request off
that node (`tick_spec`).  Which pod goes to which node is the greedy placement of
the pods that are ready, in the order of their creation (`tick_plan`).

The pass works on private copies of pods and nodes; the loop invariant `Planned`
says that the copies it still uses are the stored records.
-/

namespace ControlPlane.Scheduler

open Lib Lib.Prog Relation

variable {s s' : Store} {now : Time} {T : Time → Prop}

/-- The request the scheduler reserves for `p`. -/
def requiredFor (s : Store) (p : Pod) : ResourceRequest := requiredOf (s.getDeployment p.deploymentID)

/-- The backoff gate set by the reconciler is open. -/
def ready (now : Time) (p : Pod) : Prop := p.runAfter.isZero = true ∨ p.runAfter ≤ now

instance (now : Time) (p : Pod) : Decidable (ready now p) :=
  inferInstanceAs (Decidable (p.runAfter.isZero = true ∨ p.runAfter ≤ now))

/-- The store with `p` dispatched to `n` at time `t`. -/
def dispatched [A : Arith] (s : Store) (p : Pod) (n : Node) (t : Time) : Store :=
  (s.putPod (Store.movePod (assigned p n) .scheduled "" t)).putNode (reserve n (requiredFor s p))

/-- One dispatch: a pending pod whose gate is open, a healthy node with room for it. -/
inductive Dispatch [A : Arith] (now : Time) : Store → Store → Prop where
  | mk {s : Store} (p : Pod) (n : Node) (t : Time) :
      s.pods.get p.id = some p → p.status = .pending → ready now p →
      s.nodes.get n.id = some n → n.status = .healthy → n.hasCapacityFor (requiredFor s p) = true →
      Dispatch now s (dispatched s p n t)

@[simp] theorem reserve_id [A : Arith] (n : Node) (req : ResourceRequest) : (reserve n req).id = n.id := rfl

@[simp] theorem reserve_capacity [A : Arith] (n : Node) (req : ResourceRequest) :
    (reserve n req).capacity = n.capacity := rfl

@[simp] theorem assigned_id (p : Pod) (n : Node) : (assigned p n).id = p.id := rfl

@[simp] theorem assigned_status (p : Pod) (n : Node) : (assigned p n).status = p.status := rfl

/-! ## `SelectNode` -/

/-- The node is healthy and has room. -/
def Qualifies (required : ResourceRequest) (n : Node) : Prop :=
  n.status = .healthy ∧ n.hasCapacityFor required = true

/-- The best of the nodes seen so far. -/
def Best (required : ResourceRequest) (seen : List Node) : Option Node → Prop
  | none => ∀ m ∈ seen, ¬ Qualifies required m
  | some n => n ∈ seen ∧ Qualifies required n ∧ ∀ m ∈ seen, Qualifies required m → preferred m n = false

section Select

variable {required : ResourceRequest} {l : List Node} {n m : Node} {best : Option Node}

/-- The load and then the age of a node, in lexicographic order. -/
def rank (n : Node) : Lex (Int × Time) := toLex (n.runningJobs, n.registeredAt)

theorem preferred_iff : preferred m n = true ↔ rank m < rank n := by
  simp only [preferred, rank, Prod.Lex.toLex_lt_toLex, Bool.or_eq_true, Bool.and_eq_true, decide_eq_true_eq, beq_iff_eq]

theorem not_preferred_iff : preferred m n = false ↔ rank n ≤ rank m := by
  rw [← not_lt, ← preferred_iff, Bool.not_eq_true]

/-- One round of the loop skips the node, takes it, or finds it no better. -/
theorem consider_cases (required : ResourceRequest) (best : Option Node) (n : Node) :
    ¬ Qualifies required n ∧ consider required best n = best ∨
    Qualifies required n ∧ consider required best n = some n ∧ (∀ b, best = some b → preferred n b = true) ∨
    ∃ b, best = some b ∧ preferred n b = false ∧ consider required best n = some b := by
  unfold consider Qualifies
  split
  · next hs => exact .inl ⟨fun hq => hs hq.1, rfl⟩
  · next hs =>
    split
    · next hc => exact .inl ⟨fun hq => by simp [hq.2] at hc, rfl⟩
    · next hc =>
      have hq : n.status = .healthy ∧ n.hasCapacityFor required = true := ⟨by simpa using hs, by simpa using hc⟩
      cases best with
      | none => exact .inr (.inl ⟨hq, rfl, by simp⟩)
      | some b =>
        cases hp : preferred n b with
        | true => exact .inr (.inl ⟨hq, by simp [hp], by simpa using hp⟩)
        | false => exact .inr (.inr ⟨b, rfl, hp, by simp [hp]⟩)

/-- **The loop keeps the first minimum** of the nodes that qualify. -/
theorem selectNode_kept (l : List Node) (required : ResourceRequest) :
    Kept (Qualifies required) rank l (selectNode l required) := by
  induction l using List.reverseRecOn with
  | nil => exact .nil
  | append_singleton l n ih =>
    unfold selectNode at ih ⊢
    rw [List.foldl_append, List.foldl_cons, List.foldl_nil]
    generalize l.foldl (consider required) none = best at ih ⊢
    rcases consider_cases required best n with ⟨hn, heq⟩ | ⟨hn, heq, hpref⟩ | ⟨b, rfl, hpref, heq⟩
    · rw [heq]
      exact ih.skip hn
    · rw [heq]
      exact ih.take hn fun b hb => preferred_iff.mp (hpref b hb)
    · rw [heq]
      exact ih.stay fun _ => not_preferred_iff.mp hpref

theorem selectNode_best (l : List Node) (required : ResourceRequest) : Best required l (selectNode l required) := by
  have hkept := selectNode_kept l required
  cases hn : selectNode l required with
  | none => exact hkept.none_iff.mp hn
  | some n =>
    have hfirst := hkept.some_iff.mp hn
    exact ⟨hfirst.mem, hfirst.holds, fun m hm hq => not_preferred_iff.mpr (hfirst.le hm hq)⟩

theorem selectNode_qualifies (h : selectNode l required = some n) :
    n ∈ l ∧ n.status = .healthy ∧ n.hasCapacityFor required = true := by
  have hbest := selectNode_best l required
  rw [h] at hbest
  exact ⟨hbest.1, hbest.2.1⟩

theorem selectNode_none (h : selectNode l required = none) : ∀ m ∈ l, ¬ Qualifies required m := by
  have hbest := selectNode_best l required
  rw [h] at hbest
  exact hbest

/-- Where registration times are distinct, the best node does not depend on the order. -/
theorem selectNode_perm {l' : List Node} (hdist : ∀ n ∈ l, ∀ m ∈ l, n.registeredAt = m.registeredAt → n = m)
    (hperm : l.Perm l') : selectNode l' required = selectNode l required := by
  refine (selectNode_kept l required).perm (selectNode_kept l' required) hperm ?_
  intro n hn m hm hrank
  exact hdist n hn m hm (Prod.mk.inj (toLex.injective hrank)).2

/-- **`SelectNode` is exact.**  It fails exactly if no candidate is healthy with room for the request, and otherwise
returns the first of the candidates that have the least load, and among these the earliest registration; with distinct
registration times it does so in every order of the list. -/
theorem selectNode_exact (candidates : List Node) (required : ResourceRequest) :
    (selectNode candidates required = none ↔
      ∀ n ∈ candidates, ¬ (n.status = .healthy ∧ n.hasCapacityFor required = true)) ∧
    (∀ n, selectNode candidates required = some n ↔ FirstMin (Qualifies required) rank candidates n) ∧
    ((candidates.map Node.registeredAt).Nodup →
      ∀ l', candidates.Perm l' → selectNode l' required = selectNode candidates required) := by
  have hkept := selectNode_kept candidates required
  refine ⟨hkept.none_iff, fun n => hkept.some_iff, ?_⟩
  intro hnodup l' hperm
  exact selectNode_perm (fun n hn m hm => List.inj_on_of_nodup_map hnodup hn hm) hperm

/-- A loaded node, a node that is draining, and two idle ones. -/
def rack : List Node :=
  [{ id := "busy", status := .healthy, runningJobs := 2, registeredAt := 1 },
   { id := "leaving", status := .draining, registeredAt := 2 },
   { id := "newer", status := .healthy, registeredAt := 4 },
   { id := "older", status := .healthy, registeredAt := 3 }]

theorem selectNode_exact_rack :
    (selectNode rack {}).map Node.id = some "older" ∧ selectNode rack.reverse {} = selectNode rack {} := by
  refine ⟨by decide +kernel, ?_⟩
  exact (selectNode_exact rack {}).2.2 (by decide +kernel) rack.reverse (List.reverse_perm rack).symm

end Select

theorem sortByCreatedAt_perm (l : List Pod) : (sortByCreatedAt l).Perm l := List.perm_insertionSort _ l

/-! ## One round of the loop -/

variable [A : Arith]

theorem dispatch_spec {pass pass' : Pass} {p : Pod} {n : Node} {required : ResourceRequest}
    (hp : s.pods.get p.id = some p) (hst : p.status = .pending) (hn : s.nodes.get n.id = some n)
    (h : Runs (ExecIn T) (dispatch pass p n required) s pass' s') :
    pass' = pass.reserved n required ∧ ∃ t, T t ∧ s' =
      (s.putPod (Store.movePod (assigned p n) .scheduled "" t)).putNode (reserve n required) := by
  simp only [dispatch, runs_bind, runsIn_updatePod] at h
  obtain ⟨_, s₁, hupd, h⟩ := h
  rw [Store.updatePod_some (p := assigned p n) hp] at hupd
  obtain ⟨rfl, rfl⟩ := Prod.mk.inj hupd
  have hget : (s.putPod (assigned p n)).pods.get p.id = some (assigned p n) :=
    Table.get_put_self s.pods (assigned p n)
  have hok : transitionPod (assigned p n).status .scheduled = true := by
    rw [assigned_status, hst]; rfl
  simp only [runs_bind, runsIn_transitionPod] at h
  obtain ⟨_, s₁, ⟨t, hT, htr⟩, h⟩ := h
  rw [Store.transitionPod_of hget hok, Store.putPod_putPod (Store.movePod_id _ _ _ _).symm] at htr
  obtain ⟨rfl, rfl⟩ := Prod.mk.inj htr
  simp only [runs_bind, runsIn_updateNode] at h
  obtain ⟨_, s₁, hupn, h⟩ := h
  have hn' : (s.putPod (Store.movePod (assigned p n) .scheduled "" t)).nodes.get (reserve n required).id =
      some n := hn
  rw [Store.updateNode_some hn'] at hupn
  obtain ⟨rfl, rfl⟩ := Prod.mk.inj hupn
  obtain ⟨rfl, rfl⟩ := runs_pure.mp h
  exact ⟨rfl, t, hT, rfl⟩

/-- A round passes over a pod that is not ready or fits nowhere, or it is one dispatch, mirrored in the pass's
copies. -/
theorem schedulePod_spec {pass pass' : Pass} {p : Pod}
    (hp : s.pods.get p.id = some p) (hst : p.status = .pending)
    (hnodes : ∀ n ∈ pass.nodes, s.nodes.get n.id = some n)
    (h : Runs (ExecIn T) (schedulePod now pass p) s pass' s') :
    (¬ ready now p ∨ selectNode pass.nodes (requiredFor s p) = none) ∧ pass' = pass ∧ s' = s ∨
    ∃ n t, ready now p ∧ selectNode pass.nodes (requiredFor s p) = some n ∧ T t ∧ s' = dispatched s p n t ∧
      pass' = pass.reserved n (requiredFor s p) := by
  unfold schedulePod at h
  split at h
  · next hgate =>
    refine .inl ⟨.inl ?_, runs_pure.mp h⟩
    unfold ready
    simpa [not_or] using hgate
  · next hgate =>
    have hready : ready now p := by
      unfold ready
      simp only [Bool.and_eq_true, Bool.not_eq_true', decide_eq_true_eq, not_and] at hgate
      by_cases hz : p.runAfter.isZero = true
      · exact .inl hz
      · exact .inr (not_lt.mp (hgate (by simpa using hz)))
    simp only [runs_bind, runsIn_getDeployment] at h
    obtain ⟨_, s₁, ⟨rfl, rfl⟩, h⟩ := h
    split at h
    · next hsel => exact .inl ⟨.inr hsel, runs_pure.mp h⟩
    · next n hsel =>
      obtain ⟨hpass, t, hT, hs'⟩ := dispatch_spec hp hst (hnodes n (selectNode_qualifies hsel).1) h
      exact .inr ⟨n, t, hready, hsel, hT, hs', hpass⟩

theorem dispatched_nodes_get {p : Pod} {n : Node} {t : Time} {k : String} :
    (dispatched s p n t).nodes.get k = if k = n.id then some (reserve n (requiredFor s p)) else s.nodes.get k :=
  Table.get_put s.nodes (reserve n (requiredFor s p)) k

/-- A node after a dispatch: the one that was reserved, or another one as it was. -/
theorem node_of_dispatched {p : Pod} {n m : Node} {t : Time} {k : String}
    (h : (dispatched s p n t).nodes.get k = some m) :
    k = n.id ∧ m = reserve n (requiredFor s p) ∨ n.id ≠ k ∧ s.nodes.get k = some m := by
  rw [dispatched_nodes_get] at h
  split at h
  · next hk => exact .inl ⟨hk, (Option.some.inj h).symm⟩
  · next hk => exact .inr ⟨Ne.symm hk, h⟩

theorem dispatched_pods_get {p : Pod} {n : Node} {t : Time} {k : String} :
    (dispatched s p n t).pods.get k =
      if k = p.id then some (Store.movePod (assigned p n) .scheduled "" t) else s.pods.get k :=
  Table.get_put s.pods (Store.movePod (assigned p n) .scheduled "" t) k

/-! ## The pass -/

/-- The pass's copies of the nodes are the stored records, before and after a dispatch. -/
theorem reserved_current {pass : Pass} {p : Pod} {n : Node} {t : Time}
    (hnodes : ∀ m ∈ pass.nodes, s.nodes.get m.id = some m) :
    ∀ m ∈ (pass.reserved n (requiredFor s p)).nodes, (dispatched s p n t).nodes.get m.id = some m := by
  intro m hm
  obtain ⟨m₀, hm₀, rfl⟩ := List.mem_map.mp hm
  rw [dispatched_nodes_get]
  by_cases hid : m₀.id = n.id
  · simp [hid]
  · simp [hid, hnodes m₀ hm₀]

/-- The placement of pods on nodes, with the requests that their deployments make in `s`. -/
def policy (s : Store) : Policy Pod Node String where
  key := Node.id
  fits n p := Qualifies (requiredFor s p) n
  take n p := reserve n (requiredFor s p)
  choose nodes p := selectNode nodes (requiredFor s p)
  key_take _ _ := rfl
  choose_some h := selectNode_qualifies h
  choose_none h := selectNode_none h

/-- The dispatches of a pass: pods, the nodes as they were chosen, times. -/
abbrev Plan := List (Pod × Node × Time)

def dispatchAll (s : Store) (plan : Plan) : Store := plan.foldl (fun s x => dispatched s x.1 x.2.1 x.2.2) s

theorem dispatchAll_snoc (s : Store) (plan : Plan) (x : Pod × Node × Time) :
    dispatchAll s (plan ++ [x]) = dispatched (dispatchAll s plan) x.1 x.2.1 x.2.2 := by
  simp [dispatchAll]

/-- A dispatch writes one pod and one node. -/
theorem dispatchAll_frame (s : Store) (plan : Plan) :
    (dispatchAll s plan).deployments = s.deployments ∧ (dispatchAll s plan).services = s.services := by
  induction plan using List.reverseRecOn with
  | nil => exact ⟨rfl, rfl⟩
  | append_singleton plan x ih =>
    rw [dispatchAll_snoc]
    exact ih

theorem requiredFor_dispatchAll (s : Store) (plan : Plan) (p : Pod) :
    requiredFor (dispatchAll s plan) p = requiredFor s p := by
  unfold requiredFor Store.getDeployment
  rw [(dispatchAll_frame s plan).1]

theorem dispatchAll_pods_ne {plan : Plan} {k : String} (h : ∀ x ∈ plan, x.1.id ≠ k) :
    (dispatchAll s plan).pods.get k = s.pods.get k := by
  induction plan using List.reverseRecOn with
  | nil => rfl
  | append_singleton plan x ih =>
    rw [dispatchAll_snoc, dispatched_pods_get, if_neg (Ne.symm (h x List.mem_concat_self))]
    exact ih fun y hy => h y (List.mem_append_left _ hy)

theorem dispatchAll_nodes_ne {plan : Plan} {k : String} (h : ∀ x ∈ plan, x.2.1.id ≠ k) :
    (dispatchAll s plan).nodes.get k = s.nodes.get k := by
  induction plan using List.reverseRecOn with
  | nil => rfl
  | append_singleton plan x ih =>
    rw [dispatchAll_snoc, dispatched_nodes_get, if_neg (Ne.symm (h x List.mem_concat_self))]
    exact ih fun y hy => h y (List.mem_append_left _ hy)

/-- What the loop has done with the pods `done`: the nodes were `nodes` when listed, and are `copies` now. -/
structure Planned (T : Time → Prop) (now : Time) (s : Store) (nodes : List Node) (done : List Pod)
    (copies : List Node) (plan : Plan) (s' : Store) : Prop where
  pairs : plan.map (fun x => (x.1, x.2.1)) = (policy s).placed nodes (done.filter (ready now))
  times : ∀ x ∈ plan, T x.2.2
  left : copies = (policy s).left nodes (done.filter (ready now))
  store : s' = dispatchAll s plan
  reached : ReflTransGen (Dispatch now) s s'
  current : ∀ n ∈ copies, s'.nodes.get n.id = some n

section Planned

variable {nodes : List Node} {done : List Pod} {pass pass' : Pass} {plan : Plan} {p : Pod} {s₁ : Store}

theorem Planned.skip (h : Planned T now s nodes done pass.nodes plan s₁)
    (hskip : ¬ ready now p ∨ selectNode pass.nodes (requiredFor s p) = none) :
    Planned T now s nodes (done ++ [p]) pass.nodes plan s₁ := by
  have hsame : (policy s).placed nodes ((done ++ [p]).filter (ready now)) =
        (policy s).placed nodes (done.filter (ready now)) ∧
      (policy s).left nodes ((done ++ [p]).filter (ready now)) =
        (policy s).left nodes (done.filter (ready now)) := by
    rw [List.filter_append]
    by_cases hr : ready now p
    · have hnone : (policy s).choose ((policy s).left nodes (done.filter (ready now))) p = none := by
        rw [← h.left]
        exact hskip.resolve_left (not_not.mpr hr)
      rw [List.filter_singleton, decide_eq_true hr]
      exact ⟨Policy.placed_snoc_none hnone, Policy.left_snoc_none hnone⟩
    · rw [List.filter_singleton, decide_eq_false hr]
      simp
  exact ⟨h.pairs.trans hsame.1.symm, h.times, h.left.trans hsame.2.symm, h.store, h.reached, h.current⟩

theorem Planned.dispatch {n : Node} {t : Time} (h : Planned T now s nodes done pass.nodes plan s₁)
    (hp : s₁.pods.get p.id = some p) (hst : p.status = .pending) (hr : ready now p)
    (hsel : selectNode pass.nodes (requiredFor s₁ p) = some n) (hT : T t) :
    Planned T now s nodes (done ++ [p]) (pass.reserved n (requiredFor s₁ p)).nodes (plan ++ [(p, n, t)])
      (dispatched s₁ p n t) := by
  have hreq : requiredFor s₁ p = requiredFor s p := by rw [h.store]; exact requiredFor_dispatchAll s plan p
  have hchoose : (policy s).choose ((policy s).left nodes (done.filter (ready now))) p = some n := by
    rw [← h.left, ← hsel, hreq]
    rfl
  have hfilter : (done ++ [p]).filter (fun q => decide (ready now q)) = done.filter (ready now) ++ [p] := by
    rw [List.filter_append, List.filter_singleton, decide_eq_true hr]
    rfl
  obtain ⟨hn, hq⟩ := selectNode_qualifies hsel
  refine ⟨?_, ?_, ?_, ?_, ?_, reserved_current h.current⟩
  · rw [hfilter, Policy.placed_snoc_some hchoose, List.map_append, h.pairs]
    rfl
  · intro x hx
    rcases List.mem_append.mp hx with hx | hx
    · exact h.times x hx
    · obtain rfl := List.mem_singleton.mp hx
      exact hT
  · rw [hfilter, Policy.left_snoc_some hchoose, ← h.left, hreq]
    rfl
  · rw [dispatchAll_snoc, ← h.store]
  · exact h.reached.tail (.mk p n t hp hst hr (h.current n hn) hq.1 hq.2)

/-- The pods of the plan are among those done. -/
theorem Planned.mem_done (h : Planned T now s nodes done pass.nodes plan s₁) {x : Pod × Node × Time} (hx : x ∈ plan) :
    x.1 ∈ done ∧ ready now x.1 := by
  have hin : (x.1, x.2.1) ∈ (policy s).placed nodes (done.filter (ready now)) := by
    rw [← h.pairs]
    exact List.mem_map.mpr ⟨x, hx, rfl⟩
  have hdone := Policy.placed_sublist.subset (List.mem_map_of_mem hin)
  obtain ⟨hd, hr⟩ := List.mem_filter.mp hdone
  exact ⟨hd, by simpa using hr⟩

end Planned

/-- **A scheduling pass is the greedy placement** of the pending pods that are ready, the earliest created first, on
the nodes. -/
theorem tick_plan {r : Option Stats} (h : Runs (ExecIn T) (tick now) s r s') :
    ∃ (listed : List Pod) (nodes copies : List Node) (plan : Plan),
      listed.Perm (s.pods.rows.filter fun p => p.status = .pending) ∧
      nodes.Perm s.nodes.rows ∧ Planned T now s nodes (sortByCreatedAt listed) copies plan s' := by
  simp only [tick, runs_bind, runsIn_listPodsByStatus] at h
  obtain ⟨_, s₁, ⟨⟨listed, rfl, hperm⟩, rfl⟩, h⟩ := h
  simp only [runs_bind, runsIn_listNodes] at h
  obtain ⟨_, s₂, ⟨⟨nodes, rfl, hnperm⟩, rfl⟩, h⟩ := h
  simp only [runs_bind, runsIn_timeNow] at h
  obtain ⟨pass', s₃, hloop, _, _, ⟨rfl, -⟩, h⟩ := h
  obtain ⟨-, rfl⟩ := runs_pure.mp h
  have hperm' := (sortByCreatedAt_perm listed).trans hperm
  have hnd : ((sortByCreatedAt listed).map Pod.id).Nodup := nodup_of_perm_filter hperm'
  have key := Runs.foldlM_inv (fun done pass s => ∃ plan, Planned T now s₂ nodes done pass.nodes plan s)
    (fun done p rest hsplit pass s pass' s' hI hrun => ?_) ?_ hloop
  · obtain ⟨plan, hplan⟩ := key
    exact ⟨listed, nodes, _, plan, hperm, by simpa using hnperm, hplan⟩
  · obtain ⟨plan, hplan⟩ := hI
    obtain ⟨hstored, hst⟩ := (mem_of_perm_filter hperm').mp (by rw [hsplit]; simp : p ∈ sortByCreatedAt listed)
    -- a pod that was not reached yet is stored as listed
    have hp : s.pods.get p.id = some p := by
      rw [hplan.store, dispatchAll_pods_ne, hstored]
      intro x hx hid
      exact new_of_split hnd hsplit (hid ▸ List.mem_map_of_mem (hplan.mem_done hx).1)
    rcases schedulePod_spec hp (by simpa using hst) hplan.current hrun with
      ⟨hskip, rfl, rfl⟩ | ⟨n, t, hready, hsel, hT, rfl, rfl⟩
    · refine ⟨plan, hplan.skip ?_⟩
      rw [hplan.store, requiredFor_dispatchAll] at hskip
      exact hskip
    · exact ⟨_, hplan.dispatch hp (by simpa using hst) hready hsel hT⟩
  · refine ⟨[], rfl, by simp, rfl, rfl, .refl, fun n hn => ?_⟩
    exact ((mem_of_perm_filter hnperm).mp hn).1

/-- **A scheduling pass is a sequence of dispatches.** -/
theorem tick_spec {r : Option Stats} (h : Runs Exec (tick now) s r s') : ReflTransGen (Dispatch now) s s' := by
  obtain ⟨_, _, _, _, -, -, hplan⟩ := tick_plan (execIn_all h)
  exact hplan.reached

end ControlPlane.Scheduler
