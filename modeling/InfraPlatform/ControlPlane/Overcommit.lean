import InfraPlatform.ControlPlane.Capacity

/-!
# No memory overcommit

A release goes to the node that reports, whether or not the pod is still assigned
to it, so a node's account has to know which pods it may still be asked to
release.  `reserves handed k` counts a pod for node `k` while it is waiting or in
flight and is on `k` or was handed to `k` by a poll at some time.  What is available
on a node and what is counted for it stay within its capacity: a pod is released at most
once, since a release ends it.
-/

namespace ControlPlane

open Lib Lib.Prog Api Reconciler

variable {s s' : Store} {timeout : Duration} {e : Event} {handed : List (String × String)}

def reserves (handed : List (String × String)) (k : String) (p : Pod) : Bool :=
  (p.status == .pending || p.inFlight) && (decide ((k, p.id) ∈ handed) || onNode k p)

def Within (available capacity held : Int) : Prop := 0 ≤ available ∧ available + held ≤ capacity

structure Accounted (handed : List (String × String)) (s : Store) : Prop extends Sized s where
  known : ∀ x ∈ handed, (∃ n, s.nodes.get x.1 = some n) ∧ ∃ p, s.pods.get x.2 = some p
  account : Account Within (reserves handed) s

theorem Accounted.empty : Accounted [] {} := ⟨.empty, by simp, fun k n hn => by cases hn⟩

theorem Accounted.counts (h : Accounted handed s) : Counts (reserves handed) s := by
  constructor
  · intro k p hnone hst hnode
    have hnot : (k, p.id) ∉ handed := fun hin => by
      obtain ⟨q, hq⟩ := (h.known _ hin).2
      rw [show s.pods.get p.id = some q from hq] at hnone
      cases hnone
    simp [reserves, onNode, Pod.inFlight, hst, hnot]
  · intro k hk id p hp
    have hnot : (k, p.id) ∉ handed := fun hin => by
      obtain ⟨n, hn⟩ := (h.known _ hin).1
      rw [show s.nodes.get k = some n from hn] at hk
      cases hk
    have hoff : onNode k p = false := by
      by_contra hon
      simp only [onNode, Bool.not_eq_false, Bool.and_eq_true, decide_eq_true_eq] at hon
      obtain ⟨n, hn, -⟩ := h.inFlight id p hp hon.2
      rw [hon.1, hk] at hn
      cases hn
    simp [reserves, hnot, hoff]
  · intro k p req
    rfl

/-- The facts about handed pods survive as long as no row disappears. -/
theorem known_mono (h : ∀ x ∈ handed, (∃ n, s.nodes.get x.1 = some n) ∧ ∃ p, s.pods.get x.2 = some p)
    (hn : ∀ k n, s.nodes.get k = some n → ∃ n', s'.nodes.get k = some n')
    (hp : ∀ k p, s.pods.get k = some p → ∃ p', s'.pods.get k = some p') :
    ∀ x ∈ handed, (∃ n, s'.nodes.get x.1 = some n) ∧ ∃ p, s'.pods.get x.2 = some p := by
  intro x hx
  obtain ⟨⟨n, hnx⟩, p, hpx⟩ := h x hx
  exact ⟨hn _ n hnx, hp _ p hpx⟩

theorem exists_get_put {α : Type} {key : α → String} {t : Table key} (a : α) {k : String} {b : α}
    (h : t.get k = some b) : ∃ b', (t.put a).get k = some b' := by
  rw [Table.get_put]
  split
  · exact ⟨a, rfl⟩
  · exact ⟨b, h⟩

/-! ## Dispatch and release -/

theorem Accounted.dispatch {now : Time} (h : Accounted handed s) (hd : Scheduler.Dispatch now s s') :
    Accounted handed s' := by
  refine ⟨h.toSized.dispatch hd, ?_, ?_⟩
  · cases hd with
    | mk p n t _ _ _ _ _ _ =>
      exact known_mono h.known (fun k m hm => exists_get_put _ hm) (fun k q hq => exists_get_put _ hq)
  · cases hd with
    | mk p n t hp hst _ hn _ hroom =>
      have hfit := (Node.hasCapacityFor_iff.mp hroom).2.2
      rw [requiredFor_memoryMB] at hfit
      have hmem := h.memoryOf_nonneg p
      intro k m hm
      have hheld : held (Scheduler.dispatched s p n t) (reserves handed k) + _ = held s (reserves handed k) + _ :=
        held_putPod (q := Store.movePod (Scheduler.assigned p n) .scheduled "" t) hp rfl rfl
      have hbefore : reserves handed k p = decide ((k, p.id) ∈ handed) := by
        simp [reserves, onNode, Pod.inFlight, hst]
      have hafter : reserves handed k (Store.movePod (Scheduler.assigned p n) .scheduled "" t) =
          (decide ((k, p.id) ∈ handed) || decide (n.id = k)) := by
        simp [reserves, onNode, Pod.inFlight]
        rfl
      rw [hbefore, hafter] at hheld
      rcases Scheduler.node_of_dispatched hm with ⟨rfl, rfl⟩ | ⟨hne, hm⟩
      · obtain ⟨hpos, hcap⟩ := h.account _ n hn
        rw [reserve_memoryMB, Scheduler.reserve_capacity]
        constructor
        · omega
        · by_cases hin : (n.id, p.id) ∈ handed <;> simp [hin] at hheld <;> omega
      · obtain ⟨hpos, hcap⟩ := h.account k m hm
        simp only [hne, decide_false, Bool.or_false] at hheld
        exact ⟨hpos, by omega⟩

/-- A pod that a report moves is counted for no node that did not count it before,
and for none at all once it is at its end. -/
theorem reserves_accepted {p : Pod} {req : PodStatusRequest} {t : Time} (ha : agentStatus req.status = true)
    (ht : transitionPod p.status req.status = true) (k : String) :
    reserves handed k (accepted p req t) = true → reserves handed k p = true ∧ ¬ releases p req := by
  have hacc : reserves handed k (accepted p req t) =
      ((req.status == .pending || (req.status == .scheduled || req.status == .running)) &&
        (decide ((k, p.id) ∈ handed) ||
          (decide (p.nodeID = k) && (req.status == .scheduled || req.status == .running)))) := rfl
  rw [hacc]
  intro h
  have hrun : req.status = .running := by
    cases hs : req.status <;> rw [hs] at ha h <;> simp [agentStatus] at ha h ⊢
  rw [hrun] at ht h
  have hsch : p.status = .scheduled := by
    cases hs : p.status <;> rw [hs] at ht <;> simp [transitionPod, allowedPodTransitions] at ht ⊢
  refine ⟨?_, fun hrel => ?_⟩
  · simpa [reserves, onNode, Pod.inFlight, hsch] using h
  · rw [hrel.1] at hsch
    cases hsch

theorem Accounted.report {node pod : String} {req : PodStatusRequest} {p : Pod} {t : Time} (h : Accounted handed s)
    (hp : s.pods.get pod = some p) (ha : agentStatus req.status = true)
    (ht : transitionPod p.status req.status = true) (hin : (node, pod) ∈ handed) :
    Account Within (reserves handed) (afterReport s node p req t) := by
  have hid : p.id = pod := Table.key_of_get hp
  have hreg := h.registered pod p hp
  have hmem := h.memoryOf_nonneg p
  intro k m hm
  have hheld : held (afterReport s node p req t) (reserves handed k) + _ = _ := held_afterReport hp
  have hdown : (if reserves handed k (accepted p req t) then memoryOf s p else 0) ≤
      (if reserves handed k p then memoryOf s p else 0) := by
    by_cases hr : reserves handed k (accepted p req t) = true
    · rw [if_pos hr, if_pos (reserves_accepted ha ht k hr).1]
    · rw [if_neg hr]
      split <;> omega
  rw [afterReport_nodes_get] at hm
  obtain ⟨n, hn, rfl⟩ := Option.map_eq_some_iff.mp hm
  obtain ⟨hpos, hcap⟩ := h.account k n hn
  by_cases hrel : releases p req ∧ k = node
  · -- the reporting node gets the memory of a pod that was counted for it and is counted no more
    obtain ⟨hrel, rfl⟩ := hrel
    have hbefore : reserves handed k p = true := by simp [reserves, Pod.inFlight, hrel.1, hid, hin]
    have hafter : reserves handed k (accepted p req t) = false := by
      by_contra hr
      exact (reserves_accepted ha ht k (by simpa using hr)).2 hrel
    rw [if_pos hbefore, hafter, if_neg (by simp)] at hheld
    rw [if_pos ⟨hrel, rfl⟩, releasedNode_memoryMB hreg, releasedNode_capacity]
    have hnonneg := h.held_nonneg (reserves handed k)
    constructor <;> omega
  · rw [if_neg hrel]
    exact ⟨hpos, by omega⟩

/-! ## The timeouts -/

/-- A node given up forgets the pods that were never handed to it. -/
theorem reserves_rescheduled {p p' : Pod} (h : Rescheduled s p p') (k : String) :
    reserves handed k p' = true → reserves handed k p = true := by
  intro hr
  have hid := h.id
  cases h with
  | orphan t hs => simp_all [reserves, onNode, Pod.inFlight]
  | retry now t₁ t₂ t₃ hs _ => simp_all [reserves, onNode, Pod.inFlight]
  | deadLetter t₁ t₂ hs _ => simp [reserves, onNode, Pod.inFlight] at hr
  | keep _ _ => exact hr

theorem Accounted.detect {now : Time} (h : Accounted handed s) (hd : Detected timeout now s s') :
    Accounted handed s' := by
  refine ⟨h.toSized.detect hd, ?_, fun k n' hn' => ?_⟩
  · refine known_mono h.known (fun k n hn => ⟨_, hd.nodes k n hn⟩) fun k p hp => ?_
    obtain ⟨p', hp', -⟩ := hd.pods k p hp
    exact ⟨p', hp'⟩
  · obtain ⟨n, hn, heq⟩ := hd.node_back hn'
    obtain ⟨hpos, hcap⟩ := h.account k n hn
    rw [heq, afterDetect_available, afterDetect_capacity]
    refine ⟨hpos, le_trans (Int.add_le_add_left ?_ _) hcap⟩
    refine Table.total_le_total _ _ hd.keys fun j p' p hp' hp => ?_
    obtain ⟨q, hq, hin, hout⟩ := hd.pods j p hp
    obtain rfl : p' = q := by simpa [hp'] using hq
    by_cases hlost : LostNode timeout now s p.nodeID
    · have hres := hin hlost
      have hm : memoryOf s' p' = memoryOf s p := by unfold memoryOf; rw [hd.deployments, hres.deploymentID]
      have hnonneg := h.memoryOf_nonneg p
      by_cases hr : reserves handed k p' = true
      · rw [if_pos hr, if_pos (reserves_rescheduled hres k hr), hm]
      · rw [if_neg hr]
        split <;> omega
    · have hm : memoryOf s' p = memoryOf s p := by unfold memoryOf; rw [hd.deployments]
      rw [hout hlost, hm]

/-! ## Runs -/

/-- A node reports only on pods that some poll returned to it. -/
def Event.ofHanded (handed : List (String × String)) : Event → Prop
  | .report node pod _ => (node, pod) ∈ handed
  | _ => True

instance : (e : Event) → Decidable (e.ofHanded handed)
  | .report node pod _ => inferInstanceAs (Decidable ((node, pod) ∈ handed))
  | .register _ | .heartbeat .. | .poll _ | .drain _ | .submit _ | .cancel _ | .createService _
  | .updateService .. | .deleteService _ | .schedulerTick _ | .reconcilerTick _ => .isTrue trivial

theorem Accounted.adjust (h : Accounted handed s) (ha : Adjust s s') : Accounted handed s' := by
  refine ⟨h.toSized.adjust ha, ?_, h.account.adjust h.counts h.toBounded ha⟩
  cases ha with
  | status d dest t _ _ _ => exact h.known
  | create d b t _ _ _ _ => exact known_mono h.known (fun k n hn => ⟨n, hn⟩) (fun k q hq => exists_get_put _ hq)
  | cancel d p t _ _ _ _ _ => exact known_mono h.known (fun k n hn => ⟨n, hn⟩) (fun k q hq => exists_get_put _ hq)

/-- **Every change keeps the accounts.** -/
theorem Accounted.change (hc : Change timeout e s s') (ha : e.fromAgent) (he : e.sized) (hh : e.ofHanded handed)
    (h : Accounted handed s) : Accounted handed s' := by
  have hsized := Sized.change hc ha he h.toSized
  cases hc with
  | none _ => exact h
  | register req b t hnone =>
    refine ⟨hsized, known_mono h.known (fun k n hn => exists_get_put _ hn) (fun k q hq => ⟨q, hq⟩), ?_⟩
    exact h.account.register h.counts hnone ⟨he, by omega⟩
  | heartbeat now node req n hn =>
    refine ⟨hsized, known_mono h.known (fun k n hn => exists_get_put _ hn) (fun k q hq => ⟨q, hq⟩), ?_⟩
    exact h.account.heartbeat hn he
  | drain node n hn _ =>
    have hid : n.id = node := Table.key_of_get hn
    rw [← hid] at hn
    refine ⟨hsized, known_mono h.known (fun k n hn => exists_get_put _ hn) (fun k q hq => ⟨q, hq⟩), ?_⟩
    exact h.account.putNode hn rfl rfl rfl
  | ignored node pod body _ => exact h
  | rejected node pod req p hp _ =>
    refine ⟨hsized, known_mono h.known (fun k n hn => ⟨n, hn⟩) (fun k q hq => exists_get_put _ hq), ?_⟩
    exact h.account.rejected h.counts hp
  | accepted node pod req p t hp ht =>
    refine ⟨hsized, known_mono h.known (fun k n hn => ?_) (fun k q hq => ?_), h.report hp ha ht hh⟩
    · rw [afterReport_nodes_get, hn]
      exact ⟨_, rfl⟩
    · rw [afterReport_pods]
      exact exists_get_put _ hq
  | submit req b t hnone =>
    refine ⟨hsized, h.known, h.account.deployments h.toBounded fun d' hd' => ?_⟩
    rw [show s.deployments.get (idOf "deploy" b) = some d' from hd'] at hnone
    cases hnone
  | cancel deployment d t hd _ => exact ⟨hsized, h.known, h.account.move h.toBounded hd⟩
  | service _ hs =>
    refine ⟨hsized, by rw [hs.2.1, hs.2.2]; exact h.known, h.account.sameNodes hs.2.2 fun k => ?_⟩
    exact held_congr hs.2.1 fun j p _ => by unfold memoryOf; rw [hs.1]
  | schedule now hd => exact keeps_of_chain (Accounted handed) (fun _ _ hd h => h.dispatch hd) hd h
  | reconcile now ha hd => exact (keeps_of_chain (Accounted handed) (fun _ _ ha h => h.adjust ha) ha h).detect hd

/-- A pod that a poll hands out is on the polling node already, so it is counted there. -/
theorem Accounted.hand {r : Option Response} (h : Accounted handed s) (hr : Runs Exec (e.prog timeout) s r s') :
    Accounted (handed ++ handedBy e r) s := by
  unfold handedBy
  split
  · next node code p location =>
    obtain ⟨resp, hresp, hpoll⟩ := runs_answer hr
    obtain ⟨-, hp⟩ := pollPods_spec hpoll
    obtain rfl := Option.some.inj hresp
    obtain ⟨hget, hnode, hst⟩ := hp p rfl
    obtain ⟨n, hn, -⟩ := h.inFlight _ p hget (by simp [Pod.inFlight, hst])
    rw [hnode] at hn
    refine ⟨h.toSized, fun x hx => ?_, fun k m hm => ?_⟩
    · rcases List.mem_append.mp hx with hx | hx
      · exact h.known x hx
      · obtain rfl : x = (node, p.id) := by simpa using hx
        exact ⟨⟨n, hn⟩, p, hget⟩
    · obtain ⟨hpos, hcap⟩ := h.account k m hm
      refine ⟨hpos, le_trans (Int.add_le_add_left (held_mono h.toSized fun j q hq hres => ?_) _) hcap⟩
      by_cases hnew : (k, q.id) = (node, p.id)
      · obtain ⟨rfl, hqid⟩ := Prod.mk.inj hnew
        have hj : q.id = j := Table.key_of_get hq
        rw [← hj, hqid, hget] at hq
        obtain rfl : p = q := by simpa using hq
        simp [reserves, onNode, Pod.inFlight, hst, hnode]
      · simpa [reserves, hnew] using hres
  · simpa using h

/-- **No memory overcommit.**  In every reachable state, the pods scheduled or
running on a node need no more memory than the node has. -/
theorem no_memory_overcommit {tr : List (Step Sys Event)} {σ : Sys} (h : Run (Sys.Next timeout) Sys.init tr σ)
    (he : ∀ x ∈ tr, x.label.fromAgent ∧ x.label.sized ∧ x.label.ofHanded x.src.handed) :
    ∀ n ∈ σ.store.nodes.rows, inFlightMemory σ.store n.id ≤ n.capacity.memoryMB := by
  have hacc : Accounted σ.handed σ.store := by
    refine Run.inv (fun σ => Accounted σ.handed σ.store) _ ?_ Accounted.empty h he
    rintro ⟨σ, e, σ'⟩ ⟨r, hr, hhand⟩ ⟨ha, hs, hh⟩ hσ
    show Accounted σ'.handed σ'.store
    rw [show σ'.handed = σ.handed ++ handedBy e r from hhand]
    refine Accounted.change (Event.prog_spec hr) ha hs ?_ (hσ.hand hr)
    cases e with
    | report node pod body => exact List.mem_append_left _ hh
    | _ => trivial
  intro n hn
  obtain ⟨hpos, hcap⟩ := hacc.account n.id n (Table.get_of_mem hn)
  have hle : inFlightMemory σ.store n.id ≤ held σ.store (reserves σ.handed n.id) := by
    refine held_mono hacc.toSized fun k p _ hon => ?_
    have hfl : p.inFlight = true := by
      simp only [onNode, Bool.and_eq_true] at hon
      exact hon.2
    simp [reserves, hon, hfl]
  omega

theorem no_memory_overcommit_started :
    inFlightMemory (Sys.init.applyAll (15 * second) startedRun).store "node_00000000" = 40 ∧
    ∀ n ∈ (Sys.init.applyAll (15 * second) startedRun).store.nodes.rows,
      inFlightMemory (Sys.init.applyAll (15 * second) startedRun).store n.id ≤ n.capacity.memoryMB :=
  ⟨by rfl, no_memory_overcommit (Sys.run_init _ startedRun) (by decide +kernel)⟩

end ControlPlane
