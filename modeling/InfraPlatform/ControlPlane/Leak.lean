import InfraPlatform.ControlPlane.Capacity

/-!
# Capacity leaks

A reservation should come back when its pod stops occupying the node.  It does
when a running pod reports its end to the node it runs on, and that is the only
path that releases anything: a pod that a heartbeat timeout takes away, and a pod cancelled
before it started, leave their reservation behind.  `no_leak_iff` says exactly
which runs leak: those with a step that takes memory away on one of the two paths.
-/

namespace ControlPlane

open Lib Lib.Prog Api Reconciler Relation

variable {s s' : Store} {timeout : Duration} {e : Event}

/-- All memory that no pod in flight holds is available. -/
def NoLeak (s : Store) : Prop :=
  ∀ n ∈ s.nodes.rows, n.available.memoryMB ≥ n.capacity.memoryMB - inFlightMemory s n.id

instance : Decidable (NoLeak s) := by unfold NoLeak; infer_instance

/-- The event takes no memory away without giving it back: no node that times out
holds memory of a pod in flight, and no pod that holds memory is cancelled before it runs. -/
def Event.givesBack (timeout : Duration) (s : Store) : Event → Prop
  | .reconcilerTick now => ∀ n ∈ s.nodes.rows, givenUpTo timeout now n ≠ none →
      ∀ p ∈ s.pods.rows, p.nodeID = n.id → p.inFlight = true → memoryOf s p = 0
  | .report _ pod (some req) => req.status = .cancelled →
      ∀ p ∈ s.pods.rows, p.id = pod → p.status = .scheduled → memoryOf s p = 0
  | _ => True

instance : (e : Event) → Decidable (e.givesBack timeout s)
  | .reconcilerTick now => inferInstanceAs (Decidable (∀ n ∈ s.nodes.rows, givenUpTo timeout now n ≠ none →
      ∀ p ∈ s.pods.rows, p.nodeID = n.id → p.inFlight = true → memoryOf s p = 0))
  | .report _ pod (some req) => inferInstanceAs (Decidable (req.status = .cancelled →
      ∀ p ∈ s.pods.rows, p.id = pod → p.status = .scheduled → memoryOf s p = 0))
  | .report _ _ none | .register _ | .heartbeat .. | .poll _ | .drain _ | .submit _ | .cancel _ | .createService _
  | .updateService .. | .deleteService _ | .schedulerTick _ => .isTrue trivial

/-- Available and held memory add up to the capacity. -/
structure Balanced (s : Store) : Prop extends Sized s where
  account : Account (fun available capacity held => available + held = capacity) onNode s

theorem Balanced.empty : Balanced {} := ⟨.empty, fun k n hn => by cases hn⟩

theorem Balanced.noLeak (h : Balanced s) : NoLeak s := by
  intro n hn
  have hbal := h.account n.id n (Table.get_of_mem hn)
  have hdef : inFlightMemory s n.id = held s (onNode n.id) := rfl
  omega

theorem onNode_iff {k : String} {p : Pod} : onNode k p = true ↔ p.nodeID = k ∧ p.inFlight = true := by
  simp [onNode]

theorem Balanced.counts (h : Balanced s) : Counts onNode s := by
  constructor
  · intro k p _ hst _
    simp [onNode, Pod.inFlight, hst]
  · intro k hk id p hp
    by_contra hon
    obtain ⟨hnode, hf⟩ := onNode_iff.mp (by simpa using hon)
    obtain ⟨n, hn, -⟩ := h.inFlight id p hp hf
    rw [hnode, hk] at hn
    cases hn
  · intro k p req
    rfl

/-- Held memory is nothing exactly if every pod that counts weighs nothing. -/
theorem Sized.held_eq_zero_iff (h : Sized s) {f : Pod → Bool} :
    held s f = 0 ↔ ∀ p ∈ s.pods.rows, f p = true → memoryOf s p = 0 := by
  constructor
  · intro hz p hp hf
    -- the other pods weigh at least nothing, so the total is at least this pod's weight
    have hone : memoryOf s p ≤ held s f := by
      have hle : (s.pods.rows.map fun q => if f q then memoryOf s q else 0).sum ≥
          if f p then memoryOf s p else 0 := by
        refine List.single_le_sum ?_ _ (List.mem_map.mpr ⟨p, hp, rfl⟩)
        intro x hx
        obtain ⟨q, -, rfl⟩ := List.mem_map.mp hx
        split
        · exact h.memoryOf_nonneg q
        · exact le_refl 0
      rw [if_pos hf] at hle
      exact hle
    have := h.memoryOf_nonneg p
    omega
  · intro hall
    unfold held Table.total
    rw [List.sum_eq_zero]
    intro x hx
    obtain ⟨p, hp, rfl⟩ := List.mem_map.mp hx
    split
    · next hf => exact hall p hp hf
    · rfl

/-! ## Dispatch and release -/

theorem Balanced.dispatch {now : Time} (h : Balanced s) (hd : Scheduler.Dispatch now s s') : Balanced s' := by
  refine ⟨h.toSized.dispatch hd, ?_⟩
  cases hd with
  | mk p n t hp hst _ hn _ _ =>
    intro k m hm
    have hheld : held (Scheduler.dispatched s p n t) (onNode k) + _ = held s (onNode k) + _ :=
      held_putPod (q := Store.movePod (Scheduler.assigned p n) .scheduled "" t) hp rfl rfl
    rw [onNode_of_pending hst, onNode_dispatched] at hheld
    rcases Scheduler.node_of_dispatched hm with ⟨rfl, rfl⟩ | ⟨hne, hm⟩
    · have hbal := h.account _ n hn
      simp only [reserve_memoryMB, Scheduler.reserve_capacity]
      simp at hheld
      omega
    · have hbal := h.account k m hm
      simp [hne] at hheld
      omega

/-- The moves an agent's report can make. -/
theorem agent_moves {f st : PodStatus} (ha : agentStatus st = true) (ht : transitionPod f st = true) :
    (f = .pending ∧ st = .cancelled) ∨ (f = .scheduled ∧ st = .running) ∨ (f = .scheduled ∧ st = .cancelled) ∨
      (f = .running ∧ isPodTerminalish st = true) := by
  cases f <;> cases st <;>
    simp [agentStatus, transitionPod, allowedPodTransitions, isPodTerminalish] at ha ht ⊢

theorem onNode_accepted {k : String} {p : Pod} {req : PodStatusRequest} {t : Time} :
    onNode k (accepted p req t) = (decide (p.nodeID = k) && (req.status == .scheduled || req.status == .running)) :=
  rfl

theorem Balanced.report {node pod : String} {req : PodStatusRequest} {p : Pod} {t : Time} (h : Balanced s)
    (hp : s.pods.get pod = some p) (ha : agentStatus req.status = true)
    (ht : transitionPod p.status req.status = true) (hnode : p.nodeID = node)
    (hback : req.status = .cancelled → p.status = .scheduled → memoryOf s p = 0) :
    Account (fun available capacity held => available + held = capacity) onNode (afterReport s node p req t) := by
  have hreg := h.registered pod p hp
  have hmem := h.memoryOf_nonneg p
  intro k m hm
  have hheld : held (afterReport s node p req t) (onNode k) + _ = _ := held_afterReport hp
  rw [onNode_accepted] at hheld
  rw [afterReport_nodes_get] at hm
  obtain ⟨n, hn, rfl⟩ := Option.map_eq_some_iff.mp hm
  have hbal := h.account k n hn
  rcases agent_moves ha ht with ⟨hf, hst⟩ | ⟨hf, hst⟩ | ⟨hf, hst⟩ | ⟨hf, hst⟩
  · -- a waiting pod holds nothing
    rw [if_neg fun hr => by rw [hr.1.1] at hf; cases hf]
    simp [onNode, Pod.inFlight, hf, hst] at hheld
    omega
  · -- a started pod keeps what it held
    rw [if_neg fun hr => by rw [hr.1.1] at hf; cases hf]
    simp [onNode, Pod.inFlight, hf, hst] at hheld
    omega
  · rw [if_neg fun hr => by rw [hr.1.1] at hf; cases hf]
    simp only [hback hst hf, ite_self] at hheld
    omega
  · have hend : (req.status == .scheduled || req.status == .running) = false := by
      cases hs : req.status <;> rw [hs] at hst <;> simp [isPodTerminalish] at hst ⊢
    simp only [hend, Bool.and_false, Bool.false_eq_true, if_false] at hheld
    by_cases hk : k = node
    · -- the pod was counted here, so the clamp does not bite
      have hon : onNode k p = true := onNode_iff.mpr ⟨by rw [hnode, hk], by simp [Pod.inFlight, hf]⟩
      rw [if_pos hon] at hheld
      have hc : Change 0 (.report node pod (some req)) s (afterReport s node p req t) :=
        .accepted node pod req p t hp ht
      have hrest := (h.toSized.change hc ha trivial).held_nonneg (onNode k)
      rw [if_pos ⟨⟨hf, hst⟩, hk⟩, releasedNode_memoryMB hreg, releasedNode_capacity]
      omega
    · have hoff : onNode k p = false := by
        simp [onNode, hnode, show ¬ node = k from fun heq => hk heq.symm]
      simp only [hoff, Bool.false_eq_true, if_false] at hheld
      rw [if_neg fun hr => hk hr.2]
      omega

/-! ## The timeouts -/

theorem Adjust.nodes (h : Adjust s s') : s'.nodes = s.nodes := by
  cases h <;> rfl

theorem Balanced.adjust (h : Balanced s) (ha : Adjust s s') : Balanced s' :=
  ⟨h.toSized.adjust ha, h.account.adjust h.counts h.toBounded ha⟩

/-- Adjustments move no pod on or off a node. -/
theorem Balanced.adjusts (h : Balanced s) (ha : ReflTransGen Adjust s s') : Balanced s' ∧ s'.nodes = s.nodes :=
  keeps_of_chain (fun s₁ => Balanced s₁ ∧ s₁.nodes = s.nodes)
    (fun _ _ ha h => ⟨h.1.adjust ha, (Adjust.nodes ha).trans h.2⟩) ha ⟨h, rfl⟩

/-- A node given up holds nothing afterwards, any other holds what it held. -/
theorem held_detect {now : Time} (hd : Detected timeout now s s') (k : String) :
    (LostNode timeout now s k → held s' (onNode k) = 0) ∧
      (¬ LostNode timeout now s k → held s' (onNode k) = held s (onNode k)) := by
  constructor
  · intro hlost
    refine held_eq_zero fun j p' hp' => ?_
    obtain ⟨p, hp, hin, hout⟩ := hd.pod_back hp'
    by_contra hon
    obtain ⟨hnode, hf⟩ := onNode_iff.mp (by simpa using hon)
    by_cases hl : LostNode timeout now s p.nodeID
    · rw [(hin hl).not_inFlight] at hf
      cases hf
    · obtain rfl := hout hl
      exact hl (hnode ▸ hlost)
  · intro hkeep
    refine Table.total_congr _ _ hd.keys fun j p' p hp' hp => ?_
    obtain ⟨q, hq, hin, hout⟩ := hd.pods j p hp
    obtain rfl : p' = q := by simpa [hp'] using hq
    by_cases hl : LostNode timeout now s p.nodeID
    · have hoff : onNode k p = false := by
        simp [onNode, show ¬ p.nodeID = k from fun heq => hkeep (heq ▸ hl)]
      have hoff' : onNode k p' = false := by simp [onNode, (hin hl).not_inFlight]
      rw [hoff, hoff']
      simp
    · rw [hout hl]
      unfold memoryOf
      rw [hd.deployments]

theorem Balanced.detect {now : Time} (h : Balanced s) (hd : Detected timeout now s s')
    (hback : ∀ k, LostNode timeout now s k → held s (onNode k) = 0) : Balanced s' := by
  refine ⟨h.toSized.detect hd, fun k n' hn' => ?_⟩
  obtain ⟨n, hn, rfl⟩ := hd.node_back hn'
  have hbal := h.account k n hn
  simp only [afterDetect_available, afterDetect_capacity]
  by_cases hlost : LostNode timeout now s k
  · rw [(held_detect hd k).1 hlost]
    rw [hback k hlost] at hbal
    exact hbal
  · rw [(held_detect hd k).2 hlost]
    exact hbal

/-- The condition on the pods of the nodes given up, as a condition on what those nodes hold. -/
theorem Sized.givesBack_tick (h : Sized s) {now : Time} :
    (Event.reconcilerTick now).givesBack timeout s ↔ ∀ k, LostNode timeout now s k → held s (onNode k) = 0 := by
  constructor
  · rintro hback k ⟨n, hn, hg⟩
    have hid : n.id = k := Table.key_of_get hn
    rw [h.held_eq_zero_iff]
    intro p hp hon
    obtain ⟨hnode, hf⟩ := onNode_iff.mp hon
    exact hback n (Table.mem_of_get hn) hg p hp (by rw [hnode, hid]) hf
  · intro hback n hn hg p hp hnode hf
    exact (h.held_eq_zero_iff.mp (hback n.id ⟨n, Table.get_of_mem hn, hg⟩)) p hp (onNode_iff.mpr ⟨hnode, hf⟩)

/-- Nodes that did not change and accounts that balance: each node holds what it held. -/
theorem Balanced.held_eq (h : Balanced s) (h' : Balanced s') (hn : s'.nodes = s.nodes) {k : String} {n : Node}
    (hk : s.nodes.get k = some n) : held s' (onNode k) = held s (onNode k) := by
  have h1 := h.account k n hk
  have h2 := h'.account k n (by rw [hn]; exact hk)
  omega

theorem lostNode_congr {now : Time} (hn : s'.nodes = s.nodes) (k : String) :
    LostNode timeout now s' k ↔ LostNode timeout now s k := by
  unfold LostNode
  rw [hn]

/-! ## Every change -/

theorem Balanced.change (hc : Change timeout e s s') (ha : e.fromAgent) (he : e.sized) (has : e.ofAssigned s)
    (hb : e.givesBack timeout s) (h : Balanced s) : Balanced s' := by
  have hsized := Sized.change hc ha he h.toSized
  cases hc with
  | none _ => exact h
  | register req b t hnone => exact ⟨hsized, h.account.register h.counts hnone (by omega)⟩
  | heartbeat now node req n hn => exact ⟨hsized, h.account.heartbeat hn he⟩
  | drain node n hn _ =>
    have hid : n.id = node := Table.key_of_get hn
    rw [← hid] at hn
    exact ⟨hsized, h.account.putNode hn rfl rfl rfl⟩
  | ignored node pod body _ => exact h
  | rejected node pod req p hp _ => exact ⟨hsized, h.account.rejected h.counts hp⟩
  | accepted node pod req p t hp ht =>
    have hmem := Table.mem_of_get hp
    have hid : p.id = pod := Table.key_of_get hp
    exact ⟨hsized, h.report hp ha ht (has p hmem hid) fun hst hf => hb hst p hmem hid hf⟩
  | submit req b t hnone =>
    refine ⟨hsized, h.account.deployments h.toBounded fun d' hd' => ?_⟩
    rw [show s.deployments.get (idOf "deploy" b) = some d' from hd'] at hnone
    cases hnone
  | cancel deployment d t hd _ => exact ⟨hsized, h.account.move h.toBounded hd⟩
  | service _ hs =>
    refine ⟨hsized, h.account.sameNodes hs.2.2 fun k => ?_⟩
    exact held_congr hs.2.1 fun j p _ => by unfold memoryOf; rw [hs.1]
  | schedule now hd => exact keeps_of_chain Balanced (fun _ _ hd h => h.dispatch hd) hd h
  | reconcile now hadj hd =>
    obtain ⟨h₁, hnodes⟩ := h.adjusts hadj
    refine h₁.detect hd fun k hlost => ?_
    have hlost' := (lostNode_congr hnodes k).mp hlost
    obtain ⟨n, hn, -⟩ := hlost'
    rw [h.held_eq h₁ hnodes hn]
    exact h.toSized.givesBack_tick.mp hb k ((lostNode_congr hnodes k).mp hlost)

/-- A scheduled pod that is cancelled leaves its reservation on its node, where it no longer counts. -/
theorem Balanced.leaks_cancelled {node : String} {req : PodStatusRequest} {p : Pod} {t : Time} (h : Balanced s)
    (hp : s.pods.get p.id = some p) (hsch : p.status = .scheduled) (hcan : req.status = .cancelled)
    (hno : NoLeak (afterReport s node p req t)) : memoryOf s p = 0 := by
  have hf : p.inFlight = true := by simp [Pod.inFlight, hsch]
  obtain ⟨n, hn, -⟩ := h.inFlight p.id p hp hf
  have hid : n.id = p.nodeID := Table.key_of_get hn
  have hheld : held (afterReport s node p req t) (onNode p.nodeID) + _ = _ := held_afterReport hp
  rw [if_pos (onNode_iff.mpr ⟨rfl, hf⟩), onNode_accepted, hcan] at hheld
  have hsame : (afterReport s node p req t).nodes.get p.nodeID = some n := by
    rw [afterReport_nodes_get, hn]
    simp [releases, hsch]
  have hleak := hno n (Table.mem_of_get hsame)
  have hdef : inFlightMemory (afterReport s node p req t) n.id =
      held (afterReport s node p req t) (onNode p.nodeID) := by
    rw [hid]
    rfl
  have hbal := h.account _ n hn
  have hmem := h.memoryOf_nonneg p
  simp at hheld
  omega

/-- A node that is given up keeps the reservations of the pods taken away from it. -/
theorem Balanced.leaks_lost {now : Time} {k : String} (h : Balanced s) (hd : Detected timeout now s s')
    (hlost : LostNode timeout now s k) (hno : NoLeak s') : held s (onNode k) = 0 := by
  have hzero : inFlightMemory s' k = 0 := (held_detect hd k).1 hlost
  obtain ⟨n, hn, -⟩ := hlost
  have hid : n.id = k := Table.key_of_get hn
  have hleak := hno _ (Table.mem_of_get (hd.nodes k n hn))
  rw [afterDetect_id, afterDetect_available, afterDetect_capacity, hid, hzero] at hleak
  have hbal := h.account k n hn
  have hnonneg := h.held_nonneg (onNode k)
  omega

/-- A step that takes memory away without giving it back leaks. -/
theorem Balanced.givesBack_of_noLeak (hc : Change timeout e s s') (h : Balanced s) (hno : NoLeak s') :
    e.givesBack timeout s := by
  cases hc with
  | none hr => cases e <;> trivial
  | service hr _ => cases e <;> trivial
  | ignored node pod body hnone =>
    cases body with
    | none => trivial
    | some req =>
      intro _ p hp hid
      rw [← hid, Table.get_of_mem hp] at hnone
      simp at hnone
  | rejected node pod req p hp hst =>
    intro hcan q hq hid hsch
    rw [← hid, Table.get_of_mem hq] at hp
    obtain rfl : q = p := by simpa using hp
    rw [hsch, hcan] at hst
    cases hst
  | accepted node pod req p t hp ht =>
    intro hcan q hq hid hsch
    rw [← hid, Table.get_of_mem hq] at hp
    obtain rfl : q = p := by simpa using hp
    exact h.leaks_cancelled (Table.get_of_mem hq) hsch hcan hno
  | reconcile now hadj hd =>
    obtain ⟨h₁, hnodes⟩ := h.adjusts hadj
    rw [h.toSized.givesBack_tick]
    intro k hlost
    have hzero := h₁.leaks_lost hd ((lostNode_congr hnodes k).mpr hlost) hno
    obtain ⟨n, hn, -⟩ := hlost
    rw [← h.held_eq h₁ hnodes hn]
    exact hzero
  | _ => trivial

/-- **When capacity leaks.**  In a run where agents report on the pods assigned to
them, every state reached has all unheld memory available exactly if every step gives back
what it takes away. -/
theorem no_leak_iff {tr : List (Step Sys Event)} {σ : Sys} (h : Run (Sys.Next timeout) Sys.init tr σ)
    (he : ∀ x ∈ tr, x.label.fromAgent ∧ x.label.sized ∧ x.label.ofAssigned x.src.store) :
    (∀ x ∈ tr, NoLeak x.dst.store) ↔ ∀ x ∈ tr, x.label.givesBack timeout x.src.store := by
  refine Run.forall_iff (fun σ => Balanced σ.store) _ (fun x => NoLeak x.dst.store)
    (fun x => x.label.givesBack timeout x.src.store) ?_ Balanced.empty h he
  rintro ⟨σ, e, σ'⟩ ⟨r, hr, -⟩ ⟨ha, hs, has⟩ hσ
  have hchange := Event.prog_spec hr
  have hkeep : e.givesBack timeout σ.store → Balanced σ'.store := fun hb => hσ.change hchange ha hs has hb
  exact ⟨⟨fun hno => hσ.givesBack_of_noLeak hchange hno, fun hb => (hkeep hb).noLeak⟩, hkeep⟩

theorem no_leak_iff_started :
    (∀ x ∈ Sys.init.trace (15 * second) startedRun, x.label.givesBack (15 * second) x.src.store) ∧
    ∀ x ∈ Sys.init.trace (15 * second) startedRun, NoLeak x.dst.store :=
  ⟨by decide +kernel, (no_leak_iff (Sys.run_init _ startedRun) (by decide +kernel)).mpr (by decide +kernel)⟩

/-- The node misses its heartbeats, its pod is requeued, and the node comes back. -/
def timeoutRun : List (Time × Event) :=
  startedRun ++ [(100 * second, .reconcilerTick (100 * second)),
    (101 * second, .heartbeat (101 * second) "node_00000000" {})]

theorem leak_after_timeout :
    ¬ ∀ (timeout : Duration) (tr : List (Step Sys Event)) (σ : Sys), Run (Sys.Next timeout) Sys.init tr σ →
      (∀ x ∈ tr, x.label.fromAgent ∧ x.label.sized ∧ x.label.ofAssigned x.src.store) → NoLeak σ.store := by
  intro h
  have hleak := h (15 * second) _ _ (Sys.run_init _ timeoutRun) (by decide +kernel)
  revert hleak
  decide +kernel

end ControlPlane
