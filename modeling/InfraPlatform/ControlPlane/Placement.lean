import InfraPlatform.ControlPlane.System

/-!
# Where pods are placed

Two facts tie the pod table to the node table between events: a pod in flight
sits on a registered node that still serves, and a waiting pod sits nowhere.
`Placed.change` carries them over every change of the store, `placement_invariant`
over every run in which agents report `RUNNING`, `SUCCEEDED`, `FAILED` or `CANCELLED`.
-/

namespace ControlPlane

open Lib Lib.Prog Api Reconciler

/-- The node runs the pods it was given. -/
def Node.serving (n : Node) : Prop := n.status = .healthy ∨ n.status = .draining

structure Placed (s : Store) : Prop where
  inFlight : ∀ k p, s.pods.get k = some p → p.inFlight = true → ∃ n, s.nodes.get p.nodeID = some n ∧ n.serving
  waiting : ∀ k p, s.pods.get k = some p → p.status = .pending → p.nodeID = ""

/-- The statuses an agent reports. -/
def agentStatus : PodStatus → Bool
  | .running | .succeeded | .failed | .cancelled => true
  | _ => false

/-- A status report, if it decodes, carries a status that agents report. -/
def Event.fromAgent : Event → Prop
  | .report _ _ (some req) => agentStatus req.status = true
  | _ => True

instance : (e : Event) → Decidable e.fromAgent
  | .report _ _ (some req) => inferInstanceAs (Decidable (agentStatus req.status = true))
  | .report _ _ none | .register _ | .heartbeat .. | .poll _ | .drain _ | .submit _ | .cancel _ | .createService _
  | .updateService .. | .deleteService _ | .schedulerTick _ | .reconcilerTick _ => .isTrue trivial

variable {s s' : Store} {timeout : Duration} {e : Event}

/-- A node reports only on pods assigned to it. -/
def Event.ofAssigned (s : Store) : Event → Prop
  | .report node pod _ => ∀ p ∈ s.pods.rows, p.id = pod → p.nodeID = node
  | _ => True

instance : (e : Event) → Decidable (e.ofAssigned s)
  | .report node pod _ => inferInstanceAs (Decidable (∀ p ∈ s.pods.rows, p.id = pod → p.nodeID = node))
  | .register _ | .heartbeat .. | .poll _ | .drain _ | .submit _ | .cancel _ | .createService _
  | .updateService .. | .deleteService _ | .schedulerTick _ | .reconcilerTick _ => .isTrue trivial

theorem Placed.empty : Placed {} := by
  constructor <;> intro k p hp <;> cases hp

theorem Placed.congr (h : Placed s) (hp : s'.pods = s.pods) (hn : s'.nodes = s.nodes) : Placed s' := by
  constructor
  · rw [hp, hn]; exact h.inFlight
  · rw [hp]; exact h.waiting

/-- Nodes may change as long as those that serve go on serving. -/
theorem Placed.nodes (h : Placed s) (hp : s'.pods = s.pods)
    (hn : ∀ k n, s.nodes.get k = some n → n.serving → ∃ n', s'.nodes.get k = some n' ∧ n'.serving) : Placed s' := by
  constructor
  · rw [hp]
    intro k p hk hf
    obtain ⟨n, hget, hs⟩ := h.inFlight k p hk hf
    exact hn _ n hget hs
  · rw [hp]; exact h.waiting

theorem Placed.putNode {n : Node} (h : Placed s)
    (hn : ∀ m, s.nodes.get n.id = some m → m.serving → n.serving) : Placed (s.putNode n) := by
  refine h.nodes rfl fun k m hm hs => ?_
  rw [Store.putNode_nodes, Table.get_put]
  by_cases hk : k = n.id
  · subst hk
    exact ⟨n, by simp, hn m hm hs⟩
  · exact ⟨m, by simpa [hk] using hm, hs⟩

theorem Placed.putPod {p : Pod} (h : Placed s)
    (hf : p.inFlight = true → ∃ n, s.nodes.get p.nodeID = some n ∧ n.serving)
    (hw : p.status = .pending → p.nodeID = "") : Placed (s.putPod p) := by
  constructor
  · intro k q hq
    rw [Store.putPod_pods, Table.get_put] at hq
    by_cases hk : k = p.id
    · obtain rfl : p = q := by simpa [hk] using hq
      exact hf
    · exact h.inFlight k q (by simpa [hk] using hq)
  · intro k q hq
    rw [Store.putPod_pods, Table.get_put] at hq
    by_cases hk : k = p.id
    · obtain rfl : p = q := by simpa [hk] using hq
      exact hw
    · exact h.waiting k q (by simpa [hk] using hq)

theorem recovered_serving {n : Node} (req : NodeHeartbeatRequest) (now : Time) (h : n.serving) :
    (recovered n req now).serving := by
  unfold recovered
  split
  · exact .inl rfl
  · exact h

/-- Among the statuses agents report, only `running` keeps a pod in flight, and it is reached from `scheduled`. -/
theorem inFlight_of_agentStatus {p : Pod} {st : PodStatus} (ha : agentStatus st = true)
    (ht : transitionPod p.status st = true) : (st = .scheduled ∨ st = .running) → p.inFlight = true := by
  rintro (rfl | rfl)
  · cases ha
  · unfold Pod.inFlight
    cases hs : p.status <;> rw [hs] at ht <;> simp [transitionPod, allowedPodTransitions] at ht ⊢

theorem Placed.report {node pod : String} {req : PodStatusRequest} {p : Pod} {t : Time} (h : Placed s)
    (hp : s.pods.get pod = some p) (ha : agentStatus req.status = true)
    (ht : transitionPod p.status req.status = true) : Placed (afterReport s node p req t) := by
  have hmoved : Placed (s.putPod (accepted p req t)) := by
    refine h.putPod (fun hf => ?_) (fun hw => ?_)
    · have hst : req.status = .scheduled ∨ req.status = .running := by
        simpa [Pod.inFlight, accepted] using hf
      exact h.inFlight pod p hp (inFlight_of_agentStatus ha ht hst)
    · rw [show req.status = .pending from hw] at ha
      cases ha
  refine hmoved.nodes (by simp) fun k n hn hs => ?_
  rw [afterReport_nodes_get, show s.nodes.get k = some n from hn]
  refine ⟨_, rfl, ?_⟩
  split
  · unfold Node.serving; rw [releasedNode_status]; exact hs
  · exact hs

theorem Placed.dispatch {now : Time} (h : Placed s) (hd : Scheduler.Dispatch now s s') : Placed s' := by
  cases hd with
  | mk p n t hp hst hready hn hh hc =>
    have hmoved : Placed (s.putPod (Store.movePod (Scheduler.assigned p n) .scheduled "" t)) :=
      h.putPod (fun _ => ⟨n, hn, .inl hh⟩) (fun hw => by cases hw)
    exact hmoved.putNode fun _ _ _ => .inl hh

theorem Placed.adjust (h : Placed s) (ha : Adjust s s') : Placed s' := by
  cases ha with
  | status d dest t _ _ _ => exact h.congr rfl rfl
  | create d b t _ _ _ _ => exact h.putPod (fun hf => by cases hf) (fun _ => rfl)
  | cancel d p t _ _ _ _ _ => exact h.putPod (fun hf => by cases hf) (fun hw => by cases hw)

theorem Rescheduled.waiting {p p' : Pod} (h : Rescheduled s p p') (hp : p.status = .pending → p.nodeID = "") :
    p'.status = .pending → p'.nodeID = "" := by
  cases h with
  | orphan t _ => exact fun _ => rfl
  | retry now t₁ t₂ t₃ _ _ => exact fun _ => rfl
  | deadLetter t₁ t₂ _ _ => intro hw; cases hw
  | keep _ _ => exact hp

/-- The timeouts: a node given up loses every pod in flight, any other keeps its status. -/
theorem Placed.detect {now : Time} (h : Placed s) (hd : Detected timeout now s s') : Placed s' := by
  constructor
  · intro k p' hp' hf
    obtain ⟨p, hp, hin, hout⟩ := hd.pod_back hp'
    by_cases hlost : LostNode timeout now s p.nodeID
    · rw [(hin hlost).not_inFlight] at hf
      cases hf
    · obtain rfl := hout hlost
      obtain ⟨n, hn, hs⟩ := h.inFlight k p' hp hf
      have hg : givenUpTo timeout now n = none := by
        by_contra hg
        exact hlost ⟨n, hn, hg⟩
      refine ⟨_, hd.nodes _ n hn, ?_⟩
      rw [afterDetect, hg]
      exact hs
  · intro k p' hp' hw
    obtain ⟨p, hp, hin, hout⟩ := hd.pod_back hp'
    by_cases hlost : LostNode timeout now s p.nodeID
    · exact Rescheduled.waiting (hin hlost) (h.waiting k p hp) hw
    · obtain rfl := hout hlost
      exact h.waiting k p' hp hw

/-- **Every change keeps the placement.** -/
theorem Placed.change (hc : Change timeout e s s') (he : e.fromAgent) (h : Placed s) : Placed s' := by
  cases hc with
  | none _ => exact h
  | register req b t hnone =>
    exact h.putNode fun m hm _ => by rw [show s.nodes.get (idOf "node" b) = some m from hm] at hnone; cases hnone
  | heartbeat now node req n hn =>
    have hid : n.id = node := Table.key_of_get hn
    refine h.putNode fun m hm hs => ?_
    have hrec : (recovered n req now).id = node := by rw [← hid]; unfold recovered; split <;> rfl
    rw [hrec, hn] at hm
    obtain rfl : n = m := by simpa using hm
    exact recovered_serving req now hs
  | drain node n hn hh => exact h.putNode fun _ _ _ => .inr rfl
  | ignored node pod body _ => exact h
  | rejected node pod req p hp _ =>
    exact h.putPod (fun hf => h.inFlight pod p hp hf) (fun hw => h.waiting pod p hp hw)
  | accepted node pod req p t hp ht => exact h.report hp he ht
  | submit req b t _ => exact h.congr rfl rfl
  | cancel deployment d t _ _ => exact h.congr rfl rfl
  | service _ hs => exact h.congr hs.2.1 hs.2.2
  | schedule now hd => exact keeps_of_chain Placed (fun _ _ hd h => h.dispatch hd) hd h
  | reconcile now ha hd => exact (keeps_of_chain Placed (fun _ _ ha h => h.adjust ha) ha h).detect hd

theorem Placed.run {tr : List (Step Sys Event)} {σ : Sys} (h : Run (Sys.Next timeout) Sys.init tr σ)
    (he : ∀ x ∈ tr, x.label.fromAgent) : Placed σ.store := by
  refine Run.inv (fun σ => Placed σ.store) (fun x => x.label.fromAgent) ?_ Placed.empty h he
  rintro ⟨σ, e, σ'⟩ ⟨r, hr, -⟩ he hσ
  exact Placed.change (Event.prog_spec hr) he hσ

/-- **Placement.**  In every state that agents' reports, requests and passes of the
loops can reach, each pod in flight is on a registered node that is healthy or
draining, and each pending pod is on no node. -/
theorem placement_invariant {tr : List (Step Sys Event)} {σ : Sys} (h : Run (Sys.Next timeout) Sys.init tr σ)
    (he : ∀ x ∈ tr, x.label.fromAgent) :
    (∀ p ∈ σ.store.pods.rows, p.status = .scheduled ∨ p.status = .running →
      ∃ n, σ.store.nodes.get p.nodeID = some n ∧ (n.status = .healthy ∨ n.status = .draining)) ∧
    ∀ p ∈ σ.store.pods.rows, p.status = .pending → p.nodeID = "" := by
  have hplaced := Placed.run h he
  constructor
  · intro p hp hf
    exact hplaced.inFlight p.id p (Table.get_of_mem hp) (by simpa [Pod.inFlight] using hf)
  · intro p hp hw
    exact hplaced.waiting p.id p (Table.get_of_mem hp) hw

theorem placement_invariant_started :
    ((Sys.init.applyAll (15 * second) startedRun).store.pods.rows.map fun p => (p.nodeID, p.status)) =
      [("node_00000000", .running)] ∧
    ∀ p ∈ (Sys.init.applyAll (15 * second) startedRun).store.pods.rows, p.status = .scheduled ∨ p.status = .running →
      ∃ n, (Sys.init.applyAll (15 * second) startedRun).store.nodes.get p.nodeID = some n ∧
        (n.status = .healthy ∨ n.status = .draining) := by
  refine ⟨by rfl, (placement_invariant (Sys.run_init _ startedRun) (Sys.forall_trace ?_ _)).1⟩
  simp [startedRun, Event.fromAgent, agentStatus]

end ControlPlane
