import InfraPlatform.ControlPlane.Capacity
import InfraPlatform.ControlPlane.Agent

/-!
# The concurrency limit of a node

The scheduler dispatches to a node while `RunningJobs < MaxConcurrent`, so the limit is
kept as long as `RunningJobs` covers the pods that are in flight on the node
(`Node.covers`).  Dispatches and releases keep that, but a heartbeat overwrites
`RunningJobs` with the agent's `len(a.sem)`, which does not count the pods that are
scheduled and not fetched yet.

* `concurrency_limit_of_covering`: if each heartbeat is handled while the agent's count covers
  the pods in flight on its node, the limit is kept in every state reached.
* `overdispatched_after_heartbeat`: one heartbeat between two scheduling passes is enough to exceed it.
-/

namespace ControlPlane

open Lib Lib.Prog Api Reconciler Relation

variable {s s' : Store} {timeout : Duration} {e : Event} {now : Time} {k : String}

/-! ## Pods in flight on a node -/

/-- The pods with the node's ID that are scheduled or running. -/
def inFlightOn (s : Store) (k : String) : Nat := s.pods.rows.countP (onNode k)

theorem inFlightOn_eq_total (s : Store) (k : String) :
    (inFlightOn s k : Int) = s.pods.total fun p => if onNode k p then 1 else 0 :=
  (Table.total_indicator s.pods (onNode k)).symm

theorem inFlightOn_congr (h : s'.pods = s.pods) (k : String) : inFlightOn s' k = inFlightOn s k := by
  unfold inFlightOn
  rw [h]

/-- Overwriting a pod moves it in or out of the count. -/
theorem inFlightOn_putPod {p q : Pod} (hp : s.pods.get p.id = some p) (hid : q.id = p.id) (k : String) :
    (inFlightOn (s.putPod q) k : Int) + (if onNode k p then 1 else 0) =
      inFlightOn s k + (if onNode k q then 1 else 0) := by
  rw [inFlightOn_eq_total, inFlightOn_eq_total]
  exact Table.total_put_of_get (t := s.pods) (a := q) (fun x => if onNode k x then 1 else 0) (by rw [hid]; exact hp)

theorem inFlightOn_putPod_le {p q : Pod} (hp : s.pods.get p.id = some p) (hid : q.id = p.id)
    (hin : onNode k q = true → onNode k p = true) : inFlightOn (s.putPod q) k ≤ inFlightOn s k := by
  have hput := inFlightOn_putPod hp hid k
  by_cases hq : onNode k q = true
  · rw [if_pos hq, if_pos (hin hq)] at hput
    omega
  · rw [if_neg hq] at hput
    split at hput <;> omega

theorem inFlightOn_create {p : Pod} (hp : s.pods.get p.id = none) (hf : onNode k p = false) :
    inFlightOn (s.putPod p) k = inFlightOn s k := by
  unfold inFlightOn
  rw [Store.putPod_pods, Table.rows_put_new hp, List.countP_append, List.countP_singleton, hf]
  rfl

theorem inFlightOn_pos {p : Pod} {id : String} (hp : s.pods.get id = some p) (hon : onNode k p = true) :
    0 < inFlightOn s k :=
  List.countP_pos_iff.mpr ⟨p, Table.mem_of_get hp, hon⟩

/-- No pod is in flight on a node that is not registered. -/
theorem Placed.inFlightOn_absent (h : Placed s) (hk : s.nodes.get k = none) : inFlightOn s k = 0 := by
  unfold inFlightOn
  rw [List.countP_eq_zero]
  intro p hp hon
  simp only [onNode, Bool.and_eq_true, decide_eq_true_eq] at hon
  obtain ⟨n, hn, -⟩ := h.inFlight p.id p (Table.get_of_mem hp) hon.2
  rw [hon.1, hk] at hn
  cases hn

/-! ## The invariant -/

/-- `RunningJobs` accounts for `count` pods, and the limit allows them. -/
def Node.covers (n : Node) (count : Int) : Prop :=
  count ≤ n.runningJobs ∧ (0 < n.maxConcurrent → count ≤ n.maxConcurrent)

structure Limited (s : Store) : Prop extends Placed s where
  covered : ∀ k n, s.nodes.get k = some n → n.covers (inFlightOn s k)

theorem Limited.empty : Limited {} := ⟨Placed.empty, fun k n hn => by cases hn⟩

/-- **The rule for changes that dispatch and release nothing.** -/
theorem Limited.keep (h : Limited s) (hpl : Placed s')
    (hn : ∀ k n', s'.nodes.get k = some n' → ∃ n, s.nodes.get k = some n ∧ n'.runningJobs = n.runningJobs ∧
      n'.maxConcurrent = n.maxConcurrent)
    (hc : ∀ k, inFlightOn s' k ≤ inFlightOn s k) : Limited s' := by
  refine ⟨hpl, fun k n' hn' => ?_⟩
  obtain ⟨n, hget, hr, hm⟩ := hn k n' hn'
  obtain ⟨hcount, hlimit⟩ := h.covered k n hget
  have hle := hc k
  unfold Node.covers
  rw [hr, hm]
  exact ⟨by omega, fun hpos => by have := hlimit hpos; omega⟩

theorem Limited.sameNodes (h : Limited s) (hpl : Placed s') (hn : s'.nodes = s.nodes)
    (hc : ∀ k, inFlightOn s' k ≤ inFlightOn s k) : Limited s' :=
  h.keep hpl (fun _ n' hn' => ⟨n', by rw [← hn]; exact hn', rfl, rfl⟩) hc

/-- One node's record is written, and the pods are left alone. -/
theorem Limited.putNode {n : Node} (h : Limited s) (hpl : Placed (s.putNode n)) (hn : n.covers (inFlightOn s n.id)) :
    Limited (s.putNode n) := by
  refine ⟨hpl, fun k m hm => ?_⟩
  rw [Store.putNode_nodes, Table.get_put] at hm
  rw [inFlightOn_congr (Store.putNode_pods n)]
  by_cases hk : k = n.id
  · obtain rfl : n = m := by simpa [hk] using hm
    rw [hk]
    exact hn
  · exact h.covered k m (by simpa [hk] using hm)

/-- A dispatch adds one pod and one to `RunningJobs`, below the limit. -/
theorem Limited.dispatch (h : Limited s) (hd : Scheduler.Dispatch now s s') : Limited s' := by
  refine ⟨h.toPlaced.dispatch hd, ?_⟩
  cases hd with
  | mk p n t hp hst _ hn _ hroom =>
    intro k m hm
    have hcount : (inFlightOn (Scheduler.dispatched s p n t) k : Int) + _ = _ :=
      inFlightOn_putPod (q := Store.movePod (Scheduler.assigned p n) .scheduled "" t) hp rfl k
    rw [onNode_of_pending hst, onNode_dispatched] at hcount
    rcases Scheduler.node_of_dispatched hm with ⟨rfl, rfl⟩ | ⟨hne, hm⟩
    · obtain ⟨hle, hlimit⟩ := h.covered _ n hn
      have hfull := (Node.hasCapacityFor_iff.mp hroom).1
      simp only [decide_true, if_true, Bool.false_eq_true, if_false] at hcount
      constructor
      · show _ ≤ n.runningJobs + 1
        omega
      · intro hpos
        change 0 < n.maxConcurrent at hpos
        have := hfull hpos
        show _ ≤ n.maxConcurrent
        omega
    · obtain ⟨hle, hlimit⟩ := h.covered k m hm
      simp only [hne, decide_false, Bool.false_eq_true, if_false] at hcount
      exact ⟨by omega, fun hpos => by have := hlimit hpos; omega⟩

theorem releasedNode_runningJobs (n : Node) (d : Except StoreErr Deployment) :
    (releasedNode n d).runningJobs = if n.runningJobs > 0 then n.runningJobs - 1 else n.runningJobs := by
  unfold releasedNode
  cases d <;> rfl

theorem releasedNode_maxConcurrent (n : Node) (d : Except StoreErr Deployment) :
    (releasedNode n d).maxConcurrent = n.maxConcurrent := by
  unfold releasedNode
  cases d <;> rfl

theorem onNode_of_accepted {p : Pod} {req : PodStatusRequest} {t : Time} (ha : agentStatus req.status = true)
    (ht : transitionPod p.status req.status = true) (hon : onNode k (accepted p req t) = true) :
    onNode k p = true := by
  simp only [onNode, Bool.and_eq_true, decide_eq_true_eq] at hon ⊢
  refine ⟨hon.1, inFlight_of_agentStatus ha ht ?_⟩
  simpa [Pod.inFlight, accepted] using hon.2

/-- A release takes one off `RunningJobs` for a pod that is in flight on that very node. -/
theorem Limited.report {node pod : String} {req : PodStatusRequest} {p : Pod} {t : Time} (h : Limited s)
    (hp : s.pods.get pod = some p) (ha : agentStatus req.status = true)
    (ht : transitionPod p.status req.status = true) (hnode : p.nodeID = node) :
    Limited (afterReport s node p req t) := by
  have hid : p.id = pod := Table.key_of_get hp
  have hp' : s.pods.get p.id = some p := by rw [hid]; exact hp
  have hsame : ∀ k, inFlightOn (afterReport s node p req t) k = inFlightOn (s.putPod (accepted p req t)) k :=
    fun k => inFlightOn_congr (by simp) k
  refine ⟨h.toPlaced.report hp ha ht, fun k m hm => ?_⟩
  rw [hsame]
  rw [afterReport_nodes_get] at hm
  obtain ⟨n, hn, rfl⟩ := Option.map_eq_some_iff.mp hm
  obtain ⟨hle, hlimit⟩ := h.covered k n hn
  have hdown := inFlightOn_putPod_le (q := accepted p req t) (k := k) hp' rfl (onNode_of_accepted ha ht)
  by_cases hrel : releases p req ∧ k = node
  · obtain ⟨hrel, rfl⟩ := hrel
    have hon : onNode k p = true := by simp [onNode, Pod.inFlight, hnode, hrel.1]
    have hoff : onNode k (accepted p req t) = false := by
      rw [← Bool.not_eq_true]
      intro hq
      have hst : req.status = .scheduled ∨ req.status = .running := by
        simp only [onNode, Bool.and_eq_true] at hq
        simpa [Pod.inFlight, accepted] using hq.2
      have hterm := hrel.2
      rcases hst with hst | hst <;> rw [hst] at hterm <;> cases hterm
    have hcount := inFlightOn_putPod (q := accepted p req t) hp' rfl k
    rw [if_pos hon, hoff] at hcount
    have hpos := inFlightOn_pos hp hon
    rw [if_pos ⟨hrel, rfl⟩]
    simp only [Bool.false_eq_true, if_false] at hcount
    unfold Node.covers
    rw [releasedNode_runningJobs, releasedNode_maxConcurrent, if_pos (by omega)]
    exact ⟨by omega, fun hm => by have := hlimit hm; omega⟩
  · rw [if_neg hrel]
    exact ⟨by omega, fun hm => by have := hlimit hm; omega⟩

theorem Limited.adjust (h : Limited s) (ha : Adjust s s') : Limited s' := by
  have hpl := h.toPlaced.adjust ha
  cases ha with
  | status d dest t _ _ _ => exact h.sameNodes hpl rfl fun _ => le_refl _
  | create d b t _ _ hnone _ =>
    exact h.sameNodes hpl rfl fun k => (inFlightOn_create hnone (by simp [onNode, newPod, Pod.inFlight])).le
  | cancel d p t _ hp _ _ _ =>
    exact h.sameNodes hpl rfl fun k => inFlightOn_putPod_le hp rfl (by simp [onNode, Pod.inFlight])

/-- What the timeouts leave in flight is what they left alone. -/
theorem Limited.detect (h : Limited s) (hd : Detected timeout now s s') : Limited s' := by
  refine h.keep (h.toPlaced.detect hd) (fun k n' hn' => ?_) fun k => ?_
  · obtain ⟨n, hn, rfl⟩ := hd.node_back hn'
    refine ⟨n, hn, ?_, ?_⟩ <;> unfold afterDetect <;> cases givenUpTo timeout now n <;> rfl
  · have hle : (inFlightOn s' k : Int) ≤ inFlightOn s k := by
      rw [inFlightOn_eq_total, inFlightOn_eq_total]
      refine Table.total_le_total _ _ hd.keys fun j p' p hp' hp => ?_
      obtain ⟨q, hq, hin, hout⟩ := hd.pods j p hp
      obtain rfl : p' = q := by simpa [hp'] using hq
      by_cases hl : LostNode timeout now s p.nodeID
      · have hoff : ¬ onNode k p' = true := by simp [onNode, (hin hl).not_inFlight]
        rw [if_neg hoff]
        split <;> omega
      · rw [hout hl]
    omega

/-! ## Every event -/

/-- A heartbeat of a node carries `count` of that node. -/
def Event.beats (count : String → Int) : Event → Prop
  | .heartbeat _ node req => req.runningJobs = count node
  | _ => True

/-- A heartbeat's `RunningJobs` accounts for the pods in flight on the node. -/
def Event.covers (s : Store) : Event → Prop
  | .heartbeat _ node req => inFlightOn s node ≤ req.runningJobs
  | _ => True

instance {count : String → Int} : (e : Event) → Decidable (e.beats count)
  | .heartbeat _ node req => inferInstanceAs (Decidable (req.runningJobs = count node))
  | .report .. | .register _ | .poll _ | .drain _ | .submit _ | .cancel _ | .createService _
  | .updateService .. | .deleteService _ | .schedulerTick _ | .reconcilerTick _ => .isTrue trivial

instance : (e : Event) → Decidable (e.covers s)
  | .heartbeat _ node req => inferInstanceAs (Decidable ((inFlightOn s node : Int) ≤ req.runningJobs))
  | .report .. | .register _ | .poll _ | .drain _ | .submit _ | .cancel _ | .createService _
  | .updateService .. | .deleteService _ | .schedulerTick _ | .reconcilerTick _ => .isTrue trivial

theorem recovered_runningJobs (n : Node) (req : NodeHeartbeatRequest) (now : Time) :
    (recovered n req now).runningJobs = req.runningJobs := by
  unfold recovered
  split <;> rfl

theorem recovered_maxConcurrent (n : Node) (req : NodeHeartbeatRequest) (now : Time) :
    (recovered n req now).maxConcurrent = n.maxConcurrent := by
  unfold recovered
  split <;> rfl

theorem recovered_id (n : Node) (req : NodeHeartbeatRequest) (now : Time) : (recovered n req now).id = n.id := by
  unfold recovered
  split <;> rfl

/-- **Every change keeps the limit**, heartbeats under their condition. -/
theorem Limited.change (hc : Change timeout e s s') (ha : e.fromAgent) (has : e.ofAssigned s) (hcov : e.covers s)
    (h : Limited s) : Limited s' := by
  have hpl := h.toPlaced.change hc ha
  cases hc with
  | none _ => exact h
  | register req b t hnone =>
    refine h.putNode hpl ?_
    rw [show ((newNode req (idOf "node" b) t).withStatus .healthy).id = idOf "node" b from rfl,
      h.toPlaced.inFlightOn_absent hnone]
    exact ⟨le_refl _, fun hpos => le_of_lt hpos⟩
  | heartbeat now node req n hn =>
    have hid : n.id = node := Table.key_of_get hn
    refine h.putNode hpl ?_
    unfold Node.covers
    rw [recovered_id, recovered_runningJobs, recovered_maxConcurrent, hid]
    exact ⟨hcov, (h.covered node n hn).2⟩
  | drain node n hn _ =>
    have hid : n.id = node := Table.key_of_get hn
    exact h.putNode hpl (by rw [Node.withStatus_id, hid]; exact h.covered node n hn)
  | ignored node pod body _ => exact h
  | rejected node pod req p hp _ =>
    have hid : p.id = pod := Table.key_of_get hp
    exact h.sameNodes hpl rfl fun k => inFlightOn_putPod_le (p := p) (by rw [hid]; exact hp) rfl (fun hon => hon)
  | accepted node pod req p t hp ht =>
    exact h.report hp ha ht (has p (Table.mem_of_get hp) (Table.key_of_get hp))
  | submit req b t _ => exact h.sameNodes hpl rfl fun _ => le_refl _
  | cancel deployment d t _ _ => exact h.sameNodes hpl rfl fun _ => le_refl _
  | service _ hs => exact h.sameNodes hpl hs.2.2 fun k => (inFlightOn_congr hs.2.1 k).le
  | schedule now hd => exact keeps_of_chain Limited (fun _ _ hd h => h.dispatch hd) hd h
  | reconcile now hadj hd => exact (keeps_of_chain Limited (fun _ _ ha h => h.adjust ha) hadj h).detect hd

/-! ## The cluster -/

namespace Worker

/-- Reports come from the node the pod is assigned to, and a heartbeat carries what
`sendHeartbeat` reads: the pods its agent is executing or fetching. -/
def Told (x : Step Cluster Action) : Prop :=
  ∀ e ∈ x.label.event x.src, e.ofAssigned x.src.store ∧ e.beats fun node => (x.src.agents node).semLen

/-- A heartbeat is handled while the agent's count covers the pods in flight on its node. -/
def Covering (x : Step Cluster Action) : Prop := ∀ e ∈ x.label.event x.src, e.covers x.src.store

instance (x : Step Cluster Action) : Decidable (Told x) :=
  inferInstanceAs (Decidable (∀ e ∈ x.label.event x.src, _ ∧ _))

instance (x : Step Cluster Action) : Decidable (Covering x) :=
  inferInstanceAs (Decidable (∀ e ∈ x.label.event x.src, _))

/-- Every node with a limit has at most that many pods scheduled or running on it. -/
def WithinLimits (s : Store) : Prop :=
  ∀ n ∈ s.nodes.rows, 0 < n.maxConcurrent → inFlightOn s n.id ≤ n.maxConcurrent

instance (s : Store) : Decidable (WithinLimits s) :=
  inferInstanceAs (Decidable (∀ n ∈ s.nodes.rows, 0 < n.maxConcurrent → (inFlightOn s n.id : Int) ≤ n.maxConcurrent))

/-- **The concurrency limit, where heartbeats cover.**  In every state reached by steps
in which each heartbeat is handled while the agent executes or fetches at least as many pods
as are in flight on its node, no node has more pods in flight than its limit. -/
theorem concurrency_limit_of_covering {maxConcurrentJobs : String → Int} {tr : List (Step Cluster Action)}
    {σ : Cluster} (h : Run (Cluster.Next timeout) (Cluster.start {} maxConcurrentJobs) tr σ)
    (ht : ∀ x ∈ tr, Told x) (hc : ∀ x ∈ tr, Covering x) : WithinLimits σ.store := by
  have hinv : Limited σ.store ∧ σ.Truthful := by
    refine Run.inv (fun σ => Limited σ.store ∧ σ.Truthful) (fun x => Told x ∧ Covering x) ?_
      ⟨Limited.empty, by simp [Cluster.Truthful, Cluster.start]⟩ h (fun x hx => ⟨ht x hx, hc x hx⟩)
    rintro ⟨σ, a, σ'⟩ hnext ⟨htold, hcov⟩ ⟨hlim, hwire⟩
    change Cluster.Next timeout σ a σ' at hnext
    refine ⟨?_, hnext.truthful hwire⟩
    rcases hnext.event hwire with hsame | ⟨e, r, he, hfrom, hr⟩
    · show Limited σ'.store
      rw [hsame]
      exact hlim
    · exact hlim.change (Event.prog_spec hr) hfrom (htold e he).1 (hcov e he)
  intro n hn hpos
  exact (hinv.1.covered n.id n (Table.get_of_mem hn)).2 hpos

/-- A node with a limit of one registers, and a deployment of two replicas is submitted. -/
def limitedNode : List (Time × Action) :=
  [(1, .control (.register (some
     { address := "a:1", capacity := { cpu := 4, memoryMB := 100 }, maxConcurrent := 1 }))),
   (2, .control (.submit (some { name := "web", command := "run", replicas := 2 }))),
   (3, .control (.reconcilerTick 3)), (4, .control (.schedulerTick 4))]

theorem concurrency_limit_of_covering_fetched :
    (inFlightOn ((Cluster.start {} fun _ => 1).applyAll (15 * second) (limitedNode ++
      [(5, .pollOnce "node_00000000"), (6, .control (.heartbeat 6 "node_00000000" { runningJobs := 1 })),
       (7, .control (.schedulerTick 7))])).store "node_00000000" = 1) ∧
    WithinLimits ((Cluster.start {} fun _ => 1).applyAll (15 * second) (limitedNode ++
      [(5, .pollOnce "node_00000000"), (6, .control (.heartbeat 6 "node_00000000" { runningJobs := 1 })),
       (7, .control (.schedulerTick 7))])).store :=
  ⟨by decide +kernel,
    concurrency_limit_of_covering (Cluster.run_trace .nil _) (by decide +kernel) (by decide +kernel)⟩

/-- The agent has not fetched the first pod when its heartbeat resets `RunningJobs` to
zero; the next pass dispatches the second pod to the same node. -/
theorem overdispatched_after_heartbeat :
    ¬ ∀ (timeout : Duration) (maxConcurrentJobs : String → Int) (tr : List (Step Cluster Action)) (σ : Cluster),
      Run (Cluster.Next timeout) (Cluster.start {} maxConcurrentJobs) tr σ → (∀ x ∈ tr, Told x) →
        WithinLimits σ.store := by
  intro h
  have hlimit := h (15 * second) (fun _ => 1) _ _ (Cluster.run_trace .nil (limitedNode ++
    [(6, .control (.heartbeat 6 "node_00000000" { runningJobs := 0 })), (7, .control (.schedulerTick 7))]))
    (by decide +kernel)
  revert hlimit
  decide +kernel

end Worker

end ControlPlane
