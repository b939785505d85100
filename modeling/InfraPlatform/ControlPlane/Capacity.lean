import InfraPlatform.ControlPlane.Placement
import InfraPlatform.ControlPlane.Replicas

/-!
# Memory accounts

The memory of the pods that hold a part of a node, and how it changes.  An
`Account Q f` relates, for each node, what is available, the capacity and the
memory of the pods that `f` counts for the node; the lemmas here carry accounts over
the changes that reserve and release nothing.  What is counted, and the relation
`Q`, differ between the two results that use them (`Overcommit`, `Leak`).
-/

namespace ControlPlane

open Lib Lib.Prog Api Reconciler Relation

variable {s s' : Store} {timeout : Duration} {e : Event}

/-- `deployment.Resources.MemoryMB` of the pod's deployment. -/
def memoryOf (s : Store) (p : Pod) : Int :=
  match s.deployments.get p.deploymentID with
  | some d => d.resources.memoryMB
  | none => 0

/-- The memory of the pods that satisfy `f`. -/
def held (s : Store) (f : Pod → Bool) : Int := s.pods.total fun p => if f p then memoryOf s p else 0

def onNode (k : String) (p : Pod) : Bool := decide (p.nodeID = k) && p.inFlight

/-- The memory of the pods that are scheduled or running on node `k`. -/
def inFlightMemory (s : Store) (k : String) : Int := held s (onNode k)

theorem onNode_of_pending {p : Pod} (h : p.status = .pending) (k : String) : onNode k p = false := by
  simp [onNode, Pod.inFlight, h]

theorem onNode_dispatched (p : Pod) (n : Node) (t : Time) (k : String) :
    onNode k (Store.movePod (Scheduler.assigned p n) .scheduled "" t) = decide (n.id = k) := by
  simp [onNode, Pod.inFlight]
  rfl

theorem requiredFor_memoryMB (s : Store) (p : Pod) : (Scheduler.requiredFor s p).memoryMB = memoryOf s p := by
  unfold Scheduler.requiredFor memoryOf Store.getDeployment
  cases s.deployments.get p.deploymentID <;> rfl

theorem reserve_memoryMB (s : Store) (n : Node) (p : Pod) :
    (Scheduler.reserve n (Scheduler.requiredFor s p)).available.memoryMB = n.available.memoryMB - memoryOf s p := by
  rw [← requiredFor_memoryMB]
  rfl

/-- What a release leaves available, clamped to the capacity. -/
theorem releasedNode_memoryMB {p : Pod} {n : Node} (hreg : ∃ d, s.deployments.get p.deploymentID = some d) :
    (releasedNode n (s.getDeployment p.deploymentID)).available.memoryMB =
      min (n.available.memoryMB + memoryOf s p) n.capacity.memoryMB := by
  obtain ⟨d, hd⟩ := hreg
  unfold memoryOf
  rw [Store.getDeployment_some hd, hd]
  rfl

/-! ## Requests with sensible sizes -/

/-- No negative memory, and a heartbeat that leaves `available` to the control plane. -/
def Event.sized : Event → Prop
  | .register (some req) => 0 ≤ req.capacity.memoryMB
  | .submit (some req) => 0 ≤ req.resources.memoryMB
  | .heartbeat _ _ req => req.available = {}
  | _ => True

instance : (e : Event) → Decidable e.sized
  | .register (some req) => inferInstanceAs (Decidable (0 ≤ req.capacity.memoryMB))
  | .submit (some req) => inferInstanceAs (Decidable (0 ≤ req.resources.memoryMB))
  | .heartbeat _ _ req => inferInstanceAs (Decidable (req.available = {}))
  | .register none | .submit none | .report .. | .poll _ | .drain _ | .cancel _ | .createService _
  | .updateService .. | .deleteService _ | .schedulerTick _ | .reconcilerTick _ => .isTrue trivial

/-- What the accounts rest on. -/
structure Sized (s : Store) : Prop extends Placed s, Bounded s where
  nonneg : ∀ k d, s.deployments.get k = some d → 0 ≤ d.resources.memoryMB

theorem Sized.empty : Sized {} := ⟨Placed.empty, Bounded.empty, fun k d hd => by cases hd⟩

theorem Sized.memoryOf_nonneg (h : Sized s) (p : Pod) : 0 ≤ memoryOf s p := by
  unfold memoryOf
  cases hd : s.deployments.get p.deploymentID with
  | none => exact le_refl 0
  | some d => exact h.nonneg _ d hd

theorem nonneg_putDeployment {d : Deployment} (h : Sized s) (hd : 0 ≤ d.resources.memoryMB) :
    ∀ k d', (s.putDeployment d).deployments.get k = some d' → 0 ≤ d'.resources.memoryMB := by
  intro k d' hd'
  rw [Store.putDeployment_deployments, Table.get_put] at hd'
  by_cases hk : k = d.id
  · obtain rfl : d = d' := by simpa [hk] using hd'
    exact hd
  · exact h.nonneg k d' (by simpa [hk] using hd')

theorem Sized.adjust (h : Sized s) (ha : Adjust s s') : Sized s' := by
  refine ⟨h.toPlaced.adjust ha, h.toBounded.adjust ha, ?_⟩
  cases ha with
  | status d dest t hd _ _ =>
    exact nonneg_putDeployment h (d := Store.moveDeployment d dest t) (h.nonneg _ d hd)
  | create d b t _ _ _ _ => exact h.nonneg
  | cancel d p t _ _ _ _ _ => exact h.nonneg

theorem Sized.dispatch {now : Time} (h : Sized s) (hd : Scheduler.Dispatch now s s') : Sized s' := by
  refine ⟨h.toPlaced.dispatch hd, h.toBounded.dispatch hd, ?_⟩
  cases hd with
  | mk p n t _ _ _ _ _ _ => exact h.nonneg

theorem Sized.detect {now : Time} (h : Sized s) (hd : Detected timeout now s s') : Sized s' :=
  ⟨h.toPlaced.detect hd, h.toBounded.detect hd, by rw [hd.deployments]; exact h.nonneg⟩

theorem Sized.change (hc : Change timeout e s s') (ha : e.fromAgent) (he : e.sized) (h : Sized s) : Sized s' := by
  refine ⟨h.toPlaced.change hc ha, h.toBounded.change hc, ?_⟩
  cases hc with
  | none _ => exact h.nonneg
  | register req b t _ => exact h.nonneg
  | heartbeat now node req n _ => exact h.nonneg
  | drain node n _ _ => exact h.nonneg
  | ignored node pod body _ => exact h.nonneg
  | rejected node pod req p _ _ => exact h.nonneg
  | accepted node pod req p t _ _ => rw [afterReport_deployments]; exact h.nonneg
  | submit req b t _ => exact nonneg_putDeployment h he
  | cancel deployment d t hd _ =>
    exact nonneg_putDeployment h (d := Store.moveDeployment d .cancelled t) (h.nonneg _ d hd)
  | service _ hs => rw [hs.1]; exact h.nonneg
  | schedule now hd => exact (keeps_of_chain Sized (fun _ _ hd h => h.dispatch hd) hd h).nonneg
  | reconcile now ha hd =>
    exact ((keeps_of_chain Sized (fun _ _ ha h => h.adjust ha) ha h).detect hd).nonneg

/-! ## Held memory -/

theorem Sized.held_nonneg (h : Sized s) (f : Pod → Bool) : 0 ≤ held s f := by
  refine Table.total_nonneg _ _ fun p _ => ?_
  split
  · exact h.memoryOf_nonneg p
  · exact le_refl 0

theorem held_mono {f g : Pod → Bool} (h : Sized s) (hfg : ∀ k p, s.pods.get k = some p → f p = true → g p = true) :
    held s f ≤ held s g := by
  refine Table.total_le_total _ _ rfl fun k a b ha hb => ?_
  obtain rfl : a = b := by simpa [ha] using hb
  have := h.memoryOf_nonneg a
  by_cases hf : f a = true
  · rw [if_pos hf, if_pos (hfg k a ha hf)]
  · rw [if_neg hf]
    split <;> omega

theorem held_eq_zero {f : Pod → Bool} (h : ∀ k p, s.pods.get k = some p → f p = false) : held s f = 0 := by
  unfold held Table.total
  rw [List.sum_eq_zero]
  intro x hx
  obtain ⟨p, hp, rfl⟩ := List.mem_map.mp hx
  simp [h p.id p (Table.get_of_mem hp)]

theorem held_congr {f : Pod → Bool} (hp : s'.pods = s.pods)
    (hm : ∀ k p, s.pods.get k = some p → memoryOf s' p = memoryOf s p) : held s' f = held s f := by
  refine Table.total_congr _ _ (by rw [hp]) fun k a b ha hb => ?_
  rw [hp] at ha
  obtain rfl : a = b := by simpa [ha] using hb
  rw [hm k a ha]

/-- Overwriting a pod moves its memory in or out. -/
theorem held_putPod {f : Pod → Bool} {p q : Pod} (hp : s.pods.get p.id = some p) (hid : q.id = p.id)
    (hdep : q.deploymentID = p.deploymentID) :
    held (s.putPod q) f + (if f p then memoryOf s p else 0) = held s f + (if f q then memoryOf s p else 0) := by
  have hm : memoryOf s q = memoryOf s p := by unfold memoryOf; rw [hdep]
  rw [← hm]
  have hput := Table.total_put_of_get (t := s.pods) (a := q) (fun x => if f x then memoryOf s x else 0)
    (by rw [hid]; exact hp)
  rw [← hm] at hput
  exact hput

theorem held_afterReport {f : Pod → Bool} {node pod : String} {req : PodStatusRequest} {p : Pod} {t : Time}
    (hp : s.pods.get pod = some p) :
    held (afterReport s node p req t) f + (if f p then memoryOf s p else 0) =
      held s f + (if f (accepted p req t) then memoryOf s p else 0) := by
  have hid : p.id = pod := Table.key_of_get hp
  rw [← hid] at hp
  have hput : held (s.putPod (accepted p req t)) f + _ = _ := held_putPod hp rfl rfl
  have hsame : held (afterReport s node p req t) f = held (s.putPod (accepted p req t)) f :=
    held_congr (by simp) fun j q _ => by unfold memoryOf; rw [afterReport_deployments]; rfl
  rw [hsame]
  exact hput

theorem held_create {f : Pod → Bool} {p : Pod} (hp : s.pods.get p.id = none) (hf : f p = false) :
    held (s.putPod p) f = held s f := by
  have hput := Table.total_put_new (fun q => if f q then memoryOf s q else 0) hp
  simp only [hf, Bool.false_eq_true, if_false, add_zero] at hput
  exact hput

/-- A deployment that comes in, or that changes except for its resources, weighs no pod anew. -/
theorem memoryOf_putDeployment {d : Deployment} {p : Pod} (hreg : ∃ d', s.deployments.get p.deploymentID = some d')
    (hold : ∀ d', s.deployments.get d.id = some d' → d'.resources = d.resources) :
    memoryOf (s.putDeployment d) p = memoryOf s p := by
  obtain ⟨d', hd'⟩ := hreg
  unfold memoryOf
  rw [Store.putDeployment_deployments, Table.get_put]
  by_cases hk : p.deploymentID = d.id
  · rw [if_pos hk, hd']
    rw [hk] at hd'
    simp only [hold d' hd']
  · rw [if_neg hk]

/-! ## Accounts -/

def Account (Q : Int → Int → Int → Prop) (f : String → Pod → Bool) (s : Store) : Prop :=
  ∀ k n, s.nodes.get k = some n → Q n.available.memoryMB n.capacity.memoryMB (held s (f k))

/-- What the counting must satisfy: it leaves out pods just created and nodes not
registered, and reads neither exit code nor output. -/
structure Counts (f : String → Pod → Bool) (s : Store) : Prop where
  fresh : ∀ k p, s.pods.get p.id = none → p.status = .pending → p.nodeID = "" → f k p = false
  absent : ∀ k, s.nodes.get k = none → ∀ id p, s.pods.get id = some p → f k p = false
  reported : ∀ k p req, f k (reported p req) = f k p

variable {Q : Int → Int → Int → Prop} {f : String → Pod → Bool}

/-- Nothing is reserved or released. -/
theorem Account.keep (h : Account Q f s)
    (hn : ∀ k n', s'.nodes.get k = some n' → ∃ n, s.nodes.get k = some n ∧ n'.available = n.available ∧
      n'.capacity = n.capacity)
    (hh : ∀ k, held s' (f k) = held s (f k)) : Account Q f s' := by
  intro k n' hn'
  obtain ⟨n, hget, ha, hc⟩ := hn k n' hn'
  rw [ha, hc, hh]
  exact h k n hget

theorem Account.sameNodes (h : Account Q f s) (hn : s'.nodes = s.nodes)
    (hh : ∀ k, held s' (f k) = held s (f k)) : Account Q f s' :=
  h.keep (fun _ n' hn' => ⟨n', hn ▸ hn', rfl, rfl⟩) hh

/-- Overwriting a node's record without touching its account. -/
theorem Account.putNode {n n' : Node} (h : Account Q f s) (hn : s.nodes.get n.id = some n) (hid : n'.id = n.id)
    (ha : n'.available = n.available) (hc : n'.capacity = n.capacity) : Account Q f (s.putNode n') := by
  refine h.keep (fun k m hm => ?_) (fun _ => rfl)
  rw [Store.putNode_nodes, Table.get_put, hid] at hm
  by_cases hk : k = n.id
  · obtain rfl : n' = m := by simpa [hk] using hm
    exact ⟨n, by rw [hk]; exact hn, ha, hc⟩
  · exact ⟨m, by simpa [hk] using hm, rfl, rfl⟩

theorem Account.register {req : RegisterNodeRequest} {id : String} {t : Time} (h : Account Q f s)
    (hf : Counts f s) (hnone : s.nodes.get id = none) (hQ : Q req.capacity.memoryMB req.capacity.memoryMB 0) :
    Account Q f (s.putNode ((newNode req id t).withStatus .healthy)) := by
  intro k n hn
  rw [Store.putNode_nodes, Table.get_put] at hn
  by_cases hk : k = id
  · obtain rfl : (newNode req id t).withStatus .healthy = n := by simpa [hk, newNode] using hn
    have hzero : held (s.putNode ((newNode req id t).withStatus .healthy)) (f k) = 0 :=
      held_eq_zero fun j p hp => hf.absent k (hk ▸ hnone) j p hp
    rw [hzero]
    exact hQ
  · exact h k n (by simpa [newNode, hk] using hn)

theorem Account.heartbeat {n : Node} {node : String} {req : NodeHeartbeatRequest} {now : Time} (h : Account Q f s)
    (hn : s.nodes.get node = some n) (hz : req.available = {}) : Account Q f (s.putNode (recovered n req now)) := by
  have hid : n.id = node := Table.key_of_get hn
  have hav : (recovered n req now).available = n.available := by
    unfold recovered heartbeatNode
    rw [hz]
    split <;> rfl
  refine h.putNode (by rw [hid]; exact hn) ?_ hav ?_ <;> unfold recovered <;> split <;> rfl

theorem Account.deployments {d : Deployment} (h : Account Q f s) (hb : Bounded s)
    (hold : ∀ d', s.deployments.get d.id = some d' → d'.resources = d.resources) :
    Account Q f (s.putDeployment d) := by
  refine h.sameNodes rfl fun k => held_congr rfl fun j p hp => ?_
  exact memoryOf_putDeployment (hb.registered j p hp) hold

theorem Account.move {d : Deployment} {id : String} {dest : DeploymentStatus} {t : Time} (h : Account Q f s)
    (hb : Bounded s) (hd : s.deployments.get id = some d) :
    Account Q f (s.putDeployment (Store.moveDeployment d dest t)) := by
  have hid : d.id = id := Table.key_of_get hd
  refine h.deployments hb fun d' hd' => ?_
  rw [← hid, show s.deployments.get d.id = some d' from hd'] at hd
  obtain rfl : d' = d := by simpa using hd
  rfl

theorem Account.rejected {p : Pod} {pod : String} {req : PodStatusRequest} (h : Account Q f s) (hf : Counts f s)
    (hp : s.pods.get pod = some p) : Account Q f (s.putPod (Api.reported p req)) := by
  have hid : p.id = pod := Table.key_of_get hp
  refine h.sameNodes rfl fun k => ?_
  rw [← hid] at hp
  have hput : held (s.putPod (Api.reported p req)) (f k) + _ = _ := held_putPod hp rfl rfl
  rw [hf.reported] at hput
  omega

theorem Account.adjust (h : Account Q f s) (hf : Counts f s) (hb : Bounded s) (ha : Adjust s s') :
    Account Q f s' := by
  cases ha with
  | status d dest t hd _ _ => exact h.move hb hd
  | create d b t _ _ hnone _ => exact h.sameNodes rfl fun k => held_create hnone (hf.fresh k _ hnone rfl rfl)
  | cancel d p t hd _ _ _ hover =>
    have := hb.bound d.id d hd
    omega

end ControlPlane
