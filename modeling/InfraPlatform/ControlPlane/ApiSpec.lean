import InfraPlatform.ControlPlane.StoreSpec
import InfraPlatform.ControlPlane.Api

/-!
# What the handlers do to the store

One lemma for each handler, run without interleaving: the store it leaves, with
the conditions under which it changes anything at all.
-/

namespace ControlPlane.Api

open Lib Lib.Prog

variable {s s' : Store} {r : Response}

/-! ## Nodes -/

theorem allocateNode_spec {req : RegisterNodeRequest} {attempts : Nat} {res : Except Response String}
    (h : Runs Exec (allocateNode req attempts) s res s') :
    ((∃ resp, res = .error resp) ∧ s' = s) ∨
      ∃ b now, res = .ok (idOf "node" b) ∧ s.nodes.get (idOf "node" b) = none ∧
        s' = s.putNode (newNode req (idOf "node" b) now) := by
  induction attempts with
  | zero =>
    obtain ⟨rfl, rfl⟩ := runs_pure.mp h
    exact .inl ⟨⟨_, rfl⟩, rfl⟩
  | succ attempts ih =>
    simp only [allocateNode, runs_bind, runs_generateID] at h
    obtain ⟨_, s₁, ⟨⟨b, rfl⟩, rfl⟩, h⟩ := h
    cases b with
    | none =>
      obtain ⟨rfl, rfl⟩ := runs_pure.mp h
      exact .inl ⟨⟨_, rfl⟩, rfl⟩
    | some b =>
      simp only [Option.map_some, runs_bind, runs_timeNow, runs_registerNode] at h
      obtain ⟨now, s₁, rfl, res', s₂, hreg, h⟩ := h
      unfold Store.registerNode at hreg
      split at hreg
      · obtain ⟨rfl, rfl⟩ := Prod.mk.inj hreg
        exact ih h
      · next hnone =>
        obtain ⟨rfl, rfl⟩ := Prod.mk.inj hreg
        obtain ⟨rfl, rfl⟩ := runs_pure.mp h
        exact .inr ⟨b, now, rfl, by simpa [newNode] using hnone, rfl⟩

/-- A registration adds one node, healthy and with all of its capacity available, or nothing. -/
theorem registerNode_spec {body : Option RegisterNodeRequest} (h : Runs Exec (registerNode body) s r s') :
    s' = s ∨ ∃ req b now, body = some req ∧ s.nodes.get (idOf "node" b) = none ∧
      s' = s.putNode ((newNode req (idOf "node" b) now).withStatus .healthy) := by
  cases body with
  | none => exact .inl (runs_pure.mp h).2
  | some req =>
    simp only [registerNode] at h
    split at h
    · exact .inl (runs_pure.mp h).2
    · simp only [runs_bind] at h
      obtain ⟨res, s₁, halloc, h⟩ := h
      rcases allocateNode_spec halloc with ⟨⟨resp, rfl⟩, rfl⟩ | ⟨b, now, rfl, hnone, rfl⟩
      · exact .inl (runs_pure.mp h).2
      · have hget : (s.putNode (newNode req (idOf "node" b) now)).nodes.get (idOf "node" b) =
            some (newNode req (idOf "node" b) now) := Table.get_put_self s.nodes (newNode req (idOf "node" b) now)
        simp only [runs_bind, runs_transitionNode] at h
        obtain ⟨res, s₂, htr, h⟩ := h
        rw [Store.transitionNode_of hget rfl, Store.putNode_withStatus] at htr
        obtain ⟨rfl, rfl⟩ := Prod.mk.inj htr
        simp only [runs_bind, runs_getNode] at h
        obtain ⟨_, s₂, ⟨rfl, rfl⟩, h⟩ := h
        refine .inr ⟨req, b, now, rfl, hnone, ?_⟩
        split at h <;> exact (runs_pure.mp h).2

/-- The record a heartbeat leaves: an unhealthy node has recovered. -/
def recovered (n : Node) (req : NodeHeartbeatRequest) (now : Time) : Node :=
  if n.status = .unhealthy then (heartbeatNode n req now).withStatus .healthy else heartbeatNode n req now

theorem heartbeat_spec {now : Time} {id : String} {req : NodeHeartbeatRequest}
    (h : Runs Exec (heartbeat now id req) s r s') :
    (s.nodes.get id = none ∧ s' = s) ∨
      ∃ n, s.nodes.get id = some n ∧ s' = s.putNode (recovered n req now) := by
  simp only [heartbeat, runs_bind, runs_getNode] at h
  obtain ⟨_, s₁, ⟨rfl, rfl⟩, h⟩ := h
  cases hn : s₁.nodes.get id with
  | none =>
    rw [Store.getNode_none hn] at h
    exact .inl ⟨rfl, (runs_pure.mp h).2⟩
  | some n =>
    have hid : n.id = id := Table.key_of_get hn
    rw [Store.getNode_some hn] at h
    simp only [runs_bind, runs_updateNode] at h
    obtain ⟨_, s₂, hupd, h⟩ := h
    rw [Store.updateNode_some (n := heartbeatNode n req now) (m := n) (hid ▸ hn)] at hupd
    obtain ⟨rfl, rfl⟩ := Prod.mk.inj hupd
    refine .inr ⟨n, rfl, ?_⟩
    by_cases hu : n.status = .unhealthy
    · have hget : (s₁.putNode (heartbeatNode n req now)).nodes.get id = some (heartbeatNode n req now) :=
        hid ▸ Table.get_put_self s₁.nodes (heartbeatNode n req now)
      have hok : ControlPlane.transitionNode (heartbeatNode n req now).status .healthy = true := by
        show ControlPlane.transitionNode n.status .healthy = true
        rw [hu]; rfl
      simp only [if_pos hu, runs_bind, runs_transitionNode] at h
      obtain ⟨_, s₂, htr, h⟩ := h
      rw [Store.transitionNode_of hget hok, Store.putNode_withStatus] at htr
      obtain ⟨rfl, rfl⟩ := Prod.mk.inj htr
      simp only [recovered, if_pos hu]
      exact (runs_pure.mp h).2
    · rw [if_neg hu] at h
      simp only [recovered, if_neg hu]
      exact (runs_pure.mp h).2

/-- A poll changes nothing; a pod it hands out is scheduled on the polling node. -/
theorem pollPods_spec {id : String} (h : Runs Exec (pollPods id) s r s') :
    s' = s ∧ ∀ p, r.body = .polled (some p) → s.pods.get p.id = some p ∧ p.nodeID = id ∧ p.status = .scheduled := by
  simp only [pollPods, runs_bind, runs_getNode] at h
  obtain ⟨_, s₁, ⟨rfl, rfl⟩, h⟩ := h
  cases hn : s₁.nodes.get id with
  | none =>
    rw [Store.getNode_none hn] at h
    obtain ⟨rfl, rfl⟩ := runs_pure.mp h
    exact ⟨rfl, fun p hp => by cases hp⟩
  | some n =>
    rw [Store.getNode_some hn] at h
    simp only [runs_bind, runs_listPodsByNode] at h
    obtain ⟨_, s₂, ⟨⟨pods, rfl, hperm⟩, rfl⟩, h⟩ := h
    obtain ⟨rfl, rfl⟩ := runs_pure.mp h
    refine ⟨rfl, fun p hp => ?_⟩
    have hfind : pods.find? (fun p => p.status = .scheduled) = some p := by
      simpa [writeJSON] using hp
    have hmem := hperm.mem_iff.mp (List.mem_of_find?_eq_some hfind)
    rw [List.mem_filter] at hmem
    exact ⟨Table.get_of_mem hmem.1, by simpa using hmem.2, by simpa using List.find?_some hfind⟩

theorem drainNode_spec {id : String} (h : Runs Exec (drainNode id) s r s') :
    (s' = s ∧ ∀ n, s.nodes.get id = some n → n.status ≠ .healthy) ∨
      ∃ n, s.nodes.get id = some n ∧ n.status = .healthy ∧ s' = s.putNode (n.withStatus .draining) := by
  simp only [drainNode, runs_bind, runs_getNode] at h
  obtain ⟨_, s₁, ⟨rfl, rfl⟩, h⟩ := h
  cases hn : s₁.nodes.get id with
  | none =>
    rw [Store.getNode_none hn] at h
    exact .inl ⟨(runs_pure.mp h).2, by simp⟩
  | some n =>
    rw [Store.getNode_some hn] at h
    simp only [runs_bind, runs_transitionNode] at h
    obtain ⟨_, s₂, htr, h⟩ := h
    cases hst : ControlPlane.transitionNode n.status .draining with
    | false =>
      rw [Store.transitionNode_not hn hst] at htr
      obtain ⟨rfl, rfl⟩ := Prod.mk.inj htr
      refine .inl ⟨(runs_pure.mp h).2, ?_⟩
      rintro m ⟨⟩ hh
      rw [hh] at hst
      cases hst
    | true =>
      rw [Store.transitionNode_of hn hst] at htr
      obtain ⟨rfl, rfl⟩ := Prod.mk.inj htr
      simp only [runs_bind, runs_getNode] at h
      obtain ⟨_, s₂, ⟨rfl, rfl⟩, h⟩ := h
      have hh : n.status = .healthy := by
        cases hs : n.status <;> rw [hs] at hst <;> simp [ControlPlane.transitionNode, allowedNodeTransitions] at hst ⊢
      exact .inr ⟨n, rfl, hh, (runs_pure.mp h).2⟩

/-! ## Status reports -/

/-- The nodes after `releaseNodeCapacity`. -/
def released (s : Store) (nodeID deploymentID : String) : Store :=
  match s.nodes.get nodeID with
  | none => s
  | some n => s.putNode (releasedNode n (s.getDeployment deploymentID))

@[simp] theorem releasedNode_id (n : Node) (d : Except StoreErr Deployment) : (releasedNode n d).id = n.id := by
  cases d <;> rfl

@[simp] theorem releasedNode_status (n : Node) (d : Except StoreErr Deployment) :
    (releasedNode n d).status = n.status := by
  cases d <;> rfl

@[simp] theorem releasedNode_capacity (n : Node) (d : Except StoreErr Deployment) :
    (releasedNode n d).capacity = n.capacity := by
  cases d <;> rfl

theorem releaseNodeCapacity_spec {nodeID deploymentID : String} {u : Unit}
    (h : Runs Exec (releaseNodeCapacity nodeID deploymentID) s u s') : s' = released s nodeID deploymentID := by
  simp only [releaseNodeCapacity, runs_bind, runs_getNode] at h
  obtain ⟨_, s₁, ⟨rfl, rfl⟩, h⟩ := h
  unfold released
  cases hn : s₁.nodes.get nodeID with
  | none =>
    rw [Store.getNode_none hn] at h
    exact (runs_pure.mp h).2
  | some n =>
    have hid : (releasedNode n (s₁.getDeployment deploymentID)).id = nodeID :=
      (releasedNode_id _ _).trans (Table.key_of_get hn)
    rw [Store.getNode_some hn] at h
    simp only [runs_bind, runs_getDeployment, runs_updateNode] at h
    obtain ⟨_, s₂, ⟨rfl, rfl⟩, _, s₃, hupd, h⟩ := h
    rw [Store.updateNode_some (m := n) (by rw [hid]; exact hn)] at hupd
    obtain ⟨rfl, rfl⟩ := Prod.mk.inj hupd
    exact (runs_pure.mp h).2

/-- The pod after an accepted report. -/
def accepted (p : Pod) (req : PodStatusRequest) (now : Time) : Pod :=
  Store.movePod (reported p req) req.status req.error now

/-- The store after an accepted report on pod `p`. -/
def afterReport (s : Store) (nodeID : String) (p : Pod) (req : PodStatusRequest) (now : Time) : Store :=
  if p.status = .running ∧ isPodTerminalish req.status then
    released (s.putPod (accepted p req now)) nodeID p.deploymentID
  else s.putPod (accepted p req now)

@[simp] theorem released_pods (nodeID deploymentID : String) : (released s nodeID deploymentID).pods = s.pods := by
  unfold released
  split <;> rfl

@[simp] theorem released_deployments (nodeID deploymentID : String) :
    (released s nodeID deploymentID).deployments = s.deployments := by
  unfold released
  split <;> rfl

theorem released_nodes_get (nodeID deploymentID k : String) :
    (released s nodeID deploymentID).nodes.get k =
      (s.nodes.get k).map fun n => if k = nodeID then releasedNode n (s.getDeployment deploymentID) else n := by
  unfold released
  cases hn : s.nodes.get nodeID with
  | none =>
    by_cases hk : k = nodeID
    · subst hk; simp [hn]
    · simp [hk]
  | some n =>
    have hid : n.id = nodeID := Table.key_of_get hn
    show (s.nodes.put _).get k = _
    rw [Table.get_put, releasedNode_id, hid]
    by_cases hk : k = nodeID
    · subst hk; simp [hn]
    · simp [hk]

/-- A report that takes a running pod to its end gives capacity back. -/
def releases (p : Pod) (req : PodStatusRequest) : Prop := p.status = .running ∧ isPodTerminalish req.status = true

instance (p : Pod) (req : PodStatusRequest) : Decidable (releases p req) := by
  unfold releases; infer_instance

@[simp] theorem afterReport_pods (nodeID : String) (p : Pod) (req : PodStatusRequest) (now : Time) :
    (afterReport s nodeID p req now).pods = s.pods.put (accepted p req now) := by
  unfold afterReport
  split
  · rw [released_pods]; rfl
  · rfl

@[simp] theorem afterReport_deployments (nodeID : String) (p : Pod) (req : PodStatusRequest) (now : Time) :
    (afterReport s nodeID p req now).deployments = s.deployments := by
  unfold afterReport
  split
  · rw [released_deployments]; rfl
  · rfl

theorem afterReport_nodes_get (nodeID : String) (p : Pod) (req : PodStatusRequest) (now : Time) (k : String) :
    (afterReport s nodeID p req now).nodes.get k = (s.nodes.get k).map fun n =>
      if releases p req ∧ k = nodeID then releasedNode n (s.getDeployment p.deploymentID) else n := by
  unfold afterReport
  by_cases hc : p.status = .running ∧ isPodTerminalish req.status = true
  · have hr : releases p req := hc
    rw [if_pos hc, released_nodes_get]
    simp only [hr, true_and, Store.putPod_nodes]
    rfl
  · have hr : ¬ releases p req := hc
    rw [if_neg hc]
    simp [hr]

/-- A report on a known pod writes exit code and output in any case; the status
moves, and the reporting node's capacity is released, only if the lifecycle allows it. -/
theorem updatePodStatus_spec {nodeID podID : String} {body : Option PodStatusRequest}
    (h : Runs Exec (updatePodStatus nodeID podID body) s r s') :
    ((body = none ∨ s.pods.get podID = none) ∧ s' = s) ∨
      ∃ req p, body = some req ∧ s.pods.get podID = some p ∧
        ((transitionPod p.status req.status = false ∧ r.code = 409 ∧ s' = s.putPod (reported p req)) ∨
          (transitionPod p.status req.status = true ∧ r.code = 200 ∧ ∃ now, s' = afterReport s nodeID p req now)) := by
  cases body with
  | none => exact .inl ⟨.inl rfl, (runs_pure.mp h).2⟩
  | some req =>
    simp only [updatePodStatus, runs_bind, runs_getPod] at h
    obtain ⟨_, s₁, ⟨rfl, rfl⟩, h⟩ := h
    cases hp : s₁.pods.get podID with
    | none =>
      rw [Store.getPod_none hp] at h
      exact .inl ⟨.inr rfl, (runs_pure.mp h).2⟩
    | some p =>
      have hid : p.id = podID := Table.key_of_get hp
      rw [Store.getPod_some hp] at h
      simp only [runs_bind, runs_updatePod] at h
      obtain ⟨_, s₂, hupd, h⟩ := h
      rw [Store.updatePod_some (q := p) (hid ▸ hp)] at hupd
      obtain ⟨rfl, rfl⟩ := Prod.mk.inj hupd
      have hget : (s₁.putPod (reported p req)).pods.get podID = some (reported p req) :=
        hid ▸ Table.get_put_self s₁.pods (reported p req)
      simp only [runs_bind, runs_transitionPod] at h
      obtain ⟨_, s₂, ⟨now, htr⟩, h⟩ := h
      refine .inr ⟨req, p, rfl, rfl, ?_⟩
      cases hst : transitionPod p.status req.status with
      | false =>
        rw [Store.transitionPod_not hget hst] at htr
        obtain ⟨rfl, rfl⟩ := Prod.mk.inj htr
        obtain ⟨rfl, rfl⟩ := runs_pure.mp h
        exact .inl ⟨rfl, rfl, rfl⟩
      | true =>
        rw [Store.transitionPod_of hget hst, Store.putPod_putPod (Store.movePod_id _ _ _ _).symm] at htr
        obtain ⟨rfl, rfl⟩ := Prod.mk.inj htr
        simp only [runs_bind, runs_getPod] at h
        obtain ⟨_, s₂, hrel, _, s₃, ⟨rfl, rfl⟩, h⟩ := h
        obtain ⟨rfl, rfl⟩ := runs_pure.mp h
        refine .inr ⟨rfl, rfl, now, ?_⟩
        unfold afterReport
        split at hrel
        · next hc => rw [if_pos hc]; exact releaseNodeCapacity_spec hrel
        · next hc => rw [if_neg hc]; exact (runs_pure.mp hrel).2

/-! ## Deployments -/

theorem allocateDeployment_spec {req : SubmitDeploymentRequest} {attempts : Nat} {res : Except Response String}
    (h : Runs Exec (allocateDeployment req attempts) s res s') :
    ((∃ resp, res = .error resp) ∧ s' = s) ∨
      ∃ b now, res = .ok (idOf "deploy" b) ∧ s.deployments.get (idOf "deploy" b) = none ∧
        s' = s.putDeployment (newDeployment req (idOf "deploy" b) now) := by
  induction attempts with
  | zero =>
    obtain ⟨rfl, rfl⟩ := runs_pure.mp h
    exact .inl ⟨⟨_, rfl⟩, rfl⟩
  | succ attempts ih =>
    simp only [allocateDeployment, runs_bind, runs_generateID] at h
    obtain ⟨_, s₁, ⟨⟨b, rfl⟩, rfl⟩, h⟩ := h
    cases b with
    | none =>
      obtain ⟨rfl, rfl⟩ := runs_pure.mp h
      exact .inl ⟨⟨_, rfl⟩, rfl⟩
    | some b =>
      simp only [Option.map_some, runs_bind, runs_timeNow, runs_createDeployment] at h
      obtain ⟨now, s₁, rfl, res', s₂, hreg, h⟩ := h
      unfold Store.createDeployment at hreg
      split at hreg
      · obtain ⟨rfl, rfl⟩ := Prod.mk.inj hreg
        exact ih h
      · next hnone =>
        obtain ⟨rfl, rfl⟩ := Prod.mk.inj hreg
        obtain ⟨rfl, rfl⟩ := runs_pure.mp h
        exact .inr ⟨b, now, rfl, by simpa [newDeployment] using hnone, rfl⟩

/-- A submission adds one pending deployment, or nothing. -/
theorem createDeployment_spec {body : Option SubmitDeploymentRequest}
    (h : Runs Exec (createDeployment body) s r s') :
    s' = s ∨ ∃ req b now, body = some req ∧ s.deployments.get (idOf "deploy" b) = none ∧
      s' = s.putDeployment (newDeployment req.withDefaults (idOf "deploy" b) now) := by
  cases body with
  | none => exact .inl (runs_pure.mp h).2
  | some req =>
    simp only [createDeployment] at h
    split at h
    · exact .inl (runs_pure.mp h).2
    · simp only [runs_bind] at h
      obtain ⟨res, s₁, halloc, h⟩ := h
      rcases allocateDeployment_spec halloc with ⟨⟨resp, rfl⟩, rfl⟩ | ⟨b, now, rfl, hnone, rfl⟩
      · exact .inl (runs_pure.mp h).2
      · simp only [runs_bind, runs_getDeployment] at h
        obtain ⟨_, s₂, ⟨rfl, rfl⟩, h⟩ := h
        refine .inr ⟨req, b, now, rfl, hnone, ?_⟩
        split at h <;> exact (runs_pure.mp h).2

theorem cancelDeployment_spec {id : String} (h : Runs Exec (cancelDeployment id) s r s') :
    s' = s ∨ ∃ d now, s.deployments.get id = some d ∧ d.status ≠ .cancelled ∧
      s' = s.putDeployment (Store.moveDeployment d .cancelled now) := by
  simp only [cancelDeployment, runs_bind, runs_getDeployment] at h
  obtain ⟨_, s₁, ⟨rfl, rfl⟩, h⟩ := h
  cases hd : s₁.deployments.get id with
  | none =>
    rw [Store.getDeployment_none hd] at h
    exact .inl (runs_pure.mp h).2
  | some d =>
    rw [Store.getDeployment_some hd] at h
    simp only [runs_bind, runs_transitionDeployment] at h
    obtain ⟨_, s₂, ⟨now, htr⟩, h⟩ := h
    cases hst : transitionDeployment d.status .cancelled with
    | false =>
      rw [Store.transitionDeployment_not hd hst] at htr
      obtain ⟨rfl, rfl⟩ := Prod.mk.inj htr
      exact .inl (runs_pure.mp h).2
    | true =>
      rw [Store.transitionDeployment_of hd hst] at htr
      obtain ⟨rfl, rfl⟩ := Prod.mk.inj htr
      simp only [runs_bind, runs_getDeployment] at h
      obtain ⟨_, s₂, ⟨rfl, rfl⟩, h⟩ := h
      refine .inr ⟨d, now, rfl, ?_, (runs_pure.mp h).2⟩
      intro hc
      rw [hc] at hst
      cases hst

/-! ## Services

The service handlers leave the other three tables alone. -/

def SameCluster (s s' : Store) : Prop :=
  s'.deployments = s.deployments ∧ s'.pods = s.pods ∧ s'.nodes = s.nodes

/-- What follows `UpsertService` in both handlers reads the service back. -/
theorem upsertService_spec {svc : Service} {id : String} {k : Res → M Response}
    {answer : Except StoreErr Service → Response}
    (hk : k (.ok ()) = State.getService id >>= fun found => pure (answer found))
    (h : Runs Exec (State.upsertService svc >>= k) s r s') :
    ∃ now, s' = { s with services := s.services.put { svc with updatedAt := now } } := by
  simp only [runs_bind, runs_upsertService, Store.upsertService] at h
  obtain ⟨_, s₁, ⟨now, hup⟩, h⟩ := h
  obtain ⟨rfl, rfl⟩ := Prod.mk.inj hup
  simp only [hk, runs_bind, runs_getService] at h
  obtain ⟨_, s₂, ⟨rfl, rfl⟩, h⟩ := h
  exact ⟨now, (runs_pure.mp h).2⟩

theorem storeService_stores {svc : Service} (h : Runs Exec (storeService svc) s r s') :
    ∃ now, s' = { s with services := s.services.put { serviceWithDefaults svc with updatedAt := now } } :=
  upsertService_spec rfl h

theorem storeService_spec {svc : Service} (h : Runs Exec (storeService svc) s r s') : SameCluster s s' := by
  obtain ⟨now, rfl⟩ := storeService_stores h
  exact ⟨rfl, rfl, rfl⟩

theorem createService_spec {body : Option Service} (h : Runs Exec (createService body) s r s') :
    SameCluster s s' := by
  cases body with
  | none => obtain ⟨-, rfl⟩ := runs_pure.mp h; exact ⟨rfl, rfl, rfl⟩
  | some svc =>
    simp only [createService] at h
    split at h
    · obtain ⟨-, rfl⟩ := runs_pure.mp h; exact ⟨rfl, rfl, rfl⟩
    · split at h
      · simp only [runs_bind, runs_generateID] at h
        obtain ⟨_, s₁, ⟨⟨b, rfl⟩, rfl⟩, h⟩ := h
        cases b with
        | none => obtain ⟨-, rfl⟩ := runs_pure.mp h; exact ⟨rfl, rfl, rfl⟩
        | some b => exact storeService_spec h
      · exact storeService_spec h

theorem updateService_spec {id : String} {body : Option Service} (h : Runs Exec (updateService id body) s r s') :
    SameCluster s s' := by
  simp only [updateService, runs_bind, runs_getService] at h
  obtain ⟨_, s₁, ⟨rfl, rfl⟩, h⟩ := h
  split at h
  · obtain ⟨-, rfl⟩ := runs_pure.mp h; exact ⟨rfl, rfl, rfl⟩
  · cases body with
    | none => obtain ⟨-, rfl⟩ := runs_pure.mp h; exact ⟨rfl, rfl, rfl⟩
    | some svc =>
      obtain ⟨now, rfl⟩ := upsertService_spec rfl h
      exact ⟨rfl, rfl, rfl⟩

theorem deleteService_spec {id : String} (h : Runs Exec (deleteService id) s r s') : SameCluster s s' := by
  simp only [deleteService, runs_bind, runs_deleteService, Store.deleteService] at h
  obtain ⟨_, s₁, hdel, h⟩ := h
  split at hdel
  · obtain ⟨rfl, rfl⟩ := Prod.mk.inj hdel
    obtain ⟨-, rfl⟩ := runs_pure.mp h
    exact ⟨rfl, rfl, rfl⟩
  · obtain ⟨rfl, rfl⟩ := Prod.mk.inj hdel
    obtain ⟨-, rfl⟩ := runs_pure.mp h
    exact ⟨rfl, rfl, rfl⟩

end ControlPlane.Api
