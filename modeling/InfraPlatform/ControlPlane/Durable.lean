import InfraPlatform.ControlPlane.Identity
import InfraPlatform.ControlPlane.BoltCalls

/-!
# The control plane on `BoltStore`, through crashes

The control plane runs on one database, life after life.  In each life any number of handlers and loops run next to each
other, call by call, and the process may die between any two calls: a call is one bbolt transaction.

* `Event.prog_exact`: on requests that decoding can give, handlers and loops write exact rows, provided that they read
  such rows.
* `bolt_refines`: so all lives together are lives on `MemoryStore`, with the same calls and the same answers, and no
  call fails in bbolt or in `encoding/json`.
* `records_survive`: no crash loses a record or changes what it was made with, and every pod that is read after a
  restart was made from a deployment that can be read as well.
-/

namespace ControlPlane

open Lib Lib.Prog Api BoltStore

variable {B : Engine}

/-! ## Rows that handlers and loops make -/

/-- A map as decoding gives it, in the order of its keys and nil for an empty one. -/
structure ExactMap (m : Labels) : Prop where
  nodup : ((Json.entries m).map Prod.fst).Nodup
  normal : Json.normMap m = m

theorem ExactMap.none : ExactMap none := ⟨List.nodup_nil, rfl⟩

theorem utf8ByteSize_ofList_le (l : List Char) : (String.ofList l).utf8ByteSize ≤ 4 * l.length := by
  induction l with
  | nil => simp
  | cons a l ih =>
    have hcons : String.ofList (a :: l) = String.singleton a ++ String.ofList l := by simp [String.ofList_cons]
    have hsize := Char.utf8Size_le_four a
    rw [hcons, String.utf8ByteSize_append, String.utf8ByteSize_singleton, List.length_cons]
    omega

theorem validKey_idOf {kind : String} (hkind : kind.utf8ByteSize ≤ 32000) (b : UInt8 × UInt8 × UInt8 × UInt8) :
    ValidKey (idOf kind b) := by
  have hhex : (hexEncode [b.1, b.2.1, b.2.2.1, b.2.2.2]).utf8ByteSize ≤ 32 := utf8ByteSize_ofList_le _
  have hsep : ("_" : String).utf8ByteSize = 1 := by decide
  have hsize : (idOf kind b).utf8ByteSize =
      kind.utf8ByteSize + 1 + (hexEncode [b.1, b.2.1, b.2.2.1, b.2.2.2]).utf8ByteSize := by
    rw [idOf, String.utf8ByteSize_append, String.utf8ByteSize_append, hsep]
  refine ⟨fun hempty => ?_, by omega⟩
  rw [hempty, String.utf8ByteSize_empty] at hsize
  omega

theorem exact_deployment {d : Deployment} (hkey : ValidKey d.id) (hmap : ExactMap d.labels)
    (htype : Json.Canonical d.type) (hpolicy : Json.Canonical d.restartPolicy) (hstatus : Json.Canonical d.status)
    (htimes : ∀ t ∈ d.times, B.time.representable t = true) : Exact (deploymentC B) d :=
  ⟨hkey, ⟨hmap.nodup, htype, hpolicy, hstatus, htimes⟩, congrArg (fun m => { d with labels := m }) hmap.normal⟩

theorem exact_pod {p : Pod} (hkey : ValidKey p.id) (hmap : ExactMap p.labels) (hstatus : Json.Canonical p.status)
    (htimes : ∀ t ∈ p.times, B.time.representable t = true) : Exact (podC B) p :=
  ⟨hkey, ⟨hmap.nodup, hstatus, htimes⟩, congrArg (fun m => { p with labels := m }) hmap.normal⟩

theorem exact_node {n : Node} (hkey : ValidKey n.id) (hmap : ExactMap n.labels) (hstatus : Json.Canonical n.status)
    (htimes : ∀ t ∈ n.times, B.time.representable t = true) : Exact (nodeC B) n :=
  ⟨hkey, ⟨hmap.nodup, hstatus, htimes⟩, congrArg (fun m => { n with labels := m }) hmap.normal⟩

theorem exact_service {svc : Service} (hkey : ValidKey svc.id) (hmap : ExactMap svc.selector)
    (hstrategy : Json.Canonical svc.strategy) (htimes : ∀ t ∈ svc.times, B.time.representable t = true) :
    Exact (serviceC B) svc :=
  ⟨hkey, ⟨hmap.nodup, hstrategy, htimes⟩, congrArg (fun m => { svc with selector := m }) hmap.normal⟩

theorem Exact.deploymentMap {d : Deployment} (h : Exact (deploymentC B) d) : ExactMap d.labels :=
  ⟨h.valid.labels, congrArg Deployment.labels h.normal⟩

theorem Exact.podMap {p : Pod} (h : Exact (podC B) p) : ExactMap p.labels :=
  ⟨h.valid.labels, congrArg Pod.labels h.normal⟩

theorem Exact.nodeMap {n : Node} (h : Exact (nodeC B) n) : ExactMap n.labels :=
  ⟨h.valid.labels, congrArg Node.labels h.normal⟩

/-- A copy of a pod with other values where they are never times. -/
theorem Exact.podCopy {p q : Pod} (h : Exact (podC B) p) (hid : q.id = p.id) (hmap : q.labels = p.labels)
    (hstatus : q.status = p.status) (htimes : q.times = p.times) : Exact (podC B) q :=
  exact_pod (hid ▸ h.key) (hmap ▸ h.podMap) (hstatus ▸ h.valid.status) (htimes ▸ h.valid.times)

theorem Exact.nodeCopy {n m : Node} (h : Exact (nodeC B) n) (hid : m.id = n.id) (hmap : m.labels = n.labels)
    (hstatus : m.status = n.status) (htimes : m.times = n.times) : Exact (nodeC B) m :=
  exact_node (hid ▸ h.key) (hmap ▸ h.nodeMap) (hstatus ▸ h.valid.status) (htimes ▸ h.valid.times)

theorem Exact.retried {p : Pod} {t : Time} (h : Exact (podC B) p) (ht : Readable B.time t) :
    Exact (podC B) (Reconciler.retried p t) := by
  refine exact_pod h.key h.podMap h.valid.status fun u hu => ?_
  rw [Pod.times, List.mem_cons, List.mem_append] at hu
  rcases hu with rfl | hu | hu
  · exact h.valid.times _ List.mem_cons_self
  · exact h.valid.times _ (List.mem_cons_of_mem _ (List.mem_append_left _ hu))
  · split at hu
    · cases hu
    · obtain rfl := List.mem_singleton.mp hu
      exact ht.later _

theorem exact_newNode (req : RegisterNodeRequest) {id : String} {t : Time} (hid : ValidKey id)
    (ht : B.time.representable t = true) : Exact (nodeC B) (newNode req id t) :=
  exact_node hid .none rfl fun u hu => by
    obtain rfl : u = t := by simpa [Node.times, newNode] using hu
    exact ht

theorem exact_newPod {d : Deployment} (h : Exact (deploymentC B) d) {id : String} {t : Time} (hid : ValidKey id)
    (ht : B.time.representable t = true) : Exact (podC B) (Reconciler.newPod d id t) :=
  exact_pod hid h.deploymentMap rfl fun u hu => by
    obtain rfl : u = t := by simpa [Pod.times, Reconciler.newPod] using hu
    exact ht

theorem Exact.heartbeatNode {n : Node} (h : Exact (nodeC B) n) (req : NodeHeartbeatRequest) {t : Time}
    (ht : B.time.representable t = true) : Exact (nodeC B) (Api.heartbeatNode n req t) :=
  exact_node h.key h.nodeMap h.valid.status fun u hu => by
    rcases List.mem_cons.mp hu with rfl | hu
    · exact ht
    · exact h.valid.times u (List.mem_cons_of_mem _ hu)

theorem Exact.releasedNode {n : Node} (h : Exact (nodeC B) n) (d : Except StoreErr Deployment) :
    Exact (nodeC B) (Api.releasedNode n d) := by
  cases d with
  | ok d => exact h.nodeCopy rfl rfl rfl rfl
  | error e => exact h.nodeCopy rfl rfl rfl rfl

/-! ## The programs -/

abbrev ExactTo (B : Engine) {α : Type} (h : CallHist) (p : M α) : Prop :=
  Sat (Answered B) (fun _ c => c.Exact B) (fun _ _ => True) h p

section Programs

variable {h : CallHist} {α β : Type}

theorem exact_ask {c : Call} {f : Resp c → M β} (hc : c.Exact B)
    (hf : ∀ r, Answered B c r → ExactTo B (h ++ [⟨c, r⟩]) (f r)) : ExactTo B h (ask c >>= f) := ⟨hc, hf⟩

theorem exact_transitionPod {id msg : String} {dest : PodStatus} {f : Res → M β} (hf : ∀ r h', ExactTo B h' (f r)) :
    ExactTo B h (State.transitionPod id dest msg >>= f) := ⟨trivial, fun _ ht => ⟨ht.now, fun r _ => hf r _⟩⟩

theorem exact_transitionDeployment {id : String} {dest : DeploymentStatus} {f : Res → M β}
    (hf : ∀ r h', ExactTo B h' (f r)) : ExactTo B h (State.transitionDeployment id dest >>= f) :=
  ⟨trivial, fun _ ht => ⟨ht.now, fun r _ => hf r _⟩⟩

theorem exact_generateID {kind : String} {f : Option String → M β} (hkind : kind.utf8ByteSize ≤ 32000)
    (hnone : ∀ h', ExactTo B h' (f none)) (hsome : ∀ id h', ValidKey id → ExactTo B h' (f (some id))) :
    ExactTo B h (generateID kind >>= f) := by
  refine ⟨trivial, fun r _ => ?_⟩
  cases r with
  | none => exact hnone _
  | some b => exact hsome _ _ (validKey_idOf hkind b)

/-! ### Nodes -/

theorem allocateNode_exact (req : RegisterNodeRequest) (attempts : Nat) : ExactTo B h (allocateNode req attempts) := by
  induction attempts generalizing h with
  | zero => trivial
  | succ attempts ih =>
    refine exact_generateID (by decide) (fun _ => trivial) fun id h₁ hid => ?_
    refine exact_ask (c := .now) trivial fun t ht => ?_
    refine exact_ask (c := .registerNode (newNode req id t)) (exact_newNode req hid ht.now) fun r _ => ?_
    cases r with
    | ok _ => trivial
    | error _ => exact ih

theorem registerNode_exact (body : Option RegisterNodeRequest) : ExactTo B h (Api.registerNode body) := by
  cases body with
  | none => trivial
  | some req =>
    unfold Api.registerNode
    simp only
    split
    · trivial
    · refine sat_bind_grows (allocateNode_exact req _) fun r h₁ _ => ?_
      cases r with
      | error resp => trivial
      | ok id =>
        refine exact_ask (c := .transitionNode id .healthy) trivial fun r _ => ?_
        cases r with
        | error e => trivial
        | ok _ =>
          refine exact_ask (c := .getNode id) trivial fun r _ => ?_
          cases r <;> trivial

theorem heartbeat_exact {now : Time} (hnow : B.time.representable now = true) (id : String)
    (req : NodeHeartbeatRequest) : ExactTo B h (Api.heartbeat now id req) := by
  refine exact_ask (c := .getNode id) trivial fun r hr => ?_
  cases r with
  | error e => trivial
  | ok node =>
    have hnode := (hr node rfl).heartbeatNode req hnow
    refine exact_ask (c := .updateNode (heartbeatNode node req now)) hnode fun r _ => ?_
    cases r with
    | error e => trivial
    | ok _ =>
      simp only
      split
      · refine exact_ask (c := .transitionNode id .healthy) trivial fun r _ => ?_
        cases r <;> trivial
      · trivial

theorem pollPods_exact (id : String) : ExactTo B h (pollPods id) := by
  refine exact_ask (c := .getNode id) trivial fun r _ => ?_
  cases r with
  | error e => trivial
  | ok node =>
    refine exact_ask (c := .listPodsByNode id) trivial fun r _ => ?_
    cases r <;> trivial

theorem drainNode_exact (id : String) : ExactTo B h (drainNode id) := by
  refine exact_ask (c := .getNode id) trivial fun r _ => ?_
  cases r with
  | error e => trivial
  | ok node =>
    refine exact_ask (c := .transitionNode id .draining) trivial fun r _ => ?_
    cases r with
    | error e => cases e <;> trivial
    | ok _ => exact exact_ask (c := .getNode id) trivial fun _ _ => trivial

theorem releaseNodeCapacity_exact (nodeID deploymentID : String) :
    ExactTo B h (releaseNodeCapacity nodeID deploymentID) := by
  refine exact_ask (c := .getNode nodeID) trivial fun r hr => ?_
  cases r with
  | error e => trivial
  | ok node =>
    refine exact_ask (c := .getDeployment deploymentID) trivial fun d _ => ?_
    exact exact_ask (c := .updateNode (releasedNode node d)) ((hr node rfl).releasedNode d) fun _ _ => trivial

/-! ### Reports -/

theorem updatePodStatus_exact (nodeID podID : String) (body : Option PodStatusRequest) :
    ExactTo B h (updatePodStatus nodeID podID body) := by
  cases body with
  | none => trivial
  | some req =>
    refine exact_ask (c := .getPod podID) trivial fun r hr => ?_
    cases r with
    | error e => trivial
    | ok pod =>
      have hpod : Exact (podC B) (reported pod req) := (hr pod rfl).podCopy rfl rfl rfl rfl
      refine exact_ask (c := .updatePod (reported pod req)) hpod fun r _ => ?_
      cases r with
      | error e => trivial
      | ok _ =>
        refine exact_transitionPod fun r h' => ?_
        cases r with
        | error e => cases e <;> trivial
        | ok _ =>
          refine sat_bind_grows ?_ fun _ h'' _ => exact_ask (c := .getPod podID) trivial fun _ _ => trivial
          split
          · exact releaseNodeCapacity_exact nodeID _
          · trivial

/-! ### Deployments and services -/

/-- What decoding a submission gives. -/
structure SubmitExact (req : SubmitDeploymentRequest) : Prop where
  labels : ExactMap req.labels
  type : Json.Canonical req.type
  restartPolicy : Json.Canonical req.restartPolicy

theorem SubmitExact.withDefaults {req : SubmitDeploymentRequest} (h : SubmitExact req) :
    SubmitExact req.withDefaults := by
  refine ⟨h.labels, ?_, ?_⟩
  · change Json.Canonical (if req.type = .other "" then .batch else req.type)
    split
    · rfl
    · exact h.type
  · change Json.Canonical (if req.restartPolicy = .other "" then .onFailure else req.restartPolicy)
    split
    · rfl
    · exact h.restartPolicy

theorem exact_newDeployment {req : SubmitDeploymentRequest} (h : SubmitExact req) {id : String} {t : Time}
    (hid : ValidKey id) (ht : B.time.representable t = true) : Exact (deploymentC B) (newDeployment req id t) :=
  exact_deployment hid h.labels h.type h.restartPolicy rfl fun u hu => by
    obtain rfl : u = t := by simpa [Deployment.times, newDeployment] using hu
    exact ht

theorem allocateDeployment_exact {req : SubmitDeploymentRequest} (hreq : SubmitExact req) (attempts : Nat) :
    ExactTo B h (allocateDeployment req attempts) := by
  induction attempts generalizing h with
  | zero => trivial
  | succ attempts ih =>
    refine exact_generateID (by decide) (fun _ => trivial) fun id h₁ hid => ?_
    refine exact_ask (c := .now) trivial fun t ht => ?_
    have hnew := exact_newDeployment hreq hid ht.now
    refine exact_ask (c := .createDeployment (newDeployment req id t)) hnew fun r _ => ?_
    cases r with
    | ok _ => trivial
    | error _ => exact ih

theorem createDeployment_exact {body : Option SubmitDeploymentRequest}
    (hbody : ∀ req, body = some req → SubmitExact req) : ExactTo B h (Api.createDeployment body) := by
  cases body with
  | none => trivial
  | some req =>
    unfold Api.createDeployment
    simp only
    split
    · trivial
    · refine sat_bind_grows (allocateDeployment_exact (hbody req rfl).withDefaults _) fun r h₁ _ => ?_
      cases r with
      | error resp => trivial
      | ok id =>
        refine exact_ask (c := .getDeployment id) trivial fun r _ => ?_
        cases r <;> trivial

theorem cancelDeployment_exact (id : String) : ExactTo B h (cancelDeployment id) := by
  refine exact_ask (c := .getDeployment id) trivial fun r _ => ?_
  cases r with
  | error e => trivial
  | ok d =>
    refine exact_transitionDeployment fun r h₁ => ?_
    cases r with
    | error e => cases e <;> trivial
    | ok _ => exact exact_ask (c := .getDeployment id) trivial fun _ _ => trivial

/-- What decoding a service gives. -/
structure ServiceExact (svc : Service) : Prop where
  selector : ExactMap svc.selector
  strategy : Json.Canonical svc.strategy

theorem exact_upsertService {svc : Service} {f : Res → M β} (hkey : ValidKey svc.id) (hsvc : ServiceExact svc)
    (hf : ∀ r h', ExactTo B h' (f r)) : ExactTo B h (State.upsertService svc >>= f) := by
  refine ⟨trivial, fun t ht => ⟨?_, fun r _ => hf r _⟩⟩
  refine exact_service hkey hsvc.selector hsvc.strategy fun u hu => ?_
  obtain rfl := List.mem_singleton.mp hu
  exact ht.now

theorem storeService_exact {svc : Service} (hkey : ValidKey svc.id) (hsvc : ServiceExact svc) :
    ExactTo B h (storeService svc) := by
  have hdefaults : ServiceExact (serviceWithDefaults svc) := by
    refine ⟨hsvc.selector, ?_⟩
    change Json.Canonical (if svc.strategy = .other "" then .roundRobin else svc.strategy)
    split
    · rfl
    · exact hsvc.strategy
  refine exact_upsertService hkey hdefaults fun r h₁ => ?_
  cases r with
  | error e => trivial
  | ok _ => exact exact_ask (c := .getService svc.id) trivial fun _ _ => trivial

theorem createService_exact {body : Option Service}
    (hbody : ∀ svc, body = some svc → ServiceExact svc ∧ (svc.id = "" ∨ ValidKey svc.id)) :
    ExactTo B h (Api.createService body) := by
  cases body with
  | none => trivial
  | some svc =>
    obtain ⟨hsvc, hid⟩ := hbody svc rfl
    unfold Api.createService
    simp only
    split
    · trivial
    · split
      · exact exact_generateID (by decide) (fun _ => trivial) fun id h₁ hid =>
          storeService_exact hid ⟨hsvc.selector, hsvc.strategy⟩
      · next hne => exact storeService_exact (hid.resolve_left hne) hsvc

/-- The service is there, so its ID is a key. -/
theorem updateService_exact (id : String) {body : Option Service} (hbody : ∀ svc, body = some svc → ServiceExact svc) :
    ExactTo B h (Api.updateService id body) := by
  refine exact_ask (c := .getService id) trivial fun r hr => ?_
  cases r with
  | error e => trivial
  | ok old =>
    have hkey : ValidKey id := (hr old rfl).2 ▸ (hr old rfl).1.key
    cases body with
    | none => trivial
    | some svc =>
      have hsvc := hbody svc rfl
      refine exact_upsertService hkey ⟨hsvc.selector, hsvc.strategy⟩ fun r h₁ => ?_
      cases r with
      | error e => trivial
      | ok _ => exact exact_ask (c := .getService id) trivial fun _ _ => trivial

theorem deleteService_exact (id : String) : ExactTo B h (Api.deleteService id) := by
  refine exact_ask (c := .deleteService id) trivial fun r _ => ?_
  cases r with
  | error e => cases e <;> trivial
  | ok _ => trivial

/-! ### The loops -/

namespace Scheduler

theorem dispatch_exact {pass : Pass} {p : Pod} {n : Node} (required : ResourceRequest) (hp : Exact (podC B) p)
    (hnodes : ∀ m ∈ pass.nodes, Exact (nodeC B) m) (hn : Exact (nodeC B) n) :
    Sat (Answered B) (fun _ c => c.Exact B) (fun _ pass => ∀ m ∈ pass.nodes, Exact (nodeC B) m) h
      (dispatch pass p n required) := by
  have hreserved : Exact (nodeC B) (reserve n required) := hn.nodeCopy rfl rfl rfl rfl
  refine ⟨hp.podCopy rfl rfl rfl rfl, fun r _ => ?_⟩
  cases r with
  | error e => exact hnodes
  | ok _ =>
    refine ⟨trivial, fun t ht => ⟨ht.now, fun r _ => ?_⟩⟩
    cases r with
    | error e => exact hnodes
    | ok _ =>
      refine ⟨hreserved, fun _ _ m hm => ?_⟩
      obtain ⟨m₀, hm₀, rfl⟩ := List.mem_map.mp hm
      split
      · exact hreserved
      · exact hnodes m₀ hm₀

theorem schedulePod_exact (now : Time) {pass : Pass} {p : Pod} (hp : Exact (podC B) p)
    (hnodes : ∀ m ∈ pass.nodes, Exact (nodeC B) m) :
    Sat (Answered B) (fun _ c => c.Exact B) (fun _ pass => ∀ m ∈ pass.nodes, Exact (nodeC B) m) h
      (schedulePod now pass p) := by
  unfold schedulePod
  split
  · exact hnodes
  · refine sat_bind (sat_ask (c := .getDeployment p.deploymentID) trivial fun d _ => ?_)
    simp only
    split
    · exact hnodes
    · next n hsel => exact dispatch_exact _ hp hnodes (hnodes n (selectNode_qualifies hsel).1)

theorem tick_exact (now : Time) : ExactTo B h (tick now) := by
  refine exact_ask (c := .listPodsByStatus .pending) trivial fun r hpods => ?_
  cases r with
  | error e => trivial
  | ok listed =>
    refine exact_ask (c := .listNodes) trivial fun r hnodes => ?_
    cases r with
    | error e => trivial
    | ok nodes =>
      refine sat_bind (sat_foldlM
        (fun rest pass _ => (∀ p ∈ rest, Exact (podC B) p) ∧ ∀ m ∈ pass.nodes, Exact (nodeC B) m)
        (fun p rest pass h hI => ?_) ⟨fun p hp => ?_, hnodes nodes rfl⟩ fun pass h _ => ?_)
      · obtain ⟨hrest, hpass⟩ := hI
        rw [List.forall_mem_cons] at hrest
        exact (schedulePod_exact now hrest.1 hpass).mono (fun _ _ hc => hc) fun _ _ hpass' => ⟨hrest.2, hpass'⟩
      · exact hpods listed rfl p ((sortByCreatedAt_perm listed).mem_iff.mp hp)
      · exact exact_ask (c := .now) trivial fun _ _ => trivial

end Scheduler

namespace Reconciler

theorem createReplica_exact {d : Deployment} (hd : Exact (deploymentC B) d) : ExactTo B h (createReplica d) := by
  refine exact_generateID (by decide) (fun _ => trivial) fun id h₁ hid => ?_
  refine exact_ask (c := .now) trivial fun t ht => ?_
  exact exact_ask (c := .createPod (newPod d id t)) (exact_newPod hd hid ht.now) fun _ _ => trivial

theorem reconcileReplicas_exact {d : Deployment} (pods : List Pod) (hd : Exact (deploymentC B) d) :
    ExactTo B h (reconcileReplicas d pods) := by
  unfold reconcileReplicas
  split
  · exact sat_forM_grows fun _ _ _ _ => createReplica_exact hd
  · split
    · exact sat_forM_grows fun _ _ _ _ => exact_transitionPod fun _ _ => trivial
    · trivial

theorem reconcileHealth_exact (d : Deployment) (b : Bool) : ExactTo B h (reconcileHealth d b) := by
  unfold reconcileHealth
  split
  · exact exact_transitionDeployment fun _ _ => trivial
  · split
    · exact exact_transitionDeployment fun _ _ => trivial
    · trivial

theorem activate_exact {d : Deployment} (hd : Exact (deploymentC B) d) :
    Sat (Answered B) (fun _ c => c.Exact B) (fun _ d' => ∀ w, d' = some w → Exact (deploymentC B) w) h
      (activate d) := by
  unfold activate
  split
  · refine ⟨trivial, fun t ht => ⟨ht.now, fun r _ => ?_⟩⟩
    cases r with
    | error e => exact fun w hw => by cases hw
    | ok _ =>
      intro w hw
      obtain rfl := Option.some.inj hw
      exact exact_deployment hd.key hd.deploymentMap hd.valid.type hd.valid.restartPolicy rfl hd.valid.times
  · intro w hw
    obtain rfl := Option.some.inj hw
    exact hd

theorem reconcileDeployment_exact {d : Deployment} (hd : Exact (deploymentC B) d) :
    ExactTo B h (reconcileDeployment d) := by
  unfold reconcileDeployment
  split
  · trivial
  · refine sat_bind ((activate_exact hd).mono (fun _ _ hc => hc) fun h₁ d' hd' => ?_)
    cases d' with
    | none => trivial
    | some w =>
      refine exact_ask (c := .listPodsByDeployment w.id) trivial fun r _ => ?_
      cases r with
      | error e => trivial
      | ok pods =>
        exact sat_bind_grows (reconcileReplicas_exact pods (hd' w rfl)) fun _ _ _ => reconcileHealth_exact w _

theorem reconcileDeployments_exact : ExactTo B h reconcileDeployments := by
  refine exact_ask (c := .listDeployments) trivial fun r hr => ?_
  cases r with
  | error e => trivial
  | ok ds => exact sat_forM_grows fun d hd _ _ => reconcileDeployment_exact (hr ds rfl d hd)

theorem requeueOrphan_exact {p : Pod} (hp : Exact (podC B) p) : ExactTo B h (requeueOrphan p) := by
  refine exact_ask (c := .updatePod (unassigned p)) (hp.podCopy rfl rfl rfl rfl) fun r _ => ?_
  cases r with
  | error e => trivial
  | ok _ => exact exact_transitionPod fun _ _ => trivial

theorem retryPod_exact {p : Pod} (hp : Exact (podC B) p) : ExactTo B h (retryPod p) := by
  refine exact_ask (c := .now) trivial fun t ht => ?_
  refine exact_ask (c := .updatePod (retried p t)) (hp.retried ht) fun r _ => ?_
  cases r with
  | error e => trivial
  | ok _ =>
    refine exact_transitionPod fun r _ => ?_
    cases r with
    | error e => trivial
    | ok _ => exact exact_transitionPod fun _ _ => exact_transitionPod fun _ _ => trivial

theorem deadLetterPod_exact {p : Pod} (hp : Exact (podC B) p) : ExactTo B h (deadLetterPod p) := by
  refine exact_ask (c := .updatePod (exhausted p)) (hp.podCopy rfl rfl rfl rfl) fun r _ => ?_
  cases r with
  | error e => trivial
  | ok _ =>
    refine exact_transitionPod fun r _ => ?_
    cases r with
    | error e => trivial
    | ok _ => exact exact_transitionPod fun _ _ => trivial

theorem reschedulePod_exact {p : Pod} (hp : Exact (podC B) p) : ExactTo B h (reschedulePod p) := by
  unfold reschedulePod
  split
  · exact requeueOrphan_exact hp
  · split
    · trivial
    · refine exact_ask (c := .getDeployment p.deploymentID) trivial fun d _ => ?_
      simp only
      split
      · exact retryPod_exact hp
      · exact deadLetterPod_exact hp

theorem giveUpNode_exact (n : Node) (dest : NodeStatus) : ExactTo B h (giveUpNode n dest) := by
  refine exact_ask (c := .transitionNode n.id dest) trivial fun r _ => ?_
  cases r with
  | error e => trivial
  | ok _ =>
    refine exact_ask (c := .listPodsByNode n.id) trivial fun r hr => ?_
    cases r with
    | error e => trivial
    | ok pods => exact sat_forM_grows fun p hp _ _ => reschedulePod_exact (hr pods rfl p hp)

theorem tick_exact (timeout : Duration) (now : Time) : ExactTo B h (tick timeout now) := by
  refine sat_bind_grows reconcileDeployments_exact fun _ _ _ => ?_
  refine exact_ask (c := .listNodes) trivial fun r _ => ?_
  cases r with
  | error e => trivial
  | ok nodes =>
    refine sat_forM_grows fun n _ _ _ => ?_
    unfold detectUnhealthyNode
    split
    · exact giveUpNode_exact n _
    · split
      · exact giveUpNode_exact n _
      · trivial

end Reconciler

/-! ### Every event -/

/-- Requests as decoding gives them, at times that JSON can represent. -/
def Event.Exact (B : Engine) : Event → Prop
  | .heartbeat now _ _ => B.time.representable now = true
  | .submit (some req) => SubmitExact req
  | .createService (some svc) => ServiceExact svc ∧ (svc.id = "" ∨ ValidKey svc.id)
  | .updateService _ (some svc) => ServiceExact svc
  | _ => True

theorem Event.prog_exact {e : Event} (he : e.Exact B) (timeout : Duration) : ExactTo B h (e.prog timeout) := by
  have hanswer {p : M Response} (hp : ExactTo B h p) : ExactTo B h (do pure (some (← p))) :=
    sat_bind_grows hp fun _ _ _ => trivial
  cases e with
  | register body => exact hanswer (registerNode_exact body)
  | heartbeat now node req => exact hanswer (heartbeat_exact he node req)
  | poll node => exact hanswer (pollPods_exact node)
  | report node pod body => exact hanswer (updatePodStatus_exact node pod body)
  | drain node => exact hanswer (drainNode_exact node)
  | submit body =>
    refine hanswer (createDeployment_exact fun req hreq => ?_)
    subst hreq
    exact he
  | cancel deployment => exact hanswer (cancelDeployment_exact deployment)
  | createService body =>
    refine hanswer (createService_exact fun svc hsvc => ?_)
    subst hsvc
    exact he
  | updateService id body =>
    refine hanswer (updateService_exact id fun svc hsvc => ?_)
    subst hsvc
    exact he
  | deleteService id => exact hanswer (deleteService_exact id)
  | schedulerTick now => exact sat_bind_grows (Scheduler.tick_exact now) fun _ _ _ => trivial
  | reconcilerTick now => exact sat_bind_grows (Reconciler.tick_exact timeout now) fun _ _ _ => trivial

end Programs

/-! ## The lives of the control plane -/

section Lives

variable {ι : Type} [DecidableEq ι] {timeout : Duration} {e : Nat → ι → Event}

/-- A step of a life on the database. -/
abbrev BoltStep (ι : Type) (B : Engine) := Step (Config ι Call Resp (Option Response) (DB B)) (ι × (Σ c : Call, Resp c))

/-- **Refinement.**  Whatever is under way in each life, and wherever each life ends, the database goes through the
states of a `MemoryStore` that gets the same calls from the same handlers and loops, gives the same answers and outlives
the crashes; and every call in the next life is answered, by no error but those of `MemoryStore`. -/
theorem bolt_refines {trs : List (List (BoltStep ι B))} {db : DB B} (hclock : ∃ t, Readable B.time t)
    (he : ∀ n i, (e n i).Exact B)
    (h : Lives (BoltExec B) (fun n i => (e n i).prog timeout) BoltStore.new trs db) :
    (∃ trs₀ s, Lives Exec (fun n i => (e n i).prog timeout) {} trs₀ s ∧
      List.Forall₂ (List.Forall₂ (Alike Sim)) trs₀ trs ∧ Sim s db) ∧
    ∀ tr cfg, Run (Config.Next (BoltExec B)) (Config.start db fun i => (e trs.length i).prog timeout) tr cfg →
      ∀ i c k past, cfg.threads i = ⟨.call c k, past⟩ → ∃ r db', BoltExec B c cfg.state r db' := by
  have hF := bolt_standsIn hclock
  have hP (n : Nat) (i : ι) : ExactTo B [] ((e n i).prog timeout) := Event.prog_exact (he n i) timeout
  obtain ⟨trs₀, s, hlives, htrs, hs⟩ := h.simulate hF hP .new
  have hsim : List.Forall₂ (List.Forall₂ (Alike Sim)) trs₀ trs :=
    htrs.imp fun _ _ htr => htr.imp fun _ _ hx => ⟨hx.label, hx.src.toSim, hx.dst.toSim⟩
  refine ⟨⟨trs₀, s, hlives, hsim, hs.toSim⟩, fun tr cfg hrun i c k past hi => ?_⟩
  exact Run.answered hF (hP trs.length) hs hrun hi

/-! ### What outlives a crash -/

theorem bget_ok_iff {α : Type} {C : RowCodec B.json.Raw α} {bucket : BucketName} {db : DB B} {t : Table C.key}
    (h : Holds C B.buckets t (db bucket)) (hx : AllExact C t) {id : String} {a : α} :
    bget C db bucket id = .ok a ↔ t.get id = some a := by
  cases hk : t.get id with
  | none =>
    rw [bget_missing h hk]
    simp
  | some b =>
    rw [bget_found h hk, (hx id b hk).normal]
    simp

/-- What the database has at one moment it still has at another, with the same specification. -/
structure Outlives (db db' : DB B) : Prop where
  deployments : ∀ id d, getDeployment id db = .ok d → ∃ d', getDeployment id db' = .ok d' ∧ d'.spec = d.spec
  pods : ∀ id p, getPod id db = .ok p → ∃ p', getPod id db' = .ok p' ∧ p'.spec = p.spec
  nodes : ∀ id n, getNode id db = .ok n → ∃ n', getNode id db' = .ok n' ∧ n'.spec = n.spec

theorem Mirrors.outlives {s s' : Store} {db db' : DB B} (h : Mirrors s db) (h' : Mirrors s' db')
    (hk : SpecsKept s s') : Outlives db db' := by
  refine ⟨fun id d hd => ?_, fun id p hp => ?_, fun id n hn => ?_⟩
  · obtain ⟨d', hd', hspec⟩ := hk.deployments id d ((bget_ok_iff h.deployments h.exactDeployments).mp hd)
    exact ⟨d', (bget_ok_iff h'.deployments h'.exactDeployments).mpr hd', hspec⟩
  · obtain ⟨p', hp', hspec⟩ := hk.pods id p ((bget_ok_iff h.pods h.exactPods).mp hp)
    exact ⟨p', (bget_ok_iff h'.pods h'.exactPods).mpr hp', hspec⟩
  · obtain ⟨n', hn', hspec⟩ := hk.nodes id n ((bget_ok_iff h.nodes h.exactNodes).mp hn)
    exact ⟨n', (bget_ok_iff h'.nodes h'.exactNodes).mpr hn', hspec⟩

/-- **No crash loses a record.**  What the database holds after any call of any life can be read after all later
crashes, with the specification it had, and every pod that can be read was made from a deployment that can be read. -/
theorem records_survive {trs : List (List (BoltStep ι B))} {db : DB B} (hclock : ∃ t, Readable B.time t)
    (he : ∀ n i, (e n i).Exact B)
    (h : Lives (BoltExec B) (fun n i => (e n i).prog timeout) BoltStore.new trs db) :
    (∀ tr ∈ trs, ∀ x ∈ tr, Outlives x.dst.state db) ∧
    ∀ id p, getPod id db = .ok p → ∃ d, getDeployment p.deploymentID db = .ok d ∧ p.MadeFrom d := by
  have hP (n : Nat) (i : ι) : ExactTo B [] ((e n i).prog timeout) := Event.prog_exact (he n i) timeout
  obtain ⟨trs₀, s, hlives, htrs, hs⟩ := h.simulate (bolt_standsIn hclock) hP .new
  obtain ⟨hsound, hkept⟩ := hlives.keeps Sound SpecsKept .refl (fun _ _ _ => .trans)
    (fun n s₁ tr cfg hs₁ hrun => (consistent_steps hs₁ hrun).imp Consistent.sound id) sound_empty
  refine ⟨fun tr htr x hx => ?_, fun id p hp => ?_⟩
  · -- the same moment on the `MemoryStore`
    obtain ⟨tr₀, htr₀, hsteps⟩ := exists_of_forall₂ htrs htr
    obtain ⟨x₀, hx₀, halike⟩ := exists_of_forall₂ hsteps hx
    exact halike.dst.outlives hs (hkept tr₀ htr₀ x₀ hx₀)
  · obtain ⟨d, hd, hmade⟩ := hsound.pods id p ((bget_ok_iff hs.pods hs.exactPods).mp hp)
    exact ⟨d, (bget_ok_iff hs.deployments hs.exactDeployments).mpr hd, hmade⟩

theorem run_lives {clock : Time} (hclock : Readable B.time clock) (he : ∀ n i, (e n i).Exact B)
    {trs : List (List (BoltStep ι B))} {db : DB B}
    (h : Lives (BoltExec B) (fun n i => (e n i).prog timeout) BoltStore.new trs db) (schedule : List ι) :
    ∃ tr, Lives (BoltExec B) (fun n i => (e n i).prog timeout) BoltStore.new (trs ++ [tr])
      ((Config.start db fun i => (e trs.length i).prog timeout).applyAll (BoltStore.exec clock) schedule).state := by
  have hF := bolt_standsIn (B := B) ⟨clock, hclock⟩
  have hP (n : Nat) (i : ι) : ExactTo B [] ((e n i).prog timeout) := Event.prog_exact (he n i) timeout
  obtain ⟨-, s, -, -, hs⟩ := h.simulate hF hP .new
  obtain ⟨tr, hrun⟩ := Run.of_schedule hF (hP trs.length) hs (BoltStore.exec clock)
    (fun c s db hm hc => exec_boltExec hclock (hF.answers hm hc)) schedule
  exact ⟨tr, h.snoc hrun⟩

end Lives

/-! A deployment gets its pod; the process dies when the scheduler has assigned the pod and not yet moved it, and the
next life takes it from there. -/

theorem backoff_bounds (attempt : Int) :
    (-2 ^ 63 : Int) ≤ Reconciler.backoff attempt ∧ (60 * 1000000000 : Int) ≥ Reconciler.backoff attempt := by
  unfold Reconciler.backoff
  simp only
  split
  · exact ⟨by decide, le_rfl⟩
  · next hle => exact ⟨Int.le_bmod (by decide), not_lt.mp hle⟩

/-- Trees as their own text, the years 1 to 9999 in decimal, tables as buckets. -/
def decimalEngine : Engine where
  json := plainEngine.json
  time := {
    representable := fun t => decide (0 ≤ t ∧ t < 3652059 * 86400 * 1000000000)
    format := fun t => t.toNat.repr
    parse := fun text => some (Nat.ofDigitChars 10 text.toList 0)
    parse_format := fun t ht => by
      rw [Nat.toList_repr, Nat.ofDigitChars_toDigits (by decide) (by decide),
        Int.toNat_of_nonneg (of_decide_eq_true ht).1] }
  buckets := Buckets.ofTables _ _

theorem readable_decimal {t : Int} (hlow : 2 ^ 63 ≤ t) (hhigh : t < 3652058 * 86400 * 1000000000) :
    Readable decimalEngine.time t := by
  have hrange (u : Int) (hu : 0 ≤ u) (hu' : u < 3652059 * 86400 * 1000000000) :
      decimalEngine.time.representable u = true := decide_eq_true ⟨hu, hu'⟩
  refine ⟨hrange t (by omega) (by omega), fun attempt => ?_⟩
  obtain ⟨h1, h2⟩ := backoff_bounds attempt
  exact hrange _ (by omega) (by omega)

def twoLives (n i : Nat) : Event :=
  if n = 0 then
    ([.register (some { address := "a:1", capacity := { cpu := 4, memoryMB := 100 } }),
      .submit (some { name := "web", command := "run", resources := { cpu := 1, memoryMB := 40 } }),
      .reconcilerTick 0, .schedulerTick 0] : List Event).getD i (.poll "")
  else .schedulerTick 0

def midday : Time := 700000 * 86400 * second

/-- The database when the first life ends. -/
def interrupted : DB decimalEngine :=
  ((Config.start BoltStore.new fun i => (twoLives 0 i).prog (15 * second)).applyAll (BoltStore.exec midday)
    ([0, 1, 2].flatMap (List.replicate 12) ++ [3, 3, 3, 3])).state

/-- The database when the second life ends. -/
def resumed : DB decimalEngine :=
  ((Config.start interrupted fun i => (twoLives 1 i).prog (15 * second)).applyAll (BoltStore.exec midday)
    (List.replicate 8 0)).state

theorem twoLives_exact (n i : Nat) : (twoLives n i).Exact decimalEngine := by
  unfold twoLives
  split
  · rcases i with _ | _ | _ | _ | i
    · trivial
    · exact ⟨.none, rfl, rfl⟩
    · trivial
    · trivial
    · trivial
  · trivial

theorem readable_midday : Readable decimalEngine.time midday := readable_decimal (by decide) (by decide)

theorem lives_resumed : ∃ tr tr', Lives (BoltExec decimalEngine) (fun n i => (twoLives n i).prog (15 * second))
    BoltStore.new [tr, tr'] resumed := by
  obtain ⟨tr, h⟩ := run_lives readable_midday twoLives_exact .nil
    ([0, 1, 2].flatMap (List.replicate 12) ++ [3, 3, 3, 3])
  obtain ⟨tr', h'⟩ := run_lives readable_midday twoLives_exact h (List.replicate 8 0)
  exact ⟨tr, tr', h'⟩

theorem bolt_refines_resumed :
    ((getPod "pod_00000002" interrupted).map Pod.status) = .ok .pending ∧
    ((getPod "pod_00000002" resumed).map Pod.status) = .ok .scheduled ∧
    ∃ (tr tr' : List (BoltStep Nat decimalEngine)) (trs₀ : List (List (CallStep Nat))) (s : Store),
      Lives Exec (fun n i => (twoLives n i).prog (15 * second)) {} trs₀ s ∧
      List.Forall₂ (List.Forall₂ (Alike Sim)) trs₀ [tr, tr'] ∧ Sim s resumed := by
  refine ⟨by decide +kernel, by decide +kernel, ?_⟩
  obtain ⟨tr, tr', h⟩ := lives_resumed
  exact ⟨tr, tr', (bolt_refines ⟨midday, readable_midday⟩ twoLives_exact h).1⟩

theorem records_survive_resumed :
    ∃ tr tr', Lives (BoltExec decimalEngine) (fun n i => (twoLives n i).prog (15 * second)) BoltStore.new [tr, tr']
        resumed ∧
      (∀ x ∈ tr, Outlives x.dst.state resumed) ∧
      ∃ p d, getPod "pod_00000002" resumed = .ok p ∧ getDeployment p.deploymentID resumed = .ok d ∧ p.MadeFrom d := by
  obtain ⟨tr, tr', h⟩ := lives_resumed
  obtain ⟨hout, hmade⟩ := records_survive ⟨midday, readable_midday⟩ twoLives_exact h
  have hpod : (getPod "pod_00000002" resumed).isOk = true := by decide +kernel
  cases hp : getPod "pod_00000002" resumed with
  | error err =>
    rw [hp] at hpod
    cases hpod
  | ok p =>
    obtain ⟨d, hd, hfrom⟩ := hmade _ p hp
    exact ⟨tr, tr', h, hout tr List.mem_cons_self, p, d, rfl, hd, hfrom⟩

end ControlPlane
