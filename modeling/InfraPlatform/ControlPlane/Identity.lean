import InfraPlatform.ControlPlane.Lifecycle
import InfraPlatform.ControlPlane.Timestamps

/-!
# Records keep what they are

Requests and passes that run call by call next to each other write records back whole, from copies that may be old.
An old copy brings back an old status or an old count (`stale_update_revives`), but never another record.

* `Deployment.spec`, `Pod.spec`, `Node.spec`: the fields that no handler and no loop assigns once the record is there.
* `Copying`: what a program writes back is a copy of what it has read, apart from the other fields; a pod is made from
  a deployment that it has read, and a request is checked before it is stored.
* `records_keep_specs`: so in every interleaving a record that was stored once stays, with the same fields, and every
  pod carries the template of its deployment.
-/

namespace ControlPlane

open Lib Lib.Prog Api
open Reconciler (newPod)

/-! ## What is assigned once -/

/-- All of a deployment but `Status` and `UpdatedAt`. -/
def Deployment.spec (d : Deployment) : Deployment := { d with status := .pending, updatedAt := 0 }

/-- The identity of a pod and what it was made with. -/
def Pod.spec (p : Pod) : Pod :=
  { p with
    nodeID := "", attempt := 0, status := .pending, exitCode := none, error := "", output := "", scheduledAt := none,
    startedAt := none, finishedAt := none, runAfter := 0 }

/-- All of a node but its status, its load and its heartbeat. -/
def Node.spec (n : Node) : Node :=
  { n with status := .registering, available := {}, runningJobs := 0, lastHeartbeatAt := 0 }

theorem Deployment.id_of_spec {d d' : Deployment} (h : d.spec = d'.spec) : d.id = d'.id := by
  have hid := congrArg Deployment.id h
  exact hid

theorem Pod.id_of_spec {p p' : Pod} (h : p.spec = p'.spec) : p.id = p'.id := by
  have hid := congrArg Pod.id h
  exact hid

theorem Node.id_of_spec {n n' : Node} (h : n.spec = n'.spec) : n.id = n'.id := by
  have hid := congrArg Node.id h
  exact hid

/-- What `CreateDeployment` checks and fills in. -/
structure Deployment.Accepted (d : Deployment) : Prop where
  name : d.name ≠ ""
  runnable : d.command ≠ "" ∨ d.image ≠ ""
  replicas : 0 < d.replicas
  type : d.type ≠ .other ""
  restartPolicy : d.restartPolicy ≠ .other ""
  ns : d.ns ≠ ""

/-- A registered node has an address; `RegisterNode` takes no labels. -/
def Node.Registered (n : Node) : Prop := n.address ≠ "" ∧ n.labels = none

theorem Deployment.Accepted.congr {d d' : Deployment} (h : d.Accepted) (hs : d'.spec = d.spec) : d'.Accepted :=
  ⟨(congrArg Deployment.name hs).trans_ne h.name,
    h.runnable.imp (congrArg Deployment.command hs).trans_ne (congrArg Deployment.image hs).trans_ne,
    (congrArg Deployment.replicas hs).symm ▸ h.replicas, (congrArg Deployment.type hs).trans_ne h.type,
    (congrArg Deployment.restartPolicy hs).trans_ne h.restartPolicy, (congrArg Deployment.ns hs).trans_ne h.ns⟩

theorem Node.Registered.congr {n n' : Node} (h : n.Registered) (hs : n'.spec = n.spec) : n'.Registered :=
  ⟨(congrArg Node.address hs).trans_ne h.1, (congrArg Node.labels hs).trans h.2⟩

/-- The pod was made from the deployment. -/
def Pod.MadeFrom (p : Pod) (d : Deployment) : Prop := p.spec = newPod d p.id p.createdAt

theorem newPod_madeFrom (d : Deployment) (id : String) (t : Time) : (newPod d id t).MadeFrom d := rfl

theorem Pod.MadeFrom.congr {p p' : Pod} {d d' : Deployment} (h : p.MadeFrom d) (hp : p'.spec = p.spec)
    (hd : d'.spec = d.spec) : p'.MadeFrom d' := by
  have hid : p'.id = p.id := Pod.id_of_spec hp
  have hcreated := congrArg Pod.createdAt hp
  change p'.createdAt = p.createdAt at hcreated
  have hnew : newPod d' p'.id p'.createdAt = newPod d p.id p.createdAt := by
    have hspec (d : Deployment) (id : String) (t : Time) : newPod d.spec id t = newPod d id t := rfl
    rw [← hspec d', hd, hspec, hid, hcreated]
  exact hp.trans (h.trans hnew.symm)

/-! ## What a store holds -/

/-- What is stored was checked, and every pod is made from a deployment that is stored. -/
structure Sound (s : Store) : Prop where
  deployments : ∀ k d, s.deployments.get k = some d → d.Accepted
  pods : ∀ k p, s.pods.get k = some p → ∃ d, s.deployments.get p.deploymentID = some d ∧ p.MadeFrom d
  nodes : ∀ k n, s.nodes.get k = some n → n.Registered

/-- Every record is still there, with the same specification. -/
structure SpecsKept (s s' : Store) : Prop where
  deployments : s.deployments.Keeps Deployment.spec s'.deployments
  pods : s.pods.Keeps Pod.spec s'.pods
  nodes : s.nodes.Keeps Node.spec s'.nodes

theorem SpecsKept.refl (s : Store) : SpecsKept s s := ⟨.refl, .refl, .refl⟩

theorem SpecsKept.trans {s s₁ s' : Store} (h : SpecsKept s s₁) (h' : SpecsKept s₁ s') : SpecsKept s s' :=
  ⟨h.deployments.trans h'.deployments, h.pods.trans h'.pods, h.nodes.trans h'.nodes⟩

theorem SpecsKept.putDeployment {s : Store} {d : Deployment}
    (h : ∀ d', s.deployments.get d.id = some d' → d.spec = d'.spec) : SpecsKept s (s.putDeployment d) :=
  ⟨.put h, .refl, .refl⟩

theorem SpecsKept.putPod {s : Store} {p : Pod} (h : ∀ p', s.pods.get p.id = some p' → p.spec = p'.spec) :
    SpecsKept s (s.putPod p) := ⟨.refl, .put h, .refl⟩

theorem SpecsKept.putNode {s : Store} {n : Node} (h : ∀ n', s.nodes.get n.id = some n' → n.spec = n'.spec) :
    SpecsKept s (s.putNode n) := ⟨.refl, .refl, .put h⟩

/-- A deployment keeps the pods made from it, whatever becomes of its status. -/
theorem Sound.putDeployment {s : Store} {d : Deployment} (h : Sound s) (hd : d.Accepted)
    (hkept : SpecsKept s (s.putDeployment d)) : Sound (s.putDeployment d) := by
  refine ⟨fun k d' hd' => ?_, fun k p hp => ?_, h.nodes⟩
  · rw [Store.putDeployment_deployments, Table.get_put] at hd'
    split at hd'
    · obtain rfl := Option.some.inj hd'
      exact hd
    · exact h.deployments k d' hd'
  · obtain ⟨d₀, hd₀, hmade⟩ := h.pods k p hp
    obtain ⟨d', hd', hspec⟩ := hkept.deployments _ d₀ hd₀
    exact ⟨d', hd', hmade.congr rfl hspec⟩

theorem Sound.putPod {s : Store} {p : Pod} (h : Sound s)
    (hp : ∃ d, s.deployments.get p.deploymentID = some d ∧ p.MadeFrom d) : Sound (s.putPod p) := by
  refine ⟨h.deployments, fun k q hq => ?_, h.nodes⟩
  rw [Store.putPod_pods, Table.get_put] at hq
  split at hq
  · obtain rfl := Option.some.inj hq
    exact hp
  · exact h.pods k q hq

theorem Sound.putNode {s : Store} {n : Node} (h : Sound s) (hn : n.Registered) : Sound (s.putNode n) := by
  refine ⟨h.deployments, h.pods, fun k m hm => ?_⟩
  rw [Store.putNode_nodes, Table.get_put] at hm
  split at hm
  · obtain rfl := Option.some.inj hm
    exact hn
  · exact h.nodes k m hm

/-! ## The discipline -/

/-- The deployments an answer shows. -/
def deploymentsShown : (Σ c : Call, Resp c) → List Deployment
  | ⟨.getDeployment _, .ok d⟩ => [d]
  | ⟨.listDeployments, .ok l⟩ => l
  | _ => []

/-- Some answer has shown a record with the specification of `a`. -/
def Seen {α : Type} (shown : (Σ c : Call, Resp c) → List α) (spec : α → α) (h : CallHist) (a : α) : Prop :=
  ∃ ev ∈ h, ∃ b ∈ shown ev, spec a = spec b

section Seen

variable {α : Type} {shown : (Σ c : Call, Resp c) → List α} {spec : α → α} {h h' : CallHist} {a a' : α}

theorem Seen.mono (hs : Seen shown spec h a) (hpre : h <+: h') : Seen shown spec h' a := by
  obtain ⟨ev, hev, hb⟩ := hs
  exact ⟨ev, hpre.subset hev, hb⟩

theorem Seen.congr (hs : Seen shown spec h a) (heq : spec a' = spec a) : Seen shown spec h a' := by
  obtain ⟨ev, hev, b, hb, hspec⟩ := hs
  exact ⟨ev, hev, b, hb, heq.trans hspec⟩

theorem seen_of_mem (ev : Σ c : Call, Resp c) (ha : a ∈ shown ev) : Seen shown spec (h ++ [ev]) a :=
  ⟨ev, List.mem_append_right _ List.mem_cons_self, a, ha, rfl⟩

end Seen

abbrev DeploymentSeen := Seen deploymentsShown Deployment.spec

abbrev PodSeen := Seen podsShown Pod.spec

abbrev NodeSeen := Seen nodesShown Node.spec

def Copying (h : CallHist) : Call → Prop
  | .createDeployment d => d.Accepted
  | .createPod p => ∃ d, DeploymentSeen h d ∧ p.deploymentID = d.id ∧ p.MadeFrom d
  | .updatePod p => PodSeen h p
  | .registerNode n => n.Registered
  | .updateNode n => NodeSeen h n
  | _ => True

abbrev CopyingTo {α : Type} (h : CallHist) (p : M α) : Prop := Sat (fun _ _ => True) Copying (fun _ _ => True) h p

/-! ## What a call keeps -/

/-- What was shown is stored, with the same specification. -/
def StoredIn {α : Type} {key : α → String} (shown : (Σ c : Call, Resp c) → List α) (spec : α → α) (h : CallHist)
    (t : Table key) : Prop :=
  ∀ a, Seen shown spec h a → ∃ a', t.get (key a) = some a' ∧ spec a' = spec a

structure Recorded (h : CallHist) (s : Store) : Prop where
  deployments : StoredIn deploymentsShown Deployment.spec h s.deployments
  pods : StoredIn podsShown Pod.spec h s.pods
  nodes : StoredIn nodesShown Node.spec h s.nodes

theorem recorded_nil (s : Store) : Recorded [] s := by
  constructor <;> rintro a ⟨ev, hev, -⟩ <;> cases hev

section StoredIn

variable {α : Type} {key : α → String} {shown : (Σ c : Call, Resp c) → List α} {spec : α → α} {h : CallHist}
  {t t' : Table key}

theorem StoredIn.later (hst : StoredIn shown spec h t) (hk : t.Keeps spec t') : StoredIn shown spec h t' := by
  intro a ha
  obtain ⟨a₁, ha₁, hs₁⟩ := hst a ha
  obtain ⟨a', ha', hs'⟩ := hk _ a₁ ha₁
  exact ⟨a', ha', hs'.trans hs₁⟩

/-- One more call, whose answer shows rows that are stored. -/
theorem StoredIn.call {ev : Σ c : Call, Resp c} (hst : StoredIn shown spec h t)
    (hkey : ∀ a b, spec a = spec b → key a = key b) (hshown : ∀ a ∈ shown ev, t.get (key a) = some a) :
    StoredIn shown spec (h ++ [ev]) t := by
  rintro a ⟨ev', hev, b, hb, hspec⟩
  rcases List.mem_append.mp hev with hev | hev
  · exact hst a ⟨ev', hev, b, hb, hspec⟩
  · obtain rfl := List.mem_singleton.mp hev
    exact ⟨b, hkey a b hspec ▸ hshown b hb, hspec.symm⟩

end StoredIn

theorem Recorded.later {h : CallHist} {s s' : Store} (hr : Recorded h s) (hk : SpecsKept s s') : Recorded h s' :=
  ⟨hr.deployments.later hk.deployments, hr.pods.later hk.pods, hr.nodes.later hk.nodes⟩

theorem stored_of_deploymentsShown {c : Call} {s s' : Store} {r : Resp c} (h : Exec c s r s') {d : Deployment}
    (hd : d ∈ deploymentsShown ⟨c, r⟩) : s.deployments.get d.id = some d := by
  cases c with
  | getDeployment id =>
    obtain ⟨rfl, -⟩ := h
    unfold Store.getDeployment at hd
    split at hd
    · cases hd
    · next d' hd' =>
      obtain rfl := List.mem_singleton.mp hd
      rw [Table.key_of_get hd']
      exact hd'
  | listDeployments =>
    obtain ⟨⟨l, rfl, hperm⟩, -⟩ := h
    exact ((mem_of_perm_filter hperm).mp hd).1
  | _ => cases hd

theorem stored_of_nodesShown {c : Call} {s s' : Store} {r : Resp c} (h : Exec c s r s') {n : Node}
    (hn : n ∈ nodesShown ⟨c, r⟩) : s.nodes.get n.id = some n := by
  cases c with
  | getNode id =>
    obtain ⟨rfl, -⟩ := h
    unfold Store.getNode at hn
    split at hn
    · cases hn
    · next n' hn' =>
      obtain rfl := List.mem_singleton.mp hn
      rw [Table.key_of_get hn']
      exact hn'
  | listNodes =>
    obtain ⟨⟨l, rfl, hperm⟩, -⟩ := h
    exact ((mem_of_perm_filter hperm).mp hn).1
  | _ => cases hn

/-- One call of a disciplined program keeps every specification and leaves a sound store. -/
theorem Sound.call {c : Call} {s s' : Store} {r : Resp c} {h : CallHist} (hs : Sound s) (hr : Recorded h s)
    (hd : Copying h c) (hE : Exec c s r s') : SpecsKept s s' ∧ Sound s' := by
  cases exec_write hE with
  | nothing => exact ⟨.refl s, hs⟩
  | createDeployment d hnone =>
    have hkept : SpecsKept s (s.putDeployment d) := .putDeployment fun d' hd' => by rw [hnone] at hd'; cases hd'
    exact ⟨hkept, hs.putDeployment hd hkept⟩
  | transitionDeployment id dest now d hget _ =>
    have hid : d.id = id := Table.key_of_get hget
    subst hid
    have hkept : SpecsKept s (s.putDeployment (Store.moveDeployment d dest now)) := .putDeployment fun d' hd' => by
      rw [show s.deployments.get d.id = some d' from hd'] at hget
      obtain rfl := Option.some.inj hget
      rfl
    exact ⟨hkept, hs.putDeployment ((hs.deployments _ d hget).congr rfl) hkept⟩
  | createPod p hnone =>
    obtain ⟨d, hseen, hid, hmade⟩ := hd
    obtain ⟨d', hd', hspec⟩ := hr.deployments d hseen
    exact ⟨.putPod fun p' hp' => by (rw [hnone] at hp'; cases hp'), hs.putPod ⟨d', hid ▸ hd', hmade.congr rfl hspec⟩⟩
  | updatePod p q hq =>
    obtain ⟨p', hp', hspec⟩ := hr.pods p hd
    obtain ⟨d, hd', hmade⟩ := hs.pods _ p' hp'
    have hdep := congrArg Pod.deploymentID hspec
    change p'.deploymentID = p.deploymentID at hdep
    refine ⟨.putPod fun q' hq' => ?_, hs.putPod ⟨d, hdep ▸ hd', hmade.congr hspec.symm rfl⟩⟩
    rw [hp'] at hq'
    obtain rfl := Option.some.inj hq'
    exact hspec.symm
  | transitionPod id dest msg now p hp _ =>
    have hid : p.id = id := Table.key_of_get hp
    subst hid
    obtain ⟨d, hd', hmade⟩ := hs.pods _ p hp
    refine ⟨.putPod fun p' hp' => ?_, hs.putPod ⟨d, hd', hmade.congr rfl rfl⟩⟩
    rw [show s.pods.get p.id = some p' from hp'] at hp
    obtain rfl := Option.some.inj hp
    rfl
  | registerNode n hnone => exact ⟨.putNode fun n' hn' => by (rw [hnone] at hn'; cases hn'), hs.putNode hd⟩
  | updateNode n m hm =>
    obtain ⟨n', hn', hspec⟩ := hr.nodes n hd
    refine ⟨.putNode fun m' hm' => ?_, hs.putNode ((hs.nodes _ n' hn').congr hspec.symm)⟩
    rw [hn'] at hm'
    obtain rfl := Option.some.inj hm'
    exact hspec.symm
  | transitionNode id dest n hn _ =>
    have hid : n.id = id := Table.key_of_get hn
    subst hid
    refine ⟨.putNode fun n' hn' => ?_, hs.putNode ((hs.nodes _ n hn).congr rfl)⟩
    rw [show s.nodes.get n.id = some n' from hn'] at hn
    obtain rfl := Option.some.inj hn
    rfl
  | services _ t _ => exact ⟨⟨.refl, .refl, .refl⟩, hs.deployments, hs.pods, hs.nodes⟩

theorem Recorded.call {c : Call} {s s' : Store} {r : Resp c} {h : CallHist} (hr : Recorded h s) (hE : Exec c s r s') :
    Recorded (h ++ [⟨c, r⟩]) s :=
  ⟨hr.deployments.call (fun _ _ => Deployment.id_of_spec) fun _ hd => stored_of_deploymentsShown hE hd,
    hr.pods.call (fun _ _ => Pod.id_of_spec) fun _ hp => stored_of_shown hE hp,
    hr.nodes.call (fun _ _ => Node.id_of_spec) fun _ hn => stored_of_nodesShown hE hn⟩

/-! ## The programs -/

section Programs

variable {h : CallHist} {α β : Type}

theorem copying_ask {c : Call} {f : Resp c → M β} (hd : Copying h c) (hf : ∀ r, CopyingTo (h ++ [⟨c, r⟩]) (f r)) :
    CopyingTo h (ask c >>= f) := sat_bind (sat_ask hd fun r _ => hf r)

theorem copying_transitionPod {id msg : String} {dest : PodStatus} {f : Res → M β}
    (hf : ∀ r h', h <+: h' → CopyingTo h' (f r)) : CopyingTo h (State.transitionPod id dest msg >>= f) := by
  refine sat_bind_grows (copying_ask (c := .now) trivial fun t => ?_) hf
  exact sat_ask (c := .transitionPod id dest msg t) trivial fun _ _ => trivial

theorem copying_transitionDeployment {id : String} {dest : DeploymentStatus} {f : Res → M β}
    (hf : ∀ r h', h <+: h' → CopyingTo h' (f r)) : CopyingTo h (State.transitionDeployment id dest >>= f) := by
  refine sat_bind_grows (copying_ask (c := .now) trivial fun t => ?_) hf
  exact sat_ask (c := .transitionDeployment id dest t) trivial fun _ _ => trivial

theorem copying_upsertService {svc : Service} {f : Res → M β} (hf : ∀ r h', h <+: h' → CopyingTo h' (f r)) :
    CopyingTo h (State.upsertService svc >>= f) := by
  refine sat_bind_grows (copying_ask (c := .now) trivial fun t => ?_) hf
  exact sat_ask (c := .upsertService svc t) trivial fun _ _ => trivial

theorem copying_generateID {kind : String} {f : Option String → M β} (hf : ∀ r h', h <+: h' → CopyingTo h' (f r)) :
    CopyingTo h (generateID kind >>= f) :=
  sat_bind_grows (copying_ask (c := .randRead) trivial fun _ => trivial) hf

/-! ### Nodes -/

theorem newNode_registered {req : RegisterNodeRequest} (ha : req.address ≠ "") (id : String) (t : Time) :
    (newNode req id t).Registered := ⟨ha, rfl⟩

theorem allocateNode_copying {req : RegisterNodeRequest} (ha : req.address ≠ "") (attempts : Nat) :
    CopyingTo h (allocateNode req attempts) := by
  induction attempts generalizing h with
  | zero => trivial
  | succ attempts ih =>
    refine copying_generateID fun r h₁ _ => ?_
    cases r with
    | none => trivial
    | some id =>
      refine copying_ask (c := .now) trivial fun t => ?_
      refine copying_ask (c := .registerNode (newNode req id t)) (newNode_registered ha id t) fun r => ?_
      cases r with
      | ok _ => trivial
      | error _ => exact ih

theorem registerNode_copying (body : Option RegisterNodeRequest) : CopyingTo h (Api.registerNode body) := by
  cases body with
  | none => trivial
  | some req =>
    unfold Api.registerNode
    simp only
    split
    · trivial
    · next ha =>
      refine sat_bind_grows (allocateNode_copying ha _) fun r h₁ _ => ?_
      cases r with
      | error resp => trivial
      | ok id =>
        refine copying_ask (c := .transitionNode id .healthy) trivial fun r => ?_
        cases r with
        | error e => trivial
        | ok _ =>
          refine copying_ask (c := .getNode id) trivial fun r => ?_
          cases r <;> trivial

theorem heartbeat_copying (now : Time) (id : String) (req : NodeHeartbeatRequest) :
    CopyingTo h (Api.heartbeat now id req) := by
  refine copying_ask (c := .getNode id) trivial fun r => ?_
  cases r with
  | error e => trivial
  | ok node =>
    have hseen : NodeSeen (h ++ [⟨.getNode id, .ok node⟩]) node := seen_of_mem _ (List.mem_singleton.mpr rfl)
    refine copying_ask (c := .updateNode (heartbeatNode node req now)) (hseen.congr rfl) fun r => ?_
    cases r with
    | error e => trivial
    | ok _ =>
      simp only
      split
      · refine copying_ask (c := .transitionNode id .healthy) trivial fun r => ?_
        cases r <;> trivial
      · trivial

theorem pollPods_copying (id : String) : CopyingTo h (pollPods id) := by
  refine copying_ask (c := .getNode id) trivial fun r => ?_
  cases r with
  | error e => trivial
  | ok node =>
    refine copying_ask (c := .listPodsByNode id) trivial fun r => ?_
    cases r <;> trivial

theorem drainNode_copying (id : String) : CopyingTo h (drainNode id) := by
  refine copying_ask (c := .getNode id) trivial fun r => ?_
  cases r with
  | error e => trivial
  | ok node =>
    refine copying_ask (c := .transitionNode id .draining) trivial fun r => ?_
    cases r with
    | error e => cases e <;> trivial
    | ok _ => exact copying_ask (c := .getNode id) trivial fun _ => trivial

theorem releasedNode_spec (node : Node) (d : Except StoreErr Deployment) : (releasedNode node d).spec = node.spec := by
  cases d <;> rfl

theorem releaseNodeCapacity_copying (nodeID deploymentID : String) :
    CopyingTo h (releaseNodeCapacity nodeID deploymentID) := by
  refine copying_ask (c := .getNode nodeID) trivial fun r => ?_
  cases r with
  | error e => trivial
  | ok node =>
    have hseen : NodeSeen (h ++ [⟨.getNode nodeID, .ok node⟩]) node := seen_of_mem _ (List.mem_singleton.mpr rfl)
    refine copying_ask (c := .getDeployment deploymentID) trivial fun d => ?_
    refine copying_ask (c := .updateNode (releasedNode node d)) ?_ fun _ => trivial
    exact (hseen.mono (List.prefix_append _ _)).congr (releasedNode_spec node d)

/-! ### Reports -/

theorem updatePodStatus_copying (nodeID podID : String) (body : Option PodStatusRequest) :
    CopyingTo h (updatePodStatus nodeID podID body) := by
  cases body with
  | none => trivial
  | some req =>
    refine copying_ask (c := .getPod podID) trivial fun r => ?_
    cases r with
    | error e => trivial
    | ok pod =>
      have hseen : PodSeen (h ++ [⟨.getPod podID, .ok pod⟩]) pod := seen_of_mem _ (List.mem_singleton.mpr rfl)
      refine copying_ask (c := .updatePod (reported pod req)) (hseen.congr rfl) fun r => ?_
      cases r with
      | error e => trivial
      | ok _ =>
        refine copying_transitionPod fun r h' _ => ?_
        cases r with
        | error e => cases e <;> trivial
        | ok _ =>
          refine sat_bind_grows ?_ fun _ h'' _ => copying_ask (c := .getPod podID) trivial fun _ => trivial
          split
          · exact releaseNodeCapacity_copying nodeID _
          · trivial

/-! ### Deployments and services -/

theorem newDeployment_accepted {req : SubmitDeploymentRequest}
    (hok : ¬ (req.name = "" ∨ (req.command = "" ∧ req.image = ""))) (id : String) (t : Time) :
    (newDeployment req.withDefaults id t).Accepted := by
  obtain ⟨hname, hrun⟩ := not_or.mp hok
  refine ⟨hname, ?_, ?_, ?_, ?_, ?_⟩
  · exact not_and_or.mp hrun
  · change 0 < if req.replicas ≤ 0 then 1 else req.replicas
    split <;> omega
  · change (if req.type = .other "" then DeploymentType.batch else req.type) ≠ .other ""
    split
    · simp
    · next ht => exact ht
  · change (if req.restartPolicy = .other "" then RestartPolicy.onFailure else req.restartPolicy) ≠ .other ""
    split
    · simp
    · next ht => exact ht
  · change (if req.ns = "" then "default" else req.ns) ≠ ""
    split
    · simp
    · next ht => exact ht

theorem allocateDeployment_copying {req : SubmitDeploymentRequest}
    (hok : ∀ id t, (newDeployment req id t).Accepted) (attempts : Nat) :
    CopyingTo h (allocateDeployment req attempts) := by
  induction attempts generalizing h with
  | zero => trivial
  | succ attempts ih =>
    refine copying_generateID fun r h₁ _ => ?_
    cases r with
    | none => trivial
    | some id =>
      refine copying_ask (c := .now) trivial fun t => ?_
      refine copying_ask (c := .createDeployment (newDeployment req id t)) (hok id t) fun r => ?_
      cases r with
      | ok _ => trivial
      | error _ => exact ih

theorem createDeployment_copying (body : Option SubmitDeploymentRequest) :
    CopyingTo h (Api.createDeployment body) := by
  cases body with
  | none => trivial
  | some req =>
    unfold Api.createDeployment
    simp only
    split
    · trivial
    · next hok =>
      refine sat_bind_grows (allocateDeployment_copying (newDeployment_accepted hok) _) fun r h₁ _ => ?_
      cases r with
      | error resp => trivial
      | ok id =>
        refine copying_ask (c := .getDeployment id) trivial fun r => ?_
        cases r <;> trivial

theorem cancelDeployment_copying (id : String) : CopyingTo h (cancelDeployment id) := by
  refine copying_ask (c := .getDeployment id) trivial fun r => ?_
  cases r with
  | error e => trivial
  | ok d =>
    refine copying_transitionDeployment fun r h₁ _ => ?_
    cases r with
    | error e => cases e <;> trivial
    | ok _ => exact copying_ask (c := .getDeployment id) trivial fun _ => trivial

theorem storeService_copying (svc : Service) : CopyingTo h (storeService svc) := by
  refine copying_upsertService fun r h₁ _ => ?_
  cases r with
  | error e => trivial
  | ok _ => exact copying_ask (c := .getService svc.id) trivial fun _ => trivial

theorem createService_copying (body : Option Service) : CopyingTo h (Api.createService body) := by
  cases body with
  | none => trivial
  | some svc =>
    unfold Api.createService
    simp only
    split
    · trivial
    · split
      · refine copying_generateID fun r h₁ _ => ?_
        cases r with
        | none => trivial
        | some id => exact storeService_copying _
      · exact storeService_copying svc

theorem updateService_copying (id : String) (body : Option Service) : CopyingTo h (Api.updateService id body) := by
  refine copying_ask (c := .getService id) trivial fun r => ?_
  cases r with
  | error e => trivial
  | ok svc =>
    cases body with
    | none => trivial
    | some svc =>
      refine copying_upsertService fun r h₁ _ => ?_
      cases r with
      | error e => trivial
      | ok _ => exact copying_ask (c := .getService id) trivial fun _ => trivial

theorem deleteService_copying (id : String) : CopyingTo h (Api.deleteService id) := by
  refine copying_ask (c := .deleteService id) trivial fun r => ?_
  cases r with
  | error e => cases e <;> trivial
  | ok _ => trivial

/-! ### The loops -/

namespace Scheduler

/-- The copies that the pass works on are of nodes that it has read. -/
theorem reserved_seen {pass : Pass} {n : Node} (required : ResourceRequest) (hp : ∀ m ∈ pass.nodes, NodeSeen h m)
    (hn : NodeSeen h n) : ∀ m ∈ (pass.reserved n required).nodes, NodeSeen h m := by
  intro m hm
  obtain ⟨m₀, hm₀, rfl⟩ := List.mem_map.mp hm
  split
  · exact hn.congr rfl
  · exact hp m₀ hm₀

theorem dispatch_copying {pass : Pass} {p : Pod} {n : Node} (required : ResourceRequest) (hp : PodSeen h p)
    (hnodes : ∀ m ∈ pass.nodes, NodeSeen h m) (hn : NodeSeen h n) :
    Sat (fun _ _ => True) Copying (fun h' pass => ∀ m ∈ pass.nodes, NodeSeen h' m) h (dispatch pass p n required) := by
  refine sat_bind (sat_ask (c := .updatePod (assigned p n)) (hp.congr rfl) fun r _ => ?_)
  have hpre₁ := List.prefix_append h [⟨.updatePod (assigned p n), r⟩]
  cases r with
  | error e => exact fun m hm => (hnodes m hm).mono hpre₁
  | ok _ =>
    refine sat_bind (sat_bind (sat_ask (c := .now) trivial fun t _ =>
      sat_ask (c := .transitionPod p.id .scheduled "" t) trivial fun r _ => ?_))
    have hpre₂ := (hpre₁.trans (List.prefix_append _ [⟨.now, t⟩])).trans
      (List.prefix_append _ [⟨.transitionPod p.id .scheduled "" t, r⟩])
    cases r with
    | error e => exact fun m hm => (hnodes m hm).mono hpre₂
    | ok _ =>
      refine sat_bind (sat_ask (c := .updateNode (reserve n required)) ((hn.mono hpre₂).congr rfl) fun r _ => ?_)
      have hpre₃ := hpre₂.trans (List.prefix_append _ [⟨.updateNode (reserve n required), r⟩])
      exact fun m hm => (reserved_seen required hnodes hn m hm).mono hpre₃

theorem schedulePod_copying (now : Time) {pass : Pass} {p : Pod} (hp : PodSeen h p)
    (hnodes : ∀ m ∈ pass.nodes, NodeSeen h m) :
    Sat (fun _ _ => True) Copying (fun h' pass => ∀ m ∈ pass.nodes, NodeSeen h' m) h (schedulePod now pass p) := by
  unfold schedulePod
  split
  · exact hnodes
  · refine sat_bind (sat_ask (c := .getDeployment p.deploymentID) trivial fun d _ => ?_)
    have hpre := List.prefix_append h [⟨.getDeployment p.deploymentID, d⟩]
    simp only
    split
    · exact fun m hm => (hnodes m hm).mono hpre
    · next n hsel =>
      have hn := hnodes n (selectNode_qualifies hsel).1
      exact dispatch_copying _ (hp.mono hpre) (fun m hm => (hnodes m hm).mono hpre) (hn.mono hpre)

theorem tick_copying (now : Time) : CopyingTo h (tick now) := by
  refine copying_ask (c := .listPodsByStatus .pending) trivial fun r => ?_
  cases r with
  | error e => trivial
  | ok listed =>
    refine copying_ask (c := .listNodes) trivial fun r => ?_
    cases r with
    | error e => trivial
    | ok nodes =>
      refine sat_bind (sat_foldlM (fun rest pass h => (∀ p ∈ rest, PodSeen h p) ∧ ∀ m ∈ pass.nodes, NodeSeen h m)
        (fun p rest pass h hI => ?_) ⟨fun p hp => ?_, fun m hm => ?_⟩ fun pass h _ => ?_)
      · obtain ⟨hpods, hnodes⟩ := hI
        rw [List.forall_mem_cons] at hpods
        refine (schedulePod_copying now hpods.1 hnodes).grows.mono (fun _ _ hd => hd) ?_
        rintro h' pass' ⟨hnodes', hpre⟩
        exact ⟨fun q hq => (hpods.2 q hq).mono hpre, hnodes'⟩
      · have hin : p ∈ listed := (sortByCreatedAt_perm listed).mem_iff.mp hp
        exact (seen_of_mem ⟨.listPodsByStatus .pending, .ok listed⟩ hin).mono (List.prefix_append _ _)
      · exact seen_of_mem ⟨.listNodes, .ok nodes⟩ hm
      · exact copying_ask (c := .now) trivial fun _ => trivial

end Scheduler

namespace Reconciler

theorem createReplica_copying {d : Deployment} (hd : DeploymentSeen h d) : CopyingTo h (createReplica d) := by
  refine copying_generateID fun r h₁ hpre => ?_
  cases r with
  | none => trivial
  | some id =>
    refine copying_ask (c := .now) trivial fun t => ?_
    refine copying_ask (c := .createPod (newPod d id t)) ?_ fun _ => trivial
    exact ⟨d, hd.mono (hpre.trans (List.prefix_append _ _)), rfl, newPod_madeFrom d id t⟩

theorem reconcileReplicas_copying {d : Deployment} (pods : List Pod) (hd : DeploymentSeen h d) :
    CopyingTo h (reconcileReplicas d pods) := by
  unfold reconcileReplicas
  split
  · exact sat_forM_grows fun _ _ _ hpre => createReplica_copying (hd.mono hpre)
  · split
    · exact sat_forM_grows fun _ _ _ _ => copying_transitionPod fun _ _ _ => trivial
    · trivial

theorem reconcileHealth_copying (d : Deployment) (b : Bool) : CopyingTo h (reconcileHealth d b) := by
  unfold reconcileHealth
  split
  · exact copying_transitionDeployment fun _ _ _ => trivial
  · split
    · exact copying_transitionDeployment fun _ _ _ => trivial
    · trivial

/-- The deployment that goes on has the specification of the one that was read. -/
theorem activate_copying {d : Deployment} (hd : DeploymentSeen h d) :
    Sat (fun _ _ => True) Copying (fun h' d' => ∀ w, d' = some w → DeploymentSeen h' w) h (activate d) := by
  unfold activate
  split
  · refine sat_bind (sat_bind (sat_ask (c := .now) trivial fun t _ =>
      sat_ask (c := .transitionDeployment d.id .active t) trivial fun r _ => ?_))
    cases r with
    | error e => exact fun w hw => by cases hw
    | ok _ =>
      intro w hw
      obtain rfl := Option.some.inj hw
      exact (hd.mono ((List.prefix_append _ _).trans (List.prefix_append _ _))).congr rfl
  · intro w hw
    obtain rfl := Option.some.inj hw
    exact hd

theorem reconcileDeployment_copying {d : Deployment} (hd : DeploymentSeen h d) :
    CopyingTo h (reconcileDeployment d) := by
  unfold reconcileDeployment
  split
  · trivial
  · refine sat_bind ((activate_copying hd).mono (fun _ _ hc => hc) fun h₁ d' hd' => ?_)
    cases d' with
    | none => trivial
    | some w =>
      refine copying_ask (c := .listPodsByDeployment w.id) trivial fun r => ?_
      cases r with
      | error e => trivial
      | ok pods =>
        refine sat_bind_grows (reconcileReplicas_copying pods ?_) fun _ _ _ => reconcileHealth_copying w _
        exact (hd' w rfl).mono (List.prefix_append _ _)

theorem reconcileDeployments_copying : CopyingTo h reconcileDeployments := by
  refine copying_ask (c := .listDeployments) trivial fun r => ?_
  cases r with
  | error e => trivial
  | ok ds =>
    refine sat_forM_grows fun d hd h' hpre => reconcileDeployment_copying ?_
    exact (seen_of_mem ⟨.listDeployments, .ok ds⟩ hd).mono hpre

theorem requeueOrphan_copying {p : Pod} (hp : PodSeen h p) : CopyingTo h (requeueOrphan p) := by
  refine copying_ask (c := .updatePod (unassigned p)) (hp.congr rfl) fun r => ?_
  cases r with
  | error e => trivial
  | ok _ => exact copying_transitionPod fun _ _ _ => trivial

theorem retryPod_copying {p : Pod} (hp : PodSeen h p) : CopyingTo h (retryPod p) := by
  refine copying_ask (c := .now) trivial fun now => ?_
  have hp' : PodSeen (h ++ [⟨.now, now⟩]) (retried p now) := (hp.mono (List.prefix_append h _)).congr rfl
  refine copying_ask (c := .updatePod (retried p now)) hp' fun r => ?_
  cases r with
  | error e => trivial
  | ok _ =>
    refine copying_transitionPod fun r _ _ => ?_
    cases r with
    | error e => trivial
    | ok _ => exact copying_transitionPod fun _ _ _ => copying_transitionPod fun _ _ _ => trivial

theorem deadLetterPod_copying {p : Pod} (hp : PodSeen h p) : CopyingTo h (deadLetterPod p) := by
  refine copying_ask (c := .updatePod (exhausted p)) (hp.congr rfl) fun r => ?_
  cases r with
  | error e => trivial
  | ok _ =>
    refine copying_transitionPod fun r _ _ => ?_
    cases r with
    | error e => trivial
    | ok _ => exact copying_transitionPod fun _ _ _ => trivial

theorem reschedulePod_copying {p : Pod} (hp : PodSeen h p) : CopyingTo h (reschedulePod p) := by
  unfold reschedulePod
  split
  · exact requeueOrphan_copying hp
  · split
    · trivial
    · refine copying_ask (c := .getDeployment p.deploymentID) trivial fun d => ?_
      have hp' := hp.mono (List.prefix_append h [⟨.getDeployment p.deploymentID, d⟩])
      simp only
      split
      · exact retryPod_copying hp'
      · exact deadLetterPod_copying hp'

theorem giveUpNode_copying (n : Node) (dest : NodeStatus) : CopyingTo h (giveUpNode n dest) := by
  refine copying_ask (c := .transitionNode n.id dest) trivial fun r => ?_
  cases r with
  | error e => trivial
  | ok _ =>
    refine copying_ask (c := .listPodsByNode n.id) trivial fun r => ?_
    cases r with
    | error e => trivial
    | ok pods =>
      refine sat_forM_grows fun p hp h' hpre => reschedulePod_copying ?_
      exact (seen_of_mem ⟨.listPodsByNode n.id, .ok pods⟩ hp).mono hpre

theorem tick_copying (timeout : Duration) (now : Time) : CopyingTo h (tick timeout now) := by
  refine sat_bind_grows reconcileDeployments_copying fun _ _ _ => ?_
  refine copying_ask (c := .listNodes) trivial fun r => ?_
  cases r with
  | error e => trivial
  | ok nodes =>
    refine sat_forM_grows fun n _ _ _ => ?_
    unfold detectUnhealthyNode
    split
    · exact giveUpNode_copying n _
    · split
      · exact giveUpNode_copying n _
      · trivial

end Reconciler

end Programs

theorem Event.prog_copying (timeout : Duration) (e : Event) : CopyingTo [] (e.prog timeout) := by
  have hanswer {p : M Response} (hp : CopyingTo [] p) : CopyingTo [] (do pure (some (← p))) :=
    sat_bind_grows hp fun _ _ _ => trivial
  cases e with
  | register body => exact hanswer (registerNode_copying body)
  | heartbeat now node req => exact hanswer (heartbeat_copying now node req)
  | poll node => exact hanswer (pollPods_copying node)
  | report node pod body => exact hanswer (updatePodStatus_copying node pod body)
  | drain node => exact hanswer (drainNode_copying node)
  | submit body => exact hanswer (createDeployment_copying body)
  | cancel deployment => exact hanswer (cancelDeployment_copying deployment)
  | createService body => exact hanswer (createService_copying body)
  | updateService id body => exact hanswer (updateService_copying id body)
  | deleteService id => exact hanswer (deleteService_copying id)
  | schedulerTick now => exact sat_bind_grows (Scheduler.tick_copying now) fun _ _ _ => trivial
  | reconcilerTick now => exact sat_bind_grows (Reconciler.tick_copying timeout now) fun _ _ _ => trivial

/-! ## Every interleaving -/

variable {ι : Type} [DecidableEq ι] {timeout : Duration} {s : Store} {e : ι → Event} {tr : List (CallStep ι)}
  {cfg : Concurrent ι}

/-- The store is sound, and what the executions have read is stored. -/
structure Consistent (cfg : Concurrent ι) : Prop where
  sound : Sound cfg.state
  recorded : ∀ i, Recorded (cfg.hist i) cfg.state

theorem Consistent.call {i : ι} {c : Call} {k : Resp c → M (Option Response)} {hist : CallHist} {r : Resp c}
    {s' : Store} (hJ : Consistent cfg) (hi : cfg.threads i = ⟨.call c k, hist⟩) (hd : Copying hist c)
    (hE : Exec c cfg.state r s') :
    SpecsKept cfg.state s' ∧ Consistent (cfg.push i ⟨k r, hist ++ [⟨c, r⟩]⟩ s') := by
  have hr : Recorded hist cfg.state := by
    rw [← Config.hist_of_threads hi]
    exact hJ.recorded i
  obtain ⟨hkept, hsound⟩ := hJ.sound.call hr hd hE
  refine ⟨hkept, hsound, fun j => ?_⟩
  by_cases hj : j = i
  · subst hj
    rw [Config.push_hist_self]
    exact (hr.call hE).later hkept
  · rw [Config.push_hist_ne _ _ _ hj]
    exact (hJ.recorded j).later hkept

theorem consistent_steps (hs : Sound s) (h : Run (Config.Next Exec) (launch timeout s e) tr cfg) :
    Consistent cfg ∧ ∀ x ∈ tr, SpecsKept x.src.state x.dst.state := by
  have hP (i : ι) := Event.prog_copying timeout (e i)
  have h0 : Consistent (launch timeout s e) := ⟨hs, fun i => recorded_nil s⟩
  have hstep (cfg : Concurrent ι) i c k hist r s' (hJ : Consistent cfg) (hi : cfg.threads i = ⟨.call c k, hist⟩)
      (hd : Copying hist c) (hE : Exec c cfg.state r s')
      (_ : (fun _ : CallStep ι => True) ⟨cfg, (i, ⟨c, r⟩), cfg.push i ⟨k r, hist ++ [⟨c, r⟩]⟩ s'⟩) :
      (fun (c : Call) (_ : Resp c) => True) c r ∧ Consistent (cfg.push i ⟨k r, hist ++ [⟨c, r⟩]⟩ s') :=
    ⟨trivial, (hJ.call hi hd hE).2⟩
  refine ⟨(Run.interleave Consistent (fun _ => True) hstep hP h0 h fun _ _ => trivial).1, ?_⟩
  rintro ⟨cfg₁, l, cfg₂⟩ hx
  obtain ⟨hJ, hd⟩ := Run.interleave_step Consistent (fun _ => True) hstep hP h0 h (fun _ _ => trivial) _ hx
  obtain ⟨-, -, -, -, hnext⟩ := h.before hx
  change Config.Next Exec cfg₁ l cfg₂ at hnext
  obtain ⟨i, c, k, hist, r, hi, hE⟩ := hnext
  change Copying (cfg₁.hist i) c at hd
  rw [Config.hist_of_threads hi] at hd
  exact (hJ.call hi hd hE).1

/-- **Records keep what they are.**  In every interleaving of requests and passes, from a sound store, no record is lost
and none changes what it was made with, although records are overwritten with old copies; every pod carries the
template of its deployment. -/
theorem records_keep_specs (hs : Sound s) (h : Run (Config.Next Exec) (launch timeout s e) tr cfg) :
    Sound cfg.state ∧ ∀ x ∈ tr, SpecsKept x.src.state cfg.state := by
  obtain ⟨hJ, hkept⟩ := consistent_steps hs h
  refine ⟨hJ.sound, fun x hx => ?_⟩
  exact Run.stays (fun c => SpecsKept x.src.state c.state) h (fun y hy hP => hP.trans (hkept y hy)) x hx (.refl _)

theorem sound_empty : Sound {} := by
  constructor <;> intro k a ha <;> cases ha

/-- A pod is started, and two reports of its end come in. -/
def startedAndReported (i : Nat) : Event :=
  ([.register (some { address := "a:1", capacity := { cpu := 4, memoryMB := 100 }, maxConcurrent := 2 }),
    .submit (some { name := "web", command := "run", resources := { cpu := 1, memoryMB := 40 } }),
    .reconcilerTick 3, .schedulerTick 4, .report "node_00000000" "pod_00000002" (some { status := .running }),
    .report "node_00000000" "pod_00000002" (some { status := .succeeded }),
    .report "node_00000000" "pod_00000002" (some { status := .failed })] : List Event).getD i (.poll "")

/-- The last report reads the pod, the one before runs to its end, the last one writes its copy back. -/
def revivingSchedule : List Nat :=
  [0, 1, 2, 3, 4].flatMap (List.replicate 20) ++ [6] ++ List.replicate 20 5 ++ [6]

theorem records_keep_specs_revived :
    ((interleaved 7 (launch (15 * second) {} startedAndReported) revivingSchedule).state.pods.get "pod_00000002").map
      (fun p => (p.status, p.command)) = some (.running, "run") ∧
    Sound (interleaved 7 (launch (15 * second) {} startedAndReported) revivingSchedule).state ∧
    ∀ x ∈ interleaving 7 (launch (15 * second) {} startedAndReported) revivingSchedule,
      SpecsKept x.src.state (interleaved 7 (launch (15 * second) {} startedAndReported) revivingSchedule).state :=
  ⟨by decide +kernel, records_keep_specs sound_empty (run_interleaving 7 _ _)⟩

end ControlPlane
