import InfraPlatform.ControlPlane.Store

/-!
# What the store calls do

One lemma for each way of using the store: `runs_…` says what a call of the
interface may answer and leave, `…_ok` what a write does when its guard holds.
Programs are taken apart with these, and the operations are not unfolded again.
-/

namespace ControlPlane

open Lib Lib.Prog

variable {s s' : Store}

/-! ## Runs of single calls -/

@[simp] theorem runs_ask {c : Call} {r : Resp c} : Runs Exec (ask c) s r s' ↔ Exec c s r s' := runs_op

/-- What a listing returns, whatever its order: the rows asked for, each once. -/
theorem mem_of_perm_filter {κ α : Type} [DecidableEq κ] {key : α → κ} {t : Table key} {f : α → Bool} {l : List α}
    (h : l.Perm (t.rows.filter f)) {a : α} : a ∈ l ↔ t.get (key a) = some a ∧ f a = true := by
  rw [h.mem_iff, List.mem_filter, Table.mem_rows_iff]

theorem nodup_of_perm_filter {κ α : Type} {key : α → κ} {t : Table key} {f : α → Bool} {l : List α}
    (h : l.Perm (t.rows.filter f)) : (l.map key).Nodup :=
  (h.map key).nodup_iff.mpr ((List.Sublist.map key List.filter_sublist).nodup t.nodup)

@[simp] theorem runs_createDeployment {d : Deployment} {r : Res} :
    Runs Exec (State.createDeployment d) s r s' ↔ (r, s') = s.createDeployment d := runs_ask

@[simp] theorem runs_getDeployment {id : String} {r : Except StoreErr Deployment} :
    Runs Exec (State.getDeployment id) s r s' ↔ r = s.getDeployment id ∧ s' = s := runs_ask

@[simp] theorem runs_listDeployments {r : Except StoreErr (List Deployment)} :
    Runs Exec State.listDeployments s r s' ↔ Lists s.deployments.rows (fun _ => true) r ∧ s' = s := runs_ask

@[simp] theorem runs_createPod {p : Pod} {r : Res} :
    Runs Exec (State.createPod p) s r s' ↔ (r, s') = s.createPod p := runs_ask

@[simp] theorem runs_getPod {id : String} {r : Except StoreErr Pod} :
    Runs Exec (State.getPod id) s r s' ↔ r = s.getPod id ∧ s' = s := runs_ask

@[simp] theorem runs_listPodsByDeployment {d : String} {r : Except StoreErr (List Pod)} :
    Runs Exec (State.listPodsByDeployment d) s r s' ↔
      Lists s.pods.rows (fun p => p.deploymentID = d) r ∧ s' = s := runs_ask

@[simp] theorem runs_listPodsByStatus {st : PodStatus} {r : Except StoreErr (List Pod)} :
    Runs Exec (State.listPodsByStatus st) s r s' ↔ Lists s.pods.rows (fun p => p.status = st) r ∧ s' = s :=
  runs_ask

@[simp] theorem runs_listPodsByNode {n : String} {r : Except StoreErr (List Pod)} :
    Runs Exec (State.listPodsByNode n) s r s' ↔ Lists s.pods.rows (fun p => p.nodeID = n) r ∧ s' = s :=
  runs_ask

@[simp] theorem runs_updatePod {p : Pod} {r : Res} :
    Runs Exec (State.updatePod p) s r s' ↔ (r, s') = s.updatePod p := runs_ask

@[simp] theorem runs_registerNode {n : Node} {r : Res} :
    Runs Exec (State.registerNode n) s r s' ↔ (r, s') = s.registerNode n := runs_ask

@[simp] theorem runs_getNode {id : String} {r : Except StoreErr Node} :
    Runs Exec (State.getNode id) s r s' ↔ r = s.getNode id ∧ s' = s := runs_ask

@[simp] theorem runs_listNodes {r : Except StoreErr (List Node)} :
    Runs Exec State.listNodes s r s' ↔ Lists s.nodes.rows (fun _ => true) r ∧ s' = s := runs_ask

@[simp] theorem runs_updateNode {n : Node} {r : Res} :
    Runs Exec (State.updateNode n) s r s' ↔ (r, s') = s.updateNode n := runs_ask

@[simp] theorem runs_transitionNode {id : String} {dest : NodeStatus} {r : Res} :
    Runs Exec (State.transitionNode id dest) s r s' ↔ (r, s') = s.transitionNode id dest := runs_ask

@[simp] theorem runs_getService {id : String} {r : Except StoreErr Service} :
    Runs Exec (State.getService id) s r s' ↔ r = s.getService id ∧ s' = s := runs_ask

@[simp] theorem runs_deleteService {id : String} {r : Res} :
    Runs Exec (State.deleteService id) s r s' ↔ (r, s') = s.deleteService id := runs_ask

@[simp] theorem runs_timeNow {t : Time} : Runs Exec timeNow s t s' ↔ s' = s := runs_ask

@[simp] theorem runs_randRead {b : RandBytes} : Runs Exec randRead s b s' ↔ s' = s := runs_ask

/-- A program that starts with a clock reading runs as the rest does, at some time. -/
theorem runs_atNow {β : Type} {f : Time → M β} {r : β} :
    Runs Exec (ask .now >>= f) s r s' ↔ ∃ now, Runs Exec (f now) s r s' := by
  rw [runs_bind]
  constructor
  · rintro ⟨now, s₁, h1, h2⟩
    obtain rfl : s₁ = s := runs_ask.mp h1
    exact ⟨now, h2⟩
  · rintro ⟨now, h⟩
    exact ⟨now, s, runs_ask.mpr rfl, h⟩

@[simp] theorem runs_transitionDeployment {id : String} {dest : DeploymentStatus} {r : Res} :
    Runs Exec (State.transitionDeployment id dest) s r s' ↔
      ∃ now, (r, s') = s.transitionDeployment id dest now :=
  runs_atNow.trans (exists_congr fun _ => runs_ask)

@[simp] theorem runs_transitionPod {id : String} {dest : PodStatus} {msg : String} {r : Res} :
    Runs Exec (State.transitionPod id dest msg) s r s' ↔ ∃ now, (r, s') = s.transitionPod id dest msg now :=
  runs_atNow.trans (exists_congr fun _ => runs_ask)

@[simp] theorem runs_upsertService {svc : Service} {r : Res} :
    Runs Exec (State.upsertService svc) s r s' ↔ ∃ now, (r, s') = s.upsertService svc now :=
  runs_atNow.trans (exists_congr fun _ => runs_ask)

@[simp] theorem runs_generateID {kind : String} {r : Option String} :
    Runs Exec (generateID kind) s r s' ↔ (∃ b : RandBytes, r = b.map (idOf kind)) ∧ s' = s := by
  unfold generateID
  simp only [runs_bind, runs_randRead, pure_eq, runs_ret]
  constructor
  · rintro ⟨b, _, rfl, rfl, rfl⟩
    exact ⟨⟨b, rfl⟩, rfl⟩
  · rintro ⟨⟨b, rfl⟩, rfl⟩
    exact ⟨b, _, rfl, rfl, rfl⟩

/-! ## Runs with given clock readings -/

def ReadsIn (T : Time → Prop) : (c : Call) → Store → Resp c → Prop
  | .now, _, t => T t
  | _, _, _ => True

/-- What a call may do when the clock readings lie in `T`. -/
def ExecIn (T : Time → Prop) : Effect Call Resp Store := Effect.only Exec (ReadsIn T)

section ExecIn

variable {T : Time → Prop}

theorem ExecIn.exec {α : Type} {p : M α} {a : α} (h : Runs (ExecIn T) p s a s') : Runs Exec p s a s' := h.of_only

theorem execIn_all {α : Type} {p : M α} {a : α} (h : Runs Exec p s a s') : Runs (ExecIn fun _ => True) p s a s' :=
  h.only fun c _ _ => by cases c <;> trivial

/-- The answers of an executable store whose clock shows `t`. -/
theorem exec_allowedIn {t : Time} (hT : T t) (c : Call) (s : Store) : ExecIn T c s (s.exec t c).1 (s.exec t c).2 := by
  refine ⟨exec_allowed t c s, ?_⟩
  cases c with
  | now => exact hT
  | _ => trivial

theorem runsIn_ask {c : Call} {r : Resp c} :
    Runs (ExecIn T) (ask c) s r s' ↔ Exec c s r s' ∧ ReadsIn T c s r := runs_op

theorem runsIn_getDeployment {id : String} {r : Except StoreErr Deployment} :
    Runs (ExecIn T) (State.getDeployment id) s r s' ↔ r = s.getDeployment id ∧ s' = s :=
  runsIn_ask.trans (and_iff_left trivial)

theorem runsIn_listPodsByStatus {st : PodStatus} {r : Except StoreErr (List Pod)} :
    Runs (ExecIn T) (State.listPodsByStatus st) s r s' ↔ Lists s.pods.rows (fun p => p.status = st) r ∧ s' = s :=
  runsIn_ask.trans (and_iff_left trivial)

theorem runsIn_listPodsByNode {n : String} {r : Except StoreErr (List Pod)} :
    Runs (ExecIn T) (State.listPodsByNode n) s r s' ↔ Lists s.pods.rows (fun p => p.nodeID = n) r ∧ s' = s :=
  runsIn_ask.trans (and_iff_left trivial)

theorem runsIn_updatePod {p : Pod} {r : Res} :
    Runs (ExecIn T) (State.updatePod p) s r s' ↔ (r, s') = s.updatePod p := runsIn_ask.trans (and_iff_left trivial)

theorem runsIn_listNodes {r : Except StoreErr (List Node)} :
    Runs (ExecIn T) State.listNodes s r s' ↔ Lists s.nodes.rows (fun _ => true) r ∧ s' = s :=
  runsIn_ask.trans (and_iff_left trivial)

theorem runsIn_updateNode {n : Node} {r : Res} :
    Runs (ExecIn T) (State.updateNode n) s r s' ↔ (r, s') = s.updateNode n := runsIn_ask.trans (and_iff_left trivial)

theorem runsIn_transitionNode {id : String} {dest : NodeStatus} {r : Res} :
    Runs (ExecIn T) (State.transitionNode id dest) s r s' ↔ (r, s') = s.transitionNode id dest :=
  runsIn_ask.trans (and_iff_left trivial)

theorem runsIn_timeNow {t : Time} : Runs (ExecIn T) timeNow s t s' ↔ s' = s ∧ T t := runsIn_ask

theorem runsIn_transitionPod {id : String} {dest : PodStatus} {msg : String} {r : Res} :
    Runs (ExecIn T) (State.transitionPod id dest msg) s r s' ↔
      ∃ now, T now ∧ (r, s') = s.transitionPod id dest msg now := by
  unfold State.transitionPod
  rw [runs_bind]
  constructor
  · rintro ⟨now, s₁, h1, h2⟩
    obtain ⟨rfl, hT⟩ := runsIn_timeNow.mp h1
    exact ⟨now, hT, (runsIn_ask.mp h2).1⟩
  · rintro ⟨now, hT, h⟩
    exact ⟨now, s, runsIn_timeNow.mpr ⟨rfl, hT⟩, runsIn_ask.mpr ⟨h, trivial⟩⟩

end ExecIn

namespace Store

/-! ## Fields after a write -/

@[simp] theorem putDeployment_deployments (d : Deployment) :
    (s.putDeployment d).deployments = s.deployments.put d := rfl

@[simp] theorem putDeployment_pods (d : Deployment) : (s.putDeployment d).pods = s.pods := rfl

@[simp] theorem putDeployment_nodes (d : Deployment) : (s.putDeployment d).nodes = s.nodes := rfl

@[simp] theorem putPod_deployments (p : Pod) : (s.putPod p).deployments = s.deployments := rfl

@[simp] theorem putPod_pods (p : Pod) : (s.putPod p).pods = s.pods.put p := rfl

@[simp] theorem putPod_nodes (p : Pod) : (s.putPod p).nodes = s.nodes := rfl

@[simp] theorem putNode_deployments (n : Node) : (s.putNode n).deployments = s.deployments := rfl

@[simp] theorem putNode_pods (n : Node) : (s.putNode n).pods = s.pods := rfl

@[simp] theorem putNode_nodes (n : Node) : (s.putNode n).nodes = s.nodes.put n := rfl

theorem putPod_putPod {p q : Pod} (h : p.id = q.id) : (s.putPod p).putPod q = s.putPod q := by
  show { s with pods := (s.pods.put p).put q } = _
  rw [Table.put_put h]
  rfl

theorem putPod_self {p : Pod} (h : s.pods.get p.id = some p) : s.putPod p = s := by
  unfold putPod
  rw [Table.put_self h]

theorem putNode_putNode {n m : Node} (h : n.id = m.id) : (s.putNode n).putNode m = s.putNode m := by
  show { s with nodes := (s.nodes.put n).put m } = _
  rw [Table.put_put h]
  rfl

theorem putNode_withStatus (n : Node) (st : NodeStatus) :
    (s.putNode n).putNode (n.withStatus st) = s.putNode (n.withStatus st) := putNode_putNode rfl

/-! ## Lookups -/

theorem getPod_some {id : String} {p : Pod} (h : s.pods.get id = some p) : s.getPod id = .ok p := by
  unfold getPod; rw [h]

theorem getPod_none {id : String} (h : s.pods.get id = none) : s.getPod id = .error .notFound := by
  unfold getPod; rw [h]

theorem getNode_some {id : String} {n : Node} (h : s.nodes.get id = some n) : s.getNode id = .ok n := by
  unfold getNode; rw [h]

theorem getNode_none {id : String} (h : s.nodes.get id = none) : s.getNode id = .error .notFound := by
  unfold getNode; rw [h]

theorem getDeployment_some {id : String} {d : Deployment} (h : s.deployments.get id = some d) :
    s.getDeployment id = .ok d := by
  unfold getDeployment; rw [h]

theorem getDeployment_none {id : String} (h : s.deployments.get id = none) :
    s.getDeployment id = .error .notFound := by
  unfold getDeployment; rw [h]

/-! ## Writes -/

theorem updatePod_some {p q : Pod} (h : s.pods.get p.id = some q) :
    s.updatePod p = (.ok (), s.putPod p) := by
  unfold updatePod; rw [h]; rfl

theorem updateNode_some {n m : Node} (h : s.nodes.get n.id = some m) :
    s.updateNode n = (.ok (), s.putNode n) := by
  unfold updateNode; rw [h]; rfl

theorem transitionPod_of {id : String} {p : Pod} {dest : PodStatus} {msg : String} {now : Time}
    (h : s.pods.get id = some p) (ht : ControlPlane.transitionPod p.status dest = true) :
    s.transitionPod id dest msg now = (.ok (), s.putPod (movePod p dest msg now)) := by
  unfold transitionPod; rw [h]; simp [ht]

theorem transitionPod_not {id : String} {p : Pod} {dest : PodStatus} {msg : String} {now : Time}
    (h : s.pods.get id = some p) (ht : ControlPlane.transitionPod p.status dest = false) :
    s.transitionPod id dest msg now = (.error .invalidTransition, s) := by
  unfold transitionPod; rw [h]; simp [ht]

theorem transitionNode_of {id : String} {n : Node} {dest : NodeStatus} (h : s.nodes.get id = some n)
    (ht : ControlPlane.transitionNode n.status dest = true) :
    s.transitionNode id dest = (.ok (), s.putNode (n.withStatus dest)) := by
  unfold transitionNode; rw [h]; simp [ht]

theorem transitionNode_not {id : String} {n : Node} {dest : NodeStatus} (h : s.nodes.get id = some n)
    (ht : ControlPlane.transitionNode n.status dest = false) :
    s.transitionNode id dest = (.error .invalidTransition, s) := by
  unfold transitionNode; rw [h]; simp [ht]

theorem transitionDeployment_of {id : String} {d : Deployment} {dest : DeploymentStatus} {now : Time}
    (h : s.deployments.get id = some d) (ht : ControlPlane.transitionDeployment d.status dest = true) :
    s.transitionDeployment id dest now =
      (.ok (), s.putDeployment (moveDeployment d dest now)) := by
  unfold transitionDeployment; rw [h]; simp [ht]

theorem transitionDeployment_not {id : String} {d : Deployment} {dest : DeploymentStatus} {now : Time}
    (h : s.deployments.get id = some d) (ht : ControlPlane.transitionDeployment d.status dest = false) :
    s.transitionDeployment id dest now = (.error .invalidTransition, s) := by
  unfold transitionDeployment; rw [h]; simp [ht]

/-! ## The moved pod -/

@[simp] theorem movePod_id (p : Pod) (dest : PodStatus) (msg : String) (now : Time) :
    (movePod p dest msg now).id = p.id := rfl

@[simp] theorem movePod_status (p : Pod) (dest : PodStatus) (msg : String) (now : Time) :
    (movePod p dest msg now).status = dest := rfl

@[simp] theorem movePod_nodeID (p : Pod) (dest : PodStatus) (msg : String) (now : Time) :
    (movePod p dest msg now).nodeID = p.nodeID := rfl

@[simp] theorem movePod_deploymentID (p : Pod) (dest : PodStatus) (msg : String) (now : Time) :
    (movePod p dest msg now).deploymentID = p.deploymentID := rfl

@[simp] theorem movePod_attempt (p : Pod) (dest : PodStatus) (msg : String) (now : Time) :
    (movePod p dest msg now).attempt = p.attempt := rfl

end Store

/-! ## What a call may write -/

/-- How a call leaves the store: as it was, or with one record written. -/
inductive Write (s : Store) : Call → Store → Prop where
  | nothing (c : Call) : Write s c s
  | createDeployment (d : Deployment) : s.deployments.get d.id = none →
      Write s (.createDeployment d) (s.putDeployment d)
  | transitionDeployment (id : String) (dest : DeploymentStatus) (now : Time) (d : Deployment) :
      s.deployments.get id = some d → transitionDeployment d.status dest = true →
      Write s (.transitionDeployment id dest now) (s.putDeployment (Store.moveDeployment d dest now))
  | createPod (p : Pod) : s.pods.get p.id = none → Write s (.createPod p) (s.putPod p)
  | updatePod (p q : Pod) : s.pods.get p.id = some q → Write s (.updatePod p) (s.putPod p)
  | transitionPod (id : String) (dest : PodStatus) (msg : String) (now : Time) (p : Pod) :
      s.pods.get id = some p → transitionPod p.status dest = true →
      Write s (.transitionPod id dest msg now) (s.putPod (Store.movePod p dest msg now))
  | registerNode (n : Node) : s.nodes.get n.id = none → Write s (.registerNode n) (s.putNode n)
  | updateNode (n m : Node) : s.nodes.get n.id = some m → Write s (.updateNode n) (s.putNode n)
  | transitionNode (id : String) (dest : NodeStatus) (n : Node) :
      s.nodes.get id = some n → transitionNode n.status dest = true →
      Write s (.transitionNode id dest) (s.putNode (n.withStatus dest))
  | services (c : Call) (t : Table Service.id) : c.onServices = true → Write s c { s with services := t }

theorem exec_write {c : Call} {r : Resp c} (h : Exec c s r s') : Write s c s' := by
  cases c with
  | createDeployment d =>
    replace h : (r, s') = s.createDeployment d := h
    unfold Store.createDeployment at h
    split at h <;> obtain ⟨-, rfl⟩ := Prod.mk.inj h
    · exact .nothing _
    · next hnone => exact .createDeployment d (by simpa using hnone)
  | transitionDeployment id dest now =>
    replace h : (r, s') = s.transitionDeployment id dest now := h
    unfold Store.transitionDeployment at h
    split at h
    · obtain ⟨-, rfl⟩ := Prod.mk.inj h
      exact .nothing _
    · next d hd =>
      split at h <;> obtain ⟨-, rfl⟩ := Prod.mk.inj h
      · next hst => exact .transitionDeployment id dest now d hd hst
      · exact .nothing _
  | createPod p =>
    replace h : (r, s') = s.createPod p := h
    unfold Store.createPod at h
    split at h <;> obtain ⟨-, rfl⟩ := Prod.mk.inj h
    · exact .nothing _
    · next hnone => exact .createPod p (by simpa using hnone)
  | updatePod p =>
    replace h : (r, s') = s.updatePod p := h
    unfold Store.updatePod at h
    split at h <;> obtain ⟨-, rfl⟩ := Prod.mk.inj h
    · next hq =>
      obtain ⟨q, hq⟩ := Option.isSome_iff_exists.mp hq
      exact .updatePod p q hq
    · exact .nothing _
  | transitionPod id dest msg now =>
    replace h : (r, s') = s.transitionPod id dest msg now := h
    unfold Store.transitionPod at h
    split at h
    · obtain ⟨-, rfl⟩ := Prod.mk.inj h
      exact .nothing _
    · next p hp =>
      split at h <;> obtain ⟨-, rfl⟩ := Prod.mk.inj h
      · next hst => exact .transitionPod id dest msg now p hp hst
      · exact .nothing _
  | registerNode n =>
    replace h : (r, s') = s.registerNode n := h
    unfold Store.registerNode at h
    split at h <;> obtain ⟨-, rfl⟩ := Prod.mk.inj h
    · exact .nothing _
    · next hnone => exact .registerNode n (by simpa using hnone)
  | updateNode n =>
    replace h : (r, s') = s.updateNode n := h
    unfold Store.updateNode at h
    split at h <;> obtain ⟨-, rfl⟩ := Prod.mk.inj h
    · next hm =>
      obtain ⟨m, hm⟩ := Option.isSome_iff_exists.mp hm
      exact .updateNode n m hm
    · exact .nothing _
  | transitionNode id dest =>
    replace h : (r, s') = s.transitionNode id dest := h
    unfold Store.transitionNode at h
    split at h
    · obtain ⟨-, rfl⟩ := Prod.mk.inj h
      exact .nothing _
    · next n hn =>
      split at h <;> obtain ⟨-, rfl⟩ := Prod.mk.inj h
      · next hst => exact .transitionNode id dest n hn hst
      · exact .nothing _
  | upsertService svc now =>
    replace h : (r, s') = s.upsertService svc now := h
    obtain ⟨-, rfl⟩ := Prod.mk.inj h
    exact .services _ _ rfl
  | deleteService id =>
    replace h : (r, s') = s.deleteService id := h
    unfold Store.deleteService at h
    split at h <;> obtain ⟨-, rfl⟩ := Prod.mk.inj h
    · exact .services _ _ rfl
    · exact .nothing _
  | now => obtain rfl : s' = s := h; exact .nothing _
  | randRead => obtain rfl : s' = s := h; exact .nothing _
  | _ => obtain ⟨-, rfl⟩ := h; exact .nothing _

end ControlPlane
