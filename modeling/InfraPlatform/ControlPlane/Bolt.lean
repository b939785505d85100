import InfraPlatform.Lib.Run
import InfraPlatform.ControlPlane.Encoding
import InfraPlatform.ControlPlane.Interface

/-!
# The persistent store

`BoltStore` keeps each entity as JSON in a bbolt bucket.  The texts of `encoding/json`
and `time` and the buckets of bbolt are an `Engine`, known by its laws.

* `create`, `overwrite`, `transition`, `remove` and `list` are the shapes of its methods;
  each is shown to do to a bucket what `MemoryStore` does to the table it holds.
* `Sim` relates the two stores, and `Sim.handle` is the step: from related stores every
  method gives the same answer and leaves related stores.
* `BoltStore.drop_in`: the two stores give the same answers to every list of calls.
-/

namespace ControlPlane

open Lib

/-- The keys that bbolt accepts. -/
def ValidKey (k : String) : Prop := k ≠ "" ∧ k.utf8ByteSize ≤ 32768

instance : DecidablePred ValidKey := fun k => inferInstanceAs (Decidable (k ≠ "" ∧ k.utf8ByteSize ≤ 32768))

structure Engine where
  json : JsonText
  time : TimeText
  buckets : Buckets json.Raw ValidKey

inductive BoltErr where
  | store (err : StoreErr)
  | encoding
  | bbolt
deriving DecidableEq

inductive BucketName where
  | deployments | pods | nodes | services
deriving DecidableEq

/-- The database, which is also what a transaction works on. -/
abbrev DB (B : Engine) := BucketName → B.buckets.Bucket

namespace BoltStore

variable {B : Engine} {α : Type}

/-! ## Helpers -/

def bget (C : RowCodec B.json.Raw α) (tx : DB B) (bucket : BucketName) (id : String) : Except BoltErr α :=
  match B.buckets.get (tx bucket) id with
  | none => .error (.store .notFound)
  | some raw =>
    match C.dec raw with
    | none => .error .encoding
    | some v => .ok v

def bput (C : RowCodec B.json.Raw α) (tx : DB B) (bucket : BucketName) (id : String) (v : α) :
    Except BoltErr (DB B) :=
  match C.enc v with
  | none => .error .encoding
  | some raw =>
    match B.buckets.put (tx bucket) id raw with
    | none => .error .bbolt
    | some b => .ok (Function.update tx bucket b)

def bdelete (tx : DB B) (bucket : BucketName) (id : String) : Except BoltErr (DB B) :=
  match B.buckets.get (tx bucket) id with
  | none => .error (.store .notFound)
  | some _ =>
    match B.buckets.delete (tx bucket) id with
    | none => .error .bbolt
    | some b => .ok (Function.update tx bucket b)

/-- `db.Update`: an error rolls the transaction back. -/
def update (db : DB B) (fn : DB B → Except BoltErr (DB B)) : Except BoltErr Unit × DB B :=
  match fn db with
  | .error err => (.error err, db)
  | .ok tx => (.ok (), tx)

/-! ## The shapes of the methods -/

section

variable (C : RowCodec B.json.Raw α) (bucket : BucketName)

def create (v : α) (db : DB B) : Except BoltErr Unit × DB B :=
  update db fun tx =>
    if (B.buckets.get (tx bucket) (C.key v)).isSome then .error (.store .alreadyExists)
    else bput C tx bucket (C.key v) v

def overwrite (v : α) (db : DB B) : Except BoltErr Unit × DB B :=
  update db fun tx =>
    if (B.buckets.get (tx bucket) (C.key v)).isSome then bput C tx bucket (C.key v) v
    else .error (.store .notFound)

def transition (id : String) (legal : α → Bool) (move : α → α) (db : DB B) : Except BoltErr Unit × DB B :=
  update db fun tx =>
    match bget C tx bucket id with
    | .error err => .error err
    | .ok v =>
      if legal v then bput C tx bucket id (move v) else .error (.store .invalidTransition)

def remove (id : String) (db : DB B) : Except BoltErr Unit × DB B :=
  update db fun tx => bdelete tx bucket id

/-- The closure given to `ForEach`, over the entries: the first one that does not decode ends the listing. -/
def collect (f : α → Bool) : List (String × B.json.Raw) → Except BoltErr (List α)
  | [] => .ok []
  | e :: rest =>
    match C.dec e.2 with
    | none => .error .encoding
    | some v => (collect f rest).map fun out => if f v then v :: out else out

def list (f : α → Bool) (db : DB B) : Except BoltErr (List α) := collect C f (B.buckets.forEach (db bucket))

end

/-! ## Methods -/

variable (B) in
abbrev deploymentC := Deployment.codec B.json B.time

variable (B) in
abbrev podC := Pod.codec B.json B.time

variable (B) in
abbrev nodeC := Node.codec B.json B.time

variable (B) in
abbrev serviceC := Service.codec B.json B.time

def createDeployment (d : Deployment) (db : DB B) := create (deploymentC B) .deployments d db

def getDeployment (id : String) (db : DB B) := bget (deploymentC B) db .deployments id

def listDeployments (db : DB B) := list (deploymentC B) .deployments (fun _ => true) db

def listDeploymentsByNamespace (ns : String) (db : DB B) :=
  list (deploymentC B) .deployments (fun d => d.ns == ns) db

def updateDeployment (d : Deployment) (now : Time) (db : DB B) :=
  overwrite (deploymentC B) .deployments { d with updatedAt := now } db

def transitionDeployment (id : String) (dest : DeploymentStatus) (now : Time) (db : DB B) :=
  transition (deploymentC B) .deployments id (fun d => ControlPlane.transitionDeployment d.status dest)
    (fun d => Store.moveDeployment d dest now) db

def deleteDeployment (id : String) (db : DB B) := remove .deployments id db

def createPod (p : Pod) (db : DB B) := create (podC B) .pods p db

def getPod (id : String) (db : DB B) := bget (podC B) db .pods id

def listPodsByDeployment (deploymentID : String) (db : DB B) :=
  list (podC B) .pods (fun p => p.deploymentID == deploymentID) db

def listPodsByStatus (status : PodStatus) (db : DB B) := list (podC B) .pods (fun p => p.status == status) db

def listPodsByNode (nodeID : String) (db : DB B) := list (podC B) .pods (fun p => p.nodeID == nodeID) db

def listPodsByLabels (ns : String) (selector : Labels) (db : DB B) :=
  list (podC B) .pods (fun p => (ns == "" || p.ns == ns) && matchesSelector p.labels selector) db

def updatePod (p : Pod) (db : DB B) := overwrite (podC B) .pods p db

def transitionPod (id : String) (dest : PodStatus) (errMsg : String) (now : Time) (db : DB B) :=
  transition (podC B) .pods id (fun p => ControlPlane.transitionPod p.status dest)
    (fun p => Store.movePod p dest errMsg now) db

def registerNode (n : Node) (db : DB B) := create (nodeC B) .nodes n db

def getNode (id : String) (db : DB B) := bget (nodeC B) db .nodes id

def listNodes (db : DB B) := list (nodeC B) .nodes (fun _ => true) db

def listNodesByLabels (selector : Labels) (db : DB B) :=
  list (nodeC B) .nodes (fun n => matchesSelector n.labels selector) db

def updateNode (n : Node) (db : DB B) := overwrite (nodeC B) .nodes n db

def transitionNode (id : String) (dest : NodeStatus) (db : DB B) :=
  transition (nodeC B) .nodes id (fun n => ControlPlane.transitionNode n.status dest)
    (fun n => n.withStatus dest) db

def upsertService (svc : Service) (now : Time) (db : DB B) :=
  update db fun tx => bput (serviceC B) tx .services svc.id { svc with updatedAt := now }

def getService (id : String) (db : DB B) := bget (serviceC B) db .services id

def listServices (db : DB B) := list (serviceC B) .services (fun _ => true) db

def deleteService (id : String) (db : DB B) := remove .services id db

def handle : Method → DB B → Answer BoltErr × DB B
  | .createDeployment d, db => written (createDeployment d db)
  | .getDeployment id, db => (found .deployment (getDeployment id db), db)
  | .listDeployments, db => (listed .deployment (listDeployments db), db)
  | .listDeploymentsByNamespace ns, db => (listed .deployment (listDeploymentsByNamespace ns db), db)
  | .updateDeployment d now, db => written (updateDeployment d now db)
  | .transitionDeployment id dest now, db => written (transitionDeployment id dest now db)
  | .deleteDeployment id, db => written (deleteDeployment id db)
  | .createPod p, db => written (createPod p db)
  | .getPod id, db => (found .pod (getPod id db), db)
  | .listPodsByDeployment d, db => (listed .pod (listPodsByDeployment d db), db)
  | .listPodsByStatus status, db => (listed .pod (listPodsByStatus status db), db)
  | .listPodsByNode n, db => (listed .pod (listPodsByNode n db), db)
  | .listPodsByLabels ns selector, db => (listed .pod (listPodsByLabels ns selector db), db)
  | .updatePod p, db => written (updatePod p db)
  | .transitionPod id dest errMsg now, db => written (transitionPod id dest errMsg now db)
  | .registerNode n, db => written (registerNode n db)
  | .getNode id, db => (found .node (getNode id db), db)
  | .listNodes, db => (listed .node (listNodes db), db)
  | .listNodesByLabels selector, db => (listed .node (listNodesByLabels selector db), db)
  | .updateNode n, db => written (updateNode n db)
  | .transitionNode id dest, db => written (transitionNode id dest db)
  | .upsertService svc now, db => written (upsertService svc now db)
  | .getService id, db => (found .service (getService id db), db)
  | .listServices, db => (listed .service (listServices db), db)
  | .deleteService id, db => written (deleteService id db)

/-- `NewBoltStore` on a new file: four empty buckets. -/
def new : DB B := fun _ => B.buckets.empty

/-! ## What each shape does to the table a bucket holds -/

section

variable {C : RowCodec B.json.Raw α} {bucket : BucketName} {db : DB B} {t t' : Table C.key} {id : String}

theorem bget_missing (h : Holds C B.buckets t (db bucket)) (hk : t.get id = none) :
    bget C db bucket id = .error (.store .notFound) := by
  unfold bget
  rw [h.get_none hk]

theorem bget_found {a : α} (h : Holds C B.buckets t (db bucket)) (hk : t.get id = some a) :
    bget C db bucket id = .ok (C.norm a) := by
  obtain ⟨raw, hraw, hdec⟩ := h.get_some hk
  unfold bget
  rw [hraw]
  simp only [hdec]

theorem bput_holds {a a' : α} (h : Holds C B.buckets t (db bucket)) (ha : C.Valid a) (ha' : C.Valid a')
    (hnorm : C.norm a' = C.norm a) (hkey : ValidKey (C.key a)) :
    ∃ b, bput C db bucket (C.key a) a' = .ok (Function.update db bucket b) ∧ Holds C B.buckets (t.put a) b := by
  obtain ⟨raw, b, henc, hput, hb⟩ := h.put ha ha' hnorm hkey
  refine ⟨b, ?_, hb⟩
  unfold bput
  rw [henc]
  simp only [hput]

/-- The transaction answers `r` and leaves the table `t'` in its bucket, and the others as they were. -/
def Leaves (C : RowCodec B.json.Raw α) (bucket : BucketName) (db : DB B) (out : Except BoltErr Unit × DB B)
    (r : Res) (t' : Table C.key) : Prop :=
  out.1 = r.mapError .store ∧ ∃ b, out.2 = Function.update db bucket b ∧ Holds C B.buckets t' b

variable {fn : DB B → Except BoltErr (DB B)}

theorem update_error {err : StoreErr} (h : Holds C B.buckets t (db bucket)) (hfn : fn db = .error (.store err)) :
    Leaves C bucket db (update db fn) (.error err) t := by
  unfold update
  rw [hfn]
  exact ⟨rfl, db bucket, (Function.update_eq_self bucket db).symm, h⟩

theorem update_ok {b : B.buckets.Bucket} (hfn : fn db = .ok (Function.update db bucket b))
    (hb : Holds C B.buckets t' b) : Leaves C bucket db (update db fn) (.ok ()) t' := by
  unfold update
  rw [hfn]
  exact ⟨rfl, b, rfl, hb⟩

theorem update_bput {a a' : α} (h : Holds C B.buckets t (db bucket)) (ha : C.Valid a) (ha' : C.Valid a')
    (hnorm : C.norm a' = C.norm a) (hkey : ValidKey (C.key a)) (hfn : fn db = bput C db bucket (C.key a) a') :
    Leaves C bucket db (update db fn) (.ok ()) (t.put a) := by
  obtain ⟨b, hput, hb⟩ := bput_holds h ha ha' hnorm hkey
  exact update_ok (hfn.trans hput) hb

theorem create_exists {v : α} (h : Holds C B.buckets t (db bucket)) (hk : (t.get (C.key v)).isSome = true) :
    Leaves C bucket db (create C bucket v db) (.error .alreadyExists) t := by
  apply update_error h
  rw [h.isSome_get, if_pos hk]

theorem create_new {v : α} (h : Holds C B.buckets t (db bucket)) (hk : ¬ (t.get (C.key v)).isSome = true)
    (hkey : ValidKey (C.key v)) (hv : C.Valid v) : Leaves C bucket db (create C bucket v db) (.ok ()) (t.put v) := by
  apply update_bput h hv hv rfl hkey
  rw [h.isSome_get, if_neg hk]

theorem overwrite_missing {v : α} (h : Holds C B.buckets t (db bucket)) (hk : ¬ (t.get (C.key v)).isSome = true) :
    Leaves C bucket db (overwrite C bucket v db) (.error .notFound) t := by
  apply update_error h
  rw [h.isSome_get, if_neg hk]

theorem overwrite_found {v : α} (h : Holds C B.buckets t (db bucket)) (hk : (t.get (C.key v)).isSome = true)
    (hkey : ValidKey (C.key v)) (hv : C.Valid v) :
    Leaves C bucket db (overwrite C bucket v db) (.ok ()) (t.put v) := by
  apply update_bput h hv hv rfl hkey
  rw [h.isSome_get, if_pos hk]

theorem remove_missing (h : Holds C B.buckets t (db bucket)) (hk : ¬ (t.get id).isSome = true) :
    Leaves C bucket db (remove bucket id db) (.error .notFound) t := by
  apply update_error h
  unfold bdelete
  rw [h.get_none (by simpa using hk)]

theorem remove_found (h : Holds C B.buckets t (db bucket)) (hk : (t.get id).isSome = true) :
    Leaves C bucket db (remove bucket id db) (.ok ()) (t.erase id) := by
  obtain ⟨b, hdelete, hb⟩ := h.delete id
  obtain ⟨a, ha⟩ := Option.isSome_iff_exists.mp hk
  obtain ⟨raw, hraw, -⟩ := h.get_some ha
  apply update_ok (b := b) _ hb
  unfold bdelete
  rw [hraw]
  simp only [hdelete]

variable {legal : α → Bool} {move : α → α} {a : α}

theorem transition_missing (h : Holds C B.buckets t (db bucket)) (hk : t.get id = none) :
    Leaves C bucket db (transition C bucket id legal move db) (.error .notFound) t := by
  apply update_error h
  rw [bget_missing h hk]

theorem transition_illegal (h : Holds C B.buckets t (db bucket)) (hk : t.get id = some a)
    (hlegal : ¬ legal (C.norm a) = true) :
    Leaves C bucket db (transition C bucket id legal move db) (.error .invalidTransition) t := by
  apply update_error h
  rw [bget_found h hk]
  simp only [hlegal, if_false, Bool.false_eq_true]

/-- The move is made on the row as it was read, in normal form. -/
theorem transition_legal (h : Holds C B.buckets t (db bucket)) (hk : t.get id = some a)
    (hlegal : legal (C.norm a) = true) (hid : ValidKey id) (hkey : C.key (move a) = C.key a)
    (hvalid : ∀ c, C.Valid c → C.Valid (move c)) (hcomm : move (C.norm a) = C.norm (move a)) :
    Leaves C bucket db (transition C bucket id legal move db) (.ok ()) (t.put (move a)) := by
  have ha := h.valid_of_get hk
  have hmove : C.key (move a) = id := hkey.trans (Table.key_of_get hk)
  have hnorm : C.norm (move (C.norm a)) = C.norm (move a) := by rw [hcomm, C.norm_norm]
  apply update_bput h (hvalid a ha) (hvalid _ (C.valid_norm a ha)) hnorm (hmove ▸ hid)
  rw [bget_found h hk, hmove]
  simp only [hlegal, if_true]

theorem collect_ok (f : α → Bool) {l : List (String × B.json.Raw)} (h : ∀ e ∈ l, (C.dec e.2).isSome = true) :
    collect C f l = .ok ((l.filterMap fun e => C.dec e.2).filter f) := by
  induction l with
  | nil => rfl
  | cons e l ih =>
    obtain ⟨v, hv⟩ := Option.isSome_iff_exists.mp (h e List.mem_cons_self)
    have hrest := ih fun e' he' => h e' (List.mem_cons_of_mem e he')
    unfold collect
    rw [hrest]
    simp only [hv, List.filterMap_cons, List.filter_cons]
    rfl

theorem list_ok (h : Holds C B.buckets t (db bucket)) (f : α → Bool) :
    ∃ l, list C bucket f db = .ok l ∧ l.Perm ((t.rows.map C.norm).filter f) := by
  refine ⟨_, collect_ok f fun e he => ?_, h.forEach.filter f⟩
  obtain ⟨a, -, hdec⟩ := h.mem_forEach he
  rw [hdec]
  rfl

end

end BoltStore

/-! ## Comparing answers -/

/-- Times are instants already; a map is compared by its entries, and an empty map as nil. -/
def Entity.norm : Entity → Entity
  | .deployment d => .deployment d.norm
  | .pod p => .pod p.norm
  | .node n => .node n.norm
  | .service svc => .service svc.norm

def Entity.Valid (T : TimeText) : Entity → Prop
  | .deployment d => d.Valid T
  | .pod p => p.Valid T
  | .node n => n.Valid T
  | .service svc => svc.Valid T

/-- The entity written as JSON and read back. -/
def Entity.reread (B : Engine) : Entity → Option Entity
  | .deployment d => ((BoltStore.deploymentC B).reread d).map .deployment
  | .pod p => ((BoltStore.podC B).reread p).map .pod
  | .node n => ((BoltStore.nodeC B).reread n).map .node
  | .service svc => ((BoltStore.serviceC B).reread svc).map .service

/-- The same error, or the same entities in any order. -/
def Same : Answer StoreErr → Answer BoltErr → Prop
  | .ok l, .ok l' => (l.map Entity.norm).Perm (l'.map Entity.norm)
  | .error err, .error err' => err' = .store err
  | _, _ => False

theorem same_written {S S' : Type} {r : Res × S} {out : Except BoltErr Unit × S'}
    (h : out.1 = r.1.mapError .store) : Same (written r).1 (written out).1 := by
  obtain ⟨r, s⟩ := r
  obtain ⟨out, s'⟩ := out
  simp only at h
  subst h
  cases r with
  | error err => rfl
  | ok u => exact List.Perm.refl _

section

variable {B : Engine} {α : Type} {C : RowCodec B.json.Raw α} {bucket : BucketName} {db : DB B} {t : Table C.key}
  {wrap : α → Entity}

theorem same_found {r : Except StoreErr α} (h : Holds C B.buckets t (db bucket)) (id : String)
    (hnone : t.get id = none → r = .error .notFound) (hsome : ∀ a, t.get id = some a → r = .ok a)
    (hwrap : ∀ a, (wrap (C.norm a)).norm = (wrap a).norm) :
    Same (found wrap r) (found wrap (BoltStore.bget C db bucket id)) := by
  cases hk : t.get id with
  | none =>
    rw [BoltStore.bget_missing h hk, hnone hk]
    rfl
  | some a =>
    rw [BoltStore.bget_found h hk, hsome a hk]
    show [(wrap a).norm].Perm [(wrap (C.norm a)).norm]
    rw [hwrap]

theorem same_listed (h : Holds C B.buckets t (db bucket)) {f : α → Bool}
    (hf : ∀ a, C.Valid a → f (C.norm a) = f a) (hwrap : ∀ a, (wrap (C.norm a)).norm = (wrap a).norm) :
    Same (listed wrap (.ok (t.rows.filter f))) (listed wrap (BoltStore.list C bucket f db)) := by
  obtain ⟨l, hl, hperm⟩ := BoltStore.list_ok h f
  rw [hl]
  show (((t.rows.filter f).map wrap).map Entity.norm).Perm ((l.map wrap).map Entity.norm)
  have hrows : (t.rows.map C.norm).filter f = (t.rows.filter f).map C.norm := by
    rw [List.filter_map]
    congr 1
    apply List.filter_congr
    intro a ha
    exact hf a (h.valid a ha)
  rw [hrows] at hperm
  rw [List.map_map, List.map_map]
  refine List.Perm.trans (List.Perm.of_eq ?_) (hperm.symm.map _)
  rw [List.map_map]
  apply List.map_congr_left
  intro a _
  exact (hwrap a).symm

theorem same_rows (h : Holds C B.buckets t (db bucket)) (hwrap : ∀ a, (wrap (C.norm a)).norm = (wrap a).norm) :
    Same (listed wrap (.ok t.rows)) (listed wrap (BoltStore.list C bucket (fun _ => true) db)) := by
  have hsame := same_listed (f := fun _ => true) h (fun _ _ => rfl) hwrap
  rw [List.filter_true] at hsame
  exact hsame

end

/-! ## The simulation -/

/-- The arguments JSON and bbolt can represent. -/
def Method.Valid (T : TimeText) : Method → Prop
  | .createDeployment d => ValidKey d.id ∧ d.Valid T
  | .updateDeployment d now => ValidKey d.id ∧ Deployment.Valid T { d with updatedAt := now }
  | .transitionDeployment id _ now => ValidKey id ∧ T.representable now = true
  | .createPod p | .updatePod p => ValidKey p.id ∧ p.Valid T
  | .transitionPod id _ _ now => ValidKey id ∧ T.representable now = true
  | .registerNode n | .updateNode n => ValidKey n.id ∧ n.Valid T
  | .transitionNode id _ => ValidKey id
  | .upsertService svc now => ValidKey svc.id ∧ Service.Valid T { svc with updatedAt := now }
  | _ => True

theorem Deployment.Valid.move {T : TimeText} {d : Deployment} {dest : DeploymentStatus} {now : Time}
    (h : d.Valid T) (hdest : Json.Canonical dest) (hnow : T.representable now = true) :
    (Store.moveDeployment d dest now).Valid T where
  labels := h.labels
  type := h.type
  restartPolicy := h.restartPolicy
  status := hdest
  times := by
    have hcreated := h.times d.createdAt (by simp [Deployment.times])
    simp [Deployment.times, Store.moveDeployment, hcreated, hnow]

theorem Pod.Valid.move {T : TimeText} {p : Pod} {dest : PodStatus} {errMsg : String} {now : Time}
    (h : p.Valid T) (hdest : Json.Canonical dest) (hnow : T.representable now = true) :
    (Store.movePod p dest errMsg now).Valid T where
  labels := h.labels
  status := hdest
  times := by
    -- a timestamp of the moved pod is one of the pod's or the clock reading
    have hstamp : ∀ (c : Prop) [Decidable c] (stamp : Option Time), (∀ t ∈ stamp, T.representable t = true) →
        ∀ t ∈ (if c then some now else stamp), T.representable t = true := by
      intro c _ stamp hstamp t ht
      split at ht
      · obtain rfl : now = t := by simpa using ht
        exact hnow
      · exact hstamp t ht
    have htimes := h.times
    simp only [Pod.times, List.mem_cons, List.mem_append, Option.mem_toList, or_imp, forall_and, forall_eq,
      Store.movePod] at htimes ⊢
    obtain ⟨hcreated, ⟨⟨hscheduled, hstarted⟩, hfinished⟩, hrunAfter⟩ := htimes
    exact ⟨hcreated, ⟨⟨hstamp _ _ hscheduled, hstamp _ _ hstarted⟩, hstamp _ _ hfinished⟩, hrunAfter⟩

theorem Node.Valid.withStatus {T : TimeText} {n : Node} {dest : NodeStatus} (h : n.Valid T)
    (hdest : Json.Canonical dest) : (n.withStatus dest).Valid T := ⟨h.labels, hdest, h.times⟩

open BoltStore

/-- The four buckets hold the four tables. -/
structure Sim {B : Engine} (s : Store) (db : DB B) : Prop where
  deployments : Holds (deploymentC B) B.buckets s.deployments (db .deployments)
  pods : Holds (podC B) B.buckets s.pods (db .pods)
  nodes : Holds (nodeC B) B.buckets s.nodes (db .nodes)
  services : Holds (serviceC B) B.buckets s.services (db .services)

/-- A write answers alike and leaves related stores. -/
def Agrees {B : Engine} (r : Res × Store) (out : Except BoltErr Unit × DB B) : Prop :=
  out.1 = r.1.mapError .store ∧ Sim r.2 out.2

namespace Sim

variable {B : Engine} {s : Store} {db : DB B} {r : Res} {out : Except BoltErr Unit × DB B}

theorem new : Sim {} (BoltStore.new : DB B) := ⟨.empty, .empty, .empty, .empty⟩

theorem leaveDeployments (h : Sim s db) {t : Table Deployment.id}
    (hout : Leaves (deploymentC B) .deployments db out r t) : Agrees (r, { s with deployments := t }) out := by
  obtain ⟨hr, b, hdb, hb⟩ := hout
  refine ⟨hr, ?_⟩
  rw [hdb]
  exact ⟨hb, h.pods, h.nodes, h.services⟩

theorem leavePods (h : Sim s db) {t : Table Pod.id} (hout : Leaves (podC B) .pods db out r t) :
    Agrees (r, { s with pods := t }) out := by
  obtain ⟨hr, b, hdb, hb⟩ := hout
  refine ⟨hr, ?_⟩
  rw [hdb]
  exact ⟨h.deployments, hb, h.nodes, h.services⟩

theorem leaveNodes (h : Sim s db) {t : Table Node.id} (hout : Leaves (nodeC B) .nodes db out r t) :
    Agrees (r, { s with nodes := t }) out := by
  obtain ⟨hr, b, hdb, hb⟩ := hout
  refine ⟨hr, ?_⟩
  rw [hdb]
  exact ⟨h.deployments, h.pods, hb, h.services⟩

theorem leaveServices (h : Sim s db) {t : Table Service.id} (hout : Leaves (serviceC B) .services db out r t) :
    Agrees (r, { s with services := t }) out := by
  obtain ⟨hr, b, hdb, hb⟩ := hout
  refine ⟨hr, ?_⟩
  rw [hdb]
  exact ⟨h.deployments, h.pods, h.nodes, hb⟩

/-! ### Deployments -/

theorem createDeployment {d : Deployment} (h : Sim s db) (hkey : ValidKey d.id) (hd : d.Valid B.time) :
    Agrees (s.createDeployment d) (BoltStore.createDeployment d db) := by
  unfold Store.createDeployment
  split
  · next hk => exact h.leaveDeployments (create_exists h.deployments hk)
  · next hk => exact h.leaveDeployments (create_new h.deployments hk hkey hd)

theorem updateDeployment {d : Deployment} {now : Time} (h : Sim s db) (hkey : ValidKey d.id)
    (hd : Deployment.Valid B.time { d with updatedAt := now }) :
    Agrees (s.updateDeployment d now) (BoltStore.updateDeployment d now db) := by
  unfold Store.updateDeployment
  split
  · next hk => exact h.leaveDeployments (overwrite_found h.deployments hk hkey hd)
  · next hk => exact h.leaveDeployments (overwrite_missing h.deployments hk)

theorem transitionDeployment {id : String} (dest : DeploymentStatus) {now : Time} (h : Sim s db)
    (hid : ValidKey id) (hnow : B.time.representable now = true) :
    Agrees (s.transitionDeployment id dest now) (BoltStore.transitionDeployment id dest now db) := by
  unfold Store.transitionDeployment
  split
  · next hk => exact h.leaveDeployments (transition_missing h.deployments hk)
  · next d hk =>
    split
    · next hlegal =>
      have hdest := canonical_of_transitionDeployment hlegal
      exact h.leaveDeployments (transition_legal h.deployments hk hlegal hid rfl (fun _ hc => hc.move hdest hnow) rfl)
    · next hlegal => exact h.leaveDeployments (transition_illegal h.deployments hk hlegal)

theorem deleteDeployment (id : String) (h : Sim s db) :
    Agrees (s.deleteDeployment id) (BoltStore.deleteDeployment id db) := by
  unfold Store.deleteDeployment
  split
  · next hk => exact h.leaveDeployments (remove_found h.deployments hk)
  · next hk => exact h.leaveDeployments (remove_missing h.deployments hk)

/-! ### Pods -/

theorem createPod {p : Pod} (h : Sim s db) (hkey : ValidKey p.id) (hp : p.Valid B.time) :
    Agrees (s.createPod p) (BoltStore.createPod p db) := by
  unfold Store.createPod
  split
  · next hk => exact h.leavePods (create_exists h.pods hk)
  · next hk => exact h.leavePods (create_new h.pods hk hkey hp)

theorem updatePod {p : Pod} (h : Sim s db) (hkey : ValidKey p.id) (hp : p.Valid B.time) :
    Agrees (s.updatePod p) (BoltStore.updatePod p db) := by
  unfold Store.updatePod
  split
  · next hk => exact h.leavePods (overwrite_found h.pods hk hkey hp)
  · next hk => exact h.leavePods (overwrite_missing h.pods hk)

theorem transitionPod {id : String} (dest : PodStatus) (errMsg : String) {now : Time} (h : Sim s db)
    (hid : ValidKey id) (hnow : B.time.representable now = true) :
    Agrees (s.transitionPod id dest errMsg now) (BoltStore.transitionPod id dest errMsg now db) := by
  unfold Store.transitionPod
  split
  · next hk => exact h.leavePods (transition_missing h.pods hk)
  · next p hk =>
    split
    · next hlegal =>
      have hdest := canonical_of_transitionPod hlegal
      exact h.leavePods (transition_legal h.pods hk hlegal hid rfl (fun _ hc => hc.move hdest hnow) rfl)
    · next hlegal => exact h.leavePods (transition_illegal h.pods hk hlegal)

/-! ### Nodes -/

theorem registerNode {n : Node} (h : Sim s db) (hkey : ValidKey n.id) (hn : n.Valid B.time) :
    Agrees (s.registerNode n) (BoltStore.registerNode n db) := by
  unfold Store.registerNode
  split
  · next hk => exact h.leaveNodes (create_exists h.nodes hk)
  · next hk => exact h.leaveNodes (create_new h.nodes hk hkey hn)

theorem updateNode {n : Node} (h : Sim s db) (hkey : ValidKey n.id) (hn : n.Valid B.time) :
    Agrees (s.updateNode n) (BoltStore.updateNode n db) := by
  unfold Store.updateNode
  split
  · next hk => exact h.leaveNodes (overwrite_found h.nodes hk hkey hn)
  · next hk => exact h.leaveNodes (overwrite_missing h.nodes hk)

theorem transitionNode {id : String} (dest : NodeStatus) (h : Sim s db) (hid : ValidKey id) :
    Agrees (s.transitionNode id dest) (BoltStore.transitionNode id dest db) := by
  unfold Store.transitionNode
  split
  · next hk => exact h.leaveNodes (transition_missing h.nodes hk)
  · next n hk =>
    split
    · next hlegal =>
      have hdest := canonical_of_transitionNode hlegal
      exact h.leaveNodes (transition_legal h.nodes hk hlegal hid rfl (fun _ hc => hc.withStatus hdest) rfl)
    · next hlegal => exact h.leaveNodes (transition_illegal h.nodes hk hlegal)

/-! ### Services -/

theorem upsertService {svc : Service} {now : Time} (h : Sim s db) (hkey : ValidKey svc.id)
    (hsvc : Service.Valid B.time { svc with updatedAt := now }) :
    Agrees (s.upsertService svc now) (BoltStore.upsertService svc now db) :=
  h.leaveServices (update_bput h.services hsvc hsvc rfl hkey rfl)

theorem deleteService (id : String) (h : Sim s db) :
    Agrees (s.deleteService id) (BoltStore.deleteService id db) := by
  unfold Store.deleteService
  split
  · next hk => exact h.leaveServices (remove_found h.services hk)
  · next hk => exact h.leaveServices (remove_missing h.services hk)

/-- The step: every method answers alike and leaves related stores. -/
theorem handle (h : Sim s db) (m : Method) (hm : m.Valid B.time) :
    Same (s.handle m).1 (BoltStore.handle m db).1 ∧ Sim (s.handle m).2 (BoltStore.handle m db).2 := by
  have hwrite : ∀ {r : Res × Store} {out : Except BoltErr Unit × DB B}, Agrees r out →
      Same (written r).1 (written out).1 ∧ Sim (written r).2 (written out).2 :=
    fun hagrees => ⟨same_written hagrees.1, hagrees.2⟩
  have hdeployment : ∀ d : Deployment, (Entity.deployment d.norm).norm = (Entity.deployment d).norm :=
    fun d => congrArg Entity.deployment ((deploymentC B).norm_norm d)
  have hpod : ∀ p : Pod, (Entity.pod p.norm).norm = (Entity.pod p).norm :=
    fun p => congrArg Entity.pod ((podC B).norm_norm p)
  have hnode : ∀ n : Node, (Entity.node n.norm).norm = (Entity.node n).norm :=
    fun n => congrArg Entity.node ((nodeC B).norm_norm n)
  have hservice : ∀ svc : Service, (Entity.service svc.norm).norm = (Entity.service svc).norm :=
    fun svc => congrArg Entity.service ((serviceC B).norm_norm svc)
  cases m with
  | createDeployment d => exact hwrite (h.createDeployment hm.1 hm.2)
  | getDeployment id =>
    refine ⟨same_found h.deployments id (fun hk => ?_) (fun a hk => ?_) hdeployment, h⟩
    · simp only [Store.getDeployment, hk]
    · simp only [Store.getDeployment, hk]
  | listDeployments => exact ⟨same_rows h.deployments hdeployment, h⟩
  | listDeploymentsByNamespace ns => exact ⟨same_listed h.deployments (fun _ _ => rfl) hdeployment, h⟩
  | updateDeployment d now => exact hwrite (h.updateDeployment hm.1 hm.2)
  | transitionDeployment id dest now => exact hwrite (h.transitionDeployment dest hm.1 hm.2)
  | deleteDeployment id => exact hwrite (h.deleteDeployment id)
  | createPod p => exact hwrite (h.createPod hm.1 hm.2)
  | getPod id =>
    refine ⟨same_found h.pods id (fun hk => ?_) (fun a hk => ?_) hpod, h⟩
    · simp only [Store.getPod, hk]
    · simp only [Store.getPod, hk]
  | listPodsByDeployment d => exact ⟨same_listed h.pods (fun _ _ => rfl) hpod, h⟩
  | listPodsByStatus status => exact ⟨same_listed h.pods (fun _ _ => rfl) hpod, h⟩
  | listPodsByNode n => exact ⟨same_listed h.pods (fun _ _ => rfl) hpod, h⟩
  | listPodsByLabels ns selector =>
    refine ⟨same_listed h.pods (fun p hp => ?_) hpod, h⟩
    exact congrArg _ (matchesSelector_normMap hp.labels selector)
  | updatePod p => exact hwrite (h.updatePod hm.1 hm.2)
  | transitionPod id dest errMsg now => exact hwrite (h.transitionPod dest errMsg hm.1 hm.2)
  | registerNode n => exact hwrite (h.registerNode hm.1 hm.2)
  | getNode id =>
    refine ⟨same_found h.nodes id (fun hk => ?_) (fun a hk => ?_) hnode, h⟩
    · simp only [Store.getNode, hk]
    · simp only [Store.getNode, hk]
  | listNodes => exact ⟨same_rows h.nodes hnode, h⟩
  | listNodesByLabels selector =>
    exact ⟨same_listed h.nodes (fun n hn => matchesSelector_normMap hn.labels selector) hnode, h⟩
  | updateNode n => exact hwrite (h.updateNode hm.1 hm.2)
  | transitionNode id dest => exact hwrite (h.transitionNode dest hm)
  | upsertService svc now => exact hwrite (h.upsertService hm.1 hm.2)
  | getService id =>
    refine ⟨same_found h.services id (fun hk => ?_) (fun a hk => ?_) hservice, h⟩
    · simp only [Store.getService, hk]
    · simp only [Store.getService, hk]
  | listServices => exact ⟨same_rows h.services hservice, h⟩
  | deleteService id => exact hwrite (h.deleteService id)

end Sim

namespace BoltStore

/-- **Drop-in replacement.**  An entity written as JSON is read back with every field as it was,
and from an empty database and an empty `MemoryStore` every list of calls gets the same answers. -/
theorem drop_in (B : Engine) :
    (∀ e : Entity, e.Valid B.time → e.reread B = some e.norm) ∧
    ∀ ms : List Method, (∀ m ∈ ms, m.Valid B.time) →
      List.Forall₂ Same (answers Store.handle ms {}) (answers BoltStore.handle ms (new : DB B)) := by
  refine ⟨fun e he => ?_, fun ms hms => ?_⟩
  · cases e with
    | deployment d => exact congrArg (Option.map Entity.deployment) ((deploymentC B).reread_eq he)
    | pod p => exact congrArg (Option.map Entity.pod) ((podC B).reread_eq he)
    | node n => exact congrArg (Option.map Entity.node) ((nodeC B).reread_eq he)
    | service svc => exact congrArg (Option.map Entity.service) ((serviceC B).reread_eq he)
  · exact answers_related Sim Same (Method.Valid B.time) (fun m s db hm h => h.handle m hm) hms Sim.new

/-- Trees as their own text, times in decimal from the start of year 0, tables as buckets. -/
def plainEngine : Engine where
  json := { Raw := Json, print := id, parse := some, parse_print := fun _ => rfl }
  time := {
    -- the years 0 to 9999, as instants in nanoseconds since the start of year 1
    representable := fun t => decide (-366 * 86400 * second ≤ t ∧ t < 3652059 * 86400 * second)
    format := fun t => (t + 366 * 86400 * second).toNat.repr
    parse := fun text => some (Nat.ofDigitChars 10 text.toList 0 - 366 * 86400 * second)
    parse_format := fun t ht => by
      have hlow : 0 ≤ t + 366 * 86400 * second := by
        have hyear : (-366 * 86400 * second : Int) ≤ t := (of_decide_eq_true ht).1
        omega
      rw [Nat.toList_repr, Nat.ofDigitChars_toDigits (by decide) (by decide), Int.toNat_of_nonneg hlow,
        Int.add_sub_cancel] }
  buckets := Buckets.ofTables _ _

def savedPod : Pod :=
  { id := "pod-1", deploymentID := "dep-1", labels := some [("tier", "web"), ("app", "shop")], status := .pending,
    exitCode := some 0, createdAt := 1000 }

def savedNode : Node := { id := "node-1", labels := some [], status := .registering, registeredAt := 1000 }

def savedService : Service := { id := "svc-1", selector := some [("app", "shop")], strategy := .leastConn }

/-- A labelled pod that is dispatched, a node registered twice, a service saved and an illegal move. -/
def script : List Method :=
  [.createPod savedPod, .transitionPod "pod-1" .scheduled "" 2000, .getPod "pod-1",
   .listPodsByLabels "" (some [("app", "shop")]), .transitionPod "pod-1" .succeeded "" 3000,
   .registerNode savedNode, .registerNode savedNode, .transitionNode "node-1" .healthy, .listNodes,
   .upsertService savedService 4000, .listServices, .deleteService "svc-1", .getService "svc-1"]

theorem drop_in_script :
    (Entity.pod savedPod).reread plainEngine = some (Entity.pod savedPod).norm ∧
    List.Forall₂ Same (answers Store.handle script {}) (answers BoltStore.handle script (new : DB plainEngine)) := by
  have hpod : savedPod.Valid plainEngine.time := ⟨by decide, by decide, by decide⟩
  have hnode : savedNode.Valid plainEngine.time := ⟨by decide, by decide, by decide⟩
  have hsvc : Service.Valid plainEngine.time { savedService with updatedAt := 4000 } :=
    ⟨by decide, by decide, by decide⟩
  refine ⟨(drop_in plainEngine).1 _ hpod, (drop_in plainEngine).2 script ?_⟩
  simp only [script, List.forall_mem_cons, Method.Valid, List.not_mem_nil]
  refine ⟨⟨by decide, hpod⟩, ⟨by decide, by decide⟩, trivial, trivial, ⟨by decide, by decide⟩, ⟨by decide, hnode⟩,
    ⟨by decide, hnode⟩, by decide, trivial, ⟨by decide, hsvc⟩, trivial, trivial, trivial, by simp⟩

end BoltStore

end ControlPlane
