import InfraPlatform.Lib.Restart
import InfraPlatform.ControlPlane.StoreSpec
import InfraPlatform.ControlPlane.Reconciler
import InfraPlatform.ControlPlane.Bolt

/-!
# The calls of handlers and loops on `BoltStore`

`BoltExec` is `Exec` for the persistent store: what each call of a handler or loop answers and leaves in the buckets.

The rows that handlers and loops write are `Exact`: a valid key, and a record that JSON gives back as it was, field by
field (its map by increasing key, no map where it is empty).  On such rows the two stores do not only give answers that
compare equal, they give the same answers: `bolt_standsIn`.
-/

namespace ControlPlane

open Lib BoltStore

/-- A time that JSON can represent, also with any backoff added. -/
structure Readable (T : TimeText) (t : Time) : Prop where
  now : T.representable t = true
  later : ∀ attempt, T.representable (t + Reconciler.backoff attempt) = true

/-- What each call may answer and leave behind.  A Bolt or JSON error is no answer here: `bolt_standsIn` shows that no
call ends with one. -/
def BoltExec (B : Engine) : Effect Call Resp (DB B)
  | .createDeployment d, db, r, db' => createDeployment d db = (r.mapError .store, db')
  | .getDeployment id, db, r, db' => getDeployment id db = r.mapError .store ∧ db' = db
  | .listDeployments, db, r, db' => listDeployments db = r.mapError .store ∧ db' = db
  | .transitionDeployment id dest now, db, r, db' =>
    BoltStore.transitionDeployment id dest now db = (r.mapError .store, db')
  | .createPod p, db, r, db' => createPod p db = (r.mapError .store, db')
  | .getPod id, db, r, db' => getPod id db = r.mapError .store ∧ db' = db
  | .listPodsByDeployment d, db, r, db' => listPodsByDeployment d db = r.mapError .store ∧ db' = db
  | .listPodsByStatus st, db, r, db' => listPodsByStatus st db = r.mapError .store ∧ db' = db
  | .listPodsByNode n, db, r, db' => listPodsByNode n db = r.mapError .store ∧ db' = db
  | .updatePod p, db, r, db' => updatePod p db = (r.mapError .store, db')
  | .transitionPod id dest msg now, db, r, db' => BoltStore.transitionPod id dest msg now db = (r.mapError .store, db')
  | .registerNode n, db, r, db' => registerNode n db = (r.mapError .store, db')
  | .getNode id, db, r, db' => getNode id db = r.mapError .store ∧ db' = db
  | .listNodes, db, r, db' => listNodes db = r.mapError .store ∧ db' = db
  | .updateNode n, db, r, db' => updateNode n db = (r.mapError .store, db')
  | .transitionNode id dest, db, r, db' => BoltStore.transitionNode id dest db = (r.mapError .store, db')
  | .upsertService svc now, db, r, db' => upsertService svc now db = (r.mapError .store, db')
  | .getService id, db, r, db' => getService id db = r.mapError .store ∧ db' = db
  | .deleteService id, db, r, db' => deleteService id db = (r.mapError .store, db')
  | .now, db, t, db' => Readable B.time t ∧ db' = db
  | .randRead, db, _, db' => db' = db

/-! ## Rows that come back as they were -/

section Exact

variable {Raw α : Type}

structure Exact (C : RowCodec Raw α) (a : α) : Prop where
  key : ValidKey (C.key a)
  valid : C.Valid a
  normal : C.norm a = a

def AllExact (C : RowCodec Raw α) (t : Table C.key) : Prop := ∀ k a, t.get k = some a → Exact C a

variable {C : RowCodec Raw α} {t : Table C.key} {a : α}

theorem AllExact.empty : AllExact C .empty := by
  intro k a ha
  cases ha

theorem AllExact.put (h : AllExact C t) (ha : Exact C a) : AllExact C (t.put a) := by
  intro k b hb
  rw [Table.get_put] at hb
  split at hb
  · obtain rfl := Option.some.inj hb
    exact ha
  · exact h k b hb

theorem AllExact.erase (h : AllExact C t) (k : String) : AllExact C (t.erase k) := by
  intro k' b hb
  rw [Table.get_erase] at hb
  split at hb
  · cases hb
  · exact h k' b hb

theorem AllExact.of_mem (h : AllExact C t) (ha : a ∈ t.rows) : Exact C a := h _ a (Table.get_of_mem ha)

theorem AllExact.map_norm (h : AllExact C t) : t.rows.map C.norm = t.rows := by
  conv_rhs => rw [← List.map_id t.rows]
  exact List.map_congr_left fun a ha => (h.of_mem ha).normal

end Exact

/-! ## Reading -/

section Reads

variable {B : Engine} {α : Type} {C : RowCodec B.json.Raw α} {bucket : BucketName} {db : DB B} {t : Table C.key}

theorem bget_exact {r : Except StoreErr α} (h : Holds C B.buckets t (db bucket)) (hx : AllExact C t) {id : String}
    (hnone : t.get id = none → r = .error .notFound) (hsome : ∀ a, t.get id = some a → r = .ok a) :
    bget C db bucket id = r.mapError .store := by
  cases hk : t.get id with
  | none =>
    rw [bget_missing h hk, hnone hk]
    rfl
  | some a =>
    rw [bget_found h hk, (hx id a hk).normal, hsome a hk]
    rfl

theorem list_exact (h : Holds C B.buckets t (db bucket)) (hx : AllExact C t) (f : α → Bool) :
    ∃ r : Except StoreErr (List α), list C bucket f db = r.mapError .store ∧ Lists t.rows f r := by
  obtain ⟨l, hl, hperm⟩ := list_ok h f
  rw [hx.map_norm] at hperm
  exact ⟨.ok l, hl, l, rfl, hperm⟩

end Reads

/-! ## The buckets mirror the tables -/

section Mirrors

variable {B : Engine} {s s' : Store} {db : DB B}

structure Mirrors (s : Store) (db : DB B) : Prop extends Sim s db where
  exactDeployments : AllExact (deploymentC B) s.deployments
  exactPods : AllExact (podC B) s.pods
  exactNodes : AllExact (nodeC B) s.nodes
  exactServices : AllExact (serviceC B) s.services

theorem Mirrors.new : Mirrors {} (BoltStore.new : DB B) := ⟨.new, .empty, .empty, .empty, .empty⟩

/-- The call writes exact rows only. -/
def Call.Exact (B : Engine) : Call → Prop
  | .createDeployment d => ControlPlane.Exact (deploymentC B) d
  | .transitionDeployment _ _ t | .transitionPod _ _ _ t => B.time.representable t = true
  | .createPod p | .updatePod p => ControlPlane.Exact (podC B) p
  | .registerNode n | .updateNode n => ControlPlane.Exact (nodeC B) n
  | .upsertService svc t => ControlPlane.Exact (serviceC B) { svc with updatedAt := t }
  | _ => True

/-- The answer shows exact rows only. -/
def Answered (B : Engine) : (c : Call) → Resp c → Prop
  | .getDeployment _, r => ∀ d, r = .ok d → Exact (deploymentC B) d
  | .listDeployments, r => ∀ l, r = .ok l → ∀ d ∈ l, Exact (deploymentC B) d
  | .getPod _, r => ∀ p, r = .ok p → Exact (podC B) p
  | .listPodsByDeployment _, r | .listPodsByStatus _, r | .listPodsByNode _, r =>
    ∀ l, r = .ok l → ∀ p ∈ l, Exact (podC B) p
  | .getNode _, r => ∀ n, r = .ok n → Exact (nodeC B) n
  | .listNodes, r => ∀ l, r = .ok l → ∀ n ∈ l, Exact (nodeC B) n
  | .getService id, r => ∀ svc, r = .ok svc → Exact (serviceC B) svc ∧ svc.id = id
  | .now, t => Readable B.time t
  | _, _ => True

variable {c : Call} {r : Resp c}

/-! ### What the rows stay -/

theorem Exact.moveDeployment {d : Deployment} {dest : DeploymentStatus} {t : Time} (h : Exact (deploymentC B) d)
    (hlegal : ControlPlane.transitionDeployment d.status dest = true) (ht : B.time.representable t = true) :
    Exact (deploymentC B) (Store.moveDeployment d dest t) :=
  ⟨h.key, h.valid.move (canonical_of_transitionDeployment hlegal) ht,
    congrArg (fun d => Store.moveDeployment d dest t) h.normal⟩

theorem Exact.movePod {p : Pod} {dest : PodStatus} {msg : String} {t : Time} (h : Exact (podC B) p)
    (hlegal : ControlPlane.transitionPod p.status dest = true) (ht : B.time.representable t = true) :
    Exact (podC B) (Store.movePod p dest msg t) :=
  ⟨h.key, h.valid.move (canonical_of_transitionPod hlegal) ht, congrArg (fun p => Store.movePod p dest msg t) h.normal⟩

theorem Exact.withStatus {n : Node} {dest : NodeStatus} (h : Exact (nodeC B) n)
    (hlegal : ControlPlane.transitionNode n.status dest = true) : Exact (nodeC B) (n.withStatus dest) :=
  ⟨h.key, h.valid.withStatus (canonical_of_transitionNode hlegal), congrArg (fun n => n.withStatus dest) h.normal⟩

/-- A call that keeps the simulation keeps the rows exact. -/
theorem Mirrors.call {db' : DB B} (h : Mirrors s db) (hc : c.Exact B) (hE : Exec c s r s') (hsim : Sim s' db') :
    Mirrors s' db' := by
  cases exec_write hE with
  | nothing => exact ⟨hsim, h.exactDeployments, h.exactPods, h.exactNodes, h.exactServices⟩
  | createDeployment d _ => exact ⟨hsim, h.exactDeployments.put hc, h.exactPods, h.exactNodes, h.exactServices⟩
  | transitionDeployment id dest t d hd hlegal =>
    exact ⟨hsim, h.exactDeployments.put ((h.exactDeployments id d hd).moveDeployment hlegal hc), h.exactPods,
      h.exactNodes, h.exactServices⟩
  | createPod p _ => exact ⟨hsim, h.exactDeployments, h.exactPods.put hc, h.exactNodes, h.exactServices⟩
  | updatePod p q _ => exact ⟨hsim, h.exactDeployments, h.exactPods.put hc, h.exactNodes, h.exactServices⟩
  | transitionPod id dest msg t p hp hlegal =>
    exact ⟨hsim, h.exactDeployments, h.exactPods.put ((h.exactPods id p hp).movePod hlegal hc), h.exactNodes,
      h.exactServices⟩
  | registerNode n _ => exact ⟨hsim, h.exactDeployments, h.exactPods, h.exactNodes.put hc, h.exactServices⟩
  | updateNode n m _ => exact ⟨hsim, h.exactDeployments, h.exactPods, h.exactNodes.put hc, h.exactServices⟩
  | transitionNode id dest n hn hlegal =>
    exact ⟨hsim, h.exactDeployments, h.exactPods, h.exactNodes.put ((h.exactNodes id n hn).withStatus hlegal),
      h.exactServices⟩
  | services _ t hon =>
    refine ⟨hsim, h.exactDeployments, h.exactPods, h.exactNodes, ?_⟩
    cases c with
    | upsertService svc now =>
      obtain ⟨-, hs'⟩ := Prod.mk.inj hE
      rw [hs']
      exact h.exactServices.put hc
    | deleteService id =>
      replace hE : (r, _) = s.deleteService id := hE
      unfold Store.deleteService at hE
      split at hE <;> obtain ⟨-, hs'⟩ := Prod.mk.inj hE <;> rw [hs']
      · exact h.exactServices.erase id
      · exact h.exactServices
    | _ => cases hon

theorem exact_of_lists {α : Type} {C : RowCodec B.json.Raw α} {t : Table C.key} {f : α → Bool}
    {r : Except StoreErr (List α)} (hx : AllExact C t) (h : Lists t.rows f r) :
    ∀ l, r = .ok l → ∀ a ∈ l, Exact C a := by
  rintro l rfl a ha
  obtain ⟨l', hl, hperm⟩ := h
  obtain rfl := Except.ok.inj hl
  exact hx _ a ((mem_of_perm_filter hperm).mp ha).1

/-- What the store shows of its rows. -/
theorem Mirrors.answered (h : Mirrors s db) (hE : Exec c s r s') (hnow : c ≠ .now) : Answered B c r := by
  cases c with
  | getDeployment id =>
    obtain ⟨rfl, -⟩ := hE
    intro d hd
    unfold Store.getDeployment at hd
    split at hd
    · cases hd
    · next d' hget =>
      obtain rfl := Except.ok.inj hd
      exact h.exactDeployments id _ hget
  | getPod id =>
    obtain ⟨rfl, -⟩ := hE
    intro p hp
    unfold Store.getPod at hp
    split at hp
    · cases hp
    · next p' hget =>
      obtain rfl := Except.ok.inj hp
      exact h.exactPods id _ hget
  | getNode id =>
    obtain ⟨rfl, -⟩ := hE
    intro n hn
    unfold Store.getNode at hn
    split at hn
    · cases hn
    · next n' hget =>
      obtain rfl := Except.ok.inj hn
      exact h.exactNodes id _ hget
  | getService id =>
    obtain ⟨rfl, -⟩ := hE
    intro svc hsvc
    unfold Store.getService at hsvc
    split at hsvc
    · cases hsvc
    · next svc' hget =>
      obtain rfl := Except.ok.inj hsvc
      exact ⟨h.exactServices id _ hget, Table.key_of_get hget⟩
  | listDeployments => exact exact_of_lists h.exactDeployments hE.1
  | listPodsByDeployment d => exact exact_of_lists h.exactPods hE.1
  | listPodsByStatus st => exact exact_of_lists h.exactPods hE.1
  | listPodsByNode n => exact exact_of_lists h.exactPods hE.1
  | listNodes => exact exact_of_lists h.exactNodes hE.1
  | now => exact absurd rfl hnow
  | _ => trivial

/-! ### The call itself -/

theorem Agrees.executed {r : Res × Store} {out : Except BoltErr Unit × DB B} (h : Agrees r out) :
    ∃ r₀ s' db', out = (r₀.mapError .store, db') ∧ (r₀, s') = r ∧ Sim s' db' :=
  ⟨r.1, r.2, out.2, Prod.ext h.1 rfl, rfl, h.2⟩

theorem Mirrors.transitionDeployment {id : String} (dest : DeploymentStatus) {t : Time} (h : Mirrors s db)
    (ht : B.time.representable t = true) :
    Agrees (s.transitionDeployment id dest t) (BoltStore.transitionDeployment id dest t db) := by
  cases hk : s.deployments.get id with
  | none =>
    unfold Store.transitionDeployment
    rw [hk]
    exact h.leaveDeployments (transition_missing h.deployments hk)
  | some d =>
    have hkey := (h.exactDeployments id d hk).key
    rw [show (deploymentC B).key d = id from Table.key_of_get hk] at hkey
    exact h.toSim.transitionDeployment dest hkey ht

theorem Mirrors.transitionPod {id msg : String} (dest : PodStatus) {t : Time} (h : Mirrors s db)
    (ht : B.time.representable t = true) :
    Agrees (s.transitionPod id dest msg t) (BoltStore.transitionPod id dest msg t db) := by
  cases hk : s.pods.get id with
  | none =>
    unfold Store.transitionPod
    rw [hk]
    exact h.leavePods (transition_missing h.pods hk)
  | some p =>
    have hkey := (h.exactPods id p hk).key
    rw [show (podC B).key p = id from Table.key_of_get hk] at hkey
    exact h.toSim.transitionPod dest msg hkey ht

theorem Mirrors.transitionNode {id : String} (dest : NodeStatus) (h : Mirrors s db) :
    Agrees (s.transitionNode id dest) (BoltStore.transitionNode id dest db) := by
  cases hk : s.nodes.get id with
  | none =>
    unfold Store.transitionNode
    rw [hk]
    exact h.leaveNodes (transition_missing h.nodes hk)
  | some n =>
    have hkey := (h.exactNodes id n hk).key
    rw [show (nodeC B).key n = id from Table.key_of_get hk] at hkey
    exact h.toSim.transitionNode dest hkey

/-- Both stores answer, and alike. -/
theorem Mirrors.exec (h : Mirrors s db) (hc : c.Exact B) (hnow : c ≠ .now) :
    ∃ r s' db', BoltExec B c db r db' ∧ Exec c s r s' ∧ Sim s' db' := by
  cases c with
  | createDeployment d => exact (h.createDeployment hc.key hc.valid).executed
  | transitionDeployment id dest t => exact (h.transitionDeployment dest hc).executed
  | createPod p => exact (h.createPod hc.key hc.valid).executed
  | updatePod p => exact (h.updatePod hc.key hc.valid).executed
  | transitionPod id dest msg t => exact (h.transitionPod dest hc).executed
  | registerNode n => exact (h.registerNode hc.key hc.valid).executed
  | updateNode n => exact (h.updateNode hc.key hc.valid).executed
  | transitionNode id dest => exact (h.transitionNode dest).executed
  | upsertService svc t => exact (h.upsertService hc.key hc.valid).executed
  | deleteService id => exact (h.deleteService id).executed
  | getDeployment id =>
    refine ⟨s.getDeployment id, s, db, ⟨?_, rfl⟩, ⟨rfl, rfl⟩, h.toSim⟩
    refine bget_exact h.deployments h.exactDeployments (fun hk => ?_) fun a hk => ?_
    · simp only [Store.getDeployment, hk]
    · simp only [Store.getDeployment, hk]
  | getPod id =>
    refine ⟨s.getPod id, s, db, ⟨?_, rfl⟩, ⟨rfl, rfl⟩, h.toSim⟩
    refine bget_exact h.pods h.exactPods (fun hk => ?_) fun a hk => ?_
    · simp only [Store.getPod, hk]
    · simp only [Store.getPod, hk]
  | getNode id =>
    refine ⟨s.getNode id, s, db, ⟨?_, rfl⟩, ⟨rfl, rfl⟩, h.toSim⟩
    refine bget_exact h.nodes h.exactNodes (fun hk => ?_) fun a hk => ?_
    · simp only [Store.getNode, hk]
    · simp only [Store.getNode, hk]
  | getService id =>
    refine ⟨s.getService id, s, db, ⟨?_, rfl⟩, ⟨rfl, rfl⟩, h.toSim⟩
    refine bget_exact h.services h.exactServices (fun hk => ?_) fun a hk => ?_
    · simp only [Store.getService, hk]
    · simp only [Store.getService, hk]
  | listDeployments =>
    obtain ⟨r, hr, hlist⟩ := list_exact h.deployments h.exactDeployments fun _ => true
    exact ⟨r, s, db, ⟨hr, rfl⟩, ⟨hlist, rfl⟩, h.toSim⟩
  | listPodsByDeployment d =>
    obtain ⟨r, hr, hlist⟩ := list_exact h.pods h.exactPods fun p => p.deploymentID = d
    exact ⟨r, s, db, ⟨hr, rfl⟩, ⟨hlist, rfl⟩, h.toSim⟩
  | listPodsByStatus st =>
    obtain ⟨r, hr, hlist⟩ := list_exact h.pods h.exactPods fun p => p.status = st
    exact ⟨r, s, db, ⟨hr, rfl⟩, ⟨hlist, rfl⟩, h.toSim⟩
  | listPodsByNode n =>
    obtain ⟨r, hr, hlist⟩ := list_exact h.pods h.exactPods fun p => p.nodeID = n
    exact ⟨r, s, db, ⟨hr, rfl⟩, ⟨hlist, rfl⟩, h.toSim⟩
  | listNodes =>
    obtain ⟨r, hr, hlist⟩ := list_exact h.nodes h.exactNodes fun _ => true
    exact ⟨r, s, db, ⟨hr, rfl⟩, ⟨hlist, rfl⟩, h.toSim⟩
  | now => exact absurd rfl hnow
  | randRead => exact ⟨none, s, db, rfl, rfl, h.toSim⟩

theorem mapError_store_inj {α : Type} {r r' : Except StoreErr α} (h : r.mapError BoltErr.store = r'.mapError .store) :
    r = r' := by
  cases r <;> cases r' <;> cases h <;> rfl

/-- The store leaves nothing open but the clock and the random bytes. -/
theorem boltExec_unique {r r' : Resp c} {db₁ db₂ : DB B} (hnow : c ≠ .now) (hrand : c ≠ .randRead)
    (h : BoltExec B c db r db₁) (h' : BoltExec B c db r' db₂) : r = r' ∧ db₁ = db₂ := by
  have hwrite {r r' : Res} {out : Except BoltErr Unit × DB B} (hr : out = (r.mapError .store, db₁))
      (hr' : out = (r'.mapError .store, db₂)) : r = r' ∧ db₁ = db₂ := by
    obtain ⟨hres, hdb⟩ := Prod.mk.inj (hr.symm.trans hr')
    exact ⟨mapError_store_inj hres, hdb⟩
  have hread {α : Type} {r r' out : Except _ α} (hr : out = r.mapError BoltErr.store ∧ db₁ = db)
      (hr' : out = r'.mapError BoltErr.store ∧ db₂ = db) : r = r' ∧ db₁ = db₂ :=
    ⟨mapError_store_inj (hr.1.symm.trans hr'.1), hr.2.trans hr'.2.symm⟩
  cases c with
  | now => exact absurd rfl hnow
  | randRead => exact absurd rfl hrand
  | _ => first | exact hwrite h h' | exact hread h h'

/-! ### Evaluation -/

def storeErr : BoltErr → StoreErr
  | .store err => err
  | _ => .notFound

/-- One choice of the open answers: the clock at `clock`, random bytes that count the rows. -/
def BoltStore.exec (clock : Time) : (c : Call) → DB B → Resp c × DB B
  | .createDeployment d, db => ((createDeployment d db).1.mapError storeErr, (createDeployment d db).2)
  | .getDeployment id, db => ((getDeployment id db).mapError storeErr, db)
  | .listDeployments, db => ((listDeployments db).mapError storeErr, db)
  | .transitionDeployment id dest now, db =>
    ((BoltStore.transitionDeployment id dest now db).1.mapError storeErr,
      (BoltStore.transitionDeployment id dest now db).2)
  | .createPod p, db => ((createPod p db).1.mapError storeErr, (createPod p db).2)
  | .getPod id, db => ((getPod id db).mapError storeErr, db)
  | .listPodsByDeployment d, db => ((listPodsByDeployment d db).mapError storeErr, db)
  | .listPodsByStatus st, db => ((listPodsByStatus st db).mapError storeErr, db)
  | .listPodsByNode n, db => ((listPodsByNode n db).mapError storeErr, db)
  | .updatePod p, db => ((updatePod p db).1.mapError storeErr, (updatePod p db).2)
  | .transitionPod id dest msg now, db =>
    ((BoltStore.transitionPod id dest msg now db).1.mapError storeErr, (BoltStore.transitionPod id dest msg now db).2)
  | .registerNode n, db => ((registerNode n db).1.mapError storeErr, (registerNode n db).2)
  | .getNode id, db => ((getNode id db).mapError storeErr, db)
  | .listNodes, db => ((listNodes db).mapError storeErr, db)
  | .updateNode n, db => ((updateNode n db).1.mapError storeErr, (updateNode n db).2)
  | .transitionNode id dest, db =>
    ((BoltStore.transitionNode id dest db).1.mapError storeErr, (BoltStore.transitionNode id dest db).2)
  | .upsertService svc now, db => ((upsertService svc now db).1.mapError storeErr, (upsertService svc now db).2)
  | .getService id, db => ((getService id db).mapError storeErr, db)
  | .deleteService id, db => ((deleteService id db).1.mapError storeErr, (deleteService id db).2)
  | .now, db => (clock, db)
  | .randRead, db =>
    (some (0, 0, 0, (((B.buckets.forEach (db .pods)).length + (B.buckets.forEach (db .nodes)).length +
      (B.buckets.forEach (db .deployments)).length).toUInt8)), db)

theorem mapError_storeErr {α : Type} (r : Except StoreErr α) : (r.mapError BoltErr.store).mapError storeErr = r := by
  cases r <;> rfl

/-- `exec` gives the answer wherever there is one. -/
theorem exec_boltExec {clock : Time} (hclock : Readable B.time clock) (h : ∃ r db', BoltExec B c db r db') :
    BoltExec B c db (BoltStore.exec clock c db).1 (BoltStore.exec clock c db).2 := by
  obtain ⟨r, db', h⟩ := h
  have hwrite {r : Res} {out : Except BoltErr Unit × DB B} (hr : out = (r.mapError .store, db')) :
      out = ((out.1.mapError storeErr).mapError .store, out.2) := by
    rw [hr, mapError_storeErr]
  have hread {α : Type} {r : Except StoreErr α} {out : Except BoltErr α} (hr : out = r.mapError .store ∧ db' = db) :
      out = (out.mapError storeErr).mapError .store ∧ db = db := by
    rw [hr.1, mapError_storeErr]
    exact ⟨rfl, rfl⟩
  cases c with
  | now => exact ⟨hclock, rfl⟩
  | randRead => rfl
  | _ => first | exact hwrite h | exact hread h

/-- **`BoltStore` stands in for `MemoryStore`** as long as exact rows are written. -/
theorem bolt_standsIn (hclock : ∃ t, Readable B.time t) :
    StandsIn Exec (BoltExec B) (Answered B) (Call.Exact B) Mirrors where
  step := by
    intro c s db r db' h hc hcall
    by_cases hnow : c = .now
    · subst hnow
      obtain ⟨hread, rfl⟩ := hcall
      exact ⟨s, rfl, h, hread⟩
    · by_cases hrand : c = .randRead
      · subst hrand
        obtain rfl : db' = db := hcall
        exact ⟨s, rfl, h, trivial⟩
      · obtain ⟨r₀, s', db₀, hbolt, hE, hsim⟩ := h.exec hc hnow
        obtain ⟨rfl, rfl⟩ := boltExec_unique hnow hrand hbolt hcall
        exact ⟨s', hE, h.call hc hE hsim, h.answered hE hnow⟩
  answers := by
    intro c s db h hc
    by_cases hnow : c = .now
    · subst hnow
      obtain ⟨t, ht⟩ := hclock
      exact ⟨t, db, ht, rfl⟩
    · obtain ⟨r, -, db', hbolt, -⟩ := h.exec hc hnow
      exact ⟨r, db', hbolt⟩

end Mirrors

end ControlPlane
