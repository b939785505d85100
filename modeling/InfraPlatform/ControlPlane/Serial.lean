import InfraPlatform.Lib.TwoPhase
import InfraPlatform.ControlPlane.Lifecycle

/-!
# Node records under interleaving

Heartbeats, drains, status reports and both loops read node records and write them
back whole, call by call next to each other.  `storeFootprint` gives the records
each store call reads and writes; if the calls of overlapping executions stay
apart (`Exclusive`), the node records end up as in some sequential order, a node
being decommissioned never becomes healthy again, and no execution overwrites a node record it has
not read (`nodes_serializable_of_exclusive`).  Without that, `heartbeat_undoes_drain`.
-/

namespace ControlPlane

open Lib Lib.Prog Api

/-! ## Footprints -/

/-- What a call can read or write: one record, or the services as a whole. -/
inductive Place where
  | deployment (id : String) | pod (id : String) | node (id : String) | services

/-- What stands at a place. -/
inductive Content where
  | deployment (d : Option Deployment) | pod (p : Option Pod) | node (n : Option Node)
  | services (get : String → Option Service)

def Store.view (s : Store) : Place → Content
  | .deployment id => .deployment (s.deployments.get id)
  | .pod id => .pod (s.pods.get id)
  | .node id => .node (s.nodes.get id)
  | .services => .services s.services.get

def Call.reads : Call → Set Place
  | .createDeployment d => {.deployment d.id}
  | .getDeployment id | .transitionDeployment id _ _ => {.deployment id}
  | .listDeployments => Set.range Place.deployment
  | .createPod p | .updatePod p => {.pod p.id}
  | .getPod id | .transitionPod id _ _ _ => {.pod id}
  | .listPodsByDeployment _ | .listPodsByStatus _ | .listPodsByNode _ => Set.range Place.pod
  | .registerNode n | .updateNode n => {.node n.id}
  | .getNode id | .transitionNode id _ => {.node id}
  | .listNodes => Set.range Place.node
  | .upsertService _ _ | .getService _ | .deleteService _ => {.services}
  | .now | .randRead => ∅

/-- A call that is refused counts as a write as well. -/
def Call.writes : Call → Set Place
  | .createDeployment d => {.deployment d.id}
  | .transitionDeployment id _ _ => {.deployment id}
  | .createPod p | .updatePod p => {.pod p.id}
  | .transitionPod id _ _ _ => {.pod id}
  | .registerNode n | .updateNode n => {.node n.id}
  | .transitionNode id _ => {.node id}
  | .upsertService _ _ | .deleteService _ => {.services}
  | _ => ∅

variable {s s' t : Store}

theorem view_putDeployment {d : Deployment} {x : Place} (hx : x ≠ .deployment d.id) :
    (s.putDeployment d).view x = s.view x := by
  cases x with
  | deployment id => exact congrArg Content.deployment (Table.get_put_ne fun heq => hx (by rw [heq]))
  | _ => rfl

theorem view_putPod {p : Pod} {x : Place} (hx : x ≠ .pod p.id) : (s.putPod p).view x = s.view x := by
  cases x with
  | pod id => exact congrArg Content.pod (Table.get_put_ne fun heq => hx (by rw [heq]))
  | _ => rfl

theorem view_putNode {n : Node} {x : Place} (hx : x ≠ .node n.id) : (s.putNode n).view x = s.view x := by
  cases x with
  | node id => exact congrArg Content.node (Table.get_put_ne fun heq => hx (by rw [heq]))
  | _ => rfl

theorem view_frame {c : Call} {r : Resp c} {x : Place} (h : Exec c s r s') (hx : x ∉ c.writes) :
    s'.view x = s.view x := by
  cases exec_write h with
  | nothing => rfl
  | createDeployment d _ => exact view_putDeployment hx
  | transitionDeployment id dest now d hd _ =>
    have hid : d.id = id := Table.key_of_get hd
    subst hid
    exact view_putDeployment hx
  | createPod p _ => exact view_putPod hx
  | updatePod p _ _ => exact view_putPod hx
  | transitionPod id dest msg now p hp _ =>
    have hid : p.id = id := Table.key_of_get hp
    subst hid
    exact view_putPod hx
  | registerNode n _ => exact view_putNode hx
  | updateNode n _ _ => exact view_putNode hx
  | transitionNode id dest n hn _ =>
    have hid : n.id = id := Table.key_of_get hn
    subst hid
    exact view_putNode hx
  | services _ t hc =>
    cases x with
    | services => cases c <;> first | exact absurd rfl hx | cases hc
    | _ => rfl

/-! Operations answer and write the same wherever the record they look up is the same. -/

section Congr

variable {r : Res}

theorem createDeployment_congr (d : Deployment) (h : t.deployments.get d.id = s.deployments.get d.id) :
    (t.createDeployment d).1 = (s.createDeployment d).1 ∧
      (t.createDeployment d).2.deployments.get d.id = (s.createDeployment d).2.deployments.get d.id := by
  unfold Store.createDeployment
  rw [h]
  split <;> simp [h]

theorem transitionDeployment_congr (id : String) (dest : DeploymentStatus) (now : Time)
    (h : t.deployments.get id = s.deployments.get id) :
    (t.transitionDeployment id dest now).1 = (s.transitionDeployment id dest now).1 ∧
      (t.transitionDeployment id dest now).2.deployments.get id =
        (s.transitionDeployment id dest now).2.deployments.get id := by
  unfold Store.transitionDeployment
  rw [h]
  cases hd : s.deployments.get id with
  | none => exact ⟨rfl, h⟩
  | some d =>
    simp only
    split
    · exact ⟨rfl, Table.get_put_congr h⟩
    · exact ⟨rfl, h⟩

theorem createPod_congr (p : Pod) (h : t.pods.get p.id = s.pods.get p.id) :
    (t.createPod p).1 = (s.createPod p).1 ∧ (t.createPod p).2.pods.get p.id = (s.createPod p).2.pods.get p.id := by
  unfold Store.createPod
  rw [h]
  split <;> simp [h]

theorem updatePod_congr (p : Pod) (h : t.pods.get p.id = s.pods.get p.id) :
    (t.updatePod p).1 = (s.updatePod p).1 ∧ (t.updatePod p).2.pods.get p.id = (s.updatePod p).2.pods.get p.id := by
  unfold Store.updatePod
  rw [h]
  split <;> simp [h]

theorem transitionPod_congr (id : String) (dest : PodStatus) (msg : String) (now : Time)
    (h : t.pods.get id = s.pods.get id) :
    (t.transitionPod id dest msg now).1 = (s.transitionPod id dest msg now).1 ∧
      (t.transitionPod id dest msg now).2.pods.get id = (s.transitionPod id dest msg now).2.pods.get id := by
  unfold Store.transitionPod
  rw [h]
  cases hp : s.pods.get id with
  | none => exact ⟨rfl, h⟩
  | some p =>
    simp only
    split
    · exact ⟨rfl, Table.get_put_congr h⟩
    · exact ⟨rfl, h⟩

theorem registerNode_congr (n : Node) (h : t.nodes.get n.id = s.nodes.get n.id) :
    (t.registerNode n).1 = (s.registerNode n).1 ∧
      (t.registerNode n).2.nodes.get n.id = (s.registerNode n).2.nodes.get n.id := by
  unfold Store.registerNode
  rw [h]
  split <;> simp [h]

theorem updateNode_congr (n : Node) (h : t.nodes.get n.id = s.nodes.get n.id) :
    (t.updateNode n).1 = (s.updateNode n).1 ∧
      (t.updateNode n).2.nodes.get n.id = (s.updateNode n).2.nodes.get n.id := by
  unfold Store.updateNode
  rw [h]
  split <;> simp [h]

theorem transitionNode_congr (id : String) (dest : NodeStatus) (h : t.nodes.get id = s.nodes.get id) :
    (t.transitionNode id dest).1 = (s.transitionNode id dest).1 ∧
      (t.transitionNode id dest).2.nodes.get id = (s.transitionNode id dest).2.nodes.get id := by
  unfold Store.transitionNode
  rw [h]
  cases hn : s.nodes.get id with
  | none => exact ⟨rfl, h⟩
  | some n =>
    simp only
    split
    · exact ⟨rfl, Table.get_put_congr h⟩
    · exact ⟨rfl, h⟩

theorem deleteService_congr (id : String) (h : t.services.get = s.services.get) :
    (t.deleteService id).1 = (s.deleteService id).1 ∧
      (t.deleteService id).2.services.get = (s.deleteService id).2.services.get := by
  unfold Store.deleteService
  rw [h]
  split
  · exact ⟨rfl, funext fun k => by simp [Table.get_erase, h]⟩
  · exact ⟨rfl, h⟩

/-- A write is repeated from `t` if it answers and writes there as it did from `s`. -/
theorem replay_write {F : Store → Res × Store} {x : Place} (h : (r, s') = F s) (hres : (F t).1 = (F s).1)
    (hview : (F t).2.view x = (F s).2.view x) :
    ∃ t', (r, t') = F t ∧ ∀ y ∈ ({x} : Set Place), t'.view y = s'.view y := by
  obtain ⟨rfl, rfl⟩ := Prod.mk.inj h
  refine ⟨(F t).2, by rw [← hres], ?_⟩
  rintro y rfl
  exact hview

end Congr

/-- A listing depends only on the rows. -/
theorem lists_congr {α : Type} {key : α → String} {t u : Table key} {f : α → Bool} {r : Except StoreErr (List α)}
    (hg : ∀ k, u.get k = t.get k) (h : Lists t.rows f r) : Lists u.rows f r := by
  obtain ⟨l, rfl, hperm⟩ := h
  exact ⟨l, rfl, hperm.trans ((Table.rows_perm_of_get hg).filter f).symm⟩

theorem view_replay {c : Call} {r : Resp c} (h : Exec c s r s') (hr : ∀ x ∈ c.reads, t.view x = s.view x) :
    ∃ t', Exec c t r t' ∧ ∀ x ∈ c.writes, t'.view x = s'.view x := by
  have hdep : ∀ id, Place.deployment id ∈ c.reads → t.deployments.get id = s.deployments.get id :=
    fun id hid => Content.deployment.inj (hr _ hid)
  have hpod : ∀ id, Place.pod id ∈ c.reads → t.pods.get id = s.pods.get id :=
    fun id hid => Content.pod.inj (hr _ hid)
  have hnode : ∀ id, Place.node id ∈ c.reads → t.nodes.get id = s.nodes.get id :=
    fun id hid => Content.node.inj (hr _ hid)
  have hsvc : Place.services ∈ c.reads → t.services.get = s.services.get :=
    fun hid => Content.services.inj (hr _ hid)
  have hread : ∀ {P : Prop}, c.writes = ∅ → P → ∃ t', (P ∧ t' = t) ∧ ∀ x ∈ c.writes, t'.view x = s'.view x :=
    fun hw hP => ⟨t, ⟨hP, rfl⟩, by rw [hw]; simp⟩
  cases c with
  | createDeployment d =>
    obtain ⟨h1, h2⟩ := createDeployment_congr d (hdep d.id rfl)
    exact replay_write (F := (·.createDeployment d)) h h1 (congrArg _ h2)
  | transitionDeployment id dest now =>
    obtain ⟨h1, h2⟩ := transitionDeployment_congr id dest now (hdep id rfl)
    exact replay_write (F := (·.transitionDeployment id dest now)) h h1 (congrArg _ h2)
  | createPod p =>
    obtain ⟨h1, h2⟩ := createPod_congr p (hpod p.id rfl)
    exact replay_write (F := (·.createPod p)) h h1 (congrArg _ h2)
  | updatePod p =>
    obtain ⟨h1, h2⟩ := updatePod_congr p (hpod p.id rfl)
    exact replay_write (F := (·.updatePod p)) h h1 (congrArg _ h2)
  | transitionPod id dest msg now =>
    obtain ⟨h1, h2⟩ := transitionPod_congr id dest msg now (hpod id rfl)
    exact replay_write (F := (·.transitionPod id dest msg now)) h h1 (congrArg _ h2)
  | registerNode n =>
    obtain ⟨h1, h2⟩ := registerNode_congr n (hnode n.id rfl)
    exact replay_write (F := (·.registerNode n)) h h1 (congrArg _ h2)
  | updateNode n =>
    obtain ⟨h1, h2⟩ := updateNode_congr n (hnode n.id rfl)
    exact replay_write (F := (·.updateNode n)) h h1 (congrArg _ h2)
  | transitionNode id dest =>
    obtain ⟨h1, h2⟩ := transitionNode_congr id dest (hnode id rfl)
    exact replay_write (F := (·.transitionNode id dest)) h h1 (congrArg _ h2)
  | upsertService svc now =>
    have hs : t.services.get = s.services.get := hsvc rfl
    exact replay_write (F := (·.upsertService svc now)) h rfl
      (congrArg Content.services (funext fun k => Table.get_put_congr (congrFun hs k)))
  | deleteService id =>
    obtain ⟨h1, h2⟩ := deleteService_congr id (hsvc rfl)
    exact replay_write (F := (·.deleteService id)) h h1 (congrArg _ h2)
  | getDeployment id =>
    refine hread rfl ?_
    unfold Store.getDeployment
    rw [hdep id rfl]
    exact h.1
  | getPod id =>
    refine hread rfl ?_
    unfold Store.getPod
    rw [hpod id rfl]
    exact h.1
  | getNode id =>
    refine hread rfl ?_
    unfold Store.getNode
    rw [hnode id rfl]
    exact h.1
  | getService id =>
    refine hread rfl ?_
    unfold Store.getService
    rw [hsvc rfl]
    exact h.1
  | listDeployments => exact hread rfl (lists_congr (fun k => hdep k ⟨k, rfl⟩) h.1)
  | listPodsByDeployment d => exact hread rfl (lists_congr (fun k => hpod k ⟨k, rfl⟩) h.1)
  | listPodsByStatus st => exact hread rfl (lists_congr (fun k => hpod k ⟨k, rfl⟩) h.1)
  | listPodsByNode n => exact hread rfl (lists_congr (fun k => hpod k ⟨k, rfl⟩) h.1)
  | listNodes => exact hread rfl (lists_congr (fun k => hnode k ⟨k, rfl⟩) h.1)
  | now => exact ⟨t, rfl, fun _ hx => hx.elim⟩
  | randRead => exact ⟨t, rfl, fun _ hx => hx.elim⟩

/-- The records each store call reads and writes. -/
def storeFootprint : Footprint Exec Place Content where
  view := Store.view
  reads := Call.reads
  writes := Call.writes
  frame := view_frame
  replay := view_replay

/-- The node that a call is about, if it is about one node. -/
def Call.onNode : Call → Option String
  | .getNode id | .transitionNode id _ => some id
  | .updateNode n => some n.id
  | _ => none

theorem Call.places_of_onNode {c : Call} {k : String} (h : c.onNode = some k) :
    (∀ y ∈ c.reads, y = .node k) ∧ ∀ y ∈ c.writes, y = .node k := by
  cases c <;> cases h <;> simp [Call.reads, Call.writes]

/-- Calls about two different nodes. -/
def Call.apart (c c' : Call) : Bool := c.onNode.any fun k => c'.onNode.any fun k' => k ≠ k'

/-- A step keeps off the records of the others if it is about a node that none of their calls is about. -/
theorem exclusive_of_apart {ι : Type} {x : CallStep ι}
    (h : ∀ j, j ≠ x.label.1 → ∀ ev ∈ x.src.hist j, x.label.2.1.apart ev.1 = true) : Exclusive storeFootprint x := by
  intro j hj _
  have hno (y : Place) (hy : y ∈ x.label.2.1.reads ∨ y ∈ x.label.2.1.writes) (ev : Σ c : Call, Resp c)
      (hev : ev ∈ x.src.hist j) : y ∉ ev.1.reads ∧ y ∉ ev.1.writes := by
    have hapart := h j hj ev hev
    simp only [Call.apart, Option.any_eq_true, decide_eq_true_eq] at hapart
    obtain ⟨k, hk, k', hk', hne⟩ := hapart
    obtain ⟨hreads, hwrites⟩ := Call.places_of_onNode hk
    obtain ⟨hreads', hwrites'⟩ := Call.places_of_onNode hk'
    obtain rfl : y = .node k := hy.elim (hreads y) (hwrites y)
    exact ⟨fun hy' => hne (Place.node.inj (hreads' _ hy')), fun hy' => hne (Place.node.inj (hwrites' _ hy'))⟩
  refine ⟨fun y hy => ?_, fun y hy => ⟨?_, ?_⟩⟩
  · rintro ⟨ev, hev, hw⟩
    exact (hno y (.inl hy) ev hev).2 hw
  · rintro ⟨ev, hev, hr⟩
    exact (hno y (.inr hy) ev hev).1 hr
  · rintro ⟨ev, hev, hw⟩
    exact (hno y (.inr hy) ev hev).2 hw

/-! ## What an execution knows of a node -/

theorem nodes_frame {c : Call} {r : Resp c} {k : String} (h : Exec c s r s') (hk : Place.node k ∉ c.writes) :
    s'.nodes.get k = s.nodes.get k := Content.node.inj (view_frame h hk)

/-- Knowledge of a node is kept from before or comes from a call on that node. -/
theorem learnNode_exec {c : Call} {r : Resp c} {k : String} {known : Option Node} {m : Node} (h : Exec c s r s')
    (hl : learnNode k known ⟨c, r⟩ = some m) :
    (known = some m ∧ s'.nodes.get k = s.nodes.get k) ∨ (Place.node k ∈ c.reads ∧ s'.nodes.get k = some m) := by
  cases c with
  | updateNode n =>
    replace h : (r, s') = s.updateNode n := h
    unfold Store.updateNode at h
    split at h <;> obtain ⟨rfl, rfl⟩ := Prod.mk.inj h
    · by_cases hk : n.id = k
      · obtain rfl : n = m := by simpa [hk] using hl
        exact .inr ⟨by rw [← hk]; rfl, by rw [← hk]; exact Table.get_put_self _ _⟩
      · exact .inl ⟨by simpa [hk] using hl, Table.get_put_ne (Ne.symm hk)⟩
    · exact .inl ⟨by simpa using hl, rfl⟩
  | registerNode n =>
    have hk : n.id ≠ k := fun hk => by simp [hk] at hl
    exact .inl ⟨by simpa [hk] using hl, nodes_frame h fun hw => hk (Place.node.inj hw).symm⟩
  | transitionNode id dest =>
    have hk : id ≠ k := fun hk => by simp [hk] at hl
    exact .inl ⟨by simpa [hk] using hl, nodes_frame h fun hw => hk (Place.node.inj hw).symm⟩
  | getNode id =>
    obtain ⟨hr, rfl⟩ := h
    cases hn : s'.nodes.get id with
    | none =>
      rw [Store.getNode_none hn] at hr
      subst hr
      exact .inl ⟨by simpa using hl, rfl⟩
    | some n =>
      rw [Store.getNode_some hn] at hr
      subst hr
      obtain rfl : n.id = id := Table.key_of_get hn
      by_cases hk : n.id = k
      · subst hk
        obtain rfl : n = m := by simpa using hl
        exact .inr ⟨rfl, hn⟩
      · exact .inl ⟨by simpa [hk] using hl, rfl⟩
  | listNodes =>
    obtain ⟨⟨l, rfl, hperm⟩, rfl⟩ := h
    replace hl : (l.find? fun n => n.id = k).or known = some m := hl
    cases hf : l.find? fun n => n.id = k with
    | none => exact .inl ⟨by simpa [hf] using hl, rfl⟩
    | some n =>
      obtain rfl : n = m := by simpa [hf] using hl
      have hid : n.id = k := by simpa using List.find?_some hf
      refine .inr ⟨⟨k, rfl⟩, ?_⟩
      rw [← hid]
      exact ((mem_of_perm_filter hperm).mp (List.mem_of_find?_eq_some hf)).1
  | _ => exact .inl ⟨by rwa [learnNode_other rfl] at hl, nodes_frame h (by simp [Call.writes])⟩

variable {ι : Type} {timeout : Duration} {e : ι → Event} {tr : List (CallStep ι)} {cfg : Concurrent ι}

/-- Unfinished executions know the nodes as they are stored. -/
structure NodesCurrent (cfg : Concurrent ι) : Prop where
  read : ∀ i k m, knownNode (cfg.hist i) k = some m → Place.node k ∈ storeFootprint.readsOf (cfg.hist i)
  stored : ∀ i, ¬ (cfg.threads i).finished → ∀ k m, knownNode (cfg.hist i) k = some m →
    cfg.state.nodes.get k = some m

theorem NodesCurrent.start : NodesCurrent (launch timeout s e) :=
  ⟨fun _ _ _ hk => (by cases hk), fun _ _ _ _ hk => (by cases hk)⟩

variable [DecidableEq ι]

theorem NodesCurrent.step {i : ι} {c : Call} {k : Resp c → M (Option Response)} {h : CallHist} {r : Resp c}
    (hJ : NodesCurrent cfg) (hi : cfg.threads i = ⟨.call c k, h⟩) (hE : Exec c cfg.state r s')
    (hex : Exclusive storeFootprint ⟨cfg, (i, ⟨c, r⟩), cfg.push i ⟨k r, h ++ [⟨c, r⟩]⟩ s'⟩) :
    NodesCurrent (cfg.push i ⟨k r, h ++ [⟨c, r⟩]⟩ s') := by
  have hread := hJ.read i
  have hstored := hJ.stored i (Thread.not_finished_of_call hi)
  rw [Config.hist_of_threads hi] at hread hstored
  constructor
  · intro j id m hk
    by_cases hj : j = i
    · subst hj
      rw [Config.push_hist_self, knownNode_snoc] at hk
      rw [Config.push_hist_self, Footprint.mem_readsOf_snoc]
      rcases learnNode_exec hE hk with ⟨hold, -⟩ | ⟨hnew, -⟩
      · exact .inl (hread id m hold)
      · exact .inr hnew
    · rw [Config.push_hist_ne _ _ _ hj] at hk ⊢
      exact hJ.read j id m hk
  · intro j hj' id m hk
    by_cases hj : j = i
    · subst hj
      rw [Config.push_hist_self, knownNode_snoc] at hk
      rcases learnNode_exec hE hk with ⟨hold, hsame⟩ | ⟨-, hnew⟩
      · exact hsame.trans (hstored id m hold)
      · exact hnew
    · rw [Config.push_hist_ne _ _ _ hj] at hk
      rw [Config.push_threads_ne _ _ _ hj] at hj'
      -- what another execution has read is not written
      have hkeep : Place.node id ∉ c.writes := fun hw => ((hex j hj hj').2 _ hw).1 (hJ.read j id m hk)
      exact (nodes_frame hE hkeep).trans (hJ.stored j hj' id m hk)

/-- Being decommissioned: draining, or already removed. -/
def Node.leaving (n : Node) : Bool := n.status == .draining || n.status == .removed

theorem leaving_put {k : String} {n m : Node} (hn : s.nodes.get k = some n) (hl : n.leaving = true)
    (hm : m.id = k → m.leaving = true) : ∃ n', (s.putNode m).nodes.get k = some n' ∧ n'.leaving = true := by
  rw [Store.putNode_nodes, Table.get_put]
  by_cases hk : k = m.id
  · exact ⟨m, by simp [hk], hm hk.symm⟩
  · exact ⟨n, by simpa [hk] using hn, hl⟩

/-- A careful call of an execution that knows the nodes as they are keeps a leaving node leaving. -/
theorem leaving_step {c : Call} {r : Resp c} {h : CallHist} {k : String} {n : Node} (hE : Exec c s r s')
    (hd : Careful h c) (hcur : ∀ id m, knownNode h id = some m → s.nodes.get id = some m)
    (hn : s.nodes.get k = some n) (hl : n.leaving = true) :
    ∃ n', s'.nodes.get k = some n' ∧ n'.leaving = true := by
  cases exec_write hE with
  | registerNode m hnone =>
    refine leaving_put hn hl fun hk => ?_
    rw [hk, hn] at hnone
    cases hnone
  | updateNode m q hq =>
    refine leaving_put hn hl fun hk => ?_
    obtain ⟨m₀, hm₀, hst⟩ := hd
    have hcurrent := hcur _ _ hm₀
    rw [hk, hn] at hcurrent
    obtain rfl : n = m₀ := by simpa using hcurrent
    unfold Node.leaving at hl ⊢
    rw [← hst]
    exact hl
  | transitionNode id dest m hm ht =>
    refine leaving_put hn hl fun hk => ?_
    have hid : m.id = id := Table.key_of_get hm
    obtain rfl : k = id := by rw [← hk]; exact hid
    obtain rfl : n = m := by rw [hn] at hm; simpa using hm
    -- of the moves out of `DRAINING`, the one to `UNHEALTHY` is only made on healthy nodes
    have hdest : dest ≠ .unhealthy := by
      rintro rfl
      obtain ⟨m₀, hm₀, hst⟩ := hd
      have hcurrent := hcur _ _ hm₀
      rw [hn] at hcurrent
      obtain rfl : n = m₀ := by simpa using hcurrent
      simp [Node.leaving, hst] at hl
    unfold Node.leaving at hl ⊢
    rw [Node.withStatus_status]
    cases hst : n.status <;> rw [hst] at hl ht <;> cases dest <;>
      simp [transitionNode, allowedNodeTransitions] at hl ht hdest ⊢
  | _ => exact ⟨n, hn, hl⟩

/-- **Node records under interleaving.**  If each call keeps off the records that unfinished
executions have read or written, then
* the node records end up as in some sequential order of the same executions;
* a node that was draining or removed at any time is so at the end;
* every `UpdateNode` replaces exactly the record that its execution last read or wrote. -/
theorem nodes_serializable_of_exclusive [Fintype ι] (he : ∀ i, (e i).movesNodes = true)
    (h : Run (Config.Next Exec) (launch timeout s e) tr cfg) (hex : ∀ x ∈ tr, Exclusive storeFootprint x) :
    ((∀ i, (cfg.threads i).finished) → ∃ order σ, order.Nodup ∧ (∀ i, i ∈ order) ∧
      Serial Exec (fun i => (e i).prog timeout) s order σ ∧ ∀ k, cfg.state.nodes.get k = σ.nodes.get k) ∧
    (∀ x ∈ tr, ∀ k n, x.src.state.nodes.get k = some n → n.leaving = true →
      ∃ n', cfg.state.nodes.get k = some n' ∧ n'.leaving = true) ∧
    ∀ x ∈ tr, ∀ n, x.label.2.1 = .updateNode n →
      knownNode (x.src.hist x.label.1) n.id = x.src.state.nodes.get n.id := by
  have hcareful := Run.disciplined answers_of_exec (fun i => Event.prog_careful (he i)) h
  have hcurrent : ∀ x ∈ tr, ∀ k m, knownNode (x.src.hist x.label.1) k = some m →
      x.src.state.nodes.get k = some m := by
    rintro ⟨cfg₁, l, cfg₂⟩ hx
    obtain ⟨tr₁, tr₂, rfl, hrun, hnext⟩ := h.before hx
    have hJ : NodesCurrent cfg₁ := by
      refine Run.inv NodesCurrent (Exclusive storeFootprint) ?_ .start hrun fun y hy =>
        hex y (List.mem_append_left _ hy)
      rintro ⟨cfg, l, cfg'⟩ hstep hG hI
      change Config.Next Exec cfg l cfg' at hstep
      obtain ⟨i, c, k, hist, r, hi, hE⟩ := hstep
      exact hI.step hi hE hG
    change Config.Next Exec cfg₁ l cfg₂ at hnext
    obtain ⟨i, c, k, hist, r, hi, hE⟩ := hnext
    exact hJ.stored i (Thread.not_finished_of_call hi)
  refine ⟨fun hfin => ?_, ?_, ?_⟩
  · obtain ⟨order, σ, hnd, hall, hserial, hview⟩ := serializable_of_exclusive h hex hfin
    exact ⟨order, σ, hnd, hall, hserial, fun k => Content.node.inj (hview (.node k))⟩
  · intro x hx k n hn hl
    refine Run.stays (fun cfg => ∃ n', cfg.state.nodes.get k = some n' ∧ n'.leaving = true) h ?_ x hx ⟨n, hn, hl⟩
    rintro ⟨cfg₁, l, cfg₂⟩ hy ⟨m, hm, hml⟩
    obtain ⟨-, -, -, -, hnext⟩ := h.before hy
    have hd := hcareful _ hy
    have hcur := hcurrent _ hy
    change Config.Next Exec cfg₁ l cfg₂ at hnext
    obtain ⟨i, c, k', hist, r, hi, hE⟩ := hnext
    exact leaving_step hE hd hcur hm hml
  · intro x hx n hn
    have hd := hcareful x hx
    rw [hn] at hd
    obtain ⟨m, hm, -⟩ := hd
    rw [hm, hcurrent x hx _ m hm]

def beat : NodeHeartbeatRequest := { runningJobs := 1, available := { cpu := 1, memoryMB := 60 } }

/-- A heartbeat of the node of `startedRun`, and its drain. -/
def beatAndDrain (b : Bool) : Event :=
  if b then .heartbeat 9 "node_00000000" beat else .drain "node_00000000"

def twoNodes : Store := runningStore.putNode { id := "node_11111111", status := .healthy }

/-- A heartbeat of the one node and the drain of the other, call by call. -/
def beatBesideDrain (b : Bool) : Event :=
  if b then .heartbeat 9 "node_00000000" beat else .drain "node_11111111"

def besideLaunch : Concurrent Bool := launch (15 * second) twoNodes beatBesideDrain

def besideSchedule : List Bool := [false, true, false, true, false]

theorem nodes_serializable_overlapping :
    (∃ order σ, order.Nodup ∧ (∀ i, i ∈ order) ∧
      Serial Exec (fun i => (beatBesideDrain i).prog (15 * second)) twoNodes order σ ∧
      ∀ k, (interleaved 7 besideLaunch besideSchedule).state.nodes.get k = σ.nodes.get k) ∧
    (∃ n, (interleaved 7 besideLaunch besideSchedule).state.nodes.get "node_11111111" = some n ∧ n.leaving = true) ∧
    ∀ x ∈ interleaving 7 besideLaunch besideSchedule, ∀ n, x.label.2.1 = .updateNode n →
      knownNode (x.src.hist x.label.1) n.id = x.src.state.nodes.get n.id := by
  have hapart : ∀ x ∈ interleaving 7 besideLaunch besideSchedule,
      ∀ j, j ≠ x.label.1 → ∀ ev ∈ x.src.hist j, x.label.2.1.apart ev.1 = true := by decide +kernel
  obtain ⟨hserial, hleaving, hcurrent⟩ := nodes_serializable_of_exclusive (by decide)
    (run_interleaving 7 besideLaunch besideSchedule) fun x hx => exclusive_of_apart (hapart x hx)
  -- the heartbeat goes on after the other node has begun to drain
  have hdrains : ∃ x ∈ interleaving 7 besideLaunch besideSchedule,
      (x.src.state.nodes.get "node_11111111").any Node.leaving = true := by decide +kernel
  obtain ⟨x, hx, hany⟩ := hdrains
  obtain ⟨n, hn, hl⟩ := (Option.any_eq_true _ _).mp hany
  exact ⟨hserial (by decide +kernel), hleaving x hx _ n hn hl, hcurrent⟩

/-- Whatever the order, the node is draining once its drain has run. -/
theorem serial_drains {order : List Bool} {σ : Store}
    (h : Serial Exec (fun i => (beatAndDrain i).prog timeout) runningStore order σ) :
    ∃ n, σ.nodes.get "node_00000000" = some n ∧ (n.status = .healthy ∨ n.status = .draining) ∧
      (false ∈ order → n.status = .draining) := by
  induction h with
  | nil =>
    have hstart : (runningStore.nodes.get "node_00000000").map Node.status = some .healthy := by decide +kernel
    obtain ⟨n, hn, hst⟩ := Option.map_eq_some_iff.mp hstart
    exact ⟨n, hn, .inl hst, nofun⟩
  | @snoc order t t' a i _ hrun ih =>
    obtain ⟨n, hn, hst, hdrain⟩ := ih
    have hid : n.id = "node_00000000" := Table.key_of_get hn
    cases i with
    | true =>
      obtain ⟨resp, -, hrun⟩ := runs_answer hrun
      rcases heartbeat_spec hrun with ⟨hnone, -⟩ | ⟨m, hm, rfl⟩
      · rw [hn] at hnone
        cases hnone
      · obtain rfl : n = m := by rw [hn] at hm; simpa using hm
        -- the heartbeat of a node that is not unhealthy keeps its status
        have hne : n.status ≠ .unhealthy := by rcases hst with hst | hst <;> simp [hst]
        refine ⟨heartbeatNode n beat 9, ?_, hst, fun hmem => hdrain (by simpa using hmem)⟩
        rw [Store.putNode_nodes, recovered, if_neg hne, ← hid]
        exact Table.get_put_self t.nodes (heartbeatNode n beat 9)
    | false =>
      obtain ⟨resp, -, hrun⟩ := runs_answer hrun
      rcases drainNode_spec hrun with ⟨rfl, hnot⟩ | ⟨m, hm, hh, rfl⟩
      · have hst := hst.resolve_left (hnot n hn)
        exact ⟨n, hn, .inr hst, fun _ => hst⟩
      · have hmid : m.id = "node_00000000" := Table.key_of_get hm
        refine ⟨m.withStatus .draining, ?_, .inr rfl, fun _ => rfl⟩
        rw [Store.putNode_nodes, ← hmid]
        exact Table.get_put_self t.nodes (m.withStatus .draining)

/-- The heartbeat reads the healthy node, the node is drained, and the heartbeat writes its copy back. -/
theorem heartbeat_undoes_drain :
    ¬ ∀ (timeout : Duration) (s : Store) (e : Bool → Event) (tr : List (CallStep Bool)) (cfg : Concurrent Bool),
      (∀ i, (e i).movesNodes = true) → Run (Config.Next Exec) (launch timeout s e) tr cfg →
      (∀ i, (cfg.threads i).finished) → ∃ order σ, order.Nodup ∧ (∀ i, i ∈ order) ∧
        Serial Exec (fun i => (e i).prog timeout) s order σ ∧ ∀ k, cfg.state.nodes.get k = σ.nodes.get k := by
  intro h
  obtain ⟨order, σ, -, hall, hserial, hsame⟩ := h (15 * second) runningStore beatAndDrain _ _ (by decide)
    (run_interleaving 7 _ [true, false, false, false, true]) (by decide +kernel)
  obtain ⟨n, hn, -, hdrain⟩ := serial_drains hserial
  have hback : ((interleaved 7 (launch (15 * second) runningStore beatAndDrain)
      [true, false, false, false, true]).state.nodes.get "node_00000000").map Node.status = some .healthy := by
    decide +kernel
  rw [hsame, hn, Option.map_some, hdrain (hall false)] at hback
  cases hback

end ControlPlane
