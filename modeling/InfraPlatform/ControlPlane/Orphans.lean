import InfraPlatform.ControlPlane.Agent

/-!
# Running pods that nobody runs

The outcome of a pod is reported once: `reportStatus` logs an error and the goroutine ends.  The control plane
waits for the report as long as the node heartbeats; it never asks.  So a pod stays `RUNNING` for good, with
its capacity reserved, once its last final report is lost, or once a `RUNNING` report arrives when there is no
final one to follow.

* `Change.running`: which events leave a pod `RUNNING`.
* `noOrphans_iff`: every running pod is in the hands of its node's agent, or a final report of it is under way,
  exactly as long as no such report is lost or overtaken.
* `lost_report_orphans`: the report on a finished pod is lost; heartbeats and ticks go on, and it stays `RUNNING`.
-/

namespace ControlPlane

open Lib Lib.Prog Api Reconciler Relation

/-! ## How a pod comes to be stored as running -/

section Running

variable {s s' : Store} {timeout : Duration} {e : Event}

/-- Every running pod was running before, on the same node. -/
def OldRunning (s s' : Store) : Prop :=
  ∀ k p', s'.pods.get k = some p' → p'.status = .running →
    ∃ p, s.pods.get k = some p ∧ p.status = .running ∧ p.nodeID = p'.nodeID

theorem OldRunning.of_pods (h : s'.pods = s.pods) : OldRunning s s' := by
  unfold OldRunning
  rw [h]
  exact Table.Stems.refl (r := fun p p' : Pod => p.nodeID = p'.nodeID) (fun _ => rfl) s.pods

theorem OldRunning.trans {s₁ : Store} (h : OldRunning s s₁) (h' : OldRunning s₁ s') : OldRunning s s' :=
  Table.Stems.trans (r := fun p p' : Pod => p.nodeID = p'.nodeID) (fun _ _ _ => Eq.trans) h h'

theorem OldRunning.chain {r : Store → Store → Prop} (hr : ∀ s s', r s s' → OldRunning s s')
    (h : ReflTransGen r s s') : OldRunning s s' :=
  keeps_of_chain (OldRunning s) (fun _ _ h hold => hold.trans (hr _ _ h)) h (.of_pods rfl)

/-- A pod is written that is not running. -/
theorem OldRunning.putPod {p : Pod} (hst : p.status ≠ .running) : OldRunning s (s.putPod p) :=
  Table.Stems.put (r := fun p p' : Pod => p.nodeID = p'.nodeID) (fun _ => rfl) fun hrun => absurd hrun hst

theorem OldRunning.adjust (h : Adjust s s') : OldRunning s s' := by
  cases h with
  | status => exact .of_pods rfl
  | create | cancel => exact .putPod nofun

theorem OldRunning.dispatch {now : Time} (h : Scheduler.Dispatch now s s') : OldRunning s s' := by
  cases h with
  | mk p n t => exact (OldRunning.putPod (fun hst => by cases hst)).trans (.of_pods rfl)

theorem OldRunning.detect {now : Time} (hd : Detected timeout now s s') : OldRunning s s' := by
  refine Table.Stems.of_keys (r := fun p p' : Pod => p.nodeID = p'.nodeID) hd.keys fun k p hp => ?_
  obtain ⟨p', hp', hin, hout⟩ := hd.pods k p hp
  refine ⟨p', hp', fun hrun => ?_⟩
  by_cases hlost : LostNode timeout now s p.nodeID
  · cases hin hlost with
    | orphan | retry | deadLetter => cases hrun
    | keep _ hne => exact absurd hrun hne
  · obtain rfl := hout hlost
    exact ⟨hrun, rfl⟩

/-- **What makes a pod run**: the report on a scheduled pod that says so, and nothing else. -/
theorem Change.running (hc : Change timeout e s s') : OldRunning s s' ∨
    ∃ node req p t, e = .report node p.id (some req) ∧ s.pods.get p.id = some p ∧ p.status = .scheduled ∧
      req.status = .running ∧ s'.pods = (s.putPod (Api.accepted p req t)).pods := by
  cases hc with
  | none | register | heartbeat | drain | ignored | submit | cancel => exact .inl (.of_pods rfl)
  | rejected node pod req p hp _ =>
    obtain rfl : p.id = pod := Table.key_of_get hp
    refine .inl (Table.Stems.put (r := fun p p' : Pod => p.nodeID = p'.nodeID) (fun _ => rfl) fun hrun => ?_)
    exact ⟨p, hp, hrun, rfl⟩
  | accepted node pod req p t hp ht =>
    obtain rfl : p.id = pod := Table.key_of_get hp
    have hpods : (afterReport s node p req t).pods = (s.putPod (Api.accepted p req t)).pods := by simp
    by_cases hrun : req.status = .running
    · refine .inr ⟨node, req, p, t, rfl, hp, ?_, hrun, hpods⟩
      rw [hrun] at ht
      cases hs : p.status <;> rw [hs] at ht <;> first | rfl | cases ht
    · exact .inl ((OldRunning.putPod (p := Api.accepted p req t) hrun).trans (.of_pods hpods))
  | service _ hs => exact .inl (.of_pods hs.2.1)
  | schedule now hd => exact .inl (.chain (fun _ _ => OldRunning.dispatch) hd)
  | reconcile now ha hd => exact .inl ((OldRunning.chain (fun _ _ => OldRunning.adjust) ha).trans (.detect hd))

/-- A report that asks for a legal move is accepted. -/
theorem Change.moved {node pod : String} {req : PodStatusRequest} {p : Pod}
    (hc : Change timeout (.report node pod (some req)) s s') (hp : s.pods.get pod = some p)
    (ht : transitionPod p.status req.status = true) : ∃ t, s'.pods.get pod = some (Api.accepted p req t) := by
  cases hc with
  | none hr => cases hr
  | service hr _ => cases hr
  | ignored _ _ _ hno =>
    rcases hno with hno | hno
    · cases hno
    · rw [hp] at hno
      cases hno
  | rejected _ _ _ q hq ht' =>
    obtain rfl : q = p := Option.some.inj (hq.symm.trans hp)
    rw [ht] at ht'
    cases ht'
  | accepted _ _ _ q t hq _ =>
    obtain rfl : q = p := Option.some.inj (hq.symm.trans hp)
    have hid : q.id = pod := Table.key_of_get hq
    refine ⟨t, ?_⟩
    rw [afterReport_pods, Table.get_put, if_pos (show pod = (Api.accepted q req t).id from hid.symm)]

theorem transitionPod_running_of_final {st : PodStatus} (h : isPodTerminalish st = true) :
    transitionPod .running st = true := by
  cases st <;> first | rfl | cases h

end Running

namespace Worker

open Cluster

variable {timeout : Duration} {σ σ' : Cluster} {a : Action} {node id : String}

/-! ## Who will still report -/

/-- The agent of `node` has the pod in hand and its final report still to send, or one is under way. -/
def Cluster.Covers (σ : Cluster) (node id : String) : Prop :=
  (∃ j ∈ (σ.agents node).jobs, j.pod.id = id ∧ j.phase ≠ .reporting) ∨
  ∃ m ∈ σ.wire, m.node = node ∧ m.pod = id ∧ isPodTerminalish m.body.status = true

instance : Decidable (σ.Covers node id) :=
  inferInstanceAs (Decidable ((∃ j ∈ (σ.agents node).jobs, j.pod.id = id ∧ j.phase ≠ .reporting) ∨
    ∃ m ∈ σ.wire, m.node = node ∧ m.pod = id ∧ isPodTerminalish m.body.status = true))

/-- No pod is stored as running with nobody to report on it. -/
def Cluster.NoOrphans (σ : Cluster) : Prop :=
  ∀ p ∈ σ.store.pods.rows, p.status = .running → σ.Covers p.nodeID p.id

/-- Report `j` is not the last cover of a running pod. -/
def Cluster.Spare (σ : Cluster) (j : Nat) : Prop :=
  ∀ m ∈ σ.wire[j]?, isPodTerminalish m.body.status = true → ∀ p ∈ σ.store.pods.rows, p.id = m.pod →
    p.nodeID = m.node → p.status = .running → Cluster.Covers { σ with wire := σ.wire.eraseIdx j } m.node m.pod

instance (j : Nat) : Decidable (σ.Spare j) :=
  inferInstanceAs (Decidable (∀ m ∈ σ.wire[j]?, isPodTerminalish m.body.status = true → ∀ p ∈ σ.store.pods.rows,
    p.id = m.pod → p.nodeID = m.node → p.status = .running →
      Cluster.Covers { σ with wire := σ.wire.eraseIdx j } m.node m.pod))

/-- If report `j` starts a pod, the pod is covered on the node it is assigned to. -/
def Cluster.Expected (σ : Cluster) (j : Nat) : Prop :=
  ∀ m ∈ σ.wire[j]?, m.body.status = .running → ∀ p ∈ σ.store.pods.rows, p.id = m.pod → p.status = .scheduled →
    σ.Covers p.nodeID p.id

instance (j : Nat) : Decidable (σ.Expected j) :=
  inferInstanceAs (Decidable (∀ m ∈ σ.wire[j]?, m.body.status = .running → ∀ p ∈ σ.store.pods.rows, p.id = m.pod →
    p.status = .scheduled → σ.Covers p.nodeID p.id))

/-- No final report is lost that is the last cover of its pod, and no pod is reported as running without one. -/
def Cluster.KeepsCover (σ : Cluster) : Action → Prop
  | .lose j => σ.Spare j
  | .deliver j => σ.Expected j
  | _ => True

instance : (a : Action) → Decidable (σ.KeepsCover a)
  | .lose j => inferInstanceAs (Decidable (σ.Spare j))
  | .deliver j => inferInstanceAs (Decidable (σ.Expected j))
  | .control _ | .pollOnce _ | .handlePoll _ | .pollFails _ | .receive _ | .claim .. | .execute .. | .refuse ..
  | .finish .. | .release .. => .isTrue trivial

/-! ## The agents' steps -/

theorem Cluster.Covers.mono (h : σ.Covers node id) (hjobs : ∀ j ∈ (σ.agents node).jobs, j.phase ≠ .reporting →
      (∃ j' ∈ (σ'.agents node).jobs, j'.pod.id = j.pod.id ∧ j'.phase ≠ .reporting) ∨
        ∃ m ∈ σ'.wire, m.node = node ∧ m.pod = j.pod.id ∧ isPodTerminalish m.body.status = true)
    (hwire : ∀ m ∈ σ.wire, m ∈ σ'.wire) : σ'.Covers node id := by
  rcases h with ⟨j, hj, rfl, hph⟩ | ⟨m, hm, hfacts⟩
  · exact hjobs j hj hph
  · exact .inr ⟨m, hwire m hm, hfacts⟩

/-- One goroutine moves on, from `j` to `j'`. -/
theorem Cluster.Covers.setJob (h : σ.Covers node id) {i : Nat} {j j' : Job} {node' : String}
    (hj : (σ.agents node').jobs[i]? = some j) (hagents : σ'.agents = (σ.setJob node' i j').agents)
    (hwire : ∀ m ∈ σ.wire, m ∈ σ'.wire) (hcover : (j'.pod.id = j.pod.id ∧ j'.phase ≠ .reporting) ∨
      ∃ m ∈ σ'.wire, m.node = node' ∧ m.pod = j.pod.id ∧ isPodTerminalish m.body.status = true) :
    σ'.Covers node id := by
  refine h.mono (fun k hk hph => ?_) hwire
  by_cases hn : node = node'
  · subst hn
    have hjobs : (σ'.agents node).jobs = (σ.agents node).jobs.set i j' := by
      rw [hagents, Cluster.setJob, Cluster.setAgent_self]
      rfl
    rw [hjobs]
    obtain ⟨v, hv⟩ := List.mem_iff_getElem?.mp hk
    by_cases hvi : i = v
    · subst hvi
      obtain rfl : j = k := Option.some.inj (hj.symm.trans hv)
      rcases hcover with ⟨hid, hph'⟩ | hm
      · exact .inl ⟨j', List.mem_set (List.getElem?_eq_some_iff.mp hj).1 j', hid, hph'⟩
      · exact .inr hm
    · refine .inl ⟨k, List.mem_iff_getElem?.mpr ⟨v, ?_⟩, rfl, hph⟩
      rw [List.getElem?_set_ne hvi]
      exact hv
  · refine .inl ⟨k, ?_, rfl, hph⟩
    rw [hagents, Cluster.setJob, Cluster.setAgent_ne _ _ hn]
    exact hk

/-- An agent changes and keeps the goroutines that have still to report. -/
theorem Cluster.Covers.setAgent (h : σ.Covers node id) {node' : String} {b : Agent}
    (hb : ∀ j ∈ (σ.agents node').jobs, j.phase ≠ .reporting → j ∈ b.jobs) : (σ.setAgent node' b).Covers node id := by
  refine h.mono (fun j hj hph => .inl ⟨j, ?_, rfl, hph⟩) (fun m hm => hm)
  by_cases hn : node = node'
  · subst hn
    rw [Cluster.setAgent_self]
    exact hb j hj hph
  · rw [Cluster.setAgent_ne _ _ hn]
    exact hj

theorem Outcome.final (o : Outcome) : isPodTerminalish o.report.status = true := by
  cases o <;> rfl

/-- A goroutine gives its slot back only after its final report. -/
theorem release_reporting {i : Nat} (h : σ.act (.release node i) = some σ') :
    ∃ pod, (σ.agents node).jobs[i]? = some ⟨pod, .reporting⟩ := by
  simp only [Cluster.act] at h
  split at h
  · next pod hj => exact ⟨pod, hj⟩
  · cases h

/-- **Agents keep every cover**: a goroutine that ends puts its final report on the wire. -/
theorem Cluster.Covers.act (h : σ.Covers node id) (hact : σ.act a = some σ') (hlose : ∀ j, a ≠ .lose j) :
    σ'.Covers node id := by
  cases act_acts hact with
  | pollOnce | pollFails => exact h.setAgent fun _ hj _ => hj
  | receive node' pod =>
    refine h.setAgent fun j hj _ => ?_
    cases pod with
    | none => exact hj
    | some pod => exact List.mem_append_left _ hj
  | claim node' i pod hj => exact h.setJob hj rfl (fun m hm => List.mem_append_left _ hm) (.inl ⟨rfl, nofun⟩)
  | execute node' i pod hj =>
    exact h.setJob hj (countStart_agents ..) (fun m hm => by rw [countStart_wire]; exact hm) (.inl ⟨rfl, nofun⟩)
  | refuse node' i outcome pod hj | finish node' i outcome pod hj =>
    refine h.setJob hj rfl (fun m hm => List.mem_append_left _ hm) (.inr ⟨⟨node', pod.id, outcome.report⟩, ?_⟩)
    exact ⟨List.mem_append_right _ List.mem_cons_self, rfl, rfl, outcome.final⟩
  | release node' i =>
    obtain ⟨pod, hi⟩ := release_reporting hact
    refine h.setAgent fun j hj hph => ?_
    obtain ⟨v, hv⟩ := List.mem_iff_getElem?.mp hj
    refine List.mem_eraseIdx_iff_getElem?.mpr ⟨v, ?_, hv⟩
    rintro rfl
    obtain rfl := Option.some.inj (hi.symm.trans hv)
    exact hph rfl
  | lose j => exact absurd rfl (hlose j)

/-! ## The wire -/

/-- A report that leaves the wire takes its own cover with it, and no other. -/
theorem Cluster.Covers.eraseIdx (h : σ.Covers node id) (σ' : Cluster) {j : Nat} (hagents : σ'.agents = σ.agents)
    (hwire : σ'.wire = σ.wire.eraseIdx j) :
    σ'.Covers node id ∨
      ∃ m, σ.wire[j]? = some m ∧ m.node = node ∧ m.pod = id ∧ isPodTerminalish m.body.status = true := by
  rcases h with hjob | ⟨m, hm, hfacts⟩
  · exact .inl (.inl (by rw [hagents]; exact hjob))
  · obtain ⟨i, hi⟩ := List.mem_iff_getElem?.mp hm
    by_cases hij : i = j
    · exact .inr ⟨m, by rw [← hij]; exact hi, hfacts⟩
    · refine .inl (.inr ⟨m, ?_, hfacts⟩)
      rw [hwire]
      exact List.mem_eraseIdx_iff_getElem?.mpr ⟨i, hij, hi⟩

theorem Cluster.Covers.of_eraseIdx (h : σ'.Covers node id) {j : Nat} (hagents : σ'.agents = σ.agents)
    (hwire : σ'.wire = σ.wire.eraseIdx j) : σ.Covers node id := by
  rcases h with hjob | ⟨m, hm, hfacts⟩
  · exact .inl (by rw [← hagents]; exact hjob)
  · rw [hwire] at hm
    exact .inr ⟨m, List.mem_of_mem_eraseIdx hm, hfacts⟩

/-- Losing report `j`. -/
theorem noOrphans_lose (h : σ.NoOrphans) (j : Nat) :
    Cluster.NoOrphans { σ with wire := σ.wire.eraseIdx j } ↔ σ.Spare j := by
  constructor
  · intro hno m hm hfinal p hp hid hnode hst
    rw [← hid, ← hnode]
    exact hno p hp hst
  · intro hspare p hp hst
    rcases (h p hp hst).eraseIdx { σ with wire := σ.wire.eraseIdx j } rfl rfl with hcover | ⟨m, hm, hnode, hid, hfinal⟩
    · exact hcover
    · rw [← hnode, ← hid]
      exact hspare m hm hfinal p hp hid.symm hnode.symm hst

/-- Handling report `j`. -/
theorem noOrphans_deliver (h : σ.NoOrphans) {j : Nat} {m : Message} {s' : Store} (hm : σ.wire[j]? = some m)
    (hc : Change timeout (.report m.node m.pod (some m.body)) σ.store s') :
    Cluster.NoOrphans { σ.withStore s' with wire := σ.wire.eraseIdx j } ↔ σ.Expected j := by
  have hkeep {node id : String} (hcover : σ.Covers node id) :=
    hcover.eraseIdx { σ.withStore s' with wire := σ.wire.eraseIdx j } (j := j) rfl rfl
  constructor
  · intro hno m' hm' hrun p hp hid hst
    obtain rfl : m = m' := Option.some.inj (hm.symm.trans hm')
    have hget : σ.store.pods.get m.pod = some p := by
      rw [← hid]
      exact Table.get_of_mem hp
    obtain ⟨t, hp'⟩ := hc.moved hget (by rw [hst, hrun]; rfl)
    exact (hno _ (Table.mem_of_get hp') hrun).of_eraseIdx rfl rfl
  · intro hexp p' hp' hst'
    have hget' : s'.pods.get p'.id = some p' := Table.get_of_mem hp'
    -- a pod that was running before keeps its cover, unless this report ends it
    have hbefore {p : Pod} (hp : σ.store.pods.get p'.id = some p) (hst : p.status = .running) :
        Cluster.Covers { σ.withStore s' with wire := σ.wire.eraseIdx j } p.nodeID p'.id := by
      have hid : p.id = p'.id := Table.key_of_get hp
      rw [← hid]
      rcases hkeep (h p (Table.mem_of_get hp) hst) with hcover | ⟨m', hm', -, hpod, hfinal⟩
      · exact hcover
      · obtain rfl : m = m' := Option.some.inj (hm.symm.trans hm')
        rw [hid] at hpod
        rw [← hpod] at hp hget'
        obtain ⟨t, hmoved⟩ := hc.moved hp (by rw [hst]; exact transitionPod_running_of_final hfinal)
        obtain rfl := Option.some.inj (hget'.symm.trans hmoved)
        rw [show m.body.status = .running from hst'] at hfinal
        cases hfinal
    rcases hc.running with hold | ⟨_, req, p, t, he, hp, hst, hreq, hpods⟩
    · obtain ⟨p, hp, hst, hnode⟩ := hold p'.id p' hget' hst'
      rw [← hnode]
      exact hbefore hp hst
    · obtain ⟨-, hpod, hbody⟩ := Event.report.inj he
      obtain rfl := Option.some.inj hbody
      rw [hpods, Store.putPod_pods, Table.get_put] at hget'
      split at hget'
      · obtain rfl := Option.some.inj hget'
        rcases hkeep (hexp m hm hreq p (Table.mem_of_get hp) hpod.symm hst) with hcover | ⟨m', hm', -, -, hfinal⟩
        · exact hcover
        · obtain rfl : m = m' := Option.some.inj (hm.symm.trans hm')
          rw [hreq] at hfinal
          cases hfinal
      · exact hbefore hget' hst'

/-- Events of the environment and polls start no pod. -/
theorem NoOrphans.old {s' : Store} (h : σ.NoOrphans) (hold : OldRunning σ.store s') (hstore : σ'.store = s')
    (hcovers : ∀ node id, σ.Covers node id → σ'.Covers node id) : σ'.NoOrphans := by
  intro p' hp' hst'
  rw [hstore] at hp'
  obtain ⟨p, hp, hst, hnode⟩ := hold p'.id p' (Table.get_of_mem hp') hst'
  have hid : p.id = p'.id := Table.key_of_get hp
  rw [← hnode, ← hid]
  exact hcovers _ _ (h p (Table.mem_of_get hp) hst)

/-- One step. -/
theorem noOrphans_step {x : Step Cluster Action} (h : x.src.NoOrphans) (hn : x.src.Next timeout x.label x.dst) :
    x.dst.NoOrphans ↔ x.src.KeepsCover x.label := by
  obtain ⟨σ, a, σ'⟩ := x
  change σ.NoOrphans at h
  change σ.Next timeout a σ' at hn
  change σ'.NoOrphans ↔ σ.KeepsCover a
  cases hn with
  | act hact =>
    by_cases hlose : ∃ j, a = .lose j
    · obtain ⟨j, rfl⟩ := hlose
      obtain rfl := Option.some.inj hact
      exact noOrphans_lose h j
    · have hne : ∀ j, a ≠ .lose j := fun j hj => hlose ⟨j, hj⟩
      refine iff_of_true ?_ ?_
      · exact NoOrphans.old h (.of_pods rfl) (act_acts hact).store fun _ _ hcover => hcover.act hact hne
      · cases a with
        | lose j => exact absurd rfl (hne j)
        | deliver => cases hact
        | _ => trivial
  | control e r he hr =>
    refine iff_of_true ?_ trivial
    rcases (Event.prog_spec hr).running with hold | ⟨node, req, p, t, rfl, -⟩
    · exact NoOrphans.old h hold rfl fun _ _ hcover => hcover
    · cases he
  | handlePoll node r _ hr =>
    refine iff_of_true ?_ trivial
    rcases (Event.prog_spec hr).running with hold | ⟨node, req, p, t, he, -⟩
    · exact NoOrphans.old h hold rfl fun _ _ hcover => Covers.setAgent hcover fun _ hj _ => hj
    · cases he
  | deliver j m r hm hr => exact noOrphans_deliver h hm (Event.prog_spec hr)

/-- **No orphans.**  In a run from the empty store, after every step each running pod is with its node's agent or
has a final report under way, exactly if no step loses the last cover of one or starts one without. -/
theorem noOrphans_iff {maxConcurrentJobs : String → Int} {tr : List (Step Cluster Action)}
    (h : Run (Cluster.Next timeout) (Cluster.start {} maxConcurrentJobs) tr σ) :
    (∀ x ∈ tr, x.dst.NoOrphans) ↔ ∀ x ∈ tr, x.src.KeepsCover x.label := by
  refine Run.forall_iff Cluster.NoOrphans (fun _ => True) (fun x => x.dst.NoOrphans)
    (fun x => x.src.KeepsCover x.label) ?_ ?_ h fun _ _ => trivial
  · intro x hn _ hI
    have hiff := noOrphans_step hI hn
    exact ⟨hiff, hiff.mpr⟩
  · intro p hp
    cases hp

/-- A pod is dispatched, picked up, started and ends; both its reports are under way. -/
def finishedPod : List (Time × Action) :=
  (startedRun.take 4).map (fun x => (x.1, .control x.2)) ++
    [(5, .pollOnce "node_00000000"), (5, .handlePoll "node_00000000"), (5, .receive "node_00000000"),
     (5, .claim "node_00000000" 0), (6, .deliver 0), (6, .execute "node_00000000" 0),
     (7, .finish "node_00000000" 0 (.succeeded "done")), (7, .release "node_00000000" 0)]

def emptyCluster : Cluster := Cluster.start {} fun _ => 2

theorem noOrphans_iff_reported :
    (emptyCluster.applyAll (15 * second) finishedPod).wire.length = 1 ∧
    ∀ x ∈ emptyCluster.trace (15 * second) (finishedPod ++ [(8, .deliver 0)]), x.dst.NoOrphans := by
  have hrun : Run (Cluster.Next (15 * second)) emptyCluster
      (emptyCluster.trace (15 * second) (finishedPod ++ [(8, .deliver 0)])) _ :=
    Cluster.run_trace .nil (finishedPod ++ [(8, .deliver 0)])
  exact ⟨by decide +kernel, (noOrphans_iff hrun).mpr (by decide +kernel)⟩

/-- The report is lost; the node heartbeats and the reconciler looks, a minute later. -/
theorem lost_report_orphans :
    ¬ ∀ (timeout : Duration) (maxConcurrentJobs : String → Int) (tr : List (Step Cluster Action)) (σ : Cluster),
      Run (Cluster.Next timeout) (Cluster.start {} maxConcurrentJobs) tr σ → σ.NoOrphans := by
  intro h
  have hno := h (15 * second) (fun _ => 2) _ _ (Cluster.run_trace .nil (finishedPod ++
    [(8, .lose 0), (60 * second, .control (.heartbeat (60 * second) "node_00000000" { runningJobs := 0 })),
     (61 * second, .control (.reconcilerTick (61 * second))), (62 * second, .control (.schedulerTick (62 * second)))]))
  revert hno
  unfold Cluster.NoOrphans
  decide +kernel

end Worker

end ControlPlane
