import InfraPlatform.Lib.Interleave
import InfraPlatform.ControlPlane.SchedulerSpec
import InfraPlatform.ControlPlane.ReconcilerSpec
import InfraPlatform.ControlPlane.ApiSpec

/-!
# What an execution knows of the store

Handlers and loops read records, change them locally and write them back whole.
`knownPod h id` and `knownNode h id` are the records an execution with history `h` last read
or wrote back; its own transition of a record makes it forget the record.

`Careful` is the discipline that every one of these programs follows: a record
written back carries the status it was last known with, and a node is
marked unhealthy only if it was last known healthy.  It holds of each program
alone, whatever the others do to the store meanwhile.
-/

namespace ControlPlane

open Lib Lib.Prog

abbrev CallHist := Hist Call Resp

/-! ## Knowledge -/

/-- The pods an answer shows. -/
def podsShown : (Σ c : Call, Resp c) → List Pod
  | ⟨.getPod _, .ok p⟩ => [p]
  | ⟨.listPodsByDeployment _, .ok l⟩ => l
  | ⟨.listPodsByStatus _, .ok l⟩ => l
  | ⟨.listPodsByNode _, .ok l⟩ => l
  | _ => []

/-- The nodes an answer shows. -/
def nodesShown : (Σ c : Call, Resp c) → List Node
  | ⟨.getNode _, .ok n⟩ => [n]
  | ⟨.listNodes, .ok l⟩ => l
  | _ => []

def learnPod (id : String) (known : Option Pod) : (Σ c : Call, Resp c) → Option Pod
  | ⟨.updatePod p, .ok _⟩ => if p.id = id then some p else known
  | ⟨.createPod p, _⟩ => if p.id = id then none else known
  | ⟨.transitionPod k _ _ _, _⟩ => if k = id then none else known
  | ev => ((podsShown ev).find? fun p => p.id = id).or known

def learnNode (id : String) (known : Option Node) : (Σ c : Call, Resp c) → Option Node
  | ⟨.updateNode n, .ok _⟩ => if n.id = id then some n else known
  | ⟨.registerNode n, _⟩ => if n.id = id then none else known
  | ⟨.transitionNode k _, _⟩ => if k = id then none else known
  | ev => ((nodesShown ev).find? fun n => n.id = id).or known

/-- The calls whose answers tell of pods or change one. -/
def Call.onPods : Call → Bool
  | .createPod _ | .getPod _ | .listPodsByDeployment _ | .listPodsByStatus _ | .listPodsByNode _ | .updatePod _
  | .transitionPod .. => true
  | _ => false

def Call.onNodes : Call → Bool
  | .registerNode _ | .getNode _ | .listNodes | .updateNode _ | .transitionNode .. => true
  | _ => false

section Learn

variable {id : String}

theorem learnPod_other {c : Call} (hc : c.onPods = false) (known : Option Pod) (r : Resp c) :
    learnPod id known ⟨c, r⟩ = known := by
  cases c <;> first | rfl | cases hc

@[simp] theorem learnPod_updatePod (known : Option Pod) (p : Pod) (u : Unit) :
    learnPod id known ⟨.updatePod p, .ok u⟩ = if p.id = id then some p else known := rfl

@[simp] theorem learnPod_updatePod_error (known : Option Pod) (p : Pod) (e : StoreErr) :
    learnPod id known ⟨.updatePod p, .error e⟩ = known := rfl

@[simp] theorem learnPod_transitionPod (known : Option Pod) (k : String) (dest : PodStatus) (msg : String) (t : Time)
    (r : Res) : learnPod id known ⟨.transitionPod k dest msg t, r⟩ = if k = id then none else known := rfl

@[simp] theorem learnPod_getPod (known : Option Pod) (k : String) (p : Pod) :
    learnPod id known ⟨.getPod k, .ok p⟩ = ([p].find? fun q => q.id = id).or known := rfl

theorem learnNode_other {c : Call} (hc : c.onNodes = false) (known : Option Node) (r : Resp c) :
    learnNode id known ⟨c, r⟩ = known := by
  cases c <;> first | rfl | cases hc

@[simp] theorem learnNode_updateNode (known : Option Node) (n : Node) (u : Unit) :
    learnNode id known ⟨.updateNode n, .ok u⟩ = if n.id = id then some n else known := rfl

@[simp] theorem learnNode_updateNode_error (known : Option Node) (n : Node) (e : StoreErr) :
    learnNode id known ⟨.updateNode n, .error e⟩ = known := rfl

@[simp] theorem learnNode_registerNode (known : Option Node) (n : Node) (r : Res) :
    learnNode id known ⟨.registerNode n, r⟩ = if n.id = id then none else known := rfl

@[simp] theorem learnNode_transitionNode (known : Option Node) (k : String) (dest : NodeStatus) (r : Res) :
    learnNode id known ⟨.transitionNode k dest, r⟩ = if k = id then none else known := rfl

@[simp] theorem learnNode_getNode (known : Option Node) (k : String) (n : Node) :
    learnNode id known ⟨.getNode k, .ok n⟩ = ([n].find? fun m => m.id = id).or known := rfl

@[simp] theorem learnNode_getNode_error (known : Option Node) (k : String) (e : StoreErr) :
    learnNode id known ⟨.getNode k, .error e⟩ = known := rfl

end Learn

def knownPod (h : CallHist) (id : String) : Option Pod := h.foldl (learnPod id) none

def knownNode (h : CallHist) (id : String) : Option Node := h.foldl (learnNode id) none

@[simp] theorem knownPod_snoc (h : CallHist) (ev : Σ c : Call, Resp c) (id : String) :
    knownPod (h ++ [ev]) id = learnPod id (knownPod h id) ev := by
  simp [knownPod]

@[simp] theorem knownNode_snoc (h : CallHist) (ev : Σ c : Call, Resp c) (id : String) :
    knownNode (h ++ [ev]) id = learnNode id (knownNode h id) ev := by
  simp [knownNode]

/-- A listing teaches each of its rows. -/
theorem find_or_of_mem {α : Type} {key : α → String} {l : List α} (hnd : (l.map key).Nodup) {a : α} (ha : a ∈ l)
    (known : Option α) : (l.find? fun b => key b = key a).or known = some a := by
  rw [Table.find_of_mem hnd ha]
  rfl

/-! ## The discipline -/

/-- Answers the store can give. -/
def Answers (c : Call) (r : Resp c) : Prop := ∃ s s', Exec c s r s'

def knowsPod (h : CallHist) (p : Pod) : Prop := ∃ q, knownPod h p.id = some q ∧ q.status = p.status

def knowsNode (h : CallHist) (n : Node) : Prop := ∃ m, knownNode h n.id = some m ∧ m.status = n.status

def Careful (h : CallHist) : Call → Prop
  | .updatePod p => knowsPod h p
  | .updateNode n => knowsNode h n
  | .transitionNode id .unhealthy => ∃ m, knownNode h id = some m ∧ m.status = .healthy
  | _ => True

abbrev CarefulTo {α : Type} (Q : CallHist → α → Prop) (h : CallHist) (p : M α) : Prop := Sat Answers Careful Q h p

theorem sat_ask {D : CallHist → Call → Prop} {A : (c : Call) → Resp c → Prop} {h : CallHist} {c : Call}
    {Q : CallHist → Resp c → Prop} (hd : D h c) (hq : ∀ r, A c r → Q (h ++ [⟨c, r⟩]) r) : Sat A D Q h (ask c) :=
  sat_op hd hq

theorem answers_list {α κ : Type} {key : α → κ} {t : Table key} {f : α → Bool} {r : Except StoreErr (List α)}
    (h : Lists t.rows f r) : ∃ l, r = .ok l ∧ (l.map key).Nodup := by
  obtain ⟨l, rfl, hperm⟩ := h
  exact ⟨l, rfl, nodup_of_perm_filter hperm⟩

/-! ## What single calls change of the knowledge -/

/-- From `h` to `h'` only the pods in `P` and the nodes in `N` were touched. -/
structure Touched (P N : String → Prop) (h h' : CallHist) : Prop where
  pods : ∀ id, ¬ P id → knownPod h' id = knownPod h id
  nodes : ∀ id, ¬ N id → knownNode h' id = knownNode h id

def nothing : String → Prop := fun _ => False

theorem Touched.refl (P N : String → Prop) (h : CallHist) : Touched P N h h := ⟨fun _ _ => rfl, fun _ _ => rfl⟩

theorem Touched.trans {P N : String → Prop} {h h₁ h₂ : CallHist} (a : Touched P N h h₁) (b : Touched P N h₁ h₂) :
    Touched P N h h₂ :=
  ⟨fun id hid => (b.pods id hid).trans (a.pods id hid), fun id hid => (b.nodes id hid).trans (a.nodes id hid)⟩

theorem Touched.mono {P P' N N' : String → Prop} {h h' : CallHist} (a : Touched P N h h')
    (hP : ∀ id, P id → P' id) (hN : ∀ id, N id → N' id) : Touched P' N' h h' :=
  ⟨fun id hid => a.pods id fun hp => hid (hP id hp), fun id hid => a.nodes id fun hn => hid (hN id hn)⟩

theorem Touched.quiet {P N : String → Prop} {h h' : CallHist} (a : Touched nothing nothing h h') : Touched P N h h' :=
  a.mono (fun _ hf => hf.elim) (fun _ hf => hf.elim)

theorem knowsPod.frame {P N : String → Prop} {h h' : CallHist} {p : Pod} (hp : knowsPod h p) (a : Touched P N h h')
    (hid : ¬ P p.id) : knowsPod h' p := by
  unfold knowsPod
  rw [a.pods _ hid]
  exact hp

theorem knowsNode.frame {P N : String → Prop} {h h' : CallHist} {n : Node} (hn : knowsNode h n) (a : Touched P N h h')
    (hid : ¬ N n.id) : knowsNode h' n := by
  unfold knowsNode
  rw [a.nodes _ hid]
  exact hn

section Calls

variable {h : CallHist}

theorem knownPod_other {c : Call} (hc : c.onPods = false) (r : Resp c) (id : String) :
    knownPod (h ++ [⟨c, r⟩]) id = knownPod h id := by
  rw [knownPod_snoc, learnPod_other hc]

theorem knownNode_other {c : Call} (hc : c.onNodes = false) (r : Resp c) (id : String) :
    knownNode (h ++ [⟨c, r⟩]) id = knownNode h id := by
  rw [knownNode_snoc, learnNode_other hc]

theorem touched_quiet {c : Call} (hp : c.onPods = false) (hn : c.onNodes = false) (r : Resp c) :
    Touched nothing nothing h (h ++ [⟨c, r⟩]) :=
  ⟨fun id _ => knownPod_other hp r id, fun id _ => knownNode_other hn r id⟩

theorem touched_updatePod (p : Pod) (r : Res) : Touched (· = p.id) nothing h (h ++ [⟨.updatePod p, r⟩]) := by
  refine ⟨fun id hid => ?_, fun id _ => knownNode_other (c := .updatePod p) rfl r id⟩
  cases r with
  | ok _ => simp [Ne.symm hid]
  | error _ => simp

theorem touched_transitionPod (id : String) (dest : PodStatus) (msg : String) (t : Time) (r : Res) :
    Touched (· = id) nothing h (h ++ [⟨.transitionPod id dest msg t, r⟩]) :=
  ⟨fun k hk => by simp [Ne.symm hk], fun k _ => knownNode_other (c := .transitionPod id dest msg t) rfl r k⟩

theorem touched_updateNode (n : Node) (r : Res) : Touched nothing (· = n.id) h (h ++ [⟨.updateNode n, r⟩]) := by
  refine ⟨fun id _ => knownPod_other (c := .updateNode n) rfl r id, fun id hid => ?_⟩
  cases r with
  | ok _ => simp [Ne.symm hid]
  | error _ => simp

theorem sat_timeNow {Q : CallHist → Time → Prop} (hq : ∀ h' t, Touched nothing nothing h h' → Q h' t) :
    CarefulTo Q h timeNow :=
  sat_ask trivial fun t _ => hq _ t (touched_quiet rfl rfl t)

theorem sat_randRead {Q : CallHist → RandBytes → Prop} (hq : ∀ h' b, Touched nothing nothing h h' → Q h' b) :
    CarefulTo Q h randRead :=
  sat_ask trivial fun b _ => hq _ b (touched_quiet rfl rfl b)

theorem sat_getDeployment {id : String} {Q : CallHist → Except StoreErr Deployment → Prop}
    (hq : ∀ h' r, Touched nothing nothing h h' → Q h' r) : CarefulTo Q h (State.getDeployment id) :=
  sat_ask trivial fun r _ => hq _ r (touched_quiet rfl rfl r)

theorem sat_updatePod {p : Pod} {Q : CallHist → Res → Prop} (hp : knowsPod h p)
    (hq : ∀ h' r, Touched (· = p.id) nothing h h' → Q h' r) : CarefulTo Q h (State.updatePod p) :=
  sat_ask hp fun r _ => hq _ r (touched_updatePod p r)

theorem sat_transitionPod {id msg : String} {dest : PodStatus} {Q : CallHist → Res → Prop}
    (hq : ∀ h' r, Touched (· = id) nothing h h' → Q h' r) : CarefulTo Q h (State.transitionPod id dest msg) :=
  sat_bind (sat_ask trivial fun t _ => sat_ask trivial fun r _ =>
    hq _ r ((touched_quiet rfl rfl t).quiet.trans (touched_transitionPod id dest msg t r)))

theorem sat_updateNode {n : Node} {Q : CallHist → Res → Prop} (hn : knowsNode h n)
    (hq : ∀ h' r, Touched nothing (· = n.id) h h' → knowsNode h' n → Q h' r) :
    CarefulTo Q h (State.updateNode n) := by
  refine sat_ask hn fun r _ => hq _ r (touched_updateNode n r) ?_
  cases r with
  | ok _ => exact ⟨n, by simp, rfl⟩
  | error _ => simpa [knowsNode] using hn

theorem sat_transitionNode {id : String} {dest : NodeStatus} {Q : CallHist → Res → Prop}
    (hd : dest = .unhealthy → ∃ m, knownNode h id = some m ∧ m.status = .healthy)
    (hq : ∀ h' r, Touched nothing (· = id) h h' → Q h' r) : CarefulTo Q h (State.transitionNode id dest) := by
  refine sat_ask ?_ fun r _ => hq _ r ⟨fun k _ => knownPod_other rfl r k, fun k hk => by
    simp [Ne.symm hk]⟩
  cases dest <;> first | exact hd rfl | trivial

theorem sat_getPod {id : String} {Q : CallHist → Except StoreErr Pod → Prop}
    (hq : ∀ h' r, (∀ p, r = .ok p → knowsPod h' p) → Q h' r) : CarefulTo Q h (State.getPod id) :=
  sat_ask trivial fun r _ => hq _ r fun p hp => ⟨p, by rw [hp]; simp, rfl⟩

theorem sat_getNode {id : String} {Q : CallHist → Except StoreErr Node → Prop}
    (hq : ∀ h' r, (∀ n, r = .ok n → knowsNode h' n) → Q h' r) : CarefulTo Q h (State.getNode id) :=
  sat_ask trivial fun r _ => hq _ r fun n hn => ⟨n, by rw [hn]; simp, rfl⟩

theorem sat_listPodsByNode {nodeID : String} {Q : CallHist → Except StoreErr (List Pod) → Prop}
    (hq : ∀ h' l, (∀ id, knownNode h' id = knownNode h id) → (l.map Pod.id).Nodup → (∀ p ∈ l, knowsPod h' p) →
      Q h' (.ok l)) : CarefulTo Q h (State.listPodsByNode nodeID) := by
  refine sat_ask trivial fun r hr => ?_
  obtain ⟨s, s', hl, -⟩ := hr
  obtain ⟨l, rfl, hnd⟩ := answers_list hl
  refine hq _ l (fun id => knownNode_other rfl _ id) hnd fun p hp => ⟨p, ?_, rfl⟩
  rw [knownPod_snoc]
  exact find_or_of_mem hnd hp _

theorem sat_listPodsByStatus {st : PodStatus} {Q : CallHist → Except StoreErr (List Pod) → Prop}
    (hq : ∀ h' l, (l.map Pod.id).Nodup → (∀ p ∈ l, knowsPod h' p) → Q h' (.ok l)) :
    CarefulTo Q h (State.listPodsByStatus st) := by
  refine sat_ask trivial fun r hr => ?_
  obtain ⟨s, s', hl, -⟩ := hr
  obtain ⟨l, rfl, hnd⟩ := answers_list hl
  refine hq _ l hnd fun p hp => ⟨p, ?_, rfl⟩
  rw [knownPod_snoc]
  exact find_or_of_mem hnd hp _

theorem sat_listNodes {Q : CallHist → Except StoreErr (List Node) → Prop}
    (hq : ∀ h' l, (∀ id, knownPod h' id = knownPod h id) → (l.map Node.id).Nodup → (∀ n ∈ l, knowsNode h' n) →
      Q h' (.ok l)) : CarefulTo Q h State.listNodes := by
  refine sat_ask trivial fun r hr => ?_
  obtain ⟨s, s', hl, -⟩ := hr
  obtain ⟨l, rfl, hnd⟩ := answers_list hl
  refine hq _ l (fun id => knownPod_other rfl _ id) hnd fun n hn => ⟨n, ?_, rfl⟩
  rw [knownNode_snoc]
  exact find_or_of_mem hnd hn _

end Calls

/-! ## The handlers -/

section Handlers

open Api

variable {h : CallHist}

/-- No claim about what is known at the end. -/
def anything {α : Type} : CallHist → α → Prop := fun _ _ => True

theorem releaseNodeCapacity_careful (nodeID deploymentID : String) :
    CarefulTo anything h (releaseNodeCapacity nodeID deploymentID) := by
  refine sat_bind (sat_getNode fun h₁ r hr => ?_)
  cases r with
  | error e => exact sat_pure trivial
  | ok node =>
    refine sat_bind (sat_getDeployment fun h₂ d ht => ?_)
    have hknow : knowsNode h₂ (releasedNode node d) := by
      obtain ⟨m, hm, hst⟩ := (hr node rfl).frame ht id
      exact ⟨m, by rw [releasedNode_id]; exact hm, by rw [releasedNode_status]; exact hst⟩
    exact sat_bind (sat_updateNode hknow fun _ _ _ _ => sat_pure trivial)

theorem updatePodStatus_careful (nodeID podID : String) (body : Option PodStatusRequest) :
    CarefulTo anything h (updatePodStatus nodeID podID body) := by
  cases body with
  | none => exact sat_pure trivial
  | some req =>
    refine sat_bind (sat_getPod fun h₁ r hr => ?_)
    cases r with
    | error e => exact sat_pure trivial
    | ok pod =>
      refine sat_bind (sat_updatePod (hr pod rfl) fun h₂ r _ => ?_)
      cases r with
      | error e => exact sat_pure trivial
      | ok _ =>
        refine sat_bind (sat_transitionPod fun h₃ r _ => ?_)
        have hlast : ∀ h, CarefulTo anything h
            (do let updated ← State.getPod podID; pure (writeJSON 200 (.pod updated.toOption))) :=
          fun h => sat_bind (sat_getPod fun _ _ _ => sat_pure trivial)
        cases r with
        | error e => cases e <;> exact sat_pure trivial
        | ok _ =>
          refine sat_bind ?_
          split
          · exact (releaseNodeCapacity_careful nodeID _).mono (fun _ _ hd => hd) fun h _ _ => hlast h
          · exact sat_pure (hlast _)

theorem heartbeat_careful (now : Time) (id : String) (req : NodeHeartbeatRequest) :
    CarefulTo anything h (heartbeat now id req) := by
  refine sat_bind (sat_getNode fun h₁ r hr => ?_)
  cases r with
  | error e => exact sat_pure trivial
  | ok node =>
    refine sat_bind (sat_updateNode (hr node rfl) fun h₂ r _ _ => ?_)
    cases r with
    | error e => exact sat_pure trivial
    | ok _ =>
      simp only
      split
      · refine sat_bind (sat_transitionNode (by simp) fun h₃ r _ => ?_)
        cases r <;> exact sat_pure trivial
      · exact sat_pure trivial

theorem drainNode_careful (id : String) : CarefulTo anything h (drainNode id) := by
  refine sat_bind (sat_getNode fun h₁ r hr => ?_)
  cases r with
  | error e => exact sat_pure trivial
  | ok node =>
    refine sat_bind (sat_transitionNode (by simp) fun h₂ r _ => ?_)
    cases r with
    | error e => cases e <;> exact sat_pure trivial
    | ok _ => exact sat_bind (sat_getNode fun _ _ _ => sat_pure trivial)

end Handlers

/-! ## The scheduling pass -/

namespace Scheduler

variable {h : CallHist}

/-- What the loop of `tick` knows: the pods still to come and its copies of the nodes. -/
structure Knows (rest : List Pod) (pass : Pass) (h : CallHist) : Prop where
  nodup : (rest.map Pod.id).Nodup
  pods : ∀ p ∈ rest, knowsPod h p
  nodes : ∀ n ∈ pass.nodes, knowsNode h n

theorem Knows.tail {rest : List Pod} {pass : Pass} {p : Pod} {h' : CallHist} (hk : Knows (p :: rest) pass h)
    (ht : Touched (· = p.id) nothing h h') : Knows rest pass h' := by
  obtain ⟨hnd, hpods, hnodes⟩ := hk
  rw [List.map_cons, List.nodup_cons] at hnd
  refine ⟨hnd.2, fun q hq => ?_, fun n hn => (hnodes n hn).frame ht id⟩
  exact (hpods q (List.mem_cons_of_mem _ hq)).frame ht fun heq => hnd.1 (heq ▸ List.mem_map_of_mem hq)

theorem dispatch_careful {rest : List Pod} {pass : Pass} {p : Pod} {n : Node} (required : ResourceRequest)
    (hk : Knows (p :: rest) pass h) (hn : n ∈ pass.nodes) :
    CarefulTo (fun h pass => Knows rest pass h) h (dispatch pass p n required) := by
  refine sat_bind (sat_updatePod (hk.pods p List.mem_cons_self) fun h₁ r ht₁ => ?_)
  cases r with
  | error e => exact sat_pure (hk.tail ht₁)
  | ok _ =>
    refine sat_bind (sat_transitionPod fun h₂ r ht₂ => ?_)
    have hk₂ := hk.tail (ht₁.trans ht₂)
    cases r with
    | error e => exact sat_pure hk₂
    | ok _ =>
      refine sat_bind (sat_updateNode (n := reserve n required) (hk₂.nodes n hn) fun h₃ r ht₃ hw => ?_)
      refine sat_pure ⟨hk₂.nodup, fun q hq => (hk₂.pods q hq).frame ht₃ id, fun m hm => ?_⟩
      obtain ⟨m₀, hm₀, rfl⟩ := List.mem_map.mp hm
      split
      · exact hw
      · next hne => exact (hk₂.nodes m₀ hm₀).frame ht₃ hne

theorem schedulePod_careful {rest : List Pod} {pass : Pass} {p : Pod} (now : Time) (hk : Knows (p :: rest) pass h) :
    CarefulTo (fun h pass => Knows rest pass h) h (schedulePod now pass p) := by
  unfold schedulePod
  split
  · exact sat_pure (hk.tail (.refl _ _ h))
  · refine sat_bind (sat_getDeployment fun h₁ r ht => ?_)
    simp only
    split
    · exact sat_pure (hk.tail ht.quiet)
    · next n hsel =>
      have hk₁ : Knows (p :: rest) pass h₁ := ⟨hk.nodup, fun q hq => (hk.pods q hq).frame ht id,
        fun m hm => (hk.nodes m hm).frame ht id⟩
      exact dispatch_careful _ hk₁ (selectNode_qualifies hsel).1

theorem tick_careful (now : Time) : CarefulTo anything h (tick now) := by
  refine sat_bind (sat_listPodsByStatus fun h₁ listed hnd hpods => ?_)
  refine sat_bind (sat_listNodes fun h₂ nodes hsame _ hnodes => ?_)
  have hperm := sortByCreatedAt_perm listed
  have hstart : Knows (sortByCreatedAt listed) { nodes } h₂ := by
    refine ⟨(hperm.map _).nodup_iff.mpr hnd, fun p hp => ?_, hnodes⟩
    unfold knowsPod
    rw [hsame]
    exact hpods p (hperm.mem_iff.mp hp)
  refine sat_bind (sat_foldlM (fun rest pass h => Knows rest pass h)
    (fun p rest pass h hk => schedulePod_careful now hk) hstart fun pass h _ => ?_)
  exact sat_bind (sat_timeNow fun _ _ _ => sat_pure trivial)

end Scheduler

/-! ## The reconciliation pass -/

namespace Reconciler

variable {h : CallHist}

theorem forM_anything {β : Type} {f : β → M Unit} {l : List β} (hf : ∀ x h, CarefulTo anything h (f x)) :
    CarefulTo anything h (l.forM f) :=
  sat_forM (fun _ _ => True) (fun x _ h _ => hf x h) trivial (fun _ _ => trivial)

theorem createReplica_careful (d : Deployment) : CarefulTo anything h (createReplica d) := by
  refine sat_bind (sat_bind (sat_randRead fun h₁ b _ => sat_pure ?_))
  cases b with
  | none => exact sat_pure trivial
  | some b =>
    refine sat_bind (sat_timeNow fun h₂ t _ => ?_)
    exact sat_bind (sat_ask trivial fun _ _ => sat_pure trivial)

theorem reconcileReplicas_careful (d : Deployment) (pods : List Pod) :
    CarefulTo anything h (reconcileReplicas d pods) := by
  unfold reconcileReplicas
  split
  · exact forM_anything fun _ _ => createReplica_careful d
  · split
    · exact forM_anything fun _ _ => sat_bind (sat_transitionPod fun _ _ _ => sat_pure trivial)
    · exact sat_pure trivial

theorem transitionDeployment_careful {id : String} {dest : DeploymentStatus} {β : Type} {f : Res → M β}
    (hf : ∀ r h, CarefulTo anything h (f r)) : CarefulTo anything h (State.transitionDeployment id dest >>= f) :=
  sat_bind (sat_bind (sat_ask trivial fun _ _ => sat_ask trivial fun r _ => hf r _))

theorem reconcileHealth_careful (d : Deployment) (b : Bool) : CarefulTo anything h (reconcileHealth d b) := by
  unfold reconcileHealth
  split
  · exact transitionDeployment_careful fun _ _ => sat_pure trivial
  · split
    · exact transitionDeployment_careful fun _ _ => sat_pure trivial
    · exact sat_pure trivial

theorem activate_careful (d : Deployment) : CarefulTo anything h (activate d) := by
  unfold activate
  split
  · exact transitionDeployment_careful fun r _ => by cases r <;> exact sat_pure trivial
  · exact sat_pure trivial

theorem reconcileDeployment_careful (d : Deployment) : CarefulTo anything h (reconcileDeployment d) := by
  unfold reconcileDeployment
  split
  · exact sat_pure trivial
  · refine sat_bind ((activate_careful d).mono (fun _ _ hd => hd) fun h₁ d' _ => ?_)
    cases d' with
    | none => exact sat_pure trivial
    | some d' =>
      refine sat_bind (sat_ask trivial fun r _ => ?_)
      cases r with
      | error e => exact sat_pure trivial
      | ok pods =>
        refine sat_bind ((reconcileReplicas_careful d' pods).mono (fun _ _ hd => hd) fun h₂ _ _ => ?_)
        exact reconcileHealth_careful d' _

theorem reconcileDeployments_careful : CarefulTo anything h reconcileDeployments := by
  refine sat_bind (sat_ask trivial fun r _ => ?_)
  cases r with
  | error e => exact sat_pure trivial
  | ok ds => exact forM_anything fun d _ => reconcileDeployment_careful d

/-! Of the pods that `reschedulePodsFor` lists, each round touches one. -/

theorem requeueOrphan_careful {p : Pod} (hp : knowsPod h p) :
    CarefulTo (fun h' _ => Touched (· = p.id) nothing h h') h (requeueOrphan p) := by
  refine sat_bind (sat_updatePod (p := unassigned p) hp fun h₁ r ht₁ => ?_)
  cases r with
  | error e => exact sat_pure ht₁
  | ok _ => exact sat_bind (sat_transitionPod fun h₂ _ ht₂ => sat_pure (ht₁.trans ht₂))

theorem retryPod_careful {p : Pod} (hp : knowsPod h p) :
    CarefulTo (fun h' _ => Touched (· = p.id) nothing h h') h (retryPod p) := by
  refine sat_bind (sat_timeNow fun h₀ now ht₀ => ?_)
  have hp₀ : knowsPod h₀ (retried p now) := hp.frame ht₀ id
  refine sat_bind (sat_updatePod hp₀ fun h₁ r ht₁ => ?_)
  have ht₁ := ht₀.quiet.trans ht₁
  cases r with
  | error e => exact sat_pure ht₁
  | ok _ =>
    refine sat_bind (sat_transitionPod fun h₂ r ht₂ => ?_)
    cases r with
    | error e => exact sat_pure (ht₁.trans ht₂)
    | ok _ =>
      refine sat_bind (sat_transitionPod fun h₃ _ ht₃ => ?_)
      exact sat_bind (sat_transitionPod fun h₄ _ ht₄ => sat_pure (((ht₁.trans ht₂).trans ht₃).trans ht₄))

theorem deadLetterPod_careful {p : Pod} (hp : knowsPod h p) :
    CarefulTo (fun h' _ => Touched (· = p.id) nothing h h') h (deadLetterPod p) := by
  refine sat_bind (sat_updatePod (p := exhausted p) hp fun h₁ r ht₁ => ?_)
  cases r with
  | error e => exact sat_pure ht₁
  | ok _ =>
    refine sat_bind (sat_transitionPod fun h₂ r ht₂ => ?_)
    cases r with
    | error e => exact sat_pure (ht₁.trans ht₂)
    | ok _ => exact sat_bind (sat_transitionPod fun h₃ _ ht₃ => sat_pure ((ht₁.trans ht₂).trans ht₃))

theorem reschedulePod_careful {p : Pod} (hp : knowsPod h p) :
    CarefulTo (fun h' _ => Touched (· = p.id) nothing h h') h (reschedulePod p) := by
  unfold reschedulePod
  split
  · exact requeueOrphan_careful hp
  · split
    · exact sat_pure (.refl _ _ h)
    · refine sat_bind (sat_getDeployment fun h₁ r ht => ?_)
      have hp₁ := hp.frame ht id
      simp only
      split
      · exact (retryPod_careful hp₁).mono (fun _ _ hd => hd) fun _ _ ht' => ht.quiet.trans ht'
      · exact (deadLetterPod_careful hp₁).mono (fun _ _ hd => hd) fun _ _ ht' => ht.quiet.trans ht'

/-- The pass over a node's pods forgets nothing of the nodes. -/
theorem reschedulePodsFor_careful (nodeID : String) :
    CarefulTo (fun h' _ => ∀ id, knownNode h' id = knownNode h id) h (reschedulePodsFor nodeID) := by
  refine sat_bind (sat_listPodsByNode fun h₁ pods hsame hnd hpods => ?_)
  refine sat_forM (fun rest h' => (rest.map Pod.id).Nodup ∧ (∀ p ∈ rest, knowsPod h' p) ∧
    ∀ id, knownNode h' id = knownNode h id) (fun p rest h₂ hI => ?_) ⟨hnd, hpods, hsame⟩ (fun h' hI => hI.2.2)
  obtain ⟨hnd, hpods, hsame⟩ := hI
  rw [List.map_cons, List.nodup_cons] at hnd
  refine (reschedulePod_careful (hpods p List.mem_cons_self)).mono (fun _ _ hd => hd) fun h₃ _ ht => ?_
  refine ⟨hnd.2, fun q hq => ?_, fun id => (ht.nodes id (fun hf => hf)).trans (hsame id)⟩
  exact (hpods q (List.mem_cons_of_mem _ hq)).frame ht fun heq => hnd.1 (heq ▸ List.mem_map_of_mem hq)

theorem giveUpNode_careful {n : Node} {dest : NodeStatus} (hn : knowsNode h n)
    (hd : dest = .unhealthy → n.status = .healthy) :
    CarefulTo (fun h' _ => ∀ id, id ≠ n.id → knownNode h' id = knownNode h id) h (giveUpNode n dest) := by
  have hknown : dest = .unhealthy → ∃ m, knownNode h n.id = some m ∧ m.status = .healthy := by
    intro heq
    obtain ⟨m, hm, hst⟩ := hn
    exact ⟨m, hm, by rw [hst]; exact hd heq⟩
  refine sat_bind (sat_transitionNode hknown fun h₁ r ht => ?_)
  cases r with
  | error e => exact sat_pure fun id hid => ht.nodes id hid
  | ok _ =>
    exact (reschedulePodsFor_careful n.id).mono (fun _ _ hd => hd) fun h₂ _ hsame id hid =>
      (hsame id).trans (ht.nodes id hid)

theorem detectUnhealthyNode_careful {n : Node} (timeout : Duration) (now : Time) (hn : knowsNode h n) :
    CarefulTo (fun h' _ => ∀ id, id ≠ n.id → knownNode h' id = knownNode h id) h
      (detectUnhealthyNode timeout now n) := by
  unfold detectUnhealthyNode
  split
  · next hc => exact giveUpNode_careful hn fun _ => hc.1
  · split
    · exact giveUpNode_careful hn (by simp)
    · exact sat_pure fun _ _ => rfl

theorem detectUnhealthyNodes_careful (timeout : Duration) (now : Time) :
    CarefulTo anything h (detectUnhealthyNodes timeout now) := by
  refine sat_bind (sat_listNodes fun h₁ nodes _ hnd hnodes => ?_)
  refine sat_forM (fun rest h' => (rest.map Node.id).Nodup ∧ ∀ n ∈ rest, knowsNode h' n)
    (fun n rest h₂ hI => ?_) ⟨hnd, hnodes⟩ (fun _ _ => trivial)
  obtain ⟨hnd, hnodes⟩ := hI
  rw [List.map_cons, List.nodup_cons] at hnd
  refine (detectUnhealthyNode_careful timeout now (hnodes n List.mem_cons_self)).mono (fun _ _ hd => hd)
    fun h₃ _ hsame => ⟨hnd.2, fun m hm => ?_⟩
  have hne : m.id ≠ n.id := fun heq => hnd.1 (heq ▸ List.mem_map_of_mem hm)
  unfold knowsNode
  rw [hsame m.id hne]
  exact hnodes m (List.mem_cons_of_mem _ hm)

theorem tick_careful (timeout : Duration) (now : Time) : CarefulTo anything h (tick timeout now) :=
  sat_bind (reconcileDeployments_careful.mono (fun _ _ hd => hd) fun _ _ _ =>
    detectUnhealthyNodes_careful timeout now)

end Reconciler

end ControlPlane
