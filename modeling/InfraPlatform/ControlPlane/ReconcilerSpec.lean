import InfraPlatform.ControlPlane.StoreSpec
import InfraPlatform.ControlPlane.Reconciler

/-!
# What a reconciliation pass does to the store

* `reconcileDeployments_spec`: the first half is a sequence of `Adjust`ments: a
  deployment changes between active and degraded, a pod is created for a
  deployment that has fewer active pods than replicas, or a waiting pod is
  cancelled for one that has more.
* `detectUnhealthyNodes_spec`: the second half is `Detected`, node by node and pod
  by pod: which nodes are given up, and what becomes of their pods.
-/

namespace ControlPlane.Reconciler

open Lib Lib.Prog Relation

variable {s s' : Store} {timeout : Duration} {now : Time}

/-! ## Pods of a node given up -/

/-- The retry budget the reconciler grants `p`. -/
def maxRetriesFor (s : Store) (p : Pod) : Int := maxRetriesOf (s.getDeployment p.deploymentID)

/-- What becomes of pod `p` when its node is given up. -/
inductive Rescheduled [A : Arith] (s : Store) (p : Pod) : Pod → Prop where
  | orphan (t : Time) : p.status = .scheduled → Rescheduled s p (Store.movePod (unassigned p) .pending "" t)
  | retry (now t₁ t₂ t₃ : Time) : p.status = .running → A.int (p.attempt + 1) ≤ maxRetriesFor s p →
      Rescheduled s p (Store.movePod (Store.movePod (Store.movePod (retried p now) .failed
        "node heartbeat timeout" t₁) .retrying "" t₂) .pending "" t₃)
  | deadLetter (t₁ t₂ : Time) : p.status = .running → ¬ A.int (p.attempt + 1) ≤ maxRetriesFor s p →
      Rescheduled s p (Store.movePod (Store.movePod (exhausted p) .failed
        "node heartbeat timeout" t₁) .deadLetter "max retries exceeded after node failure" t₂)
  | keep : p.status ≠ .scheduled → p.status ≠ .running → Rescheduled s p p

theorem Rescheduled.id [A : Arith] {p p' : Pod} (h : Rescheduled s p p') : p'.id = p.id := by
  cases h <;> rfl

theorem Rescheduled.deploymentID [A : Arith] {p p' : Pod} (h : Rescheduled s p p') :
    p'.deploymentID = p.deploymentID := by
  cases h <;> rfl

/-- No pod of a node given up stays in flight. -/
theorem Rescheduled.not_inFlight [A : Arith] {p p' : Pod} (h : Rescheduled s p p') : p'.inFlight = false := by
  cases h with
  | orphan t hs => rfl
  | retry now t₁ t₂ t₃ hs hr => rfl
  | deadLetter t₁ t₂ hs hr => rfl
  | keep h1 h2 => simp [Pod.inFlight, h1, h2]

/-- A pod that leaves its node waits to be scheduled again. -/
theorem Rescheduled.moved [A : Arith] {p p' : Pod} (h : Rescheduled s p p') :
    p'.nodeID = p.nodeID ∨ p'.nodeID = "" ∧ p'.status = .pending := by
  cases h with
  | orphan t hs => exact .inr ⟨rfl, rfl⟩
  | retry now t₁ t₂ t₃ hs hr => exact .inr ⟨rfl, rfl⟩
  | deadLetter t₁ t₂ hs hr => exact .inl rfl
  | keep h1 h2 => exact .inl rfl

/-- The relation reads only the deployments. -/
theorem Rescheduled.congr [A : Arith] {p p' : Pod} (hd : s.deployments = s'.deployments) (h : Rescheduled s p p') :
    Rescheduled s' p p' := by
  have hm : maxRetriesFor s p = maxRetriesFor s' p := by
    unfold maxRetriesFor Store.getDeployment
    rw [hd]
  cases h with
  | orphan t hs => exact .orphan t hs
  | retry now t₁ t₂ t₃ hs hr => exact .retry now t₁ t₂ t₃ hs (hm ▸ hr)
  | deadLetter t₁ t₂ hs hr => exact .deadLetter t₁ t₂ hs (hm ▸ hr)
  | keep h1 h2 => exact .keep h1 h2

/-- A legal transition of the pod just written goes through and replaces the record. -/
theorem move_written {p : Pod} {id msg : String} {dest : PodStatus} {r : Res}
    (h : Runs Exec (State.transitionPod id dest msg) (s.putPod p) r s') (hid : p.id = id)
    (hok : transitionPod p.status dest = true) :
    r = .ok () ∧ ∃ t, s' = s.putPod (Store.movePod p dest msg t) := by
  obtain ⟨t, htr⟩ := runs_transitionPod.mp h
  have hget : (s.putPod p).pods.get id = some p := hid ▸ Table.get_put_self s.pods p
  rw [Store.transitionPod_of hget hok, Store.putPod_putPod (Store.movePod_id _ _ _ _).symm] at htr
  obtain ⟨rfl, rfl⟩ := Prod.mk.inj htr
  exact ⟨rfl, t, rfl⟩

theorem requeueOrphan_spec {p : Pod} {u : Unit} (hp : s.pods.get p.id = some p) (hs : p.status = .scheduled)
    (h : Runs Exec (requeueOrphan p) s u s') :
    ∃ t, s' = s.putPod (Store.movePod (unassigned p) .pending "" t) := by
  simp only [requeueOrphan, runs_bind, runs_updatePod] at h
  obtain ⟨_, s₁, hupd, h⟩ := h
  rw [Store.updatePod_some (p := unassigned p) hp] at hupd
  obtain ⟨rfl, rfl⟩ := Prod.mk.inj hupd
  obtain ⟨_, s₁, h1, h⟩ := runs_bind.mp h
  obtain ⟨-, t, rfl⟩ := move_written h1 rfl (by show transitionPod p.status _ = true; rw [hs]; rfl)
  exact ⟨t, (runs_pure.mp h).2⟩

theorem retryPod_spec [A : Arith] {p : Pod} {u : Unit} (hp : s.pods.get p.id = some p) (hs : p.status = .running)
    (h : Runs Exec (retryPod p) s u s') :
    ∃ now t₁ t₂ t₃, s' = s.putPod (Store.movePod (Store.movePod (Store.movePod (retried p now) .failed
        "node heartbeat timeout" t₁) .retrying "" t₂) .pending "" t₃) := by
  simp only [retryPod, runs_bind, runs_timeNow, runs_updatePod] at h
  obtain ⟨now, _, rfl, _, s₁, hupd, h⟩ := h
  rw [Store.updatePod_some (p := retried p now) hp] at hupd
  obtain ⟨rfl, rfl⟩ := Prod.mk.inj hupd
  obtain ⟨_, s₁, h1, h⟩ := runs_bind.mp h
  obtain ⟨rfl, t₁, rfl⟩ := move_written h1 rfl (by show transitionPod p.status _ = true; rw [hs]; rfl)
  obtain ⟨_, s₁, h2, h⟩ := runs_bind.mp h
  obtain ⟨-, t₂, rfl⟩ := move_written h2 rfl rfl
  obtain ⟨_, s₁, h3, h⟩ := runs_bind.mp h
  obtain ⟨-, t₃, rfl⟩ := move_written h3 rfl rfl
  exact ⟨now, t₁, t₂, t₃, (runs_pure.mp h).2⟩

theorem deadLetterPod_spec [A : Arith] {p : Pod} {u : Unit} (hp : s.pods.get p.id = some p) (hs : p.status = .running)
    (h : Runs Exec (deadLetterPod p) s u s') :
    ∃ t₁ t₂, s' = s.putPod (Store.movePod (Store.movePod (exhausted p) .failed
        "node heartbeat timeout" t₁) .deadLetter "max retries exceeded after node failure" t₂) := by
  simp only [deadLetterPod, runs_bind, runs_updatePod] at h
  obtain ⟨_, s₁, hupd, h⟩ := h
  rw [Store.updatePod_some (p := exhausted p) hp] at hupd
  obtain ⟨rfl, rfl⟩ := Prod.mk.inj hupd
  obtain ⟨_, s₁, h1, h⟩ := runs_bind.mp h
  obtain ⟨rfl, t₁, rfl⟩ := move_written h1 rfl (by show transitionPod p.status _ = true; rw [hs]; rfl)
  obtain ⟨_, s₁, h2, h⟩ := runs_bind.mp h
  obtain ⟨-, t₂, rfl⟩ := move_written h2 rfl rfl
  exact ⟨t₁, t₂, (runs_pure.mp h).2⟩

/-- One round of `reschedulePodsFor` on a pod that is stored as listed. -/
theorem reschedulePod_spec [A : Arith] {p : Pod} {u : Unit} (hp : s.pods.get p.id = some p)
    (h : Runs Exec (reschedulePod p) s u s') : ∃ p', Rescheduled s p p' ∧ s' = s.putPod p' := by
  unfold reschedulePod at h
  split at h
  · next hs =>
    obtain ⟨t, rfl⟩ := requeueOrphan_spec hp hs h
    exact ⟨_, .orphan t hs, rfl⟩
  · next hs =>
    split at h
    · next hr =>
      obtain ⟨-, rfl⟩ := runs_pure.mp h
      exact ⟨p, .keep hs hr, (Store.putPod_self hp).symm⟩
    · next hr =>
      have hr : p.status = .running := not_not.mp hr
      simp only [runs_bind, runs_getDeployment] at h
      obtain ⟨_, s₁, ⟨rfl, rfl⟩, h⟩ := h
      split at h
      · next hb =>
        obtain ⟨now, t₁, t₂, t₃, rfl⟩ := retryPod_spec hp hr h
        exact ⟨_, .retry now t₁ t₂ t₃ hr hb, rfl⟩
      · next hb =>
        obtain ⟨t₁, t₂, rfl⟩ := deadLetterPod_spec hp hr h
        exact ⟨_, .deadLetter t₁ t₂ hr hb, rfl⟩

/-- `s'` is `s` with every pod of the nodes in `lost` rescheduled. -/
structure TakenAway [A : Arith] (lost : String → Prop) (s s' : Store) : Prop where
  deployments : s'.deployments = s.deployments
  keys : s'.pods.keys = s.pods.keys
  pods : ∀ k p, s.pods.get k = some p →
    ∃ p', s'.pods.get k = some p' ∧ (lost p.nodeID → Rescheduled s p p') ∧ (¬ lost p.nodeID → p' = p)

/-- Writing a pod back under its own ID keeps the keys. -/
theorem keys_putPod {p p' : Pod} (hp : s.pods.get p.id = some p) (hid : p'.id = p.id) :
    (s.putPod p').pods.keys = s.pods.keys :=
  Table.keys_put_of_get (b := p) (by rw [hid]; exact hp)

/-- The loop of `reschedulePodsFor` after the pods `done`: these are rescheduled, all others are as they were. -/
structure RescheduledOn [A : Arith] (done : List String) (s s' : Store) : Prop where
  deployments : s'.deployments = s.deployments
  nodes : s'.nodes = s.nodes
  keys : s'.pods.keys = s.pods.keys
  pods : ∀ k p, s.pods.get k = some p →
    ∃ p', s'.pods.get k = some p' ∧ (k ∈ done → Rescheduled s p p') ∧ (k ∉ done → p' = p)

theorem RescheduledOn.start [A : Arith] : RescheduledOn [] s s :=
  ⟨rfl, rfl, rfl, fun _ p hp => ⟨p, hp, fun h => absurd h List.not_mem_nil, fun _ => rfl⟩⟩

theorem RescheduledOn.step [A : Arith] {done : List String} {s₁ : Store} {p : Pod} {u : Unit}
    (h : RescheduledOn done s s₁)
    (hp : s.pods.get p.id = some p) (hnew : p.id ∉ done) (hrun : Runs Exec (reschedulePod p) s₁ u s') :
    RescheduledOn (done ++ [p.id]) s s' := by
  obtain ⟨q, hq, -, hqe⟩ := h.pods p.id p hp
  obtain rfl : q = p := hqe hnew
  obtain ⟨p', hres, rfl⟩ := reschedulePod_spec hq hrun
  refine ⟨h.deployments, h.nodes, (keys_putPod hq hres.id).trans h.keys, fun k r hr => ?_⟩
  rw [Store.putPod_pods, Table.get_put, hres.id]
  by_cases hk : k = q.id
  · subst hk
    rw [hp] at hr
    obtain rfl : q = r := by simpa using hr
    exact ⟨p', by simp, fun _ => hres.congr h.deployments, fun hnot => absurd (by simp) hnot⟩
  · obtain ⟨r', hr', hin, hout⟩ := h.pods k r hr
    rw [if_neg hk]
    refine ⟨r', hr', fun hmem => hin ?_, fun hmem => hout fun hm => hmem (List.mem_append_left _ hm)⟩
    rcases List.mem_append.mp hmem with hm | hm
    · exact hm
    · exact absurd (by simpa using hm) hk

theorem reschedulePodsFor_spec [A : Arith] {nodeID : String} {u : Unit}
    (h : Runs Exec (reschedulePodsFor nodeID) s u s') : TakenAway (· = nodeID) s s' ∧ s'.nodes = s.nodes := by
  simp only [reschedulePodsFor, runs_bind, runs_listPodsByNode] at h
  obtain ⟨_, s₁, ⟨⟨pods, rfl, hperm⟩, rfl⟩, h⟩ := h
  have hnd : (pods.map Pod.id).Nodup := nodup_of_perm_filter hperm
  have key := Runs.forM_inv (fun done s => RescheduledOn (done.map Pod.id) s₁ s)
    (fun done p rest hsplit s s' hI hrun => ?_) .start h
  · refine ⟨⟨key.deployments, key.keys, fun k p hp => ?_⟩, key.nodes⟩
    obtain ⟨p', hp', hin, hout⟩ := key.pods k p hp
    have hk : p.id = k := Table.key_of_get hp
    have hiff : k ∈ pods.map Pod.id ↔ p.nodeID = nodeID := by
      rw [List.mem_map]
      constructor
      · rintro ⟨q, hq, hqk⟩
        have hq' := (mem_of_perm_filter hperm).mp hq
        rw [hqk, hp] at hq'
        obtain rfl : p = q := by simpa using hq'.1
        simpa using hq'.2
      · intro hn
        exact ⟨p, (mem_of_perm_filter hperm).mpr ⟨by rw [hk]; exact hp, by simpa using hn⟩, hk⟩
    exact ⟨p', hp', fun hl => hin (hiff.mpr hl), fun hl => hout (fun hm => hl (hiff.mp hm))⟩
  · have hpmem : p ∈ pods := by rw [hsplit]; simp
    rw [List.map_append]
    exact hI.step ((mem_of_perm_filter hperm).mp hpmem).1 (new_of_split hnd hsplit) hrun

/-! ## Nodes given up -/

/-- The status a quiet node is moved to, if it is given up. -/
def givenUpTo (timeout : Duration) (now : Time) (n : Node) : Option NodeStatus :=
  if n.status = .healthy ∧ timedOut timeout now n = true then some .unhealthy
  else if n.status = .draining ∧ timedOut timeout now n = true then some .removed
  else none

def afterDetect (timeout : Duration) (now : Time) (n : Node) : Node :=
  (givenUpTo timeout now n).elim n n.withStatus

/-- The node is given up by a pass at `now` that starts in `s`. -/
def LostNode (timeout : Duration) (now : Time) (s : Store) (id : String) : Prop :=
  ∃ n, s.nodes.get id = some n ∧ givenUpTo timeout now n ≠ none

@[simp] theorem afterDetect_id (n : Node) : (afterDetect timeout now n).id = n.id := by
  unfold afterDetect
  cases givenUpTo timeout now n <;> rfl

@[simp] theorem afterDetect_capacity (n : Node) : (afterDetect timeout now n).capacity = n.capacity := by
  unfold afterDetect
  cases givenUpTo timeout now n <;> rfl

@[simp] theorem afterDetect_available (n : Node) : (afterDetect timeout now n).available = n.available := by
  unfold afterDetect
  cases givenUpTo timeout now n <;> rfl

theorem Rescheduled.eq_of_pending [A : Arith] {p p' : Pod} (h : Rescheduled s p p') (hp : p.status = .pending) :
    p' = p := by
  cases h with
  | orphan t hs => rw [hp] at hs; cases hs
  | retry now t₁ t₂ t₃ hs hr => rw [hp] at hs; cases hs
  | deadLetter t₁ t₂ hs hr => rw [hp] at hs; cases hs
  | keep h1 h2 => rfl

/-- Taking the pods of one more node away: a pod that an earlier node lost waits
for the scheduler, so the later node cannot lose it again. -/
theorem TakenAway.trans [A : Arith] {s₁ : Store} {lost : String → Prop} {id : String} {given : Prop}
    (h₁ : TakenAway lost s s₁) (h₂ : TakenAway (fun k => k = id ∧ given) s₁ s') (hnew : ¬ lost id) :
    TakenAway (fun k => lost k ∨ k = id ∧ given) s s' := by
  refine ⟨h₂.deployments.trans h₁.deployments, h₂.keys.trans h₁.keys, fun k p hp => ?_⟩
  obtain ⟨p₁, hp₁, hin₁, hout₁⟩ := h₁.pods k p hp
  obtain ⟨p', hp', hin₂, hout₂⟩ := h₂.pods k p₁ hp₁
  refine ⟨p', hp', fun hl => ?_, fun hl => ?_⟩
  · by_cases hlost : lost p.nodeID
    · have hres := hin₁ hlost
      have heq : p' = p₁ := by
        by_cases hn : p₁.nodeID = id ∧ given
        · rcases hres.moved with hm | ⟨-, hm⟩
          · exact absurd (by rw [← hn.1, hm]; exact hlost) hnew
          · exact (hin₂ hn).eq_of_pending hm
        · exact hout₂ hn
      rw [heq]
      exact hres
    · obtain rfl := hout₁ hlost
      rcases hl with hl | hl
      · exact absurd hl hlost
      · exact (hin₂ hl).congr h₁.deployments
  · have hlost : ¬ lost p.nodeID := fun h => hl (.inl h)
    obtain rfl := hout₁ hlost
    exact hout₂ fun h => hl (.inr h)

theorem giveUpNode_spec [A : Arith] {n : Node} {dest : NodeStatus} {u : Unit} (hn : s.nodes.get n.id = some n)
    (hok : transitionNode n.status dest = true) (h : Runs Exec (giveUpNode n dest) s u s') :
    TakenAway (· = n.id) s s' ∧ s'.nodes = s.nodes.put (n.withStatus dest) := by
  simp only [giveUpNode, runs_bind, runs_transitionNode] at h
  obtain ⟨_, s₁, htr, h⟩ := h
  rw [Store.transitionNode_of hn hok] at htr
  obtain ⟨rfl, rfl⟩ := Prod.mk.inj htr
  obtain ⟨htaken, hnodes⟩ := reschedulePodsFor_spec h
  refine ⟨⟨htaken.deployments, htaken.keys, fun k p hp => ?_⟩, hnodes⟩
  obtain ⟨p', hp', hin, hout⟩ := htaken.pods k p hp
  exact ⟨p', hp', fun hl => (hin hl).congr (Store.putNode_deployments (n.withStatus dest)), hout⟩

theorem TakenAway.refl [A : Arith] {lost : String → Prop} (h : ∀ k, ¬ lost k) : TakenAway lost s s :=
  ⟨rfl, rfl, fun _ p hp => ⟨p, hp, fun hl => absurd hl (h _), fun _ => rfl⟩⟩

theorem TakenAway.congr [A : Arith] {lost lost' : String → Prop} (h : TakenAway lost s s')
    (hl : ∀ k, lost k ↔ lost' k) : TakenAway lost' s s' := by
  have : lost = lost' := funext fun k => propext (hl k)
  exact this ▸ h

/-- One round of `detectUnhealthyNodes` on a node that is stored as listed. -/
theorem detectUnhealthyNode_spec [A : Arith] {n : Node} {u : Unit} (hn : s.nodes.get n.id = some n)
    (h : Runs Exec (detectUnhealthyNode timeout now n) s u s') :
    TakenAway (fun k => k = n.id ∧ givenUpTo timeout now n ≠ none) s s' ∧
      s'.nodes = s.nodes.put (afterDetect timeout now n) := by
  unfold detectUnhealthyNode at h
  unfold afterDetect givenUpTo
  split at h
  · next hc =>
    obtain ⟨ht, hnodes⟩ := giveUpNode_spec hn (by rw [hc.1]; rfl) h
    rw [if_pos hc]
    exact ⟨ht.congr fun k => by simp, hnodes⟩
  · next hc =>
    rw [if_neg hc]
    split at h
    · next hd =>
      obtain ⟨ht, hnodes⟩ := giveUpNode_spec hn (by rw [hd.1]; rfl) h
      rw [if_pos hd]
      exact ⟨ht.congr fun k => by simp, hnodes⟩
    · next hd =>
      obtain ⟨-, rfl⟩ := runs_pure.mp h
      rw [if_neg hd]
      exact ⟨.refl fun k => by simp, (Table.put_self hn).symm⟩

/-- What a pass of `detectUnhealthyNodes` at `now` leaves of `s`. -/
structure Detected [A : Arith] (timeout : Duration) (now : Time) (s s' : Store) : Prop
    extends TakenAway (LostNode timeout now s) s s' where
  nodeKeys : s'.nodes.keys = s.nodes.keys
  nodes : ∀ k n, s.nodes.get k = some n → s'.nodes.get k = some (afterDetect timeout now n)

/-- No node appears, and each node that is there is one that was there. -/
theorem Detected.node_back [A : Arith] {k : String} {n' : Node} (h : Detected timeout now s s')
    (hn' : s'.nodes.get k = some n') : ∃ n, s.nodes.get k = some n ∧ n' = afterDetect timeout now n :=
  Table.back h.nodeKeys (r := fun n n' => n' = afterDetect timeout now n)
    (fun k n hn => ⟨_, h.nodes k n hn, rfl⟩) hn'

/-- No pod appears either. -/
theorem Detected.pod_back [A : Arith] {k : String} {p' : Pod} (h : Detected timeout now s s')
    (hp' : s'.pods.get k = some p') :
    ∃ p, s.pods.get k = some p ∧ (LostNode timeout now s p.nodeID → Rescheduled s p p') ∧
      (¬ LostNode timeout now s p.nodeID → p' = p) :=
  Table.back h.keys (r := fun p p' => (LostNode timeout now s p.nodeID → Rescheduled s p p') ∧
    (¬ LostNode timeout now s p.nodeID → p' = p)) h.pods hp'

/-- The loop of `detectUnhealthyNodes` after the nodes `done`: these and their pods are settled, all
others are as they were. -/
structure DetectedOn [A : Arith] (timeout : Duration) (now : Time) (done : List String) (s s' : Store) : Prop
    extends TakenAway (fun k => k ∈ done ∧ LostNode timeout now s k) s s' where
  nodeKeys : s'.nodes.keys = s.nodes.keys
  nodes : ∀ k n, s.nodes.get k = some n →
    s'.nodes.get k = some (if k ∈ done then afterDetect timeout now n else n)

theorem DetectedOn.start [A : Arith] : DetectedOn timeout now [] s s :=
  ⟨.refl fun k hk => absurd hk.1 List.not_mem_nil, rfl, fun k n hn => by simpa using hn⟩

theorem DetectedOn.step [A : Arith] {done : List String} {s₁ : Store} {n : Node} {u : Unit}
    (h : DetectedOn timeout now done s s₁) (hn : s.nodes.get n.id = some n) (hnew : n.id ∉ done)
    (hrun : Runs Exec (detectUnhealthyNode timeout now n) s₁ u s') :
    DetectedOn timeout now (done ++ [n.id]) s s' := by
  have hn₁ : s₁.nodes.get n.id = some n := by rw [h.nodes n.id n hn, if_neg hnew]
  obtain ⟨htaken, hnodes⟩ := detectUnhealthyNode_spec hn₁ hrun
  have hlost : LostNode timeout now s n.id ↔ givenUpTo timeout now n ≠ none := by
    constructor
    · rintro ⟨m, hm, hg⟩
      rw [hn] at hm
      obtain rfl : n = m := by simpa using hm
      exact hg
    · exact fun hg => ⟨n, hn, hg⟩
  refine ⟨(h.toTakenAway.trans htaken fun hk => hnew hk.1).congr fun k => ?_, ?_, fun k m hm => ?_⟩
  · rw [List.mem_append]
    constructor
    · rintro (⟨hk, hl⟩ | ⟨rfl, hg⟩)
      · exact ⟨.inl hk, hl⟩
      · exact ⟨.inr (by simp), hlost.mpr hg⟩
    · rintro ⟨hk | hk, hl⟩
      · exact .inl ⟨hk, hl⟩
      · obtain rfl : k = n.id := by simpa using hk
        exact .inr ⟨rfl, hlost.mp hl⟩
  · rw [hnodes, Table.keys_put_of_get (b := n) (by rw [afterDetect_id]; exact hn₁), h.nodeKeys]
  · rw [hnodes, Table.get_put, afterDetect_id]
    by_cases hk : k = n.id
    · subst hk
      rw [hn] at hm
      obtain rfl : n = m := by simpa using hm
      simp
    · rw [if_neg hk, h.nodes k m hm]
      simp [hk]

/-- **Heartbeat timeouts.**  Exactly the quiet healthy and draining nodes are given
up, and exactly their pods are rescheduled. -/
theorem detectUnhealthyNodes_spec [A : Arith] {u : Unit} (h : Runs Exec (detectUnhealthyNodes timeout now) s u s') :
    Detected timeout now s s' := by
  simp only [detectUnhealthyNodes, runs_bind, runs_listNodes] at h
  obtain ⟨_, s₁, ⟨⟨nodes, rfl, hperm⟩, rfl⟩, h⟩ := h
  have hnd : (nodes.map Node.id).Nodup := nodup_of_perm_filter hperm
  have hall : ∀ k n, s₁.nodes.get k = some n → k ∈ nodes.map Node.id := by
    intro k n hn
    have hk : n.id = k := Table.key_of_get hn
    exact List.mem_map.mpr ⟨n, (mem_of_perm_filter hperm).mpr ⟨by rw [hk]; exact hn, rfl⟩, hk⟩
  have key := Runs.forM_inv (fun done s => DetectedOn timeout now (done.map Node.id) s₁ s)
    (fun done n rest hsplit s s' hI hrun => ?_) .start h
  · refine ⟨key.toTakenAway.congr fun k => ⟨fun hk => hk.2, fun hk => ⟨?_, hk⟩⟩, key.nodeKeys, fun k n hn => ?_⟩
    · obtain ⟨n, hn, -⟩ := hk
      exact hall k n hn
    · rw [key.nodes k n hn, if_pos (hall k n hn)]
  · have hnmem : n ∈ nodes := by rw [hsplit]; simp
    rw [List.map_append]
    exact hI.step ((mem_of_perm_filter hperm).mp hnmem).1 (new_of_split hnd hsplit) hrun

/-! ## Replicas -/

/-- `p` fills a replica slot of deployment `d`. -/
def fills (d : String) (p : Pod) : Bool := decide (p.deploymentID = d) && p.active

/-- The number of pods that fill a replica slot of deployment `d`. -/
def activeIn (s : Store) (d : String) : Int := s.pods.total (fun p => if fills d p then 1 else 0)

/-- The reconciler's count over a listing is the number in the store. -/
theorem activeCount_listed {d : String} {pods : List Pod}
    (h : pods.Perm (s.pods.rows.filter fun p => p.deploymentID = d)) : (activeCount pods : Int) = activeIn s d := by
  unfold activeCount activeIn
  rw [h.countP_eq, List.countP_filter, Table.total_indicator]
  congr 2
  funext p
  simp [fills, Bool.and_comm]

theorem activeIn_create {d m : String} {p : Pod} (hp : s.pods.get p.id = none) (hd : p.deploymentID = m)
    (ha : p.active = true) : activeIn (s.putPod p) d = activeIn s d + if m = d then 1 else 0 := by
  unfold activeIn
  rw [Store.putPod_pods, Table.total_put_new _ hp]
  simp [fills, hd, ha]

/-- Overwriting a pod changes the count by the difference of its two records. -/
theorem activeIn_update {d : String} {p q : Pod} (hq : s.pods.get p.id = some q) :
    activeIn (s.putPod p) d + (if fills d q then 1 else 0) = activeIn s d + (if fills d p then 1 else 0) := by
  unfold activeIn
  rw [Store.putPod_pods]
  exact Table.total_put_of_get _ hq

/-- One change made by `reconcileDeployments`. -/
inductive Adjust : Store → Store → Prop where
  | status {s : Store} (d : Deployment) (dest : DeploymentStatus) (t : Time) :
      s.deployments.get d.id = some d → transitionDeployment d.status dest = true → dest ≠ .cancelled →
      Adjust s (s.putDeployment (Store.moveDeployment d dest t))
  | create {s : Store} (d : Deployment) (b : UInt8 × UInt8 × UInt8 × UInt8) (t : Time) :
      s.deployments.get d.id = some d → d.status ≠ .cancelled → s.pods.get (idOf "pod" b) = none →
      activeIn s d.id < d.replicas → Adjust s (s.putPod (newPod d (idOf "pod" b) t))
  | cancel {s : Store} (d : Deployment) (p : Pod) (t : Time) :
      s.deployments.get d.id = some d → s.pods.get p.id = some p → p.deploymentID = d.id →
      cancellable p = true → d.replicas < activeIn s d.id →
      Adjust s (s.putPod (Store.movePod p .cancelled "deployment scaled down" t))

theorem createReplica_spec {d : Deployment} {u : Unit} (h : Runs Exec (createReplica d) s u s') :
    s' = s ∨ ∃ b t, s.pods.get (idOf "pod" b) = none ∧ s' = s.putPod (newPod d (idOf "pod" b) t) := by
  simp only [createReplica, runs_bind, runs_generateID] at h
  obtain ⟨_, s₁, ⟨⟨b, rfl⟩, rfl⟩, h⟩ := h
  cases b with
  | none => exact .inl (runs_pure.mp h).2
  | some b =>
    simp only [Option.map_some, runs_bind, runs_timeNow, runs_createPod] at h
    obtain ⟨t, _, rfl, _, s₂, hcr, h⟩ := h
    obtain ⟨-, rfl⟩ := runs_pure.mp h
    unfold Store.createPod at hcr
    split at hcr
    · exact .inl (Prod.mk.inj hcr).2
    · next hnone => exact .inr ⟨b, t, by simpa [newPod] using hnone, (Prod.mk.inj hcr).2⟩

/-- Filling up: each created pod still finds its deployment short of replicas. -/
theorem createReplicas_spec {d : Deployment} {st : DeploymentStatus} {t : Time} {k : Nat} {u : Unit}
    (hd : s.deployments.get d.id = some (Store.moveDeployment d st t)) (hst : st ≠ .cancelled)
    (hk : activeIn s d.id + k ≤ d.replicas) (h : Runs Exec ((List.range k).forM fun _ => createReplica d) s u s') :
    ReflTransGen Adjust s s' ∧ s'.deployments = s.deployments := by
  have key := Runs.forM_inv
    (fun done s₁ => ReflTransGen Adjust s s₁ ∧ s₁.deployments = s.deployments ∧
      activeIn s₁ d.id ≤ activeIn s d.id + done.length)
    (fun done i rest hsplit s₁ s₂ hI hrun => ?_) ⟨.refl, rfl, by simp⟩ h
  · exact ⟨key.1, key.2.1⟩
  · obtain ⟨hreach, hdep, hcount⟩ := hI
    have hlen : done.length < k := by
      have := congrArg List.length hsplit
      simp at this
      omega
    rcases createReplica_spec hrun with rfl | ⟨b, t', hnone, rfl⟩
    · exact ⟨hreach, hdep, by simp; omega⟩
    · have hd₁ : s₁.deployments.get d.id = some (Store.moveDeployment d st t) := by rw [hdep]; exact hd
      refine ⟨hreach.tail (.create (Store.moveDeployment d st t) b t' hd₁ hst hnone ?_), hdep, ?_⟩
      · show activeIn s₁ d.id < d.replicas
        omega
      · rw [activeIn_create hnone rfl rfl]
        simp [newPod]
        omega

theorem cancellable_iff {p : Pod} : cancellable p = true ↔ p.status = .pending ∨ p.status = .scheduled := by
  unfold cancellable
  rw [Bool.or_eq_true, beq_iff_eq, beq_iff_eq]

/-- A waiting pod that is stored as listed is cancelled. -/
theorem cancelPod_spec {p : Pod} {u : Unit} (hp : s.pods.get p.id = some p) (hc : cancellable p = true)
    (h : Runs Exec (do
      let _ ← State.transitionPod p.id .cancelled "deployment scaled down"
      pure ()) s u s') :
    ∃ t, s' = s.putPod (Store.movePod p .cancelled "deployment scaled down" t) := by
  have hok : transitionPod p.status .cancelled = true := by
    rcases cancellable_iff.mp hc with hs | hs <;> rw [hs] <;> rfl
  simp only [runs_bind, runs_transitionPod] at h
  obtain ⟨_, s₁, ⟨t, htr⟩, h⟩ := h
  rw [Store.transitionPod_of hp hok] at htr
  obtain ⟨rfl, rfl⟩ := Prod.mk.inj htr
  exact ⟨t, (runs_pure.mp h).2⟩

/-- Scale-down: each cancelled pod still finds its deployment over its replicas. -/
theorem cancelExcess_spec {d : Deployment} {st : DeploymentStatus} {t : Time} {k : Nat} {l : List Pod} {u : Unit}
    (hd : s.deployments.get d.id = some (Store.moveDeployment d st t)) (hk : d.replicas + k ≤ activeIn s d.id)
    (hnd : (l.map Pod.id).Nodup)
    (hl : ∀ p ∈ l, s.pods.get p.id = some p ∧ p.deploymentID = d.id ∧ cancellable p = true)
    (h : Runs Exec (cancelExcess k l) s u s') :
    ReflTransGen Adjust s s' ∧ s'.deployments = s.deployments := by
  unfold cancelExcess at h
  generalize hsort : (l.insertionSort fun a b => a.createdAt ≥ b.createdAt) = sorted at h
  have hperm : sorted.Perm l := hsort ▸ List.perm_insertionSort _ l
  have htake : ((sorted.take k).map Pod.id).Nodup :=
    (List.Sublist.map _ (List.take_sublist k sorted)).nodup ((hperm.map _).nodup_iff.mpr hnd)
  have key := Runs.forM_inv
    (fun done s₁ => ReflTransGen Adjust s s₁ ∧ s₁.deployments = s.deployments ∧
      activeIn s d.id ≤ activeIn s₁ d.id + done.length ∧
      ∀ p ∈ sorted.take k, p.id ∉ done.map Pod.id → s₁.pods.get p.id = some p)
    (fun done p rest hsplit s₁ s₂ hI hrun => ?_) ?_ h
  · exact ⟨key.1, key.2.1⟩
  · obtain ⟨hreach, hdep, hcount, hpods⟩ := hI
    have hpmem : p ∈ sorted.take k := by rw [hsplit]; simp
    have hp := hpods p hpmem (new_of_split htake hsplit)
    obtain ⟨-, hpd, hpc⟩ := hl p (hperm.mem_iff.mp (List.mem_of_mem_take hpmem))
    have hlen : done.length < k := by
      have h1 := congrArg List.length hsplit
      have h2 := List.length_take_le k sorted
      simp at h1
      omega
    have hd₁ : s₁.deployments.get d.id = some (Store.moveDeployment d st t) := by rw [hdep]; exact hd
    obtain ⟨t', rfl⟩ := cancelPod_spec hp hpc hrun
    refine ⟨hreach.tail (.cancel (Store.moveDeployment d st t) p t' hd₁ hp hpd hpc ?_), hdep, ?_, fun q hq hqd => ?_⟩
    · show d.replicas < activeIn s₁ d.id
      omega
    · have hup := activeIn_update (d := d.id) (p := Store.movePod p .cancelled "deployment scaled down" t') hp
      simp only [List.length_append, List.length_singleton]
      split at hup <;> split at hup <;> omega
    · rw [List.map_append, List.mem_append, not_or] at hqd
      rw [Store.putPod_pods, Table.get_put_ne (by simpa using hqd.2)]
      exact hpods q hq hqd.1
  · exact ⟨.refl, rfl, by simp, fun p hp _ => (hl p (hperm.mem_iff.mp (List.mem_of_mem_take hp))).1⟩

theorem reconcileReplicas_spec [A : Arith] {d : Deployment} {st : DeploymentStatus} {t : Time} {pods : List Pod}
    {u : Unit} (hd : s.deployments.get d.id = some (Store.moveDeployment d st t)) (hst : st ≠ .cancelled)
    (hperm : pods.Perm (s.pods.rows.filter fun p => p.deploymentID = d.id))
    (h : Runs Exec (reconcileReplicas d pods) s u s') :
    ReflTransGen Adjust s s' ∧ s'.deployments = s.deployments := by
  have hcount := activeCount_listed hperm
  unfold reconcileReplicas at h
  split at h
  · next hlt =>
    have hle := A.int_le_self (d.replicas - activeCount pods) (by omega)
    exact createReplicas_spec hd hst (by omega) h
  · split at h
    · next hgt =>
      have hle := A.int_le_self (activeCount pods - d.replicas) (by omega)
      refine cancelExcess_spec hd (by omega) ?_ (fun p hp => ?_) h
      · exact (List.Sublist.map _ List.filter_sublist).nodup (nodup_of_perm_filter hperm)
      · obtain ⟨hmem, hc⟩ := List.mem_filter.mp hp
        obtain ⟨hget, hdep⟩ := (mem_of_perm_filter hperm).mp hmem
        exact ⟨hget, by simpa using hdep, hc⟩
    · obtain ⟨-, rfl⟩ := runs_pure.mp h
      exact ⟨.refl, rfl⟩

/-- A status change the reconciler asks for is legal or has no effect. -/
theorem transitionDeployment_adjust {id : String} {dest : DeploymentStatus} {r : Res} (hdest : dest ≠ .cancelled)
    (h : Runs Exec (State.transitionDeployment id dest) s r s') :
    ReflTransGen Adjust s s' ∧ ∀ k, k ≠ id → s'.deployments.get k = s.deployments.get k := by
  obtain ⟨t, htr⟩ := runs_transitionDeployment.mp h
  cases hd : s.deployments.get id with
  | none =>
    rw [show s.transitionDeployment id dest t = (.error .notFound, s) by
      unfold Store.transitionDeployment; rw [hd]] at htr
    obtain ⟨-, rfl⟩ := Prod.mk.inj htr
    exact ⟨.refl, fun _ _ => rfl⟩
  | some d =>
    have hid : d.id = id := Table.key_of_get hd
    cases hst : transitionDeployment d.status dest with
    | false =>
      rw [Store.transitionDeployment_not hd hst] at htr
      obtain ⟨-, rfl⟩ := Prod.mk.inj htr
      exact ⟨.refl, fun _ _ => rfl⟩
    | true =>
      rw [Store.transitionDeployment_of hd hst] at htr
      obtain ⟨-, rfl⟩ := Prod.mk.inj htr
      refine ⟨.single (.status d dest t (by rw [hid]; exact hd) hst hdest), fun k hk => ?_⟩
      exact Table.get_put_ne (by rw [← hid] at hk; exact hk)

theorem reconcileHealth_spec {d : Deployment} {b : Bool} {u : Unit}
    (h : Runs Exec (reconcileHealth d b) s u s') :
    ReflTransGen Adjust s s' ∧ ∀ k, k ≠ d.id → s'.deployments.get k = s.deployments.get k := by
  unfold reconcileHealth at h
  split at h
  · obtain ⟨_, s₁, h1, h⟩ := runs_bind.mp h
    obtain ⟨-, rfl⟩ := runs_pure.mp h
    exact transitionDeployment_adjust (by simp) h1
  · split at h
    · obtain ⟨_, s₁, h1, h⟩ := runs_bind.mp h
      obtain ⟨-, rfl⟩ := runs_pure.mp h
      exact transitionDeployment_adjust (by simp) h1
    · obtain ⟨-, rfl⟩ := runs_pure.mp h
      exact ⟨.refl, fun _ _ => rfl⟩

/-- Activation of a deployment that is stored as listed succeeds. -/
theorem activate_cases {d : Deployment} {r : Option Deployment} (hd : s.deployments.get d.id = some d)
    (h : Runs Exec (activate d) s r s') :
    d.status = .pending ∧ r = some { d with status := .active } ∧
        (∃ t, s' = s.putDeployment (Store.moveDeployment d .active t)) ∨
      d.status ≠ .pending ∧ r = some d ∧ s' = s := by
  unfold activate at h
  split at h
  · next hpend =>
    simp only [runs_bind, runs_transitionDeployment] at h
    obtain ⟨_, s₁, ⟨t, htr⟩, h⟩ := h
    rw [Store.transitionDeployment_of hd (by rw [hpend]; rfl)] at htr
    obtain ⟨rfl, rfl⟩ := Prod.mk.inj htr
    obtain ⟨rfl, rfl⟩ := runs_pure.mp h
    exact .inl ⟨hpend, rfl, t, rfl⟩
  · next hpend => exact .inr ⟨hpend, runs_pure.mp h⟩

theorem activate_spec {d : Deployment} {r : Option Deployment} (hd : s.deployments.get d.id = some d)
    (hnc : d.status ≠ .cancelled) (h : Runs Exec (activate d) s r s') :
    ReflTransGen Adjust s s' ∧ s'.pods = s.pods ∧ (∀ k, k ≠ d.id → s'.deployments.get k = s.deployments.get k) ∧
      ∃ d' st t, r = some d' ∧ d'.id = d.id ∧ st ≠ .cancelled ∧
        s'.deployments.get d'.id = some (Store.moveDeployment d' st t) := by
  rcases activate_cases hd h with ⟨hpend, rfl, t, rfl⟩ | ⟨-, rfl, rfl⟩
  · refine ⟨.single (.status d .active t hd (by rw [hpend]; rfl) (by simp)), rfl, fun k hk => Table.get_put_ne hk,
      _, .active, t, rfl, rfl, by simp, ?_⟩
    exact Table.get_put_self s.deployments (Store.moveDeployment d .active t)
  · exact ⟨.refl, rfl, fun _ _ => rfl, d, d.status, d.updatedAt, rfl, rfl, hnc, hd⟩

theorem reconcileDeployment_spec [A : Arith] {d : Deployment} {u : Unit} (hd : s.deployments.get d.id = some d)
    (h : Runs Exec (reconcileDeployment d) s u s') :
    ReflTransGen Adjust s s' ∧ ∀ k, k ≠ d.id → s'.deployments.get k = s.deployments.get k := by
  unfold reconcileDeployment at h
  split at h
  · obtain ⟨-, rfl⟩ := runs_pure.mp h
    exact ⟨.refl, fun _ _ => rfl⟩
  · next hnc =>
    obtain ⟨_, s₁, hact, h⟩ := runs_bind.mp h
    obtain ⟨hadj, -, hother, d', st, t, rfl, hid, hst, hd'⟩ := activate_spec hd hnc hact
    simp only [runs_bind, runs_listPodsByDeployment] at h
    obtain ⟨_, s₂, ⟨⟨pods, rfl, hperm⟩, rfl⟩, h⟩ := h
    obtain ⟨_, s₃, hrep, h⟩ := runs_bind.mp h
    obtain ⟨hadj₂, hdep₂⟩ := reconcileReplicas_spec hd' hst hperm hrep
    obtain ⟨hadj₃, hother₃⟩ := reconcileHealth_spec h
    refine ⟨(hadj.trans hadj₂).trans hadj₃, fun k hk => ?_⟩
    rw [hother₃ k (by rw [hid]; exact hk), hdep₂, hother k hk]

/-- The loop of `reconcileDeployments` over deployments that are stored as listed. -/
theorem forM_reconcileDeployment_spec [A : Arith] {l : List Deployment} (hnd : (l.map Deployment.id).Nodup)
    (hl : ∀ d ∈ l, s.deployments.get d.id = some d) (h : Runs Exec (l.forM reconcileDeployment) s ⟨⟩ s') :
    ReflTransGen Adjust s s' ∧ ∀ k, k ∉ l.map Deployment.id → s'.deployments.get k = s.deployments.get k := by
  refine Runs.forM_inv
    (fun done s₁ => ReflTransGen Adjust s s₁ ∧
      ∀ k, k ∉ done.map Deployment.id → s₁.deployments.get k = s.deployments.get k)
    (fun done d rest hsplit s₁ s₂ hI hrun => ?_) ⟨.refl, fun _ _ => rfl⟩ h
  obtain ⟨hreach, hother⟩ := hI
  have hd : s₁.deployments.get d.id = some d := by
    rw [hother d.id (new_of_split hnd hsplit)]
    exact hl d (by rw [hsplit]; simp)
  obtain ⟨hadj, hrest⟩ := reconcileDeployment_spec hd hrun
  refine ⟨hreach.trans hadj, fun k hk => ?_⟩
  rw [List.map_append, List.mem_append, not_or] at hk
  rw [hrest k (by simpa using hk.2), hother k hk.1]

/-- **Replica reconciliation** is a sequence of adjustments. -/
theorem reconcileDeployments_spec [A : Arith] {u : Unit} (h : Runs Exec reconcileDeployments s u s') :
    ReflTransGen Adjust s s' := by
  simp only [reconcileDeployments, runs_bind, runs_listDeployments] at h
  obtain ⟨_, s₁, ⟨⟨ds, rfl, hperm⟩, rfl⟩, h⟩ := h
  exact (forM_reconcileDeployment_spec (nodup_of_perm_filter hperm)
    (fun d hd => ((mem_of_perm_filter hperm).mp hd).1) h).1

/-- **A reconciliation pass**: adjustments, then the timeouts. -/
theorem tick_spec [A : Arith] {u : Unit} (h : Runs Exec (tick timeout now) s u s') :
    ∃ s₁, ReflTransGen Adjust s s₁ ∧ Detected timeout now s₁ s' := by
  obtain ⟨_, s₁, h1, h2⟩ := runs_bind.mp h
  exact ⟨s₁, reconcileDeployments_spec h1, detectUnhealthyNodes_spec h2⟩

end ControlPlane.Reconciler
