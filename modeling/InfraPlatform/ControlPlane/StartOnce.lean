import InfraPlatform.Lib.Count
import InfraPlatform.ControlPlane.Agent

/-!
# At most one start for an assignment

`PollPods` hands out a pod that is `SCHEDULED` on the polling node and changes
nothing; the pod stays on offer until the agent's `RUNNING` report is handled.
`started_once_of_claimed`: if no poll is handled while a pod on offer is already with the
agent, no pod is started twice within one assignment.  `polled_twice_started_twice`
is a run in which two polls are handled before the first report.

The invariant (`Once`) counts, for each pod, its starts and the copies of it that an
agent holds and has not begun to execute.
-/

namespace ControlPlane.Worker

open Lib Lib.Prog Api Reconciler Relation

/-! ## What events do to assignments -/

section Events

variable {s s' t : Store} {timeout : Duration} {e : Event} {node id : String}

theorem assignedNow_iff : assignedNow s node id = true ↔
    ∃ p, s.pods.get id = some p ∧ p.inFlight = true ∧ p.nodeID = node := by
  unfold assignedNow
  cases s.pods.get id <;> simp

theorem scheduledAt_iff : scheduledAt s id = true ↔ ∃ p, s.pods.get id = some p ∧ p.status = .scheduled := by
  unfold scheduledAt
  cases s.pods.get id <;> simp

/-- Whatever is in flight was so before, or has just become scheduled. -/
def Continues (s s' : Store) : Prop :=
  ∀ node id, assignedNow s' node id = true →
    assignedNow s node id = true ∨ (scheduledAt s' id = true ∧ scheduledAt s id = false)

theorem Continues.of_pods (h : s'.pods = s.pods) : Continues s s' := by
  intro node id ha
  unfold assignedNow at ha ⊢
  rw [h] at ha
  exact .inl ha

theorem Continues.congr (h : Continues s t) (hp : s'.pods = t.pods) : Continues s s' := by
  intro node id
  unfold assignedNow scheduledAt
  rw [hp]
  exact h node id

/-- Writing a pod that is in flight where it was in flight already, or newly scheduled, or not in flight. -/
theorem Continues.putPod {q : Pod}
    (h : q.inFlight = true →
      assignedNow s q.nodeID q.id = true ∨ q.status = .scheduled ∧ scheduledAt s q.id = false) :
    Continues s (s.putPod q) := by
  intro node id ha
  obtain ⟨p, hp, hf, hn⟩ := assignedNow_iff.mp ha
  rw [Store.putPod_pods, Table.get_put] at hp
  by_cases hid : id = q.id
  · subst hid
    obtain rfl : q = p := by simpa using hp
    rcases h hf with hbefore | ⟨hst, hnew⟩
    · exact .inl (hn ▸ hbefore)
    · exact .inr ⟨scheduledAt_iff.mpr ⟨q, Table.get_put_self s.pods q, hst⟩, hnew⟩
  · exact .inl (assignedNow_iff.mpr ⟨p, by simpa [hid] using hp, hf, hn⟩)

/-- Only a scheduled pod starts running. -/
theorem inFlight_of_transition {p : Pod} {st : PodStatus} (ht : transitionPod p.status st = true)
    (hst : st = .scheduled ∨ st = .running) : st = .scheduled ∧ p.status ≠ .scheduled ∨ p.inFlight = true := by
  rcases hst with rfl | rfl
  · exact .inl ⟨rfl, (transitionPod_ne ht).symm⟩
  · unfold Pod.inFlight
    cases hs : p.status <;> rw [hs] at ht <;> simp [transitionPod, allowedPodTransitions] at ht ⊢

theorem Continues.report {nodeID pod : String} {req : PodStatusRequest} {p : Pod} {now : Time}
    (hp : s.pods.get pod = some p) (ht : transitionPod p.status req.status = true) :
    Continues s (afterReport s nodeID p req now) := by
  have hid : p.id = pod := Table.key_of_get hp
  refine Continues.congr (t := s.putPod (accepted p req now)) (.putPod fun hf => ?_) (afterReport_pods ..)
  have hst : req.status = .scheduled ∨ req.status = .running := by simpa [Pod.inFlight, accepted] using hf
  rcases inFlight_of_transition ht hst with ⟨hsch, hne⟩ | hbefore
  · refine .inr ⟨hsch, ?_⟩
    rw [← Bool.not_eq_true, scheduledAt_iff]
    rintro ⟨q, hq, hqs⟩
    rw [show (accepted p req now).id = pod from hid, hp] at hq
    obtain rfl : p = q := by simpa using hq
    exact hne hqs
  · exact .inl (assignedNow_iff.mpr ⟨p, by rw [show (accepted p req now).id = pod from hid]; exact hp, hbefore, rfl⟩)

/-- Dispatches only ever add scheduled pods, and each pod they add was not scheduled before. -/
theorem Continues.dispatches {now : Time} (h : ReflTransGen (Scheduler.Dispatch now) s s') : Continues s s' := by
  have hkeep : Continues s s' ∧ ∀ id, scheduledAt s id = true → scheduledAt s' id = true := by
    refine keeps_of_chain (fun t => Continues s t ∧ ∀ id, scheduledAt s id = true → scheduledAt t id = true) ?_ h
      ⟨.of_pods rfl, fun _ h => h⟩
    rintro t t' hd ⟨hcont, hsch⟩
    cases hd with
    | mk p n at' hp hst _ hn _ _ =>
      have hget : ∀ id, (Scheduler.dispatched t p n at').pods.get id = _ := fun id => Scheduler.dispatched_pods_get
      have hmoved : scheduledAt (Scheduler.dispatched t p n at') p.id = true :=
        scheduledAt_iff.mpr ⟨_, by rw [hget, if_pos rfl], rfl⟩
      constructor
      · intro node id ha
        by_cases hid : id = p.id
        · subst hid
          refine .inr ⟨hmoved, ?_⟩
          rw [← Bool.not_eq_true]
          intro hbefore
          obtain ⟨q, hq, hqs⟩ := scheduledAt_iff.mp (hsch _ hbefore)
          rw [hp] at hq
          obtain rfl : p = q := by simpa using hq
          rw [hst] at hqs
          cases hqs
        · have hsame : (Scheduler.dispatched t p n at').pods.get id = t.pods.get id := by rw [hget, if_neg hid]
          unfold assignedNow at ha
          rw [hsame] at ha
          have := hcont node id ha
          unfold scheduledAt at this ⊢
          rwa [hsame]
      · intro id hbefore
        by_cases hid : id = p.id
        · rw [hid]
          exact hmoved
        · have := hsch id hbefore
          unfold scheduledAt at this ⊢
          rwa [hget, if_neg hid]
  exact hkeep.1

/-- The reconciler puts nothing in flight. -/
theorem assigned_of_adjust (h : Adjust s s') (ha : assignedNow s' node id = true) : assignedNow s node id = true := by
  have hput : ∀ {q : Pod}, q.inFlight = false → assignedNow (s.putPod q) node id = true →
      assignedNow s node id = true := by
    intro q hq ha
    obtain ⟨p, hp, hf, hn⟩ := assignedNow_iff.mp ha
    rw [Store.putPod_pods, Table.get_put] at hp
    by_cases hid : id = q.id
    · obtain rfl : q = p := by simpa [hid] using hp
      rw [hq] at hf
      cases hf
    · exact assignedNow_iff.mpr ⟨p, by simpa [hid] using hp, hf, hn⟩
  cases h with
  | status => exact ha
  | create => exact hput rfl ha
  | cancel => exact hput rfl ha

theorem assigned_of_detect {now : Time} (h : Detected timeout now s s') (ha : assignedNow s' node id = true) :
    assignedNow s node id = true := by
  obtain ⟨p', hp', hf, hn⟩ := assignedNow_iff.mp ha
  obtain ⟨p, hp, hin, hout⟩ := h.pod_back hp'
  by_cases hlost : LostNode timeout now s p.nodeID
  · rw [(hin hlost).not_inFlight] at hf
    cases hf
  · obtain rfl := hout hlost
    exact assignedNow_iff.mpr ⟨p', hp, hf, hn⟩

/-- **Every event continues the assignments** or begins new ones. -/
theorem Continues.change (hc : Change timeout e s s') : Continues s s' := by
  cases hc with
  | none | register | heartbeat | drain | ignored | submit | cancel => exact .of_pods rfl
  | rejected _ pod req p hp _ =>
    have hid : p.id = pod := Table.key_of_get hp
    exact .putPod fun hf => .inl (assignedNow_iff.mpr ⟨p, by
      rw [show (reported p req).id = pod from hid]; exact hp, hf, rfl⟩)
  | accepted _ pod req p now hp ht => exact .report hp ht
  | service _ hs => exact .of_pods hs.2.1
  | schedule now hd => exact .dispatches hd
  | @reconcile s s₁ s' now ha hd =>
    intro node id hassigned
    refine .inl (keeps_of_chain (fun t => assignedNow t node id = true → assignedNow s node id = true) ?_ ha
      (fun h => h) (assigned_of_detect hd hassigned))
    exact fun _ _ hadj hback h => hback (assigned_of_adjust hadj h)

end Events

/-! ## Copies that wait -/

def Phase.unstarted : Phase → Bool
  | .handed | .claiming => true
  | _ => false

def Job.waits (id : String) (j : Job) : Bool := j.pod.id == id && j.phase.unstarted

def PollState.carries (id : String) : PollState → Nat
  | .answered (some pod) => if pod.id = id then 1 else 0
  | _ => 0

/-- The copies of pod `id` that the agent has, or that a response brings it, and has not begun to execute. -/
def Agent.waiting (a : Agent) (id : String) : Nat := a.jobs.countP (Job.waits id) + a.poll.carries id

/-- A goroutine that moves on. -/
theorem waiting_set {a : Agent} {i : Nat} {j : Job} (hj : a.jobs[i]? = some j) (j' : Job) (id : String) :
    (a.setJob i j').waiting id + (j.waits id).toNat = a.waiting id + (j'.waits id).toNat := by
  have hset := countP_set_add (Job.waits id) hj j'
  unfold Agent.waiting Agent.setJob
  simp only
  omega

theorem waiting_received (a : Agent) (pod : Option Pod) (id : String) :
    (a.received pod).waiting id = a.jobs.countP (Job.waits id) + (PollState.answered pod).carries id := by
  cases pod with
  | none => rfl
  | some p =>
    unfold Agent.received Agent.waiting
    rw [List.countP_append, List.countP_singleton]
    simp [Job.waits, Phase.unstarted, PollState.carries]

/-- What a step of an agent or of the wire does: it starts one waiting copy, or adds none. -/
inductive Moved (σ σ' : Cluster) : Prop where
  | quiet : σ'.starts = σ.starts → (∀ node id, (σ'.agents node).waiting id ≤ (σ.agents node).waiting id) → Moved σ σ'
  | start (node id : String) :
      σ'.starts = (if assignedNow σ.store node id then Function.update σ.starts id (σ.starts id + 1) else σ.starts) →
      (σ'.agents node).waiting id + 1 = (σ.agents node).waiting id →
      (∀ node' id', (σ'.agents node').waiting id' ≤ (σ.agents node').waiting id') → Moved σ σ'

section Steps

variable {σ σ' : Cluster} {node : String}

theorem setAgent_waiting {a : Agent} (h : ∀ id, a.waiting id ≤ (σ.agents node).waiting id) (node' id : String) :
    ((σ.setAgent node a).agents node').waiting id ≤ (σ.agents node').waiting id := by
  by_cases hn : node' = node
  · subst hn
    rw [Cluster.setAgent_self]
    exact h id
  · rw [Cluster.setAgent_ne _ _ hn]

/-- A goroutine that moves on does not get a new copy to wait with. -/
theorem setJob_waiting {i : Nat} {j j' : Job} (hj : (σ.agents node).jobs[i]? = some j)
    (hle : ∀ id, j'.waits id = true → j.waits id = true) (node' id : String) :
    ((σ.setJob node i j').agents node').waiting id ≤ (σ.agents node').waiting id := by
  refine setAgent_waiting (fun id => ?_) node' id
  have hset := waiting_set hj j' id
  by_cases hw : j'.waits id = true
  · rw [hw, hle id hw] at hset
    omega
  · rw [Bool.not_eq_true] at hw
    rw [hw, Bool.toNat_false] at hset
    omega

theorem Cluster.Acts.moved {a : Action} (h : σ.Acts a σ') : Moved σ σ' := by
  cases h with
  | pollOnce node _ => exact .quiet rfl (setAgent_waiting fun id => Nat.le_add_right _ _)
  | pollFails node =>
    refine .quiet rfl (setAgent_waiting fun id => ?_)
    rw [waiting_received]
    exact Nat.add_le_add_left (Nat.zero_le _) _
  | receive node pod hpoll =>
    refine .quiet rfl (setAgent_waiting fun id => ?_)
    rw [waiting_received, Agent.waiting, hpoll]
  | claim node i pod hj => exact .quiet rfl (setJob_waiting hj fun id hw => hw)
  | execute node i pod hj =>
    refine .start node pod.id ?_ ?_ ?_
    · unfold Cluster.countStart
      show (if assignedNow σ.store node pod.id then _ else _ : Cluster).starts = _
      split <;> rfl
    · have hset := waiting_set hj ⟨pod, .executing⟩ pod.id
      rw [countStart_agents, Cluster.setJob, Cluster.setAgent_self]
      simpa [Job.waits, Phase.unstarted] using hset
    · rw [countStart_agents]
      exact setJob_waiting hj fun id hw => by simp [Job.waits, Phase.unstarted] at hw
  | refuse node i outcome pod hj =>
    exact .quiet rfl (setJob_waiting hj fun id hw => by simp [Job.waits, Phase.unstarted] at hw)
  | finish node i outcome pod hj =>
    exact .quiet rfl (setJob_waiting hj fun id hw => by simp [Job.waits, Phase.unstarted] at hw)
  | release node i =>
    refine .quiet rfl (setAgent_waiting fun id => ?_)
    exact Nat.add_le_add_right (List.Sublist.countP_le (List.eraseIdx_sublist _ _)) _
  | lose j => exact .quiet rfl fun _ _ => le_rfl

/-! ## The invariant -/

structure Once (σ : Cluster) : Prop where
  copies : ∀ node id, (σ.agents node).waiting id ≤ 1
  assigned : ∀ node id, assignedNow σ.store node id = true → σ.starts id + (σ.agents node).waiting id ≤ 1
  starts : ∀ id, σ.starts id ≤ 1

theorem Once.start (s : Store) (maxConcurrentJobs : String → Int) : Once (Cluster.start s maxConcurrentJobs) :=
  ⟨fun _ _ => Nat.zero_le _, fun _ _ _ => Nat.zero_le _, fun _ => Nat.zero_le _⟩

theorem Once.move (h : Once σ) (hstore : σ'.store = σ.store) (hm : Moved σ σ') : Once σ' := by
  cases hm with
  | quiet hstarts hle =>
    refine ⟨fun node id => (hle node id).trans (h.copies node id), fun node id ha => ?_, fun id => ?_⟩
    · rw [hstore] at ha
      have := h.assigned node id ha
      have := hle node id
      rw [hstarts]
      omega
    · rw [hstarts]
      exact h.starts id
  | start node id hstarts hone hle =>
    -- the copy that is started was waiting, so the pod was not started yet
    have hnone : assignedNow σ.store node id = true → σ.starts id = 0 := fun ha => by
      have := h.assigned node id ha
      omega
    refine ⟨fun node' id' => (hle node' id').trans (h.copies node' id'), fun node' id' ha => ?_, fun id' => ?_⟩
    · rw [hstore] at ha
      have hbefore := h.assigned node' id' ha
      have hless := hle node' id'
      rw [hstarts]
      split
      · next ha' =>
        by_cases hid : id' = id
        · subst hid
          obtain ⟨p, hp, -, rfl⟩ := assignedNow_iff.mp ha
          obtain ⟨q, hq, -, rfl⟩ := assignedNow_iff.mp ha'
          obtain rfl : p = q := by rw [hp] at hq; simpa using hq
          rw [Function.update_self]
          omega
        · rw [Function.update_of_ne hid]
          omega
      · omega
    · rw [hstarts]
      split
      · next ha' =>
        by_cases hid : id' = id
        · subst hid
          rw [Function.update_self, hnone ha']
        · rw [Function.update_of_ne hid]
          exact h.starts id'
      · exact h.starts id'

/-- The control plane changes the store; only new assignments reset a count. -/
theorem Once.withStore {s' : Store} (h : Once σ) (hc : Continues σ.store s') : Once (σ.withStore s') := by
  refine ⟨h.copies, fun node id ha => ?_, fun id => ?_⟩
  · have hcopies := h.copies node id
    show (if _ then 0 else σ.starts id) + (σ.agents node).waiting id ≤ 1
    split
    · omega
    · next hnot =>
      rcases hc node id ha with hbefore | ⟨hsch, hnew⟩
      · exact h.assigned node id hbefore
      · exact absurd (by rw [hsch, hnew]; rfl) hnot
  · show (if _ then 0 else σ.starts id) ≤ 1
    split
    · omega
    · exact h.starts id

/-- No pod on offer to `node` is with its agent already: handed over and waiting, or started. -/
def Offers (σ : Cluster) (node : String) : Prop :=
  ∀ p ∈ σ.store.pods.rows, p.nodeID = node → p.status = .scheduled →
    (σ.agents node).waiting p.id = 0 ∧ σ.starts p.id = 0

instance (σ : Cluster) (node : String) : Decidable (Offers σ node) := by unfold Offers; infer_instance

/-- Polls are handled only once every pod handed over before has been claimed. -/
def Claimed (x : Step Cluster Action) : Prop :=
  match x.label with
  | .handlePoll node => Offers x.src node
  | _ => True

instance (x : Step Cluster Action) : Decidable (Claimed x) := by unfold Claimed; split <;> infer_instance

theorem pollResponse_offered {s s' : Store} {timeout : Duration} {r : Option Response} {pod : Pod}
    (h : Runs Exec ((Event.poll node).prog timeout) s r s') (hp : pollResponse r = some pod) :
    s.pods.get pod.id = some pod ∧ pod.nodeID = node ∧ pod.status = .scheduled := by
  obtain ⟨resp, rfl, hrun⟩ := runs_answer h
  refine (pollPods_spec hrun).2 pod ?_
  unfold pollResponse at hp
  split at hp
  · next heq =>
    cases heq
    rw [hp]
  · cases hp

/-- A pod that the response carries was neither waiting nor started. -/
theorem carries_new {s' : Store} {timeout : Duration} {r : Option Response} (hoffers : Offers σ node)
    (hr : Runs Exec ((Event.poll node).prog timeout) σ.store r s') (id : String) :
    (PollState.answered (pollResponse r)).carries id = 0 ∨
      (PollState.answered (pollResponse r)).carries id = 1 ∧ (σ.agents node).waiting id = 0 ∧
        (σ.withStore s').starts id = 0 := by
  cases hp : pollResponse r with
  | none => exact .inl rfl
  | some pod =>
    by_cases hid : pod.id = id
    · subst hid
      obtain ⟨hget, hnode, hst⟩ := pollResponse_offered hr hp
      obtain ⟨hwait, hzero⟩ := hoffers pod (Table.mem_of_get hget) hnode hst
      refine .inr ⟨by simp [PollState.carries], hwait, ?_⟩
      show (if _ then 0 else σ.starts pod.id) = 0
      rw [hzero]
      split <;> rfl
    · exact .inl (by simp [PollState.carries, hid])

theorem Once.handlePoll {s' : Store} {timeout : Duration} {r : Option Response} (h : Once σ)
    (hpoll : (σ.agents node).poll = .requested) (hoffers : Offers σ node)
    (hr : Runs Exec ((Event.poll node).prog timeout) σ.store r s') :
    Once ((σ.withStore s').setAgent node ((σ.agents node).answered (pollResponse r))) := by
  have hkeep := h.withStore (.change (Event.prog_spec hr))
  have hbefore : ∀ id, (σ.agents node).waiting id = (σ.agents node).jobs.countP (Job.waits id) := fun id => by
    unfold Agent.waiting
    rw [hpoll]
    rfl
  have hafter : ∀ id, ((σ.agents node).answered (pollResponse r)).waiting id =
      (σ.agents node).waiting id + (PollState.answered (pollResponse r)).carries id := fun id => by
    rw [hbefore]
    rfl
  have hagents : ∀ node' id, node' ≠ node →
      (((σ.withStore s').setAgent node ((σ.agents node).answered (pollResponse r))).agents node').waiting id =
        (σ.agents node').waiting id := fun node' id hn => by
    rw [Cluster.setAgent_ne _ _ hn]
    rfl
  refine ⟨fun node' id => ?_, fun node' id ha => ?_, hkeep.starts⟩
  · by_cases hn : node' = node
    · subst hn
      rw [Cluster.setAgent_self, hafter]
      have := h.copies node' id
      rcases carries_new hoffers hr id with hzero | ⟨hone, hwait, -⟩ <;> omega
    · rw [hagents node' id hn]
      exact h.copies node' id
  · have hassigned := hkeep.assigned node' id ha
    by_cases hn : node' = node
    · subst hn
      rw [Cluster.setAgent_self, hafter]
      show (σ.withStore s').starts id + _ ≤ 1
      have hsame : ((σ.withStore s').agents node').waiting id = (σ.agents node').waiting id := rfl
      rcases carries_new hoffers hr id with hzero | ⟨hone, hwait, hstarts⟩ <;> omega
    · rw [hagents node' id hn]
      exact hassigned

end Steps

/-- **At most one start.**  If no poll is handled while a pod on offer is already with the
agent, every pod is started at most once, by the agent of its node, from the time
it becomes `SCHEDULED` until it leaves that assignment. -/
theorem started_once_of_claimed {timeout : Duration} {s : Store} {maxConcurrentJobs : String → Int}
    {tr : List (Step Cluster Action)} {σ : Cluster}
    (h : Run (Cluster.Next timeout) (Cluster.start s maxConcurrentJobs) tr σ) (hc : ∀ x ∈ tr, Claimed x) :
    ∀ id, σ.starts id ≤ 1 := by
  have hinv : Once σ := by
    refine Run.inv Once Claimed ?_ (Once.start s maxConcurrentJobs) h hc
    rintro ⟨σ, a, σ'⟩ hnext hclaimed hI
    change Cluster.Next timeout σ a σ' at hnext
    cases hnext with
    | act hact =>
      have hacts := act_acts hact
      exact hI.move hacts.store hacts.moved
    | control e r _ hr => exact hI.withStore (.change (Event.prog_spec hr))
    | handlePoll node r hpoll hr => exact hI.handlePoll hpoll hclaimed hr
    | deliver j m r hm hr =>
      have hafter := hI.withStore (.change (Event.prog_spec hr))
      exact ⟨hafter.copies, hafter.assigned, hafter.starts⟩
  exact hinv.starts

/-- The node of `startedRun` with its pod dispatched to it, and room for two pods at its agent. -/
def offeredPod : Cluster :=
  Cluster.start (Sys.init.applyAll (15 * second) (startedRun.take 4)).store fun _ => 2

/-- One poll of the node's agent, from sending it to starting goroutine `i`. -/
def pickup (i : Nat) : List (Time × Action) :=
  [(5, .pollOnce "node_00000000"), (5, .handlePoll "node_00000000"), (5, .receive "node_00000000"),
   (5, .claim "node_00000000" i)]

theorem started_once_claimed :
    (∀ id, (offeredPod.applyAll (15 * second)
      (pickup 0 ++ [(6, .deliver 0), (6, .execute "node_00000000" 0)] ++ pickup 1)).starts id ≤ 1) ∧
    (offeredPod.applyAll (15 * second)
      (pickup 0 ++ [(6, .deliver 0), (6, .execute "node_00000000" 0)] ++ pickup 1)).starts "pod_00000002" = 1 :=
  ⟨started_once_of_claimed (Cluster.run_trace .nil _) (by decide +kernel), by decide +kernel⟩

/-- Two polls are handled before the first `RUNNING` report; both copies are executed. -/
theorem polled_twice_started_twice :
    ¬ ∀ (timeout : Duration) (s : Store) (maxConcurrentJobs : String → Int) (tr : List (Step Cluster Action))
      (σ : Cluster), Run (Cluster.Next timeout) (Cluster.start s maxConcurrentJobs) tr σ → ∀ id, σ.starts id ≤ 1 := by
  intro h
  have honce := h (15 * second) _ _ _ _ (Cluster.run_trace .nil (pickup 0 ++ pickup 1 ++
    [(6, .execute "node_00000000" 0), (6, .execute "node_00000000" 1)] : List (Time × Action)) :
      Run (Cluster.Next (15 * second)) offeredPod _ _) "pod_00000002"
  revert honce
  decide +kernel

end ControlPlane.Worker
