import InfraPlatform.ControlPlane.Placement

/-!
# Node agents

`internal/worker`: an agent polls for a pod, and for each pod it is handed a
goroutine reports `RUNNING`, executes the pod and reports the outcome.  Reports
travel to the control plane on their own: `reportStatus` only logs a failure, so a
report may be handled late, or never, and the goroutine goes on either way.

`Cluster` puts the agents, the reports under way and the control plane together.
The control plane's part of a step is an `Event` run without interleaving,
the agents' part is `Cluster.act`.  `starts` records how often each pod was started
since it last became `SCHEDULED`, by the agent of the node it is on.

Left out: heartbeats are events of the control plane's environment here, and an agent keeps
its goroutines to the end (a crashed agent is one that takes no further steps).
-/

namespace ControlPlane.Worker

open Lib Lib.Prog Api

/-! ## One agent -/

/-- The poll loop is one goroutine: at most one poll is outstanding. -/
inductive PollState where
  | idle
  | requested
  | answered (pod : Option Pod)
deriving DecidableEq

/-- Where the goroutine of `runPod` stands. -/
inductive Phase where
  | handed | claiming | executing | reporting
deriving DecidableEq

structure Job where
  pod : Pod
  phase : Phase := .handed
deriving DecidableEq

structure Agent where
  maxConcurrentJobs : Int := 1
  poll : PollState := .idle
  jobs : List Job := []
deriving DecidableEq

/-- `cap(a.sem)` -/
def Agent.semCap (a : Agent) : Nat := (max a.maxConcurrentJobs 1).toNat

/-- `len(a.sem)`: a slot for every goroutine and one for the poll. -/
def Agent.semLen (a : Agent) : Nat := a.jobs.length + if a.poll = .idle then 0 else 1

/-- `pollOnce` up to the request: take a slot, unless there is none. -/
def Agent.pollOnce (a : Agent) : Option Agent :=
  if a.poll = .idle ∧ a.semLen < a.semCap then some { a with poll := .requested } else none

/-- The rest of `pollOnce`: start a goroutine for the pod, or give the slot back. -/
def Agent.received (a : Agent) : Option Pod → Agent
  | none => { a with poll := .idle }
  | some pod => { a with poll := .idle, jobs := a.jobs ++ [{ pod }] }

/-- Goroutine `i` is at `j` now. -/
def Agent.setJob (a : Agent) (i : Nat) (j : Job) : Agent := { a with jobs := a.jobs.set i j }

def Agent.answered (a : Agent) (pod : Option Pod) : Agent := { a with poll := .answered pod }

/-- What the agent makes of the response to its poll; an error is no pod. -/
def pollResponse : Option Response → Option Pod
  | some { code := 200, body := .polled pod, .. } => pod
  | _ => none

/-- How an execution ends. -/
inductive Outcome where
  | shutdown (output : String)
  | failed (exitCode : Option Int) (err output : String)
  | succeeded (output : String)
deriving DecidableEq

/-- The report on an outcome. -/
def Outcome.report : Outcome → PodStatusRequest
  | .shutdown output => { status := .cancelled, error := "node agent shutting down", output }
  | .failed exitCode err output => { status := .failed, exitCode, error := err, output }
  | .succeeded output => { status := .succeeded, exitCode := some 0, output }

/-- A container is created under a name made of the pod's ID, so not while another one runs. -/
def Agent.startable (a : Agent) (pod : Pod) : Bool :=
  pod.image == "" || a.jobs.all fun j => j.pod.id != pod.id || j.phase != .executing

/-! ## The cluster -/

/-- A status report under way to the control plane. -/
structure Message where
  node : String
  pod : String
  body : PodStatusRequest

structure Cluster where
  store : Store := {}
  agents : String → Agent
  wire : List Message := []
  starts : String → Nat := fun _ => 0

inductive Action where
  /-- the control plane handles a request of its environment or runs a loop -/
  | control (e : Event)
  /-- an agent's poll: sent, handled, lost on either way, received -/
  | pollOnce (node : String)
  | handlePoll (node : String)
  | pollFails (node : String)
  | receive (node : String)
  /-- goroutine `i`: report `RUNNING`, start or fail to, end, give the slot back -/
  | claim (node : String) (i : Nat)
  | execute (node : String) (i : Nat)
  | refuse (node : String) (i : Nat) (outcome : Outcome)
  | finish (node : String) (i : Nat) (outcome : Outcome)
  | release (node : String) (i : Nat)
  /-- report `j` on the wire: handled, or lost -/
  | deliver (j : Nat)
  | lose (j : Nat)

/-- Pod `id` is in flight on `node`. -/
def assignedNow (s : Store) (node id : String) : Bool :=
  (s.pods.get id).any fun p => p.inFlight && p.nodeID == node

def scheduledAt (s : Store) (id : String) : Bool := (s.pods.get id).any fun p => p.status == .scheduled

namespace Cluster

variable (σ : Cluster)

def setAgent (node : String) (a : Agent) : Cluster := { σ with agents := Function.update σ.agents node a }

@[simp] theorem setAgent_self (node : String) (a : Agent) : (σ.setAgent node a).agents node = a :=
  Function.update_self ..

theorem setAgent_ne {node node' : String} (a : Agent) (h : node' ≠ node) :
    (σ.setAgent node a).agents node' = σ.agents node' := Function.update_of_ne h ..

def setJob (node : String) (i : Nat) (j : Job) : Cluster :=
  σ.setAgent node ((σ.agents node).setJob i j)

def send (node : String) (pod : Pod) (body : PodStatusRequest) : Cluster :=
  { σ with wire := σ.wire ++ [⟨node, pod.id, body⟩] }

/-- A pod that becomes `SCHEDULED` begins a new assignment. -/
def withStore (s : Store) : Cluster :=
  { σ with
    store := s
    starts := fun id => if scheduledAt s id && !scheduledAt σ.store id then 0 else σ.starts id }

/-- The agent of `node` starts a pod; counted while the pod is in flight on that node. -/
def countStart (node id : String) : Cluster :=
  if assignedNow σ.store node id then { σ with starts := Function.update σ.starts id (σ.starts id + 1) } else σ

/-- The steps of agents and of the wire. -/
def act : Action → Option Cluster
  | .pollOnce node => (σ.agents node).pollOnce.map (σ.setAgent node)
  | .pollFails node =>
    if (σ.agents node).poll = .idle then none else some (σ.setAgent node ((σ.agents node).received none))
  | .receive node =>
    match (σ.agents node).poll with
    | .answered pod => some (σ.setAgent node ((σ.agents node).received pod))
    | _ => none
  | .claim node i =>
    match (σ.agents node).jobs[i]? with
    | some ⟨pod, .handed⟩ => some ((σ.setJob node i ⟨pod, .claiming⟩).send node pod { status := .running })
    | _ => none
  | .execute node i =>
    match (σ.agents node).jobs[i]? with
    | some ⟨pod, .claiming⟩ =>
      if (σ.agents node).startable pod then some ((σ.setJob node i ⟨pod, .executing⟩).countStart node pod.id)
      else none
    | _ => none
  | .refuse node i outcome =>
    match (σ.agents node).jobs[i]? with
    | some ⟨pod, .claiming⟩ => some ((σ.setJob node i ⟨pod, .reporting⟩).send node pod outcome.report)
    | _ => none
  | .finish node i outcome =>
    match (σ.agents node).jobs[i]? with
    | some ⟨pod, .executing⟩ => some ((σ.setJob node i ⟨pod, .reporting⟩).send node pod outcome.report)
    | _ => none
  | .release node i =>
    match (σ.agents node).jobs[i]? with
    | some ⟨_, .reporting⟩ =>
      some (σ.setAgent node { σ.agents node with jobs := (σ.agents node).jobs.eraseIdx i })
    | _ => none
  | .lose j => some { σ with wire := σ.wire.eraseIdx j }
  | .control _ | .handlePoll _ | .deliver _ => none

end Cluster

/-- Polls and reports come from the agents. -/
def ofEnvironment : Event → Bool
  | .poll _ | .report .. => false
  | _ => true

inductive Cluster.Next (timeout : Duration) : Cluster → Action → Cluster → Prop where
  | act {σ σ' : Cluster} {a : Action} : σ.act a = some σ' → Next timeout σ a σ'
  | control {σ : Cluster} {s' : Store} (e : Event) (r : Option Response) : ofEnvironment e = true →
      Runs Exec (e.prog timeout) σ.store r s' → Next timeout σ (.control e) (σ.withStore s')
  | handlePoll {σ : Cluster} {s' : Store} (node : String) (r : Option Response) :
      (σ.agents node).poll = .requested → Runs Exec ((Event.poll node).prog timeout) σ.store r s' →
      Next timeout σ (.handlePoll node)
        ((σ.withStore s').setAgent node ((σ.agents node).answered (pollResponse r)))
  | deliver {σ : Cluster} {s' : Store} (j : Nat) (m : Message) (r : Option Response) : σ.wire[j]? = some m →
      Runs Exec ((Event.report m.node m.pod (some m.body)).prog timeout) σ.store r s' →
      Next timeout σ (.deliver j) { σ.withStore s' with wire := σ.wire.eraseIdx j }

/-- A cluster whose agents have not polled yet. -/
def Cluster.start (s : Store) (maxConcurrentJobs : String → Int) : Cluster :=
  { store := s, agents := fun node => { maxConcurrentJobs := maxConcurrentJobs node } }

/-! ## Evaluation -/

/-- A step with the answers `Store.exec` chooses. -/
def Cluster.apply (timeout : Duration) (clock : Time) (σ : Cluster) (a : Action) : Option Cluster :=
  let out := fun (e : Event) => (e.prog timeout).run (fun c s => s.exec clock c) σ.store
  match a with
  | .control e => if ofEnvironment e then some (σ.withStore (out e).2) else none
  | .handlePoll node =>
    if (σ.agents node).poll = .requested then
      some ((σ.withStore (out (.poll node)).2).setAgent node
        ((σ.agents node).answered (pollResponse (out (.poll node)).1)))
    else none
  | .deliver j =>
    match σ.wire[j]? with
    | some m => some { σ.withStore (out (.report m.node m.pod (some m.body))).2 with wire := σ.wire.eraseIdx j }
    | none => none
  | a => σ.act a

theorem Cluster.next_apply {timeout : Duration} {clock : Time} {σ σ' : Cluster} {a : Action}
    (h : σ.apply timeout clock a = some σ') : σ.Next timeout a σ' := by
  have hruns : ∀ e : Event, Runs Exec (e.prog timeout) σ.store _ _ := fun e =>
    run_runs (fun c s => s.exec clock c) (fun c s => exec_allowed clock c s) (e.prog timeout) σ.store
  unfold Cluster.apply at h
  simp only at h
  split at h
  · next e =>
    split at h
    · next he =>
      obtain rfl := Option.some.inj h
      exact .control e _ he (hruns e)
    · cases h
  · next node =>
    split at h
    · next hp =>
      obtain rfl := Option.some.inj h
      exact .handlePoll node _ hp (hruns (.poll node))
    · cases h
  · next j =>
    split at h
    · next m hm =>
      obtain rfl := Option.some.inj h
      exact .deliver j m _ hm (hruns (.report m.node m.pod (some m.body)))
    · cases h
  · exact .act h

/-- The steps that a list of actions gives, as far as they are possible. -/
def Cluster.trace (timeout : Duration) : Cluster → List (Time × Action) → List (Step Cluster Action)
  | _, [] => []
  | σ, (clock, a) :: rest =>
    match σ.apply timeout clock a with
    | some σ' => ⟨σ, a, σ'⟩ :: trace timeout σ' rest
    | none => []

def Cluster.applyAll (timeout : Duration) : Cluster → List (Time × Action) → Cluster
  | σ, [] => σ
  | σ, (clock, a) :: rest =>
    match σ.apply timeout clock a with
    | some σ' => applyAll timeout σ' rest
    | none => σ

theorem Cluster.run_trace {timeout : Duration} {σ₀ σ : Cluster} {tr : List (Step Cluster Action)}
    (h : Run (Cluster.Next timeout) σ₀ tr σ) (as : List (Time × Action)) :
    Run (Cluster.Next timeout) σ₀ (tr ++ σ.trace timeout as) (σ.applyAll timeout as) := by
  induction as generalizing tr σ with
  | nil => simpa [Cluster.trace, Cluster.applyAll] using h
  | cons x as ih =>
    unfold Cluster.trace Cluster.applyAll
    cases ha : σ.apply timeout x.1 x.2 with
    | none => simpa using h
    | some σ' =>
      have := ih (h.snoc x.2 (Cluster.next_apply ha))
      simpa using this

/-! ## The control plane's view -/

variable {timeout : Duration} {σ σ' : Cluster} {a : Action}

theorem Outcome.agentStatus (o : Outcome) : agentStatus o.report.status = true := by
  cases o <;> rfl

/-- The steps that `Cluster.act` takes, one by one. -/
inductive Cluster.Acts (σ : Cluster) : Action → Cluster → Prop where
  | pollOnce (node : String) : (σ.agents node).poll = .idle →
      Acts σ (.pollOnce node) (σ.setAgent node { σ.agents node with poll := .requested })
  | pollFails (node : String) : Acts σ (.pollFails node) (σ.setAgent node ((σ.agents node).received none))
  | receive (node : String) (pod : Option Pod) : (σ.agents node).poll = .answered pod →
      Acts σ (.receive node) (σ.setAgent node ((σ.agents node).received pod))
  | claim (node : String) (i : Nat) (pod : Pod) : (σ.agents node).jobs[i]? = some ⟨pod, .handed⟩ →
      Acts σ (.claim node i) ((σ.setJob node i ⟨pod, .claiming⟩).send node pod { status := .running })
  | execute (node : String) (i : Nat) (pod : Pod) : (σ.agents node).jobs[i]? = some ⟨pod, .claiming⟩ →
      Acts σ (.execute node i) ((σ.setJob node i ⟨pod, .executing⟩).countStart node pod.id)
  | refuse (node : String) (i : Nat) (outcome : Outcome) (pod : Pod) :
      (σ.agents node).jobs[i]? = some ⟨pod, .claiming⟩ →
      Acts σ (.refuse node i outcome) ((σ.setJob node i ⟨pod, .reporting⟩).send node pod outcome.report)
  | finish (node : String) (i : Nat) (outcome : Outcome) (pod : Pod) :
      (σ.agents node).jobs[i]? = some ⟨pod, .executing⟩ →
      Acts σ (.finish node i outcome) ((σ.setJob node i ⟨pod, .reporting⟩).send node pod outcome.report)
  | release (node : String) (i : Nat) :
      Acts σ (.release node i) (σ.setAgent node { σ.agents node with jobs := (σ.agents node).jobs.eraseIdx i })
  | lose (j : Nat) : Acts σ (.lose j) { σ with wire := σ.wire.eraseIdx j }

theorem act_acts (h : σ.act a = some σ') : σ.Acts a σ' := by
  cases a with
  | pollOnce node =>
    obtain ⟨a, ha, rfl⟩ := Option.map_eq_some_iff.mp h
    unfold Agent.pollOnce at ha
    split at ha
    · next hidle =>
      obtain rfl := Option.some.inj ha
      exact .pollOnce node hidle.1
    · cases ha
  | pollFails node =>
    simp only [Cluster.act] at h
    split at h
    · cases h
    · obtain rfl := Option.some.inj h
      exact .pollFails node
  | receive node =>
    simp only [Cluster.act] at h
    split at h
    · next pod hpoll =>
      obtain rfl := Option.some.inj h
      exact .receive node pod hpoll
    · cases h
  | claim node i =>
    simp only [Cluster.act] at h
    split at h
    · next pod hj =>
      obtain rfl := Option.some.inj h
      exact .claim node i pod hj
    · cases h
  | execute node i =>
    simp only [Cluster.act] at h
    split at h
    · next pod hj =>
      split at h
      · obtain rfl := Option.some.inj h
        exact .execute node i pod hj
      · cases h
    · cases h
  | refuse node i outcome =>
    simp only [Cluster.act] at h
    split at h
    · next pod hj =>
      obtain rfl := Option.some.inj h
      exact .refuse node i outcome pod hj
    · cases h
  | finish node i outcome =>
    simp only [Cluster.act] at h
    split at h
    · next pod hj =>
      obtain rfl := Option.some.inj h
      exact .finish node i outcome pod hj
    · cases h
  | release node i =>
    simp only [Cluster.act] at h
    split at h
    · obtain rfl := Option.some.inj h
      exact .release node i
    · cases h
  | lose j =>
    obtain rfl := Option.some.inj h
    exact .lose j
  | control | handlePoll | deliver => cases h

@[simp] theorem countStart_store (node id : String) : (σ.countStart node id).store = σ.store := by
  unfold Cluster.countStart
  split <;> rfl

@[simp] theorem countStart_agents (node id : String) : (σ.countStart node id).agents = σ.agents := by
  unfold Cluster.countStart
  split <;> rfl

@[simp] theorem countStart_wire (node id : String) : (σ.countStart node id).wire = σ.wire := by
  unfold Cluster.countStart
  split <;> rfl

theorem Cluster.Acts.store (h : σ.Acts a σ') : σ'.store = σ.store := by
  cases h with
  | execute => exact countStart_store ..
  | _ => rfl

/-- Agents send only reports with a status of theirs. -/
theorem Cluster.Acts.wire (h : σ.Acts a σ') : ∀ m ∈ σ'.wire, m ∈ σ.wire ∨ agentStatus m.body.status = true := by
  have hsend : ∀ {node : String} {pod : Pod} {body : PodStatusRequest}, agentStatus body.status = true →
      ∀ m ∈ σ.wire ++ [⟨node, pod.id, body⟩], m ∈ σ.wire ∨ agentStatus m.body.status = true := by
    intro node pod body hb m hm
    rcases List.mem_append.mp hm with hm | hm
    · exact .inl hm
    · obtain rfl : m = _ := List.mem_singleton.mp hm
      exact .inr hb
  cases h with
  | claim => exact hsend rfl
  | refuse _ _ outcome => exact hsend outcome.agentStatus
  | finish _ _ outcome => exact hsend outcome.agentStatus
  | execute =>
    intro m hm
    rw [countStart_wire] at hm
    exact .inl hm
  | lose => exact fun _ hm => .inl (List.mem_of_mem_eraseIdx hm)
  | _ => exact fun _ hm => .inl hm

/-- The control plane's part of a step. -/
def Action.event (σ : Cluster) : Action → Option Event
  | .control e => some e
  | .handlePoll node => some (.poll node)
  | .deliver j => σ.wire[j]?.map fun m => .report m.node m.pod (some m.body)
  | _ => none

/-- Every report under way carries a status of the agents'. -/
def Cluster.Truthful (σ : Cluster) : Prop := ∀ m ∈ σ.wire, agentStatus m.body.status = true

theorem Cluster.Next.truthful (h : σ.Next timeout a σ') (hw : σ.Truthful) : σ'.Truthful := by
  cases h with
  | act hact => exact fun m hm => ((act_acts hact).wire m hm).elim (hw m) id
  | control e r _ _ => exact hw
  | handlePoll node r _ _ => exact hw
  | deliver j m r _ _ => exact fun m' hm' => hw m' (List.mem_of_mem_eraseIdx hm')

/-- **Every step is an event at the control plane, or leaves the store alone.** -/
theorem Cluster.Next.event (h : σ.Next timeout a σ') (hw : σ.Truthful) :
    σ'.store = σ.store ∨
      ∃ e r, a.event σ = some e ∧ e.fromAgent ∧ Runs Exec (e.prog timeout) σ.store r σ'.store := by
  cases h with
  | act hact => exact .inl (act_acts hact).store
  | control e r he hr =>
    refine .inr ⟨e, r, rfl, ?_, hr⟩
    cases e <;> trivial
  | handlePoll node r _ hr => exact .inr ⟨.poll node, r, rfl, trivial, hr⟩
  | deliver j m r hm hr =>
    exact .inr ⟨.report m.node m.pod (some m.body), r, by simp [Action.event, hm], hw m (List.mem_of_getElem? hm), hr⟩

/-- `σ` as the control plane sees it: reached by events in which agents report. -/
def Seen (timeout : Duration) (σ : Cluster) : Prop :=
  ∃ tr τ, Run (Sys.Next timeout) Sys.init tr τ ∧ τ.store = σ.store ∧ ∀ x ∈ tr, x.label.fromAgent

theorem Seen.event {e : Event} {r : Option Response} {s' : Store} (h : Seen timeout σ) (he : e.fromAgent)
    (hr : Runs Exec (e.prog timeout) σ.store r s') (hs : σ'.store = s') : Seen timeout σ' := by
  obtain ⟨tr, τ, hrun, hstore, hfrom⟩ := h
  have hnext : Sys.Next timeout τ e ⟨s', τ.handed ++ handedBy e r⟩ := ⟨r, by rw [hstore]; exact hr, rfl⟩
  exact ⟨_, _, hrun.snoc e hnext, hs.symm, Run.forall_snoc.mpr ⟨hfrom, he⟩⟩

/-- **The cluster refines the control plane's own transition system**: its steps are
events there, or leave the store alone. -/
theorem Cluster.seen {maxConcurrentJobs : String → Int} {tr : List (Step Cluster Action)}
    (h : Run (Cluster.Next timeout) (Cluster.start {} maxConcurrentJobs) tr σ) : Seen timeout σ := by
  have hinv : Seen timeout σ ∧ σ.Truthful := by
    refine Run.inv (fun σ => Seen timeout σ ∧ σ.Truthful) (fun _ => True) ?_
      ⟨⟨[], Sys.init, .nil, rfl, by simp⟩, by simp [Cluster.Truthful, Cluster.start]⟩ h (fun _ _ => trivial)
    rintro ⟨σ, a, σ'⟩ hnext - ⟨hseen, hwire⟩
    change Cluster.Next timeout σ a σ' at hnext
    refine ⟨?_, hnext.truthful hwire⟩
    rcases hnext.event hwire with hsame | ⟨e, r, -, hfrom, hr⟩
    · obtain ⟨tr, τ, hrun, hτ, hfrom⟩ := hseen
      exact ⟨tr, τ, hrun, hτ.trans hsame.symm, hfrom⟩
    · exact hseen.event hfrom hr rfl
  exact hinv.1

/-- So what holds of the control plane between events holds of the cluster, whatever its agents do. -/
theorem Cluster.placed {maxConcurrentJobs : String → Int} {tr : List (Step Cluster Action)}
    (h : Run (Cluster.Next timeout) (Cluster.start {} maxConcurrentJobs) tr σ) : Placed σ.store := by
  obtain ⟨tr', τ, hrun, hstore, hfrom⟩ := Cluster.seen h
  rw [← hstore]
  exact Placed.run hrun hfrom

end ControlPlane.Worker
