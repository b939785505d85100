import InfraPlatform.Lib.Run
import InfraPlatform.ControlPlane.SchedulerSpec
import InfraPlatform.ControlPlane.ReconcilerSpec
import InfraPlatform.ControlPlane.ApiSpec

/-!
# The control plane as a transition system

An `Event` is one request or one pass of a background loop, run without
interleaving.  The requests that only read the store are left out, except the
agent's poll.  Next to the store, `Sys` records which pods a poll has
handed to which node.
-/

namespace ControlPlane

open Lib Lib.Prog Api Relation

inductive Event where
  | register (body : Option RegisterNodeRequest)
  | heartbeat (now : Time) (node : String) (req : NodeHeartbeatRequest)
  | poll (node : String)
  | report (node pod : String) (body : Option PodStatusRequest)
  | drain (node : String)
  | submit (body : Option SubmitDeploymentRequest)
  | cancel (deployment : String)
  | createService (body : Option Service)
  | updateService (id : String) (body : Option Service)
  | deleteService (id : String)
  | schedulerTick (now : Time)
  | reconcilerTick (now : Time)

/-- What runs on an event; the background loops answer nobody. -/
def Event.prog [A : Arith] (timeout : Duration) : Event → M (Option Response)
  | .register body => do pure (some (← registerNode body))
  | .heartbeat now node req => do pure (some (← Api.heartbeat now node req))
  | .poll node => do pure (some (← pollPods node))
  | .report node pod body => do pure (some (← updatePodStatus node pod body))
  | .drain node => do pure (some (← drainNode node))
  | .submit body => do pure (some (← createDeployment body))
  | .cancel deployment => do pure (some (← cancelDeployment deployment))
  | .createService body => do pure (some (← Api.createService body))
  | .updateService id body => do pure (some (← Api.updateService id body))
  | .deleteService id => do pure (some (← Api.deleteService id))
  | .schedulerTick now => do let _ ← Scheduler.tick now; pure none
  | .reconcilerTick now => do Reconciler.tick timeout now; pure none

/-- The pod that a response to `e` hands out, with the node it goes to. -/
def handedBy : Event → Option Response → List (String × String)
  | .poll node, some { body := .polled (some p), .. } => [(node, p.id)]
  | _, _ => []

structure Sys where
  store : Store := {}
  handed : List (String × String) := []

/-- One event, run without interleaving. -/
def Sys.Next (timeout : Duration) (σ : Sys) (e : Event) (σ' : Sys) : Prop :=
  ∃ r, Runs Exec (e.prog timeout) σ.store r σ'.store ∧ σ'.handed = σ.handed ++ handedBy e r

/-- The system started with an empty store. -/
def Sys.init : Sys := {}

/-- Evaluation: the event run with the answers `Store.exec` chooses. -/
def Sys.apply (timeout : Duration) (clock : Time) (σ : Sys) (e : Event) : Sys :=
  let out := (e.prog timeout).run (fun c s => s.exec clock c) σ.store
  { store := out.2, handed := σ.handed ++ handedBy e out.1 }

theorem Sys.next_apply (timeout : Duration) (clock : Time) (σ : Sys) (e : Event) :
    σ.Next timeout e (σ.apply timeout clock e) :=
  ⟨_, run_runs (fun c s => s.exec clock c) (fun c s => exec_allowed clock c s) _ _, rfl⟩

/-- The steps of a list of events, each at its own clock reading. -/
def Sys.trace (timeout : Duration) : Sys → List (Time × Event) → List (Step Sys Event)
  | _, [] => []
  | σ, (clock, e) :: es =>
    ⟨σ, e, σ.apply timeout clock e⟩ :: trace timeout (σ.apply timeout clock e) es

def Sys.applyAll (timeout : Duration) (σ : Sys) (es : List (Time × Event)) : Sys :=
  es.foldl (fun σ x => σ.apply timeout x.1 x.2) σ

theorem Sys.run_trace {timeout : Duration} {σ₀ σ : Sys} {tr : List (Step Sys Event)}
    (h : Run (Sys.Next timeout) σ₀ tr σ) (es : List (Time × Event)) :
    Run (Sys.Next timeout) σ₀ (tr ++ σ.trace timeout es) (σ.applyAll timeout es) := by
  induction es generalizing tr σ with
  | nil => simpa [Sys.trace, Sys.applyAll] using h
  | cons x es ih =>
    have := ih (h.snoc x.2 (σ.next_apply timeout x.1 x.2))
    simpa [Sys.trace, Sys.applyAll] using this

theorem Sys.run_init (timeout : Duration) (es : List (Time × Event)) :
    Run (Sys.Next timeout) Sys.init (Sys.init.trace timeout es) (Sys.init.applyAll timeout es) :=
  Sys.run_trace .nil es

theorem Sys.forall_trace {timeout : Duration} {G : Event → Prop} {es : List (Time × Event)}
    (h : ∀ x ∈ es, G x.2) : ∀ σ : Sys, ∀ x ∈ σ.trace timeout es, G x.label := by
  induction es with
  | nil => simp [Sys.trace]
  | cons y es ih =>
    intro σ x hx
    rw [List.forall_mem_cons] at h
    rcases List.mem_cons.mp hx with rfl | hx
    · exact h.1
    · exact ih h.2 _ x hx

/-- A node registers and a deployment is submitted; its pod is created, dispatched, picked up and started. -/
def startedRun : List (Time × Event) :=
  [(1, .register (some { address := "a:1", capacity := { cpu := 4, memoryMB := 100 }, maxConcurrent := 2 })),
   (2, .submit (some
     { name := "web", command := "run", maxRetries := 3, resources := { cpu := 1, memoryMB := 40 } })),
   (3, .reconcilerTick 3), (4, .schedulerTick 4), (5, .poll "node_00000000"),
   (6, .report "node_00000000" "pod_00000002" (some { status := .running }))]

/-! ## What an event does to the store -/

section Spec

variable {timeout : Duration} {s s' : Store} {r : Option Response}

theorem runs_answer {p : M Response} (h : Runs Exec (do pure (some (← p))) s r s') :
    ∃ resp, r = some resp ∧ Runs Exec p s resp s' := by
  obtain ⟨resp, s₁, h1, h2⟩ := runs_bind.mp h
  obtain ⟨rfl, rfl⟩ := runs_pure.mp h2
  exact ⟨resp, rfl, h1⟩

theorem runs_silent {α : Type} {p : M α} (h : Runs Exec (do let _ ← p; pure none) s r s') :
    r = none ∧ ∃ a, Runs Exec p s a s' := by
  obtain ⟨a, s₁, h1, h2⟩ := runs_bind.mp h
  obtain ⟨rfl, rfl⟩ := runs_pure.mp h2
  exact ⟨rfl, a, h1⟩

/-- Requests that may leave the store as it is without being about a pod. -/
def Event.refusable : Event → Bool
  | .register _ | .heartbeat .. | .poll _ | .drain _ | .submit _ | .cancel _ => true
  | _ => false

def Event.onServices : Event → Bool
  | .createService _ | .updateService .. | .deleteService _ => true
  | _ => false

/-- What an event does to the store, as the specifications of handlers and loops give it. -/
inductive Change (timeout : Duration) : Event → Store → Store → Prop where
  | none {e : Event} {s : Store} : e.refusable = true → Change timeout e s s
  | register {s : Store} (req : RegisterNodeRequest) (b : UInt8 × UInt8 × UInt8 × UInt8) (t : Time) :
      s.nodes.get (idOf "node" b) = .none →
      Change timeout (.register (some req)) s (s.putNode ((newNode req (idOf "node" b) t).withStatus .healthy))
  | heartbeat {s : Store} (now : Time) (node : String) (req : NodeHeartbeatRequest) (n : Node) :
      s.nodes.get node = some n → Change timeout (.heartbeat now node req) s (s.putNode (recovered n req now))
  | drain {s : Store} (node : String) (n : Node) : s.nodes.get node = some n → n.status = .healthy →
      Change timeout (.drain node) s (s.putNode (n.withStatus .draining))
  | ignored {s : Store} (node pod : String) (body : Option PodStatusRequest) :
      body = .none ∨ s.pods.get pod = .none → Change timeout (.report node pod body) s s
  | rejected {s : Store} (node pod : String) (req : PodStatusRequest) (p : Pod) : s.pods.get pod = some p →
      transitionPod p.status req.status = false →
      Change timeout (.report node pod (some req)) s (s.putPod (reported p req))
  | accepted {s : Store} (node pod : String) (req : PodStatusRequest) (p : Pod) (t : Time) :
      s.pods.get pod = some p → transitionPod p.status req.status = true →
      Change timeout (.report node pod (some req)) s (afterReport s node p req t)
  | submit {s : Store} (req : SubmitDeploymentRequest) (b : UInt8 × UInt8 × UInt8 × UInt8) (t : Time) :
      s.deployments.get (idOf "deploy" b) = .none →
      Change timeout (.submit (some req)) s (s.putDeployment (newDeployment req.withDefaults (idOf "deploy" b) t))
  | cancel {s : Store} (deployment : String) (d : Deployment) (t : Time) : s.deployments.get deployment = some d →
      d.status ≠ .cancelled →
      Change timeout (.cancel deployment) s (s.putDeployment (Store.moveDeployment d .cancelled t))
  | service {e : Event} {s s' : Store} : e.onServices = true → SameCluster s s' → Change timeout e s s'
  | schedule {s s' : Store} (now : Time) : ReflTransGen (Scheduler.Dispatch now) s s' →
      Change timeout (.schedulerTick now) s s'
  | reconcile {s s₁ s' : Store} (now : Time) : ReflTransGen Reconciler.Adjust s s₁ →
      Reconciler.Detected timeout now s₁ s' → Change timeout (.reconcilerTick now) s s'

/-- **Every event is one change.** -/
theorem Event.prog_spec {e : Event} (h : Runs Exec (e.prog timeout) s r s') :
    Change timeout e s s' := by
  cases e with
  | register body =>
    obtain ⟨resp, -, h⟩ := runs_answer h
    rcases registerNode_spec h with rfl | ⟨req, b, t, rfl, hnone, rfl⟩
    · exact .none rfl
    · exact .register req b t hnone
  | heartbeat now node req =>
    obtain ⟨resp, -, h⟩ := runs_answer h
    rcases heartbeat_spec h with ⟨-, rfl⟩ | ⟨n, hn, rfl⟩
    · exact .none rfl
    · exact .heartbeat now node req n hn
  | poll node =>
    obtain ⟨resp, -, h⟩ := runs_answer h
    obtain ⟨rfl, -⟩ := pollPods_spec h
    exact .none rfl
  | report node pod body =>
    obtain ⟨resp, -, h⟩ := runs_answer h
    rcases updatePodStatus_spec h with ⟨hno, rfl⟩ | ⟨req, p, rfl, hp, ⟨hst, -, rfl⟩ | ⟨hst, -, t, rfl⟩⟩
    · exact .ignored node pod body hno
    · exact .rejected node pod req p hp hst
    · exact .accepted node pod req p t hp hst
  | drain node =>
    obtain ⟨resp, -, h⟩ := runs_answer h
    rcases drainNode_spec h with ⟨rfl, -⟩ | ⟨n, hn, hh, rfl⟩
    · exact .none rfl
    · exact .drain node n hn hh
  | submit body =>
    obtain ⟨resp, -, h⟩ := runs_answer h
    rcases createDeployment_spec h with rfl | ⟨req, b, t, rfl, hnone, rfl⟩
    · exact .none rfl
    · exact .submit req b t hnone
  | cancel deployment =>
    obtain ⟨resp, -, h⟩ := runs_answer h
    rcases cancelDeployment_spec h with rfl | ⟨d, t, hd, hc, rfl⟩
    · exact .none rfl
    · exact .cancel deployment d t hd hc
  | createService body =>
    obtain ⟨resp, -, h⟩ := runs_answer h
    exact .service rfl (createService_spec h)
  | updateService id body =>
    obtain ⟨resp, -, h⟩ := runs_answer h
    exact .service rfl (updateService_spec h)
  | deleteService id =>
    obtain ⟨resp, -, h⟩ := runs_answer h
    exact .service rfl (deleteService_spec h)
  | schedulerTick now =>
    obtain ⟨-, _, h⟩ := runs_silent h
    exact .schedule now (Scheduler.tick_spec h)
  | reconcilerTick now =>
    obtain ⟨-, _, h⟩ := runs_silent h
    obtain ⟨s₁, hadj, hdet⟩ := Reconciler.tick_spec h
    exact .reconcile now hadj hdet

end Spec

end ControlPlane
