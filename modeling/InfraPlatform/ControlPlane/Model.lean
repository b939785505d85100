import Mathlib.Data.Rat.Defs
import Mathlib.Tactic
import InfraPlatform.Lib.Machine

/-!
# The control plane's data model

The records of `internal/model` and their lifecycle tables: deployments, pods,
nodes and services.  Record fields left out of a literal take Go's zero values.

* Times are nanoseconds since Go's zero time, so that `Time.isZero t` is `t = 0`.
* `int` fields are integers and `float64` CPU amounts the rationals that they stand for.  Where the two background
  loops compute with them, how the result comes out is a parameter (`Arith`).
* The enumerations are string types, so each has a case for the texts that are no
  constant.
-/

namespace ControlPlane

/-! ## Time -/

abbrev Time := Int

abbrev Duration := Int

def second : Duration := 1000000000

def maxDuration : Duration := 2 ^ 63 - 1

def minDuration : Duration := -2 ^ 63

def Time.isZero (t : Time) : Bool := t == 0

/-- `t.Sub(u)`, which saturates at the ends of the `int64` range. -/
def Time.sub (t u : Time) : Duration := max minDuration (min maxDuration (t - u))

/-! ## Arithmetic -/

/-- How the results of integer operations and of `float64` differences come out.  Wrapping a chain of sums and
differences at every step is wrapping it once, and wrapping makes nothing larger that is not negative. -/
class Arith where
  int : Int → Int
  sub : ℚ → ℚ → ℚ
  int_int_add : ∀ x y, int (int x + y) = int (x + y)
  int_int_sub : ∀ x y, int (int x - y) = int (x - y)
  int_le_self : ∀ x, 0 ≤ x → int x ≤ x

/-- Unbounded integers and exact CPU amounts.  This is what the loops compute with unless another arithmetic is named,
in statements that grant it or do not depend on it:

* `RunningJobs` passes `2 ^ 63 - 1` only on a node without a limit, by that many dispatches or by a heartbeat that
  says so;
* `Attempt` starts at 0 and passes it after that many timeouts of nodes that ran the pod;
* `Replicas` is at least 1 in what `CreateDeployment` stores, so no difference with a number of pods overflows;
* `Available.MemoryMB` is taken off only by what is available, and given back up to the capacity: a sum that passes
  `2 ^ 63 - 1` takes a request and an amount that are both that large. -/
instance Arith.exact : Arith := ⟨fun x => x, fun a b => a - b, fun _ _ => rfl, fun _ _ => rfl, fun x _ => le_refl x⟩

/-- Go's own arithmetic: `int` has 64 bits and wraps around, `float64` rounds. -/
abbrev Arith.go : Arith :=
  ⟨Lib.wrapInt64, Lib.Float64.sub, Lib.wrapInt64_wrapInt64_add, Lib.wrapInt64_wrapInt64_sub, Lib.wrapInt64_le_self⟩

/-- Go's integers, with CPU amounts that are exact. -/
abbrev Arith.int64 : Arith :=
  ⟨Lib.wrapInt64, fun a b => a - b, Lib.wrapInt64_wrapInt64_add, Lib.wrapInt64_wrapInt64_sub, Lib.wrapInt64_le_self⟩

@[simp] theorem Arith.int_exact (x : Int) : @Arith.int .exact x = x := rfl

/-! ## Deployments -/

inductive DeploymentType where
  | batch | service | other (text : String)
deriving DecidableEq, Repr

inductive RestartPolicy where
  | never | onFailure | always | other (text : String)
deriving DecidableEq, Repr

inductive DeploymentStatus where
  | pending | active | degraded | cancelled | other (text : String)
deriving DecidableEq, Repr

def allowedDeploymentTransitions : DeploymentStatus → List DeploymentStatus
  | .pending => [.active, .cancelled]
  | .active => [.degraded, .cancelled]
  | .degraded => [.active, .cancelled]
  | .cancelled => []
  | .other _ => []

def transitionDeployment (f t : DeploymentStatus) : Bool := (allowedDeploymentTransitions f).contains t

/-- A Go `map[string]string`; `none` is the nil map. -/
abbrev Labels := Option (List (String × String))

structure ResourceRequest where
  cpu : ℚ := 0
  memoryMB : Int := 0
deriving DecidableEq, Repr

structure Deployment where
  id : String
  name : String := ""
  ns : String := ""
  labels : Labels := none
  type : DeploymentType := .other ""
  image : String := ""
  command : String := ""
  args : List String := []
  replicas : Int := 0
  maxRetries : Int := 0
  restartPolicy : RestartPolicy := .other ""
  resources : ResourceRequest := {}
  status : DeploymentStatus
  createdAt : Time := 0
  updatedAt : Time := 0
deriving DecidableEq, Repr

/-! ## Pods -/

inductive PodStatus where
  | pending | scheduled | running | succeeded | failed | retrying | deadLetter | cancelled
  | other (text : String)
deriving DecidableEq, Repr

/-- Terminal states (succeeded, deadLetter, cancelled) have no outgoing transitions.
`scheduled → pending` is a dispatch that the node never picked up. -/
def allowedPodTransitions : PodStatus → List PodStatus
  | .pending => [.scheduled, .cancelled]
  | .scheduled => [.running, .pending, .cancelled]
  | .running => [.succeeded, .failed, .cancelled]
  | .failed => [.retrying, .deadLetter]
  | .retrying => [.pending, .scheduled]
  | .succeeded => []
  | .deadLetter => []
  | .cancelled => []
  | .other _ => []

def transitionPod (f t : PodStatus) : Bool := (allowedPodTransitions f).contains t

structure Pod where
  id : String
  deploymentID : String
  nodeID : String := ""
  ns : String := ""
  labels : Labels := none
  attempt : Int := 0
  status : PodStatus
  image : String := ""
  containerID : String := ""
  command : String := ""
  args : List String := []
  resources : ResourceRequest := {}
  exitCode : Option Int := none
  error : String := ""
  output : String := ""
  createdAt : Time := 0
  scheduledAt : Option Time := none
  startedAt : Option Time := none
  finishedAt : Option Time := none
  runAfter : Time := 0
deriving DecidableEq, Repr

/-- Whether the pod still occupies one of its deployment's replica slots: only
`deadLetter` and `cancelled` free a slot. -/
def Pod.active (p : Pod) : Bool :=
  match p.status with
  | .pending | .scheduled | .running | .retrying | .failed | .succeeded => true
  | _ => false

/-- Dispatched to a node and not finished. -/
def Pod.inFlight (p : Pod) : Bool := p.status == .scheduled || p.status == .running

/-! ## Nodes -/

inductive NodeStatus where
  | registering | healthy | draining | unhealthy | removed | other (text : String)
deriving DecidableEq, Repr

def allowedNodeTransitions : NodeStatus → List NodeStatus
  | .registering => [.healthy, .unhealthy]
  | .healthy => [.draining, .unhealthy]
  | .draining => [.removed, .unhealthy]
  | .unhealthy => [.healthy, .removed]
  | .removed => []
  | .other _ => []

def transitionNode (f t : NodeStatus) : Bool := (allowedNodeTransitions f).contains t

structure ResourceCapacity where
  cpu : ℚ := 0
  memoryMB : Int := 0
deriving DecidableEq, Repr

structure Node where
  id : String
  hostname : String := ""
  address : String := ""
  labels : Labels := none
  status : NodeStatus
  capacity : ResourceCapacity := {}
  available : ResourceCapacity := {}
  runningJobs : Int := 0
  maxConcurrent : Int := 0
  lastHeartbeatAt : Time := 0
  registeredAt : Time := 0
deriving DecidableEq, Repr

def Node.withStatus (n : Node) (st : NodeStatus) : Node := { n with status := st }

/-- Enough available resources and concurrency headroom for a pod requiring `req`. -/
def Node.hasCapacityFor (n : Node) (req : ResourceRequest) : Bool :=
  if n.maxConcurrent > 0 ∧ n.runningJobs ≥ n.maxConcurrent then false
  else n.available.cpu ≥ req.cpu && n.available.memoryMB ≥ req.memoryMB

/-! ## Services -/

inductive LoadBalanceStrategy where
  | roundRobin | leastConn | weighted | other (text : String)
deriving DecidableEq, Repr

structure RetryPolicy where
  maxAttempts : Int := 0
  perTryTimeoutMS : Int := 0
deriving DecidableEq, Repr

structure HealthCheckConfig where
  path : String := ""
  intervalSeconds : Int := 0
deriving DecidableEq, Repr

structure Service where
  id : String
  name : String := ""
  ns : String := ""
  pathPrefix : String := ""
  strategy : LoadBalanceStrategy := .other ""
  selector : Labels := none
  retryPolicy : RetryPolicy := {}
  healthCheck : HealthCheckConfig := {}
  updatedAt : Time := 0
deriving DecidableEq, Repr

/-! ## Room on a node -/

theorem Node.hasCapacityFor_iff {n : Node} {req : ResourceRequest} : n.hasCapacityFor req = true ↔
    (0 < n.maxConcurrent → n.runningJobs < n.maxConcurrent) ∧ req.cpu ≤ n.available.cpu ∧
      req.memoryMB ≤ n.available.memoryMB := by
  unfold Node.hasCapacityFor
  split
  · next hfull => exact ⟨nofun, fun h => absurd (h.1 hfull.1) (not_lt.mpr hfull.2)⟩
  · next hfull =>
    rw [not_and, not_le] at hfull
    simp only [Bool.and_eq_true, decide_eq_true_eq]
    exact ⟨fun h => ⟨hfull, h⟩, fun h => h.2⟩

/-! ## The lifecycle tables -/

@[simp] theorem Node.withStatus_id (n : Node) (st : NodeStatus) : (n.withStatus st).id = n.id := rfl

@[simp] theorem Node.withStatus_status (n : Node) (st : NodeStatus) : (n.withStatus st).status = st := rfl

@[simp] theorem Node.withStatus_capacity (n : Node) (st : NodeStatus) :
    (n.withStatus st).capacity = n.capacity := rfl

@[simp] theorem Node.withStatus_available (n : Node) (st : NodeStatus) :
    (n.withStatus st).available = n.available := rfl

theorem not_transitionPod_self (st : PodStatus) : transitionPod st st = false := by
  cases st <;> rfl

theorem transitionPod_ne {f t : PodStatus} (h : transitionPod f t = true) : t ≠ f := by
  rintro rfl
  rw [not_transitionPod_self] at h
  cases h

/-- Inactive statuses are absorbing: every legal move starts at an active pod. -/
theorem active_of_transitionPod {p : Pod} {t : PodStatus} (h : transitionPod p.status t = true) :
    p.active = true := by
  unfold Pod.active
  cases hs : p.status <;> rw [hs] at h <;> simp [transitionPod, allowedPodTransitions] at h ⊢

end ControlPlane
