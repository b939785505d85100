import Mathlib.Data.List.Sort
import InfraPlatform.ControlPlane.Store

/-!
# The reconciler

`internal/reconciler`: replica reconciliation, then heartbeat timeout detection.

The reading of `time.Now()` that decides which nodes timed out is the argument
`now` of `tick`; the readings that only become timestamps are calls.
-/

namespace ControlPlane.Reconciler

open Lib

/-! ## Backoff -/

def maxBackoff : Duration := 60 * second

/-- `int64(math.Pow(2, float64(attempt)))` on amd64: a power of two that does not
fit converts to the smallest `int64`, a fraction to 0. -/
def pow2Int64 (attempt : Int) : Int :=
  if attempt < 0 then 0 else if attempt < 63 then 2 ^ attempt.toNat else -2 ^ 63

def backoff (attempt : Int) : Duration :=
  let d := wrapInt64 (pow2Int64 attempt * second)
  if d > maxBackoff then maxBackoff else d

/-! ## Replica reconciliation -/

/-- The pod the reconciler creates: the deployment is the template. -/
def newPod (d : Deployment) (id : String) (createdAt : Time) : Pod :=
  { id, deploymentID := d.id, ns := d.ns, labels := d.labels, status := .pending, image := d.image,
    command := d.command, args := d.args, resources := d.resources, createdAt }

/-- One round of the loop that fills missing replicas; errors are logged and the round is given up. -/
def createReplica (d : Deployment) : M Unit := do
  match ← generateID "pod" with
  | none => pure ()
  | some id =>
    let now ← timeNow
    let _ ← State.createPod (newPod d id now)
    pure ()

/-- Scale-down: cancel the newest `excess` of the cancellable pods.  They are listed in any order, so
`sort.Slice` may leave pods of one time in any order as well. -/
def cancelExcess (excess : Nat) (cancellable : List Pod) : M Unit :=
  ((cancellable.insertionSort (fun a b => a.createdAt ≥ b.createdAt)).take excess).forM fun p => do
    let _ ← State.transitionPod p.id .cancelled "deployment scaled down"
    pure ()

def activeCount (pods : List Pod) : Nat := pods.countP Pod.active

def cancellable (p : Pod) : Bool := p.status == .pending || p.status == .scheduled

def reconcileReplicas [A : Arith] (d : Deployment) (pods : List Pod) : M Unit :=
  if activeCount pods < d.replicas then
    (List.range (A.int (d.replicas - activeCount pods)).toNat).forM fun _ => createReplica d
  else if activeCount pods > d.replicas then
    cancelExcess (A.int (activeCount pods - d.replicas)).toNat (pods.filter cancellable)
  else pure ()

def reconcileHealth (d : Deployment) (hasDeadLetter : Bool) : M Unit :=
  if hasDeadLetter ∧ d.status = .active then do
    let _ ← State.transitionDeployment d.id .degraded
    pure ()
  else if ¬hasDeadLetter ∧ d.status = .degraded then do
    let _ ← State.transitionDeployment d.id .active
    pure ()
  else pure ()

/-- A pending deployment is activated; `none` when that failed and it is skipped. -/
def activate (d : Deployment) : M (Option Deployment) :=
  if d.status = .pending then do
    match ← State.transitionDeployment d.id .active with
    | .error _ => pure none
    | .ok () => pure (some { d with status := .active })
  else pure (some d)

/-- One round of the loop of `reconcileDeployments`. -/
def reconcileDeployment [A : Arith] (d : Deployment) : M Unit :=
  if d.status = .cancelled then pure ()
  else do
    match ← activate d with
    | none => pure ()
    | some d =>
      match ← State.listPodsByDeployment d.id with
      | .error _ => pure ()
      | .ok pods =>
        reconcileReplicas d pods
        reconcileHealth d (pods.any fun p => p.status == .deadLetter)

def reconcileDeployments [A : Arith] : M Unit := do
  match ← State.listDeployments with
  | .error _ => pure ()
  | .ok deployments => deployments.forM reconcileDeployment

/-! ## Heartbeat timeouts -/

def unassigned (p : Pod) : Pod := { p with nodeID := "" }

/-- The lost pod with one more attempt behind it and its backoff gate set. -/
def retried [A : Arith] (p : Pod) (now : Time) : Pod :=
  { p with attempt := A.int (p.attempt + 1), runAfter := now + backoff (A.int (p.attempt + 1)), nodeID := "" }

def exhausted [A : Arith] (p : Pod) : Pod := { p with attempt := A.int (p.attempt + 1) }

/-- A pod scheduled but never run goes back to pending, without burning a retry. -/
def requeueOrphan (p : Pod) : M Unit := do
  match ← State.updatePod (unassigned p) with
  | .error _ => pure ()
  | .ok () =>
    let _ ← State.transitionPod p.id .pending ""
    pure ()

/-- A running pod is presumed lost and retried after a backoff. -/
def retryPod [A : Arith] (p : Pod) : M Unit := do
  let now ← timeNow
  match ← State.updatePod (retried p now) with
  | .error _ => pure ()
  | .ok () =>
    match ← State.transitionPod p.id .failed "node heartbeat timeout" with
    | .error _ => pure ()
    | .ok () =>
      let _ ← State.transitionPod p.id .retrying ""
      let _ ← State.transitionPod p.id .pending ""
      pure ()

def deadLetterPod [A : Arith] (p : Pod) : M Unit := do
  match ← State.updatePod (exhausted p) with
  | .error _ => pure ()
  | .ok () =>
    match ← State.transitionPod p.id .failed "node heartbeat timeout" with
    | .error _ => pure ()
    | .ok () =>
      let _ ← State.transitionPod p.id .deadLetter "max retries exceeded after node failure"
      pure ()

/-- A missing deployment grants no retries. -/
def maxRetriesOf : Except StoreErr Deployment → Int
  | .ok d => d.maxRetries
  | .error _ => 0

/-- One round of the loop of `reschedulePodsFor`. -/
def reschedulePod [A : Arith] (p : Pod) : M Unit :=
  if p.status = .scheduled then requeueOrphan p
  else if p.status ≠ .running then pure ()
  else do
    let maxRetries := maxRetriesOf (← State.getDeployment p.deploymentID)
    if A.int (p.attempt + 1) ≤ maxRetries then retryPod p else deadLetterPod p

def reschedulePodsFor [A : Arith] (nodeID : String) : M Unit := do
  match ← State.listPodsByNode nodeID with
  | .error _ => pure ()
  | .ok pods => pods.forM reschedulePod

def timedOut (heartbeatTimeout : Duration) (now : Time) (n : Node) : Bool :=
  now.sub n.lastHeartbeatAt > heartbeatTimeout

/-- Move a node that went quiet to `dest` and take its pods away. -/
def giveUpNode [A : Arith] (n : Node) (dest : NodeStatus) : M Unit := do
  match ← State.transitionNode n.id dest with
  | .error _ => pure ()
  | .ok () => reschedulePodsFor n.id

/-- One round of the loop of `detectUnhealthyNodes`. -/
def detectUnhealthyNode [A : Arith] (heartbeatTimeout : Duration) (now : Time) (n : Node) : M Unit :=
  if n.status = .healthy ∧ timedOut heartbeatTimeout now n then giveUpNode n .unhealthy
  -- a decommissioned node that went quiet is removed, not marked unhealthy
  else if n.status = .draining ∧ timedOut heartbeatTimeout now n then giveUpNode n .removed
  else pure ()

def detectUnhealthyNodes [A : Arith] (heartbeatTimeout : Duration) (now : Time) : M Unit := do
  match ← State.listNodes with
  | .error _ => pure ()
  | .ok nodes => nodes.forM (detectUnhealthyNode heartbeatTimeout now)

/-- One reconciliation pass. -/
def tick [A : Arith] (heartbeatTimeout : Duration) (now : Time) : M Unit := do
  reconcileDeployments
  detectUnhealthyNodes heartbeatTimeout now

end ControlPlane.Reconciler
