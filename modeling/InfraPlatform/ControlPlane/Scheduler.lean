import Mathlib.Data.List.Sort
import InfraPlatform.ControlPlane.Store

/-!
# The scheduler

`internal/scheduler`: `selectNode` picks the least-loaded healthy node with room,
`tick` runs one scheduling pass over the pending pods in FIFO order.

The reading of `time.Now()` that gates the backoff is the argument `now` of
`tick`.  `sort.Slice` promises nothing about equal elements; the listing it sorts
comes in any order already, so a stable sort here covers every outcome.
-/

namespace ControlPlane.Scheduler

open Lib

/-- `n` is preferred to `best`: fewer running jobs, then registered earlier. -/
def preferred (n best : Node) : Bool :=
  n.runningJobs < best.runningJobs || (n.runningJobs == best.runningJobs && n.registeredAt < best.registeredAt)

/-- One round of the loop of `SelectNode`. -/
def consider (required : ResourceRequest) (best : Option Node) (n : Node) : Option Node :=
  if n.status ≠ .healthy then best
  else if !n.hasCapacityFor required then best
  else match best with
    | none => some n
    | some b => if preferred n b then some n else some b

/-- The best healthy node with room for `required`; `none` is `ErrNoCapacity`. -/
def selectNode (candidates : List Node) (required : ResourceRequest) : Option Node :=
  candidates.foldl (consider required) none

/-- The node with a pod's request taken off its available resources. -/
def reserve [A : Arith] (n : Node) (required : ResourceRequest) : Node :=
  { n with
    available :=
      { cpu := A.sub n.available.cpu required.cpu
        memoryMB := A.int (n.available.memoryMB - required.memoryMB) }
    runningJobs := A.int (n.runningJobs + 1) }

structure Stats where
  lastTickAt : Time
  scheduledLast : Int
  pendingNow : Int
deriving DecidableEq, Repr

/-- What the loop of `Tick` carries: its private copies of the nodes, and the count. -/
structure Pass where
  nodes : List Node
  scheduled : Int := 0

/-- `node` points into the pass's own slice, so the reservation shows there. -/
def Pass.reserved [A : Arith] (pass : Pass) (node : Node) (required : ResourceRequest) : Pass :=
  { nodes := pass.nodes.map fun m => if m.id = node.id then reserve node required else m
    scheduled := pass.scheduled + 1 }

/-- The resources a pod needs; a missing deployment needs none. -/
def requiredOf : Except StoreErr Deployment → ResourceRequest
  | .ok d => d.resources
  | .error _ => {}

def assigned (pod : Pod) (node : Node) : Pod := { pod with nodeID := node.id }

/-- Dispatch `pod` to `node`: assign, transition, then reserve. -/
def dispatch [A : Arith] (pass : Pass) (pod : Pod) (node : Node) (required : ResourceRequest) : M Pass := do
  match ← State.updatePod (assigned pod node) with
  | .error _ => pure pass
  | .ok () =>
    match ← State.transitionPod pod.id .scheduled "" with
    | .error _ => pure pass
    | .ok () =>
      -- a failed update is only logged
      let _ ← State.updateNode (reserve node required)
      pure (pass.reserved node required)

/-- One round of the loop of `Tick`. -/
def schedulePod [A : Arith] (now : Time) (pass : Pass) (pod : Pod) : M Pass :=
  if !pod.runAfter.isZero && pod.runAfter > now then pure pass
  else do
    let required := requiredOf (← State.getDeployment pod.deploymentID)
    match selectNode pass.nodes required with
    | none => pure pass
    | some node => dispatch pass pod node required

def sortByCreatedAt (pods : List Pod) : List Pod :=
  pods.insertionSort (fun a b => a.createdAt ≤ b.createdAt)

/-- One scheduling pass; `none` when a listing failed and the stats are left alone. -/
def tick [A : Arith] (now : Time) : M (Option Stats) := do
  match ← State.listPodsByStatus .pending with
  | .error _ => pure none
  | .ok listed =>
    match ← State.listNodes with
    | .error _ => pure none
    | .ok nodes =>
      let pending := sortByCreatedAt listed
      let pass ← pending.foldlM (schedulePod now) { nodes }
      let t ← timeNow
      pure (some
        { lastTickAt := t, scheduledLast := pass.scheduled, pendingNow := pending.length - pass.scheduled })

end ControlPlane.Scheduler
