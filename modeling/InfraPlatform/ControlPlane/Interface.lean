import InfraPlatform.Lib.Json
import InfraPlatform.ControlPlane.Store

/-!
# The store interface

The methods of the interface `state.Store` as data, and `MemoryStore` as a machine
that answers them.  A method that reads the clock carries the reading.

An answer is an error or the entities returned: none for a write, one for a `Get`, and
for a `List` the rows in an order that `MemoryStore` does not promise.
-/

namespace ControlPlane

open Lib

/-- `labels[k]`, the empty string where there is no entry. -/
def labelAt (labels : Labels) (k : String) : String := ((Json.entries labels).lookup k).getD ""

/-- Whether `labels` satisfies all key-value pairs of `selector`. -/
def matchesSelector (labels selector : Labels) : Bool :=
  (Json.entries selector).all fun e => labelAt labels e.1 == e.2

inductive Method where
  | createDeployment (d : Deployment)
  | getDeployment (id : String)
  | listDeployments
  | listDeploymentsByNamespace (ns : String)
  | updateDeployment (d : Deployment) (now : Time)
  | transitionDeployment (id : String) (dest : DeploymentStatus) (now : Time)
  | deleteDeployment (id : String)
  | createPod (p : Pod)
  | getPod (id : String)
  | listPodsByDeployment (deploymentID : String)
  | listPodsByStatus (status : PodStatus)
  | listPodsByNode (nodeID : String)
  | listPodsByLabels (ns : String) (selector : Labels)
  | updatePod (p : Pod)
  | transitionPod (id : String) (dest : PodStatus) (errMsg : String) (now : Time)
  | registerNode (n : Node)
  | getNode (id : String)
  | listNodes
  | listNodesByLabels (selector : Labels)
  | updateNode (n : Node)
  | transitionNode (id : String) (dest : NodeStatus)
  | upsertService (svc : Service) (now : Time)
  | getService (id : String)
  | listServices
  | deleteService (id : String)

inductive Entity where
  | deployment (d : Deployment)
  | pod (p : Pod)
  | node (n : Node)
  | service (svc : Service)
deriving DecidableEq

abbrev Answer (ε : Type) := Except ε (List Entity)

section

variable {ε α S : Type}

def written (r : Except ε Unit × S) : Answer ε × S := (r.1.map fun _ => [], r.2)

def found (wrap : α → Entity) (r : Except ε α) : Answer ε := r.map fun a => [wrap a]

def listed (wrap : α → Entity) (r : Except ε (List α)) : Answer ε := r.map (List.map wrap)

end

namespace Store

variable (s : Store)

/-! The methods that no handler or loop calls -/

def updateDeployment (d : Deployment) (now : Time) : Res × Store :=
  if (s.deployments.get d.id).isSome then (.ok (), s.putDeployment { d with updatedAt := now })
  else (.error .notFound, s)

def deleteDeployment (id : String) : Res × Store :=
  if (s.deployments.get id).isSome then (.ok (), { s with deployments := s.deployments.erase id })
  else (.error .notFound, s)

/-- `MemoryStore`, with the rows in table order. -/
def handle : Method → Store → Answer StoreErr × Store
  | .createDeployment d, s => written (s.createDeployment d)
  | .getDeployment id, s => (found .deployment (s.getDeployment id), s)
  | .listDeployments, s => (listed .deployment (.ok s.deployments.rows), s)
  | .listDeploymentsByNamespace ns, s =>
    (listed .deployment (.ok (s.deployments.rows.filter fun d => d.ns == ns)), s)
  | .updateDeployment d now, s => written (s.updateDeployment d now)
  | .transitionDeployment id dest now, s => written (s.transitionDeployment id dest now)
  | .deleteDeployment id, s => written (s.deleteDeployment id)
  | .createPod p, s => written (s.createPod p)
  | .getPod id, s => (found .pod (s.getPod id), s)
  | .listPodsByDeployment d, s => (listed .pod (.ok (s.pods.rows.filter fun p => p.deploymentID == d)), s)
  | .listPodsByStatus status, s => (listed .pod (.ok (s.pods.rows.filter fun p => p.status == status)), s)
  | .listPodsByNode n, s => (listed .pod (.ok (s.pods.rows.filter fun p => p.nodeID == n)), s)
  | .listPodsByLabels ns selector, s =>
    (listed .pod (.ok (s.pods.rows.filter fun p =>
      (ns == "" || p.ns == ns) && matchesSelector p.labels selector)), s)
  | .updatePod p, s => written (s.updatePod p)
  | .transitionPod id dest errMsg now, s => written (s.transitionPod id dest errMsg now)
  | .registerNode n, s => written (s.registerNode n)
  | .getNode id, s => (found .node (s.getNode id), s)
  | .listNodes, s => (listed .node (.ok s.nodes.rows), s)
  | .listNodesByLabels selector, s =>
    (listed .node (.ok (s.nodes.rows.filter fun n => matchesSelector n.labels selector)), s)
  | .updateNode n, s => written (s.updateNode n)
  | .transitionNode id dest, s => written (s.transitionNode id dest)
  | .upsertService svc now, s => written (s.upsertService svc now)
  | .getService id, s => (found .service (s.getService id), s)
  | .listServices, s => (listed .service (.ok s.services.rows), s)
  | .deleteService id, s => written (s.deleteService id)

end Store

theorem labelAt_normMap {labels : Labels} (h : ((Json.entries labels).map Prod.fst).Nodup) (k : String) :
    labelAt (Json.normMap labels) k = labelAt labels k := by
  unfold labelAt
  rw [Json.lookup_normMap h]

theorem matchesSelector_normMap {labels : Labels} (h : ((Json.entries labels).map Prod.fst).Nodup)
    (selector : Labels) : matchesSelector (Json.normMap labels) selector = matchesSelector labels selector := by
  unfold matchesSelector
  simp only [labelAt_normMap h]

end ControlPlane
