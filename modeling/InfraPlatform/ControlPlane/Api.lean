import InfraPlatform.ControlPlane.Store

/-!
# The HTTP handlers

`internal/api`: the handlers that write to the store, and the agent's poll.  A
handler takes the path values and the decoded body (`none` when the body does not
decode) and returns the response it writes.
-/

namespace ControlPlane.Api

open Lib

/-! ## Responses -/

inductive Body where
  | error (msg : String)
  | node (n : Option Node)
  | deployment (d : Option Deployment)
  | pod (p : Option Pod)
  | polled (p : Option Pod)
  | service (svc : Option Service)
  | ok
  | empty
deriving DecidableEq, Repr

structure Response where
  code : Nat
  body : Body
  location : String := ""
deriving DecidableEq, Repr

def writeJSON (code : Nat) (body : Body) : Response := { code, body }

def writeJSONError (code : Nat) (msg : String) : Response := { code, body := .error msg }

def maxIDAttempts : Nat := 5

/-! ## Nodes -/

structure RegisterNodeRequest where
  hostname : String := ""
  address : String := ""
  capacity : ResourceCapacity := {}
  maxConcurrent : Int := 0
deriving DecidableEq, Repr

/-- The record a registration stores. -/
def newNode (req : RegisterNodeRequest) (id : String) (now : Time) : Node :=
  { id, hostname := req.hostname, address := req.address, status := .registering,
    capacity := req.capacity, available := req.capacity, maxConcurrent := req.maxConcurrent,
    lastHeartbeatAt := now, registeredAt := now }

/-- The loop of `RegisterNode` that allocates an ID. -/
def allocateNode (req : RegisterNodeRequest) : Nat → M (Except Response String)
  | 0 => pure (.error (writeJSONError 500 "failed to allocate a unique node id"))
  | attempts + 1 => do
    match ← generateID "node" with
    | none => pure (.error (writeJSONError 500 "failed to generate node id"))
    | some genID =>
      let now ← timeNow
      match ← State.registerNode (newNode req genID now) with
      | .ok () => pure (.ok genID)
      | .error _ => allocateNode req attempts

/-- A node is healthy the instant it registers. -/
def registerNode (body : Option RegisterNodeRequest) : M Response :=
  match body with
  | none => pure (writeJSONError 400 "invalid JSON body")
  | some req =>
    if req.address = "" then pure (writeJSONError 400 "address is required")
    else do
      match ← allocateNode req maxIDAttempts with
      | .error resp => pure resp
      | .ok id =>
        match ← State.transitionNode id .healthy with
        | .error _ => pure (writeJSONError 500 "failed to mark node healthy")
        | .ok () =>
          match ← State.getNode id with
          | .error _ => pure (writeJSONError 500 "node vanished after registration")
          | .ok node => pure (writeJSON 201 (.node (some node)))

structure NodeHeartbeatRequest where
  runningJobs : Int := 0
  available : ResourceCapacity := {}
deriving DecidableEq, Repr

/-- The record a heartbeat stores. -/
def heartbeatNode (node : Node) (req : NodeHeartbeatRequest) (now : Time) : Node :=
  { node with
    lastHeartbeatAt := now
    runningJobs := req.runningJobs
    available := if req.available ≠ {} then req.available else node.available }

/-- An unhealthy node recovers here; a draining node stays draining.  The body is
optional: `req` is what decoding left. -/
def heartbeat (now : Time) (id : String) (req : NodeHeartbeatRequest) : M Response := do
  match ← State.getNode id with
  | .error _ => pure (writeJSONError 404 "node not found")
  | .ok node =>
    match ← State.updateNode (heartbeatNode node req now) with
    | .error err => pure (writeJSONError 500 err.text)
    | .ok () =>
      if node.status = .unhealthy then
        match ← State.transitionNode id .healthy with
        | .error err => pure (writeJSONError 500 err.text)
        | .ok () => pure (writeJSON 200 .ok)
      else pure (writeJSON 200 .ok)

/-- At most one pod scheduled onto this node and awaiting pickup. -/
def pollPods (id : String) : M Response := do
  match ← State.getNode id with
  | .error _ => pure (writeJSONError 404 "node not found")
  | .ok _ =>
    match ← State.listPodsByNode id with
    | .error err => pure (writeJSONError 500 err.text)
    | .ok pods => pure (writeJSON 200 (.polled (pods.find? fun p => p.status = .scheduled)))

structure PodStatusRequest where
  status : PodStatus
  exitCode : Option Int := none
  error : String := ""
  output : String := ""
deriving DecidableEq, Repr

def isPodTerminalish : PodStatus → Bool
  | .succeeded | .failed | .cancelled => true
  | _ => false

/-- The node with a deployment's request given back, clamped to its capacity. -/
def giveBack (n : Node) (req : ResourceRequest) : Node :=
  { n with
    available :=
      { cpu := min (n.available.cpu + req.cpu) n.capacity.cpu
        memoryMB := min (n.available.memoryMB + req.memoryMB) n.capacity.memoryMB } }

/-- The record `releaseNodeCapacity` stores. -/
def releasedNode (node : Node) (deployment : Except StoreErr Deployment) : Node :=
  let node := { node with runningJobs := if node.runningJobs > 0 then node.runningJobs - 1 else node.runningJobs }
  match deployment with
  | .ok d => giveBack node d.resources
  | .error _ => node

def releaseNodeCapacity (nodeID deploymentID : String) : M Unit := do
  match ← State.getNode nodeID with
  | .error _ => pure ()
  | .ok node =>
    let deployment ← State.getDeployment deploymentID
    let _ ← State.updateNode (releasedNode node deployment)
    pure ()

/-- The pod as `UpdatePodStatus` first writes it back. -/
def reported (pod : Pod) (req : PodStatusRequest) : Pod :=
  { pod with exitCode := req.exitCode, output := req.output }

/-- An agent's report.  When a pod leaves running into a terminal state, the
reporting node's capacity is released. -/
def updatePodStatus (nodeID podID : String) (body : Option PodStatusRequest) : M Response :=
  match body with
  | none => pure (writeJSONError 400 "invalid JSON body")
  | some req => do
    match ← State.getPod podID with
    | .error _ => pure (writeJSONError 404 "pod not found")
    | .ok pod =>
      match ← State.updatePod (reported pod req) with
      | .error err => pure (writeJSONError 500 err.text)
      | .ok () =>
        match ← State.transitionPod podID req.status req.error with
        | .error .invalidTransition => pure (writeJSONError 409 StoreErr.invalidTransition.text)
        | .error err => pure (writeJSONError 500 err.text)
        | .ok () =>
          (if pod.status = .running ∧ isPodTerminalish req.status then
            releaseNodeCapacity nodeID pod.deploymentID else pure ())
          let updated ← State.getPod podID
          pure (writeJSON 200 (.pod updated.toOption))

def drainNode (id : String) : M Response := do
  match ← State.getNode id with
  | .error _ => pure (writeJSONError 404 "node not found")
  | .ok _ =>
    match ← State.transitionNode id .draining with
    | .error .invalidTransition => pure (writeJSONError 409 StoreErr.invalidTransition.text)
    | .error err => pure (writeJSONError 500 err.text)
    | .ok () =>
      let node ← State.getNode id
      pure (writeJSON 200 (.node node.toOption))

/-! ## Deployments -/

structure SubmitDeploymentRequest where
  name : String := ""
  ns : String := ""
  labels : Labels := none
  type : DeploymentType := .other ""
  image : String := ""
  command : String := ""
  args : List String := []
  replicas : Int := 0
  maxRetries : Int := 0
  restartPolicy : RestartPolicy := .other ""
  resources : ResourceRequest := {}
deriving DecidableEq, Repr

/-- The request with the handler's defaults filled in. -/
def SubmitDeploymentRequest.withDefaults (req : SubmitDeploymentRequest) : SubmitDeploymentRequest :=
  { req with
    replicas := if req.replicas ≤ 0 then 1 else req.replicas
    type := if req.type = .other "" then .batch else req.type
    restartPolicy := if req.restartPolicy = .other "" then .onFailure else req.restartPolicy
    ns := if req.ns = "" then "default" else req.ns }

/-- The record a submission stores. -/
def newDeployment (req : SubmitDeploymentRequest) (id : String) (now : Time) : Deployment :=
  { id, name := req.name, ns := req.ns, labels := req.labels, type := req.type, image := req.image,
    command := req.command, args := req.args, replicas := req.replicas, maxRetries := req.maxRetries,
    restartPolicy := req.restartPolicy, resources := req.resources, status := .pending,
    createdAt := now, updatedAt := now }

/-- The loop of `CreateDeployment` that allocates an ID. -/
def allocateDeployment (req : SubmitDeploymentRequest) : Nat → M (Except Response String)
  | 0 => pure (.error (writeJSONError 500 "failed to allocate a unique deployment id"))
  | attempts + 1 => do
    match ← generateID "deploy" with
    | none => pure (.error (writeJSONError 500 "failed to generate deployment id"))
    | some genID =>
      let now ← timeNow
      match ← State.createDeployment (newDeployment req genID now) with
      | .ok () => pure (.ok genID)
      | .error _ => allocateDeployment req attempts

def createDeployment (body : Option SubmitDeploymentRequest) : M Response :=
  match body with
  | none => pure (writeJSONError 400 "invalid JSON body")
  | some req =>
    if req.name = "" ∨ (req.command = "" ∧ req.image = "") then
      pure (writeJSONError 400 "name and either command or image are required")
    else do
      match ← allocateDeployment req.withDefaults maxIDAttempts with
      | .error resp => pure resp
      | .ok id =>
        match ← State.getDeployment id with
        | .error _ => pure (writeJSONError 500 "deployment vanished after creation")
        | .ok d => pure { code := 201, body := .deployment (some d), location := "/api/v1/deployments/" ++ id }

/-- Marks the deployment cancelled; running pods are left to finish. -/
def cancelDeployment (id : String) : M Response := do
  match ← State.getDeployment id with
  | .error _ => pure (writeJSONError 404 "deployment not found")
  | .ok _ =>
    match ← State.transitionDeployment id .cancelled with
    | .error .invalidTransition => pure (writeJSONError 409 "deployment already cancelled")
    | .error err => pure (writeJSONError 500 err.text)
    | .ok () =>
      let d ← State.getDeployment id
      pure (writeJSON 200 (.deployment d.toOption))

/-! ## Services -/

/-- The service with the defaults `CreateService` fills in after its ID. -/
def serviceWithDefaults (svc : Service) : Service :=
  { svc with
    strategy := if svc.strategy = .other "" then .roundRobin else svc.strategy
    ns := if svc.ns = "" then "default" else svc.ns }

def storeService (svc : Service) : M Response := do
  match ← State.upsertService (serviceWithDefaults svc) with
  | .error err => pure (writeJSONError 500 err.text)
  | .ok () =>
    let created ← State.getService svc.id
    pure { code := 201, body := .service created.toOption, location := "/api/v1/services/" ++ svc.id }

def createService (body : Option Service) : M Response :=
  match body with
  | none => pure (writeJSONError 400 "invalid JSON body")
  | some svc =>
    if svc.pathPrefix = "" then pure (writeJSONError 400 "path_prefix is required")
    else if svc.id = "" then do
      match ← generateID "svc" with
      | none => pure (writeJSONError 500 "failed to generate service id")
      | some genID => storeService { svc with id := genID }
    else storeService svc

def updateService (id : String) (body : Option Service) : M Response := do
  match ← State.getService id with
  | .error _ => pure (writeJSONError 404 "service not found")
  | .ok _ =>
    match body with
    | none => pure (writeJSONError 400 "invalid JSON body")
    | some svc =>
      match ← State.upsertService { svc with id } with
      | .error err => pure (writeJSONError 500 err.text)
      | .ok () =>
        let updated ← State.getService id
        pure (writeJSON 200 (.service updated.toOption))

def deleteService (id : String) : M Response := do
  match ← State.deleteService id with
  | .error .notFound => pure (writeJSONError 404 "service not found")
  | .error err => pure (writeJSONError 500 err.text)
  | .ok () => pure { code := 204, body := .empty }

end ControlPlane.Api
