import InfraPlatform.Lib.Bucket
import InfraPlatform.Lib.Json
import InfraPlatform.ControlPlane.Model

/-!
# The records as JSON

How `encoding/json` writes and reads the records of `internal/model`, by their
struct tags.  `fields` lists the members in the source's order, `read` is the
decoder into the struct, and `times` are the times that must have a text.

Each record is read back in normal form (`Deployment.read_fields`, …): every field as
it was, and the label or selector map by increasing key, with nil for an empty map.
The four `codec`s collect this for the store.

`omitempty` has no effect on a struct, so a pod's resources are always written.  `Clone`
makes an empty argument list nil, so that it is always written as `null`.
-/

namespace ControlPlane

open Lib Lib.Json

/-! ## Enumerations -/

instance : TextEnum DeploymentType where
  text
    | .batch => "batch"
    | .service => "service"
    | .other text => text
  ofText
    | "batch" => .batch
    | "service" => .service
    | text => .other text

instance : TextEnum RestartPolicy where
  text
    | .never => "never"
    | .onFailure => "on_failure"
    | .always => "always"
    | .other text => text
  ofText
    | "never" => .never
    | "on_failure" => .onFailure
    | "always" => .always
    | text => .other text

instance : TextEnum DeploymentStatus where
  text
    | .pending => "PENDING"
    | .active => "ACTIVE"
    | .degraded => "DEGRADED"
    | .cancelled => "CANCELLED"
    | .other text => text
  ofText
    | "PENDING" => .pending
    | "ACTIVE" => .active
    | "DEGRADED" => .degraded
    | "CANCELLED" => .cancelled
    | text => .other text

instance : TextEnum PodStatus where
  text
    | .pending => "PENDING"
    | .scheduled => "SCHEDULED"
    | .running => "RUNNING"
    | .succeeded => "SUCCEEDED"
    | .failed => "FAILED"
    | .retrying => "RETRYING"
    | .deadLetter => "DEAD_LETTER"
    | .cancelled => "CANCELLED"
    | .other text => text
  ofText
    | "PENDING" => .pending
    | "SCHEDULED" => .scheduled
    | "RUNNING" => .running
    | "SUCCEEDED" => .succeeded
    | "FAILED" => .failed
    | "RETRYING" => .retrying
    | "DEAD_LETTER" => .deadLetter
    | "CANCELLED" => .cancelled
    | text => .other text

instance : TextEnum NodeStatus where
  text
    | .registering => "REGISTERING"
    | .healthy => "HEALTHY"
    | .draining => "DRAINING"
    | .unhealthy => "UNHEALTHY"
    | .removed => "REMOVED"
    | .other text => text
  ofText
    | "REGISTERING" => .registering
    | "HEALTHY" => .healthy
    | "DRAINING" => .draining
    | "UNHEALTHY" => .unhealthy
    | "REMOVED" => .removed
    | text => .other text

instance : TextEnum LoadBalanceStrategy where
  text
    | .roundRobin => "round_robin"
    | .leastConn => "least_conn"
    | .weighted => "weighted_round_robin"
    | .other text => text
  ofText
    | "round_robin" => .roundRobin
    | "least_conn" => .leastConn
    | "weighted_round_robin" => .weighted
    | text => .other text

/-! A move of a lifecycle table ends at a constant. -/

theorem canonical_of_transitionDeployment {f t : DeploymentStatus} (h : transitionDeployment f t = true) :
    Canonical t := by
  cases t with
  | other text => cases f <;> simp [transitionDeployment, allowedDeploymentTransitions] at h
  | _ => rfl

theorem canonical_of_transitionPod {f t : PodStatus} (h : transitionPod f t = true) : Canonical t := by
  cases t with
  | other text => cases f <;> simp [transitionPod, allowedPodTransitions] at h
  | _ => rfl

theorem canonical_of_transitionNode {f t : NodeStatus} (h : transitionNode f t = true) : Canonical t := by
  cases t with
  | other text => cases f <;> simp [transitionNode, allowedNodeTransitions] at h
  | _ => rfl

/-! ## Nested structs -/

/-- The members of `ResourceRequest` and of `ResourceCapacity`. -/
def resourceFields (cpu : ℚ) (memoryMB : Int) : List (String × Option Json) :=
  [("cpu", some (.num cpu)), ("memory_mb", some (int memoryMB))]

def ResourceRequest.read (m : String → Option Json) : Option ResourceRequest := do
  return { cpu := ← readNum (m "cpu"), memoryMB := ← readInt (m "memory_mb") }

def ResourceCapacity.read (m : String → Option Json) : Option ResourceCapacity := do
  return { cpu := ← readNum (m "cpu"), memoryMB := ← readInt (m "memory_mb") }

def RetryPolicy.fields (r : RetryPolicy) : List (String × Option Json) :=
  [("max_attempts", some (int r.maxAttempts)), ("per_try_timeout_ms", some (int r.perTryTimeoutMS))]

def RetryPolicy.read (m : String → Option Json) : Option RetryPolicy := do
  return { maxAttempts := ← readInt (m "max_attempts"), perTryTimeoutMS := ← readInt (m "per_try_timeout_ms") }

def HealthCheckConfig.fields (h : HealthCheckConfig) : List (String × Option Json) :=
  [("path", some (.str h.path)), ("interval_seconds", some (int h.intervalSeconds))]

def HealthCheckConfig.read (m : String → Option Json) : Option HealthCheckConfig := do
  return { path := ← readStr (m "path"), intervalSeconds := ← readInt (m "interval_seconds") }

@[simp] theorem ResourceRequest.readObj_fields (r : ResourceRequest) :
    readObj ResourceRequest.read (some (object (resourceFields r.cpu r.memoryMB))) = some r := by
  rw [readObj_object _ (by simp [resourceFields])]
  simp [ResourceRequest.read, resourceFields, List.lookup_cons]

@[simp] theorem ResourceCapacity.readObj_fields (r : ResourceCapacity) :
    readObj ResourceCapacity.read (some (object (resourceFields r.cpu r.memoryMB))) = some r := by
  rw [readObj_object _ (by simp [resourceFields])]
  simp [ResourceCapacity.read, resourceFields, List.lookup_cons]

@[simp] theorem RetryPolicy.readObj_fields (r : RetryPolicy) :
    readObj RetryPolicy.read (some (object r.fields)) = some r := by
  rw [readObj_object _ (by simp [RetryPolicy.fields])]
  simp [RetryPolicy.read, RetryPolicy.fields, List.lookup_cons]

@[simp] theorem HealthCheckConfig.readObj_fields (h : HealthCheckConfig) :
    readObj HealthCheckConfig.read (some (object h.fields)) = some h := by
  rw [readObj_object _ (by simp [HealthCheckConfig.fields])]
  simp [HealthCheckConfig.read, HealthCheckConfig.fields, List.lookup_cons]

/-! ## Deployments -/

namespace Deployment

def fields (T : TimeText) (d : Deployment) : List (String × Option Json) :=
  [("id", some (.str d.id)),
   ("name", some (.str d.name)),
   ("namespace", some (.str d.ns)),
   ("labels", strMap d.labels),
   ("type", some (enum d.type)),
   ("image", omitEmpty d.image),
   ("command", some (.str d.command)),
   ("args", some (strs d.args)),
   ("replicas", some (int d.replicas)),
   ("max_retries", some (int d.maxRetries)),
   ("restart_policy", some (enum d.restartPolicy)),
   ("resources", some (object (resourceFields d.resources.cpu d.resources.memoryMB))),
   ("status", some (enum d.status)),
   ("created_at", some (time T d.createdAt)),
   ("updated_at", some (time T d.updatedAt))]

def read (T : TimeText) (m : String → Option Json) : Option Deployment := do
  return {
    id := ← readStr (m "id")
    name := ← readStr (m "name")
    ns := ← readStr (m "namespace")
    labels := ← readStrMap (m "labels")
    type := ← readEnum (m "type")
    image := ← readStr (m "image")
    command := ← readStr (m "command")
    args := ← readStrs (m "args")
    replicas := ← readInt (m "replicas")
    maxRetries := ← readInt (m "max_retries")
    restartPolicy := ← readEnum (m "restart_policy")
    resources := ← readObj ResourceRequest.read (m "resources")
    status := ← readEnum (m "status")
    createdAt := ← readTime T (m "created_at")
    updatedAt := ← readTime T (m "updated_at") }

def times (d : Deployment) : List Time := [d.createdAt, d.updatedAt]

def norm (d : Deployment) : Deployment := { d with labels := normMap d.labels }

/-- A Go value that JSON can represent. -/
structure Valid (T : TimeText) (d : Deployment) : Prop where
  labels : ((entries d.labels).map Prod.fst).Nodup
  type : Canonical d.type
  restartPolicy : Canonical d.restartPolicy
  status : Canonical d.status
  times : ∀ t ∈ d.times, T.representable t = true

theorem names_nodup (T : TimeText) (d : Deployment) : ((d.fields T).map Prod.fst).Nodup := by
  simp [fields]

theorem read_fields {T : TimeText} {d : Deployment} (h : d.Valid T) :
    (read T fun name => ((d.fields T).lookup name).join) = some d.norm := by
  have hcreated := readTime_time (h.times d.createdAt (by simp [times]))
  have hupdated := readTime_time (h.times d.updatedAt (by simp [times]))
  simp [read, fields, norm, List.lookup_cons, readEnum_enum h.type, readEnum_enum h.restartPolicy,
    readEnum_enum h.status, hcreated, hupdated]

@[reducible] def codec (J : JsonText) (T : TimeText) : RowCodec J.Raw Deployment where
  key := Deployment.id
  enc d := marshal J T d.times (d.fields T)
  dec := unmarshal J (read T)
  norm := norm
  Valid := Valid T
  dec_enc d h := unmarshal_marshal J h.times (names_nodup T d) (read_fields h)
  valid_norm _ h := ⟨nodup_normMap h.labels, h.type, h.restartPolicy, h.status, h.times⟩
  norm_norm d := by simp [norm]

end Deployment

/-! ## Pods -/

namespace Pod

def fields (T : TimeText) (p : Pod) : List (String × Option Json) :=
  [("id", some (.str p.id)),
   ("deployment_id", some (.str p.deploymentID)),
   ("node_id", omitEmpty p.nodeID),
   ("namespace", some (.str p.ns)),
   ("labels", strMap p.labels),
   ("attempt", some (int p.attempt)),
   ("status", some (enum p.status)),
   ("image", omitEmpty p.image),
   ("container_id", omitEmpty p.containerID),
   ("command", some (.str p.command)),
   ("args", some (strs p.args)),
   ("resources", some (object (resourceFields p.resources.cpu p.resources.memoryMB))),
   ("exit_code", p.exitCode.map int),
   ("error", omitEmpty p.error),
   ("output", omitEmpty p.output),
   ("created_at", some (time T p.createdAt)),
   ("scheduled_at", p.scheduledAt.map (time T)),
   ("started_at", p.startedAt.map (time T)),
   ("finished_at", p.finishedAt.map (time T)),
   ("run_after", omitZero T p.runAfter)]

def read (T : TimeText) (m : String → Option Json) : Option Pod := do
  return {
    id := ← readStr (m "id")
    deploymentID := ← readStr (m "deployment_id")
    nodeID := ← readStr (m "node_id")
    ns := ← readStr (m "namespace")
    labels := ← readStrMap (m "labels")
    attempt := ← readInt (m "attempt")
    status := ← readEnum (m "status")
    image := ← readStr (m "image")
    containerID := ← readStr (m "container_id")
    command := ← readStr (m "command")
    args := ← readStrs (m "args")
    resources := ← readObj ResourceRequest.read (m "resources")
    exitCode := ← readPtr readInt (m "exit_code")
    error := ← readStr (m "error")
    output := ← readStr (m "output")
    createdAt := ← readTime T (m "created_at")
    scheduledAt := ← readPtr (readTime T) (m "scheduled_at")
    startedAt := ← readPtr (readTime T) (m "started_at")
    finishedAt := ← readPtr (readTime T) (m "finished_at")
    runAfter := ← readTime T (m "run_after") }

/-- The times written: those behind nil pointers and a zero `runAfter` are not. -/
def times (p : Pod) : List Time :=
  p.createdAt :: (p.scheduledAt.toList ++ p.startedAt.toList ++ p.finishedAt.toList ++
    if p.runAfter = 0 then [] else [p.runAfter])

def norm (p : Pod) : Pod := { p with labels := normMap p.labels }

structure Valid (T : TimeText) (p : Pod) : Prop where
  labels : ((entries p.labels).map Prod.fst).Nodup
  status : Canonical p.status
  times : ∀ t ∈ p.times, T.representable t = true

theorem names_nodup (T : TimeText) (p : Pod) : ((p.fields T).map Prod.fst).Nodup := by
  simp [fields]

theorem read_fields {T : TimeText} {p : Pod} (h : p.Valid T) :
    (read T fun name => ((p.fields T).lookup name).join) = some p.norm := by
  have htimes := h.times
  simp only [times, List.mem_cons, List.mem_append, Option.mem_toList, or_imp, forall_and, forall_eq] at htimes
  obtain ⟨hcreated, ⟨⟨hscheduled, hstarted⟩, hfinished⟩, hrunAfter⟩ := htimes
  have hrun : p.runAfter ≠ 0 → T.representable p.runAfter = true := fun h0 => hrunAfter _ (by simp [h0])
  simp [read, fields, norm, List.lookup_cons, readEnum_enum h.status, readTime_time hcreated,
    readPtr_int, readPtr_time hscheduled, readPtr_time hstarted, readPtr_time hfinished, readTime_omitZero hrun]

@[reducible] def codec (J : JsonText) (T : TimeText) : RowCodec J.Raw Pod where
  key := Pod.id
  enc p := marshal J T p.times (p.fields T)
  dec := unmarshal J (read T)
  norm := norm
  Valid := Valid T
  dec_enc p h := unmarshal_marshal J h.times (names_nodup T p) (read_fields h)
  valid_norm _ h := ⟨nodup_normMap h.labels, h.status, h.times⟩
  norm_norm p := by simp [norm]

end Pod

/-! ## Nodes -/

namespace Node

def fields (T : TimeText) (n : Node) : List (String × Option Json) :=
  [("id", some (.str n.id)),
   ("hostname", some (.str n.hostname)),
   ("address", some (.str n.address)),
   ("labels", strMap n.labels),
   ("status", some (enum n.status)),
   ("capacity", some (object (resourceFields n.capacity.cpu n.capacity.memoryMB))),
   ("available", some (object (resourceFields n.available.cpu n.available.memoryMB))),
   ("running_jobs", some (int n.runningJobs)),
   ("max_concurrent_jobs", some (int n.maxConcurrent)),
   ("last_heartbeat_at", some (time T n.lastHeartbeatAt)),
   ("registered_at", some (time T n.registeredAt))]

def read (T : TimeText) (m : String → Option Json) : Option Node := do
  return {
    id := ← readStr (m "id")
    hostname := ← readStr (m "hostname")
    address := ← readStr (m "address")
    labels := ← readStrMap (m "labels")
    status := ← readEnum (m "status")
    capacity := ← readObj ResourceCapacity.read (m "capacity")
    available := ← readObj ResourceCapacity.read (m "available")
    runningJobs := ← readInt (m "running_jobs")
    maxConcurrent := ← readInt (m "max_concurrent_jobs")
    lastHeartbeatAt := ← readTime T (m "last_heartbeat_at")
    registeredAt := ← readTime T (m "registered_at") }

def times (n : Node) : List Time := [n.lastHeartbeatAt, n.registeredAt]

def norm (n : Node) : Node := { n with labels := normMap n.labels }

structure Valid (T : TimeText) (n : Node) : Prop where
  labels : ((entries n.labels).map Prod.fst).Nodup
  status : Canonical n.status
  times : ∀ t ∈ n.times, T.representable t = true

theorem names_nodup (T : TimeText) (n : Node) : ((n.fields T).map Prod.fst).Nodup := by
  simp [fields]

theorem read_fields {T : TimeText} {n : Node} (h : n.Valid T) :
    (read T fun name => ((n.fields T).lookup name).join) = some n.norm := by
  have hheartbeat := readTime_time (h.times n.lastHeartbeatAt (by simp [times]))
  have hregistered := readTime_time (h.times n.registeredAt (by simp [times]))
  simp [read, fields, norm, List.lookup_cons, readEnum_enum h.status, hheartbeat, hregistered]

@[reducible] def codec (J : JsonText) (T : TimeText) : RowCodec J.Raw Node where
  key := Node.id
  enc n := marshal J T n.times (n.fields T)
  dec := unmarshal J (read T)
  norm := norm
  Valid := Valid T
  dec_enc n h := unmarshal_marshal J h.times (names_nodup T n) (read_fields h)
  valid_norm _ h := ⟨nodup_normMap h.labels, h.status, h.times⟩
  norm_norm n := by simp [norm]

end Node

/-! ## Services -/

namespace Service

def fields (T : TimeText) (svc : Service) : List (String × Option Json) :=
  [("id", some (.str svc.id)),
   ("name", some (.str svc.name)),
   ("namespace", some (.str svc.ns)),
   ("path_prefix", some (.str svc.pathPrefix)),
   ("strategy", some (enum svc.strategy)),
   ("selector", strMap svc.selector),
   ("retry_policy", some (object svc.retryPolicy.fields)),
   ("health_check", some (object svc.healthCheck.fields)),
   ("updated_at", some (time T svc.updatedAt))]

def read (T : TimeText) (m : String → Option Json) : Option Service := do
  return {
    id := ← readStr (m "id")
    name := ← readStr (m "name")
    ns := ← readStr (m "namespace")
    pathPrefix := ← readStr (m "path_prefix")
    strategy := ← readEnum (m "strategy")
    selector := ← readStrMap (m "selector")
    retryPolicy := ← readObj RetryPolicy.read (m "retry_policy")
    healthCheck := ← readObj HealthCheckConfig.read (m "health_check")
    updatedAt := ← readTime T (m "updated_at") }

def times (svc : Service) : List Time := [svc.updatedAt]

def norm (svc : Service) : Service := { svc with selector := normMap svc.selector }

structure Valid (T : TimeText) (svc : Service) : Prop where
  selector : ((entries svc.selector).map Prod.fst).Nodup
  strategy : Canonical svc.strategy
  times : ∀ t ∈ svc.times, T.representable t = true

theorem names_nodup (T : TimeText) (svc : Service) : ((svc.fields T).map Prod.fst).Nodup := by
  simp [fields]

theorem read_fields {T : TimeText} {svc : Service} (h : svc.Valid T) :
    (read T fun name => ((svc.fields T).lookup name).join) = some svc.norm := by
  have hupdated := readTime_time (h.times svc.updatedAt (by simp [times]))
  simp [read, fields, norm, List.lookup_cons, readEnum_enum h.strategy, hupdated]

@[reducible] def codec (J : JsonText) (T : TimeText) : RowCodec J.Raw Service where
  key := Service.id
  enc svc := marshal J T svc.times (svc.fields T)
  dec := unmarshal J (read T)
  norm := norm
  Valid := Valid T
  dec_enc svc h := unmarshal_marshal J h.times (names_nodup T svc) (read_fields h)
  valid_norm _ h := ⟨nodup_normMap h.selector, h.strategy, h.times⟩
  norm_norm svc := by simp [norm]

end Service

end ControlPlane
