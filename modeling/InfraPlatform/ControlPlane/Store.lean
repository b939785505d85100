import InfraPlatform.Lib.Table
import InfraPlatform.Lib.Prog
import InfraPlatform.ControlPlane.Model

/-!
# The state store

`internal/state`: the store's four tables, its operations as `MemoryStore`
computes them, and the calls that handlers and loops make on it.

A handler is a `Prog Call Resp`: one `Call` for each use of the `state.Store`
interface, of the clock (`now`) and of `crypto/rand` (`randRead`).  `Exec` is
what a call may do.  Everything is fixed by the store except the order in which
a listing enumerates the rows, the clock and the random bytes.
`Store.exec` is one choice of those three, for evaluation.
-/

namespace ControlPlane

open Lib

inductive StoreErr where
  | notFound | alreadyExists | invalidTransition
deriving DecidableEq, Repr

def StoreErr.text : StoreErr → String
  | .notFound => "not found"
  | .alreadyExists => "already exists"
  | .invalidTransition => "invalid state transition"

structure Store where
  deployments : Table Deployment.id := .empty
  pods : Table Pod.id := .empty
  nodes : Table Node.id := .empty
  services : Table Service.id := .empty

abbrev Res := Except StoreErr Unit

/-! ## Operations -/

namespace Store

variable (s : Store)

/-! `sync.Map.Store` under the record's own ID -/

def putDeployment (d : Deployment) : Store := { s with deployments := s.deployments.put d }

def putPod (p : Pod) : Store := { s with pods := s.pods.put p }

def putNode (n : Node) : Store := { s with nodes := s.nodes.put n }

def putService (svc : Service) : Store := { s with services := s.services.put svc }

/-! `MemoryStore`'s methods -/

def createDeployment (d : Deployment) : Res × Store :=
  if (s.deployments.get d.id).isSome then (.error .alreadyExists, s)
  else (.ok (), s.putDeployment d)

def getDeployment (id : String) : Except StoreErr Deployment :=
  match s.deployments.get id with
  | none => .error .notFound
  | some d => .ok d

/-- The record `TransitionDeployment` stores. -/
def moveDeployment (d : Deployment) (dest : DeploymentStatus) (now : Time) : Deployment :=
  { d with status := dest, updatedAt := now }

def transitionDeployment (id : String) (dest : DeploymentStatus) (now : Time) : Res × Store :=
  match s.deployments.get id with
  | none => (.error .notFound, s)
  | some d =>
    if ControlPlane.transitionDeployment d.status dest then
      (.ok (), s.putDeployment (moveDeployment d dest now))
    else (.error .invalidTransition, s)

def createPod (p : Pod) : Res × Store :=
  if (s.pods.get p.id).isSome then (.error .alreadyExists, s)
  else (.ok (), s.putPod p)

def getPod (id : String) : Except StoreErr Pod :=
  match s.pods.get id with
  | none => .error .notFound
  | some p => .ok p

/-- Overwrites the stored pod wholesale. -/
def updatePod (p : Pod) : Res × Store :=
  if (s.pods.get p.id).isSome then (.ok (), s.putPod p)
  else (.error .notFound, s)

def isTerminalPodStatus : PodStatus → Bool
  | .succeeded | .deadLetter | .cancelled => true
  | _ => false

/-- The record `TransitionPod` stores: the new status, the error text unless it
is empty, and the timestamp of a first arrival. -/
def movePod (p : Pod) (dest : PodStatus) (errMsg : String) (now : Time) : Pod :=
  { p with
    status := dest
    error := if errMsg ≠ "" then errMsg else p.error
    scheduledAt := if dest = .scheduled ∧ p.scheduledAt = none then some now else p.scheduledAt
    startedAt := if dest = .running ∧ p.startedAt = none then some now else p.startedAt
    finishedAt := if isTerminalPodStatus dest ∧ p.finishedAt = none then some now else p.finishedAt }

/-- Validates and applies a status transition. -/
def transitionPod (id : String) (dest : PodStatus) (errMsg : String) (now : Time) : Res × Store :=
  match s.pods.get id with
  | none => (.error .notFound, s)
  | some p =>
    if ControlPlane.transitionPod p.status dest then
      (.ok (), s.putPod (movePod p dest errMsg now))
    else (.error .invalidTransition, s)

def registerNode (n : Node) : Res × Store :=
  if (s.nodes.get n.id).isSome then (.error .alreadyExists, s)
  else (.ok (), s.putNode n)

def getNode (id : String) : Except StoreErr Node :=
  match s.nodes.get id with
  | none => .error .notFound
  | some n => .ok n

/-- Overwrites the stored node wholesale. -/
def updateNode (n : Node) : Res × Store :=
  if (s.nodes.get n.id).isSome then (.ok (), s.putNode n)
  else (.error .notFound, s)

def transitionNode (id : String) (dest : NodeStatus) : Res × Store :=
  match s.nodes.get id with
  | none => (.error .notFound, s)
  | some n =>
    if ControlPlane.transitionNode n.status dest then
      (.ok (), s.putNode (n.withStatus dest))
    else (.error .invalidTransition, s)

def upsertService (svc : Service) (now : Time) : Res × Store :=
  (.ok (), s.putService { svc with updatedAt := now })

def getService (id : String) : Except StoreErr Service :=
  match s.services.get id with
  | none => .error .notFound
  | some svc => .ok svc

def deleteService (id : String) : Res × Store :=
  if (s.services.get id).isSome then (.ok (), { s with services := s.services.erase id })
  else (.error .notFound, s)

end Store

/-! ## Calls -/

inductive Call where
  | createDeployment (d : Deployment)
  | getDeployment (id : String)
  | listDeployments
  | transitionDeployment (id : String) (dest : DeploymentStatus) (now : Time)
  | createPod (p : Pod)
  | getPod (id : String)
  | listPodsByDeployment (deploymentID : String)
  | listPodsByStatus (status : PodStatus)
  | listPodsByNode (nodeID : String)
  | updatePod (p : Pod)
  | transitionPod (id : String) (dest : PodStatus) (errMsg : String) (now : Time)
  | registerNode (n : Node)
  | getNode (id : String)
  | listNodes
  | updateNode (n : Node)
  | transitionNode (id : String) (dest : NodeStatus)
  | upsertService (svc : Service) (now : Time)
  | getService (id : String)
  | deleteService (id : String)
  | now
  | randRead
deriving DecidableEq

def Call.onServices : Call → Bool
  | .upsertService .. | .deleteService _ => true
  | _ => false

/-- The four bytes `rand.Read` fills in, or its error. -/
abbrev RandBytes := Option (UInt8 × UInt8 × UInt8 × UInt8)

@[reducible] def Resp : Call → Type
  | .getDeployment _ => Except StoreErr Deployment
  | .listDeployments => Except StoreErr (List Deployment)
  | .getPod _ => Except StoreErr Pod
  | .listPodsByDeployment _ | .listPodsByStatus _ | .listPodsByNode _ => Except StoreErr (List Pod)
  | .getNode _ => Except StoreErr Node
  | .listNodes => Except StoreErr (List Node)
  | .getService _ => Except StoreErr Service
  | .now => Time
  | .randRead => RandBytes
  | _ => Res

/-- `MemoryStore` lists the rows that satisfy `f` in an order it does not promise, and never fails. -/
def Lists {α : Type} (rows : List α) (f : α → Bool) (r : Except StoreErr (List α)) : Prop :=
  ∃ l, r = .ok l ∧ l.Perm (rows.filter f)

/-- What each call may answer and leave behind. -/
def Exec : Effect Call Resp Store
  | .createDeployment d, s, r, s' => (r, s') = s.createDeployment d
  | .getDeployment id, s, r, s' => r = s.getDeployment id ∧ s' = s
  | .listDeployments, s, r, s' => Lists s.deployments.rows (fun _ => true) r ∧ s' = s
  | .transitionDeployment id dest now, s, r, s' => (r, s') = s.transitionDeployment id dest now
  | .createPod p, s, r, s' => (r, s') = s.createPod p
  | .getPod id, s, r, s' => r = s.getPod id ∧ s' = s
  | .listPodsByDeployment d, s, r, s' => Lists s.pods.rows (fun p => p.deploymentID = d) r ∧ s' = s
  | .listPodsByStatus st, s, r, s' => Lists s.pods.rows (fun p => p.status = st) r ∧ s' = s
  | .listPodsByNode n, s, r, s' => Lists s.pods.rows (fun p => p.nodeID = n) r ∧ s' = s
  | .updatePod p, s, r, s' => (r, s') = s.updatePod p
  | .transitionPod id dest msg now, s, r, s' => (r, s') = s.transitionPod id dest msg now
  | .registerNode n, s, r, s' => (r, s') = s.registerNode n
  | .getNode id, s, r, s' => r = s.getNode id ∧ s' = s
  | .listNodes, s, r, s' => Lists s.nodes.rows (fun _ => true) r ∧ s' = s
  | .updateNode n, s, r, s' => (r, s') = s.updateNode n
  | .transitionNode id dest, s, r, s' => (r, s') = s.transitionNode id dest
  | .upsertService svc now, s, r, s' => (r, s') = s.upsertService svc now
  | .getService id, s, r, s' => r = s.getService id ∧ s' = s
  | .deleteService id, s, r, s' => (r, s') = s.deleteService id
  | .now, s, _, s' => s' = s
  | .randRead, s, _, s' => s' = s

/-- The programs that handlers and loops are. -/
abbrev M := Prog Call Resp

def ask (c : Call) : M (Resp c) := Prog.op c

/-- One choice of the open answers: rows in table order, the clock at `clock`,
random bytes that count the rows (so that generated IDs are new). -/
def Store.exec (clock : Time) : (c : Call) → Store → Resp c × Store
  | .createDeployment d, s => s.createDeployment d
  | .getDeployment id, s => (s.getDeployment id, s)
  | .listDeployments, s => (.ok s.deployments.rows, s)
  | .transitionDeployment id dest now, s => s.transitionDeployment id dest now
  | .createPod p, s => s.createPod p
  | .getPod id, s => (s.getPod id, s)
  | .listPodsByDeployment d, s => (.ok (s.pods.rows.filter fun p => p.deploymentID = d), s)
  | .listPodsByStatus st, s => (.ok (s.pods.rows.filter fun p => p.status = st), s)
  | .listPodsByNode n, s => (.ok (s.pods.rows.filter fun p => p.nodeID = n), s)
  | .updatePod p, s => s.updatePod p
  | .transitionPod id dest msg now, s => s.transitionPod id dest msg now
  | .registerNode n, s => s.registerNode n
  | .getNode id, s => (s.getNode id, s)
  | .listNodes, s => (.ok s.nodes.rows, s)
  | .updateNode n, s => s.updateNode n
  | .transitionNode id dest, s => s.transitionNode id dest
  | .upsertService svc now, s => s.upsertService svc now
  | .getService id, s => (s.getService id, s)
  | .deleteService id, s => s.deleteService id
  | .now, s => (clock, s)
  | .randRead, s =>
    (some (0, 0, 0, (s.pods.rows.length + s.nodes.rows.length + s.deployments.rows.length).toUInt8), s)

theorem exec_allowed (clock : Time) (c : Call) (s : Store) :
    Exec c s (s.exec clock c).1 (s.exec clock c).2 := by
  cases c <;> first | rfl | exact ⟨rfl, rfl⟩ | exact ⟨⟨_, rfl, by simp⟩, rfl⟩

/-! ## The store interface as programs -/

namespace State

def createDeployment (d : Deployment) : M Res := ask (.createDeployment d)

def getDeployment (id : String) : M (Except StoreErr Deployment) := ask (.getDeployment id)

def listDeployments : M (Except StoreErr (List Deployment)) := ask .listDeployments

/-- The store reads the clock itself. -/
def transitionDeployment (id : String) (dest : DeploymentStatus) : M Res := do
  let now ← ask .now
  ask (.transitionDeployment id dest now)

def createPod (p : Pod) : M Res := ask (.createPod p)

def getPod (id : String) : M (Except StoreErr Pod) := ask (.getPod id)

def listPodsByDeployment (deploymentID : String) : M (Except StoreErr (List Pod)) :=
  ask (.listPodsByDeployment deploymentID)

def listPodsByStatus (status : PodStatus) : M (Except StoreErr (List Pod)) := ask (.listPodsByStatus status)

def listPodsByNode (nodeID : String) : M (Except StoreErr (List Pod)) := ask (.listPodsByNode nodeID)

def updatePod (p : Pod) : M Res := ask (.updatePod p)

def transitionPod (id : String) (dest : PodStatus) (errMsg : String) : M Res := do
  let now ← ask .now
  ask (.transitionPod id dest errMsg now)

def registerNode (n : Node) : M Res := ask (.registerNode n)

def getNode (id : String) : M (Except StoreErr Node) := ask (.getNode id)

def listNodes : M (Except StoreErr (List Node)) := ask .listNodes

def updateNode (n : Node) : M Res := ask (.updateNode n)

def transitionNode (id : String) (dest : NodeStatus) : M Res := ask (.transitionNode id dest)

def upsertService (svc : Service) : M Res := do
  let now ← ask .now
  ask (.upsertService svc now)

def getService (id : String) : M (Except StoreErr Service) := ask (.getService id)

def deleteService (id : String) : M Res := ask (.deleteService id)

end State

/-- `time.Now()` -/
def timeNow : M Time := ask .now

/-- `rand.Read` into four bytes -/
def randRead : M RandBytes := ask .randRead

def hexDigit (n : Nat) : Char := if n < 10 then Char.ofNat (48 + n) else Char.ofNat (87 + n)

/-- `hex.EncodeToString` -/
def hexEncode (bytes : List UInt8) : String :=
  String.ofList (bytes.flatMap fun b => [hexDigit (b.toNat / 16), hexDigit (b.toNat % 16)])

def idOf (kind : String) (b : UInt8 × UInt8 × UInt8 × UInt8) : String :=
  kind ++ "_" ++ hexEncode [b.1, b.2.1, b.2.2.1, b.2.2.2]

/-- `generateID`, and `newPodID` at `"pod"` -/
def generateID (kind : String) : M (Option String) := do
  let b ← randRead
  pure (b.map (idOf kind))

end ControlPlane
