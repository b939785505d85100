import InfraPlatform.Lib.Prog

/-!
# The reverse proxy

`internal/backend`, `internal/balancer` and `internal/proxy`: backends and the pool, the three strategies that
pick a backend, and `ServeHTTP` with `proxyOnce` as a program over the calls it makes.

A backend is known by its pointer; its flag and counters are kept by that key.  `int` and `uint64` are Lean's
fixed-width integers where the code computes with them; connection and request counts are unbounded.

`newOutboundRequest` never fails, so its error path is left out, as are log lines and the copying of the
body, whose errors are only logged.
-/

namespace Proxy

open Lib

/-! ## Backends and the pool -/

structure Backend where
  /-- stands for the pointer -/
  key : Nat
  name : String
  weight : Int64
  weight_pos : 0 < weight
deriving DecidableEq

/-- A weight that is not positive becomes 1. -/
def Backend.new (key : Nat) (name : String) (weight : Int64) : Backend where
  key := key
  name := name
  weight := if weight ≤ 0 then 1 else weight
  weight_pos := by
    split
    · decide
    · next h => exact Int64.not_le.mp h

/-- A set of backends, in the order of the slice. -/
structure Pool where
  backends : List Backend
  nodup : (backends.map Backend.key).Nodup

/-- The backends marked alive. -/
def Pool.healthy (pool : Pool) (alive : Nat → Bool) : List Backend := pool.backends.filter fun b => alive b.key

/-! ## Strategies

Each picks from a healthy list that is not empty, `b :: rest`; `idx` is the counter before `Add(1)`. -/

inductive Strategy where
  | roundRobin | leastConn | weightedRoundRobin
deriving DecidableEq, Repr

def RoundRobin.pick (idx : UInt64) (b : Backend) (rest : List Backend) : Backend :=
  (b :: rest).get ⟨idx.toNat % (b :: rest).length, Nat.mod_lt _ (Nat.succ_pos _)⟩

def LeastConn.pick (activeConns : Nat → Int) (b : Backend) (rest : List Backend) : Backend :=
  rest.foldl (fun best b => if activeConns b.key < activeConns best.key then b else best) b

def WeightedRoundRobin.totalWeight (healthy : List Backend) : Int64 :=
  healthy.foldl (fun total b => total + b.weight) 0

/-- The walk over the cumulative weights; past them all it is the last backend. -/
def WeightedRoundRobin.walk (pos : Nat) (cumulative : Int64) (b : Backend) : List Backend → Backend
  | [] => b
  | b' :: rest =>
    if pos < (cumulative + b.weight).toUInt64.toNat then b else walk pos (cumulative + b.weight) b' rest

def WeightedRoundRobin.pick (idx : UInt64) (b : Backend) (rest : List Backend) : Backend :=
  if totalWeight (b :: rest) ≤ 0 then RoundRobin.pick idx b rest
  else walk (idx.toNat % (totalWeight (b :: rest)).toUInt64.toNat) 0 b rest

/-- `Next`: the backend, where `none` is `ErrNoHealthyBackends`, and the counter after it. -/
def Strategy.next (strategy : Strategy) (healthy : List Backend) (activeConns : Nat → Int) (counter : UInt64) :
    Option Backend × UInt64 :=
  match healthy with
  | [] => (none, counter)
  | b :: rest =>
    match strategy with
    | .roundRobin => (some (RoundRobin.pick counter b rest), counter + 1)
    | .leastConn => (some (LeastConn.pick activeConns b rest), counter)
    | .weightedRoundRobin => (some (WeightedRoundRobin.pick counter b rest), counter + 1)

/-! ## The handler -/

/-- A status that `client.Do` returns; it keeps the other 1xx responses to itself.  That a backend sends no code below
100 is an assumption: `net/http` would pass it on, and `w.WriteHeader` would panic on it. -/
structure Status where
  code : Nat
  valid : code = 101 ∨ 200 ≤ code ∧ code ≤ 999
deriving DecidableEq

/-- What `client.Do` comes back with. -/
inductive Outcome where
  | response (status : Status)
  /-- a `net.Error` with `Timeout()` -/
  | timeout
  | failure
deriving DecidableEq

inductive Call where
  | next
  | clientDo (b : Backend)
  /-- `w.WriteHeader` with the upstream's status, headers and body -/
  | writeHeader (code : Nat)
  /-- `http.Error` -/
  | error (text : String) (code : Nat)
  /-- a backend's own counters -/
  | incConnections (b : Backend)
  | decConnections (b : Backend)
  | activeConnections (b : Backend)
  | incRequests (b : Backend)
  | incErrors (b : Backend)
  /-- the registry's -/
  | observeRequest
  | incRetries
  | incBackendRequests (name : String)
  | incBackendErrors (name : String)
  | setBackendActiveConnections (name : String) (n : Int)

abbrev Resp : Call → Type
  | .next => Option Backend
  | .clientDo _ => Outcome
  | .activeConnections _ => Int
  | _ => Unit

abbrev M := Prog Call Resp

def balancerNext : M (Option Backend) := Prog.op Call.next
def clientDo (b : Backend) : M Outcome := Prog.op (Call.clientDo b)
def writeHeader (code : Nat) : M Unit := Prog.op (Call.writeHeader code)
def httpError (text : String) (code : Nat) : M Unit := Prog.op (Call.error text code)

namespace Backend

def incConnections (b : Backend) : M Unit := Prog.op (Call.incConnections b)
def decConnections (b : Backend) : M Unit := Prog.op (Call.decConnections b)
def activeConnections (b : Backend) : M Int := Prog.op (Call.activeConnections b)
def incRequests (b : Backend) : M Unit := Prog.op (Call.incRequests b)
def incErrors (b : Backend) : M Unit := Prog.op (Call.incErrors b)

end Backend

namespace Metrics

def observeRequest : M Unit := Prog.op Call.observeRequest
def incRetries : M Unit := Prog.op Call.incRetries
def incBackendRequests (name : String) : M Unit := Prog.op (Call.incBackendRequests name)
def incBackendErrors (name : String) : M Unit := Prog.op (Call.incBackendErrors name)

/-- The gauge is set to what the backend counts. -/
def setBackendActiveConnections (b : Backend) : M Unit := do
  let n ← b.activeConnections
  Prog.op (Call.setBackendActiveConnections b.name n)

end Metrics

/-- One forward to `b`; the answer is the status for the client if the attempt failed. -/
def proxyOnce (b : Backend) : M (Option Nat) := do
  b.incConnections
  b.incRequests
  Metrics.incBackendRequests b.name
  Metrics.setBackendActiveConnections b
  let failed ←
    match ← clientDo b with
    | .response status => do
      writeHeader status.code
      pure none
    | .timeout => do
      b.incErrors
      Metrics.incBackendErrors b.name
      pure (some 504)
    | .failure => do
      b.incErrors
      Metrics.incBackendErrors b.name
      pure (some 502)
  -- the deferred function
  b.decConnections
  Metrics.setBackendActiveConnections b
  pure failed

def idempotentMethods (method : String) : Bool := method == "GET" || method == "HEAD" || method == "OPTIONS"

/-- `http.StatusText` of the statuses that `proxyOnce` fails with. -/
def statusText : Nat → String
  | 502 => "Bad Gateway"
  | 504 => "Gateway Timeout"
  | _ => ""

/-- The end of `ServeHTTP`, after the loop. -/
def giveUp (lastStatus : Nat) : M Unit :=
  if lastStatus ≠ 0 then httpError (statusText lastStatus) lastStatus else httpError "502 Bad Gateway" 502

/-- The loop of `ServeHTTP` with the iterations that are left, `attempts - attempt`. -/
def attemptLoop (canRetry : Bool) : Nat → Nat → M Unit
  | 0, lastStatus => giveUp lastStatus
  | left + 1, _ => do
    match ← balancerNext with
    | none => httpError "503 Service Unavailable" 503
    | some b =>
      match ← proxyOnce b with
      | none => pure ()
      | some status =>
        if !canRetry || left == 0 then giveUp status
        else do
          Metrics.incRetries
          attemptLoop canRetry left status

def serveHTTP (maxRetries : Int64) (method : String) : M Unit := do
  attemptLoop (idempotentMethods method) (maxRetries + 1).toInt.toNat 0
  Metrics.observeRequest

end Proxy
