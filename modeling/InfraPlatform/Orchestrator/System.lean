import Mathlib.Data.List.Sort
import InfraPlatform.Lib.Run
import InfraPlatform.Orchestrator.Model

/-!
# The orchestrator's goroutines

`internal/scheduler`, `internal/worker`, `internal/executor` and the handlers of
`internal/api` that write, as one transition system before shutdown.  A goroutine is where
it stands in its function, with the local variables that are still needed there; a step is
one store call, one channel operation, one use of the map of cancel functions or of a context.

* Scheduler: one goroutine, the loop of `scheduleReady`.
* Workers: any number of them, each receiving from the queue and in `Executor.Run`.
* Requests: each `POST /jobs` and `DELETE /jobs/id` has a goroutine of its own.

Actions carry what the code does not decide: clock readings, random bytes, the order of a
listing, how a subprocess ends, when a deadline fires.  A channel of capacity 0 is covered by
`handoff`, the send that meets a waiting receiver.

Left out: metrics (`Metrics` adds them), the requests that only read, and that `ListByState` walks the map
while others write (it is one store call here).
-/

namespace Orchestrator

open Lib
open ControlPlane (Time)

/-! ## Contexts and what is shared -/

inductive CtxErr where
  | canceled | deadlineExceeded
deriving DecidableEq, Repr

/-- The context of a run; `timed` if it has a deadline. -/
structure Ctx where
  timed : Bool := false
  err : Option CtxErr := none
deriving DecidableEq, Repr

/-- The first of cancel and deadline decides `ctx.Err()`. -/
def Ctx.finish (c : Ctx) (e : CtxErr) : Ctx := if c.err = none then { c with err := some e } else c

structure Shared where
  store : Store := {}
  queue : List Job := []
  /-- job ID to the context that its `CancelFunc` cancels -/
  cancels : String → Option Nat := fun _ => none
  ctxs : List Ctx := []

namespace Shared

variable (sh : Shared)

/-- `ctx.Err()` -/
def err (ctx : Nat) : Option CtxErr := (sh.ctxs[ctx]?).bind Ctx.err

def endCtx (ctx : Nat) (e : CtxErr) : Shared := { sh with ctxs := sh.ctxs.modify ctx fun c => c.finish e }

def write (out : Res × Store) : Shared := { sh with store := out.2 }

end Shared

/-! ## The scheduler -/

/-- In the loop of `scheduleReady` with the jobs still to dispatch (none: between passes), or at the
dispatch of one job. -/
inductive Scheduler where
  | loop (ready : List Job)
  | sending (job : Job) (rest : List Job)
  | reverting (job : Job) (rest : List Job)
deriving DecidableEq

def isReady (now : Time) (j : Job) : Bool := j.runAfter.isZero || j.runAfter < now

/-- The order of dispatch: higher priority first, then earlier creation. -/
def precedes (a b : Job) : Bool :=
  if a.priority ≠ b.priority then a.priority > b.priority else a.createdAt < b.createdAt

/-- The listing comes in any order, so a stable sort covers what `sort.Slice` may do. -/
def sortReady (ready : List Job) : List Job := ready.insertionSort fun a b => precedes b a = false

inductive SchedAct where
  /-- `ListByState` gives `rows`, `time.Now` gives `now` -/
  | list (rows : List Job) (now : Time)
  | queue (now : Time)
  | send
  | full
  | revert (now : Time)

def Scheduler.act (cap : Nat) (sh : Shared) : Scheduler → SchedAct → Option (Scheduler × Shared)
  | .loop [], .list rows now =>
    if rows.Perm (sh.store.listByState .pending) then some (.loop (sortReady (rows.filter (isReady now))), sh)
    else none
  | .loop (j :: rest), .queue now =>
    match sh.store.transition j.id .queued "" now with
    | (.error _, _) => some (.loop rest, sh)
    | (.ok (), store) => some (.sending j rest, { sh with store })
  | .sending j rest, .send =>
    if sh.queue.length < cap then some (.loop rest, { sh with queue := sh.queue ++ [j] }) else none
  | .sending j rest, .full => if cap ≤ sh.queue.length then some (.reverting j rest, sh) else none
  | .reverting j rest, .revert now => some (.loop rest, sh.write (sh.store.transition j.id .pending "" now))
  | _, _ => none

/-! ## Workers and `Executor.Run` -/

inductive Worker where
  /-- at the receive -/
  | idle
  /-- about to write `RUNNING` -/
  | fetched (job : Job)
  /-- about to make the context and register its cancel function -/
  | claimed (job : Job)
  /-- about to start the subprocess -/
  | registered (job : Job) (ctx : Nat)
  /-- the subprocess runs -/
  | executing (job : Job) (ctx : Nat)
  /-- about to store the output -/
  | ended (job : Job) (ctx : Nat) (runErr : Option String) (output : String)
  /-- at the first case of the switch -/
  | judging (job : Job) (ctx : Nat) (runErr : Option String)
  /-- at the second case of the switch -/
  | judgingDeadline (job : Job) (ctx : Nat) (runErr : Option String)
  | cancelling (job : Job) (ctx : Nat)
  | completing (job : Job) (ctx : Nat)
  /-- in `failOrRetry`: about to write `FAILED`, to read the job, to write its retry or its end -/
  | failing (job : Job) (ctx : Nat) (errMsg : String)
  | failed (job : Job) (ctx : Nat)
  | retrying (job : Job) (ctx : Nat) (current : Job)
  /-- in the deferred function: about to delete the cancel function, to call it -/
  | leaving (job : Job) (ctx : Nat)
  | left (ctx : Nat)
deriving DecidableEq

inductive WorkerAct where
  | step (now : Time)
  /-- the subprocess starts, cannot be started, ends -/
  | spawn
  | refuse (err : String)
  | exit (runErr : Option String) (output : String)

def Worker.act (sh : Shared) : Worker → WorkerAct → Option (Worker × Shared)
  | .fetched job, .step now =>
    match sh.store.transition job.id .running "" now with
    | (.error _, _) => some (.idle, sh)
    | (.ok (), store) => some (.claimed job, { sh with store })
  | .claimed job, .step _ =>
    some (.registered job sh.ctxs.length,
      { sh with
        ctxs := sh.ctxs ++ [{ timed := job.timeoutSeconds > 0 }]
        cancels := Function.update sh.cancels job.id (some sh.ctxs.length) })
  -- a context that is done keeps the subprocess from starting
  | .registered job ctx, .spawn => if sh.err ctx = none then some (.executing job ctx, sh) else none
  | .registered job ctx, .refuse err => some (.ended job ctx (some err) "", sh)
  | .executing job ctx, .exit runErr output => some (.ended job ctx runErr output, sh)
  | .ended job ctx runErr output, .step _ =>
    some (.judging job ctx runErr, sh.write (sh.store.setOutput job.id output))
  | .judging job ctx runErr, .step _ =>
    if sh.err ctx = some .canceled then some (.cancelling job ctx, sh) else some (.judgingDeadline job ctx runErr, sh)
  | .judgingDeadline job ctx runErr, .step _ =>
    if sh.err ctx = some .deadlineExceeded then some (.failing job ctx "timeout", sh)
    else match runErr with
      | some err => some (.failing job ctx err, sh)
      | none => some (.completing job ctx, sh)
  | .cancelling job ctx, .step now =>
    some (.leaving job ctx, sh.write (sh.store.transition job.id .cancelled "cancelled by user" now))
  | .completing job ctx, .step now =>
    some (.leaving job ctx, sh.write (sh.store.transition job.id .completed "" now))
  | .failing job ctx errMsg, .step now =>
    match sh.store.transition job.id .failed errMsg now with
    | (.error _, _) => some (.leaving job ctx, sh)
    | (.ok (), store) => some (.failed job ctx, { sh with store })
  | .failed job ctx, .step _ =>
    match sh.store.get job.id with
    | .error _ => some (.leaving job ctx, sh)
    | .ok current => some (.retrying job ctx current, sh)
  | .retrying job ctx current, .step now =>
    if current.retryCount < current.maxRetries then
      some (.leaving job ctx, sh.write (sh.store.update (scheduleRetry current now)))
    else some (.leaving job ctx, sh.write (sh.store.transition job.id .exhausted "" now))
  | .leaving job ctx, .step _ => some (.left ctx, { sh with cancels := Function.update sh.cancels job.id none })
  | .left ctx, .step _ => some (.idle, sh.endCtx ctx .canceled)
  | _, _ => none

/-! ## Requests -/

inductive Body where
  | error (msg : String)
  /-- the job's ID and state; `none` is the empty state of a job that was not found -/
  | state (id : String) (state : Option State)
  | created (id : String) (state : State) (createdAt : Time)
deriving DecidableEq, Repr

structure Response where
  code : Nat
  body : Body
  location : String := ""
deriving DecidableEq, Repr

def writeJSONError (code : Nat) (msg : String) : Response := { code, body := .error msg }

structure SubmitJobRequest where
  name : String := ""
  type : String := ""
  command : String := ""
  args : List String := []
  timeoutSeconds : Int := 0
  maxRetries : Int := 0
  priority : Int := 0
deriving DecidableEq, Repr

def maxIDAttempts : Nat := 5

/-- The three bytes `rand.Read` fills in, or its error. -/
abbrev RandBytes := Option (UInt8 × UInt8 × UInt8)

def idOf (b : UInt8 × UInt8 × UInt8) : String := "job_" ++ ControlPlane.hexEncode [b.1, b.2.1, b.2.2]

def newJob (req : SubmitJobRequest) (id : String) (now : Time) : Job :=
  { id, name := req.name, type := req.type, command := req.command, args := req.args, state := .pending,
    priority := req.priority, maxRetries := req.maxRetries, timeoutSeconds := req.timeoutSeconds, createdAt := now }

inductive Request where
  /-- `SubmitJob`: about to try an ID, to read the job, done -/
  | submitting (req : SubmitJobRequest) (attempts : Nat)
  | created (id : String)
  | submitted (resp : Response)
  /-- `CancelJob`: about to read the job -/
  | requested (id : String)
  /-- the job was running: about to load its cancel function, to call it, waiting for `CANCELLED` -/
  | loading (id : String) (job : Job)
  | calling (id : String) (job : Job) (ctx : Nat)
  | waiting (id : String) (job : Job)
  /-- the job was pending or queued: about to write `CANCELLED`, to read the job -/
  | cancelling (id : String)
  | confirming (id : String)
  /-- about to answer with the job, done -/
  | answering (id : String) (job : Option Job)
  | answered (id : String) (resp : Response)
deriving DecidableEq

/-- `SubmitJob` up to its first store call; `none` is a body that does not decode. -/
def submitJob : Option SubmitJobRequest → Request
  | none => .submitted (writeJSONError 400 "invalid JSON body")
  | some req =>
    if req.name = "" ∨ req.command = "" then .submitted (writeJSONError 400 "name and command are required")
    else .submitting req maxIDAttempts

/-- The switch of `CancelJob`. -/
def cancelJob (id : String) (job : Job) : Request :=
  match job.state with
  | .completed | .failed | .exhausted | .cancelled =>
    .answered id (writeJSONError 409 ("job already in terminal state " ++ job.state.text))
  | .running => .loading id job
  | .pending | .queued => .cancelling id

inductive RequestAct where
  | step (now : Time) (rand : RandBytes)
  /-- the two seconds that `CancelJob` waits are over -/
  | expire

def Request.act (sh : Shared) : Request → RequestAct → Option (Request × Shared)
  | .submitting _ 0, .step _ _ => some (.submitted (writeJSONError 500 "failed to allocate a unique job id"), sh)
  | .submitting req (attempts + 1), .step now rand =>
    match rand with
    | none => some (.submitted (writeJSONError 500 "failed to generate job id"), sh)
    | some b =>
      match sh.store.create (newJob req (idOf b) now) with
      | (.ok (), store) => some (.created (idOf b), { sh with store })
      | (.error _, _) => some (.submitting req attempts, sh)
  | .created id, .step _ _ =>
    match sh.store.get id with
    | .error _ => some (.submitted (writeJSONError 500 "job vanished after creation"), sh)
    | .ok job =>
      some (.submitted
        { code := 201, body := .created job.id job.state job.createdAt, location := "/jobs/" ++ id }, sh)
  | .requested id, .step _ _ =>
    match sh.store.get id with
    | .error _ => some (.answered id (writeJSONError 404 "job not found"), sh)
    | .ok job => some (cancelJob id job, sh)
  | .loading id job, .step _ _ =>
    match sh.cancels id with
    | some ctx => some (.calling id job ctx, sh)
    | none => some (.waiting id job, sh)
  | .calling id job ctx, .step _ _ => some (.waiting id job, sh.endCtx ctx .canceled)
  | .waiting id job, .step _ _ =>
    match sh.store.get id with
    | .error _ => some (.waiting id job, sh)
    | .ok current =>
      if current.state = .cancelled then some (.answering id (some current), sh) else some (.waiting id job, sh)
  | .waiting id job, .expire => some (.answering id (some job), sh)
  | .cancelling id, .step now _ =>
    match sh.store.transition id .cancelled "cancelled by user" now with
    | (.error err, _) => some (.answered id (writeJSONError 409 err.text), sh)
    | (.ok (), store) => some (.confirming id, { sh with store })
  | .confirming id, .step _ _ => some (.answering id (sh.store.get id).toOption, sh)
  | .answering id job, .step _ _ =>
    some (.answered id { code := 200, body := .state ((job.map Job.id).getD "") (job.map Job.state) }, sh)
  | _, _ => none

/-! ## The system -/

structure Sys where
  shared : Shared := {}
  sched : Scheduler := .loop []
  workers : List Worker
  requests : List Request := []

inductive Action where
  | schedule (a : SchedAct)
  | work (w : Nat) (a : WorkerAct)
  /-- worker `w` receives the head of the queue, or a job straight from the scheduler -/
  | receive (w : Nat)
  | handoff (w : Nat)
  | deadline (ctx : Nat)
  | submit (body : Option SubmitJobRequest)
  | delete (id : String)
  | request (h : Nat) (a : RequestAct)

namespace Sys

def act (cap : Nat) (σ : Sys) : Action → Option Sys
  | .schedule a => (σ.sched.act cap σ.shared a).map fun out => { σ with sched := out.1, shared := out.2 }
  | .work w a => do
    let pc ← σ.workers[w]?
    let out ← pc.act σ.shared a
    pure { σ with workers := σ.workers.set w out.1, shared := out.2 }
  | .receive w =>
    match σ.workers[w]?, σ.shared.queue with
    | some .idle, job :: rest =>
      some { σ with workers := σ.workers.set w (.fetched job), shared := { σ.shared with queue := rest } }
    | _, _ => none
  | .handoff w =>
    match σ.workers[w]?, σ.sched, σ.shared.queue with
    | some .idle, .sending job rest, [] =>
      some { σ with workers := σ.workers.set w (.fetched job), sched := .loop rest }
    | _, _, _ => none
  | .deadline ctx =>
    match σ.shared.ctxs[ctx]? with
    | some ⟨true, _⟩ => some { σ with shared := σ.shared.endCtx ctx .deadlineExceeded }
    | _ => none
  | .submit body => some { σ with requests := σ.requests ++ [submitJob body] }
  | .delete id => some { σ with requests := σ.requests ++ [.requested id] }
  | .request h a => do
    let pc ← σ.requests[h]?
    let out ← pc.act σ.shared a
    pure { σ with requests := σ.requests.set h out.1, shared := out.2 }

def Next (cap : Nat) (σ : Sys) (a : Action) (σ' : Sys) : Prop := σ.act cap a = some σ'

/-- What each action needs and leaves behind. -/
inductive Acted (cap : Nat) (σ : Sys) : Action → Sys → Prop where
  | schedule {a : SchedAct} {pc : Scheduler} {sh : Shared} : σ.sched.act cap σ.shared a = some (pc, sh) →
      Acted cap σ (.schedule a) { σ with sched := pc, shared := sh }
  | work {w : Nat} {a : WorkerAct} {pc pc' : Worker} {sh : Shared} : σ.workers[w]? = some pc →
      pc.act σ.shared a = some (pc', sh) →
      Acted cap σ (.work w a) { σ with workers := σ.workers.set w pc', shared := sh }
  | receive {w : Nat} {job : Job} {rest : List Job} : σ.workers[w]? = some .idle → σ.shared.queue = job :: rest →
      Acted cap σ (.receive w)
        { σ with workers := σ.workers.set w (.fetched job), shared := { σ.shared with queue := rest } }
  | handoff {w : Nat} {job : Job} {rest : List Job} : σ.workers[w]? = some .idle → σ.sched = .sending job rest →
      Acted cap σ (.handoff w) { σ with workers := σ.workers.set w (.fetched job), sched := .loop rest }
  | deadline {ctx : Nat} : Acted cap σ (.deadline ctx) { σ with shared := σ.shared.endCtx ctx .deadlineExceeded }
  | submit (body : Option SubmitJobRequest) :
      Acted cap σ (.submit body) { σ with requests := σ.requests ++ [submitJob body] }
  | delete (id : String) : Acted cap σ (.delete id) { σ with requests := σ.requests ++ [.requested id] }
  | request {i : Nat} {a : RequestAct} {pc pc' : Request} {sh : Shared} : σ.requests[i]? = some pc →
      pc.act σ.shared a = some (pc', sh) →
      Acted cap σ (.request i a) { σ with requests := σ.requests.set i pc', shared := sh }

theorem Next.acted {cap : Nat} {σ σ' : Sys} {a : Action} (h : σ.Next cap a σ') : Acted cap σ a σ' := by
  unfold Next act at h
  cases a with
  | schedule a =>
    obtain ⟨⟨pc, sh⟩, hact, rfl⟩ := Option.map_eq_some_iff.mp h
    exact .schedule hact
  | work w a =>
    obtain ⟨pc, hw, h⟩ := Option.bind_eq_some_iff.mp h
    obtain ⟨⟨pc', sh⟩, hact, h⟩ := Option.bind_eq_some_iff.mp h
    cases h
    exact .work hw hact
  | receive w =>
    simp only at h
    split at h
    · next hw hqueue => cases h; exact .receive hw hqueue
    · cases h
  | handoff w =>
    simp only at h
    split at h
    · next hw hsched _ => cases h; exact .handoff hw hsched
    · cases h
  | deadline ctx =>
    simp only at h
    split at h <;> cases h
    exact .deadline
  | submit body => cases h; exact .submit body
  | delete id => cases h; exact .delete id
  | request i a =>
    obtain ⟨pc, hi, h⟩ := Option.bind_eq_some_iff.mp h
    obtain ⟨⟨pc', sh⟩, hact, h⟩ := Option.bind_eq_some_iff.mp h
    cases h
    exact .request hi hact

theorem Next.schedule {cap : Nat} {σ σ' : Sys} {b : SchedAct} (h : σ.Next cap (.schedule b) σ') :
    σ.sched.act cap σ.shared b = some (σ'.sched, σ'.shared) := by
  cases h.acted with
  | schedule hact => exact hact

/-- An empty store and queue, and `n` workers at the channel. -/
def start (n : Nat) : Sys := { workers := List.replicate n .idle }

/-- The stored job. -/
def job (σ : Sys) (id : String) : Option Job := σ.shared.store.find id

def state (σ : Sys) (id : String) : Option State := (σ.job id).map Job.state

/-! ## Evaluation -/

/-- The steps that a list of actions gives, as far as they are possible. -/
def trace (cap : Nat) : Sys → List Action → List (Step Sys Action)
  | _, [] => []
  | σ, a :: rest =>
    match σ.act cap a with
    | some σ' => ⟨σ, a, σ'⟩ :: trace cap σ' rest
    | none => []

def actAll (cap : Nat) : Sys → List Action → Sys
  | σ, [] => σ
  | σ, a :: rest =>
    match σ.act cap a with
    | some σ' => actAll cap σ' rest
    | none => σ

theorem run_trace {cap : Nat} {σ₀ σ : Sys} {tr : List (Step Sys Action)} (h : Run (Next cap) σ₀ tr σ)
    (as : List Action) : Run (Next cap) σ₀ (tr ++ σ.trace cap as) (σ.actAll cap as) := by
  induction as generalizing tr σ with
  | nil => simpa [trace, actAll] using h
  | cons a as ih =>
    unfold trace actAll
    cases ha : σ.act cap a with
    | none => simpa using h
    | some σ' =>
      have hnext := ih (h.snoc a ha)
      simpa using hnext

end Sys

end Orchestrator
