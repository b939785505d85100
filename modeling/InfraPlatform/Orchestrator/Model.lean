import InfraPlatform.Lib.Table
import InfraPlatform.ControlPlane.Reconciler

/-!
# Jobs and their store

`internal/model`, `internal/store` and `internal/retry` of the job orchestrator: a
job, its lifecycle table, the operations of the store that the scheduler, the
executor and the handlers call, and the record a retry is made of.

Times and durations are those of the control plane's model.  The `int` fields are unbounded here, and none of them
can wrap in the code: `Priority` and `MaxRetries` are only compared, `TimeoutSeconds` is compared with 0 (its product
with a second says when the deadline fires, which may be at any time here), and `RetryCount` begins at 0 and is
incremented only below `MaxRetries`.
-/

namespace Orchestrator

open Lib
open ControlPlane (Time Duration)

/-! ## Jobs -/

inductive State where
  | pending | queued | running | completed | failed | exhausted | cancelled
deriving DecidableEq, Repr

def State.text : State → String
  | .pending => "PENDING"
  | .queued => "QUEUED"
  | .running => "RUNNING"
  | .completed => "COMPLETED"
  | .failed => "FAILED"
  | .exhausted => "EXHAUSTED"
  | .cancelled => "CANCELLED"

/-- `queued → pending` is a dispatch taken back because the queue is full. -/
def allowedTransitions : State → List State
  | .pending => [.queued, .cancelled]
  | .queued => [.running, .cancelled, .pending]
  | .running => [.completed, .failed, .cancelled]
  | .failed => [.pending, .exhausted]
  | .completed => []
  | .exhausted => []
  | .cancelled => []

def transition (f t : State) : Bool := (allowedTransitions f).contains t

structure Job where
  id : String
  name : String := ""
  type : String := ""
  command : String := ""
  args : List String := []
  state : State
  priority : Int := 0
  maxRetries : Int := 0
  retryCount : Int := 0
  timeoutSeconds : Int := 0
  runAfter : Time := 0
  createdAt : Time := 0
  startedAt : Option Time := none
  finishedAt : Option Time := none
  output : String := ""
  errorMessage : String := ""
deriving DecidableEq, Repr

/-! ## The store -/

inductive StoreErr where
  | notFound | alreadyExists | invalidTransition
deriving DecidableEq, Repr

def StoreErr.text : StoreErr → String
  | .notFound => "job not found"
  | .alreadyExists => "job already exists"
  | .invalidTransition => "invalid state transition"

abbrev Res := Except StoreErr Unit

structure Store where
  m : Table Job.id := .empty

namespace Store

variable (s : Store)

def find (id : String) : Option Job := s.m.get id

def put (job : Job) : Store := ⟨s.m.put job⟩

def create (job : Job) : Res × Store :=
  if (s.find job.id).isSome then (.error .alreadyExists, s) else (.ok (), s.put job)

def get (id : String) : Except StoreErr Job :=
  match s.find id with
  | none => .error .notFound
  | some job => .ok job

/-- Overwrites the stored job wholesale. -/
def update (job : Job) : Res × Store :=
  if (s.find job.id).isSome then (.ok (), s.put job) else (.error .notFound, s)

def isTerminal : State → Bool
  | .completed | .failed | .exhausted | .cancelled => true
  | _ => false

/-- The record `Transition` stores. -/
def moved (job : Job) (dest : State) (errMsg : String) (now : Time) : Job :=
  { job with
    state := dest
    errorMessage := if errMsg ≠ "" then errMsg else job.errorMessage
    startedAt := if dest = .running ∧ job.startedAt = none then some now else job.startedAt
    finishedAt := if isTerminal dest ∧ job.finishedAt = none then some now else job.finishedAt }

/-- Validates and applies a state transition. -/
def transition (id : String) (dest : State) (errMsg : String) (now : Time) : Res × Store :=
  match s.find id with
  | none => (.error .notFound, s)
  | some job =>
    if Orchestrator.transition job.state dest then (.ok (), s.put (moved job dest errMsg now))
    else (.error .invalidTransition, s)

def setOutput (id output : String) : Res × Store :=
  match s.find id with
  | none => (.error .notFound, s)
  | some job => (.ok (), s.put { job with output })

def listByState (st : State) : List Job := s.m.rows.filter fun job => job.state = st

end Store

/-! ## Retries -/

/-- The job bumped for another attempt; the backoff is computed as the reconciler computes its own. -/
def scheduleRetry (job : Job) (now : Time) : Job :=
  { job with
    retryCount := job.retryCount + 1
    runAfter := now + ControlPlane.Reconciler.backoff (job.retryCount + 1)
    state := .pending
    startedAt := none
    finishedAt := none }

/-! ## Reading back what was written -/

namespace Store

variable {s : Store} {job old : Job} {id : String} {dest : State}

theorem id_of_find (h : s.find id = some job) : job.id = id := Table.key_of_get h

theorem get_ok : s.get id = .ok job ↔ s.find id = some job := by
  unfold get
  cases s.find id <;> simp

theorem find_put (s : Store) (job : Job) (id : String) :
    (s.put job).find id = if id = job.id then some job else s.find id := Table.get_put s.m job id

@[simp] theorem find_put_self (s : Store) (job : Job) : (s.put job).find job.id = some job :=
  Table.get_put_self s.m job

theorem find_put_ne (h : id ≠ job.id) : (s.put job).find id = s.find id := Table.get_put_ne h

@[simp] theorem moved_id (dest : State) (msg : String) (now : Time) : (moved job dest msg now).id = job.id := rfl

@[simp] theorem moved_state (dest : State) (msg : String) (now : Time) : (moved job dest msg now).state = dest := rfl

@[simp] theorem moved_retryCount (dest : State) (msg : String) (now : Time) :
    (moved job dest msg now).retryCount = job.retryCount := rfl

@[simp] theorem moved_maxRetries (dest : State) (msg : String) (now : Time) :
    (moved job dest msg now).maxRetries = job.maxRetries := rfl

/-- The job after `Transition`, whether or not it was allowed. -/
def tried (job : Job) (dest : State) (errMsg : String) (now : Time) : Job :=
  if Orchestrator.transition job.state dest then moved job dest errMsg now else job

theorem tried_of (h : Orchestrator.transition job.state dest = true) (msg : String) (now : Time) :
    tried job dest msg now = moved job dest msg now := if_pos h

theorem tried_not (h : Orchestrator.transition job.state dest = false) (msg : String) (now : Time) :
    tried job dest msg now = job := if_neg (by rw [h]; decide)

@[simp] theorem tried_id (job : Job) (dest : State) (msg : String) (now : Time) :
    (tried job dest msg now).id = job.id := by
  unfold tried
  split <;> rfl

theorem find_create {s' : Store} (h : s.create job = (.ok (), s')) (hold : s.find id = some old) :
    s'.find id = some old := by
  unfold create at h
  split at h
  · cases h
  · next hnew =>
    cases h
    have hid : id ≠ job.id := by
      rintro rfl
      simp [hold] at hnew
    exact (find_put_ne hid).trans hold

/-- **`Transition` on one row.** -/
theorem find_transition (h : s.find id = some job) (dest : State) (msg : String) (now : Time) (k : String) :
    (s.transition id dest msg now).2.find k = if k = id then some (tried job dest msg now) else s.find k := by
  have hid := id_of_find h
  unfold transition tried
  rw [h]
  by_cases ht : Orchestrator.transition job.state dest = true
  · simp only [if_pos ht, find_put, moved_id, hid]
  · simp only [if_neg ht]
    split
    · next hk => rw [hk, h]
    · rfl

theorem tried_state (job : Job) (dest : State) (msg : String) (now : Time) :
    (tried job dest msg now).state = if Orchestrator.transition job.state dest then dest else job.state := by
  unfold tried
  split <;> rfl

/-- `Transition` on a stored job: the move is allowed and stored, or nothing changes. -/
theorem transition_cases (h : s.find id = some job) (dest : State) (msg : String) (now : Time) :
    Orchestrator.transition job.state dest = true ∧
        s.transition id dest msg now = (.ok (), s.put (moved job dest msg now)) ∨
      Orchestrator.transition job.state dest = false ∧
        s.transition id dest msg now = (.error .invalidTransition, s) := by
  unfold transition
  rw [h]
  cases ht : Orchestrator.transition job.state dest
  · exact .inr ⟨rfl, by simp [ht]⟩
  · exact .inl ⟨rfl, by simp [ht]⟩

theorem transition_none (h : s.find id = none) (dest : State) (msg : String) (now : Time) :
    s.transition id dest msg now = (.error .notFound, s) := by
  unfold transition
  rw [h]

theorem find_setOutput (h : s.find id = some job) (output : String) (k : String) :
    (s.setOutput id output).2.find k = if k = id then some { job with output } else s.find k := by
  have hid := id_of_find h
  unfold setOutput
  rw [h]
  simp only [find_put, hid]

theorem find_update (h : s.find job.id = some old) (k : String) :
    (s.update job).2.find k = if k = job.id then some job else s.find k := by
  unfold update
  rw [h]
  exact find_put s job k

end Store

end Orchestrator
