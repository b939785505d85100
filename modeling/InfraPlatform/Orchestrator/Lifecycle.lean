import InfraPlatform.Orchestrator.Ownership

/-!
# The lifecycle of a job

What the ownership protocol says about a job over whole runs of the orchestrator.

* `queue_agrees`: at most one copy waits, a `QUEUED` job has one, and one worker at most executes a job.
* `job_lifecycle`: every change of state is in the table, and a retry overwrites what it was computed from.
* `job_retry_budget`: how often a job was started, from its retry count.
-/

namespace Orchestrator

open Lib
open ControlPlane (Time)

/-! ## Counting the starts -/

/-- Whether a turn starts the job. -/
def entered (job job' : Option Job) : Bool :=
  decide (job.map Job.state ≠ some .running ∧ job'.map Job.state = some .running)

theorem entered_of_same {j j' : Job} (h : j'.state = j.state) : entered (some j) (some j') = false := by
  simp [entered, h]

theorem entered_moved {j : Job} {dest : State} (ht : transition j.state dest = true) (msg : String) (t : Time) :
    entered (some j) (some (Store.moved j dest msg t)) = decide (dest = .running) := by
  unfold entered
  rw [Option.map_some, Option.map_some, Store.moved_state, decide_eq_decide, Option.some.injEq]
  refine ⟨fun h => h.2, fun hd => ⟨?_, hd⟩⟩
  subst hd
  rw [transition_running.mp ht]
  decide

/-- The starts `n` that a state allows after `retries` retries. -/
def State.Starts (n retries : Int) : State → Prop
  | .pending | .queued => n = retries
  | .running | .completed | .failed | .exhausted => n = retries + 1
  | .cancelled => n = retries ∨ n = retries + 1

structure Job.Started (j : Job) (n : Nat) : Prop where
  nonneg : 0 ≤ j.retryCount
  budget : j.retryCount ≤ max j.maxRetries 0
  starts : j.state.Starts n j.retryCount
  exhausted : j.state = .exhausted → j.retryCount = max j.maxRetries 0

/-- A move of the table, but for the one that `Update` makes. -/
theorem Job.Started.moved {j : Job} {n : Nat} {dest : State} (h : j.Started n)
    (ht : transition j.state dest = true) (hretry : j.state = .failed → dest ≠ .pending)
    (hspent : dest = .exhausted → ¬ j.retryCount < j.maxRetries) (msg : String) (t : Time) :
    (Store.moved j dest msg t).Started (n + (decide (dest = .running)).toNat) := by
  have hstarts := h.starts
  refine ⟨h.nonneg, h.budget, ?_, fun hd => ?_⟩
  · rw [Store.moved_state, Store.moved_retryCount]
    cases hs : j.state <;> rw [hs] at ht hstarts hretry <;> cases dest <;>
      first
      | exact absurd ht (by decide)
      | (simp [State.Starts] at hstarts hretry ⊢ <;> omega)
  · have hd' : dest = .exhausted := hd
    have hle := h.budget
    have hge := hspent hd'
    have h0 := h.nonneg
    simp only [Store.moved_retryCount, Store.moved_maxRetries]
    omega

/-- The retry: the job goes back to `PENDING` with the retry that its starts count. -/
theorem Job.Started.scheduleRetry {j : Job} {n : Nat} (h : j.Started n) (hs : j.state = .failed)
    (hlt : j.retryCount < j.maxRetries) (t : Time) : (scheduleRetry j t).Started n := by
  have hstarts := h.starts
  rw [hs] at hstarts
  have h0 := h.nonneg
  constructor
  · change 0 ≤ j.retryCount + 1
    omega
  · change j.retryCount + 1 ≤ max j.maxRetries 0
    omega
  · exact hstarts
  · intro hd
    cases hd

def View.Started (v : View) (n : Nat) : Prop :=
  match v.job with
  | none => n = 0
  | some j => j.Started n

/-- **A turn keeps the count**, with one more start if the turn is one. -/
theorem View.Started.move {who : Actor} {v v' : View} {n : Nat} (h : v.Started n) (ho : v.Owned)
    (hm : v.Move who v') : v'.Started (n + (entered v.job v'.job).toNat) := by
  have hw := hm.written ho
  unfold View.Started at h ⊢
  generalize v.job = job, v'.job = job' at hw h
  cases hw with
  | same =>
    cases job with
    | none => exact h
    | some j => rw [entered_of_same rfl]; exact h
  | submit j hs hr =>
    subst h
    have h0 : entered none (some j) = false := by simp [entered, hs]
    rw [h0]
    exact ⟨by omega, by omega, by simp [hs, hr, State.Starts], by simp [hs]⟩
  | output j o =>
    have hsame : ({ j with output := o } : Job).state = j.state := rfl
    rw [entered_of_same hsame]
    exact ⟨h.nonneg, h.budget, h.starts, h.exhausted⟩
  | move j dest msg t ht hretry hspent =>
    rw [entered_moved ht]
    exact h.moved ht hretry hspent msg t
  | retry j t hs hlt =>
    have h0 : entered (some j) (some (scheduleRetry j t)) = false := by simp [entered, scheduleRetry]
    rw [h0]
    exact Job.Started.scheduleRetry h hs hlt t

namespace Sys

variable {cap n : Nat} {σ : Sys} {tr : List (Step Sys Action)}

/-! ## One copy, one worker -/

/-- **Queue and store agree.**  A worker executes the job from its `RUNNING` write to the last write that
it makes to the job. -/
theorem queue_agrees (h : Run (Next cap) (start n) tr σ) (id : String) :
    copies σ.shared.queue id + holders σ.workers id .waiting ≤ 1 ∧
    (σ.state id = some .queued → 0 < copies σ.shared.queue id + holders σ.workers id .waiting ∨
      ∃ job rest, job.id = id ∧ (σ.sched = .sending job rest ∨ σ.sched = .reverting job rest)) ∧
    holders σ.workers id .executing + holders σ.workers id .failing ≤ 1 := by
  have howned := (reached_inv h).owned id
  unfold View.Owned at howned
  change allowedOwners (σ.state id) (σ.owners id) at howned
  have hw : σ.owners id .waiting = holders σ.workers id .waiting +
      (decide (σ.sched.role id = some .waiting)).toNat + copies σ.shared.queue id := rfl
  have he : holders σ.workers id .executing ≤ σ.owners id .executing := by unfold owners; omega
  have hf : holders σ.workers id .failing ≤ σ.owners id .failing := by unfold owners; omega
  have hcount : σ.owners id .waiting ≤ 1 ∧ σ.owners id .executing + σ.owners id .failing ≤ 1 := by
    rcases hs : σ.state id with _ | st
    · rw [hs, allowedOwners] at howned
      omega
    · rw [hs] at howned
      cases st <;> rw [allowedOwners] at howned <;> omega
  refine ⟨by omega, fun hs => ?_, by omega⟩
  rw [hs, allowedOwners] at howned
  -- the one owner is a copy, or the scheduler with the job in hand
  by_cases hsched : σ.sched.role id = some .waiting
  · right
    cases hpc : σ.sched with
    | loop ready =>
      rw [hpc, Scheduler.role_loop] at hsched
      cases hsched
    | sending job rest =>
      rw [hpc, Scheduler.role, holding] at hsched
      split at hsched
      · next hid => exact ⟨job, rest, hid, .inl rfl⟩
      · cases hsched
    | reverting job rest =>
      rw [hpc, Scheduler.role, holding] at hsched
      split at hsched
      · next hid => exact ⟨job, rest, hid, .inr rfl⟩
      · cases hsched
  · left
    simp only [hsched, decide_false, Bool.toNat_false] at hw
    omega

def flaky : SubmitJobRequest := { name := "train", command := "train.sh", maxRetries := 1 }

/-- A pass of the scheduler over one job, up to the worker that executes it and sees it fail. -/
def failedRun (job : Job) (now : Time) : List Action :=
  [.schedule (.list [job] now), .schedule (.queue now), .schedule .send, .receive 0, .work 0 (.step now),
   .work 0 (.step now), .work 0 .spawn, .work 0 (.exit (some "exit status 1") ""), .work 0 (.step now),
   .work 0 (.step now), .work 0 (.step now), .work 0 (.step now), .work 0 (.step now)]

/-- A job is submitted, fails and is about to be retried. -/
def failedOnce : List Action :=
  [.submit (some flaky), .request 0 (.step 0 (some (0, 0, 0)))] ++ failedRun (newJob flaky "job_000000" 0) 1

theorem queue_agrees_executing :
    (actAll 1 (start 2) (failedOnce.take 9)).state "job_000000" = some .running ∧
    holders (actAll 1 (start 2) (failedOnce.take 9)).workers "job_000000" .executing = 1 ∧
    copies (actAll 1 (start 2) (failedOnce.take 9)).shared.queue "job_000000" +
      holders (actAll 1 (start 2) (failedOnce.take 9)).workers "job_000000" .waiting ≤ 1 :=
  ⟨by decide +kernel, by decide +kernel, (queue_agrees (run_trace .nil _) "job_000000").1⟩

/-! ## Every change of state -/

/-- Jobs are never deleted, and change their state by the table. -/
theorem Inv.legal {σ' : Sys} {a : Action} (hI : σ.Inv) (hn : σ.Next cap a σ') {id : String} {st : State}
    (hst : σ.state id = some st) :
    ∃ st', σ'.state id = some st' ∧ (st' = st ∨ st' ∈ allowedTransitions st) := by
  obtain ⟨j, hj, rfl⟩ := Option.map_eq_some_iff.mp hst
  have hw := hI.written hn id
  rw [hj] at hw
  obtain ⟨j', hj'⟩ := Option.ne_none_iff_exists'.mp (hw.stored (Option.some_ne_none j))
  rw [hj'] at hw
  refine ⟨j'.state, by rw [state, hj']; rfl, ?_⟩
  rcases hw.legal with hsame | ht
  · exact .inl hsame
  · exact .inr (by simpa [transition] using ht)

/-- `COMPLETED`, `EXHAUSTED` and `CANCELLED` are never left. -/
theorem Inv.final {σ' : Sys} {a : Action} (hI : σ.Inv) (hn : σ.Next cap a σ') {id : String} {st : State}
    (hst : σ.state id = some st) (hfinal : allowedTransitions st = []) : σ'.state id = some st := by
  obtain ⟨st', hst', h⟩ := hI.legal hn hst
  rcases h with rfl | h
  · exact hst'
  · rw [hfinal] at h
    cases h

/-- **Every change of state is one of the table**, the unvalidated `Update` of a retry included: it overwrites
the record that it was computed from. -/
theorem job_lifecycle (h : Run (Next cap) (start n) tr σ) {x : Step Sys Action} (hx : x ∈ tr) :
    (∀ id st, x.src.state id = some st →
      (∃ st', x.dst.state id = some st' ∧ (st' = st ∨ st' ∈ allowedTransitions st)) ∧
      (st = .completed ∨ st = .exhausted ∨ st = .cancelled → x.dst.state id = some st)) ∧
    ∀ w now job ctx current, x.label = .work w (.step now) →
      x.src.workers[w]? = some (.retrying job ctx current) → x.src.job job.id = some current := by
  obtain ⟨tr₁, tr₂, -, hrun, hn⟩ := h.before hx
  have hI := reached_inv hrun
  refine ⟨fun id st hst => ⟨hI.legal hn hst, fun hfinal => hI.final hn hst ?_⟩, ?_⟩
  · rcases hfinal with rfl | rfl | rfl <;> rfl
  · intro w now job ctx current _ hw
    exact hI.current w ctx job current hw

theorem job_lifecycle_retried : ∃ σ' job current,
    (actAll 1 (start 1) failedOnce).Next 1 (.work 0 (.step 2)) σ' ∧
    (actAll 1 (start 1) failedOnce).workers[0]? = some (.retrying job 0 current) ∧
    (actAll 1 (start 1) failedOnce).job job.id = some current ∧ σ'.state job.id = some .pending := by
  have hworker : (actAll 1 (start 1) failedOnce).workers[0]? = some (.retrying (newJob flaky "job_000000" 0) 0
      { newJob flaky "job_000000" 0 with
        state := .failed, startedAt := some 1, finishedAt := some 1, errorMessage := "exit status 1" }) := by
    decide +kernel
  have hafter : ((actAll 1 (start 1) failedOnce).act 1 (.work 0 (.step 2))).map (fun σ => σ.state "job_000000") =
      some (some .pending) := by decide +kernel
  obtain ⟨σ', hnext, hstate⟩ := Option.map_eq_some_iff.mp hafter
  have hlife := job_lifecycle ((run_trace .nil failedOnce).snoc _ hnext) List.mem_concat_self
  exact ⟨σ', _, _, hnext, hworker, hlife.2 0 2 _ 0 _ rfl hworker, hstate⟩

/-! ## Starts and retries -/

/-- The step that starts the job. -/
def entersRunning (id : String) (x : Step Sys Action) : Bool := entered (x.src.job id) (x.dst.job id)

theorem started_of_run (h : Run (Next cap) (start n) tr σ) (id : String) :
    (σ.view id).Started (tr.countP (entersRunning id)) := by
  refine (Run.inv_hist (fun tr σ => σ.Inv ∧ (σ.view id).Started (tr.countP (entersRunning id))) (fun _ => True)
    (fun tr x hn _ hI => ⟨hI.1.next hn, ?_⟩) ?_ h fun _ _ => trivial).2
  · rw [Run.countP_snoc]
    exact hI.2.move (hI.1.owned id) (hI.1.moves hn id)
  · exact ⟨inv_start n, rfl⟩

/-- **The retry budget of a job.** -/
theorem job_retry_budget (h : Run (Next cap) (start n) tr σ) {id : String} {j : Job} (hj : σ.job id = some j) :
    j.retryCount ≤ max j.maxRetries 0 ∧
    (j.state = .pending ∨ j.state = .queued → (tr.countP (entersRunning id) : Int) = j.retryCount) ∧
    (j.state = .running ∨ j.state = .completed ∨ j.state = .failed ∨ j.state = .exhausted →
      (tr.countP (entersRunning id) : Int) = j.retryCount + 1) ∧
    (j.state = .exhausted → j.retryCount = max j.maxRetries 0) ∧
    (tr.countP (entersRunning id) : Int) ≤ max j.maxRetries 0 + 1 := by
  have hview := started_of_run h id
  simp only [View.Started, view, hj] at hview
  have hstarts := hview.starts
  have hle := hview.budget
  refine ⟨hle, fun hs => ?_, fun hs => ?_, hview.exhausted, ?_⟩
  · rcases hs with hs | hs <;> rw [hs] at hstarts <;> exact hstarts
  · rcases hs with hs | hs | hs | hs <;> rw [hs] at hstarts <;> exact hstarts
  · cases hs : j.state <;> rw [hs] at hstarts <;> simp only [State.Starts] at hstarts <;> omega

/-- The retry is written, waits out its backoff and fails as well. -/
def failedTwice : List Action :=
  failedOnce ++ [.work 0 (.step 2), .work 0 (.step 2), .work 0 (.step 2)] ++
    failedRun
      { newJob flaky "job_000000" 0 with retryCount := 1, runAfter := 2000000002, errorMessage := "exit status 1" }
      3000000000 ++ [.work 0 (.step 3000000000)]

theorem job_retry_budget_exhausted :
    (actAll 1 (start 1) failedTwice).state "job_000000" = some .exhausted ∧
    ∃ j, (actAll 1 (start 1) failedTwice).job "job_000000" = some j ∧ j.retryCount = 1 ∧
      ((trace 1 (start 1) failedTwice).countP (entersRunning "job_000000") : Int) = j.retryCount + 1 := by
  have hsome : ((actAll 1 (start 1) failedTwice).job "job_000000").isSome = true := by decide +kernel
  obtain ⟨j, hj⟩ := Option.isSome_iff_exists.mp hsome
  have hfacts : ((actAll 1 (start 1) failedTwice).job "job_000000").map (fun j => (j.state, j.retryCount)) =
      some (.exhausted, 1) := by decide +kernel
  rw [hj] at hfacts
  simp only [Option.map_some, Option.some.injEq, Prod.mk.injEq] at hfacts
  exact ⟨by rw [state, hj, Option.map_some, hfacts.1], j, hj, hfacts.2,
    (job_retry_budget (run_trace .nil _) hj).2.2.1 (.inr (.inr (.inr hfacts.1)))⟩

end Sys

end Orchestrator
