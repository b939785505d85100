import InfraPlatform.Orchestrator.Lifecycle

/-!
# A refused cancellation

`CancelJob` answers 409 when it reads a state from which a job cannot be cancelled, or when its `Transition`
is refused.  One of these states is `FAILED`, and that one is not always the end: between
`Transition(FAILED)` and `Update(ScheduleRetry(current))` of `failOrRetry` it is a job that will run again.

* `Written.dead`: a job that is at its end stays there, whoever takes a turn.
* `refusal_final_iff`: after an answer of 409 the job never comes back exactly if it was not a failed job with
  retries left.
* `refused_and_retried`: a `DELETE` between the two calls is refused, and the job runs again.
-/

namespace Orchestrator

open Lib
open ControlPlane (Time)

/-! ## Jobs at their end -/

/-- The job will never be scheduled again. -/
def Job.dead (j : Job) : Bool :=
  match j.state with
  | .completed | .exhausted | .cancelled => true
  | .failed => !decide (j.retryCount < j.maxRetries)
  | .pending | .queued | .running => false

/-- A failed job that `failOrRetry` is about to reschedule. -/
def Job.retryable (j : Job) : Bool := j.state = .failed && decide (j.retryCount < j.maxRetries)

/-- The states that cannot be cancelled are the end, but for the retry. -/
theorem Job.dead_iff {j : Job} (h : transition j.state .cancelled = false) : j.dead = !j.retryable := by
  unfold Job.dead Job.retryable
  cases hs : j.state <;> rw [hs] at h <;> simp at h ⊢
  all_goals exact absurd h (by decide)

/-- **The end is final**: what a turn writes does not bring a dead job back. -/
theorem Written.dead {j : Job} {job' : Option Job} (h : Written (some j) job') (hd : j.dead = true) :
    ∃ j', job' = some j' ∧ j'.dead = true := by
  cases h with
  | same => exact ⟨j, rfl, hd⟩
  | output _ o => exact ⟨_, rfl, hd⟩
  | move _ dest msg t ht hretry _ =>
    refine ⟨_, rfl, ?_⟩
    -- of the dead states only `FAILED` is left, and not by a retry
    cases hs : j.state with
    | failed =>
      rw [hs] at ht
      cases dest with
      | exhausted => rfl
      | pending => exact absurd rfl (hretry hs)
      | _ => cases ht
    | completed | exhausted | cancelled => rw [hs] at ht; cases dest <;> cases ht
    | pending | queued | running => simp [Job.dead, hs] at hd
  | retry _ t hs hlt =>
    simp [Job.dead, hs] at hd
    omega

theorem holding_eq_some {job : Job} {r : Option Role} {id : String} {q : Role} (h : holding job r id = some q) :
    job.id = id ∧ r = some q := by
  unfold holding at h
  split at h
  · next hid => exact ⟨hid, h⟩
  · cases h

/-! ## Refusals -/

/-- An answer of 409 changes nothing, and is given on a job that cannot be cancelled. -/
theorem Request.refused {sh sh' : Shared} {pc : Request} {a : RequestAct} {id : String} {resp : Response}
    (h : pc.act sh a = some (.answered id resp, sh')) (hcode : resp.code = 409)
    (hknown : pc = .cancelling id → sh.store.find id ≠ none) :
    sh' = sh ∧ ∃ j, sh.store.find id = some j ∧ transition j.state .cancelled = false := by
  unfold Request.act at h
  split at h
  case h_4 k now rand =>
    split at h
    · cases h
      cases hcode
    · next job hget =>
      have hfind : sh.store.find k = some job := Store.get_ok.mp hget
      unfold cancelJob at h
      split at h <;> cases h
      all_goals
        next hs => exact ⟨rfl, job, hfind, by rw [hs]; rfl⟩
  case h_9 k now rand =>
    cases hj : sh.store.find k with
    | none =>
      rw [Store.transition_none hj] at h
      cases h
      exact absurd hj (hknown rfl)
    | some j =>
      rcases Store.transition_cases hj .cancelled "cancelled by user" now with ⟨ht, hw⟩ | ⟨ht, hw⟩
      · rw [hw] at h
        cases h
      · rw [hw] at h
        cases h
        exact ⟨rfl, j, hj, ht⟩
  case h_11 => cases h; cases hcode
  all_goals repeat' split at h
  all_goals cases h

/-- A handler is about to write `CANCELLED` only for a job that it has read. -/
theorem Request.act_cancelling {sh sh' : Shared} {pc : Request} {a : RequestAct} {id : String}
    (h : pc.act sh a = some (.cancelling id, sh')) : sh.store.find id ≠ none := by
  unfold Request.act at h
  split at h
  case h_4 k now rand =>
    split at h
    · cases h
    · next job hget =>
      unfold cancelJob at h
      split at h <;> cases h
      all_goals
        rw [Store.get_ok.mp hget]
        exact Option.some_ne_none _
  all_goals repeat' split at h
  all_goals cases h

namespace Sys

variable {cap n : Nat} {σ σ' : Sys} {a : Action} {tr : List (Step Sys Action)}

/-- The handlers that are about to write `CANCELLED` write it for stored jobs. -/
def Known (σ : Sys) : Prop := ∀ (i : Nat) (id : String), σ.requests[i]? = some (.cancelling id) → σ.job id ≠ none

theorem Inv.stored (hI : σ.Inv) (hn : σ.Next cap a σ') {id : String} (h : σ.job id ≠ none) : σ'.job id ≠ none :=
  (hI.written hn id).stored h

theorem Known.next (h : σ.Known) (hI : σ.Inv) (hn : σ.Next cap a σ') : σ'.Known := by
  intro i id hi
  have hold (hi : σ.requests[i]? = some (.cancelling id)) : σ'.job id ≠ none := hI.stored hn (h i id hi)
  have hnew {r : Request} (hr : r ≠ .cancelling id) (hi : (σ.requests ++ [r])[i]? = some (.cancelling id)) :
      σ.requests[i]? = some (.cancelling id) := by
    rw [List.getElem?_append] at hi
    split at hi
    · exact hi
    · rw [List.getElem?_singleton] at hi
      split at hi
      · exact absurd (Option.some.inj hi) hr
      · cases hi
  cases hn.acted with
  | schedule | work | receive | handoff | deadline => exact hold hi
  | submit body =>
    refine hold (hnew ?_ hi)
    unfold submitJob
    repeat' split
    all_goals exact Request.noConfusion
  | delete k => exact hold (hnew Request.noConfusion hi)
  | @request k b pc pc' sh hk hact =>
    rw [List.getElem?_set] at hi
    split at hi
    · split at hi
      · cases hi
        exact hI.stored hn (Request.act_cancelling hact)
      · cases hi
    · exact hold hi

theorem known_of_run (h : Run (Next cap) (start n) tr σ) : σ.Known := by
  refine (Run.inv (fun σ => σ.Inv ∧ σ.Known) (fun _ => True)
    (fun x hn _ hI => ⟨hI.1.next hn, hI.2.next hI.1 hn⟩) ⟨inv_start n, ?_⟩ h fun _ _ => trivial).2
  intro i id hi
  simp [start] at hi

/-! ## What can happen after a refusal -/

/-- The stored job has failed and will be rescheduled. -/
def retryable (σ : Sys) (id : String) : Bool := (σ.job id).any Job.retryable

theorem dead_of_run (hI : σ.Inv) {j : Job} {id : String} (hj : σ.job id = some j) (hd : j.dead = true)
    (h : Run (Next cap) σ tr σ') : ∃ j', σ'.job id = some j' ∧ j'.dead = true := by
  refine (Run.inv (fun σ => σ.Inv ∧ ∃ j, σ.job id = some j ∧ j.dead = true) (fun _ => True) ?_ ⟨hI, j, hj, hd⟩ h
    fun _ _ => trivial).2
  rintro x hn - ⟨hI, j, hj, hd⟩
  exact ⟨hI.next hn, (hj ▸ hI.written hn id).dead hd⟩

/-- A failed job is with the worker that failed it. -/
theorem Inv.failing_worker (hI : σ.Inv) {j : Job} {id : String} (hj : σ.job id = some j) (hs : j.state = .failed) :
    ∃ (w ctx : Nat) (job : Job), job.id = id ∧
      (σ.workers[w]? = some (.failed job ctx) ∨ σ.workers[w]? = some (.retrying job ctx j)) := by
  have hone : σ.owners id .failing = 1 := by
    have ho := hI.owned id
    simp only [View.Owned, view, hj, Option.map_some, hs, allowedOwners] at ho
    exact ho.2.2
  have hsched : σ.sched.role id ≠ some .failing := by
    cases σ.sched with
    | loop => simp
    | sending job rest | reverting job rest =>
      intro hrole
      cases (holding_eq_some hrole).2
  have hholders : 0 < holders σ.workers id .failing := by
    simp [owners, hsched] at hone
    omega
  obtain ⟨pc, hpc, hrole⟩ := List.countP_pos_iff.mp hholders
  obtain ⟨w, hw⟩ := List.mem_iff_getElem?.mp hpc
  simp only [decide_eq_true_eq] at hrole
  cases pc with
  | failed job ctx => exact ⟨w, ctx, job, (holding_eq_some hrole).1, .inl hw⟩
  | retrying job ctx cur =>
    have hid := (holding_eq_some hrole).1
    have hcur := hI.current w ctx job cur hw
    rw [hid, hj] at hcur
    obtain rfl := Option.some.inj hcur
    exact ⟨w, ctx, job, hid, .inr hw⟩
  | idle | leaving | left => cases hrole
  | _ => cases (holding_eq_some hrole).2

/-- The worker's `Update` makes the job `PENDING` again. -/
theorem retried_of_retrying (cap : Nat) {w ctx : Nat} {job j : Job} (hw : σ.workers[w]? = some (.retrying job ctx j))
    (hj : σ.job j.id = some j) (hlt : j.retryCount < j.maxRetries) :
    ∃ σ', σ.Next cap (.work w (.step 0)) σ' ∧ σ'.state j.id = some .pending := by
  refine ⟨_, by simp only [Next, act, hw, Option.bind_eq_bind, Option.bind_some, Worker.act, if_pos hlt]; rfl, ?_⟩
  have hfind : (σ.shared.store.update (scheduleRetry j 0)).2.find j.id = some (scheduleRetry j 0) := by
    rw [Store.find_update (show σ.shared.store.find (scheduleRetry j 0).id = some j from hj)]
    exact if_pos rfl
  exact congrArg (Option.map Job.state) hfind

/-- A failed job with retries left comes back. -/
theorem Inv.retried (hI : σ.Inv) (cap : Nat) {j : Job} {id : String} (hj : σ.job id = some j)
    (hr : j.retryable = true) :
    ∃ tr σ', Run (Next cap) σ tr σ' ∧ σ'.state id = some .pending := by
  unfold Job.retryable at hr
  simp only [Bool.and_eq_true, decide_eq_true_eq] at hr
  obtain ⟨hs, hlt⟩ := hr
  obtain rfl : j.id = id := Store.id_of_find hj
  obtain ⟨w, ctx, job, hid, hw | hw⟩ := hI.failing_worker hj hs
  · -- the worker reads the job first
    have hread : σ.Next cap (.work w (.step 0)) { σ with workers := σ.workers.set w (.retrying job ctx j) } := by
      have hget : σ.shared.store.get job.id = .ok j := Store.get_ok.mpr (by rw [hid]; exact hj)
      simp only [Next, act, hw, Option.bind_eq_bind, Option.bind_some, Worker.act, hget, Option.pure_def]
    obtain ⟨σ', hn, hst⟩ := retried_of_retrying (σ := { σ with workers := σ.workers.set w (.retrying job ctx j) }) cap
      (List.getElem?_set_self (List.getElem?_eq_some_iff.mp hw).1) hj hlt
    exact ⟨_, σ', (Run.nil.snoc _ hread).snoc _ hn, hst⟩
  · obtain ⟨σ', hn, hst⟩ := retried_of_retrying cap hw hj hlt
    exact ⟨_, σ', Run.nil.snoc _ hn, hst⟩

/-- **A 409 is final** exactly if the job was not a failed one with retries left: from the refusal on, whatever
scheduler, workers and requests do, the job is never `PENDING`, `QUEUED` or `RUNNING` again. -/
theorem refusal_final_iff (h : Run (Next cap) (start n) tr σ) {i : Nat} {b : RequestAct} {id : String} {resp : Response}
    (hn : σ.Next cap (.request i b) σ') (hans : σ'.requests[i]? = some (.answered id resp)) (hcode : resp.code = 409) :
    (∀ tr' σ₂, Run (Next cap) σ' tr' σ₂ →
      σ₂.state id ≠ some .pending ∧ σ₂.state id ≠ some .queued ∧ σ₂.state id ≠ some .running) ↔
    σ.retryable id = false := by
  have hI := reached_inv h
  have hI' := hI.next hn
  obtain ⟨hjob, j, hj, ht⟩ : σ'.job id = σ.job id ∧ ∃ j, σ.job id = some j ∧ transition j.state .cancelled = false := by
    cases hn.acted with
    | @request _ _ pc pc' sh hi hact =>
      rw [List.getElem?_set_self (List.getElem?_eq_some_iff.mp hi).1] at hans
      obtain rfl := Option.some.inj hans
      obtain ⟨rfl, j, hj, ht⟩ := Request.refused hact hcode fun hpc => known_of_run h i id (by rw [hi, hpc])
      exact ⟨rfl, j, hj, ht⟩
  have hdead := Job.dead_iff ht
  rw [show σ.retryable id = j.retryable by unfold retryable; rw [hj]; rfl]
  constructor
  · intro hfinal
    by_contra hr
    obtain ⟨tr', σ₂, hrun, hst⟩ := hI'.retried cap (hjob.trans hj) (by simpa using hr)
    exact (hfinal tr' σ₂ hrun).1 hst
  · intro hr tr' σ₂ hrun
    rw [hr] at hdead
    obtain ⟨j', hj', hd'⟩ := dead_of_run hI' (hjob.trans hj) hdead hrun
    have hst : σ₂.state id = some j'.state := by
      unfold state
      rw [hj']
      rfl
    rw [hst]
    unfold Job.dead at hd'
    cases hs : j'.state <;> rw [hs] at hd' <;> simp at hd' ⊢

/-- The job is exhausted when its `DELETE` comes. -/
def deletedAtEnd : Sys := actAll 1 (start 1) (failedTwice ++ [.delete "job_000000"])

theorem refusal_final_iff_exhausted : ∃ σ, deletedAtEnd.Next 1 (.request 1 (.step 0 none)) σ ∧
    σ.state "job_000000" = some .exhausted ∧
    ∀ tr σ', Run (Next 1) σ tr σ' → σ'.state "job_000000" ≠ some .pending ∧
      σ'.state "job_000000" ≠ some .queued ∧ σ'.state "job_000000" ≠ some .running := by
  have hstep : (deletedAtEnd.act 1 (.request 1 (.step 0 none))).map (fun σ => (σ.requests[1]?, σ.state "job_000000")) =
      some (some (.answered "job_000000" (writeJSONError 409 "job already in terminal state EXHAUSTED")),
        some .exhausted) := by decide +kernel
  obtain ⟨σ, hn, hfacts⟩ := Option.map_eq_some_iff.mp hstep
  obtain ⟨hans, hst⟩ := Prod.mk.inj hfacts
  exact ⟨σ, hn, hst, (refusal_final_iff (run_trace .nil _) hn hans rfl).mpr (by decide +kernel)⟩

/-- The job has failed, and its worker is about to reschedule it, when its `DELETE` comes. -/
def deletedBetween : Sys := actAll 1 (start 1) (failedOnce ++ [.delete "job_000000"])

theorem refused_and_retried : ¬ ∀ (cap n : Nat) (tr tr' : List (Step Sys Action)) (σ σ₁ σ₂ : Sys) (i : Nat)
    (b : RequestAct) (id : String) (resp : Response), Run (Next cap) (start n) tr σ → σ.Next cap (.request i b) σ₁ →
    σ₁.requests[i]? = some (.answered id resp) → resp.code = 409 → Run (Next cap) σ₁ tr' σ₂ →
    σ₂.state id ≠ some .pending ∧ σ₂.state id ≠ some .queued ∧ σ₂.state id ≠ some .running := by
  intro h
  have hsteps : (deletedBetween.act 1 (.request 1 (.step 2 none))).bind (fun σ₁ =>
      (σ₁.act 1 (.work 0 (.step 2))).map fun σ₂ => (σ₁.requests[1]?, σ₂.state "job_000000")) =
      some (some (.answered "job_000000" (writeJSONError 409 "job already in terminal state FAILED")),
        some .pending) := by decide +kernel
  obtain ⟨σ₁, hn, hsteps⟩ := Option.bind_eq_some_iff.mp hsteps
  obtain ⟨σ₂, hn', hfacts⟩ := Option.map_eq_some_iff.mp hsteps
  obtain ⟨hans, hst⟩ := Prod.mk.inj hfacts
  exact (h 1 1 _ _ deletedBetween σ₁ σ₂ 1 _ _ _ (run_trace .nil _) hn hans rfl (Run.nil.snoc _ hn')).1 hst

end Sys

end Orchestrator
