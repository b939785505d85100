import InfraPlatform.Lib.Run
import InfraPlatform.Orchestrator.Model

/-!
# The worker pool and its stop signal

The loop of a worker goroutine of `internal/worker`, with its two `select` statements as
separate steps, for any runner and any producer.  `Shutdown` closes `stopCh`; nobody closes the
queue, so its `!ok` branches are never taken.

A worker that runs a job or is about to look at the queue for the first time in its round looks
again before it can see the stop signal.  A worker between its two selects does not: it
chooses among what is ready.

* `drains_iff`: the queue is drained whatever the workers choose exactly if it is empty when
  `stopCh` is closed or some worker still looks again.
* `stranded_between_selects`: one worker, one job that is sent between its two selects.
-/

namespace Orchestrator

open Lib

/-! ## The loop of a worker -/

inductive Spot where
  /-- at the first select, which does not block -/
  | polling
  /-- at the second select -/
  | choosing
  /-- blocked in the second select -/
  | parked
  /-- in `runner.Run` -/
  | running
  | returned
deriving DecidableEq, Repr

/-- The cases of the two selects that receive no job. -/
inductive Select where
  /-- the `default` of the first select -/
  | fall
  /-- no case of the second one is ready -/
  | park
  | stop
  | done
deriving DecidableEq, Repr

/-- A select takes any of its cases that are ready. -/
def Spot.select (empty stopped parentDone : Bool) : Spot → Select → Option Spot
  | .polling, .fall => if empty then some .choosing else none
  | .choosing, .park => if empty && !stopped && !parentDone then some .parked else none
  | .choosing, .stop | .parked, .stop => if stopped then some .returned else none
  | .choosing, .done | .parked, .done => if parentDone then some .returned else none
  | _, _ => none

/-- Both selects take a job that is buffered. -/
def Spot.receives : Spot → Bool
  | .polling | .choosing => true
  | _ => false

/-- The worker comes to its first select before it can return. -/
def Spot.looksAgain : Spot → Bool
  | .polling | .running => true
  | _ => false

/-- Only an empty queue takes a worker past its first select. -/
theorem Spot.select_looksAgain {empty stopped parentDone : Bool} {p p' : Spot} {c : Select}
    (h : p.select empty stopped parentDone c = some p') (hlook : p.looksAgain = true) : empty = true := by
  cases p <;> simp only [looksAgain, Bool.false_eq_true] at hlook
  · cases c <;> simp only [select, reduceCtorEq] at h
    split at h
    · assumption
    · cases h
  · cases c <;> cases h

/-- A worker that does not look again may return as soon as `stopCh` is closed. -/
theorem Spot.select_stop {empty parentDone : Bool} {p : Spot} (hlook : p.looksAgain = false) (hp : p ≠ .returned) :
    p.select empty true parentDone .stop = some .returned := by
  cases p with
  | polling | running => cases hlook
  | choosing | parked => rfl
  | returned => exact absurd rfl hp

/-! ## The pool -/

structure Pool where
  queue : List Job := []
  workers : List Spot
  /-- `stopCh` is closed -/
  stopped : Bool := false
  /-- the context that `New` was given is done -/
  parentDone : Bool := false
  /-- the jobs that `runner.Run` was called with, in order -/
  handed : List Job := []
deriving DecidableEq

inductive PoolAct where
  | select (w : Nat) (c : Select)
  /-- worker `w` receives the head of the queue, in either select -/
  | take (w : Nat)
  /-- `runner.Run` returns -/
  | finish (w : Nat)
  /-- the producer's send goes into the buffer, or straight to a blocked worker -/
  | send (job : Job)
  | handoff (w : Nat) (job : Job)
  | close
  /-- the parent context is cancelled -/
  | cancel
deriving DecidableEq

/-- Neither a send nor the end of the parent context. -/
def PoolAct.quiet : PoolAct → Bool
  | .send _ | .handoff .. | .cancel => false
  | _ => true

namespace Pool

def act (cap : Nat) (σ : Pool) : PoolAct → Option Pool
  | .select w c => do
    let p ← σ.workers[w]?
    let p' ← p.select σ.queue.isEmpty σ.stopped σ.parentDone c
    pure { σ with workers := σ.workers.set w p' }
  | .take w =>
    match σ.workers[w]?, σ.queue with
    | some p, job :: rest =>
      if p.receives then
        some { σ with workers := σ.workers.set w .running, queue := rest, handed := σ.handed ++ [job] }
      else none
    | _, _ => none
  | .finish w => if σ.workers[w]? = some .running then some { σ with workers := σ.workers.set w .polling } else none
  | .send job =>
    if σ.queue.length < cap ∧ .parked ∉ σ.workers then some { σ with queue := σ.queue ++ [job] } else none
  | .handoff w job =>
    if σ.workers[w]? = some .parked then
      some { σ with workers := σ.workers.set w .running, handed := σ.handed ++ [job] }
    else none
  | .close => if σ.stopped then none else some { σ with stopped := true }
  | .cancel => some { σ with parentDone := true }

def Next (cap : Nat) (σ : Pool) (a : PoolAct) (σ' : Pool) : Prop := σ.act cap a = some σ'

def start (n : Nat) : Pool := { workers := List.replicate n .polling }

variable {cap : Nat} {σ σ' : Pool} {a : PoolAct}

theorem next_select {w : Nat} {p p' : Spot} {c : Select} (hp : σ.workers[w]? = some p)
    (hsel : p.select σ.queue.isEmpty σ.stopped σ.parentDone c = some p') :
    σ.Next cap (.select w c) { σ with workers := σ.workers.set w p' } := by
  unfold Next act
  simp only [hp, hsel, Option.bind_eq_bind, Option.bind_some, Option.pure_def]

/-- What a quiet step does. -/
inductive Quiet (σ : Pool) : Pool → Prop where
  | select {w : Nat} {p p' : Spot} (c : Select) : σ.workers[w]? = some p →
      p.select σ.queue.isEmpty σ.stopped σ.parentDone c = some p' →
      Quiet σ { σ with workers := σ.workers.set w p' }
  | take {w : Nat} {p : Spot} {job : Job} {rest : List Job} : σ.workers[w]? = some p → σ.queue = job :: rest →
      Quiet σ { σ with workers := σ.workers.set w .running, queue := rest, handed := σ.handed ++ [job] }
  | finish {w : Nat} : σ.workers[w]? = some .running → Quiet σ { σ with workers := σ.workers.set w .polling }
  | close : Quiet σ { σ with stopped := true }

theorem Next.quiet (h : σ.Next cap a σ') (hq : a.quiet = true) : Quiet σ σ' := by
  unfold Next act at h
  cases a with
  | select w c =>
    obtain ⟨p, hp, h⟩ := Option.bind_eq_some_iff.mp h
    obtain ⟨p', hp', h⟩ := Option.bind_eq_some_iff.mp h
    cases h
    exact .select c hp hp'
  | take w =>
    simp only at h
    split at h
    · next p job rest hp hqueue =>
      split at h
      · cases h
        exact .take hp hqueue
      · cases h
    · cases h
  | finish w =>
    simp only at h
    split at h
    · next hp =>
      cases h
      exact .finish hp
    · cases h
  | close =>
    simp only at h
    split at h
    · cases h
    · cases h
      exact .close
  | send | handoff | cancel => cases hq

/-! ## Draining -/

/-- Some worker looks again. -/
def Attended (σ : Pool) : Prop := ∃ p ∈ σ.workers, p.looksAgain = true

instance : Decidable σ.Attended := inferInstanceAs (Decidable (∃ p ∈ σ.workers, p.looksAgain = true))

/-- The jobs that are to be handed over are handed over or still buffered, and the buffer is attended to. -/
structure Draining (jobs : List Job) (σ : Pool) : Prop where
  accounted : σ.handed ++ σ.queue = jobs
  attended : σ.queue = [] ∨ σ.Attended

theorem attended_set {w : Nat} {p p' : Spot} (hp : σ.workers[w]? = some p) (hlook : p'.looksAgain = true) :
    ∃ q ∈ σ.workers.set w p', q.looksAgain = true := by
  obtain ⟨hlt, -⟩ := List.getElem?_eq_some_iff.mp hp
  exact ⟨p', List.mem_set hlt p', hlook⟩

theorem Draining.step {jobs : List Job} (h : Draining jobs σ) (hs : Quiet σ σ') : Draining jobs σ' := by
  obtain ⟨hacc, hatt⟩ := h
  cases hs with
  | @select w p p' c hp hsel =>
    refine ⟨hacc, ?_⟩
    rcases hatt with hempty | ⟨q, hq, hlook⟩
    · exact .inl hempty
    obtain ⟨i, hi⟩ := List.mem_iff_getElem?.mp hq
    by_cases hiw : i = w
    · -- the worker that looks again goes on only if there is nothing to take
      subst hiw
      obtain rfl : p = q := Option.some.inj (hp.symm.trans hi)
      exact .inl (List.isEmpty_iff.mp (Spot.select_looksAgain hsel hlook))
    · refine .inr ⟨q, List.mem_iff_getElem?.mpr ⟨i, ?_⟩, hlook⟩
      rw [← hi]
      exact List.getElem?_set_ne (Ne.symm hiw)
  | @take w p job rest hp hqueue =>
    refine ⟨?_, .inr (attended_set hp rfl)⟩
    rw [← hacc, hqueue, List.append_assoc]
    rfl
  | @finish w hp => exact ⟨hacc, .inr (attended_set hp rfl)⟩
  | close => exact ⟨hacc, hatt⟩

theorem Draining.run {jobs : List Job} {tr : List (Step Pool PoolAct)} (h : Run (Next cap) σ tr σ')
    (hq : ∀ x ∈ tr, x.label.quiet = true) (hσ : Draining jobs σ) : Draining jobs σ' :=
  Run.inv (Draining jobs) (fun x => x.label.quiet = true) (fun _ hn hg hd => hd.step (hn.quiet hg)) hσ h hq

/-- All workers have returned. -/
def Joined (σ : Pool) : Prop := ∀ p ∈ σ.workers, p = .returned

instance : Decidable σ.Joined := inferInstanceAs (Decidable (∀ p ∈ σ.workers, p = .returned))

theorem Joined.not_attended (h : σ.Joined) : ¬ σ.Attended := by
  rintro ⟨p, hp, hlook⟩
  rw [h p hp] at hlook
  cases hlook

/-- The first `k` workers have taken the stop signal. -/
def leave (σ : Pool) (k : Nat) : Pool := { σ with workers := List.replicate k .returned ++ σ.workers.drop k }

theorem run_leave (cap : Nat) (hstop : σ.stopped = true) (hatt : ¬ σ.Attended) {k : Nat} (hk : k ≤ σ.workers.length) :
    ∃ tr, Run (Next cap) σ tr (σ.leave k) ∧ ∀ x ∈ tr, x.label.quiet = true := by
  induction k with
  | zero => exact ⟨[], .nil, by simp⟩
  | succ k ih =>
    obtain ⟨tr, hrun, hquiet⟩ := ih (by omega)
    have hlt : k < σ.workers.length := by omega
    have hdrop : σ.workers.drop k = σ.workers[k] :: σ.workers.drop (k + 1) := List.drop_eq_getElem_cons hlt
    have hsnoc : List.replicate (k + 1) Spot.returned = List.replicate k .returned ++ [.returned] :=
      List.replicate_succ'
    by_cases hret : σ.workers[k] = .returned
    · -- this worker is gone already
      have hsame : σ.leave (k + 1) = σ.leave k := by
        simp only [leave]
        rw [hdrop, hret, hsnoc, List.append_assoc]
        rfl
      exact ⟨tr, by rw [hsame]; exact hrun, hquiet⟩
    · have hlook : (σ.workers[k]).looksAgain = false := by
        by_contra hlook
        exact hatt ⟨_, List.getElem_mem hlt, by simpa using hlook⟩
      have hget : (σ.leave k).workers[k]? = some σ.workers[k] := by
        simp only [leave]
        rw [hdrop, List.getElem?_append_right (by simp)]
        simp
      have hset : (σ.leave k).workers.set k .returned = (σ.leave (k + 1)).workers := by
        simp only [leave]
        rw [hdrop, List.set_append_right k _ (by simp), hsnoc, List.append_assoc, List.length_replicate, Nat.sub_self]
        rfl
      have hnext : (σ.leave k).Next cap (.select k .stop) (σ.leave (k + 1)) := by
        have heq : σ.leave (k + 1) = { σ.leave k with workers := (σ.leave k).workers.set k .returned } := by
          rw [hset]
          rfl
        rw [heq]
        refine next_select hget ?_
        rw [show (σ.leave k).stopped = true from hstop]
        exact Spot.select_stop hlook hret
      exact ⟨_, hrun.snoc _ hnext, Run.forall_snoc.mpr ⟨hquiet, rfl⟩⟩

/-- **Draining on shutdown.**  From the moment `stopCh` is closed, with no more sends: whatever the
workers choose, once all of them have returned the queue is empty and its jobs were handed
over in order, exactly if it was empty to begin with or some worker still looked again. -/
theorem drains_iff {σ₁ : Pool} (hclose : σ.Next cap .close σ₁) :
    (∀ tr σ₂, Run (Next cap) σ₁ tr σ₂ → (∀ x ∈ tr, x.label.quiet = true) → σ₂.Joined →
      σ₂.queue = [] ∧ σ₂.handed = σ.handed ++ σ.queue) ↔
    σ.queue = [] ∨ σ.Attended := by
  obtain rfl : σ₁ = { σ with stopped := true } := by
    unfold Next act at hclose
    simp only at hclose
    split at hclose
    · cases hclose
    · cases hclose; rfl
  constructor
  · intro hdrain
    by_contra hno
    obtain ⟨hne, hatt⟩ := not_or.mp hno
    -- every worker may take the stop signal at once
    obtain ⟨tr, hrun, hquiet⟩ := run_leave (σ := { σ with stopped := true }) cap rfl hatt (Nat.le_refl _)
    have hjoined : (leave { σ with stopped := true } σ.workers.length).Joined := by
      intro p hp
      simp only [leave, List.drop_length, List.append_nil] at hp
      exact List.eq_of_mem_replicate hp
    exact hne (hdrain tr _ hrun hquiet hjoined).1
  · intro hcond tr σ₂ hrun hquiet hjoined
    have hend : Draining (σ.handed ++ σ.queue) σ₂ := Draining.run hrun hquiet ⟨rfl, hcond⟩
    have hempty : σ₂.queue = [] := hend.attended.resolve_right hjoined.not_attended
    have hacc := hend.accounted
    rw [hempty, List.append_nil] at hacc
    exact ⟨hempty, hacc⟩

/-- A pool whose worker runs a job while another one is buffered. -/
def busyPool : Pool :=
  { queue := [{ id := "job_000001", state := .queued }], workers := [.running],
    handed := [{ id := "job_000000", state := .queued }] }

def busyPoolStopped : Pool := { busyPool with stopped := true }

theorem drains_iff_busyPool : busyPool.Next 1 .close busyPoolStopped ∧
    ∀ tr σ, Run (Next 1) busyPoolStopped tr σ → (∀ x ∈ tr, x.label.quiet = true) →
      σ.Joined → σ.queue = [] ∧ σ.handed.map Job.id = ["job_000000", "job_000001"] := by
  have hclose : busyPool.Next 1 .close busyPoolStopped := rfl
  refine ⟨hclose, fun tr σ hrun hquiet hjoined => ?_⟩
  have hdrained := (drains_iff hclose).mpr (.inr (by decide)) tr σ hrun hquiet hjoined
  refine ⟨hdrained.1, ?_⟩
  rw [hdrained.2]
  rfl

/-- The worker finds no job, one is sent, `stopCh` is closed, and the worker chooses the signal. -/
def betweenSelects : List PoolAct := [.select 0 .fall, .send { id := "job_000000", state := .queued }]

theorem stranded_between_selects : ¬ ∀ (cap n : Nat) (tr₁ tr₂ : List (Step Pool PoolAct)) (σ₁ σ₂ σ₃ : Pool),
    Run (Next cap) (start n) tr₁ σ₁ → σ₁.parentDone = false → σ₁.Next cap .close σ₂ →
    Run (Next cap) σ₂ tr₂ σ₃ → (∀ x ∈ tr₂, x.label.quiet = true) → σ₃.Joined →
    σ₃.queue = [] ∧ σ₃.handed = σ₁.handed ++ σ₁.queue := by
  intro h
  have hsent : Run (Next 1) (start 1) _ _ := run_stepsOf (act 1) (fun _ _ _ h => h) .nil betweenSelects
  have hstopped : Run (Next 1) (stateAfter (act 1) (start 1) (betweenSelects ++ [.close])) _ _ :=
    run_stepsOf (act 1) (fun _ _ _ h => h) .nil [.select 0 .stop]
  have hdrained := h 1 1 _ _ _ _ _ hsent (by decide) rfl hstopped (by decide) (by decide)
  revert hdrained
  decide

end Pool

end Orchestrator
