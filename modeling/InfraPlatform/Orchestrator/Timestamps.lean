import InfraPlatform.Orchestrator.Lifecycle

/-!
# The timestamps of a job

`Transition` writes `StartedAt` and `FinishedAt`, each only where it is unset, and a retry clears both.

* `Job.Stamped`: the state fixes which of the two are set, whatever a turn writes.
* `Stamps`: a step writes nothing into the two but its own clock reading, `StartedAt` only with `RUNNING`.
* `job_times_match`: the timestamps of every job of every run whose clock does not go back.
* `cancelled_between_attempts`: a job that ran and is cancelled while it waits for its retry has no `StartedAt`.
-/

namespace Orchestrator

open Lib
open ControlPlane (Time)

/-! ## Which timestamps are set -/

def State.Stamped (started finished : Option Time) : State → Prop
  | .pending | .queued => started = none ∧ finished = none
  | .running => started ≠ none ∧ finished = none
  | .completed | .failed | .exhausted => started ≠ none ∧ finished ≠ none
  | .cancelled => finished ≠ none

def Job.Stamped (j : Job) : Prop := j.state.Stamped j.startedAt j.finishedAt

/-- A move of the table, but for the one that `Update` makes. -/
theorem Job.Stamped.moved {j : Job} {dest : State} (h : j.Stamped) (ht : transition j.state dest = true)
    (hretry : j.state = .failed → dest ≠ .pending) (msg : String) (t : Time) : (Store.moved j dest msg t).Stamped := by
  unfold Job.Stamped at h ⊢
  cases hs : j.state <;> rw [hs] at ht hretry h <;> cases dest <;>
    first
    | exact absurd ht (by decide)
    | simp_all [State.Stamped, Store.moved, Store.isTerminal]

/-- **What a turn writes keeps the pattern.** -/
theorem Written.stamped {j : Job} {job' : Option Job} (hw : Written (some j) job') (h : j.Stamped) :
    ∀ j' ∈ job', j'.Stamped := by
  intro j' hj'
  cases hw with
  | same | output => cases hj'; exact h
  | move _ dest msg t ht hretry _ => cases hj'; exact h.moved ht hretry msg t
  | retry _ t hs hlt => cases hj'; exact ⟨rfl, rfl⟩

/-- The job that a cancellation leaves was started exactly if it was running. -/
theorem Written.cancels {j j' : Job} (hw : Written (some j) (some j')) (h : j.Stamped) (hs : j.state ≠ .cancelled)
    (hc : j'.state = .cancelled) : j'.startedAt ≠ none ↔ j.state = .running := by
  cases hw with
  | same | output => exact absurd hc hs
  | retry _ t => cases hc
  | move _ dest msg t ht =>
    have hd : dest = .cancelled := hc
    subst hd
    unfold Job.Stamped at h
    cases hst : j.state <;> rw [hst] at ht h <;>
      first
      | exact absurd ht (by decide)
      | simp_all [State.Stamped, Store.moved]

theorem Written.keeps_cancelled {j j' : Job} (hw : Written (some j) (some j')) (hs : j.state = .cancelled) :
    j'.startedAt = j.startedAt := by
  cases hw with
  | same | output => rfl
  | move _ dest msg t ht => rw [hs] at ht; cases dest <;> cases ht
  | retry _ t hf => rw [hs] at hf; cases hf

/-! ## What a step writes into them -/

/-- The timestamps of `new` are those of `old`, or the reading `now` of the step that wrote them. -/
structure Job.StampsFrom (now : Option Time) (old : Option Job) (new : Job) : Prop where
  started : ∀ t, new.startedAt = some t →
    old.bind Job.startedAt = some t ∨ old ≠ none ∧ now = some t ∧ new.state = .running
  finished : ∀ t, new.finishedAt = some t → old.bind Job.finishedAt = some t ∨ old ≠ none ∧ now = some t

/-- The same for every job of a store. -/
def Stamps (now : Option Time) (st st' : Store) : Prop :=
  ∀ id j, st'.find id = some j → j.StampsFrom now (st.find id)

theorem Stamps.refl (now : Option Time) (st : Store) : Stamps now st st := by
  intro id j hj
  rw [hj]
  exact ⟨fun t ht => .inl ht, fun t ht => .inl ht⟩

/-- A write to the one job `new`. -/
theorem Stamps.put {now : Option Time} {st : Store} {new : Job} (h : new.StampsFrom now (st.find new.id)) :
    Stamps now st (st.put new) := by
  intro id j hj
  rw [Store.find_put] at hj
  split at hj
  · next hid =>
    cases hj
    rw [hid]
    exact h
  · exact Stamps.refl now st id j hj

theorem moved_stampsFrom (j : Job) (dest : State) (msg : String) (now : Time) :
    (Store.moved j dest msg now).StampsFrom (some now) (some j) := by
  constructor
  · intro t ht
    simp only [Store.moved] at ht
    split at ht
    · next hd => exact .inr ⟨Option.some_ne_none j, ht, hd.1⟩
    · exact .inl ht
  · intro t ht
    simp only [Store.moved] at ht
    split at ht
    · exact .inr ⟨Option.some_ne_none j, ht⟩
    · exact .inl ht

theorem Stamps.transition {st st' : Store} {id msg : String} {dest : State} {now : Time} {r : Res}
    (h : st.transition id dest msg now = (r, st')) : Stamps (some now) st st' := by
  unfold Store.transition at h
  split at h
  · cases h; exact .refl _ _
  · next j hj =>
    split at h
    · cases h
      refine .put ?_
      rw [Store.moved_id, Store.id_of_find hj, hj]
      exact moved_stampsFrom j dest msg now
    · cases h; exact .refl _ _

theorem Stamps.setOutput (now : Option Time) (st : Store) (id output : String) :
    Stamps now st (st.setOutput id output).2 := by
  unfold Store.setOutput
  split
  · exact .refl _ _
  · next j hj =>
    have hid : j.id = id := Store.id_of_find hj
    refine .put ?_
    rw [hid, hj]
    exact ⟨fun t ht => .inl ht, fun t ht => .inl ht⟩

/-- A retry and a new job have no timestamps. -/
theorem Job.StampsFrom.unset {now : Option Time} {old : Option Job} {new : Job} (hs : new.startedAt = none)
    (hf : new.finishedAt = none) : new.StampsFrom now old := by
  constructor
  · intro t ht
    rw [hs] at ht
    cases ht
  · intro t ht
    rw [hf] at ht
    cases ht

theorem Stamps.retry (now : Option Time) (st : Store) (j : Job) (t : Time) :
    Stamps now st (st.update (scheduleRetry j t)).2 := by
  unfold Store.update
  split
  · exact .put (.unset rfl rfl)
  · exact .refl _ _

theorem Stamps.create {now : Option Time} {st st' : Store} {req : SubmitJobRequest} {id : String} {t : Time} {r : Res}
    (h : st.create (newJob req id t) = (r, st')) : Stamps now st st' := by
  unfold Store.create at h
  split at h
  · cases h; exact .refl _ _
  · cases h; exact .put (.unset rfl rfl)

/-- The clock reading that a step carries; the code uses it or not. -/
def Action.reading : Action → Option Time
  | .schedule (.list _ now) | .schedule (.queue now) | .schedule (.revert now) => some now
  | .work _ (.step now) => some now
  | .request _ (.step now _) => some now
  | _ => none

theorem Scheduler.act_stamps {cap : Nat} {sh sh' : Shared} {pc pc' : Scheduler} {a : SchedAct}
    (h : pc.act cap sh a = some (pc', sh')) : Stamps (Action.schedule a).reading sh.store sh'.store := by
  unfold Scheduler.act at h
  repeat' (split at h)
  all_goals first
    | (cases h; done)
    | (cases h; exact .refl _ _)
    | (cases h; exact .transition (by assumption))
    | (cases h; exact .transition rfl)

theorem Worker.act_stamps {sh sh' : Shared} {pc pc' : Worker} {w : Nat} {a : WorkerAct}
    (h : pc.act sh a = some (pc', sh')) : Stamps (Action.work w a).reading sh.store sh'.store := by
  unfold Worker.act at h
  repeat' (split at h)
  all_goals first
    | (cases h; done)
    | (cases h; exact .refl _ _)
    | (cases h; exact .setOutput _ _ _ _)
    | (cases h; exact .retry _ _ _ _)
    | (cases h; exact .transition (by assumption))
    | (cases h; exact .transition rfl)

theorem Request.act_stamps {sh sh' : Shared} {pc pc' : Request} {i : Nat} {a : RequestAct}
    (h : pc.act sh a = some (pc', sh')) : Stamps (Action.request i a).reading sh.store sh'.store := by
  cases Request.acts_of_act h with
  | quiet hstore _ => rw [hstore]; exact .refl _ _
  | create req id now hc _ => exact .create hc
  | cancel j now rand ha _ _ _ hstore _ =>
    subst ha
    rw [hstore]
    exact .transition rfl

namespace Sys

variable {cap n : Nat} {σ σ' : Sys} {a : Action} {tr : List (Step Sys Action)}

theorem Next.stamps (h : σ.Next cap a σ') : Stamps a.reading σ.shared.store σ'.shared.store := by
  cases h.acted with
  | schedule hact => exact Scheduler.act_stamps hact
  | work _ hact => exact Worker.act_stamps hact
  | request _ hact => exact Request.act_stamps hact
  | receive | handoff | deadline | submit | delete => exact .refl _ _

/-! ## Whole runs -/

/-- The clock readings of a run, in order. -/
def readings (tr : List (Step Sys Action)) : List Time := tr.filterMap fun x => x.label.reading

theorem mem_readings_snoc {x : Step Sys Action} {t : Time} :
    t ∈ readings (tr ++ [x]) ↔ t ∈ readings tr ∨ x.label.reading = some t := by
  unfold readings
  simp

/-- The run cancels the job while it is running. -/
def CancelsRunning (id : String) (tr : List (Step Sys Action)) : Prop :=
  ∃ x ∈ tr, x.src.state id = some .running ∧ x.dst.state id = some .cancelled

theorem cancelsRunning_snoc {id : String} {x : Step Sys Action} : CancelsRunning id (tr ++ [x]) ↔
    CancelsRunning id tr ∨ x.src.state id = some .running ∧ x.dst.state id = some .cancelled := by
  unfold CancelsRunning
  simp only [List.mem_append, List.mem_singleton, or_and_right, exists_or, exists_eq_left]

/-- What the steps so far say about the timestamps of a job. -/
structure Timed (tr : List (Step Sys Action)) (id : String) (j : Job) : Prop where
  stamped : j.Stamped
  read : ∀ t, j.startedAt = some t ∨ j.finishedAt = some t → t ∈ readings tr
  order : (readings tr).Pairwise (· ≤ ·) → ∀ s f, j.startedAt = some s → j.finishedAt = some f → s ≤ f
  cancelled : j.state = .cancelled → (j.startedAt ≠ none ↔ CancelsRunning id tr)

/-- The invariant of a run. -/
structure Timely (tr : List (Step Sys Action)) (σ : Sys) : Prop where
  inv : σ.Inv
  timed : ∀ id j, σ.job id = some j → Timed tr id j
  /-- a cancelled job stays cancelled -/
  done : ∀ id, CancelsRunning id tr → σ.state id = some .cancelled

theorem Timely.done_snoc {x : Step Sys Action} (h : Timely tr x.src) (hn : x.src.Next cap x.label x.dst) (id : String)
    (hc : CancelsRunning id (tr ++ [x])) : x.dst.state id = some .cancelled := by
  rcases cancelsRunning_snoc.mp hc with hc | ⟨-, hc⟩
  · exact h.inv.final hn (h.done id hc) rfl
  · exact hc

/-- A job that was not there before. -/
theorem timed_new {id : String} {j : Job} {now : Option Time} (hs : j.state = .pending)
    (hst : j.StampsFrom now none) : Timed tr id j := by
  have hstart : j.startedAt = none := by
    refine Option.eq_none_iff_forall_ne_some.mpr fun t ht => ?_
    rcases hst.started t ht with h | ⟨h, -⟩
    · cases h
    · exact h rfl
  have hfinish : j.finishedAt = none := by
    refine Option.eq_none_iff_forall_ne_some.mpr fun t ht => ?_
    rcases hst.finished t ht with h | ⟨h, -⟩
    · cases h
    · exact h rfl
  constructor
  · unfold Job.Stamped
    rw [hs]
    exact ⟨hstart, hfinish⟩
  · simp [hstart, hfinish]
  · simp [hstart]
  · simp [hs]

/-- **A step keeps the timestamps of a stored job right.** -/
theorem Timed.step {x : Step Sys Action} {id : String} {j j' : Job} (h : Timed tr id j) (hj : x.src.job id = some j)
    (hj' : x.dst.job id = some j') (hw : Written (some j) (some j')) (hst : j'.StampsFrom x.label.reading (some j))
    (hdone : CancelsRunning id tr → x.src.state id = some .cancelled) : Timed (tr ++ [x]) id j' := by
  have hstamped : j'.Stamped := hw.stamped h.stamped j' rfl
  have hsrc : x.src.state id = some j.state := by rw [state, hj]; rfl
  have hdst : x.dst.state id = some j'.state := by rw [state, hj']; rfl
  refine ⟨hstamped, ?_, ?_, ?_⟩
  · intro t ht
    rw [mem_readings_snoc]
    rcases ht with ht | ht
    · rcases hst.started t ht with hold | ⟨-, hnow, -⟩
      · exact .inl (h.read t (.inl hold))
      · exact .inr hnow
    · rcases hst.finished t ht with hold | ⟨-, hnow⟩
      · exact .inl (h.read t (.inr hold))
      · exact .inr hnow
  · intro hclock s f hs hf
    unfold readings at hclock
    rw [List.filterMap_append, List.pairwise_append] at hclock
    obtain ⟨hpast, -, hlater⟩ := hclock
    -- `StartedAt` is written with `RUNNING` only, and a running job is not finished
    have hstart : j.startedAt = some s := by
      rcases hst.started s hs with hold | ⟨-, -, hrun⟩
      · exact hold
      · unfold Job.Stamped at hstamped
        rw [hrun] at hstamped
        rw [hstamped.2] at hf
        cases hf
    rcases hst.finished f hf with hold | ⟨-, hnow⟩
    · exact h.order hpast s f hstart hold
    · exact hlater s (h.read s (.inl hstart)) f (by simp [hnow])
  · intro hc
    rw [cancelsRunning_snoc, hsrc, hdst, hc]
    by_cases hs : j.state = .cancelled
    · rw [hw.keeps_cancelled hs, h.cancelled hs, hs]
      simp
    · rw [hw.cancels h.stamped hs hc]
      have hnot : ¬ CancelsRunning id tr := by
        intro hcan
        have hcan' := hdone hcan
        rw [hsrc] at hcan'
        exact hs (Option.some.inj hcan')
      simp [hnot]

theorem Timely.step {x : Step Sys Action} (h : Timely tr x.src) (hn : x.src.Next cap x.label x.dst) :
    Timely (tr ++ [x]) x.dst := by
  refine ⟨h.inv.next hn, ?_, h.done_snoc hn⟩
  intro id j' hj'
  have hw := h.inv.written hn id
  have hst := hn.stamps id j' hj'
  change j'.StampsFrom _ (x.src.job id) at hst
  rw [hj'] at hw
  cases hj : x.src.job id with
  | some j =>
    rw [hj] at hw hst
    exact (h.timed id j hj).step hj hj' hw hst (h.done id)
  | none =>
    rw [hj] at hw hst
    cases hw with
    | submit _ hs hr => exact timed_new hs hst

theorem timely_of_run (h : Run (Next cap) (start n) tr σ) : Timely tr σ := by
  refine Run.inv_hist Timely (fun _ => True) (fun tr x hn _ hI => hI.step hn) ?_ h fun _ _ => trivial
  refine ⟨inv_start n, ?_, ?_⟩
  · intro id j hj
    cases hj
  · rintro id ⟨x, hx, -⟩
    cases hx

/-- **The timestamps of a job match its lifecycle.** -/
theorem job_times_match (h : Run (Next cap) (start n) tr σ) (hclock : (readings tr).Pairwise (· ≤ ·)) {id : String}
    {j : Job} (hj : σ.job id = some j) :
    (j.state = .pending ∨ j.state = .queued → j.startedAt = none ∧ j.finishedAt = none) ∧
    (j.state = .running → (∃ s, j.startedAt = some s) ∧ j.finishedAt = none) ∧
    (j.state = .completed ∨ j.state = .failed ∨ j.state = .exhausted →
      ∃ s f, j.startedAt = some s ∧ j.finishedAt = some f ∧ s ≤ f) ∧
    (j.state = .cancelled → (∃ f, j.finishedAt = some f) ∧
      ((∃ s, j.startedAt = some s) ↔
        ∃ x ∈ tr, x.src.state id = some .running ∧ x.dst.state id = some .cancelled)) := by
  have htimed := (timely_of_run h).timed id j hj
  have hstamped := htimed.stamped
  unfold Job.Stamped at hstamped
  refine ⟨fun hs => ?_, fun hs => ?_, fun hs => ?_, fun hs => ?_⟩
  · rcases hs with hs | hs <;> rw [hs] at hstamped <;> exact hstamped
  · rw [hs] at hstamped
    exact ⟨Option.ne_none_iff_exists'.mp hstamped.1, hstamped.2⟩
  · have hboth : j.startedAt ≠ none ∧ j.finishedAt ≠ none := by
      rcases hs with hs | hs | hs <;> rw [hs] at hstamped <;> exact hstamped
    obtain ⟨s, hs⟩ := Option.ne_none_iff_exists'.mp hboth.1
    obtain ⟨f, hf⟩ := Option.ne_none_iff_exists'.mp hboth.2
    exact ⟨s, f, hs, hf, htimed.order hclock s f hs hf⟩
  · rw [hs] at hstamped
    refine ⟨Option.ne_none_iff_exists'.mp hstamped, ?_⟩
    rw [← Option.ne_none_iff_exists']
    exact htimed.cancelled hs

/-- A job that failed once, was retried and is exhausted by its second failure. -/
theorem job_times_match_exhausted :
    (readings (trace 1 (start 1) failedTwice)).Pairwise (· ≤ ·) ∧
    ∃ j s f, (actAll 1 (start 1) failedTwice).job "job_000000" = some j ∧ j.state = .exhausted ∧
      j.startedAt = some s ∧ j.finishedAt = some f ∧ s ≤ f := by
  have hclock : (readings (trace 1 (start 1) failedTwice)).Pairwise (· ≤ ·) := by decide +kernel
  have hstate : (actAll 1 (start 1) failedTwice).state "job_000000" = some .exhausted := by decide +kernel
  obtain ⟨j, hj, hs⟩ := Option.map_eq_some_iff.mp hstate
  obtain ⟨s, f, hstart, hfinish, hle⟩ :=
    (job_times_match (run_trace .nil failedTwice) hclock hj).2.2.1 (.inr (.inr hs))
  exact ⟨hclock, j, s, f, hj, hs, hstart, hfinish, hle⟩

/-- The first run of the job fails, its retry is stored, and a `DELETE` cancels the job while it is `PENDING`. -/
def cancelledBetween : List Action :=
  failedOnce ++ [.work 0 (.step 2), .delete "job_000000", .request 1 (.step 2 none), .request 1 (.step 3 none)]

/-- The retry cleared `StartedAt`, and a job that is cancelled before its next run does not get it back. -/
theorem cancelled_between_attempts : ∃ tr σ j, Run (Next 1) (start 1) tr σ ∧ (readings tr).Pairwise (· ≤ ·) ∧
    σ.job "job_000000" = some j ∧ j.state = .cancelled ∧ j.startedAt = none ∧
    ∃ x ∈ tr, x.dst.state "job_000000" = some .running := by
  have hclock : (readings (trace 1 (start 1) cancelledBetween)).Pairwise (· ≤ ·) := by decide +kernel
  have hfacts : ((actAll 1 (start 1) cancelledBetween).job "job_000000").map (fun j => (j.state, j.startedAt)) =
      some (.cancelled, none) := by decide +kernel
  have hran : ∃ x ∈ trace 1 (start 1) cancelledBetween, x.dst.state "job_000000" = some .running := by decide +kernel
  obtain ⟨j, hj, hfields⟩ := Option.map_eq_some_iff.mp hfacts
  obtain ⟨hs, hstart⟩ := Prod.mk.inj hfields
  exact ⟨_, _, j, run_trace .nil cancelledBetween, hclock, hj, hs, hstart, hran⟩

end Sys

end Orchestrator
