import InfraPlatform.Orchestrator.Lifecycle

/-!
# The error of a job

`Transition` sets `ErrorMessage` where it is given one and otherwise keeps it, and `ScheduleRetry` copies it.  So a
message that a failed attempt left stays with the job until another one takes its place, also when a later attempt
succeeds.

* `failures`: the messages with which a run records a job as `FAILED`, in order; `noted` is what they leave.
* `Inv.message_next`: a step notes the failure it records, and changes no other message but that of a job that is
  cancelled.
* `completed_without_error_iff`: a completed job shows no error exactly if none of its attempts left one.
* `completed_with_error`: it shows that of the first attempt.
-/

namespace Orchestrator

open Lib
open ControlPlane (Time Duration)

/-! ## What a client is shown -/

/-- `GET /jobs/id` -/
def getJob (st : Store) (id : String) : Except Response Job :=
  match st.get id with
  | .error _ => .error (writeJSONError 404 "job not found")
  | .ok job => .ok job

theorem getJob_ok {st : Store} {id : String} {job : Job} (h : st.find id = some job) : getJob st id = .ok job := by
  unfold getJob
  rw [Store.get_ok.mpr h]

/-- `text` rounds to milliseconds and writes the duration out. -/
def formatDuration (text : Duration → String) (now : Time) (job : Job) : String :=
  match job.startedAt, job.finishedAt with
  | none, _ => "-"
  | some started, some finished => text (ControlPlane.Time.sub finished started)
  | some started, none => text (ControlPlane.Time.sub now started) ++ " (running)"

/-- The lines of `mlctl status`. -/
def cmdStatus (text : Duration → String) (now : Time) (job : Job) : List String :=
  ["ID:       " ++ job.id, "Name:     " ++ job.name, "State:    " ++ job.state.text,
    "Duration: " ++ formatDuration text now job, "Retries:  " ++ toString job.retryCount] ++
  if job.errorMessage ≠ "" then ["Error:    " ++ job.errorMessage] else []

def showsError (lines : List String) : Bool := lines.any fun line => line.toList.take 6 = "Error:".toList

theorem showsError_cmdStatus (text : Duration → String) (now : Time) (job : Job) :
    showsError (cmdStatus text now job) = false ↔ job.errorMessage = "" := by
  unfold showsError cmdStatus
  by_cases h : job.errorMessage = ""
  · simp [h, String.toList_append]
  · simp [h, String.toList_append]

/-! ## Messages -/

/-- What `Transition` makes of the message it finds. -/
def note (old msg : String) : String := if msg ≠ "" then msg else old

def noted (msgs : List String) : String := msgs.foldl note ""

theorem noted_snoc (msgs : List String) (msg : String) : noted (msgs ++ [msg]) = note (noted msgs) msg := by
  unfold noted
  rw [List.foldl_append, List.foldl_cons, List.foldl_nil]

theorem noted_eq_empty {msgs : List String} : noted msgs = "" ↔ ∀ msg ∈ msgs, msg = "" := by
  induction msgs using List.reverseRecOn with
  | nil => simp [noted]
  | append_singleton msgs msg ih =>
    rw [noted_snoc, List.forall_mem_append, List.forall_mem_singleton, ← ih]
    unfold note
    by_cases h : msg = "" <;> simp [h]

/-- The message that is stored for a job; there is none for one that is not stored. -/
def Store.message (st : Store) (id : String) : String := ((st.find id).map Job.errorMessage).getD ""

/-- From `st` to `st'` no message changes but those of jobs that are cancelled. -/
def KeepsMessages (st st' : Store) : Prop :=
  ∀ id, (st'.find id).map Job.state = some .cancelled ∨ st'.message id = st.message id

namespace KeepsMessages

variable {st st' : Store} {job old : Job} {id msg : String} {dest : State}

theorem refl (st : Store) : KeepsMessages st st := fun _ => .inr rfl

theorem put (h : job.state = .cancelled ∨ job.errorMessage = st.message job.id) : KeepsMessages st (st.put job) := by
  intro id
  by_cases hid : id = job.id
  · subst hid
    rcases h with h | h
    · exact .inl (by rw [Store.find_put_self, Option.map_some, h])
    · refine .inr ?_
      rw [← h, Store.message, Store.find_put_self]
      rfl
  · refine .inr ?_
    rw [Store.message, Store.find_put_ne hid]
    rfl

theorem message_of_find (h : st.find id = some job) : st.message id = job.errorMessage := by
  rw [Store.message, h]
  rfl

/-- A transition without a message, or one that cancels. -/
theorem transition {r : Res} {now : Time} (h : st.transition id dest msg now = (r, st'))
    (hmsg : msg = "" ∨ dest = .cancelled) : KeepsMessages st st' := by
  cases hj : st.find id with
  | none =>
    rw [Store.transition_none hj] at h
    cases h
    exact .refl st
  | some j =>
    rcases Store.transition_cases hj dest msg now with ⟨-, hw⟩ | ⟨-, hw⟩
    · rw [hw] at h
      cases h
      refine .put ?_
      rcases hmsg with rfl | rfl
      · exact .inr (by rw [Store.moved_id, Store.id_of_find hj, message_of_find hj]; rfl)
      · exact .inl rfl
    · rw [hw] at h
      cases h
      exact .refl st

theorem setOutput (st : Store) (id output : String) : KeepsMessages st (st.setOutput id output).2 := by
  unfold Store.setOutput
  split
  · exact .refl st
  · next j hj =>
    refine .put (.inr ?_)
    change j.errorMessage = st.message j.id
    rw [Store.id_of_find hj, message_of_find hj]

theorem update (hold : st.find job.id = some old) (hmsg : job.errorMessage = old.errorMessage) :
    KeepsMessages st (st.update job).2 := by
  unfold Store.update
  rw [hold]
  exact .put (.inr (by rw [message_of_find hold, hmsg]))

theorem create (h : st.create job = (.ok (), st')) (hmsg : job.errorMessage = "") : KeepsMessages st st' := by
  unfold Store.create at h
  split at h
  · cases h
  · next hnew =>
    cases h
    have hnone : st.find job.id = none := by simpa using hnew
    exact .put (.inr (by rw [Store.message, hnone, hmsg]; rfl))

end KeepsMessages

/-! ## What a step does to them -/

/-- A worker changes messages only where it records a failure. -/
theorem Worker.act_messages {sh sh' : Shared} {pc pc' : Worker} {a : WorkerAct} (h : pc.act sh a = some (pc', sh'))
    (hfail : ∀ job ctx msg, pc ≠ .failing job ctx msg)
    (hcur : ∀ job ctx cur, pc = .retrying job ctx cur → sh.store.find job.id = some cur) :
    KeepsMessages sh.store sh'.store := by
  unfold Worker.act at h
  split at h
  case h_1 job now =>
    split at h
    · cases h; exact .refl _
    · next hw => cases h; exact .transition hw (.inl rfl)
  case h_6 job ctx runErr output now => cases h; exact .setOutput _ job.id output
  case h_9 job ctx now => cases h; exact .transition rfl (.inr rfl)
  case h_10 job ctx now => cases h; exact .transition rfl (.inl rfl)
  case h_11 job ctx errMsg now => exact absurd rfl (hfail job ctx errMsg)
  case h_13 job ctx current now =>
    have hj := hcur job ctx current rfl
    split at h
    · cases h
      have hid : current.id = job.id := Store.id_of_find hj
      have hold : sh.store.find (scheduleRetry current now).id = some current := hid ▸ hj
      exact .update hold rfl
    · cases h; exact .transition rfl (.inl rfl)
  -- the other steps leave the store alone
  all_goals repeat' split at h
  all_goals cases h
  all_goals exact .refl _

theorem Scheduler.act_messages {cap : Nat} {sh sh' : Shared} {pc pc' : Scheduler} {a : SchedAct}
    (h : pc.act cap sh a = some (pc', sh')) : KeepsMessages sh.store sh'.store := by
  unfold Scheduler.act at h
  split at h
  case h_2 j rest now =>
    split at h
    · cases h; exact .refl _
    · next hw => cases h; exact .transition hw (.inl rfl)
  case h_5 j rest now => cases h; exact .transition rfl (.inl rfl)
  all_goals repeat' split at h
  all_goals cases h
  all_goals exact .refl _

theorem Request.act_messages {sh sh' : Shared} {pc pc' : Request} {a : RequestAct} (h : pc.act sh a = some (pc', sh')) :
    KeepsMessages sh.store sh'.store := by
  cases Request.acts_of_act h with
  | quiet hstore _ =>
    rw [hstore]
    exact .refl _
  | create req k now hc _ => exact .create hc rfl
  | cancel j now rand _ _ _ _ hstore _ => exact .transition (Prod.ext rfl hstore.symm) (.inr rfl)

/-- A worker that records a failure notes its message, if the job is still `RUNNING`. -/
theorem Worker.act_failing {sh sh' : Shared} {pc' : Worker} {a : WorkerAct} {job : Job} {ctx : Nat} {msg : String}
    (h : (Worker.failing job ctx msg).act sh a = some (pc', sh')) (id : String) :
    sh'.store.message id =
      if job.id = id ∧ (sh.store.find id).map Job.state = some .running then note (sh.store.message id) msg
      else sh.store.message id := by
  cases a with
  | step now =>
    simp only [Worker.act] at h
    cases hj : sh.store.find job.id with
    | none =>
      rw [Store.transition_none hj] at h
      cases h
      rw [if_neg]
      rintro ⟨rfl, hrun⟩
      rw [hj] at hrun
      cases hrun
    | some j =>
      have hid := Store.id_of_find hj
      rcases Store.transition_cases hj .failed msg now with ⟨ht, hw⟩ | ⟨ht, hw⟩
      · rw [hw] at h
        cases h
        by_cases hk : job.id = id
        · subst hk
          rw [if_pos ⟨rfl, by rw [hj, Option.map_some, transition_failed.mp ht]⟩]
          rw [Store.message, Store.find_put, if_pos (by rw [Store.moved_id, hid]), KeepsMessages.message_of_find hj]
          rfl
        · rw [if_neg fun hc => hk hc.1, Store.message,
            Store.find_put_ne (by rw [Store.moved_id, hid]; exact Ne.symm hk)]
          rfl
      · rw [hw] at h
        cases h
        rw [if_neg]
        rintro ⟨rfl, hrun⟩
        rw [hj, Option.map_some, Option.some.injEq] at hrun
        rw [transition_failed.mpr hrun] at ht
        cases ht
  | spawn => cases h
  | refuse err => cases h
  | exit runErr output => cases h

namespace Sys

variable {cap n : Nat} {σ σ' : Sys} {a : Action} {tr : List (Step Sys Action)} {id : String}

def message (σ : Sys) (id : String) : String := σ.shared.store.message id

/-- The message with which an action records job `id` as `FAILED`. -/
def recordsFailure (σ : Sys) (id : String) : Action → Option String
  | .work w _ =>
    match σ.workers[w]? with
    | some (.failing job _ msg) => if job.id = id ∧ σ.state id = some .running then some msg else none
    | _ => none
  | _ => none

/-- The failures of the job's attempts, in order. -/
def failures (id : String) (tr : List (Step Sys Action)) : List String :=
  tr.filterMap fun x => x.src.recordsFailure id x.label

theorem failures_snoc (tr : List (Step Sys Action)) (x : Step Sys Action) :
    failures id (tr ++ [x]) = failures id tr ++ (x.src.recordsFailure id x.label).toList := by
  unfold failures
  rw [List.filterMap_append]
  cases h : x.src.recordsFailure id x.label <;> simp [h]

/-- **What a step does to a message.** -/
theorem Inv.message_next (hI : σ.Inv) (hn : σ.Next cap a σ') (id : String) :
    σ'.state id = some .cancelled ∨
      σ'.message id = ((σ.recordsFailure id a).map (note (σ.message id))).getD (σ.message id) := by
  cases hn.acted with
  | schedule hact => exact Scheduler.act_messages hact id
  | @work w a pc pc' sh hw hact =>
    by_cases hfail : ∃ job ctx msg, pc = .failing job ctx msg
    · obtain ⟨job, ctx, msg, rfl⟩ := hfail
      refine .inr ?_
      have hmsg : sh.store.message id =
          if job.id = id ∧ σ.state id = some .running then note (σ.message id) msg else σ.message id :=
        Worker.act_failing hact id
      simp only [recordsFailure, hw]
      refine hmsg.trans ?_
      by_cases hc : job.id = id ∧ σ.state id = some .running
      · rw [if_pos hc, if_pos hc]
        rfl
      · rw [if_neg hc, if_neg hc]
        rfl
    · have hpc (job : Job) (ctx : Nat) (msg : String) : pc ≠ .failing job ctx msg :=
        fun hpc => hfail ⟨job, ctx, msg, hpc⟩
      have hnone : σ.recordsFailure id (.work w a) = none := by
        simp only [recordsFailure, hw]
        split
        · next job ctx msg hpc' => exact absurd (Option.some.inj hpc') (hpc job ctx msg)
        · rfl
      rw [hnone]
      exact Worker.act_messages hact hpc (fun job ctx cur hpc => hI.current w ctx job cur (hpc ▸ hw)) id
  | receive | handoff | deadline | submit | delete => exact .inr rfl
  | request _ hact => exact Request.act_messages hact id

/-! ## Whole runs -/

/-- A job that is cancelled stays so. -/
theorem Inv.cancelled_next (hI : σ.Inv) (hn : σ.Next cap a σ') (hc : σ.state id = some .cancelled) :
    σ'.state id = some .cancelled := by
  obtain ⟨st', hst', hlegal⟩ := hI.legal hn hc
  rcases hlegal with rfl | hlegal
  · exact hst'
  · cases hlegal

/-- The messages that a run leaves. -/
structure Noted (tr : List (Step Sys Action)) (σ : Sys) : Prop where
  inv : σ.Inv
  message : ∀ id, σ.state id = some .cancelled ∨ σ.message id = noted (failures id tr)

theorem Noted.snoc {x : Step Sys Action} (h : Noted tr x.src) (hn : x.src.Next cap x.label x.dst) :
    Noted (tr ++ [x]) x.dst := by
  refine ⟨h.inv.next hn, ?_⟩
  intro id
  rcases h.message id with hc | hmsg
  · exact .inl (h.inv.cancelled_next hn hc)
  · rcases h.inv.message_next hn id with hc | hnext
    · exact .inl hc
    · refine .inr ?_
      rw [hnext, hmsg, failures_snoc]
      cases x.src.recordsFailure id x.label with
      | none => simp
      | some msg => exact (noted_snoc (failures id tr) msg).symm

theorem noted_of_run (h : Run (Next cap) (start n) tr σ) : Noted tr σ := by
  refine Run.inv_hist Noted (fun _ => True) (fun _ _ hn _ hN => hN.snoc hn) ?_ h fun _ _ => trivial
  exact ⟨inv_start n, fun _ => .inr rfl⟩

/-- **When a completed job shows no error.**  For every run, `GET` answers with the stored job, and for one that is
`COMPLETED` neither its message nor `mlctl status` shows an error exactly if no attempt was recorded as failed with a
message. -/
theorem completed_without_error_iff (cap n : Nat) (tr : List (Step Sys Action)) (σ : Sys)
    (h : Run (Next cap) (start n) tr σ) (id : String) (j : Job) (hj : σ.job id = some j) (hs : j.state = .completed) :
    getJob σ.shared.store id = .ok j ∧
    (j.errorMessage = "" ↔ ∀ msg ∈ failures id tr, msg = "") ∧
    ∀ text now, showsError (cmdStatus text now j) = false ↔ ∀ msg ∈ failures id tr, msg = "" := by
  have hstate : σ.state id = some .completed := by rw [state, hj, Option.map_some, hs]
  have hmsg : j.errorMessage = noted (failures id tr) := by
    rcases (noted_of_run h).message id with hc | hmsg
    · rw [hstate] at hc
      cases hc
    · rw [← hmsg]
      exact (KeepsMessages.message_of_find hj).symm
  have hiff : j.errorMessage = "" ↔ ∀ msg ∈ failures id tr, msg = "" := by rw [hmsg, noted_eq_empty]
  refine ⟨getJob_ok hj, hiff, ?_⟩
  intro text now
  rw [showsError_cmdStatus, hiff]

/-- The worker that holds the job sees its subprocess succeed. -/
def succeededRun (job : Job) (now : Time) : List Action :=
  [.schedule (.list [job] now), .schedule (.queue now), .schedule .send, .receive 0, .work 0 (.step now),
   .work 0 (.step now), .work 0 .spawn, .work 0 (.exit none ""), .work 0 (.step now), .work 0 (.step now),
   .work 0 (.step now), .work 0 (.step now)]

/-- A job is submitted and succeeds. -/
def succeededOnce : List Action :=
  [.submit (some flaky), .request 0 (.step 0 (some (0, 0, 0)))] ++ succeededRun (newJob flaky "job_000000" 0) 1

theorem completed_without_error_iff_succeededOnce :
    ((actAll 1 (start 1) succeededOnce).job "job_000000").map Job.errorMessage = some "" := by
  have hstate : (actAll 1 (start 1) succeededOnce).state "job_000000" = some .completed := by decide +kernel
  have hfailures : failures "job_000000" (trace 1 (start 1) succeededOnce) = [] := by decide +kernel
  obtain ⟨j, hj, hs⟩ := Option.map_eq_some_iff.mp hstate
  have hiff := (completed_without_error_iff 1 1 _ _ (run_trace .nil succeededOnce) "job_000000" j hj hs).2.1
  rw [hj, Option.map_some, hiff.mpr]
  rw [List.nil_append, hfailures]
  simp

/-- The job fails once, and the retry two seconds later succeeds. -/
def succeededAtLast : List Action :=
  failedOnce ++ ([.work 0 (.step 1), .work 0 (.step 1), .work 0 (.step 1)] : List Action) ++
    succeededRun (scheduleRetry { newJob flaky "job_000000" 0 with errorMessage := "exit status 1" } 1) 3000000000

theorem completed_with_error : ∃ tr σ j, Run (Next 1) (start 1) tr σ ∧ σ.job "job_000000" = some j ∧
    j.state = .completed ∧ j.errorMessage = "exit status 1" ∧ getJob σ.shared.store "job_000000" = .ok j ∧
    "Error:    exit status 1" ∈ cmdStatus (fun _ => "0s") 3000000000 j := by
  have hlast : ((actAll 1 (start 1) succeededAtLast).job "job_000000").map (fun j => (j.state, j.errorMessage)) =
      some (.completed, "exit status 1") := by decide +kernel
  obtain ⟨j, hj, hlast⟩ := Option.map_eq_some_iff.mp hlast
  obtain ⟨hs, hmsg⟩ := Prod.mk.inj hlast
  refine ⟨_, _, j, run_trace .nil succeededAtLast, hj, hs, hmsg, getJob_ok hj, ?_⟩
  simp [cmdStatus, hmsg]

end Sys

end Orchestrator
