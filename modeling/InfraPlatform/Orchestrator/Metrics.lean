import InfraPlatform.Orchestrator.Provenance

/-!
# The counters of the orchestrator

`internal/metrics` as `SubmitJob` and the executor use it, around the goroutines of `System`.  A goroutine that has
made its store call increments the counters one by one before it goes on; `/metrics` reads them at any moment, so each
increment is a step of its own.

* `Recording`: where a goroutine stands between its store call and its last increment.
* `Metered`: the orchestrator with its counters; `Metered.act` holds a goroutine back until it has counted.
* `Posted`: what a store call does to the store, and what it leaves to be counted.  The executor counts a run as ended
  also if the write of its result was refused, and does not count it if the write of `FAILED` was: both happen
  when a `DELETE` that had read `QUEUED` wrote `CANCELLED` to the running job.
* `metrics_account`: the counters against the store, at every moment of every run and when nobody is counting.

Left out: the durations themselves, and the gauge of the queue's length.
-/

namespace Orchestrator

open Lib
open ControlPlane (Time)

/-! ## Counters -/

/-- The counters by job type, and the number of observations of the histogram by job type and state. -/
inductive Metric where
  | jobsSubmitted (jobType : String)
  | jobsCompleted (jobType : String)
  | jobsFailed (jobType : String)
  | jobsDuration (jobType : String) (state : State)
deriving DecidableEq

/-- A goroutine that has something to count: `SubmitJob` at its `Inc`, or `recordTerminal` at its `Inc` and at its
`Observe`. -/
inductive Recording where
  | submitted (jobType : String)
  | terminal (jobType : String) (state : State) (success : Bool)
  | observing (jobType : String) (state : State)
deriving DecidableEq

namespace Recording

/-- The increment that comes next. -/
def metric : Recording → Metric
  | .submitted jobType => .jobsSubmitted jobType
  | .terminal jobType _ success => if success then .jobsCompleted jobType else .jobsFailed jobType
  | .observing jobType state => .jobsDuration jobType state

/-- What is left to count after it. -/
def next : Recording → Option Recording
  | .terminal jobType state _ => some (.observing jobType state)
  | .submitted _ | .observing _ _ => none

/-- All that is left to count. -/
def metrics : Recording → List Metric
  | .terminal jobType state success =>
    [if success then .jobsCompleted jobType else .jobsFailed jobType, .jobsDuration jobType state]
  | .submitted jobType => [.jobsSubmitted jobType]
  | .observing jobType state => [.jobsDuration jobType state]

theorem metrics_eq (r : Recording) : r.metrics = r.metric :: r.next.elim [] metrics := by
  cases r <;> rfl

end Recording

/-- The call of `recordTerminal` that follows on a worker's step. -/
def Worker.records (sh : Shared) : Worker → WorkerAct → Option Recording
  | .cancelling job _, .step _ => some (.terminal job.type .cancelled false)
  | .completing job _, .step _ => some (.terminal job.type .completed true)
  | .failing job _ errMsg, .step now =>
    match sh.store.transition job.id .failed errMsg now with
    | (.error _, _) => none
    | (.ok (), _) => some (.terminal job.type .failed false)
  | _, _ => none

/-- `SubmitJob` counts a job that it has created. -/
def Request.records (sh : Shared) : Request → RequestAct → Option Recording
  | .submitting req (_ + 1), .step now (some b) =>
    match sh.store.create (newJob req (idOf b) now) with
    | (.ok (), _) => some (.submitted req.type)
    | (.error _, _) => none
  | _, _ => none

/-- The type of a job whose completion comes too late. -/
def Worker.overruled (sh : Shared) : Worker → WorkerAct → Option String
  | .completing job _, .step _ =>
    if (sh.store.find job.id).map Job.state = some .cancelled then some job.type else none
  | _, _ => none

/-- The type of a job that the step starts. -/
def Worker.starts (sh : Shared) : Worker → WorkerAct → Option String
  | .fetched job, .step _ => if (sh.store.find job.id).map Job.state = some .queued then some job.type else none
  | _, _ => none

/-- The type of a job whose failure comes too late. -/
def Worker.loses (sh : Shared) : Worker → WorkerAct → Option String
  | .failing job _ _, .step _ =>
    if (sh.store.find job.id).map Job.state = some .cancelled then some job.type else none
  | _, _ => none

/-- The type of the job that the worker has started and not ended yet. -/
def Worker.attempts : Worker → Option String
  | .claimed job | .registered job _ | .executing job _ | .ended job _ _ _ | .judging job _ _
  | .judgingDeadline job _ _ | .cancelling job _ | .completing job _ | .failing job _ _ => some job.type
  | _ => none

/-! ## What is counted in the store -/

/-- The failed attempts that a job accounts for. -/
def Job.failures (j : Job) : Int := j.retryCount + if j.state = .failed ∨ j.state = .exhausted then 1 else 0

/-- A write that no counter speaks of. -/
structure Quiet (j j' : Job) : Prop where
  id : j'.id = j.id
  type : j'.type = j.type
  completed : j'.state = .completed ↔ j.state = .completed
  failures : j'.failures = j.failures

theorem quiet_moved {j : Job} {dest : State} (ht : transition j.state dest = true) (hc : dest ≠ .completed)
    (hf : dest ≠ .failed) (hretry : j.state = .failed → dest ≠ .pending) (msg : String) (now : Time) :
    Quiet j (Store.moved j dest msg now) := by
  refine ⟨rfl, rfl, ?_, ?_⟩
  · rw [Store.moved_state]
    refine ⟨fun h => absurd h hc, fun h => ?_⟩
    rw [h] at ht
    cases dest <;> cases ht
  · unfold Job.failures
    rw [Store.moved_state, Store.moved_retryCount]
    cases hs : j.state <;> rw [hs] at ht hretry <;> cases dest <;>
      first
      | exact absurd ht (by decide)
      | exact absurd rfl (hretry rfl)
      | exact absurd rfl hf
      | simp

theorem quiet_output (j : Job) (output : String) : Quiet j { j with output } := ⟨rfl, rfl, Iff.rfl, rfl⟩

theorem quiet_retry {j : Job} (hs : j.state = .failed) (now : Time) : Quiet j (scheduleRetry j now) := by
  refine ⟨rfl, rfl, ?_, ?_⟩
  · simp [scheduleRetry, hs]
  · simp [Job.failures, scheduleRetry, hs]

/-! The weights of a job in the sums for one type. -/

def Job.one (t : String) (j : Job) : Int := if j.type = t then 1 else 0

def Job.done (t : String) (j : Job) : Int := if j.type = t ∧ j.state = .completed then 1 else 0

def Job.failuresOf (t : String) (j : Job) : Int := if j.type = t then j.failures else 0

/-- What a step does to the store, what it leaves to be counted, and the type of the completion that it overrules. -/
inductive Posted (st st' : Store) : Option Recording → Option String → Prop where
  | same : st' = st → Posted st st' none none
  | quiet {j j' : Job} : st.find j.id = some j → Quiet j j' → st' = st.put j' → Posted st st' none none
  | created {j : Job} : st.find j.id = none → j.state = .pending → j.retryCount = 0 → st' = st.put j →
      Posted st st' (some (.submitted j.type)) none
  | ended {j : Job} {dest : State} {msg : String} {now : Time} : st.find j.id = some j → j.state = .running →
      dest = .completed ∨ dest = .cancelled ∨ dest = .failed → st' = st.put (Store.moved j dest msg now) →
      Posted st st' (some (.terminal j.type dest (dest = .completed))) none
  | late {jobType : String} : st' = st → Posted st st' (some (.terminal jobType .cancelled false)) none
  | overruled {jobType : String} : st' = st →
      Posted st st' (some (.terminal jobType .completed true)) (some jobType)

/-- How often a recording has still to increment a counter. -/
def owes (r : Option Recording) (m : Metric) : Nat := (r.elim [] Recording.metrics).count m

@[simp] theorem owes_none (m : Metric) : owes none m = 0 := rfl

theorem Store.total_put {st : Store} {j old : Job} (f : Job → Int) (h : st.find j.id = some old) :
    (st.put j).m.total f = st.m.total f + (f j - f old) := by
  have hput : (st.put j).m.total f + f old = st.m.total f + f j := Table.total_put_of_get f h
  omega

theorem Store.total_one (st : Store) (t : String) :
    st.m.total (Job.one t) = st.m.rows.countP fun j => j.type = t := by
  have hind := st.m.total_indicator fun j => decide (j.type = t)
  simp only [decide_eq_true_eq] at hind
  exact hind

theorem Store.total_done (st : Store) (t : String) :
    st.m.total (Job.done t) = st.m.rows.countP fun j => j.type = t ∧ j.state = .completed := by
  have hind := st.m.total_indicator fun j => decide (j.type = t ∧ j.state = .completed)
  simp only [decide_eq_true_eq] at hind
  exact hind

/-- The store's sums move by what is left to be counted. -/
theorem Posted.moves {st st' : Store} {r : Option Recording} {late : Option String} (h : Posted st st' r late)
    (t : String) :
    st'.m.total (Job.one t) = st.m.total (Job.one t) + owes r (.jobsSubmitted t) ∧
    st'.m.total (Job.done t) + (decide (late = some t)).toNat =
      st.m.total (Job.done t) + owes r (.jobsCompleted t) ∧
    st'.m.total (Job.failuresOf t) = st.m.total (Job.failuresOf t) + owes r (.jobsDuration t .failed) := by
  cases h with
  | same h => simp [h]
  | @quiet j j' hj hq hput =>
    have hold : st.find j'.id = some j := by rw [hq.id]; exact hj
    subst hput
    simp [Store.total_put _ hold, Job.one, Job.done, Job.failuresOf, hq.type, hq.completed, hq.failures]
  | @created j hj hs hr hput =>
    have hnew (f : Job → Int) : st'.m.total f = st.m.total f + f j := by
      rw [hput]
      exact Table.total_put_new f hj
    by_cases ht : j.type = t <;>
      simp [hnew, Job.one, Job.done, Job.failuresOf, Job.failures, hs, hr, ht, owes, Recording.metrics]
  | @ended j dest msg now hj hs hd hput =>
    have hold : st.find (Store.moved j dest msg now).id = some j := hj
    have htype : (Store.moved j dest msg now).type = j.type := rfl
    subst hput
    rcases hd with rfl | rfl | rfl <;> by_cases ht : j.type = t <;>
      simp [Store.total_put _ hold, Job.one, Job.done, Job.failuresOf, Job.failures, htype, hs, ht, owes,
        Recording.metrics]
  | @late jobType h =>
    by_cases ht : jobType = t <;> simp [h, owes, Recording.metrics]
  | @overruled jobType h =>
    by_cases ht : jobType = t <;> simp [h, owes, Recording.metrics, ht]

/-- A run is recorded as completed with that state only, and as failed with one of the other two. -/
def Recording.Right : Recording → Prop
  | .terminal _ state success => state = .completed ∧ success = true ∨
      (state = .failed ∨ state = .cancelled) ∧ success = false
  | .submitted _ | .observing _ _ => True

theorem Posted.right {st st' : Store} {r : Option Recording} {late : Option String} (h : Posted st st' r late) :
    ∀ rec ∈ r, rec.Right := by
  intro rec hrec
  cases h with
  | same | quiet => cases hrec
  | created => cases hrec; trivial
  | @ended j dest _ _ _ _ hd =>
    cases hrec
    rcases hd with rfl | rfl | rfl
    · exact .inl ⟨rfl, rfl⟩
    · exact .inr ⟨.inr rfl, rfl⟩
    · exact .inr ⟨.inl rfl, rfl⟩
  | late => cases hrec; exact .inr ⟨.inr rfl, rfl⟩
  | overruled => cases hrec; exact .inl ⟨rfl, rfl⟩

/-- Every run that is recorded is in the histogram once. -/
theorem Posted.observed {st st' : Store} {r : Option Recording} {late : Option String} (h : Posted st st' r late)
    (t : String) :
    owes r (.jobsDuration t .completed) = owes r (.jobsCompleted t) ∧
    owes r (.jobsFailed t) = owes r (.jobsDuration t .failed) + owes r (.jobsDuration t .cancelled) := by
  cases h with
  | same | quiet | created => simp [owes, Recording.metrics]
  | @ended j dest msg now hj hs hd hput =>
    rcases hd with rfl | rfl | rfl <;> by_cases ht : j.type = t <;> simp [owes, Recording.metrics, ht]
  | @late jobType h => by_cases ht : jobType = t <;> simp [owes, Recording.metrics, ht]
  | @overruled jobType h => by_cases ht : jobType = t <;> simp [owes, Recording.metrics, ht]

/-- The counter of a run is incremented before its duration is observed. -/
theorem Recording.Right.behind {r : Recording} (h : r.Right) (t : String) :
    owes (some r) (.jobsCompleted t) ≤ owes (some r) (.jobsDuration t .completed) ∧
    owes (some r) (.jobsFailed t) ≤
      owes (some r) (.jobsDuration t .failed) + owes (some r) (.jobsDuration t .cancelled) := by
  cases r with
  | submitted u => simp [owes, Recording.metrics]
  | observing u state => simp [owes, Recording.metrics]
  | terminal u state success =>
    rcases h with ⟨rfl, rfl⟩ | ⟨rfl | rfl, rfl⟩ <;> by_cases ht : u = t <;> simp [owes, Recording.metrics, ht]

/-- `Transition` to a state that is not counted. -/
theorem Posted.transition {st : Store} {id msg : String} {dest : State} {now : Time} (hc : dest ≠ .completed)
    (hf : dest ≠ .failed) (hretry : ∀ j, st.find id = some j → j.state = .failed → dest ≠ .pending) :
    Posted st (st.transition id dest msg now).2 none none := by
  cases hj : st.find id with
  | none => exact .same (by rw [Store.transition_none hj])
  | some j =>
    obtain rfl := Store.id_of_find hj
    rcases Store.transition_cases hj dest msg now with ⟨ht, hw⟩ | ⟨-, hw⟩
    · exact .quiet hj (quiet_moved ht hc hf (hretry j hj) msg now) (by rw [hw])
    · exact .same (by rw [hw])

/-- A cancelled job stays as it is. -/
theorem transition_of_cancelled {st : Store} {j : Job} (hj : st.find j.id = some j) (hs : j.state = .cancelled)
    (dest : State) (msg : String) (now : Time) :
    st.transition j.id dest msg now = (.error .invalidTransition, st) := by
  rcases Store.transition_cases hj dest msg now with ⟨ht, -⟩ | ⟨-, hw⟩
  · rw [hs] at ht
    cases dest <;> cases ht
  · exact hw

/-- The job that a worker executes is stored as running or cancelled, with the same type. -/
def Worker.Backed (sh : Shared) (pc : Worker) : Prop :=
  ∀ job, pc.job = some job → pc.role job.id = some .executing →
    ∃ j, sh.store.find job.id = some j ∧ (j.state = .running ∨ j.state = .cancelled) ∧ j.type = job.type

/-- The `Transition` at the end of a run finds the job running and ends it, or finds it cancelled. -/
theorem Worker.Backed.ends {sh : Shared} {pc : Worker} {job : Job} (h : pc.Backed sh) (hjob : pc.job = some job)
    (hrole : pc.role job.id = some .executing) {dest : State}
    (hd : dest = .completed ∨ dest = .cancelled ∨ dest = .failed) (msg : String) (now : Time) :
    (∃ st', sh.store.transition job.id dest msg now = (.ok (), st') ∧
      (sh.store.find job.id).map Job.state = some .running ∧
      Posted sh.store st' (some (.terminal job.type dest (dest = .completed))) none) ∨
    sh.store.transition job.id dest msg now = (.error .invalidTransition, sh.store) ∧
      (sh.store.find job.id).map Job.state = some .cancelled := by
  obtain ⟨j, hj, hs, htype⟩ := h job hjob hrole
  have hid : j.id = job.id := Store.id_of_find hj
  rw [← hid] at hj ⊢
  rw [← htype, hj, Option.map_some]
  rcases hs with hs | hs
  · have ht : Orchestrator.transition j.state dest = true := by
      rw [hs]
      rcases hd with rfl | rfl | rfl <;> rfl
    rcases Store.transition_cases hj dest msg now with ⟨-, hw⟩ | ⟨hf, -⟩
    · exact .inl ⟨_, hw, congrArg some hs, .ended hj hs hd rfl⟩
    · rw [ht] at hf
      cases hf
  · exact .inr ⟨transition_of_cancelled hj hs dest msg now, congrArg some hs⟩

theorem Worker.act_posted {sh sh' : Shared} {pc pc' : Worker} {a : WorkerAct} (h : pc.act sh a = some (pc', sh'))
    (hexec : pc.Backed sh)
    (hfail : ∀ job ctx cur, pc = .retrying job ctx cur → sh.store.find job.id = some cur ∧ cur.state = .failed) :
    Posted sh.store sh'.store (pc.records sh a) (pc.overruled sh a) := by
  unfold Worker.act at h
  split at h
  case h_1 job now =>
    have hp : Posted sh.store (sh.store.transition job.id .running "" now).2 none none :=
      .transition (by decide) (by decide) fun _ _ _ => by decide
    split at h <;> cases h
    · exact .same rfl
    · next hw =>
      rw [hw] at hp
      exact hp
  case h_6 job ctx runErr output now =>
    cases h
    obtain ⟨j, hj, -⟩ := hexec job rfl (holding_self _ _)
    have hid := Store.id_of_find hj
    refine .quiet (hid ▸ hj) (quiet_output j output) ?_
    rw [Shared.write, Store.setOutput, hj]
  case h_9 job ctx now =>
    cases h
    change Posted sh.store (sh.store.transition job.id .cancelled "cancelled by user" now).2
      (some (.terminal job.type .cancelled false)) none
    rcases hexec.ends rfl (holding_self _ _) (.inr (.inl rfl)) "cancelled by user" now with ⟨st', hw, -, hp⟩ | ⟨hw, -⟩
    · rw [hw]
      exact hp
    · exact .late (by rw [hw])
  case h_10 job ctx now =>
    cases h
    rw [Worker.records, Worker.overruled, Shared.write]
    rcases hexec.ends rfl (holding_self _ _) (.inl rfl) "" now with ⟨st', hw, hs, hp⟩ | ⟨hw, hs⟩
    · rw [hw, hs, if_neg (by decide)]
      exact hp
    · rw [hw, hs, if_pos rfl]
      exact .overruled rfl
  case h_11 job ctx errMsg now =>
    change Posted sh.store sh'.store (Worker.records sh (.failing job ctx errMsg) (.step now)) none
    rw [Worker.records]
    rcases hexec.ends rfl (holding_self _ _) (.inr (.inr rfl)) errMsg now with ⟨st', hw, -, hp⟩ | ⟨hw, -⟩
    · rw [hw] at h ⊢
      cases h
      exact hp
    · rw [hw] at h ⊢
      cases h
      exact .same rfl
  case h_13 job ctx current now =>
    obtain ⟨hj, hs⟩ := hfail job ctx current rfl
    have hid : current.id = job.id := Store.id_of_find hj
    rw [← hid] at hj
    split at h <;> cases h
    · refine .quiet hj (quiet_retry hs now) ?_
      have hup : sh.store.find (scheduleRetry current now).id = some current := hj
      rw [Shared.write, Store.update, hup]
      rfl
    · refine .transition (by decide) (by decide) fun _ _ _ => by decide
  all_goals
    repeat' split at h
    all_goals cases h
    all_goals exact .same rfl

/-- A worker that starts a job ends it with one record, or loses it. -/
theorem Worker.act_attempts {sh sh' : Shared} {pc pc' : Worker} {a : WorkerAct} (h : pc.act sh a = some (pc', sh'))
    (hexec : pc.Backed sh) (t : String) :
    (decide (pc'.attempts = some t)).toNat + owes (pc.records sh a) (.jobsCompleted t) +
        owes (pc.records sh a) (.jobsFailed t) + (decide (pc.loses sh a = some t)).toNat =
      (decide (pc.attempts = some t)).toNat + (decide (pc.starts sh a = some t)).toNat := by
  unfold Worker.act at h
  split at h
  case h_1 job now =>
    cases hj : sh.store.find job.id with
    | none =>
      rw [Store.transition_none hj] at h
      cases h
      simp [Worker.attempts, Worker.records, Worker.loses, Worker.starts, hj]
    | some j =>
      rcases Store.transition_cases hj .running "" now with ⟨ht, hw⟩ | ⟨ht, hw⟩ <;> rw [hw] at h <;> cases h
      · have hs : j.state = .queued := transition_running.mp ht
        simp [Worker.attempts, Worker.records, Worker.loses, Worker.starts, hj, hs]
      · have hs : j.state ≠ .queued := fun hs => by simp [transition_running.mpr hs] at ht
        simp [Worker.attempts, Worker.records, Worker.loses, Worker.starts, hj, hs]
  case h_9 job ctx now =>
    cases h
    by_cases ht : job.type = t <;>
      simp [Worker.attempts, Worker.records, Worker.loses, Worker.starts, owes, Recording.metrics, ht]
  case h_10 job ctx now =>
    cases h
    by_cases ht : job.type = t <;>
      simp [Worker.attempts, Worker.records, Worker.loses, Worker.starts, owes, Recording.metrics, ht]
  case h_11 job ctx errMsg now =>
    rcases hexec.ends rfl (holding_self _ _) (.inr (.inr rfl)) errMsg now with ⟨st', hw, hs, -⟩ | ⟨hw, hs⟩
    · rw [hw] at h
      cases h
      by_cases ht : job.type = t <;>
        simp [Worker.attempts, Worker.records, Worker.loses, Worker.starts, owes, Recording.metrics, hw, hs, ht]
    · rw [hw] at h
      cases h
      simp [Worker.attempts, Worker.records, Worker.loses, Worker.starts, hw, hs]
  all_goals
    repeat' split at h
    all_goals cases h
    all_goals rfl

theorem Request.act_posted {sh sh' : Shared} {pc pc' : Request} {a : RequestAct} (h : pc.act sh a = some (pc', sh')) :
    Posted sh.store sh'.store (pc.records sh a) none := by
  unfold Request.act at h
  split at h
  case h_2 req left now rand =>
    split at h
    · cases h; exact .same rfl
    · next b =>
      rcases hc : sh.store.create (newJob req (idOf b) now) with ⟨res, st⟩
      rw [hc] at h
      rw [Request.records, hc]
      cases res with
      | error err => cases h; exact .same rfl
      | ok =>
        cases h
        unfold Store.create at hc
        split at hc
        · cases hc
        · next hnew =>
          cases hc
          have hnone : sh.store.find (newJob req (idOf b) now).id = none := by simpa using hnew
          exact .created hnone rfl rfl rfl
  case h_9 k now rand =>
    have hp : Posted sh.store (sh.store.transition k .cancelled "cancelled by user" now).2 none none :=
      .transition (by decide) (by decide) fun _ _ _ => by decide
    split at h <;> cases h
    · exact .same rfl
    · next hw =>
      rw [hw] at hp
      exact hp
  all_goals
    repeat' split at h
    all_goals cases h
    all_goals exact .same rfl

theorem Scheduler.act_posted {cap : Nat} {sh sh' : Shared} {pc pc' : Scheduler} {a : SchedAct}
    (h : pc.act cap sh a = some (pc', sh'))
    (hwait : ∀ id j, pc.role id = some .waiting → sh.store.find id = some j → j.state ≠ .failed) :
    Posted sh.store sh'.store none none := by
  unfold Scheduler.act at h
  split at h
  case h_2 j rest now =>
    have hp : Posted sh.store (sh.store.transition j.id .queued "" now).2 none none :=
      .transition (by decide) (by decide) fun _ _ _ => by decide
    split at h <;> cases h
    · exact .same rfl
    · next hw =>
      rw [hw] at hp
      exact hp
  case h_5 j rest now =>
    cases h
    exact .transition (by decide) (by decide) fun i hi hs => absurd hs (hwait j.id i (holding_self _ _) hi)
  all_goals
    repeat' split at h
    all_goals cases h
    all_goals exact .same rfl

namespace Sys

variable {cap n : Nat} {σ σ' : Sys} {a : Action} {tr : List (Step Sys Action)} {x : Step Sys Action}

/-- What a step leaves to be counted. -/
def records (x : Step Sys Action) : Option Recording :=
  match x.label with
  | .work w a => (x.src.workers[w]?).bind fun pc => pc.records x.src.shared a
  | .request i a => (x.src.requests[i]?).bind fun pc => pc.records x.src.shared a
  | _ => none

/-- What `f` says of a worker's step. -/
def ofWorker (f : Shared → Worker → WorkerAct → Option String) (x : Step Sys Action) : Option String :=
  match x.label with
  | .work w a => (x.src.workers[w]?).bind fun pc => f x.src.shared pc a
  | _ => none

/-- What a counter should be after the steps `tr`. -/
def charged (tr : List (Step Sys Action)) (m : Metric) : Nat := (tr.map fun x => owes (records x) m).sum

theorem charged_snoc (m : Metric) : charged (tr ++ [x]) m = charged tr m + owes (records x) m := by
  simp [charged]

theorem Inv.backed (hI : σ.Inv) (hf : σ.Faithful) {w : Nat} {pc : Worker} (hw : σ.workers[w]? = some pc) :
    pc.Backed σ.shared := by
  intro job hjob hr
  obtain ⟨j, hj, horig⟩ := hf job (.worker hw hjob)
  have hstate := (allowedOwners.executing (hI.owned job.id) (owners_pos_of_worker hw hr)).1
  simp only [view, hj, Option.map_some, Option.some.injEq] at hstate
  exact ⟨j, hj, hstate, (congrArg Job.type horig).symm⟩

/-- **What a step of a reached state does and leaves to be counted.** -/
theorem Next.posted (h : σ.Next cap a σ') (hI : σ.Inv) (hf : σ.Faithful) :
    Posted σ.shared.store σ'.shared.store (records ⟨σ, a, σ'⟩)
      (ofWorker Worker.overruled ⟨σ, a, σ'⟩) := by
  cases h.acted with
  | schedule hact =>
    exact Scheduler.act_posted hact fun id j hr hj => (hI.owned id).not_failed hj (owners_pos_of_sched hr)
  | @work w a pc pc' sh hw hact =>
    simp only [records, ofWorker, hw, Option.bind_some]
    refine Worker.act_posted hact (hI.backed hf hw) fun job ctx cur hpc => ?_
    subst hpc
    have hcur := hI.current w ctx job cur hw
    obtain ⟨j, hj, hs, -⟩ := (hI.owned job.id).failed (owners_pos_of_worker hw (holding_self _ _))
    obtain rfl : cur = j := Option.some.inj (hcur.symm.trans hj)
    exact ⟨hcur, hs⟩
  | @request i a pc pc' sh hi hact =>
    simp only [records, ofWorker, hi, Option.bind_some]
    exact Request.act_posted hact
  | receive | handoff | deadline | submit | delete => exact .same rfl

/-- The workers that have started a job of the type and not ended it yet. -/
def attempting (σ : Sys) (t : String) : Nat := σ.workers.countP fun pc => pc.attempts = some t

/-- **A started job is recorded once, lost, or still with its worker.** -/
theorem Next.attempts (h : σ.Next cap a σ') (hI : σ.Inv) (hf : σ.Faithful) (t : String) :
    σ'.attempting t + owes (records ⟨σ, a, σ'⟩) (.jobsCompleted t) + owes (records ⟨σ, a, σ'⟩) (.jobsFailed t) +
        (decide (ofWorker Worker.loses ⟨σ, a, σ'⟩ = some t)).toNat =
      σ.attempting t + (decide (ofWorker Worker.starts ⟨σ, a, σ'⟩ = some t)).toNat := by
  cases h.acted with
  | @work w a pc pc' sh hw hact =>
    have hstep := Worker.act_attempts hact (hI.backed hf hw) t
    have hset := countP_set_add (fun pc => decide (pc.attempts = some t)) hw pc'
    simp only [records, ofWorker, hw, Option.bind_some, attempting]
    omega
  | @receive w job rest hw hqueue =>
    have hset := countP_set_add (fun pc => decide (pc.attempts = some t)) hw (.fetched job)
    exact hset
  | @handoff w job rest hw hsched =>
    have hset := countP_set_add (fun pc => decide (pc.attempts = some t)) hw (.fetched job)
    exact hset
  | @request i a pc pc' sh hi hact =>
    have hnone : pc.records σ.shared a = none ∨ ∃ u, pc.records σ.shared a = some (.submitted u) := by
      unfold Request.records
      repeat' split
      all_goals simp
    simp only [records, ofWorker, hi, Option.bind_some]
    rcases hnone with hr | ⟨u, hr⟩ <;> rw [hr] <;> rfl
  | schedule | deadline | submit | delete => rfl

/-- What the counters of one type should be, against the store. -/
structure Books (t : String) (tr : List (Step Sys Action)) (σ : Sys) : Prop where
  inv : σ.Inv
  faithful : σ.Faithful
  submitted : (charged tr (.jobsSubmitted t) : Int) = σ.shared.store.m.total (Job.one t)
  completed : (charged tr (.jobsCompleted t) : Int) = σ.shared.store.m.total (Job.done t) +
    tr.countP fun x => ofWorker Worker.overruled x = some t
  failures : (charged tr (.jobsDuration t .failed) : Int) = σ.shared.store.m.total (Job.failuresOf t)
  observed : charged tr (.jobsDuration t .completed) = charged tr (.jobsCompleted t)
  failed : charged tr (.jobsFailed t) =
    charged tr (.jobsDuration t .failed) + charged tr (.jobsDuration t .cancelled)
  attempts : tr.countP (fun x => ofWorker Worker.starts x = some t) =
    charged tr (.jobsCompleted t) + charged tr (.jobsFailed t) +
      tr.countP (fun x => ofWorker Worker.loses x = some t) + σ.attempting t

theorem Books.step {t : String} (h : Books t tr x.src) (hn : x.src.Next cap x.label x.dst) :
    Books t (tr ++ [x]) x.dst := by
  obtain ⟨σ, a, σ'⟩ := x
  change Books t tr σ at h
  change σ.Next cap a σ' at hn
  change Books t (tr ++ [⟨σ, a, σ'⟩]) σ'
  obtain ⟨hI, hf, hsub, hdone, hfail, hobs, hfailed, hatt⟩ := h
  have hposted := hn.posted hI hf
  obtain ⟨hsub', hdone', hfail'⟩ := hposted.moves t
  obtain ⟨hobs', hfailed'⟩ := hposted.observed t
  have hatt' := hn.attempts hI hf t
  refine ⟨hI.next hn, hf.next hI hn, ?_, ?_, ?_, ?_, ?_, ?_⟩ <;> simp only [charged_snoc, Run.countP_snoc]
  all_goals omega

theorem books_of_run (h : Run (Next cap) (start n) tr σ) (t : String) : Books t tr σ := by
  refine Run.inv_hist (Books t) (fun _ => True) (fun _ _ hn _ hb => hb.step hn)
    ⟨inv_start n, faithful_start n, rfl, rfl, rfl, rfl, rfl, ?_⟩ h fun _ _ => trivial
  simp [charged, attempting, start, List.countP_replicate, Worker.attempts]

end Sys

/-! ## The orchestrator with its counters -/

inductive Goroutine where
  | worker (w : Nat)
  | request (i : Nat)
deriving DecidableEq

/-- The goroutine that takes the step; the scheduler counts nothing. -/
def Action.goroutine : Action → Option Goroutine
  | .work w _ | .receive w | .handoff w => some (.worker w)
  | .request i _ => some (.request i)
  | .schedule _ | .deadline _ | .submit _ | .delete _ => none

structure Metered where
  sys : Sys
  value : Metric → Nat := fun _ => 0
  /-- the goroutines that have still to count what they did -/
  recording : List (Goroutine × Recording) := []

inductive MeteredAct where
  | sys (a : Action)
  /-- the next increment of a goroutine -/
  | count (g : Goroutine)

namespace Metered

def start (n : Nat) : Metered := { sys := Sys.start n }

/-- What the goroutine of a step has to count after it. -/
def entry (x : Step Sys Action) : List (Goroutine × Recording) :=
  match x.label.goroutine, Sys.records x with
  | some g, some r => [(g, r)]
  | _, _ => []

def act (cap : Nat) (σ : Metered) : MeteredAct → Option Metered
  | .sys a =>
    -- a goroutine goes on when it has counted
    if σ.recording.any fun e => some e.1 = a.goroutine then none
    else (σ.sys.act cap a).map fun s => { σ with sys := s, recording := σ.recording ++ entry ⟨σ.sys, a, s⟩ }
  | .count g =>
    (σ.recording.find? fun e => e.1 = g).map fun e =>
      { σ with
        value := Function.update σ.value e.2.metric (σ.value e.2.metric + 1)
        recording := σ.recording.erase e ++ (e.2.next.map fun r => (e.1, r)).toList }

def Next (cap : Nat) (σ : Metered) (a : MeteredAct) (σ' : Metered) : Prop := σ.act cap a = some σ'

/-- How often the goroutines have still to increment a counter. -/
def owed (l : List (Goroutine × Recording)) (m : Metric) : Nat := (l.map fun e => owes (some e.2) m).sum

theorem owed_append (l l' : List (Goroutine × Recording)) (m : Metric) : owed (l ++ l') m = owed l m + owed l' m := by
  simp [owed]

theorem owed_erase {l : List (Goroutine × Recording)} {e : Goroutine × Recording} (he : e ∈ l) (m : Metric) :
    owed l m = owes (some e.2) m + owed (l.erase e) m := by
  have hperm := (List.perm_cons_erase he).map fun e => owes (some e.2) m
  exact hperm.sum_eq

theorem owed_entry (x : Step Sys Action) (m : Metric) : owed (entry x) m = owes (Sys.records x) m := by
  obtain ⟨σ, a, σ'⟩ := x
  cases a with
  | work w a =>
    unfold entry
    cases hr : Sys.records ⟨σ, .work w a, σ'⟩ <;> simp [Action.goroutine, owed]
  | request i a =>
    unfold entry
    cases hr : Sys.records ⟨σ, .request i a, σ'⟩ <;> simp [Action.goroutine, owed]
  | schedule | receive | handoff | deadline | submit | delete => rfl

/-- An increment is one less that is owed. -/
theorem owes_next (r : Recording) (m : Metric) :
    owes (some r) m = (decide (m = r.metric)).toNat + owes r.next m := by
  unfold owes
  rw [Option.elim_some, r.metrics_eq, List.count_cons]
  by_cases hm : m = r.metric
  · subst hm
    simp [Nat.add_comm]
  · simp [hm, Ne.symm hm]

/-- The steps of the goroutines other than their increments. -/
def sysSteps (tr : List (Step Metered MeteredAct)) : List (Step Sys Action) :=
  tr.filterMap fun x =>
    match x.label with
    | .sys a => some ⟨x.src.sys, a, x.dst.sys⟩
    | .count _ => none

/-- The counters and what is still owed are what the steps so far amount to. -/
structure Accounted (cap n : Nat) (tr : List (Step Metered MeteredAct)) (σ : Metered) : Prop where
  run : Run (Sys.Next cap) (Sys.start n) (sysSteps tr) σ.sys
  balance : ∀ m, σ.value m + owed σ.recording m = Sys.charged (sysSteps tr) m
  right : ∀ e ∈ σ.recording, e.2.Right

variable {cap n : Nat} {σ σ' : Metered} {tr : List (Step Metered MeteredAct)}

theorem Accounted.sys {a : Action} (h : Accounted cap n tr σ) (hn : σ.Next cap (.sys a) σ') :
    Accounted cap n (tr ++ [⟨σ, .sys a, σ'⟩]) σ' := by
  simp only [Next, act] at hn
  split at hn
  · cases hn
  · obtain ⟨s, hs, rfl⟩ := Option.map_eq_some_iff.mp hn
    have hsteps (σ' : Metered) :
        sysSteps (tr ++ [⟨σ, .sys a, σ'⟩]) = sysSteps tr ++ [⟨σ.sys, a, σ'.sys⟩] := by simp [sysSteps]
    have hbooks := Sys.books_of_run h.run ""
    have hright := (Sys.Next.posted hs hbooks.inv hbooks.faithful).right
    constructor
    · rw [hsteps]
      exact h.run.snoc a hs
    · intro m
      rw [hsteps, Sys.charged_snoc, ← h.balance m, owed_append, owed_entry, Nat.add_assoc]
    · intro e he
      rcases List.mem_append.mp he with he | he
      · exact h.right e he
      · unfold entry at he
        split at he
        · next r _ hr =>
          obtain rfl := List.mem_singleton.mp he
          exact hright r hr
        · cases he

theorem Accounted.count {g : Goroutine} (h : Accounted cap n tr σ) (hn : σ.Next cap (.count g) σ') :
    Accounted cap n (tr ++ [⟨σ, .count g, σ'⟩]) σ' := by
  simp only [Next, act] at hn
  obtain ⟨e, he, rfl⟩ := Option.map_eq_some_iff.mp hn
  have hmem := List.mem_of_find?_eq_some he
  have hsteps (σ' : Metered) : sysSteps (tr ++ [⟨σ, .count g, σ'⟩]) = sysSteps tr := by simp [sysSteps]
  constructor
  · rw [hsteps]
    exact h.run
  · intro m
    have hbalance := h.balance m
    rw [owed_erase hmem, owes_next] at hbalance
    have hnext : owed (e.2.next.map fun r => (e.1, r)).toList m = owes e.2.next m := by
      cases e.2.next <;> simp [owed]
    rw [hsteps, owed_append, hnext, ← hbalance]
    dsimp only
    by_cases hm : m = e.2.metric
    · subst hm
      simp only [Function.update_self, decide_true, Bool.toNat_true]
      omega
    · simp only [Function.update_of_ne hm, hm, decide_false, Bool.toNat_false]
      omega
  · intro e' he'
    rcases List.mem_append.mp he' with he' | he'
    · exact h.right e' (List.mem_of_mem_erase he')
    · -- what follows on an increment is an observation
      obtain ⟨r, hr, rfl⟩ := Option.map_eq_some_iff.mp (Option.mem_toList.mp he')
      cases hrec : e.2 with
      | terminal =>
        rw [hrec] at hr
        cases hr
        trivial
      | submitted | observing =>
        rw [hrec] at hr
        cases hr

theorem accounted_of_run (h : Run (Next cap) (start n) tr σ) : Accounted cap n tr σ := by
  refine Run.inv_hist (Accounted cap n) (fun _ => True) (fun tr x hn _ hA => ?_)
    ⟨.nil, fun m => rfl, fun e he => by cases he⟩ h fun _ _ => trivial
  obtain ⟨σ, a, σ'⟩ := x
  cases a with
  | sys a => exact hA.sys hn
  | count g => exact hA.count hn

theorem Accounted.behind (h : Accounted cap n tr σ) (t : String) :
    owed σ.recording (.jobsCompleted t) ≤ owed σ.recording (.jobsDuration t .completed) ∧
    owed σ.recording (.jobsFailed t) ≤
      owed σ.recording (.jobsDuration t .failed) + owed σ.recording (.jobsDuration t .cancelled) := by
  constructor
  · exact List.sum_le_sum fun e he => ((h.right e he).behind t).1
  · unfold owed
    rw [← List.sum_map_add]
    exact List.sum_le_sum fun e he => ((h.right e he).behind t).2

/-- The counters of type `t` stand in the relation `r` to what they count: the stored jobs; the `COMPLETED` jobs and the
completions that a cancellation had overruled; the retries of all jobs, and one for each job that failed or is
exhausted; the completions and the failures observed, those counted; and the attempts counted, those that were lost to
a cancellation and those that are with a worker, all that were started. -/
structure Tallies (r : Int → Int → Prop) (t : String) (tr : List (Step Metered MeteredAct)) (σ : Metered) : Prop where
  submitted : r (σ.value (.jobsSubmitted t)) (σ.sys.shared.store.m.rows.countP fun j => j.type = t)
  completed : r (σ.value (.jobsCompleted t))
    (σ.sys.shared.store.m.rows.countP (fun j => j.type = t ∧ j.state = .completed) +
      (sysSteps tr).countP fun x => Sys.ofWorker Worker.overruled x = some t)
  failures : r (σ.value (.jobsDuration t .failed)) (σ.sys.shared.store.m.rows.map (Job.failuresOf t)).sum
  observed : r (σ.value (.jobsDuration t .completed)) (σ.value (.jobsCompleted t))
  failed : r (σ.value (.jobsDuration t .failed) + σ.value (.jobsDuration t .cancelled)) (σ.value (.jobsFailed t))
  attempts : r (σ.value (.jobsCompleted t) + σ.value (.jobsFailed t) +
      (sysSteps tr).countP (fun x => Sys.ofWorker Worker.loses x = some t) + σ.sys.attempting t)
    ((sysSteps tr).countP fun x => Sys.ofWorker Worker.starts x = some t)

/-- **The counters against the store**, for every job type.  At every moment of every run no counter is ahead of what it
counts; and when no goroutine is between its store call and its last increment, the counters are exact. -/
theorem metrics_account (h : Run (Next cap) (start n) tr σ) (t : String) :
    Tallies (· ≤ ·) t tr σ ∧ (σ.recording = [] → Tallies (· = ·) t tr σ) := by
  have hA := accounted_of_run h
  obtain ⟨-, -, hsub, hdone, hfail, hobs, hfailed, hatt⟩ := Sys.books_of_run hA.run t
  obtain ⟨hbehind, hbehind'⟩ := hA.behind t
  have hone := σ.sys.shared.store.total_one t
  have hcompleted := σ.sys.shared.store.total_done t
  have hsum : σ.sys.shared.store.m.total (Job.failuresOf t) = (σ.sys.shared.store.m.rows.map (Job.failuresOf t)).sum :=
    rfl
  simp only [← hA.balance] at hsub hdone hfail hobs hfailed hatt
  constructor
  · constructor <;> omega
  · intro hrest
    have hnone (m : Metric) : owed σ.recording m = 0 := by
      rw [hrest]
      rfl
    simp only [hnone] at hsub hdone hfail hobs hfailed hatt
    constructor <;> omega

/-- A `DELETE` reads `QUEUED`, the job is started, the `DELETE` writes `CANCELLED`, and the run succeeds; each
goroutine counts at once. -/
def overruledRun : List MeteredAct :=
  [.sys (.submit (some Sys.flaky)), .sys (.request 0 (.step 0 (some (0, 0, 0)))), .count (.request 0),
   .sys (.schedule (.list [newJob Sys.flaky "job_000000" 0] 1)), .sys (.schedule (.queue 1)),
   .sys (.delete "job_000000"), .sys (.request 1 (.step 1 none)), .sys (.schedule .send), .sys (.receive 0),
   .sys (.work 0 (.step 1)), .sys (.request 1 (.step 1 none)), .sys (.work 0 (.step 1)), .sys (.work 0 .spawn),
   .sys (.work 0 (.exit none "")), .sys (.work 0 (.step 2)), .sys (.work 0 (.step 2)), .sys (.work 0 (.step 2)),
   .sys (.work 0 (.step 2)), .count (.worker 0), .count (.worker 0)]

/-- Its steps, and where the first `k` of them lead. -/
def overruledTrace : List (Step Metered MeteredAct) := stepsOf (act 1) (start 1) overruledRun

def overruledAt (k : Nat) : Metered := stateAfter (act 1) (start 1) (overruledRun.take k)

/-- Before its `Inc` the stored job is not counted; in the end the one completion counted is overruled. -/
theorem metrics_account_overruled :
    ((overruledAt 2).value (.jobsSubmitted "") = 0 ∧ (overruledAt 2).sys.state "job_000000" = some .pending) ∧
    (overruledAt 20).sys.state "job_000000" = some .cancelled ∧ (overruledAt 20).value (.jobsCompleted "") = 1 ∧
    (overruledAt 20).recording = [] ∧ Tallies (· = ·) "" overruledTrace (overruledAt 20) := by
  have hrest : (overruledAt 20).recording = [] := by decide +kernel
  have hrun : Run (Next 1) (start 1) overruledTrace (overruledAt 20) :=
    run_stepsOf (act 1) (fun _ _ _ h => h) .nil overruledRun
  exact ⟨⟨by decide +kernel, by decide +kernel⟩, by decide +kernel, by decide +kernel, hrest,
    (metrics_account hrun "").2 hrest⟩

end Metered

end Orchestrator
