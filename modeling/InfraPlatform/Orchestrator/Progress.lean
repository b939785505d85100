import InfraPlatform.Lib.Endless
import InfraPlatform.Orchestrator.Dispatch
import InfraPlatform.Orchestrator.Lifecycle
import InfraPlatform.Orchestrator.Outcome

/-!
# Every job comes to an end

Liveness of the orchestrator before shutdown.  The rank of a state prices what the workers have still to do: a
submission that may create a job, an attempt that a job has left, a copy on its way to a worker, the steps
of `Executor.Run`.

* `Sys.Next.rank`: no step but the arrival of a submission raises the rank, and every step of a worker lowers it.
  Dispatch and take-back only move the price between the job and its copy.
* `Fair`: what the Go runtime, the subprocesses and the clock owe the system.
* `jobs_settle`: once no submission arrives any more, every job is `COMPLETED`, `EXHAUSTED` or `CANCELLED` from some
  moment on, whatever the subprocesses return and however many `DELETE` requests and deadlines intervene.

Under an endless stream of submissions there is no such result: `scheduleReady` serves priorities, and a
job can be overtaken for ever.
-/

namespace Orchestrator

open Lib
open ControlPlane (Time)

/-! ## The rank -/

/-- The attempts that are left after the current one. -/
def Job.retriesLeft (j : Job) : Int := max 0 (j.maxRetries - j.retryCount)

/-- What a job in this state may still cost with `left` retries: 13 worker steps an attempt, the receive included. -/
def State.rank (left : Int) : State → Int
  | .pending => 13 * (left + 1)
  | .queued | .running | .failed => 13 * left
  | .completed | .exhausted | .cancelled => 0

def Job.rank (j : Job) : Int := j.state.rank j.retriesLeft

def Worker.rank : Worker → Int
  | .idle => 0
  | .fetched _ => 12
  | .claimed _ => 11
  | .registered .. => 10
  | .executing .. => 9
  | .ended .. => 8
  | .judging .. => 7
  | .judgingDeadline .. => 6
  | .failing .. => 5
  | .failed .. => 4
  | .retrying .. | .cancelling .. | .completing .. => 3
  | .leaving .. => 2
  | .left _ => 1

def Scheduler.rank : Scheduler → Int
  | .loop _ => 0
  | .sending .. | .reverting .. => 13

def Request.rank : Request → Int
  | .submitting req _ => 13 * (max 0 req.maxRetries + 1) + 1
  | _ => 0

def Store.rank (st : Store) : Int := st.m.total Job.rank

def Sys.rank (σ : Sys) : Int :=
  σ.shared.store.rank + 13 * σ.shared.queue.length + σ.sched.rank + (σ.workers.map Worker.rank).sum +
    (σ.requests.map Request.rank).sum

theorem Job.retriesLeft_nonneg (j : Job) : 0 ≤ j.retriesLeft := le_max_left _ _

theorem Job.rank_nonneg (j : Job) : 0 ≤ j.rank := by
  have hleft := j.retriesLeft_nonneg
  unfold Job.rank State.rank
  split <;> omega

theorem Worker.rank_nonneg (pc : Worker) : 0 ≤ pc.rank := by
  cases pc <;> simp [Worker.rank]

theorem Request.rank_nonneg (pc : Request) : 0 ≤ pc.rank := by
  unfold Request.rank
  split <;> omega

theorem Scheduler.rank_nonneg (pc : Scheduler) : 0 ≤ pc.rank := by
  cases pc <;> simp [Scheduler.rank]

theorem Sys.rank_nonneg (σ : Sys) : 0 ≤ σ.rank := by
  have hstore : 0 ≤ σ.shared.store.rank := Table.total_nonneg _ _ fun j _ => j.rank_nonneg
  have hworkers : 0 ≤ (σ.workers.map Worker.rank).sum := List.sum_nonneg fun x hx => by
    obtain ⟨pc, -, rfl⟩ := List.mem_map.mp hx
    exact pc.rank_nonneg
  have hrequests : 0 ≤ (σ.requests.map Request.rank).sum := List.sum_nonneg fun x hx => by
    obtain ⟨pc, -, rfl⟩ := List.mem_map.mp hx
    exact pc.rank_nonneg
  have hsched := σ.sched.rank_nonneg
  unfold Sys.rank
  omega

/-! ## What a write does to the rank -/

namespace Store

variable {st : Store} {id : String} {j : Job}

theorem rank_put {old : Job} (h : st.find j.id = some old) : (st.put j).rank + old.rank = st.rank + j.rank :=
  Table.total_put_of_get Job.rank h

theorem rank_transition (h : st.find id = some j) (dest : State) (msg : String) (now : Time) :
    (st.transition id dest msg now).2.rank + j.rank = st.rank + (tried j dest msg now).rank := by
  rcases transition_cases h dest msg now with ⟨ht, hw⟩ | ⟨ht, hw⟩
  · rw [hw, tried_of ht]
    exact rank_put (j := moved j dest msg now) ((id_of_find h).symm ▸ h)
  · rw [hw, tried_not ht]

theorem rank_setOutput (st : Store) (id output : String) : (st.setOutput id output).2.rank = st.rank := by
  unfold setOutput
  split
  · rfl
  · next j hj =>
    have hput : (st.put { j with output }).rank + j.rank = st.rank + j.rank :=
      rank_put (j := { j with output }) ((id_of_find hj).symm ▸ hj)
    exact add_right_cancel hput

theorem rank_tried_le (j : Job) (dest : State) (msg : String) (now : Time) :
    (tried j dest msg now).rank ≤ j.rank + if dest = .pending then 13 else 0 := by
  by_cases ht : Orchestrator.transition j.state dest = true
  · rw [tried_of ht]
    have hleft := j.retriesLeft_nonneg
    change dest.rank j.retriesLeft ≤ j.state.rank j.retriesLeft + _
    generalize j.state = st at ht
    revert ht
    cases st <;> cases dest <;> simp [State.rank, Orchestrator.transition, allowedTransitions] <;> omega
  · rw [tried_not (by simpa using ht)]
    split <;> omega

/-- `Transition` costs nothing, except that back to `PENDING` an attempt is to be paid again. -/
theorem rank_transition_le (st : Store) (id : String) (dest : State) (msg : String) (now : Time) :
    (st.transition id dest msg now).2.rank ≤ st.rank + if dest = .pending then 13 else 0 := by
  cases hj : st.find id with
  | none =>
    rw [transition_none hj]
    split <;> simp
  | some j =>
    have hrow := rank_transition hj dest msg now
    have hle := rank_tried_le j dest msg now
    omega

/-- The attempt of a job that is dispatched is paid by its copy. -/
theorem rank_queued {st' : Store} {now : Time} (h : st.transition id .queued "" now = (.ok (), st')) :
    st'.rank + 13 = st.rank := by
  cases hj : st.find id with
  | none =>
    rw [transition_none hj] at h
    cases h
  | some j =>
    have hrow := rank_transition hj .queued "" now
    rcases transition_cases hj .queued "" now with ⟨ht, hw⟩ | ⟨ht, hw⟩
    · have hs : j.state = .pending := transition_queued.mp ht
      have hold : j.rank = 13 * (j.retriesLeft + 1) := by rw [Job.rank, hs]; rfl
      have hnew : (tried j .queued "" now).rank = 13 * j.retriesLeft := by rw [tried_of ht]; rfl
      simp only [h] at hrow
      omega
    · rw [hw] at h
      cases h

theorem rank_create {st' : Store} (h : st.create j = (.ok (), st')) : st'.rank = st.rank + j.rank := by
  unfold create at h
  split at h
  · cases h
  · next hnew =>
    cases h
    have hfree : st.find j.id = none := by simpa using hnew
    exact Table.total_put_new Job.rank hfree

theorem keys_transition (st : Store) (id : String) (dest : State) (msg : String) (now : Time) :
    (st.transition id dest msg now).2.m.keys = st.m.keys := by
  cases hj : st.find id with
  | none => rw [transition_none hj]
  | some j =>
    rcases transition_cases hj dest msg now with ⟨-, hw⟩ | ⟨-, hw⟩
    · rw [hw]
      have hrow : st.find (moved j dest msg now).id = some j := (id_of_find hj).symm ▸ hj
      exact Table.keys_put_of_get hrow
    · rw [hw]

/-- A retry uses up one of the attempts that were left. -/
theorem rank_retry (h : st.find id = some j) (hs : j.state = .failed) (hlt : j.retryCount < j.maxRetries) (now : Time) :
    (st.update (scheduleRetry j now)).2.rank = st.rank := by
  have hfind : st.find (scheduleRetry j now).id = some j := (id_of_find h).symm ▸ h
  have hput := rank_put hfind
  have hold : j.rank = 13 * j.retriesLeft := by rw [Job.rank, hs]; rfl
  have hnew : (scheduleRetry j now).rank = 13 * ((scheduleRetry j now).retriesLeft + 1) := rfl
  have hleft : (scheduleRetry j now).retriesLeft + 1 = j.retriesLeft := by
    change max 0 (j.maxRetries - (j.retryCount + 1)) + 1 = max 0 (j.maxRetries - j.retryCount)
    omega
  unfold update
  rw [if_pos (by rw [hfind]; rfl)]
  change (st.put (scheduleRetry j now)).rank = st.rank
  omega

end Store

/-! ## What a step does to the rank -/

/-- A worker pays for each of its steps. -/
theorem Worker.act_rank {sh sh' : Shared} {pc pc' : Worker} {a : WorkerAct} (h : pc.act sh a = some (pc', sh'))
    (hcur : ∀ job ctx cur, pc = .retrying job ctx cur → sh.store.find job.id = some cur ∧ cur.state = .failed) :
    sh'.store.rank + pc'.rank < sh.store.rank + pc.rank := by
  have hmove (id : String) (dest : State) (msg : String) (now : Time) (hd : dest ≠ .pending) :
      (sh.store.transition id dest msg now).2.rank ≤ sh.store.rank := by
    simpa [hd] using sh.store.rank_transition_le id dest msg now
  unfold Worker.act at h
  split at h
  case h_1 job now =>
    have hle := hmove job.id .running "" now (by simp)
    split at h
    · cases h
      simp [Worker.rank]
    · next store hw =>
      simp only [hw] at hle
      cases h
      simp only [Worker.rank]
      omega
  case h_2 => cases h; simp [Worker.rank]
  case h_3 =>
    split at h <;> cases h
    simp [Worker.rank]
  case h_4 => cases h; simp [Worker.rank]
  case h_5 => cases h; simp [Worker.rank]
  case h_6 job ctx runErr output now =>
    cases h
    simp only [Shared.write, Store.rank_setOutput, Worker.rank]
    omega
  case h_7 => split at h <;> cases h <;> simp [Worker.rank]
  case h_8 =>
    split at h
    · cases h
      simp [Worker.rank]
    · split at h <;> cases h <;> simp [Worker.rank]
  case h_9 job ctx now =>
    have hle := hmove job.id .cancelled "cancelled by user" now (by simp)
    cases h
    simp only [Shared.write, Worker.rank]
    omega
  case h_10 job ctx now =>
    have hle := hmove job.id .completed "" now (by simp)
    cases h
    simp only [Shared.write, Worker.rank]
    omega
  case h_11 job ctx errMsg now =>
    have hle := hmove job.id .failed errMsg now (by simp)
    split at h
    · cases h
      simp [Worker.rank]
    · next store hw =>
      simp only [hw] at hle
      cases h
      simp only [Worker.rank]
      omega
  case h_12 => split at h <;> cases h <;> simp [Worker.rank]
  case h_13 job ctx cur now =>
    obtain ⟨hj, hs⟩ := hcur job ctx cur rfl
    split at h
    · next hlt =>
      cases h
      simp only [Shared.write, Store.rank_retry hj hs hlt, Worker.rank]
      omega
    · have hle := hmove job.id .exhausted "" now (by simp)
      cases h
      simp only [Shared.write, Worker.rank]
      omega
  case h_14 => cases h; simp [Worker.rank]
  case h_15 => cases h; simp [Worker.rank, Shared.endCtx]
  case h_16 => cases h

/-- The scheduler only moves the price of an attempt between the job and its copy. -/
theorem Scheduler.act_rank {cap : Nat} {sh sh' : Shared} {pc pc' : Scheduler} {a : SchedAct}
    (h : pc.act cap sh a = some (pc', sh')) :
    sh'.store.rank + 13 * sh'.queue.length + pc'.rank ≤ sh.store.rank + 13 * sh.queue.length + pc.rank := by
  unfold Scheduler.act at h
  split at h
  case h_1 => split at h <;> cases h; simp [Scheduler.rank]
  case h_2 j rest now =>
    split at h
    · cases h; simp [Scheduler.rank]
    · next store hw =>
      cases h
      have hpaid := Store.rank_queued hw
      simp only [Scheduler.rank]
      omega
  case h_3 =>
    split at h <;> cases h
    simp only [Scheduler.rank, List.length_append, List.length_singleton]
    omega
  case h_4 => split at h <;> cases h; simp [Scheduler.rank]
  case h_5 j rest now =>
    cases h
    have hle := sh.store.rank_transition_le j.id .pending "" now
    simp only [Shared.write, Scheduler.rank, reduceIte] at hle ⊢
    omega
  case h_6 => cases h

/-- A request that creates a job has paid for it, and for the creation, when it arrived. -/
theorem Request.act_rank {sh sh' : Shared} {pc pc' : Request} {a : RequestAct} (h : pc.act sh a = some (pc', sh')) :
    sh'.store.rank + pc'.rank + (if sh'.store.m.keys = sh.store.m.keys then 0 else 1) ≤ sh.store.rank + pc.rank := by
  -- all but the two steps that write leave the store and never become a submission
  have hread (hstore : sh'.store = sh.store) (hrank : pc'.rank ≤ pc.rank) :
      sh'.store.rank + pc'.rank + (if sh'.store.m.keys = sh.store.m.keys then 0 else 1) ≤
        sh.store.rank + pc.rank := by
    rw [hstore, if_pos rfl]
    omega
  unfold Request.act at h
  split at h
  case h_1 req now rand => cases h; exact hread rfl (Request.rank_nonneg _)
  case h_2 req attempts now rand =>
    split at h
    · cases h
      exact hread rfl (Request.rank_nonneg _)
    · next b =>
      split at h
      · next store hc =>
        cases h
        have hnew : (newJob req (idOf b) now).rank = 13 * (max 0 req.maxRetries + 1) := by
          change 13 * (max 0 (req.maxRetries - 0) + 1) = _
          rw [Int.sub_zero]
        simp only [Store.rank_create hc, hnew, Request.rank]
        split <;> omega
      · cases h
        exact hread rfl le_rfl
  case h_9 id now rand =>
    have hle := sh.store.rank_transition_le id .cancelled "cancelled by user" now
    split at h
    · cases h
      exact hread rfl le_rfl
    · next store hc =>
      have hkeys := sh.store.keys_transition id .cancelled "cancelled by user" now
      simp only [hc] at hle hkeys
      cases h
      simpa [Request.rank, hkeys] using hle
  case h_4 id now rand =>
    split at h
    · cases h
      exact hread rfl le_rfl
    · next job hget =>
      cases h
      refine hread rfl (le_of_eq ?_)
      unfold cancelJob
      split <;> rfl
  case h_12 => cases h
  all_goals (repeat' split at h) <;> cases h <;> exact hread rfl le_rfl

/-- The steps that are paid for: those of the workers. -/
def Action.works : Action → Prop
  | .work _ _ | .receive _ | .handoff _ => True
  | .schedule _ | .deadline _ | .submit _ | .delete _ | .request _ _ => False

def Action.submits : Action → Prop
  | .submit _ => True
  | _ => False

theorem Turn.none_of_none {who : Actor} {r r' : Option Role} {job : Option Job} (h : Turn who r none r' job)
    (hwho : who = .scheduler ∨ who = .worker) : job = none := by
  cases h with
  | same => rfl
  | submit => simp at hwho

namespace Sys

variable {cap n : Nat} {σ σ' : Sys} {a : Action}

/-- A worker about to reschedule a job holds it as it is stored, and the job has failed. -/
theorem Inv.retrying (hI : σ.Inv) {w ctx : Nat} {job cur : Job} (hw : σ.workers[w]? = some (.retrying job ctx cur)) :
    σ.job job.id = some cur ∧ cur.state = .failed := by
  have hcur := hI.current w ctx job cur hw
  have hown : 0 < σ.owners job.id .failing := owners_pos_of_worker hw (holding_self _ _)
  obtain ⟨i, hi, hs, -⟩ := (hI.owned job.id).failed hown
  obtain rfl : i = cur := Option.some.inj (hi.symm.trans hcur)
  exact ⟨hcur, hs⟩

/-- A step that is paid for: a worker's, or one that creates a job. -/
def Paid (σ : Sys) (a : Action) (σ' : Sys) : Prop := a.works ∨ ∃ id, σ.job id = none ∧ σ'.job id ≠ none

/-- Only a request creates a job. -/
theorem Inv.no_new (hI : σ.Inv) (h : σ.Next cap a σ') (hnot : ∀ i b, a ≠ .request i b) {id : String}
    (hnone : σ.job id = none) : σ'.job id = none := by
  obtain ⟨r, r', hturn, -, -⟩ := hI.moves h id
  simp only [view, hnone] at hturn
  cases h.acted with
  | schedule => exact hturn.none_of_none (.inl rfl)
  | work => exact hturn.none_of_none (.inr rfl)
  | receive | handoff | deadline | submit | delete => exact hnone
  | request => exact absurd rfl (hnot _ _)

theorem Next.rank (hI : σ.Inv) (h : σ.Next cap a σ') (hsub : ¬ a.submits) :
    σ'.rank ≤ σ.rank ∧ (Paid σ a σ' → σ'.rank < σ.rank) := by
  have hfree (hwork : ¬ a.works) (hreq : ∀ i b, a ≠ .request i b) : ¬ Paid σ a σ' := by
    rintro (hw | ⟨id, hnone, hnew⟩)
    · exact hwork hw
    · exact hnew (hI.no_new h hreq hnone)
  have hpaid (hlt : σ'.rank < σ.rank) : σ'.rank ≤ σ.rank ∧ (Paid σ a σ' → σ'.rank < σ.rank) :=
    ⟨hlt.le, fun _ => hlt⟩
  cases h.acted with
  | schedule hact =>
    have hle := Scheduler.act_rank hact
    refine ⟨?_, fun hp => absurd hp (hfree id (by simp))⟩
    simp only [Sys.rank]
    omega
  | @work w b pc pc' sh hw hact =>
    have hlt := Worker.act_rank hact fun job ctx cur hpc => hI.retrying (hpc ▸ hw)
    have hset := sum_map_set_add Worker.rank hw pc'
    apply hpaid
    simp only [Sys.rank, Worker.act_queue hact]
    omega
  | @receive w job rest hw hqueue =>
    have hset := sum_map_set_add Worker.rank hw (.fetched job)
    apply hpaid
    simp only [Sys.rank, hqueue, List.length_cons, Worker.rank] at hset ⊢
    omega
  | @handoff w job rest hw hsched =>
    have hset := sum_map_set_add Worker.rank hw (.fetched job)
    apply hpaid
    simp only [Sys.rank, hsched, Scheduler.rank, Worker.rank] at hset ⊢
    omega
  | deadline => exact ⟨le_rfl, fun hp => absurd hp (hfree id (by simp))⟩
  | submit body => exact absurd trivial hsub
  | delete k =>
    have hdelete : (Request.requested k).rank = 0 := rfl
    exact ⟨by simp [Sys.rank, hdelete], fun hp => absurd hp (hfree id (by simp))⟩
  | @request i b pc pc' sh hi hact =>
    have hle := Request.act_rank hact
    have hset := sum_map_set_add Request.rank hi pc'
    simp only [Sys.rank, Request.act_queue hact]
    refine ⟨by split at hle <;> omega, fun hp => ?_⟩
    have hkeys : sh.store.m.keys ≠ σ.shared.store.m.keys := by
      intro hsame
      obtain ⟨id, hnone, hnew⟩ := hp.resolve_left id
      have hout : id ∉ sh.store.m.keys := hsame ▸ Table.get_eq_none_iff.mp hnone
      exact hnew (Table.get_eq_none_iff.mpr hout)
    rw [if_neg hkeys] at hle
    omega

/-- Only a receive takes from the queue. -/
theorem Next.queue_stays (h : σ.Next cap a σ') (hq : σ.shared.queue ≠ []) (hnone : ∀ w, a ≠ .receive w) :
    σ'.shared.queue ≠ [] := by
  cases h.acted with
  | schedule hact =>
    rcases Scheduler.act_queue hact with hsame | ⟨j, rest, -, -, rfl⟩
    · simpa only [hsame] using hq
    · simp
  | work _ hact => simpa only [Worker.act_queue hact] using hq
  | request _ hact => simpa only [Request.act_queue hact] using hq
  | receive => exact absurd rfl (hnone _)
  | handoff | deadline | submit | delete => exact hq

theorem Next.workers_length (h : σ.Next cap a σ') : σ'.workers.length = σ.workers.length := by
  cases h.acted with
  | work | receive | handoff => exact List.length_set
  | schedule | deadline | submit | delete | request => rfl

end Sys

/-! ## Fairness -/

/-- A step of the scheduler's goroutine. -/
def Action.schedules : Action → Prop
  | .schedule _ | .handoff _ => True
  | _ => False

/-- What the runtime, the subprocesses and the clock owe an endless run. -/
structure Fair {cap : Nat} (ρ : Endless (Sys.Next cap)) : Prop where
  /-- no worker is kept from its next step for ever, no subprocess runs for ever -/
  busy : ∀ t w pc, (ρ.state t).workers[w]? = some pc → pc ≠ .idle → ∃ u, t ≤ u ∧ ∃ a, ρ.label u = .work w a
  /-- the channel delivers -/
  receive : ∀ t, (ρ.state t).shared.queue ≠ [] → .idle ∈ (ρ.state t).workers → ∃ u, t ≤ u ∧ ∃ w, ρ.label u = .receive w
  /-- the ticker ticks, and `scheduleReady` is not kept from its next step for ever -/
  ticks : ∀ t, ∃ u, t ≤ u ∧ (ρ.label u).schedules
  /-- `time.Now` passes every bound -/
  clock : ∀ b : Time, ∃ t, ∀ u, t ≤ u → ∀ rows now, ρ.label u = .schedule (.list rows now) → b < now

/-! ## Runs in which the workers have come to rest -/

namespace Sys

variable {cap n : Nat}

/-- A step that is not the scheduler's leaves it where it is. -/
theorem Next.sched {σ σ' : Sys} {a : Action} (h : σ.Next cap a σ') (ha : ¬ a.schedules) : σ'.sched = σ.sched := by
  cases h.acted with
  | schedule | handoff => exact absurd trivial ha
  | work | receive | deadline | submit | delete | request => rfl

/-- From `N` on nobody works and nothing is created. -/
structure Still (ρ : Endless (Next cap)) (N : Nat) : Prop where
  inv : ∀ t, (ρ.state t).Inv
  unpaid : ∀ t, N ≤ t → ¬ Paid (ρ.state t) (ρ.label t) (ρ.state (t + 1))

variable {ρ : Endless (Next cap)} {N t : Nat}

theorem reached_still (hstart : ρ.state 0 = start n) {T : Nat} (hquiet : ∀ t, T ≤ t → ¬ (ρ.label t).submits) :
    ∃ N, Still ρ N := by
  have hinv (t : Nat) : (ρ.state t).Inv := by
    obtain ⟨tr, h⟩ := ρ.run t
    rw [hstart] at h
    exact reached_inv h
  have hrank (u : Nat) (hu : T ≤ u) := (ρ.step u).rank (hinv u) (hquiet u hu)
  have hnonneg (u : Nat) := (ρ.state u).rank_nonneg
  obtain ⟨N, -, hN⟩ := Endless.ends (ρ := ρ) (fun σ => σ.rank.toNat)
    (fun u => Paid (ρ.state u) (ρ.label u) (ρ.state (u + 1)))
    (fun u hu => Int.toNat_le_toNat (hrank u hu).1)
    (fun u hu hp => by
      have hlt := (hrank u hu).2 hp
      have hpos := hnonneg (u + 1)
      omega)
  exact ⟨N, hinv, hN⟩

namespace Still

variable (h : Still ρ N) (hfair : Fair ρ)
include h hfair

theorem idle (ht : N ≤ t) {pc : Worker} (hpc : pc ∈ (ρ.state t).workers) : pc = .idle := by
  by_contra hbusy
  obtain ⟨w, hw⟩ := List.mem_iff_getElem?.mp hpc
  obtain ⟨u, hu, a, ha⟩ := hfair.busy t w pc hw hbusy
  exact h.unpaid u (ht.trans hu) (.inl (by rw [ha]; trivial))

theorem queue_nil (hworkers : 0 < (ρ.state t).workers.length) (ht : N ≤ t) : (ρ.state t).shared.queue = [] := by
  by_contra hqueue
  obtain ⟨pc, hpc⟩ := List.exists_mem_of_length_pos hworkers
  obtain ⟨u, hu, w, hw⟩ := hfair.receive t hqueue (h.idle hfair ht hpc ▸ hpc)
  exact h.unpaid u (ht.trans hu) (.inl (by rw [hw]; trivial))

/-- The next step of the scheduler finds it where it is, and is a step of `scheduleReady`. -/
theorem scheduler_acts (ht : N ≤ t) : ∃ u b, t ≤ u ∧ (ρ.state u).sched = (ρ.state t).sched ∧
    ρ.label u = .schedule b ∧ (ρ.state u).sched.act cap (ρ.state u).shared b =
      some ((ρ.state (u + 1)).sched, (ρ.state (u + 1)).shared) := by
  obtain ⟨u, hu, hsched, hsame⟩ := Endless.upTo (P := fun σ => σ.sched = (ρ.state t).sched) (hfair.ticks t) rfl
    (fun v _ hnot hv => ((ρ.step v).sched hnot).trans hv)
  have hunpaid := h.unpaid u (ht.trans hu)
  have hstep := ρ.step u
  cases hlabel : ρ.label u with
  | schedule b =>
    rw [hlabel] at hstep
    exact ⟨u, b, hu, hsame, hlabel, hstep.schedule⟩
  | handoff w =>
    rw [hlabel] at hunpaid
    exact absurd (.inl trivial) hunpaid
  | _ =>
    rw [hlabel] at hsched
    exact hsched.elim

/-- With the queue empty a dispatch would reach it, and a worker would receive. -/
theorem not_sending (hcap : 0 < cap) (hworkers : ∀ t, 0 < (ρ.state t).workers.length) (ht : N ≤ t) (j : Job)
    (rest : List Job) : (ρ.state t).sched ≠ .sending j rest := by
  intro hsend
  obtain ⟨u, b, hu, hsame, -, hact⟩ := h.scheduler_acts hfair ht
  have hqueue := h.queue_nil hfair (hworkers u) (ht.trans hu)
  have hafter := h.queue_nil hfair (hworkers (u + 1)) (show N ≤ u + 1 by omega)
  rw [hsame, hsend] at hact
  cases b with
  | send =>
    simp only [Scheduler.act, hqueue, List.length_nil, if_pos hcap, Option.some.injEq, Prod.mk.injEq] at hact
    rw [← hact.2] at hafter
    cases hafter
  | full =>
    have hfull : ¬ cap ≤ 0 := by omega
    simp only [Scheduler.act, hqueue, List.length_nil, if_neg hfull] at hact
    cases hact
  | _ => cases hact

omit hfair in
/-- Where the scheduler neither sends nor takes back, it goes on so. -/
theorem loop_next (hsend : ∀ j rest, (ρ.state (t + 1)).sched ≠ .sending j rest) {ready : List Job} (ht : N ≤ t)
    (hloop : (ρ.state t).sched = .loop ready) : ∃ ready, (ρ.state (t + 1)).sched = .loop ready := by
  have hstep := ρ.step t
  have hunpaid := h.unpaid t ht
  by_cases hs : (ρ.label t).schedules
  · cases hlabel : ρ.label t with
    | schedule b =>
      rw [hlabel] at hstep
      have hact := hstep.schedule
      rw [hloop] at hact
      cases hsched : (ρ.state (t + 1)).sched with
      | loop ready' => exact ⟨ready', rfl⟩
      | sending j rest => exact absurd hsched (hsend j rest)
      | reverting j rest =>
        rw [hsched] at hact
        unfold Scheduler.act at hact
        repeat' (split at hact)
        all_goals simp_all
    | handoff w =>
      rw [hlabel] at hunpaid
      exact absurd (.inl trivial) hunpaid
    | _ =>
      rw [hlabel] at hs
      exact hs.elim
  · exact ⟨ready, (hstep.sched hs).trans hloop⟩

end Still

/-- From `N` on nobody works, nothing is queued or created, and `scheduleReady` dispatches nothing. -/
structure Resting (ρ : Endless (Next cap)) (N : Nat) : Prop extends Still ρ N where
  idle : ∀ t, N ≤ t → ∀ pc ∈ (ρ.state t).workers, pc = .idle
  queue : ∀ t, N ≤ t → (ρ.state t).shared.queue = []
  loop : ∀ t, N ≤ t → ∃ ready, (ρ.state t).sched = .loop ready

theorem Still.rests (h : Still ρ N) (hfair : Fair ρ) (hcap : 0 < cap)
    (hworkers : ∀ t, 0 < (ρ.state t).workers.length) : ∃ N, Resting ρ N := by
  have hsend {t : Nat} (ht : N ≤ t) := h.not_sending hfair hcap hworkers ht
  obtain ⟨M, hM, ready, hloop⟩ : ∃ M, N ≤ M ∧ ∃ ready, (ρ.state M).sched = .loop ready := by
    cases hs : (ρ.state N).sched with
    | loop ready => exact ⟨N, le_rfl, ready, hs⟩
    | sending j rest => exact absurd hs (hsend le_rfl j rest)
    | reverting j rest =>
      -- the last take-back
      obtain ⟨u, b, hu, hsame, -, hact⟩ := h.scheduler_acts hfair (le_refl N)
      rw [hsame, hs] at hact
      cases b with
      | revert now =>
        simp only [Scheduler.act, Option.some.injEq, Prod.mk.injEq] at hact
        exact ⟨u + 1, by omega, rest, hact.1.symm⟩
      | _ => cases hact
  have hloops (t : Nat) (ht : M ≤ t) : ∃ ready, (ρ.state t).sched = .loop ready :=
    Endless.stays (P := fun σ : Sys => ∃ ready, σ.sched = .loop ready) ⟨ready, hloop⟩
      (fun u hu hr => h.loop_next (fun j rest => hsend (by omega) j rest) (hM.trans hu) hr.choose_spec) ht
  exact ⟨M, ⟨h.inv, fun t ht => h.unpaid t (hM.trans ht)⟩, fun t ht pc hpc => h.idle hfair (hM.trans ht) hpc,
    fun t ht => h.queue_nil hfair (hworkers t) (hM.trans ht), hloops⟩

namespace Resting

variable (h : Resting ρ N)
include h

/-- Nobody owns a job, so it waits to be dispatched or has come to its end. -/
theorem unowned (ht : N ≤ t) {id : String} {j : Job} (hj : (ρ.state t).job id = some j) :
    j.state = .pending ∨ j.state = .completed ∨ j.state = .exhausted ∨ j.state = .cancelled := by
  have hnone (q : Role) : (ρ.state t).owners id q = 0 := by
    obtain ⟨ready, hloop⟩ := h.loop t ht
    have hholders : holders (ρ.state t).workers id q = 0 := by
      refine List.countP_eq_zero.mpr fun pc hpc => ?_
      rw [h.idle t ht pc hpc]
      simp [Worker.role]
    simp [owners, hholders, hloop, h.queue t ht, copies]
  have hown := (h.inv t).owned id
  simp only [View.Owned, view, hj, Option.map_some] at hown
  have hw := hnone .waiting
  have he := hnone .executing
  have hf := hnone .failing
  cases hs : j.state <;> rw [hs] at hown <;> simp only [allowedOwners] at hown <;> simp <;> omega

/-- A job that is still to be dispatched was so before, with the same `RunAfter`. -/
theorem pending_before (ht : N ≤ t) {id : String} {j : Job} (hj : (ρ.state (t + 1)).job id = some j)
    (hs : j.state = .pending) : ∃ i, (ρ.state t).job id = some i ∧ i.state = .pending ∧ i.runAfter = j.runAfter := by
  cases hi : (ρ.state t).job id with
  | none => exact absurd (.inr ⟨id, hi, by rw [hj]; exact Option.some_ne_none j⟩) (h.unpaid t ht)
  | some i =>
    have hstate := h.unowned ht hi
    have hwritten := (h.inv t).written (ρ.step t) id
    rw [hi, hj] at hwritten
    cases hwritten with
    | same => exact ⟨_, rfl, hs, rfl⟩
    | output => exact ⟨_, rfl, hs, rfl⟩
    | move _ dest msg now hmove =>
      obtain rfl : dest = .pending := hs
      rcases hstate with h | h | h | h <;> rw [h] at hmove <;> cases hmove
    | retry _ now hfailed => rcases hstate with h | h | h | h <;> rw [h] at hfailed <;> cases hfailed

theorem pending_since (ht : N ≤ t) {u : Nat} (hu : t ≤ u) {id : String} {j : Job} (hj : (ρ.state u).job id = some j)
    (hs : j.state = .pending) : ∃ i, (ρ.state t).job id = some i ∧ i.state = .pending ∧ i.runAfter = j.runAfter := by
  induction u, hu using Nat.le_induction generalizing j with
  | base => exact ⟨j, hj, hs, rfl⟩
  | succ u hu ih =>
    obtain ⟨i, hi, hsi, hrun⟩ := h.pending_before (ht.trans hu) hj hs
    obtain ⟨k, hk, hsk, hrun'⟩ := ih hi hsi
    exact ⟨k, hk, hsk, hrun'.trans hrun⟩

/-- The scheduler comes to the end of its pass, and finds none of its jobs `PENDING`: it would dispatch it. -/
theorem pass_ends (hfair : Fair ρ) (ready : List Job) (ht : N ≤ t) (hloop : (ρ.state t).sched = .loop ready) :
    ∃ u, t ≤ u ∧ (ρ.state u).sched = .loop [] ∧
      ∀ id j, (ρ.state u).job id = some j → j.state = .pending → id ∉ ready.map Job.id := by
  induction ready generalizing t with
  | nil => exact ⟨t, le_rfl, hloop, by simp⟩
  | cons r rest ih =>
    obtain ⟨u, b, hu, hsame, -, hact⟩ := h.scheduler_acts hfair ht
    rw [hsame, hloop] at hact
    cases b with
    | queue now =>
      simp only [Scheduler.act] at hact
      split at hact
      · next herr =>
        simp only [Option.some.injEq, Prod.mk.injEq] at hact
        obtain ⟨hrest, hshared⟩ := hact
        obtain ⟨v, hv, hend, hnone⟩ := ih (show N ≤ u + 1 by omega) hrest.symm
        refine ⟨v, by omega, hend, fun id j hj hs hmem => ?_⟩
        rcases List.mem_cons.mp hmem with rfl | hmem
        · -- it was `PENDING` at the dispatch, which then would not have been refused
          obtain ⟨i, hi, hsi, -⟩ := h.pending_since (show N ≤ u + 1 by omega) hv hj hs
          have hfind : (ρ.state u).shared.store.find r.id = some i := by rw [hshared]; exact hi
          rcases Store.transition_cases hfind .queued "" now with ⟨-, hw⟩ | ⟨hno, -⟩
          · rw [hw] at herr
            cases herr
          · rw [hsi] at hno
            cases hno
        · exact hnone id j hj hs hmem
      · simp only [Option.some.injEq, Prod.mk.injEq] at hact
        obtain ⟨ready, hready⟩ := h.loop (u + 1) (by omega)
        rw [hready] at hact
        cases hact.1
    | _ => cases hact

/-- A pass whose reading of the clock is past every `RunAfter` leaves no job `PENDING`. -/
theorem none_pending (hfair : Fair ρ) : ∃ u, N ≤ u ∧ ∀ id j, (ρ.state u).job id = some j → j.state ≠ .pending := by
  obtain ⟨bound, hbound⟩ : ∃ bound, ∀ j ∈ (ρ.state N).shared.store.m.rows, j.runAfter ≤ bound := by
    generalize (ρ.state N).shared.store.m.rows = rows
    induction rows with
    | nil => exact ⟨0, by simp⟩
    | cons r rows ih =>
      obtain ⟨b, hb⟩ := ih
      refine ⟨max r.runAfter b, fun j hj => ?_⟩
      rcases List.mem_cons.mp hj with rfl | hj
      · exact le_max_left _ _
      · exact (hb j hj).trans (le_max_right _ _)
  obtain ⟨T, hT⟩ := hfair.clock bound
  obtain ⟨ready, hloop⟩ := h.loop (max N T) (le_max_left _ _)
  obtain ⟨u, hu, hend, -⟩ := h.pass_ends hfair ready (le_max_left _ _) hloop
  have hNu : N ≤ u := (le_max_left _ _).trans hu
  obtain ⟨v, b, hv, hsame, hlabel, hact⟩ := h.scheduler_acts hfair hNu
  have hNv : N ≤ v := hNu.trans hv
  rw [hsame, hend] at hact
  cases b with
  | list rows now =>
    simp only [Scheduler.act] at hact
    split at hact
    · next hperm =>
      simp only [Option.some.injEq, Prod.mk.injEq] at hact
      obtain ⟨hpass, hshared⟩ := hact
      obtain ⟨w, hw, -, hnone⟩ := h.pass_ends hfair _ (show N ≤ v + 1 by omega) hpass.symm
      refine ⟨w, by omega, fun id j hj hs => hnone id j hj hs ?_⟩
      -- the job was listed, and its `RunAfter` had passed
      obtain ⟨i, hi, hsi, hrun⟩ := h.pending_since hNv (show v ≤ w by omega) hj hs
      obtain ⟨k, hk, -, hrun'⟩ := h.pending_since le_rfl hNv hi hsi
      have hpassed : i.runAfter < now := calc
        i.runAfter = k.runAfter := hrun'.symm
        _ ≤ bound := hbound k (Table.mem_of_get hk)
        _ < now := hT v (by omega) rows now hlabel
      have hlisted : i ∈ rows := hperm.mem_iff.mpr (List.mem_filter.mpr ⟨Table.mem_of_get hi, by simpa using hsi⟩)
      have hready : i ∈ sortReady (rows.filter (isReady now)) :=
        (sortReady_perm _).mem_iff.mpr (List.mem_filter.mpr ⟨hlisted, by simp [isReady, hpassed]⟩)
      exact List.mem_map.mpr ⟨i, hready, Store.id_of_find hi⟩
    · cases hact
  | _ => cases hact

end Resting

/-- **Every job comes to its end in every fair run**, once no submission arrives any more.  The workers are then at the
channel, and the queue is empty. -/
theorem jobs_settle (hn : 0 < n) (hcap : 0 < cap) (hstart : ρ.state 0 = start n) (hfair : Fair ρ) {T : Nat}
    (hquiet : ∀ t, T ≤ t → ¬ (ρ.label t).submits) :
    ∃ N, ∀ t, N ≤ t →
      (∀ id j, (ρ.state t).job id = some j →
        j.state = .completed ∨ j.state = .exhausted ∨ j.state = .cancelled) ∧
      (∀ pc ∈ (ρ.state t).workers, pc = .idle) ∧ (ρ.state t).shared.queue = [] := by
  have hworkers (t : Nat) : 0 < (ρ.state t).workers.length :=
    Endless.stays (P := fun σ : Sys => 0 < σ.workers.length) (t := 0) (by rw [hstart]; simpa [start] using hn)
      (fun u _ hu => (ρ.step u).workers_length.symm ▸ hu) (Nat.zero_le t)
  obtain ⟨M, hstill⟩ := reached_still hstart hquiet
  obtain ⟨N, hrest⟩ := hstill.rests hfair hcap hworkers
  obtain ⟨u, hu, hnone⟩ := hrest.none_pending hfair
  refine ⟨u, fun t ht => ⟨fun id j hj => ?_, hrest.idle t (hu.trans ht), hrest.queue t (hu.trans ht)⟩⟩
  refine (hrest.unowned (hu.trans ht) hj).resolve_left fun hs => ?_
  obtain ⟨i, hi, hsi, -⟩ := hrest.pending_since hu ht hj hs
  exact hnone id i hi hsi

/-! ## Fair runs -/

/-- Nothing is left to do. -/
structure AtRest (σ : Sys) : Prop where
  idle : ∀ pc ∈ σ.workers, pc = .idle
  queue : σ.shared.queue = []
  loop : σ.sched = .loop []
  pending : σ.shared.store.listByState .pending = []

/-- The ticker goes on in a system at rest. -/
def AtRest.passes {σ : Sys} (h : σ.AtRest) : Endless (Next cap) where
  state _ := σ
  label t := .schedule (.list [] t)
  step t := by
    have hlist : σ.sched.act cap σ.shared (.list [] t) = some (.loop [], σ.shared) := by
      rw [h.loop]
      simp [Scheduler.act, h.pending, sortReady]
    have hsame : ({ σ with sched := .loop [] } : Sys) = σ := by rw [← h.loop]
    simp only [Next, act, hlist, Option.map_some]
    rw [hsame]

/-- **A run that has come to rest goes on as a fair run.** -/
theorem fair_of_rest {σ₀ σ : Sys} {tr : List (Step Sys Action)} (h : Run (Next cap) σ₀ tr σ) (hrest : σ.AtRest) :
    ∃ ρ : Endless (Next cap), ρ.state 0 = σ₀ ∧ ρ.state tr.length = σ ∧ Fair ρ ∧
      ∀ t, tr.length ≤ t → ¬ (ρ.label t).submits := by
  obtain ⟨ρ, h0, hlater⟩ := Endless.extends_run h hrest.passes rfl
  have hstate (t : Nat) (ht : tr.length ≤ t) : ρ.state t = σ := by
    have := (hlater (t - tr.length)).1
    rwa [Nat.add_sub_cancel' ht] at this
  have hlabel (t : Nat) (ht : tr.length ≤ t) : ρ.label t = .schedule (.list [] (t - tr.length : Nat)) := by
    have := (hlater (t - tr.length)).2
    rwa [Nat.add_sub_cancel' ht] at this
  refine ⟨ρ, h0, hstate _ le_rfl, ⟨fun t w pc hw hbusy => ?_, fun t hqueue _ => ?_, fun t => ?_, fun b => ?_⟩,
    fun t ht => by rw [hlabel t ht]; exact id⟩
  · -- the worker would be as busy at the end
    by_contra hnone
    push Not at hnone
    have hstays := Endless.stays (P := fun σ : Sys => σ.workers[w]? = some pc) hw
      (fun u hu hpc => by
        rcases (ρ.step u).worker hpc hbusy with ⟨-, hsame⟩ | ⟨b, pc', ha, -, -⟩
        · exact hsame
        · exact absurd ha (hnone u hu b)) (le_max_left t tr.length)
    rw [hstate _ (le_max_right _ _)] at hstays
    exact hbusy (hrest.idle pc (List.mem_of_getElem? hstays))
  · by_contra hnone
    push Not at hnone
    have hstays := Endless.stays (P := fun σ : Sys => σ.shared.queue ≠ []) hqueue
      (fun u hu hq => (ρ.step u).queue_stays hq (hnone u hu)) (le_max_left t tr.length)
    rw [hstate _ (le_max_right _ _)] at hstays
    exact hstays hrest.queue
  · refine ⟨max t tr.length, le_max_left _ _, ?_⟩
    rw [hlabel _ (le_max_right _ _)]
    trivial
  · refine ⟨tr.length + b.toNat + 1, fun u hu rows now heq => ?_⟩
    rw [hlabel u (by omega)] at heq
    cases heq
    have hlt : b.toNat < u - tr.length := by omega
    exact lt_of_le_of_lt (Int.self_le_toNat b) (Int.ofNat_lt.mpr hlt)

theorem jobs_settle_retried : ∃ ρ : Endless (Next 1), ρ.state 0 = start 1 ∧ Fair ρ ∧
    (∃ t, (ρ.state t).state "job_000000" = some .exhausted) ∧ ∃ N, ∀ t, N ≤ t →
      (∀ id j, (ρ.state t).job id = some j →
        j.state = .completed ∨ j.state = .exhausted ∨ j.state = .cancelled) ∧
      (∀ pc ∈ (ρ.state t).workers, pc = .idle) ∧ (ρ.state t).shared.queue = [] := by
  let as : List Action := failedTwice ++ [.work 0 (.step 3000000000), .work 0 (.step 3000000000)]
  have hrest : (actAll 1 (start 1) as).AtRest :=
    ⟨by decide +kernel, by decide +kernel, by decide +kernel, by decide +kernel⟩
  have hend : (actAll 1 (start 1) as).state "job_000000" = some .exhausted := by decide +kernel
  obtain ⟨ρ, h0, hlast, hfair, hquiet⟩ := fair_of_rest (run_trace .nil as) hrest
  exact ⟨ρ, h0, hfair, ⟨_, by rw [hlast]; exact hend⟩, jobs_settle (by decide) (by decide) h0 hfair hquiet⟩

end Sys

end Orchestrator
