import InfraPlatform.Lib.Count
import InfraPlatform.Orchestrator.System

/-!
# Who owns a job

Seen from one job, the orchestrator is a small protocol.  An owner holds the job in one of three
roles: it waits to be started (a copy in the queue, in the scheduler's hands or with a worker
that has not tried to start it), it is executed, or it failed and its worker has still to decide on a
retry.  `Turn` is one step of this protocol: what an owner does to its role and to the stored job.

* `Owned`: the stored state fixes how many owners there are in each role; `Owned.move` keeps it.
* `Sys.moves`: every step of the orchestrator is, for every job, one move of the protocol.  The
  unvalidated `Update(ScheduleRetry(current))` is one because `current` is still what is
  stored (`Current`): a failed job is touched by nobody but the worker that failed it.
-/

namespace Orchestrator

open Lib
open ControlPlane (Time)

/-! ## The protocol of one job -/

inductive Role where
  | waiting | executing | failing
deriving DecidableEq

inductive Actor where
  | scheduler | worker | handler

/-- An owner in role `r` (`none`: no owner) acts on the stored job. -/
inductive Turn : Actor → Option Role → Option Job → Option Role → Option Job → Prop where
  | same {who : Actor} (r : Option Role) (job : Option Job) : Turn who r job r job
  | submit (j : Job) : j.state = .pending → j.retryCount = 0 → Turn .handler none none none (some j)
  | enqueue (j : Job) (t : Time) : j.state = .pending →
      Turn .scheduler none (some j) (some .waiting) (some (Store.moved j .queued "" t))
  | revert (j : Job) (t : Time) : Turn .scheduler (some .waiting) (some j) none (some (Store.tried j .pending "" t))
  | claim (j : Job) (t : Time) : j.state = .queued →
      Turn .worker (some .waiting) (some j) (some .executing) (some (Store.moved j .running "" t))
  | drop (j : Job) : j.state ≠ .queued → Turn .worker (some .waiting) (some j) none (some j)
  | output (j : Job) (output : String) :
      Turn .worker (some .executing) (some j) (some .executing) (some { j with output })
  | finish (j : Job) (dest : State) (msg : String) (t : Time) : dest = .completed ∨ dest = .cancelled →
      Turn .worker (some .executing) (some j) none (some (Store.tried j dest msg t))
  | fail (j : Job) (msg : String) (t : Time) : j.state = .running →
      Turn .worker (some .executing) (some j) (some .failing) (some (Store.moved j .failed msg t))
  | lose (j : Job) : j.state ≠ .running → Turn .worker (some .executing) (some j) none (some j)
  | retry (j : Job) (t : Time) : j.retryCount < j.maxRetries →
      Turn .worker (some .failing) (some j) none (some (scheduleRetry j t))
  | exhaust (j : Job) (t : Time) : ¬ j.retryCount < j.maxRetries →
      Turn .worker (some .failing) (some j) none (some (Store.tried j .exhausted "" t))
  | cancel (j : Job) (msg : String) (t : Time) :
      Turn .handler none (some j) none (some (Store.tried j .cancelled msg t))

/-- The stored job and its owners by role. -/
structure View where
  job : Option Job
  owners : Role → Nat

/-- One owner takes a turn. -/
def View.Move (who : Actor) (v v' : View) : Prop :=
  ∃ r r', Turn who r v.job r' v'.job ∧ (∀ q, r = some q → 0 < v.owners q) ∧
    ∀ q, v'.owners q + (decide (r = some q)).toNat = v.owners q + (decide (r' = some q)).toNat

/-- The owners that a state allows. -/
def allowedOwners : Option State → (Role → Nat) → Prop
  | none, own | some .pending, own | some .completed, own | some .exhausted, own =>
    own .waiting = 0 ∧ own .executing = 0 ∧ own .failing = 0
  | some .queued, own => own .waiting = 1 ∧ own .executing = 0 ∧ own .failing = 0
  | some .running, own => own .waiting = 0 ∧ own .executing = 1 ∧ own .failing = 0
  | some .failed, own => own .waiting = 0 ∧ own .executing = 0 ∧ own .failing = 1
  | some .cancelled, own => own .waiting + own .executing ≤ 1 ∧ own .failing = 0

def View.Owned (v : View) : Prop := allowedOwners (v.job.map Job.state) v.owners

/-! What an owner in some role knows of the state, and that there is no other owner. -/

section Allowed

variable {s : Option State} {own : Role → Nat}

theorem allowedOwners.waiting (h : allowedOwners s own) (hq : 0 < own .waiting) :
    (s = some .queued ∨ s = some .cancelled) ∧ own .waiting = 1 ∧ own .executing = 0 ∧ own .failing = 0 := by
  rcases s with _ | st
  · exact absurd h.1 (by omega)
  · cases st <;> simp only [allowedOwners] at h <;> simp <;> omega

theorem allowedOwners.executing (h : allowedOwners s own) (hq : 0 < own .executing) :
    (s = some .running ∨ s = some .cancelled) ∧ own .waiting = 0 ∧ own .executing = 1 ∧ own .failing = 0 := by
  rcases s with _ | st
  · exact absurd h.2.1 (by omega)
  · cases st <;> simp only [allowedOwners] at h <;> simp <;> omega

theorem allowedOwners.failing (h : allowedOwners s own) (hq : 0 < own .failing) :
    s = some .failed ∧ own .waiting = 0 ∧ own .executing = 0 ∧ own .failing = 1 := by
  rcases s with _ | st
  · exact absurd h.2.2 (by omega)
  · cases st <;> simp only [allowedOwners] at h <;> simp <;> omega

/-- A job that can be cancelled has at most one owner, who goes on. -/
theorem allowedOwners.cancel {st : State} (h : allowedOwners (some st) own) (ht : transition st .cancelled = true) :
    allowedOwners (some .cancelled) own := by
  have htotal : own .waiting + own .executing ≤ 1 ∧ own .failing = 0 := by
    cases st <;> simp only [allowedOwners] at h <;> first | omega | cases ht
  exact htotal

/-- The states of a job that nobody owns. -/
theorem allowedOwners.of_zero {st : State}
    (hst : st = .pending ∨ st = .completed ∨ st = .exhausted ∨ st = .cancelled) (hw : own .waiting = 0)
    (he : own .executing = 0) (hf : own .failing = 0) : allowedOwners (some st) own := by
  rcases hst with rfl | rfl | rfl | rfl
  · exact ⟨hw, he, hf⟩
  · exact ⟨hw, he, hf⟩
  · exact ⟨hw, he, hf⟩
  · exact ⟨by omega, hf⟩

end Allowed

/-- **The protocol keeps the owners that the state allows.** -/
theorem View.Owned.move {who : Actor} {v v' : View} (h : v.Owned) (hm : v.Move who v') : v'.Owned := by
  obtain ⟨r, r', hturn, hpos, hown⟩ := hm
  obtain ⟨job, own⟩ := v
  obtain ⟨job', own'⟩ := v'
  have hw := hown .waiting
  have he := hown .executing
  have hf := hown .failing
  unfold View.Owned at h ⊢
  simp only at hturn hpos h hw he hf ⊢
  cases hturn with
  | same =>
    obtain rfl : own' = own := funext fun q => by simpa using hown q
    exact h
  | submit j hs => simp_all [allowedOwners]
  | enqueue j t hs => simp_all [allowedOwners]
  | revert j t =>
    obtain ⟨hs, h1, h0, h0'⟩ := h.waiting (hpos .waiting rfl)
    simp at hw he hf
    refine .of_zero ?_ (by omega) (by omega) (by omega)
    rw [Store.tried_state]
    rcases hs with hs | hs <;> rw [Option.some.inj hs] <;> decide
  | claim j t hs => simp_all [allowedOwners]
  | drop j hs =>
    obtain ⟨hq | hc, h1, h0, h0'⟩ := h.waiting (hpos .waiting rfl)
    · exact absurd (Option.some.inj hq) hs
    · simp at hw he hf
      exact .of_zero (by simp [Option.some.inj hc]) (by omega) (by omega) (by omega)
  | output j o =>
    obtain rfl : own' = own := funext fun q => by simpa using hown q
    exact h
  | finish j dest msg t hd =>
    obtain ⟨hs, h0, h1, h0'⟩ := h.executing (hpos .executing rfl)
    simp at hw he hf
    refine .of_zero ?_ (by omega) (by omega) (by omega)
    rw [Store.tried_state]
    rcases hd with rfl | rfl <;> rcases hs with hs | hs <;> rw [Option.some.inj hs] <;> decide
  | fail j msg t hs =>
    simp [allowedOwners, hs] at h hw he hf ⊢
    omega
  | lose j hs =>
    obtain ⟨hr | hc, h0, h1, h0'⟩ := h.executing (hpos .executing rfl)
    · exact absurd (Option.some.inj hr) hs
    · simp at hw he hf
      exact .of_zero (by simp [Option.some.inj hc]) (by omega) (by omega) (by omega)
  | retry j t hlt =>
    obtain ⟨-, h0, h0', h1⟩ := h.failing (hpos .failing rfl)
    simp at hw he hf
    exact .of_zero (.inl rfl) (by omega) (by omega) (by omega)
  | exhaust j t hlt =>
    obtain ⟨hs, h0, h0', h1⟩ := h.failing (hpos .failing rfl)
    simp at hw he hf
    refine .of_zero ?_ (by omega) (by omega) (by omega)
    rw [Store.tried_state, Option.some.inj hs]
    decide
  | cancel j msg t =>
    obtain rfl : own' = own := funext fun q => by simpa using hown q
    by_cases ht : transition j.state .cancelled = true
    · rw [Store.tried_of ht]
      exact h.cancel ht
    · rw [Store.tried_not (by simpa using ht)]
      exact h

/-- Owners exist only for stored jobs. -/
theorem View.Owned.stored {v : View} {q : Role} (h : v.Owned) (hq : 0 < v.owners q) : ∃ j, v.job = some j := by
  cases hj : v.job with
  | some j => exact ⟨j, rfl⟩
  | none =>
    simp only [View.Owned, hj, Option.map_none, allowedOwners] at h
    cases q <;> omega

theorem View.Owned.failed {v : View} (h : v.Owned) (hq : 0 < v.owners .failing) :
    ∃ j, v.job = some j ∧ j.state = .failed ∧ v.owners .waiting = 0 ∧ v.owners .executing = 0 := by
  obtain ⟨hs, hw, he, -⟩ := allowedOwners.failing h hq
  obtain ⟨j, hj, hfailed⟩ := Option.map_eq_some_iff.mp hs
  exact ⟨j, hj, hfailed, hw, he⟩

/-- While a failed job is with its worker, nobody else's turn changes the stored job. -/
theorem View.Move.frozen {who : Actor} {v v' : View} (hm : v.Move who v') (h : v.Owned) (hf : 0 < v.owners .failing)
    (hf' : 0 < v'.owners .failing) : v'.job = v.job := by
  obtain ⟨j, hj, hs, hw0, he0⟩ := h.failed hf
  have hone : v.owners .failing = 1 := (allowedOwners.failing h hf).2.2.2
  obtain ⟨r, r', hturn, hpos, hown⟩ := hm
  have hfail := hown .failing
  -- the only owner is the worker, and its turns give the job up
  have hr : r = none ∨ r = some .failing := by
    rcases r with _ | _ | _ | _
    · exact .inl rfl
    · exact absurd (hpos _ rfl) (by omega)
    · exact absurd (hpos _ rfl) (by omega)
    · exact .inr rfl
  rcases hr with rfl | rfl
  · generalize v.job = job, v'.job = job' at hturn hj
    cases hturn with
    | same => rfl
    | submit => cases hj
    | enqueue i t hp =>
      cases hj
      rw [hs] at hp
      cases hp
    | cancel i msg t =>
      cases hj
      rw [Store.tried_not (by rw [hs]; rfl)]
  · generalize v.job = job, v'.job = job' at hturn hj
    cases hturn with
    | same => rfl
    | retry => simp at hfail; omega
    | exhaust => simp at hfail; omega

/-- The owner of a failed job is the worker that failed it. -/
theorem View.Owned.not_failed {v : View} {j : Job} (h : v.Owned) (hj : v.job = some j) (hw : 0 < v.owners .waiting) :
    j.state ≠ .failed := by
  intro hs
  simp only [View.Owned, hj, Option.map_some, hs, allowedOwners] at h
  omega

/-! ## What a turn leaves in the store -/

/-- Nothing, or one write: all but the last are validated by `Transition`. -/
inductive Written : Option Job → Option Job → Prop where
  | same (job : Option Job) : Written job job
  | submit (j : Job) : j.state = .pending → j.retryCount = 0 → Written none (some j)
  | output (j : Job) (output : String) : Written (some j) (some { j with output })
  | move (j : Job) (dest : State) (msg : String) (t : Time) : transition j.state dest = true →
      (j.state = .failed → dest ≠ .pending) → (dest = .exhausted → ¬ j.retryCount < j.maxRetries) →
      Written (some j) (some (Store.moved j dest msg t))
  | retry (j : Job) (t : Time) : j.state = .failed → j.retryCount < j.maxRetries →
      Written (some j) (some (scheduleRetry j t))

theorem Written.tried {j : Job} {dest : State} (hretry : j.state = .failed → dest ≠ .pending)
    (hspent : dest = .exhausted → ¬ j.retryCount < j.maxRetries) (msg : String) (t : Time) :
    Written (some j) (some (Store.tried j dest msg t)) := by
  by_cases ht : transition j.state dest = true
  · rw [Store.tried_of ht]
    exact .move j dest msg t ht hretry hspent
  · rw [Store.tried_not (by simpa using ht)]
    exact .same _

/-- **A turn writes at most once**; `PENDING` follows `FAILED` only as the retry of the worker that failed the job. -/
theorem View.Move.written {who : Actor} {v v' : View} (hm : v.Move who v') (h : v.Owned) : Written v.job v'.job := by
  obtain ⟨r, r', hturn, hpos, -⟩ := hm
  have hfailed (hr : r = some .failing) (j : Job) (hj : v.job = some j) : j.state = .failed := by
    obtain ⟨i, hi, hs, -⟩ := h.failed (hpos .failing hr)
    rw [hi] at hj
    cases hj
    exact hs
  have hwaiting (hr : r = some .waiting) (j : Job) (hj : v.job = some j) : j.state ≠ .failed :=
    h.not_failed hj (hpos .waiting hr)
  generalize v.job = job, v'.job = job' at hturn hfailed hwaiting
  cases hturn with
  | same | drop | lose => exact .same _
  | submit j hs hr => exact .submit j hs hr
  | output j o => exact .output j o
  | enqueue j t hs => exact .move j .queued "" t (by rw [hs]; rfl) (by simp) (by simp)
  | claim j t hs => exact .move j .running "" t (by rw [hs]; rfl) (by simp) (by simp)
  | fail j msg t hs => exact .move j .failed msg t (by rw [hs]; rfl) (by simp) (by simp)
  | revert j t => exact .tried (fun hs => absurd hs (hwaiting rfl j rfl)) (by simp) "" t
  | finish j dest msg t hd => rcases hd with rfl | rfl <;> exact .tried (by simp) (by simp) msg t
  | exhaust j t hlt => exact .tried (by simp) (fun _ => hlt) "" t
  | cancel j msg t => exact .tried (by simp) (by simp) msg t
  | retry j t hlt => exact .retry j t (hfailed rfl j rfl) hlt

/-- **Every change of state is one of the table.** -/
theorem Written.legal {j j' : Job} (h : Written (some j) (some j')) :
    j'.state = j.state ∨ transition j.state j'.state = true := by
  cases h with
  | same | output => exact .inl rfl
  | move _ dest msg t ht => exact .inr ht
  | retry _ t hs => exact .inr (by rw [hs]; rfl)

/-- A stored job stays stored. -/
theorem Written.stored {job job' : Option Job} (h : Written job job') (hjob : job ≠ none) : job' ≠ none := by
  cases h with
  | same => exact hjob
  | _ => exact Option.some_ne_none _

/-! ## The owners in the system -/

/-- A goroutine that has `job` in hand, in role `r`, as job `id` sees it. -/
def holding (job : Job) (r : Option Role) (id : String) : Option Role := if job.id = id then r else none

@[simp] theorem holding_self (job : Job) (r : Option Role) : holding job r job.id = r := if_pos rfl

@[simp] theorem holding_none (job : Job) (id : String) : holding job none id = none := ite_self _

def Worker.role (id : String) : Worker → Option Role
  | .fetched job => holding job (some .waiting) id
  | .claimed job | .registered job _ | .executing job _ | .ended job _ _ _ | .judging job _ _
  | .judgingDeadline job _ _ | .cancelling job _ | .completing job _ | .failing job _ _ =>
    holding job (some .executing) id
  | .failed job _ | .retrying job _ _ => holding job (some .failing) id
  | .idle | .leaving _ _ | .left _ => none

def Scheduler.role (id : String) : Scheduler → Option Role
  | .sending job _ | .reverting job _ => holding job (some .waiting) id
  | .loop _ => none

@[simp] theorem Scheduler.role_loop (ready : List Job) (id : String) : (Scheduler.loop ready).role id = none := rfl

/-- Copies of the job in the queue. -/
def copies (queue : List Job) (id : String) : Nat := queue.countP fun job => job.id = id

/-- Workers that hold the job in role `q`. -/
def holders (workers : List Worker) (id : String) (q : Role) : Nat := workers.countP fun w => w.role id = some q

namespace Sys

def owners (σ : Sys) (id : String) (q : Role) : Nat :=
  holders σ.workers id q + (decide (σ.sched.role id = some q)).toNat +
    if q = .waiting then copies σ.shared.queue id else 0

def view (σ : Sys) (id : String) : View := ⟨σ.job id, σ.owners id⟩

end Sys

/-- A step that touches one job only: for the others nothing happens. -/
theorem Turn.of_one {who : Actor} {job : Job} {r r' : Option Role} {st st' : Store}
    (h : Turn who r (st.find job.id) r' (st'.find job.id)) (hother : ∀ k, k ≠ job.id → st'.find k = st.find k)
    (id : String) : Turn who (holding job r id) (st.find id) (holding job r' id) (st'.find id) := by
  by_cases hid : job.id = id
  · subst hid
    simpa using h
  · rw [holding, if_neg hid, holding, if_neg hid, hother id (Ne.symm hid)]
    exact .same none _

/-- `Transition` by a holder of the job. -/
theorem Turn.of_transition {who : Actor} {job j : Job} {r r' : Option Role} {st : Store} {dest : State}
    {msg : String} {now : Time} (hj : st.find job.id = some j)
    (h : Turn who r (some j) r' (some (Store.tried j dest msg now))) (id : String) :
    Turn who (holding job r id) (st.find id) (holding job r' id) ((st.transition job.id dest msg now).2.find id) := by
  refine Turn.of_one ?_ (fun k hk => ?_) id
  · rw [Store.find_transition hj, if_pos rfl, hj]
    exact h
  · rw [Store.find_transition hj, if_neg hk]

theorem transition_running {st : State} : transition st .running = true ↔ st = .queued := by
  cases st <;> decide

theorem transition_failed {st : State} : transition st .failed = true ↔ st = .running := by
  cases st <;> decide

theorem transition_queued {st : State} : transition st .queued = true ↔ st = .pending := by
  cases st <;> decide

/-- A holder of the job that leaves the store alone. -/
theorem Turn.of_same {who : Actor} {job j : Job} {r r' : Option Role} {st : Store} (hj : st.find job.id = some j)
    (h : Turn who r (some j) r' (some j)) (id : String) :
    Turn who (holding job r id) (st.find id) (holding job r' id) (st.find id) := by
  refine Turn.of_one ?_ (fun _ _ => rfl) id
  rw [hj]
  exact h

/-- The holder lets go of the job. -/
theorem Turn.letGo {who : Actor} {job : Job} {r : Option Role} {id : String} {i i' : Option Job}
    (h : Turn who (holding job r id) i (holding job none id) i') : Turn who (holding job r id) i none i' := by
  rw [holding_none] at h
  exact h

/-- **A worker's step is, for every job, a turn of the protocol**, provided that the jobs it holds are
stored and that the job it is about to reschedule is stored as it read it. -/
theorem Worker.act_turn {sh sh' : Shared} {pc pc' : Worker} {a : WorkerAct} (h : pc.act sh a = some (pc', sh'))
    (hjob : ∀ id q, pc.role id = some q → ∃ j, sh.store.find id = some j)
    (hcur : ∀ job ctx cur, pc = .retrying job ctx cur → sh.store.find job.id = some cur) (id : String) :
    Turn .worker (pc.role id) (sh.store.find id) (pc'.role id) (sh'.store.find id) := by
  unfold Worker.act at h
  split at h
  case h_1 job now =>
    obtain ⟨j, hj⟩ := hjob job.id .waiting (holding_self _ _)
    rcases Store.transition_cases hj .running "" now with ⟨ht, hw⟩ | ⟨ht, hw⟩
    · have hturn : Turn .worker (some .waiting) (some j) (some .executing)
          (some (Store.tried j .running "" now)) := by
        rw [Store.tried_of ht]
        exact .claim j now (transition_running.mp ht)
      have hgoal := Turn.of_transition hj hturn id
      rw [hw] at h hgoal
      cases h
      exact hgoal
    · have hne : j.state ≠ .queued := fun hs => by simp [transition_running.mpr hs] at ht
      rw [hw] at h
      cases h
      exact (Turn.of_same hj (.drop j hne) id).letGo
  case h_2 job now => cases h; exact .same _ _
  case h_3 job ctx =>
    split at h
    · cases h; exact .same _ _
    · cases h
  case h_4 job ctx err => cases h; exact .same _ _
  case h_5 job ctx runErr output => cases h; exact .same _ _
  case h_6 job ctx runErr output now =>
    obtain ⟨j, hj⟩ := hjob job.id .executing (holding_self _ _)
    cases h
    refine Turn.of_one ?_ (fun k hk => ?_) id
    · rw [Shared.write, Store.find_setOutput hj, if_pos rfl, hj]
      exact .output j output
    · rw [Shared.write, Store.find_setOutput hj, if_neg hk]
  case h_7 job ctx runErr now => split at h <;> cases h <;> exact .same _ _
  case h_8 job ctx runErr now =>
    split at h
    · cases h; exact .same _ _
    · split at h <;> cases h <;> exact .same _ _
  case h_9 job ctx now =>
    obtain ⟨j, hj⟩ := hjob job.id .executing (holding_self _ _)
    cases h
    exact (Turn.of_transition hj (.finish j .cancelled "cancelled by user" now (.inr rfl)) id).letGo
  case h_10 job ctx now =>
    obtain ⟨j, hj⟩ := hjob job.id .executing (holding_self _ _)
    cases h
    exact (Turn.of_transition hj (.finish j .completed "" now (.inl rfl)) id).letGo
  case h_11 job ctx errMsg now =>
    obtain ⟨j, hj⟩ := hjob job.id .executing (holding_self _ _)
    rcases Store.transition_cases hj .failed errMsg now with ⟨ht, hw⟩ | ⟨ht, hw⟩
    · have hturn : Turn .worker (some .executing) (some j) (some .failing)
          (some (Store.tried j .failed errMsg now)) := by
        rw [Store.tried_of ht]
        exact .fail j errMsg now (transition_failed.mp ht)
      have hgoal := Turn.of_transition hj hturn id
      rw [hw] at h hgoal
      cases h
      exact hgoal
    · have hne : j.state ≠ .running := fun hs => by simp [transition_failed.mpr hs] at ht
      rw [hw] at h
      cases h
      exact (Turn.of_same hj (.lose j hne) id).letGo
  case h_12 job ctx now =>
    obtain ⟨j, hj⟩ := hjob job.id .failing (holding_self _ _)
    rw [Store.get, hj] at h
    cases h
    exact .same _ _
  case h_13 job ctx current now =>
    have hj := hcur job ctx current rfl
    have hid := Store.id_of_find hj
    split at h
    · next hlt =>
      cases h
      have hup : (scheduleRetry current now).id = job.id := hid
      have hj' : sh.store.find (scheduleRetry current now).id = some current := hup ▸ hj
      refine Turn.letGo (Turn.of_one ?_ (fun k hk => ?_) id)
      · rw [Shared.write, Store.find_update hj', if_pos hup.symm, hj]
        exact .retry current now hlt
      · rw [Shared.write, Store.find_update hj', if_neg (hup ▸ hk)]
    · next hlt =>
      cases h
      exact (Turn.of_transition hj (.exhaust current now hlt) id).letGo
  case h_14 job ctx now => cases h; exact .same _ _
  case h_15 ctx now => cases h; exact .same _ _
  case h_16 => cases h

/-- All of the scheduler's steps but the send, which only passes a copy on. -/
theorem Scheduler.act_turn {cap : Nat} {sh sh' : Shared} {pc pc' : Scheduler} {a : SchedAct}
    (h : pc.act cap sh a = some (pc', sh')) (hq : sh'.queue = sh.queue)
    (hjob : ∀ id q, pc.role id = some q → ∃ j, sh.store.find id = some j)
    (id : String) : Turn .scheduler (pc.role id) (sh.store.find id) (pc'.role id) (sh'.store.find id) := by
  unfold Scheduler.act at h
  split at h
  case h_1 rows now =>
    split at h
    · cases h; exact .same _ _
    · cases h
  case h_2 j rest now =>
    cases hj : sh.store.find j.id with
    | none =>
      rw [Store.transition_none hj] at h
      cases h
      exact .same _ _
    | some i =>
      rcases Store.transition_cases hj .queued "" now with ⟨ht, hw⟩ | ⟨ht, hw⟩
      · have hturn : Turn .scheduler none (some i) (some .waiting) (some (Store.tried i .queued "" now)) := by
          rw [Store.tried_of ht]
          exact .enqueue i now (transition_queued.mp ht)
        have hgoal := Turn.of_transition hj hturn id
        rw [hw, holding_none] at hgoal
        rw [hw] at h
        cases h
        exact hgoal
      · rw [hw] at h
        cases h
        exact .same _ _
  case h_3 j rest =>
    split at h <;> cases h
    simp at hq
  case h_4 j rest =>
    split at h
    · cases h; exact .same _ _
    · cases h
  case h_5 j rest now =>
    obtain ⟨i, hi⟩ := hjob j.id .waiting (holding_self _ _)
    cases h
    exact (Turn.of_transition hi (.revert i now) id).letGo
  case h_6 => cases h

/-- `Create` stores a new job, which nobody holds yet. -/
theorem Turn.of_create {st st' : Store} {req : SubmitJobRequest} {k : String} {now : Time}
    (h : st.create (newJob req k now) = (.ok (), st')) (id : String) :
    Turn .handler none (st.find id) none (st'.find id) := by
  unfold Store.create at h
  split at h
  · cases h
  · next hnew =>
    cases h
    have hnone : st.find (newJob req k now).id = none := by simpa using hnew
    have hone : Turn .handler none (st.find (newJob req k now).id) none
        ((st.put (newJob req k now)).find (newJob req k now).id) := by
      rw [hnone, Store.find_put_self]
      exact .submit _ rfl rfl
    have hgoal := Turn.of_one hone (fun k hk => Store.find_put_ne hk) id
    rw [holding_none] at hgoal
    exact hgoal

/-- The job that a request has seen, or is about to report, as cancelled. -/
def Request.settled : Request → Option String
  | .confirming id | .answering id _ => some id
  | .answered id resp => if resp.code = 200 then some id else none
  | _ => none

theorem cancelJob_settled (id : String) (job : Job) : (cancelJob id job).settled = none := by
  unfold cancelJob
  cases job.state <;> rfl

/-- What a step of a request does.  It leaves the store alone, and then settles on a job only if the job is
`CANCELLED` or a wait runs out; it creates a job; or it writes `CANCELLED`. -/
inductive Request.Acts (sh sh' : Shared) (pc : Request) (a : RequestAct) (pc' : Request) : Prop where
  | quiet : sh'.store = sh.store →
      (∀ id, pc'.settled = some id → pc.settled = some id ∨ (sh.store.find id).map Job.state = some .cancelled ∨
        a = .expire ∧ ∃ job, pc = .waiting id job) → Acts sh sh' pc a pc'
  | create (req : SubmitJobRequest) (id : String) (now : Time) :
      sh.store.create (newJob req id now) = (.ok (), sh'.store) → pc'.settled = none → Acts sh sh' pc a pc'
  | cancel (j : Job) (now : Time) (rand : RandBytes) : a = .step now rand → pc = .cancelling j.id →
      sh.store.find j.id = some j → transition j.state .cancelled = true →
      sh'.store = (sh.store.transition j.id .cancelled "cancelled by user" now).2 → pc' = .confirming j.id →
      Acts sh sh' pc a pc'

theorem Request.acts_of_act {sh sh' : Shared} {pc pc' : Request} {a : RequestAct}
    (h : pc.act sh a = some (pc', sh')) : Acts sh sh' pc a pc' := by
  -- most steps only read, and settle on nothing
  have hnone (hstore : sh'.store = sh.store) (hs : pc'.settled = none) : Acts sh sh' pc a pc' :=
    .quiet hstore fun id hid => by rw [hs] at hid; cases hid
  unfold Request.act at h
  split at h
  case h_1 => cases h; exact hnone rfl rfl
  case h_2 req attempts now rand =>
    split at h
    · cases h; exact hnone rfl rfl
    · next b =>
      split at h
      · next hc =>
        cases h
        exact .create req (idOf b) now hc rfl
      · cases h; exact hnone rfl rfl
  case h_3 => split at h <;> cases h <;> exact hnone rfl rfl
  case h_4 =>
    split at h
    · cases h; exact hnone rfl rfl
    · cases h; exact hnone rfl (cancelJob_settled _ _)
  case h_5 => split at h <;> cases h <;> exact hnone rfl rfl
  case h_6 => cases h; exact hnone rfl rfl
  case h_7 k job _ _ =>
    split at h
    · cases h; exact hnone rfl rfl
    · next current hget =>
      split at h
      · next hc =>
        cases h
        refine .quiet rfl fun id hid => .inr (.inl ?_)
        cases hid
        rw [Store.get_ok.mp hget, Option.map_some, hc]
      · cases h; exact hnone rfl rfl
  case h_8 k job =>
    cases h
    refine .quiet rfl fun id hid => .inr (.inr ⟨rfl, job, ?_⟩)
    cases hid
    rfl
  case h_9 k now rand =>
    cases hj : sh.store.find k with
    | none =>
      rw [Store.transition_none hj] at h
      cases h
      exact hnone rfl rfl
    | some j =>
      obtain rfl : j.id = k := Store.id_of_find hj
      rcases Store.transition_cases hj .cancelled "cancelled by user" now with ⟨ht, hw⟩ | ⟨ht, hw⟩
      · rw [hw] at h
        cases h
        exact .cancel j now rand rfl rfl hj ht (by rw [hw]) rfl
      · rw [hw] at h
        cases h
        exact hnone rfl rfl
  case h_10 k now rand =>
    cases h
    exact .quiet rfl fun id hid => .inl hid
  case h_11 k job now rand =>
    cases h
    exact .quiet rfl fun id hid => .inl hid
  case h_12 => cases h

/-- What a request does to the stored jobs: nothing, or a turn that has no owner. -/
theorem Request.act_turn {sh sh' : Shared} {pc pc' : Request} {a : RequestAct} (h : pc.act sh a = some (pc', sh'))
    (id : String) : Turn .handler none (sh.store.find id) none (sh'.store.find id) := by
  cases Request.acts_of_act h with
  | quiet hstore _ =>
    rw [hstore]
    exact .same _ _
  | create req k now hc _ => exact Turn.of_create hc id
  | cancel j now rand _ _ hj _ hstore _ =>
    have hgoal := Turn.of_transition hj (.cancel j "cancelled by user" now) id
    rw [holding_none] at hgoal
    rw [hstore]
    exact hgoal

/-! ## The queue is the scheduler's and the workers' -/

theorem Worker.act_queue {sh sh' : Shared} {pc pc' : Worker} {a : WorkerAct} (h : pc.act sh a = some (pc', sh')) :
    sh'.queue = sh.queue := by
  unfold Worker.act at h
  repeat' (split at h)
  all_goals first | (cases h; rfl) | cases h

theorem Request.act_queue {sh sh' : Shared} {pc pc' : Request} {a : RequestAct} (h : pc.act sh a = some (pc', sh')) :
    sh'.queue = sh.queue := by
  unfold Request.act at h
  repeat' (split at h)
  all_goals first | (cases h; rfl) | cases h

theorem Scheduler.act_queue {cap : Nat} {sh sh' : Shared} {pc pc' : Scheduler} {a : SchedAct}
    (h : pc.act cap sh a = some (pc', sh')) : sh'.queue = sh.queue ∨ ∃ j rest, pc = .sending j rest ∧
      pc' = .loop rest ∧ sh' = { sh with queue := sh.queue ++ [j] } := by
  unfold Scheduler.act at h
  repeat' (split at h)
  all_goals first
    | (cases h; exact .inl rfl)
    | (cases h; exact .inr ⟨_, _, rfl, rfl, rfl⟩)
    | cases h

/-- Whose turn an action is; where it changes no job, anybody's. -/
def Action.actor : Action → Actor
  | .schedule _ => .scheduler
  | .work _ _ | .receive _ | .handoff _ => .worker
  | .deadline _ | .submit _ | .delete _ | .request _ _ => .handler

/-! ## Counting the owners -/

/-- What a copy of the job counts as an owner of role `q`. -/
def share (job : Job) (r : Role) (id : String) (q : Role) : Nat := (decide (holding job (some r) id = some q)).toNat

theorem share_of_ne {r q : Role} (h : q ≠ r) (job : Job) (id : String) : share job r id q = 0 := by
  unfold share holding
  split <;> simp [h.symm]

theorem copies_cons (job : Job) (queue : List Job) (id : String) :
    copies (job :: queue) id = copies queue id + share job .waiting id .waiting := by
  unfold copies share holding
  by_cases hid : job.id = id <;> simp [hid]

theorem copies_snoc (job : Job) (queue : List Job) (id : String) :
    copies (queue ++ [job]) id = copies queue id + share job .waiting id .waiting := by
  unfold copies share holding
  by_cases hid : job.id = id <;> simp [hid]

section holders

variable {workers : List Worker} {w : Nat} {pc : Worker} {id : String} {q : Role}

theorem holders_pos (h : workers[w]? = some pc) (hq : pc.role id = some q) : 0 < holders workers id q :=
  List.countP_pos_iff.mpr ⟨pc, List.mem_of_getElem? h, by simpa using hq⟩

theorem holders_set (h : workers[w]? = some pc) (pc' : Worker) (id : String) (q : Role) :
    holders (workers.set w pc') id q + (decide (pc.role id = some q)).toNat =
      holders workers id q + (decide (pc'.role id = some q)).toNat :=
  countP_set_add (fun pc : Worker => decide (pc.role id = some q)) h pc'

theorem holders_fetched (h : workers[w]? = some .idle) (job : Job) (id : String) (q : Role) :
    holders (workers.set w (.fetched job)) id q = holders workers id q + share job .waiting id q := by
  have hset := holders_set h (.fetched job) id q
  have hidle : (decide (Worker.idle.role id = some q)).toNat = 0 := rfl
  unfold share
  rw [hidle] at hset
  exact hset

end holders

namespace Sys

variable {cap : Nat} {σ σ' : Sys} {a : Action}

theorem owners_pos_of_worker {w : Nat} {pc : Worker} {id : String} {q : Role} (h : σ.workers[w]? = some pc)
    (hq : pc.role id = some q) : 0 < σ.owners id q := by
  have := holders_pos h hq
  unfold owners
  omega

theorem owners_pos_of_sched {id : String} {q : Role} (hq : σ.sched.role id = some q) : 0 < σ.owners id q := by
  unfold owners
  simp [hq]

/-! ## The refinement -/

/-- The job that a worker is about to reschedule is stored as it read it. -/
def Current (σ : Sys) : Prop :=
  ∀ (w ctx : Nat) (job cur : Job), σ.workers[w]? = some (.retrying job ctx cur) → σ.job job.id = some cur

structure Inv (σ : Sys) : Prop where
  owned : ∀ id, (σ.view id).Owned
  current : σ.Current

/-- A step that keeps the stored job and only passes copies on. -/
theorem move_of_owners {who : Actor} {id : String} (hjob : σ'.job id = σ.job id)
    (h : ∀ q, σ'.owners id q = σ.owners id q) : (σ.view id).Move who (σ'.view id) := by
  refine ⟨none, none, ?_, by simp, fun q => by simp [view, h]⟩
  simp only [view, hjob]
  exact .same _ _

theorem move_of_schedule (hI : σ.Inv) {pc' : Scheduler} {sh' : Shared} {a : SchedAct}
    (hact : σ.sched.act cap σ.shared a = some (pc', sh')) (id : String) :
    (σ.view id).Move .scheduler (view { σ with sched := pc', shared := sh' } id) := by
  rcases Scheduler.act_queue hact with hq | ⟨j, rest, hpc, rfl, rfl⟩
  · have hjob (k : String) (q : Role) (hr : σ.sched.role k = some q) : ∃ j, σ.shared.store.find k = some j :=
      (hI.owned k).stored (owners_pos_of_sched hr)
    refine ⟨_, _, Scheduler.act_turn hact hq hjob id, fun q hr => owners_pos_of_sched hr, fun q => ?_⟩
    simp only [view, owners, hq]
    omega
  · -- the send moves the copy from the scheduler into the queue
    refine move_of_owners rfl fun q => ?_
    have hsched : (decide (σ.sched.role id = some q)).toNat = share j .waiting id q := by rw [hpc]; rfl
    by_cases hq : q = .waiting
    · subst hq
      simp [owners, hsched, copies_snoc]
      omega
    · simp [owners, hsched, hq, share_of_ne hq]

theorem move_of_work (hI : σ.Inv) {w : Nat} {pc pc' : Worker} {sh' : Shared} {a : WorkerAct}
    (hw : σ.workers[w]? = some pc) (hact : pc.act σ.shared a = some (pc', sh')) (id : String) :
    (σ.view id).Move .worker (view { σ with workers := σ.workers.set w pc', shared := sh' } id) := by
  have hjob (k : String) (q : Role) (hr : pc.role k = some q) : ∃ j, σ.shared.store.find k = some j :=
    (hI.owned k).stored (owners_pos_of_worker hw hr)
  have hcur (job : Job) (ctx : Nat) (cur : Job) (hpc : pc = .retrying job ctx cur) :
      σ.shared.store.find job.id = some cur := hI.current w ctx job cur (hpc ▸ hw)
  refine ⟨_, _, Worker.act_turn hact hjob hcur id, fun q hr => owners_pos_of_worker hw hr, fun q => ?_⟩
  have hset := holders_set hw pc' id q
  simp only [view, owners, Worker.act_queue hact]
  omega

/-- **The orchestrator refines the protocol.** -/
theorem Inv.moves (hI : σ.Inv) (h : σ.Next cap a σ') (id : String) :
    (σ.view id).Move a.actor (σ'.view id) := by
  cases h.acted with
  | schedule hact => exact move_of_schedule hI hact id
  | work hw hact => exact move_of_work hI hw hact id
  | receive hw hqueue =>
    refine move_of_owners rfl fun q => ?_
    by_cases hq : q = .waiting
    · subst hq
      simp [owners, holders_fetched hw, hqueue, copies_cons]
      omega
    · simp [owners, holders_fetched hw, hq, share_of_ne hq]
  | @handoff w job rest hw hsched =>
    refine move_of_owners rfl fun q => ?_
    have hshare : (decide (σ.sched.role id = some q)).toNat = share job .waiting id q := by rw [hsched]; rfl
    simp [owners, holders_fetched hw, hshare]
  | deadline | submit | delete => exact move_of_owners rfl fun _ => rfl
  | request _ hact =>
    refine ⟨none, none, Request.act_turn hact id, by simp, fun q => ?_⟩
    simp only [view, owners, Request.act_queue hact]

theorem Inv.written (hI : σ.Inv) (h : σ.Next cap a σ') (id : String) : Written (σ.job id) (σ'.job id) :=
  (hI.moves h id).written (hI.owned id)

/-- A worker that has just read the job it failed holds it as it is stored. -/
theorem act_retrying {sh sh' : Shared} {pc : Worker} {a : WorkerAct} {job cur : Job} {ctx : Nat}
    (h : pc.act sh a = some (.retrying job ctx cur, sh')) : sh'.store.find job.id = some cur := by
  unfold Worker.act at h
  repeat' (split at h)
  all_goals cases h
  next hget => exact Store.get_ok.mp hget

/-- A worker about to reschedule a job was there before, or has just read it. -/
theorem Next.retrying (h : σ.Next cap a σ') {w ctx : Nat} {job cur : Job}
    (hw : σ'.workers[w]? = some (.retrying job ctx cur)) :
    σ.workers[w]? = some (.retrying job ctx cur) ∨ σ'.job job.id = some cur := by
  have hset {w' : Nat} {pc : Worker} (hset : (σ.workers.set w' pc)[w]? = some (.retrying job ctx cur)) :
      σ.workers[w]? = some (.retrying job ctx cur) ∨ pc = .retrying job ctx cur := by
    rw [List.getElem?_set] at hset
    split at hset
    · split at hset
      · exact .inr (Option.some.inj hset)
      · cases hset
    · exact .inl hset
  cases h.acted with
  | work _ hact =>
    rcases hset hw with hw | rfl
    · exact .inl hw
    · exact .inr (act_retrying hact)
  | receive | handoff =>
    rcases hset hw with hw | hpc
    · exact .inl hw
    · cases hpc
  | schedule | deadline | submit | delete | request => exact .inl hw

theorem Inv.next (hI : σ.Inv) (h : σ.Next cap a σ') : σ'.Inv := by
  refine ⟨fun id => (hI.owned id).move (hI.moves h id), fun w ctx job cur hw => ?_⟩
  rcases h.retrying hw with hw₀ | hread
  · -- the worker was there before, so nobody touched the job meanwhile
    have hrole : (Worker.retrying job ctx cur).role job.id = some .failing := holding_self _ _
    have hfrozen := (hI.moves h job.id).frozen (hI.owned job.id) (owners_pos_of_worker hw₀ hrole)
      (owners_pos_of_worker hw hrole)
    exact hfrozen.trans (hI.current w ctx job cur hw₀)
  · exact hread

theorem inv_start (n : Nat) : (start n).Inv := by
  have hidle {w : Nat} {pc : Worker} (h : (start n).workers[w]? = some pc) : pc = .idle :=
    (List.mem_replicate.mp (List.mem_of_getElem? h)).2
  constructor
  · intro id
    have hnone (q : Role) : (start n).owners id q = 0 := by
      simp [owners, start, holders, copies, List.countP_replicate, Worker.role]
    have hjob : (start n).job id = none := rfl
    simp [View.Owned, view, hjob, allowedOwners, hnone]
  · intro w ctx job cur hw
    cases hidle hw

/-- **Every state of every run keeps the owners that the job's state allows.** -/
theorem reached_inv {n : Nat} {tr : List (Step Sys Action)} (h : Run (Next cap) (start n) tr σ) : σ.Inv :=
  Run.inv Inv (fun _ => True) (fun _ hn _ hI => hI.next hn) (inv_start n) h fun _ _ => trivial

end Sys

end Orchestrator
