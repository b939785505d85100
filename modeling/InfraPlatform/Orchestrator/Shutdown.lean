import InfraPlatform.Orchestrator.Lifecycle
import InfraPlatform.Orchestrator.Pool

/-!
# Shutdown of the orchestrator process

`cmd/orchestrator` around the goroutines of `System`: `main` waits for the signal, shuts the
server down and then the pool; `pool.Shutdown` closes `stopCh`, starts a timer that cancels the run
context, and waits for the workers.  Every run of a job has a context below the run context, and
`main` hands the signal's own context to `worker.New`, so the run context is below that one.

* `Process.act`: the goroutines with the loop of `Pool` around each worker, the signal, the
  steps of `main` and the timer.  A context that is made below a finished one is born finished.
* `graceful_iff`: no run context of a job that was in flight or buffered when the signal came is
  cancelled before the timer fires exactly if no worker had a live context at the
  signal and none makes one for such a job after it.
* `signal_cancels_run`: the signal cancels the run of a job in flight.

Left out: the idle connections that `srv.Shutdown` waits for; it may return at any time.
-/

namespace Orchestrator

open Lib

/-! ## Contexts of runs -/

/-- The job that a worker has in hand. -/
def Worker.job : Worker → Option Job
  | .fetched job | .claimed job | .registered job _ | .executing job _ | .ended job _ _ _ | .judging job _ _
  | .judgingDeadline job _ _ | .cancelling job _ | .completing job _ | .failing job _ _ | .failed job _
  | .retrying job _ _ | .leaving job _ => some job
  | .idle | .left _ => none

/-- The context of the worker's run. -/
def Worker.ctx : Worker → Option Nat
  | .registered _ ctx | .executing _ ctx | .ended _ ctx _ _ | .judging _ ctx _ | .judgingDeadline _ ctx _
  | .cancelling _ ctx | .completing _ ctx | .failing _ ctx _ | .failed _ ctx | .retrying _ ctx _ | .leaving _ ctx
  | .left ctx => some ctx
  | .idle | .fetched _ | .claimed _ => none

namespace Shared

variable {sh : Shared} {c c' : Nat} {e : CtxErr}

/-- The run context is cancelled, and with it every context below it. -/
def endRuns (sh : Shared) : Shared := { sh with ctxs := sh.ctxs.map fun c => c.finish .canceled }

theorem err_congr {sh' : Shared} (h : sh'.ctxs = sh.ctxs) : sh'.err c = sh.err c := by
  unfold err
  rw [h]

theorem err_endCtx_of_ne (h : c' ≠ c) : (sh.endCtx c e).err c' = sh.err c' := by
  change ((sh.ctxs.modify c fun c => c.finish e)[c']?).bind Ctx.err = (sh.ctxs[c']?).bind Ctx.err
  rw [List.getElem?_modify_ne _ _ (Ne.symm h)]

theorem length_endCtx : (sh.endCtx c e).ctxs.length = sh.ctxs.length := List.length_modify ..

theorem err_of_length_le (h : sh.ctxs.length ≤ c) : sh.err c = none := by
  unfold err
  rw [List.getElem?_eq_none h]
  rfl

theorem lt_of_err (h : sh.err c ≠ none) : c < sh.ctxs.length := by
  by_contra hlt
  exact h (err_of_length_le (by omega))

theorem err_endRuns (h : c < sh.ctxs.length) : sh.endRuns.err c ≠ none := by
  unfold err endRuns
  rw [List.getElem?_map, List.getElem?_eq_getElem h]
  simp only [Option.map_some, Option.bind_some, Ctx.finish]
  split
  · simp
  · assumption

theorem length_endRuns : sh.endRuns.ctxs.length = sh.ctxs.length := List.length_map ..

end Shared

/-- What a worker's step does to the contexts. -/
inductive Worker.CtxStep (sh sh' : Shared) : Worker → Worker → Prop where
  | keep {pc pc' : Worker} : pc'.ctx = pc.ctx → sh'.ctxs = sh.ctxs → (∀ job, pc ≠ .claimed job) →
      CtxStep sh sh' pc pc'
  | make {job : Job} {ctx : Ctx} : ctx.err = none → sh'.ctxs = sh.ctxs ++ [ctx] →
      CtxStep sh sh' (.claimed job) (.registered job sh.ctxs.length)
  | leave {ctx : Nat} : sh'.ctxs = (sh.endCtx ctx .canceled).ctxs → CtxStep sh sh' (.left ctx) .idle

theorem Worker.act_ctxs {sh sh' : Shared} {pc pc' : Worker} {a : WorkerAct} (h : pc.act sh a = some (pc', sh')) :
    CtxStep sh sh' pc pc' := by
  unfold Worker.act at h
  split at h
  case h_2 job now => cases h; exact .make rfl rfl
  case h_15 ctx now => cases h; exact .leave rfl
  all_goals repeat' split at h
  all_goals first
    | cases h; exact .keep rfl rfl (fun _ hc => by cases hc)
    | cases h

theorem Scheduler.act_ctxs {cap : Nat} {sh sh' : Shared} {pc pc' : Scheduler} {a : SchedAct}
    (h : pc.act cap sh a = some (pc', sh')) : sh'.ctxs = sh.ctxs := by
  unfold Scheduler.act at h
  repeat' split at h
  all_goals cases h
  all_goals rfl

theorem Request.act_ctxs {sh sh' : Shared} {pc pc' : Request} {a : RequestAct} (h : pc.act sh a = some (pc', sh')) :
    sh'.ctxs = sh.ctxs ∨
      ∃ id job ctx, pc = .calling id job ctx ∧ sh'.ctxs = (sh.endCtx ctx .canceled).ctxs := by
  unfold Request.act at h
  split at h
  case h_6 id job ctx _ _ => cases h; exact .inr ⟨id, job, ctx, rfl, rfl⟩
  all_goals repeat' split at h
  all_goals cases h
  all_goals exact .inl rfl

namespace Sys

variable {cap : Nat} {σ σ' : Sys} {a : Action}

/-- The context that worker `w` holds. -/
def ctx (σ : Sys) (w : Nat) : Option Nat := (σ.workers[w]?).bind Worker.ctx

theorem ctx_set {w : Nat} {pc pc' : Worker} (hw : σ.workers[w]? = some pc) (hctx : pc'.ctx = pc.ctx) (v : Nat) :
    ((σ.workers.set w pc')[v]?).bind Worker.ctx = σ.ctx v := by
  unfold ctx
  by_cases hv : w = v
  · subst hv
    rw [List.getElem?_set_self (List.getElem?_eq_some_iff.mp hw).1, hw]
    exact hctx
  · rw [List.getElem?_set_ne hv]

/-- What a step of the goroutines does to the contexts and to who holds them. -/
inductive CtxStep (σ : Sys) : Action → Sys → Prop where
  | keep {a : Action} {σ' : Sys} : (∀ v, σ'.ctx v = σ.ctx v) → σ'.shared.ctxs = σ.shared.ctxs →
      (∀ w wa job, a = .work w wa → σ.workers[w]? ≠ some (.claimed job)) → CtxStep σ a σ'
  | make {w : Nat} {job : Job} {ctx : Ctx} {σ' : Sys} (wa : WorkerAct) : σ.workers[w]? = some (.claimed job) →
      ctx.err = none → σ'.shared.ctxs = σ.shared.ctxs ++ [ctx] →
      σ'.workers = σ.workers.set w (.registered job σ.shared.ctxs.length) → CtxStep σ (.work w wa) σ'
  | leave {w ctx : Nat} {σ' : Sys} (wa : WorkerAct) : σ.workers[w]? = some (.left ctx) →
      σ'.shared.ctxs = (σ.shared.endCtx ctx .canceled).ctxs → σ'.workers = σ.workers.set w .idle →
      CtxStep σ (.work w wa) σ'
  | deadline {ctx : Nat} {σ' : Sys} : σ'.shared.ctxs = (σ.shared.endCtx ctx .deadlineExceeded).ctxs →
      σ'.workers = σ.workers → CtxStep σ (.deadline ctx) σ'
  | delete {i ctx : Nat} {id : String} {job : Job} {σ' : Sys} (ra : RequestAct) :
      σ.requests[i]? = some (.calling id job ctx) → σ'.shared.ctxs = (σ.shared.endCtx ctx .canceled).ctxs →
      σ'.workers = σ.workers → CtxStep σ (.request i ra) σ'

theorem Next.ctxStep (h : σ.Next cap a σ') : CtxStep σ a σ' := by
  cases h.acted with
  | schedule hact => exact .keep (fun _ => rfl) (Scheduler.act_ctxs hact) (fun _ _ _ ha => by cases ha)
  | @work w a pc pc' sh hw hact =>
    cases Worker.act_ctxs hact with
    | keep hctx hsh hne =>
      refine .keep (ctx_set hw hctx) hsh fun v wa job hv hclaimed => ?_
      cases hv
      exact hne job (Option.some.inj (hw.symm.trans hclaimed))
    | make herr hsh => exact .make a hw herr hsh rfl
    | leave hsh => exact .leave a hw hsh rfl
  | receive hw _ => exact .keep (ctx_set hw rfl) rfl (fun _ _ _ ha => by cases ha)
  | handoff hw _ => exact .keep (ctx_set hw rfl) rfl (fun _ _ _ ha => by cases ha)
  | deadline => exact .deadline rfl rfl
  | submit | delete => exact .keep (fun _ => rfl) rfl (fun _ _ _ ha => by cases ha)
  | @request i a pc pc' sh hi hact =>
    rcases Request.act_ctxs hact with hsh | ⟨id, job, c, rfl, hsh⟩
    · exact .keep (fun _ => rfl) hsh (fun _ _ _ ha => by cases ha)
    · exact .delete a hi hsh rfl

end Sys

/-! ## The process -/

inductive Timer where
  | unset | running | fired | stopped
deriving DecidableEq, Repr

/-- Where `main` stands. -/
inductive Main where
  /-- at `<-ctx.Done()` -/
  | serving
  /-- in `srv.Shutdown` -/
  | stoppingServer
  /-- in `pool.Shutdown`: about to close `stopCh`, to start the timer -/
  | closing
  | arming
  /-- in `wg.Wait` -/
  | waiting
  /-- about to stop the timer, to call `runCancel` -/
  | disarming
  | cancelling
  | finished
deriving DecidableEq, Repr

/-- Past `wg.Wait`. -/
def Main.joined : Main → Bool
  | .disarming | .cancelling | .finished => true
  | _ => false

structure Process where
  sys : Sys
  /-- where each worker stands in the loop around `Executor.Run` -/
  spots : List Spot
  schedulerDone : Bool := false
  /-- the context of `signal.NotifyContext` is done -/
  signalled : Bool := false
  /-- the pool's run context is done -/
  runDone : Bool := false
  stopped : Bool := false
  timer : Timer := .unset
  main : Main := .serving
  /-- the jobs that were in flight or buffered when the signal came -/
  caught : List String := []

inductive ProcessAct where
  /-- a step of the goroutines -/
  | sys (a : Action)
  /-- a case of worker `w`'s selects that receives nothing -/
  | select (w : Nat) (c : Select)
  /-- the scheduler sees the signal -/
  | quit
  | signal
  /-- the next step of `main` -/
  | main
  /-- the timer of `pool.Shutdown` fires -/
  | expire

namespace Process

section Parts

variable (σ : Process)

def start (n : Nat) : Process := { sys := Sys.start n, spots := List.replicate n .polling }

/-- `ctx.Err()` of a run. -/
def err (ctx : Nat) : Option CtxErr := σ.sys.shared.err ctx

def endRuns : Process := { σ with sys := { σ.sys with shared := σ.sys.shared.endRuns }, runDone := true }

/-- The jobs in the queue and those that workers have in hand. -/
def inFlight : List String := σ.sys.shared.queue.map Job.id ++ σ.sys.workers.filterMap fun w => w.job.map Job.id

/-- When a step of the goroutines is possible at all: a scheduler that has returned takes none, a worker
receives at a select, and a send meets a blocked worker before it meets the buffer. -/
def enabled : Action → Bool
  | .schedule .send | .schedule .full => !σ.schedulerDone && !σ.spots.contains .parked
  | .schedule _ => !σ.schedulerDone
  | .receive w => (σ.spots[w]?).any Spot.receives
  | .handoff w => !σ.schedulerDone && σ.spots[w]? = some .parked
  | _ => true

/-- The loop around a worker follows what the worker does. -/
def spotsAfter (s : Sys) : Action → List Spot
  | .receive w | .handoff w => σ.spots.set w .running
  | .work w _ => if s.workers[w]? = some .idle then σ.spots.set w .polling else σ.spots
  | _ => σ.spots

/-- A context that is made below a finished run context is finished from the start. -/
def after (a : Action) (s : Sys) : Process :=
  { σ with
    sys := if σ.runDone then { s with shared := s.shared.endRuns } else s
    spots := σ.spotsAfter s a }

def mainStep : Option Process :=
  match σ.main with
  | .serving => if σ.signalled then some { σ with main := .stoppingServer } else none
  -- the server is idle, or its own deadline is over
  | .stoppingServer => some { σ with main := .closing }
  | .closing => some { σ with main := .arming, stopped := true }
  | .arming => some { σ with main := .waiting, timer := .running }
  | .waiting => if σ.spots.all (· = .returned) then some { σ with main := .disarming } else none
  | .disarming => some { σ with main := .cancelling, timer := if σ.timer = .running then .stopped else σ.timer }
  | .cancelling => some { σ.endRuns with main := .finished }
  | .finished => none

end Parts

def act (cap : Nat) (σ : Process) : ProcessAct → Option Process
  | .sys a => if σ.enabled a then (σ.sys.act cap a).map (σ.after a) else none
  | .select w c => do
    let p ← σ.spots[w]?
    let p' ← p.select σ.sys.shared.queue.isEmpty σ.stopped σ.signalled c
    pure { σ with spots := σ.spots.set w p' }
  | .quit => if σ.signalled && σ.sys.sched = .loop [] then some { σ with schedulerDone := true } else none
  -- the run context is below the context of the signal
  | .signal => if σ.signalled then none else some { σ.endRuns with signalled := true, caught := σ.inFlight }
  | .main => σ.mainStep
  | .expire => if σ.timer = .running then some { σ.endRuns with timer := .fired } else none

def Next (cap : Nat) (σ : Process) (a : ProcessAct) (σ' : Process) : Prop := σ.act cap a = some σ'

variable {cap : Nat} {σ σ' : Process} {a : ProcessAct}

/-- What each action needs and leaves behind. -/
inductive Acted (cap : Nat) (σ : Process) : ProcessAct → Process → Prop where
  | sys {a : Action} {s : Sys} : σ.enabled a = true → σ.sys.Next cap a s → Acted cap σ (.sys a) (σ.after a s)
  | select {w : Nat} {p p' : Spot} (c : Select) : σ.spots[w]? = some p →
      p.select σ.sys.shared.queue.isEmpty σ.stopped σ.signalled c = some p' →
      Acted cap σ (.select w c) { σ with spots := σ.spots.set w p' }
  | quit : Acted cap σ .quit { σ with schedulerDone := true }
  | signal : σ.signalled = false →
      Acted cap σ .signal { σ.endRuns with signalled := true, caught := σ.inFlight }
  | main {σ' : Process} : σ.mainStep = some σ' → Acted cap σ .main σ'
  | expire : σ.timer = .running → Acted cap σ .expire { σ.endRuns with timer := .fired }

theorem Next.acted (h : σ.Next cap a σ') : Acted cap σ a σ' := by
  unfold Next act at h
  cases a with
  | sys a =>
    simp only at h
    split at h
    · next hen =>
      obtain ⟨s, hs, rfl⟩ := Option.map_eq_some_iff.mp h
      exact .sys hen hs
    · cases h
  | select w c =>
    obtain ⟨p, hp, h⟩ := Option.bind_eq_some_iff.mp h
    obtain ⟨p', hp', h⟩ := Option.bind_eq_some_iff.mp h
    cases h
    exact .select c hp hp'
  | quit =>
    simp only at h
    split at h
    · cases h; exact .quit
    · cases h
  | signal =>
    simp only at h
    split at h
    · cases h
    · next hs => cases h; exact .signal (by simpa using hs)
  | main => exact .main h
  | expire =>
    simp only at h
    split at h
    · next ht => cases h; exact .expire ht
    · cases h

/-! ## Who holds which context -/

/-- Contexts are held by one worker each. -/
structure Exclusive (s : Sys) : Prop where
  made : ∀ w c, s.ctx w = some c → c < s.shared.ctxs.length
  distinct : ∀ v w c, s.ctx v = some c → s.ctx w = some c → v = w

theorem ctx_start (n w : Nat) : (Sys.start n).ctx w = none := by
  unfold Sys.ctx Sys.start
  rw [List.getElem?_replicate]
  split <;> rfl

theorem exclusive_start (n : Nat) : Exclusive (Sys.start n) := by
  constructor
  · intro w c hc
    rw [ctx_start] at hc
    cases hc
  · intro v w c hc
    rw [ctx_start] at hc
    cases hc

/-- The holders of `s'` are among those of `s`, under as many contexts. -/
theorem Exclusive.mono {s s' : Sys} (h : Exclusive s) (hctx : ∀ w c, s'.ctx w = some c → s.ctx w = some c)
    (hlen : s'.shared.ctxs.length = s.shared.ctxs.length) : Exclusive s' := by
  constructor
  · intro w c hc
    rw [hlen]
    exact h.made w c (hctx w c hc)
  · intro v w c hv hw
    exact h.distinct v w c (hctx v c hv) (hctx w c hw)

theorem ctx_of_set {s s' : Sys} {w v c : Nat} {pc : Worker} (hs : s'.workers = s.workers.set w pc)
    (hc : s'.ctx v = some c) : v = w ∧ pc.ctx = some c ∨ v ≠ w ∧ s.ctx v = some c := by
  unfold Sys.ctx at hc
  rw [hs, List.getElem?_set] at hc
  by_cases hv : w = v
  · subst hv
    rw [if_pos rfl] at hc
    split at hc
    · exact .inl ⟨rfl, hc⟩
    · cases hc
  · rw [if_neg hv] at hc
    exact .inr ⟨Ne.symm hv, hc⟩

theorem Exclusive.step {s s' : Sys} {a : Action} (h : Exclusive s) (hs : s.CtxStep a s') : Exclusive s' := by
  have hsame (hw : s'.workers = s.workers) (w c : Nat) (hc : s'.ctx w = some c) : s.ctx w = some c := by
    unfold Sys.ctx at hc
    rw [hw] at hc
    exact hc
  cases hs with
  | keep hctx hsh => exact h.mono (fun w c hc => by rw [← hctx w]; exact hc) (by rw [hsh])
  | @make w job ctx _ wa hclaimed herr hsh hw =>
    -- the new context is above all others
    have hlen : s'.shared.ctxs.length = s.shared.ctxs.length + 1 := by rw [hsh]; simp
    have hcases (v c : Nat) (hc : s'.ctx v = some c) :
        v = w ∧ c = s.shared.ctxs.length ∨ v ≠ w ∧ s.ctx v = some c ∧ c < s.shared.ctxs.length := by
      rcases ctx_of_set hw hc with ⟨hv, hc⟩ | ⟨hv, hc⟩
      · exact .inl ⟨hv, (Option.some.inj hc).symm⟩
      · exact .inr ⟨hv, hc, h.made v c hc⟩
    constructor
    · intro v c hc
      rcases hcases v c hc with ⟨-, hc⟩ | ⟨-, -, hc⟩ <;> omega
    · intro v v' c hv hv'
      rcases hcases v c hv with ⟨hv, hc⟩ | ⟨-, hvc, hc⟩ <;> rcases hcases v' c hv' with ⟨hv', hc'⟩ | ⟨-, hvc', hc'⟩
      · rw [hv, hv']
      · omega
      · omega
      · exact h.distinct v v' c hvc hvc'
  | leave wa hleft hsh hw =>
    refine h.mono (fun v c hc => ?_) (by rw [hsh]; exact Shared.length_endCtx)
    rcases ctx_of_set hw hc with ⟨-, hc⟩ | ⟨-, hc⟩
    · cases hc
    · exact hc
  | deadline hsh hw => exact h.mono (hsame hw) (by rw [hsh]; exact Shared.length_endCtx)
  | delete ra hcall hsh hw => exact h.mono (hsame hw) (by rw [hsh]; exact Shared.length_endCtx)

/-! ## The loop around a worker -/

/-- A worker is in `Executor.Run` only while its loop is in `runner.Run`. -/
structure Looped (spots : List Spot) (workers : List Worker) : Prop where
  sized : spots.length = workers.length
  resting : ∀ (w : Nat) (p : Spot), spots[w]? = some p → p ≠ .running → workers[w]? = some .idle

section Loop

variable {spots : List Spot} {workers : List Worker} {w : Nat} {pc : Worker} {p : Spot}

theorem Looped.running (h : Looped spots workers) (hw : workers[w]? = some pc) (hpc : pc ≠ .idle) :
    spots[w]? = some .running := by
  have hlt : w < spots.length := by
    rw [h.sized]
    exact (List.getElem?_eq_some_iff.mp hw).1
  have hp := List.getElem?_eq_getElem hlt
  by_cases hrun : spots[w] = .running
  · rw [hp, hrun]
  · have hrest := h.resting w _ hp hrun
    exact absurd (Option.some.inj (hw.symm.trans hrest)) hpc

/-- Loop and worker move together. -/
theorem Looped.set (h : Looped spots workers) (hmove : p ≠ .running → pc = .idle) :
    Looped (spots.set w p) (workers.set w pc) := by
  constructor
  · simp only [List.length_set]
    exact h.sized
  · intro v q hq hne
    rw [List.getElem?_set] at hq ⊢
    by_cases hv : w = v
    · rw [if_pos hv] at hq ⊢
      rw [h.sized] at hq
      split at hq
      · next hlt =>
        obtain rfl := Option.some.inj hq
        rw [if_pos hlt, hmove hne]
      · cases hq
    · rw [if_neg hv] at hq ⊢
      exact h.resting v q hq hne

theorem set_of_getElem? {α : Type} {l : List α} {i : Nat} {x : α} (h : l[i]? = some x) : l.set i x = l := by
  obtain ⟨hlt, rfl⟩ := List.getElem?_eq_some_iff.mp h
  exact List.set_getElem_self hlt

/-- The worker moves on inside `Executor.Run`. -/
theorem Looped.set_worker (h : Looped spots workers) (hrun : spots[w]? = some .running) :
    Looped spots (workers.set w pc) := by
  have hmove : Looped (spots.set w .running) (workers.set w pc) := h.set fun hne => absurd rfl hne
  rw [set_of_getElem? hrun] at hmove
  exact hmove

/-- The loop moves on outside `Executor.Run`. -/
theorem Looped.set_spot (h : Looped spots workers) (hw : workers[w]? = some .idle) :
    Looped (spots.set w p) workers := by
  have hmove : Looped (spots.set w p) (workers.set w .idle) := h.set fun _ => rfl
  rw [set_of_getElem? hw] at hmove
  exact hmove

end Loop

theorem not_idle_of_act {sh : Shared} {pc : Worker} {a : WorkerAct} {out : Worker × Shared}
    (h : pc.act sh a = some out) : pc ≠ .idle := by
  rintro rfl
  cases a <;> cases h

theorem Looped.after {a : Action} {s : Sys} (h : Looped σ.spots σ.sys.workers) (hs : σ.sys.Next cap a s) :
    Looped (σ.spotsAfter s a) s.workers := by
  cases hs.acted with
  | @work w a pc pc' sh hw hact =>
    have hrun := h.running hw (not_idle_of_act hact)
    have hlt := (List.getElem?_eq_some_iff.mp hw).1
    simp only [spotsAfter, List.getElem?_set_self hlt]
    split
    · next hidle =>
      obtain rfl : pc' = .idle := Option.some.inj hidle
      exact h.set (fun _ => rfl)
    · exact h.set_worker hrun
  | receive hw _ => exact h.set (fun hne => absurd rfl hne)
  | handoff hw _ => exact h.set (fun hne => absurd rfl hne)
  | schedule | deadline | submit | delete | request => exact h

/-- When all loops have returned nothing moves them any more. -/
theorem spotsAfter_of_returned {a : Action} {s : Sys} (h : Looped σ.spots σ.sys.workers)
    (hret : ∀ p ∈ σ.spots, p = .returned) (hen : σ.enabled a = true) (hs : σ.sys.Next cap a s) :
    σ.spotsAfter s a = σ.spots := by
  have hnone {w : Nat} {p : Spot} (hp : σ.spots[w]? = some p) : p = .returned := hret p (List.mem_of_getElem? hp)
  cases hs.acted with
  | @work w a pc pc' sh hw hact => cases hnone (h.running hw (not_idle_of_act hact))
  | @receive w job rest hw _ =>
    simp only [enabled, Option.any_eq_true] at hen
    obtain ⟨p, hp, hrec⟩ := hen
    rw [hnone hp] at hrec
    cases hrec
  | @handoff w job rest hw _ =>
    simp only [enabled, Bool.and_eq_true, decide_eq_true_eq] at hen
    cases hnone hen.2
  | schedule | deadline | submit | delete | request => rfl

/-! ## What a run of the process keeps -/

structure Inv (σ : Process) : Prop where
  exclusive : Exclusive σ.sys
  ended : σ.runDone = true → ∀ c < σ.sys.shared.ctxs.length, σ.err c ≠ none
  looped : Looped σ.spots σ.sys.workers
  returned : σ.main.joined = true → ∀ p ∈ σ.spots, p = .returned
  serving : σ.signalled = false → σ.timer = .unset ∧ σ.main = .serving

theorem inv_start (n : Nat) : (start n).Inv := by
  refine ⟨exclusive_start n, fun h => (by cases h), ⟨?_, ?_⟩, fun h => (by cases h), fun _ => ⟨rfl, rfl⟩⟩
  · simp [start, Sys.start]
  · intro w p hp _
    simp only [start, Sys.start, List.getElem?_replicate] at hp ⊢
    split at hp
    · next hlt => rw [if_pos hlt]
    · cases hp

/-- Cancelling the run context finishes all contexts and leaves their holders alone. -/
theorem Inv.endRuns (h : σ.Inv) : σ.endRuns.Inv := by
  refine ⟨h.exclusive.mono (fun _ _ hc => hc) Shared.length_endRuns, fun _ c hc => ?_, h.looped, h.returned, h.serving⟩
  exact Shared.err_endRuns (lt_of_lt_of_eq hc Shared.length_endRuns)

theorem Inv.after {a : Action} {s : Sys} (h : σ.Inv) (hen : σ.enabled a = true) (hs : σ.sys.Next cap a s) :
    (σ.after a s).Inv := by
  have hstep : Inv { σ with sys := s, spots := σ.spotsAfter s a, runDone := false } := by
    refine ⟨h.exclusive.step hs.ctxStep, fun hrun => (by cases hrun), h.looped.after hs, fun hj => ?_, h.serving⟩
    rw [spotsAfter_of_returned h.looped (h.returned hj) hen hs]
    exact h.returned hj
  unfold Process.after
  cases hrun : σ.runDone with
  | false => exact hstep
  | true => exact hstep.endRuns

/-- A step of `main` moves `main`, the stop signal and the timer; its last one cancels the run context. -/
theorem Inv.mainStep (h : σ.Inv) (hs : σ.mainStep = some σ') : σ'.Inv := by
  have hsignal : σ.main ≠ .serving → σ.signalled = false → False := fun hne hs => hne (h.serving hs).2
  unfold Process.mainStep at hs
  split at hs
  case h_1 hm =>
    split at hs
    · next hsig =>
      cases hs
      refine ⟨h.exclusive, h.ended, h.looped, fun hj => (by cases hj), fun hno => ?_⟩
      rw [show σ.signalled = false from hno] at hsig
      cases hsig
    · cases hs
  case h_2 hm | h_3 hm | h_4 hm =>
    cases hs
    exact ⟨h.exclusive, h.ended, h.looped, fun hj => (by cases hj),
      fun hno => (hsignal (by rw [hm]; decide) hno).elim⟩
  case h_5 hm =>
    split at hs
    · next hret =>
      cases hs
      simp only [List.all_eq_true, decide_eq_true_eq] at hret
      exact ⟨h.exclusive, h.ended, h.looped, fun _ => hret, fun hno => (hsignal (by rw [hm]; decide) hno).elim⟩
    · cases hs
  case h_6 hm =>
    cases hs
    exact ⟨h.exclusive, h.ended, h.looped, fun _ => h.returned (by rw [hm]; rfl),
      fun hno => (hsignal (by rw [hm]; decide) hno).elim⟩
  case h_7 hm =>
    cases hs
    have hend := h.endRuns
    exact ⟨hend.exclusive, hend.ended, hend.looped, fun _ => h.returned (by rw [hm]; rfl),
      fun hno => (hsignal (by rw [hm]; decide) hno).elim⟩
  case h_8 hm => cases hs

theorem select_not_running {empty stopped parentDone : Bool} {p p' : Spot} {c : Select}
    (h : p.select empty stopped parentDone c = some p') : p ≠ .running ∧ p ≠ .returned := by
  constructor
  · rintro rfl
    cases c <;> cases h
  · rintro rfl
    cases c <;> cases h

theorem Inv.next (h : σ.Inv) (hn : σ.Next cap a σ') : σ'.Inv := by
  cases hn.acted with
  | sys hen hs => exact h.after hen hs
  | @select w p p' c hp hsel =>
    obtain ⟨hrun, hret⟩ := select_not_running hsel
    refine ⟨h.exclusive, h.ended, h.looped.set_spot (h.looped.resting w p hp hrun), fun hj => ?_, h.serving⟩
    exact absurd (h.returned hj p (List.mem_of_getElem? hp)) hret
  | quit => exact ⟨h.exclusive, h.ended, h.looped, h.returned, h.serving⟩
  | signal hsig =>
    have hend := h.endRuns
    exact ⟨hend.exclusive, hend.ended, hend.looped, hend.returned, fun hno => by cases hno⟩
  | main hs => exact h.mainStep hs
  | expire ht =>
    have hend := h.endRuns
    refine ⟨hend.exclusive, hend.ended, hend.looped, hend.returned, fun hno => ?_⟩
    rw [(h.serving hno).1] at ht
    cases ht

theorem reached_inv {n : Nat} {tr : List (Step Process ProcessAct)} (h : Run (Next cap) (start n) tr σ) : σ.Inv :=
  Run.inv Inv (fun _ => True) (fun _ hn _ hI => hI.next hn) (inv_start n) h fun _ _ => trivial

/-! ## Graceful shutdown -/

/-- Worker `w` runs job `id` under context `c`. -/
def Holds (σ : Process) (w : Nat) (id : String) (c : Nat) : Prop :=
  ∃ pc, σ.sys.workers[w]? = some pc ∧ pc.job.map Job.id = some id ∧ pc.ctx = some c

/-- The step is a `DELETE` that calls the cancel function of context `c`. -/
def CancelledByDelete (x : Step Process ProcessAct) (c : Nat) : Prop :=
  ∃ i ra id job, x.label = .sys (.request i ra) ∧ x.src.sys.requests[i]? = some (.calling id job c)

/-- The context of a caught job's run is finished in this step only by the timer of `pool.Shutdown`, by the
job's own deadline or by a `DELETE`.  A context that does not exist yet counts as not finished. -/
def Graceful (x : Step Process ProcessAct) : Prop :=
  ∀ w id c, x.dst.Holds w id c → id ∈ x.dst.caught → x.src.err c = none → x.dst.err c ≠ none →
    x.dst.timer = .fired ∨ x.label = .sys (.deadline c) ∨ CancelledByDelete x c

/-- The workers that the signal finds. -/
def interrupted (σ : Process) : ProcessAct → List Worker
  | .signal => σ.sys.workers
  | _ => []

/-- The job whose run gets its context in this step. -/
def claiming (σ : Process) : ProcessAct → Option Job
  | .sys (.work w _) =>
    match σ.sys.workers[w]? with
    | some (.claimed job) => some job
    | _ => none
  | _ => none

/-- At the signal no run has a live context, and from then on until the timer fires no caught job's run gets
one. -/
def Spared (x : Step Process ProcessAct) : Prop :=
  (∀ pc ∈ x.src.interrupted x.label, ∀ c ∈ pc.ctx, pc.job.isSome = true → x.src.err c ≠ none) ∧
  ∀ job ∈ x.src.claiming x.label, job.id ∈ x.src.caught → x.src.runDone = true → x.src.timer = .fired

instance (x : Step Process ProcessAct) : Decidable (Spared x) :=
  inferInstanceAs (Decidable ((∀ pc ∈ x.src.interrupted x.label, ∀ c ∈ pc.ctx, pc.job.isSome = true →
    x.src.err c ≠ none) ∧ ∀ job ∈ x.src.claiming x.label, job.id ∈ x.src.caught → x.src.runDone = true →
    x.src.timer = .fired))

theorem claiming_work {w : Nat} {wa : WorkerAct} {job : Job} :
    job ∈ σ.claiming (.sys (.work w wa)) ↔ σ.sys.workers[w]? = some (.claimed job) := by
  unfold claiming
  constructor
  · intro h
    simp only [Option.mem_def] at h
    split at h
    · next hw =>
      obtain rfl := Option.some.inj h
      exact hw
    · cases h
  · intro h
    simp only [h, Option.mem_def]

theorem Holds.ctx {w c : Nat} {id : String} (h : σ.Holds w id c) : σ.sys.ctx w = some c := by
  obtain ⟨pc, hw, -, hc⟩ := h
  unfold Sys.ctx
  rw [hw]
  exact hc

theorem Holds.mem_inFlight {w c : Nat} {id : String} (h : σ.Holds w id c) : id ∈ σ.inFlight := by
  obtain ⟨pc, hw, hid, -⟩ := h
  exact List.mem_append_right _ (List.mem_filterMap.mpr ⟨pc, List.mem_of_getElem? hw, hid⟩)

theorem after_workers (a : Action) (s : Sys) : (σ.after a s).sys.workers = s.workers := by
  unfold Process.after
  simp only
  split <;> rfl

theorem after_err_of_runDone (a : Action) (s : Sys) (c : Nat) (h : σ.runDone = true) :
    (σ.after a s).err c = s.shared.endRuns.err c := by
  unfold err Process.after
  simp only [h, if_true]

theorem after_err_of_not_runDone (a : Action) (s : Sys) (c : Nat) (h : σ.runDone = false) :
    (σ.after a s).err c = s.shared.err c := by
  unfold err Process.after
  simp only [h, Bool.false_eq_true, if_false]

/-- Who finishes a context in a step of the goroutines: nobody, if it is made below a finished run context; its
deadline; a `DELETE`; or its own worker on the way out. -/
inductive Finishes (σ : Process) (c : Nat) : Action → Sys → Prop where
  | made {w : Nat} {job : Job} {s : Sys} (wa : WorkerAct) : σ.runDone = true → c = σ.sys.shared.ctxs.length →
      σ.sys.workers[w]? = some (.claimed job) → s.workers = σ.sys.workers.set w (.registered job c) →
      Finishes σ c (.work w wa) s
  | deadline (s : Sys) : Finishes σ c (.deadline c) s
  | delete {i : Nat} {id : String} {job : Job} (ra : RequestAct) (s : Sys) :
      σ.sys.requests[i]? = some (.calling id job c) → Finishes σ c (.request i ra) s
  | left {w : Nat} {s : Sys} (wa : WorkerAct) : σ.sys.workers[w]? = some (.left c) →
      s.workers = σ.sys.workers.set w .idle → Finishes σ c (.work w wa) s

theorem Inv.finishes {a : Action} {s : Sys} {c : Nat} (h : σ.Inv) (hs : σ.sys.Next cap a s) (hsrc : σ.err c = none)
    (hdst : (σ.after a s).err c ≠ none) : Finishes σ c a s := by
  have hlt : c < s.shared.ctxs.length := by
    cases hrun : σ.runDone with
    | true =>
      rw [after_err_of_runDone a s c hrun] at hdst
      exact lt_of_lt_of_eq (Shared.lt_of_err hdst) Shared.length_endRuns
    | false =>
      rw [after_err_of_not_runDone a s c hrun] at hdst
      exact Shared.lt_of_err hdst
  -- below a finished run context all contexts so far are finished
  have hge : σ.runDone = true → σ.sys.shared.ctxs.length ≤ c := by
    intro hrun
    by_contra hc
    exact h.ended hrun c (by omega) hsrc
  have hlive : σ.runDone = false → s.shared.err c ≠ σ.sys.shared.err c := by
    intro hrun heq
    rw [after_err_of_not_runDone a s c hrun, heq] at hdst
    exact hdst hsrc
  -- a step that finishes the one context `k`
  have hone {k : Nat} {e : CtxErr} (hsh : s.shared.ctxs = (σ.sys.shared.endCtx k e).ctxs) : c = k := by
    cases hrun : σ.runDone with
    | true =>
      have hc := hge hrun
      rw [hsh, Shared.length_endCtx] at hlt
      omega
    | false =>
      by_contra hne
      exact hlive hrun ((Shared.err_congr hsh).trans (Shared.err_endCtx_of_ne hne))
  cases hs.ctxStep with
  | keep hctx hsh _ =>
    cases hrun : σ.runDone with
    | true =>
      have hc := hge hrun
      rw [hsh] at hlt
      omega
    | false => exact absurd (Shared.err_congr hsh) (hlive hrun)
  | @make w job ctx _ wa hclaimed herr hsh hw =>
    rw [hsh, List.length_append, List.length_singleton] at hlt
    cases hrun : σ.runDone with
    | true =>
      have hc := hge hrun
      obtain rfl : c = σ.sys.shared.ctxs.length := by omega
      exact .made wa hrun rfl hclaimed hw
    | false =>
      refine absurd ?_ (hlive hrun)
      rw [show σ.sys.shared.err c = none from hsrc]
      unfold Shared.err
      rw [hsh]
      by_cases hc : c = σ.sys.shared.ctxs.length
      · rw [hc, List.getElem?_concat_length]
        exact herr
      · rw [List.getElem?_append_left (by omega)]
        exact hsrc
  | leave wa hleft hsh hw =>
    obtain rfl := hone hsh
    exact .left wa hleft hw
  | deadline hsh hw =>
    obtain rfl := hone hsh
    exact .deadline s
  | delete ra hcall hsh hw =>
    obtain rfl := hone hsh
    exact .delete ra s hcall

theorem Holds.of_after {a : Action} {s : Sys} {w c : Nat} {id : String} (h : (σ.after a s).Holds w id c) :
    s.ctx w = some c := by
  have hctx := h.ctx
  unfold Sys.ctx at hctx
  rw [after_workers] at hctx
  exact hctx

/-- A worker that makes a context below a finished run context holds it finished. -/
theorem finished_of_claimed {w : Nat} {wa : WorkerAct} {job : Job} {s : Sys} (hs : σ.sys.Next cap (.work w wa) s)
    (hw : σ.sys.workers[w]? = some (.claimed job)) (hrun : σ.runDone = true) :
    ∃ c, (σ.after (.work w wa) s).Holds w job.id c ∧ σ.err c = none ∧ (σ.after (.work w wa) s).err c ≠ none := by
  have hlt := (List.getElem?_eq_some_iff.mp hw).1
  cases hs.ctxStep with
  | keep _ _ hne => exact absurd hw (hne w wa job rfl)
  | leave _ hleft => cases hw.symm.trans hleft
  | @make _ job' _ _ _ hclaimed _ hsh hworkers =>
    obtain rfl : job' = job := Worker.claimed.inj (Option.some.inj (hclaimed.symm.trans hw))
    refine ⟨σ.sys.shared.ctxs.length, ⟨.registered job' σ.sys.shared.ctxs.length, ?_, rfl, rfl⟩,
      Shared.err_of_length_le (Nat.le_refl _), ?_⟩
    · rw [after_workers, hworkers]
      exact List.getElem?_set_self hlt
    · rw [after_err_of_runDone _ _ _ hrun]
      refine Shared.err_endRuns ?_
      rw [hsh]
      simp

/-- `main` cancels the run context only when no worker is left. -/
theorem Inv.mainStep_err (h : σ.Inv) (hs : σ.mainStep = some σ') {w c : Nat} {id : String} (hholds : σ'.Holds w id c) :
    σ'.err c = σ.err c := by
  unfold Process.mainStep at hs
  split at hs
  case h_7 hm =>
    cases hs
    obtain ⟨pc, hw, -, hc⟩ := hholds
    have hne : pc ≠ .idle := by
      rintro rfl
      cases hc
    have hret := h.returned (by rw [hm]; rfl) _ (List.mem_of_getElem? (h.looped.running hw hne))
    cases hret
  all_goals repeat' split at hs
  all_goals cases hs
  all_goals rfl

/-- In one step, the contexts of caught jobs are left alone exactly if they are spared. -/
theorem graceful_step {x : Step Process ProcessAct} (hI : x.src.Inv) (hn : x.src.Next cap x.label x.dst) :
    Graceful x ↔ Spared x := by
  obtain ⟨σ, a, σ'⟩ := x
  change σ.Inv at hI
  change σ.Next cap a σ' at hn
  have hspared (hint : σ.interrupted a = []) (hclaim : σ.claiming a = none) : Spared ⟨σ, a, σ'⟩ := by
    refine ⟨fun pc hpc => ?_, fun job hjob => ?_⟩
    · rw [hint] at hpc
      cases hpc
    · rw [hclaim] at hjob
      cases hjob
  cases hn.acted with
  | @sys a s hen hs =>
    constructor
    · intro hgrace
      refine ⟨fun pc hpc => (by cases hpc), fun job hjob hcaught hrun => ?_⟩
      cases a with
      | work w wa =>
        obtain ⟨c, hholds, hsrc, hdst⟩ := finished_of_claimed hs (claiming_work.mp hjob) hrun
        rcases hgrace w job.id c hholds hcaught hsrc hdst with hfired | hlabel | ⟨_, _, _, _, hlabel, _⟩
        · exact hfired
        · cases hlabel
        · cases hlabel
      | _ => cases hjob
    · intro hspared w id c hholds hcaught hsrc hdst
      cases hI.finishes hs hsrc hdst with
      | @made v job _ wa hrun hc hclaimed hw =>
        refine .inl (hspared.2 job (claiming_work.mpr hclaimed) ?_ hrun)
        rcases ctx_of_set hw hholds.of_after with ⟨rfl, -⟩ | ⟨-, hctx⟩
        · -- the holder is the worker that made the context
          obtain ⟨pc, hpc, hid, -⟩ := hholds
          rw [after_workers, hw, List.getElem?_set_self (List.getElem?_eq_some_iff.mp hclaimed).1] at hpc
          obtain rfl := Option.some.inj hpc
          obtain rfl := Option.some.inj hid
          exact hcaught
        · have hlt := hI.exclusive.made w c hctx
          omega
      | deadline => exact .inr (.inl rfl)
      | delete ra _ hcall => exact .inr (.inr ⟨_, ra, _, _, rfl, hcall⟩)
      | @left v _ wa hleft hw =>
        -- nobody else holds the context of a worker on its way out
        rcases ctx_of_set hw hholds.of_after with ⟨-, hctx⟩ | ⟨hne, hctx⟩
        · cases hctx
        · refine absurd (hI.exclusive.distinct w v c hctx ?_) hne
          unfold Sys.ctx
          rw [hleft]
          rfl
  | select | quit => exact iff_of_true (fun _ _ _ _ _ hsrc hdst => absurd hsrc hdst) (hspared rfl rfl)
  | signal hsig =>
    constructor
    · intro hgrace
      refine ⟨fun pc hpc c hc hjob hsrc => ?_, fun _ hjob => by cases hjob⟩
      obtain ⟨w, hw⟩ := List.mem_iff_getElem?.mp hpc
      obtain ⟨job, hjob⟩ := Option.isSome_iff_exists.mp hjob
      have hholds : σ.Holds w job.id c := ⟨pc, hw, by rw [hjob]; rfl, hc⟩
      have hdst : σ.endRuns.err c ≠ none := Shared.err_endRuns (hI.exclusive.made w c hholds.ctx)
      rcases hgrace w job.id c hholds hholds.mem_inFlight hsrc hdst with hfired | hlabel | ⟨_, _, _, _, hlabel, _⟩
      · have hunset : σ.timer = .unset := (hI.serving hsig).1
        rw [show σ.timer = .fired from hfired] at hunset
        cases hunset
      · cases hlabel
      · cases hlabel
    · intro hspared w id c hholds _ hsrc _
      obtain ⟨pc, hw, hid, hc⟩ := hholds
      have hjob : pc.job.isSome = true := by
        rw [← Option.isSome_map, hid]
        rfl
      exact absurd hsrc (hspared.1 pc (List.mem_of_getElem? hw) c hc hjob)
  | main hs =>
    refine iff_of_true (fun w id c hholds _ hsrc hdst => absurd hsrc ?_) (hspared rfl rfl)
    rw [← hI.mainStep_err hs hholds]
    exact hdst
  | expire ht => exact iff_of_true (fun _ _ _ _ _ _ _ => .inl rfl) (hspared rfl rfl)

/-- **Graceful shutdown.**  In a run of the process, contexts of jobs that were in flight or buffered at the
signal are finished only by the timer, their deadline or a `DELETE` exactly if no run had a live
context at the signal and no such job's run made one between the signal and the timer. -/
theorem graceful_iff {n : Nat} {tr : List (Step Process ProcessAct)} (h : Run (Next cap) (start n) tr σ) :
    (∀ x ∈ tr, Graceful x) ↔ ∀ x ∈ tr, Spared x := by
  refine forall₂_congr fun x hx => ?_
  obtain ⟨tr₁, tr₂, -, hrun, hn⟩ := h.before hx
  exact graceful_step (reached_inv hrun) hn

/-- A job is buffered when the signal comes; its worker starts it after the timer has fired. -/
def lateStart : List ProcessAct :=
  (Sys.failedOnce.take 5).map .sys ++ [.signal, .main, .main, .main, .main, .expire] ++
    ((Sys.failedOnce.take 8).drop 5).map .sys

theorem graceful_iff_lateStart :
    (stateAfter (act 1) (start 1) lateStart).caught = ["job_000000"] ∧
    (stateAfter (act 1) (start 1) lateStart).err 0 = some .canceled ∧
    ∀ x ∈ stepsOf (act 1) (start 1) lateStart, Graceful x := by
  have hrun : Run (Next 1) (start 1) (stepsOf (act 1) (start 1) lateStart) (stateAfter (act 1) (start 1) lateStart) :=
    run_stepsOf (act 1) (fun _ _ _ h => h) .nil lateStart
  exact ⟨by decide +kernel, by decide +kernel, (graceful_iff hrun).mpr (by decide +kernel)⟩

/-- A subprocess runs when the signal comes. -/
def executingRun : Process := stateAfter (act 1) (start 1) ((Sys.failedOnce.take 9).map .sys)

theorem signal_cancels_run : ¬ ∀ (cap n : Nat) (tr : List (Step Process ProcessAct)) (σ : Process),
    Run (Next cap) (start n) tr σ → ∀ x ∈ tr, Graceful x := by
  intro h
  have hrun : Run (Next 1) (start 1) _ executingRun :=
    run_stepsOf (act 1) (fun _ _ _ h => h) .nil ((Sys.failedOnce.take 9).map .sys)
  have hsignal : executingRun.Next 1 .signal _ := rfl
  have hgrace := h 1 1 _ _ (hrun.snoc .signal hsignal) _ (List.mem_append_right _ List.mem_cons_self)
  have hholds : (executingRun.sys.workers[0]?).map (fun pc => (pc.job.map Job.id, pc.ctx)) =
      some (some "job_000000", some 0) := by decide +kernel
  obtain ⟨pc, hpc, hjob⟩ := Option.map_eq_some_iff.mp hholds
  obtain ⟨hjob, hctx⟩ := Prod.mk.inj hjob
  rcases hgrace 0 "job_000000" 0 ⟨pc, hpc, hjob, hctx⟩ (by decide +kernel) (by decide +kernel) (by decide +kernel)
    with hfired | hlabel | ⟨_, _, _, _, hlabel, _⟩
  · revert hfired
    decide +kernel
  · cases hlabel
  · cases hlabel

end Process

end Orchestrator
