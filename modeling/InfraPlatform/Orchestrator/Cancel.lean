import InfraPlatform.Orchestrator.Shutdown

/-!
# Cancelling a job

`CancelJob` answers 200 on three ways: it wrote `CANCELLED` itself, it saw `CANCELLED` while it waited for the
executor, or it waited for two seconds.  On the first two the job is and stays cancelled; the third says
nothing about the job, which may complete or be retried (`cancelled_answer_retried`).  The wait is in vain if the
cancel function was not in the map yet, if the deadline of the run came first, if the worker had passed the first case
of its switch, and if the worker takes longer than the wait.

The handler writes `CANCELLED` for a job that it read as `PENDING` or `QUEUED`, with a `Transition` that is
legal from `RUNNING` too; a worker may start the job in between, and then its subprocess runs
on (`cancelled_while_executing`).

* `Doomed`: a run whose cancel function is called before its switch and its deadline leads to `CANCELLED`.
* `cancelled_of_answer`: an answer of 200 is true where each wait that runs out comes after such a call and after
  the last write of the run.
* `not_executing_of_cancelled`: a cancelled job has no subprocess where no handler cancels a running job.
-/

namespace Orchestrator

open Lib
open ControlPlane (Time)

/-! ## What a request stands for -/

/-- A request settles on a job that is `CANCELLED`, or because its wait runs out. -/
theorem Request.act_settled {sh sh' : Shared} {pc pc' : Request} {a : RequestAct} {id : String}
    (h : pc.act sh a = some (pc', sh')) (hs : pc'.settled = some id) :
    pc.settled = some id ∨ (sh'.store.find id).map Job.state = some .cancelled ∨
      a = .expire ∧ ∃ job, pc = .waiting id job := by
  cases Request.acts_of_act h with
  | quiet hstore hsettled =>
    rw [hstore]
    exact hsettled id hs
  | create req k now _ hnone =>
    rw [hnone] at hs
    cases hs
  | cancel j now rand _ _ hj ht hstore hpc =>
    rw [hpc] at hs
    cases hs
    rw [hstore, Store.find_transition hj, if_pos rfl, Store.tried_of ht]
    exact .inr (.inl rfl)

/-- Only a handler at its `Transition` changes a stored job. -/
theorem Request.act_keeps {sh sh' : Shared} {pc pc' : Request} {a : RequestAct} {id : String} {j : Job}
    (h : pc.act sh a = some (pc', sh')) (hj : sh.store.find id = some j)
    (hpc : ∀ now rand, a = .step now rand → pc ≠ .cancelling id) : sh'.store.find id = some j := by
  cases Request.acts_of_act h with
  | quiet hstore _ =>
    rw [hstore]
    exact hj
  | create req k now hc _ => exact Store.find_create hc hj
  | cancel i now rand ha hi hfind _ hstore _ =>
    have hid : id ≠ i.id := by
      rintro rfl
      exact hpc now rand ha hi
    rw [hstore, Store.find_transition hfind, if_neg hid]
    exact hj

/-! ## What a worker makes of its context -/

/-- The job and the context of a run that has not come to the first case of the switch. -/
def Worker.beforeSwitch : Worker → Option (String × Nat)
  | .registered job ctx | .executing job ctx | .ended job ctx _ _ | .judging job ctx _ => some (job.id, ctx)
  | _ => none

/-- The same for a run that may still write `CANCELLED`. -/
def Worker.mayCancel : Worker → Option (String × Nat)
  | .cancelling job ctx => some (job.id, ctx)
  | pc => pc.beforeSwitch

theorem Worker.mayCancel_of_beforeSwitch {pc : Worker} {run : String × Nat} (h : pc.beforeSwitch = some run) :
    pc.mayCancel = some run := by
  cases pc <;> first | exact h | cases h

theorem Worker.ctx_of_mayCancel {pc : Worker} {id : String} {ctx : Nat} (h : pc.mayCancel = some (id, ctx)) :
    pc.ctx = some ctx := by
  cases pc <;> cases h <;> rfl

theorem Worker.role_of_mayCancel {pc : Worker} {id : String} {ctx : Nat} (h : pc.mayCancel = some (id, ctx)) :
    pc.role id = some .executing := by
  cases pc <;> cases h <;> exact holding_self _ _

/-- A worker whose context is `Canceled` before its switch goes on to write `CANCELLED`. -/
theorem Worker.act_mayCancel {sh sh' : Shared} {pc pc' : Worker} {a : WorkerAct} {id : String} {ctx : Nat}
    (h : pc.act sh a = some (pc', sh')) (hpc : pc.mayCancel = some (id, ctx)) (hc : sh.err ctx = some .canceled) :
    pc'.mayCancel = some (id, ctx) ∨
      ∃ now, sh' = sh.write (sh.store.transition id .cancelled "cancelled by user" now) := by
  cases pc with
  | registered job c =>
    cases hpc
    cases a with
    | spawn => rw [Worker.act, hc] at h; cases h
    | refuse err => cases h; exact .inl rfl
    | step | exit => cases h
  | executing job c =>
    cases hpc
    cases a with
    | exit runErr output => cases h; exact .inl rfl
    | step | spawn | refuse => cases h
  | ended job c runErr output =>
    cases hpc
    cases a with
    | step now => cases h; exact .inl rfl
    | spawn | refuse | exit => cases h
  | judging job c runErr =>
    cases hpc
    cases a with
    | step now =>
      rw [Worker.act, if_pos hc] at h
      cases h
      exact .inl rfl
    | spawn | refuse | exit => cases h
  | cancelling job c =>
    cases hpc
    cases a with
    | step now => cases h; exact .inr ⟨now, rfl⟩
    | spawn | refuse | exit => cases h
  | idle | fetched | claimed | judgingDeadline | completing | failing | failed | retrying | leaving | left => cases hpc

/-! ## Contexts that are done -/

namespace Shared

variable {sh : Shared} {c c' : Nat} {e e' : CtxErr}

/-- The first end of a context is its last. -/
theorem err_endCtx_done (h : sh.err c' = some e') : (sh.endCtx c e).err c' = some e' := by
  by_cases hc : c' = c
  · subst hc
    unfold err endCtx at *
    obtain ⟨ctx, hctx, herr⟩ := Option.bind_eq_some_iff.mp h
    simp [hctx, Ctx.finish, herr]
  · rw [err_endCtx_of_ne hc]
    exact h

theorem err_endCtx_live (hlt : c < sh.ctxs.length) (h : sh.err c = none) : (sh.endCtx c e).err c = some e := by
  unfold err endCtx at *
  rw [List.getElem?_eq_getElem hlt, Option.bind_some] at h
  simp [List.getElem?_eq_getElem hlt, Ctx.finish, h]

end Shared

namespace Sys

variable {cap n : Nat} {σ σ' : Sys} {a : Action} {tr : List (Step Sys Action)}

/-- A request stays as it is, is new, or has taken a step. -/
theorem Next.request (h : σ.Next cap a σ') {i : Nat} {pc' : Request} (hi : σ'.requests[i]? = some pc') :
    σ.requests[i]? = some pc' ∨ pc'.settled = none ∨
      ∃ b pc, a = .request i b ∧ σ.requests[i]? = some pc ∧ pc.act σ.shared b = some (pc', σ'.shared) := by
  have hnew {r : Request} (hr : r.settled = none) (hi : (σ.requests ++ [r])[i]? = some pc') :
      σ.requests[i]? = some pc' ∨ pc'.settled = none := by
    rw [List.getElem?_append] at hi
    split at hi
    · exact .inl hi
    · rw [List.getElem?_singleton] at hi
      split at hi <;> cases hi
      exact .inr hr
  cases h.acted with
  | schedule | work | receive | handoff | deadline => exact .inl hi
  | submit body =>
    have hr : (submitJob body).settled = none := by
      unfold submitJob
      repeat' split
      all_goals rfl
    rcases hnew hr hi with hi | hi
    · exact .inl hi
    · exact .inr (.inl hi)
  | delete k =>
    rcases hnew rfl hi with hi | hi
    · exact .inl hi
    · exact .inr (.inl hi)
  | @request k b pc pc₁ sh hk hact =>
    rw [List.getElem?_set] at hi
    split at hi
    · next hik =>
      subst hik
      split at hi
      · cases hi
        exact .inr (.inr ⟨b, pc, rfl, hk, hact⟩)
      · cases hi
    · exact .inl hi

/-- A busy worker stays where it is, or takes a step itself. -/
theorem Next.worker {w : Nat} {pc : Worker} (h : σ.Next cap a σ') (hw : σ.workers[w]? = some pc) (hpc : pc ≠ .idle) :
    (∀ b, a ≠ .work w b) ∧ σ'.workers[w]? = some pc ∨
      ∃ b pc', a = .work w b ∧ pc.act σ.shared b = some (pc', σ'.shared) ∧ σ'.workers[w]? = some pc' := by
  have hlt := (List.getElem?_eq_some_iff.mp hw).1
  have hidle {v : Nat} (pc' : Worker) (hv : σ.workers[v]? = some .idle) : (σ.workers.set v pc')[w]? = some pc := by
    have hne : v ≠ w := by
      rintro rfl
      exact hpc (Option.some.inj (hw.symm.trans hv))
    rw [List.getElem?_set_ne hne]
    exact hw
  cases h.acted with
  | @work v b pc₀ pc' sh hv hact =>
    by_cases hvw : v = w
    · subst hvw
      obtain rfl := Option.some.inj (hv.symm.trans hw)
      exact .inr ⟨b, pc', rfl, hact, List.getElem?_set_self hlt⟩
    · refine .inl ⟨fun b hb => ?_, ?_⟩
      · cases hb
        exact hvw rfl
      · rw [List.getElem?_set_ne hvw]
        exact hw
  | receive hv _ => exact .inl ⟨fun b hb => (by cases hb), hidle _ hv⟩
  | handoff hv _ => exact .inl ⟨fun b hb => (by cases hb), hidle _ hv⟩
  | schedule | deadline | submit | delete | request => exact .inl ⟨fun b hb => (by cases hb), hw⟩

/-! ## A run that is cancelled in time -/

/-- The context whose cancel function a handler calls. -/
def handlerCalls (σ : Sys) : Action → Option Nat
  | .request i (.step _ _) =>
    match σ.requests[i]? with
    | some (.calling _ _ ctx) => some ctx
    | _ => none
  | _ => none

theorem Next.err_done {c : Nat} {e : CtxErr} (h : σ.Next cap a σ') (he : σ.shared.err c = some e) :
    σ'.shared.err c = some e := by
  cases h.ctxStep with
  | keep _ hsh => rw [Shared.err_congr hsh]; exact he
  | make wa _ _ hsh _ =>
    have hlt : c < σ.shared.ctxs.length := Shared.lt_of_err (by rw [he]; simp)
    unfold Shared.err at he ⊢
    rw [hsh, List.getElem?_append_left hlt]
    exact he
  | leave _ _ hsh _ | deadline hsh _ | delete _ _ hsh _ =>
    rw [Shared.err_congr hsh]
    exact Shared.err_endCtx_done he

/-- Run `ctx` of the job was cancelled in time: the job is cancelled, or its worker is about to see to it. -/
def Doomed (id : String) (ctx : Nat) (σ : Sys) : Prop :=
  σ.state id = some .cancelled ∨
    σ.shared.err ctx = some .canceled ∧
      ∃ (w : Nat) (pc : Worker), σ.workers[w]? = some pc ∧ pc.mayCancel = some (id, ctx)

/-- The executor's `Transition` to `CANCELLED` leaves the job cancelled: it was running, or cancelled by a handler. -/
theorem Inv.cancels (hI : σ.Inv) {w : Nat} {pc : Worker} {id : String} {ctx : Nat} (hw : σ.workers[w]? = some pc)
    (hpc : pc.mayCancel = some (id, ctx)) (msg : String) (now : Time) :
    ((σ.shared.store.transition id .cancelled msg now).2.find id).map Job.state = some .cancelled := by
  have hpos : 0 < (σ.view id).owners .executing := owners_pos_of_worker hw (Worker.role_of_mayCancel hpc)
  obtain ⟨j, hj⟩ := (hI.owned id).stored hpos
  obtain ⟨hst, -⟩ := allowedOwners.executing (hI.owned id) hpos
  rw [hj, Option.map_some, Option.some.injEq, Option.some.injEq] at hst
  rw [Store.find_transition hj, if_pos rfl, Option.map_some, Store.tried_state]
  rcases hst with hst | hst <;> rw [hst] <;> rfl

/-- **The cancellation of a run goes through**, whatever the others do. -/
theorem Doomed.next {id : String} {ctx : Nat} (h : Doomed id ctx σ) (hI : σ.Inv) (hn : σ.Next cap a σ') :
    Doomed id ctx σ' := by
  rcases h with hst | ⟨herr, w, pc, hw, hpc⟩
  · exact .inl (hI.final hn hst rfl)
  · have hbusy : pc ≠ .idle := by
      rintro rfl
      cases hpc
    rcases hn.worker hw hbusy with ⟨-, hw'⟩ | ⟨b, pc', -, hact, hw'⟩
    · exact .inr ⟨hn.err_done herr, w, pc, hw', hpc⟩
    · rcases Worker.act_mayCancel hact hpc herr with hpc' | ⟨now, hsh⟩
      · exact .inr ⟨hn.err_done herr, w, pc', hw', hpc'⟩
      · refine .inl ?_
        unfold state job
        rw [hsh]
        exact hI.cancels hw hpc _ now

/-- The call of a cancel function before the switch of the run and before its deadline. -/
theorem doomed_of_call {id : String} {ctx : Nat} (hE : Process.Exclusive σ) (hn : σ.Next cap a σ')
    (hcall : σ.handlerCalls a = some ctx) (hlive : σ.shared.err ctx ≠ some .deadlineExceeded)
    (hrun : ∃ pc ∈ σ.workers, pc.beforeSwitch = some (id, ctx)) : Doomed id ctx σ' := by
  obtain ⟨pc, hmem, hpc⟩ := hrun
  obtain ⟨w, hw⟩ := List.mem_iff_getElem?.mp hmem
  have hmay := Worker.mayCancel_of_beforeSwitch hpc
  have hlt : ctx < σ.shared.ctxs.length := hE.made w ctx (by rw [Sys.ctx, hw]; exact Worker.ctx_of_mayCancel hmay)
  unfold handlerCalls at hcall
  split at hcall
  · next i now rand =>
    split at hcall
    · next id' job c hi =>
      cases hcall
      cases hn.acted with
      | @request _ _ pc₀ pc₁ sh hpc₀ hact =>
        obtain rfl := Option.some.inj (hpc₀.symm.trans hi)
        cases hact
        refine .inr ⟨?_, w, pc, hw, hmay⟩
        rcases herr : σ.shared.err ctx with _ | (_ | _)
        · exact Shared.err_endCtx_live hlt herr
        · exact Shared.err_endCtx_done herr
        · exact absurd herr hlive
    · cases hcall
  · cases hcall

theorem exclusive_of_run (h : Run (Next cap) (start n) tr σ) : Process.Exclusive σ :=
  Run.inv Process.Exclusive (fun _ => True) (fun _ hn _ hE => hE.step hn.ctxStep) (Process.exclusive_start n) h
    fun _ _ => trivial

/-! ## An answer of 200 -/

/-- The job whose `DELETE` gives up waiting. -/
def givesUp (σ : Sys) : Action → Option String
  | .request i .expire =>
    match σ.requests[i]? with
    | some (.waiting id _) => some id
    | _ => none
  | _ => none

/-- A wait for a job runs out after the cancel function of its run was called, by this handler or another, before
the worker came to its switch and before the deadline; and the worker is past its write. -/
def CancelledInTime (tr : List (Step Sys Action)) (x : Step Sys Action) : Prop :=
  ∀ id ∈ x.src.givesUp x.label, ∃ y ∈ tr, ∃ ctx ∈ y.src.handlerCalls y.label,
    y.src.shared.err ctx ≠ some .deadlineExceeded ∧ (∃ pc ∈ y.src.workers, pc.beforeSwitch = some (id, ctx)) ∧
    ∀ pc ∈ x.src.workers, pc.mayCancel ≠ some (id, ctx)

instance (tr : List (Step Sys Action)) (x : Step Sys Action) : Decidable (CancelledInTime tr x) :=
  inferInstanceAs (Decidable (∀ id ∈ x.src.givesUp x.label, ∃ y ∈ tr, ∃ ctx ∈ y.src.handlerCalls y.label,
    y.src.shared.err ctx ≠ some .deadlineExceeded ∧ (∃ pc ∈ y.src.workers, pc.beforeSwitch = some (id, ctx)) ∧
    ∀ pc ∈ x.src.workers, pc.mayCancel ≠ some (id, ctx)))

/-- A wait runs out only on a job that is cancelled. -/
def WaitsForCancel (x : Step Sys Action) : Prop := ∀ id ∈ x.src.givesUp x.label, x.src.state id = some .cancelled

theorem waitsForCancel_of_inTime {x : Step Sys Action} (h : Run (Next cap) (start n) tr x.src)
    (htime : CancelledInTime tr x) : WaitsForCancel x := by
  intro id hid
  obtain ⟨y, hy, ctx, hcall, hlive, hrun, hdone⟩ := htime id hid
  have hdoomed : Doomed id ctx x.src := by
    refine h.stays_after (Doomed id ctx) (fun z hz hd => ?_) y hy ?_
    · obtain ⟨tr₁, tr₂, -, hrun, hn⟩ := h.before hz
      exact hd.next (reached_inv hrun) hn
    · obtain ⟨tr₁, tr₂, -, hrun', hn⟩ := h.before hy
      exact doomed_of_call (exclusive_of_run hrun') hn hcall hlive hrun
  rcases hdoomed with hst | ⟨-, w, pc, hw, hpc⟩
  · exact hst
  · exact absurd hpc (hdone pc (List.mem_of_getElem? hw))

def Settled (σ : Sys) : Prop :=
  ∀ (i : Nat) (pc : Request) (id : String), σ.requests[i]? = some pc → pc.settled = some id →
    σ.state id = some .cancelled

theorem Settled.next {x : Step Sys Action} (h : x.src.Settled) (hI : x.src.Inv) (hn : x.src.Next cap x.label x.dst)
    (hwait : WaitsForCancel x) : x.dst.Settled := by
  intro i pc' id hi hs
  have hkeep (hst : x.src.state id = some .cancelled) : x.dst.state id = some .cancelled := hI.final hn hst rfl
  rcases hn.request hi with hi | hnone | ⟨b, pc, hb, hi, hact⟩
  · exact hkeep (h i pc' id hi hs)
  · rw [hnone] at hs
    cases hs
  · rcases Request.act_settled hact hs with hs | hst | ⟨rfl, job, rfl⟩
    · exact hkeep (h i pc id hi hs)
    · exact hst
    · exact hkeep (hwait id (by simp [givesUp, hb, hi]))

theorem settled_of_run (h : Run (Next cap) (start n) tr σ) (hwait : ∀ x ∈ tr, WaitsForCancel x) : σ.Settled := by
  refine (Run.inv (fun σ => σ.Inv ∧ σ.Settled) WaitsForCancel
    (fun x hn hw hI => ⟨hI.1.next hn, hI.2.next hI.1 hn hw⟩) ⟨inv_start n, ?_⟩ h hwait).2
  intro i pc id hi
  simp [start] at hi

theorem cancelled_stays (h : Run (Next cap) (start n) tr σ) {x : Step Sys Action} (hx : x ∈ tr) {id : String}
    (hst : x.dst.state id = some .cancelled) : σ.state id = some .cancelled := by
  refine h.stays_after (fun σ => σ.state id = some .cancelled) (fun y hy hst => ?_) x hx hst
  obtain ⟨tr₁, tr₂, -, hrun, hn⟩ := h.before hy
  exact (reached_inv hrun).final hn hst rfl

theorem waitsForCancel_of_run (h : Run (Next cap) (start n) tr σ)
    (htime : ∀ k < tr.length, ∀ x ∈ tr[k]?, CancelledInTime (tr.take k) x) : ∀ x ∈ tr, WaitsForCancel x := by
  intro x hx
  obtain ⟨tr₁, tr₂, rfl, hrun, -⟩ := h.before hx
  refine waitsForCancel_of_inTime hrun ?_
  have hpast := htime tr₁.length (by simp) x (by simp)
  rwa [List.take_left] at hpast

/-- **A `DELETE` that answered 200 leaves a cancelled job**, from the answer to the end of the run, where the run
of the job was cancelled in time before any wait for it ran out. -/
theorem cancelled_of_answer (h : Run (Next cap) (start n) tr σ)
    (htime : ∀ k < tr.length, ∀ x ∈ tr[k]?, CancelledInTime (tr.take k) x) {x : Step Sys Action} (hx : x ∈ tr) {i : Nat}
    {id : String} {resp : Response} (hans : x.dst.requests[i]? = some (.answered id resp)) (hcode : resp.code = 200) :
    σ.state id = some .cancelled := by
  have hwait := waitsForCancel_of_run h htime
  obtain ⟨tr₁, tr₂, rfl, hrun, hn⟩ := h.before hx
  have hsettled : x.dst.Settled := by
    refine settled_of_run (hrun.snoc x.label hn) fun y hy => hwait y ?_
    simp only [List.mem_append, List.mem_cons, List.not_mem_nil, or_false] at hy ⊢
    tauto
  exact cancelled_stays h hx (hsettled i _ id hans (by simp [Request.settled, hcode]))

/-- The job is started, its `DELETE` cancels it and sees so. -/
def cancelledRun : List Action :=
  failedOnce.take 9 ++ [.delete "job_000000", .request 1 (.step 1 none), .request 1 (.step 1 none),
    .request 1 (.step 1 none), .work 0 (.exit (some "signal: killed") ""), .work 0 (.step 2), .work 0 (.step 2),
    .work 0 (.step 2), .request 1 (.step 2 none), .request 1 (.step 2 none)]

/-- The same, but the handler sleeps until its two seconds are over: it has not seen the worker's write. -/
def unseenRun : List Action :=
  cancelledRun.take 17 ++ ([.request 1 .expire, .request 1 (.step 3 none)] : List Action)

theorem cancelled_of_answer_unseen : ∃ x ∈ trace 1 (start 1) unseenRun,
    x.dst.requests[1]? =
      some (.answered "job_000000" { code := 200, body := .state "job_000000" (some .running) }) ∧
    (actAll 1 (start 1) unseenRun).state "job_000000" = some .cancelled := by
  have hans : ((trace 1 (start 1) unseenRun).map fun x => x.dst.requests[1]?).getLast? =
      some (some (.answered "job_000000" { code := 200, body := .state "job_000000" (some .running) })) := by
    decide +kernel
  obtain ⟨x, hx, hreq⟩ := List.mem_map.mp (List.mem_of_getLast? hans)
  exact ⟨x, hx, hreq, cancelled_of_answer (run_trace .nil unseenRun) (by decide +kernel) hx hreq rfl⟩

/-- The worker is past its switch when the `DELETE` reads `RUNNING`: the wait runs out, the answer is 200 and the
job is retried. -/
def retriedRun : List Action :=
  failedOnce.take 13 ++ ([.delete "job_000000", .request 1 (.step 1 none), .request 1 (.step 1 none),
    .request 1 (.step 1 none), .request 1 .expire, .request 1 (.step 3 none), .work 0 (.step 3), .work 0 (.step 3),
    .work 0 (.step 3)] : List Action)

theorem cancelled_answer_retried : ∃ tr σ, Run (Next 1) (start 1) tr σ ∧
    σ.requests[1]? = some (.answered "job_000000" { code := 200, body := .state "job_000000" (some .running) }) ∧
    σ.state "job_000000" = some .pending := by
  have hanswer : (actAll 1 (start 1) retriedRun).requests[1]? =
      some (.answered "job_000000" { code := 200, body := .state "job_000000" (some .running) }) := by decide +kernel
  have hst : (actAll 1 (start 1) retriedRun).state "job_000000" = some .pending := by decide +kernel
  exact ⟨_, _, run_trace .nil retriedRun, hanswer, hst⟩

/-! ## The subprocess of a cancelled job -/

/-- The job for which a handler writes `CANCELLED`. -/
def handlerCancels (σ : Sys) : Action → Option String
  | .request i (.step _ _) =>
    match σ.requests[i]? with
    | some (.cancelling id) => some id
    | _ => none
  | _ => none

/-- The handler's `Transition` finds a job that is not running. -/
def CancelsWaiting (x : Step Sys Action) : Prop := ∀ id ∈ x.src.handlerCancels x.label, x.src.state id ≠ some .running

instance (x : Step Sys Action) : Decidable (CancelsWaiting x) :=
  inferInstanceAs (Decidable (∀ id ∈ x.src.handlerCancels x.label, x.src.state id ≠ some .running))

end Sys

/-- A job is taken up for execution by the turn that makes it run. -/
theorem Turn.takes_up {who : Actor} {r r' : Option Role} {job job' : Option Job} (h : Turn who r job r' job')
    (hr' : r' = some .executing) : r = some .executing ∨ job'.map Job.state = some .running := by
  cases h with
  | same => exact .inl hr'
  | claim => exact .inr rfl
  | output => exact .inl rfl
  | _ => cases hr'

/-- `CANCELLED` for a running job comes from the worker that lets go of it, or from a handler. -/
theorem Turn.cancels_running {who : Actor} {r r' : Option Role} {job job' : Option Job} (h : Turn who r job r' job')
    (hrun : job.map Job.state = some .running) (hc : job'.map Job.state = some .cancelled) :
    r = some .executing ∧ r' = none ∨ who = .handler := by
  cases h with
  | same =>
    rw [hrun] at hc
    cases hc
  | submit | cancel => exact .inr rfl
  | finish => exact .inl ⟨rfl, rfl⟩
  | enqueue | claim | fail | retry => cases hc
  | revert j t | exhaust j t =>
    rw [Option.map_some, Option.some.injEq] at hrun hc
    rw [Store.tried_not (by rw [hrun]; rfl), hrun] at hc
    cases hc
  | drop j | lose j | output j =>
    rw [Option.map_some, Option.some.injEq] at hrun hc
    exact absurd (hrun.symm.trans hc) (by decide)

/-- A cancelled job is not executed. -/
def View.Quiet (v : View) : Prop := v.job.map Job.state = some .cancelled → v.owners .executing = 0

theorem View.Quiet.not_executed {v : View} (h : v.Quiet) (ho : v.Owned) (hrun : v.job.map Job.state ≠ some .running) :
    v.owners .executing = 0 := by
  unfold View.Quiet View.Owned at *
  generalize v.job.map Job.state = st at *
  rcases st with _ | st
  · exact ho.2.1
  · cases st with
    | running => exact absurd rfl hrun
    | cancelled => exact h rfl
    | _ => exact ho.2.1

theorem View.Quiet.move {who : Actor} {v v' : View} (h : v.Quiet) (ho : v.Owned) (hm : v.Move who v')
    (hhandler : who = .handler → v.job.map Job.state = some .running → v'.job = v.job) : v'.Quiet := by
  intro hc
  obtain ⟨r, r', hturn, hpos, hown⟩ := hm
  have he := hown .executing
  by_cases hrun : v.job.map Job.state = some .running
  · have hone : v.owners .executing = 1 := by
      rw [View.Owned, hrun, allowedOwners] at ho
      exact ho.2.1
    rcases hturn.cancels_running hrun hc with ⟨rfl, rfl⟩ | hwho
    · simp [hone] at he
      exact he
    · rw [hhandler hwho hrun, hrun] at hc
      cases hc
  · have hzero := h.not_executed ho hrun
    by_cases hr' : r' = some .executing
    · rcases hturn.takes_up hr' with hr | hrun'
      · exact absurd (hpos .executing hr) (by omega)
      · rw [hc] at hrun'
        cases hrun'
    · simp [hr', hzero] at he
      exact he.1

namespace Sys

/-- The subprocess of the job runs and its context was not cancelled. -/
def RunsUncancelled (σ : Sys) (id : String) : Prop :=
  ∃ (w ctx : Nat) (job : Job), σ.workers[w]? = some (.executing job ctx) ∧ job.id = id ∧
    σ.shared.err ctx ≠ some .canceled

/-- A step of a handler on a running job for which it does not write `CANCELLED`. -/
theorem handler_keeps_running {x : Step Sys Action} (hn : x.src.Next cap x.label x.dst) {id : String}
    (hcond : id ∈ x.src.handlerCancels x.label → x.src.state id ≠ some .running) (hwho : x.label.actor = .handler)
    (hrun : x.src.state id = some .running) : x.dst.job id = x.src.job id := by
  obtain ⟨j, hj, hs⟩ := Option.map_eq_some_iff.mp hrun
  obtain ⟨src, label, dst⟩ := x
  simp only at hn hwho hrun hj ⊢
  cases hn.acted with
  | schedule | work | receive | handoff => cases hwho
  | deadline | submit | delete => rfl
  | request hi hact =>
    refine (Request.act_keeps hact hj ?_).trans hj.symm
    rintro now rand rfl rfl
    exact hcond (by simp [handlerCancels, hi]) hrun

theorem quiet_of_run (h : Run (Next cap) (start n) tr σ) {id : String}
    (hcond : ∀ x ∈ tr, id ∈ x.src.handlerCancels x.label → x.src.state id ≠ some .running) : (σ.view id).Quiet := by
  refine (Run.inv (fun σ => σ.Inv ∧ (σ.view id).Quiet)
    (fun x => id ∈ x.src.handlerCancels x.label → x.src.state id ≠ some .running)
    (fun x hn hc hI => ⟨hI.1.next hn, ?_⟩) ⟨inv_start n, ?_⟩ h hcond).2
  · exact hI.2.move (hI.1.owned id) (hI.1.moves hn id) (handler_keeps_running hn hc)
  · intro hc
    cases hc

/-- **A cancelled job is not running**, where no handler cancels a job that runs: not even under
a cancelled context. -/
theorem not_executing_of_cancelled (h : Run (Next cap) (start n) tr σ) (hcond : ∀ x ∈ tr, CancelsWaiting x)
    {id : String} (hst : σ.state id = some .cancelled) : ¬ σ.RunsUncancelled id := by
  rintro ⟨w, ctx, job, hw, rfl, -⟩
  have hzero := quiet_of_run h (fun x hx => hcond x hx job.id) hst
  have hpos : 0 < σ.owners job.id .executing := owners_pos_of_worker hw (holding_self _ _)
  exact absurd hzero (Nat.ne_of_gt hpos)

theorem not_executing_of_cancelled_killed : (actAll 1 (start 1) cancelledRun).state "job_000000" = some .cancelled ∧
    ¬ (actAll 1 (start 1) cancelledRun).RunsUncancelled "job_000000" := by
  have hst : (actAll 1 (start 1) cancelledRun).state "job_000000" = some .cancelled := by decide +kernel
  exact ⟨hst, not_executing_of_cancelled (run_trace .nil cancelledRun) (by decide +kernel) hst⟩

/-- The `DELETE` reads `PENDING`, the job starts, and the `DELETE` writes `CANCELLED`. -/
def cancelledLate : List Action :=
  failedOnce.take 2 ++ ([.delete "job_000000", .request 1 (.step 0 none)] : List Action) ++
    (failedOnce.drop 2).take 7 ++ ([.request 1 (.step 1 none)] : List Action)

theorem cancelled_while_executing : ∃ tr σ, Run (Next 1) (start 1) tr σ ∧ σ.state "job_000000" = some .cancelled ∧
    σ.RunsUncancelled "job_000000" := by
  have hworker : (actAll 1 (start 1) cancelledLate).workers[0]? =
      some (.executing (newJob flaky "job_000000" 0) 0) := by decide +kernel
  have herr : (actAll 1 (start 1) cancelledLate).shared.err 0 ≠ some .canceled := by decide +kernel
  have hst : (actAll 1 (start 1) cancelledLate).state "job_000000" = some .cancelled := by decide +kernel
  exact ⟨_, _, run_trace .nil cancelledLate, hst, 0, 0, _, hworker, rfl, herr⟩

end Sys

end Orchestrator
