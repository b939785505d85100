import InfraPlatform.Orchestrator.Cancel

/-!
# A run whose subprocess succeeded

`Executor.Run` looks at the context of the run after the subprocess has ended and its output is stored, and asks
for the deadline before it asks for the error of the subprocess.  A deadline that fires in between turns
an exit with status 0 into a timeout.

* `Sys.uncancelled_of_run`: the context of a run is `Canceled` only if a handler called its cancel function.
* `Stage`: where a worker stands whose subprocess succeeded, and what that says about the stored job.
* `success_counts_iff`: the job is left `COMPLETED`, with its retry count, exactly if the deadline had not fired
  when the worker asked for it.
* `timeout_after_success`: it fires while the output is stored, and the job is run again.
-/

namespace Orchestrator

open Lib
open ControlPlane (Time)

/-! ## Contexts that nobody cancels -/

theorem Shared.err_endCtx_deadline {sh : Shared} {c c' : Nat} (h : sh.err c' ≠ some .canceled) :
    (sh.endCtx c .deadlineExceeded).err c' ≠ some .canceled := by
  by_cases hc : c' = c
  · subst hc
    unfold Shared.err Shared.endCtx at *
    simp only [List.getElem?_modify_eq]
    cases hctx : sh.ctxs[c']? with
    | none => simp
    | some ctx =>
      rw [hctx] at h
      simp only [Option.map_eq_map, Option.map_some, Option.bind_some, Ctx.finish] at h ⊢
      split
      · simp
      · exact h
  · rw [Shared.err_endCtx_of_ne hc]
    exact h

namespace Sys

variable {cap n : Nat} {σ σ' : Sys} {a : Action} {tr : List (Step Sys Action)}

/-- A handler cancels run `ctx` of job `id`: it calls the run's cancel function, or writes `CANCELLED` itself. -/
def CancelsRun (id : String) (ctx : Nat) (x : Step Sys Action) : Prop :=
  x.src.handlerCalls x.label = some ctx ∨ x.src.handlerCancels x.label = some id ∧ x.src.state id = some .running

instance (id : String) (ctx : Nat) (x : Step Sys Action) : Decidable (CancelsRun id ctx x) :=
  inferInstanceAs (Decidable (_ ∨ _ ∧ _))

/-- A context that is held is not `Canceled`. -/
structure Uncancelled (ctx : Nat) (σ : Sys) : Prop where
  exclusive : Process.Exclusive σ
  live : ∀ w, σ.ctx w = some ctx → σ.shared.err ctx ≠ some .canceled

theorem Uncancelled.step {ctx : Nat} {x : Step Sys Action} (h : Uncancelled ctx x.src)
    (hn : x.src.Next cap x.label x.dst) (hcall : x.src.handlerCalls x.label ≠ some ctx) : Uncancelled ctx x.dst := by
  refine ⟨h.exclusive.step hn.ctxStep, ?_⟩
  intro v hv
  obtain ⟨src, label, dst⟩ := x
  simp only at h hn hcall hv ⊢
  have hsame (hw : dst.workers = src.workers) : src.ctx v = some ctx := by
    unfold Sys.ctx at hv ⊢
    rw [← hw]
    exact hv
  cases hn.ctxStep with
  | keep hctx hsh =>
    rw [Shared.err_congr hsh]
    exact h.live v (by rw [← hctx v]; exact hv)
  | @make w job c _ wa hclaimed herr hsh hw =>
    unfold Shared.err
    rw [hsh]
    rcases Process.ctx_of_set hw hv with ⟨-, hc⟩ | ⟨-, hc⟩
    · -- the new context, not done
      cases hc
      rw [List.getElem?_append_right (Nat.le_refl _)]
      simp [herr]
    · rw [List.getElem?_append_left (h.exclusive.made v ctx hc)]
      exact h.live v hc
  | @leave w c _ wa hleft hsh hw =>
    rcases Process.ctx_of_set hw hv with ⟨-, hc⟩ | ⟨hne, hc⟩
    · cases hc
    · -- the worker that leaves held another context
      have hother : ctx ≠ c := by
        rintro rfl
        exact hne (h.exclusive.distinct v w ctx hc (by rw [Sys.ctx, hleft]; rfl))
      rw [Shared.err_congr hsh, Shared.err_endCtx_of_ne hother]
      exact h.live v hc
  | deadline hsh hw =>
    rw [Shared.err_congr hsh]
    exact Shared.err_endCtx_deadline (h.live v (hsame hw))
  | @delete i c id job _ ra hi hsh hw =>
    have hother : ctx ≠ c := by
      rintro rfl
      cases hn.acted with
      | @request _ _ pc _ _ hpc hact =>
        obtain rfl := Option.some.inj (hpc.symm.trans hi)
        cases ra with
        | step now rand => exact hcall (by simp [handlerCalls, hi])
        | expire => cases hact
    rw [Shared.err_congr hsh, Shared.err_endCtx_of_ne hother]
    exact h.live v (hsame hw)

/-- What holds along a run in which nobody cancels run `ctx` of job `id`. -/
structure Clean (id : String) (ctx : Nat) (σ : Sys) : Prop where
  inv : σ.Inv
  quiet : (σ.view id).Quiet
  uncancelled : Uncancelled ctx σ

theorem Clean.step {id : String} {ctx : Nat} {x : Step Sys Action} (h : Clean id ctx x.src)
    (hn : x.src.Next cap x.label x.dst) (hnobody : ¬ CancelsRun id ctx x) : Clean id ctx x.dst := by
  refine ⟨h.inv.next hn, ?_, h.uncancelled.step hn fun hc => hnobody (.inl hc)⟩
  exact h.quiet.move (h.inv.owned id) (h.inv.moves hn id)
    (handler_keeps_running hn fun hc hrun => hnobody (.inr ⟨hc, hrun⟩))

theorem clean_of_run {id : String} {ctx : Nat} (h : Run (Next cap) (start n) tr σ)
    (hnobody : ∀ x ∈ tr, ¬ CancelsRun id ctx x) : Clean id ctx σ := by
  refine Run.inv (Clean id ctx) (fun x => ¬ CancelsRun id ctx x) (fun x hn hx hI => hI.step hn hx) ?_ h hnobody
  refine ⟨inv_start n, fun hc => ?_, ⟨Process.exclusive_start n, fun w hc => ?_⟩⟩
  · cases hc
  · rw [Process.ctx_start] at hc
    cases hc

/-- The job that a worker executes is `RUNNING`. -/
theorem Clean.running {id : String} {ctx w : Nat} {pc : Worker} {j : Job} (h : Clean id ctx σ)
    (hw : σ.workers[w]? = some pc) (hr : pc.role id = some .executing) (hj : σ.job id = some j) :
    j.state = .running := by
  have hpos : 0 < (σ.view id).owners .executing := owners_pos_of_worker hw hr
  by_contra hne
  have hzero := h.quiet.not_executed (h.inv.owned id) (by simp only [view, hj]; simpa using hne)
  omega

theorem Clean.failed {id : String} {ctx w : Nat} {pc : Worker} {j : Job} (h : Clean id ctx σ)
    (hw : σ.workers[w]? = some pc) (hr : pc.role id = some .failing) (hj : σ.job id = some j) :
    j.state = .failed := by
  obtain ⟨i, hi, hs, -⟩ := (h.inv.owned id).failed (owners_pos_of_worker hw hr)
  obtain rfl := Option.some.inj (hi.symm.trans hj)
  exact hs

end Sys

/-! ## After the subprocess -/

/-- The retry count grows with a retry only. -/
theorem Written.retryCount {j j' : Job} (h : Written (some j) (some j')) : j'.retryCount = j.retryCount ∨
    j.state = .failed ∧ j'.state = .pending ∧ j'.retryCount = j.retryCount + 1 := by
  cases h with
  | same | output | move => exact .inl rfl
  | retry _ t hs hlt => exact .inr ⟨hs, rfl, rfl⟩

/-- A worker in `Run` of `job` whose subprocess succeeded; `late` if it found the deadline exceeded.  The job
had the retry count `k` then, and is stored as `j`. -/
inductive Stage (job : Job) (ctx : Nat) (k : Int) (late : Prop) (j : Job) : Worker → Prop where
  | ended (output : String) : ¬ late → j.retryCount = k → Stage job ctx k late j (.ended job ctx none output)
  | judging : ¬ late → j.retryCount = k → Stage job ctx k late j (.judging job ctx none)
  | judgingDeadline : ¬ late → j.retryCount = k → Stage job ctx k late j (.judgingDeadline job ctx none)
  | completing : ¬ late → j.retryCount = k → Stage job ctx k late j (.completing job ctx)
  | failing (msg : String) : late → j.retryCount = k → Stage job ctx k late j (.failing job ctx msg)
  | failed : late → j.retryCount = k → Stage job ctx k late j (.failed job ctx)
  | retrying (cur : Job) : late → j.retryCount = k → Stage job ctx k late j (.retrying job ctx cur)
  | completed : ¬ late → j.state = .completed → j.retryCount = k → Stage job ctx k late j (.leaving job ctx)
  | lost : late → j.state = .exhausted ∨ k < j.retryCount → Stage job ctx k late j (.leaving job ctx)
  | left : Stage job ctx k late j (.left ctx)

section Stage

variable {job j j' : Job} {ctx : Nat} {k : Int} {late late' : Prop} {pc pc' : Worker} {sh sh' : Shared} {a : WorkerAct}

/-- **A step of somebody else.** -/
theorem Stage.other (h : Stage job ctx k late j pc) (hw : Written (some j) (some j'))
    (hrun : pc.role job.id = some .executing → j.state = .running)
    (hfail : pc.role job.id = some .failing → j'.state = .failed) : Stage job ctx k late j' pc := by
  have hexec (hr : pc.role job.id = some .executing) : j'.retryCount = j.retryCount := by
    rcases hw.retryCount with heq | ⟨hs, -, -⟩
    · exact heq
    · rw [hrun hr] at hs
      cases hs
  have hfailing (hr : pc.role job.id = some .failing) : j'.retryCount = j.retryCount := by
    rcases hw.retryCount with heq | ⟨-, hs, -⟩
    · exact heq
    · rw [hfail hr] at hs
      cases hs
  -- the end is kept with the retry count
  have hend (hs : j.state = .completed ∨ j.state = .exhausted) :
      j'.state = j.state ∧ j'.retryCount = j.retryCount := by
    refine ⟨?_, ?_⟩
    · rcases hw.legal with heq | ht
      · exact heq
      · rcases hs with hs | hs <;> rw [hs] at ht <;> cases hd : j'.state <;> rw [hd] at ht <;> cases ht
    · rcases hw.retryCount with heq | ⟨hs', -, -⟩
      · exact heq
      · rcases hs with hs | hs <;> rw [hs] at hs' <;> cases hs'
  cases h with
  | ended output hl hk => exact .ended output hl ((hexec (holding_self _ _)).trans hk)
  | judging hl hk => exact .judging hl ((hexec (holding_self _ _)).trans hk)
  | judgingDeadline hl hk => exact .judgingDeadline hl ((hexec (holding_self _ _)).trans hk)
  | completing hl hk => exact .completing hl ((hexec (holding_self _ _)).trans hk)
  | failing msg hl hk => exact .failing msg hl ((hexec (holding_self _ _)).trans hk)
  | failed hl hk => exact .failed hl ((hfailing (holding_self _ _)).trans hk)
  | retrying cur hl hk => exact .retrying cur hl ((hfailing (holding_self _ _)).trans hk)
  | completed hl hs hk =>
    obtain ⟨hs', hk'⟩ := hend (.inl hs)
    exact .completed hl (hs'.trans hs) (hk'.trans hk)
  | lost hl hs =>
    refine .lost hl ?_
    rcases hs with hs | hk
    · exact .inl ((hend (.inr hs)).1.trans hs)
    · rcases hw.retryCount with heq | ⟨-, -, heq⟩ <;> omega
  | left => exact .left

/-- **A step of the worker itself**: past the inspection `late` is decided. -/
theorem Stage.own (h : Stage job ctx k late j pc) (hact : pc.act sh a = some (pc', sh'))
    (hj : sh.store.find job.id = some j) (hj' : sh'.store.find job.id = some j')
    (hrun : pc.role job.id = some .executing → j.state = .running)
    (hfail : pc.role job.id = some .failing → j.state = .failed)
    (hcur : ∀ cur, pc = .retrying job ctx cur → cur = j) (herr : pc.ctx = some ctx → sh.err ctx ≠ some .canceled)
    (hlate : late' ↔ late ∨ pc = .judgingDeadline job ctx none ∧ sh.err ctx = some .deadlineExceeded) :
    Stage job ctx k late' j' pc' ∨ pc'.ctx ≠ some ctx := by
  -- all steps but the inspection leave `late` as it is
  have hkeep (hpc : pc ≠ .judgingDeadline job ctx none) : late' ↔ late := by
    rw [hlate]
    exact ⟨fun h => h.resolve_right fun hd => hpc hd.1, .inl⟩
  have hsame (hst : sh'.store = sh.store) : j' = j := by
    rw [hst, hj] at hj'
    exact (Option.some.inj hj').symm
  have hmoved {dest : State} {msg : String} {now : Time} (ht : transition j.state dest = true)
      (hst : sh'.store = (sh.store.transition job.id dest msg now).2) : j' = Store.moved j dest msg now := by
    rw [hst, Store.find_transition hj, if_pos rfl, Store.tried_of ht] at hj'
    exact (Option.some.inj hj').symm
  cases h with
  | ended output hl hk =>
    cases a with
    | step now =>
      cases hact
      rw [Shared.write, Store.find_setOutput hj, if_pos rfl] at hj'
      obtain rfl := Option.some.inj hj'
      exact .inl (.judging (mt (hkeep (by simp)).mp hl) hk)
    | _ => cases hact
  | judging hl hk =>
    cases a with
    | step now =>
      simp only [Worker.act, if_neg (herr rfl), Option.some.injEq, Prod.mk.injEq] at hact
      obtain ⟨rfl, rfl⟩ := hact
      obtain rfl := hsame rfl
      exact .inl (.judgingDeadline (mt (hkeep (by simp)).mp hl) hk)
    | _ => cases hact
  | judgingDeadline hl hk =>
    cases a with
    | step now =>
      by_cases hd : sh.err ctx = some .deadlineExceeded
      · simp only [Worker.act, if_pos hd, Option.some.injEq, Prod.mk.injEq] at hact
        obtain ⟨rfl, rfl⟩ := hact
        obtain rfl := hsame rfl
        exact .inl (.failing "timeout" (hlate.mpr (.inr ⟨rfl, hd⟩)) hk)
      · simp only [Worker.act, if_neg hd, Option.some.injEq, Prod.mk.injEq] at hact
        obtain ⟨rfl, rfl⟩ := hact
        obtain rfl := hsame rfl
        refine .inl (.completing (fun hl' => ?_) hk)
        rcases hlate.mp hl' with hl' | ⟨-, hd'⟩
        · exact hl hl'
        · exact hd hd'
    | _ => cases hact
  | completing hl hk =>
    cases a with
    | step now =>
      have ht : transition j.state .completed = true := by rw [hrun (holding_self _ _)]; rfl
      cases hact
      obtain rfl := hmoved ht rfl
      exact .inl (.completed (mt (hkeep (by simp)).mp hl) rfl hk)
    | _ => cases hact
  | failing msg hl hk =>
    cases a with
    | step now =>
      have ht : transition j.state .failed = true := by rw [hrun (holding_self _ _)]; rfl
      rcases Store.transition_cases hj .failed msg now with ⟨-, hw⟩ | ⟨hf, -⟩
      · simp only [Worker.act, hw, Option.some.injEq, Prod.mk.injEq] at hact
        obtain ⟨rfl, rfl⟩ := hact
        obtain rfl := hmoved ht (by rw [hw])
        exact .inl (.failed ((hkeep (by simp)).mpr hl) hk)
      · rw [ht] at hf
        cases hf
    | _ => cases hact
  | failed hl hk =>
    cases a with
    | step now =>
      simp only [Worker.act, Store.get, hj, Option.some.injEq, Prod.mk.injEq] at hact
      obtain ⟨rfl, rfl⟩ := hact
      obtain rfl := hsame rfl
      exact .inl (.retrying _ ((hkeep (by simp)).mpr hl) hk)
    | _ => cases hact
  | retrying cur hl hk =>
    obtain rfl := hcur cur rfl
    cases a with
    | step now =>
      by_cases hlt : cur.retryCount < cur.maxRetries
      · simp only [Worker.act, if_pos hlt, Option.some.injEq, Prod.mk.injEq] at hact
        obtain ⟨rfl, rfl⟩ := hact
        have hid : cur.id = job.id := Store.id_of_find hj
        have hid : (scheduleRetry cur now).id = job.id := hid
        rw [Shared.write, Store.find_update (hid ▸ hj), if_pos hid.symm] at hj'
        obtain rfl := Option.some.inj hj'
        refine .inl (.lost ((hkeep (by simp)).mpr hl) (.inr ?_))
        change k < cur.retryCount + 1
        omega
      · simp only [Worker.act, if_neg hlt, Option.some.injEq, Prod.mk.injEq] at hact
        obtain ⟨rfl, rfl⟩ := hact
        have ht : transition cur.state .exhausted = true := by rw [hfail (holding_self _ _)]; rfl
        obtain rfl := hmoved ht rfl
        exact .inl (.lost ((hkeep (by simp)).mpr hl) (.inl rfl))
    | _ => cases hact
  | completed | lost =>
    cases a with
    | step now => cases hact; exact .inl .left
    | _ => cases hact
  | left =>
    cases a with
    | step now => cases hact; exact .inr (by simp [Worker.ctx])
    | _ => cases hact

end Stage

/-- The steps that a worker past its subprocess has still to take, at most, up to the end of `Run`. -/
def Worker.stepsLeft : Worker → Option Nat
  | .ended .. => some 6
  | .judging .. => some 5
  | .judgingDeadline .. => some 4
  | .failing .. => some 3
  | .failed .. => some 2
  | .retrying .. | .cancelling .. | .completing .. => some 1
  | .leaving .. => some 0
  | .idle | .fetched _ | .claimed _ | .registered .. | .executing .. | .left _ => none

/-- Nothing keeps a worker that is past its subprocess from its next step. -/
theorem Worker.act_stepsLeft {pc : Worker} {r : Nat} (h : pc.stepsLeft = some (r + 1)) (sh : Shared) (now : Time) :
    ∃ pc' sh' r', pc.act sh (.step now) = some (pc', sh') ∧ pc'.stepsLeft = some r' ∧ r' ≤ r ∧
      pc'.job = pc.job ∧ pc'.ctx = pc.ctx := by
  cases pc with
  | ended job ctx runErr output => cases h; exact ⟨_, _, _, rfl, rfl, by omega, rfl, rfl⟩
  | judging job ctx runErr =>
    cases h
    by_cases hc : sh.err ctx = some .canceled
    · exact ⟨_, _, _, if_pos hc, rfl, by omega, rfl, rfl⟩
    · exact ⟨_, _, _, if_neg hc, rfl, by omega, rfl, rfl⟩
  | judgingDeadline job ctx runErr =>
    cases h
    by_cases hd : sh.err ctx = some .deadlineExceeded
    · exact ⟨_, _, _, if_pos hd, rfl, by omega, rfl, rfl⟩
    · cases runErr with
      | some err => exact ⟨_, _, _, if_neg hd, rfl, by omega, rfl, rfl⟩
      | none => exact ⟨_, _, _, if_neg hd, rfl, by omega, rfl, rfl⟩
  | cancelling job ctx => cases h; exact ⟨_, _, _, rfl, rfl, by omega, rfl, rfl⟩
  | completing job ctx => cases h; exact ⟨_, _, _, rfl, rfl, by omega, rfl, rfl⟩
  | failing job ctx msg =>
    cases h
    simp only [Worker.act]
    split
    · exact ⟨_, _, _, rfl, rfl, by omega, rfl, rfl⟩
    · exact ⟨_, _, _, rfl, rfl, by omega, rfl, rfl⟩
  | failed job ctx =>
    cases h
    simp only [Worker.act]
    split
    · exact ⟨_, _, _, rfl, rfl, by omega, rfl, rfl⟩
    · exact ⟨_, _, _, rfl, rfl, by omega, rfl, rfl⟩
  | retrying job ctx cur =>
    cases h
    by_cases hlt : cur.retryCount < cur.maxRetries
    · exact ⟨_, _, _, if_pos hlt, rfl, by omega, rfl, rfl⟩
    · exact ⟨_, _, _, if_neg hlt, rfl, by omega, rfl, rfl⟩
  | _ => cases h

namespace Sys

variable {cap n : Nat} {σ σ' : Sys} {a : Action} {tr : List (Step Sys Action)} {w ctx : Nat} {job : Job} {k : Int}

/-- Contexts are never taken away, and a context that a worker has given back does not return to it. -/
theorem Next.gone (h : σ.Next cap a σ') (hmade : ctx < σ.shared.ctxs.length) :
    ctx < σ'.shared.ctxs.length ∧ (σ.ctx w ≠ some ctx → σ'.ctx w ≠ some ctx) := by
  have hsame (hw : σ'.workers = σ.workers) : σ'.ctx w = σ.ctx w := by
    unfold Sys.ctx
    rw [hw]
  cases h.ctxStep with
  | keep hctx hsh => exact ⟨by rw [hsh]; exact hmade, by rw [hctx w]; exact id⟩
  | make wa hclaimed herr hsh hw =>
    refine ⟨by rw [hsh, List.length_append]; omega, fun hne hc => ?_⟩
    rcases Process.ctx_of_set hw hc with ⟨-, hc⟩ | ⟨-, hc⟩
    · have hlen := Option.some.inj hc
      omega
    · exact hne hc
  | leave wa hleft hsh hw =>
    refine ⟨by rw [hsh, Shared.length_endCtx]; exact hmade, fun hne hc => ?_⟩
    rcases Process.ctx_of_set hw hc with ⟨-, hc⟩ | ⟨-, hc⟩
    · cases hc
    · exact hne hc
  | deadline hsh hw => exact ⟨by rw [hsh, Shared.length_endCtx]; exact hmade, by rw [hsame hw]; exact id⟩
  | delete ra hi hsh hw => exact ⟨by rw [hsh, Shared.length_endCtx]; exact hmade, by rw [hsame hw]; exact id⟩

/-- Worker `w`, whose subprocess succeeded, asks whether the deadline was exceeded. -/
def AsksDeadline (w : Nat) (job : Job) (ctx : Nat) (x : Step Sys Action) : Prop :=
  x.src.workers[w]? = some (.judgingDeadline job ctx none) ∧ ∃ now, x.label = .work w (.step now)

/-- It was. -/
def Late (w : Nat) (job : Job) (ctx : Nat) (tr : List (Step Sys Action)) : Prop :=
  ∃ x ∈ tr, AsksDeadline w job ctx x ∧ x.src.shared.err ctx = some .deadlineExceeded

theorem late_snoc {x : Step Sys Action} : Late w job ctx (tr ++ [x]) ↔
    Late w job ctx tr ∨ AsksDeadline w job ctx x ∧ x.src.shared.err ctx = some .deadlineExceeded := by
  unfold Late
  simp only [List.mem_append, List.mem_singleton, or_and_right, exists_or, exists_eq_left]

/-- The worker has given the context back, or is in a stage of the run. -/
structure Judged (w : Nat) (job : Job) (ctx : Nat) (k : Int) (tr : List (Step Sys Action)) (σ : Sys) : Prop where
  made : ctx < σ.shared.ctxs.length
  stage : σ.ctx w ≠ some ctx ∨
    ∃ pc j, σ.workers[w]? = some pc ∧ σ.job job.id = some j ∧ Stage job ctx k (Late w job ctx tr) j pc

theorem Judged.step {x : Step Sys Action} (h : Judged w job ctx k tr x.src) (hclean : Clean job.id ctx x.src)
    (hclean' : Clean job.id ctx x.dst) (hn : x.src.Next cap x.label x.dst) :
    Judged w job ctx k (tr ++ [x]) x.dst := by
  obtain ⟨hmade, hgone⟩ := hn.gone h.made
  refine ⟨hmade, ?_⟩
  rcases h.stage with hnone | ⟨pc, j, hw, hj, hstage⟩
  · exact .inl (hgone hnone)
  have hne : pc ≠ .idle := by
    rintro rfl
    cases hstage
  have hwritten := hclean.inv.written hn job.id
  rw [hj] at hwritten
  obtain ⟨j', hj'⟩ := Option.ne_none_iff_exists'.mp (hwritten.stored (Option.some_ne_none j))
  rw [hj'] at hwritten
  rcases hn.worker hw hne with ⟨hother, hw'⟩ | ⟨b, pc', hb, hact, hw'⟩
  · have hlate : Late w job ctx (tr ++ [x]) ↔ Late w job ctx tr := by
      rw [late_snoc, or_iff_left]
      rintro ⟨⟨-, now, hlabel⟩, -⟩
      exact hother _ hlabel
    rw [hlate]
    exact .inr ⟨pc, j', hw', hj', hstage.other hwritten (fun hr => hclean.running hw hr hj)
      (fun hr => hclean'.failed hw' hr hj')⟩
  · have hlate : Late w job ctx (tr ++ [x]) ↔ Late w job ctx tr ∨
        pc = .judgingDeadline job ctx none ∧ x.src.shared.err ctx = some .deadlineExceeded := by
      rw [late_snoc]
      refine or_congr_right (and_congr_left fun _ => ⟨fun hasks => ?_, fun hpc => ⟨hpc ▸ hw, ?_⟩⟩)
      · exact Option.some.inj (hw.symm.trans hasks.1)
      · subst hpc
        cases b with
        | step now => exact ⟨now, hb⟩
        | _ => cases hact
    have hcur (cur : Job) (hpc : pc = .retrying job ctx cur) : cur = j :=
      Option.some.inj ((hclean.inv.current w ctx job cur (hpc ▸ hw)).symm.trans hj)
    have herr (hctx : pc.ctx = some ctx) : x.src.shared.err ctx ≠ some .canceled :=
      hclean.uncancelled.live w (by rw [Sys.ctx, hw]; exact hctx)
    rcases hstage.own hact hj hj' (fun hr => hclean.running hw hr hj) (fun hr => hclean.failed hw hr hj) hcur herr
      hlate with hstage' | hleft
    · exact .inr ⟨pc', j', hw', hj', hstage'⟩
    · exact .inl (by rw [Sys.ctx, hw']; exact hleft)

/-- A worker past its subprocess gets to the end of `Run` by its own steps. -/
theorem reaches_leaving {σ₀ : Sys} {r : Nat} {pc : Worker} (h : Run (Next cap) σ₀ tr σ)
    (hown : ∀ y ∈ tr, ∃ now, y.label = .work w (.step now)) (hw : σ.workers[w]? = some pc)
    (hr : pc.stepsLeft = some r) (hjob : pc.job = some job) (hctx : pc.ctx = some ctx) :
    ∃ tr' σ', Run (Next cap) σ₀ tr' σ' ∧ (∀ y ∈ tr', ∃ now, y.label = .work w (.step now)) ∧
      σ'.workers[w]? = some (.leaving job ctx) := by
  induction r using Nat.strong_induction_on generalizing tr σ pc with
  | _ r ih =>
    cases r with
    | zero =>
      refine ⟨tr, σ, h, hown, ?_⟩
      cases pc with
      | leaving job' ctx' =>
        cases hjob
        cases hctx
        exact hw
      | _ => cases hr
    | succ r =>
      obtain ⟨pc', sh', r', hact, hr', hle, hjob', hctx'⟩ := Worker.act_stepsLeft hr σ.shared 0
      have hn : σ.Next cap (.work w (.step 0)) { σ with workers := σ.workers.set w pc', shared := sh' } := by
        simp [Next, act, hw, hact]
      have hw' : (σ.workers.set w pc')[w]? = some pc' :=
        List.getElem?_set_self (List.getElem?_eq_some_iff.mp hw).1
      exact ih r' (by omega) (h.snoc _ hn) (Run.forall_snoc.mpr ⟨hown, 0, rfl⟩) hw' hr' (hjob'.trans hjob)
        (hctx'.trans hctx)

/-- **A subprocess that succeeded**, in a run that nobody cancels: the worker gets to the end of `Run`, and it has
then left the job `COMPLETED`, with the retry count it had, exactly if the deadline had not fired when the worker
asked for it. -/
theorem success_counts_iff {x : Step Sys Action} {tr₁ tr₂ : List (Step Sys Action)} {output : String} {j₀ : Job}
    (h : Run (Next cap) (start n) (tr₁ ++ x :: tr₂) σ) (hlabel : x.label = .work w (.exit none output))
    (hw : x.src.workers[w]? = some (.executing job ctx)) (hj₀ : x.src.job job.id = some j₀)
    (hnobody : ∀ y ∈ tr₁ ++ x :: tr₂, ¬ CancelsRun job.id ctx y) :
    (∃ tr' σ', Run (Next cap) x.dst tr' σ' ∧ (∀ y ∈ tr', ∃ now, y.label = .work w (.step now)) ∧
      σ'.workers[w]? = some (.leaving job ctx)) ∧
    (σ.workers[w]? = some (.leaving job ctx) →
      ((∃ j, σ.job job.id = some j ∧ j.state = .completed ∧ j.retryCount = j₀.retryCount) ↔
        ∀ y ∈ tr₂, AsksDeadline w job ctx y → y.src.shared.err ctx ≠ some .deadlineExceeded)) := by
  obtain ⟨hbefore, hn, hafter⟩ := h.split
  have hclean₀ : Clean job.id ctx x.src := clean_of_run hbefore fun y hy => hnobody y (by simp [hy])
  have hclean : Clean job.id ctx x.dst := hclean₀.step hn (hnobody x (by simp))
  -- the exit takes the worker to the store of its output
  obtain ⟨hw₁, hj₁⟩ : x.dst.workers[w]? = some (.ended job ctx none output) ∧ x.dst.job job.id = some j₀ := by
    rcases hn.worker hw (by simp) with ⟨hother, -⟩ | ⟨b, pc', hb, hact, hw'⟩
    · exact absurd hlabel (hother _)
    · rw [hlabel] at hb
      cases hb
      simp only [Worker.act, Option.some.injEq, Prod.mk.injEq] at hact
      obtain ⟨rfl, hsh⟩ := hact
      exact ⟨hw', by rw [Sys.job, ← hsh]; exact hj₀⟩
  refine ⟨reaches_leaving .nil (by simp) hw₁ rfl rfl rfl, fun hleaving => ?_⟩
  have hstart : Judged w job ctx j₀.retryCount [] x.dst := by
    refine ⟨hclean.uncancelled.exclusive.made w ctx (by rw [Sys.ctx, hw₁]; rfl), .inr ⟨_, j₀, hw₁, hj₁, ?_⟩⟩
    exact .ended output (by simp [Late]) rfl
  obtain ⟨-, hjudged⟩ := Run.inv_hist (fun tr σ => Clean job.id ctx σ ∧ Judged w job ctx j₀.retryCount tr σ)
    (fun y => ¬ CancelsRun job.id ctx y)
    (fun tr y hn hy hI => ⟨hI.1.step hn hy, hI.2.step hI.1 (hI.1.step hn hy) hn⟩) ⟨hclean, hstart⟩ hafter
    fun y hy => hnobody y (by simp [hy])
  have hlate : (∀ y ∈ tr₂, AsksDeadline w job ctx y → y.src.shared.err ctx ≠ some .deadlineExceeded) ↔
      ¬ Late w job ctx tr₂ := by
    simp [Late]
  rw [hlate]
  rcases hjudged.stage with hgone | ⟨pc, j, hpc, hj, hstage⟩
  · exact absurd (by rw [Sys.ctx, hleaving]; rfl) hgone
  obtain rfl := Option.some.inj (hpc.symm.trans hleaving)
  cases hstage with
  | completed hl hs hk => exact ⟨fun _ => hl, fun _ => ⟨j, hj, hs, hk⟩⟩
  | lost hl hlost =>
    refine ⟨fun hcompleted => ?_, fun hnot => absurd hl hnot⟩
    obtain ⟨i, hi, hs, hk⟩ := hcompleted
    obtain rfl := Option.some.inj (hi.symm.trans hj)
    rcases hlost with hs' | hk'
    · rw [hs] at hs'
      cases hs'
    · omega

def quick : SubmitJobRequest := { name := "train", command := "true", timeoutSeconds := 1, maxRetries := 1 }

/-- A job with a timeout of a second is submitted and its subprocess started. -/
def startedQuick : List Action :=
  [.submit (some quick), .request 0 (.step 0 (some (0, 0, 0))), .schedule (.list [newJob quick "job_000000" 0] 1),
   .schedule (.queue 1), .schedule .send, .receive 0, .work 0 (.step 1), .work 0 (.step 1), .work 0 .spawn]

/-- The step of its exit with status 0. -/
def quickExit : Step Sys Action where
  src := actAll 1 (start 1) startedQuick
  label := .work 0 (.exit none "")
  dst := actAll 1 (start 1) (startedQuick ++ [.work 0 (.exit none "")])

theorem quickExit_run (as : List Action) : Run (Next 1) (start 1)
    (trace 1 (start 1) startedQuick ++ quickExit :: trace 1 quickExit.dst as) (actAll 1 quickExit.dst as) := by
  have hbefore : Run (Next 1) (start 1) (trace 1 (start 1) startedQuick) quickExit.src := run_trace .nil startedQuick
  have hn : quickExit.src.Next 1 quickExit.label quickExit.dst := rfl
  have h := run_trace (hbefore.snoc _ hn) as
  rw [List.append_assoc, List.singleton_append] at h
  exact h

theorem success_counts_iff_inTime :
    (actAll 1 quickExit.dst (List.replicate 4 (.work 0 (.step 2)))).workers[0]? =
      some (.leaving (newJob quick "job_000000" 0) 0) ∧
    ∃ j, (actAll 1 quickExit.dst (List.replicate 4 (.work 0 (.step 2)))).job "job_000000" = some j ∧
      j.state = .completed ∧ j.retryCount = 0 := by
  have hw : quickExit.src.workers[0]? = some (.executing (newJob quick "job_000000" 0) 0) := by decide +kernel
  have hleaving : (actAll 1 quickExit.dst (List.replicate 4 (.work 0 (.step 2)))).workers[0]? =
      some (.leaving (newJob quick "job_000000" 0) 0) := by decide +kernel
  have hj₀ : quickExit.src.job "job_000000" =
      some { newJob quick "job_000000" 0 with state := .running, startedAt := some 1 } := by decide +kernel
  have hiff := (success_counts_iff (quickExit_run (List.replicate 4 (.work 0 (.step 2)))) rfl hw hj₀
    (by decide +kernel)).2 hleaving
  refine ⟨hleaving, hiff.mpr fun y hy _ => ?_⟩
  have hlive : ∀ y ∈ trace 1 quickExit.dst (List.replicate 4 (.work 0 (.step 2))),
      y.src.shared.err 0 ≠ some .deadlineExceeded := by decide +kernel
  exact hlive y hy

/-- The deadline fires while the output of the subprocess is stored: the job that succeeded is retried. -/
theorem timeout_after_success :
    let after : List Action := .deadline 0 :: List.replicate 6 (.work 0 (.step 2))
    Run (Next 1) (start 1) (trace 1 (start 1) startedQuick ++ quickExit :: trace 1 quickExit.dst after)
      (actAll 1 quickExit.dst after) ∧
    quickExit.label = .work 0 (.exit none "") ∧
    quickExit.src.workers[0]? = some (.executing (newJob quick "job_000000" 0) 0) ∧
    (∀ y ∈ trace 1 (start 1) startedQuick ++ quickExit :: trace 1 quickExit.dst after,
      ¬ CancelsRun "job_000000" 0 y) ∧
    (actAll 1 quickExit.dst after).workers[0]? = some (.leaving (newJob quick "job_000000" 0) 0) ∧
    ((actAll 1 quickExit.dst after).job "job_000000").map (fun j => (j.state, j.retryCount, j.errorMessage)) =
      some (.pending, 1, "timeout") := by
  refine ⟨quickExit_run _, rfl, ?_, ?_, ?_, ?_⟩
  · decide +kernel
  · decide +kernel
  · decide +kernel
  · decide +kernel

end Sys

end Orchestrator
