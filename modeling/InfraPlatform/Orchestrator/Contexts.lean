import InfraPlatform.Orchestrator.Lifecycle
import InfraPlatform.Orchestrator.Shutdown

/-!
# Contexts and cancel functions

`Executor.Run` makes a context for its run, stores the cancel function under the job's ID and gives both back in
its deferred function.

* `no_leak`: an entry of the map belongs to a worker inside `Run`, and so does every context that is not done.  With all
  workers at the channel the map is empty and no timer is left.
* `registered_unless_stray`: up to its deferred function a run is found under its job's ID.  The one exception is a
  worker that is late with the `Delete` of an earlier attempt of the same job: the entry it deletes is the later one's,
  and `DELETE /jobs/id` does not reach that run.
-/

namespace Orchestrator

open Lib
open ControlPlane (Time)

/-! ## The map -/

/-- The run that a worker is in, from the `Store` of its cancel function to its `Delete`. -/
def Worker.run (pc : Worker) : Option (Job × Nat) := do
  let job ← pc.job
  let ctx ← pc.ctx
  pure (job, ctx)

/-- What a worker's step does to the map. -/
inductive Worker.MapStep (sh sh' : Shared) : Worker → Worker → Prop where
  | keep {pc pc' : Worker} : sh'.cancels = sh.cancels → pc'.run = pc.run → MapStep sh sh' pc pc'
  | store (job : Job) : sh'.cancels = Function.update sh.cancels job.id (some sh.ctxs.length) →
      MapStep sh sh' (.claimed job) (.registered job sh.ctxs.length)
  | delete (job : Job) (ctx : Nat) : sh'.cancels = Function.update sh.cancels job.id none →
      MapStep sh sh' (.leaving job ctx) (.left ctx)

theorem Worker.act_map {sh sh' : Shared} {pc pc' : Worker} {a : WorkerAct} (h : pc.act sh a = some (pc', sh')) :
    MapStep sh sh' pc pc' := by
  unfold Worker.act at h
  split at h
  case h_2 job now => cases h; exact .store job rfl
  case h_14 job ctx now => cases h; exact .delete job ctx rfl
  all_goals repeat' split at h
  all_goals first
    | cases h; exact .keep rfl rfl
    | cases h

theorem Scheduler.act_cancels {cap : Nat} {sh sh' : Shared} {pc pc' : Scheduler} {a : SchedAct}
    (h : pc.act cap sh a = some (pc', sh')) : sh'.cancels = sh.cancels := by
  unfold Scheduler.act at h
  repeat' split at h
  all_goals cases h
  all_goals rfl

theorem Request.act_cancels {sh sh' : Shared} {pc pc' : Request} {a : RequestAct}
    (h : pc.act sh a = some (pc', sh')) : sh'.cancels = sh.cancels := by
  unfold Request.act at h
  repeat' split at h
  all_goals cases h
  all_goals rfl

theorem Shared.err_endCtx_self {sh : Shared} {c : Nat} {e : CtxErr} (h : c < sh.ctxs.length) :
    (sh.endCtx c e).err c ≠ none := by
  unfold Shared.err Shared.endCtx
  simp only [List.getElem?_modify_eq, List.getElem?_eq_getElem h, Option.map_eq_map, Option.map_some, Option.bind_some,
    Ctx.finish]
  split
  · simp
  · assumption

namespace Sys

variable {cap n : Nat} {σ σ' : Sys} {a : Action} {tr : List (Step Sys Action)} {x : Step Sys Action}

/-- The run that worker `w` is in. -/
def run (σ : Sys) (w : Nat) : Option (Job × Nat) := (σ.workers[w]?).bind Worker.run

theorem run_set {w : Nat} {pc pc' : Worker} (hw : σ.workers[w]? = some pc) (v : Nat) :
    ((σ.workers.set w pc')[v]?).bind Worker.run = if v = w then pc'.run else σ.run v := by
  have hlt := (List.getElem?_eq_some_iff.mp hw).1
  split
  · next hv =>
    subst hv
    rw [List.getElem?_set_self hlt]
    rfl
  · next hv =>
    rw [List.getElem?_set_ne (Ne.symm hv)]
    rfl

/-- What a step does to the map and to the runs. -/
inductive MapStep (σ : Sys) (a : Action) (σ' : Sys) : Prop where
  | keep : σ'.shared.cancels = σ.shared.cancels → (∀ v, σ'.run v = σ.run v) → MapStep σ a σ'
  | store {w : Nat} {job : Job} (wa : WorkerAct) : a = .work w wa → σ.workers[w]? = some (.claimed job) →
      σ'.shared.cancels = Function.update σ.shared.cancels job.id (some σ.shared.ctxs.length) →
      (∀ v, σ'.run v = if v = w then some (job, σ.shared.ctxs.length) else σ.run v) → MapStep σ a σ'
  | delete {w ctx : Nat} {job : Job} (wa : WorkerAct) : a = .work w wa → σ.workers[w]? = some (.leaving job ctx) →
      σ'.shared.cancels = Function.update σ.shared.cancels job.id none →
      (∀ v, σ'.run v = if v = w then none else σ.run v) → MapStep σ a σ'

theorem Next.mapStep (h : σ.Next cap a σ') : MapStep σ a σ' := by
  have hidle {w : Nat} (hw : σ.workers[w]? = some .idle) (job : Job) (v : Nat) :
      ((σ.workers.set w (.fetched job))[v]?).bind Worker.run = σ.run v := by
    rw [run_set hw]
    split
    · next hv =>
      rw [hv, run, hw]
      rfl
    · rfl
  cases h.acted with
  | schedule hact => exact .keep (Scheduler.act_cancels hact) fun _ => rfl
  | @work w wa pc pc' sh hw hact =>
    cases Worker.act_map hact with
    | keep hmap hrun =>
      refine .keep hmap fun v => (run_set hw v).trans ?_
      split
      · next hv =>
        rw [hv, hrun, run, hw]
        rfl
      · rfl
    | store job hmap => exact .store wa rfl hw hmap (run_set hw)
    | delete job ctx hmap => exact .delete wa rfl hw hmap (run_set hw)
  | receive hw _ => exact .keep rfl (hidle hw _)
  | handoff hw _ => exact .keep rfl (hidle hw _)
  | deadline | submit | delete => exact .keep rfl fun _ => rfl
  | request _ hact => exact .keep (Request.act_cancels hact) fun _ => rfl

/-! ## Nothing is left behind -/

/-- What is in the map belongs to a run, and so does every context that is not done. -/
structure Tidy (σ : Sys) : Prop where
  entries : ∀ id c, σ.shared.cancels id = some c → ∃ w job, σ.run w = some (job, c) ∧ job.id = id
  live : ∀ c, c < σ.shared.ctxs.length → σ.shared.err c = none → ∃ w, σ.ctx w = some c

theorem entries_next (h : ∀ id c, σ.shared.cancels id = some c → ∃ w job, σ.run w = some (job, c) ∧ job.id = id)
    (hn : σ.Next cap a σ') :
    ∀ id c, σ'.shared.cancels id = some c → ∃ w job, σ'.run w = some (job, c) ∧ job.id = id := by
  intro id c hc
  cases hn.mapStep with
  | keep hmap hrun =>
    rw [hmap] at hc
    obtain ⟨w, job, hw, hid⟩ := h id c hc
    exact ⟨w, job, (hrun w).trans hw, hid⟩
  | @store w job wa _ hw hmap hrun =>
    rw [hmap, Function.update_apply] at hc
    split at hc
    · next hid =>
      cases hc
      exact ⟨w, job, by rw [hrun, if_pos rfl], hid.symm⟩
    · obtain ⟨v, job', hv, hid⟩ := h id c hc
      refine ⟨v, job', ?_, hid⟩
      rw [hrun, if_neg]
      · exact hv
      · rintro rfl
        rw [run, hw] at hv
        cases hv
  | @delete w ctx job wa _ hw hmap hrun =>
    rw [hmap, Function.update_apply] at hc
    split at hc
    · cases hc
    · next hne =>
      obtain ⟨v, job', hv, hid⟩ := h id c hc
      refine ⟨v, job', ?_, hid⟩
      rw [hrun, if_neg]
      · exact hv
      · -- the entry would be that of the job it deletes
        rintro rfl
        rw [run, hw] at hv
        cases hv
        exact hne hid.symm

theorem live_next (h : ∀ c, c < σ.shared.ctxs.length → σ.shared.err c = none → ∃ w, σ.ctx w = some c)
    (hn : σ.Next cap a σ') : ∀ c, c < σ'.shared.ctxs.length → σ'.shared.err c = none → ∃ w, σ'.ctx w = some c := by
  intro c hc herr
  -- a context that is ended was, if it is not done now, another one
  have hended {c' : Nat} {e : CtxErr} (hsh : σ'.shared.ctxs = (σ.shared.endCtx c' e).ctxs) :
      c ≠ c' ∧ ∃ w, σ.ctx w = some c := by
    rw [hsh, Shared.length_endCtx] at hc
    rw [Shared.err_congr hsh] at herr
    have hne : c ≠ c' := by
      rintro rfl
      exact Shared.err_endCtx_self hc herr
    rw [Shared.err_endCtx_of_ne hne] at herr
    exact ⟨hne, h c hc herr⟩
  cases hn.ctxStep with
  | keep hctx hsh =>
    obtain ⟨w, hw⟩ := h c (hsh ▸ hc) ((Shared.err_congr hsh).symm.trans herr)
    exact ⟨w, (hctx w).trans hw⟩
  | @make w job ctx _ wa hw _ hsh hworkers =>
    have hlt := (List.getElem?_eq_some_iff.mp hw).1
    by_cases hnew : c = σ.shared.ctxs.length
    · refine ⟨w, ?_⟩
      rw [Sys.ctx, hworkers, List.getElem?_set_self hlt, hnew]
      rfl
    · have hold : c < σ.shared.ctxs.length := by
        rw [hsh, List.length_append, List.length_singleton] at hc
        omega
      have hsame : σ.shared.err c = none := by
        unfold Shared.err at herr ⊢
        rwa [hsh, List.getElem?_append_left hold] at herr
      obtain ⟨v, hv⟩ := h c hold hsame
      refine ⟨v, ?_⟩
      have hne : w ≠ v := by
        rintro rfl
        rw [Sys.ctx, hw] at hv
        cases hv
      rw [Sys.ctx, hworkers, List.getElem?_set_ne hne]
      exact hv
  | @leave w ctx _ wa hw hsh hworkers =>
    obtain ⟨hne, v, hv⟩ := hended hsh
    refine ⟨v, ?_⟩
    have hwv : w ≠ v := by
      rintro rfl
      rw [Sys.ctx, hw] at hv
      exact hne (Option.some.inj hv).symm
    rw [Sys.ctx, hworkers, List.getElem?_set_ne hwv]
    exact hv
  | deadline hsh hworkers =>
    obtain ⟨-, v, hv⟩ := hended hsh
    exact ⟨v, by rw [Sys.ctx, hworkers]; exact hv⟩
  | delete ra _ hsh hworkers =>
    obtain ⟨-, v, hv⟩ := hended hsh
    exact ⟨v, by rw [Sys.ctx, hworkers]; exact hv⟩

theorem tidy_of_run (h : Run (Next cap) (start n) tr σ) : σ.Tidy :=
  Run.inv Tidy (fun _ => True) (fun _ hn _ hI => ⟨entries_next hI.entries hn, live_next hI.live hn⟩)
    ⟨fun id c hc => (by cases hc), fun c hc => (by cases hc)⟩ h fun _ _ => trivial

/-- **`Run` leaves nothing behind.**  Entries and unfinished contexts are those of workers inside `Run`; with all
workers at the channel there are none. -/
theorem no_leak (h : Run (Next cap) (start n) tr σ) :
    (∀ id c, σ.shared.cancels id = some c → ∃ w job, σ.run w = some (job, c) ∧ job.id = id) ∧
    (∀ c, c < σ.shared.ctxs.length → σ.shared.err c = none → ∃ w, σ.ctx w = some c) ∧
    ((∀ pc ∈ σ.workers, pc = .idle) →
      (∀ id, σ.shared.cancels id = none) ∧ ∀ c, c < σ.shared.ctxs.length → σ.shared.err c ≠ none) := by
  obtain ⟨hentries, hlive⟩ := tidy_of_run h
  refine ⟨hentries, hlive, fun hidle => ⟨fun id => ?_, fun c hc herr => ?_⟩⟩
  · by_contra hsome
    obtain ⟨c, hc⟩ := Option.ne_none_iff_exists'.mp hsome
    obtain ⟨w, job, hrun, -⟩ := hentries id c hc
    obtain ⟨pc, hpc, hpcrun⟩ := Option.bind_eq_some_iff.mp hrun
    rw [hidle pc (List.mem_of_getElem? hpc)] at hpcrun
    cases hpcrun
  · obtain ⟨w, hctx⟩ := hlive c hc herr
    obtain ⟨pc, hpc, hpcctx⟩ := Option.bind_eq_some_iff.mp hctx
    rw [hidle pc (List.mem_of_getElem? hpc)] at hpcctx
    cases hpcctx

theorem no_leak_exhausted : (∀ id, (actAll 1 (start 1) (failedTwice ++ [.work 0 (.step 3000000000),
      .work 0 (.step 3000000000)])).shared.cancels id = none) ∧
    (actAll 1 (start 1)
      (failedTwice ++ [.work 0 (.step 3000000000), .work 0 (.step 3000000000)])).shared.ctxs.length = 2 :=
  ⟨((no_leak (run_trace .nil _)).2.2 (by decide +kernel)).1, by decide +kernel⟩

/-! ## The entry of a run -/

/-- The step of a worker that, leaving an attempt of the job, deletes an entry while another run of the job goes on. -/
def Stray (id : String) (c : Nat) (x : Step Sys Action) : Prop :=
  ∃ v wa job ctx w job', x.label = .work v wa ∧ x.src.workers[v]? = some (.leaving job ctx) ∧ job.id = id ∧
    w ≠ v ∧ x.src.run w = some (job', c)

/-- Every run that has not come to its deferred function is found in the map, or has lost its entry to a stray. -/
def Found (tr : List (Step Sys Action)) (σ : Sys) : Prop :=
  ∀ (w : Nat) (pc : Worker) (job : Job) (c : Nat), σ.workers[w]? = some pc → pc.run = some (job, c) →
    pc.role job.id ≠ none → σ.shared.cancels job.id = some c ∨ ∃ x ∈ tr, Stray job.id c x

/-- Nobody else owns a job that a worker executes. -/
theorem Inv.one_worker (hI : σ.Inv) {w v : Nat} {pc pc' : Worker} {id : String} (hw : σ.workers[w]? = some pc)
    (hv : σ.workers[v]? = some pc') (hne : w ≠ v) (hrole : pc'.role id = some .executing) :
    pc.role id = none := by
  have hone := allowedOwners.executing (hI.owned id) (owners_pos_of_worker hv hrole)
  cases hq : pc.role id with
  | none => rfl
  | some q =>
    have hpos : 0 < σ.owners id q := owners_pos_of_worker hw hq
    simp only [view] at hone
    cases q with
    | waiting => omega
    | failing => omega
    | executing =>
      -- both would be counted
      have hset := holders_set hw .idle id .executing
      have hother : 0 < holders (σ.workers.set w .idle) id .executing :=
        holders_pos (by rw [List.getElem?_set_ne hne]; exact hv) hrole
      have hidle : (decide (Worker.idle.role id = some .executing)).toNat = 0 := rfl
      have hcount : σ.owners id .executing = holders σ.workers id .executing +
        (decide (σ.sched.role id = some .executing)).toNat := by simp [owners]
      simp [hq, hidle] at hset
      omega

/-- A worker is where it was, has received, or has taken a step. -/
theorem Next.worker_before (h : σ.Next cap a σ') {w : Nat} {pc' : Worker} (hw : σ'.workers[w]? = some pc') :
    σ.workers[w]? = some pc' ∨ (∃ job, pc' = .fetched job) ∨
      ∃ b pc, a = .work w b ∧ σ.workers[w]? = some pc ∧ pc.act σ.shared b = some (pc', σ'.shared) := by
  have hset {v : Nat} {pc : Worker} (hset : (σ.workers.set v pc)[w]? = some pc') :
      σ.workers[w]? = some pc' ∨ v = w ∧ pc' = pc := by
    rw [List.getElem?_set] at hset
    split at hset
    · next hv =>
      split at hset
      · exact .inr ⟨hv, (Option.some.inj hset).symm⟩
      · cases hset
    · exact .inl hset
  cases h.acted with
  | @work v b pc pc₁ sh hv hact =>
    rcases hset hw with hsame | ⟨rfl, rfl⟩
    · exact .inl hsame
    · exact .inr (.inr ⟨b, pc, rfl, hv, hact⟩)
  | receive | handoff =>
    rcases hset hw with hsame | ⟨rfl, rfl⟩
    · exact .inl hsame
    · exact .inr (.inl ⟨_, rfl⟩)
  | schedule | deadline | submit | delete | request => exact .inl hw

/-- The runs whose worker has not come to its deferred function own their job. -/
theorem Worker.role_of_run {pc : Worker} {job : Job} {c : Nat} (h : pc.run = some (job, c)) :
    pc.role job.id = some .executing ∨ pc.role job.id = some .failing ∨ pc = .leaving job c := by
  cases pc <;> cases h <;> simp [Worker.role]

theorem Found.step (h : Found tr x.src) (hI : x.src.Inv) (hn : x.src.Next cap x.label x.dst) :
    Found (tr ++ [x]) x.dst := by
  have hlater {id : String} {c : Nat} (hs : ∃ y ∈ tr, Stray id c y) : ∃ y ∈ tr ++ [x], Stray id c y := by
    obtain ⟨y, hy, hstray⟩ := hs
    exact ⟨y, List.mem_append_left _ hy, hstray⟩
  intro w pc' job c hw hrun hrole
  rcases hn.worker_before hw with hsame | ⟨job', rfl⟩ | ⟨b, pc, hlabel, hpc, hact⟩
  · -- the run goes on; what happens to its entry is another worker's doing
    rcases h w pc' job c hsame hrun hrole with hentry | hstray
    · cases hn.mapStep with
      | keep hmap => exact .inl (by rw [hmap]; exact hentry)
      | @store v job' wa _ hv hmap =>
        have hne : w ≠ v := by
          rintro rfl
          cases hsame.symm.trans hv
          cases hrun
        have hid : job.id ≠ job'.id := fun hid =>
          hrole (hI.one_worker hsame hv hne (by rw [hid]; exact holding_self job' _))
        rw [hmap, Function.update_of_ne hid]
        exact .inl hentry
      | @delete v ctx job' wa hlabel hv hmap =>
        by_cases hid : job.id = job'.id
        · refine .inr ⟨x, List.mem_append_right _ (List.mem_singleton_self x), v, wa, job', ctx, w, job, hlabel, hv,
            hid.symm, ?_, by rw [run, hsame]; exact hrun⟩
          rintro rfl
          cases hsame.symm.trans hv
          exact hrole rfl
        · rw [hmap, Function.update_of_ne hid]
          exact .inl hentry
    · exact .inr (hlater hstray)
  · cases hrun
  · cases Worker.act_map hact with
    | keep hmap hkeep =>
      have hrun₀ : pc.run = some (job, c) := hkeep ▸ hrun
      have hrole₀ : pc.role job.id ≠ none := by
        rcases Worker.role_of_run hrun₀ with hr | hr | rfl
        · rw [hr]; exact Option.some_ne_none _
        · rw [hr]; exact Option.some_ne_none _
        · cases b with
          | step now =>
            simp only [Worker.act, Option.some.injEq, Prod.mk.injEq] at hact
            obtain ⟨rfl, -⟩ := hact
            cases hrun
          | _ => cases hact
      rcases h w pc job c hpc hrun₀ hrole₀ with hentry | hstray
      · exact .inl (by rw [hmap]; exact hentry)
      · exact .inr (hlater hstray)
    | store job' hmap =>
      cases hrun
      exact .inl (by rw [hmap, Function.update_self])
    | delete => cases hrun

/-- **A run is found under its job's ID** from the start of its subprocess to its deferred function, unless a worker
that was late with the `Delete` of an earlier attempt has taken its entry away. -/
theorem registered_unless_stray (h : Run (Next cap) (start n) tr σ) {w : Nat} {pc : Worker} {job : Job} {c : Nat}
    (hw : σ.workers[w]? = some pc) (hrun : pc.run = some (job, c)) (hrole : pc.role job.id ≠ none) :
    σ.shared.cancels job.id = some c ∨ ∃ x ∈ tr, Stray job.id c x := by
  refine (Run.inv_hist (fun tr σ => σ.Inv ∧ Found tr σ) (fun _ => True)
    (fun tr x hn _ hI => ⟨hI.1.next hn, hI.2.step hI.1 hn⟩) ⟨inv_start n, fun w pc job c hw hrun => ?_⟩ h
    fun _ _ => trivial).2 w pc job c hw hrun hrole
  rw [(List.mem_replicate.mp (List.mem_of_getElem? hw)).2] at hrun
  cases hrun

theorem registered_unless_stray_executing : (actAll 1 (start 2) (failedOnce.take 9)).workers[0]? =
      some (.executing (newJob flaky "job_000000" 0) 0) ∧
    ((actAll 1 (start 2) (failedOnce.take 9)).shared.cancels "job_000000" = some 0 ∨
      ∃ x ∈ trace 1 (start 2) (failedOnce.take 9), Stray "job_000000" 0 x) := by
  have hworker : (actAll 1 (start 2) (failedOnce.take 9)).workers[0]? =
      some (.executing (newJob flaky "job_000000" 0) 0) := by decide +kernel
  exact ⟨hworker, registered_unless_stray (run_trace .nil (failedOnce.take 9)) hworker rfl (by decide +kernel)⟩

/-- The second attempt is being executed when the worker of the first one comes to its `Delete`. -/
def lateDelete : List Action :=
  failedOnce ++ ([.work 0 (.step 2),
    .schedule (.list
      [{ newJob flaky "job_000000" 0 with retryCount := 1, runAfter := 2000000002, errorMessage := "exit status 1" }]
      3000000000),
    .schedule (.queue 3000000000), .schedule .send, .receive 1, .work 1 (.step 3000000000),
    .work 1 (.step 3000000000), .work 1 .spawn, .work 0 (.step 3000000000)] : List Action)

/-- The exception is real: the second attempt is executed, and its cancel function is gone. -/
theorem entry_lost_to_stray : ∃ tr σ job, Run (Next 1) (start 2) tr σ ∧ σ.workers[1]? = some (.executing job 1) ∧
    job.id = "job_000000" ∧ σ.shared.cancels "job_000000" = none := by
  refine ⟨_, _, { newJob flaky "job_000000" 0 with
    retryCount := 1, runAfter := 2000000002, errorMessage := "exit status 1" }, run_trace .nil lateDelete, ?_, rfl, ?_⟩
  · decide +kernel
  · decide +kernel

end Sys

end Orchestrator
