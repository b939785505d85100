import InfraPlatform.Orchestrator.HardGate
import InfraPlatform.Orchestrator.Shutdown

/-!
# Where a job comes from

The scheduler, the queue and the workers pass copies of a job on, while the stored one changes its state, is
retried and cancelled.  What a worker executes is its copy.

* `Job.original`: the job as it was submitted, which no write to a stored job touches.
* `Faithful`: a copy differs from the stored job in no more than what the writes touch.
* `submission_kept`: whoever holds a job holds the one that `SubmitJob` made of one accepted body, under an ID
  that was given once.
-/

namespace Orchestrator

open Lib
open ControlPlane (Time)

/-! ## What no write changes -/

def Job.original (j : Job) : Job :=
  { j with
    state := .pending, retryCount := 0, runAfter := 0, startedAt := none, finishedAt := none, output := ""
    errorMessage := "" }

theorem Written.original {j j' : Job} (h : Written (some j) (some j')) : j'.original = j.original := by
  cases h <;> rfl

theorem Scheduler.act_pass {cap : Nat} {sh sh' : Shared} {pc pc' : Scheduler} {a : SchedAct}
    (h : pc.act cap sh a = some (pc', sh')) :
    (∀ j ∈ pc'.pass, j ∈ pc.pass ∨ sh.store.find j.id = some j) ∧ ∀ j ∈ sh'.queue, j ∈ sh.queue ∨ j ∈ pc.pass := by
  unfold Scheduler.act at h
  split at h
  case h_1 rows now =>
    split at h
    · next hperm =>
      cases h
      refine ⟨fun j hj => .inr ?_, fun j hj => .inl hj⟩
      have hrow : j ∈ rows := (List.mem_filter.mp ((List.perm_insertionSort _ _).mem_iff.mp hj)).1
      exact Table.get_of_mem (List.mem_filter.mp (hperm.mem_iff.mp hrow)).1
    · cases h
  case h_2 j rest now =>
    split at h <;> cases h
    · exact ⟨fun i hi => .inl (List.mem_cons_of_mem _ hi), fun i hi => .inl hi⟩
    · exact ⟨fun i hi => .inl hi, fun i hi => .inl hi⟩
  case h_3 j rest =>
    split at h <;> cases h
    refine ⟨fun i hi => .inl (List.mem_cons_of_mem _ hi), fun i hi => ?_⟩
    rcases List.mem_append.mp hi with hi | hi
    · exact .inl hi
    · exact .inr (List.mem_cons.mpr (.inl (List.mem_singleton.mp hi)))
  case h_4 j rest =>
    split at h <;> cases h
    exact ⟨fun i hi => .inl hi, fun i hi => .inl hi⟩
  case h_5 j rest now =>
    cases h
    exact ⟨fun i hi => .inl (List.mem_cons_of_mem _ hi), fun i hi => .inl hi⟩
  case h_6 => cases h

/-- A worker keeps the job it has until it has none. -/
theorem Worker.act_job {sh sh' : Shared} {pc pc' : Worker} {a : WorkerAct} (h : pc.act sh a = some (pc', sh'))
    {job : Job} (hjob : pc'.job = some job) : pc.job = some job := by
  unfold Worker.act at h
  repeat' split at h
  all_goals cases h
  all_goals first | exact hjob | cases hjob

/-- A request that makes a job is a `SubmitJob` with an ID to try. -/
theorem Request.act_created {sh sh' : Shared} {pc pc' : Request} {a : RequestAct} (h : pc.act sh a = some (pc', sh'))
    {id : String} {j : Job} (hnone : sh.store.find id = none) (hj : sh'.store.find id = some j) :
    ∃ req left now b, pc = .submitting req (left + 1) ∧ a = .step now (some b) ∧ idOf b = id ∧
      j = newJob req id now := by
  have hsame (hstore : sh'.store = sh.store) : False := by
    rw [hstore, hnone] at hj
    cases hj
  unfold Request.act at h
  split at h
  case h_2 req left now rand =>
    split at h
    · cases h; exact (hsame rfl).elim
    · next b =>
      split at h
      · next st hc =>
        cases h
        unfold Store.create at hc
        split at hc <;> cases hc
        change (sh.store.put _).find id = some j at hj
        rw [Store.find_put] at hj
        split at hj
        · next hid =>
          cases hj
          exact ⟨req, left, now, b, rfl, rfl, hid.symm, by rw [hid]; rfl⟩
        · rw [hnone] at hj
          cases hj
      · cases h; exact (hsame rfl).elim
  case h_9 k now rand =>
    split at h
    · cases h; exact (hsame rfl).elim
    · next st hc =>
      cases h
      have hk : k ≠ id := by
        rintro rfl
        rw [Store.transition_none hnone] at hc
        cases hc
      have hfind := Store.find_transition_ne sh.store hk.symm .cancelled "cancelled by user" now
      rw [hc] at hfind
      rw [show (st : Store).find id = some j from hj] at hfind
      rw [hnone] at hfind
      cases hfind
  all_goals
    repeat' split at h
    all_goals cases h
    all_goals exact (hsame rfl).elim

theorem Request.act_submitting {sh sh' : Shared} {pc : Request} {a : RequestAct} {req : SubmitJobRequest} {left : Nat}
    (h : pc.act sh a = some (.submitting req left, sh')) : pc = .submitting req (left + 1) := by
  unfold Request.act at h
  split at h
  case h_4 id _ _ =>
    split at h
    · cases h
    · next job _ =>
      have hpc : cancelJob id job = .submitting req left := congrArg Prod.fst (Option.some.inj h)
      unfold cancelJob at hpc
      split at hpc <;> cases hpc
  all_goals
    repeat' split at h
    all_goals cases h
    all_goals rfl

theorem submitJob_submitting {body : Option SubmitJobRequest} {req : SubmitJobRequest} {left : Nat}
    (h : submitJob body = .submitting req left) : body = some req ∧ req.name ≠ "" ∧ req.command ≠ "" := by
  unfold submitJob at h
  split at h
  · cases h
  · split at h
    · cases h
    · next hne =>
      cases h
      exact ⟨rfl, not_or.mp hne⟩

namespace Sys

variable {cap n : Nat} {σ σ' : Sys} {a : Action} {tr : List (Step Sys Action)} {x : Step Sys Action}

/-! ## Copies -/

/-- A copy of a stored job. -/
def Copy (σ : Sys) (job : Job) : Prop := ∃ j, σ.job job.id = some j ∧ job.original = j.original

theorem Copy.next {job : Job} (hc : σ.Copy job) (hI : σ.Inv) (h : σ.Next cap a σ') : σ'.Copy job := by
  obtain ⟨j, hj, horig⟩ := hc
  have hw := hI.written h job.id
  rw [hj] at hw
  obtain ⟨j', hj'⟩ := Option.ne_none_iff_exists'.mp (hw.stored (Option.some_ne_none j))
  rw [hj'] at hw
  exact ⟨j', hj', horig.trans hw.original.symm⟩

theorem copy_of_stored {job : Job} (h : σ.shared.store.find job.id = some job) : σ.Copy job := ⟨job, h, rfl⟩

/-- Who has a job in hand. -/
inductive Held (σ : Sys) (job : Job) : Prop where
  | stored : σ.job job.id = some job → Held σ job
  | pass : job ∈ σ.sched.pass → Held σ job
  | queue : job ∈ σ.shared.queue → Held σ job
  | worker {w : Nat} {pc : Worker} : σ.workers[w]? = some pc → pc.job = some job → Held σ job

/-- Everyone who has a job has a copy of the stored one. -/
def Faithful (σ : Sys) : Prop := ∀ job, Held σ job → σ.Copy job

/-- A job that is held after a step was held before it, or is stored. -/
theorem Next.held {job : Job} (h : σ.Next cap a σ') (hh : Held σ' job) :
    Held σ job ∨ σ.Copy job ∨ σ'.job job.id = some job := by
  have hset {w w' : Nat} {pc pc' : Worker} (hset : (σ.workers.set w' pc')[w]? = some pc) :
      σ.workers[w]? = some pc ∨ pc' = pc := by
    rw [List.getElem?_set] at hset
    split at hset
    · split at hset
      · exact .inr (Option.some.inj hset)
      · cases hset
    · exact .inl hset
  rcases hh with hst | hp | hq | ⟨hw, hjob⟩
  · exact .inr (.inr hst)
  · cases h.acted with
    | schedule hact =>
      rcases (Scheduler.act_pass hact).1 job hp with hp | hrow
      · exact .inl (.pass hp)
      · exact .inr (.inl (copy_of_stored hrow))
    | handoff _ hsched => exact .inl (.pass (by rw [hsched]; exact List.mem_cons_of_mem _ hp))
    | work | receive | deadline | submit | delete | request => exact .inl (.pass hp)
  · cases h.acted with
    | schedule hact =>
      rcases (Scheduler.act_pass hact).2 job hq with hq | hp
      · exact .inl (.queue hq)
      · exact .inl (.pass hp)
    | work _ hact => exact .inl (.queue (by rw [← Worker.act_queue hact]; exact hq))
    | receive _ hqueue => exact .inl (.queue (by rw [hqueue]; exact List.mem_cons_of_mem _ hq))
    | request _ hact => exact .inl (.queue (by rw [← Request.act_queue hact]; exact hq))
    | handoff | deadline | submit | delete => exact .inl (.queue hq)
  · cases h.acted with
    | work hw₀ hact =>
      rcases hset hw with hw | rfl
      · exact .inl (.worker hw hjob)
      · exact .inl (.worker hw₀ (Worker.act_job hact hjob))
    | receive _ hqueue =>
      rcases hset hw with hw | rfl
      · exact .inl (.worker hw hjob)
      · cases hjob
        exact .inl (.queue (by rw [hqueue]; exact List.mem_cons_self))
    | handoff _ hsched =>
      rcases hset hw with hw | rfl
      · exact .inl (.worker hw hjob)
      · cases hjob
        exact .inl (.pass (by rw [hsched]; exact List.mem_cons_self))
    | schedule | deadline | submit | delete | request => exact .inl (.worker hw hjob)

theorem Faithful.next (hf : σ.Faithful) (hI : σ.Inv) (h : σ.Next cap a σ') : σ'.Faithful := by
  intro job hh
  rcases h.held hh with hh | hc | hst
  · exact (hf job hh).next hI h
  · exact hc.next hI h
  · exact copy_of_stored hst

theorem faithful_start (n : Nat) : (start n).Faithful := by
  intro job hh
  rcases hh with hst | hp | hq | ⟨hw, hjob⟩
  · exact copy_of_stored hst
  · cases hp
  · cases hq
  · obtain rfl := (List.mem_replicate.mp (List.mem_of_getElem? hw)).2
    cases hjob

theorem reached_faithful (h : Run (Next cap) (start n) tr σ) : σ.Faithful :=
  (Run.inv (fun σ => σ.Inv ∧ σ.Faithful) (fun _ => True) (fun _ hn _ hI => ⟨hI.1.next hn, hI.2.next hI.1 hn⟩)
    ⟨inv_start n, faithful_start n⟩ h fun _ _ => trivial).2

/-! ## Submissions -/

/-- The step stores the first job under `id`. -/
def creates (id : String) (x : Step Sys Action) : Bool := (x.src.job id).isNone && (x.dst.job id).isSome

/-- It is the step of a `SubmitJob` with the body `req`, at the reading `now`. -/
def CreatedFrom (id : String) (req : SubmitJobRequest) (now : Time) (x : Step Sys Action) : Prop :=
  x.src.job id = none ∧ ∃ i b left, x.label = .request i (.step now (some b)) ∧ idOf b = id ∧
    x.src.requests[i]? = some (.submitting req (left + 1))

/-- The body came with a `POST` and passed the checks. -/
structure Accepted (tr : List (Step Sys Action)) (req : SubmitJobRequest) : Prop where
  posted : ∃ y ∈ tr, y.label = .submit (some req)
  name : req.name ≠ ""
  command : req.command ≠ ""

theorem Accepted.snoc {req : SubmitJobRequest} (h : Accepted tr req) : Accepted (tr ++ [x]) req := by
  obtain ⟨y, hy, hlabel⟩ := h.posted
  exact ⟨⟨y, List.mem_append_left _ hy, hlabel⟩, h.name, h.command⟩

/-- A new job is made by a `SubmitJob`. -/
theorem Next.created (hI : σ.Inv) (h : σ.Next cap a σ') {id : String} {j : Job} (hnone : σ.job id = none)
    (hj : σ'.job id = some j) : ∃ req now, CreatedFrom id req now ⟨σ, a, σ'⟩ ∧ j = newJob req id now := by
  -- nobody but a handler takes a turn that makes a job
  have hactor : a.actor = .handler := by
    obtain ⟨r, r', hturn, -⟩ := hI.moves h id
    simp only [view, hnone, hj] at hturn
    generalize a.actor = who at hturn
    cases hturn
    rfl
  cases h.acted with
  | schedule | work | receive | handoff => cases hactor
  | deadline | submit | delete => exact absurd (hj.symm.trans hnone) (Option.some_ne_none j)
  | @request i act pc pc' sh hi hact =>
    obtain ⟨req, left, now, b, rfl, rfl, hid, rfl⟩ := Request.act_created hact hnone hj
    exact ⟨req, now, ⟨hnone, i, b, left, rfl, hid, hi⟩, rfl⟩

/-- A request that is still trying IDs has an accepted body. -/
def Checked (tr : List (Step Sys Action)) (σ : Sys) : Prop :=
  ∀ req left, Request.submitting req left ∈ σ.requests → Accepted tr req

theorem Checked.step (h : Checked tr x.src) (hn : x.src.Next cap x.label x.dst) : Checked (tr ++ [x]) x.dst := by
  intro req left hreq
  obtain ⟨σ, a, σ'⟩ := x
  change σ.Next cap a σ' at hn
  change Checked tr σ at h
  cases hn.acted with
  | submit body =>
    rcases List.mem_append.mp hreq with hreq | hreq
    · exact (h req left hreq).snoc
    · obtain ⟨rfl, hname, hcommand⟩ := submitJob_submitting (List.mem_singleton.mp hreq).symm
      exact ⟨⟨_, List.mem_append_right _ (List.mem_singleton_self _), rfl⟩, hname, hcommand⟩
  | delete id =>
    rcases List.mem_append.mp hreq with hreq | hreq
    · exact (h req left hreq).snoc
    · cases List.mem_singleton.mp hreq
  | request hi hact =>
    rcases List.mem_or_eq_of_mem_set hreq with hreq | rfl
    · exact (h req left hreq).snoc
    · rw [Request.act_submitting hact] at hi
      exact (h req (left + 1) (List.mem_of_getElem? hi)).snoc
  | schedule | work | receive | handoff | deadline => exact (h req left hreq).snoc

/-- Where the stored jobs come from, and how often an ID was given. -/
structure Recorded (tr : List (Step Sys Action)) (σ : Sys) : Prop where
  inv : σ.Inv
  checked : Checked tr σ
  source : ∀ id j, σ.job id = some j → ∃ x ∈ tr, ∃ req now, CreatedFrom id req now x ∧ Accepted tr req ∧
    j.original = newJob req id now
  once : ∀ id, tr.countP (creates id) = (σ.job id).isSome.toNat

theorem Recorded.step (h : Recorded tr x.src) (hn : x.src.Next cap x.label x.dst) : Recorded (tr ++ [x]) x.dst where
  inv := h.inv.next hn
  checked := h.checked.step hn
  source id j hj := by
    cases hold : x.src.job id with
    | none =>
      obtain ⟨req, now, hfrom, rfl⟩ := hn.created h.inv hold hj
      have hacc : Accepted tr req := by
        obtain ⟨-, i, b, left, -, -, hi⟩ := hfrom
        exact h.checked req (left + 1) (List.mem_of_getElem? hi)
      exact ⟨x, List.mem_append_right _ (List.mem_singleton_self _), req, now, hfrom, hacc.snoc, rfl⟩
    | some j₀ =>
      obtain ⟨y, hy, req, now, hfrom, hacc, horig⟩ := h.source id j₀ hold
      have hw := h.inv.written hn id
      rw [hold, hj] at hw
      exact ⟨y, List.mem_append_left _ hy, req, now, hfrom, hacc.snoc, hw.original.trans horig⟩
  once id := by
    have hw := h.inv.written hn id
    rw [Run.countP_snoc, h.once id, creates]
    cases hold : x.src.job id with
    | none => simp
    | some j₀ =>
      rw [hold] at hw
      obtain ⟨j, hj⟩ := Option.ne_none_iff_exists'.mp (hw.stored (Option.some_ne_none j₀))
      simp [hj]

theorem recorded_of_run (h : Run (Next cap) (start n) tr σ) : Recorded tr σ :=
  Run.inv_hist Recorded (fun _ => True) (fun _ _ hn _ hr => hr.step hn)
    ⟨inv_start n, (fun _ _ hreq => by cases hreq), (fun _ _ hj => by cases hj), fun _ => rfl⟩ h fun _ _ => trivial

/-- **Whoever holds a job holds what was submitted.**  The stored job, the scheduler's listing, the queue and the
workers have, up to state, retries, times, output and error, the job that `SubmitJob` made of one body, which was
posted and passed the checks; the job's ID was given to that job and to no other. -/
theorem submission_kept (h : Run (Next cap) (start n) tr σ) {job : Job} (hheld : Held σ job) :
    tr.countP (creates job.id) = 1 ∧
      ∃ x ∈ tr, ∃ req now, CreatedFrom job.id req now x ∧ Accepted tr req ∧ job.original = newJob req job.id now := by
  obtain ⟨j, hj, horig⟩ := reached_faithful h job hheld
  have hrec := recorded_of_run h
  obtain ⟨x, hx, req, now, hfrom, hacc, hmade⟩ := hrec.source job.id j hj
  refine ⟨?_, x, hx, req, now, hfrom, hacc, horig.trans hmade⟩
  rw [hrec.once, hj]
  rfl

/-- The second attempt of a job is being executed. -/
def secondAttempt : List Action := failedTwice.take 25

theorem submission_kept_retried : ∃ job ctx,
    (actAll 1 (start 1) secondAttempt).workers[0]? = some (.executing job ctx) ∧ job.retryCount = 1 ∧
      (trace 1 (start 1) secondAttempt).countP (creates job.id) = 1 ∧
      ∃ x ∈ trace 1 (start 1) secondAttempt, ∃ req now, CreatedFrom job.id req now x ∧
        Accepted (trace 1 (start 1) secondAttempt) req ∧ job.original = newJob req job.id now := by
  have hw : (actAll 1 (start 1) secondAttempt).workers[0]? = some (.executing
      { newJob flaky "job_000000" 0 with retryCount := 1, runAfter := 2000000002, errorMessage := "exit status 1" }
      1) := by decide +kernel
  exact ⟨_, _, hw, rfl, submission_kept (run_trace .nil _) (.worker hw rfl)⟩

end Sys

end Orchestrator
