import InfraPlatform.Orchestrator.Priority
import InfraPlatform.Orchestrator.Timestamps

/-!
# `RunAfter` is a hard gate

A retry is not started before its backoff is over.  `scheduleReady` looks at `RunAfter` once, when it lists the
`PENDING` jobs; the dispatch, the receive and the write of `RUNNING` come later and do not look again.  In between the
job may be cancelled, but it cannot be retried a second time: it would have to be dispatched for that, and the
scheduler dispatches each job of a pass once.

* `Gated`: the invariant.  The jobs that the pass has not reached were ready when it began, and so was
  every `QUEUED` job.
* `Sys.Next.retried`: what `failOrRetry` writes for another attempt, with the reading of its step.
* `backoff_honoured`: the `StartedAt` of attempt `k + 1` is later than the reading of retry `k` plus `backoff k`.
-/

namespace Orchestrator

open Lib
open ControlPlane (Time)
open ControlPlane.Reconciler (backoff)

/-- The jobs of the pass that are not done with. -/
def Scheduler.pass : Scheduler → List Job
  | .loop rest => rest
  | .sending j rest | .reverting j rest => j :: rest

/-- A job that the pass has not reached: ready at the reading of the pass, or cancelled since. -/
def Job.Listed (now : Time) (j : Job) : Prop := j.state = .pending ∧ isReady now j = true ∨ j.state = .cancelled

theorem isReady_congr {j j' : Job} (h : j'.runAfter = j.runAfter) (now : Time) : isReady now j' = isReady now j := by
  unfold isReady
  rw [h]

/-! ## What the others do to a job of the pass -/

/-- A job of the pass can only be cancelled. -/
theorem Job.Listed.tried {now : Time} {j : Job} (h : j.Listed now) {dest : State} (hd : dest ≠ .queued) (msg : String)
    (t : Time) : (Store.tried j dest msg t).Listed now := by
  by_cases ht : transition j.state dest = true
  · rw [Store.tried_of ht]
    have hcancel : dest = .cancelled := by
      rcases h with ⟨hs, -⟩ | hs <;> rw [hs] at ht <;> cases dest <;> first | rfl | exact absurd rfl hd | cases ht
    exact .inr hcancel
  · rw [Store.tried_not (by simpa using ht)]
    exact h

theorem View.Move.listed {who : Actor} {v v' : View} (hm : v.Move who v') (ho : v.Owned) (hwho : who ≠ .scheduler)
    {now : Time} {j : Job} (hj : v.job = some j) (h : j.Listed now) : ∃ j', v'.job = some j' ∧ j'.Listed now := by
  obtain ⟨r, r', hturn, hpos, -⟩ := hm
  have hfailed (hr : r = some .failing) : j.state = .failed := by
    obtain ⟨i, hi, hs, -⟩ := ho.failed (hpos .failing hr)
    rw [hi] at hj
    cases hj
    exact hs
  rw [hj] at hturn
  generalize v'.job = job' at hturn
  cases hturn with
  | same | drop | lose => exact ⟨j, rfl, h⟩
  | enqueue | revert => exact absurd rfl hwho
  | claim _ t hs => rcases h with ⟨hp, -⟩ | hp <;> rw [hs] at hp <;> cases hp
  | output => exact ⟨_, rfl, h⟩
  | finish _ dest msg t hd => exact ⟨_, rfl, h.tried (by rcases hd with rfl | rfl <;> simp) msg t⟩
  | fail _ msg t hs => rcases h with ⟨hp, -⟩ | hp <;> rw [hs] at hp <;> cases hp
  | retry =>
    have hs := hfailed rfl
    rcases h with ⟨hp, -⟩ | hp <;> rw [hs] at hp <;> cases hp
  | exhaust _ t => exact ⟨_, rfl, h.tried (by simp) "" t⟩
  | cancel _ msg t => exact ⟨_, rfl, h.tried (by simp) msg t⟩

theorem Store.tried_queued {j : Job} {dest : State} {msg : String} {t : Time} (hd : dest ≠ .queued)
    (h : (Store.tried j dest msg t).state = .queued) : Store.tried j dest msg t = j := by
  by_cases ht : Orchestrator.transition j.state dest = true
  · rw [Store.tried_of ht] at h
    exact absurd h hd
  · exact Store.tried_not (by simpa using ht) msg t

/-- Only the scheduler makes a job `QUEUED`. -/
theorem View.Move.queued {who : Actor} {v v' : View} (hm : v.Move who v') (hwho : who ≠ .scheduler) {j' : Job}
    (hj' : v'.job = some j') (hs : j'.state = .queued) :
    ∃ j, v.job = some j ∧ j.state = .queued ∧ j.runAfter = j'.runAfter := by
  obtain ⟨r, r', hturn, -, -⟩ := hm
  rw [hj'] at hturn
  generalize v.job = job at hturn
  cases hturn with
  | same | drop | lose => exact ⟨_, rfl, hs, rfl⟩
  | submit _ hp => rw [hs] at hp; cases hp
  | enqueue | revert => exact absurd rfl hwho
  | output j o => exact ⟨j, rfl, hs, rfl⟩
  | finish j dest msg t hd =>
    have hsame := Store.tried_queued (by rcases hd with rfl | rfl <;> simp) hs
    rw [hsame] at hs ⊢
    exact ⟨j, rfl, hs, rfl⟩
  | exhaust j t =>
    have hsame := Store.tried_queued (by simp) hs
    rw [hsame] at hs ⊢
    exact ⟨j, rfl, hs, rfl⟩
  | cancel j msg t =>
    have hsame := Store.tried_queued (by simp) hs
    rw [hsame] at hs ⊢
    exact ⟨j, rfl, hs, rfl⟩
  | claim | fail | retry => cases hs

/-! ## The invariant -/

namespace Sys

variable {cap n : Nat} {σ σ' : Sys} {a : Action} {tr : List (Step Sys Action)} {x : Step Sys Action}

structure Gated (tr : List (Step Sys Action)) (σ : Sys) : Prop where
  inv : σ.Inv
  nodup : (σ.sched.pass.map Job.id).Nodup
  listed : σ.sched.untried = [] ∨ ∃ now ∈ readings tr, ∀ r ∈ σ.sched.untried, ∃ j, σ.job r.id = some j ∧ j.Listed now
  queued : ∀ id j, σ.job id = some j → j.state = .queued → ∃ now ∈ readings tr, isReady now j = true

theorem Gated.start (n : Nat) : Gated [] (start n) where
  inv := inv_start n
  nodup := List.nodup_nil
  listed := .inl rfl
  queued id j hj := by cases hj

theorem Next.actor_sched (h : σ.Next cap a σ') (ha : ∀ b, a ≠ .schedule b) : a.actor ≠ .scheduler := by
  cases h.acted with
  | schedule => exact absurd rfl (ha _)
  | work | receive | handoff | deadline | submit | delete | request => simp [Action.actor]

theorem Next.sched_or (h : σ.Next cap a σ') (ha : ∀ b, a ≠ .schedule b) :
    σ'.sched = σ.sched ∨ ∃ j rest, σ.sched = .sending j rest ∧ σ'.sched = .loop rest := by
  cases h.acted with
  | schedule => exact absurd rfl (ha _)
  | handoff _ hs => exact .inr ⟨_, _, hs, rfl⟩
  | work | receive | deadline | submit | delete | request => exact .inl rfl

/-- A step of the scheduler that leaves the store alone and goes on with the pass. -/
theorem Gated.go_on (h : Gated tr x.src) (hn : x.src.Next cap x.label x.dst)
    (hstore : x.dst.shared.store = x.src.shared.store) (hpass : x.dst.sched.pass.Sublist x.src.sched.pass)
    (huntried : ∀ r ∈ x.dst.sched.untried, r ∈ x.src.sched.untried) : Gated (tr ++ [x]) x.dst where
  inv := h.inv.next hn
  nodup := (hpass.map Job.id).nodup h.nodup
  listed := by
    rcases h.listed with hnil | ⟨now, hnow, hlisted⟩
    · refine .inl (List.eq_nil_iff_forall_not_mem.mpr fun r hr => ?_)
      have hmem := huntried r hr
      rw [hnil] at hmem
      cases hmem
    · refine .inr ⟨now, mem_readings_snoc.mpr (.inl hnow), fun r hr => ?_⟩
      unfold job
      rw [hstore]
      exact hlisted r (huntried r hr)
  queued id j hj hs := by
    unfold job at hj
    rw [hstore] at hj
    obtain ⟨now, hnow, hready⟩ := h.queued id j hj hs
    exact ⟨now, mem_readings_snoc.mpr (.inl hnow), hready⟩

/-- A step of the scheduler that writes the job it is at. -/
theorem Gated.write {r : Job} {rest : List Job} {dest : State} {now : Time} (h : Gated tr x.src)
    (hn : x.src.Next cap x.label x.dst) (hnodup : (r.id :: rest.map Job.id).Nodup)
    (hsrc : x.src.sched.untried = rest ∨ x.src.sched.untried = r :: rest)
    (hstore : x.dst.shared.store = (x.src.shared.store.transition r.id dest "" now).2)
    (hpass : x.dst.sched.pass.Sublist (r :: rest)) (huntried : x.dst.sched.untried = rest)
    (hqueued : ∀ j, x.dst.job r.id = some j → j.state = .queued → ∃ now ∈ readings tr, isReady now j = true) :
    Gated (tr ++ [x]) x.dst where
  inv := h.inv.next hn
  nodup := (hpass.map Job.id).nodup hnodup
  listed := by
    have hsub : ∀ k ∈ rest, k ∈ x.src.sched.untried := by
      intro k hk
      rcases hsrc with hsrc | hsrc <;> rw [hsrc]
      · exact hk
      · exact List.mem_cons_of_mem r hk
    rcases h.listed with hnil | ⟨now, hnow, hlisted⟩
    · refine .inl (List.eq_nil_iff_forall_not_mem.mpr fun k hk => ?_)
      have hmem := hsub k (huntried ▸ hk)
      rw [hnil] at hmem
      cases hmem
    · refine .inr ⟨now, mem_readings_snoc.mpr (.inl hnow), fun k hk => ?_⟩
      rw [huntried] at hk
      have hne : k.id ≠ r.id := fun heq => (List.nodup_cons.mp hnodup).1 (heq ▸ List.mem_map_of_mem hk)
      unfold job
      rw [hstore, Store.find_transition_ne _ hne]
      exact hlisted k (hsub k hk)
  queued id j hj hs := by
    by_cases hid : id = r.id
    · subst hid
      obtain ⟨now, hnow, hready⟩ := hqueued j hj hs
      exact ⟨now, mem_readings_snoc.mpr (.inl hnow), hready⟩
    · unfold job at hj
      rw [hstore, Store.find_transition_ne _ hid] at hj
      obtain ⟨now, hnow, hready⟩ := h.queued id j hj hs
      exact ⟨now, mem_readings_snoc.mpr (.inl hnow), hready⟩

/-- The job that the loop has reached is written `QUEUED` only if it was ready when the pass began. -/
theorem Gated.dispatch {r : Job} {rest : List Job} {now : Time} (h : Gated tr σ)
    (hsched : σ.sched = .loop (r :: rest)) {j : Job}
    (hj : (σ.shared.store.transition r.id .queued "" now).2.find r.id = some j) (hs : j.state = .queued) :
    ∃ now ∈ readings tr, isReady now j = true := by
  cases hfind : σ.shared.store.find r.id with
  | none =>
    rw [Store.transition_none hfind, hfind] at hj
    cases hj
  | some i =>
    rw [Store.find_transition hfind, if_pos rfl] at hj
    obtain rfl := Option.some.inj hj
    rcases h.listed with hnil | ⟨p, hp, hlisted⟩
    · rw [hsched] at hnil
      cases hnil
    · obtain ⟨i', hi', hl⟩ := hlisted r (by rw [hsched]; exact List.mem_cons_self)
      obtain rfl : i' = i := Option.some.inj (hi'.symm.trans hfind)
      rcases hl with ⟨hpending, hready⟩ | hcancelled
      · rw [Store.tried_of (by rw [hpending]; rfl)]
        exact ⟨p, hp, hready⟩
      · rw [Store.tried_not (by rw [hcancelled]; rfl), hcancelled] at hs
        cases hs

/-- A pass begins. -/
theorem Gated.list {rows : List Job} {now : Time} (h : Gated tr x.src) (hn : x.src.Next cap x.label x.dst)
    (hlabel : x.label = .schedule (.list rows now)) (hstore : x.dst.shared.store = x.src.shared.store)
    (hperm : rows.Perm (x.src.shared.store.listByState .pending))
    (hsched : x.dst.sched = .loop (sortReady (rows.filter (isReady now)))) : Gated (tr ++ [x]) x.dst where
  inv := h.inv.next hn
  nodup := by
    rw [hsched]
    have hsorted := ((sortReady_perm (rows.filter (isReady now))).map Job.id).nodup_iff
    have hrows : (rows.map Job.id).Nodup :=
      (hperm.map Job.id).nodup_iff.mpr ((List.filter_sublist.map Job.id).nodup x.src.shared.store.m.nodup)
    exact hsorted.mpr ((List.filter_sublist.map Job.id).nodup hrows)
  listed := by
    refine .inr ⟨now, mem_readings_snoc.mpr (.inr (by rw [hlabel]; rfl)), fun r hr => ?_⟩
    rw [hsched] at hr
    obtain ⟨hrow, hready⟩ := List.mem_filter.mp ((sortReady_perm _).mem_iff.mp hr)
    obtain ⟨hstored, hpending⟩ := List.mem_filter.mp (hperm.mem_iff.mp hrow)
    refine ⟨r, ?_, .inl ⟨by simpa using hpending, hready⟩⟩
    unfold job
    rw [hstore]
    exact Table.get_of_mem hstored
  queued id j hj hs := by
    unfold job at hj
    rw [hstore] at hj
    obtain ⟨p, hp, hready⟩ := h.queued id j hj hs
    exact ⟨p, mem_readings_snoc.mpr (.inl hp), hready⟩

/-- The scheduler's own steps. -/
theorem Gated.schedule {b : SchedAct} (h : Gated tr x.src) (hn : x.src.Next cap x.label x.dst)
    (hlabel : x.label = .schedule b)
    (hact : x.src.sched.act cap x.src.shared b = some (x.dst.sched, x.dst.shared)) : Gated (tr ++ [x]) x.dst := by
  have hnodup := h.nodup
  generalize hsrc : x.src.sched = pc at hact hnodup
  unfold Scheduler.act at hact
  split at hact
  case h_1 rows now =>
    split at hact
    · next hperm =>
      simp only [Option.some.injEq, Prod.mk.injEq] at hact
      exact h.list hn hlabel (by rw [← hact.2]) hperm hact.1.symm
    · cases hact
  case h_2 j rest now =>
    split at hact
    · simp only [Option.some.injEq, Prod.mk.injEq] at hact
      refine h.go_on hn (by rw [← hact.2]) ?_ fun r hr => ?_
      · rw [← hact.1, hsrc]
        exact List.sublist_cons_self j rest
      · rw [← hact.1] at hr
        rw [hsrc]
        exact List.mem_cons_of_mem j hr
    · next store hw =>
      simp only [Option.some.injEq, Prod.mk.injEq] at hact
      obtain ⟨hpc, hsh⟩ := hact
      have hstore : x.dst.shared.store = (x.src.shared.store.transition j.id .queued "" now).2 := by
        rw [← hsh, hw]
      refine h.write hn hnodup (.inr (by rw [hsrc]; rfl)) hstore (by rw [← hpc]; exact .refl _) (by rw [← hpc]; rfl)
        fun i hi hs => ?_
      unfold job at hi
      rw [hstore] at hi
      exact h.dispatch hsrc hi hs
  case h_3 j rest =>
    split at hact
    · simp only [Option.some.injEq, Prod.mk.injEq] at hact
      refine h.go_on hn (by rw [← hact.2]) ?_ fun r hr => ?_
      · rw [← hact.1, hsrc]
        exact List.sublist_cons_self j rest
      · rw [← hact.1] at hr
        rw [hsrc]
        exact hr
    · cases hact
  case h_4 j rest =>
    split at hact
    · simp only [Option.some.injEq, Prod.mk.injEq] at hact
      refine h.go_on hn (by rw [← hact.2]) ?_ fun r hr => ?_
      · rw [← hact.1, hsrc]
        exact .refl _
      · rw [← hact.1] at hr
        rw [hsrc]
        exact hr
    · cases hact
  case h_5 j rest now =>
    simp only [Option.some.injEq, Prod.mk.injEq] at hact
    obtain ⟨hpc, hsh⟩ := hact
    have hstore : x.dst.shared.store = (x.src.shared.store.transition j.id .pending "" now).2 := by
      rw [← hsh]
      rfl
    refine h.write hn hnodup (.inl (by rw [hsrc]; rfl)) hstore
      (by rw [← hpc]; exact List.sublist_cons_self j rest) (by rw [← hpc]; rfl) fun i hi hs => ?_
    -- a `QUEUED` job would have been taken back
    unfold job at hi
    rw [hstore] at hi
    cases hfind : x.src.shared.store.find j.id with
    | none =>
      rw [Store.transition_none hfind, hfind] at hi
      cases hi
    | some i₀ =>
      rw [Store.find_transition hfind, if_pos rfl] at hi
      obtain rfl := Option.some.inj hi
      have hsame := Store.tried_queued (by simp) hs
      rw [hsame] at hs
      rw [Store.tried_of (by rw [hs]; rfl)] at hsame
      have hstate : State.pending = i₀.state := congrArg Job.state hsame
      rw [hs] at hstate
      cases hstate
  case h_6 => cases hact

theorem Gated.step (h : Gated tr x.src) (hn : x.src.Next cap x.label x.dst) : Gated (tr ++ [x]) x.dst := by
  by_cases hsched : ∃ b, x.label = .schedule b
  · obtain ⟨b, hb⟩ := hsched
    rw [hb] at hn
    have hact := hn.schedule
    rw [← hb] at hn
    exact h.schedule hn hb hact
  · push Not at hsched
    have hwho := hn.actor_sched hsched
    have hpass := hn.sched_or hsched
    have huntried : x.dst.sched.untried = x.src.sched.untried := by
      rcases hpass with hsame | ⟨j, rest, hsrc, hdst⟩
      · rw [hsame]
      · rw [hsrc, hdst]
        rfl
    refine ⟨h.inv.next hn, ?_, ?_, fun id j' hj' hs => ?_⟩
    · rcases hpass with hsame | ⟨j, rest, hsrc, hdst⟩
      · rw [hsame]
        exact h.nodup
      · have hnodup := h.nodup
        rw [hsrc] at hnodup
        rw [hdst]
        exact (List.nodup_cons.mp hnodup).2
    · rw [huntried]
      rcases h.listed with hnil | ⟨now, hnow, hlisted⟩
      · exact .inl hnil
      · refine .inr ⟨now, mem_readings_snoc.mpr (.inl hnow), fun r hr => ?_⟩
        obtain ⟨j, hj, hl⟩ := hlisted r hr
        exact (h.inv.moves hn r.id).listed (h.inv.owned r.id) hwho hj hl
    · obtain ⟨j, hj, hsj, hrun⟩ := (h.inv.moves hn id).queued hwho hj' hs
      obtain ⟨now, hnow, hready⟩ := h.queued id j hj hsj
      exact ⟨now, mem_readings_snoc.mpr (.inl hnow), (isReady_congr hrun.symm now).trans hready⟩

end Sys

/-! ## Where `RunAfter` comes from -/

/-- The stored jobs keep their `RunAfter` and `RetryCount`. -/
def KeepsGate (st st' : Store) : Prop :=
  ∀ id j j', st.find id = some j → st'.find id = some j' → j'.runAfter = j.runAfter ∧ j'.retryCount = j.retryCount

theorem KeepsGate.refl (st : Store) : KeepsGate st st := by
  intro id j j' hj hj'
  rw [hj] at hj'
  cases hj'
  exact ⟨rfl, rfl⟩

/-- A write that keeps the two fields of its own row. -/
theorem KeepsGate.put {st : Store} {old new : Job} (h : st.find new.id = some old)
    (hrun : new.runAfter = old.runAfter) (hcount : new.retryCount = old.retryCount) : KeepsGate st (st.put new) := by
  intro id j j' hj hj'
  rw [Store.find_put] at hj'
  split at hj'
  · next hid =>
    subst hid
    rw [hj] at h
    cases h
    cases hj'
    exact ⟨hrun, hcount⟩
  · exact KeepsGate.refl st id j j' hj hj'

theorem KeepsGate.transition {st st' : Store} {id msg : String} {dest : State} {now : Time} {r : Res}
    (h : st.transition id dest msg now = (r, st')) : KeepsGate st st' := by
  cases hj : st.find id with
  | none =>
    rw [Store.transition_none hj] at h
    cases h
    exact .refl st
  | some j =>
    rcases Store.transition_cases hj dest msg now with ⟨-, hw⟩ | ⟨-, hw⟩ <;> rw [hw] at h <;> cases h
    · have hid : st.find (Store.moved j dest msg now).id = some j := (Store.id_of_find hj).symm ▸ hj
      exact .put hid rfl rfl
    · exact .refl st

theorem KeepsGate.setOutput (st : Store) (id output : String) : KeepsGate st (st.setOutput id output).2 := by
  unfold Store.setOutput
  split
  · exact .refl st
  · next j hj =>
    have hid : st.find { j with output }.id = some j := (Store.id_of_find hj).symm ▸ hj
    exact .put hid rfl rfl

theorem Scheduler.act_gate {cap : Nat} {sh sh' : Shared} {pc pc' : Scheduler} {a : SchedAct}
    (h : pc.act cap sh a = some (pc', sh')) : KeepsGate sh.store sh'.store := by
  unfold Scheduler.act at h
  repeat' (split at h)
  all_goals first
    | (cases h; done)
    | (cases h; exact .refl _)
    | (cases h; exact .transition (by assumption))
    | (cases h; exact .transition rfl)

theorem Request.act_gate {sh sh' : Shared} {pc pc' : Request} {a : RequestAct} (h : pc.act sh a = some (pc', sh')) :
    KeepsGate sh.store sh'.store := by
  cases Request.acts_of_act h with
  | quiet hstore _ =>
    rw [hstore]
    exact .refl _
  | create req k now hc _ =>
    intro id j j' hj hj'
    rw [Store.find_create hc hj] at hj'
    cases hj'
    exact ⟨rfl, rfl⟩
  | cancel j now rand _ _ _ _ hstore _ =>
    rw [hstore]
    exact .transition rfl

/-- `failOrRetry` alone changes them. -/
theorem Worker.act_gate {sh sh' : Shared} {pc pc' : Worker} {a : WorkerAct} (h : pc.act sh a = some (pc', sh')) :
    KeepsGate sh.store sh'.store ∨ ∃ job ctx cur now, pc = .retrying job ctx cur ∧ a = .step now ∧
      cur.retryCount < cur.maxRetries ∧ sh'.store = (sh.store.update (scheduleRetry cur now)).2 := by
  unfold Worker.act at h
  repeat' (split at h)
  all_goals first
    | (cases h; done)
    | (cases h; exact .inl (.refl _))
    | (cases h; exact .inl (.setOutput _ _ _))
    | (cases h; exact .inl (.transition (by assumption)))
    | (cases h; exact .inl (.transition rfl))
    | (cases h; exact .inr ⟨_, _, _, _, rfl, rfl, by assumption, rfl⟩)

namespace Sys

variable {cap n : Nat} {σ σ' : Sys} {a : Action} {tr : List (Step Sys Action)} {x : Step Sys Action}

/-- A step that schedules the retry of a job at reading `now`. -/
structure Retries (id : String) (now : Time) (x : Step Sys Action) : Prop where
  reading : x.label.reading = some now
  failed : x.src.state id = some .failed
  retry : ∃ j, x.src.job id = some j ∧ x.dst.job id = some (scheduleRetry j now)

theorem Next.retried (hI : σ.Inv) (h : σ.Next cap a σ') {id : String} {j j' : Job} (hj : σ.job id = some j)
    (hj' : σ'.job id = some j') : j'.runAfter = j.runAfter ∧ j'.retryCount = j.retryCount ∨
      ∃ now, Retries id now ⟨σ, a, σ'⟩ ∧ j' = scheduleRetry j now := by
  cases h.acted with
  | schedule hact => exact .inl (Scheduler.act_gate hact id j j' hj hj')
  | request _ hact => exact .inl (Request.act_gate hact id j j' hj hj')
  | receive | handoff | deadline | submit | delete => exact .inl (KeepsGate.refl _ id j j' hj hj')
  | @work w b pc pc' sh hw hact =>
    rcases Worker.act_gate hact with hkeeps | ⟨job, ctx, cur, now, rfl, rfl, -, hstore⟩
    · exact .inl (hkeeps id j j' hj hj')
    · -- the job it has read is stored as it was read
      have hcur : σ.shared.store.find job.id = some cur := hI.current w ctx job cur hw
      have hid : cur.id = job.id := Store.id_of_find hcur
      have hrow : σ.shared.store.find (scheduleRetry cur now).id = some cur := by
        change σ.shared.store.find cur.id = some cur
        rw [hid]
        exact hcur
      have hfailed : σ.state job.id = some .failed :=
        (allowedOwners.failing (hI.owned job.id) (owners_pos_of_worker hw (holding_self _ _))).1
      have hfind := Store.find_update hrow id
      have hdst : sh.store.find id = some j' := hj'
      rw [hstore, hfind] at hdst
      split at hdst
      · next hsame =>
        have hjob : id = job.id := hsame.trans hid
        subst hjob
        obtain rfl : j = cur := Option.some.inj (hj.symm.trans hcur)
        obtain rfl := Option.some.inj hdst
        exact .inr ⟨now, ⟨rfl, hfailed, j, hj, hj'⟩, rfl⟩
      · rw [show σ.shared.store.find id = some j from hj] at hdst
        cases hdst
        exact .inl ⟨rfl, rfl⟩

/-- A job that has been retried goes back to the step that scheduled the retry. -/
def Booked (tr : List (Step Sys Action)) (σ : Sys) : Prop :=
  ∀ id j, σ.job id = some j → 0 < j.retryCount →
    ∃ y ∈ tr, ∃ t, Retries id t y ∧ j.runAfter = t + backoff j.retryCount

theorem booked_of_run (h : Run (Next cap) (start n) tr σ) : Booked tr σ := by
  refine (Run.inv_hist (fun tr σ => σ.Inv ∧ Booked tr σ) (fun _ => True)
    (fun tr x hn _ hI => ⟨hI.1.next hn, fun id j' hj' hpos => ?_⟩) ⟨inv_start n, fun id j hj => ?_⟩ h
    fun _ _ => trivial).2
  · cases hj : x.src.job id with
    | none =>
      -- a new job has no retries
      have hwritten := hI.1.written hn id
      rw [hj, hj'] at hwritten
      cases hwritten with
      | submit _ _ hzero => omega
    | some j =>
      rcases Next.retried hI.1 hn hj hj' with ⟨hrun, hcount⟩ | ⟨now, hretries, rfl⟩
      · obtain ⟨y, hy, t, hret, hgate⟩ := hI.2 id j hj (hcount ▸ hpos)
        exact ⟨y, List.mem_append_left _ hy, t, hret, by rw [hrun, hcount]; exact hgate⟩
      · exact ⟨x, List.mem_append_right _ (List.mem_singleton_self x), now, hretries, rfl⟩
  · cases hj

/-! ## Starts -/

/-- A started job was started after its `RunAfter`. -/
def StartedLate (σ : Sys) : Prop :=
  ∀ id j s, σ.job id = some j → j.startedAt = some s → j.runAfter = 0 ∨ j.runAfter < s

theorem readings_snoc (x : Step Sys Action) : readings (tr ++ [x]) = readings tr ++ x.label.reading.toList := by
  unfold readings
  rw [List.filterMap_append]
  cases hr : x.label.reading <;> simp [hr]

theorem StartedLate.step (h : x.src.StartedLate) (hg : Gated tr x.src) (hn : x.src.Next cap x.label x.dst)
    (hclock : (readings (tr ++ [x])).Pairwise (· ≤ ·)) : x.dst.StartedLate := by
  intro id j' s hj' hs
  have hwritten := hg.inv.written hn id
  have hstamp := (hn.stamps id j' hj').started s hs
  rw [hj'] at hwritten
  cases hj : x.src.job id with
  | none =>
    rw [show x.src.shared.store.find id = none from hj] at hstamp
    rcases hstamp with hold | hnew
    · cases hold
    · exact absurd rfl hnew.1
  | some j =>
    rw [show x.src.shared.store.find id = some j from hj] at hstamp
    rw [hj] at hwritten
    cases hwritten with
    | same => exact h id j' s hj hs
    | output => exact h id j s hj hs
    | retry => cases hs
    | move _ dest msg t ht =>
      rcases hstamp with hold | ⟨-, hread, hrunning⟩
      · exact h id j s hj hold
      · -- the worker claims a `QUEUED` job, at a reading that is not before that of the pass
        obtain rfl : dest = .running := hrunning
        obtain ⟨now, hnow, hready⟩ := hg.queued id j hj (transition_running.mp ht)
        have hle : now ≤ s := by
          rw [readings_snoc, hread] at hclock
          exact (List.pairwise_append.mp hclock).2.2 now hnow s (by simp)
        simp only [isReady, Time.isZero, Bool.or_eq_true, beq_iff_eq, decide_eq_true_eq] at hready
        exact hready.imp_right fun hlt => lt_of_lt_of_le hlt hle

theorem startedLate_of_run (h : Run (Next cap) (start n) tr σ) (hclock : (readings tr).Pairwise (· ≤ ·)) :
    σ.StartedLate := by
  refine (Run.inv_hist (fun tr σ => Gated tr σ ∧ ((readings tr).Pairwise (· ≤ ·) → σ.StartedLate)) (fun _ => True)
    (fun tr x hn _ hI => ⟨hI.1.step hn, fun hc => ?_⟩) ⟨Gated.start n, fun _ id j s hj => ?_⟩ h fun _ _ => trivial).2
    hclock
  · have hbefore := hc
    rw [readings_snoc] at hbefore
    exact (hI.2 (List.pairwise_append.mp hbefore).1).step hI.1 hn hc
  · cases hj

/-- **`RunAfter` is a hard gate.**  A job that has been retried goes back to a step of a worker that found it
`FAILED`; the attempt that follows starts later than the reading of that step plus the backoff, unless
that sum is the zero time, which `scheduleReady` takes for no gate at all. -/
theorem backoff_honoured (h : Run (Next cap) (start n) tr σ) (hclock : (readings tr).Pairwise (· ≤ ·)) {id : String}
    {j : Job} (hj : σ.job id = some j) (hretry : 0 < j.retryCount) {s : Time} (hs : j.startedAt = some s) :
    ∃ y ∈ tr, ∃ t, Retries id t y ∧ j.runAfter = t + backoff j.retryCount ∧
      (t + backoff j.retryCount = 0 ∨ t + backoff j.retryCount < s) := by
  obtain ⟨y, hy, t, hret, hgate⟩ := booked_of_run h id j hj hretry
  refine ⟨y, hy, t, hret, hgate, ?_⟩
  rw [← hgate]
  exact startedLate_of_run h hclock id j s hj hs

theorem backoff_honoured_retried : ∃ j y t, (actAll 1 (start 1) failedTwice).job "job_000000" = some j ∧
    j.startedAt = some 3000000000 ∧ Retries "job_000000" t y ∧ j.runAfter = t + backoff 1 ∧
    (t + backoff 1 = 0 ∨ t + backoff 1 < 3000000000) := by
  have hsome : ((actAll 1 (start 1) failedTwice).job "job_000000").isSome = true := by decide +kernel
  obtain ⟨j, hj⟩ := Option.isSome_iff_exists.mp hsome
  have hfacts : ((actAll 1 (start 1) failedTwice).job "job_000000").map (fun j => (j.startedAt, j.retryCount)) =
      some (some 3000000000, 1) := by decide +kernel
  rw [hj] at hfacts
  simp only [Option.map_some, Option.some.injEq, Prod.mk.injEq] at hfacts
  obtain ⟨y, -, t, hret, hrest⟩ := backoff_honoured (run_trace .nil failedTwice) (by decide +kernel) hj
    (by rw [hfacts.2]; decide) hfacts.1
  rw [hfacts.2] at hrest
  exact ⟨j, y, t, hj, hfacts.1, hret, hrest⟩

end Sys

end Orchestrator
