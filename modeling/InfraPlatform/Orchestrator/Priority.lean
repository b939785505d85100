import InfraPlatform.Lib.Greedy
import InfraPlatform.Orchestrator.Cancel
import InfraPlatform.Orchestrator.Dispatch

/-!
# Priority inversion in a pass

A pass of `scheduleReady` with everything else going on, cancellations excepted: workers take jobs from the queue while
the pass sends to it, run them and reschedule them, and new jobs are submitted.

The loop does not stop at a send that finds the queue full.  If a worker takes a job before the next send, that send
goes through, and a job is dispatched after one that precedes it was not.

* `InPass`: the jobs that were not reached yet are `PENDING`, so every ready job is tried, in order.
* `Watched`: as long as nobody takes a job between a refused send and the next one, the queue stays full.
* `dispatched_prefix_iff`: when the dispatched jobs are the first ones of the order.
-/

namespace Orchestrator

open Lib
open ControlPlane (Time)

/-- The jobs that the loop has not reached. -/
def Scheduler.untried : Scheduler → List Job
  | .loop rest | .sending _ rest | .reverting _ rest => rest

/-- `Transition` leaves the other jobs alone. -/
theorem Store.find_transition_ne (st : Store) {id k : String} (hne : k ≠ id) (dest : State) (msg : String)
    (now : Time) : (st.transition id dest msg now).2.find k = st.find k := by
  cases h : st.find id with
  | none => rw [Store.transition_none h]
  | some j => rw [Store.find_transition h, if_neg hne]

/-- A worker does not touch a `PENDING` job: it has no owner. -/
theorem View.Move.pending_same {v v' : View} {j : Job} (hm : v.Move .worker v') (h : v.Owned) (hj : v.job = some j)
    (hs : j.state = .pending) : v'.job = v.job := by
  obtain ⟨r, r', hturn, hpos, -⟩ := hm
  have hr : r = none := by
    cases hr : r with
    | none => rfl
    | some q =>
      have hq := hpos q hr
      simp only [View.Owned, hj, Option.map_some, hs, allowedOwners] at h
      cases q <;> omega
  subst hr
  generalize v.job = job, v'.job = job' at hturn
  cases hturn with
  | same => rfl

namespace Sys

variable {cap n : Nat} {σ σ' : Sys} {a : Action} {tr : List (Step Sys Action)} {x : Step Sys Action}
  {order : List Job}

/-! ## What a step decides -/

/-- The job whose send is decided by a step, and whether it is sent. -/
def outcomeAt (x : Step Sys Action) : Option (Job × Bool) :=
  match x.label, x.src.sched with
  | .schedule .send, .sending j _ | .handoff _, .sending j _ => some (j, true)
  | .schedule .full, .sending j _ => some (j, false)
  | _, _ => none

def outcomes (tr : List (Step Sys Action)) : List (Job × Bool) := tr.filterMap outcomeAt

/-- The jobs that were put on the queue, or handed to a worker that waited at it. -/
def dispatched (tr : List (Step Sys Action)) : List Job := admitted (outcomes tr)

/-- A worker takes a job from the queue. -/
def takes (x : Step Sys Action) : Bool :=
  match x.label with
  | .receive _ | .handoff _ => true
  | _ => false

theorem outcomes_snoc (tr : List (Step Sys Action)) (x : Step Sys Action) :
    outcomes (tr ++ [x]) = outcomes tr ++ (outcomeAt x).toList := by
  unfold outcomes
  rw [List.filterMap_append]
  cases h : outcomeAt x <;> simp [h]

/-- No send was refused; one was, and no worker has taken a job since; one has. -/
inductive Gate where
  | free | full | drained
deriving DecidableEq, Repr

def Gate.step (g : Gate) (x : Step Sys Action) : Gate :=
  match g with
  | .free => if (outcomeAt x).any (fun o => !o.2) then .full else .free
  | .full => if takes x then .drained else .full
  | .drained => .drained

/-- No send is tried after a worker has taken a job since a refused send. -/
def undisturbed (g : Gate) : List (Step Sys Action) → Bool
  | [] => true
  | x :: tr => !((outcomeAt x).isSome && g.step x == .drained) && undisturbed (g.step x) tr

theorem undisturbed_snoc (g : Gate) (tr : List (Step Sys Action)) (x : Step Sys Action) :
    undisturbed g (tr ++ [x]) = true ↔ undisturbed g tr = true ∧
      ((outcomeAt x).isSome = true → (tr.foldl Gate.step g).step x ≠ .drained) := by
  induction tr generalizing g with
  | nil => cases h : (outcomeAt x).isSome <;> simp [undisturbed, h]
  | cons y tr ih =>
    rw [List.cons_append, undisturbed, undisturbed, Bool.and_eq_true, Bool.and_eq_true, ih, and_assoc, List.foldl_cons]

/-- What a step does to the queue, with what it decides. -/
inductive Queued (cap : Nat) (x : Step Sys Action) : Prop where
  | other : outcomeAt x = none → takes x = false → x.dst.shared.queue = x.src.shared.queue → Queued cap x
  | receive (j : Job) : outcomeAt x = none → takes x = true → x.src.shared.queue = j :: x.dst.shared.queue →
      Queued cap x
  | send (j : Job) : outcomeAt x = some (j, true) → takes x = false → x.src.shared.queue.length < cap →
      x.dst.shared.queue = x.src.shared.queue ++ [j] → Queued cap x
  | handoff (j : Job) : outcomeAt x = some (j, true) → takes x = true → x.dst.shared.queue = x.src.shared.queue →
      Queued cap x
  | refuse (j : Job) : outcomeAt x = some (j, false) → takes x = false → cap ≤ x.src.shared.queue.length →
      x.dst.shared.queue = x.src.shared.queue → Queued cap x

theorem Next.queued (h : σ.Next cap a σ') : Queued cap ⟨σ, a, σ'⟩ := by
  cases h.acted with
  | @schedule b pc sh hact =>
    cases hsched : σ.sched with
    | sending j rest =>
      rw [hsched] at hact
      cases b with
      | send =>
        obtain ⟨hroom, -, rfl⟩ := act_send.mp hact
        exact .send j (by simp [outcomeAt, hsched]) rfl hroom rfl
      | full =>
        obtain ⟨hfull, -, rfl⟩ := act_full.mp hact
        exact .refuse j (by simp [outcomeAt, hsched]) rfl hfull rfl
      | _ => simp [Scheduler.act] at hact
    | loop rest =>
      have hq := Scheduler.act_queue hact
      simp only [hsched, reduceCtorEq, false_and, exists_false, or_false] at hq
      exact .other (by cases b <;> simp [outcomeAt, hsched]) rfl hq
    | reverting j rest =>
      have hq := Scheduler.act_queue hact
      simp only [hsched, reduceCtorEq, false_and, exists_false, or_false] at hq
      exact .other (by cases b <;> simp [outcomeAt, hsched]) rfl hq
  | work hw hact => exact .other rfl rfl (Worker.act_queue hact)
  | @receive w job rest hw hqueue => exact .receive job rfl rfl hqueue
  | @handoff w job rest hw hsched => exact .handoff job (by simp [outcomeAt, hsched]) rfl rfl
  | deadline | submit | delete => exact .other rfl rfl rfl
  | request hi hact => exact .other rfl rfl (Request.act_queue hact)

theorem Next.queue_le (h : σ.Next cap a σ') (hle : σ.shared.queue.length ≤ cap) : σ'.shared.queue.length ≤ cap := by
  cases h.queued with
  | other _ _ hq | handoff _ _ _ hq | refuse _ _ _ _ hq =>
    simp only at hq
    rw [hq]
    exact hle
  | receive j _ _ hq =>
    simp only at hq
    rw [hq, List.length_cons] at hle
    omega
  | send j _ _ hroom hq =>
    simp only at hq hroom
    rw [hq, List.length_append, List.length_singleton]
    omega

/-- The queue of a channel with that capacity. -/
theorem reached_queue_le (h : Run (Next cap) (start n) tr σ) : σ.shared.queue.length ≤ cap :=
  Run.inv (fun σ => σ.shared.queue.length ≤ cap) (fun _ => True) (fun _ hn _ hle => hn.queue_le hle) (Nat.zero_le cap) h
    fun _ _ => trivial

/-! ## The queue since a refused send -/

/-- Nothing is sent after a refused send. -/
def InOrder (tr : List (Step Sys Action)) : Prop := (outcomes tr).Pairwise fun a b => b.2 = true → a.2 = true

theorem inOrder_snoc (tr : List (Step Sys Action)) (x : Step Sys Action) : InOrder (tr ++ [x]) ↔
    InOrder tr ∧ ∀ o ∈ outcomeAt x, o.2 = true → ∀ a ∈ outcomes tr, a.2 = true := by
  unfold InOrder
  rw [outcomes_snoc, List.pairwise_append]
  cases h : outcomeAt x with
  | none => simp
  | some o =>
    simp only [Option.toList_some, List.pairwise_singleton, List.mem_singleton, forall_eq, true_and,
      Option.mem_some_iff]
    constructor
    · rintro ⟨hin, hall⟩
      exact ⟨hin, by rintro _ rfl ho a ha; exact hall a ha ho⟩
    · rintro ⟨hin, hall⟩
      exact ⟨hin, fun a ha ho => hall o rfl ho a ha⟩

def gate (tr : List (Step Sys Action)) : Gate := tr.foldl Gate.step .free

theorem gate_snoc (tr : List (Step Sys Action)) (x : Step Sys Action) : gate (tr ++ [x]) = (gate tr).step x := by
  unfold gate
  rw [List.foldl_append]
  rfl

structure Watched (cap : Nat) (tr : List (Step Sys Action)) (σ : Sys) : Prop where
  bound : σ.shared.queue.length ≤ cap
  free : gate tr = .free ↔ ∀ o ∈ outcomes tr, o.2 = true
  full : undisturbed .free tr = true → gate tr = .full → σ.shared.queue.length = cap
  drained : undisturbed .free tr = true → gate tr = .drained → σ.shared.queue.length < cap
  inOrder : InOrder tr ↔ undisturbed .free tr = true

theorem watched_nil (hle : σ.shared.queue.length ≤ cap) : Watched cap [] σ where
  bound := hle
  free := by simp [gate, outcomes]
  full := by simp [gate]
  drained := by simp [gate]
  inOrder := by simp [InOrder, outcomes, undisturbed]

theorem undisturbed_step : undisturbed .free (tr ++ [x]) = true ↔
    undisturbed .free tr = true ∧ ((outcomeAt x).isSome = true → gate (tr ++ [x]) ≠ .drained) := by
  rw [gate_snoc]
  exact undisturbed_snoc .free tr x

/-- A step that decides nothing changes neither side. -/
theorem Watched.inOrder_of_none (h : Watched cap tr x.src) (ho : outcomeAt x = none) :
    (undisturbed .free (tr ++ [x]) = true ↔ undisturbed .free tr = true) ∧
      (InOrder (tr ++ [x]) ↔ undisturbed .free (tr ++ [x]) = true) := by
  have hsame : undisturbed .free (tr ++ [x]) = true ↔ undisturbed .free tr = true := by
    rw [undisturbed_step, ho]
    simp
  rw [hsame, inOrder_snoc, ho]
  exact ⟨.rfl, by simpa using h.inOrder⟩

/-- A send goes through: it is in order, and undisturbed, exactly if none was refused before. -/
theorem Watched.inOrder_of_sent {j : Job} (h : Watched cap tr x.src) (ho : outcomeAt x = some (j, true))
    (hlate : undisturbed .free tr = true → gate tr ≠ .free → gate (tr ++ [x]) = .drained) :
    InOrder (tr ++ [x]) ↔ undisturbed .free (tr ++ [x]) = true := by
  have hkeep : gate tr = .free → gate (tr ++ [x]) = .free := by
    intro hfree
    simp [gate_snoc, hfree, Gate.step, ho]
  have hall : InOrder (tr ++ [x]) ↔ undisturbed .free tr = true ∧ gate tr = .free := by
    rw [inOrder_snoc, ho, h.inOrder, h.free]
    simp
  rw [hall, undisturbed_step]
  constructor
  · rintro ⟨hu, hfree⟩
    exact ⟨hu, fun _ => by rw [hkeep hfree]; simp⟩
  · rintro ⟨hu, hne⟩
    refine ⟨hu, ?_⟩
    by_contra hno
    exact hne (by simp [ho]) (hlate hu hno)

/-- **One step.** -/
theorem Watched.step (h : Watched cap tr x.src) (hn : x.src.Next cap x.label x.dst) :
    Watched cap (tr ++ [x]) x.dst := by
  have hbound := hn.queue_le h.bound
  have hqueued : Queued cap x := hn.queued
  cases hqueued with
  | other ho ht hq =>
    obtain ⟨hu, hin⟩ := h.inOrder_of_none ho
    have hgate : gate (tr ++ [x]) = gate tr := by
      cases hg : gate tr <;> simp [gate_snoc, hg, Gate.step, ho, ht]
    refine ⟨hbound, ?_, ?_, ?_, hin⟩
    · rw [hgate, h.free, outcomes_snoc, ho]
      simp
    · rw [hgate, hu, hq]
      exact h.full
    · rw [hgate, hu, hq]
      exact h.drained
  | receive j ho ht hq =>
    obtain ⟨hu, hin⟩ := h.inOrder_of_none ho
    have hlen := congrArg List.length hq
    rw [List.length_cons] at hlen
    have hroom := h.bound
    refine ⟨hbound, ?_, ?_, fun _ _ => by omega, hin⟩
    · rw [outcomes_snoc, ho, Option.toList_none, List.append_nil, ← h.free]
      cases hg : gate tr <;> simp [gate_snoc, hg, Gate.step, ho, ht]
    · -- a job taken leaves no full queue
      intro _ hfull
      cases hg : gate tr <;> simp [gate_snoc, hg, Gate.step, ho, ht] at hfull
  | send j ho ht hroom hq =>
    have hgate : gate (tr ++ [x]) = gate tr := by
      cases hg : gate tr <;> simp [gate_snoc, hg, Gate.step, ho, ht]
    -- with room in the queue, a refused send was followed by a take
    have hnot (hu : undisturbed .free tr = true) : gate tr ≠ .full := by
      intro hg
      have hlen := h.full hu hg
      omega
    refine ⟨hbound, ?_, ?_, ?_, ?_⟩
    · rw [hgate, h.free, outcomes_snoc, ho]
      simp
    · intro hu hfull
      rw [hgate] at hfull
      exact absurd hfull (hnot (undisturbed_step.mp hu).1)
    · intro hu hdrained
      exact absurd hdrained ((undisturbed_step.mp hu).2 (by simp [ho]))
    · refine h.inOrder_of_sent ho fun hu hno => ?_
      rw [hgate]
      cases hg : gate tr with
      | free => exact absurd hg hno
      | full => exact absurd hg (hnot hu)
      | drained => rfl
  | handoff j ho ht hq =>
    refine ⟨hbound, ?_, ?_, ?_, ?_⟩
    · rw [outcomes_snoc, ho]
      simp only [Option.toList_some, List.forall_mem_append, List.forall_mem_singleton, and_true]
      rw [← h.free]
      cases hg : gate tr <;> simp [gate_snoc, hg, Gate.step, ho, ht]
    · intro _ hfull
      cases hg : gate tr <;> simp [gate_snoc, hg, Gate.step, ho, ht] at hfull
    · intro hu hdrained
      exact absurd hdrained ((undisturbed_step.mp hu).2 (by simp [ho]))
    · refine h.inOrder_of_sent ho fun hu hno => ?_
      cases hg : gate tr with
      | free => exact absurd hg hno
      | full | drained => simp [gate_snoc, hg, Gate.step, ht]
  | refuse j ho ht hfull hq =>
    have hnot (hu : undisturbed .free tr = true) : gate tr ≠ .drained := by
      intro hg
      have hlen := h.drained hu hg
      omega
    have hgate : gate (tr ++ [x]) = .drained ↔ gate tr = .drained := by
      cases hg : gate tr <;> simp [gate_snoc, hg, Gate.step, ho, ht]
    have hu : undisturbed .free (tr ++ [x]) = true ↔ undisturbed .free tr = true := by
      rw [undisturbed_step, ho, ne_eq, hgate]
      exact ⟨fun hu => hu.1, fun hu => ⟨hu, fun _ => hnot hu⟩⟩
    have hlen : x.dst.shared.queue.length = cap := by
      have hle := h.bound
      rw [hq]
      omega
    refine ⟨hbound, ?_, fun _ _ => hlen, ?_, ?_⟩
    · have hne : gate (tr ++ [x]) ≠ .free := by
        cases hg : gate tr <;> simp [gate_snoc, hg, Gate.step, ho, ht]
      rw [outcomes_snoc, ho]
      refine ⟨fun hfree => absurd hfree hne, fun hall => ?_⟩
      exact absurd (hall (j, false) (by simp)) (by simp)
    · intro hu' hdrained
      exact absurd (hgate.mp hdrained) (hnot (hu.mp hu'))
    · rw [hu, inOrder_snoc, ho, ← h.inOrder]
      simp

/-! ## The jobs of a pass -/

/-- The listing, with which a pass begins. -/
def lists : Action → Bool
  | .schedule (.list _ _) => true
  | _ => false

/-- A step while a pass is under way, without a cancellation. -/
def DuringPass (x : Step Sys Action) : Prop := lists x.label = false ∧ x.src.handlerCancels x.label = none

instance (x : Step Sys Action) : Decidable (DuringPass x) :=
  inferInstanceAs (Decidable (lists x.label = false ∧ x.src.handlerCancels x.label = none))

/-- Where the loop stands, `out` being what it has decided. -/
inductive PassStage (order : List Job) (out : List (Job × Bool)) : Scheduler → Prop where
  | loop (rest : List Job) : order = out.map Prod.fst ++ rest → PassStage order out (.loop rest)
  | sending (j : Job) (rest : List Job) : order = out.map Prod.fst ++ j :: rest → PassStage order out (.sending j rest)
  | reverting (j : Job) (rest : List Job) : order = out.map Prod.fst ++ rest → j ∈ out.map Prod.fst →
      PassStage order out (.reverting j rest)

theorem PassStage.split {out : List (Job × Bool)} {pc : Scheduler} (h : PassStage order out pc) :
    ∃ rest, order = out.map Prod.fst ++ rest := by
  cases h with
  | loop rest hsplit => exact ⟨rest, hsplit⟩
  | sending j rest hsplit => exact ⟨j :: rest, hsplit⟩
  | reverting j rest hsplit _ => exact ⟨rest, hsplit⟩

structure InPass (order : List Job) (tr : List (Step Sys Action)) (σ : Sys) : Prop where
  inv : σ.Inv
  stage : PassStage order (outcomes tr) σ.sched
  pending : ∀ j ∈ σ.sched.untried, σ.state j.id = some .pending

/-- A `PENDING` job stays, whoever acts but the scheduler and a handler that cancels. -/
theorem Inv.pending_stays (hI : σ.Inv) (h : σ.Next cap a σ') (hc : σ.handlerCancels a = none)
    (ha : ∀ b, a ≠ .schedule b) {id : String} (hp : σ.state id = some .pending) : σ'.state id = some .pending := by
  obtain ⟨j, hj, hs⟩ := Option.map_eq_some_iff.mp hp
  suffices hsame : σ'.job id = σ.job id by
    unfold state
    rw [hsame]
    exact hp
  have hmoves := hI.moves h id
  cases h.acted with
  | schedule => exact absurd rfl (ha _)
  | work => exact hmoves.pending_same (hI.owned id) hj hs
  | receive | handoff | deadline | submit | delete => rfl
  | request hi hact =>
    refine (Request.act_keeps hact hj ?_).trans hj.symm
    rintro now rand rfl rfl
    simp [handlerCancels, hi] at hc

/-- `Transition` of a job that has been reached leaves those that have not been as they are. -/
theorem untried_stay {st : Store} {id : String} {rest : List Job} (hid : id ∉ rest.map Job.id) (dest : State)
    (msg : String) (now : Time) (hp : ∀ k ∈ rest, (st.find k.id).map Job.state = some .pending) :
    ∀ k ∈ rest, ((st.transition id dest msg now).2.find k.id).map Job.state = some .pending := by
  intro k hk
  have hne : k.id ≠ id := by
    rintro rfl
    exact hid (List.mem_map_of_mem hk)
  rw [Store.find_transition_ne _ hne]
  exact hp k hk

/-- A job of the order is not among those that come later. -/
theorem id_not_mem_rest {j : Job} {done rest : List Job} (hnd : ((done ++ rest).map Job.id).Nodup) (hj : j ∈ done) :
    j.id ∉ rest.map Job.id := by
  rw [List.map_append, List.nodup_append] at hnd
  intro hin
  exact hnd.2.2 j.id (List.mem_map_of_mem hj) j.id hin rfl

/-- The scheduler's own steps. -/
theorem InPass.schedule {b : SchedAct} {pc : Scheduler} {sh : Shared} (hnd : (order.map Job.id).Nodup)
    (h : InPass order tr σ) (hact : σ.sched.act cap σ.shared b = some (pc, sh))
    (hlist : lists (.schedule b) = false) :
    PassStage order (outcomes (tr ++ [⟨σ, .schedule b, { σ with sched := pc, shared := sh }⟩])) pc ∧
      ∀ k ∈ pc.untried, (sh.store.find k.id).map Job.state = some .pending := by
  have hpending : ∀ k ∈ σ.sched.untried, (σ.shared.store.find k.id).map Job.state = some .pending := h.pending
  have hstage := h.stage
  rw [outcomes_snoc, outcomeAt]
  generalize σ.sched = pc₀ at hact hpending hstage ⊢
  cases hstage with
  | loop rest horder =>
    cases rest with
    | nil =>
      cases b with
      | list => cases hlist
      | _ => simp [Scheduler.act] at hact
    | cons j rest =>
      cases b with
      | queue now =>
        -- the job is `PENDING`, so the transition succeeds
        obtain ⟨i, hi, hs⟩ := Option.map_eq_some_iff.mp (hpending j List.mem_cons_self)
        rcases Store.transition_cases hi .queued "" now with ⟨-, hw⟩ | ⟨ht, -⟩
        · have hnew : j.id ∉ rest.map Job.id := by
            rw [horder, List.map_append, List.map_cons, List.nodup_append, List.nodup_cons] at hnd
            exact hnd.2.1.1
          have hkept := untried_stay hnew .queued "" now fun k hk => hpending k (List.mem_cons_of_mem j hk)
          rw [hw] at hkept
          simp only [Scheduler.act, hw, Option.some.injEq, Prod.mk.injEq] at hact
          obtain ⟨rfl, rfl⟩ := hact
          exact ⟨.sending j rest (by simpa using horder), hkept⟩
        · rw [hs] at ht
          cases ht
      | list => cases hlist
      | _ => simp [Scheduler.act] at hact
  | sending j rest horder =>
    cases b with
    | send =>
      obtain ⟨-, rfl, rfl⟩ := act_send.mp hact
      exact ⟨.loop rest (by simpa using horder), hpending⟩
    | full =>
      obtain ⟨-, rfl, rfl⟩ := act_full.mp hact
      exact ⟨.reverting j rest (by simpa using horder) (by simp), hpending⟩
    | list => cases hlist
    | _ => simp [Scheduler.act] at hact
  | reverting j rest horder hj =>
    cases b with
    | revert now =>
      have hnew : j.id ∉ rest.map Job.id := id_not_mem_rest (by rw [← horder]; exact hnd) hj
      simp only [Scheduler.act, Option.some.injEq, Prod.mk.injEq] at hact
      obtain ⟨rfl, rfl⟩ := hact
      exact ⟨.loop rest (by simpa using horder), untried_stay hnew .pending "" now hpending⟩
    | list => cases hlist
    | _ => simp [Scheduler.act] at hact

/-- **One step of the pass.** -/
theorem InPass.step (hnd : (order.map Job.id).Nodup) (h : InPass order tr x.src)
    (hn : x.src.Next cap x.label x.dst) (hd : DuringPass x) : InPass order (tr ++ [x]) x.dst := by
  obtain ⟨σ, a, σ'⟩ := x
  obtain ⟨hlist, hc⟩ := hd
  simp only at h hn hlist hc ⊢
  have hinv := h.inv.next hn
  have hother (ha : ∀ b, a ≠ .schedule b) (rest : List Job) (hrest : ∀ k ∈ rest, k ∈ σ.sched.untried) :
      ∀ k ∈ rest, σ'.state k.id = some .pending := by
    intro k hk
    exact h.inv.pending_stays hn hc ha (h.pending k (hrest k hk))
  cases hn.acted with
  | @schedule b pc sh hact =>
    obtain ⟨hstage, hpending⟩ := h.schedule hnd hact hlist
    exact ⟨hinv, hstage, hpending⟩
  | @handoff w job rest hw hsched =>
    have hstage := h.stage
    rw [hsched] at hstage
    have hout : outcomeAt ⟨σ, .handoff w, { σ with workers := σ.workers.set w (.fetched job), sched := .loop rest }⟩ =
        some (job, true) := by
      simp [outcomeAt, hsched]
    cases hstage with
    | sending _ _ horder =>
      refine ⟨hinv, ?_, hother (by simp) rest (by simp [hsched, Scheduler.untried])⟩
      rw [outcomes_snoc, hout]
      exact .loop rest (by simpa using horder)
  | work | receive | deadline | submit | delete | request =>
    refine ⟨hinv, ?_, hother (by simp) _ fun k hk => hk⟩
    rw [outcomes_snoc]
    simpa [outcomeAt] using h.stage

/-- The jobs whose send was refused. -/
def refused (tr : List (Step Sys Action)) : List Job := ((outcomes tr).filter fun o => !o.2).map Prod.fst

/-- **When the dispatched jobs are the first ones of the order.**  In a pass from any state that is reached, whatever
goes on meanwhile but cancellations, the jobs that are dispatched are the first of the ready jobs by priority and
creation, so that no refused job precedes one of them, exactly if no send is tried after a worker has taken a job
from the queue since a refused send. -/
theorem dispatched_prefix_iff {tr₀ : List (Step Sys Action)} {σ₁ : Sys} {rows : List Job} {now : Time}
    (h₀ : Run (Next cap) (start n) tr₀ σ) (hlist : σ.Next cap (.schedule (.list rows now)) σ₁)
    (h : Run (Next cap) σ₁ tr σ') (hpass : ∀ x ∈ tr, DuringPass x) :
    ∃ order, σ₁.sched = .loop order ∧ order.Perm (readyJobs σ.shared.store now) ∧
      (order.Pairwise fun a b => precedes b a = false) ∧
      (dispatched tr <+: order ↔ undisturbed .free tr = true) ∧
      (dispatched tr <+: order → ∀ a ∈ refused tr, ∀ b ∈ dispatched tr, precedes a b = false) := by
  have hidle : σ.sched = .loop [] := by
    cases hlist.acted with
    | schedule hact =>
      cases hsched : σ.sched with
      | loop rest =>
        cases rest with
        | nil => rfl
        | cons j rest => simp [hsched, Scheduler.act] at hact
      | _ => simp [hsched, Scheduler.act] at hact
  obtain ⟨hperm, hσ₁⟩ := listed hidle hlist
  have hready : (rows.filter (isReady now)).Perm (readyJobs σ.shared.store now) := hperm.filter _
  have horder := (sortReady_perm (rows.filter (isReady now))).trans hready
  generalize hsorted : sortReady (rows.filter (isReady now)) = order at horder hσ₁
  have hpair : order.Pairwise fun a b => precedes b a = false := hsorted ▸ sortReady_sorted _
  have hnd : (order.map Job.id).Nodup := (horder.map _).nodup_iff.mpr (nodup_readyJobs _ _)
  have hsched : σ₁.sched = .loop order := by rw [hσ₁]; rfl
  -- the two invariants, from the listing on
  have hin₁ : InPass order [] σ₁ := by
    refine ⟨(reached_inv h₀).next hlist, ?_, ?_⟩
    · rw [hsched]
      exact .loop order rfl
    · rw [hsched, hσ₁]
      intro j hj
      obtain ⟨hfind, hs⟩ := mem_readyJobs (horder.mem_iff.mp hj)
      change (σ.shared.store.find j.id).map Job.state = some .pending
      rw [hfind, Option.map_some, hs]
  have hin := Run.inv_hist (InPass order) DuringPass (fun tr x hn hd hI => hI.step hnd hn hd) hin₁ h hpass
  have hwatched := Run.inv_hist (Watched cap) (fun _ => True) (fun tr x hn _ hI => hI.step hn)
    (watched_nil (hlist.queue_le (reached_queue_le h₀))) h fun _ _ => trivial
  obtain ⟨rest, hsplit⟩ := hin.stage.split
  have hdone : ((outcomes tr).map Prod.fst).Nodup := by
    have hall := hnd.of_map
    rw [hsplit, List.nodup_append] at hall
    exact hall.1
  have hiff := admitted_prefix_iff hdone rest
  rw [← hsplit] at hiff
  refine ⟨order, hsched, horder, hpair, hiff.trans hwatched.inOrder, ?_⟩
  intro hpre a ha b hb
  rw [hsplit, List.pairwise_append] at hpair
  have hrefused : (a, false) ∈ outcomes tr := by simpa [refused] using ha
  exact admitted_before (r := fun a b => precedes b a = false) (hiff.mp hpre) hpair.1 hrefused (mem_admitted.mp hb)

def important : SubmitJobRequest := { name := "important", command := "true", priority := 5 }

def routine : SubmitJobRequest := { name := "routine", command := "true" }

/-- Job `i` is submitted and stored. -/
def submitted (req : SubmitJobRequest) (i : Nat) : List Action :=
  [.submit (some req), .request i (.step i (some (0, 0, UInt8.ofNat i)))]

/-- A queue with one slot, which a job has taken; an important job and a routine one wait. -/
def backlog : List Action :=
  submitted routine 0 ++
    ([.schedule (.list [newJob routine "job_000000" 0] 1), .schedule (.queue 1), .schedule .send] : List Action) ++
    submitted important 1 ++ submitted routine 2

def waitingJobs : List Job := [newJob important "job_000001" 1, newJob routine "job_000002" 2]

/-- A pass in which the worker takes the job from the queue first. -/
def drainedFirst : List Action :=
  [.receive 0, .schedule (.queue 3), .schedule .send, .schedule (.queue 3), .schedule .full, .schedule (.revert 3)]

/-- A pass in which it does after the important job was refused. -/
def drainedMeanwhile : List Action :=
  [.schedule (.queue 3), .schedule .full, .receive 0, .schedule (.revert 3), .schedule (.queue 3), .schedule .send]

def beforePass : Sys := actAll 1 (start 1) backlog

def passBegun : Sys := actAll 1 beforePass [.schedule (.list waitingJobs 3)]

theorem beforePass_run : Run (Next 1) (start 1) (trace 1 (start 1) backlog) beforePass := run_trace .nil backlog

theorem passBegun_next : beforePass.Next 1 (.schedule (.list waitingJobs 3)) passBegun := rfl

theorem passBegun_sched : passBegun.sched = .loop waitingJobs := by decide +kernel

theorem dispatched_prefix_iff_drainedFirst : dispatched (trace 1 passBegun drainedFirst) <+: waitingJobs ∧
    (dispatched (trace 1 passBegun drainedFirst)).map Job.name = ["important"] := by
  obtain ⟨order, hsched, -, -, hiff, -⟩ := dispatched_prefix_iff beforePass_run passBegun_next
    (run_trace .nil drainedFirst) (by decide +kernel)
  rw [passBegun_sched] at hsched
  cases hsched
  exact ⟨hiff.mpr (by decide +kernel), by decide +kernel⟩

/-- The routine job is dispatched and the important one is not. -/
theorem inversion_after_take : Run (Next 1) (start 1) (trace 1 (start 1) backlog) beforePass ∧
    beforePass.Next 1 (.schedule (.list waitingJobs 3)) passBegun ∧ passBegun.sched = .loop waitingJobs ∧
    Run (Next 1) passBegun (trace 1 passBegun drainedMeanwhile) (actAll 1 passBegun drainedMeanwhile) ∧
    (∀ x ∈ trace 1 passBegun drainedMeanwhile, DuringPass x) ∧
    (actAll 1 passBegun drainedMeanwhile).sched = .loop [] ∧
    (refused (trace 1 passBegun drainedMeanwhile)).map Job.name = ["important"] ∧
    (dispatched (trace 1 passBegun drainedMeanwhile)).map Job.name = ["routine"] ∧
    ¬ dispatched (trace 1 passBegun drainedMeanwhile) <+: waitingJobs :=
  ⟨beforePass_run, passBegun_next, passBegun_sched, run_trace .nil drainedMeanwhile, by decide +kernel,
    by decide +kernel, by decide +kernel, by decide +kernel, by decide +kernel⟩

end Sys

end Orchestrator
