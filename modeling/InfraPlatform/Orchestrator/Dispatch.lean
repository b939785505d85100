import InfraPlatform.Orchestrator.System

/-!
# A dispatch pass

`scheduleReady` with nobody else at the store or the queue.  Each ready job is written
`QUEUED` before the send; where the queue is full it is written back to `PENDING`.

* `sortReady_perm`, `sortReady_ordered`: the order in which the ready jobs are taken.
* `enqueued`: the store with some jobs `QUEUED`.
* `Passing`: the invariant of the loop.  What is in the queue beyond the old content, and what
  is `QUEUED` in the store, are the first jobs of the order, as many as there were free slots.
* `dispatch_pass`: a pass can be run to its end, and what it then leaves.
-/

namespace Orchestrator

open Lib
open ControlPlane (Time)

/-! ## The order of dispatch -/

theorem precedes_iff {a b : Job} : precedes a b = true ↔
    b.priority < a.priority ∨ (a.priority = b.priority ∧ a.createdAt < b.createdAt) := by
  unfold precedes
  split
  · next h =>
    simp only [decide_eq_true_eq, gt_iff_lt]
    omega
  · next h =>
    have heq : a.priority = b.priority := not_not.mp h
    simp [heq]

theorem not_precedes_iff {a b : Job} : precedes a b = false ↔
    a.priority < b.priority ∨ (a.priority = b.priority ∧ b.createdAt ≤ a.createdAt) := by
  rw [← Bool.not_eq_true, precedes_iff]
  grind

theorem sortReady_perm (l : List Job) : (sortReady l).Perm l := List.perm_insertionSort _ l

/-- No job is taken before one that precedes it. -/
theorem sortReady_sorted (l : List Job) : (sortReady l).Pairwise fun a b => precedes b a = false := by
  have htrans : IsTrans Job fun a b => precedes b a = false := ⟨fun a b c hab hbc => by
    rw [not_precedes_iff] at hab hbc ⊢
    grind⟩
  have htotal : Std.Total fun a b : Job => precedes b a = false := ⟨fun a b => by
    rw [not_precedes_iff, not_precedes_iff]
    grind⟩
  exact List.pairwise_insertionSort _ l

/-- Jobs that differ in priority or creation time are taken in the order of dispatch. -/
theorem sortReady_ordered {l : List Job} (hdistinct : (l.map fun j => (j.priority, j.createdAt)).Nodup) :
    (sortReady l).Pairwise fun a b => precedes a b = true := by
  have hne : ((sortReady l).map fun j => (j.priority, j.createdAt)).Nodup :=
    ((sortReady_perm l).map _).nodup_iff.mpr hdistinct
  rw [List.Nodup, List.pairwise_map] at hne
  refine ((sortReady_sorted l).and hne).imp fun {a b} h => ?_
  obtain ⟨hle, hdiff⟩ := h
  rw [not_precedes_iff] at hle
  rw [precedes_iff]
  simp only [ne_eq, Prod.mk.injEq] at hdiff
  grind

/-! ## Queued jobs in the store -/

def Job.asQueued (j : Job) : Job := { j with state := .queued }

/-- The store with these jobs `QUEUED`. -/
def enqueued (st : Store) (jobs : List Job) : Store := jobs.foldl (fun st j => st.put j.asQueued) st

theorem enqueued_snoc (st : Store) (jobs : List Job) (j : Job) :
    enqueued st (jobs ++ [j]) = (enqueued st jobs).put j.asQueued := by
  unfold enqueued
  rw [List.foldl_append]
  rfl

theorem find_enqueued_of_not_mem {st : Store} {jobs : List Job} {id : String} (h : id ∉ jobs.map Job.id) :
    (enqueued st jobs).find id = st.find id := by
  induction jobs using List.reverseRecOn with
  | nil => rfl
  | append_singleton jobs j ih =>
    rw [List.map_append, List.mem_append, not_or] at h
    have hne : id ≠ j.asQueued.id := fun heq => h.2 (by rw [heq]; exact List.mem_singleton_self j.id)
    rw [enqueued_snoc, Store.find_put_ne hne]
    exact ih h.1

theorem find_enqueued {st : Store} {jobs : List Job} (hnd : (jobs.map Job.id).Nodup) {j : Job} (hj : j ∈ jobs) :
    (enqueued st jobs).find j.id = some j.asQueued := by
  induction jobs using List.reverseRecOn with
  | nil => cases hj
  | append_singleton jobs i ih =>
    rw [List.map_append, List.nodup_append] at hnd
    rw [enqueued_snoc, Store.find_put]
    rcases List.mem_append.mp hj with hj | hj
    · have hne : j.id ≠ i.id := hnd.2.2 j.id (List.mem_map_of_mem hj) i.id (by simp)
      rw [if_neg (show j.id ≠ i.asQueued.id from hne)]
      exact ih hnd.1 hj
    · obtain rfl := List.mem_singleton.mp hj
      exact if_pos rfl

/-- `PENDING` to `QUEUED`. -/
theorem transition_pending {st : Store} {j : Job} (hj : st.find j.id = some j) (hs : j.state = .pending) (now : Time) :
    st.transition j.id .queued "" now = (.ok (), st.put j.asQueued) := by
  unfold Store.transition
  rw [hj]
  simp only [hs]
  rfl

/-- `QUEUED` and back to `PENDING` leaves the record that was there. -/
theorem transition_back {st : Store} {j : Job} (hj : st.find j.id = some j) (hs : j.state = .pending) (now : Time) :
    ((st.put j.asQueued).transition j.id .pending "" now).2 = st := by
  have hget : (st.put j.asQueued).find j.id = some j.asQueued := Store.find_put_self st j.asQueued
  have hback : Store.moved j.asQueued .pending "" now = j := by
    obtain ⟨⟩ := j
    cases hs
    rfl
  unfold Store.transition
  rw [hget]
  change (st.put j.asQueued).put (Store.moved j.asQueued .pending "" now) = st
  rw [hback]
  show (⟨(st.m.put j.asQueued).put j⟩ : Store) = st
  rw [Table.put_put (show j.asQueued.id = j.id from rfl), Table.put_self hj]

/-! ## The pass -/

/-- The jobs that a pass at `now` looks at. -/
def readyJobs (st : Store) (now : Time) : List Job := (st.listByState .pending).filter (isReady now)

theorem mem_readyJobs {st : Store} {now : Time} {j : Job} (h : j ∈ readyJobs st now) :
    st.find j.id = some j ∧ j.state = .pending := by
  obtain ⟨hlisted, -⟩ := List.mem_filter.mp h
  obtain ⟨hrow, hstate⟩ := List.mem_filter.mp hlisted
  exact ⟨Table.get_of_mem hrow, by simpa using hstate⟩

theorem nodup_readyJobs (st : Store) (now : Time) : ((readyJobs st now).map Job.id).Nodup :=
  (List.Sublist.map Job.id (List.filter_sublist.trans List.filter_sublist)).nodup st.m.nodup

namespace Sys

variable {cap : Nat} {σ₀ σ σ' : Sys} {order : List Job} {now : Time}

def free (cap : Nat) (σ : Sys) : Nat := cap - σ.shared.queue.length

/-- A step of the loop of `scheduleReady` that does not begin another pass. -/
def inPass : Action → Bool
  | .schedule (.list _ _) => false
  | .schedule _ => true
  | _ => false

/-- The loop of `scheduleReady` runs, with nobody else in between. -/
def Alone (cap : Nat) (σ σ' : Sys) : Prop := ∃ tr, Run (Next cap) σ tr σ' ∧ ∀ x ∈ tr, inPass x.label = true

/-- `scheduleReady` from its listing at `now` to its end. -/
def Pass (cap : Nat) (now : Time) (σ σ' : Sys) : Prop :=
  ∃ rows σ₁, σ.Next cap (.schedule (.list rows now)) σ₁ ∧ Alone cap σ₁ σ' ∧ σ'.sched = .loop []

theorem Alone.refl (cap : Nat) (σ : Sys) : Alone cap σ σ := ⟨[], .nil, by simp⟩

theorem Alone.snoc {σ₁ : Sys} {a : Action} (h : Alone cap σ σ₁) (hn : σ₁.Next cap a σ') (ha : inPass a = true) :
    Alone cap σ σ' := by
  obtain ⟨tr, hrun, hin⟩ := h
  exact ⟨_, hrun.snoc a hn, Run.forall_snoc.mpr ⟨hin, ha⟩⟩

/-- The jobs that found a slot, when `done` were taken. -/
def sent (cap : Nat) (σ₀ : Sys) (done : List Job) : List Job := done.take (free cap σ₀)

/-- The system after the jobs `done`, with the scheduler at `pc`. -/
def midway (cap : Nat) (σ₀ : Sys) (done : List Job) (pc : Scheduler) (st : Store) : Sys :=
  { σ₀ with
    sched := pc
    shared := { σ₀.shared with queue := σ₀.shared.queue ++ sent cap σ₀ done, store := st } }

/-- The invariant of the loop. -/
inductive Passing (cap : Nat) (σ₀ : Sys) (order : List Job) : Sys → Prop where
  | loop (done rest : List Job) : order = done ++ rest →
      Passing cap σ₀ order (midway cap σ₀ done (.loop rest) (enqueued σ₀.shared.store (sent cap σ₀ done)))
  | sending (done : List Job) (j : Job) (rest : List Job) : order = done ++ j :: rest →
      Passing cap σ₀ order
        (midway cap σ₀ done (.sending j rest) ((enqueued σ₀.shared.store (sent cap σ₀ done)).put j.asQueued))
  | reverting (done : List Job) (j : Job) (rest : List Job) : order = done ++ j :: rest →
      free cap σ₀ ≤ done.length → Passing cap σ₀ order
        (midway cap σ₀ done (.reverting j rest) ((enqueued σ₀.shared.store (sent cap σ₀ done)).put j.asQueued))

theorem act_send {sh sh' : Shared} {j : Job} {rest : List Job} {pc : Scheduler} :
    (Scheduler.sending j rest).act cap sh .send = some (pc, sh') ↔
      sh.queue.length < cap ∧ .loop rest = pc ∧ { sh with queue := sh.queue ++ [j] } = sh' := by
  simp only [Scheduler.act, Option.ite_none_right_eq_some, Option.some.injEq, Prod.mk.injEq]

theorem act_full {sh sh' : Shared} {j : Job} {rest : List Job} {pc : Scheduler} :
    (Scheduler.sending j rest).act cap sh .full = some (pc, sh') ↔
      cap ≤ sh.queue.length ∧ .reverting j rest = pc ∧ sh = sh' := by
  simp only [Scheduler.act, Option.ite_none_right_eq_some, Option.some.injEq, Prod.mk.injEq]

/-- The queue is full as soon as there are as many jobs done as there were free slots. -/
theorem full_iff (cap : Nat) (σ₀ : Sys) (done : List Job) (pc : Scheduler) (st : Store) :
    cap ≤ (midway cap σ₀ done pc st).shared.queue.length ↔ free cap σ₀ ≤ done.length := by
  change cap ≤ (σ₀.shared.queue ++ done.take (free cap σ₀)).length ↔ _
  rw [List.length_append, List.length_take]
  unfold free
  omega

theorem sent_snoc_of_lt {done : List Job} (j : Job) (h : done.length < free cap σ₀) :
    sent cap σ₀ (done ++ [j]) = sent cap σ₀ done ++ [j] := by
  unfold sent
  rw [List.take_of_length_le (by simpa using h), List.take_of_length_le h.le]

theorem sent_snoc_of_le {done : List Job} (j : Job) (h : free cap σ₀ ≤ done.length) :
    sent cap σ₀ (done ++ [j]) = sent cap σ₀ done := by
  unfold sent
  rw [List.take_append_of_le_length h]

/-- A job that was not reached yet is stored as it was listed. -/
theorem find_reached (cap : Nat) {done : List Job} {j : Job} {rest : List Job} (hnd : (order.map Job.id).Nodup)
    (hstored : ∀ i ∈ order, σ₀.shared.store.find i.id = some i ∧ i.state = .pending)
    (horder : order = done ++ j :: rest) :
    (enqueued σ₀.shared.store (sent cap σ₀ done)).find j.id = some j ∧ j.state = .pending := by
  have hj : j ∈ order := by rw [horder]; simp
  have hnew : j.id ∉ (sent cap σ₀ done).map Job.id := by
    rw [horder, List.map_append, List.nodup_append] at hnd
    intro hin
    obtain ⟨i, hi, hid⟩ := List.mem_map.mp hin
    exact hnd.2.2 i.id (List.mem_map_of_mem (List.mem_of_mem_take hi)) j.id (by simp) hid
  rw [find_enqueued_of_not_mem hnew]
  exact hstored j hj

/-- **One step of the loop.** -/
theorem Passing.step {a : Action} (hnd : (order.map Job.id).Nodup)
    (hstored : ∀ i ∈ order, σ₀.shared.store.find i.id = some i ∧ i.state = .pending)
    (h : Passing cap σ₀ order σ) (hn : σ.Next cap a σ') (ha : inPass a = true) : Passing cap σ₀ order σ' := by
  cases hn.acted with
  | @schedule b pc sh hact =>
    cases h with
    | loop done rest horder =>
      cases rest with
      | nil =>
        cases b with
        | list => cases ha
        | _ => simp [midway, Scheduler.act] at hact
      | cons j rest =>
        obtain ⟨hj, hs⟩ := find_reached cap hnd hstored horder
        cases b with
        | queue now =>
          simp only [midway, Scheduler.act, transition_pending hj hs] at hact
          cases hact
          exact .sending done j rest horder
        | list => cases ha
        | _ => simp [midway, Scheduler.act] at hact
    | sending done j rest horder =>
      have hfull := full_iff cap σ₀ done (.sending j rest) σ₀.shared.store
      simp only [midway] at hfull
      cases b with
      | send =>
        obtain ⟨hroom, rfl, rfl⟩ := act_send.mp hact
        have hlt : done.length < free cap σ₀ := not_le.mp fun hle => absurd (hfull.mpr hle) (not_le.mpr hroom)
        have hnext : Passing cap σ₀ order _ := .loop (done ++ [j]) rest (by rw [horder]; simp)
        rw [midway, sent_snoc_of_lt j hlt, enqueued_snoc, ← List.append_assoc] at hnext
        exact hnext
      | full =>
        obtain ⟨hno, rfl, rfl⟩ := act_full.mp hact
        exact .reverting done j rest horder (hfull.mp hno)
      | list => cases ha
      | _ => simp [midway, Scheduler.act] at hact
    | reverting done j rest horder hle =>
      obtain ⟨hj, hs⟩ := find_reached cap hnd hstored horder
      cases b with
      | revert now =>
        simp only [midway, Scheduler.act, Shared.write, transition_back hj hs] at hact
        cases hact
        have hnext : Passing cap σ₀ order _ := .loop (done ++ [j]) rest (by rw [horder]; simp)
        rw [midway, sent_snoc_of_le j hle] at hnext
        exact hnext
      | list => cases ha
      | _ => simp [midway, Scheduler.act] at hact
  | _ => cases ha

/-- What a pass leaves, `order` being the ready jobs in the order of dispatch. -/
structure Dispatched (cap : Nat) (now : Time) (σ σ' : Sys) (order : List Job) : Prop where
  perm : order.Perm (readyJobs σ.shared.store now)
  ordered : order.Pairwise fun a b => precedes a b = true
  queue : σ'.shared.queue = σ.shared.queue ++ order.take (free cap σ)
  queued : ∀ j ∈ order.take (free cap σ), σ'.job j.id = some { j with state := .queued }
  kept : ∀ id, id ∉ (order.take (free cap σ)).map Job.id → σ'.job id = σ.job id
  rest : σ' = { σ with shared := { σ.shared with queue := σ'.shared.queue, store := σ'.shared.store } }

/-- From the start of a round the loop can be run to its end. -/
theorem Alone.finishes (hnd : (order.map Job.id).Nodup)
    (hstored : ∀ i ∈ order, σ₀.shared.store.find i.id = some i ∧ i.state = .pending) (now : Time) :
    ∀ rest done : List Job, order = done ++ rest →
      Alone cap σ (midway cap σ₀ done (.loop rest) (enqueued σ₀.shared.store (sent cap σ₀ done))) →
      ∃ σ', Alone cap σ σ' ∧ σ'.sched = .loop [] := by
  intro rest
  induction rest with
  | nil =>
    intro done _ hrun
    exact ⟨_, hrun, rfl⟩
  | cons j rest ih =>
    intro done horder hrun
    obtain ⟨hj, hs⟩ := find_reached cap hnd hstored horder
    have horder' : order = (done ++ [j]) ++ rest := by rw [horder]; simp
    have hqueue : Next cap (midway cap σ₀ done (.loop (j :: rest)) (enqueued σ₀.shared.store (sent cap σ₀ done)))
        (.schedule (.queue now)) (midway cap σ₀ done (.sending j rest)
          ((enqueued σ₀.shared.store (sent cap σ₀ done)).put j.asQueued)) := by
      simp [Next, act, midway, Scheduler.act, transition_pending hj hs]
    have hrun₁ := hrun.snoc hqueue rfl
    by_cases hfull : free cap σ₀ ≤ done.length
    · have hlen := (full_iff cap σ₀ done (.sending j rest) σ₀.shared.store).mpr hfull
      have hno : Next cap (midway cap σ₀ done (.sending j rest)
            ((enqueued σ₀.shared.store (sent cap σ₀ done)).put j.asQueued)) (.schedule .full)
          (midway cap σ₀ done (.reverting j rest)
            ((enqueued σ₀.shared.store (sent cap σ₀ done)).put j.asQueued)) := by
        simp only [midway, List.length_append] at hlen
        simp [Next, act, midway, Scheduler.act, hlen]
      have hback : Next cap (midway cap σ₀ done (.reverting j rest)
            ((enqueued σ₀.shared.store (sent cap σ₀ done)).put j.asQueued)) (.schedule (.revert now))
          (midway cap σ₀ (done ++ [j]) (.loop rest) (enqueued σ₀.shared.store (sent cap σ₀ (done ++ [j])))) := by
        rw [midway, midway, sent_snoc_of_le j hfull]
        simp [Next, act, Scheduler.act, Shared.write, transition_back hj hs]
      exact ih (done ++ [j]) horder' ((hrun₁.snoc hno rfl).snoc hback rfl)
    · have hlt : done.length < free cap σ₀ := not_le.mp hfull
      have hlen := not_le.mp fun h =>
        hfull ((full_iff cap σ₀ done (.sending j rest) σ₀.shared.store).mp h)
      have hsend : Next cap (midway cap σ₀ done (.sending j rest)
            ((enqueued σ₀.shared.store (sent cap σ₀ done)).put j.asQueued)) (.schedule .send)
          (midway cap σ₀ (done ++ [j]) (.loop rest) (enqueued σ₀.shared.store (sent cap σ₀ (done ++ [j])))) := by
        rw [midway, midway, sent_snoc_of_lt j hlt, enqueued_snoc]
        simp only [midway, List.length_append] at hlen
        simp [Next, act, Scheduler.act, hlen]
      exact ih (done ++ [j]) horder' (hrun₁.snoc hsend rfl)

/-- The listing of a pass. -/
theorem listed {rows : List Job} (hidle : σ.sched = .loop []) (h : σ.Next cap (.schedule (.list rows now)) σ') :
    rows.Perm (σ.shared.store.listByState .pending) ∧
      σ' = midway cap σ [] (.loop (sortReady (rows.filter (isReady now)))) σ.shared.store := by
  cases h.acted with
  | schedule hact =>
    rw [hidle] at hact
    simp only [Scheduler.act, Option.ite_none_right_eq_some, Option.some.injEq, Prod.mk.injEq] at hact
    obtain ⟨hperm, rfl, rfl⟩ := hact
    exact ⟨hperm, by simp [midway, sent]⟩

/-- **A dispatch pass**, for any store, capacity and queue: it comes to its end, and the first ready jobs in the order
of dispatch, as many as there are free slots, are appended to the queue and stored as `QUEUED`; everything
else is as it was. -/
theorem dispatch_pass (cap : Nat) (now : Time) (σ : Sys) (hidle : σ.sched = .loop [])
    (hdistinct : ((readyJobs σ.shared.store now).map fun j => (j.priority, j.createdAt)).Nodup) :
    (∃ σ', Pass cap now σ σ') ∧ ∀ σ', Pass cap now σ σ' → ∃ order, Dispatched cap now σ σ' order := by
  have hreach : ∀ rows σ₁, σ.Next cap (.schedule (.list rows now)) σ₁ →
      ∃ order, order.Perm (readyJobs σ.shared.store now) ∧ order.Pairwise (fun a b => precedes a b = true) ∧
        σ₁ = midway cap σ [] (.loop order) σ.shared.store := by
    intro rows σ₁ hlist
    obtain ⟨hperm, rfl⟩ := listed hidle hlist
    have hready : (rows.filter (isReady now)).Perm (readyJobs σ.shared.store now) := hperm.filter _
    exact ⟨_, (sortReady_perm _).trans hready, sortReady_ordered ((hready.map _).nodup_iff.mpr hdistinct), rfl⟩
  have hfacts : ∀ order : List Job, order.Perm (readyJobs σ.shared.store now) → (order.map Job.id).Nodup ∧
      ∀ i ∈ order, σ.shared.store.find i.id = some i ∧ i.state = .pending := fun order hperm =>
    ⟨(hperm.map _).nodup_iff.mpr (nodup_readyJobs _ _), fun i hi => mem_readyJobs (hperm.mem_iff.mp hi)⟩
  constructor
  · have hlist : ∃ σ₁, σ.Next cap (.schedule (.list (σ.shared.store.listByState .pending) now)) σ₁ := by
      simp [Next, act, hidle, Scheduler.act]
    obtain ⟨σ₁, hlist⟩ := hlist
    obtain ⟨order, hperm, -, hσ₁⟩ := hreach _ _ hlist
    obtain ⟨hnd, hstored⟩ := hfacts order hperm
    have hstart : Alone cap σ₁ (midway cap σ [] (.loop order) (enqueued σ.shared.store (sent cap σ []))) := by
      rw [hσ₁]
      simpa [sent, enqueued] using Alone.refl cap _
    obtain ⟨σ', hrun, hend⟩ := Alone.finishes hnd hstored now order [] rfl hstart
    exact ⟨σ', _, σ₁, hlist, hrun, hend⟩
  · rintro σ' ⟨rows, σ₁, hlist, ⟨tr, hrun, hin⟩, hend⟩
    obtain ⟨order, hperm, hordered, rfl⟩ := hreach _ _ hlist
    obtain ⟨hnd, hstored⟩ := hfacts order hperm
    have hstart : Passing cap σ order (midway cap σ [] (.loop order) σ.shared.store) := by
      simpa [sent, enqueued] using (.loop [] order rfl : Passing cap σ order _)
    have hpassing := Run.inv (Passing cap σ order) (fun x => inPass x.label = true)
      (fun x hn ha hI => hI.step hnd hstored hn ha) hstart hrun hin
    cases hpassing with
    | loop done rest horder =>
      obtain rfl : rest = [] := by simpa [midway] using hend
      obtain rfl : order = done := by simpa using horder
      have hsent : ((sent cap σ order).map Job.id).Nodup := (List.Sublist.map _ (List.take_sublist _ _)).nodup hnd
      exact ⟨order, hperm, hordered, rfl, fun j hj => find_enqueued hsent hj,
        fun id hid => find_enqueued_of_not_mem hid, by rw [← hidle]; rfl⟩
    | sending => cases hend
    | reverting => cases hend

/-- Three ready jobs, one that still backs off, and one free slot. -/
def crowded : Sys :=
  { workers := []
    shared :=
      { queue := [{ id := "job_0", state := .pending }]
        store := [{ id := "job_0", state := .queued }, { id := "job_1", state := .pending, createdAt := 1 },
            { id := "job_2", state := .pending, priority := 5, createdAt := 3, runAfter := 4 },
            { id := "job_3", state := .pending, priority := 5, createdAt := 2 },
            { id := "job_4", state := .pending, priority := 9, runAfter := 30 }].foldl Store.put {} } }

theorem dispatch_pass_crowded : ∃ σ' order, Pass 2 20 crowded σ' ∧ Dispatched 2 20 crowded σ' order ∧
    (readyJobs crowded.shared.store 20).length = 3 ∧ free 2 crowded = 1 := by
  obtain ⟨⟨σ', hpass⟩, hall⟩ := dispatch_pass 2 20 crowded rfl (by decide +kernel)
  obtain ⟨order, hdispatched⟩ := hall σ' hpass
  exact ⟨σ', order, hpass, hdispatched, by decide +kernel, by decide +kernel⟩

end Sys

end Orchestrator
