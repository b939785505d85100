import InfraPlatform.Lib.Permits
import InfraPlatform.Lib.Run
import InfraPlatform.ControlPlane.Agent

/-!
# The slots of a node agent

`pollOnce` and the goroutines it starts, at the granularity of operations on the channel `a.sem`.  The poll loop takes
a slot with a send that does not block.  On an error, or without a pod, it gives the slot back itself; with a pod the
slot goes to a new goroutine, which gives it back in its deferred function.  A receive from an empty channel
blocks.

The channel holds no more than a count.  The number of each slot is recorded beside it (`Ledger`), to say which
one is given back.

* `Change`: what a step does to the slots.
* `slots_accounted`: in every run the slots in use are those of the pods and of the poll.
* `Inv.moves`, `Inv.semLen_eq`: the steps are those of `Agent`, which has no channel and counts pods and poll
  instead.

Left out: the gauge of running jobs, and `a.wg`.
-/

namespace ControlPlane.Worker

open Lib

/-! ## The poll loop and the goroutines -/

/-- Where the poll loop stands in `pollOnce`. -/
inductive Poller where
  /-- at the ticker -/
  | idle
  /-- in `a.get` -/
  | polling (slot : Nat)
  /-- about to give the slot back, after an error or without a pod -/
  | failed (slot : Nat)
  | noPod (slot : Nat)
  /-- about to start the goroutine -/
  | answered (slot : Nat) (pod : Pod)
deriving DecidableEq

/-- A goroutine: in `runPod`, or in its deferred function. -/
structure Runner where
  slot : Nat
  job : Job
  returned : Bool := false
deriving DecidableEq

structure Slots where
  maxConcurrentJobs : Int
  /-- `len(a.sem)` -/
  sem : Nat := 0
  poller : Poller := .idle
  runners : List Runner := []
  ledger : Ledger := {}
deriving DecidableEq

inductive SlotAct where
  /-- the ticker fires -/
  | tick
  /-- what `a.get` comes back with -/
  | pollFails
  | noPod
  | pod (pod : Pod)
  /-- the poll loop: `<-a.sem`, or the `go` statement -/
  | giveBack
  | start
  /-- goroutine `i`: `runPod` goes on, or returns; `<-a.sem` -/
  | goOn (i : Nat) (phase : Phase)
  | complete (i : Nat)
  | release (i : Nat)
deriving DecidableEq

namespace Slots

variable (σ : Slots)

/-- `cap(a.sem)` -/
def semCap : Nat := (max σ.maxConcurrentJobs 1).toNat

/-- `a.sem <- struct{}{}` -/
def send : Option (Nat × Slots) :=
  if σ.sem < σ.semCap then some (σ.ledger.taken, { σ with sem := σ.sem + 1, ledger := σ.ledger.take }) else none

/-- `<-a.sem` by the holder of a slot. -/
def receive (slot : Nat) : Option Slots :=
  if 0 < σ.sem then some { σ with sem := σ.sem - 1, ledger := σ.ledger.give slot } else none

def setRunner (i : Nat) (r : Runner) : Slots := { σ with runners := σ.runners.set i r }

def act : SlotAct → Option Slots
  | .tick =>
    match σ.poller with
    | .idle =>
      match σ.send with
      | some (slot, σ') => some { σ' with poller := .polling slot }
      | none => some σ
    | _ => none
  | .pollFails =>
    match σ.poller with
    | .polling slot => some { σ with poller := .failed slot }
    | _ => none
  | .noPod =>
    match σ.poller with
    | .polling slot => some { σ with poller := .noPod slot }
    | _ => none
  | .pod pod =>
    match σ.poller with
    | .polling slot => some { σ with poller := .answered slot pod }
    | _ => none
  | .giveBack =>
    match σ.poller with
    | .failed slot | .noPod slot => (σ.receive slot).map fun σ' => { σ' with poller := .idle }
    | _ => none
  | .start =>
    match σ.poller with
    | .answered slot pod => some { σ with poller := .idle, runners := σ.runners ++ [{ slot, job := { pod } }] }
    | _ => none
  | .goOn i phase =>
    match σ.runners[i]? with
    | some ⟨slot, job, false⟩ => some (σ.setRunner i ⟨slot, { job with phase }, false⟩)
    | _ => none
  | .complete i =>
    match σ.runners[i]? with
    | some ⟨slot, job, false⟩ => some (σ.setRunner i ⟨slot, job, true⟩)
    | _ => none
  | .release i =>
    match σ.runners[i]? with
    | some ⟨slot, _, true⟩ => (σ.receive slot).map fun σ' => { σ' with runners := σ'.runners.eraseIdx i }
    | _ => none

def Next (σ : Slots) (a : SlotAct) (σ' : Slots) : Prop := σ.act a = some σ'

def start (maxConcurrentJobs : Int) : Slots := { maxConcurrentJobs }

end Slots

/-! ## What a step does -/

namespace Slots

/-- The steps that `act` takes, one by one. -/
inductive Acted (σ : Slots) : SlotAct → Slots → Prop where
  | poll : σ.poller = .idle → σ.sem < σ.semCap → Acted σ .tick
      { σ with sem := σ.sem + 1, ledger := σ.ledger.take, poller := .polling σ.ledger.taken }
  | full : σ.poller = .idle → σ.semCap ≤ σ.sem → Acted σ .tick σ
  | pollFails (slot : Nat) : σ.poller = .polling slot → Acted σ .pollFails { σ with poller := .failed slot }
  | noPod (slot : Nat) : σ.poller = .polling slot → Acted σ .noPod { σ with poller := .noPod slot }
  | pod (slot : Nat) (pod : Pod) : σ.poller = .polling slot →
      Acted σ (.pod pod) { σ with poller := .answered slot pod }
  | giveBack (slot : Nat) : σ.poller = .failed slot ∨ σ.poller = .noPod slot → 0 < σ.sem → Acted σ .giveBack
      { σ with sem := σ.sem - 1, ledger := σ.ledger.give slot, poller := .idle }
  | start (slot : Nat) (pod : Pod) : σ.poller = .answered slot pod → Acted σ .start
      { σ with poller := .idle, runners := σ.runners ++ [{ slot, job := { pod } }] }
  | goOn (i slot : Nat) (job : Job) (phase : Phase) : σ.runners[i]? = some ⟨slot, job, false⟩ →
      Acted σ (.goOn i phase) (σ.setRunner i ⟨slot, { job with phase }, false⟩)
  | complete (i slot : Nat) (job : Job) : σ.runners[i]? = some ⟨slot, job, false⟩ →
      Acted σ (.complete i) (σ.setRunner i ⟨slot, job, true⟩)
  | release (i slot : Nat) (job : Job) : σ.runners[i]? = some ⟨slot, job, true⟩ → 0 < σ.sem → Acted σ (.release i)
      { σ with sem := σ.sem - 1, ledger := σ.ledger.give slot, runners := σ.runners.eraseIdx i }

variable {σ σ' : Slots} {a : SlotAct}

theorem receive_eq {slot : Nat} (h : σ.receive slot = some σ') :
    0 < σ.sem ∧ σ' = { σ with sem := σ.sem - 1, ledger := σ.ledger.give slot } := by
  unfold receive at h
  obtain ⟨hpos, h⟩ := Option.ite_none_right_eq_some.mp h
  exact ⟨hpos, (Option.some.inj h).symm⟩

theorem Next.acted (h : σ.Next a σ') : σ.Acted a σ' := by
  unfold Next at h
  cases a with
  | tick =>
    simp only [act] at h
    split at h
    · next hidle =>
      unfold send at h
      by_cases hlt : σ.sem < σ.semCap
      · rw [if_pos hlt] at h
        obtain rfl := Option.some.inj h
        exact .poll hidle hlt
      · rw [if_neg hlt] at h
        obtain rfl := Option.some.inj h
        exact .full hidle (Nat.le_of_not_lt hlt)
    · cases h
  | pollFails =>
    simp only [act] at h
    split at h
    · next slot hpoller =>
      obtain rfl := Option.some.inj h
      exact .pollFails slot hpoller
    · cases h
  | noPod =>
    simp only [act] at h
    split at h
    · next slot hpoller =>
      obtain rfl := Option.some.inj h
      exact .noPod slot hpoller
    · cases h
  | pod pod =>
    simp only [act] at h
    split at h
    · next slot hpoller =>
      obtain rfl := Option.some.inj h
      exact .pod slot pod hpoller
    · cases h
  | giveBack =>
    simp only [act] at h
    split at h
    · next slot hpoller =>
      obtain ⟨σ₁, hreceive, rfl⟩ := Option.map_eq_some_iff.mp h
      obtain ⟨hpos, rfl⟩ := receive_eq hreceive
      exact .giveBack slot (.inl hpoller) hpos
    · next slot hpoller =>
      obtain ⟨σ₁, hreceive, rfl⟩ := Option.map_eq_some_iff.mp h
      obtain ⟨hpos, rfl⟩ := receive_eq hreceive
      exact .giveBack slot (.inr hpoller) hpos
    · cases h
  | start =>
    simp only [act] at h
    split at h
    · next slot pod hpoller =>
      obtain rfl := Option.some.inj h
      exact .start slot pod hpoller
    · cases h
  | goOn i phase =>
    simp only [act] at h
    split at h
    · next slot job hrunner =>
      obtain rfl := Option.some.inj h
      exact .goOn i slot job phase hrunner
    · cases h
  | complete i =>
    simp only [act] at h
    split at h
    · next slot job hrunner =>
      obtain rfl := Option.some.inj h
      exact .complete i slot job hrunner
    · cases h
  | release i =>
    simp only [act] at h
    split at h
    · next slot job hrunner =>
      obtain ⟨σ₁, hreceive, rfl⟩ := Option.map_eq_some_iff.mp h
      obtain ⟨hpos, rfl⟩ := receive_eq hreceive
      exact .release i slot job hrunner hpos
    · cases h

end Slots

/-! ## Who holds a slot -/

def Poller.slot : Poller → Option Nat
  | .idle => none
  | .polling slot | .failed slot | .noPod slot | .answered slot _ => some slot

/-- A poll is in flight from the send to the `go` statement, or to the receive. -/
def Poller.inFlight (p : Poller) : Nat := if p = .idle then 0 else 1

theorem Poller.slot_length (p : Poller) : p.slot.toList.length = p.inFlight := by
  cases p <;> rfl

namespace Slots

/-- The slots of the poll and of the pods. -/
def held (σ : Slots) : List Nat := σ.poller.slot.toList ++ σ.runners.map Runner.slot

theorem held_length (σ : Slots) : σ.held.length = σ.runners.length + σ.poller.inFlight := by
  unfold held
  rw [List.length_append, Poller.slot_length, List.length_map, Nat.add_comm]

variable {σ σ' : Slots} {a : SlotAct}

/-- A goroutine keeps its slot. -/
theorem held_setRunner {i : Nat} {r : Runner} (h : σ.runners[i]? = some r) (r' : Runner) (hslot : r'.slot = r.slot) :
    (σ.setRunner i r').held = σ.held := by
  have hget : (σ.runners.map Runner.slot)[i]? = some r.slot := by rw [List.getElem?_map, h]; rfl
  obtain ⟨hi, heq⟩ := List.getElem?_eq_some_iff.mp hget
  unfold held setRunner
  rw [List.map_set, hslot, ← heq, List.set_getElem_self]

/-- A goroutine that gives its slot back is gone. -/
theorem held_eraseIdx {i : Nat} {r : Runner} (h : σ.runners[i]? = some r) :
    σ.held.Perm (r.slot :: held { σ with runners := σ.runners.eraseIdx i }) := by
  obtain ⟨hi, rfl⟩ := List.getElem?_eq_some_iff.mp h
  have hperm : (σ.runners.map Runner.slot).Perm (σ.runners[i].slot :: (σ.runners.eraseIdx i).map Runner.slot) :=
    ((List.getElem_cons_eraseIdx_perm hi).map Runner.slot).symm
  exact (hperm.append_left _).trans List.perm_middle

/-- What a step does to the slots: nothing but pass them on, take one, or give one back. -/
inductive Change (σ σ' : Slots) : Prop where
  | keep : σ'.semCap = σ.semCap → σ'.sem = σ.sem → σ'.ledger = σ.ledger → σ'.held.Perm σ.held → Change σ σ'
  | take : σ'.semCap = σ.semCap → σ.sem < σ.semCap → σ'.sem = σ.sem + 1 → σ'.ledger = σ.ledger.take →
      σ'.held.Perm (σ.ledger.taken :: σ.held) → Change σ σ'
  | give (slot : Nat) : σ'.semCap = σ.semCap → σ'.sem + 1 = σ.sem → σ'.ledger = σ.ledger.give slot →
      σ.held.Perm (slot :: σ'.held) → Change σ σ'

theorem Next.change (h : σ.Next a σ') : Change σ σ' := by
  cases h.acted with
  | poll hidle hlt => exact .take rfl hlt rfl rfl (by simp [held, hidle, Poller.slot])
  | full => exact .keep rfl rfl rfl (.refl _)
  | pollFails slot hpoller => exact .keep rfl rfl rfl (by simp [held, hpoller, Poller.slot])
  | noPod slot hpoller => exact .keep rfl rfl rfl (by simp [held, hpoller, Poller.slot])
  | pod slot pod hpoller => exact .keep rfl rfl rfl (by simp [held, hpoller, Poller.slot])
  | giveBack slot hpoller hpos =>
    refine .give slot rfl (Nat.sub_add_cancel hpos) rfl ?_
    rcases hpoller with hpoller | hpoller <;> simp [held, hpoller, Poller.slot]
  | start slot pod hpoller =>
    -- the slot passes from the poll to the goroutine
    exact .keep rfl rfl rfl (by simp [held, hpoller, Poller.slot])
  | goOn i slot job phase hrunner => exact .keep rfl rfl rfl (.of_eq (held_setRunner hrunner _ rfl))
  | complete i slot job hrunner => exact .keep rfl rfl rfl (.of_eq (held_setRunner hrunner _ rfl))
  | release i slot job hrunner hpos =>
    exact .give slot rfl (Nat.sub_add_cancel hpos) rfl (held_eraseIdx hrunner)

/-! ## Whole runs -/

structure Inv (maxConcurrentJobs : Int) (σ : Slots) : Prop where
  semCap : σ.semCap = (max maxConcurrentJobs 1).toNat
  sem : σ.sem = σ.held.length
  le : σ.sem ≤ σ.semCap
  accounts : σ.ledger.Accounts σ.held

variable {maxConcurrentJobs : Int} {tr : List (Step Slots SlotAct)}

theorem Inv.next (h : σ.Inv maxConcurrentJobs) (hn : σ.Next a σ') : σ'.Inv maxConcurrentJobs := by
  have hle := h.le
  have hsem := h.sem
  cases hn.change with
  | keep hcap hs hl hperm =>
    refine ⟨hcap.trans h.semCap, ?_, by omega, ?_⟩
    · rw [hperm.length_eq]
      omega
    · rw [hl]
      exact h.accounts.pass hperm
  | take hcap hlt hs hl hperm =>
    refine ⟨hcap.trans h.semCap, ?_, by omega, ?_⟩
    · rw [hperm.length_eq, List.length_cons]
      omega
    · rw [hl]
      exact h.accounts.take.pass hperm
  | give slot hcap hs hl hperm =>
    have hlen := hperm.length_eq
    rw [List.length_cons] at hlen
    refine ⟨hcap.trans h.semCap, by omega, by omega, ?_⟩
    rw [hl]
    exact h.accounts.give hperm

theorem inv_of_run (h : Run Next (start maxConcurrentJobs) tr σ) : σ.Inv maxConcurrentJobs := by
  refine Run.inv (Inv maxConcurrentJobs) (fun _ => True) (fun _ hn _ hI => hI.next hn) ?_ h fun _ _ => trivial
  exact ⟨rfl, rfl, Nat.zero_le _, .start⟩

/-- The holder of a slot never waits to give it back. -/
theorem Inv.receive_ne_none (h : σ.Inv maxConcurrentJobs) {slot : Nat} (hslot : slot ∈ σ.held) :
    σ.receive slot ≠ none := by
  have hpos : 0 < σ.sem := by
    rw [h.sem]
    exact List.length_pos_of_mem hslot
  unfold receive
  rw [if_pos hpos]
  exact Option.some_ne_none _

/-- **The slots are accounted for.**  In every run the slots in use are one for each pod and one for a poll in
flight, and no more than the channel has; each slot that was taken is with one of these or was given back once, and
giving it back does not block.  With no pod and no poll all slots are free, and each one taken was given back. -/
theorem slots_accounted (maxConcurrentJobs : Int) (tr : List (Step Slots SlotAct)) (σ : Slots)
    (h : Run Next (start maxConcurrentJobs) tr σ) :
    σ.sem = σ.runners.length + σ.poller.inFlight ∧
    (σ.sem : Int) ≤ max maxConcurrentJobs 1 ∧
    σ.ledger.Accounts σ.held ∧
    (∀ slot ∈ σ.held, σ.receive slot ≠ none) ∧
    (σ.runners = [] → σ.poller = .idle →
      σ.sem = 0 ∧ σ.ledger.given.Perm (List.range σ.ledger.taken)) := by
  have hI := inv_of_run h
  have hsem : σ.sem = σ.runners.length + σ.poller.inFlight := hI.sem.trans σ.held_length
  refine ⟨hsem, ?_, hI.accounts, fun slot hslot => hI.receive_ne_none hslot, ?_⟩
  · have hle := hI.le
    have hcap := hI.semCap
    omega
  · intro hrunners hidle
    have hheld : σ.held = [] := by simp [held, hrunners, hidle, Poller.slot]
    have haccounts := hI.accounts
    unfold Ledger.Accounts at haccounts
    rw [hheld, List.append_nil] at haccounts
    exact ⟨by rw [hI.sem, hheld]; rfl, haccounts⟩

/-- One pod, a tick while it runs, and polls that fail and find nothing. -/
def onePod : List SlotAct :=
  [.tick, .pod { id := "pod-1", deploymentID := "dep-1", status := .scheduled }, .start, .tick, .goOn 0 .executing,
    .complete 0, .release 0, .tick, .pollFails, .giveBack, .tick, .noPod, .giveBack]

theorem slots_accounted_onePod :
    (stateAfter act (start 1) onePod).ledger.taken = 3 ∧ (stateAfter act (start 1) onePod).sem = 0 := by
  have hrun : Run Next (start 1) ([] ++ stepsOf act (start 1) onePod) (stateAfter act (start 1) onePod) :=
    run_stepsOf act (fun _ _ _ h => h) .nil onePod
  refine ⟨by decide +kernel, ?_⟩
  exact ((slots_accounted 1 _ _ hrun).2.2.2.2 (by decide +kernel) (by decide +kernel)).1

end Slots

/-! ## The agent -/

def Poller.poll : Poller → PollState
  | .idle => .idle
  | .polling _ => .requested
  | .failed _ | .noPod _ => .answered none
  | .answered _ pod => .answered (some pod)

/-- What the poll loop and the goroutines do to an `Agent`. -/
inductive Agent.Moves (a : Agent) : Agent → Prop where
  | same : a.Moves a
  | poll (a' : Agent) : a.pollOnce = some a' → a.Moves a'
  | answered (pod : Option Pod) : a.poll = .requested → a.Moves (a.answered pod)
  | received (pod : Option Pod) : a.poll = .answered pod → a.Moves (a.received pod)
  | setJob (i : Nat) (j j' : Job) : a.jobs[i]? = some j → j'.pod = j.pod → a.Moves (a.setJob i j')
  | release (i : Nat) (j : Job) : a.jobs[i]? = some j → a.Moves { a with jobs := a.jobs.eraseIdx i }

namespace Slots

/-- The agent without its channel. -/
def agent (σ : Slots) : Agent where
  maxConcurrentJobs := σ.maxConcurrentJobs
  poll := σ.poller.poll
  jobs := σ.runners.map Runner.job

variable {σ σ' : Slots} {a : SlotAct} {maxConcurrentJobs : Int}

/-- **The count of `Agent` is the length of the channel.** -/
theorem Inv.semLen_eq (h : σ.Inv maxConcurrentJobs) : σ.agent.semLen = σ.sem := by
  rw [h.sem, held_length]
  unfold Agent.semLen agent Poller.inFlight
  rw [List.length_map]
  congr 1
  cases σ.poller <;> rfl

/-- **A step is one of the agent's**: `Agent.pollOnce` takes a slot exactly when the channel has one. -/
theorem Inv.moves (h : σ.Inv maxConcurrentJobs) (hn : σ.Next a σ') : σ.agent.Moves σ'.agent := by
  cases hn.acted with
  | poll hidle hlt =>
    refine .poll _ ?_
    unfold Agent.pollOnce
    rw [if_pos ⟨by simp [agent, hidle, Poller.poll], by rw [h.semLen_eq]; exact hlt⟩]
    rfl
  | full => exact .same
  | pollFails slot hpoller => exact .answered none (by simp [agent, hpoller, Poller.poll])
  | noPod slot hpoller => exact .answered none (by simp [agent, hpoller, Poller.poll])
  | pod slot pod hpoller => exact .answered (some pod) (by simp [agent, hpoller, Poller.poll])
  | giveBack slot hpoller hpos =>
    refine .received none ?_
    rcases hpoller with hpoller | hpoller <;> simp [agent, hpoller, Poller.poll]
  | start slot pod hpoller =>
    have hmove : σ.agent.Moves (σ.agent.received (some pod)) :=
      .received (some pod) (by simp [agent, hpoller, Poller.poll])
    have heq : agent { σ with poller := .idle, runners := σ.runners ++ [{ slot, job := { pod } }] } =
        σ.agent.received (some pod) := by
      simp [agent, Agent.received, Poller.poll]
    rw [heq]
    exact hmove
  | goOn i slot job phase hrunner =>
    have hmove : σ.agent.Moves (σ.agent.setJob i { job with phase }) :=
      .setJob i job _ (by simp [agent, hrunner]) rfl
    have heq : (σ.setRunner i ⟨slot, { job with phase }, false⟩).agent = σ.agent.setJob i { job with phase } := by
      simp [agent, Agent.setJob, setRunner, List.map_set]
    rw [heq]
    exact hmove
  | complete i slot job hrunner =>
    have hjob : (σ.runners.map Runner.job)[i]? = some job := by rw [List.getElem?_map, hrunner]; rfl
    obtain ⟨hi, heq⟩ := List.getElem?_eq_some_iff.mp hjob
    have hsame : (σ.setRunner i ⟨slot, job, true⟩).agent = σ.agent := by
      simp only [agent, setRunner, List.map_set]
      rw [← heq, List.set_getElem_self]
    rw [hsame]
    exact .same
  | release i slot job hrunner hpos =>
    have hmove : σ.agent.Moves { σ.agent with jobs := σ.agent.jobs.eraseIdx i } :=
      .release i job (by simp [agent, hrunner])
    have heq : agent { σ with sem := σ.sem - 1, ledger := σ.ledger.give slot, runners := σ.runners.eraseIdx i } =
        { σ.agent with jobs := σ.agent.jobs.eraseIdx i } := by
      simp [agent, List.eraseIdx_map]
    rw [heq]
    exact hmove

end Slots

end ControlPlane.Worker
