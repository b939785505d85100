import InfraPlatform.Lib.Count
import InfraPlatform.ControlPlane.Agent

/-!
# Shutdown of a node agent

`Agent.Run` with its goroutines: the poll loop, the heartbeat loop, one goroutine for each pod, and the one that
waits for the pods and closes `drained`.  When `ctx` is cancelled, `Run` waits for `drained`, or for its timer
and then for `drained`, and last for the two loops.

The wait group of the pods may be seen at zero while a poll is under way: its response starts another
goroutine, which nothing waits for.

* `Process.act`: the steps of the agent.  The response to a poll may be taken although `ctx` is done (the
  client chooses between the two); a poll that is begun after that fails at once.
* `drained_iff`: once `drained` is closed no pod is ever running, and every pod that was started has its final
  status sent, exactly if no poll was under way or carried a pod.
* `returns_while_executing`: `Run` returns while a pod runs.
-/

namespace ControlPlane.Worker

open Lib Api

/-! ## The process -/

/-- Where `Run` stands after the registration. -/
inductive RunPhase where
  /-- at `<-ctx.Done()` -/
  | serving
  /-- in the select of `drained` and the timer, at `<-drained` after the timer -/
  | draining
  | expired
  /-- in `loopWG.Wait` -/
  | joining
  | returned
deriving DecidableEq, Repr

structure Process where
  agent : Agent
  ctxDone : Bool := false
  /-- the context of the pods -/
  runDone : Bool := false
  phase : RunPhase := .serving
  /-- `a.wg` was seen at zero -/
  drained : Bool := false
  pollStopped : Bool := false
  heartbeatStopped : Bool := false
  /-- the pods for which a goroutine was started, and those whose final status was sent -/
  started : List String := []
  sent : List String := []
deriving DecidableEq

inductive ProcessAct where
  /-- the poll loop: send a poll, get its response or an error, take the response up -/
  | poll
  | respond (pod : Option Pod)
  | pollFails
  | receive
  /-- goroutine `i`, as in `Action` -/
  | claim (i : Nat)
  | execute (i : Nat)
  | refuse (i : Nat) (outcome : Outcome)
  | finish (i : Nat) (outcome : Outcome)
  | release (i : Nat)
  /-- `ctx` is cancelled; the loops and `Run` see it -/
  | cancel
  | stopPoll
  | stopHeartbeat
  | wake
  /-- `a.wg.Wait` returns -/
  | drain
  /-- the timer fires -/
  | expire
  /-- `Run` receives from `drained`, and returns -/
  | proceed
  | join
deriving DecidableEq

/-- How a pod that could not be started is reported: a subprocess that is not started because its context is done
counts as shut down. -/
def Outcome.refusal (runDone : Bool) (pod : Pod) : Outcome → Bool
  | .shutdown _ => runDone && pod.image == ""
  | .failed .. => !runDone || pod.image != ""
  | .succeeded _ => false

/-- How a pod that was started ends: of a container, the exit and the context may both be seen first. -/
def Outcome.ending (runDone : Bool) (pod : Pod) : Outcome → Bool
  | .shutdown _ => runDone
  | .failed .. | .succeeded _ => !runDone || pod.image != ""

namespace Process

def setJob (σ : Process) (i : Nat) (j : Job) : Process := { σ with agent := σ.agent.setJob i j }

/-- The goroutine sends its final report. -/
def report (σ : Process) (i : Nat) (pod : Pod) : Process :=
  { σ.setJob i ⟨pod, .reporting⟩ with sent := σ.sent ++ [pod.id] }

/-- The response to a poll is taken up. -/
def received (σ : Process) (pod : Option Pod) : Process :=
  { σ with agent := σ.agent.received pod, started := σ.started ++ (pod.map Pod.id).toList }

def act (σ : Process) : ProcessAct → Option Process
  | .poll =>
    if σ.ctxDone || σ.pollStopped then none else σ.agent.pollOnce.map fun agent => { σ with agent }
  | .respond pod => if σ.agent.poll = .requested then some { σ with agent := σ.agent.answered pod } else none
  | .pollFails => if σ.agent.poll = .requested then some (σ.received none) else none
  | .receive =>
    match σ.agent.poll with
    | .answered pod => some (σ.received pod)
    | _ => none
  | .claim i =>
    match σ.agent.jobs[i]? with
    | some ⟨pod, .handed⟩ => some (σ.setJob i ⟨pod, .claiming⟩)
    | _ => none
  | .execute i =>
    match σ.agent.jobs[i]? with
    | some ⟨pod, .claiming⟩ =>
      if !σ.runDone && σ.agent.startable pod then some (σ.setJob i ⟨pod, .executing⟩) else none
    | _ => none
  | .refuse i outcome =>
    match σ.agent.jobs[i]? with
    | some ⟨pod, .claiming⟩ => if outcome.refusal σ.runDone pod then some (σ.report i pod) else none
    | _ => none
  | .finish i outcome =>
    match σ.agent.jobs[i]? with
    | some ⟨pod, .executing⟩ => if outcome.ending σ.runDone pod then some (σ.report i pod) else none
    | _ => none
  | .release i =>
    match σ.agent.jobs[i]? with
    | some ⟨_, .reporting⟩ => some { σ with agent := { σ.agent with jobs := σ.agent.jobs.eraseIdx i } }
    | _ => none
  | .cancel => some { σ with ctxDone := true }
  | .stopPoll => if σ.ctxDone && σ.agent.poll = .idle then some { σ with pollStopped := true } else none
  | .stopHeartbeat => if σ.ctxDone then some { σ with heartbeatStopped := true } else none
  | .wake => if σ.ctxDone && σ.phase = .serving then some { σ with phase := .draining } else none
  | .drain =>
    if (σ.phase = .draining || σ.phase = .expired) && σ.agent.jobs.isEmpty && !σ.drained then
      some { σ with drained := true }
    else none
  | .expire => if σ.phase = .draining then some { σ with phase := .expired, runDone := true } else none
  | .proceed =>
    if (σ.phase = .draining || σ.phase = .expired) && σ.drained then some { σ with phase := .joining } else none
  -- `runCancel` is deferred
  | .join =>
    if σ.phase = .joining && σ.pollStopped && σ.heartbeatStopped then
      some { σ with phase := .returned, runDone := true }
    else none

def Next (σ : Process) (a : ProcessAct) (σ' : Process) : Prop := σ.act a = some σ'

def start (maxConcurrentJobs : Int) : Process := { agent := { maxConcurrentJobs } }

/-! ## What a step does -/

/-- The steps that `act` takes, one by one. -/
inductive Acted (σ : Process) : ProcessAct → Process → Prop where
  | poll : σ.ctxDone = false → Acted σ .poll { σ with agent := { σ.agent with poll := .requested } }
  | respond (pod : Option Pod) : σ.agent.poll = .requested →
      Acted σ (.respond pod) { σ with agent := σ.agent.answered pod }
  | pollFails : σ.agent.poll = .requested → Acted σ .pollFails (σ.received none)
  | receive (pod : Option Pod) : σ.agent.poll = .answered pod → Acted σ .receive (σ.received pod)
  | claim (i : Nat) (pod : Pod) : σ.agent.jobs[i]? = some ⟨pod, .handed⟩ →
      Acted σ (.claim i) (σ.setJob i ⟨pod, .claiming⟩)
  | execute (i : Nat) (pod : Pod) : σ.agent.jobs[i]? = some ⟨pod, .claiming⟩ →
      Acted σ (.execute i) (σ.setJob i ⟨pod, .executing⟩)
  | refuse (i : Nat) (outcome : Outcome) (pod : Pod) : σ.agent.jobs[i]? = some ⟨pod, .claiming⟩ →
      Acted σ (.refuse i outcome) (σ.report i pod)
  | finish (i : Nat) (outcome : Outcome) (pod : Pod) : σ.agent.jobs[i]? = some ⟨pod, .executing⟩ →
      Acted σ (.finish i outcome) (σ.report i pod)
  | release (i : Nat) (pod : Pod) : σ.agent.jobs[i]? = some ⟨pod, .reporting⟩ →
      Acted σ (.release i) { σ with agent := { σ.agent with jobs := σ.agent.jobs.eraseIdx i } }
  | cancel : Acted σ .cancel { σ with ctxDone := true }
  | stopPoll : Acted σ .stopPoll { σ with pollStopped := true }
  | stopHeartbeat : Acted σ .stopHeartbeat { σ with heartbeatStopped := true }
  | wake : σ.ctxDone = true → σ.phase = .serving → Acted σ .wake { σ with phase := .draining }
  | drain : σ.phase ≠ .serving → σ.agent.jobs = [] → Acted σ .drain { σ with drained := true }
  | expire : σ.phase = .draining → Acted σ .expire { σ with phase := .expired, runDone := true }
  | proceed : σ.phase ≠ .serving → σ.drained = true → Acted σ .proceed { σ with phase := .joining }
  | join : σ.phase = .joining → Acted σ .join { σ with phase := .returned, runDone := true }

variable {σ σ' : Process} {a : ProcessAct}

theorem Next.acted (h : σ.Next a σ') : σ.Acted a σ' := by
  unfold Next at h
  cases a with
  | poll =>
    simp only [act] at h
    split at h
    · cases h
    · next hctx =>
      obtain ⟨b, hb, rfl⟩ := Option.map_eq_some_iff.mp h
      unfold Agent.pollOnce at hb
      split at hb
      · obtain rfl := Option.some.inj hb
        simp only [Bool.or_eq_true, not_or, Bool.not_eq_true] at hctx
        exact .poll hctx.1
      · cases hb
  | respond pod =>
    simp only [act, Option.ite_none_right_eq_some, Option.some.injEq] at h
    obtain ⟨hpoll, rfl⟩ := h
    exact .respond pod hpoll
  | pollFails =>
    simp only [act, Option.ite_none_right_eq_some, Option.some.injEq] at h
    obtain ⟨hpoll, rfl⟩ := h
    exact .pollFails hpoll
  | receive =>
    simp only [act] at h
    split at h
    · next pod hpoll =>
      obtain rfl := Option.some.inj h
      exact .receive pod hpoll
    · cases h
  | claim i =>
    simp only [act] at h
    split at h
    · next pod hjob =>
      obtain rfl := Option.some.inj h
      exact .claim i pod hjob
    · cases h
  | execute i =>
    simp only [act] at h
    split at h
    · next pod hjob =>
      obtain ⟨-, h⟩ := Option.ite_none_right_eq_some.mp h
      obtain rfl := Option.some.inj h
      exact .execute i pod hjob
    · cases h
  | refuse i outcome =>
    simp only [act] at h
    split at h
    · next pod hjob =>
      obtain ⟨-, h⟩ := Option.ite_none_right_eq_some.mp h
      obtain rfl := Option.some.inj h
      exact .refuse i outcome pod hjob
    · cases h
  | finish i outcome =>
    simp only [act] at h
    split at h
    · next pod hjob =>
      obtain ⟨-, h⟩ := Option.ite_none_right_eq_some.mp h
      obtain rfl := Option.some.inj h
      exact .finish i outcome pod hjob
    · cases h
  | release i =>
    simp only [act] at h
    split at h
    · next pod hjob =>
      obtain rfl := Option.some.inj h
      exact .release i pod hjob
    · cases h
  | cancel =>
    obtain rfl := Option.some.inj h
    exact .cancel
  | stopPoll =>
    obtain ⟨-, h⟩ := Option.ite_none_right_eq_some.mp h
    obtain rfl := Option.some.inj h
    exact .stopPoll
  | stopHeartbeat =>
    obtain ⟨-, h⟩ := Option.ite_none_right_eq_some.mp h
    obtain rfl := Option.some.inj h
    exact .stopHeartbeat
  | wake =>
    obtain ⟨hg, h⟩ := Option.ite_none_right_eq_some.mp h
    obtain rfl := Option.some.inj h
    simp only [Bool.and_eq_true, decide_eq_true_eq] at hg
    exact .wake hg.1 hg.2
  | drain =>
    obtain ⟨hg, h⟩ := Option.ite_none_right_eq_some.mp h
    obtain rfl := Option.some.inj h
    simp only [Bool.and_eq_true, Bool.or_eq_true, decide_eq_true_eq, List.isEmpty_iff] at hg
    obtain ⟨⟨hphase, hjobs⟩, -⟩ := hg
    refine .drain (fun hs => ?_) hjobs
    rw [hs] at hphase
    simp at hphase
  | expire =>
    obtain ⟨hphase, h⟩ := Option.ite_none_right_eq_some.mp h
    obtain rfl := Option.some.inj h
    exact .expire hphase
  | proceed =>
    obtain ⟨hg, h⟩ := Option.ite_none_right_eq_some.mp h
    obtain rfl := Option.some.inj h
    simp only [Bool.and_eq_true, Bool.or_eq_true, decide_eq_true_eq] at hg
    refine .proceed (fun hs => ?_) hg.2
    rw [hs] at hg
    simp at hg
  | join =>
    obtain ⟨hg, h⟩ := Option.ite_none_right_eq_some.mp h
    obtain rfl := Option.some.inj h
    simp only [Bool.and_eq_true, decide_eq_true_eq] at hg
    exact .join hg.1.1

/-! ## Invariants -/

/-- A goroutine for pod `id` that has not sent the final status. -/
def unreported (id : String) (j : Job) : Bool := j.pod.id == id && j.phase != .reporting

theorem unreported_of_ne {id : String} {pod : Pod} {ph : Phase} (h : ph ≠ .reporting) :
    unreported id ⟨pod, ph⟩ = (pod.id == id) := by
  simp [unreported, bne_iff_ne.mpr h]

@[simp] theorem unreported_reporting (id : String) (pod : Pod) : unreported id ⟨pod, .reporting⟩ = false := by
  simp [unreported]

/-- The order in which `Run` goes through its waits. -/
structure Ordered (σ : Process) : Prop where
  woken : σ.phase ≠ .serving → σ.ctxDone = true
  drained : σ.phase = .joining ∨ σ.phase = .returned → σ.drained = true

/-- Every goroutine that was started has sent its final status or is there still. -/
def Accounted (σ : Process) : Prop :=
  ∀ id, σ.sent.count id + σ.agent.jobs.countP (unreported id) = σ.started.count id

theorem Ordered.step (h : Ordered σ) (hs : σ.Acted a σ') : Ordered σ' := by
  cases hs with
  | cancel => exact ⟨fun _ => rfl, h.drained⟩
  | wake hctx => exact ⟨fun _ => hctx, by simp⟩
  | drain => exact ⟨h.woken, fun _ => rfl⟩
  | expire hphase => exact ⟨fun _ => h.woken (by simp [hphase]), by simp⟩
  | proceed hphase hd => exact ⟨fun _ => h.woken hphase, fun _ => hd⟩
  | join hphase => exact ⟨fun _ => h.woken (by simp [hphase]), fun _ => h.drained (.inl hphase)⟩
  | _ => exact ⟨h.woken, h.drained⟩

theorem Accounted.setJob {i : Nat} {pod : Pod} {ph ph' : Phase} (h : Accounted σ)
    (hjob : σ.agent.jobs[i]? = some ⟨pod, ph⟩) (hph : ph ≠ .reporting) (hph' : ph' ≠ .reporting) :
    Accounted (σ.setJob i ⟨pod, ph'⟩) := by
  intro id
  have hcount := countP_set_add (unreported id) hjob ⟨pod, ph'⟩
  have hid := h id
  change σ.sent.count id + (σ.agent.jobs.set i ⟨pod, ph'⟩).countP (unreported id) = σ.started.count id
  rw [unreported_of_ne hph, unreported_of_ne hph'] at hcount
  omega

theorem Accounted.report {i : Nat} {pod : Pod} {ph : Phase} (h : Accounted σ)
    (hjob : σ.agent.jobs[i]? = some ⟨pod, ph⟩) (hph : ph ≠ .reporting) : Accounted (σ.report i pod) := by
  intro id
  have hcount := countP_set_add (unreported id) hjob ⟨pod, .reporting⟩
  have hid := h id
  change (σ.sent ++ [pod.id]).count id + (σ.agent.jobs.set i ⟨pod, .reporting⟩).countP (unreported id) =
    σ.started.count id
  rw [unreported_of_ne hph, unreported_reporting] at hcount
  rw [List.count_append, List.count_singleton]
  cases hp : pod.id == id <;> rw [hp] at hcount <;> simp at hcount ⊢ <;> omega

theorem Accounted.received (h : Accounted σ) (pod : Option Pod) : Accounted (σ.received pod) := by
  intro id
  have hid := h id
  cases pod with
  | none => simpa [Process.received, Agent.received] using hid
  | some pod =>
    change σ.sent.count id + (σ.agent.jobs ++ [Job.mk pod .handed]).countP (unreported id) =
      (σ.started ++ [pod.id]).count id
    have hnew : unreported id ⟨pod, .handed⟩ = (pod.id == id) := unreported_of_ne nofun
    rw [List.countP_append, List.countP_singleton, hnew, List.count_append, List.count_singleton]
    omega

theorem Accounted.step (h : Accounted σ) (hs : σ.Acted a σ') : Accounted σ' := by
  cases hs with
  | pollFails => exact h.received none
  | receive pod => exact h.received pod
  | claim i pod hjob => exact h.setJob hjob nofun nofun
  | execute i pod hjob => exact h.setJob hjob nofun nofun
  | refuse i outcome pod hjob => exact h.report hjob nofun
  | finish i outcome pod hjob => exact h.report hjob nofun
  | release i pod hjob =>
    intro id
    have hcount := countP_eraseIdx_add (unreported id) hjob
    have hid := h id
    rw [unreported_reporting] at hcount
    change σ.sent.count id + (σ.agent.jobs.eraseIdx i).countP (unreported id) = σ.started.count id
    rw [← hid, ← hcount]
    rfl
  | _ => exact h

theorem run_invariants {tr : List (Step Process ProcessAct)} (h : Run Next σ tr σ') (h0 : Ordered σ ∧ Accounted σ) :
    Ordered σ' ∧ Accounted σ' := by
  refine Run.inv (fun σ => Ordered σ ∧ Accounted σ) (fun _ => True) ?_ h0 h fun _ _ => trivial
  intro x hx _ hinv
  exact ⟨hinv.1.step hx.acted, hinv.2.step hx.acted⟩

theorem start_invariants (n : Int) : Ordered (start n) ∧ Accounted (start n) :=
  ⟨⟨fun hs => absurd rfl hs, by simp [start]⟩, fun _ => rfl⟩

/-- `Run` returns after it has seen `drained`. -/
theorem drained_of_returned {n : Int} {tr : List (Step Process ProcessAct)} (h : Run Next (start n) tr σ)
    (hret : σ.phase = .returned) : σ.drained = true :=
  (run_invariants h (start_invariants n)).1.drained (.inr hret)

/-! ## Drained -/

/-- Nothing runs, and every pod that was started has its final status sent. -/
def Settled (σ : Process) : Prop := σ.agent.jobs = [] ∧ σ.sent.Perm σ.started

theorem Accounted.settled (h : Accounted σ) (hjobs : σ.agent.jobs = []) : Settled σ := by
  refine ⟨hjobs, List.perm_iff_count.mpr fun id => ?_⟩
  have hid := h id
  rw [hjobs] at hid
  exact hid

/-- No poll is under way that may bring a pod. -/
def Unpolled (σ : Process) : Prop := σ.agent.poll = .idle ∨ σ.agent.poll = .answered none

instance : Decidable σ.Unpolled := inferInstanceAs (Decidable (_ ∨ _))

/-- Without a poll under way, a drained agent stays as it is. -/
structure Stopped (σ : Process) : Prop where
  ctxDone : σ.ctxDone = true
  jobs : σ.agent.jobs = []
  unpolled : σ.Unpolled

theorem Stopped.step (h : Stopped σ) (hs : σ.Acted a σ') : Stopped σ' := by
  have hjob : ∀ {i : Nat} {j : Job}, σ.agent.jobs[i]? ≠ some j := by simp [h.jobs]
  have hreq : σ.agent.poll ≠ .requested := by
    rcases h.unpolled with hp | hp <;> simp [hp]
  cases hs with
  | poll hctx => rw [h.ctxDone] at hctx; cases hctx
  | respond _ hp => exact absurd hp hreq
  | pollFails hp => exact absurd hp hreq
  | receive pod hp =>
    rcases h.unpolled with hidle | hnone
    · rw [hidle] at hp
      cases hp
    · rw [hnone] at hp
      cases hp
      exact ⟨h.ctxDone, h.jobs, .inl rfl⟩
  | claim _ _ hj => exact absurd hj hjob
  | execute _ _ hj => exact absurd hj hjob
  | refuse _ _ _ hj => exact absurd hj hjob
  | finish _ _ _ hj => exact absurd hj hjob
  | release _ _ hj => exact absurd hj hjob
  | cancel => exact ⟨rfl, h.jobs, h.unpolled⟩
  | _ => exact ⟨h.ctxDone, h.jobs, h.unpolled⟩

theorem Stopped.run {tr : List (Step Process ProcessAct)} (h : Run Next σ tr σ') (hs : Stopped σ) : Stopped σ' :=
  Run.inv Stopped (fun _ => True) (fun _ hx _ hinv => hinv.step hx.acted) hs h fun _ _ => trivial

/-- A pod as a poll returns it. -/
def somePod : Pod := { id := "pod_00000002", deploymentID := "dep_00000001", status := .scheduled, command := "true" }

/-- A poll that is under way may bring a pod, and its goroutine is started. -/
theorem run_of_polled (h : ¬ σ.Unpolled) (pod : Pod) :
    ∃ tr σ', Run Next σ tr σ' ∧ σ'.agent.jobs ≠ [] := by
  cases hp : σ.agent.poll with
  | idle => exact absurd (.inl hp) h
  | requested =>
    have hrespond : σ.Next (.respond (some pod)) { σ with agent := σ.agent.answered (some pod) } := by
      simp [Next, act, hp]
    have hreceive : Next { σ with agent := σ.agent.answered (some pod) } .receive
        (Process.received { σ with agent := σ.agent.answered (some pod) } (some pod)) := rfl
    refine ⟨_, _, (Run.nil.snoc _ hrespond).snoc _ hreceive, ?_⟩
    simp [Process.received, Agent.received]
  | answered answer =>
    cases answer with
    | none => exact absurd (.inr hp) h
    | some pod =>
      have hreceive : σ.Next .receive (σ.received (some pod)) := by simp [Next, act, hp]
      refine ⟨_, _, Run.nil.snoc _ hreceive, ?_⟩
      simp [Process.received, Agent.received]

/-- **Shutdown of a node agent.**  From the moment the pods' wait group is seen at zero nothing runs and every
pod that was started is reported, whatever happens next, exactly if no poll is under way then. -/
theorem drained_iff {n : Int} {tr : List (Step Process ProcessAct)} {σ₁ : Process} (h : Run Next (start n) tr σ)
    (hdrain : σ.Next .drain σ₁) :
    (∀ tr' σ₂, Run Next σ₁ tr' σ₂ → σ₂.Settled) ↔ σ.Unpolled := by
  have hinv := run_invariants h (start_invariants n)
  cases hdrain.acted with
  | drain hphase hjobs =>
    have hstep := Run.nil.snoc _ hdrain
    constructor
    · intro hall
      by_contra hpoll
      obtain ⟨tr', σ₂, hrun, hne⟩ := run_of_polled (σ := { σ with drained := true }) hpoll somePod
      exact hne (hall tr' σ₂ hrun).1
    · intro hpoll tr' σ₂ hrun
      have hstop : Stopped { σ with drained := true } := ⟨hinv.1.woken hphase, hjobs, hpoll⟩
      exact (run_invariants hrun (run_invariants hstep hinv)).2.settled (hstop.run hrun).jobs

/-- One pod is picked up, `ctx` is cancelled, and the pod ends after the timer. -/
def timedOut : List ProcessAct :=
  [.poll, .respond (some somePod), .receive, .claim 0, .execute 0, .cancel, .wake, .expire,
   .finish 0 (.shutdown ""), .release 0]

theorem drained_iff_timedOut :
    (stateAfter act (start 1) timedOut).Unpolled ∧
    ∀ tr' σ₂, Run Next (stateAfter act (start 1) (timedOut ++ [.drain])) tr' σ₂ → σ₂.Settled := by
  have hrun : Run Next (start 1) _ (stateAfter act (start 1) timedOut) :=
    run_stepsOf act (fun _ _ _ h => h) .nil timedOut
  have hdrain : (stateAfter act (start 1) timedOut).Next .drain (stateAfter act (start 1) (timedOut ++ [.drain])) := by
    unfold Next
    decide
  exact ⟨by decide, (drained_iff hrun hdrain).mpr (by decide)⟩

/-- `ctx` is cancelled during a poll; the response is there only after the wait group was seen at zero. -/
def lateResponse : List ProcessAct :=
  [.poll, .cancel, .wake, .drain, .proceed, .respond (some somePod), .receive, .claim 0, .execute 0,
   .stopPoll, .stopHeartbeat, .join]

theorem returns_while_executing :
    ¬ ∀ (n : Int) (tr : List (Step Process ProcessAct)) (σ : Process), Run Next (start n) tr σ →
      σ.phase = .returned → σ.Settled := by
  intro h
  have hrun : Run Next (start 1) _ _ := run_stepsOf act (fun _ _ _ h => h) .nil lateResponse
  have hjobs := (h 1 _ _ hrun (by decide)).1
  revert hjobs
  decide

end Process

end ControlPlane.Worker
