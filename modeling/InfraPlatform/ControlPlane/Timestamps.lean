import InfraPlatform.ControlPlane.Lifecycle

/-!
# Timestamps of pods

`TransitionPod` sets `ScheduledAt`, `StartedAt` and `FinishedAt`, each once, and nobody else does.  A pod goes
round the loop of scheduling and requeueing any number of times, and is rewritten whole by the handlers and
the loops in between.

* `Clocked`: a store with a clock whose readings do not go back.
* `Pod.TimesMatch`: the timestamps of a pod match its status and are in order.
* `movePod_stamps`: a transition leaves the timestamps or appends one at the end.
* `Timed`: the discipline of the programs.  A pod is written back with the status and the timestamps of a pod
  that was read, and a transition bears the latest reading.
* `times_match`: the timestamps of every pod match in every reachable state.
-/

namespace ControlPlane

open Lib Lib.Prog Api

/-! ## The timestamps of a pod -/

/-- The timestamps that are set, in the order of the lifecycle. -/
def Pod.stamps (p : Pod) : List Time :=
  p.createdAt :: (p.scheduledAt.toList ++ (p.startedAt.toList ++ p.finishedAt.toList))

/-- The statuses of a pod that was dispatched. -/
def PodStatus.wasScheduled : PodStatus → Bool
  | .scheduled | .running | .succeeded | .failed | .deadLetter => true
  | _ => false

/-- The statuses of a pod that was started. -/
def PodStatus.wasStarted : PodStatus → Bool
  | .running | .succeeded | .failed | .deadLetter => true
  | _ => false

structure Pod.TimesMatch (p : Pod) : Prop where
  finished : p.finishedAt.isSome = true ↔ Store.isTerminalPodStatus p.status = true
  scheduled : p.status.wasScheduled = true → p.scheduledAt.isSome = true
  started : p.status.wasStarted = true → p.startedAt.isSome = true
  ordered : p.stamps.Pairwise (· ≤ ·)

/-- What holds of a pod when the clock stands at `t`. -/
structure Pod.Timely (t : Time) (p : Pod) : Prop extends Pod.TimesMatch p where
  dispatched : p.startedAt.isSome = true → p.scheduledAt.isSome = true
  past : ∀ x ∈ p.stamps, x ≤ t

/-- The part of a pod that `Timely` speaks of. -/
def Pod.face (p : Pod) : PodStatus × Time × Option Time × Option Time × Option Time :=
  (p.status, p.createdAt, p.scheduledAt, p.startedAt, p.finishedAt)

theorem Pod.Timely.congr {t : Time} {p q : Pod} (h : q.Timely t) (hface : q.face = p.face) : p.Timely t := by
  simp only [Pod.face, Prod.mk.injEq] at hface
  obtain ⟨hst, hcr, hsc, hsta, hfi⟩ := hface
  have hstamps : p.stamps = q.stamps := by
    unfold Pod.stamps
    rw [hcr, hsc, hsta, hfi]
  refine ⟨⟨?_, ?_, ?_, ?_⟩, ?_, ?_⟩
  · rw [← hfi, ← hst]
    exact h.finished
  · rw [← hsc, ← hst]
    exact h.scheduled
  · rw [← hsta, ← hst]
    exact h.started
  · rw [hstamps]
    exact h.ordered
  · rw [← hsta, ← hsc]
    exact h.dispatched
  · rw [hstamps]
    exact h.past

theorem Pod.Timely.later {t t' : Time} {p : Pod} (h : p.Timely t) (ht : t ≤ t') : p.Timely t' :=
  ⟨h.toTimesMatch, h.dispatched, fun x hx => (h.past x hx).trans ht⟩

/-! ## A transition -/

section Move

variable {p : Pod} {dest : PodStatus} {msg : String} {t : Time}

theorem not_terminal_of_transitionPod {f d : PodStatus} (h : transitionPod f d = true) :
    Store.isTerminalPodStatus f = false := by
  cases f <;> first | rfl | cases h

/-- Nothing becomes dispatched by a move but by a dispatch. -/
theorem wasScheduled_of_transitionPod {f d : PodStatus} (h : transitionPod f d = true) (hd : d.wasScheduled = true) :
    d = .scheduled ∨ f.wasScheduled = true := by
  cases f <;> cases d <;> simp [transitionPod, allowedPodTransitions, PodStatus.wasScheduled] at h hd ⊢

theorem wasStarted_of_transitionPod {f d : PodStatus} (h : transitionPod f d = true) (hd : d.wasStarted = true) :
    (d = .running ∧ f = .scheduled) ∨ f.wasStarted = true := by
  cases f <;> cases d <;> simp [transitionPod, allowedPodTransitions, PodStatus.wasStarted] at h hd ⊢

theorem Pod.Timely.unfinished (h : p.Timely t) (ht : transitionPod p.status dest = true) : p.finishedAt = none := by
  rw [← Option.not_isSome_iff_eq_none, h.finished, not_terminal_of_transitionPod ht]
  decide

/-- A move sets at most one timestamp, the last one then. -/
theorem movePod_stamps (msg : String) (h : p.Timely t) (ht : transitionPod p.status dest = true) :
    (Store.movePod p dest msg t).stamps = p.stamps ∨ (Store.movePod p dest msg t).stamps = p.stamps ++ [t] := by
  have hunfinished := h.unfinished ht
  unfold Pod.stamps Store.movePod
  simp only [hunfinished]
  by_cases hsched : dest = .scheduled ∧ p.scheduledAt = none
  · -- a pod that was never dispatched was never started
    obtain ⟨rfl, hnone⟩ := hsched
    have hunstarted : p.startedAt = none := by
      rw [← Option.not_isSome_iff_eq_none]
      intro hs
      have := h.dispatched hs
      rw [hnone] at this
      cases this
    refine .inr ?_
    simp [hnone, hunstarted, Store.isTerminalPodStatus]
  · rw [if_neg hsched]
    by_cases hstart : dest = .running ∧ p.startedAt = none
    · obtain ⟨rfl, hnone⟩ := hstart
      refine .inr ?_
      simp [hnone, Store.isTerminalPodStatus]
    · rw [if_neg hstart]
      by_cases hterm : Store.isTerminalPodStatus dest = true
      · refine .inr ?_
        simp [hterm]
      · refine .inl ?_
        simp [hterm]

theorem movePod_timely (h : p.Timely t) (ht : transitionPod p.status dest = true) :
    (Store.movePod p dest msg t).Timely t := by
  have hunfinished := h.unfinished ht
  have hkeepScheduled : p.scheduledAt.isSome = true → (Store.movePod p dest msg t).scheduledAt.isSome = true := by
    intro hs
    simp only [Store.movePod]
    split
    · rfl
    · exact hs
  refine ⟨⟨?_, ?_, ?_, ?_⟩, ?_, ?_⟩
  · simp only [Store.movePod, hunfinished]
    cases Store.isTerminalPodStatus dest <;> simp
  · intro hd
    rcases wasScheduled_of_transitionPod ht hd with rfl | hwas
    · simp only [Store.movePod]
      cases p.scheduledAt <;> simp
    · exact hkeepScheduled (h.scheduled hwas)
  · intro hd
    simp only [Store.movePod]
    rcases wasStarted_of_transitionPod ht hd with ⟨rfl, -⟩ | hwas
    · cases p.startedAt <;> simp
    · split
      · rfl
      · exact h.started hwas
  · rcases movePod_stamps msg h ht with heq | heq <;> rw [heq]
    · exact h.ordered
    · refine List.pairwise_append.mpr ⟨h.ordered, List.pairwise_singleton _ _, fun x hx y hy => ?_⟩
      rw [List.mem_singleton.mp hy]
      exact h.past x hx
  · intro hs
    refine hkeepScheduled ?_
    simp only [Store.movePod] at hs
    split at hs
    · next hrun =>
      obtain ⟨rfl, -⟩ := hrun
      rcases wasStarted_of_transitionPod ht rfl with ⟨-, hst⟩ | hwas
      · exact h.scheduled (by rw [hst]; rfl)
      · exact h.dispatched (h.started hwas)
    · exact h.dispatched hs
  · rcases movePod_stamps msg h ht with heq | heq <;> rw [heq]
    · exact h.past
    · intro x hx
      rcases List.mem_append.mp hx with hx | hx
      · exact h.past x hx
      · rw [List.mem_singleton.mp hx]

end Move

/-! ## A clock that does not go back -/

structure Clocked where
  store : Store := {}
  clock : Time

/-- The calls on a store next to a clock: only a reading moves the clock, and not back. -/
def ClockedExec : Effect Call Resp Clocked
  | .now, σ, t, σ' => σ.clock ≤ t ∧ σ' = { σ with clock := t }
  | c, σ, r, σ' => Exec c σ.store r σ'.store ∧ σ'.clock = σ.clock

variable {σ σ' : Clocked}

theorem ClockedExec.exec {c : Call} {r : Resp c} (h : ClockedExec c σ r σ') :
    Exec c σ.store r σ'.store ∧ σ.clock ≤ σ'.clock := by
  cases c with
  | now =>
    obtain ⟨hle, rfl⟩ := h
    exact ⟨rfl, hle⟩
  | _ => exact ⟨h.1, h.2.ge⟩

/-- One event, run without interleaving. -/
def Clocked.Next (timeout : Duration) (σ : Clocked) (e : Event) (σ' : Clocked) : Prop :=
  ∃ r, Runs ClockedExec (e.prog timeout) σ r σ'

/-- Evaluation: every reading is one later than the last. -/
def Clocked.exec : (c : Call) → Clocked → Resp c × Clocked
  | .now, σ => (σ.clock + 1, { σ with clock := σ.clock + 1 })
  | c, σ => ((σ.store.exec σ.clock c).1, { σ with store := (σ.store.exec σ.clock c).2 })

theorem Clocked.exec_allowed (c : Call) (σ : Clocked) : ClockedExec c σ (Clocked.exec c σ).1 (Clocked.exec c σ).2 := by
  cases c with
  | now => exact ⟨Int.le_add_of_nonneg_right (by decide), rfl⟩
  | _ => exact ⟨ControlPlane.exec_allowed σ.clock _ σ.store, rfl⟩

def Clocked.apply (timeout : Duration) (σ : Clocked) (e : Event) : Option Clocked :=
  some ((e.prog timeout).run Clocked.exec σ).2

theorem Clocked.next_apply {timeout : Duration} (σ : Clocked) (e : Event) (σ' : Clocked)
    (h : σ.apply timeout e = some σ') : σ.Next timeout e σ' := by
  obtain rfl := Option.some.inj h
  exact ⟨_, run_runs Clocked.exec Clocked.exec_allowed _ σ⟩

/-! ## The discipline -/

/-- The clock reading that was the last call. -/
def lastReading (h : CallHist) : Option Time :=
  match h.getLast? with
  | some ⟨.now, t⟩ => some t
  | _ => none

@[simp] theorem lastReading_now (h : CallHist) (t : Time) : lastReading (h ++ [⟨.now, t⟩]) = some t := by
  simp [lastReading]

/-- Some answer has shown a pod with the status and the timestamps of `p`. -/
def Shown (h : CallHist) (p : Pod) : Prop := ∃ ev ∈ h, ∃ q ∈ podsShown ev, q.face = p.face

theorem Shown.mono {h h' : CallHist} {p : Pod} (hs : Shown h p) (hpre : h <+: h') : Shown h' p := by
  obtain ⟨ev, hev, hq⟩ := hs
  exact ⟨ev, hpre.subset hev, hq⟩

theorem shown_of_mem {h : CallHist} (ev : Σ c : Call, Resp c) {p : Pod} (hp : p ∈ podsShown ev) :
    Shown (h ++ [ev]) p := ⟨ev, List.mem_append_right _ List.mem_cons_self, p, hp, rfl⟩

/-- Pods are written with the status and the timestamps of a pod that was read, or new; a new pod and a
transition bear the reading made right before. -/
def Timed (h : CallHist) : Call → Prop
  | .updatePod p => Shown h p
  | .createPod p => p.face = (.pending, p.createdAt, none, none, none) ∧ lastReading h = some p.createdAt
  | .transitionPod _ _ _ now => lastReading h = some now
  | _ => True

abbrev TimedTo {α : Type} (h : CallHist) (p : M α) : Prop := Sat (fun _ _ => True) Timed (fun _ _ => True) h p

/-! ## What a call keeps -/

/-- Every pod that is stored, and every pod that was shown, has its timestamps right. -/
structure Timeline (h : CallHist) (σ : Clocked) : Prop where
  stored : ∀ k p, σ.store.pods.get k = some p → p.Timely σ.clock
  shown : ∀ ev ∈ h, ∀ q ∈ podsShown ev, q.Timely σ.clock
  reading : ∀ t, lastReading h = some t → σ.clock = t

/-- What an answer shows is stored. -/
theorem stored_of_shown {c : Call} {s s' : Store} {r : Resp c} (h : Exec c s r s') {q : Pod}
    (hq : q ∈ podsShown ⟨c, r⟩) : s.pods.get q.id = some q := by
  cases c with
  | getPod id =>
    obtain ⟨rfl, -⟩ := h
    cases hp : s.pods.get id with
    | none =>
      rw [Store.getPod_none hp] at hq
      cases hq
    | some p =>
      rw [Store.getPod_some hp] at hq
      obtain rfl := List.mem_singleton.mp hq
      rw [Table.key_of_get hp]
      exact hp
  | listPodsByDeployment d =>
    obtain ⟨⟨l, rfl, hperm⟩, -⟩ := h
    exact ((mem_of_perm_filter hperm).mp hq).1
  | listPodsByStatus st =>
    obtain ⟨⟨l, rfl, hperm⟩, -⟩ := h
    exact ((mem_of_perm_filter hperm).mp hq).1
  | listPodsByNode n =>
    obtain ⟨⟨l, rfl, hperm⟩, -⟩ := h
    exact ((mem_of_perm_filter hperm).mp hq).1
  | _ => cases hq

theorem newPod_timely {p : Pod} (h : p.face = (.pending, p.createdAt, none, none, none)) : p.Timely p.createdAt := by
  simp only [Pod.face, Prod.mk.injEq, true_and] at h
  obtain ⟨hst, hsc, hsta, hfi⟩ := h
  have hstamps : p.stamps = [p.createdAt] := by simp [Pod.stamps, hsc, hsta, hfi]
  refine ⟨⟨?_, ?_, ?_, ?_⟩, ?_, ?_⟩
  · simp [hfi, hst, Store.isTerminalPodStatus]
  · simp [hst, PodStatus.wasScheduled]
  · simp [hst, PodStatus.wasStarted]
  · simp [hstamps]
  · simp [hsta]
  · simp [hstamps]

theorem putPod_timely {s : Store} {p : Pod} {t : Time} (h : ∀ k q, s.pods.get k = some q → q.Timely t)
    (hp : p.Timely t) : ∀ k q, (s.putPod p).pods.get k = some q → q.Timely t := by
  intro k q hq
  rw [Store.putPod_pods, Table.get_put] at hq
  split at hq
  · obtain rfl := Option.some.inj hq
    exact hp
  · exact h k q hq

/-- One call of a disciplined program. -/
theorem Timeline.step {h : CallHist} {c : Call} {r : Resp c} (ht : Timeline h σ) (hd : Timed h c)
    (hE : ClockedExec c σ r σ') : Timeline (h ++ [⟨c, r⟩]) σ' := by
  obtain ⟨hexec, hle⟩ := hE.exec
  have hstored : ∀ k p, σ.store.pods.get k = some p → p.Timely σ'.clock := fun k p hp => (ht.stored k p hp).later hle
  refine ⟨?_, ?_, ?_⟩
  · generalize hs' : σ'.store = s' at hexec
    cases exec_write hexec with
    | createPod p _ =>
      obtain ⟨hface, hread⟩ := hd
      have hclock := ht.reading _ hread
      exact putPod_timely hstored (((newPod_timely hface).later hclock.ge).later hle)
    | updatePod p _ _ =>
      obtain ⟨ev, hev, q, hq, hface⟩ := hd
      exact putPod_timely hstored (((ht.shown ev hev q hq).congr hface).later hle)
    | transitionPod id dest msg now p hp hmove =>
      obtain rfl := ht.reading _ hd
      exact putPod_timely hstored ((movePod_timely (ht.stored id p hp) hmove).later hle)
    | _ => exact hstored
  · intro ev hev q hq
    rcases List.mem_append.mp hev with hev | hev
    · exact (ht.shown ev hev q hq).later hle
    · obtain rfl := List.mem_singleton.mp hev
      exact (ht.stored _ q (stored_of_shown hexec hq)).later hle
  · intro t hread
    cases c with
    | now =>
      obtain ⟨-, rfl⟩ := hE
      rw [lastReading_now] at hread
      exact Option.some.inj hread
    | _ => simp [lastReading] at hread

/-! ## The programs that move pods -/

section Programs

variable {h : CallHist} {β : Type}

theorem timed_ask {c : Call} {f : Resp c → M β} (hd : Timed h c) (hf : ∀ r, TimedTo (h ++ [⟨c, r⟩]) (f r)) :
    TimedTo h (ask c >>= f) := sat_bind (sat_ask hd fun r _ => hf r)

theorem timed_transitionPod {id msg : String} {dest : PodStatus} {f : Res → M β}
    (hf : ∀ r h', h <+: h' → TimedTo h' (f r)) : TimedTo h (State.transitionPod id dest msg >>= f) := by
  refine sat_bind_grows (timed_ask (c := .now) trivial fun t => ?_) hf
  exact sat_ask (c := .transitionPod id dest msg t) (lastReading_now h t) fun _ _ => trivial

theorem timed_transitionDeployment {id : String} {dest : DeploymentStatus} {f : Res → M β}
    (hf : ∀ r h', h <+: h' → TimedTo h' (f r)) : TimedTo h (State.transitionDeployment id dest >>= f) := by
  refine sat_bind_grows (timed_ask (c := .now) trivial fun t => ?_) hf
  exact sat_ask (c := .transitionDeployment id dest t) trivial fun _ _ => trivial

theorem releaseNodeCapacity_timed (nodeID deploymentID : String) :
    TimedTo h (releaseNodeCapacity nodeID deploymentID) := by
  refine timed_ask (c := .getNode nodeID) trivial fun r => ?_
  cases r with
  | error e => trivial
  | ok node =>
    refine timed_ask (c := .getDeployment deploymentID) trivial fun d => ?_
    exact timed_ask (c := .updateNode _) trivial fun _ => trivial

theorem updatePodStatus_timed (nodeID podID : String) (body : Option PodStatusRequest) :
    TimedTo h (updatePodStatus nodeID podID body) := by
  cases body with
  | none => trivial
  | some req =>
    refine timed_ask (c := .getPod podID) trivial fun r => ?_
    cases r with
    | error e => trivial
    | ok pod =>
      have hshown : Shown (h ++ [⟨.getPod podID, .ok pod⟩]) (reported pod req) :=
        shown_of_mem (p := pod) ⟨.getPod podID, .ok pod⟩ (List.mem_singleton.mpr rfl)
      refine timed_ask (c := .updatePod (reported pod req)) hshown fun r => ?_
      cases r with
      | error e => trivial
      | ok _ =>
        refine timed_transitionPod fun r h' _ => ?_
        cases r with
        | error e => cases e <;> trivial
        | ok _ =>
          refine sat_bind_grows ?_ fun _ h'' _ => timed_ask (c := .getPod podID) trivial fun _ => trivial
          split
          · exact releaseNodeCapacity_timed nodeID _
          · trivial

namespace Scheduler

theorem dispatch_timed (pass : Pass) {p : Pod} (n : Node) (required : ResourceRequest) (hp : Shown h p) :
    TimedTo h (dispatch pass p n required) := by
  refine timed_ask (c := .updatePod (assigned p n)) hp fun r => ?_
  cases r with
  | error e => trivial
  | ok _ =>
    refine timed_transitionPod fun r h' _ => ?_
    cases r with
    | error e => trivial
    | ok _ => exact timed_ask (c := .updateNode _) trivial fun _ => trivial

theorem schedulePod_timed (now : Time) (pass : Pass) {p : Pod} (hp : Shown h p) :
    TimedTo h (schedulePod now pass p) := by
  unfold schedulePod
  split
  · trivial
  · refine timed_ask (c := .getDeployment p.deploymentID) trivial fun d => ?_
    simp only
    split
    · trivial
    · exact dispatch_timed pass _ _ (hp.mono (List.prefix_append h _))

theorem tick_timed (now : Time) : TimedTo h (tick now) := by
  refine timed_ask (c := .listPodsByStatus .pending) trivial fun r => ?_
  cases r with
  | error e => trivial
  | ok listed =>
    refine timed_ask (c := .listNodes) trivial fun r => ?_
    cases r with
    | error e => trivial
    | ok nodes =>
      refine sat_bind_grows (sat_foldlM_grows fun p hp pass h' hpre => schedulePod_timed now pass ?_)
        fun _ _ _ => timed_ask (c := .now) trivial fun _ => trivial
      have hin : p ∈ listed := (sortByCreatedAt_perm listed).mem_iff.mp hp
      exact ((shown_of_mem ⟨.listPodsByStatus .pending, .ok listed⟩ hin).mono
        (List.prefix_append _ _)).mono hpre

end Scheduler

namespace Reconciler

theorem createReplica_timed (d : Deployment) : TimedTo h (createReplica d) := by
  refine sat_bind (timed_ask (c := .randRead) trivial fun b => ?_)
  cases b with
  | none => trivial
  | some b =>
    refine timed_ask (c := .now) trivial fun t => ?_
    exact timed_ask (c := .createPod _) ⟨rfl, lastReading_now _ t⟩ fun _ => trivial

theorem reconcileReplicas_timed (d : Deployment) (pods : List Pod) : TimedTo h (reconcileReplicas d pods) := by
  unfold reconcileReplicas
  split
  · exact sat_forM_grows fun _ _ _ _ => createReplica_timed d
  · split
    · exact sat_forM_grows fun _ _ _ _ => timed_transitionPod fun _ _ _ => trivial
    · trivial

theorem reconcileHealth_timed (d : Deployment) (b : Bool) : TimedTo h (reconcileHealth d b) := by
  unfold reconcileHealth
  split
  · exact timed_transitionDeployment fun _ _ _ => trivial
  · split
    · exact timed_transitionDeployment fun _ _ _ => trivial
    · trivial

theorem activate_timed (d : Deployment) : TimedTo h (activate d) := by
  unfold activate
  split
  · exact timed_transitionDeployment fun r _ _ => by cases r <;> trivial
  · trivial

theorem reconcileDeployment_timed (d : Deployment) : TimedTo h (reconcileDeployment d) := by
  unfold reconcileDeployment
  split
  · trivial
  · refine sat_bind_grows (activate_timed d) fun d' h' _ => ?_
    cases d' with
    | none => trivial
    | some d' =>
      refine timed_ask (c := .listPodsByDeployment d'.id) trivial fun r => ?_
      cases r with
      | error e => trivial
      | ok pods =>
        exact sat_bind_grows (reconcileReplicas_timed d' pods) fun _ _ _ => reconcileHealth_timed d' _

theorem reconcileDeployments_timed : TimedTo h reconcileDeployments := by
  refine timed_ask (c := .listDeployments) trivial fun r => ?_
  cases r with
  | error e => trivial
  | ok ds => exact sat_forM_grows fun d _ _ _ => reconcileDeployment_timed d

theorem requeueOrphan_timed {p : Pod} (hp : Shown h p) : TimedTo h (requeueOrphan p) := by
  refine timed_ask (c := .updatePod (unassigned p)) hp fun r => ?_
  cases r with
  | error e => trivial
  | ok _ => exact timed_transitionPod fun _ _ _ => trivial

theorem retryPod_timed {p : Pod} (hp : Shown h p) : TimedTo h (retryPod p) := by
  refine timed_ask (c := .now) trivial fun now => ?_
  refine timed_ask (c := .updatePod (retried p now)) (hp.mono (List.prefix_append h _)) fun r => ?_
  cases r with
  | error e => trivial
  | ok _ =>
    refine timed_transitionPod fun r _ _ => ?_
    cases r with
    | error e => trivial
    | ok _ => exact timed_transitionPod fun _ _ _ => timed_transitionPod fun _ _ _ => trivial

theorem deadLetterPod_timed {p : Pod} (hp : Shown h p) : TimedTo h (deadLetterPod p) := by
  refine timed_ask (c := .updatePod (exhausted p)) hp fun r => ?_
  cases r with
  | error e => trivial
  | ok _ =>
    refine timed_transitionPod fun r _ _ => ?_
    cases r with
    | error e => trivial
    | ok _ => exact timed_transitionPod fun _ _ _ => trivial

theorem reschedulePod_timed {p : Pod} (hp : Shown h p) : TimedTo h (reschedulePod p) := by
  unfold reschedulePod
  split
  · exact requeueOrphan_timed hp
  · split
    · trivial
    · refine timed_ask (c := .getDeployment p.deploymentID) trivial fun d => ?_
      have hp' := hp.mono (List.prefix_append h [⟨.getDeployment p.deploymentID, d⟩])
      simp only
      split
      · exact retryPod_timed hp'
      · exact deadLetterPod_timed hp'

theorem reschedulePodsFor_timed (nodeID : String) : TimedTo h (reschedulePodsFor nodeID) := by
  refine timed_ask (c := .listPodsByNode nodeID) trivial fun r => ?_
  cases r with
  | error e => trivial
  | ok pods =>
    refine sat_forM_grows fun p hp h' hpre => reschedulePod_timed ?_
    exact (shown_of_mem ⟨.listPodsByNode nodeID, .ok pods⟩ hp).mono hpre

theorem giveUpNode_timed (n : Node) (dest : NodeStatus) : TimedTo h (giveUpNode n dest) := by
  refine timed_ask (c := .transitionNode n.id dest) trivial fun r => ?_
  cases r with
  | error e => trivial
  | ok _ => exact reschedulePodsFor_timed n.id

theorem tick_timed (timeout : Duration) (now : Time) : TimedTo h (tick timeout now) := by
  refine sat_bind_grows reconcileDeployments_timed fun _ _ _ => ?_
  refine timed_ask (c := .listNodes) trivial fun r => ?_
  cases r with
  | error e => trivial
  | ok nodes =>
    refine sat_forM_grows fun n _ _ _ => ?_
    unfold detectUnhealthyNode
    split
    · exact giveUpNode_timed n _
    · split
      · exact giveUpNode_timed n _
      · trivial

end Reconciler

end Programs

/-! ## Every run -/

section Runs

variable {timeout : Duration} {e : Event}

theorem Event.prog_timed (he : e.movesPods = true) : TimedTo [] (e.prog timeout) := by
  cases e with
  | report node pod body => exact sat_bind_grows (updatePodStatus_timed node pod body) fun _ _ _ => trivial
  | schedulerTick now => exact sat_bind_grows (Scheduler.tick_timed now) fun _ _ _ => trivial
  | reconcilerTick now => exact sat_bind_grows (Reconciler.tick_timed timeout now) fun _ _ _ => trivial
  | _ => cases he

theorem Change.pods_eq {s s' : Store} (hc : Change timeout e s s') (he : e.movesPods = false) : s'.pods = s.pods := by
  cases hc with
  | service _ hsame => exact hsame.2.1
  | ignored => cases he
  | rejected => cases he
  | accepted => cases he
  | schedule => cases he
  | reconcile => cases he
  | _ => rfl

theorem Clocked.Next.timely (h : σ.Next timeout e σ') (ht : ∀ k p, σ.store.pods.get k = some p → p.Timely σ.clock) :
    ∀ k p, σ'.store.pods.get k = some p → p.Timely σ'.clock := by
  obtain ⟨r, hr⟩ := h
  cases he : e.movesPods with
  | true =>
    have hstart : Timeline [] σ := ⟨ht, (fun _ hev => by cases hev), (fun _ hread => by cases hread)⟩
    obtain ⟨h', hend, -⟩ := Runs.sat (A := fun _ _ => True) Timeline
      (fun h c σ r σ' hJ hd hE => ⟨trivial, hJ.step hd hE⟩) (Event.prog_timed he) hstart hr
    exact hend.stored
  | false =>
    have hclock : σ.clock ≤ σ'.clock := Runs.inv (fun τ => σ.clock ≤ τ.clock)
      (fun c τ r τ' hE hle => hle.trans hE.exec.2) hr le_rfl
    have hchange := Event.prog_spec (Runs.map Clocked.store (fun c τ r τ' hE => hE.exec.1) hr)
    intro k p hp
    rw [hchange.pods_eq he] at hp
    exact (ht k p hp).later hclock

/-- **Timestamps.**  From the empty store, with a clock that does not go back, the timestamps of every pod
match its status in every reachable state. -/
theorem times_match {tr : List (Step Clocked Event)} {t₀ : Time}
    (h : Run (Clocked.Next timeout) { clock := t₀ } tr σ) : ∀ p ∈ σ.store.pods.rows, p.TimesMatch := by
  have htimely := Run.inv (fun σ : Clocked => ∀ k p, σ.store.pods.get k = some p → p.Timely σ.clock) (fun _ => True)
    (fun x hx _ ht => hx.timely ht) (fun k p hp => by cases hp) h fun _ _ => trivial
  intro p hp
  exact (htimely _ p (Table.get_of_mem hp)).toTimesMatch

end Runs

/-- The pod of `startedRun` loses its node, is requeued and dispatched once more. -/
def requeuedRun : List Event :=
  startedRun.map Prod.snd ++
    [.register (some { address := "b:1", capacity := { cpu := 4, memoryMB := 100 } }),
     .heartbeat (100 * second) "node_00000003" {}, .reconcilerTick (100 * second), .schedulerTick (200 * second)]

theorem times_match_requeued :
    (∃ p ∈ (stateAfter (Clocked.apply (15 * second)) { clock := 1 } requeuedRun).store.pods.rows,
      p.status = .scheduled ∧ p.attempt = 1 ∧ p.startedAt.isSome = true) ∧
    ∀ p ∈ (stateAfter (Clocked.apply (15 * second)) { clock := 1 } requeuedRun).store.pods.rows, p.TimesMatch :=
  ⟨by decide +kernel, times_match (run_stepsOf (Clocked.apply (15 * second)) Clocked.next_apply .nil requeuedRun)⟩

end ControlPlane
