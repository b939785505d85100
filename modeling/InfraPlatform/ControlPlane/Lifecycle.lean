import InfraPlatform.ControlPlane.Knowledge
import InfraPlatform.ControlPlane.System

/-!
# Pod lifecycles under interleaving

Scheduler ticks, reconciler ticks and status reports interleave call by call.
`TransitionPod` checks the lifecycle table, but `UpdatePod` writes a copy back whole, with
whatever status the copy was read with.  `lifecycle_of_current`: as long as each such
write finds the pod in the status its execution read, every change of a stored status is legal
and the terminal statuses are final.  `stale_update_revives` is an interleaving of two
reports that takes a pod back from `SUCCEEDED` to `RUNNING`.
-/

namespace ControlPlane

open Lib Lib.Prog Api

/-- Requests and passes that run call by call next to each other. -/
abbrev Concurrent (ι : Type) := Config ι Call Resp (Option Response) Store

/-- The executions of the events `e` at their beginning. -/
def launch [A : Arith] {ι : Type} (timeout : Duration) (s : Store) (e : ι → Event) : Concurrent ι :=
  Config.start s fun i => (e i).prog timeout

/-- A step of an interleaving: the thread, its call and the answer. -/
abbrev CallStep (ι : Type) := Step (Concurrent ι) (ι × (Σ c : Call, Resp c))

def Event.movesPods : Event → Bool
  | .schedulerTick _ | .reconcilerTick _ | .report .. => true
  | _ => false

/-- The executions that write node records. -/
def Event.movesNodes : Event → Bool
  | .heartbeat .. | .drain _ => true
  | e => e.movesPods

/-- The interleaving that a schedule gives, with the answers `Store.exec` chooses. -/
def interleaving {ι : Type} [DecidableEq ι] (clock : Time) (cfg : Concurrent ι) (schedule : List ι) :
    List (CallStep ι) := cfg.trace (fun c s => s.exec clock c) schedule

def interleaved {ι : Type} [DecidableEq ι] (clock : Time) (cfg : Concurrent ι) (schedule : List ι) : Concurrent ι :=
  cfg.applyAll (fun c s => s.exec clock c) schedule

theorem run_interleaving {ι : Type} [DecidableEq ι] (clock : Time) (cfg : Concurrent ι) (schedule : List ι) :
    Run (Config.Next Exec) cfg (interleaving clock cfg schedule) (interleaved clock cfg schedule) :=
  Config.run_trace _ (fun c s => exec_allowed clock c s) .nil schedule

theorem answers_of_exec (c : Call) (s : Store) (r : Resp c) (s' : Store) (h : Exec c s r s') : Answers c r :=
  ⟨s, s', h⟩

/-- Each of these programs is careful. -/
theorem Event.prog_careful {e : Event} {timeout : Duration} (he : e.movesNodes = true) :
    CarefulTo anything [] (e.prog timeout) := by
  have hanswer : ∀ {p : M Response}, CarefulTo anything [] p → CarefulTo anything [] (do pure (some (← p))) :=
    fun hp => sat_bind (hp.mono (fun _ _ hd => hd) fun _ _ _ => sat_pure trivial)
  cases e with
  | heartbeat now node req => exact hanswer (heartbeat_careful now node req)
  | drain node => exact hanswer (drainNode_careful node)
  | report node pod body => exact hanswer (updatePodStatus_careful node pod body)
  | schedulerTick now =>
    exact sat_bind ((Scheduler.tick_careful now).mono (fun _ _ hd => hd) fun _ _ _ => sat_pure trivial)
  | reconcilerTick now =>
    exact sat_bind ((Reconciler.tick_careful timeout now).mono (fun _ _ hd => hd) fun _ _ _ => sat_pure trivial)
  | _ => cases he

theorem Event.movesNodes_of_movesPods {e : Event} (h : e.movesPods = true) : e.movesNodes = true := by
  cases e <;> first | rfl | exact h

/-- Every stored status stays or takes a legal transition. -/
def StatusLegal (s s' : Store) : Prop :=
  ∀ k p, s.pods.get k = some p →
    ∃ p', s'.pods.get k = some p' ∧ (p'.status = p.status ∨ transitionPod p.status p'.status = true)

/-- An `UpdatePod` finds the pod in the status that its execution last knew it in. -/
def PodCurrent {ι : Type} [DecidableEq ι] (x : CallStep ι) : Prop :=
  match x.label with
  | (i, ⟨.updatePod p, _⟩) => ∀ q, knownPod (x.src.hist i) p.id = some q →
      ∀ p₀, x.src.state.pods.get p.id = some p₀ → p₀.status = q.status
  | _ => True

instance {ι : Type} [DecidableEq ι] (x : CallStep ι) : Decidable (PodCurrent x) := by
  unfold PodCurrent; split <;> infer_instance

/-- Writing a pod over its stored record, or over nothing. -/
theorem StatusLegal.putPod {s : Store} {p : Pod}
    (h : ∀ q, s.pods.get p.id = some q → p.status = q.status ∨ transitionPod q.status p.status = true) :
    StatusLegal s (s.putPod p) := by
  intro k q hq
  rw [Store.putPod_pods, Table.get_put]
  by_cases hk : k = p.id
  · subst hk
    exact ⟨p, by simp, h q hq⟩
  · exact ⟨q, by simpa [hk] using hq, .inl rfl⟩

theorem StatusLegal.of_pods {s s' : Store} (h : s'.pods = s.pods) : StatusLegal s s' :=
  fun _ p hp => ⟨p, by rw [h]; exact hp, .inl rfl⟩

variable {ι : Type} [DecidableEq ι] {timeout : Duration} {s : Store} {e : ι → Event}
  {tr : List (CallStep ι)} {cfg : Concurrent ι}

/-- One call, made carefully on a pod that is still as it was read. -/
theorem statusLegal_step {s' : Store} {c : Call} {r : Resp c} {h : CallHist} (hE : Exec c s r s') (hd : Careful h c)
    (hcur : ∀ p, c = .updatePod p → ∀ q, knownPod h p.id = some q → ∀ p₀, s.pods.get p.id = some p₀ →
      p₀.status = q.status) : StatusLegal s s' := by
  cases exec_write hE with
  | createPod p hnone => exact .putPod fun q hq => by rw [hnone] at hq; cases hq
  | updatePod p q hq =>
    obtain ⟨m, hm, hst⟩ := hd
    refine .putPod fun q' hq' => .inl ?_
    rw [← hst]
    exact (hcur p rfl m hm q' hq').symm
  | transitionPod id dest msg now p hp ht =>
    have hid : p.id = id := Table.key_of_get hp
    rw [← hid] at hp
    refine .putPod fun q hq => .inr ?_
    rw [show s.pods.get p.id = some q from hq] at hp
    obtain rfl : q = p := by simpa using hp
    exact ht
  | _ => exact .of_pods rfl

/-- **Lifecycles under interleaving.**  If every `UpdatePod` finds the pod in the status its
execution read, then every status change is one of the table, and a pod that
has reached a terminal status keeps it to the end. -/
theorem lifecycle_of_current (he : ∀ i, (e i).movesPods = true)
    (h : Run (Config.Next Exec) (launch timeout s e) tr cfg) (hcur : ∀ x ∈ tr, PodCurrent x) :
    (∀ x ∈ tr, StatusLegal x.src.state x.dst.state) ∧
    ∀ x ∈ tr, ∀ k p, x.src.state.pods.get k = some p → Store.isTerminalPodStatus p.status = true →
      ∃ p', cfg.state.pods.get k = some p' ∧ p'.status = p.status := by
  have hcareful := Run.disciplined answers_of_exec
    (fun i => Event.prog_careful (Event.movesNodes_of_movesPods (he i))) h
  have hlegal : ∀ x ∈ tr, StatusLegal x.src.state x.dst.state := by
    rintro ⟨cfg₁, l, cfg₂⟩ hx
    obtain ⟨-, -, -, -, hnext⟩ := h.before hx
    have hd := hcareful _ hx
    have hc := hcur _ hx
    change Config.Next Exec cfg₁ l cfg₂ at hnext
    obtain ⟨i, c, k, hist, r, hi, hE⟩ := hnext
    refine statusLegal_step hE hd fun p hp => ?_
    subst hp
    exact hc
  refine ⟨hlegal, fun x hx k p hp hterm => ?_⟩
  refine Run.stays (fun cfg => ∃ p', cfg.state.pods.get k = some p' ∧ p'.status = p.status) h ?_ x hx ⟨p, hp, rfl⟩
  rintro y hy ⟨q, hq, hst⟩
  obtain ⟨q', hq', hmove⟩ := hlegal y hy k q hq
  refine ⟨q', hq', ?_⟩
  rcases hmove with heq | ht
  · rw [heq, hst]
  · -- nothing leaves a terminal status
    rw [hst] at ht
    cases hs : p.status <;> rw [hs] at hterm ht <;>
      simp [Store.isTerminalPodStatus, transitionPod, allowedPodTransitions] at hterm ht

/-- Two reports on the pod that runs after `startedRun`. -/
def twoReports (b : Bool) : Event :=
  .report "node_00000000" "pod_00000002" (some (if b then { status := .failed } else { status := .succeeded }))

def runningStore : Store := (Sys.init.applyAll (15 * second) startedRun).store

/-- Both read the pod, both write their copies, and then both try to move it. -/
def sideBySide : List Bool := [true, false, true, false, false, true] ++ List.replicate 6 false ++ [true, true]

theorem lifecycle_of_current_overlapping :
    (∀ x ∈ interleaving 7 (launch (15 * second) runningStore twoReports) sideBySide, PodCurrent x) ∧
    (∀ x ∈ interleaving 7 (launch (15 * second) runningStore twoReports) sideBySide,
      StatusLegal x.src.state x.dst.state) ∧
    ∃ p, (interleaved 7 (launch (15 * second) runningStore twoReports) sideBySide).state.pods.get "pod_00000002" =
      some p ∧ p.status = .succeeded := by
  have hcur : ∀ x ∈ interleaving 7 (launch (15 * second) runningStore twoReports) sideBySide, PodCurrent x := by
    decide +kernel
  obtain ⟨hlegal, hstays⟩ := lifecycle_of_current (fun _ => rfl) (run_interleaving 7 _ sideBySide) hcur
  -- the pod has succeeded while the other report is still under way
  have hdone : ∃ x ∈ interleaving 7 (launch (15 * second) runningStore twoReports) sideBySide,
      (x.src.state.pods.get "pod_00000002").map Pod.status = some .succeeded := by decide +kernel
  obtain ⟨x, hx, hst⟩ := hdone
  obtain ⟨p, hp, hst⟩ := Option.map_eq_some_iff.mp hst
  obtain ⟨p', hp', hst'⟩ := hstays x hx _ p hp (by rw [hst]; rfl)
  exact ⟨hcur, hlegal, p', hp', hst'.trans hst⟩

/-- One report reads the pod, the other one runs to its end, the first one writes its copy back. -/
theorem stale_update_revives :
    ¬ ∀ (timeout : Duration) (s : Store) (e : Bool → Event) (tr : List (CallStep Bool)) (cfg : Concurrent Bool),
      (∀ i, (e i).movesPods = true) → Run (Config.Next Exec) (launch timeout s e) tr cfg →
      ∀ x ∈ tr, StatusLegal x.src.state x.dst.state := by
  intro h
  have hlegal := h (15 * second) runningStore twoReports _ _ (fun _ => rfl)
    (run_interleaving 7 _ ([true] ++ List.replicate 8 false ++ [true]))
  have hback : ∃ x ∈ interleaving 7 (launch (15 * second) runningStore twoReports)
      ([true] ++ List.replicate 8 false ++ [true]),
      (x.src.state.pods.get "pod_00000002").map Pod.status = some .succeeded ∧
        (x.dst.state.pods.get "pod_00000002").map Pod.status = some .running := by decide +kernel
  obtain ⟨x, hx, hsrc, hdst⟩ := hback
  obtain ⟨p, hp, hst⟩ := Option.map_eq_some_iff.mp hsrc
  obtain ⟨p', hp', hmove⟩ := hlegal x hx _ p hp
  rw [hp'] at hdst
  rw [show p'.status = .running by simpa using hdst, hst] at hmove
  revert hmove
  decide

end ControlPlane
