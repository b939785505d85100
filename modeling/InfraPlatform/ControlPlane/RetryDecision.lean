import InfraPlatform.ControlPlane.System

/-!
# Failed pods

The comment on `Pod.Active` calls `FAILED` a brief state that the reconciler resolves
on its next tick.  The only code that resolves it is the path of a node
timeout, and that path starts from `RUNNING`: a pod that its node reported `FAILED` is
left alone by every tick.  `tick_resolves_iff`: a tick leaves no failed pod without a
decision exactly if there was none to decide about.
-/

namespace ControlPlane.Reconciler

open Lib Lib.Prog Api Relation

variable {s s' : Store} {timeout : Duration} {now : Time}

/-- No pod of a deployment that is not cancelled is failed. -/
def NoFailed (s : Store) : Prop :=
  ∀ p ∈ s.pods.rows, p.status = .failed → ∀ d, s.deployments.get p.deploymentID = some d → d.status = .cancelled

/-- The retry decision on `p`: another attempt after a backoff, or the end. -/
def Decision (d : Deployment) (p p' : Pod) : Prop :=
  if p.attempt + 1 ≤ d.maxRetries then
    p'.status = .pending ∧ p'.attempt = p.attempt + 1 ∧ ∃ t, p'.runAfter = t + backoff (p.attempt + 1)
  else p'.status = .deadLetter

/-- Every failed pod of a deployment that is not cancelled got its decision, and none is left. -/
def Resolved (s s' : Store) : Prop :=
  NoFailed s' ∧ ∀ p ∈ s.pods.rows, p.status = .failed → ∀ d, s.deployments.get p.deploymentID = some d →
    d.status ≠ .cancelled → ∃ p', s'.pods.get p.id = some p' ∧ Decision d p p'

/-- The same failed pods, and the same deployments cancelled. -/
structure SameFailed (s s' : Store) : Prop where
  failed : ∀ k p, p.status = .failed → (s'.pods.get k = some p ↔ s.pods.get k = some p)
  cancelled : ∀ k, ((s'.deployments.get k).map fun d => d.status == .cancelled) =
    (s.deployments.get k).map fun d => d.status == .cancelled

theorem SameFailed.trans {s₁ : Store} (h₁ : SameFailed s s₁) (h₂ : SameFailed s₁ s') : SameFailed s s' :=
  ⟨fun k p hp => (h₂.failed k p hp).trans (h₁.failed k p hp), fun k => (h₂.cancelled k).trans (h₁.cancelled k)⟩

/-- Writing a pod that is not failed over nothing, or over a pod that is not failed. -/
theorem SameFailed.putPod {p : Pod} (hp : p.status ≠ .failed)
    (hold : ∀ q, s.pods.get p.id = some q → q.status ≠ .failed) : SameFailed s (s.putPod p) := by
  refine ⟨fun k q hq => ?_, fun k => rfl⟩
  rw [Store.putPod_pods, Table.get_put]
  by_cases hk : k = p.id
  · rw [if_pos hk, hk]
    constructor
    · intro h
      obtain rfl : p = q := by simpa using h
      exact absurd hq hp
    · intro h
      exact absurd hq (hold q h)
  · rw [if_neg hk]

theorem Adjust.sameFailed (h : Adjust s s') : SameFailed s s' := by
  cases h with
  | status d dest t hd ht hdest =>
    refine ⟨fun k p _ => Iff.rfl, fun k => ?_⟩
    rw [Store.putDeployment_deployments, Table.get_put]
    by_cases hk : k = (Store.moveDeployment d dest t).id
    · have hd' : s.deployments.get k = some d := by rw [hk]; exact hd
      have hnot : d.status ≠ .cancelled := by
        intro hc
        rw [hc] at ht
        cases ht
      rw [if_pos hk, hd']
      simp [Store.moveDeployment, hdest, hnot]
    · rw [if_neg hk]
  | create d b t _ _ hnone _ =>
    refine .putPod (by simp [newPod]) fun q hq => ?_
    rw [show s.pods.get (idOf "pod" b) = some q from hq] at hnone
    cases hnone
  | cancel d p t _ hp _ hc _ =>
    refine .putPod (by simp) fun q hq hf => ?_
    rw [show s.pods.get p.id = some q from hq] at hp
    obtain rfl : q = p := by simpa using hp
    simp [cancellable, hf] at hc

theorem Rescheduled.failed_iff {p p' : Pod} (h : Rescheduled s p p') (q : Pod) (hq : q.status = .failed) :
    p' = q ↔ p = q := by
  cases h with
  | orphan t hs => constructor <;> rintro rfl <;> simp_all
  | retry now t₁ t₂ t₃ hs _ => constructor <;> rintro rfl <;> simp_all
  | deadLetter t₁ t₂ hs _ => constructor <;> rintro rfl <;> simp_all
  | keep _ _ => exact Iff.rfl

theorem Detected.sameFailed (h : Detected timeout now s s') : SameFailed s s' := by
  refine ⟨fun k q hq => ?_, fun k => by rw [h.deployments]⟩
  have hiff : ∀ p p', s.pods.get k = some p → s'.pods.get k = some p' → (p' = q ↔ p = q) := by
    intro p p' hp hp'
    obtain ⟨r, hr, hin, hout⟩ := h.pods k p hp
    obtain rfl : p' = r := by simpa [hp'] using hr
    by_cases hlost : LostNode timeout now s p.nodeID
    · exact (hin hlost).failed_iff q hq
    · rw [hout hlost]
  constructor
  · intro hq'
    obtain ⟨p, hp, -⟩ := Table.back h.keys (r := fun _ _ => True)
      (fun k p hp => (h.pods k p hp).imp fun _ hx => ⟨hx.1, trivial⟩) hq'
    rw [hp, (hiff p q hp hq').mp rfl]
  · intro hq'
    obtain ⟨p', hp', -⟩ := h.pods k q hq'
    rw [hp', (hiff q p' hq' hp').mpr rfl]

/-- A tick neither fails a pod nor decides about a failed one. -/
theorem tick_sameFailed {u : Unit} (h : Runs Exec (tick timeout now) s u s') : SameFailed s s' := by
  obtain ⟨s₁, hadj, hdet⟩ := tick_spec h
  have h₁ : SameFailed s s₁ := keeps_of_chain (SameFailed s) (fun _ _ ha h => h.trans (Adjust.sameFailed ha)) hadj
    ⟨fun _ _ _ => Iff.rfl, fun _ => rfl⟩
  exact h₁.trans (Detected.sameFailed hdet)

theorem SameFailed.noFailed_iff (h : SameFailed s s') : NoFailed s' ↔ NoFailed s := by
  have hone : ∀ (p : Pod), p.status = .failed → (p ∈ s'.pods.rows ↔ p ∈ s.pods.rows) := fun p hp => by
    rw [Table.mem_rows_iff, Table.mem_rows_iff]
    exact h.failed p.id p hp
  have hcan : ∀ k, (∀ d, s'.deployments.get k = some d → d.status = .cancelled) ↔
      ∀ d, s.deployments.get k = some d → d.status = .cancelled := fun k => by
    have hk := h.cancelled k
    cases h1 : s'.deployments.get k <;> cases h2 : s.deployments.get k <;> simp [h1, h2] at hk ⊢
    exact hk
  constructor
  · intro hno p hp hf
    exact (hcan _).mp (hno p ((hone p hf).mpr hp) hf)
  · intro hno p hp hf
    exact (hcan _).mpr (hno p ((hone p hf).mp hp) hf)

/-- **The retry decision.**  From any store, a tick leaves every failed pod of a live
deployment decided exactly if there is none before it. -/
theorem tick_resolves_iff {u : Unit} (h : Runs Exec (tick timeout now) s u s') : Resolved s s' ↔ NoFailed s := by
  have hiff := (tick_sameFailed h).noFailed_iff
  constructor
  · intro hres
    exact hiff.mp hres.1
  · intro hno
    exact ⟨hiff.mpr hno, fun p hp hf d hd hlive => absurd (hno p hp hf d hd) hlive⟩

theorem tick_resolves_iff_started :
    Resolved (Sys.init.applyAll (15 * second) startedRun).store
      ((tick (15 * second) 7).run (fun c s => s.exec 7 c) (Sys.init.applyAll (15 * second) startedRun).store).2 := by
  refine (tick_resolves_iff (run_runs _ (fun c s => exec_allowed 7 c s) _ _)).mpr fun p hp hf => ?_
  revert p
  decide +kernel

/-- The running pod's node reports that it failed. -/
def failedRun : List (Time × Event) :=
  startedRun ++ [(7, .report "node_00000000" "pod_00000002" (some { status := .failed, exitCode := some 1 }))]

theorem tick_leaves_failed :
    ¬ ∀ (timeout : Duration) (now : Time) (s : Store) (u : Unit) (s' : Store),
      Runs Exec (tick timeout now) s u s' → Resolved s s' := by
  intro h
  have hno := (h (15 * second) 8 _ _ _ (run_runs _ (fun c s => exec_allowed 8 c s) _
    (Sys.init.applyAll (15 * second) failedRun).store)).1
  have hpod : ∃ p ∈ (((tick (15 * second) 8).run (fun c s => s.exec 8 c)
      (Sys.init.applyAll (15 * second) failedRun).store).2).pods.rows,
      p.status = .failed ∧ p.deploymentID = "deploy_00000001" := by decide +kernel
  obtain ⟨p, hp, hf, hd⟩ := hpod
  have hdep : ((((tick (15 * second) 8).run (fun c s => s.exec 8 c)
      (Sys.init.applyAll (15 * second) failedRun).store).2).deployments.get "deploy_00000001").map
        Deployment.status = some .active := by decide +kernel
  obtain ⟨d, hget, hst⟩ := Option.map_eq_some_iff.mp hdep
  rw [hno p hp hf d (by rw [hd]; exact hget)] at hst
  cases hst

end ControlPlane.Reconciler
