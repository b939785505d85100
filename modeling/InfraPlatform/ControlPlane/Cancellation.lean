import InfraPlatform.ControlPlane.System

/-!
# Pods of a cancelled deployment

`CancelDeployment` writes `CANCELLED` into the deployment's record, and that is all it does.  The reconciler
reads it: it creates no pods for a cancelled deployment.  The scheduler does not: it takes every pending pod
whose backoff gate is open, the deployment's record is only asked for the resources to reserve.

* `Change.cancelled`: `CANCELLED` is final.
* `Change.halted`: an event creates no pod of a cancelled deployment, and schedules one only in a tick that
  finds it pending and ready, or by a report that says so.
* `halted_after_cancel`: what follows for whole runs; `pending_pod_dispatched`: a pod that is pending when its
  deployment is cancelled is dispatched.
-/

namespace ControlPlane

open Lib Lib.Prog Api Reconciler Relation

variable {s s' : Store} {timeout : Duration} {e : Event} {d : String}

/-! ## Cancelled deployments -/

/-- The deployment is stored as `CANCELLED`. -/
def Cancelled (s : Store) (d : String) : Prop := (s.deployments.get d).map Deployment.status = some .cancelled

instance : Decidable (Cancelled s d) :=
  inferInstanceAs (Decidable ((s.deployments.get d).map Deployment.status = some .cancelled))

theorem Cancelled.congr (h : Cancelled s d) (hd : s'.deployments = s.deployments) : Cancelled s' d := by
  unfold Cancelled
  rw [hd]
  exact h

/-- Another deployment is written, or this one as cancelled. -/
theorem Cancelled.putDeployment {D : Deployment} (h : Cancelled s d) (hD : D.id = d → D.status = .cancelled) :
    Cancelled (s.putDeployment D) d := by
  unfold Cancelled at h ⊢
  rw [Store.putDeployment_deployments, Table.get_put]
  split
  · next hk => rw [Option.map_some, hD hk.symm]
  · exact h

theorem Cancelled.status {D : Deployment} (h : Cancelled s d) (hD : s.deployments.get d = some D) :
    D.status = .cancelled := by
  unfold Cancelled at h
  rw [hD] at h
  exact Option.some.inj h

theorem Cancelled.adjust (h : Cancelled s d) (ha : Adjust s s') : Cancelled s' d := by
  cases ha with
  | status D dest t hD ht _ =>
    refine h.putDeployment fun hid => ?_
    -- nothing leads out of `CANCELLED`
    have hid : D.id = d := hid
    rw [hid] at hD
    rw [h.status hD] at ht
    cases dest <;> cases ht
  | create | cancel => exact h

/-- **`CANCELLED` is final.** -/
theorem Change.cancelled (hc : Change timeout e s s') (h : Cancelled s d) : Cancelled s' d := by
  cases hc with
  | none | register | heartbeat | drain | ignored | rejected => exact h
  | accepted => exact h.congr (by simp)
  | submit req b t hnone =>
    refine h.putDeployment fun hid => ?_
    unfold Cancelled at h
    rw [← hid, show s.deployments.get (newDeployment req.withDefaults (idOf "deploy" b) t).id = .none from hnone] at h
    cases h
  | cancel deployment D t => exact h.putDeployment fun _ => rfl
  | service _ hs => exact h.congr hs.1
  | schedule now hd => exact keeps_of_chain (Cancelled · d) (fun _ _ hd h => by cases hd; exact h) hd h
  | reconcile now ha hd =>
    have hadj := keeps_of_chain (Cancelled · d) (fun _ _ ha h => Cancelled.adjust h ha) ha h
    exact hadj.congr hd.deployments

/-! ## No new pods, none scheduled -/

/-- No pod of the deployment is created, and none becomes `SCHEDULED`. -/
def Halted (d : String) (s s' : Store) : Prop :=
  ∀ k p', s'.pods.get k = some p' → p'.deploymentID = d →
    ∃ p, s.pods.get k = some p ∧ p.deploymentID = d ∧ (p'.status = .scheduled → p.status = .scheduled)

theorem Halted.of_pods (h : s'.pods = s.pods) : Halted d s s' := by
  unfold Halted
  rw [h]
  exact Table.Stems.refl (fun _ => id) s.pods

theorem Halted.trans {s₁ : Store} (h : Halted d s s₁) (h' : Halted d s₁ s') : Halted d s s' :=
  Table.Stems.trans (r := fun p p' : Pod => p'.status = .scheduled → p.status = .scheduled)
    (fun _ _ _ hab hbc hs => hab (hbc hs)) h h'

/-- A pod is overwritten by a record of the same deployment that is not newly scheduled. -/
theorem Halted.overwrite {p p' : Pod} (hp : s.pods.get p.id = some p) (hid : p'.id = p.id)
    (hdep : p'.deploymentID = p.deploymentID)
    (hst : p.deploymentID = d → p'.status = .scheduled → p.status = .scheduled) : Halted d s (s.putPod p') := by
  refine Table.Stems.put (fun _ => id) fun hd => ?_
  rw [hdep] at hd
  exact ⟨p, by rw [hid]; exact hp, hd, hst hd⟩

theorem Halted.adjust (h : Cancelled s d) (ha : Adjust s s') : Halted d s s' := by
  cases ha with
  | status => exact .of_pods rfl
  | create D b t hD hne _ _ =>
    -- the new pod belongs to a deployment that is not cancelled
    refine Table.Stems.put (fun _ => id) fun hd => ?_
    have hid : D.id = d := hd
    rw [hid] at hD
    exact absurd (h.status hD) hne
  | cancel D p t _ hp => exact .overwrite hp rfl rfl fun _ hs => by cases hs

theorem Halted.adjusts (h : Cancelled s d) (ha : ReflTransGen Adjust s s') : Halted d s s' := by
  have hkeep : Cancelled s' d ∧ Halted d s s' :=
    keeps_of_chain (fun s₁ => Cancelled s₁ d ∧ Halted d s s₁)
      (fun _ _ ha h => ⟨h.1.adjust ha, h.2.trans (.adjust h.1 ha)⟩) ha ⟨h, .of_pods rfl⟩
  exact hkeep.2

theorem Halted.detect {now : Time} (hd : Detected timeout now s s') : Halted d s s' := by
  refine Table.Stems.of_keys hd.keys fun k p hp => ?_
  obtain ⟨p', hp', hin, hout⟩ := hd.pods k p hp
  refine ⟨p', hp', fun hdep => ?_⟩
  by_cases hlost : LostNode timeout now s p.nodeID
  · have hres := hin hlost
    refine ⟨hres.deploymentID.symm.trans hdep, fun hs => ?_⟩
    cases hres with
    | orphan | retry | deadLetter => cases hs
    | keep => exact hs
  · obtain rfl := hout hlost
    exact ⟨hdep, id⟩

/-! ## What still dispatches -/

instance (now : Time) (p : Pod) : Decidable (Scheduler.ready now p) :=
  inferInstanceAs (Decidable (p.runAfter.isZero = true ∨ p.runAfter ≤ now))

/-- The scheduler finds no pod of the deployment that is pending and ready, and nobody reports one as `SCHEDULED`
that may become so. -/
def Undispatched (d : String) (s : Store) : Event → Prop
  | .schedulerTick now => ∀ p ∈ s.pods.rows, p.deploymentID = d → p.status = .pending → ¬ Scheduler.ready now p
  | .report _ pod (some req) => ∀ p ∈ s.pods.rows, p.id = pod → p.deploymentID = d →
      transitionPod p.status .scheduled = true → req.status ≠ .scheduled
  | _ => True

instance : (e : Event) → Decidable (Undispatched d s e)
  | .schedulerTick now => inferInstanceAs (Decidable (∀ p ∈ s.pods.rows, p.deploymentID = d → p.status = .pending →
      ¬ Scheduler.ready now p))
  | .report _ pod (some req) => inferInstanceAs (Decidable (∀ p ∈ s.pods.rows, p.id = pod → p.deploymentID = d →
      transitionPod p.status .scheduled = true → req.status ≠ .scheduled))
  | .report _ _ none | .register _ | .heartbeat .. | .poll _ | .drain _ | .submit _ | .cancel _ | .createService _
  | .updateService .. | .deleteService _ | .reconcilerTick _ => .isTrue trivial

/-- A tick without ready pods of the deployment dispatches none of them. -/
theorem Halted.dispatches {now : Time} (hnone : Undispatched d s (.schedulerTick now))
    (h : ReflTransGen (Scheduler.Dispatch now) s s') : Halted d s s' := by
  -- the pods of the deployment stay exactly as they are
  suffices hsame : ∀ k p, p.deploymentID = d → s'.pods.get k = some p → s.pods.get k = some p from
    fun k p hp hd => ⟨p, hsame k p hd hp, hd, id⟩
  refine keeps_of_chain (fun s₁ => ∀ k p, p.deploymentID = d → s₁.pods.get k = some p → s.pods.get k = some p)
    ?_ h (fun _ _ _ hp => hp)
  intro s₁ s₂ hdisp hsame k q hd hq
  cases hdisp with
  | mk p n t hp hst hready _ _ _ =>
    rw [Scheduler.dispatched, Store.putNode_pods, Store.putPod_pods, Table.get_put] at hq
    split at hq
    · obtain rfl := Option.some.inj hq
      have hstored := Table.mem_of_get (hsame p.id p hd hp)
      exact absurd hready (hnone p hstored hd hst)
    · exact hsame k q hd hq

/-- **One event** creates no pod of a cancelled deployment, and schedules none that nobody dispatches. -/
theorem Change.halted (hc : Change timeout e s s') (h : Cancelled s d) (hnone : Undispatched d s e) :
    Halted d s s' := by
  cases hc with
  | none | register | heartbeat | drain | ignored | submit | cancel => exact .of_pods rfl
  | rejected node pod req p hp _ =>
    obtain rfl : p.id = pod := Table.key_of_get hp
    exact .overwrite hp rfl rfl fun _ hs => hs
  | accepted node pod req p t hp ht =>
    obtain rfl : p.id = pod := Table.key_of_get hp
    have hput : Halted d s (s.putPod (Api.accepted p req t)) := by
      refine .overwrite hp rfl rfl fun hd hs => ?_
      have hreq : req.status = .scheduled := hs
      rw [hreq] at ht
      exact absurd hreq (hnone p (Table.mem_of_get hp) rfl hd ht)
    exact hput.trans (.of_pods (by simp))
  | service _ hs => exact .of_pods hs.2.1
  | schedule now hd => exact .dispatches hnone hd
  | reconcile now ha hd => exact (Halted.adjusts h ha).trans (.detect hd)

/-- **Cancelling stops dispatch**, where no tick after it finds a pod of the deployment pending and ready: once a
step has stored `CANCELLED`, no later event creates a pod of the deployment or schedules one. -/
theorem halted_after_cancel {tr₁ tr₂ : List (Step Sys Event)} {x : Step Sys Event} {σ : Sys}
    (h : Run (Sys.Next timeout) Sys.init (tr₁ ++ x :: tr₂) σ) (hstored : Cancelled x.dst.store d)
    (hnone : ∀ y ∈ tr₂, Undispatched d y.src.store y.label) :
    ∀ y ∈ tr₂, Halted d y.src.store y.dst.store := by
  intro y hy
  obtain ⟨tr₃, tr₄, -, hrun, r, hy', -⟩ := h.after.before hy
  have hkept : Cancelled y.src.store d := by
    refine Run.inv (fun σ : Sys => Cancelled σ.store d) (fun _ => True) ?_ hstored hrun fun _ _ => trivial
    rintro z ⟨r, hz, -⟩ - hz'
    exact (Event.prog_spec hz).cancelled hz'
  exact (Event.prog_spec hy').halted hkept (hnone y hy)

/-- A pod that runs when its deployment is cancelled is left to finish. -/
def cancelledRunning : List (Time × Event) :=
  [(8, .reconcilerTick 8), (9, .schedulerTick 9),
   (10, .report "node_00000000" "pod_00000002" (some { status := .succeeded })), (11, .schedulerTick 11)]

theorem halted_after_cancel_running :
    let σ₀ := Sys.init.applyAll (15 * second) startedRun
    let σ₁ := σ₀.apply (15 * second) 7 (.cancel "deploy_00000001")
    Cancelled σ₁.store "deploy_00000001" ∧
    ∀ y ∈ σ₁.trace (15 * second) cancelledRunning, Halted "deploy_00000001" y.src.store y.dst.store := by
  refine ⟨by decide +kernel, ?_⟩
  refine halted_after_cancel
    (Sys.run_trace (Sys.run_init (15 * second) startedRun) ((7, .cancel "deploy_00000001") :: cancelledRunning))
    (by decide +kernel) (by decide +kernel)

/-- A pod is created, its deployment is cancelled, and a tick follows. -/
def pendingPod : Sys := Sys.init.applyAll (15 * second) (startedRun.take 3)

def pendingCancelled : Sys := pendingPod.apply (15 * second) 4 (.cancel "deploy_00000001")

def pendingTicked : Sys := pendingCancelled.apply (15 * second) 5 (.schedulerTick 5)

theorem pending_pod_dispatched : ¬ ∀ (timeout : Duration) (d : String) (tr₁ tr₂ : List (Step Sys Event))
    (x : Step Sys Event) (σ : Sys), Run (Sys.Next timeout) Sys.init (tr₁ ++ x :: tr₂) σ → x.label = .cancel d →
    Cancelled x.dst.store d → ∀ y ∈ tr₂, Halted d y.src.store y.dst.store := by
  intro h
  have hpod : Run (Sys.Next (15 * second)) Sys.init _ pendingPod := Sys.run_init (15 * second) (startedRun.take 3)
  have hrun := (hpod.snoc (.cancel "deploy_00000001") (Sys.next_apply _ 4 _ _)).snoc (.schedulerTick 5)
    (Sys.next_apply _ 5 _ _)
  rw [List.append_assoc] at hrun
  have hhalted : Halted "deploy_00000001" pendingCancelled.store pendingTicked.store :=
    h _ "deploy_00000001" _ _ _ _ hrun rfl (by decide +kernel) _ List.mem_cons_self
  have hdst : (pendingTicked.store.pods.get "pod_00000002").map (fun p => (p.deploymentID, p.status)) =
      some ("deploy_00000001", .scheduled) := by decide +kernel
  have hsrc : (pendingCancelled.store.pods.get "pod_00000002").map Pod.status = some .pending := by decide +kernel
  obtain ⟨p', hp', hfacts⟩ := Option.map_eq_some_iff.mp hdst
  obtain ⟨hd, hst'⟩ := Prod.mk.inj hfacts
  obtain ⟨p, hp, -, hst⟩ := hhalted _ p' hp' hd
  rw [hp, Option.map_some, hst hst'] at hsrc
  cases hsrc

end ControlPlane
