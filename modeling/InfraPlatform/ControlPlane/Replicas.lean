import InfraPlatform.ControlPlane.System

/-!
# Replica bounds

No deployment ever has more active pods than replicas.  Three things carry it:
a pod that is no longer active never becomes active again, only the reconciler
creates pods, and it creates them while its own count is short.  In
particular the reconciler never scales down (`ScaleDown`).
-/

namespace ControlPlane

open Lib Lib.Prog Api Reconciler Relation

structure Bounded (s : Store) : Prop where
  registered : ∀ k p, s.pods.get k = some p → ∃ d, s.deployments.get p.deploymentID = some d
  bound : ∀ k d, s.deployments.get k = some d → activeIn s k ≤ d.replicas

variable {s s' : Store} {timeout : Duration} {e : Event}

theorem Bounded.empty : Bounded {} := by
  constructor
  · intro k p hp; cases hp
  · intro k d hd; cases hd

theorem activeIn_congr (h : s'.pods = s.pods) (d : String) : activeIn s' d = activeIn s d := by
  unfold activeIn; rw [h]

/-! ## Changes of the pods -/

/-- Pods that change without changing their deployment or becoming active again fill no more slots. -/
theorem activeIn_le (hk : s'.pods.keys = s.pods.keys)
    (hp : ∀ k p, s.pods.get k = some p → ∃ p', s'.pods.get k = some p' ∧ p'.deploymentID = p.deploymentID ∧
      (p'.active = true → p.active = true)) (d : String) : activeIn s' d ≤ activeIn s d := by
  refine Table.total_le_total _ _ hk fun k p' p hp' hpk => ?_
  obtain ⟨p₁, hp₁, hdep, hact⟩ := hp k p hpk
  obtain rfl : p₁ = p' := by simpa [hp₁] using hp'
  by_cases hf : fills d p₁ = true
  · have hf₀ : fills d p = true := by
      simp only [fills, Bool.and_eq_true, decide_eq_true_eq] at hf ⊢
      exact ⟨hdep ▸ hf.1, hact hf.2⟩
    rw [if_pos hf, if_pos hf₀]
  · rw [if_neg hf]
    split <;> omega

/-- Pods may change as long as none changes its deployment or becomes active again. -/
theorem Bounded.pods (h : Bounded s) (hd : s'.deployments = s.deployments) (hk : s'.pods.keys = s.pods.keys)
    (hp : ∀ k p, s.pods.get k = some p → ∃ p', s'.pods.get k = some p' ∧ p'.deploymentID = p.deploymentID ∧
      (p'.active = true → p.active = true)) : Bounded s' := by
  have hback : ∀ k p', s'.pods.get k = some p' → ∃ p, s.pods.get k = some p ∧ p'.deploymentID = p.deploymentID ∧
      (p'.active = true → p.active = true) := fun k p' hp' => Table.back hk hp hp'
  constructor
  · intro k p' hp'
    obtain ⟨p, hpk, hdep, -⟩ := hback k p' hp'
    rw [hd, hdep]
    exact h.registered k p hpk
  · intro k d hdk
    rw [hd] at hdk
    exact le_trans (activeIn_le hk hp k) (h.bound k d hdk)

theorem Bounded.overwrite {p p' : Pod} (h : Bounded s) (hp : s.pods.get p.id = some p) (hid : p'.id = p.id)
    (hdep : p'.deploymentID = p.deploymentID) (hact : p'.active = true → p.active = true) :
    Bounded (s.putPod p') := by
  refine h.pods rfl (keys_putPod hp hid) fun k q hq => ?_
  rw [Store.putPod_pods, Table.get_put, hid]
  by_cases hk : k = p.id
  · subst hk
    obtain rfl : p = q := by simpa [hp] using hq
    exact ⟨p', by simp, hdep, hact⟩
  · exact ⟨q, by simpa [hk] using hq, rfl, id⟩

theorem Bounded.create {d : Deployment} {id : String} {t : Time} (h : Bounded s)
    (hd : s.deployments.get d.id = some d) (hnone : s.pods.get id = none) (hroom : activeIn s d.id < d.replicas) :
    Bounded (s.putPod (newPod d id t)) := by
  constructor
  · intro k p hp
    rw [Store.putPod_pods, Table.get_put] at hp
    by_cases hk : k = id
    · obtain rfl : newPod d id t = p := by simpa [hk, newPod] using hp
      exact ⟨d, hd⟩
    · exact h.registered k p (by simpa [newPod, hk] using hp)
  · intro k d' hd'
    rw [activeIn_create (m := d.id) hnone rfl rfl]
    by_cases hk : d.id = k
    · subst hk
      obtain rfl : d = d' := by simpa [hd] using hd'
      rw [if_pos rfl]
      omega
    · rw [if_neg hk]
      have := h.bound k d' hd'
      omega

theorem Rescheduled.active [A : Arith] {p p' : Pod} (h : Rescheduled s p p') (hp' : p'.active = true) :
    p.active = true := by
  cases h with
  | orphan t hs => simp [Pod.active, hs]
  | retry now t₁ t₂ t₃ hs _ => simp [Pod.active, hs]
  | deadLetter t₁ t₂ hs _ => cases hp'
  | keep _ _ => exact hp'

/-! ## Changes of the deployments -/

theorem Bounded.congr (h : Bounded s) (hd : s'.deployments = s.deployments) (hp : s'.pods = s.pods) :
    Bounded s' :=
  h.pods hd (by rw [hp]) fun _ p hpk => ⟨p, by rw [hp]; exact hpk, rfl, id⟩

/-- A deployment without pods may come in, and one that is there may change except for its replicas. -/
theorem Bounded.putDeployment {d : Deployment} (h : Bounded s)
    (hnew : s.deployments.get d.id = none → 0 ≤ d.replicas)
    (hold : ∀ d', s.deployments.get d.id = some d' → d'.replicas = d.replicas) : Bounded (s.putDeployment d) := by
  constructor
  · intro k p hp
    obtain ⟨d', hd'⟩ := h.registered k p hp
    rw [Store.putDeployment_deployments, Table.get_put]
    split
    · exact ⟨d, rfl⟩
    · exact ⟨d', hd'⟩
  · intro k d' hd'
    rw [activeIn_congr (Store.putDeployment_pods d)]
    rw [Store.putDeployment_deployments, Table.get_put] at hd'
    by_cases hk : k = d.id
    · subst hk
      obtain rfl : d = d' := by simpa using hd'
      cases hs : s.deployments.get d.id with
      | some d₀ => rw [← hold d₀ hs]; exact h.bound _ d₀ hs
      | none =>
        -- every pod belongs to a registered deployment, so none belongs to this one
        have hzero : activeIn s d.id = 0 := by
          unfold activeIn
          rw [Table.total_indicator, Int.natCast_eq_zero, List.countP_eq_zero]
          intro p hp hf
          obtain ⟨d₁, hd₁⟩ := h.registered p.id p (Table.get_of_mem hp)
          have hdep : p.deploymentID = d.id := by
            simp only [fills, Bool.and_eq_true, decide_eq_true_eq] at hf
            exact hf.1
          rw [hdep, hs] at hd₁
          cases hd₁
        rw [hzero]
        exact hnew hs
    · exact h.bound k d' (by simpa [hk] using hd')

theorem withDefaults_replicas (req : SubmitDeploymentRequest) : 1 ≤ req.withDefaults.replicas := by
  simp only [SubmitDeploymentRequest.withDefaults]
  split <;> omega

/-! ## Every change -/

theorem Bounded.adjust (h : Bounded s) (ha : Adjust s s') : Bounded s' := by
  cases ha with
  | status d dest t hd _ _ =>
    refine h.putDeployment (fun hn => ?_) (fun d' hd' => ?_)
    · rw [show s.deployments.get d.id = none from hn] at hd; cases hd
    · rw [show s.deployments.get d.id = some d' from hd'] at hd
      obtain rfl : d' = d := by simpa using hd
      rfl
  | create d b t hd _ hnone hroom => exact h.create hd hnone hroom
  | cancel d p t hd _ _ _ hover =>
    have := h.bound d.id d hd
    omega

theorem Bounded.adjusts (h : Bounded s) (ha : ReflTransGen Adjust s s') : Bounded s' :=
  keeps_of_chain Bounded (fun _ _ ha h => h.adjust ha) ha h

theorem Bounded.dispatch {now : Time} (h : Bounded s) (hd : Scheduler.Dispatch now s s') : Bounded s' := by
  cases hd with
  | mk p n t hp hst _ _ _ _ =>
    have hput : Bounded (s.putPod (Store.movePod (Scheduler.assigned p n) .scheduled "" t)) :=
      h.overwrite hp rfl rfl (fun _ => by simp [Pod.active, hst])
    exact hput.congr rfl rfl

/-- The timeouts make no pod active. -/
theorem Detected.inactive [A : Arith] {now : Time} (hd : Detected timeout now s s') (k : String) (p : Pod)
    (hp : s.pods.get k = some p) : ∃ p', s'.pods.get k = some p' ∧ p'.deploymentID = p.deploymentID ∧
      (p'.active = true → p.active = true) := by
  obtain ⟨p', hp', hin, hout⟩ := hd.pods k p hp
  refine ⟨p', hp', ?_⟩
  by_cases hlost : LostNode timeout now s p.nodeID
  · exact ⟨(hin hlost).deploymentID, Rescheduled.active (hin hlost)⟩
  · rw [hout hlost]
    exact ⟨rfl, id⟩

theorem Bounded.detect {now : Time} (h : Bounded s) (hd : Detected timeout now s s') : Bounded s' :=
  h.pods hd.deployments hd.keys (Detected.inactive hd)

theorem Bounded.change (hc : Change timeout e s s') (h : Bounded s) : Bounded s' := by
  cases hc with
  | none _ => exact h
  | register req b t _ => exact h.congr rfl rfl
  | heartbeat now node req n _ => exact h.congr rfl rfl
  | drain node n _ _ => exact h.congr rfl rfl
  | ignored node pod body _ => exact h
  | rejected node pod req p hp _ =>
    have hid : p.id = pod := Table.key_of_get hp
    exact h.overwrite (p := p) (by rw [hid]; exact hp) rfl rfl (fun ha => ha)
  | accepted node pod req p t hp ht =>
    have hid : p.id = pod := Table.key_of_get hp
    have hput : Bounded (s.putPod (accepted p req t)) :=
      h.overwrite (p := p) (by rw [hid]; exact hp) rfl rfl (fun _ => active_of_transitionPod ht)
    exact hput.congr (by simp) (by simp)
  | submit req b t hnone =>
    refine h.putDeployment (fun _ => ?_) (fun d' hd' => ?_)
    · have := withDefaults_replicas req
      show 0 ≤ req.withDefaults.replicas
      omega
    · rw [show s.deployments.get (idOf "deploy" b) = some d' from hd'] at hnone
      cases hnone
  | cancel deployment d t hd _ =>
    have hid : d.id = deployment := Table.key_of_get hd
    refine h.putDeployment (fun hn => ?_) (fun d' hd' => ?_)
    · rw [← hid] at hd
      rw [show s.deployments.get d.id = none from hn] at hd
      cases hd
    · rw [← hid] at hd
      rw [show s.deployments.get d.id = some d' from hd'] at hd
      obtain rfl : d' = d := by simpa using hd
      rfl
  | service _ hs => exact h.congr hs.1 hs.2.1
  | schedule now hd => exact keeps_of_chain Bounded (fun _ _ hd h => h.dispatch hd) hd h
  | reconcile now ha hd => exact (h.adjusts ha).detect hd

/-! ## Scale-down -/

/-- A reconciliation pass from `s` reaches the branch that cancels pods: after some
of the listed deployments, one has more active pods than replicas. -/
def ScaleDown (s : Store) : Prop :=
  ∃ ds done d rest s₁ d' s₂ pods, ds.Perm s.deployments.rows ∧ ds = done ++ d :: rest ∧
    Runs Exec (done.forM reconcileDeployment) s ⟨⟩ s₁ ∧ d.status ≠ .cancelled ∧
    Runs Exec (activate d) s₁ (some d') s₂ ∧
    Lists s₂.pods.rows (fun p => p.deploymentID = d'.id) (.ok pods) ∧ activeCount pods > d'.replicas

theorem Bounded.not_scaleDown (h : Bounded s) : ¬ ScaleDown s := by
  rintro ⟨ds, done, d, rest, s₁, d', s₂, pods, hperm, rfl, hdone, hnc, hact, ⟨l, hl, hpods⟩, hover⟩
  obtain rfl : pods = l := by simpa using hl
  have hperm' : (done ++ d :: rest).Perm (s.deployments.rows.filter fun _ => true) := by simpa using hperm
  have hnd := nodup_of_perm_filter hperm'
  have hstored : ∀ x ∈ done ++ d :: rest, s.deployments.get x.id = some x :=
    fun x hx => ((mem_of_perm_filter hperm').mp hx).1
  have hnd' : (done.map Deployment.id).Nodup := by
    rw [List.map_append] at hnd
    exact (List.nodup_append.mp hnd).1
  obtain ⟨hadj, hother⟩ := forM_reconcileDeployment_spec hnd'
    (fun x hx => hstored x (List.mem_append_left _ hx)) hdone
  have hd : s₁.deployments.get d.id = some d := by
    rw [hother d.id (new_of_split hnd rfl)]
    exact hstored d (by simp)
  obtain ⟨hadj₂, -, -, d'', st, t, hsome, -, -, hd''⟩ := activate_spec hd hnc hact
  obtain rfl : d' = d'' := by simpa using hsome
  have hbound := ((h.adjusts hadj).adjusts hadj₂).bound d'.id _ hd''
  rw [← activeCount_listed hpods] at hbound
  have hrep : (Store.moveDeployment d' st t).replicas = d'.replicas := rfl
  omega

/-- **Replica bound.**  In every reachable state each deployment has at most
`replicas` active pods, and no reconciliation pass scales down. -/
theorem replica_bound {tr : List (Step Sys Event)} {σ : Sys} (h : Run (Sys.Next timeout) Sys.init tr σ) :
    (∀ d ∈ σ.store.deployments.rows,
      ((σ.store.pods.rows.filter fun p => p.deploymentID = d.id).countP Pod.active : Int) ≤ d.replicas) ∧
    ¬ ScaleDown σ.store := by
  have hb : Bounded σ.store := by
    refine Run.inv (fun σ => Bounded σ.store) (fun _ => True) ?_ Bounded.empty h (fun _ _ => trivial)
    rintro ⟨σ, e, σ'⟩ ⟨r, hr, -⟩ - hσ
    exact Bounded.change (Event.prog_spec hr) hσ
  refine ⟨fun d hd => ?_, hb.not_scaleDown⟩
  have hbound := hb.bound d.id d (Table.get_of_mem hd)
  rw [← activeCount_listed (List.Perm.refl _)] at hbound
  exact hbound

theorem replica_bound_started :
    (Sys.init.applyAll (15 * second) startedRun).store.deployments.rows.map (fun d => (d.id, d.replicas)) =
      [("deploy_00000001", 1)] ∧
    ∀ d ∈ (Sys.init.applyAll (15 * second) startedRun).store.deployments.rows,
      (((Sys.init.applyAll (15 * second) startedRun).store.pods.rows.filter
        fun p => p.deploymentID = d.id).countP Pod.active : Int) ≤ d.replicas :=
  ⟨by rfl, (replica_bound (Sys.run_init _ startedRun)).1⟩

end ControlPlane
