import InfraPlatform.ControlPlane.ReconcilerSpec

/-!
# Replica reconciliation

What one pass of `reconcileDeployments` makes of each deployment, if the generated
pod IDs are new:

* `Settled`: the pods of a deployment before and after: the missing replicas are
  created, or the newest waiting pods are stopped, and the rest is kept.
* `replica_reconciliation`: every deployment that is not cancelled is settled and
  its status tells whether it has a dead-lettered pod; nothing else changes, and a
  second pass finds nothing to do.
* `excess_wraps`: not so if the number of pods beyond the replicas is no `int`.

The pass touches one deployment after the other.  `Confined` is the frame of one
round; all that is said about a deployment is about its own pods (`podsOf`), so
the rounds do not interfere.
-/

namespace ControlPlane.Reconciler

open Lib Lib.Prog

variable {s s' : Store} {d : Deployment}

/-! ## The pods of a deployment -/

/-- The pods of deployment `id`, in the order of the store. -/
def podsOf (s : Store) (id : String) : List Pod := s.pods.rows.filter fun p => p.deploymentID = id

theorem mem_podsOf {id : String} {p : Pod} : p ∈ podsOf s id ↔ s.pods.get p.id = some p ∧ p.deploymentID = id := by
  unfold podsOf
  rw [List.mem_filter, Table.mem_rows_iff, decide_eq_true_iff]

theorem podsOf_create {p : Pod} (h : s.pods.get p.id = none) (id : String) :
    podsOf (s.putPod p) id = podsOf s id ++ if p.deploymentID = id then [p] else [] := by
  unfold podsOf
  rw [Store.putPod_pods, Table.rows_put_new h, List.filter_append]
  split
  · next hd => simp [hd]
  · next hd => simp [hd]

/-- A pod overwritten by one of the same deployment. -/
theorem podsOf_overwrite {p q : Pod} (hq : s.pods.get p.id = some q) (hd : p.deploymentID = q.deploymentID) :
    (∀ id, id ≠ p.deploymentID → podsOf (s.putPod p) id = podsOf s id) ∧
    ∀ rest, (podsOf s p.deploymentID).Perm (q :: rest) → (podsOf (s.putPod p) p.deploymentID).Perm (p :: rest) := by
  obtain ⟨l₁, l₂, hrows, hput⟩ := Table.rows_put_of_get hq
  unfold podsOf
  rw [Store.putPod_pods, hrows, hput]
  constructor
  · intro id hid
    have hp : ¬ p.deploymentID = id := fun h => hid h.symm
    simp [List.filter_append, hp, hd ▸ hp]
  · intro rest hperm
    simp only [List.filter_append, List.filter_cons, decide_true, if_true, hd] at hperm ⊢
    have hl := (List.perm_cons q).mp (List.perm_middle.symm.trans hperm)
    exact List.perm_middle.trans (hl.cons p)

/-- `s'` is `s` but for the deployment `id` and its pods; no pod ID is given free. -/
structure Confined (id : String) (s s' : Store) : Prop where
  nodes : s'.nodes = s.nodes
  services : s'.services = s.services
  deploymentKeys : s'.deployments.keys = s.deployments.keys
  deployments : ∀ k, k ≠ id → s'.deployments.get k = s.deployments.get k
  pods : ∀ k, k ≠ id → podsOf s' k = podsOf s k
  unused : ∀ k, s'.pods.get k = none → s.pods.get k = none

theorem Confined.refl (id : String) (s : Store) : Confined id s s :=
  ⟨rfl, rfl, rfl, fun _ _ => rfl, fun _ _ => rfl, fun _ h => h⟩

theorem Confined.trans {id : String} {s₁ : Store} (h : Confined id s s₁) (h' : Confined id s₁ s') :
    Confined id s s' where
  nodes := h'.nodes.trans h.nodes
  services := h'.services.trans h.services
  deploymentKeys := h'.deploymentKeys.trans h.deploymentKeys
  deployments k hk := (h'.deployments k hk).trans (h.deployments k hk)
  pods k hk := (h'.pods k hk).trans (h.pods k hk)
  unused k hk := h.unused k (h'.unused k hk)

theorem unused_putPod {p : Pod} {k : String} (h : (s.putPod p).pods.get k = none) : s.pods.get k = none := by
  rw [Store.putPod_pods, Table.get_put] at h
  split at h
  · cases h
  · exact h

theorem Confined.create {p : Pod} (h : s.pods.get p.id = none) : Confined p.deploymentID s (s.putPod p) := by
  refine ⟨rfl, rfl, rfl, fun _ _ => rfl, fun k hk => ?_, fun k => unused_putPod⟩
  rw [podsOf_create h, if_neg (Ne.symm hk), List.append_nil]

theorem Confined.overwrite {p q : Pod} (hq : s.pods.get p.id = some q) (hd : p.deploymentID = q.deploymentID) :
    Confined p.deploymentID s (s.putPod p) :=
  ⟨rfl, rfl, rfl, fun _ _ => rfl, (podsOf_overwrite hq hd).1, fun _ => unused_putPod⟩

theorem Confined.moved (hd : s.deployments.get d.id = some d) (st : DeploymentStatus) (t : Time) :
    Confined d.id s (s.putDeployment (Store.moveDeployment d st t)) :=
  ⟨rfl, rfl, Table.keys_put_of_get (a := Store.moveDeployment d st t) hd,
    fun _ hk => Table.get_put_ne (a := Store.moveDeployment d st t) hk, fun _ _ => rfl, fun _ h => h⟩

/-! ## Filling up -/

/-- Random bytes, if asked for, give a pod ID that is not in use. -/
def freshPodID : (c : Call) → Store → Resp c → Bool
  | .randRead, s, r => r.any fun b => (s.pods.get (idOf "pod" b)).isNone
  | _, _, _ => true

/-- What a call may do when generated pod IDs are new. -/
def ExecFresh : Effect Call Resp Store := Effect.only Exec fun c s r => freshPodID c s r = true

/-- A pod made from the template `d`, not placed and not run yet. -/
def Replica (d : Deployment) (p : Pod) : Prop :=
  p.deploymentID = d.id ∧ p.status = .pending ∧ p.attempt = 0 ∧ p.nodeID = "" ∧ p.ns = d.ns ∧ p.labels = d.labels ∧
    p.image = d.image ∧ p.command = d.command ∧ p.args = d.args ∧ p.resources = d.resources

theorem newPod_replica (d : Deployment) (id : String) (t : Time) : Replica d (newPod d id t) :=
  ⟨rfl, rfl, rfl, rfl, rfl, rfl, rfl, rfl, rfl, rfl⟩

theorem createReplica_fresh (h : Runs ExecFresh (createReplica d) s () s') :
    ∃ id t, s.pods.get id = none ∧ s' = s.putPod (newPod d id t) := by
  obtain ⟨r, s₁, hgen, hcreate⟩ := runs_bind.mp h
  obtain ⟨_, s₂, hrand, hret⟩ := runs_bind.mp hgen
  obtain ⟨hE, hfresh⟩ : Exec .randRead s _ s₂ ∧ freshPodID .randRead s _ = true := runs_op.mp hrand
  obtain rfl : s₂ = s := hE
  obtain ⟨b, rfl, hnone⟩ := (Option.any_eq_true _ _).mp hfresh
  rw [Option.isNone_iff_eq_none] at hnone
  obtain ⟨rfl, rfl⟩ := runs_pure.mp hret
  -- the ID is new, so the store accepts the pod
  obtain ⟨t, s₃, hnow, hstore⟩ := runs_bind.mp (Runs.of_only hcreate)
  obtain rfl : s₃ = s₁ := runs_timeNow.mp hnow
  obtain ⟨_, s₄, hcr, hdone⟩ := runs_bind.mp hstore
  obtain ⟨-, rfl⟩ := runs_pure.mp hdone
  rw [runs_createPod, Store.createPod, if_neg (by simp [newPod, hnone])] at hcr
  exact ⟨_, t, hnone, (Prod.mk.inj hcr).2⟩

/-- The pods `new`, none of which was there in `s`, were added to deployment `d`. -/
structure Filled (d : Deployment) (s s' : Store) (new : List Pod) : Prop where
  confined : Confined d.id s s'
  deployments : s'.deployments = s.deployments
  pods : podsOf s' d.id = podsOf s d.id ++ new
  unused : ∀ p ∈ new, s.pods.get p.id = none
  replica : ∀ p ∈ new, Replica d p

theorem Filled.create {s₁ : Store} {new : List Pod} {id : String} {t : Time} (h : Filled d s s₁ new)
    (hnone : s₁.pods.get id = none) : Filled d s (s₁.putPod (newPod d id t)) (new ++ [newPod d id t]) := by
  have hnone' : s₁.pods.get (newPod d id t).id = none := hnone
  constructor
  · exact h.confined.trans (.create hnone')
  · exact h.deployments
  · rw [podsOf_create hnone', if_pos (show (newPod d id t).deploymentID = d.id from rfl), h.pods, List.append_assoc]
  · intro p hp
    rcases List.mem_append.mp hp with hp | hp
    · exact h.unused p hp
    · obtain rfl := List.mem_singleton.mp hp
      exact h.confined.unused id hnone
  · intro p hp
    rcases List.mem_append.mp hp with hp | hp
    · exact h.replica p hp
    · obtain rfl := List.mem_singleton.mp hp
      exact newPod_replica d id t

theorem createReplicas_filled {k : Nat} (h : Runs ExecFresh ((List.range k).forM fun _ => createReplica d) s () s') :
    ∃ new, new.length = k ∧ Filled d s s' new := by
  have key := Runs.forM_inv (fun done s₁ => ∃ new, new.length = done.length ∧ Filled d s s₁ new)
    (fun done i rest _ s₁ s₂ hI hrun => ?_) ?_ h
  · rw [List.length_range] at key
    exact key
  · obtain ⟨new, hlen, hfill⟩ := hI
    obtain ⟨id, t, hnone, rfl⟩ := createReplica_fresh hrun
    exact ⟨_, by simp [hlen], hfill.create hnone⟩
  · exact ⟨[], rfl, .refl _ _, rfl, by simp, by simp, by simp⟩

/-! ## Scaling down -/

/-- Pod `p` was cancelled by a scale-down. -/
def Stopped (p p' : Pod) : Prop := ∃ t, p' = Store.movePod p .cancelled "deployment scaled down" t

theorem cancelAll_stopped {id : String} {victims rest : List Pod} (hc : ∀ p ∈ victims, cancellable p = true)
    (hperm : (podsOf s id).Perm (victims ++ rest))
    (h : Runs Exec (victims.forM fun p => do
      let _ ← State.transitionPod p.id .cancelled "deployment scaled down"
      pure ()) s () s') :
    Confined id s s' ∧ s'.deployments = s.deployments ∧
      ∃ stopped, List.Forall₂ Stopped victims stopped ∧ (podsOf s' id).Perm (stopped ++ rest) := by
  induction victims generalizing s rest with
  | nil =>
    obtain ⟨-, rfl⟩ := runs_pure.mp h
    exact ⟨.refl _ _, rfl, [], .nil, hperm⟩
  | cons p victims ih =>
    rw [List.forM_eq_forM, List.forM_cons] at h
    obtain ⟨_, s₁, h1, h2⟩ := runs_bind.mp h
    obtain ⟨hp, rfl⟩ := mem_podsOf.mp (hperm.mem_iff.mpr (by simp : p ∈ p :: victims ++ rest))
    obtain ⟨t, rfl⟩ := cancelPod_spec hp (hc p List.mem_cons_self) h1
    -- the stopped pod joins the pods that are left alone
    have hput := (podsOf_overwrite (p := Store.movePod p .cancelled "deployment scaled down" t) hp rfl).2 _ hperm
    obtain ⟨hw, hdep, stopped, hst, hperm'⟩ := ih (fun q hq => hc q (List.mem_cons_of_mem p hq))
      (hput.trans List.perm_middle.symm) h2
    refine ⟨.trans (.overwrite (p := Store.movePod p .cancelled "deployment scaled down" t) hp rfl) hw, hdep,
      _, .cons ⟨t, rfl⟩ hst, ?_⟩
    exact hperm'.trans List.perm_middle

theorem Stopped.status {victims stopped : List Pod} (h : List.Forall₂ Stopped victims stopped) :
    ∀ p ∈ stopped, p.status = .cancelled := by
  induction h with
  | nil => simp
  | cons hp _ ih =>
    obtain ⟨t, rfl⟩ := hp
    intro p hp
    rcases List.mem_cons.mp hp with rfl | hp
    · rfl
    · exact ih p hp

/-! ## One deployment -/

/-- The pods of deployment `d` before and after: `new` ones fill it up, or the newest waiting ones, `victims`, are
`stopped`; all others are kept. -/
structure Settled (d : Deployment) (s s' : Store) (new victims stopped kept : List Pod) : Prop where
  before : (podsOf s d.id).Perm (victims ++ kept)
  after : (podsOf s' d.id).Perm (stopped ++ (kept ++ new))
  missing : new.length = (d.replicas - activeCount (podsOf s d.id)).toNat
  unused : ∀ p ∈ new, s.pods.get p.id = none
  replica : ∀ p ∈ new, Replica d p
  excess : victims.length = min (activeCount (podsOf s d.id) - d.replicas).toNat ((podsOf s d.id).countP cancellable)
  waiting : ∀ p ∈ victims, cancellable p = true
  stopped : List.Forall₂ Stopped victims stopped
  newest : ∀ p ∈ victims, ∀ q ∈ kept, cancellable q = true → q.createdAt ≤ p.createdAt

theorem settled_of_filled {new : List Pod} (h : Filled d s s' new)
    (hlen : new.length = (d.replicas - activeCount (podsOf s d.id)).toNat)
    (hle : activeCount (podsOf s d.id) ≤ d.replicas) : Settled d s s' new [] [] (podsOf s d.id) where
  before := .refl _
  after := by rw [h.pods]; rfl
  missing := hlen
  unused := h.unused
  replica := h.replica
  excess := by
    rw [Int.toNat_of_nonpos (by omega)]
    simp
  waiting := by simp
  stopped := .nil
  newest := by simp

/-- The relation reads the pods of the deployment and the IDs in use before. -/
theorem Settled.congr {s₀ s₁ : Store} {new victims stopped kept : List Pod}
    (h : Settled d s s' new victims stopped kept)
    (hbefore : podsOf s₀ d.id = podsOf s d.id) (hunused : ∀ k, s.pods.get k = none → s₀.pods.get k = none)
    (hafter : podsOf s₁ d.id = podsOf s' d.id) : Settled d s₀ s₁ new victims stopped kept where
  before := hbefore ▸ h.before
  after := hafter ▸ h.after
  missing := hbefore ▸ h.missing
  unused p hp := hunused _ (h.unused p hp)
  replica := h.replica
  excess := hbefore ▸ h.excess
  waiting := h.waiting
  stopped := h.stopped
  newest := h.newest

/-- The replicas are settled the same whatever status the copy of the deployment has. -/
theorem Settled.of_copy {w : Deployment} {st : DeploymentStatus} {new victims stopped kept : List Pod}
    (h : Settled w s s' new victims stopped kept) (hw : w = { d with status := st }) :
    Settled d s s' new victims stopped kept := by
  subst hw
  exact ⟨h.before, h.after, h.missing, h.unused, h.replica, h.excess, h.waiting, h.stopped, h.newest⟩

/-- The newest of the waiting pods come first. -/
theorem newest_first (l : List Pod) (k : Nat) :
    ∀ p ∈ (l.insertionSort fun a b => a.createdAt ≥ b.createdAt).take k,
      ∀ q ∈ (l.insertionSort fun a b => a.createdAt ≥ b.createdAt).drop k, q.createdAt ≤ p.createdAt := by
  have htotal : Std.Total fun a b : Pod => a.createdAt ≥ b.createdAt := ⟨fun a b => le_total b.createdAt a.createdAt⟩
  have htrans : IsTrans Pod fun a b => a.createdAt ≥ b.createdAt := ⟨fun _ _ _ => ge_trans⟩
  have hsorted := List.pairwise_insertionSort (fun a b : Pod => a.createdAt ≥ b.createdAt) l
  rw [← List.take_append_drop k (l.insertionSort _), List.pairwise_append] at hsorted
  exact hsorted.2.2

theorem cancelExcess_settled {pods : List Pod} (hperm : pods.Perm (podsOf s d.id))
    (hgt : d.replicas < activeCount (podsOf s d.id))
    (h : Runs Exec (cancelExcess (activeCount (podsOf s d.id) - d.replicas).toNat (pods.filter cancellable)) s () s') :
    Confined d.id s s' ∧ s'.deployments = s.deployments ∧
      ∃ victims stopped kept, Settled d s s' [] victims stopped kept := by
  unfold cancelExcess at h
  generalize hk : (activeCount (podsOf s d.id) - d.replicas).toNat = k at h
  have hnewest := newest_first (pods.filter cancellable) k
  have hsort := List.perm_insertionSort (fun a b : Pod => a.createdAt ≥ b.createdAt) (pods.filter cancellable)
  generalize (pods.filter cancellable).insertionSort (fun a b => a.createdAt ≥ b.createdAt) = sorted at h hnewest hsort
  -- the victims, the other waiting pods, and the pods that do not wait
  have hbefore : (podsOf s d.id).Perm (sorted.take k ++ (sorted.drop k ++ pods.filter fun p => !cancellable p)) := by
    rw [← List.append_assoc, List.take_append_drop]
    exact (hperm.symm.trans (List.filter_append_perm cancellable pods).symm).trans (hsort.symm.append_right _)
  have hwait : ∀ p ∈ sorted, cancellable p = true := fun p hp => (List.mem_filter.mp (hsort.mem_iff.mp hp)).2
  obtain ⟨hw, hdep, stopped, hstopped, hafter⟩ :=
    cancelAll_stopped (fun p hp => hwait p (List.mem_of_mem_take hp)) hbefore h
  refine ⟨hw, hdep, _, stopped, _, hbefore, by rw [List.append_nil]; exact hafter, ?_, by simp, by simp, ?_, ?_,
    hstopped, ?_⟩
  · rw [Int.toNat_of_nonpos (by omega)]
    rfl
  · rw [List.length_take, hk, hsort.length_eq, ← List.countP_eq_length_filter, hperm.countP_eq]
  · exact fun p hp => hwait p (List.mem_of_mem_take hp)
  · intro p hp q hq hc
    rcases List.mem_append.mp hq with hq | hq
    · exact hnewest p hp q hq
    · simp [hc] at hq

/-- The difference between the replicas asked for and the pods that there are comes out as it is. -/
def Counts [A : Arith] (d : Deployment) (n : Nat) : Prop :=
  (n < d.replicas → A.int (d.replicas - n) = d.replicas - n) ∧
    (d.replicas < n → A.int (n - d.replicas) = n - d.replicas)

theorem reconcileReplicas_settled [A : Arith] {pods : List Pod} (hc : Counts d (activeCount (podsOf s d.id)))
    (hperm : pods.Perm (podsOf s d.id))
    (h : Runs ExecFresh (reconcileReplicas d pods) s () s') :
    Confined d.id s s' ∧ s'.deployments = s.deployments ∧
      ∃ new victims stopped kept, Settled d s s' new victims stopped kept := by
  have hcount : activeCount pods = activeCount (podsOf s d.id) := hperm.countP_eq _
  unfold reconcileReplicas at h
  rw [hcount] at h
  split at h
  · next hlt =>
    rw [hc.1 hlt] at h
    obtain ⟨new, hlen, hfill⟩ := createReplicas_filled h
    exact ⟨hfill.confined, hfill.deployments, _, _, _, _, settled_of_filled hfill hlen (by omega)⟩
  · next hge =>
    split at h
    · next hgt =>
      rw [hc.2 hgt] at h
      obtain ⟨hw, hdep, hset⟩ := cancelExcess_settled hperm hgt (Runs.of_only h)
      exact ⟨hw, hdep, [], hset⟩
    · next hle =>
      obtain ⟨-, rfl⟩ := runs_pure.mp h
      have hfill : Filled d s' s' [] := ⟨.refl _ _, rfl, by simp, by simp, by simp⟩
      refine ⟨.refl _ _, rfl, _, _, _, _, settled_of_filled hfill ?_ (by omega)⟩
      rw [Int.toNat_of_nonpos (by omega)]
      rfl

/-! ## Status -/

def hasDeadLetter (pods : List Pod) : Bool := pods.any fun p => p.status == .deadLetter

/-- The status that tells whether a deployment has a dead-lettered pod. -/
def healthOf (pods : List Pod) : DeploymentStatus := if hasDeadLetter pods then .degraded else .active

theorem healthOf_eq_active {pods : List Pod} (h : healthOf pods = .active) : hasDeadLetter pods = false := by
  unfold healthOf at h
  split at h
  · cases h
  · next hb => simpa using hb

theorem healthOf_eq_degraded {pods : List Pod} (h : healthOf pods = .degraded) : hasDeadLetter pods = true := by
  unfold healthOf at h
  split at h
  · next hb => exact hb
  · cases h

theorem healthOf_ne_pending (pods : List Pod) : healthOf pods ≠ .pending := by
  unfold healthOf
  split <;> simp

/-- One of the declared statuses of a deployment that is not cancelled. -/
def Live (d : Deployment) : Prop := d.status = .pending ∨ d.status = .active ∨ d.status = .degraded

/-- No pod is dead-lettered by a pass, and none recovers. -/
theorem Settled.deadLetters {new victims stopped kept : List Pod} (h : Settled d s s' new victims stopped kept) :
    hasDeadLetter (podsOf s' d.id) = hasDeadLetter (podsOf s d.id) := by
  have hvictims : hasDeadLetter victims = false := by
    simp only [hasDeadLetter, List.any_eq_false, beq_iff_eq]
    intro p hp hst
    have hc := h.waiting p hp
    simp [cancellable, hst] at hc
  have hstopped : hasDeadLetter stopped = false := by
    simp only [hasDeadLetter, List.any_eq_false, beq_iff_eq]
    intro p hp hst
    rw [Stopped.status h.stopped p hp] at hst
    cases hst
  have hnew : hasDeadLetter new = false := by
    simp only [hasDeadLetter, List.any_eq_false, beq_iff_eq]
    intro p hp hst
    rw [(h.replica p hp).2.1] at hst
    cases hst
  unfold hasDeadLetter at *
  rw [h.before.any_eq, h.after.any_eq, List.any_append, List.any_append, List.any_append, hvictims, hstopped, hnew]
  simp

/-- Activation works on a copy `w` of the deployment; the record stored is `x`. -/
theorem activate_settles {r : Option Deployment} (hd : s.deployments.get d.id = some d)
    (h : Runs Exec (activate d) s r s') :
    Confined d.id s s' ∧ s'.pods = s.pods ∧ ∃ w x, r = some w ∧ s'.deployments.get d.id = some x ∧
      w = { d with status := x.status } ∧
      (d.status = .pending ∧ (∃ t, x = { d with status := .active, updatedAt := t }) ∨
        d.status ≠ .pending ∧ x = d) := by
  rcases activate_cases hd h with ⟨hpend, rfl, t, rfl⟩ | ⟨hpend, rfl, rfl⟩
  · exact ⟨.moved hd .active t, rfl, _, _, rfl, Table.get_put_self s.deployments (Store.moveDeployment d .active t),
      rfl, .inl ⟨hpend, t, rfl⟩⟩
  · exact ⟨.refl _ _, rfl, d, d, rfl, hd, rfl, .inr ⟨hpend, rfl⟩⟩

theorem moveDeployment_spec {id : String} {x : Deployment} {dest : DeploymentStatus}
    (hx : s.deployments.get id = some x)
    (hok : transitionDeployment x.status dest = true)
    (h : Runs Exec (do
      let _ ← State.transitionDeployment id dest
      pure ()) s () s') :
    ∃ t, s' = s.putDeployment (Store.moveDeployment x dest t) := by
  simp only [runs_bind, runs_transitionDeployment] at h
  obtain ⟨_, s₁, ⟨t, htr⟩, h⟩ := h
  rw [Store.transitionDeployment_of hx hok] at htr
  obtain ⟨-, rfl⟩ := Prod.mk.inj htr
  exact ⟨t, (runs_pure.mp h).2⟩

/-- The stored record `x` follows the health of the deployment, if it is active or degraded. -/
theorem reconcileHealth_settles {w x : Deployment} {b : Bool} (hx : s.deployments.get w.id = some x)
    (hw : w.status = x.status) (h : Runs Exec (reconcileHealth w b) s () s') :
    Confined w.id s s' ∧ s'.pods = s.pods ∧ ∃ x', s'.deployments.get w.id = some x' ∧
      (x.status = .active ∨ x.status = .degraded →
        ∃ t, x' = { x with status := if b then .degraded else .active, updatedAt := t }) ∧
      (x.status ≠ .active → x.status ≠ .degraded → x' = x) := by
  have hid : x.id = w.id := Table.key_of_get hx
  have hx' : s.deployments.get x.id = some x := by rw [hid]; exact hx
  have stored : ∀ dest t, (s.putDeployment (Store.moveDeployment x dest t)).deployments.get w.id =
      some (Store.moveDeployment x dest t) := fun dest t => by
    rw [← hid]
    exact Table.get_put_self s.deployments (Store.moveDeployment x dest t)
  unfold reconcileHealth at h
  rw [hw] at h
  split at h
  · next hb =>
    obtain ⟨t, rfl⟩ := moveDeployment_spec hx (by rw [hb.2]; rfl) h
    refine ⟨hid ▸ .moved hx' .degraded t, rfl, _, stored .degraded t, fun _ => ⟨t, ?_⟩,
      fun hne _ => absurd hb.2 hne⟩
    rw [if_pos hb.1]
    rfl
  · next hb =>
    split at h
    · next hb' =>
      obtain ⟨t, rfl⟩ := moveDeployment_spec hx (by rw [hb'.2]; rfl) h
      refine ⟨hid ▸ .moved hx' .active t, rfl, _, stored .active t, fun _ => ⟨t, ?_⟩,
        fun _ hne => absurd hb'.2 hne⟩
      rw [if_neg hb'.1]
      rfl
    · next hb' =>
      obtain ⟨-, rfl⟩ := runs_pure.mp h
      refine ⟨.refl _ _, rfl, x, hx, fun hst => ⟨x.updatedAt, ?_⟩, fun _ _ => rfl⟩
      -- the status agrees already
      rcases hst with hst | hst
      · rw [if_neg fun h => hb ⟨h, hst⟩, ← hst]
      · rw [if_pos (by_contra fun h => hb' ⟨h, hst⟩), ← hst]

/-! ## A round -/

/-- What a pass makes of deployment `d`. -/
structure Round (s s' : Store) (d : Deployment) : Prop where
  settled : d.status ≠ .cancelled → ∃ new victims stopped kept, Settled d s s' new victims stopped kept
  cancelled : d.status = .cancelled → podsOf s' d.id = podsOf s d.id
  health : Live d → ∃ t, s'.deployments.get d.id = some { d with status := healthOf (podsOf s' d.id), updatedAt := t }
  kept : ¬ Live d → s'.deployments.get d.id = some d

/-- A round is about the pods of the deployment, the IDs in use before it and the deployment after it. -/
theorem Round.congr {s₀ s₁ : Store} (h : Round s s' d) (hbefore : podsOf s₀ d.id = podsOf s d.id)
    (hunused : ∀ k, s.pods.get k = none → s₀.pods.get k = none) (hafter : podsOf s₁ d.id = podsOf s' d.id)
    (hd : s₁.deployments.get d.id = s'.deployments.get d.id) : Round s₀ s₁ d := by
  constructor
  · intro hnc
    obtain ⟨new, victims, stopped, kept, hset⟩ := h.settled hnc
    exact ⟨new, victims, stopped, kept, hset.congr hbefore hunused hafter⟩
  · intro hc
    rw [hbefore, hafter]
    exact h.cancelled hc
  · rw [hafter, hd]
    exact h.health
  · rw [hd]
    exact h.kept

theorem podsOf_congr (h : s'.pods = s.pods) (id : String) : podsOf s' id = podsOf s id := by
  unfold podsOf
  rw [h]

theorem reconcileDeployment_round [A : Arith] (hd : s.deployments.get d.id = some d)
    (hcounts : d.status ≠ .cancelled → Counts d (activeCount (podsOf s d.id)))
    (h : Runs ExecFresh (reconcileDeployment d) s () s') : Confined d.id s s' ∧ Round s s' d := by
  unfold reconcileDeployment at h
  split at h
  · next hc =>
    obtain ⟨-, rfl⟩ := runs_pure.mp h
    refine ⟨.refl _ _, fun hnc => absurd hc hnc, fun _ => rfl, fun hr => ?_, fun _ => hd⟩
    simp [Live, hc] at hr
  · next hnc =>
    obtain ⟨_, s₁, hact, h₁⟩ := runs_bind.mp h
    obtain ⟨hw₁, hpods₁, w, x, rfl, hx, hw, hcase⟩ := activate_settles hd (Runs.of_only hact)
    have hwid : w.id = d.id := by rw [hw]
    have hwst : w.status = x.status := by rw [hw]
    obtain ⟨_, s₂, hlist, h₂⟩ := runs_bind.mp h₁
    obtain ⟨⟨pods, rfl, hperm⟩, rfl⟩ := runs_listPodsByDeployment.mp (Runs.of_only hlist)
    obtain ⟨_, s₃, hrep, hhealth⟩ := runs_bind.mp h₂
    have hcounts₁ : Counts w (activeCount (podsOf s₂ w.id)) := by
      rw [hwid, podsOf_congr hpods₁, hw]
      exact hcounts hnc
    obtain ⟨hw₂, hdep₂, new, victims, stopped, kept, hset⟩ := reconcileReplicas_settled hcounts₁ hperm hrep
    obtain ⟨hw₃, hpods₃, x', hx', hmoved, hsame⟩ := reconcileHealth_settles (by rw [hdep₂, hwid]; exact hx) hwst
      (Runs.of_only hhealth)
    rw [hwid] at hw₂ hw₃ hx' hperm
    have hset' : Settled d s s' new victims stopped kept :=
      (hset.of_copy hw).congr (podsOf_congr hpods₁ d.id).symm (fun k hk => by rw [← hpods₁]; exact hk)
        (podsOf_congr hpods₃ d.id)
    -- the listing was taken before the replicas changed, but the dead letters are the same ones
    have hdl : (pods.any fun p => p.status == .deadLetter) = hasDeadLetter (podsOf s' d.id) := by
      rw [hset'.deadLetters, ← podsOf_congr hpods₁ d.id]
      exact hperm.any_eq
    rw [hdl] at hmoved
    refine ⟨(hw₁.trans hw₂).trans hw₃, fun _ => ⟨new, victims, stopped, kept, hset'⟩, fun hc => absurd hc hnc,
      fun hr => ?_, fun hr => ?_⟩
    · rcases hcase with ⟨-, t, rfl⟩ | ⟨hnp, rfl⟩
      · obtain ⟨t', rfl⟩ := hmoved (.inl rfl)
        exact ⟨t', hx'⟩
      · obtain ⟨t', rfl⟩ := hmoved (hr.resolve_left hnp)
        exact ⟨t', hx'⟩
    · rcases hcase with ⟨hp, -⟩ | ⟨-, rfl⟩
      · exact absurd (.inl hp) hr
      · rw [hx', hsame (fun ha => hr (.inr (.inl ha))) (fun hg => hr (.inr (.inr hg)))]

/-! ## The pass -/

/-- The pass after the deployments `done`: these had their round, all others are as they were. -/
structure PassOn (done : List String) (s s' : Store) : Prop where
  nodes : s'.nodes = s.nodes
  services : s'.services = s.services
  deploymentKeys : s'.deployments.keys = s.deployments.keys
  unused : ∀ k, s'.pods.get k = none → s.pods.get k = none
  rounds : ∀ d, s.deployments.get d.id = some d → d.id ∈ done → Round s s' d
  pods : ∀ k, k ∉ done → podsOf s' k = podsOf s k
  deployments : ∀ k, k ∉ done → s'.deployments.get k = s.deployments.get k

theorem PassOn.start : PassOn [] s s :=
  ⟨rfl, rfl, rfl, fun _ h => h, fun _ _ h => absurd h List.not_mem_nil, fun _ _ => rfl, fun _ _ => rfl⟩

theorem PassOn.step [A : Arith] {done : List String} {s₁ : Store} (h : PassOn done s s₁)
    (hd : s.deployments.get d.id = some d)
    (hcounts : d.status ≠ .cancelled → Counts d (activeCount (podsOf s d.id))) (hnew : d.id ∉ done)
    (hrun : Runs ExecFresh (reconcileDeployment d) s₁ () s') : PassOn (done ++ [d.id]) s s' := by
  obtain ⟨hw, hround⟩ := reconcileDeployment_round (by rw [h.deployments d.id hnew]; exact hd)
    (by rw [h.pods d.id hnew]; exact hcounts) hrun
  constructor
  · exact hw.nodes.trans h.nodes
  · exact hw.services.trans h.services
  · exact hw.deploymentKeys.trans h.deploymentKeys
  · exact fun k hk => h.unused k (hw.unused k hk)
  · intro e he hin
    by_cases hed : e.id = d.id
    · obtain rfl : d = e := by
        rw [hed, hd] at he
        simpa using he
      exact hround.congr (h.pods d.id hnew).symm h.unused rfl rfl
    · have hdone : e.id ∈ done := by simpa [hed] using hin
      exact (h.rounds e he hdone).congr rfl (fun _ hk => hk) (hw.pods e.id hed) (hw.deployments e.id hed)
  · intro k hk
    rw [List.mem_append, not_or] at hk
    rw [hw.pods k (by simpa using hk.2), h.pods k hk.1]
  · intro k hk
    rw [List.mem_append, not_or] at hk
    rw [hw.deployments k (by simpa using hk.2), h.deployments k hk.1]

/-- What a pass leaves of `s`. -/
structure Reconciled (s s' : Store) : Prop where
  nodes : s'.nodes = s.nodes
  services : s'.services = s.services
  deploymentKeys : s'.deployments.keys = s.deployments.keys
  deployments : ∀ d, s.deployments.get d.id = some d → Round s s' d
  stray : ∀ k, s.deployments.get k = none → podsOf s' k = podsOf s k

/-- Every deployment asks for a number of pods that can be compared with the number it has. -/
def AllCount [A : Arith] (s : Store) : Prop :=
  ∀ d, s.deployments.get d.id = some d → d.status ≠ .cancelled → Counts d (activeCount (podsOf s d.id))

theorem reconcileDeployments_reconciled [A : Arith] (hcounts : AllCount s)
    (h : Runs ExecFresh reconcileDeployments s () s') : Reconciled s s' := by
  obtain ⟨_, s₁, hlist, hloop⟩ := runs_bind.mp h
  obtain ⟨⟨ds, rfl, hperm⟩, rfl⟩ := runs_listDeployments.mp (Runs.of_only hlist)
  have hnd : (ds.map Deployment.id).Nodup := nodup_of_perm_filter hperm
  have hmem : ∀ d, d ∈ ds ↔ s₁.deployments.get d.id = some d := fun d => by
    rw [mem_of_perm_filter hperm]
    simp
  have key := Runs.forM_inv (fun done s => PassOn (done.map Deployment.id) s₁ s)
    (fun done d rest hsplit s s' hI hrun => ?_) .start hloop
  · refine ⟨key.nodes, key.services, key.deploymentKeys, fun d hd => ?_, fun k hk => ?_⟩
    · exact key.rounds d hd (List.mem_map_of_mem ((hmem d).mpr hd))
    · refine key.pods k fun hin => ?_
      obtain ⟨d, hd, rfl⟩ := List.mem_map.mp hin
      rw [(hmem d).mp hd] at hk
      cases hk
  · rw [List.map_append]
    have hd := (hmem d).mp (by rw [hsplit]; simp)
    exact hI.step hd (hcounts d hd) (new_of_split hnd hsplit) hrun

/-! ## The next pass -/

theorem active_of_cancellable {p : Pod} (h : cancellable p = true) : p.active = true := by
  rcases cancellable_iff.mp h with hs | hs <;> simp [Pod.active, hs]

/-- As many active pods as replicas, or more and none of them waiting. -/
def InBalance (pods : List Pod) (replicas : Int) : Prop :=
  activeCount pods = replicas ∨ replicas < activeCount pods ∧ ∀ p ∈ pods, cancellable p = false

theorem Settled.balanced {new victims stopped kept : List Pod} (h : Settled d s s' new victims stopped kept) :
    InBalance (podsOf s' d.id) d.replicas := by
  have hgone : ∀ p ∈ stopped, p.active = false ∧ cancellable p = false := by
    intro p hp
    have hst := Stopped.status h.stopped p hp
    simp [Pod.active, cancellable, hst]
  have hbefore : activeCount (podsOf s d.id) = victims.length + activeCount kept := by
    unfold activeCount
    rw [h.before.countP_eq, List.countP_append,
      List.countP_eq_length.mpr fun p hp => active_of_cancellable (h.waiting p hp)]
  have hafter : activeCount (podsOf s' d.id) = activeCount kept + new.length := by
    unfold activeCount
    have hstopped : stopped.countP Pod.active = 0 := List.countP_eq_zero.mpr fun p hp => by simp [hgone p hp]
    have hnew : new.countP Pod.active = new.length := List.countP_eq_length.mpr fun p hp => by
      simp [Pod.active, (h.replica p hp).2.1]
    rw [h.after.countP_eq, List.countP_append, List.countP_append, hstopped, hnew, Nat.zero_add]
  have hwaiting : (podsOf s d.id).countP cancellable = victims.length + kept.countP cancellable := by
    rw [h.before.countP_eq, List.countP_append, List.countP_eq_length.mpr h.waiting]
  have hmissing := h.missing
  have hexcess := h.excess
  by_cases heq : activeCount (podsOf s' d.id) = d.replicas
  · exact .inl heq
  · -- there was an excess, and stopping every waiting pod was not enough
    have hkept : kept.countP cancellable = 0 := by omega
    have hnone : new = [] := List.eq_nil_of_length_eq_zero (by omega)
    refine .inr ⟨by omega, fun p hp => ?_⟩
    rw [h.after.mem_iff, hnone, List.append_nil] at hp
    rcases List.mem_append.mp hp with hp | hp
    · exact (hgone p hp).2
    · simpa using List.countP_eq_zero.mp hkept p hp

theorem reconcileReplicas_balanced [A : Arith] {pods : List Pod} (hb : InBalance pods d.replicas)
    (h : Runs Exec (reconcileReplicas d pods) s () s') : s' = s := by
  unfold reconcileReplicas at h
  rcases hb with heq | ⟨hgt, hnone⟩
  · rw [if_neg (by omega), if_neg (by omega)] at h
    exact (runs_pure.mp h).2
  · have hfilter : pods.filter cancellable = [] := List.filter_eq_nil_iff.mpr fun p hp => by simp [hnone p hp]
    rw [if_neg (by omega), if_pos hgt, hfilter] at h
    unfold cancelExcess at h
    rw [List.insertionSort_nil, List.take_nil] at h
    exact (runs_pure.mp h).2

/-- The deployment asks for nothing: its replicas are in balance and its status tells its health. -/
structure AtRest (s : Store) (d : Deployment) : Prop where
  balanced : InBalance (podsOf s d.id) d.replicas
  notPending : d.status ≠ .pending
  active : d.status = .active → hasDeadLetter (podsOf s d.id) = false
  degraded : d.status = .degraded → hasDeadLetter (podsOf s d.id) = true

theorem InBalance.perm {pods pods' : List Pod} {n : Int} (h : InBalance pods n) (hperm : pods'.Perm pods) :
    InBalance pods' n := by
  unfold InBalance activeCount at *
  rw [hperm.countP_eq]
  exact h.imp_right fun ⟨hgt, hnone⟩ => ⟨hgt, fun p hp => hnone p (hperm.mem_iff.mp hp)⟩

theorem reconcileDeployment_atRest [A : Arith] (hr : d.status ≠ .cancelled → AtRest s d)
    (h : Runs Exec (reconcileDeployment d) s () s') : s' = s := by
  unfold reconcileDeployment at h
  split at h
  · exact (runs_pure.mp h).2
  · next hnc =>
    have hrest := hr hnc
    unfold activate at h
    rw [if_neg hrest.notPending] at h
    obtain ⟨_, s₁, hact, h₁⟩ := runs_bind.mp h
    obtain ⟨rfl, rfl⟩ := runs_pure.mp hact
    obtain ⟨_, s₂, hlist, h₂⟩ := runs_bind.mp h₁
    obtain ⟨⟨pods, rfl, hperm⟩, rfl⟩ := runs_listPodsByDeployment.mp hlist
    obtain ⟨_, s₃, hrep, hhealth⟩ := runs_bind.mp h₂
    obtain rfl := reconcileReplicas_balanced (hrest.balanced.perm hperm) hrep
    have hdl : (pods.any fun p => p.status == .deadLetter) = hasDeadLetter (podsOf s₃ d.id) := hperm.any_eq
    unfold reconcileHealth at hhealth
    rw [hdl, if_neg ?_, if_neg ?_] at hhealth
    · exact (runs_pure.mp hhealth).2
    · rintro ⟨hb, hst⟩
      exact hb (hrest.degraded hst)
    · rintro ⟨hb, hst⟩
      rw [hrest.active hst] at hb
      cases hb

theorem reconcileDeployments_atRest [A : Arith]
    (hr : ∀ d, s.deployments.get d.id = some d → d.status ≠ .cancelled → AtRest s d)
    (h : Runs Exec reconcileDeployments s () s') : s' = s := by
  obtain ⟨_, s₁, hlist, hloop⟩ := runs_bind.mp h
  obtain ⟨⟨ds, rfl, hperm⟩, rfl⟩ := runs_listDeployments.mp hlist
  refine Runs.forM_inv (fun _ s => s = s₁) (fun done d rest hsplit s s' hI hrun => ?_) rfl hloop
  subst hI
  exact reconcileDeployment_atRest (hr d ((mem_of_perm_filter hperm).mp (by rw [hsplit]; simp)).1) hrun

theorem Round.atRest {d' : Deployment} (h : Round s s' d) (hd' : s'.deployments.get d.id = some d')
    (hnc : d'.status ≠ .cancelled) : AtRest s' d' := by
  by_cases hr : Live d
  · obtain ⟨t, ht⟩ := h.health hr
    obtain rfl : _ = d' := Option.some.inj (ht.symm.trans hd')
    have hlive : d.status ≠ .cancelled := fun hc => by simp [Live, hc] at hr
    obtain ⟨new, victims, stopped, kept, hset⟩ := h.settled hlive
    exact ⟨hset.balanced, healthOf_ne_pending _, healthOf_eq_active, healthOf_eq_degraded⟩
  · obtain rfl : d = d' := Option.some.inj ((h.kept hr).symm.trans hd')
    obtain ⟨new, victims, stopped, kept, hset⟩ := h.settled hnc
    refine ⟨hset.balanced, fun hst => hr (.inl hst), fun hst => absurd (.inr (.inl hst)) hr,
      fun hst => absurd (.inr (.inr hst)) hr⟩

theorem Reconciled.atRest (h : Reconciled s s') {d' : Deployment} (hd' : s'.deployments.get d'.id = some d')
    (hnc : d'.status ≠ .cancelled) : AtRest s' d' := by
  obtain ⟨d, hd⟩ : ∃ d, s.deployments.get d'.id = some d := by
    rw [← Table.mem_keys_iff, ← h.deploymentKeys, Table.mem_keys_iff]
    exact ⟨d', hd'⟩
  have hid : d.id = d'.id := Table.key_of_get hd
  rw [← hid] at hd hd'
  exact (h.deployments d hd).atRest hd' hnc

/-- A pass over any arithmetic that counts the replicas right. -/
theorem reconcile_settles [A : Arith] (hcounts : AllCount s) (h : Runs ExecFresh reconcileDeployments s () s') :
    Reconciled s s' ∧ ∀ s'', Runs Exec reconcileDeployments s' () s'' → s'' = s' := by
  have hrec := reconcileDeployments_reconciled hcounts h
  exact ⟨hrec, fun s'' h' => reconcileDeployments_atRest (fun _ hd' hnc => hrec.atRest hd' hnc) h'⟩

/-- `Replicas` is a Go `int`, and so is the number of active pods beyond it. -/
def Int64Replicas (s : Store) : Prop :=
  ∀ d ∈ s.deployments.rows, IsInt64 d.replicas ∧
    (d.status ≠ .cancelled → activeCount (podsOf s d.id) - d.replicas < 2 ^ 63)

theorem Int64Replicas.counts [A : Arith] (hwrap : ∀ x, A.int x = wrapInt64 x) (h : Int64Replicas s) : AllCount s := by
  intro d hd hnc
  obtain ⟨⟨-, hhi⟩, hexcess⟩ := h d (Table.mem_of_get hd)
  have hfits := hexcess hnc
  constructor
  · intro hlt
    rw [hwrap]
    exact wrapInt64_of ⟨by omega, by omega⟩
  · intro hgt
    rw [hwrap]
    exact wrapInt64_of ⟨by omega, by omega⟩

/-- **Replica reconciliation.**  A pass settles every deployment that is not cancelled and leaves everything else as it
is, and the next pass changes nothing. -/
theorem replica_reconciliation (hint : Int64Replicas s) (h : Runs ExecFresh (reconcileDeployments (A := .go)) s () s') :
    Reconciled s s' ∧ ∀ s'', Runs Exec (reconcileDeployments (A := .go)) s' () s'' → s'' = s' :=
  reconcile_settles (A := .go) (Int64Replicas.counts (A := .go) (fun _ => rfl) hint) h

/-- One deployment lacks a replica, one has a pod too many and a dead letter, one is cancelled, one is gone. -/
def driftedStore : Store :=
  (((((((((({} : Store).putDeployment { id := "low", image := "web", replicas := 2, status := .pending }).putDeployment
    { id := "high", replicas := 2, status := .active }).putDeployment
    { id := "off", replicas := 3, status := .cancelled }).putPod
    { id := "serving", deploymentID := "low", status := .running, nodeID := "node" }).putPod
    { id := "older", deploymentID := "high", status := .pending, createdAt := 1 }).putPod
    { id := "newer", deploymentID := "high", status := .scheduled, createdAt := 3 }).putPod
    { id := "busy", deploymentID := "high", status := .running, createdAt := 5 }).putPod
    { id := "dead", deploymentID := "high", status := .deadLetter }).putPod
    { id := "stopping", deploymentID := "off", status := .running }).putPod
    { id := "stray", deploymentID := "gone", status := .pending }

def driftedPass : Unit × Store := (reconcileDeployments (A := .go)).run (fun c s => s.exec 9 c) driftedStore

theorem replica_reconciliation_drifted : Int64Replicas driftedStore ∧ Reconciled driftedStore driftedPass.2 ∧
    (∀ s'', Runs Exec (reconcileDeployments (A := .go)) driftedPass.2 () s'' → s'' = driftedPass.2) ∧
    driftedPass.2.deployments.rows.map (fun d => (d.id, d.status)) =
      [("low", .active), ("high", .degraded), ("off", .cancelled)] ∧
    driftedPass.2.pods.rows.map (fun p => (p.id, p.deploymentID, p.status)) =
      [("serving", "low", .running), ("older", "high", .pending), ("newer", "high", .cancelled),
        ("busy", "high", .running), ("dead", "high", .deadLetter), ("stopping", "off", .running),
        ("stray", "gone", .pending), ("pod_0000000a", "low", .pending)] := by
  have hint : Int64Replicas driftedStore := by
    unfold Int64Replicas
    decide +kernel
  have hrun : Runs ExecFresh (reconcileDeployments (A := .go)) driftedStore () driftedPass.2 :=
    run_runs_only _ (exec_allowed 9) freshPodID _ _ (by decide +kernel)
  obtain ⟨hrec, hnext⟩ := replica_reconciliation hint hrun
  exact ⟨hint, hrec, hnext, by decide +kernel, by decide +kernel⟩

/-- A deployment that asks for the smallest `int` of replicas and has a pod. -/
def negativeStore : Store :=
  (({} : Store).putDeployment { id := "web", replicas := -2 ^ 63, status := .active }).putPod
    { id := "pod", deploymentID := "web", status := .pending }

/-- The number of pods to stop wraps around, and none is. -/
theorem excess_wraps :
    ¬ ∀ s s' : Store, (∀ d ∈ s.deployments.rows, IsInt64 d.replicas) →
      Runs ExecFresh (reconcileDeployments (A := .go)) s () s' → Reconciled s s' := by
  intro h
  have hrun := run_runs_only (fun c s => s.exec 1 c) (exec_allowed 1) freshPodID (reconcileDeployments (A := .go))
    negativeStore (by decide +kernel)
  have hrec := h negativeStore _ (by decide +kernel) hrun
  obtain ⟨new, victims, stopped, kept, hset⟩ :=
    (hrec.deployments { id := "web", replicas := -2 ^ 63, status := .active } (by decide +kernel)).settled (by decide)
  -- one pod was to be stopped, but the pass leaves it as it is
  have hbalanced := hset.balanced
  revert hbalanced
  unfold InBalance
  decide +kernel

end ControlPlane.Reconciler
