import InfraPlatform.ControlPlane.Placement

/-!
# The retry budget of a pod

`Attempt` counts one thing only: the passes of the reconciler that gave up the node
on which the pod was `RUNNING` (`lostWhileRunning`).  `Budgeted lost s` ties the
stored attempts to that count, and the count to the deployment's `MaxRetries`, which
submissions may set to any integer.

* `Budgeted.change`: every event keeps it, with the count moved on by a pass that
  loses the pod.
* `retry_budget`: so it holds in every state reached.
-/

namespace ControlPlane

open Lib Lib.Prog Api Reconciler Relation

variable {s s' : Store} {timeout : Duration} {e : Event} {now : Time} {lost lost' : String → Nat}

/-! ## What is counted -/

/-- `LostNode`, evaluated. -/
def nodeLost (timeout : Duration) (now : Time) (s : Store) (id : String) : Bool :=
  (s.nodes.get id).any fun n => (givenUpTo timeout now n).isSome

theorem nodeLost_iff {id : String} : nodeLost timeout now s id = true ↔ LostNode timeout now s id := by
  unfold nodeLost LostNode
  cases s.nodes.get id with
  | none => simp
  | some n => simp [Option.isSome_iff_ne_none]

/-- A pass at `now` finds pod `id` running on a node that it times out. -/
def losesRunning (timeout : Duration) (now : Time) (s : Store) (id : String) : Bool :=
  (s.pods.get id).any fun p => p.status == .running && nodeLost timeout now s p.nodeID

def Event.loses (timeout : Duration) (s : Store) (id : String) : Event → Bool
  | .reconcilerTick now => losesRunning timeout now s id
  | _ => false

/-- The step is a reconciler pass that times out the node on which pod `id` is running. -/
def lostWhileRunning (timeout : Duration) (id : String) (x : Step Sys Event) : Bool :=
  x.label.loses timeout x.src.store id

theorem losesRunning_of_not_running {p : Pod} {id : String} (hp : s.pods.get id = some p) (hs : p.status ≠ .running) :
    losesRunning timeout now s id = false := by
  simp [losesRunning, hp, hs]

/-! ## The invariant -/

/-- A dead-lettered pod is one attempt over its budget, any other is within it. -/
def InBudget (maxRetries : Int) (p : Pod) : Prop :=
  if p.status = .deadLetter then p.attempt = max maxRetries 0 + 1 else p.attempt ≤ max maxRetries 0

theorem inBudget_iff {m : Int} {p : Pod} (h : p.status ≠ .deadLetter) : InBudget m p ↔ p.attempt ≤ max m 0 := by
  rw [InBudget, if_neg h]

theorem inBudget_deadLetter {m : Int} {p : Pod} (h : p.status = .deadLetter) :
    InBudget m p ↔ p.attempt = max m 0 + 1 := by
  rw [InBudget, if_pos h]

structure Budgeted (lost : String → Nat) (s : Store) : Prop where
  new : ∀ k, s.pods.get k = none → lost k = 0
  attempt : ∀ k p, s.pods.get k = some p → p.attempt = lost k
  budget : ∀ k p, s.pods.get k = some p → ∃ d, s.deployments.get p.deploymentID = some d ∧ InBudget d.maxRetries p

theorem Budgeted.empty : Budgeted (fun _ => 0) {} := by
  refine ⟨fun _ _ => rfl, ?_, ?_⟩ <;> intro k p hp <;> cases hp

/-- No deployment disappears or changes its `MaxRetries`. -/
def SameBudgets (s s' : Store) : Prop :=
  ∀ k d, s.deployments.get k = some d → ∃ d', s'.deployments.get k = some d' ∧ d'.maxRetries = d.maxRetries

theorem SameBudgets.of_eq (h : s'.deployments = s.deployments) : SameBudgets s s' :=
  fun _ d hd => ⟨d, by rw [h]; exact hd, rfl⟩

theorem SameBudgets.putDeployment {d : Deployment}
    (h : ∀ d', s.deployments.get d.id = some d' → d'.maxRetries = d.maxRetries) :
    SameBudgets s (s.putDeployment d) := by
  intro k d' hd'
  rw [Store.putDeployment_deployments, Table.get_put]
  by_cases hk : k = d.id
  · subst hk
    exact ⟨d, by simp, (h d' hd').symm⟩
  · exact ⟨d', by simpa [hk] using hd', rfl⟩

/-- What a change may do to a pod that is there. -/
def PodKept (s : Store) (count : Nat) (p p' : Pod) : Prop :=
  p'.deploymentID = p.deploymentID ∧ p'.attempt = count ∧
    ∀ d, s.deployments.get p.deploymentID = some d → InBudget d.maxRetries p → InBudget d.maxRetries p'

/-- **The rule for changes that create no pod.** -/
theorem Budgeted.pods (h : Budgeted lost s) (hd : SameBudgets s s') (hk : s'.pods.keys = s.pods.keys)
    (hp : ∀ k p, s.pods.get k = some p → ∃ p', s'.pods.get k = some p' ∧ PodKept s (lost' k) p p')
    (hnew : ∀ k, s.pods.get k = none → lost' k = 0) : Budgeted lost' s' := by
  have hback : ∀ k p', s'.pods.get k = some p' → ∃ p, s.pods.get k = some p ∧ p'.attempt = lost' k ∧
      ∃ d, s'.deployments.get p'.deploymentID = some d ∧ InBudget d.maxRetries p' := by
    intro k p' hp'
    obtain ⟨p, hpk⟩ : ∃ p, s.pods.get k = some p := by
      rw [← Table.mem_keys_iff, ← hk, Table.mem_keys_iff]
      exact ⟨p', hp'⟩
    obtain ⟨q, hq, hdep, hatt, hbud⟩ := hp k p hpk
    obtain rfl : q = p' := by simpa [hq] using hp'
    obtain ⟨d, hdk, hin⟩ := h.budget k p hpk
    obtain ⟨d', hd', hm⟩ := hd _ d hdk
    exact ⟨p, hpk, hatt, d', by rw [hdep]; exact hd', by rw [hm]; exact hbud d hdk hin⟩
  refine ⟨fun k hk' => hnew k ?_, fun k p' hp' => ?_, fun k p' hp' => ?_⟩
  · rw [Table.get_eq_none_iff, ← hk, ← Table.get_eq_none_iff]
    exact hk'
  · obtain ⟨-, -, hatt, -⟩ := hback k p' hp'
    exact hatt
  · obtain ⟨-, -, -, hbud⟩ := hback k p' hp'
    exact hbud

theorem Budgeted.congr (h : Budgeted lost s) (hd : SameBudgets s s') (hp : s'.pods = s.pods) : Budgeted lost s' := by
  refine h.pods hd (by rw [hp]) (fun k p hk => ⟨p, by rw [hp]; exact hk, rfl, h.attempt k p hk, ?_⟩) h.new
  exact fun _ _ hin => hin

theorem InBudget.of_eq {m : Int} {p p' : Pod} (h : InBudget m p) (ha : p'.attempt = p.attempt)
    (hs : p'.status = .deadLetter ↔ p.status = .deadLetter) : InBudget m p' := by
  unfold InBudget at h ⊢
  rw [ha]
  simpa only [hs] using h

/-- A pod is written back with its attempts, in or out of dead-letter as it was. -/
theorem Budgeted.overwrite {p p' : Pod} (h : Budgeted lost s) (hp : s.pods.get p.id = some p) (hid : p'.id = p.id)
    (hdep : p'.deploymentID = p.deploymentID) (hatt : p'.attempt = p.attempt)
    (hst : p'.status = .deadLetter ↔ p.status = .deadLetter) : Budgeted lost (s.putPod p') := by
  refine h.pods (.of_eq rfl) (keys_putPod hp hid) (fun k q hq => ?_) h.new
  rw [Store.putPod_pods, Table.get_put, hid]
  by_cases hk : k = p.id
  · subst hk
    obtain rfl : p = q := by simpa [hp] using hq
    exact ⟨p', by simp, hdep, hatt.trans (h.attempt _ p hp), fun d _ hin => hin.of_eq hatt hst⟩
  · exact ⟨q, by simpa [hk] using hq, rfl, h.attempt k q hq, fun _ _ hin => hin⟩

theorem Budgeted.create {d : Deployment} {id : String} {t : Time} (h : Budgeted lost s)
    (hd : s.deployments.get d.id = some d) (hnone : s.pods.get id = none) :
    Budgeted lost (s.putPod (newPod d id t)) := by
  have hget : ∀ k, (s.putPod (newPod d id t)).pods.get k = if k = id then some (newPod d id t) else s.pods.get k :=
    Table.get_put s.pods (newPod d id t)
  refine ⟨fun k hk => h.new k ?_, fun k p hp => ?_, fun k p hp => ?_⟩
  · rw [hget] at hk
    split at hk
    · cases hk
    · exact hk
  · rw [hget] at hp
    split at hp
    · next hk =>
      obtain rfl : newPod d id t = p := by simpa using hp
      rw [hk, h.new id hnone]
      rfl
    · exact h.attempt k p hp
  · rw [hget] at hp
    split at hp
    · obtain rfl : newPod d id t = p := by simpa using hp
      exact ⟨d, hd, (inBudget_iff (by simp [newPod])).mpr (le_max_right _ _)⟩
    · exact h.budget k p hp

/-! ## The loops -/

theorem Budgeted.dispatch (h : Budgeted lost s) (hd : Scheduler.Dispatch now s s') : Budgeted lost s' := by
  cases hd with
  | mk p n t hp hst _ _ _ _ =>
    have hput : Budgeted lost (s.putPod (Store.movePod (Scheduler.assigned p n) .scheduled "" t)) :=
      h.overwrite hp rfl rfl rfl (by simp [hst])
    exact hput.congr (.of_eq rfl) rfl

theorem Budgeted.adjust (h : Budgeted lost s) (ha : Adjust s s') : Budgeted lost s' := by
  cases ha with
  | status d dest t hd _ _ =>
    refine h.congr (.putDeployment fun d' hd' => ?_) rfl
    rw [show s.deployments.get d.id = some d' from hd'] at hd
    obtain rfl : d' = d := by simpa using hd
    rfl
  | create d b t hd _ hnone _ => exact h.create hd hnone
  | cancel d p t _ hp _ hc _ =>
    refine h.overwrite hp rfl rfl rfl ?_
    rcases cancellable_iff.mp hc with hs | hs <;> simp [hs]

/-- The adjustments before the timeouts leave the nodes and the running pods alone. -/
theorem losesRunning_adjust (ha : Adjust s s') (id : String) :
    losesRunning timeout now s' id = losesRunning timeout now s id := by
  cases ha with
  | status d dest t _ _ _ => rfl
  | create d b t _ _ hnone _ =>
    unfold losesRunning
    rw [Store.putPod_pods, Table.get_put]
    split
    · next hk =>
      rw [hk, show s.pods.get (newPod d (idOf "pod" b) t).id = none from hnone]
      rfl
    · rfl
  | cancel d p t _ hp _ hc _ =>
    unfold losesRunning
    rw [Store.putPod_pods, Table.get_put]
    split
    · next hk =>
      rw [hk, show s.pods.get (Store.movePod p .cancelled "deployment scaled down" t).id = some p from hp]
      rcases cancellable_iff.mp hc with hs | hs <;> simp only [Option.any_some, Store.movePod_status, hs] <;> rfl
    · rfl

theorem losesRunning_adjusts (ha : ReflTransGen Adjust s s') (id : String) :
    losesRunning timeout now s' id = losesRunning timeout now s id := by
  induction ha with
  | refl => rfl
  | tail _ hr ih => rw [losesRunning_adjust hr, ih]

@[simp] theorem unassigned_attempt (p : Pod) : (unassigned p).attempt = p.attempt := rfl

@[simp] theorem retried_attempt (p : Pod) (now : Time) : (retried p now).attempt = p.attempt + 1 := rfl

@[simp] theorem exhausted_attempt (p : Pod) : (exhausted p).attempt = p.attempt + 1 := rfl

/-- A pod of a node given up: only one that was running gets an attempt more. -/
theorem Rescheduled.attempt {p p' : Pod} (h : Rescheduled s p p') :
    p'.attempt = p.attempt + (p.status == .running).toNat := by
  cases h with
  | orphan t hs => simp [hs]
  | retry now t₁ t₂ t₃ hs _ => simp [hs]
  | deadLetter t₁ t₂ hs _ => simp [hs]
  | keep _ hr => simp [hr]

/-- The decision between retry and dead-letter keeps the pod on the right side of its budget. -/
theorem Rescheduled.inBudget {p p' : Pod} {d : Deployment} (h : Rescheduled s p p')
    (hd : s.deployments.get p.deploymentID = some d) (hpos : 0 ≤ p.attempt) (hin : InBudget d.maxRetries p) :
    InBudget d.maxRetries p' := by
  have hmax : maxRetriesFor s p = d.maxRetries := by
    unfold maxRetriesFor
    rw [Store.getDeployment_some hd]
    rfl
  cases h with
  | orphan t hs => exact hin.of_eq rfl (by simp [hs])
  | retry now t₁ t₂ t₃ hs hb =>
    rw [hmax, Arith.int_exact] at hb
    rw [inBudget_iff (by simp)]
    simp only [Store.movePod_attempt, retried_attempt]
    omega
  | deadLetter t₁ t₂ hs hb =>
    rw [hmax, Arith.int_exact] at hb
    rw [inBudget_iff (by simp [hs])] at hin
    rw [inBudget_deadLetter (by simp)]
    simp only [Store.movePod_attempt, exhausted_attempt]
    omega
  | keep _ _ => exact hin

/-- The timeouts move the count on for exactly the pods they lose while running. -/
theorem Budgeted.detect (h : Budgeted lost s) (hd : Detected timeout now s s') :
    Budgeted (fun k => lost k + (losesRunning timeout now s k).toNat) s' := by
  refine h.pods (.of_eq hd.deployments) hd.keys (fun k p hp => ?_) (fun k hk => ?_)
  · obtain ⟨p', hp', hin, hout⟩ := hd.pods k p hp
    have hatt := h.attempt k p hp
    refine ⟨p', hp', ?_⟩
    by_cases hl : LostNode timeout now s p.nodeID
    · have hres := hin hl
      refine ⟨hres.deploymentID, ?_, fun d hdk hb => Rescheduled.inBudget hres hdk (by omega) hb⟩
      simp [Rescheduled.attempt hres, hatt, losesRunning, hp, nodeLost_iff.mpr hl]
    · rw [hout hl]
      have hn : nodeLost timeout now s p.nodeID = false := by
        rw [← Bool.not_eq_true, nodeLost_iff]
        exact hl
      refine ⟨rfl, ?_, fun _ _ hb => hb⟩
      rw [hatt]
      simp [losesRunning, hp, hn]
  · simp [h.new k hk, losesRunning, hk]

/-! ## Every event -/

/-- Agents never report a pod into or out of dead-letter. -/
theorem deadLetter_of_agentStatus {p : Pod} {st : PodStatus} (ha : agentStatus st = true)
    (ht : transitionPod p.status st = true) : st = .deadLetter ↔ p.status = .deadLetter := by
  constructor
  · rintro rfl
    cases ha
  · intro hs
    rw [hs] at ht
    cases ht

/-- **Every change keeps the budgets**, with the losses of the event counted. -/
theorem Budgeted.change (hc : Change timeout e s s') (he : e.fromAgent) (h : Budgeted lost s) :
    Budgeted (fun k => lost k + (e.loses timeout s k).toNat) s' := by
  cases hc with
  | none hr => cases e <;> first | exact h | cases hr
  | register req b t _ => exact h.congr (.of_eq rfl) rfl
  | heartbeat now node req n _ => exact h.congr (.of_eq rfl) rfl
  | drain node n _ _ => exact h.congr (.of_eq rfl) rfl
  | ignored node pod body _ => exact h
  | rejected node pod req p hp _ =>
    have hid : p.id = pod := Table.key_of_get hp
    exact h.overwrite (p := p) (by rw [hid]; exact hp) rfl rfl rfl Iff.rfl
  | accepted node pod req p t hp ht =>
    have hid : p.id = pod := Table.key_of_get hp
    have hput : Budgeted lost (s.putPod (accepted p req t)) :=
      h.overwrite (p := p) (by rw [hid]; exact hp) rfl rfl rfl (deadLetter_of_agentStatus he ht)
    exact hput.congr (.of_eq (by simp)) (by simp)
  | submit req b t hnone =>
    refine h.congr (.putDeployment fun d' hd' => ?_) rfl
    rw [show s.deployments.get (idOf "deploy" b) = some d' from hd'] at hnone
    cases hnone
  | cancel deployment d t hd _ =>
    have hid : d.id = deployment := Table.key_of_get hd
    refine h.congr (.putDeployment fun d' hd' => ?_) rfl
    rw [← hid, show s.deployments.get d.id = some d' from hd'] at hd
    obtain rfl : d' = d := by simpa using hd
    rfl
  | service hs hsame => cases e <;> first | exact h.congr (.of_eq hsame.1) hsame.2.1 | cases hs
  | schedule now hd => exact keeps_of_chain (Budgeted lost) (fun _ _ hd h => h.dispatch hd) hd h
  | reconcile now ha hd =>
    have hdet := (keeps_of_chain (Budgeted lost) (fun _ _ ha h => h.adjust ha) ha h).detect hd
    simpa only [Event.loses, losesRunning_adjusts ha] using hdet

theorem Budgeted.run {tr : List (Step Sys Event)} {σ : Sys} (h : Run (Sys.Next timeout) Sys.init tr σ)
    (he : ∀ x ∈ tr, x.label.fromAgent) : Budgeted (fun k => tr.countP (lostWhileRunning timeout k)) σ.store := by
  refine Run.inv_hist (fun tr σ => Budgeted (fun k => tr.countP (lostWhileRunning timeout k)) σ.store)
    (fun x => x.label.fromAgent) ?_ ?_ h he
  · rintro tr ⟨σ, e, σ'⟩ ⟨r, hr, -⟩ he hσ
    simp only [Run.countP_snoc]
    exact Budgeted.change (Event.prog_spec hr) he hσ
  · exact Budgeted.empty

/-- **The retry budget of a pod.**  In every state reached by requests, passes of the
loops and reports of the four statuses that agents report: a pod's attempts are the
passes that timed out the node it was running on, they stay within the deployment's
retries (a negative number counts as none) unless the pod is dead-lettered, and a
dead-lettered pod is exactly one attempt over.  A pod that is scheduled keeps its
attempts in every step. -/
theorem retry_budget {tr : List (Step Sys Event)} {σ : Sys} (h : Run (Sys.Next timeout) Sys.init tr σ)
    (he : ∀ x ∈ tr, x.label.fromAgent) :
    (∀ p ∈ σ.store.pods.rows, p.attempt = tr.countP (lostWhileRunning timeout p.id) ∧
      ∃ d, σ.store.deployments.get p.deploymentID = some d ∧
        (p.status ≠ .deadLetter → p.attempt ≤ max d.maxRetries 0) ∧
        (p.status = .deadLetter → p.attempt = max d.maxRetries 0 + 1)) ∧
    ∀ x ∈ tr, ∀ p ∈ x.src.store.pods.rows, p.status = .scheduled →
      ∀ p', x.dst.store.pods.get p.id = some p' → p'.attempt = p.attempt := by
  constructor
  · intro p hp
    have hget := Table.get_of_mem hp
    have hb := Budgeted.run h he
    obtain ⟨d, hd, hin⟩ := hb.budget p.id p hget
    refine ⟨hb.attempt p.id p hget, d, hd, fun hs => ?_, fun hs => ?_⟩
    · simpa [InBudget, hs] using hin
    · simpa [InBudget, hs] using hin
  · intro x hx p hp hs p' hp'
    have hget := Table.get_of_mem hp
    obtain ⟨tr₁, tr₂, rfl, hrun, hnext⟩ := h.before hx
    have he₁ : ∀ y ∈ tr₁ ++ [x], y.label.fromAgent := fun y hy => he y (by
      simp only [List.mem_append, List.mem_cons, List.not_mem_nil, or_false] at hy ⊢
      tauto)
    have hbefore := (Budgeted.run hrun fun y hy => he₁ y (List.mem_append_left _ hy)).attempt p.id p hget
    have hafter := Budgeted.run (hrun.snoc x.label hnext) he₁
    rw [hafter.attempt p.id p' hp', hbefore, Run.countP_snoc]
    have hno : lostWhileRunning timeout p.id ⟨x.src, x.label, x.dst⟩ = false := by
      unfold lostWhileRunning Event.loses
      split
      · exact losesRunning_of_not_running hget (by rw [hs]; decide)
      · rfl
    simp [hno]

/-- The started pod loses its node, waits out its backoff and is dispatched again to a node that registered since. -/
def lostRun : List (Time × Event) :=
  startedRun ++ [(20 * second, .register (some { address := "b:1", capacity := { cpu := 4, memoryMB := 100 } })),
    (20 * second, .reconcilerTick (20 * second)), (30 * second, .schedulerTick (30 * second))]

theorem retry_budget_lost :
    ((Sys.init.applyAll (15 * second) lostRun).store.pods.rows.map fun p => (p.id, p.nodeID, p.status, p.attempt)) =
      [("pod_00000002", "node_00000003", .scheduled, 1)] ∧
    ∀ p ∈ (Sys.init.applyAll (15 * second) lostRun).store.pods.rows,
      p.attempt = (Sys.init.trace (15 * second) lostRun).countP (lostWhileRunning (15 * second) p.id) := by
  refine ⟨by decide +kernel, fun p hp => ((retry_budget (Sys.run_init _ lostRun) ?_).1 p hp).1⟩
  exact Sys.forall_trace (by decide +kernel) _

end ControlPlane
