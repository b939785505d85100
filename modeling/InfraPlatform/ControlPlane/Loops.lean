import InfraPlatform.ControlPlane.Replicas
import InfraPlatform.ControlPlane.Convergence
import InfraPlatform.ControlPlane.Scheduling

/-!
# The control loops converge

The reconciler's and the scheduler's tickers run at their own pace over one store.  With nobody else at
the store and the clock at `now`, their ticks come to a common fixpoint, in whatever order they come.

* `Quiescent`: no quiet node is `HEALTHY` or `DRAINING`, every deployment has what it asks for, and no ready pod fits
  on a healthy node.
* `Quiescent.tick`: then a tick of either loop changes nothing.
* `loops_converge`: two ticks of the reconciler and then one of the scheduler, with any ticks in between, lead there.
  One tick of the reconciler is not enough: it looks at the deployments before it looks at the nodes, and a pod that is
  dead-lettered with its node is replaced by the next tick.

The loops compute in Go's integers; the premise on the replicas (`Int64Replicas`) is one that their ticks keep.
-/

namespace ControlPlane

open Lib Lib.Prog Relation
open Reconciler (podsOf InBalance AtRest LostNode givenUpTo afterDetect timedOut cancellable activeCount hasDeadLetter
  ExecFresh activeIn Int64Replicas)
open Scheduler (Dispatch dispatched NonnegRequests ready requiredFor)

/-! ## The ticks -/

inductive Loop where
  | reconciler | scheduler
deriving DecidableEq

/-- A tick of one of the loops, without interleaving. -/
def Loop.Tick [A : Arith] (timeout : Duration) (now : Time) (s : Store) : Loop → Store → Prop
  | .reconciler, s' => Runs ExecFresh (Reconciler.tick timeout now) s () s'
  | .scheduler, s' => ∃ r, Runs Exec (Scheduler.tick now) s r s'

variable {timeout : Duration} {now : Time} {s s' : Store}

/-- No node is to be given up. -/
def NoneLost (timeout : Duration) (now : Time) (s : Store) : Prop := ∀ k, ¬ LostNode timeout now s k

def AllAtRest (s : Store) : Prop := ∀ d, s.deployments.get d.id = some d → d.status ≠ .cancelled → AtRest s d

/-- No pod that is ready fits on a healthy node. -/
def NonePlaceable (now : Time) (s : Store) : Prop :=
  ∀ p, s.pods.get p.id = some p → p.status = .pending → ready now p →
    ∀ n, s.nodes.get n.id = some n → n.status = .healthy → n.hasCapacityFor (requiredFor s p) = false

structure Quiescent (timeout : Duration) (now : Time) (s : Store) : Prop where
  nodes : NoneLost timeout now s
  deployments : AllAtRest s
  pods : NonePlaceable now s

/-! ## The replicas -/

theorem activeCount_podsOf (s : Store) (id : String) : (activeCount (podsOf s id) : Int) = activeIn s id :=
  Reconciler.activeCount_listed (.refl _)

/-- The replicas stay countable while no deployment gains pods. -/
theorem int64Replicas_of_le (h : Int64Replicas s) (hd : s'.deployments = s.deployments)
    (hle : ∀ id, activeIn s' id ≤ activeIn s id) : Int64Replicas s' := by
  intro d hin
  rw [hd] at hin
  obtain ⟨hint, hexcess⟩ := h d hin
  refine ⟨hint, fun hnc => ?_⟩
  have hbefore := hexcess hnc
  have hmore := hle d.id
  rw [activeCount_podsOf] at hbefore ⊢
  omega

/-! ## A tick of the reconciler -/

namespace Reconciler

theorem Adjust.int64Replicas (h : Adjust s s') (hr : Int64Replicas s) : Int64Replicas s' := by
  cases h with
  | status d dest t hd hok _ =>
    intro d' hd'
    rw [Table.mem_rows_iff, Store.putDeployment_deployments, Table.get_put] at hd'
    split at hd'
    · obtain rfl : _ = d' := Option.some.inj hd'
      obtain ⟨hint, hexcess⟩ := hr d (Table.mem_of_get hd)
      refine ⟨hint, fun _ => hexcess fun hc => ?_⟩
      -- a cancelled deployment has no further status
      rw [hc] at hok
      cases hok
    · exact hr d' (Table.mem_of_get hd')
  | create d b t hd _ hnone hroom =>
    intro d' hd'
    obtain ⟨hint, hexcess⟩ := hr d' hd'
    refine ⟨hint, fun hnc => ?_⟩
    have hbefore := hexcess hnc
    rw [activeCount_podsOf] at hbefore ⊢
    rw [activeIn_create hnone rfl rfl]
    change activeIn s d'.id + (if d.id = d'.id then 1 else 0) - d'.replicas < 2 ^ 63
    split
    · next hid =>
      have hget := Table.mem_rows_iff.mp hd'
      change s.deployments.get d'.id = some d' at hget
      rw [← hid, hd] at hget
      obtain rfl := Option.some.inj hget
      omega
    · omega
  | cancel d p t _ hp _ _ _ =>
    refine int64Replicas_of_le hr rfl fun id => ?_
    have hup := activeIn_update (d := id) (p := Store.movePod p .cancelled "deployment scaled down" t) hp
    have hgone : fills id (Store.movePod p .cancelled "deployment scaled down" t) = false := by
      simp [fills, Pod.active]
    simp only [hgone, Bool.false_eq_true, if_false, add_zero] at hup
    split at hup <;> omega

theorem tick_int64Replicas [A : Arith] (h : Runs ExecFresh (tick timeout now) s () s') (hr : Int64Replicas s) :
    Int64Replicas s' := by
  obtain ⟨s₁, hadjust, hdetect⟩ := tick_spec (Runs.of_only h)
  have h₁ : Int64Replicas s₁ := keeps_of_chain Int64Replicas (fun _ _ h => h.int64Replicas) hadjust hr
  exact int64Replicas_of_le h₁ hdetect.deployments (activeIn_le hdetect.keys (ControlPlane.Detected.inactive hdetect))

/-- A node that was given up is not given up again. -/
theorem givenUpTo_afterDetect (n : Node) : givenUpTo timeout now (afterDetect timeout now n) = none := by
  unfold afterDetect
  cases h : givenUpTo timeout now n with
  | none => exact h
  | some st =>
    unfold givenUpTo at h ⊢
    split at h
    · cases h
      simp [Node.withStatus]
    · split at h
      · cases h
        simp [Node.withStatus]
      · cases h

theorem Detected.none_lost [A : Arith] (h : Detected timeout now s s') : NoneLost timeout now s' := by
  rintro k ⟨n', hn', hlost⟩
  obtain ⟨n, -, rfl⟩ := h.node_back hn'
  exact hlost (givenUpTo_afterDetect n)

theorem detectUnhealthyNodes_quiet [A : Arith] (hq : NoneLost timeout now s)
    (h : Runs Exec (detectUnhealthyNodes timeout now) s () s') : s' = s := by
  obtain ⟨_, s₁, hlist, hloop⟩ := runs_bind.mp h
  obtain ⟨⟨nodes, rfl, hperm⟩, rfl⟩ := runs_listNodes.mp hlist
  refine Runs.forM_inv (fun _ s => s = s₁) (fun done n rest hsplit s s' hI hrun => ?_) rfl hloop
  subst hI
  have hn : s.nodes.get n.id = some n := ((mem_of_perm_filter hperm).mp (by rw [hsplit]; simp)).1
  have hkeep : givenUpTo timeout now n = none := by
    by_contra hlost
    exact hq n.id ⟨n, hn, hlost⟩
  unfold givenUpTo at hkeep
  unfold detectUnhealthyNode at hrun
  split at hkeep
  · cases hkeep
  · next h₁ =>
    rw [if_neg h₁] at hrun
    split at hkeep
    · cases hkeep
    · next h₂ =>
      rw [if_neg h₂] at hrun
      exact (runs_pure.mp hrun).2

theorem Adjust.nonneg (h : Adjust s s') (hreq : NonnegRequests s) : NonnegRequests s' := by
  cases h with
  | status d dest t hd _ _ =>
    intro d' hd'
    rw [Table.mem_rows_iff, Store.putDeployment_deployments, Table.get_put] at hd'
    split at hd'
    · obtain rfl : _ = d' := Option.some.inj hd'
      exact hreq d (Table.mem_of_get hd)
    · exact hreq d' (Table.mem_of_get hd')
  | create d b t _ _ _ _ => exact hreq
  | cancel d p t _ _ _ _ _ => exact hreq

theorem tick_nonneg [A : Arith] (h : Runs ExecFresh (tick timeout now) s () s') (hreq : NonnegRequests s) :
    NonnegRequests s' := by
  obtain ⟨s₁, hadjust, hdetect⟩ := tick_spec (Runs.of_only h)
  have h₁ : NonnegRequests s₁ := keeps_of_chain NonnegRequests (fun _ _ h => h.nonneg) hadjust hreq
  unfold NonnegRequests at h₁ ⊢
  rw [hdetect.deployments]
  exact h₁

theorem tick_none_lost [A : Arith] (h : Runs ExecFresh (tick timeout now) s () s') : NoneLost timeout now s' := by
  obtain ⟨s₁, -, hdetect⟩ := tick_spec (Runs.of_only h)
  exact hdetect.none_lost

/-- Once no node is to be given up, a tick brings every deployment to rest. -/
theorem tick_atRest [A : Arith] (hc : AllCount s) (hq : NoneLost timeout now s)
    (h : Runs ExecFresh (tick timeout now) s () s') : AllAtRest s' := by
  intro d' hd' hnc
  obtain ⟨_, s₁, h₁, h₂⟩ := runs_bind.mp h
  have hrec := reconcileDeployments_reconciled hc h₁
  have hq₁ : NoneLost timeout now s₁ := by
    unfold NoneLost LostNode
    rw [hrec.nodes]
    exact hq
  obtain rfl := detectUnhealthyNodes_quiet hq₁ (Runs.of_only h₂)
  exact hrec.atRest hd' hnc

/-- With the nodes and the deployments at rest, a tick finds nothing to do. -/
theorem tick_quiet [A : Arith] (hq : NoneLost timeout now s) (hr : AllAtRest s)
    (h : Runs ExecFresh (tick timeout now) s () s') : s' = s := by
  obtain ⟨_, s₁, h₁, h₂⟩ := runs_bind.mp h
  obtain rfl := reconcileDeployments_atRest hr (Runs.of_only h₁)
  exact detectUnhealthyNodes_quiet hq (Runs.of_only h₂)

end Reconciler

/-! ## A tick of the scheduler -/

namespace Scheduler

/-- A dispatched pod stays active, and stays one that could be stopped. -/
theorem Dispatch.inBalance [A : Arith] (h : Dispatch now s s') (id : String) {n : Int}
    (hb : InBalance (podsOf s id) n) :
    InBalance (podsOf s' id) n ∧ hasDeadLetter (podsOf s' id) = hasDeadLetter (podsOf s id) := by
  cases h with
  | mk p m t hp hst _ _ _ _ =>
    change InBalance (podsOf (s.putPod (Store.movePod (assigned p m) .scheduled "" t)) id) n ∧
      hasDeadLetter (podsOf (s.putPod (Store.movePod (assigned p m) .scheduled "" t)) id) = hasDeadLetter (podsOf s id)
    generalize hp' : Store.movePod (assigned p m) .scheduled "" t = p'
    have hstored : s.pods.get p'.id = some p := by
      rw [← hp']
      exact hp
    have hd : p'.deploymentID = p.deploymentID := by
      rw [← hp']
      rfl
    have hst' : p'.status = .scheduled := by
      rw [← hp']
      rfl
    obtain ⟨hother, hown⟩ := Reconciler.podsOf_overwrite hstored hd
    by_cases hid : id = p'.deploymentID
    · subst hid
      obtain ⟨rest, hbefore⟩ : ∃ rest, (podsOf s p'.deploymentID).Perm (p :: rest) :=
        ⟨_, List.perm_cons_erase (Reconciler.mem_podsOf.mpr ⟨hp, hd.symm⟩)⟩
      have hafter := hown rest hbefore
      refine ⟨?_, ?_⟩
      · have hb' := hb.perm hbefore.symm
        refine InBalance.perm ?_ hafter
        unfold InBalance activeCount at hb' ⊢
        simp only [List.countP_cons, List.forall_mem_cons] at hb' ⊢
        simpa [Pod.active, cancellable, hst, hst'] using hb'
      · unfold hasDeadLetter
        rw [hafter.any_eq, hbefore.any_eq, List.any_cons, List.any_cons, hst, hst']
        rfl
    · rw [hother id hid]
      exact ⟨hb, rfl⟩

theorem Dispatch.atRest [A : Arith] (h : Dispatch now s s') {d : Deployment} (hr : AtRest s d) : AtRest s' d := by
  obtain ⟨hb, hdl⟩ := h.inBalance d.id hr.balanced
  refine ⟨hb, hr.notPending, fun hst => ?_, fun hst => ?_⟩
  · rw [hdl]
    exact hr.active hst
  · rw [hdl]
    exact hr.degraded hst

theorem Dispatch.deployments [A : Arith] (h : Dispatch now s s') : s'.deployments = s.deployments := by
  cases h
  rfl

/-- A dispatch leaves the status and the heartbeat of the node as they are. -/
theorem Dispatch.none_lost [A : Arith] (h : Dispatch now s s') (hq : NoneLost timeout now s) :
    NoneLost timeout now s' := by
  cases h with
  | mk p n t _ _ _ hn _ _ =>
    rintro k ⟨n', hn', hlost⟩
    change (s.nodes.put (reserve n (requiredFor s p))).get k = some n' at hn'
    rw [Table.get_put] at hn'
    split at hn'
    · obtain rfl : _ = n' := Option.some.inj hn'
      exact hq n.id ⟨n, hn, hlost⟩
    · exact hq k ⟨n', hn', hlost⟩

theorem tick_nonneg [A : Arith] {r : Option Stats} (h : Runs Exec (tick now) s r s') (hreq : NonnegRequests s) :
    NonnegRequests s' := by
  refine keeps_of_chain NonnegRequests (fun s s' hd hreq => ?_) (tick_spec h) hreq
  unfold NonnegRequests at hreq ⊢
  rw [hd.deployments]
  exact hreq

theorem tick_none_lost [A : Arith] {r : Option Stats} (h : Runs Exec (tick now) s r s') (hq : NoneLost timeout now s) :
    NoneLost timeout now s' :=
  keeps_of_chain (NoneLost timeout now) (fun _ _ hd hq => hd.none_lost hq) (tick_spec h) hq

theorem tick_int64Replicas [A : Arith] {r : Option Stats} (h : Runs Exec (tick now) s r s') (hr : Int64Replicas s) :
    Int64Replicas s' := by
  refine keeps_of_chain Int64Replicas (fun s s' hd hr => ?_) (tick_spec h) hr
  refine int64Replicas_of_le hr hd.deployments fun id => ?_
  cases hd with
  | mk p n t hp hst _ _ _ _ =>
    have hup := Reconciler.activeIn_update (d := id) (p := Store.movePod (assigned p n) .scheduled "" t) hp
    change activeIn (s.putPod (Store.movePod (assigned p n) .scheduled "" t)) id ≤ _
    have hsame : Reconciler.fills id (Store.movePod (assigned p n) .scheduled "" t) = Reconciler.fills id p := by
      simp [Reconciler.fills, Pod.active, hst, assigned]
    rw [hsame] at hup
    omega

theorem tick_atRest [A : Arith] {r : Option Stats} (h : Runs Exec (tick now) s r s') (hr : AllAtRest s) :
    AllAtRest s' := by
  refine keeps_of_chain AllAtRest (fun s s' hd hr d hget hnc => hd.atRest (hr d ?_ hnc)) (tick_spec h) hr
  rw [← hd.deployments]
  exact hget

/-- A pass with no pod to place leaves the store as it is. -/
theorem tick_quiet [A : Arith] {r : Option Stats} (hp : NonePlaceable now s) (h : Runs Exec (tick now) s r s') :
    s' = s := by
  obtain ⟨order, nodes, copies, plan, hout⟩ := tick_outcome (execIn_all h)
  have hnone : (policy s).placed nodes order = [] := by
    refine Policy.placed_eq_nil fun p hpo n hn => ?_
    rintro ⟨hs, hroom⟩
    obtain ⟨hget, hst, hr⟩ := (hout.mem p).mp hpo
    have hfull := hp p hget hst hr n (Table.mem_rows_iff.mp (hout.listed.mem_iff.mp hn)) hs
    rw [hfull] at hroom
    cases hroom
  have hplan : plan = [] := by
    have hpairs := hout.pairs
    rw [hnone] at hpairs
    exact List.map_eq_nil_iff.mp hpairs
  rw [hout.store, hplan]
  rfl

end Scheduler

/-! ## Convergence -/

theorem Quiescent.tick [A : Arith] (h : Quiescent timeout now s) {l : Loop} (ht : l.Tick timeout now s s') :
    s' = s := by
  cases l with
  | reconciler => exact Reconciler.tick_quiet h.nodes h.deployments ht
  | scheduler =>
    obtain ⟨r, hr⟩ := ht
    exact Scheduler.tick_quiet h.pods hr

/-- How far the loops have come. -/
structure Settling (timeout : Duration) (now : Time) (i : Nat) (s : Store) : Prop where
  requests : NonnegRequests s
  replicas : Int64Replicas s
  nodes : 1 ≤ i → NoneLost timeout now s
  deployments : 2 ≤ i → AllAtRest s
  pods : 3 ≤ i → NonePlaceable now s

theorem Settling.quiescent {i : Nat} (h : Settling timeout now i s) (hi : 3 ≤ i) : Quiescent timeout now s :=
  ⟨h.nodes (by omega), h.deployments (by omega), h.pods hi⟩

section Int64

variable [A : Arith] (hwrap : ∀ x, A.int x = wrapInt64 x) (hsub : ∀ a b, A.sub a b = a - b)

include hwrap in
/-- A tick of the reconciler reaches the first two stages, one at a time. -/
theorem Settling.reconciler {i j : Nat} (h : Settling timeout now i s)
    (ht : Runs ExecFresh (Reconciler.tick timeout now) s () s') (hj : j ≤ 2) (hij : j ≤ i + 1) :
    Settling timeout now j s' where
  requests := Reconciler.tick_nonneg ht h.requests
  replicas := Reconciler.tick_int64Replicas ht h.replicas
  nodes _ := Reconciler.tick_none_lost ht
  deployments h2 := Reconciler.tick_atRest (h.replicas.counts hwrap) (h.nodes (by omega)) ht
  pods h3 := by omega

include hsub in
/-- A tick of the scheduler keeps them, and reaches the third from the second. -/
theorem Settling.scheduler {i j : Nat} {r : Option Scheduler.Stats} (h : Settling timeout now i s)
    (ht : Runs Exec (Scheduler.tick now) s r s') (hij : j ≤ i ∨ 2 ≤ i) : Settling timeout now j s' where
  requests := Scheduler.tick_nonneg ht h.requests
  replicas := Scheduler.tick_int64Replicas ht h.replicas
  nodes h1 := Scheduler.tick_none_lost ht (h.nodes (by omega))
  deployments h2 := Scheduler.tick_atRest ht (h.deployments (by omega))
  pods _ p hp hst hr n hn hs := by
    obtain ⟨_, _, _, _, hout⟩ := Scheduler.tick_outcome (execIn_all ht)
    exact hout.conserves hsub h.requests hp hst hr hn hs

include hwrap hsub

theorem Settling.keep (i : Nat) (s : Store) (l : Loop) (s' : Store) (ht : l.Tick timeout now s s')
    (h : Settling timeout now i s) : Settling timeout now i s' := by
  by_cases hi : 3 ≤ i
  · rw [(h.quiescent hi).tick ht]
    exact h
  · cases l with
    | reconciler => exact h.reconciler hwrap ht (by omega) (by omega)
    | scheduler =>
      obtain ⟨r, hr⟩ := ht
      exact h.scheduler hsub hr (.inl le_rfl)

/-- Two ticks of the reconciler and one of the scheduler reach the three stages. -/
theorem Settling.script {tr : List (Step Store Loop)} (h0 : Settling timeout now 0 s)
    (h : Run (fun s (l : Loop) s' => l.Tick timeout now s s') s tr s')
    (hsub' : [Loop.reconciler, .reconciler, .scheduler].Sublist (tr.map Step.label)) : Settling timeout now 3 s' := by
  refine Run.script (Settling timeout now) _ (Settling.keep hwrap hsub) (fun i l s s' hl ht hi => ?_) h0 h hsub'
  rcases i with _ | _ | _ | i
  · obtain rfl : _ = l := Option.some.inj hl
    exact hi.reconciler hwrap ht (by omega) (by omega)
  · obtain rfl : _ = l := Option.some.inj hl
    exact hi.reconciler hwrap ht (by omega) (by omega)
  · obtain rfl : _ = l := Option.some.inj hl
    obtain ⟨r, hr⟩ := ht
    exact hi.scheduler hsub hr (.inr le_rfl)
  · simp at hl

end Int64

/-- **The control loops converge.**  From any store whose requests are not negative and whose replicas can be counted, a
run of ticks with two of the reconciler and after them one of the scheduler, at whatever places, ends in a store that no
further tick changes. -/
theorem loops_converge {tr : List (Step Store Loop)} (hreq : NonnegRequests s) (hrep : Int64Replicas s)
    (h : Run (fun s (l : Loop) s' => l.Tick (A := .int64) timeout now s s') s tr s')
    (hsub : [Loop.reconciler, .reconciler, .scheduler].Sublist (tr.map Step.label)) :
    Quiescent timeout now s' ∧ ∀ (l : Loop) s'', l.Tick (A := .int64) timeout now s' s'' → s'' = s' := by
  have h0 : Settling timeout now 0 s := ⟨hreq, hrep, by omega, by omega, by omega⟩
  have hlast := Settling.script (A := .int64) (fun _ => rfl) (fun _ _ => rfl) h0 h hsub
  have hquiet := hlast.quiescent le_rfl
  exact ⟨hquiet, fun l s'' ht => hquiet.tick (A := .int64) ht⟩

/-- The only pod ran on a node that went quiet, and has no retry left. -/
def lostStore : Store :=
  (((({} : Store).putDeployment { id := "web", replicas := 1, resources := ⟨1, 40⟩, status := .active }).putNode
    { id := "quiet", status := .healthy, available := ⟨4, 100⟩ }).putNode
    { id := "spare", status := .healthy, available := ⟨4, 100⟩, lastHeartbeatAt := 50, registeredAt := 1 }).putPod
    { id := "served", deploymentID := "web", status := .running, nodeID := "quiet" }

/-- The store after a tick at 60, with a timeout of 20. -/
def Loop.ticked (s : Store) : Loop → Store
  | .reconciler => ((Reconciler.tick (A := .int64) 20 60).run (fun c s => s.exec 60 c) s).2
  | .scheduler => ((Scheduler.tick (A := .int64) 60).run (fun c s => s.exec 60 c) s).2

/-- The pod is dead-lettered, a pass finds nothing to place, the pod is replaced and the new one is placed. -/
theorem loops_converge_lost :
    ∃ s', Quiescent 20 60 s' ∧ (∀ (l : Loop) s'', l.Tick (A := .int64) 20 60 s' s'' → s'' = s') ∧
      s'.nodes.rows.map (fun n => (n.id, n.status)) = [("quiet", .unhealthy), ("spare", .healthy)] ∧
      s'.pods.rows.map (fun p => (p.id, p.status, p.nodeID)) =
        [("served", .deadLetter, "quiet"), ("pod_00000004", .scheduled, "spare")] := by
  have hrec (s : Store)
      (h : passes (fun c s => s.exec 60 c) Reconciler.freshPodID (Reconciler.tick (A := .int64) 20 60) s = true) :
      Loop.reconciler.Tick (A := .int64) 20 60 s (Loop.ticked s .reconciler) :=
    run_runs_only _ (exec_allowed 60) Reconciler.freshPodID _ _ h
  have hsched (s : Store) : Loop.scheduler.Tick (A := .int64) 20 60 s (Loop.ticked s .scheduler) :=
    ⟨_, run_runs _ (exec_allowed 60) _ _⟩
  have hstart : Run (fun s (l : Loop) s' => l.Tick (A := .int64) 20 60 s s') lostStore [] lostStore := .nil
  have hrun := Run.snoc _ (Run.snoc _ (Run.snoc _ (Run.snoc _ hstart (hrec _ (by decide +kernel))) (hsched _))
    (hrec _ (by decide +kernel))) (hsched _)
  obtain ⟨hquiet, hfix⟩ := loops_converge (by unfold NonnegRequests; decide +kernel)
    (by unfold Int64Replicas; decide +kernel) hrun (by decide)
  exact ⟨_, hquiet, hfix, by decide +kernel, by decide +kernel⟩

end ControlPlane
