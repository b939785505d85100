import InfraPlatform.ControlPlane.ReconcilerSpec

/-!
# Recovery from lost nodes

A pass of `detectUnhealthyNodes` drives each pod of a lost node through up to four
separate writes, and it ignores some of their errors.  No error occurs:

* `detectUnhealthyNodes_issued`: every write the pass makes is legal where it is
  made, and a pod goes back to pending only with its backoff gate set from a
  reading of the clock during the pass.
* `node_failure_recovery`: so each pod of a lost node ends up requeued, retried or
  dead-lettered, none of them halfway, and nothing else changes.  The attempts are
  counted in Go's `int`, which wraps around (`attempt_wraps`).
-/

namespace ControlPlane.Reconciler

open Lib Lib.Prog

variable {s s' : Store} {timeout : Duration} {now : Time} {T : Time → Prop}

/-! ## The calls of a pass -/

/-- A call with its answer: a read, or a write that is legal in `s` and accepted. -/
def Legal : (c : Call) → Store → Resp c → Prop
  | .getDeployment _, _, _ => True
  | .listPodsByNode _, _, _ => True
  | .listNodes, _, _ => True
  | .now, _, _ => True
  | .updatePod p, s, r => r = .ok () ∧ ∃ q, s.pods.get p.id = some q
  | .transitionPod id dest _ _, s, r => r = .ok () ∧ ∃ p, s.pods.get id = some p ∧ transitionPod p.status dest = true
  | .transitionNode id dest, s, r => r = .ok () ∧ ∃ n, s.nodes.get id = some n ∧ transitionNode n.status dest = true
  | _, _, _ => False

/-- The backoff of `p` was counted from a time in `T`. -/
def Gated (T : Time → Prop) (p : Pod) : Prop := ∃ t, T t ∧ p.runAfter = t + backoff p.attempt

/-- The calls of a pass: legal ones that overwrite pods in flight only, and that
put no pod back to pending after a failure unless it is gated. -/
def Issued (T : Time → Prop) : (c : Call) → Store → Resp c → Prop
  | .updatePod p, s, r => r = .ok () ∧ ∃ q, s.pods.get p.id = some q ∧ q.inFlight = true ∧ q.status = p.status
  | .transitionPod id dest _ _, s, r => r = .ok () ∧ ∃ p, s.pods.get id = some p ∧
      transitionPod p.status dest = true ∧ dest ≠ .scheduled ∧ (p.status = .retrying → Gated T p)
  | c, s, r => Legal c s r

theorem Issued.legal (c : Call) (s : Store) (r : Resp c) (h : Issued T c s r) : Legal c s r := by
  cases c with
  | updatePod p =>
    obtain ⟨hr, q, hq, -⟩ := h
    exact ⟨hr, q, hq⟩
  | transitionPod id dest msg t =>
    obtain ⟨hr, p, hp, hok, -⟩ := h
    exact ⟨hr, p, hp, hok⟩
  | _ => exact h

theorem update_issued {p q : Pod} (hq : s.pods.get p.id = some q) (hfl : q.inFlight = true)
    (hst : q.status = p.status) : Always (ExecIn T) (Issued T) (State.updatePod p) s := by
  refine always_op fun r s₁ hE => ?_
  have hr : (r, s₁) = s.updatePod p := hE.1
  rw [Store.updatePod_some hq] at hr
  exact ⟨(Prod.mk.inj hr).1, q, hq, hfl, hst⟩

theorem move_issued {p : Pod} {id msg : String} {dest : PodStatus} (hid : p.id = id)
    (hok : transitionPod p.status dest = true) (hd : dest ≠ .scheduled) (hg : p.status = .retrying → Gated T p) :
    Always (ExecIn T) (Issued T) (State.transitionPod id dest msg) (s.putPod p) := by
  refine always_bind (always_op fun _ _ _ => trivial) fun t s₁ h => ?_
  obtain ⟨rfl, -⟩ := runsIn_timeNow.mp h
  refine always_op fun r s₂ hE => ?_
  have hget : (s.putPod p).pods.get id = some p := hid ▸ Table.get_put_self s.pods p
  have hr : (r, s₂) = (s.putPod p).transitionPod id dest msg t := hE.1
  rw [Store.transitionPod_of hget hok] at hr
  exact ⟨(Prod.mk.inj hr).1, p, hget, hok, hd, hg⟩

theorem requeueOrphan_issued {p : Pod} (hp : s.pods.get p.id = some p) (hs : p.status = .scheduled) :
    Always (ExecIn T) (Issued T) (requeueOrphan p) s := by
  have hok : transitionPod (unassigned p).status .pending = true := by
    show transitionPod p.status _ = true
    rw [hs]
    rfl
  refine always_bind (update_issued (p := unassigned p) hp (by simp [Pod.inFlight, hs]) rfl) fun r s₁ h => ?_
  rw [runsIn_updatePod, Store.updatePod_some (p := unassigned p) hp] at h
  obtain ⟨rfl, rfl⟩ := Prod.mk.inj h
  refine always_bind (move_issued rfl hok (by simp) fun hr => ?_) fun _ _ _ => always_pure _
  change p.status = _ at hr
  rw [hs] at hr
  cases hr

theorem retryPod_issued [A : Arith] {p : Pod} (hp : s.pods.get p.id = some p) (hs : p.status = .running) :
    Always (ExecIn T) (Issued T) (retryPod p) s := by
  refine always_bind (always_op fun _ _ _ => trivial) fun t s₁ h => ?_
  obtain ⟨rfl, hT⟩ := runsIn_timeNow.mp h
  have hok : transitionPod (retried p t).status .failed = true := by
    show transitionPod p.status _ = true
    rw [hs]
    rfl
  refine always_bind (update_issued (p := retried p t) hp (by simp [Pod.inFlight, hs]) rfl) fun r s₁ h => ?_
  rw [runsIn_updatePod, Store.updatePod_some (p := retried p t) hp] at h
  obtain ⟨rfl, rfl⟩ := Prod.mk.inj h
  refine always_bind (move_issued rfl hok (by simp) fun _ => ⟨t, hT, rfl⟩) fun r s₁ h1 => ?_
  obtain ⟨rfl, t₁, rfl⟩ := move_written (ExecIn.exec h1) rfl hok
  refine always_bind (move_issued rfl rfl (by simp) fun hr => by cases hr) fun r s₁ h2 => ?_
  obtain ⟨-, t₂, rfl⟩ := move_written (ExecIn.exec h2) rfl rfl
  -- the gate was set from the reading `t` before the pod failed, and no transition touches it
  exact always_bind (move_issued rfl rfl (by simp) fun _ => ⟨t, hT, rfl⟩) fun _ _ _ => always_pure _

theorem deadLetterPod_issued [A : Arith] {p : Pod} (hp : s.pods.get p.id = some p) (hs : p.status = .running) :
    Always (ExecIn T) (Issued T) (deadLetterPod p) s := by
  have hok : transitionPod (exhausted p).status .failed = true := by
    show transitionPod p.status _ = true
    rw [hs]
    rfl
  refine always_bind (update_issued (p := exhausted p) hp (by simp [Pod.inFlight, hs]) rfl) fun r s₁ h => ?_
  rw [runsIn_updatePod, Store.updatePod_some (p := exhausted p) hp] at h
  obtain ⟨rfl, rfl⟩ := Prod.mk.inj h
  refine always_bind (move_issued rfl hok (by simp) fun hr => ?_) fun r s₁ h1 => ?_
  · change p.status = _ at hr
    rw [hs] at hr
    cases hr
  · obtain ⟨rfl, t₁, rfl⟩ := move_written (ExecIn.exec h1) rfl hok
    exact always_bind (move_issued rfl rfl (by simp) fun hr => by cases hr) fun _ _ _ => always_pure _

theorem reschedulePod_issued [A : Arith] {p : Pod} (hp : s.pods.get p.id = some p) :
    Always (ExecIn T) (Issued T) (reschedulePod p) s := by
  unfold reschedulePod
  split
  · next hs => exact requeueOrphan_issued hp hs
  · split
    · exact always_pure _
    · next hr =>
      have hr : p.status = .running := not_not.mp hr
      refine always_bind (always_op fun _ _ _ => trivial) fun r s₁ h => ?_
      obtain ⟨rfl, rfl⟩ := runsIn_getDeployment.mp h
      dsimp only
      split
      · exact retryPod_issued hp hr
      · exact deadLetterPod_issued hp hr

theorem reschedulePodsFor_issued [A : Arith] (nodeID : String) :
    Always (ExecIn T) (Issued T) (reschedulePodsFor nodeID) s := by
  refine always_bind (always_op fun _ _ _ => trivial) fun r s₁ h => ?_
  obtain ⟨⟨pods, rfl, hperm⟩, rfl⟩ := runsIn_listPodsByNode.mp h
  have hnd : (pods.map Pod.id).Nodup := nodup_of_perm_filter hperm
  have hmem : ∀ done p rest, pods = done ++ p :: rest → s₁.pods.get p.id = some p := fun done p rest hsplit =>
    ((mem_of_perm_filter hperm).mp (by rw [hsplit]; simp)).1
  refine Always.forM_inv (fun done s => RescheduledOn (done.map Pod.id) s₁ s)
    (fun done p rest hsplit s hI => ?_) (fun done p rest hsplit s s' hI hrun => ?_) .start
  · obtain ⟨q, hq, -, hqe⟩ := hI.pods p.id p (hmem done p rest hsplit)
    obtain rfl : q = p := hqe (new_of_split hnd hsplit)
    exact reschedulePod_issued hq
  · rw [List.map_append]
    exact hI.step (hmem done p rest hsplit) (new_of_split hnd hsplit) (ExecIn.exec hrun)

theorem giveUpNode_issued [A : Arith] {n : Node} {dest : NodeStatus} (hn : s.nodes.get n.id = some n)
    (hok : transitionNode n.status dest = true) : Always (ExecIn T) (Issued T) (giveUpNode n dest) s := by
  refine always_bind (always_op fun r s₁ hE => ?_) fun r s₁ h => ?_
  · have hr : (r, s₁) = s.transitionNode n.id dest := hE.1
    rw [Store.transitionNode_of hn hok] at hr
    exact ⟨(Prod.mk.inj hr).1, n, hn, hok⟩
  · rw [runsIn_transitionNode, Store.transitionNode_of hn hok] at h
    obtain ⟨rfl, rfl⟩ := Prod.mk.inj h
    exact reschedulePodsFor_issued n.id

theorem detectUnhealthyNode_issued [A : Arith] {n : Node} (hn : s.nodes.get n.id = some n) :
    Always (ExecIn T) (Issued T) (detectUnhealthyNode timeout now n) s := by
  unfold detectUnhealthyNode
  split
  · next hc => exact giveUpNode_issued hn (by rw [hc.1]; rfl)
  · split
    · next hd => exact giveUpNode_issued hn (by rw [hd.1]; rfl)
    · exact always_pure _

/-- Every write of a pass is legal where it is made. -/
theorem detectUnhealthyNodes_issued [A : Arith] :
    Always (ExecIn T) (Issued T) (detectUnhealthyNodes timeout now) s := by
  refine always_bind (always_op fun _ _ _ => trivial) fun r s₁ h => ?_
  obtain ⟨⟨nodes, rfl, hperm⟩, rfl⟩ := runsIn_listNodes.mp h
  have hnd : (nodes.map Node.id).Nodup := nodup_of_perm_filter hperm
  have hmem : ∀ done n rest, nodes = done ++ n :: rest → s₁.nodes.get n.id = some n := fun done n rest hsplit =>
    ((mem_of_perm_filter hperm).mp (by rw [hsplit]; simp)).1
  refine Always.forM_inv (fun done s => DetectedOn timeout now (done.map Node.id) s₁ s)
    (fun done n rest hsplit s hI => ?_) (fun done n rest hsplit s s' hI hrun => ?_) .start
  · have hn := hI.nodes n.id n (hmem done n rest hsplit)
    rw [if_neg (new_of_split hnd hsplit)] at hn
    exact detectUnhealthyNode_issued hn
  · rw [List.map_append]
    exact hI.step (hmem done n rest hsplit) (new_of_split hnd hsplit) (ExecIn.exec hrun)

/-! ## What the calls leave behind -/

/-- Since `s`, pods came to wait only from the scheduler's hands or gated. -/
structure Waits (T : Time → Prop) (s s' : Store) : Prop where
  services : s'.services = s.services
  pods : ∀ k p', s'.pods.get k = some p' → ∃ p, s.pods.get k = some p ∧
    (p'.status = .scheduled → p.status = .scheduled) ∧
    (p'.status = .pending → p.status = .pending ∨ p.status = .scheduled ∨ Gated T p')

theorem Waits.refl (T : Time → Prop) (s : Store) : Waits T s s :=
  ⟨rfl, fun _ p hp => ⟨p, hp, id, .inl⟩⟩

/-- One pod written: the rest of the store is looked up as before. -/
theorem Waits.put {s₁ : Store} {p q : Pod} (h : Waits T s s₁) (hq : s₁.pods.get p.id = some q)
    (hs : p.status = .scheduled → q.status = .scheduled)
    (hp : p.status = .pending → q.status = .scheduled ∨ Gated T p) : Waits T s (s₁.putPod p) := by
  refine ⟨h.services, fun k p' hp' => ?_⟩
  rw [Store.putPod_pods, Table.get_put] at hp'
  split at hp'
  · next hk =>
    obtain rfl : p = p' := by simpa using hp'
    subst hk
    obtain ⟨o, ho, hos, -⟩ := h.pods _ q hq
    refine ⟨o, ho, fun hst => hos (hs hst), fun hst => ?_⟩
    rcases hp hst with hst | hg
    · exact .inr (.inl (hos hst))
    · exact .inr (.inr hg)
  · exact h.pods k p' hp'

theorem Waits.step {s₁ : Store} {c : Call} {r : Resp c} (h : Waits T s s₁) (hE : Exec c s₁ r s')
    (hG : Issued T c s₁ r) : Waits T s s' := by
  cases exec_write hE with
  | nothing => exact h
  | updatePod p q hq =>
    obtain ⟨-, q', hq', hfl, hst⟩ := hG
    refine h.put hq' (fun hp => by rw [hst, hp]) (fun hp => ?_)
    rw [Pod.inFlight, hst, hp] at hfl
    cases hfl
  | transitionPod id dest msg t p hp hok =>
    obtain ⟨-, p', hp', -, hd, hg⟩ := hG
    obtain rfl : p' = p := by simpa [hp'] using hp
    have hid : p'.id = id := Table.key_of_get hp'
    refine h.put (q := p') (by rw [Store.movePod_id, hid]; exact hp') (fun hst => absurd hst hd) (fun hst => ?_)
    -- a pod is put back to pending from the scheduler or from a failure
    rw [Store.movePod_status] at hst
    subst hst
    cases hs : p'.status with
    | scheduled => exact .inl rfl
    | retrying => exact .inr (hg hs)
    | _ => rw [hs] at hok; cases hok
  | transitionNode id dest n hn hok => exact ⟨h.services, h.pods⟩
  | createDeployment | transitionDeployment | createPod | registerNode | updateNode => exact hG.elim
  | services c t hc =>
    cases c with
    | upsertService | deleteService => exact hG.elim
    | _ => cases hc

theorem detectUnhealthyNodes_waits [A : Arith] {u : Unit}
    (h : Runs (ExecIn T) (detectUnhealthyNodes timeout now) s u s') : Waits T s s' :=
  Runs.inv (Waits T s) (fun _ _ _ _ hE hW => hW.step hE.1.1 hE.2) (detectUnhealthyNodes_issued.runs h) (.refl T s)

/-! ## The outcome -/

/-- What a pass at `now` makes of `s` when the clock is read at times in `T`. -/
structure Recovered [A : Arith] (T : Time → Prop) (timeout : Duration) (now : Time) (s s' : Store) : Prop where
  deployments : s'.deployments = s.deployments
  services : s'.services = s.services
  nodeKeys : s'.nodes.keys = s.nodes.keys
  podKeys : s'.pods.keys = s.pods.keys
  unhealthy : ∀ k n, s.nodes.get k = some n → n.status = .healthy → timedOut timeout now n = true →
    s'.nodes.get k = some { n with status := .unhealthy }
  removed : ∀ k n, s.nodes.get k = some n → n.status = .draining → timedOut timeout now n = true →
    s'.nodes.get k = some { n with status := .removed }
  otherNodes : ∀ k n, s.nodes.get k = some n → ¬ LostNode timeout now s k → s'.nodes.get k = some n
  requeued : ∀ k p, s.pods.get k = some p → LostNode timeout now s p.nodeID → p.status = .scheduled →
    s'.pods.get k = some { p with status := .pending, nodeID := "" }
  retried : ∀ k p, s.pods.get k = some p → LostNode timeout now s p.nodeID → p.status = .running →
    A.int (p.attempt + 1) ≤ maxRetriesFor s p → ∃ t, T t ∧ s'.pods.get k = some { p with
      status := .pending, nodeID := "", attempt := A.int (p.attempt + 1)
      runAfter := t + backoff (A.int (p.attempt + 1)), error := "node heartbeat timeout" }
  deadLettered : ∀ k p, s.pods.get k = some p → LostNode timeout now s p.nodeID → p.status = .running →
    ¬ A.int (p.attempt + 1) ≤ maxRetriesFor s p → ∃ t, s'.pods.get k = some { p with
      status := .deadLetter, attempt := A.int (p.attempt + 1), error := "max retries exceeded after node failure"
      finishedAt := p.finishedAt.or (some t) }
  otherPods : ∀ k p, s.pods.get k = some p → ¬ (LostNode timeout now s p.nodeID ∧ p.inFlight = true) →
    s'.pods.get k = some p
  cleared : ∀ k p, s'.pods.get k = some p → LostNode timeout now s p.nodeID → p.inFlight = false
  settled : ∀ k p, s'.pods.get k = some p → p.status = .failed ∨ p.status = .retrying → s.pods.get k = some p

/-- The nodes given up are the healthy and the draining ones that timed out. -/
theorem lostNode_iff {k : String} : LostNode timeout now s k ↔ ∃ n, s.nodes.get k = some n ∧
    (n.status = .healthy ∨ n.status = .draining) ∧ timedOut timeout now n = true := by
  unfold LostNode
  refine exists_congr fun n => and_congr_right fun _ => ?_
  unfold givenUpTo
  split
  · next h => simp [h]
  · next h =>
    split
    · next h' => simp [h']
    · next h' =>
      simp only [ne_eq, not_true_eq_false, false_iff]
      rintro ⟨hst | hst, ht⟩
      · exact h ⟨hst, ht⟩
      · exact h' ⟨hst, ht⟩

/-- A heartbeat timeout in the range of durations is a bound on the age of the last heartbeat. -/
theorem timedOut_iff (hmin : minDuration ≤ timeout) (hmax : timeout < maxDuration) (n : Node) :
    timedOut timeout now n = true ↔ n.lastHeartbeatAt + timeout < now := by
  unfold timedOut Time.sub
  rw [decide_eq_true_iff, gt_iff_lt, lt_max_iff, lt_min_iff]
  constructor
  · rintro (h | ⟨-, h⟩)
    · exact absurd h (not_lt.mpr hmin)
    · exact lt_sub_iff_add_lt'.mp h
  · intro h
    exact .inr ⟨hmax, lt_sub_iff_add_lt'.mpr h⟩

/-! ### One pod -/

section Pod

variable [A : Arith] {p p' : Pod} (h : Rescheduled s p p')

include h

theorem Rescheduled.of_scheduled (hs : p.status = .scheduled) : p' = { p with status := .pending, nodeID := "" } := by
  cases h with
  | orphan t _ => rfl
  | retry now t₁ t₂ t₃ hr _ => rw [hs] at hr; cases hr
  | deadLetter t₁ t₂ hr _ => rw [hs] at hr; cases hr
  | keep h1 h2 => exact absurd hs h1

theorem Rescheduled.of_retryable (hs : p.status = .running) (hb : A.int (p.attempt + 1) ≤ maxRetriesFor s p) :
    ∃ t, p' = { p with
      status := .pending, nodeID := "", attempt := A.int (p.attempt + 1)
      runAfter := t + backoff (A.int (p.attempt + 1)), error := "node heartbeat timeout" } := by
  cases h with
  | orphan t hr => rw [hs] at hr; cases hr
  | retry now t₁ t₂ t₃ _ _ => exact ⟨now, rfl⟩
  | deadLetter t₁ t₂ _ hr => exact absurd hb hr
  | keep h1 h2 => exact absurd hs h2

theorem Rescheduled.of_exhausted (hs : p.status = .running) (hb : ¬ A.int (p.attempt + 1) ≤ maxRetriesFor s p) :
    ∃ t, p' = { p with
      status := .deadLetter, attempt := A.int (p.attempt + 1), error := "max retries exceeded after node failure"
      finishedAt := p.finishedAt.or (some t) } := by
  cases h with
  | orphan t hr => rw [hs] at hr; cases hr
  | retry now t₁ t₂ t₃ _ hr => exact absurd hr hb
  | deadLetter t₁ t₂ _ _ =>
    refine ⟨t₂, ?_⟩
    cases hf : p.finishedAt <;> simp [Store.movePod, exhausted, Store.isTerminalPodStatus, hf]
  | keep h1 h2 => exact absurd hs h2

theorem Rescheduled.of_idle (hfl : p.inFlight = false) : p' = p := by
  cases h with
  | orphan t hr => simp [Pod.inFlight, hr] at hfl
  | retry now t₁ t₂ t₃ hr _ => simp [Pod.inFlight, hr] at hfl
  | deadLetter t₁ t₂ hr _ => simp [Pod.inFlight, hr] at hfl
  | keep h1 h2 => rfl

theorem Rescheduled.halfway (hst : p'.status = .failed ∨ p'.status = .retrying) : p' = p := by
  cases h with
  | orphan t hr => simp at hst
  | retry now t₁ t₂ t₃ hr _ => simp at hst
  | deadLetter t₁ t₂ hr _ => simp at hst
  | keep h1 h2 => rfl

end Pod

/-! ### The whole pass -/

/-- A running pod that waits after the pass was gated by it. -/
theorem Waits.gated {k : String} {p p' : Pod} (h : Waits T s s') (hp : s.pods.get k = some p)
    (hs : p.status = .running) (hp' : s'.pods.get k = some p') (hs' : p'.status = .pending) : Gated T p' := by
  obtain ⟨q, hq, -, hwait⟩ := h.pods k p' hp'
  obtain rfl : p = q := by simpa [hp] using hq
  rcases hwait hs' with hr | hr | hg
  · rw [hs] at hr; cases hr
  · rw [hs] at hr; cases hr
  · exact hg

theorem recovered_of_detected [A : Arith] (h : Detected timeout now s s') (hw : Waits T s s') :
    Recovered T timeout now s s' := by
  have hpod : ∀ k p, s.pods.get k = some p → LostNode timeout now s p.nodeID →
      ∃ p', s'.pods.get k = some p' ∧ Rescheduled s p p' := by
    intro k p hp hl
    obtain ⟨p', hp', hin, -⟩ := h.pods k p hp
    exact ⟨p', hp', hin hl⟩
  refine ⟨h.deployments, hw.services, h.nodeKeys, h.keys, ?_, ?_, ?_, ?_, ?_, ?_, ?_, ?_, ?_⟩
  · intro k n hn hst ht
    rw [h.nodes k n hn, afterDetect, givenUpTo, if_pos ⟨hst, ht⟩]
    rfl
  · intro k n hn hst ht
    rw [h.nodes k n hn, afterDetect, givenUpTo, if_neg (by simp [hst]), if_pos ⟨hst, ht⟩]
    rfl
  · intro k n hn hl
    have hnone : givenUpTo timeout now n = none := by
      by_contra hg
      exact hl ⟨n, hn, hg⟩
    rw [h.nodes k n hn, afterDetect, hnone]
    rfl
  · intro k p hp hl hs
    obtain ⟨p', hp', hres⟩ := hpod k p hp hl
    rw [hp', hres.of_scheduled hs]
  · intro k p hp hl hs hb
    obtain ⟨p', hp', hres⟩ := hpod k p hp hl
    obtain ⟨t₀, rfl⟩ := hres.of_retryable hs hb
    obtain ⟨t, hT, ht⟩ := hw.gated hp hs hp' rfl
    change t₀ + backoff (A.int (p.attempt + 1)) = t + backoff (A.int (p.attempt + 1)) at ht
    exact ⟨t, hT, by rw [hp', ht]⟩
  · intro k p hp hl hs hb
    obtain ⟨p', hp', hres⟩ := hpod k p hp hl
    obtain ⟨t, rfl⟩ := hres.of_exhausted hs hb
    exact ⟨t, hp'⟩
  · intro k p hp hn
    obtain ⟨p', hp', hin, hout⟩ := h.pods k p hp
    by_cases hl : LostNode timeout now s p.nodeID
    · have hfl : p.inFlight = false := by simpa [hl] using hn
      rw [hp', (hin hl).of_idle hfl]
    · rw [hp', hout hl]
  · intro k p' hp' hl
    obtain ⟨p, hp, hin, hout⟩ := h.pod_back hp'
    by_cases hlost : LostNode timeout now s p.nodeID
    · exact (hin hlost).not_inFlight
    · obtain rfl := hout hlost
      exact absurd hl hlost
  · intro k p' hp' hst
    obtain ⟨p, hp, hin, hout⟩ := h.pod_back hp'
    have heq : p' = p := by
      by_cases hlost : LostNode timeout now s p.nodeID
      · exact (hin hlost).halfway hst
      · exact hout hlost
    rw [heq]
    exact hp

theorem detectUnhealthyNodes_recovered [A : Arith] (h : Runs (ExecIn T) (detectUnhealthyNodes timeout now) s () s') :
    Recovered T timeout now s s' :=
  recovered_of_detected (detectUnhealthyNodes_spec (ExecIn.exec h)) (detectUnhealthyNodes_waits h)

/-- **Node-failure recovery.**  Every write of a pass is legal and accepted; the pass gives up exactly the healthy and
draining nodes that timed out, and requeues, retries or dead-letters exactly the pods in flight on them. -/
theorem node_failure_recovery (T : Time → Prop) (timeout : Duration) (now : Time) (s : Store) :
    Always (ExecIn T) Legal (detectUnhealthyNodes (A := .go) timeout now) s ∧
    (∀ t, T t → ∃ s', Runs (ExecIn T) (detectUnhealthyNodes (A := .go) timeout now) s () s') ∧
    (∀ s', Runs (ExecIn T) (detectUnhealthyNodes (A := .go) timeout now) s () s' →
      Recovered (A := .go) T timeout now s s') ∧
    (∀ k, LostNode timeout now s k ↔ ∃ n, s.nodes.get k = some n ∧
      (n.status = .healthy ∨ n.status = .draining) ∧ timedOut timeout now n = true) ∧
    (minDuration ≤ timeout → timeout < maxDuration →
      ∀ n, timedOut timeout now n = true ↔ n.lastHeartbeatAt + timeout < now) := by
  refine ⟨(detectUnhealthyNodes_issued (A := .go)).mono Issued.legal, fun t hT => ?_, fun s' h => ?_,
    fun k => lostNode_iff, timedOut_iff⟩
  · exact ⟨_, run_runs (fun c s => s.exec t c) (exec_allowedIn hT) _ s⟩
  · exact detectUnhealthyNodes_recovered (A := .go) h

/-- Two nodes went quiet: the healthy one had a pod it had not started, one that may be retried and one that may not,
the draining one had a pod of a deployment that is gone. -/
def quietStore : Store :=
  ((((((((({} : Store).putDeployment { id := "web", maxRetries := 2, status := .active }).putNode
    { id := "lost", status := .healthy, lastHeartbeatAt := 10 }).putNode
    { id := "leaving", status := .draining, lastHeartbeatAt := 20 }).putNode
    { id := "alive", status := .healthy, lastHeartbeatAt := 95 }).putPod
    { id := "assigned", deploymentID := "web", nodeID := "lost", status := .scheduled, attempt := 1,
      runAfter := 7 }).putPod
    { id := "started", deploymentID := "web", nodeID := "lost", status := .running, attempt := 1 }).putPod
    { id := "spent", deploymentID := "web", nodeID := "lost", status := .running, attempt := 2 }).putPod
    { id := "stray", deploymentID := "gone", nodeID := "leaving", status := .running }).putPod
    { id := "served", deploymentID := "web", nodeID := "alive", status := .running }

def quietPass : Unit × Store := (detectUnhealthyNodes (A := .go) 50 100).run (fun c s => s.exec 100 c) quietStore

theorem node_failure_recovery_quiet : Recovered (A := .go) (· = 100) 50 100 quietStore quietPass.2 ∧
    quietPass.2.nodes.rows.map (fun n => (n.id, n.status)) =
      [("lost", .unhealthy), ("leaving", .removed), ("alive", .healthy)] ∧
    quietPass.2.pods.rows.map (fun p => (p.id, p.nodeID, p.status, p.attempt)) =
      [("assigned", "", .pending, 1), ("started", "", .pending, 2), ("spent", "lost", .deadLetter, 3),
        ("stray", "leaving", .deadLetter, 1), ("served", "alive", .running, 0)] ∧
    (quietPass.2.pods.get "started").map Pod.runAfter = some (100 + 4 * second) := by
  have hrun : Runs (ExecIn (· = 100)) (detectUnhealthyNodes (A := .go) 50 100) quietStore () quietPass.2 :=
    run_runs _ (exec_allowedIn (T := (· = 100)) rfl) _ _
  exact ⟨(node_failure_recovery (· = 100) 50 100 quietStore).2.2.1 _ hrun, by decide +kernel, by decide +kernel,
    by decide +kernel⟩

/-- A pod that has used up the largest number of retries is lost with its node. -/
def spentStore : Store :=
  ((({} : Store).putDeployment { id := "web", maxRetries := 2 ^ 63 - 1, status := .active }).putNode
    { id := "lost", status := .healthy }).putPod
    { id := "pod", deploymentID := "web", nodeID := "lost", status := .running, attempt := 2 ^ 63 - 1 }

/-- With unbounded integers it would be dead-lettered; its next attempt wraps around, and it is retried. -/
theorem attempt_wraps :
    ¬ ∀ (T : Time → Prop) (timeout : Duration) (now : Time) (s s' : Store),
      (∀ d ∈ s.deployments.rows, IsInt64 d.maxRetries) → (∀ p ∈ s.pods.rows, IsInt64 p.attempt) →
      Runs (ExecIn T) (detectUnhealthyNodes (A := .go) timeout now) s () s' →
      Recovered (A := .exact) T timeout now s s' := by
  intro h
  have hrun := run_runs (fun c s => s.exec 100 c) (exec_allowedIn (T := (· = 100)) rfl)
    (detectUnhealthyNodes (A := .go) 50 100) spentStore
  have hrec := h (· = 100) 50 100 spentStore _ (by decide +kernel) (by decide +kernel) hrun
  obtain ⟨t, hdead⟩ := hrec.deadLettered "pod" _ rfl ⟨_, rfl, by decide +kernel⟩ rfl (by decide +kernel)
  have hstatus := congrArg (Option.map Pod.status) hdead
  change _ = some PodStatus.deadLetter at hstatus
  revert hstatus
  decide +kernel

end ControlPlane.Reconciler
