import InfraPlatform.ControlPlane.Lifecycle

/-!
# Concurrent final reports on one pod

Several `UpdatePodStatus` requests report the end of the same running pod, call by call next to each other.
`TransitionPod` lets only one of them through as long as nobody writes the status back: the `UpdatePod` before
it does, with the copy of the pod that the request has read.

* `Stage.prog`: what is left of a request at each of its calls; `Move` is what one call does.
* `acceptedOnce_iff`: if every `UpdatePod` finds the pod in the status it writes, one request is accepted and
  releases the node, the others are refused; the pod ends with the exit code and output of that request
  exactly if the last `UpdatePod` brought them.
* `accepted_twice`: an interleaving of two requests in which both are accepted.
-/

namespace ControlPlane

open Lib Lib.Prog Api

/-! ## The stages of a report -/

/-- Where a report stands, with what it holds: its copy of the pod, a clock reading, its copy of the node. -/
inductive Stage where
  | fresh
  | read (p : Pod)
  | written (p : Pod)
  | timed (p : Pod) (t : Time)
  /-- `TransitionPod` succeeded, and the node is to be released -/
  | accepted (p : Pod)
  | noded (p : Pod) (n : Node)
  | releasing (n : Node)
  /-- at the last `GetPod` -/
  | closing
  | answered (p : Option Pod)
  | refused

/-- The end of the handler: the pod as it is stored now. -/
def answerUpdated (pod : String) : M Response := do
  let updated ← State.getPod pod
  pure (writeJSON 200 (.pod updated.toOption))

/-- The handler from the answer of `TransitionPod` on. -/
def afterTransition (node pod : String) (q : PodStatusRequest) (p : Pod) : Res → M Response
  | .error .invalidTransition => pure (writeJSONError 409 StoreErr.invalidTransition.text)
  | .error err => pure (writeJSONError 500 err.text)
  | .ok () => do
    (if p.status = .running ∧ isPodTerminalish q.status then releaseNodeCapacity node p.deploymentID else pure ())
    answerUpdated pod

/-- The handler from the answer of `UpdatePod` on. -/
def afterUpdate (node pod : String) (q : PodStatusRequest) (p : Pod) : Res → M Response
  | .error err => pure (writeJSONError 500 err.text)
  | .ok () => do afterTransition node pod q p (← State.transitionPod pod q.status q.error)

/-- What is left of the handler. -/
def Stage.rest (node pod : String) (q : PodStatusRequest) : Stage → M Response
  | .fresh => updatePodStatus node pod (some q)
  | .read p => do afterUpdate node pod q p (← State.updatePod (reported p q))
  | .written p => do afterTransition node pod q p (← State.transitionPod pod q.status q.error)
  | .timed p t => do afterTransition node pod q p (← ask (.transitionPod pod q.status q.error t))
  | .accepted p => do
    releaseNodeCapacity node p.deploymentID
    answerUpdated pod
  | .noded p n => do
    let deployment ← State.getDeployment p.deploymentID
    let _ ← State.updateNode (releasedNode n deployment)
    answerUpdated pod
  | .releasing n => do
    let _ ← State.updateNode n
    answerUpdated pod
  | .closing => answerUpdated pod
  | .answered p => pure (writeJSON 200 (.pod p))
  | .refused => pure (writeJSONError 409 StoreErr.invalidTransition.text)

def Stage.prog (node pod : String) (q : PodStatusRequest) (g : Stage) : M (Option Response) := do
  pure (some (← g.rest node pod q))

/-- What one call of a report does to the store and where it leaves the report. -/
inductive Move (node pod : String) (q : PodStatusRequest) (s : Store) : Stage → Call → Store → Stage → Prop where
  | getPod {p : Pod} : s.pods.get pod = some p → Move node pod q s .fresh (.getPod pod) s (.read p)
  | updatePod {p : Pod} :
      Move node pod q s (.read p) (.updatePod (reported p q)) (s.putPod (reported p q)) (.written p)
  | now {p : Pod} (t : Time) : Move node pod q s (.written p) .now s (.timed p t)
  | refuse {p p₀ : Pod} {t : Time} : s.pods.get pod = some p₀ → transitionPod p₀.status q.status = false →
      Move node pod q s (.timed p t) (.transitionPod pod q.status q.error t) s .refused
  | accept {p p₀ : Pod} {t : Time} : s.pods.get pod = some p₀ → transitionPod p₀.status q.status = true →
      Move node pod q s (.timed p t) (.transitionPod pod q.status q.error t)
        (s.putPod (Store.movePod p₀ q.status q.error t)) (if releases p q then .accepted p else .closing)
  | getNode {p : Pod} {n : Node} : s.nodes.get node = some n →
      Move node pod q s (.accepted p) (.getNode node) s (.noded p n)
  | noNode {p : Pod} : s.nodes.get node = none → Move node pod q s (.accepted p) (.getNode node) s .closing
  | getDeployment {p : Pod} {n : Node} : Move node pod q s (.noded p n) (.getDeployment p.deploymentID) s
      (.releasing (releasedNode n (s.getDeployment p.deploymentID)))
  | updateNode {n : Node} : Move node pod q s (.releasing n) (.updateNode n) (s.updateNode n).2 .closing
  | answer : Move node pod q s .closing (.getPod pod) s (.answered (s.getPod pod).toOption)

variable {node pod : String} {q : PodStatusRequest} {s s' : Store} {g : Stage}

theorem report_prog (timeout : Duration) :
    (Event.report node pod (some q)).prog timeout = Stage.prog node pod q .fresh := rfl

/-- As long as the pod is there, and a copy of it is one of this pod, a report makes these moves only. -/
theorem move_of_call {c : Call} {k : Resp c → M (Option Response)} {r : Resp c} {p₀ : Pod}
    (hpod : s.pods.get pod = some p₀) (hcopy : ∀ p, g = .read p → p.id = pod)
    (hcall : g.prog node pod q = .call c k) (hE : Exec c s r s') :
    ∃ g', g'.prog node pod q = k r ∧ Move node pod q s g c s' g' := by
  cases g with
  | fresh =>
    change Prog.call (Call.getPod pod) _ = _ at hcall
    cases hcall
    obtain ⟨rfl, rfl⟩ := hE
    rw [Store.getPod_some hpod]
    exact ⟨.read p₀, rfl, .getPod hpod⟩
  | read p =>
    change Prog.call (Call.updatePod (reported p q)) _ = _ at hcall
    cases hcall
    have hget : s.pods.get (reported p q).id = some p₀ := by
      rw [show (reported p q).id = pod from hcopy p rfl]
      exact hpod
    replace hE : (r, s') = s.updatePod (reported p q) := hE
    rw [Store.updatePod_some hget] at hE
    obtain ⟨rfl, rfl⟩ := Prod.mk.inj hE
    exact ⟨.written p, rfl, .updatePod⟩
  | written p =>
    change Prog.call Call.now _ = _ at hcall
    cases hcall
    obtain rfl : s' = s := hE
    exact ⟨.timed p r, rfl, .now r⟩
  | timed p t =>
    change Prog.call (Call.transitionPod pod q.status q.error t) _ = _ at hcall
    cases hcall
    replace hE : (r, s') = s.transitionPod pod q.status q.error t := hE
    cases ht : transitionPod p₀.status q.status with
    | false =>
      rw [Store.transitionPod_not hpod ht] at hE
      obtain ⟨rfl, rfl⟩ := Prod.mk.inj hE
      exact ⟨.refused, rfl, .refuse hpod ht⟩
    | true =>
      rw [Store.transitionPod_of hpod ht] at hE
      obtain ⟨rfl, rfl⟩ := Prod.mk.inj hE
      refine ⟨_, ?_, .accept hpod ht⟩
      change _ = (do pure (some (← afterTransition node pod q p (.ok ()))))
      unfold afterTransition
      by_cases hrel : releases p q
      · rw [if_pos hrel, if_pos (show p.status = .running ∧ isPodTerminalish q.status = true from hrel)]
        rfl
      · rw [if_neg hrel, if_neg (show ¬ (p.status = .running ∧ isPodTerminalish q.status = true) from hrel)]
        rfl
  | accepted p =>
    change Prog.call (Call.getNode node) _ = _ at hcall
    cases hcall
    obtain ⟨rfl, rfl⟩ := hE
    cases hn : s'.nodes.get node with
    | none =>
      rw [Store.getNode_none hn]
      exact ⟨.closing, rfl, .noNode hn⟩
    | some n =>
      rw [Store.getNode_some hn]
      exact ⟨.noded p n, rfl, .getNode hn⟩
  | noded p n =>
    change Prog.call (Call.getDeployment p.deploymentID) _ = _ at hcall
    cases hcall
    obtain ⟨rfl, rfl⟩ := hE
    exact ⟨_, rfl, .getDeployment⟩
  | releasing n =>
    change Prog.call (Call.updateNode n) _ = _ at hcall
    cases hcall
    replace hE : (r, s') = s.updateNode n := hE
    obtain rfl : s' = (s.updateNode n).2 := (congrArg Prod.snd hE)
    exact ⟨.closing, rfl, .updateNode⟩
  | closing =>
    change Prog.call (Call.getPod pod) _ = _ at hcall
    cases hcall
    obtain ⟨rfl, rfl⟩ := hE
    exact ⟨_, rfl, .answer⟩
  | answered p => cases hcall
  | refused => cases hcall

/-! ## Who wrote last, and who moved the pod first -/

def Call.updatesPod : Call → Bool
  | .updatePod _ => true
  | _ => false

def Call.transitionsPod : Call → Bool
  | .transitionPod .. => true
  | _ => false

section Trace

variable {ι : Type}

def writer (x : CallStep ι) : Option ι := if x.label.2.1.updatesPod then some x.label.1 else none

def mover (x : CallStep ι) : Option ι := if x.label.2.1.transitionsPod then some x.label.1 else none

/-- The request whose `UpdatePod` is the last one. -/
def lastWriter (tr : List (CallStep ι)) : Option ι := (tr.filterMap writer).getLast?

/-- The request whose `TransitionPod` is the first one. -/
def firstMover (tr : List (CallStep ι)) : Option ι := (tr.filterMap mover).head?

theorem lastWriter_snoc (tr : List (CallStep ι)) (x : CallStep ι) :
    lastWriter (tr ++ [x]) = if x.label.2.1.updatesPod then some x.label.1 else lastWriter tr := by
  unfold lastWriter
  rw [List.filterMap_append, List.getLast?_append]
  cases hx : x.label.2.1.updatesPod <;> simp [writer, hx]

theorem firstMover_snoc (tr : List (CallStep ι)) (x : CallStep ι) :
    firstMover (tr ++ [x]) =
      if x.label.2.1.transitionsPod then (firstMover tr).or (some x.label.1) else firstMover tr := by
  unfold firstMover
  rw [List.filterMap_append, List.head?_append]
  cases hx : x.label.2.1.transitionsPod <;> simp [mover, hx]

/-- An `UpdatePod` finds the pod in the status it writes. -/
def WritesCurrent (x : CallStep ι) : Prop :=
  match x.label with
  | (_, ⟨.updatePod p, _⟩) => ∀ p₀, x.src.state.pods.get p.id = some p₀ → p₀.status = p.status
  | _ => True

instance : (x : CallStep ι) → Decidable (WritesCurrent x)
  | ⟨src, (_, ⟨.updatePod p, _⟩), _⟩ =>
    inferInstanceAs (Decidable (∀ p₀, src.state.pods.get p.id = some p₀ → p₀.status = p.status))
  | ⟨_, (_, ⟨.createDeployment _, _⟩), _⟩ | ⟨_, (_, ⟨.getDeployment _, _⟩), _⟩ | ⟨_, (_, ⟨.listDeployments, _⟩), _⟩
  | ⟨_, (_, ⟨.transitionDeployment .., _⟩), _⟩ | ⟨_, (_, ⟨.createPod _, _⟩), _⟩ | ⟨_, (_, ⟨.getPod _, _⟩), _⟩
  | ⟨_, (_, ⟨.listPodsByDeployment _, _⟩), _⟩ | ⟨_, (_, ⟨.listPodsByStatus _, _⟩), _⟩
  | ⟨_, (_, ⟨.listPodsByNode _, _⟩), _⟩ | ⟨_, (_, ⟨.transitionPod .., _⟩), _⟩ | ⟨_, (_, ⟨.registerNode _, _⟩), _⟩
  | ⟨_, (_, ⟨.getNode _, _⟩), _⟩ | ⟨_, (_, ⟨.listNodes, _⟩), _⟩ | ⟨_, (_, ⟨.updateNode _, _⟩), _⟩
  | ⟨_, (_, ⟨.transitionNode .., _⟩), _⟩ | ⟨_, (_, ⟨.upsertService .., _⟩), _⟩ | ⟨_, (_, ⟨.getService _, _⟩), _⟩
  | ⟨_, (_, ⟨.deleteService _, _⟩), _⟩ | ⟨_, (_, ⟨.now, _⟩), _⟩ | ⟨_, (_, ⟨.randRead, _⟩), _⟩ => .isTrue trivial

end Trace

/-! ## The contest -/

/-- The copy of the pod a report holds. -/
def Stage.copy : Stage → Option Pod
  | .read p | .written p | .timed p _ | .accepted p | .noded p _ => some p
  | _ => none

/-- `TransitionPod` is still to come. -/
def Stage.early : Stage → Bool
  | .fresh | .read _ | .written _ | .timed .. => true
  | _ => false

def Stage.won : Stage → Bool
  | .accepted _ | .noded .. | .releasing _ | .closing | .answered _ => true
  | _ => false

def Stage.wrote : Stage → Bool
  | .fresh | .read _ => false
  | _ => true

/-- The nodes while the accepted report is at this stage. -/
def Stage.Accounts (s₀ s : Store) (node deployment : String) : Stage → Prop
  | .accepted _ => s.nodes = s₀.nodes
  | .noded _ n => s.nodes = s₀.nodes ∧ s₀.nodes.get node = some n
  | .releasing n => s.nodes = s₀.nodes ∧
      ∃ m, s₀.nodes.get node = some m ∧ n = releasedNode m (s₀.getDeployment deployment)
  | .closing | .answered _ => s.nodes = (released s₀ node deployment).nodes
  | _ => True

section Contest

variable {ι : Type}

/-- No report has tried `TransitionPod`, or report `w` has, the only one with success. -/
inductive Contest (node : String) (req : ι → PodStatusRequest) (s₀ s : Store) (p : Pod) (first : Option ι)
    (st : ι → Stage) : Prop where
  | undecided : first = none → p.status = .running → s.nodes = s₀.nodes → (∀ i, (st i).early = true) →
      (∀ i c, (st i).copy = some c → c.status = .running) → Contest node req s₀ s p first st
  | decided (w : ι) : first = some w → p.status = (req w).status → (st w).won = true →
      (∀ i, i ≠ w → (st i).won = false) → (st w).Accounts s₀ s node p.deploymentID →
      Contest node req s₀ s p first st

structure ReportInv (node pod deployment : String) (req : ι → PodStatusRequest) (s₀ : Store) (tr : List (CallStep ι))
    (s : Store) (st : ι → Stage) : Prop where
  deployments : s.deployments = s₀.deployments
  copies : ∀ i c, (st i).copy = some c → c.id = pod ∧ c.deploymentID = deployment
  wrote : ∀ i, (st i).wrote = true → (lastWriter tr).isSome = true
  stored : ∃ p, s.pods.get pod = some p ∧ p.deploymentID = deployment ∧
    (∀ j, lastWriter tr = some j → p.exitCode = (req j).exitCode ∧ p.output = (req j).output) ∧
    Contest node req s₀ s p (firstMover tr) st

end Contest

theorem transitionPod_running {t : PodStatus} (h : isPodTerminalish t = true) : transitionPod .running t = true := by
  cases t <;> first | rfl | cases h

theorem transitionPod_terminalish {f t : PodStatus} (hf : isPodTerminalish f = true) (ht : isPodTerminalish t = true) :
    transitionPod f t = false := by
  have key : ∀ f' ∈ [PodStatus.succeeded, .failed, .cancelled], ∀ t' ∈ [PodStatus.succeeded, .failed, .cancelled],
      transitionPod f' t' = false := by decide
  have hmem : ∀ {x : PodStatus}, isPodTerminalish x = true → x ∈ [PodStatus.succeeded, .failed, .cancelled] := by
    intro x hx
    cases x <;> simp [isPodTerminalish] at hx ⊢
  exact key f (hmem hf) t (hmem ht)

theorem Stage.not_won_of_early (h : g.early = true) : g.won = false := by
  cases g <;> first | rfl | cases h

theorem Stage.wrote_of_won (h : g.won = true) : g.wrote = true := by
  cases g <;> first | rfl | cases h

theorem Stage.Accounts.congr {s₀ : Store} {deployment : String} (h : g.Accounts s₀ s node deployment)
    (hnodes : s'.nodes = s.nodes) : g.Accounts s₀ s' node deployment := by
  cases g <;> simp only [Stage.Accounts, hnodes] at h ⊢ <;> exact h

section Step

variable {ι : Type} [DecidableEq ι] {req : ι → PodStatusRequest} {s₀ : Store} {p p' : Pod} {first : Option ι}
  {st : ι → Stage} {i : ι}

/-- A report moves that has not come to `TransitionPod`; the stored status stays. -/
theorem Contest.early (h : Contest node req s₀ s p first st) (hi : (st i).early = true) (hg : g.early = true)
    (hst : p'.status = p.status) (hdep : p'.deploymentID = p.deploymentID) (hnodes : s'.nodes = s.nodes)
    (hcopy : ∀ c, g.copy = some c → (st i).copy = some c ∨ c.status = p.status) :
    Contest node req s₀ s' p' first (Function.update st i g) := by
  cases h with
  | undecided hfirst hrun hn hearly hcopies =>
    refine .undecided hfirst (hst.trans hrun) (hnodes.trans hn) ?_ ?_
    · exact (Function.forall_update_iff st fun _ x => x.early = true).mpr ⟨hg, fun j _ => hearly j⟩
    · refine (Function.forall_update_iff st fun _ x => ∀ c, x.copy = some c → c.status = .running).mpr
        ⟨fun c hc => ?_, fun j _ => hcopies j⟩
      rcases hcopy c hc with hold | heq
      · exact hcopies i c hold
      · rw [heq, hrun]
  | decided w hfirst hstatus hwon hothers hacc =>
    have hne : w ≠ i := by
      intro heq
      rw [heq, Stage.not_won_of_early hi] at hwon
      cases hwon
    refine .decided w hfirst (hst.trans hstatus) ?_ ?_ ?_
    · rw [Function.update_of_ne hne]
      exact hwon
    · exact (Function.forall_update_iff st fun j x => j ≠ w → x.won = false).mpr
        ⟨fun _ => Stage.not_won_of_early hg, fun j _ => hothers j⟩
    · rw [Function.update_of_ne hne, hdep]
      exact hacc.congr hnodes

/-- The accepted report moves on. -/
theorem Contest.winner (h : Contest node req s₀ s p first st) (hi : (st i).won = true) (hg : g.won = true)
    (hacc : (st i).Accounts s₀ s node p.deploymentID → g.Accounts s₀ s' node p.deploymentID) :
    Contest node req s₀ s' p first (Function.update st i g) := by
  cases h with
  | undecided _ _ _ hearly _ =>
    rw [Stage.not_won_of_early (hearly i)] at hi
    cases hi
  | decided w hfirst hstatus hwon hothers haccw =>
    obtain rfl : i = w := by
      by_contra hne
      rw [hothers i hne] at hi
      cases hi
    refine .decided i hfirst hstatus ?_ ?_ ?_
    · rw [Function.update_self]
      exact hg
    · exact (Function.forall_update_iff st fun j x => j ≠ i → x.won = false).mpr
        ⟨fun hii => absurd rfl hii, fun j _ => hothers j⟩
    · rw [Function.update_self]
      exact hacc haccw

/-- A report is refused: another one was accepted before. -/
theorem Contest.refused (h : Contest node req s₀ s p first st) (hi : (st i).early = true)
    (hreq : ∀ i, isPodTerminalish (req i).status = true) (ht : transitionPod p.status (req i).status = false) :
    Contest node req s₀ s p (first.or (some i)) (Function.update st i .refused) := by
  cases h with
  | undecided _ hrun _ _ _ =>
    rw [hrun, transitionPod_running (hreq i)] at ht
    cases ht
  | decided w hfirst hstatus hwon hothers hacc =>
    have hne : w ≠ i := by
      intro heq
      rw [heq, Stage.not_won_of_early hi] at hwon
      cases hwon
    refine .decided w (by rw [hfirst]; rfl) hstatus ?_ ?_ ?_
    · rw [Function.update_of_ne hne]
      exact hwon
    · exact (Function.forall_update_iff st fun j x => j ≠ w → x.won = false).mpr
        ⟨fun _ => rfl, fun j _ => hothers j⟩
    · rw [Function.update_of_ne hne]
      exact hacc

/-- A report is accepted: it is the first one. -/
theorem Contest.accepted {c : Pod} (h : Contest node req s₀ s p first st) (hcopy : (st i).copy = some c)
    (hreq : ∀ i, isPodTerminalish (req i).status = true) (ht : transitionPod p.status (req i).status = true)
    (hst : p'.status = (req i).status) (hnodes : s'.nodes = s.nodes) :
    Contest node req s₀ s' p' (first.or (some i))
      (Function.update st i (if releases c (req i) then .accepted c else .closing)) := by
  cases h with
  | undecided hfirst _ hn hearly hcopies =>
    have hrel : releases c (req i) := ⟨hcopies i c hcopy, hreq i⟩
    rw [if_pos hrel]
    refine .decided i (by rw [hfirst]; rfl) hst ?_ ?_ ?_
    · rw [Function.update_self]
      rfl
    · exact (Function.forall_update_iff st fun j x => j ≠ i → x.won = false).mpr
        ⟨fun hii => absurd rfl hii, fun j _ _ => Stage.not_won_of_early (hearly j)⟩
    · rw [Function.update_self]
      exact hnodes.trans hn
  | decided w _ hstatus =>
    rw [hstatus, transitionPod_terminalish (hreq w) (hreq i)] at ht
    cases ht

variable {deployment : String} {tr : List (CallStep ι)} {x : CallStep ι} {c : Call} {r : Resp c}

theorem ReportInv.copies_update (h : ReportInv node pod deployment req s₀ tr s st)
    (hg : ∀ c, g.copy = some c → c.id = pod ∧ c.deploymentID = deployment) :
    ∀ j c, (Function.update st i g j).copy = some c → c.id = pod ∧ c.deploymentID = deployment :=
  (Function.forall_update_iff st fun _ y => ∀ c, y.copy = some c → c.id = pod ∧ c.deploymentID = deployment).mpr
    ⟨hg, fun j _ => h.copies j⟩

theorem ReportInv.wrote_update (h : ReportInv node pod deployment req s₀ tr s st)
    (hg : g.wrote = true → (st i).wrote = true ∨ x.label.2.1.updatesPod = true) :
    ∀ j, (Function.update st i g j).wrote = true → (lastWriter (tr ++ [x])).isSome = true := by
  refine (Function.forall_update_iff st fun _ y => y.wrote = true → (lastWriter (tr ++ [x])).isSome = true).mpr
    ⟨fun hw => ?_, fun j _ hj => ?_⟩ <;> rw [lastWriter_snoc] <;> split
  · rfl
  · next hno => exact h.wrote i ((hg hw).resolve_right hno)
  · rfl
  · exact h.wrote j hj

/-- A call that leaves the pods alone. -/
theorem ReportInv.quiet (h : ReportInv node pod deployment req s₀ tr s st) (hx : x.label = (i, ⟨c, r⟩))
    (hu : c.updatesPod = false) (ht : c.transitionsPod = false) (hdeps : s'.deployments = s.deployments)
    (hpods : s'.pods = s.pods)
    (hw : g.wrote = true → (st i).wrote = true)
    (hcopy : ∀ c, g.copy = some c → (st i).copy = some c ∨ s.pods.get pod = some c)
    (hcon : ∀ p, s.pods.get pod = some p → p.deploymentID = deployment → Contest node req s₀ s p (firstMover tr) st →
      Contest node req s₀ s' p (firstMover tr) (Function.update st i g)) :
    ReportInv node pod deployment req s₀ (tr ++ [x]) s' (Function.update st i g) := by
  obtain ⟨p, hp, hdep, hlast, hp'⟩ := h.stored
  refine ⟨hdeps.trans h.deployments, h.copies_update fun c hc => ?_, h.wrote_update fun hg => .inl (hw hg),
    p, by rw [hpods]; exact hp, hdep, ?_, ?_⟩
  · rcases hcopy c hc with hold | hnew
    · exact h.copies i c hold
    · obtain rfl : p = c := by rw [hp] at hnew; exact Option.some.inj hnew
      exact ⟨Table.key_of_get hp, hdep⟩
  · rw [lastWriter_snoc, hx, if_neg (by rw [hu]; decide)]
    exact hlast
  · rw [firstMover_snoc, hx, if_neg (by rw [ht]; decide)]
    exact hcon p hp hdep hp'

/-- A call of the report that was accepted. -/
theorem ReportInv.winner (h : ReportInv node pod deployment req s₀ tr s st) (hx : x.label = (i, ⟨c, r⟩))
    (hu : c.updatesPod = false) (ht : c.transitionsPod = false) (hdeps : s'.deployments = s.deployments)
    (hpods : s'.pods = s.pods) (hi : (st i).won = true) (hg : g.won = true)
    (hcopy : ∀ c, g.copy = some c → (st i).copy = some c)
    (hacc : (st i).Accounts s₀ s node deployment → g.Accounts s₀ s' node deployment) :
    ReportInv node pod deployment req s₀ (tr ++ [x]) s' (Function.update st i g) := by
  refine h.quiet hx hu ht hdeps hpods (fun _ => Stage.wrote_of_won hi) (fun c hc => .inl (hcopy c hc)) ?_
  rintro p - rfl hcon
  exact hcon.winner hi hg hacc

theorem updateNode_frame (s : Store) (n : Node) :
    (s.updateNode n).2.deployments = s.deployments ∧ (s.updateNode n).2.pods = s.pods := by
  unfold Store.updateNode
  split <;> exact ⟨rfl, rfl⟩

/-- The write of the released node, made on nodes nobody else has touched. -/
theorem updateNode_released {n m : Node} (hnodes : s.nodes = s₀.nodes) (hm : s₀.nodes.get node = some m)
    (hn : n = releasedNode m (s₀.getDeployment deployment)) :
    (s.updateNode n).2.nodes = (released s₀ node deployment).nodes := by
  have hid : n.id = node := by rw [hn, releasedNode_id, Table.key_of_get hm]
  have hget : s.nodes.get n.id = some m := by rw [hnodes, hid, hm]
  rw [Store.updateNode_some hget]
  unfold released
  rw [hm]
  change s.nodes.put n = s₀.nodes.put _
  rw [hnodes, hn]

/-- One call of report `i` keeps the invariant, if an `UpdatePod` finds the pod in the status it writes. -/
theorem ReportInv.step (h : ReportInv node pod deployment req s₀ tr s st) (hx : x.label = (i, ⟨c, r⟩))
    (hsrc : x.src.state = s) (hcur : WritesCurrent x) (hreq : ∀ i, isPodTerminalish (req i).status = true)
    (hm : Move node pod (req i) s (st i) c s' g) :
    ReportInv node pod deployment req s₀ (tr ++ [x]) s' (Function.update st i g) := by
  generalize hgi : st i = gi at hm
  have hearly : gi.early = true → (st i).early = true := fun hg => by rw [hgi]; exact hg
  have hwon : gi.won = true → (st i).won = true := fun hg => by rw [hgi]; exact hg
  cases hm with
  | getPod hp₁ =>
    refine h.quiet hx rfl rfl rfl rfl (fun hg => by cases hg) (fun c hc => .inr ?_) fun p hp _ hcon => ?_
    · rw [← Option.some.inj hc]
      exact hp₁
    · refine hcon.early (hearly rfl) rfl rfl rfl rfl fun c hc => .inr ?_
      rw [hp] at hp₁
      rw [← Option.some.inj hc, Option.some.inj hp₁]
  | @updatePod p₁ =>
    obtain ⟨p, hp, hdep, -, hcon⟩ := h.stored
    obtain ⟨hid₁, hdep₁⟩ := h.copies i p₁ (by rw [hgi]; rfl)
    have hid : p.id = pod := Table.key_of_get hp
    have hstatus : p.status = p₁.status := by
      unfold WritesCurrent at hcur
      rw [hx, hsrc] at hcur
      exact hcur p (by rw [show (reported p₁ (req i)).id = pod from hid₁]; exact hp)
    refine ⟨h.deployments, h.copies_update fun c hc => ?_, h.wrote_update fun _ => .inr (by rw [hx]; rfl),
      reported p₁ (req i), ?_, hdep₁, ?_, ?_⟩
    · rw [← Option.some.inj hc]
      exact ⟨hid₁, hdep₁⟩
    · rw [Store.putPod_pods, Table.get_put, if_pos (show pod = (reported p₁ (req i)).id from hid₁.symm)]
    · rw [lastWriter_snoc, hx]
      intro j hj
      obtain rfl : i = j := Option.some.inj hj
      exact ⟨rfl, rfl⟩
    · rw [firstMover_snoc, hx]
      refine hcon.early (hearly rfl) rfl hstatus.symm (hdep₁.trans hdep.symm) rfl fun c hc => .inl ?_
      rw [hgi]
      exact hc
  | now t =>
    refine h.quiet hx rfl rfl rfl rfl (fun _ => by rw [hgi]; rfl)
      (fun c hc => .inl (by rw [hgi]; exact hc)) fun p hp _ hcon => ?_
    exact hcon.early (hearly rfl) rfl rfl rfl rfl fun c hc => .inl (by rw [hgi]; exact hc)
  | @refuse p₁ p₀ t hp₀ ht =>
    obtain ⟨p, hp, hdep, hlast, hcon⟩ := h.stored
    obtain rfl : p = p₀ := by rw [hp] at hp₀; exact Option.some.inj hp₀
    refine ⟨h.deployments, h.copies_update (fun c hc => by cases hc), h.wrote_update fun _ => .inl (by rw [hgi]; rfl),
      p, hp, hdep, ?_, ?_⟩
    · rw [lastWriter_snoc, hx]
      exact hlast
    · rw [firstMover_snoc, hx]
      exact hcon.refused (hearly rfl) hreq ht
  | @accept p₁ p₀ t hp₀ ht =>
    obtain ⟨p, hp, hdep, hlast, hcon⟩ := h.stored
    obtain rfl : p = p₀ := by rw [hp] at hp₀; exact Option.some.inj hp₀
    obtain ⟨hid₁, hdep₁⟩ := h.copies i p₁ (by rw [hgi]; rfl)
    refine ⟨h.deployments, h.copies_update fun c hc => ?_, h.wrote_update fun _ => .inl (by rw [hgi]; rfl),
      Store.movePod p (req i).status (req i).error t, ?_, hdep, ?_, ?_⟩
    · split at hc
      · rw [← Option.some.inj hc]
        exact ⟨hid₁, hdep₁⟩
      · cases hc
    · rw [Store.putPod_pods, Table.get_put, Store.movePod_id, if_pos (Table.key_of_get hp).symm]
    · rw [lastWriter_snoc, hx]
      exact hlast
    · rw [firstMover_snoc, hx]
      exact hcon.accepted (by rw [hgi]; rfl) hreq ht rfl rfl
  | @getNode p₁ n hn =>
    refine h.winner hx rfl rfl rfl rfl (hwon rfl) rfl (fun c hc => by rw [hgi]; exact hc) fun hacc => ?_
    rw [hgi] at hacc
    exact ⟨hacc, by rw [← show s.nodes = s₀.nodes from hacc]; exact hn⟩
  | @noNode p₁ hn =>
    refine h.winner hx rfl rfl rfl rfl (hwon rfl) rfl (fun c hc => by cases hc) fun hacc => ?_
    rw [hgi] at hacc
    replace hacc : s.nodes = s₀.nodes := hacc
    rw [hacc] at hn
    change s.nodes = _
    unfold released
    rw [hn]
    exact hacc
  | @getDeployment p₁ n =>
    refine h.winner hx rfl rfl rfl rfl (hwon rfl) rfl (fun c hc => by cases hc) fun hacc => ?_
    rw [hgi] at hacc
    obtain ⟨hnodes, hn⟩ := hacc
    refine ⟨hnodes, n, hn, ?_⟩
    have hdep₁ := (h.copies i p₁ (by rw [hgi]; rfl)).2
    have hsame : s.getDeployment p₁.deploymentID = s₀.getDeployment deployment := by
      unfold Store.getDeployment
      rw [h.deployments, hdep₁]
    rw [hsame]
  | @updateNode n =>
    obtain ⟨hdeps, hpods⟩ := updateNode_frame s n
    refine h.winner hx rfl rfl hdeps hpods (hwon rfl) rfl (fun c hc => by cases hc) fun hacc => ?_
    rw [hgi] at hacc
    obtain ⟨hnodes, m, hm, hn⟩ := hacc
    exact updateNode_released hnodes hm hn
  | answer =>
    refine h.winner hx rfl rfl rfl rfl (hwon rfl) rfl (fun c hc => by cases hc) fun hacc => ?_
    rw [hgi] at hacc
    exact hacc

end Step

/-! ## Final reports -/

theorem Stage.last_of_ret {a : Option Response} (h : g.prog node pod q = .ret a) :
    (∃ p, g = .answered p ∧ a = some (writeJSON 200 (.pod p))) ∨
      (g = .refused ∧ a = some (writeJSONError 409 StoreErr.invalidTransition.text)) := by
  cases g with
  | answered p =>
    cases h
    exact .inl ⟨p, rfl, rfl⟩
  | refused =>
    cases h
    exact .inr ⟨rfl, rfl⟩
  | _ => cases h

section Final

variable {ι : Type} [DecidableEq ι] {req : ι → PodStatusRequest}

/-- The status code of the response to request `i`. -/
def answerCode (cfg : Concurrent ι) (i : ι) : Option Nat :=
  match (cfg.threads i).prog with
  | .ret (some r) => some r.code
  | _ => none

/-- One request answers 200 and the others 409, the pod is as that one reports it, and the node is
released once. -/
def AcceptedOnce (node pod deployment : String) (req : ι → PodStatusRequest) (s₀ : Store) (cfg : Concurrent ι) : Prop :=
  ∃ w, answerCode cfg w = some 200 ∧ (∀ i, i ≠ w → answerCode cfg i = some 409) ∧
    (∃ p, cfg.state.pods.get pod = some p ∧ p.status = (req w).status ∧ p.exitCode = (req w).exitCode ∧
      p.output = (req w).output) ∧
    cfg.state.nodes = (released s₀ node deployment).nodes

/-- The invariant holds at the end of every interleaving whose `UpdatePod`s are current. -/
theorem reportInv_run {timeout : Duration} {s₀ : Store} {p₀ : Pod} {tr : List (CallStep ι)} {cfg : Concurrent ι}
    (hpod : s₀.pods.get pod = some p₀) (hrun : p₀.status = .running)
    (hreq : ∀ i, isPodTerminalish (req i).status = true)
    (h : Run (Config.Next Exec) (launch timeout s₀ fun i => .report node pod (some (req i))) tr cfg)
    (hcur : ∀ x ∈ tr, WritesCurrent x) :
    ∃ st : ι → Stage, (∀ i, (cfg.threads i).prog = (st i).prog node pod (req i)) ∧
      ReportInv node pod p₀.deploymentID req s₀ tr cfg.state st := by
  refine Run.staged (fun i g => g.prog node pod (req i)) (ReportInv node pod p₀.deploymentID req s₀) WritesCurrent
    (fun _ => .fresh) ?_ (fun i => report_prog timeout) ?_ h hcur
  · intro tr cfg cfg' st i c k r s' hI hcall hE hx
    obtain ⟨p, hp, -⟩ := hI.stored
    have hcopy : ∀ p, st i = .read p → p.id = pod := fun p hg => (hI.copies i p (by rw [hg]; rfl)).1
    obtain ⟨g, hg, hm⟩ := move_of_call hp hcopy hcall hE
    exact ⟨g, hg, hI.step rfl rfl hx hreq hm⟩
  · have hcontest : Contest node req s₀ s₀ p₀ (firstMover []) fun _ : ι => .fresh :=
      .undecided rfl hrun rfl (fun _ => rfl) (fun _ _ hc => by cases hc)
    exact ⟨rfl, (fun _ _ hc => by cases hc), (fun _ hw => by cases hw), p₀, hpod, rfl, (fun _ hj => by cases hj),
      hcontest⟩

/-- **Concurrent final reports.**  Any number of requests report the end of the same running pod.  If every
`UpdatePod` finds the pod in the status it writes back, the reports are accepted once exactly if the last
`UpdatePod` carries the exit code and the output of the request that came to `TransitionPod` first. -/
theorem acceptedOnce_iff [Nonempty ι] {timeout : Duration} {s₀ : Store} {p₀ : Pod} {tr : List (CallStep ι)}
    {cfg : Concurrent ι} (hpod : s₀.pods.get pod = some p₀) (hrun : p₀.status = .running)
    (hreq : ∀ i, isPodTerminalish (req i).status = true)
    (h : Run (Config.Next Exec) (launch timeout s₀ fun i => .report node pod (some (req i))) tr cfg)
    (hfin : ∀ i, (cfg.threads i).finished) (hcur : ∀ x ∈ tr, WritesCurrent x) :
    AcceptedOnce node pod p₀.deploymentID req s₀ cfg ↔
      ∀ i j, firstMover tr = some i → lastWriter tr = some j →
        (req j).exitCode = (req i).exitCode ∧ (req j).output = (req i).output := by
  obtain ⟨st, hst, hinv⟩ := reportInv_run hpod hrun hreq h hcur
  obtain ⟨p, hp, hdep, hlast, hcon⟩ := hinv.stored
  have hend : ∀ i, (∃ c, st i = .answered c ∧ answerCode cfg i = some 200) ∨
      (st i = .refused ∧ answerCode cfg i = some 409) := by
    intro i
    obtain ⟨a, ha⟩ := hfin i
    unfold answerCode
    rw [ha]
    rw [hst i] at ha
    rcases Stage.last_of_ret ha with ⟨c, hg, rfl⟩ | ⟨hg, rfl⟩
    · exact .inl ⟨c, hg, rfl⟩
    · exact .inr ⟨hg, rfl⟩
  cases hcon with
  | undecided _ _ _ hearly _ =>
    -- somebody has finished
    obtain ⟨i⟩ := ‹Nonempty ι›
    have hi := hearly i
    rcases hend i with ⟨c, hg, -⟩ | ⟨hg, -⟩ <;> rw [hg] at hi <;> cases hi
  | decided w hfirst hstatus hwon hothers hacc =>
    obtain ⟨c, hw, hcode⟩ : ∃ c, st w = .answered c ∧ answerCode cfg w = some 200 := by
      rcases hend w with hw | ⟨hg, -⟩
      · exact hw
      · rw [hg] at hwon
        cases hwon
    have hrefused : ∀ i, i ≠ w → answerCode cfg i = some 409 := by
      intro i hi
      rcases hend i with ⟨c, hg, -⟩ | ⟨-, hg⟩
      · have hno := hothers i hi
        rw [hg] at hno
        cases hno
      · exact hg
    obtain ⟨j, hj⟩ := Option.isSome_iff_exists.mp (hinv.wrote w (by rw [hw]; rfl))
    obtain ⟨hexit, hout⟩ := hlast j hj
    rw [hw, hdep] at hacc
    constructor
    · rintro ⟨w', hcode', -, ⟨p', hp', -, hexit', hout'⟩, -⟩ i j' hi hj'
      obtain rfl : w = i := by rw [hfirst] at hi; exact Option.some.inj hi
      obtain rfl : j = j' := by rw [hj] at hj'; exact Option.some.inj hj'
      obtain rfl : p = p' := by rw [hp] at hp'; exact Option.some.inj hp'
      obtain rfl : w' = w := by
        by_contra hne
        rw [hrefused w' hne] at hcode'
        cases hcode'
      exact ⟨hexit.symm.trans hexit', hout.symm.trans hout'⟩
    · intro hsame
      obtain ⟨hexit', hout'⟩ := hsame w j hfirst hj
      exact ⟨w, hcode, hrefused, ⟨p, hp, hstatus, hexit.trans hexit', hout.trans hout'⟩, hacc⟩

end Final

/-- The requests of `twoReports`. -/
def twoRequests (b : Bool) : PodStatusRequest := if b then { status := .failed } else { status := .succeeded }

theorem acceptedOnce_iff_overlapping :
    ∃ p₀, runningStore.pods.get "pod_00000002" = some p₀ ∧
      AcceptedOnce "node_00000000" "pod_00000002" p₀.deploymentID twoRequests runningStore
        (interleaved 7 (launch (15 * second) runningStore twoReports) sideBySide) := by
  have hstored : (runningStore.pods.get "pod_00000002").map Pod.status = some .running := by decide +kernel
  obtain ⟨p₀, hp₀, hrun⟩ := Option.map_eq_some_iff.mp hstored
  refine ⟨p₀, hp₀, (acceptedOnce_iff hp₀ hrun (by decide) (run_interleaving 7 _ sideBySide) (by decide +kernel)
    (by decide +kernel)).mpr fun i j _ _ => ?_⟩
  cases i <;> cases j <;> exact ⟨rfl, rfl⟩

/-- One request reads the running pod, the other one is accepted, the first one writes its copy back. -/
theorem accepted_twice :
    ¬ ∀ (timeout : Duration) (node pod : String) (req : Bool → PodStatusRequest) (s₀ : Store) (p₀ : Pod)
      (tr : List (CallStep Bool)) (cfg : Concurrent Bool), s₀.pods.get pod = some p₀ → p₀.status = .running →
      (∀ i, isPodTerminalish (req i).status = true) →
      Run (Config.Next Exec) (launch timeout s₀ fun i => .report node pod (some (req i))) tr cfg →
      (∀ i, (cfg.threads i).finished) → AcceptedOnce node pod p₀.deploymentID req s₀ cfg := by
  intro h
  have hstored : (runningStore.pods.get "pod_00000002").map Pod.status = some .running := by decide +kernel
  obtain ⟨p₀, hp₀, hrun⟩ := Option.map_eq_some_iff.mp hstored
  obtain ⟨w, -, hothers, -⟩ := h (15 * second) "node_00000000" _ twoRequests _ p₀ _ _ hp₀ hrun (by decide)
    (run_interleaving 7 _ ([true] ++ List.replicate 8 false ++ List.replicate 7 true)) (by decide +kernel)
  have hboth : ∀ b, answerCode (interleaved 7 (launch (15 * second) runningStore twoReports)
      ([true] ++ List.replicate 8 false ++ List.replicate 7 true)) b = some 200 := by decide +kernel
  have hno := hothers (!w) (by cases w <;> decide)
  have hyes := hboth (!w)
  change answerCode (interleaved 7 (launch (15 * second) runningStore twoReports) _) (!w) = _ at hno
  rw [hyes] at hno
  cases hno

end ControlPlane
