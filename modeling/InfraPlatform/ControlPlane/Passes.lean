import InfraPlatform.ControlPlane.Lifecycle

/-!
# Concurrent scheduling passes

The ticker loop and `POST /api/v1/scheduler/rebalance` may run `Tick` at the same
time.  Each pass works on its own copies of pods and nodes.

* `tick_dispatching`: what a pass does call by call, whatever the others do: it assigns pods it
  knows to be pending, moves them to `SCHEDULED` and takes each one off a node right after.
* `passes_account_of_fresh`: if every write finds its record as the pass last read or
  wrote it, each pod is moved at most once and at the end every node
  carries exactly the reservations of the pods that arrived on it.
* `pass_moves_twice`: two passes that list the same pending pod move it twice.
-/

namespace ControlPlane.Scheduler

open Lib Lib.Prog Api

/-! ## A pass call by call -/

/-- The pod that an event of a pass with history `h` moves to `SCHEDULED`, as the pass wrote it. -/
def dueAfter (h : CallHist) : (Σ c : Call, Resp c) → Option Pod
  | ⟨.transitionPod id .scheduled _ _, .ok _⟩ => knownPod h id
  | _ => none

/-- The pod just moved to `SCHEDULED` and not yet taken off a node. -/
def due (h : CallHist) : Option Pod :=
  match h.getLast? with
  | some ev => dueAfter h.dropLast ev
  | none => none

@[simp] theorem due_snoc (h : CallHist) (ev : Σ c : Call, Resp c) : due (h ++ [ev]) = dueAfter h ev := by
  simp [due]

def Dispatching [A : Arith] (h : CallHist) : Call → Prop
  | .updatePod p => due h = none ∧ ∃ q n, p = assigned q n ∧ knownPod h q.id = some q ∧ q.status = .pending
  | .transitionPod id dest _ _ =>
    due h = none ∧ dest = .scheduled ∧ ∃ p, knownPod h id = some p ∧ p.id = id ∧ p.status = .pending
  | .updateNode m => ∃ p n r, due h = some p ∧ p.nodeID = n.id ∧ knownNode h n.id = some n ∧
      ⟨.getDeployment p.deploymentID, r⟩ ∈ h ∧ m = reserve n (requiredOf r)
  | .listPodsByStatus _ | .listNodes | .getDeployment _ | .now => due h = none
  | _ => False

/-- Answers of the store to a pass whose nodes do not disappear. -/
def PassAnswers : (c : Call) → Resp c → Prop
  | .updateNode _, r => r = .ok ()
  | c, r => Answers c r

/-- What the loop of `tick` holds: the pods still to come and its copies of the nodes. -/
structure Holds (rest : List Pod) (pass : Pass) (h : CallHist) : Prop where
  idle : due h = none
  nodup : (rest.map Pod.id).Nodup
  pods : ∀ p ∈ rest, knownPod h p.id = some p ∧ p.status = .pending
  nodes : ∀ n ∈ pass.nodes, knownNode h n.id = some n

variable {h h' : CallHist} {rest : List Pod} {pass : Pass} {p : Pod}

theorem Holds.tail (hk : Holds (p :: rest) pass h) (ht : Touched (· = p.id) nothing h h') (hdue : due h' = none) :
    Holds rest pass h' := by
  obtain ⟨-, hnd, hpods, hnodes⟩ := hk
  rw [List.map_cons, List.nodup_cons] at hnd
  refine ⟨hdue, hnd.2, fun q hq => ?_, fun n hn => ?_⟩
  · rw [ht.pods q.id fun heq => hnd.1 (heq ▸ List.mem_map_of_mem hq)]
    exact hpods q (List.mem_cons_of_mem _ hq)
  · rw [ht.nodes n.id id]
    exact hnodes n hn

theorem dispatch_dispatching [A : Arith] {n : Node} {r : Except StoreErr Deployment} (hk : Holds (p :: rest) pass h)
    (hn : n ∈ pass.nodes) (hr : ⟨.getDeployment p.deploymentID, r⟩ ∈ h) :
    Sat PassAnswers Dispatching (fun h pass => Holds rest pass h) h (dispatch pass p n (requiredOf r)) := by
  obtain ⟨hp, hst⟩ := hk.pods p List.mem_cons_self
  refine sat_bind (sat_ask ⟨hk.idle, p, n, rfl, hp, hst⟩ fun res _ => ?_)
  have ht₁ : Touched (· = p.id) nothing h _ := touched_updatePod (assigned p n) res
  cases res with
  | error e => exact sat_pure (hk.tail ht₁ (due_snoc _ _))
  | ok _ =>
    refine sat_bind (sat_bind (sat_ask (due_snoc _ _) fun t _ => ?_))
    have ht₂ := ht₁.trans (touched_quiet rfl rfl t).quiet
    generalize hh₂ : (h ++ [⟨.updatePod (assigned p n), .ok ()⟩]) ++ [⟨.now, t⟩] = h₂ at ht₂ ⊢
    have hdue₂ : due h₂ = none := by rw [← hh₂]; exact due_snoc _ _
    have hknown : knownPod h₂ p.id = some (assigned p n) := by
      rw [← hh₂, knownPod_other rfl, knownPod_snoc]
      simp
    have hmem : ⟨.getDeployment p.deploymentID, r⟩ ∈ h₂ := by
      rw [← hh₂]
      exact List.mem_append_left _ (List.mem_append_left _ hr)
    refine sat_ask ⟨hdue₂, rfl, assigned p n, hknown, rfl, hst⟩ fun res _ => ?_
    have ht₃ : Touched (· = p.id) nothing h _ := ht₂.trans (touched_transitionPod p.id .scheduled "" t res)
    cases res with
    | error e => exact sat_pure (hk.tail ht₃ (due_snoc _ _))
    | ok _ =>
      -- the pod is due: the next call takes it off the node
      have hnode : knownNode (h₂ ++ [⟨.transitionPod p.id .scheduled "" t, .ok ()⟩]) n.id = some n := by
        rw [ht₃.nodes n.id id]
        exact hk.nodes n hn
      refine sat_bind (sat_ask ⟨assigned p n, n, r, by rw [due_snoc]; exact hknown, rfl, hnode,
        List.mem_append_left _ hmem, rfl⟩ fun res hres => sat_pure ?_)
      obtain rfl : res = .ok () := hres
      have hk₃ := hk.nodup
      rw [List.map_cons, List.nodup_cons] at hk₃
      refine ⟨due_snoc _ _, hk₃.2, fun q hq => ?_, fun m hm => ?_⟩
      · rw [(touched_updateNode (reserve n (requiredOf r)) (.ok ())).pods q.id id,
          ht₃.pods q.id fun heq => hk₃.1 (heq ▸ List.mem_map_of_mem hq)]
        exact hk.pods q (List.mem_cons_of_mem _ hq)
      · obtain ⟨m₀, hm₀, rfl⟩ := List.mem_map.mp hm
        by_cases hid : m₀.id = n.id
        · rw [knownNode_snoc]
          simp [hid]
        · rw [if_neg hid, (touched_updateNode (reserve n (requiredOf r)) (.ok ())).nodes m₀.id hid,
            ht₃.nodes m₀.id id]
          exact hk.nodes m₀ hm₀

theorem schedulePod_dispatching [A : Arith] (now : Time) (hk : Holds (p :: rest) pass h) :
    Sat PassAnswers Dispatching (fun h pass => Holds rest pass h) h (schedulePod now pass p) := by
  unfold schedulePod
  split
  · exact sat_pure (hk.tail (.refl _ _ h) hk.idle)
  · refine sat_bind (sat_ask hk.idle fun r _ => ?_)
    have ht : Touched nothing nothing h (h ++ [⟨.getDeployment p.deploymentID, r⟩]) := touched_quiet rfl rfl r
    simp only
    split
    · exact sat_pure (hk.tail ht.quiet (due_snoc _ _))
    · next n hsel =>
      have hk₁ : Holds (p :: rest) pass (h ++ [⟨.getDeployment p.deploymentID, r⟩]) :=
        ⟨due_snoc _ _, hk.nodup, fun q hq => by rw [ht.pods q.id id]; exact hk.pods q hq,
          fun m hm => by rw [ht.nodes m.id id]; exact hk.nodes m hm⟩
      exact dispatch_dispatching hk₁ (selectNode_qualifies hsel).1 (by simp)

/-- **A pass, call by call.** -/
theorem tick_dispatching [A : Arith] (now : Time) :
    Sat PassAnswers Dispatching (fun h _ => due h = none) [] (tick now) := by
  refine sat_bind (sat_ask rfl fun r hr => ?_)
  obtain ⟨s, s', ⟨listed, rfl, hperm⟩, -⟩ := hr
  refine sat_bind (sat_ask (due_snoc _ _) fun r hr => ?_)
  obtain ⟨s₁, s₁', ⟨nodes, rfl, hnperm⟩, -⟩ := hr
  generalize hh : ([] ++ [⟨Call.listPodsByStatus .pending, .ok listed⟩] ++
    [⟨Call.listNodes, .ok nodes⟩] : CallHist) = h₂
  have hsorted := (sortByCreatedAt_perm listed).trans hperm
  have hstart : Holds (sortByCreatedAt listed) { nodes } h₂ := by
    refine ⟨by rw [← hh]; exact due_snoc _ _, nodup_of_perm_filter hsorted, fun p hp => ⟨?_, ?_⟩, fun n hn => ?_⟩
    · rw [← hh, knownPod_snoc, knownPod_snoc]
      exact find_or_of_mem (nodup_of_perm_filter hperm) ((sortByCreatedAt_perm listed).mem_iff.mp hp) _
    · simpa using ((mem_of_perm_filter hsorted).mp hp).2
    · rw [← hh, knownNode_snoc]
      exact find_or_of_mem (nodup_of_perm_filter hnperm) hn _
  refine sat_bind (sat_foldlM (fun rest pass h => Holds rest pass h)
    (fun p rest pass h hk => schedulePod_dispatching now hk) hstart fun pass h hk => ?_)
  exact sat_bind (sat_ask hk.idle fun t _ => sat_pure (due_snoc _ _))

/-! ## Fresh writes -/

/-- A write finds its record exactly as the execution last read or wrote it. -/
def freshIn (h : CallHist) (s : Store) : Call → Prop
  | .updatePod p => knownPod h p.id = s.pods.get p.id
  | .transitionPod id _ _ _ => knownPod h id = s.pods.get id
  | .updateNode n => knownNode h n.id = s.nodes.get n.id
  | _ => True

instance (h : CallHist) (s : Store) (c : Call) : Decidable (freshIn h s c) := by
  cases c <;> unfold freshIn <;> infer_instance

def Fresh {ι : Type} (x : CallStep ι) : Prop := freshIn (x.src.threads x.label.1).hist x.src.state x.label.2.1

instance {ι : Type} (x : CallStep ι) : Decidable (Fresh x) := by unfold Fresh; infer_instance

def looks : Call → Bool
  | .listPodsByStatus _ | .listNodes | .getDeployment _ | .now => true
  | _ => false

/-- What a fresh call of a pass does: look, assign a pending pod, move it, or take it off its node. -/
inductive PassCall [A : Arith] (h : CallHist) (s : Store) : (Σ c : Call, Resp c) → Store → Prop where
  | look (c : Call) (r : Resp c) : looks c = true → due h = none → Exec c s r s → PassCall h s ⟨c, r⟩ s
  | assign (q : Pod) (n : Node) : due h = none → s.pods.get q.id = some q → q.status = .pending →
      PassCall h s ⟨.updatePod (assigned q n), .ok ()⟩ (s.putPod (assigned q n))
  | move (p : Pod) (msg : String) (t : Time) : due h = none → knownPod h p.id = some p →
      s.pods.get p.id = some p → p.status = .pending →
      PassCall h s ⟨.transitionPod p.id .scheduled msg t, .ok ()⟩ (s.putPod (Store.movePod p .scheduled msg t))
  | take (p : Pod) (n : Node) (r : Except StoreErr Deployment) : due h = some p → p.nodeID = n.id →
      s.nodes.get n.id = some n → ⟨.getDeployment p.deploymentID, r⟩ ∈ h →
      PassCall h s ⟨.updateNode (reserve n (requiredOf r)), .ok ()⟩ (s.putNode (reserve n (requiredOf r)))

theorem passCall_of_fresh [A : Arith] {s s' : Store} {c : Call} {r : Resp c} (hE : Exec c s r s') (hd : Dispatching h c)
    (hf : freshIn h s c) : PassCall h s ⟨c, r⟩ s' := by
  cases c with
  | updatePod p =>
    obtain ⟨hdue, q, n, rfl, hq, hst⟩ := hd
    replace hf : knownPod h q.id = s.pods.get q.id := hf
    rw [hq] at hf
    replace hE : (r, s') = s.updatePod (assigned q n) := hE
    rw [Store.updatePod_some (p := assigned q n) hf.symm] at hE
    obtain ⟨rfl, rfl⟩ := Prod.mk.inj hE
    exact .assign q n hdue hf.symm hst
  | transitionPod id dest msg t =>
    obtain ⟨hdue, rfl, p, hp, rfl, hst⟩ := hd
    replace hf : knownPod h p.id = s.pods.get p.id := hf
    rw [hp] at hf
    replace hE : (r, s') = s.transitionPod p.id .scheduled msg t := hE
    rw [Store.transitionPod_of hf.symm (by rw [hst]; rfl)] at hE
    obtain ⟨rfl, rfl⟩ := Prod.mk.inj hE
    exact .move p msg t hdue hp hf.symm hst
  | updateNode m =>
    obtain ⟨p, n, d, hdue, hnode, hn, hd, rfl⟩ := hd
    replace hf : knownNode h n.id = s.nodes.get n.id := hf
    rw [hn] at hf
    replace hE : (r, s') = s.updateNode (reserve n (requiredOf d)) := hE
    rw [Store.updateNode_some (n := reserve n (requiredOf d)) hf.symm] at hE
    obtain ⟨rfl, rfl⟩ := Prod.mk.inj hE
    exact .take p n d hdue hnode hf.symm hd
  | listPodsByStatus st => obtain ⟨hl, rfl⟩ := hE; exact .look _ _ rfl hd ⟨hl, rfl⟩
  | listNodes => obtain ⟨hl, rfl⟩ := hE; exact .look _ _ rfl hd ⟨hl, rfl⟩
  | getDeployment id => obtain ⟨hl, rfl⟩ := hE; exact .look _ _ rfl hd ⟨hl, rfl⟩
  | now => obtain rfl : s' = s := hE; exact .look _ _ rfl hd rfl
  | _ => exact hd.elim

/-- Step `x` moves pod `k` to `SCHEDULED`. -/
def movesPod {ι : Type} (k : String) (x : CallStep ι) : Bool :=
  match x.label.2 with
  | ⟨.transitionPod id .scheduled _ _, .ok _⟩ => id == k
  | _ => false

def scheduledIn (t : Store) (k : String) : Prop := ∃ p, t.pods.get k = some p ∧ p.status = .scheduled

/-- A scheduled pod is left alone. -/
theorem PassCall.keeps_scheduled [A : Arith] {t t' : Store} {ev : Σ c : Call, Resp c} {k : String}
    (hcall : PassCall h t ev t') (hk : scheduledIn t k) : scheduledIn t' k := by
  obtain ⟨p, hp, hst⟩ := hk
  have hother : ∀ {q q' : Pod}, t.pods.get q.id = some q → q.status = .pending → q'.id = q.id →
      scheduledIn (t.putPod q') k := by
    intro q q' hq hpend hid
    refine ⟨p, ?_, hst⟩
    rw [Store.putPod_pods, Table.get_put_ne]
    · exact hp
    · rintro rfl
      rw [hid, hq] at hp
      obtain rfl : q = p := by simpa using hp
      rw [hpend] at hst
      cases hst
  cases hcall with
  | look => exact ⟨p, hp, hst⟩
  | assign q n _ hq hpend => exact hother hq hpend rfl
  | move q msg t _ _ hq hpend => exact hother hq hpend rfl
  | take q n r _ _ _ _ => exact ⟨p, hp, hst⟩

/-- A pod is moved only while it is pending. -/
theorem PassCall.moves [A : Arith] {ι : Type} {cfg cfg' : Concurrent ι} {i : ι} {ev : Σ c : Call, Resp c} {k : String}
    (hcall : PassCall h cfg.state ev cfg'.state) (hm : movesPod k ⟨cfg, (i, ev), cfg'⟩ = true) :
    ¬ scheduledIn cfg.state k ∧ scheduledIn cfg'.state k := by
  generalize hs : cfg'.state = t' at hcall ⊢
  cases hcall with
  | look c r hlook => cases c <;> first | cases hm | cases hlook
  | assign => cases hm
  | move p msg t _ _ hp hst =>
    obtain rfl : p.id = k := by simpa [movesPod] using hm
    refine ⟨?_, _, Table.get_put_self cfg.state.pods (Store.movePod p .scheduled msg t), rfl⟩
    rintro ⟨q, hq, hsch⟩
    obtain rfl : p = q := by rw [hp] at hq; simpa using hq
    rw [hst] at hsch
    cases hsch
  | take => cases hm

/-! ## Reservations -/

/-- The node with the requests of all these pods taken off, one after another. -/
def reserveAll [A : Arith] (s : Store) (n : Node) (pods : List Pod) : Node :=
  pods.foldl (fun n p => reserve n (requiredFor s p)) n

theorem reserveAll_snoc [A : Arith] (s : Store) (n : Node) (l : List Pod) (p : Pod) :
    reserveAll s n (l ++ [p]) = reserve (reserveAll s n l) (requiredFor s p) := by
  simp [reserveAll]

/-- The integers of the node that a reservation changes are results already. -/
def Typed [A : Arith] (n : Node) : Prop :=
  A.int n.available.memoryMB = n.available.memoryMB ∧ A.int n.runningJobs = n.runningJobs

/-- **What reservations change**: the requests are taken off, the jobs counted, and the rest stays.  Integers may be
wrapped once at the end; how the CPU comes out may depend on the order. -/
theorem reserveAll_eq [A : Arith] {n : Node} (hn : Typed n) (s : Store) (l : List Pod) : reserveAll s n l = { n with
    available :=
      { cpu := l.foldl (fun c p => A.sub c (requiredFor s p).cpu) n.available.cpu
        memoryMB := A.int (n.available.memoryMB - (l.map fun p => (requiredFor s p).memoryMB).sum) }
    runningJobs := A.int (n.runningJobs + l.length) } := by
  induction l using List.reverseRecOn with
  | nil =>
    simp only [List.foldl_nil, List.map_nil, List.sum_nil, List.length_nil, Nat.cast_zero, sub_zero, add_zero, hn.1,
      hn.2]
    rfl
  | append_singleton l p ih =>
    rw [reserveAll_snoc, ih]
    simp only [reserve, A.int_int_sub, A.int_int_add, List.foldl_append, List.foldl_cons, List.foldl_nil,
      List.map_append, List.map_cons, List.map_nil, List.sum_append, List.sum_cons, List.sum_nil, List.length_append,
      List.length_cons, List.length_nil, Node.mk.injEq, ResourceCapacity.mk.injEq, true_and, and_true]
    refine ⟨?_, ?_⟩
    · congr 1
      ring
    · congr 1
      push_cast
      ring

/-- One more element passes the filter. -/
theorem filter_perm_cons {α : Type} {l : List α} {f g : α → Bool} {a : α} (hnd : l.Nodup) (ha : a ∈ l)
    (hf : f a = false) (hg : g a = true) (hsame : ∀ x ∈ l, x ≠ a → g x = f x) :
    (l.filter g).Perm (a :: l.filter f) := by
  have hnew : a ∉ l.filter f := fun hin => by simp [hf] at hin
  refine (List.perm_ext_iff_of_nodup (hnd.filter g) (List.nodup_cons.mpr ⟨hnew, hnd.filter f⟩)).mpr fun x => ?_
  rw [List.mem_filter, List.mem_cons, List.mem_filter]
  by_cases hx : x = a
  · subst hx
    simp [ha, hg]
  · constructor
    · rintro ⟨hin, hgx⟩
      exact .inr ⟨hin, by rw [← hsame x hin hx]; exact hgx⟩
    · rintro (heq | ⟨hin, hfx⟩)
      · exact absurd heq hx
      · exact ⟨hin, by rw [hsame x hin hx]; exact hfx⟩

/-! ## The books -/

/-- `p`, pending at first, is scheduled on node `k` in `t`. -/
def arrived (t : Store) (k : String) (p : Pod) : Bool :=
  p.status == .pending && (t.pods.get p.id).any fun q => q.status == .scheduled && q.nodeID == k

/-- The pods of `s` that were pending and are scheduled on node `k` in `t`. -/
def arrivals (s t : Store) (k : String) : List Pod := s.pods.rows.filter (arrived t k)

section Books

variable {ι : Type}

/-- No pass has pod `id` moved and not yet taken off a node. -/
noncomputable def quiet (d : ι → Option Pod) (id : String) : Bool :=
  open Classical in decide (∀ i q, d i = some q → q.id ≠ id)

theorem quiet_iff {d : ι → Option Pod} {id : String} : quiet d id = true ↔ ∀ i q, d i = some q → q.id ≠ id := by
  simp [quiet]

noncomputable def settled (t : Store) (d : ι → Option Pod) (k : String) (p : Pod) : Bool :=
  arrived t k p && quiet d p.id

/-- The store `t` that the passes have made of `s`; `d i` is the pod that pass `i` has
moved and not yet taken off a node. -/
structure Booked [A : Arith] (s t : Store) (d : ι → Option Pod) : Prop where
  pods : ∀ k p, t.pods.get k = some p →
    ∃ p₀, s.pods.get k = some p₀ ∧ p.deploymentID = p₀.deploymentID ∧ (p₀.status ≠ .pending → p = p₀)
  due : ∀ i p, d i = some p →
    (∃ q, t.pods.get p.id = some q ∧ q.status = .scheduled ∧ q.nodeID = p.nodeID ∧ q.deploymentID = p.deploymentID) ∧
    ∃ p₀, s.pods.get p.id = some p₀ ∧ p₀.status = .pending
  once : ∀ i j p q, d i = some p → d j = some q → p.id = q.id → i = j
  nodes : ∀ k n₀, s.nodes.get k = some n₀ →
    ∃ l, l.Perm (s.pods.rows.filter (settled t d k)) ∧ t.nodes.get k = some (reserveAll s n₀ l)

variable {s t : Store} {d : ι → Option Pod}

/-- A pod that is stored pending has not arrived anywhere. -/
theorem not_arrived {q p : Pod} {k : String} (hq : t.pods.get p.id = some q) (hst : q.status = .pending) :
    arrived t k p = false := by
  unfold arrived
  rw [hq]
  simp [hst]

theorem arrived_put_ne {q : Pod} {k : String} {p : Pod} (hne : p.id ≠ q.id) :
    arrived (t.putPod q) k p = arrived t k p := by
  unfold arrived
  rw [Store.putPod_pods, Table.get_put_ne hne]

theorem Booked.start [A : Arith] (s : Store) : Booked s s (fun _ : ι => none) := by
  refine ⟨fun k p hp => ⟨p, hp, rfl, fun _ => rfl⟩, fun i p hp => (by cases hp), fun i j p q hp => (by cases hp),
    fun k n₀ hn => ?_⟩
  have hnone : s.pods.rows.filter (settled s (fun _ : ι => none) k) = [] := by
    rw [List.filter_eq_nil_iff]
    intro p hp
    have hget := Table.get_of_mem hp
    by_cases hst : p.status = .pending
    · simp [settled, not_arrived hget hst]
    · simp [settled, arrived, hst]
  rw [hnone]
  exact ⟨[], .refl _, hn⟩

/-- A pending pod can only be one that was pending at first. -/
theorem Booked.pending [A : Arith] (h : Booked s t d) {k : String} {p : Pod} (hp : t.pods.get k = some p)
    (hst : p.status = .pending) : ∃ p₀, s.pods.get k = some p₀ ∧ p.deploymentID = p₀.deploymentID ∧
      p₀.status = .pending := by
  obtain ⟨p₀, hp₀, hdep, hkeep⟩ := h.pods k p hp
  refine ⟨p₀, hp₀, hdep, ?_⟩
  by_contra hne
  rw [← hkeep hne] at hne
  exact hne hst

/-- A pending pod is not due. -/
theorem Booked.not_due [A : Arith] (h : Booked s t d) {p : Pod} (hp : t.pods.get p.id = some p)
    (hst : p.status = .pending) {i : ι} {q : Pod} (hq : d i = some q) : q.id ≠ p.id := by
  intro heq
  obtain ⟨⟨q', hq', hsch, -⟩, -⟩ := h.due i q hq
  rw [heq, hp] at hq'
  obtain rfl : p = q' := by simpa using hq'
  rw [hst] at hsch
  cases hsch

/-- Overwriting a pending pod with a copy of the same deployment keeps the pods in order. -/
theorem Booked.pods_put [A : Arith] (h : Booked s t d) {p q : Pod} (hp : t.pods.get p.id = some p)
    (hst : p.status = .pending) (hid : q.id = p.id) (hdep : q.deploymentID = p.deploymentID) :
    ∀ k p', (t.putPod q).pods.get k = some p' →
      ∃ p₀, s.pods.get k = some p₀ ∧ p'.deploymentID = p₀.deploymentID ∧ (p₀.status ≠ .pending → p' = p₀) := by
  intro k p' hp'
  rw [Store.putPod_pods, Table.get_put] at hp'
  by_cases hk : k = q.id
  · obtain rfl : q = p' := by simpa [hk] using hp'
    obtain ⟨p₀, hp₀, hdep₀, hpend⟩ := h.pending hp hst
    exact ⟨p₀, by rw [hk, hid]; exact hp₀, hdep.trans hdep₀, fun hne => absurd hpend hne⟩
  · exact h.pods k p' (by simpa [hk] using hp')

theorem Booked.assign [A : Arith] (h : Booked s t d) {q : Pod} {n : Node} (hq : t.pods.get q.id = some q)
    (hst : q.status = .pending) : Booked s (t.putPod (assigned q n)) d := by
  refine ⟨h.pods_put hq hst rfl rfl, fun i p hp => ?_, h.once, fun k n₀ hn => ?_⟩
  · obtain ⟨⟨p', hp', hrest⟩, hinit⟩ := h.due i p hp
    have hne : p.id ≠ (assigned q n).id := h.not_due hq hst hp
    refine ⟨⟨p', ?_, hrest⟩, hinit⟩
    rw [Store.putPod_pods, Table.get_put_ne hne]
    exact hp'
  · -- neither before nor after has the pod arrived
    have hsame : settled (t.putPod (assigned q n)) d k = settled t d k := by
      funext p
      unfold settled
      by_cases hid : p.id = q.id
      · have hget : (t.putPod (assigned q n)).pods.get p.id = some (assigned q n) := by
          rw [hid]
          exact Table.get_put_self t.pods (assigned q n)
        rw [not_arrived hget hst, not_arrived (hid ▸ hq) hst]
      · rw [arrived_put_ne (q := assigned q n) hid]
    rw [hsame]
    exact h.nodes k n₀ hn

/-- The pod that pass `i` is to take off its node, as it was at first. -/
theorem Booked.due_first [A : Arith] (h : Booked s t d) {i : ι} {p : Pod} (hi : d i = some p) :
    ∃ p₀, s.pods.get p.id = some p₀ ∧ requiredFor s p = requiredFor s p₀ ∧ quiet d p₀.id = false ∧
      ∀ k, arrived t k p₀ = decide (p.nodeID = k) := by
  obtain ⟨⟨q, hq, hsch, hqnode, hqdep⟩, p₀, hp₀, hpend⟩ := h.due i p hi
  have hid₀ : p₀.id = p.id := Table.key_of_get hp₀
  refine ⟨p₀, hp₀, ?_, ?_, fun k => ?_⟩
  · obtain ⟨p₁, hp₁, hdep, -⟩ := h.pods p.id q hq
    obtain rfl : p₀ = p₁ := by rw [hp₀] at hp₁; simpa using hp₁
    unfold requiredFor
    rw [← hqdep, hdep]
  · rw [← Bool.not_eq_true, quiet_iff]
    exact fun hall => hall i p hi hid₀.symm
  · unfold arrived
    rw [hid₀, hq]
    simp [hpend, hsch, hqnode]
    rfl

/-- With nothing due, what has arrived is settled. -/
theorem settled_of_idle (hd : ∀ i, d i = none) (k : String) : settled t d k = arrived t k := by
  funext p
  have hq : quiet d p.id = true := by
    rw [quiet_iff]
    intro i q hq
    rw [hd i] at hq
    cases hq
  simp [settled, hq]

variable [DecidableEq ι]

theorem update_some_cases {i j : ι} {p q : Pod} (hq : Function.update d i (some p) j = some q) :
    j = i ∧ q = p ∨ d j = some q := by
  by_cases hj : j = i
  · subst hj
    rw [Function.update_self] at hq
    exact .inl ⟨rfl, by simpa using hq.symm⟩
  · rw [Function.update_of_ne hj] at hq
    exact .inr hq

theorem update_none_iff {i j : ι} {q : Pod} : Function.update d i none j = some q ↔ j ≠ i ∧ d j = some q := by
  by_cases hj : j = i
  · subst hj
    simp
  · simp [hj]

/-- Once pass `i` has moved a pod, that pod is not quiet and no other pod's state changes. -/
theorem quiet_move {i : ι} (hi : d i = none) (p : Pod) (id : String) :
    quiet (Function.update d i (some p)) id = (quiet d id && decide (p.id ≠ id)) := by
  rw [Bool.eq_iff_iff, Bool.and_eq_true, quiet_iff, quiet_iff, decide_eq_true_eq]
  constructor
  · refine fun hall => ⟨fun j q hq => ?_, hall i p (Function.update_self ..)⟩
    have hj : j ≠ i := by
      rintro rfl
      rw [hi] at hq
      cases hq
    exact hall j q (by rw [Function.update_of_ne hj]; exact hq)
  · rintro ⟨hall, hne⟩ j q hq
    rcases update_some_cases hq with ⟨-, rfl⟩ | hq
    · exact hne
    · exact hall j q hq

/-- Once pass `i` has taken its pod off a node, that pod is quiet and no other pod's state changes. -/
theorem Booked.quiet_take [A : Arith] (h : Booked s t d) {i : ι} {p : Pod} (hi : d i = some p) (id : String) :
    quiet (Function.update d i none) id = (quiet d id || decide (p.id = id)) := by
  rw [Bool.eq_iff_iff, Bool.or_eq_true, quiet_iff, quiet_iff, decide_eq_true_eq]
  constructor
  · intro hall
    by_cases hid : p.id = id
    · exact .inr hid
    · refine .inl fun j q hq => ?_
      by_cases hj : j = i
      · subst hj
        obtain rfl : p = q := by rw [hi] at hq; simpa using hq
        exact hid
      · exact hall j q (update_none_iff.mpr ⟨hj, hq⟩)
  · rintro (hall | rfl) j q hq
    · exact hall j q (update_none_iff.mp hq).2
    · obtain ⟨hj, hq⟩ := update_none_iff.mp hq
      exact fun heq => hj (h.once j i q p hq hi heq)

theorem Booked.move [A : Arith] (h : Booked s t d) {i : ι} {p : Pod} {msg : String} {at' : Time} (hi : d i = none)
    (hp : t.pods.get p.id = some p) (hst : p.status = .pending) :
    Booked s (t.putPod (Store.movePod p .scheduled msg at')) (Function.update d i (some p)) := by
  have hself : (t.putPod (Store.movePod p .scheduled msg at')).pods.get p.id =
      some (Store.movePod p .scheduled msg at') := Table.get_put_self t.pods (Store.movePod p .scheduled msg at')
  refine ⟨h.pods_put hp hst rfl rfl, fun j q hq => ?_, fun j j' q q' hq hq' heq => ?_, fun k n₀ hn => ?_⟩
  · rcases update_some_cases hq with ⟨-, rfl⟩ | hq
    · obtain ⟨p₀, hp₀, -, hpend⟩ := h.pending hp hst
      exact ⟨⟨_, hself, rfl, rfl, rfl⟩, p₀, hp₀, hpend⟩
    · obtain ⟨⟨q', hq', hrest⟩, hinit⟩ := h.due j q hq
      refine ⟨⟨q', ?_, hrest⟩, hinit⟩
      rw [Store.putPod_pods, Table.get_put_ne (a := Store.movePod p .scheduled msg at') (h.not_due hp hst hq)]
      exact hq'
  · rcases update_some_cases hq with ⟨rfl, rfl⟩ | hold
    · rcases update_some_cases hq' with ⟨rfl, -⟩ | hold'
      · rfl
      · exact absurd heq.symm (h.not_due hp hst hold')
    · rcases update_some_cases hq' with ⟨rfl, rfl⟩ | hold'
      · exact absurd heq (h.not_due hp hst hold)
      · exact h.once j j' q q' hold hold' heq
  · -- the pod has arrived, but it is due
    have hsame : settled (t.putPod (Store.movePod p .scheduled msg at')) (Function.update d i (some p)) k =
        settled t d k := by
      funext q
      unfold settled
      rw [quiet_move hi]
      by_cases hid : q.id = p.id
      · have hpending : arrived t k q = false := not_arrived (hid ▸ hp) hst
        rw [hpending]
        simp [hid]
      · rw [arrived_put_ne (q := Store.movePod p .scheduled msg at') hid]
        simp [Ne.symm hid]
    rw [hsame]
    exact h.nodes k n₀ hn

/-- Only the pod just taken off becomes settled, and only on its node. -/
theorem Booked.settled_take [A : Arith] (h : Booked s t d) {i : ι} {p p₀ : Pod} {k : String} (hi : d i = some p)
    (hp₀ : s.pods.get p.id = some p₀) (harr : arrived t k p₀ = decide (p.nodeID = k)) {x : Pod}
    (hx : x ∈ s.pods.rows) :
    settled t (Function.update d i none) k x = if x = p₀ then decide (p.nodeID = k) else settled t d k x := by
  have hid₀ : p₀.id = p.id := Table.key_of_get hp₀
  unfold settled
  rw [h.quiet_take hi]
  split
  · next heq =>
    rw [heq, harr, hid₀]
    simp
  · next hne =>
    have hxid : p.id ≠ x.id := by
      intro heq
      have hget := Table.get_of_mem hx
      rw [← heq, hp₀] at hget
      exact hne (by simpa using hget.symm)
    simp [hxid]

theorem Booked.take [A : Arith] (h : Booked s t d) {i : ι} {p : Pod} {n : Node} (hi : d i = some p)
    (hnode : p.nodeID = n.id) (hn : t.nodes.get n.id = some n) :
    Booked s (t.putNode (reserve n (requiredFor s p))) (Function.update d i none) := by
  refine ⟨h.pods, fun j q hq => h.due j q (update_none_iff.mp hq).2,
    fun j j' a b ha hb => h.once j j' a b (update_none_iff.mp ha).2 (update_none_iff.mp hb).2, fun k n₀ hn₀ => ?_⟩
  obtain ⟨p₀, hp₀, hreq, hbusy, harr⟩ := h.due_first hi
  have hin : p₀ ∈ s.pods.rows := Table.mem_of_get hp₀
  have hafter : ∀ x ∈ s.pods.rows, settled t (Function.update d i none) k x = _ :=
    fun x hx => h.settled_take hi hp₀ (harr k) hx
  rw [hnode] at hafter
  obtain ⟨l, hl, hbefore⟩ := h.nodes k n₀ hn₀
  show ∃ l, l.Perm (s.pods.rows.filter (settled t (Function.update d i none) k)) ∧
    (t.putNode (reserve n (requiredFor s p))).nodes.get k = some (reserveAll s n₀ l)
  rw [Store.putNode_nodes, Table.get_put, reserve_id]
  by_cases hk : k = n.id
  · have hmore : (s.pods.rows.filter (settled t (Function.update d i none) k)).Perm
        (p₀ :: s.pods.rows.filter (settled t d k)) := by
      refine filter_perm_cons (List.Nodup.of_map _ s.pods.nodup) hin ?_ ?_ fun x hx hne => ?_
      · simp [settled, hbusy]
      · rw [hafter p₀ hin]
        simp [hk]
      · rw [hafter x hx, if_neg hne]
    -- the pod is the last one taken off so far
    have hlast : (l ++ [p₀]).Perm (s.pods.rows.filter (settled t (Function.update d i none) k)) :=
      ((List.perm_append_singleton p₀ l).trans (hl.cons p₀)).trans hmore.symm
    have hstored : n = reserveAll s n₀ l := by
      rw [hk, hn] at hbefore
      exact Option.some.inj hbefore
    refine ⟨l ++ [p₀], hlast, ?_⟩
    rw [if_pos hk, reserveAll_snoc, ← hstored, hreq]
  · have hsame : s.pods.rows.filter (settled t (Function.update d i none) k) =
        s.pods.rows.filter (settled t d k) := by
      refine List.filter_congr fun x hx => ?_
      rw [hafter x hx]
      split
      · next heq => simp [heq, settled, hbusy, Ne.symm hk]
      · rfl
    rw [if_neg hk, hsame]
    exact ⟨l, hl, hbefore⟩

/-! ## Interleaved passes -/

/-- The pods that the passes have moved and not yet taken off a node. -/
def dues (cfg : Concurrent ι) : ι → Option Pod := fun i => due (cfg.hist i)

structure InOrder [A : Arith] (s : Store) (cfg : Concurrent ι) : Prop where
  booked : Booked s cfg.state (dues cfg)
  deployments : cfg.state.deployments = s.deployments
  asked : ∀ i id r, ⟨.getDeployment id, r⟩ ∈ cfg.hist i → r = s.getDeployment id

variable {cfg : Concurrent ι} {i : ι} {c : Call} {k : Resp c → M (Option Response)} {r : Resp c} {s' : Store}

theorem dues_push : dues (cfg.push i ⟨k r, h ++ [⟨c, r⟩]⟩ s') = Function.update (dues cfg) i (dueAfter h ⟨c, r⟩) := by
  funext j
  unfold dues
  by_cases hj : j = i
  · subst hj
    rw [Config.push_hist_self, Function.update_self, due_snoc]
  · rw [Config.push_hist_ne _ _ _ hj, Function.update_of_ne hj]

theorem mem_push_hist {j : ι} {ev : Σ c : Call, Resp c} (hi : cfg.threads i = ⟨.call c k, h⟩)
    (hev : ev ∈ (cfg.push i ⟨k r, h ++ [⟨c, r⟩]⟩ s').hist j) : ev ∈ cfg.hist j ∨ ev = ⟨c, r⟩ := by
  by_cases hj : j = i
  · subst hj
    rw [Config.push_hist_self] at hev
    rw [Config.hist_of_threads hi]
    simpa using hev
  · rw [Config.push_hist_ne _ _ _ hj] at hev
    exact .inl hev

theorem InOrder.step [A : Arith] (hJ : InOrder s cfg) (hi : cfg.threads i = ⟨.call c k, h⟩)
    (hcall : PassCall h cfg.state ⟨c, r⟩ s') : InOrder s (cfg.push i ⟨k r, h ++ [⟨c, r⟩]⟩ s') := by
  have hh : cfg.hist i = h := Config.hist_of_threads hi
  have hdue : dues cfg i = due h := by unfold dues; rw [hh]
  have hstate : (cfg.push i ⟨k r, h ++ [⟨c, r⟩]⟩ s').state = s' := rfl
  have hdues : dues (cfg.push i ⟨k r, h ++ [⟨c, r⟩]⟩ s') = _ := dues_push
  have hmem : ∀ j ev, ev ∈ (cfg.push i ⟨k r, h ++ [⟨c, r⟩]⟩ s').hist j → ev ∈ cfg.hist j ∨ ev = ⟨c, r⟩ :=
    fun _ _ hev => mem_push_hist hi hev
  generalize cfg.push i ⟨k r, h ++ [⟨c, r⟩]⟩ s' = cfg' at hstate hdues hmem ⊢
  obtain ⟨hbooked, hdep, hasked⟩ := hJ
  cases hcall with
  | look _ _ hlook hidle hE =>
    have hnone : dueAfter h ⟨c, r⟩ = dues cfg i := by
      rw [hdue, hidle]
      cases c <;> first | rfl | cases hlook
    rw [hnone, Function.update_eq_self] at hdues
    refine ⟨by rw [hstate, hdues]; exact hbooked, by rw [hstate]; exact hdep, fun j id r' hev => ?_⟩
    rcases hmem j _ hev with hev | hev
    · exact hasked j id r' hev
    · cases hev
      rw [hE.1]
      unfold Store.getDeployment
      rw [hdep]
  | assign q n hidle hq hst =>
    have hnone : dueAfter h ⟨.updatePod (assigned q n), .ok ()⟩ = dues cfg i := by rw [hdue, hidle]; rfl
    rw [hnone, Function.update_eq_self] at hdues
    exact ⟨by rw [hstate, hdues]; exact hbooked.assign hq hst, by rw [hstate]; exact hdep,
      fun j id r' hev => hasked j id r' ((hmem j _ hev).resolve_right nofun)⟩
  | move p msg t hidle hknown hp hst =>
    have hsome : dueAfter h ⟨.transitionPod p.id .scheduled msg t, .ok ()⟩ = some p := hknown
    rw [hsome] at hdues
    exact ⟨by rw [hstate, hdues]; exact hbooked.move (hdue.trans hidle) hp hst, by rw [hstate]; exact hdep,
      fun j id r' hev => hasked j id r' ((hmem j _ hev).resolve_right nofun)⟩
  | take p n d hp hnode hn hev =>
    have hreq : requiredOf d = requiredFor s p := by
      rw [hasked i _ d (hh ▸ hev)]
      rfl
    have hnone : dueAfter h ⟨.updateNode (reserve n (requiredOf d)), .ok ()⟩ = none := rfl
    rw [hnone] at hdues
    exact ⟨by rw [hstate, hdues, hreq]; exact hbooked.take (hdue.trans hp) hnode hn, by rw [hstate]; exact hdep,
      fun j id r' hev => hasked j id r' ((hmem j _ hev).resolve_right nofun)⟩

/-- A fresh call of a pass is answered as the pass expects, and keeps the books in order. -/
theorem InOrder.call [A : Arith] (hJ : InOrder s cfg) (hi : cfg.threads i = ⟨.call c k, h⟩) (hd : Dispatching h c)
    (hE : Exec c cfg.state r s') (hf : Fresh ⟨cfg, (i, ⟨c, r⟩), cfg.push i ⟨k r, h ++ [⟨c, r⟩]⟩ s'⟩) :
    PassAnswers c r ∧ InOrder s (cfg.push i ⟨k r, h ++ [⟨c, r⟩]⟩ s') := by
  have hf : freshIn h cfg.state c := by
    unfold Fresh at hf
    simpa only [hi] using hf
  have hcall := passCall_of_fresh hE hd hf
  refine ⟨?_, hJ.step hi hcall⟩
  cases hcall with
  | look _ _ hlook => cases c <;> first | exact ⟨_, _, hE⟩ | cases hlook
  | assign => exact ⟨_, _, hE⟩
  | move => exact ⟨_, _, hE⟩
  | take => rfl

variable {timeout : Duration} {now : ι → Time} {tr : List (CallStep ι)}

/-- The passes over any arithmetic: a node ends with the reservations of the pods that arrived, in some order. -/
theorem passes_reserve [A : Arith]
    (h : Run (Config.Next Exec) (launch timeout s fun i => .schedulerTick (now i)) tr cfg)
    (hfresh : ∀ x ∈ tr, Fresh x) :
    (∀ k, tr.countP (movesPod k) ≤ 1) ∧
    ((∀ i, (cfg.threads i).finished) → ∀ k n₀, s.nodes.get k = some n₀ →
      ∃ l, l.Perm (arrivals s cfg.state k) ∧ cfg.state.nodes.get k = some (reserveAll s n₀ l)) := by
  have hprog : ∀ i, Sat PassAnswers Dispatching (fun h (_ : Option Response) => due h = none) []
      (Event.prog timeout (.schedulerTick (now i))) := fun i =>
    sat_bind ((tick_dispatching (now i)).mono (fun _ _ hd => hd) fun _ _ hq => sat_pure hq)
  have hstart : InOrder s (launch timeout s fun i => .schedulerTick (now i)) :=
    ⟨.start s, rfl, fun _ _ _ hev => by cases hev⟩
  have hstep : ∀ (cfg : Concurrent ι) i c k hist r s', InOrder s cfg → cfg.threads i = ⟨.call c k, hist⟩ →
      Dispatching hist c → Exec c cfg.state r s' →
      Fresh ⟨cfg, (i, ⟨c, r⟩), cfg.push i ⟨k r, hist ++ [⟨c, r⟩]⟩ s'⟩ →
      PassAnswers c r ∧ InOrder s (cfg.push i ⟨k r, hist ++ [⟨c, r⟩]⟩ s') :=
    fun _ _ _ _ _ _ _ hJ hi hd hE hf => hJ.call hi hd hE hf
  have hcalls : ∀ x ∈ tr, ∃ hist, PassCall hist x.src.state x.label.2 x.dst.state := by
    intro x hx
    have hd := (Run.interleave_step (InOrder s) Fresh hstep hprog hstart h hfresh x hx).2
    have hf := hfresh x hx
    obtain ⟨-, -, -, -, hnext⟩ := h.before hx
    obtain ⟨cfg₁, l, cfg₂⟩ := x
    change Config.Next Exec cfg₁ l cfg₂ at hnext
    obtain ⟨i, c, k, hist, r, hi, hE⟩ := hnext
    exact ⟨_, passCall_of_fresh hE hd hf⟩
  refine ⟨fun k => ?_, fun hfin k n₀ hn₀ => ?_⟩
  · refine Run.once (fun cfg => scheduledIn cfg.state k) (movesPod k) h (fun x hx hk => ?_) fun x hx hm => ?_
    · obtain ⟨hist, hcall⟩ := hcalls x hx
      exact hcall.keeps_scheduled hk
    · obtain ⟨hist, hcall⟩ := hcalls x hx
      exact hcall.moves (i := x.label.1) hm
  · obtain ⟨hJ, hsat⟩ := Run.interleave (InOrder s) Fresh hstep hprog hstart h hfresh
    have hidle : ∀ i, dues cfg i = none := by
      intro i
      obtain ⟨a, ha⟩ := hfin i
      have hnone := hsat i
      rw [ha] at hnone
      exact hnone
    obtain ⟨l, hl, hget⟩ := hJ.booked.nodes k n₀ hn₀
    rw [settled_of_idle hidle] at hl
    exact ⟨l, hl, hget⟩

/-- **Concurrent passes.**  If every write of every pass finds its record as that pass last
read or wrote it, each pod is moved to `SCHEDULED` at most once, and when all passes are
done each node carries the reservations of exactly the pods that arrived on it: in `int`s of 64 bits, and with the
CPU requests subtracted one after another in `float64`. -/
theorem passes_account_of_fresh
    (h : Run (Config.Next Exec) (launch (A := .go) timeout s fun i => .schedulerTick (now i)) tr cfg)
    (hfresh : ∀ x ∈ tr, Fresh x) :
    (∀ k, tr.countP (movesPod k) ≤ 1) ∧
    ((∀ i, (cfg.threads i).finished) →
      ∀ k n₀, s.nodes.get k = some n₀ → IsInt64 n₀.available.memoryMB → IsInt64 n₀.runningJobs →
        ∃ (n : Node) (l : List Pod), cfg.state.nodes.get k = some n ∧ l.Perm (arrivals s cfg.state k) ∧
          n.available.memoryMB = wrapInt64 (n₀.available.memoryMB - (l.map fun p => (requiredFor s p).memoryMB).sum) ∧
          n.available.cpu = l.foldl (fun c p => Float64.sub c (requiredFor s p).cpu) n₀.available.cpu ∧
          n.runningJobs = wrapInt64 (n₀.runningJobs + l.length)) := by
  obtain ⟨honce, hbooks⟩ := passes_reserve (A := .go) h hfresh
  refine ⟨honce, fun hfin k n₀ hn₀ hmem hjobs => ?_⟩
  obtain ⟨l, hl, hget⟩ := hbooks hfin k n₀ hn₀
  rw [reserveAll_eq (A := .go) ⟨wrapInt64_of hmem, wrapInt64_of hjobs⟩] at hget
  exact ⟨_, l, hget, hl, rfl, rfl, rfl⟩

end Books

/-- A node with 0.3 of a CPU left, and a pod that asks for 0.1. -/
def smallNode : Node :=
  { id := "small", status := .healthy, available := ⟨mkRat 5404319552844595 18014398509481984, 50⟩ }

def firstPod : Pod := { id := "first", deploymentID := "light", status := .pending, createdAt := 1 }

/-- Two nodes and two pods; the later pod waits for its backoff, and has room on the larger node only. -/
def stagedStore : Store :=
  (((((({} : Store).putDeployment
    { id := "light", resources := ⟨mkRat 3602879701896397 36028797018963968, 40⟩, status := .active }).putDeployment
    { id := "heavy", resources := ⟨1, 90⟩, status := .active }).putNode smallNode).putNode
    { id := "big", status := .healthy, available := ⟨4, 100⟩, registeredAt := 1 }).putPod firstPod).putPod
    { id := "second", deploymentID := "heavy", status := .pending, createdAt := 2, runAfter := 6 }

def stagedPasses (b : Bool) : Event := .schedulerTick (if b then 7 else 5)

def stagedLaunch : Concurrent Bool := launch (A := .go) (15 * second) stagedStore stagedPasses

/-- The later pass lists the store while the earlier one has moved its pod and not yet taken it off the node, and
each reserves on its node while the other one is not done. -/
def stagedSchedule : List Bool :=
  List.replicate 6 false ++ List.replicate 4 true ++ [false, true, true, false, true, true]

/-- What is left of 0.3 is 0.19999999999999998. -/
theorem passes_account_overlapping :
    (∀ x ∈ interleaving 7 stagedLaunch stagedSchedule, Fresh x) ∧
    (∀ k, (interleaving 7 stagedLaunch stagedSchedule).countP (movesPod k) ≤ 1) ∧
    (∀ i, ((interleaved 7 stagedLaunch stagedSchedule).threads i).finished) ∧
    (arrivals stagedStore (interleaved 7 stagedLaunch stagedSchedule).state "big").map Pod.id = ["second"] ∧
    arrivals stagedStore (interleaved 7 stagedLaunch stagedSchedule).state "small" = [firstPod] ∧
    ∃ n, (interleaved 7 stagedLaunch stagedSchedule).state.nodes.get "small" = some n ∧
      n.available.memoryMB = 10 ∧ n.available.cpu = mkRat 7205759403792793 36028797018963968 ∧ n.runningJobs = 1 := by
  have hfresh : ∀ x ∈ interleaving 7 stagedLaunch stagedSchedule, Fresh x := by decide +kernel
  have hdone : ∀ i, ((interleaved 7 stagedLaunch stagedSchedule).threads i).finished := by decide +kernel
  have hone : arrivals stagedStore (interleaved 7 stagedLaunch stagedSchedule).state "small" = [firstPod] := by
    decide +kernel
  obtain ⟨honce, hbooks⟩ := passes_account_of_fresh (run_interleaving 7 stagedLaunch stagedSchedule) hfresh
  obtain ⟨n, l, hn, hl, hmem, hcpu, hjobs⟩ :=
    hbooks hdone "small" smallNode (by decide +kernel) (by decide) (by decide)
  rw [hone] at hl
  obtain rfl := List.perm_singleton.mp hl
  refine ⟨hfresh, honce, hdone, by decide +kernel, hone, n, hn, ?_, ?_, ?_⟩
  · rw [hmem]
    decide +kernel
  · rw [hcpu]
    decide +kernel
  · rw [hjobs]
    decide +kernel

/-- A pod of `startedRun` before the first pass. -/
def pendingStore : Store := (Sys.init.applyAll (15 * second) (startedRun.take 3)).store

/-- Both passes list the pending pod; the first dispatches it, the second writes its pending copy
back and moves the pod again. -/
theorem pass_moves_twice :
    ¬ ∀ (timeout : Duration) (s : Store) (now : Bool → Time) (tr : List (CallStep Bool)) (cfg : Concurrent Bool),
      Run (Config.Next Exec) (launch (A := .go) timeout s fun i => .schedulerTick (now i)) tr cfg →
      ∀ k, tr.countP (movesPod k) ≤ 1 := by
  intro h
  have honce := h (15 * second) pendingStore (fun _ => 7) _ _
    (run_interleaving 7 _ ([false, false] ++ List.replicate 8 true ++ List.replicate 6 false)) "pod_00000002"
  revert honce
  decide +kernel

end ControlPlane.Scheduler
