import Mathlib.Tactic

/-!
# Runs of a labelled transition system

`Run next s tr s'`: the steps `tr`, each allowed by `next`, lead from `s` to `s'`.
A property of every state reached is a property of `s'` for every such run, since
each prefix of a run is a run.

* `Run.inv`: the invariant rule, under a condition `G` that every step meets;
  `Run.inv_hist` is the same for an invariant that also speaks of the steps taken.
* `keeps_of_chain`: the same for a chain of unlabelled steps.
* `Run.project`: a part of the machine, seen alone.
* `Run.script`: stages that the labels of a script lead through, whatever steps come in between.
* `Run.last_write`: what only some steps write is as the last of them left it.
* `Run.forall_iff`: when a condition decides at each step whether the step has a
  property and keeps the invariant, it decides it for whole runs.
* `stepsOf`, `stateAfter`: a machine given by a partial function, run on a list of labels.
* `answers_related`: two machines that answer alike from related states, and stay
  related, answer alike to every list of calls.
-/

namespace Lib

theorem keeps_of_chain {S : Type} {r : S → S → Prop} {s s' : S} (I : S → Prop) (hI : ∀ s s', r s s' → I s → I s')
    (h : Relation.ReflTransGen r s s') (hs : I s) : I s' := by
  induction h with
  | refl => exact hs
  | tail _ hr ih => exact hI _ _ hr ih

/-- One step of a run. -/
structure Step (S L : Type) where
  src : S
  label : L
  dst : S

inductive Run {S L : Type} (next : S → L → S → Prop) (s : S) : List (Step S L) → S → Prop where
  | nil : Run next s [] s
  | snoc {tr : List (Step S L)} {t t' : S} (l : L) :
      Run next s tr t → next t l t' → Run next s (tr ++ [⟨t, l, t'⟩]) t'

namespace Run

variable {S L : Type} {next : S → L → S → Prop} {s s' : S} {tr : List (Step S L)}

theorem forall_snoc {P : Step S L → Prop} {x : Step S L} :
    (∀ y ∈ tr ++ [x], P y) ↔ (∀ y ∈ tr, P y) ∧ P x := by
  simp only [List.mem_append, List.mem_singleton, or_imp, forall_and, forall_eq]

theorem countP_snoc (M : Step S L → Bool) (tr : List (Step S L)) (x : Step S L) :
    (tr ++ [x]).countP M = tr.countP M + (M x).toNat := by
  rw [List.countP_append, List.countP_singleton]
  cases M x <;> rfl

theorem inv (I : S → Prop) (G : Step S L → Prop)
    (hstep : ∀ x : Step S L, next x.src x.label x.dst → G x → I x.src → I x.dst)
    (h0 : I s) (h : Run next s tr s') (hG : ∀ x ∈ tr, G x) : I s' := by
  induction h with
  | nil => exact h0
  | snoc l _ hn ih =>
    rw [forall_snoc] at hG
    exact hstep _ hn hG.2 (ih hG.1)

/-- The invariant rule with the history in hand. -/
theorem inv_hist (I : List (Step S L) → S → Prop) (G : Step S L → Prop)
    (hstep : ∀ (tr : List (Step S L)) (x : Step S L), next x.src x.label x.dst → G x → I tr x.src →
      I (tr ++ [x]) x.dst)
    (h0 : I [] s) (h : Run next s tr s') (hG : ∀ x ∈ tr, G x) : I tr s' := by
  induction h with
  | nil => exact h0
  | snoc l _ hn ih =>
    rw [forall_snoc] at hG
    exact hstep _ _ hn hG.2 (ih hG.1)

/-- Each step of a run starts where a shorter run ends. -/
theorem before {x : Step S L} (h : Run next s tr s') (hx : x ∈ tr) :
    ∃ tr₁ tr₂, tr = tr₁ ++ x :: tr₂ ∧ Run next s tr₁ x.src ∧ next x.src x.label x.dst := by
  induction h with
  | nil => cases hx
  | @snoc tr t t' l hr hn ih =>
    rcases List.mem_append.mp hx with hx | hx
    · obtain ⟨tr₁, tr₂, rfl, hrun, hnext⟩ := ih hx
      exact ⟨tr₁, tr₂ ++ [⟨t, l, t'⟩], by simp, hrun, hnext⟩
    · obtain rfl : x = ⟨t, l, t'⟩ := by simpa using hx
      exact ⟨tr, [], rfl, hr, hn⟩

theorem append_inv {tr₁ tr₂ : List (Step S L)} (h : Run next s (tr₁ ++ tr₂) s') :
    ∃ t, Run next s tr₁ t ∧ Run next t tr₂ s' := by
  generalize htr : tr₁ ++ tr₂ = tr at h
  induction h generalizing tr₂ with
  | nil =>
    obtain ⟨rfl, rfl⟩ := List.append_eq_nil_iff.mp htr
    exact ⟨s, .nil, .nil⟩
  | @snoc tr t t' l hr hn ih =>
    rcases List.eq_nil_or_concat tr₂ with rfl | ⟨tr₃, x, rfl⟩
    · rw [List.append_nil] at htr
      subst htr
      exact ⟨t', hr.snoc l hn, .nil⟩
    · rw [List.concat_eq_append, ← List.append_assoc] at htr
      rw [List.concat_eq_append]
      obtain ⟨hinit, hx⟩ := List.append_inj' htr rfl
      obtain rfl : x = ⟨t, l, t'⟩ := by simpa using hx
      obtain ⟨u, h1, h2⟩ := ih hinit
      exact ⟨u, h1, h2.snoc l hn⟩

/-- A run is a run up to any of its steps, the step, and a run from where the step ends. -/
theorem split {tr₁ tr₂ : List (Step S L)} {x : Step S L} (h : Run next s (tr₁ ++ x :: tr₂) s') :
    Run next s tr₁ x.src ∧ next x.src x.label x.dst ∧ Run next x.dst tr₂ s' := by
  rw [show tr₁ ++ x :: tr₂ = (tr₁ ++ [x]) ++ tr₂ by simp] at h
  obtain ⟨t, h1, h2⟩ := h.append_inv
  generalize htr : tr₁ ++ [x] = tr at h1
  cases h1 with
  | nil => simp at htr
  | snoc l hr hn =>
    obtain ⟨rfl, hx⟩ := List.append_inj' htr rfl
    obtain rfl := List.singleton_inj.mp hx
    exact ⟨hr, hn, h2⟩

theorem after {tr₁ tr₂ : List (Step S L)} {x : Step S L} (h : Run next s (tr₁ ++ x :: tr₂) s') :
    Run next x.dst tr₂ s' := h.split.2.2

/-- What every step keeps stays from any state of the run to its end. -/
theorem stays_after (P : S → Prop) (h : Run next s tr s') (hstep : ∀ x ∈ tr, P x.src → P x.dst) :
    ∀ x ∈ tr, P x.dst → P s' := by
  induction h with
  | nil => intro x hx; cases hx
  | @snoc tr t t' l _ hn ih =>
    rw [forall_snoc] at hstep
    intro x hx hP
    rcases List.mem_append.mp hx with hx | hx
    · exact hstep.2 (ih hstep.1 x hx hP)
    · obtain rfl : x = ⟨t, l, t'⟩ := by simpa using hx
      exact hP

theorem stays (P : S → Prop) (h : Run next s tr s') (hstep : ∀ x ∈ tr, P x.src → P x.dst) :
    ∀ x ∈ tr, P x.src → P s' := fun x hx hP => h.stays_after P hstep x hx (hstep x hx hP)

/-- A run seen through `f`: the steps that `g` names are steps of the other machine, the others do not show. -/
theorem project {S' L' : Type} {next' : S' → L' → S' → Prop} (f : S → S') (g : L → Option L')
    (hsome : ∀ s l s' l', next s l s' → g l = some l' → next' (f s) l' (f s'))
    (hnone : ∀ s l s', next s l s' → g l = none → f s' = f s) (h : Run next s tr s') :
    Run next' (f s) (tr.filterMap fun x => (g x.label).map fun l => ⟨f x.src, l, f x.dst⟩) (f s') := by
  induction h with
  | nil => exact .nil
  | @snoc tr t t' l _ hn ih =>
    rw [List.filterMap_append]
    cases hl : g l with
    | none =>
      rw [hnone t l t' hn hl]
      simpa [hl] using ih
    | some l' => simpa [hl] using ih.snoc l' (hsome t l t' l' hn hl)

/-- A script of labels that occur in a run in this order: where every step keeps the stage and the next label of the
script leads to the next stage, the run ends in the last one. -/
theorem script (stage : Nat → S → Prop) (labels : List L)
    (hkeep : ∀ i s l s', next s l s' → stage i s → stage i s')
    (hnext : ∀ i l s s', labels[i]? = some l → next s l s' → stage i s → stage (i + 1) s') (h0 : stage 0 s)
    (h : Run next s tr s') (hsub : labels.Sublist (tr.map Step.label)) : stage labels.length s' := by
  have key (k : Nat) (hk : k ≤ labels.length) : (labels.take k).Sublist (tr.map Step.label) → stage k s' := by
    clear hsub
    induction h generalizing k with
    | nil =>
      intro hsub
      have hnil : labels.take k = [] := List.sublist_nil.mp hsub
      obtain rfl : k = 0 := by
        have hlen := congrArg List.length hnil
        rw [List.length_take, List.length_nil] at hlen
        omega
      exact h0
    | @snoc tr t t' l _ hn ih =>
      intro hsub
      rw [List.map_append, List.sublist_append_iff] at hsub
      obtain ⟨l₁, l₂, hsplit, h₁, h₂⟩ := hsub
      rcases List.sublist_singleton.mp h₂ with rfl | rfl
      · rw [List.append_nil] at hsplit
        exact hkeep k t l t' hn (ih k hk (hsplit ▸ h₁))
      · -- the last label of the script so far is that of the last step
        have hlen := congrArg List.length hsplit
        rw [List.length_take, List.length_append, List.length_singleton] at hlen
        obtain ⟨i, rfl⟩ : ∃ i, k = i + 1 := ⟨l₁.length, by omega⟩
        have hi : l₁.length = i := by omega
        have hlast : labels[i]? = some l := by
          have hget := congrArg (fun m : List L => m[i]?) hsplit
          simp only [List.getElem?_take, Nat.lt_succ_self, if_true] at hget
          rw [hget, List.getElem?_append_right (by omega), hi]
          simp
        have hfirst : labels.take i = l₁ := by
          have htake := congrArg (List.take i) hsplit
          rw [List.take_take, min_eq_left (by omega), List.take_left' hi] at htake
          exact htake
        exact hnext i l t t' hlast hn (ih i (by omega) (hfirst ▸ h₁))
  exact key labels.length le_rfl (by rw [List.take_length]; exact hsub)

/-- What only the steps in `M` write is, in the end, as the last of them left it. -/
theorem last_write {V : Type} (get : S → V) (M : Step S L → Prop)
    (hkeep : ∀ x : Step S L, next x.src x.label x.dst → ¬ M x → get x.dst = get x.src) (h : Run next s tr s') :
    ((∀ x ∈ tr, ¬ M x) ∧ get s' = get s) ∨
      ∃ tr₁ x tr₂, tr = tr₁ ++ x :: tr₂ ∧ M x ∧ (∀ y ∈ tr₂, ¬ M y) ∧ get s' = get x.dst := by
  induction h with
  | nil => exact .inl ⟨by simp, rfl⟩
  | @snoc tr t t' l _ hn ih =>
    by_cases hM : M ⟨t, l, t'⟩
    · exact .inr ⟨tr, ⟨t, l, t'⟩, [], rfl, hM, by simp, rfl⟩
    · have hsame : get t' = get t := hkeep ⟨t, l, t'⟩ hn hM
      rcases ih with ⟨hnone, hget⟩ | ⟨tr₁, x, tr₂, rfl, hx, hlast, hget⟩
      · exact .inl ⟨forall_snoc.mpr ⟨hnone, hM⟩, hsame.trans hget⟩
      · exact .inr ⟨tr₁, x, tr₂ ++ [⟨t, l, t'⟩], by simp, hx, forall_snoc.mpr ⟨hlast, hM⟩, hsame.trans hget⟩

theorem unwritten {V : Type} (get : S → V) (M : Step S L → Prop)
    (hkeep : ∀ x : Step S L, next x.src x.label x.dst → ¬ M x → get x.dst = get x.src) (h : Run next s tr s')
    (hM : ∀ x ∈ tr, ¬ M x) : get s' = get s := by
  rcases h.last_write get M hkeep with ⟨-, hget⟩ | ⟨tr₁, x, tr₂, rfl, hx, -, -⟩
  · exact hget
  · exact absurd hx (hM x (by simp))

/-- What is only done where it is not yet done, and then stays done, is done at most once. -/
theorem once (P : S → Prop) (M : Step S L → Bool) (h : Run next s tr s') (hkeep : ∀ x ∈ tr, P x.src → P x.dst)
    (hdo : ∀ x ∈ tr, M x = true → ¬ P x.src ∧ P x.dst) : tr.countP M ≤ 1 := by
  suffices key : tr.countP M = 0 ∨ tr.countP M = 1 ∧ P s' by omega
  induction h with
  | nil => exact .inl rfl
  | @snoc tr t t' l _ hn ih =>
    rw [forall_snoc] at hkeep hdo
    rw [List.countP_append, List.countP_singleton]
    rcases ih hkeep.1 hdo.1 with h0 | ⟨h1, hP⟩
    · rw [h0]
      by_cases hM : M ⟨t, l, t'⟩ = true
      · exact .inr ⟨by simp [hM], (hdo.2 hM).2⟩
      · exact .inl (by simp [hM])
    · have hM : ¬ M ⟨t, l, t'⟩ = true := fun hM => (hdo.2 hM).1 hP
      exact .inr ⟨by simp [h1, hM], hkeep.2 hP⟩

theorem forall_iff (I : S → Prop) (G P C : Step S L → Prop)
    (hstep : ∀ x : Step S L, next x.src x.label x.dst → G x → I x.src → (P x ↔ C x) ∧ (C x → I x.dst))
    (h0 : I s) (h : Run next s tr s') (hG : ∀ x ∈ tr, G x) : (∀ x ∈ tr, P x) ↔ ∀ x ∈ tr, C x := by
  suffices key : ((∀ x ∈ tr, P x) ↔ ∀ x ∈ tr, C x) ∧ ((∀ x ∈ tr, C x) → I s') from key.1
  induction h with
  | nil => exact ⟨by simp, fun _ => h0⟩
  | @snoc tr t t' l _ hn ih =>
    rw [forall_snoc] at hG
    obtain ⟨hiff, hinv⟩ := ih hG.1
    simp only [forall_snoc]
    -- the invariant holds before the last step as soon as the steps so far meet the condition
    constructor
    · constructor
      · rintro ⟨hP, hx⟩
        have hC := hiff.mp hP
        exact ⟨hC, (hstep ⟨t, l, t'⟩ hn hG.2 (hinv hC)).1.mp hx⟩
      · rintro ⟨hC, hx⟩
        exact ⟨hiff.mpr hC, (hstep ⟨t, l, t'⟩ hn hG.2 (hinv hC)).1.mpr hx⟩
    · rintro ⟨hC, hx⟩
      exact (hstep ⟨t, l, t'⟩ hn hG.2 (hinv hC)).2 hx

end Run

/-! ## Machines given by a function -/

section Function

variable {S L : Type} (act : S → L → Option S)

/-- The steps that a list of labels gives, as far as they are possible. -/
def stepsOf : S → List L → List (Step S L)
  | _, [] => []
  | s, l :: ls =>
    match act s l with
    | some s' => ⟨s, l, s'⟩ :: stepsOf s' ls
    | none => []

def stateAfter : S → List L → S
  | s, [] => s
  | s, l :: ls =>
    match act s l with
    | some s' => stateAfter s' ls
    | none => s

theorem run_stepsOf {next : S → L → S → Prop} (hact : ∀ s l s', act s l = some s' → next s l s') {s₀ s : S}
    {tr : List (Step S L)} (h : Run next s₀ tr s) (ls : List L) :
    Run next s₀ (tr ++ stepsOf act s ls) (stateAfter act s ls) := by
  induction ls generalizing tr s with
  | nil => simpa [stepsOf, stateAfter] using h
  | cons l ls ih =>
    unfold stepsOf stateAfter
    cases ha : act s l with
    | none => simpa using h
    | some s' =>
      have hnext := ih (h.snoc l (hact s l s' ha))
      simpa using hnext

end Function

/-! ## Machines that answer calls -/

variable {I S T A B : Type}

/-- The answers of a machine to a list of calls. -/
def answers (step : I → S → A × S) : List I → S → List A
  | [], _ => []
  | i :: is, s => (step i s).1 :: answers step is (step i s).2

theorem answers_related {f : I → S → A × S} {g : I → T → B × T} (R : S → T → Prop) (Q : A → B → Prop)
    (G : I → Prop) (hstep : ∀ i s t, G i → R s t → Q (f i s).1 (g i t).1 ∧ R (f i s).2 (g i t).2)
    {is : List I} {s : S} {t : T} (hG : ∀ i ∈ is, G i) (h : R s t) :
    List.Forall₂ Q (answers f is s) (answers g is t) := by
  induction is generalizing s t with
  | nil => exact .nil
  | cons i is ih =>
    obtain ⟨hQ, hR⟩ := hstep i s t (hG i List.mem_cons_self) h
    exact .cons hQ (ih (fun j hj => hG j (List.mem_cons_of_mem i hj)) hR)

end Lib
