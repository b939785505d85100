import Mathlib.Data.List.Forall2
import InfraPlatform.Lib.Interleave

/-!
# Interleavings on another store, and restarts

Programs interleave on a store `S'` that is to stand in for `S`.

* `Run.simulate`: if related stores answer every disciplined call alike and stay related, an interleaving on `S'` is
  one on `S`, with the same calls and answers, step by step.
* `Lives`: one store and several lives of a process on it.  A life starts its programs afresh and may end anywhere.
* `Lives.simulate`: the same for all lives together.
-/

namespace Lib

variable {ι C S S' α : Type} {R : C → Type}

theorem exists_of_forall₂ {α β : Type} {r : α → β → Prop} {l : List α} {l' : List β} (h : List.Forall₂ r l l') {b : β}
    (hb : b ∈ l') : ∃ a ∈ l, r a b := by
  induction h with
  | nil => cases hb
  | cons hr _ ih =>
    rcases List.mem_cons.mp hb with rfl | hb
    · exact ⟨_, List.mem_cons_self, hr⟩
    · obtain ⟨a, ha, hab⟩ := ih hb
      exact ⟨a, List.mem_cons_of_mem _ ha, hab⟩

/-- The same threads make the same call, between related stores. -/
structure Alike (T : S → S' → Prop) (x : Step (Config ι C R α S) (ι × (Σ c : C, R c)))
    (y : Step (Config ι C R α S') (ι × (Σ c : C, R c))) : Prop where
  label : x.label = y.label
  src : T x.src.state y.src.state
  dst : T x.dst.state y.dst.state

variable [DecidableEq ι]

/-- What a store must do to stand in for another, as far as calls in `D` go. -/
structure StandsIn (E : Effect C R S) (F : Effect C R S') (A : (c : C) → R c → Prop) (D : C → Prop)
    (T : S → S' → Prop) : Prop where
  step : ∀ {c s t r t'}, T s t → D c → F c t r t' → ∃ s', E c s r s' ∧ T s' t' ∧ A c r
  answers : ∀ {c s t}, T s t → D c → ∃ r t', F c t r t'

section Simulate

variable {E : Effect C R S} {F : Effect C R S'} {A : (c : C) → R c → Prop} {D : C → Prop} {T : S → S' → Prop}
  {Q : Hist C R → α → Prop} {s : S} {t : S'} {P : ι → Prog C R α}

theorem Run.simulate (hF : StandsIn E F A D T) (hP : ∀ i, Prog.Sat A (fun _ => D) Q [] (P i)) (h0 : T s t)
    {tr : List (Step (Config ι C R α S') (ι × (Σ c : C, R c)))} {cfg : Config ι C R α S'}
    (h : Run (Config.Next F) (Config.start t P) tr cfg) :
    ∃ tr₀ cfg₀, Run (Config.Next E) (Config.start s P) tr₀ cfg₀ ∧ List.Forall₂ (Alike T) tr₀ tr ∧
      cfg₀.threads = cfg.threads ∧ T cfg₀.state cfg.state ∧
      ∀ i, Prog.Sat A (fun _ => D) Q (cfg.hist i) (cfg.threads i).prog := by
  induction h with
  | nil => exact ⟨[], Config.start s P, .nil, .nil, rfl, h0, hP⟩
  | @snoc tr cfg cfg' l _ hn ih =>
    obtain ⟨tr₀, cfg₀, hrun, htr, hthreads, hT, hsat⟩ := ih
    obtain ⟨i, c, k, h, r, hi, hcall⟩ := hn
    have hmine : Prog.Sat A (fun _ => D) Q h (.call c k) := by
      have := hsat i
      rw [Config.hist_of_threads hi, hi] at this
      exact this
    obtain ⟨s', hE, hT', hA⟩ := hF.step hT hmine.1 hcall
    have hnext : Config.Next E cfg₀ (i, ⟨c, r⟩) (cfg₀.push i ⟨k r, h ++ [⟨c, r⟩]⟩ s') :=
      .mk i c k h r (by rw [hthreads, hi]) hE
    refine ⟨_, _, hrun.snoc _ hnext, List.rel_append htr (.cons ⟨rfl, hT, hT'⟩ .nil), ?_, hT', fun j => ?_⟩
    · unfold Config.push
      rw [hthreads]
    · by_cases hj : j = i
      · subst hj
        rw [Config.push_hist_self, Config.push_threads_self]
        exact hmine.2 r hA
      · rw [Config.push_hist_ne _ _ _ hj, Config.push_threads_ne _ _ _ hj]
        exact hsat j

/-- A schedule, with answers chosen by `f` among those the store may give. -/
theorem Run.of_schedule (hF : StandsIn E F A D T) (hP : ∀ i, Prog.Sat A (fun _ => D) Q [] (P i)) (h0 : T s t)
    (f : (c : C) → S' → R c × S') (hf : ∀ c s t, T s t → D c → F c t (f c t).1 (f c t).2) (is : List ι) :
    ∃ tr, Run (Config.Next F) (Config.start t P) tr ((Config.start t P).applyAll f is) := by
  induction is using List.reverseRecOn with
  | nil => exact ⟨[], .nil⟩
  | append_singleton is i ih =>
    obtain ⟨tr, hrun⟩ := ih
    obtain ⟨-, cfg₀, -, -, -, hT, hsat⟩ := Run.simulate hF hP h0 hrun
    rw [Config.applyAll, List.foldl_concat, ← Config.applyAll]
    generalize (Config.start t P).applyAll f is = cfg at hrun hT hsat
    cases hi : cfg.threads i with
    | mk prog past =>
      cases prog with
      | ret a =>
        have hap : cfg.apply f i = cfg := by unfold Config.apply; rw [hi]
        rw [hap]
        exact ⟨tr, hrun⟩
      | call c k =>
        have hap : cfg.apply f i =
            cfg.push i ⟨k (f c cfg.state).1, past ++ [⟨c, (f c cfg.state).1⟩]⟩ (f c cfg.state).2 := by
          unfold Config.apply; rw [hi]
        have hmine := hsat i
        rw [hi] at hmine
        rw [hap]
        exact ⟨_, hrun.snoc _ (.mk i c k past _ hi (hf c cfg₀.state cfg.state hT hmine.1))⟩

/-- No call is left without an answer. -/
theorem Run.answered (hF : StandsIn E F A D T) (hP : ∀ i, Prog.Sat A (fun _ => D) Q [] (P i)) (h0 : T s t)
    {tr : List (Step (Config ι C R α S') (ι × (Σ c : C, R c)))} {cfg : Config ι C R α S'}
    (h : Run (Config.Next F) (Config.start t P) tr cfg) {i : ι} {c : C} {k : R c → Prog C R α} {past : Hist C R}
    (hi : cfg.threads i = ⟨.call c k, past⟩) : ∃ r t', F c cfg.state r t' := by
  obtain ⟨-, cfg₀, -, -, -, hT, hsat⟩ := Run.simulate hF hP h0 h
  have hmine := hsat i
  rw [hi] at hmine
  exact hF.answers hT hmine.1

end Simulate

/-! ## Restarts -/

/-- The lives of a process: `P n` are the programs of the life after `n` others. -/
inductive Lives (E : Effect C R S) (P : Nat → ι → Prog C R α) (s : S) :
    List (List (Step (Config ι C R α S) (ι × (Σ c : C, R c)))) → S → Prop where
  | nil : Lives E P s [] s
  | snoc {trs : List (List (Step (Config ι C R α S) (ι × (Σ c : C, R c))))} {s₁ : S}
      {tr : List (Step (Config ι C R α S) (ι × (Σ c : C, R c)))} {cfg : Config ι C R α S} : Lives E P s trs s₁ →
      Run (Config.Next E) (Config.start s₁ (P trs.length)) tr cfg → Lives E P s (trs ++ [tr]) cfg.state

namespace Lives

variable {E : Effect C R S} {P : Nat → ι → Prog C R α} {s s' : S}
  {trs : List (List (Step (Config ι C R α S) (ι × (Σ c : C, R c))))}

/-- What every step of a life keeps of the store is kept from any moment to the end, through all restarts. -/
theorem keeps (I : S → Prop) (K : S → S → Prop) (hrefl : ∀ s, K s s)
    (htrans : ∀ s₁ s₂ s₃, K s₁ s₂ → K s₂ s₃ → K s₁ s₃)
    (hlife : ∀ n s₁ tr cfg, I s₁ → Run (Config.Next E) (Config.start s₁ (P n)) tr cfg →
      I cfg.state ∧ ∀ x ∈ tr, K x.src.state x.dst.state) (h0 : I s) (h : Lives E P s trs s') :
    I s' ∧ ∀ tr ∈ trs, ∀ x ∈ tr, K x.dst.state s' := by
  induction h with
  | nil => exact ⟨h0, by simp⟩
  | @snoc trs s₁ tr cfg _ hrun ih =>
    obtain ⟨hI, hmoments⟩ := ih
    obtain ⟨hI', hsteps⟩ := hlife _ s₁ tr cfg hI hrun
    refine ⟨hI', fun tr' htr' x hx => ?_⟩
    rcases List.mem_append.mp htr' with hold | hnew
    · exact Run.inv (fun c => K x.dst.state c.state) (fun y => K y.src.state y.dst.state)
        (fun y _ hy hK => htrans _ _ _ hK hy) (hmoments tr' hold x hx) hrun hsteps
    · obtain rfl := List.mem_singleton.mp hnew
      exact hrun.stays_after (fun c => K x.dst.state c.state) (fun y hy hK => htrans _ _ _ hK (hsteps y hy)) x hx
        (hrefl _)

theorem simulate {F : Effect C R S'} {A : (c : C) → R c → Prop} {D : C → Prop} {T : S → S' → Prop}
    {Q : Hist C R → α → Prop} (hF : StandsIn E F A D T) (hP : ∀ n i, Prog.Sat A (fun _ => D) Q [] (P n i)) {t t' : S'}
    {trs : List (List (Step (Config ι C R α S') (ι × (Σ c : C, R c))))} (h0 : T s t) (h : Lives F P t trs t') :
    ∃ trs₀ s', Lives E P s trs₀ s' ∧ List.Forall₂ (List.Forall₂ (Alike T)) trs₀ trs ∧ T s' t' := by
  induction h with
  | nil => exact ⟨[], s, .nil, .nil, h0⟩
  | @snoc trs t₁ tr cfg _ hrun ih =>
    obtain ⟨trs₀, s₁, hlives, htrs, hT⟩ := ih
    obtain ⟨tr₀, cfg₀, hrun₀, htr, -, hT', -⟩ := Run.simulate hF (hP trs.length) hT hrun
    rw [← htrs.length_eq] at hrun₀
    exact ⟨_, _, hlives.snoc hrun₀, List.rel_append htrs (.cons htr .nil), hT'⟩

end Lives

end Lib
