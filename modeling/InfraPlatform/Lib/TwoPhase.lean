import InfraPlatform.Lib.Interleave

/-!
# Exclusive interleavings are serializable

A state is seen as values at places (`Footprint.view`), and each call reads and
writes certain places.  A step is `Exclusive` if it reads no place that another
unfinished thread has written, and writes none that another unfinished thread has read
or written: what two-phase locking with locks held to the end enforces.

`serializable_of_exclusive`: an interleaving of exclusive steps leaves the same
values as running its threads one after the other, in the order in which they finished.
The invariant (`Serialized`) keeps the state that the finished threads alone
would have left, and for each unfinished thread a replay of its history from there.
-/

namespace Lib

variable {ι C S α X V : Type} {R : C → Type}

/-- The places a call reads and writes.  Writes change nothing else, and from a state that
agrees on what is read the same call gives the same answer and writes the same values. -/
structure Footprint (E : Effect C R S) (X V : Type) where
  view : S → X → V
  reads : C → Set X
  writes : C → Set X
  frame : ∀ {c s r s' x}, E c s r s' → x ∉ writes c → view s' x = view s x
  replay : ∀ {c s r s' t}, E c s r s' → (∀ x ∈ reads c, view t x = view s x) →
    ∃ t', E c t r t' ∧ ∀ x ∈ writes c, view t' x = view s' x

/-! ## Replays -/

/-- `p`, run from `s` along the history `h`, is at `q` in `t`. -/
inductive Replays (E : Effect C R S) (p : Prog C R α) (s : S) : Hist C R → Prog C R α → S → Prop where
  | nil : Replays E p s [] p s
  | snoc {h : Hist C R} {c : C} {k : R c → Prog C R α} {t t' : S} (r : R c) :
      Replays E p s h (.call c k) t → E c t r t' → Replays E p s (h ++ [⟨c, r⟩]) (k r) t'

theorem Replays.runs {E : Effect C R S} {p q : Prog C R α} {s t t' : S} {h : Hist C R} {a : α}
    (hr : Replays E p s h q t) (hq : Prog.Runs E q t a t') : Prog.Runs E p s a t' := by
  induction hr with
  | nil => exact hq
  | snoc r _ hE ih => exact ih (.call hE hq)

namespace Footprint

variable {E : Effect C R S} (F : Footprint E X V)

def readsOf (h : Hist C R) : Set X := { x | ∃ ev ∈ h, x ∈ F.reads ev.1 }

def writesOf (h : Hist C R) : Set X := { x | ∃ ev ∈ h, x ∈ F.writes ev.1 }

theorem mem_readsOf_snoc {h : Hist C R} {ev : Σ c : C, R c} {x : X} :
    x ∈ F.readsOf (h ++ [ev]) ↔ x ∈ F.readsOf h ∨ x ∈ F.reads ev.1 := by
  simp only [readsOf, Set.mem_ofPred_eq, List.mem_append, List.mem_singleton, or_and_right, exists_or, exists_eq_left]

theorem mem_writesOf_snoc {h : Hist C R} {ev : Σ c : C, R c} {x : X} :
    x ∈ F.writesOf (h ++ [ev]) ↔ x ∈ F.writesOf h ∨ x ∈ F.writes ev.1 := by
  simp only [writesOf, Set.mem_ofPred_eq, List.mem_append, List.mem_singleton, or_and_right, exists_or, exists_eq_left]

variable {F}

theorem replays_frame {p q : Prog C R α} {s t : S} {h : Hist C R} {x : X} (hr : Replays E p s h q t)
    (hx : x ∉ F.writesOf h) : F.view t x = F.view s x := by
  induction hr with
  | nil => rfl
  | snoc r _ hE ih =>
    rw [mem_writesOf_snoc, not_or] at hx
    rw [F.frame hE hx.2, ih hx.1]

/-- A replay goes through from any state that agrees on what its history read. -/
theorem replays_move {p q : Prog C R α} {s v t : S} {h : Hist C R} (hr : Replays E p s h q t)
    (hs : ∀ x ∈ F.readsOf h, F.view v x = F.view s x) :
    ∃ t', Replays E p v h q t' ∧ ∀ x ∈ F.writesOf h, F.view t' x = F.view t x := by
  induction hr with
  | nil => exact ⟨v, .nil, fun x hx => by obtain ⟨_, hev, _⟩ := hx; cases hev⟩
  | @snoc h c k t t₁ r hr hE ih =>
    obtain ⟨u, hu, hagree⟩ := ih fun x hx => hs x ((F.mem_readsOf_snoc).mpr (.inl hx))
    have hread : ∀ x ∈ F.reads c, F.view u x = F.view t x := by
      intro x hx
      by_cases hw : x ∈ F.writesOf h
      · exact hagree x hw
      · rw [replays_frame hu hw, replays_frame hr hw]
        exact hs x ((F.mem_readsOf_snoc).mpr (.inr hx))
    obtain ⟨u₁, hE', hwrite⟩ := F.replay hE hread
    refine ⟨u₁, .snoc r hu hE', fun x hx => ?_⟩
    by_cases hc : x ∈ F.writes c
    · exact hwrite x hc
    · rcases F.mem_writesOf_snoc.mp hx with hx | hx
      · rw [F.frame hE' hc, F.frame hE hc, hagree x hx]
      · exact absurd hx hc

end Footprint

/-! ## One after the other -/

/-- The threads of `order`, run one after the other. -/
inductive Serial (E : Effect C R S) (P : ι → Prog C R α) (s : S) : List ι → S → Prop where
  | nil : Serial E P s [] s
  | snoc {order : List ι} {t t' : S} {a : α} (i : ι) :
      Serial E P s order t → Prog.Runs E (P i) t a t' → Serial E P s (order ++ [i]) t'

variable {E : Effect C R S}

/-- The step reads and writes nothing that another unfinished thread still depends on. -/
def Exclusive (F : Footprint E X V) (x : Step (Config ι C R α S) (ι × (Σ c : C, R c))) : Prop :=
  ∀ j, j ≠ x.label.1 → ¬ (x.src.threads j).finished →
    (∀ y ∈ F.reads x.label.2.1, y ∉ F.writesOf (x.src.hist j)) ∧
    ∀ y ∈ F.writes x.label.2.1, y ∉ F.readsOf (x.src.hist j) ∧ y ∉ F.writesOf (x.src.hist j)

/-- `σ` is what the finished threads leave, run in `order`; the unfinished ones replay from there. -/
structure Serialized (F : Footprint E X V) (P : ι → Prog C R α) (s : S) (cfg : Config ι C R α S)
    (order : List ι) (σ : S) : Prop where
  serial : Serial E P s order σ
  nodup : order.Nodup
  done : ∀ i, i ∈ order ↔ (cfg.threads i).finished
  live : ∀ i, ¬ (cfg.threads i).finished → ∃ τ, Replays E (P i) σ (cfg.hist i) (cfg.threads i).prog τ ∧
    ∀ x ∈ F.writesOf (cfg.hist i), F.view cfg.state x = F.view τ x
  rest : ∀ x, (∀ i, ¬ (cfg.threads i).finished → x ∉ F.writesOf (cfg.hist i)) → F.view cfg.state x = F.view σ x
  apart : ∀ i j, i ≠ j → ¬ (cfg.threads i).finished → ¬ (cfg.threads j).finished →
    ∀ x ∈ F.writesOf (cfg.hist i), x ∉ F.readsOf (cfg.hist j) ∧ x ∉ F.writesOf (cfg.hist j)

variable {F : Footprint E X V} {P : ι → Prog C R α} {s : S}

/-- Before the first step: the threads without a single call are finished. -/
theorem Serialized.start [Fintype ι] : ∃ order, Serialized F P s (Config.start s P) order s := by
  classical
  refine ⟨(Finset.univ.filter fun i => ((Config.start s P).threads i).finished).toList, ?_, ?_, ?_, ?_, ?_, ?_⟩
  · have hall : ∀ l : List ι, (∀ i ∈ l, ∃ a, P i = .ret a) → Serial E P s l s := by
      intro l
      induction l using List.reverseRecOn with
      | nil => exact fun _ => .nil
      | append_singleton l i ih =>
        intro h
        obtain ⟨a, ha⟩ := h i (by simp)
        exact .snoc i (ih fun j hj => h j (List.mem_append_left _ hj)) (by rw [ha]; exact .ret)
    refine hall _ fun i hi => ?_
    have hfin : ((Config.start s P).threads i).finished := by simpa using hi
    exact hfin
  · exact Finset.nodup_toList _
  · simp
  · exact fun i _ => ⟨s, .nil, fun x hx => by obtain ⟨_, hev, _⟩ := hx; cases hev⟩
  · exact fun _ _ => rfl
  · intro i j _ _ _ x hx
    obtain ⟨_, hev, _⟩ := hx
    cases hev

variable [DecidableEq ι]

section Step

variable {cfg : Config ι C R α S} {order : List ι} {σ : S} {i : ι} {c : C} {k : R c → Prog C R α} {h : Hist C R}
  {r : R c} {s' : S}

/-- The replay of the thread that moves can make the same call. -/
theorem Serialized.replay_step (hI : Serialized F P s cfg order σ) (hi : cfg.threads i = ⟨.call c k, h⟩)
    (hE : E c cfg.state r s')
    (hex : ∀ j, j ≠ i → ¬ (cfg.threads j).finished → ∀ y ∈ F.reads c, y ∉ F.writesOf (cfg.hist j)) :
    ∃ τ, Replays E (P i) σ (h ++ [⟨c, r⟩]) (k r) τ ∧
      ∀ x ∈ F.writesOf (h ++ [⟨c, r⟩]), F.view s' x = F.view τ x := by
  obtain ⟨τ, hrep, hwrite⟩ := hI.live i (Thread.not_finished_of_call hi)
  rw [Config.hist_of_threads hi, hi] at hrep
  rw [Config.hist_of_threads hi] at hwrite
  have hread : ∀ x ∈ F.reads c, F.view τ x = F.view cfg.state x := by
    intro x hx
    by_cases hw : x ∈ F.writesOf h
    · exact (hwrite x hw).symm
    · rw [F.replays_frame hrep hw]
      refine (hI.rest x fun j hj => ?_).symm
      by_cases hji : j = i
      · subst hji
        rw [Config.hist_of_threads hi]
        exact hw
      · exact hex j hji hj x hx
  obtain ⟨τ', hE', hagree⟩ := F.replay hE hread
  refine ⟨τ', .snoc r hrep hE', fun x hx => ?_⟩
  by_cases hc : x ∈ F.writes c
  · exact (hagree x hc).symm
  · rcases F.mem_writesOf_snoc.mp hx with hx | hx
    · rw [F.frame hE hc, F.frame hE' hc]
      exact hwrite x hx
    · exact absurd hx hc

/-- Footprints stay apart. -/
theorem Serialized.apart_step (hI : Serialized F P s cfg order σ) (hi : cfg.threads i = ⟨.call c k, h⟩)
    (hex : Exclusive F ⟨cfg, (i, ⟨c, r⟩), cfg.push i ⟨k r, h ++ [⟨c, r⟩]⟩ s'⟩) {j : ι} (hji : j ≠ i)
    (hj : ¬ (cfg.threads j).finished) :
    (∀ x ∈ F.writesOf (h ++ [⟨c, r⟩]), x ∉ F.readsOf (cfg.hist j) ∧ x ∉ F.writesOf (cfg.hist j)) ∧
    ∀ x ∈ F.writesOf (cfg.hist j), x ∉ F.readsOf (h ++ [⟨c, r⟩]) ∧ x ∉ F.writesOf (h ++ [⟨c, r⟩]) := by
  have hlive : ¬ (cfg.threads i).finished := Thread.not_finished_of_call hi
  have hh : cfg.hist i = h := Config.hist_of_threads hi
  obtain ⟨hr, hw⟩ := hex j hji hj
  constructor
  · intro x hx
    rcases F.mem_writesOf_snoc.mp hx with hx | hx
    · exact hI.apart i j (Ne.symm hji) hlive hj x (hh ▸ hx)
    · exact hw x hx
  · intro x hx
    obtain ⟨h1, h2⟩ := hI.apart j i hji hj hlive x hx
    rw [hh] at h1 h2
    rw [F.mem_readsOf_snoc, F.mem_writesOf_snoc, not_or, not_or]
    exact ⟨⟨h1, fun hc => hr x hc hx⟩, h2, fun hc => (hw x hc).2 hx⟩

/-- What another unfinished thread wrote is as it was. -/
theorem Serialized.keep_step (hI : Serialized F P s cfg order σ) (hi : cfg.threads i = ⟨.call c k, h⟩)
    (hE : E c cfg.state r s')
    (hex : Exclusive F ⟨cfg, (i, ⟨c, r⟩), cfg.push i ⟨k r, h ++ [⟨c, r⟩]⟩ s'⟩) {j : ι} (hji : j ≠ i)
    (hj : ¬ (cfg.threads j).finished) {x : X} (hx : x ∈ F.writesOf (cfg.hist j)) :
    F.view s' x = F.view cfg.state x := by
  refine F.frame hE fun hc => ?_
  exact ((hI.apart_step hi hex hji hj).1 x (F.mem_writesOf_snoc.mpr (.inr hc))).2 hx

/-- A place that no unfinished thread has written, the moving one included. -/
theorem Serialized.rest_step (hI : Serialized F P s cfg order σ) (hi : cfg.threads i = ⟨.call c k, h⟩)
    (hE : E c cfg.state r s') {x : X} (hmine : x ∉ F.writesOf (h ++ [⟨c, r⟩]))
    (hx : ∀ j, j ≠ i → ¬ (cfg.threads j).finished → x ∉ F.writesOf (cfg.hist j)) :
    F.view s' x = F.view σ x := by
  rw [F.mem_writesOf_snoc, not_or] at hmine
  rw [F.frame hE hmine.2]
  refine hI.rest x fun j hj => ?_
  by_cases hji : j = i
  · subst hji
    rw [Config.hist_of_threads hi]
    exact hmine.1
  · exact hx j hji hj

/-- A step after which the thread has more calls to make: its replay makes the call too. -/
theorem Serialized.step_on (hI : Serialized F P s cfg order σ) (hi : cfg.threads i = ⟨.call c k, h⟩)
    (hE : E c cfg.state r s')
    (hex : Exclusive F ⟨cfg, (i, ⟨c, r⟩), cfg.push i ⟨k r, h ++ [⟨c, r⟩]⟩ s'⟩) (hfin : ¬ ∃ a, k r = .ret a) :
    Serialized F P s (cfg.push i ⟨k r, h ++ [⟨c, r⟩]⟩ s') order σ := by
  obtain ⟨τ, hrep, hwrite⟩ := hI.replay_step hi hE fun j hji hj => (hex j hji hj).1
  refine ⟨hI.serial, hI.nodup, fun j => ?_, fun j hj => ?_, fun x hx => ?_, fun j j' hjj hj hj' => ?_⟩
  · rw [hI.done]
    by_cases hji : j = i
    · subst hji
      rw [Config.push_threads_self]
      exact iff_of_false (Thread.not_finished_of_call hi) hfin
    · rw [Config.push_threads_ne _ _ _ hji]
  · by_cases hji : j = i
    · subst hji
      rw [Config.push_hist_self, Config.push_threads_self]
      exact ⟨τ, hrep, hwrite⟩
    · rw [Config.push_threads_ne _ _ _ hji] at hj ⊢
      rw [Config.push_hist_ne _ _ _ hji]
      obtain ⟨υ, hυ, hagree⟩ := hI.live j hj
      refine ⟨υ, hυ, fun x hx => ?_⟩
      rw [Config.push_state, hI.keep_step hi hE hex hji hj hx, hagree x hx]
  · have hmine := hx i (by rw [Config.push_threads_self]; exact hfin)
    rw [Config.push_hist_self] at hmine
    refine hI.rest_step hi hE hmine fun j hji hj => ?_
    have := hx j (by rw [Config.push_threads_ne _ _ _ hji]; exact hj)
    rwa [Config.push_hist_ne _ _ _ hji] at this
  · by_cases hji : j = i
    · subst hji
      have hji' : j' ≠ j := Ne.symm hjj
      rw [Config.push_threads_ne _ _ _ hji'] at hj'
      rw [Config.push_hist_self, Config.push_hist_ne _ _ _ hji']
      exact (hI.apart_step hi hex hji' hj').1
    · rw [Config.push_threads_ne _ _ _ hji] at hj
      rw [Config.push_hist_ne _ _ _ hji]
      by_cases hji' : j' = i
      · subst hji'
        rw [Config.push_hist_self]
        exact (hI.apart_step hi hex hji hj).2
      · rw [Config.push_threads_ne _ _ _ hji'] at hj'
        rw [Config.push_hist_ne _ _ _ hji']
        exact hI.apart j j' hjj hj hj'

/-- A step with which the thread finishes: it comes next in the serial order, and the other
replays start over from what it left. -/
theorem Serialized.step_last (hI : Serialized F P s cfg order σ) (hi : cfg.threads i = ⟨.call c k, h⟩)
    (hE : E c cfg.state r s')
    (hex : Exclusive F ⟨cfg, (i, ⟨c, r⟩), cfg.push i ⟨k r, h ++ [⟨c, r⟩]⟩ s'⟩) {a : α} (ha : k r = .ret a) :
    ∃ σ', Serialized F P s (cfg.push i ⟨k r, h ++ [⟨c, r⟩]⟩ s') (order ++ [i]) σ' := by
  obtain ⟨τ, hrep, hwrite⟩ := hI.replay_step hi hE fun j hji hj => (hex j hji hj).1
  have hothers : ∀ j, ¬ ((cfg.push i ⟨k r, h ++ [⟨c, r⟩]⟩ s').threads j).finished → j ≠ i := by
    rintro j hj rfl
    exact hj (by rw [Config.push_threads_self]; exact ⟨a, ha⟩)
  refine ⟨τ, ?_, ?_, fun j => ?_, fun j hj => ?_, fun x hx => ?_, fun j j' hjj hj hj' => ?_⟩
  · rw [ha] at hrep
    exact .snoc i hI.serial (hrep.runs .ret)
  · rw [List.nodup_append]
    refine ⟨hI.nodup, by simp, fun x hx y hy heq => Thread.not_finished_of_call hi ((hI.done i).mp ?_)⟩
    obtain rfl : y = i := by simpa using hy
    exact heq ▸ hx
  · rw [List.mem_append, List.mem_singleton, hI.done]
    by_cases hji : j = i
    · subst hji
      rw [Config.push_threads_self]
      exact iff_of_true (.inr rfl) ⟨a, ha⟩
    · rw [Config.push_threads_ne _ _ _ hji]
      simp [hji]
  · have hji := hothers j hj
    rw [Config.push_threads_ne _ _ _ hji] at hj ⊢
    rw [Config.push_hist_ne _ _ _ hji]
    obtain ⟨υ, hυ, hagree⟩ := hI.live j hj
    obtain ⟨υ', hυ', hsame⟩ := F.replays_move hυ (v := τ) fun x hx =>
      F.replays_frame hrep fun hw => ((hI.apart_step hi hex hji hj).1 x hw).1 hx
    refine ⟨υ', hυ', fun x hx => ?_⟩
    rw [Config.push_state, hI.keep_step hi hE hex hji hj hx, hagree x hx, hsame x hx]
  · rw [Config.push_state]
    by_cases hw : x ∈ F.writesOf (h ++ [⟨c, r⟩])
    · exact hwrite x hw
    · rw [F.replays_frame hrep hw]
      refine hI.rest_step hi hE hw fun j hji hj => ?_
      have := hx j (by rw [Config.push_threads_ne _ _ _ hji]; exact hj)
      rwa [Config.push_hist_ne _ _ _ hji] at this
  · have hji := hothers j hj
    have hji' := hothers j' hj'
    rw [Config.push_threads_ne _ _ _ hji] at hj
    rw [Config.push_threads_ne _ _ _ hji'] at hj'
    rw [Config.push_hist_ne _ _ _ hji, Config.push_hist_ne _ _ _ hji']
    exact hI.apart j j' hjj hj hj'

/-- **One exclusive step.** -/
theorem Serialized.step (hI : Serialized F P s cfg order σ) (hi : cfg.threads i = ⟨.call c k, h⟩)
    (hE : E c cfg.state r s')
    (hex : Exclusive F ⟨cfg, (i, ⟨c, r⟩), cfg.push i ⟨k r, h ++ [⟨c, r⟩]⟩ s'⟩) :
    ∃ order' σ', Serialized F P s (cfg.push i ⟨k r, h ++ [⟨c, r⟩]⟩ s') order' σ' := by
  by_cases hfin : ∃ a, k r = .ret a
  · obtain ⟨a, ha⟩ := hfin
    exact ⟨order ++ [i], hI.step_last hi hE hex ha⟩
  · exact ⟨order, σ, hI.step_on hi hE hex hfin⟩

end Step

/-- **Exclusive interleavings are serializable**, in the order in which the threads finish. -/
theorem serializable_of_exclusive [Fintype ι] {tr : List (Step (Config ι C R α S) (ι × (Σ c : C, R c)))}
    {cfg : Config ι C R α S} (h : Run (Config.Next E) (Config.start s P) tr cfg)
    (hex : ∀ x ∈ tr, Exclusive F x) (hfin : ∀ i, (cfg.threads i).finished) :
    ∃ order σ, order.Nodup ∧ (∀ i, i ∈ order) ∧ Serial E P s order σ ∧ ∀ x, F.view cfg.state x = F.view σ x := by
  have hinv : ∃ order σ, Serialized F P s cfg order σ := by
    refine Run.inv (fun cfg => ∃ order σ, Serialized F P s cfg order σ) (Exclusive F) ?_ ?_ h hex
    · rintro ⟨cfg, l, cfg'⟩ hnext hx ⟨order, σ, hI⟩
      change Config.Next E cfg l cfg' at hnext
      obtain ⟨i, c, k, h, r, hi, hE⟩ := hnext
      exact hI.step hi hE hx
    · obtain ⟨order, hI⟩ := Serialized.start (F := F) (P := P) (s := s)
      exact ⟨order, s, hI⟩
  obtain ⟨order, σ, hI⟩ := hinv
  exact ⟨order, σ, hI.nodup, fun i => (hI.done i).mpr (hfin i), hI.serial,
    fun x => hI.rest x fun i hi => absurd (hfin i) hi⟩

end Lib
