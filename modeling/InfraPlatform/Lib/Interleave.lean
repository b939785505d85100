import InfraPlatform.Lib.Prog
import InfraPlatform.Lib.Run

/-!
# Interleaved programs

Programs that share a state and interleave at the granularity of single calls.
A `Thread` is the rest of a program with the history of its calls and their
answers, a `Config` a state with a family of threads.

* `Sat A D Q h p`: from history `h`, and as long as answers satisfy `A`, every call
  `p` makes satisfies `D` at the history it is made in, and `p` returns in `Q`.
  `sat_bind`, `sat_forM` and `sat_foldlM` follow the programs.
* `Runs.sat`: an invariant of a program that runs alone, in the same terms.
* `Run.interleave`: an invariant of the configurations may use `D` for each call
  made, whatever the other threads do in between.
* `Run.histories`: a property of histories that the discipline keeps.
* `Run.last_call`, `Run.total`: histories against the trace, and a quantity of the state as a sum over the threads.
* `Run.staged`: the same for threads whose remaining programs are known, one for
  each stage a thread can be at; the invariant speaks of the stages.
-/

namespace Lib

/-- The calls a program has made, with their answers. -/
abbrev Hist (C : Type) (R : C → Type) := List (Σ c : C, R c)

structure Thread (C : Type) (R : C → Type) (α : Type) where
  prog : Prog C R α
  hist : Hist C R := []

structure Config (ι : Type) (C : Type) (R : C → Type) (α S : Type) where
  state : S
  threads : ι → Thread C R α

variable {ι C S α β γ : Type} {R : C → Type}

/-! ## What a program does along its history -/

namespace Prog

def Sat (A : (c : C) → R c → Prop) (D : Hist C R → C → Prop) (Q : Hist C R → α → Prop) :
    Hist C R → Prog C R α → Prop
  | h, .ret a => Q h a
  | h, .call c k => D h c ∧ ∀ r, A c r → Sat A D Q (h ++ [⟨c, r⟩]) (k r)

variable {A : (c : C) → R c → Prop} {D D' : Hist C R → C → Prop} {h : Hist C R}

theorem sat_pure {Q : Hist C R → α → Prop} {a : α} (hq : Q h a) : Sat A D Q h (pure a) := hq

theorem sat_op {c : C} {Q : Hist C R → R c → Prop} (hd : D h c)
    (hq : ∀ r, A c r → Q (h ++ [⟨c, r⟩]) r) : Sat A D Q h (op c) := ⟨hd, hq⟩

theorem Sat.mono {Q Q' : Hist C R → α → Prop} {p : Prog C R α} (hp : Sat A D Q h p)
    (hD : ∀ h c, D h c → D' h c) (hQ : ∀ h a, Q h a → Q' h a) : Sat A D' Q' h p := by
  induction p generalizing h with
  | ret a => exact hQ h a hp
  | call c k ih => exact ⟨hD h c hp.1, fun r hr => ih r (hp.2 r hr)⟩

theorem sat_bind {p : Prog C R α} {f : α → Prog C R β} {Q : Hist C R → β → Prop}
    (hp : Sat A D (fun h a => Sat A D Q h (f a)) h p) : Sat A D Q h (p >>= f) := by
  induction p generalizing h with
  | ret a => exact hp
  | call c k ih => exact ⟨hp.1, fun r hr => ih r (hp.2 r hr)⟩

/-- The rule for `for x in l`: `I` is indexed by the elements still to come. -/
theorem sat_forM {f : β → Prog C R PUnit} {l : List β} {Q : Hist C R → PUnit → Prop} (I : List β → Hist C R → Prop)
    (hstep : ∀ x rest h, I (x :: rest) h → Sat A D (fun h _ => I rest h) h (f x))
    (h0 : I l h) (hend : ∀ h, I [] h → Q h ⟨⟩) : Sat A D Q h (l.forM f) := by
  induction l generalizing h with
  | nil => exact hend h h0
  | cons x rest ih =>
    rw [List.forM_eq_forM, List.forM_cons]
    refine sat_bind ((hstep x rest h h0).mono (fun _ _ hd => hd) fun h' u hI => ?_)
    exact ih hI

theorem sat_foldlM {f : γ → β → Prog C R γ} {l : List β} {g : γ} {Q : Hist C R → γ → Prop}
    (I : List β → γ → Hist C R → Prop)
    (hstep : ∀ x rest g h, I (x :: rest) g h → Sat A D (fun h g' => I rest g' h) h (f g x))
    (h0 : I l g h) (hend : ∀ g h, I [] g h → Q h g) : Sat A D Q h (l.foldlM f g) := by
  induction l generalizing h g with
  | nil => exact hend g h h0
  | cons x rest ih =>
    rw [List.foldlM_cons]
    exact sat_bind ((hstep x rest g h h0).mono (fun _ _ hd => hd) fun h' g' hI => ih hI)

/-- Histories only grow. -/
theorem Sat.grows {Q : Hist C R → α → Prop} {p : Prog C R α} (hp : Sat A D Q h p) :
    Sat A D (fun h' a => Q h' a ∧ h <+: h') h p := by
  induction p generalizing h with
  | ret a => exact ⟨hp, List.prefix_refl h⟩
  | call c k ih =>
    refine ⟨hp.1, fun r hr => (ih r (hp.2 r hr)).mono (fun _ _ hd => hd) ?_⟩
    rintro h' a ⟨hq, hpre⟩
    exact ⟨hq, (List.prefix_append h _).trans hpre⟩

/-! Rules for a discipline that only asks for what stands in the history: nothing is said of the end. -/

theorem sat_bind_grows {p : Prog C R α} {f : α → Prog C R β} (hp : Sat A D (fun _ _ => True) h p)
    (hf : ∀ a h', h <+: h' → Sat A D (fun _ _ => True) h' (f a)) : Sat A D (fun _ _ => True) h (p >>= f) :=
  sat_bind (hp.grows.mono (fun _ _ hd => hd) fun h' a hq => hf a h' hq.2)

theorem sat_forM_grows {f : β → Prog C R PUnit} {l : List β}
    (hf : ∀ x ∈ l, ∀ h', h <+: h' → Sat A D (fun _ _ => True) h' (f x)) :
    Sat A D (fun _ _ => True) h (l.forM f) := by
  refine sat_forM (fun rest h' => h <+: h' ∧ ∀ x ∈ rest, x ∈ l) ?_ ⟨List.prefix_refl h, fun _ hx => hx⟩
    (fun _ _ => trivial)
  rintro x rest h' ⟨hpre, hin⟩
  rw [List.forall_mem_cons] at hin
  refine (hf x hin.1 h' hpre).grows.mono (fun _ _ hd => hd) ?_
  rintro h'' _ ⟨-, hpre'⟩
  exact ⟨hpre.trans hpre', hin.2⟩

theorem sat_foldlM_grows {f : γ → β → Prog C R γ} {l : List β} {g : γ}
    (hf : ∀ x ∈ l, ∀ g h', h <+: h' → Sat A D (fun _ _ => True) h' (f g x)) :
    Sat A D (fun _ _ => True) h (l.foldlM f g) := by
  refine sat_foldlM (fun rest _ h' => h <+: h' ∧ ∀ x ∈ rest, x ∈ l) ?_ ⟨List.prefix_refl h, fun _ hx => hx⟩
    (fun _ _ _ => trivial)
  rintro x rest g h' ⟨hpre, hin⟩
  rw [List.forall_mem_cons] at hin
  refine (hf x hin.1 g h' hpre).grows.mono (fun _ _ hd => hd) ?_
  rintro h'' _ ⟨-, hpre'⟩
  exact ⟨hpre.trans hpre', hin.2⟩

/-- The rule for a program that runs alone. -/
theorem Runs.sat {E : Effect C R S} {Q : Hist C R → α → Prop} {p : Prog C R α} {s s' : S} {a : α}
    (J : Hist C R → S → Prop)
    (hstep : ∀ h c s r s', J h s → D h c → E c s r s' → A c r ∧ J (h ++ [⟨c, r⟩]) s')
    (hp : Sat A D Q h p) (hJ : J h s) (hr : Runs E p s a s') : ∃ h', J h' s' ∧ Q h' a := by
  induction hr generalizing h with
  | ret => exact ⟨h, hJ, hp⟩
  | call hE _ ih =>
    obtain ⟨hA, hJ'⟩ := hstep h _ _ _ _ hJ hp.1 hE
    exact ih (hp.2 _ hA) hJ'

end Prog

/-! ## Interleaving -/

def Thread.finished (t : Thread C R α) : Prop := ∃ a, t.prog = .ret a

instance (t : Thread C R α) : Decidable t.finished :=
  match h : t.prog with
  | .ret a => .isTrue ⟨a, h⟩
  | .call _ _ => .isFalse fun ⟨_, h'⟩ => by rw [h] at h'; cases h'

theorem Thread.not_finished_of_call {t : Thread C R α} {c : C} {k : R c → Prog C R α} {h : Hist C R}
    (ht : t = ⟨.call c k, h⟩) : ¬ t.finished := by
  rintro ⟨a, ha⟩
  rw [ht] at ha
  cases ha

namespace Config

variable [DecidableEq ι]

/-- All programs at their beginning. -/
def start (s : S) (P : ι → Prog C R α) : Config ι C R α S := ⟨s, fun i => { prog := P i }⟩

/-- Thread `i` after one more call. -/
def push (cfg : Config ι C R α S) (i : ι) (t : Thread C R α) (s : S) : Config ι C R α S :=
  ⟨s, Function.update cfg.threads i t⟩

/-- One call of one thread, answered. -/
inductive Next (E : Effect C R S) : Config ι C R α S → ι × (Σ c : C, R c) → Config ι C R α S → Prop where
  | mk {cfg : Config ι C R α S} {s' : S} (i : ι) (c : C) (k : R c → Prog C R α) (h : Hist C R) (r : R c) :
      cfg.threads i = ⟨.call c k, h⟩ → E c cfg.state r s' →
      Next E cfg (i, ⟨c, r⟩) (cfg.push i ⟨k r, h ++ [⟨c, r⟩]⟩ s')

/-- What thread `i` has done so far. -/
def hist (cfg : Config ι C R α S) (i : ι) : Hist C R := (cfg.threads i).hist

@[simp] theorem push_state (cfg : Config ι C R α S) (i : ι) (t : Thread C R α) (s : S) :
    (cfg.push i t s).state = s := rfl

@[simp] theorem push_threads_self (cfg : Config ι C R α S) (i : ι) (t : Thread C R α) (s : S) :
    (cfg.push i t s).threads i = t := Function.update_self ..

theorem push_threads_ne (cfg : Config ι C R α S) {i j : ι} (t : Thread C R α) (s : S) (hj : j ≠ i) :
    (cfg.push i t s).threads j = cfg.threads j := Function.update_of_ne hj ..

@[simp] theorem push_hist_self (cfg : Config ι C R α S) (i : ι) (t : Thread C R α) (s : S) :
    (cfg.push i t s).hist i = t.hist := by
  unfold hist
  rw [push_threads_self]

theorem push_hist_ne (cfg : Config ι C R α S) {i j : ι} (t : Thread C R α) (s : S) (hj : j ≠ i) :
    (cfg.push i t s).hist j = cfg.hist j := by
  unfold hist
  rw [push_threads_ne cfg t s hj]

omit [DecidableEq ι] in
theorem hist_of_threads {cfg : Config ι C R α S} {i : ι} {p : Prog C R α} {h : Hist C R}
    (hi : cfg.threads i = ⟨p, h⟩) : cfg.hist i = h := by
  unfold hist
  rw [hi]

/-- The next call of thread `i`, with the answer `F` chooses; nothing if it has finished. -/
def apply (F : (c : C) → S → R c × S) (cfg : Config ι C R α S) (i : ι) : Config ι C R α S :=
  match cfg.threads i with
  | ⟨.ret _, _⟩ => cfg
  | ⟨.call c k, h⟩ => cfg.push i ⟨k (F c cfg.state).1, h ++ [⟨c, (F c cfg.state).1⟩]⟩ (F c cfg.state).2

/-- The steps of a schedule: which thread moves, in order. -/
def trace (F : (c : C) → S → R c × S) : Config ι C R α S → List ι →
    List (Step (Config ι C R α S) (ι × (Σ c : C, R c)))
  | _, [] => []
  | cfg, i :: is =>
    match cfg.threads i with
    | ⟨.ret _, _⟩ => trace F cfg is
    | ⟨.call c _, _⟩ => ⟨cfg, (i, ⟨c, (F c cfg.state).1⟩), cfg.apply F i⟩ :: trace F (cfg.apply F i) is

def applyAll (F : (c : C) → S → R c × S) (cfg : Config ι C R α S) (is : List ι) : Config ι C R α S :=
  is.foldl (apply F) cfg

theorem run_trace {E : Effect C R S} (F : (c : C) → S → R c × S) (hF : ∀ c s, E c s (F c s).1 (F c s).2)
    {cfg₀ cfg : Config ι C R α S} {tr : List (Step (Config ι C R α S) (ι × (Σ c : C, R c)))}
    (h : Run (Next E) cfg₀ tr cfg) (is : List ι) :
    Run (Next E) cfg₀ (tr ++ trace F cfg is) (applyAll F cfg is) := by
  induction is generalizing tr cfg with
  | nil => simpa [trace, applyAll] using h
  | cons i is ih =>
    unfold trace applyAll
    rw [List.foldl_cons]
    cases hi : cfg.threads i with
    | mk prog hist =>
      cases prog with
      | ret a =>
        have hap : cfg.apply F i = cfg := by unfold apply; rw [hi]
        rw [hap]
        exact ih h
      | call c k =>
        have hnext : Next E cfg (i, ⟨c, (F c cfg.state).1⟩) (cfg.apply F i) := by
          have hap : cfg.apply F i =
              cfg.push i ⟨k (F c cfg.state).1, hist ++ [⟨c, (F c cfg.state).1⟩]⟩ (F c cfg.state).2 := by
            unfold apply; rw [hi]
          rw [hap]
          exact .mk i c k hist _ hi (hF c cfg.state)
        have := ih (h.snoc _ hnext)
        rw [List.append_assoc] at this
        exact this

end Config

/-! ## Invariants of interleavings -/

variable [DecidableEq ι]

section Rule

variable {E : Effect C R S} {A : (c : C) → R c → Prop} {D : Hist C R → C → Prop} {Q : Hist C R → α → Prop}
  {s : S} {P : ι → Prog C R α} {tr : List (Step (Config ι C R α S) (ι × (Σ c : C, R c)))} {cfg : Config ι C R α S}

/-- The rule for interleavings.  A step may use that its call obeys the discipline `D`
of its own program, and must make sure that the answer is as the programs expect it. -/
theorem Run.interleave (J : Config ι C R α S → Prop) (G : Step (Config ι C R α S) (ι × (Σ c : C, R c)) → Prop)
    (hstep : ∀ (cfg : Config ι C R α S) i c k h r s', J cfg → cfg.threads i = ⟨.call c k, h⟩ → D h c →
      E c cfg.state r s' → G ⟨cfg, (i, ⟨c, r⟩), cfg.push i ⟨k r, h ++ [⟨c, r⟩]⟩ s'⟩ →
      A c r ∧ J (cfg.push i ⟨k r, h ++ [⟨c, r⟩]⟩ s'))
    (hP : ∀ i, Prog.Sat A D Q [] (P i)) (h0 : J (Config.start s P))
    (h : Run (Config.Next E) (Config.start s P) tr cfg) (hG : ∀ x ∈ tr, G x) :
    J cfg ∧ ∀ i, Prog.Sat A D Q (cfg.hist i) (cfg.threads i).prog := by
  refine Run.inv (fun cfg => J cfg ∧ ∀ i, Prog.Sat A D Q (cfg.hist i) (cfg.threads i).prog) G ?_ ⟨h0, hP⟩ h hG
  rintro ⟨cfg, l, cfg'⟩ hnext hg ⟨hJ, hsat⟩
  change Config.Next E cfg l cfg' at hnext
  obtain ⟨i, c, k, h, r, hi, hE⟩ := hnext
  have hmine : Prog.Sat A D Q h (.call c k) := by
    have := hsat i
    rw [Config.hist_of_threads hi, hi] at this
    exact this
  obtain ⟨hA, hJ'⟩ := hstep cfg i c k h r _ hJ hi hmine.1 hE hg
  refine ⟨hJ', fun j => ?_⟩
  by_cases hj : j = i
  · subst hj
    rw [Config.push_hist_self, Config.push_threads_self]
    exact hmine.2 r hA
  · rw [Config.push_hist_ne _ _ _ hj, Config.push_threads_ne _ _ _ hj]
    exact hsat j

/-- What the rule gives for each step: the invariant before it, and the discipline of its call. -/
theorem Run.interleave_step (J : Config ι C R α S → Prop) (G : Step (Config ι C R α S) (ι × (Σ c : C, R c)) → Prop)
    (hstep : ∀ (cfg : Config ι C R α S) i c k h r s', J cfg → cfg.threads i = ⟨.call c k, h⟩ → D h c →
      E c cfg.state r s' → G ⟨cfg, (i, ⟨c, r⟩), cfg.push i ⟨k r, h ++ [⟨c, r⟩]⟩ s'⟩ →
      A c r ∧ J (cfg.push i ⟨k r, h ++ [⟨c, r⟩]⟩ s'))
    (hP : ∀ i, Prog.Sat A D Q [] (P i)) (h0 : J (Config.start s P))
    (h : Run (Config.Next E) (Config.start s P) tr cfg) (hG : ∀ x ∈ tr, G x) :
    ∀ x ∈ tr, J x.src ∧ D (x.src.hist x.label.1) x.label.2.1 := by
  rintro ⟨cfg₁, l, cfg₂⟩ hx
  obtain ⟨tr₁, tr₂, rfl, hrun, hnext⟩ := h.before hx
  obtain ⟨hJ, hsat⟩ := Run.interleave J G hstep hP h0 hrun fun y hy => hG y (List.mem_append_left _ hy)
  change Config.Next E cfg₁ l cfg₂ at hnext
  obtain ⟨i, c, k, h, r, hi, hE⟩ := hnext
  have hmine := hsat i
  rw [Config.hist_of_threads hi, hi] at hmine
  refine ⟨hJ, ?_⟩
  change D (cfg₁.hist i) c
  rw [Config.hist_of_threads hi]
  exact hmine.1

/-- Every call of an interleaving obeys the discipline of its program. -/
theorem Run.disciplined (hans : ∀ c s r s', E c s r s' → A c r) (hP : ∀ i, Prog.Sat A D Q [] (P i))
    (h : Run (Config.Next E) (Config.start s P) tr cfg) :
    ∀ x ∈ tr, D (x.src.hist x.label.1) x.label.2.1 := fun x hx =>
  (Run.interleave_step (fun _ => True) (fun _ => True)
    (fun cfg _ c _ _ r s' _ _ _ hE _ => ⟨hans c cfg.state r s' hE, trivial⟩) hP trivial h (fun _ _ => trivial) x hx).2

/-- A property of histories that every disciplined call keeps holds of what each thread has done. -/
theorem Run.histories (I : Hist C R → Prop) (h0 : I []) (hI : ∀ h c r, I h → D h c → A c r → I (h ++ [⟨c, r⟩]))
    (hans : ∀ c s r s', E c s r s' → A c r) (hP : ∀ i, Prog.Sat A D Q [] (P i))
    (h : Run (Config.Next E) (Config.start s P) tr cfg) (i : ι) : I (cfg.hist i) := by
  refine (Run.interleave (fun cfg => ∀ i, I (cfg.hist i)) (fun _ => True) ?_ hP (fun _ => h0) h fun _ _ => trivial).1 i
  intro cfg i c k h r s' hJ hi hD hE _
  have hA : A c r := hans c cfg.state r s' hE
  refine ⟨hA, fun j => ?_⟩
  by_cases hj : j = i
  · subst hj
    rw [Config.push_hist_self]
    have hmine := hJ j
    rw [Config.hist_of_threads hi] at hmine
    exact hI h c r hmine hD hA
  · rw [Config.push_hist_ne _ _ _ hj]
    exact hJ j

/-- The rule for threads that go through stages, `prog i g` being what is left of thread `i` at stage `g`. -/
theorem Run.staged {G : Type} (prog : ι → G → Prog C R α)
    (I : List (Step (Config ι C R α S) (ι × (Σ c : C, R c))) → S → (ι → G) → Prop)
    (K : Step (Config ι C R α S) (ι × (Σ c : C, R c)) → Prop) (g₀ : ι → G)
    (hstep : ∀ tr (cfg cfg' : Config ι C R α S) st i c k r s', I tr cfg.state st → prog i (st i) = .call c k →
      E c cfg.state r s' → K ⟨cfg, (i, ⟨c, r⟩), cfg'⟩ →
      ∃ g, prog i g = k r ∧ I (tr ++ [⟨cfg, (i, ⟨c, r⟩), cfg'⟩]) s' (Function.update st i g))
    (hP : ∀ i, P i = prog i (g₀ i)) (h0 : I [] s g₀)
    (h : Run (Config.Next E) (Config.start s P) tr cfg) (hK : ∀ x ∈ tr, K x) :
    ∃ st, (∀ i, (cfg.threads i).prog = prog i (st i)) ∧ I tr cfg.state st := by
  refine Run.inv_hist (fun tr cfg => ∃ st, (∀ i, (cfg.threads i).prog = prog i (st i)) ∧ I tr cfg.state st) K
    ?_ ⟨g₀, hP, h0⟩ h hK
  rintro tr ⟨cfg, l, cfg'⟩ hnext hk ⟨st, hst, hI⟩
  change Config.Next E cfg l cfg' at hnext
  obtain ⟨i, c, k, h, r, hi, hE⟩ := hnext
  have hcall : prog i (st i) = .call c k := by rw [← hst i, hi]
  obtain ⟨g, hg, hI'⟩ := hstep tr cfg _ st i c k r _ hI hcall hE hk
  refine ⟨Function.update st i g, fun j => ?_, hI'⟩
  by_cases hj : j = i
  · subst hj
    rw [Config.push_threads_self, Function.update_self, hg]
  · rw [Config.push_threads_ne _ _ _ hj, Function.update_of_ne hj]
    exact hst j

end Rule

/-! ## Histories and traces -/

section Histories

variable {E : Effect C R S} {s : S} {P : ι → Prog C R α}
  {tr : List (Step (Config ι C R α S) (ι × (Σ c : C, R c)))} {cfg cfg' : Config ι C R α S} {l : ι × (Σ c : C, R c)}

namespace Config.Next

theorem hist_self (h : Config.Next E cfg l cfg') : cfg'.hist l.1 = cfg.hist l.1 ++ [l.2] := by
  obtain ⟨i, c, k, h, r, hi, -⟩ := h
  rw [push_hist_self, hist_of_threads hi]

theorem hist_ne {j : ι} (h : Config.Next E cfg l cfg') (hj : l.1 ≠ j) : cfg'.hist j = cfg.hist j := by
  obtain ⟨i, c, k, h, r, -, -⟩ := h
  exact push_hist_ne _ _ _ (Ne.symm hj)

theorem effect (h : Config.Next E cfg l cfg') : E l.2.1 cfg.state l.2.2 cfg'.state := by
  obtain ⟨i, c, k, h, r, -, hE⟩ := h
  exact hE

end Config.Next

/-- The last call of a thread's history is its last step. -/
theorem Run.last_call {i : ι} {hist : Hist C R} {e : Σ c : C, R c}
    (h : Run (Config.Next E) (Config.start s P) tr cfg) (hi : cfg.hist i = hist ++ [e]) :
    ∃ tr₁ x tr₂, tr = tr₁ ++ x :: tr₂ ∧ x.label = (i, e) ∧ ∀ y ∈ tr₂, y.label.1 ≠ i := by
  rcases h.last_write (fun cfg => cfg.hist i) (fun x => x.label.1 = i) (fun x hx hne => hx.hist_ne hne) with
    ⟨-, hstart⟩ | ⟨tr₁, ⟨c₁, ⟨j, e'⟩, c₂⟩, tr₂, rfl, hj, hlast, hget⟩
  · rw [hi] at hstart
    exact absurd hstart (by simp [Config.start, Config.hist])
  · obtain rfl : j = i := hj
    have hdst : c₂.hist j = c₁.hist j ++ [e'] := h.split.2.1.hist_self
    rw [hget, hdst] at hi
    obtain ⟨-, rfl⟩ := List.append_singleton_inj.mp hi
    exact ⟨tr₁, _, tr₂, rfl, rfl, hlast⟩

/-- What every call changes by an amount of its own is what the threads' histories add up to. -/
theorem Run.total {M : Type} [AddCommMonoid M] (f : S → M) (d : (Σ c : C, R c) → M)
    (hE : ∀ c s r s', E c s r s' → f s' = f s + d ⟨c, r⟩) (h : Run (Config.Next E) (Config.start s P) tr cfg) :
    ∃ T : Finset ι, (∀ i ∉ T, cfg.hist i = []) ∧ f cfg.state = f s + ∑ i ∈ T, ((cfg.hist i).map d).sum := by
  induction h with
  | nil => exact ⟨∅, fun _ _ => rfl, by simp [Config.start]⟩
  | @snoc tr t t' l _ hn ih =>
    obtain ⟨T, hout, hsum⟩ := ih
    refine ⟨insert l.1 T, fun i hi => ?_, ?_⟩
    · rw [Finset.mem_insert, not_or] at hi
      rw [hn.hist_ne (Ne.symm hi.1)]
      exact hout i hi.2
    · -- the thread that moves counts from here on, also if it had not moved before
      have hold : ∑ i ∈ T, ((t.hist i).map d).sum = ∑ i ∈ insert l.1 T, ((t.hist i).map d).sum := by
        refine Finset.sum_subset (Finset.subset_insert _ _) fun i _ hi => ?_
        rw [hout i hi]
        rfl
      have hmem : l.1 ∈ insert l.1 T := Finset.mem_insert_self _ _
      have hrest : ∑ i ∈ (insert l.1 T).erase l.1, ((t'.hist i).map d).sum =
          ∑ i ∈ (insert l.1 T).erase l.1, ((t.hist i).map d).sum :=
        Finset.sum_congr rfl fun i hi => by rw [hn.hist_ne (Finset.ne_of_mem_erase hi).symm]
      rw [hE _ _ _ _ hn.effect, hsum, hold, ← Finset.add_sum_erase _ _ hmem, ← Finset.add_sum_erase _ _ hmem, hrest,
        hn.hist_self, List.map_append, List.sum_append, List.map_singleton, List.sum_singleton]
      abel

end Histories

end Lib
