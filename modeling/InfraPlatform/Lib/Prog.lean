import Mathlib.Tactic

/-!
# Programs over atomic calls

`Prog C R α` is a program that makes calls `c : C`, each answered by a value of
`R c`, and returns an `α`.  What a call may do to a shared state is an
`Effect`: a relation, since an answer may depend on a clock, a random source or
an enumeration order that the state does not fix.

* `Runs E p s a s'`: `p` run from `s` with nothing in between returns `a` in `s'`.
* `runs_bind`, `runs_call`, `runs_pure` peel a run apart.
* `Runs.inv`, `Runs.map`: what holds of each call holds of a run.
* `Effect.only`: the effect restricted to some answers, say to readings of a clock that stands still.
* `Runs.forM_inv`, `Runs.foldlM_inv`: the invariant rules for the two loops.
* `Always E G p s`: every call of every run of `p` from `s` satisfies `G`; with a rule for `>>=` and one for loops.
* `run_runs`: a deterministic choice of answers gives a run, so closed programs
  can be evaluated.
-/

namespace Lib

/-- A program: return a value, or make a call and continue with the answer. -/
inductive Prog (C : Type) (R : C → Type) (α : Type) : Type where
  | ret (a : α)
  | call (c : C) (k : R c → Prog C R α)

/-- What the calls may do: `E c s r s'` if call `c` in state `s` may answer `r` and leave `s'`. -/
abbrev Effect (C : Type) (R : C → Type) (S : Type) := (c : C) → S → R c → S → Prop

/-- The same effect with only those answers that satisfy `P`. -/
def Effect.only {C : Type} {R : C → Type} {S : Type} (E : Effect C R S) (P : (c : C) → S → R c → Prop) : Effect C R S :=
  fun c s r s' => E c s r s' ∧ P c s r

namespace Prog

variable {C : Type} {R : C → Type} {S α β γ : Type}

def bind : Prog C R α → (α → Prog C R β) → Prog C R β
  | .ret a, f => f a
  | .call c k, f => .call c (fun r => (k r).bind f)

instance : Monad (Prog C R) where
  pure := .ret
  bind := bind

/-- The program that makes one call. -/
def op (c : C) : Prog C R (R c) := .call c .ret

@[simp] theorem pure_eq (a : α) : (pure a : Prog C R α) = .ret a := rfl

@[simp] theorem ret_bind (a : α) (f : α → Prog C R β) : (Prog.ret a >>= f) = f a := rfl

@[simp] theorem call_bind (c : C) (k : R c → Prog C R α) (f : α → Prog C R β) :
    (Prog.call c k >>= f) = .call c (fun r => k r >>= f) := rfl

/-! ## Runs without interleaving -/

inductive Runs (E : Effect C R S) : Prog C R α → S → α → S → Prop where
  | ret {a : α} {s : S} : Runs E (.ret a) s a s
  | call {c : C} {k : R c → Prog C R α} {s s' s'' : S} {r : R c} {a : α} :
      E c s r s' → Runs E (k r) s' a s'' → Runs E (.call c k) s a s''

variable {E : Effect C R S} {s s' : S}

@[simp] theorem runs_ret {a b : α} : Runs E (.ret a) s b s' ↔ b = a ∧ s' = s := by
  constructor
  · rintro ⟨⟩
    exact ⟨rfl, rfl⟩
  · rintro ⟨rfl, rfl⟩
    exact .ret

theorem runs_pure {a b : α} : Runs E (pure a) s b s' ↔ b = a ∧ s' = s := runs_ret

@[simp] theorem runs_call {c : C} {k : R c → Prog C R α} {a : α} :
    Runs E (.call c k) s a s' ↔ ∃ r s₁, E c s r s₁ ∧ Runs E (k r) s₁ a s' := by
  constructor
  · rintro ⟨⟩
    exact ⟨_, _, ‹_›, ‹_›⟩
  · rintro ⟨r, s₁, h, hk⟩
    exact .call h hk

@[simp] theorem runs_op {c : C} {r : R c} : Runs E (op c) s r s' ↔ E c s r s' := by
  unfold op
  rw [runs_call]
  constructor
  · rintro ⟨r', s₁, h, hr⟩
    obtain ⟨rfl, rfl⟩ := runs_ret.mp hr
    exact h
  · intro h
    exact ⟨r, s', h, .ret⟩

@[simp] theorem runs_bind {p : Prog C R α} {f : α → Prog C R β} {b : β} :
    Runs E (p >>= f) s b s' ↔ ∃ a s₁, Runs E p s a s₁ ∧ Runs E (f a) s₁ b s' := by
  induction p generalizing s with
  | ret a =>
    rw [ret_bind]
    constructor
    · intro h
      exact ⟨a, s, .ret, h⟩
    · rintro ⟨a', s₁, h, hf⟩
      obtain ⟨rfl, rfl⟩ := runs_ret.mp h
      exact hf
  | call c k ih =>
    rw [call_bind, runs_call]
    constructor
    · rintro ⟨r, s₁, h, hk⟩
      obtain ⟨a, s₂, h1, h2⟩ := (ih r).mp hk
      exact ⟨a, s₂, .call h h1, h2⟩
    · rintro ⟨a, s₂, h1, h2⟩
      obtain ⟨r, s₁, h, hk⟩ := runs_call.mp h1
      exact ⟨r, s₁, h, (ih r).mpr ⟨a, s₂, hk, h2⟩⟩

/-- Effects that agree along a map of the states agree on runs. -/
theorem Runs.map {T : Type} {E' : Effect C R T} {p : Prog C R α} {a : α} (f : S → T)
    (hE : ∀ c s r s', E c s r s' → E' c (f s) r (f s')) (h : Runs E p s a s') : Runs E' p (f s) a (f s') := by
  induction h with
  | ret => exact .ret
  | call h _ ih => exact .call (hE _ _ _ _ h) ih

/-- What every call keeps a run keeps. -/
theorem Runs.inv {p : Prog C R α} {a : α} (I : S → Prop) (hstep : ∀ c s r s', E c s r s' → I s → I s')
    (h : Runs E p s a s') (hs : I s) : I s' := by
  induction h with
  | ret => exact hs
  | call h _ ih => exact ih (hstep _ _ _ _ h hs)

theorem Runs.of_only {P : (c : C) → S → R c → Prop} {p : Prog C R α} {a : α} (h : Runs (Effect.only E P) p s a s') :
    Runs E p s a s' := h.map id fun _ _ _ _ hE => hE.1

theorem Runs.only {P : (c : C) → S → R c → Prop} {p : Prog C R α} {a : α} (hP : ∀ c s r, P c s r)
    (h : Runs E p s a s') : Runs (Effect.only E P) p s a s' := h.map id fun c s r _ hE => ⟨hE, hP c s r⟩

/-! ## Loops -/

/-- In a loop over elements with distinct keys, the next one was not met before. -/
theorem new_of_split {κ : Type} {key : β → κ} {l done rest : List β} {x : β} (hnd : (l.map key).Nodup)
    (hsplit : l = done ++ x :: rest) : key x ∉ done.map key := by
  rw [hsplit, List.map_append, List.nodup_append] at hnd
  intro hin
  exact hnd.2.2 (key x) hin (key x) (by simp) rfl

/-- The rule for `for x in l`: `I` is indexed by the elements already done. -/
theorem Runs.forM_inv {f : β → Prog C R PUnit} {l : List β} (I : List β → S → Prop)
    (hstep : ∀ done x rest, l = done ++ x :: rest → ∀ s s', I done s → Runs E (f x) s ⟨⟩ s' → I (done ++ [x]) s')
    (h0 : I [] s) (h : Runs E (l.forM f) s ⟨⟩ s') : I l s' := by
  suffices key : ∀ rest done s, l = done ++ rest → I done s → Runs E (rest.forM f) s ⟨⟩ s' → I l s' from
    key l [] s rfl h0 h
  intro rest
  induction rest with
  | nil =>
    intro done s hl hI hr
    obtain ⟨-, rfl⟩ := runs_ret.mp hr
    rw [hl, List.append_nil]
    exact hI
  | cons x rest ih =>
    intro done s hl hI hr
    rw [List.forM_eq_forM, List.forM_cons, runs_bind] at hr
    obtain ⟨⟨⟩, s₁, h1, h2⟩ := hr
    exact ih (done ++ [x]) s₁ (by rw [hl]; simp) (hstep done x rest hl s s₁ hI h1) h2

/-- The rule for a loop that carries a value from one element to the next. -/
theorem Runs.foldlM_inv {f : γ → β → Prog C R γ} {l : List β} {g g' : γ} (I : List β → γ → S → Prop)
    (hstep : ∀ done x rest, l = done ++ x :: rest → ∀ g s g' s', I done g s → Runs E (f g x) s g' s' →
      I (done ++ [x]) g' s')
    (h0 : I [] g s) (h : Runs E (l.foldlM f g) s g' s') : I l g' s' := by
  suffices key : ∀ rest done g s, l = done ++ rest → I done g s → Runs E (rest.foldlM f g) s g' s' → I l g' s' from
    key l [] g s rfl h0 h
  intro rest
  induction rest with
  | nil =>
    intro done g s hl hI hr
    obtain ⟨rfl, rfl⟩ := runs_ret.mp hr
    rw [hl, List.append_nil]
    exact hI
  | cons x rest ih =>
    intro done g s hl hI hr
    rw [List.foldlM_cons, runs_bind] at hr
    obtain ⟨g₁, s₁, h1, h2⟩ := hr
    exact ih (done ++ [x]) g₁ s₁ (by rw [hl]; simp) (hstep done x rest hl g s g₁ s₁ hI h1) h2

/-! ## The calls of a run -/

/-- Whatever the calls answer, `p` run from `s` makes only calls that satisfy `G`. -/
def Always (E : Effect C R S) (G : (c : C) → S → R c → Prop) : Prog C R α → S → Prop
  | .ret _, _ => True
  | .call c k, s => ∀ r s', E c s r s' → G c s r ∧ Always E G (k r) s'

variable {G : (c : C) → S → R c → Prop}

theorem always_pure (a : α) : Always E G (pure a) s := trivial

theorem always_op {c : C} (h : ∀ r s', E c s r s' → G c s r) : Always E G (op c) s :=
  fun r s' hE => ⟨h r s' hE, trivial⟩

theorem always_bind {p : Prog C R α} {f : α → Prog C R β} (hp : Always E G p s)
    (hf : ∀ a s', Runs E p s a s' → Always E G (f a) s') : Always E G (p >>= f) s := by
  induction p generalizing s with
  | ret a => exact hf a s .ret
  | call c k ih =>
    intro r s₁ hE
    obtain ⟨hG, hk⟩ := hp r s₁ hE
    exact ⟨hG, ih r hk fun a s' h => hf a s' (.call hE h)⟩

theorem Always.mono {G' : (c : C) → S → R c → Prop} {p : Prog C R α} (hG : ∀ c s r, G c s r → G' c s r)
    (h : Always E G p s) : Always E G' p s := by
  induction p generalizing s with
  | ret a => trivial
  | call c k ih =>
    intro r s₁ hE
    obtain ⟨hr, hk⟩ := h r s₁ hE
    exact ⟨hG _ _ _ hr, ih r hk⟩

theorem Always.runs {p : Prog C R α} {a : α} (hp : Always E G p s) (h : Runs E p s a s') :
    Runs (Effect.only E G) p s a s' := by
  induction h with
  | ret => exact .ret
  | call hE _ ih =>
    obtain ⟨hG, hk⟩ := hp _ _ hE
    exact .call ⟨hE, hG⟩ (ih hk)

/-- The rule for `for x in l`: the invariant makes the next round safe, and the round keeps it. -/
theorem Always.forM_inv {f : β → Prog C R PUnit} {l : List β} (I : List β → S → Prop)
    (hsafe : ∀ done x rest, l = done ++ x :: rest → ∀ s, I done s → Always E G (f x) s)
    (hstep : ∀ done x rest, l = done ++ x :: rest → ∀ s s', I done s → Runs E (f x) s ⟨⟩ s' → I (done ++ [x]) s')
    (h0 : I [] s) : Always E G (l.forM f) s := by
  suffices key : ∀ rest done s, l = done ++ rest → I done s → Always E G (rest.forM f) s from key l [] s rfl h0
  intro rest
  induction rest with
  | nil => exact fun _ _ _ _ => trivial
  | cons x rest ih =>
    intro done s hl hI
    rw [List.forM_eq_forM, List.forM_cons]
    refine always_bind (hsafe done x rest hl s hI) fun _ s₁ h1 => ?_
    exact ih (done ++ [x]) s₁ (by rw [hl]; simp) (hstep done x rest hl s s₁ hI h1)

/-! ## Evaluation -/

/-- Run with the answers `F` chooses. -/
def run (F : (c : C) → S → R c × S) : Prog C R α → S → α × S
  | .ret a, s => (a, s)
  | .call c k, s => run F (k (F c s).1) (F c s).2

@[simp] theorem run_ret (F : (c : C) → S → R c × S) (a : α) (s : S) : run F (.ret a) s = (a, s) := rfl

@[simp] theorem run_op (F : (c : C) → S → R c × S) (c : C) (s : S) : run F (op c) s = F c s := rfl

@[simp] theorem run_bind (F : (c : C) → S → R c × S) (p : Prog C R α) (f : α → Prog C R β) (s : S) :
    run F (p >>= f) s = run F (f (run F p s).1) (run F p s).2 := by
  induction p generalizing s with
  | ret a => rfl
  | call c k ih => exact ih (F c s).1 (F c s).2

/-- Answers that the effect allows give a run. -/
theorem run_runs (F : (c : C) → S → R c × S) (hF : ∀ c s, E c s (F c s).1 (F c s).2) (p : Prog C R α) (s : S) :
    Runs E p s (run F p s).1 (run F p s).2 := by
  induction p generalizing s with
  | ret a => exact .ret
  | call c k ih => exact .call (hF c s) (ih _ _)

/-- The answers that `F` chooses along `p` pass the test `q`. -/
def passes (F : (c : C) → S → R c × S) (q : (c : C) → S → R c → Bool) : Prog C R α → S → Bool
  | .ret _, _ => true
  | .call c k, s => q c s (F c s).1 && passes F q (k (F c s).1) (F c s).2

theorem run_runs_only (F : (c : C) → S → R c × S) (hF : ∀ c s, E c s (F c s).1 (F c s).2)
    (q : (c : C) → S → R c → Bool) (p : Prog C R α) (s : S) (h : passes F q p s = true) :
    Runs (Effect.only E fun c s r => q c s r = true) p s (run F p s).1 (run F p s).2 := by
  induction p generalizing s with
  | ret a => exact .ret
  | call c k ih =>
    rw [passes, Bool.and_eq_true] at h
    exact .call ⟨hF c s, h.1⟩ (ih _ _ h.2)

end Prog

end Lib
