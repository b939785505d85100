import Mathlib.Tactic

/-!
# The first minimum of a list

A loop goes over a list once and keeps the best element it has seen: it passes over elements that do not satisfy
`p`, and takes another one only if its key is smaller.

* `FirstMin p key l a`: among the elements of `l` that satisfy `p`, `a` has the least key, and the ones
  before it have greater ones.
* `Kept p key l best`: what the loop holds after `l`; `Kept.skip`, `Kept.take` and `Kept.stay` are its rounds.
* `Kept.none_iff`, `Kept.some_iff`: it determines what is held.
* `Kept.perm`: where keys are distinct, the order of the list does not matter.
-/

namespace Lib

variable {α κ : Type} [LinearOrder κ] {p : α → Prop} {key : α → κ} {l l' : List α} {a b : α} {best best' : Option α}

variable (p key) in
def FirstMin (l : List α) (a : α) : Prop :=
  ∃ before after, l = before ++ a :: after ∧ p a ∧ (∀ b ∈ before, p b → key a < key b) ∧
    ∀ b ∈ after, p b → key a ≤ key b

namespace FirstMin

theorem mem (h : FirstMin p key l a) : a ∈ l := by
  obtain ⟨before, after, rfl, -⟩ := h
  exact List.mem_append_right before List.mem_cons_self

theorem holds (h : FirstMin p key l a) : p a := by
  obtain ⟨before, after, -, ha, -⟩ := h
  exact ha

theorem le (h : FirstMin p key l a) (hb : b ∈ l) (hp : p b) : key a ≤ key b := by
  obtain ⟨before, after, rfl, -, hbefore, hafter⟩ := h
  rcases List.mem_append.mp hb with hb | hb
  · exact (hbefore b hb hp).le
  · rcases List.mem_cons.mp hb with rfl | hb
    · exact le_rfl
    · exact hafter b hb hp

/-- Whatever stands before another first minimum has a greater key, so neither stands before the other. -/
theorem unique (h : FirstMin p key l a) (h' : FirstMin p key l b) : a = b := by
  have hab := h.le h'.mem h'.holds
  have hba := h'.le h.mem h.holds
  obtain ⟨before, after, rfl, ha, hbefore, -⟩ := h
  obtain ⟨before', after', heq, hb, hbefore', -⟩ := h'
  rcases List.append_eq_append_iff.mp heq with ⟨mid, rfl, hmid⟩ | ⟨mid, rfl, hmid⟩
  · cases mid with
    | nil => exact (List.cons.inj hmid).1
    | cons c mid =>
      obtain rfl := (List.cons.inj hmid).1
      exact absurd (hbefore' a (by simp) ha) (not_lt.mpr hab)
  · cases mid with
    | nil => exact (List.cons.inj hmid).1.symm
    | cons c mid =>
      obtain rfl := (List.cons.inj hmid).1
      exact absurd (hbefore b (by simp) hb) (not_lt.mpr hba)

end FirstMin

variable (p key) in
def Kept (l : List α) : Option α → Prop
  | none => ∀ b ∈ l, ¬ p b
  | some a => FirstMin p key l a

namespace Kept

theorem nil : Kept p key [] none := by
  intro b hb
  cases hb

/-- What comes after a first minimum and is no better does not change it. -/
theorem stay (h : Kept p key l (some a)) (hb : p b → key a ≤ key b) : Kept p key (l ++ [b]) (some a) := by
  obtain ⟨before, after, rfl, ha, hbefore, hafter⟩ := h
  refine ⟨before, after ++ [b], by simp, ha, hbefore, ?_⟩
  intro c hc hp
  rcases List.mem_append.mp hc with hc | hc
  · exact hafter c hc hp
  · obtain rfl := List.mem_singleton.mp hc
    exact hb hp

theorem skip (h : Kept p key l best) (hb : ¬ p b) : Kept p key (l ++ [b]) best := by
  cases best with
  | some a => exact h.stay fun hp => absurd hp hb
  | none =>
    intro c hc
    rcases List.mem_append.mp hc with hc | hc
    · exact h c hc
    · obtain rfl := List.mem_singleton.mp hc
      exact hb

theorem take (h : Kept p key l best) (hb : p b) (hlt : ∀ a, best = some a → key b < key a) :
    Kept p key (l ++ [b]) (some b) := by
  refine ⟨l, [], rfl, hb, ?_, by simp⟩
  intro c hc hp
  cases best with
  | none => exact absurd hp (h c hc)
  | some a => exact (hlt a rfl).trans_le (FirstMin.le h hc hp)

theorem none_iff (h : Kept p key l best) : best = none ↔ ∀ b ∈ l, ¬ p b := by
  cases best with
  | none => exact ⟨fun _ => h, fun _ => rfl⟩
  | some a =>
    constructor
    · intro ha
      cases ha
    · intro hnone
      exact absurd (FirstMin.holds h) (hnone a (FirstMin.mem h))

theorem some_iff (h : Kept p key l best) : best = some a ↔ FirstMin p key l a := by
  constructor
  · rintro rfl
    exact h
  · intro ha
    cases best with
    | none => exact absurd ha.holds (h a ha.mem)
    | some b => rw [FirstMin.unique h ha]

/-- Two loops over the same elements that are told apart by their keys. -/
theorem perm (h : Kept p key l best) (h' : Kept p key l' best') (hperm : l.Perm l')
    (hinj : ∀ a ∈ l, ∀ b ∈ l, key a = key b → a = b) : best' = best := by
  cases best with
  | none =>
    refine h'.none_iff.mpr ?_
    intro b hb
    exact h b (hperm.mem_iff.mpr hb)
  | some a =>
    have ha : FirstMin p key l a := h
    cases best' with
    | none => exact absurd ha.holds (h' a (hperm.mem_iff.mp ha.mem))
    | some b =>
      have hb : FirstMin p key l' b := h'
      have hmem : b ∈ l := hperm.mem_iff.mpr hb.mem
      have hkey : key b = key a :=
        le_antisymm (hb.le (hperm.mem_iff.mp ha.mem) ha.holds) (ha.le hmem hb.holds)
      rw [hinj b hmem a ha.mem hkey]

end Kept

end Lib
