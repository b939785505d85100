import Mathlib.Tactic

/-!
# Greedy placement

Items come one after another and go into bins.  A `Policy` chooses the bin of an item among those that it fits
into, and says what the bin is afterwards; no item is moved again.

* `placed`, `left`: what a list of items placed where, and the bins that it leaves.
* `inv`: what holds of every bin and is kept by a placement holds of all bins a pass uses and leaves.
* `rejected`, `not_overtaken`: where room only shrinks, an item that was not placed fits nowhere at the end, and
  no later item was placed in its stead that needs at least as much.
* `load_inv`: what relates a bin at the start to the bin that it is after each item it takes in.
* `placed_perm`: where the choice does not depend on the order of the bins, the outcome does not.
* `admitted_prefix_iff`: of items that are admitted or not, one after another, the admitted ones are the first ones
  exactly if none is admitted after one that is not.
-/

namespace Lib

structure Policy (A B κ : Type) where
  key : B → κ
  fits : B → A → Prop
  take : B → A → B
  choose : List B → A → Option B
  key_take : ∀ b a, key (take b a) = key b
  choose_some : ∀ {bins : List B} {a : A} {b : B}, choose bins a = some b → b ∈ bins ∧ fits b a
  choose_none : ∀ {bins : List B} {a : A}, choose bins a = none → ∀ b ∈ bins, ¬ fits b a

namespace Policy

variable {A B κ : Type} [DecidableEq κ] (P : Policy A B κ)

/-- The bins after `a` went into `b`. -/
def fill (bins : List B) (b : B) (a : A) : List B := bins.map fun c => if P.key c = P.key b then P.take b a else c

def placed : List B → List A → List (A × B)
  | _, [] => []
  | bins, a :: as =>
    match P.choose bins a with
    | none => placed bins as
    | some b => (a, b) :: placed (P.fill bins b a) as

def left : List B → List A → List B
  | bins, [] => bins
  | bins, a :: as =>
    match P.choose bins a with
    | none => left bins as
    | some b => left (P.fill bins b a) as

variable {P} {bins bins' : List B} {as : List A} {a : A} {b : B}

theorem placed_none (h : P.choose bins a = none) : P.placed bins (a :: as) = P.placed bins as := by
  simp only [placed, h]

theorem placed_some (h : P.choose bins a = some b) :
    P.placed bins (a :: as) = (a, b) :: P.placed (P.fill bins b a) as := by
  simp only [placed, h]

theorem left_none (h : P.choose bins a = none) : P.left bins (a :: as) = P.left bins as := by
  simp only [left, h]

theorem left_some (h : P.choose bins a = some b) : P.left bins (a :: as) = P.left (P.fill bins b a) as := by
  simp only [left, h]

theorem left_append (bins : List B) (as as' : List A) : P.left bins (as ++ as') = P.left (P.left bins as) as' := by
  induction as generalizing bins with
  | nil => rfl
  | cons a as ih =>
    rw [List.cons_append]
    cases h : P.choose bins a with
    | none => rw [left_none h, left_none h, ih]
    | some b => rw [left_some h, left_some h, ih]

theorem placed_append (bins : List B) (as as' : List A) :
    P.placed bins (as ++ as') = P.placed bins as ++ P.placed (P.left bins as) as' := by
  induction as generalizing bins with
  | nil => rfl
  | cons a as ih =>
    rw [List.cons_append]
    cases h : P.choose bins a with
    | none => rw [placed_none h, placed_none h, left_none h, ih]
    | some b => rw [placed_some h, placed_some h, left_some h, ih, List.cons_append]

/-! ## The last item -/

theorem left_snoc_none (h : P.choose (P.left bins as) a = none) : P.left bins (as ++ [a]) = P.left bins as := by
  rw [left_append, left_none h]
  rfl

theorem left_snoc_some (h : P.choose (P.left bins as) a = some b) :
    P.left bins (as ++ [a]) = P.fill (P.left bins as) b a := by
  rw [left_append, left_some h]
  rfl

theorem placed_snoc_none (h : P.choose (P.left bins as) a = none) : P.placed bins (as ++ [a]) = P.placed bins as := by
  rw [placed_append, placed_none h, placed, List.append_nil]

theorem placed_snoc_some (h : P.choose (P.left bins as) a = some b) :
    P.placed bins (as ++ [a]) = P.placed bins as ++ [(a, b)] := by
  rw [placed_append, placed_some h, placed]

/-- Nothing fits, nothing is placed. -/
theorem placed_eq_nil (h : ∀ a ∈ as, ∀ b ∈ bins, ¬ P.fits b a) : P.placed bins as = [] := by
  induction as with
  | nil => rfl
  | cons a as ih =>
    cases hc : P.choose bins a with
    | none =>
      rw [placed_none hc]
      exact ih fun a' ha' => h a' (List.mem_cons_of_mem _ ha')
    | some b =>
      obtain ⟨hb, hfit⟩ := P.choose_some hc
      exact absurd hfit (h a List.mem_cons_self b hb)

/-! ## Every bin on the way -/

theorem mem_fill {c : B} (h : c ∈ P.fill bins b a) : c = P.take b a ∨ c ∈ bins ∧ P.key c ≠ P.key b := by
  obtain ⟨d, hd, rfl⟩ := List.mem_map.mp h
  split
  · exact .inl rfl
  · next hk => exact .inr ⟨hd, hk⟩

/-- **The invariant rule**, for the bins that items are placed in and for those left. -/
theorem inv (I : B → Prop) (hI : ∀ b a, P.fits b a → I b → I (P.take b a)) (h : ∀ b ∈ bins, I b) :
    (∀ x ∈ P.placed bins as, I x.2) ∧ ∀ b ∈ P.left bins as, I b := by
  induction as generalizing bins with
  | nil => exact ⟨by simp [placed], h⟩
  | cons a as ih =>
    cases hc : P.choose bins a with
    | none =>
      rw [placed_none hc, left_none hc]
      exact ih h
    | some b =>
      obtain ⟨hb, hfit⟩ := P.choose_some hc
      rw [placed_some hc, left_some hc]
      have hfill : ∀ c ∈ P.fill bins b a, I c := by
        intro c hcm
        rcases mem_fill hcm with rfl | ⟨hcm, -⟩
        · exact hI b a hfit (h b hb)
        · exact h c hcm
      obtain ⟨hplaced, hleft⟩ := ih hfill
      refine ⟨?_, hleft⟩
      intro x hx
      rcases List.mem_cons.mp hx with rfl | hx
      · exact h b hb
      · exact hplaced x hx

theorem placed_fits : ∀ x ∈ P.placed bins as, P.fits x.2 x.1 := by
  induction as generalizing bins with
  | nil => simp [placed]
  | cons a as ih =>
    cases hc : P.choose bins a with
    | none =>
      rw [placed_none hc]
      exact ih
    | some b =>
      rw [placed_some hc]
      intro x hx
      rcases List.mem_cons.mp hx with rfl | hx
      · exact (P.choose_some hc).2
      · exact ih x hx

/-- Items are placed in their order, each at most once. -/
theorem placed_sublist : ((P.placed bins as).map Prod.fst).Sublist as := by
  induction as generalizing bins with
  | nil => simp [placed]
  | cons a as ih =>
    cases hc : P.choose bins a with
    | none =>
      rw [placed_none hc]
      exact ih.cons a
    | some b =>
      rw [placed_some hc, List.map_cons]
      exact ih.cons_cons a

/-! ## Room only shrinks -/

section Shrink

variable (hshrink : ∀ b a c, P.fits b c → P.fits (P.take b c) a → P.fits b a)

include hshrink

/-- An item that fits nowhere does not fit later, nor does one that needs as much. -/
theorem never_fits (h : ∀ b ∈ bins, ¬ P.fits b a) :
    (∀ x ∈ P.placed bins as, ¬ ∀ b, P.fits b x.1 → P.fits b a) ∧ ∀ b ∈ P.left bins as, ¬ P.fits b a := by
  obtain ⟨hplaced, hleft⟩ := inv (fun b => ¬ P.fits b a) (fun b c hfit hno hlater => hno (hshrink b a c hfit hlater)) h
  exact ⟨fun x hx himp => hplaced x hx (himp _ (placed_fits x hx)), hleft⟩

/-- **Work conservation.** -/
theorem rejected (ha : a ∈ as) (hnot : a ∉ (P.placed bins as).map Prod.fst) :
    ∀ b ∈ P.left bins as, ¬ P.fits b a := by
  obtain ⟨l₁, l₂, rfl⟩ := List.append_of_mem ha
  cases hc : P.choose (P.left bins l₁) a with
  | none =>
    rw [left_append, left_none hc]
    exact (never_fits hshrink (P.choose_none hc)).2
  | some b =>
    rw [placed_append, placed_some hc] at hnot
    simp at hnot

/-- **No overtaking.** -/
theorem not_overtaken {l₁ l₂ : List A} {c : A} (hnd : (l₁ ++ a :: l₂).Nodup) (hc : c ∈ l₂)
    (hle : ∀ b, P.fits b c → P.fits b a) (hplaced : c ∈ (P.placed bins (l₁ ++ a :: l₂)).map Prod.fst) :
    a ∈ (P.placed bins (l₁ ++ a :: l₂)).map Prod.fst := by
  rw [placed_append, List.map_append] at hplaced ⊢
  cases ha : P.choose (P.left bins l₁) a with
  | some b =>
    rw [placed_some ha]
    simp
  | none =>
    rw [placed_none ha] at hplaced
    rcases List.mem_append.mp hplaced with hearly | hlate
    · -- before its turn an item is not placed
      have hin := placed_sublist.subset hearly
      rw [List.nodup_append] at hnd
      exact absurd rfl (hnd.2.2 c hin c (List.mem_cons_of_mem a hc))
    · obtain ⟨x, hx, rfl⟩ := List.mem_map.mp hlate
      exact absurd hle ((never_fits hshrink (P.choose_none ha)).1 x hx)

end Shrink

/-! ## What each bin takes in -/

/-- The items placed under a key, in order. -/
def load (P : Policy A B κ) (placed : List (A × B)) (k : κ) : List A :=
  (placed.filter fun x => P.key x.2 = k).map Prod.fst

theorem keys_fill (bins : List B) (b : B) (a : A) : (P.fill bins b a).map P.key = bins.map P.key := by
  unfold fill
  rw [List.map_map]
  refine List.map_congr_left fun c _ => ?_
  rw [Function.comp_apply]
  split
  · next hk => rw [P.key_take, hk]
  · rfl

theorem keys_left (bins : List B) (as : List A) : (P.left bins as).map P.key = bins.map P.key := by
  induction as generalizing bins with
  | nil => rfl
  | cons a as ih =>
    cases hc : P.choose bins a with
    | none => rw [left_none hc, ih]
    | some b => rw [left_some hc, ih, keys_fill]

/-- **The rule for one bin**: `R b l c` relates the bin `b` at the start to `c`, which has taken in `l`. -/
theorem load_inv (R : B → List A → B → Prop) (h0 : ∀ b ∈ bins, R b [] b)
    (hstep : ∀ b l c a, R b l c → P.fits c a → R b (l ++ [a]) (P.take c a)) :
    ∀ c ∈ P.left bins as, ∃ b ∈ bins, P.key b = P.key c ∧ R b (P.load (P.placed bins as) (P.key c)) c := by
  induction as using List.reverseRecOn with
  | nil => exact fun c hc => ⟨c, hc, rfl, h0 c hc⟩
  | append_singleton as a ih =>
    intro c hcl
    cases hc : P.choose (P.left bins as) a with
    | none =>
      rw [left_snoc_none hc] at hcl
      rw [placed_snoc_none hc]
      exact ih c hcl
    | some d =>
      obtain ⟨hdl, hfit⟩ := P.choose_some hc
      rw [left_snoc_some hc] at hcl
      rw [placed_snoc_some hc]
      rcases mem_fill hcl with rfl | ⟨hcl, hk⟩
      · obtain ⟨b, hb, hkey, hR⟩ := ih d hdl
        refine ⟨b, hb, by rw [P.key_take, hkey], ?_⟩
        have hmore : P.load (P.placed bins as ++ [(a, d)]) (P.key (P.take d a)) =
            P.load (P.placed bins as) (P.key d) ++ [a] := by
          simp [load, P.key_take]
        rw [hmore]
        exact hstep b _ d a hR hfit
      · -- the last item went elsewhere
        obtain ⟨b, hb, hkey, hR⟩ := ih c hcl
        refine ⟨b, hb, hkey, ?_⟩
        have hsame : P.load (P.placed bins as ++ [(a, d)]) (P.key c) = P.load (P.placed bins as) (P.key c) := by
          simp [load, Ne.symm hk]
        rw [hsame]
        exact hR

/-! ## The order of the bins -/

/-- **Order independence**, under an invariant `I` of the bins that makes the choice unambiguous. -/
theorem placed_perm (I : List B → Prop)
    (hfill : ∀ bins a b, I bins → P.choose bins a = some b → I (P.fill bins b a))
    (hchoose : ∀ bins bins' a, I bins → bins.Perm bins' → P.choose bins' a = P.choose bins a)
    (h : bins.Perm bins') (hI : I bins) : P.placed bins' as = P.placed bins as := by
  induction as generalizing bins bins' with
  | nil => rfl
  | cons a as ih =>
    have hsame := hchoose bins bins' a hI h
    cases hc : P.choose bins a with
    | none =>
      rw [placed_none hc, placed_none (hsame.trans hc)]
      exact ih h hI
    | some b =>
      have hnext : (P.fill bins b a).Perm (P.fill bins' b a) := h.map _
      rw [placed_some hc, placed_some (hsame.trans hc), ih hnext (hfill bins a b hI hc)]

end Policy

/-! ## The first items -/

section

variable {A : Type}

/-- The items that were admitted. -/
def admitted (l : List (A × Bool)) : List A := (l.filter Prod.snd).map Prod.fst

theorem mem_admitted {l : List (A × Bool)} {a : A} : a ∈ admitted l ↔ (a, true) ∈ l := by
  simp [admitted]

/-- **The admitted items come first** if and only if nothing is admitted after something that is not. -/
theorem admitted_prefix_iff {l : List (A × Bool)} (hnd : (l.map Prod.fst).Nodup) (rest : List A) :
    admitted l <+: l.map Prod.fst ++ rest ↔ l.Pairwise fun a b => b.2 = true → a.2 = true := by
  induction l with
  | nil => simp [admitted]
  | cons x l ih =>
    obtain ⟨a, ok⟩ := x
    rw [List.map_cons, List.nodup_cons] at hnd
    obtain ⟨hnew, hnd⟩ := hnd
    rw [List.map_cons, List.cons_append, List.pairwise_cons]
    cases ok with
    | true =>
      have hcons : admitted ((a, true) :: l) = a :: admitted l := rfl
      rw [hcons, List.cons_prefix_cons]
      simp [ih hnd]
    | false =>
      have hskip : admitted ((a, false) :: l) = admitted l := rfl
      rw [hskip]
      constructor
      · intro hpre
        -- the first admitted item would have to be `a`
        have hnone (b : A × Bool) (hb : b ∈ l) : b.2 ≠ true := by
          intro hok
          have hmem : b.1 ∈ admitted l := mem_admitted.mpr (by rw [← hok]; exact hb)
          cases hacc : admitted l with
          | nil =>
            rw [hacc] at hmem
            cases hmem
          | cons c cs =>
            rw [hacc, List.cons_prefix_cons] at hpre
            have hc : (c, true) ∈ l := mem_admitted.mp (by rw [hacc]; exact List.mem_cons_self)
            rw [hpre.1] at hc
            exact hnew (List.mem_map.mpr ⟨_, hc, rfl⟩)
        refine ⟨fun b hb hok => absurd hok (hnone b hb), ?_⟩
        exact List.pairwise_of_forall_mem_list fun b _ c hc hok => absurd hok (hnone c hc)
      · rintro ⟨hnone, -⟩
        have hnil : admitted l = [] := by
          rw [List.eq_nil_iff_forall_not_mem]
          intro b hb
          exact absurd (hnone _ (mem_admitted.mp hb) rfl) (by simp)
        rw [hnil]
        exact List.nil_prefix

/-- Then each admitted item is before each of the others. -/
theorem admitted_before {r : A → A → Prop} {l : List (A × Bool)} {a b : A}
    (hin : l.Pairwise fun x y => y.2 = true → x.2 = true) (hr : (l.map Prod.fst).Pairwise r) (ha : (a, false) ∈ l)
    (hb : (b, true) ∈ l) : r b a := by
  induction l with
  | nil => cases ha
  | cons x l ih =>
    rw [List.pairwise_cons] at hin
    rw [List.map_cons, List.pairwise_cons] at hr
    rcases List.mem_cons.mp hb with rfl | hb'
    · rcases List.mem_cons.mp ha with heq | ha'
      · cases heq
      · exact hr.1 a (List.mem_map.mpr ⟨_, ha', rfl⟩)
    · rcases List.mem_cons.mp ha with rfl | ha'
      · exact absurd (hin.1 _ hb' rfl) (by simp)
      · exact ih hin.2 hr.2 ha' hb'

end

end Lib
