import Mathlib.Tactic

/-!
# Counting in a list that changes in one place

A component that keeps one record per goroutine changes one entry of a list at a time.  What an invariant
counts or sums there changes by that entry alone: `countP_set_add` and `sum_map_set_add` for an entry that is
overwritten, `countP_eraseIdx_add` for one that goes.
-/

namespace Lib

variable {α : Type} {l : List α} {i : Nat} {a : α}

theorem countP_set_add (p : α → Bool) (h : l[i]? = some a) (b : α) :
    (l.set i b).countP p + (p a).toNat = l.countP p + (p b).toNat := by
  obtain ⟨hlt, rfl⟩ := List.getElem?_eq_some_iff.mp h
  have hpos : p l[i] = true → 0 < l.countP p := fun hp => List.countP_pos_iff.mpr ⟨_, List.getElem_mem hlt, hp⟩
  rw [List.countP_set hlt]
  cases hp : p l[i] <;> cases hb : p b <;> simp
  all_goals
    have := hpos hp
    omega

theorem countP_eraseIdx_add (p : α → Bool) (h : l[i]? = some a) :
    (l.eraseIdx i).countP p + (p a).toNat = l.countP p := by
  induction l generalizing i with
  | nil => simp at h
  | cons x l ih =>
    cases i with
    | zero =>
      obtain rfl : x = a := by simpa using h
      rw [List.eraseIdx_cons_zero, List.countP_cons]
      cases p x <;> rfl
    | succ i =>
      have hrest := ih (i := i) (by simpa using h)
      rw [List.eraseIdx_cons_succ, List.countP_cons, List.countP_cons]
      omega

theorem sum_map_set_add (f : α → Int) (h : l[i]? = some a) (b : α) :
    ((l.set i b).map f).sum + f a = (l.map f).sum + f b := by
  obtain ⟨hlt, rfl⟩ := List.getElem?_eq_some_iff.mp h
  rw [List.map_set, List.sum_set']
  simp [hlt]
  omega

end Lib
