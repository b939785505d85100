import Mathlib.Algebra.BigOperators.Group.List.Basic
import Mathlib.Algebra.Order.BigOperators.Group.List
import Mathlib.Data.List.Nodup
import Mathlib.Tactic

/-!
# Keyed tables

A table is a finite map whose rows carry their own key: a list of rows with
pairwise distinct keys.  `put` replaces the row with the same key in place or
appends it, `get` finds a row by key.

* `get_put`, `keys_put_of_get`, `keys_put_new`: a table is determined by its
  key list and its `get` (`ext_get`), and `put` changes `get` at one key only.
* `total`: the sum of a weight over the rows, with its change under `put`.
* `Stems`: the rows of one table come from rows of another one.
* `Keeps`: every row stays, with the same value of some function of it.
* `putAll`: rows written one after the other; the last one of a key stays.
-/

namespace Lib

variable {κ α : Type}

/-- Rows with pairwise distinct keys. -/
structure Table (key : α → κ) where
  rows : List α
  nodup : (rows.map key).Nodup

namespace Table

variable {key : α → κ}

def empty : Table key := ⟨[], List.nodup_nil⟩

def keys (t : Table key) : List κ := t.rows.map key

/-- The sum of the weight `f` over the rows. -/
def total (t : Table key) (f : α → Int) : Int := (t.rows.map f).sum

theorem total_nonneg (t : Table key) (f : α → Int) (h : ∀ a ∈ t.rows, 0 ≤ f a) : 0 ≤ t.total f := by
  apply List.sum_nonneg
  intro x hx
  obtain ⟨a, ha, rfl⟩ := List.mem_map.mp hx
  exact h a ha

/-- Counting rows is summing an indicator. -/
theorem total_indicator (t : Table key) (f : α → Bool) :
    t.total (fun a => if f a then 1 else 0) = t.rows.countP f := by
  unfold total
  induction t.rows with
  | nil => rfl
  | cons a rows ih =>
    rw [List.map_cons, List.sum_cons, ih, List.countP_cons]
    by_cases ha : f a
    · simp [ha]; omega
    · simp [ha]

variable [DecidableEq κ]

def get (t : Table key) (k : κ) : Option α := t.rows.find? (fun a => key a = k)

/-- Rows after `put`: in place when the key is there, else at the end. -/
def putRows (key : α → κ) (rows : List α) (a : α) : List α :=
  if key a ∈ rows.map key then rows.map (fun b => if key b = key a then a else b) else rows ++ [a]

theorem map_key_replace (rows : List α) (a : α) :
    (rows.map (fun b => if key b = key a then a else b)).map key = rows.map key := by
  rw [List.map_map]
  apply List.map_congr_left
  intro b _
  by_cases h : key b = key a <;> simp [h]

theorem putRows_nodup {rows : List α} (a : α) (h : (rows.map key).Nodup) :
    ((putRows key rows a).map key).Nodup := by
  unfold putRows
  split
  · rw [map_key_replace]; exact h
  · next hk =>
    rw [List.map_append, List.nodup_append]
    refine ⟨h, by simp, fun x hx y hy => ?_⟩
    simp only [List.map_cons, List.map_nil, List.mem_singleton] at hy
    rintro rfl
    exact hk (hy ▸ hx)

def put (t : Table key) (a : α) : Table key := ⟨putRows key t.rows a, putRows_nodup a t.nodup⟩

def erase (t : Table key) (k : κ) : Table key :=
  ⟨t.rows.filter (fun a => key a ≠ k), (List.Sublist.map key List.filter_sublist).nodup t.nodup⟩

/-! ## Lookup -/

theorem key_of_get {t : Table key} {k : κ} {a : α} (h : t.get k = some a) : key a = k := by
  have := List.find?_some h
  simpa using this

theorem mem_of_get {t : Table key} {k : κ} {a : α} (h : t.get k = some a) : a ∈ t.rows :=
  List.mem_of_find?_eq_some h

theorem find_of_mem {rows : List α} (hnd : (rows.map key).Nodup) {a : α} (h : a ∈ rows) :
    rows.find? (fun b => key b = key a) = some a := by
  induction rows with
  | nil => simp at h
  | cons b rows ih =>
    simp only [List.map_cons, List.nodup_cons] at hnd
    by_cases hb : key b = key a
    · have hab : a = b := by
        rcases List.mem_cons.mp h with rfl | h'
        · rfl
        · exact absurd (List.mem_map_of_mem h') (hb ▸ hnd.1)
      subst hab
      simp
    · rw [List.find?_cons_of_neg (by simpa using hb)]
      rcases List.mem_cons.mp h with rfl | h'
      · exact absurd rfl hb
      · exact ih hnd.2 h'

theorem get_of_mem {t : Table key} {a : α} (h : a ∈ t.rows) : t.get (key a) = some a :=
  find_of_mem t.nodup h

theorem mem_rows_iff {t : Table key} {a : α} : a ∈ t.rows ↔ t.get (key a) = some a :=
  ⟨get_of_mem, mem_of_get⟩

theorem get_eq_none_iff {t : Table key} {k : κ} : t.get k = none ↔ k ∉ t.keys := by
  simp [get, keys, List.find?_eq_none]

theorem mem_keys_iff {t : Table key} {k : κ} : k ∈ t.keys ↔ ∃ a, t.get k = some a := by
  constructor
  · intro h
    cases hg : t.get k with
    | none => exact absurd h (get_eq_none_iff.mp hg)
    | some a => exact ⟨a, rfl⟩
  · rintro ⟨a, ha⟩
    by_contra hk
    rw [get_eq_none_iff.mpr hk] at ha
    cases ha

/-! ## Writing -/

theorem find_replace (rows : List α) (a : α) (k : κ) (hk : k ≠ key a) :
    (rows.map (fun b => if key b = key a then a else b)).find? (fun b => key b = k) =
      rows.find? (fun b => key b = k) := by
  induction rows with
  | nil => rfl
  | cons b rows ih =>
    rw [List.map_cons]
    by_cases hb : key b = key a
    · rw [if_pos hb, List.find?_cons_of_neg (by simpa using hk.symm), ih,
        List.find?_cons_of_neg (by simpa [hb] using hk.symm)]
    · rw [if_neg hb]
      by_cases hbk : key b = k
      · rw [List.find?_cons_of_pos (by simpa using hbk), List.find?_cons_of_pos (by simpa using hbk)]
      · rw [List.find?_cons_of_neg (by simpa using hbk), List.find?_cons_of_neg (by simpa using hbk), ih]

theorem mem_put_self (t : Table key) (a : α) : a ∈ (t.put a).rows := by
  unfold put putRows
  split
  · next h =>
    obtain ⟨b, hb, hk⟩ := List.mem_map.mp h
    exact List.mem_map.mpr ⟨b, hb, by simp [hk]⟩
  · simp

@[simp] theorem get_put_self (t : Table key) (a : α) : (t.put a).get (key a) = some a :=
  get_of_mem (mem_put_self t a)

theorem get_put_ne {t : Table key} {a : α} {k : κ} (hk : k ≠ key a) : (t.put a).get k = t.get k := by
  unfold get put putRows
  simp only
  split
  · exact find_replace t.rows a k hk
  · rw [List.find?_append]
    simp [hk.symm]

theorem get_put (t : Table key) (a : α) (k : κ) :
    (t.put a).get k = if k = key a then some a else t.get k := by
  split
  · next h => rw [h, get_put_self]
  · next h => exact get_put_ne h

theorem get_put_congr {t u : Table key} {a : α} {k : κ} (h : t.get k = u.get k) :
    (t.put a).get k = (u.put a).get k := by
  rw [get_put, get_put, h]

theorem keys_put_of_get {t : Table key} {a b : α} (h : t.get (key a) = some b) : (t.put a).keys = t.keys := by
  have hk : key a ∈ t.rows.map key := mem_keys_iff.mpr ⟨b, h⟩
  unfold keys put putRows
  simp only
  rw [if_pos hk, map_key_replace]

/-- A row is overwritten where it stands. -/
theorem rows_put_of_get {t : Table key} {a b : α} (h : t.get (key a) = some b) :
    ∃ l₁ l₂, t.rows = l₁ ++ b :: l₂ ∧ (t.put a).rows = l₁ ++ a :: l₂ := by
  obtain ⟨l₁, l₂, hrows⟩ := List.append_of_mem (mem_of_get h)
  have hb : key b = key a := key_of_get h
  have hnd := t.nodup
  rw [hrows, List.map_append, List.map_cons, hb, List.nodup_middle, List.nodup_cons, List.mem_append, not_or] at hnd
  -- the keys are distinct, so the other rows are left alone
  have hother : ∀ l : List α, key a ∉ l.map key → l.map (fun c => if key c = key a then a else c) = l := by
    intro l hl
    conv_rhs => rw [← List.map_id l]
    refine List.map_congr_left fun c hc => ?_
    have hca : key c ≠ key a := fun hca => hl (hca ▸ List.mem_map_of_mem hc)
    rw [if_neg hca]
    rfl
  refine ⟨l₁, l₂, hrows, ?_⟩
  have hk : key a ∈ t.rows.map key := mem_keys_iff.mpr ⟨b, h⟩
  show putRows key t.rows a = _
  unfold putRows
  rw [if_pos hk, hrows, List.map_append, List.map_cons, if_pos hb, hother l₁ hnd.1.1, hother l₂ hnd.1.2]

theorem rows_put_new {t : Table key} {a : α} (h : t.get (key a) = none) : (t.put a).rows = t.rows ++ [a] := by
  have hk : key a ∉ t.rows.map key := get_eq_none_iff.mp h
  show putRows key t.rows a = _
  unfold putRows
  rw [if_neg hk]

theorem keys_put_new {t : Table key} {a : α} (h : t.get (key a) = none) : (t.put a).keys = t.keys ++ [key a] := by
  unfold keys
  rw [rows_put_new h]
  simp

theorem get_erase (t : Table key) (k k' : κ) :
    (t.erase k).get k' = if k' = k then none else t.get k' := by
  split
  · next h =>
    subst h
    rw [get_eq_none_iff]
    simp [keys, erase]
  · next h =>
    unfold get erase
    simp only
    rw [List.find?_filter]
    congr 1
    funext a
    by_cases ha : key a = k'
    · simp [ha, h]
    · simp [ha]

/-- Two tables with the same keys in the same order and the same lookups are equal. -/
theorem ext_get {t u : Table key} (hk : t.keys = u.keys) (hg : ∀ k, t.get k = u.get k) : t = u := by
  have hrows : ∀ v : Table key, v.rows = v.keys.filterMap v.get := by
    intro v
    unfold keys
    rw [List.filterMap_map]
    have h : ∀ a ∈ v.rows, (v.get ∘ key) a = some a := fun a ha => get_of_mem ha
    rw [List.filterMap_congr h]
    simp
  cases t with
  | mk rt ht => cases u with
    | mk ru hu =>
      have h1 := hrows ⟨rt, ht⟩
      have h2 := hrows ⟨ru, hu⟩
      simp only at h1 h2
      congr 1
      rw [h1, h2, hk]
      congr 1
      funext k
      exact hg k

/-- A second `put` at the same key hides the first. -/
theorem put_put {t : Table key} {a b : α} (h : key a = key b) : (t.put a).put b = t.put b := by
  have ha : (t.put a).get (key b) = some a := h ▸ get_put_self t a
  apply ext_get
  · rw [keys_put_of_get ha]
    cases hb : t.get (key b) with
    | none => rw [keys_put_new hb, keys_put_new (h ▸ hb), h]
    | some c => rw [keys_put_of_get hb, keys_put_of_get (h ▸ hb)]
  · intro k
    rw [get_put, get_put, get_put, h]
    split <;> rfl

/-- Putting a row that is there already changes nothing. -/
theorem put_self {t : Table key} {a : α} (h : t.get (key a) = some a) : t.put a = t := by
  apply ext_get (keys_put_of_get h)
  intro k
  rw [get_put]
  split
  · next hk => rw [hk, h]
  · rfl

/-- Tables with the same lookups hold the same rows, in some order. -/
theorem rows_perm_of_get {t u : Table key} (hg : ∀ k, t.get k = u.get k) : t.rows.Perm u.rows := by
  have hnd : ∀ v : Table key, v.rows.Nodup := fun v => v.nodup.of_map key
  rw [List.perm_ext_iff_of_nodup (hnd t) (hnd u)]
  intro a
  rw [mem_rows_iff, mem_rows_iff, hg]

/-! ## Weighted sums over the rows -/

theorem total_put_new {t : Table key} {a : α} (f : α → Int) (h : t.get (key a) = none) :
    (t.put a).total f = t.total f + f a := by
  unfold total
  rw [rows_put_new h]
  simp

theorem total_put_of_get {t : Table key} {a b : α} (f : α → Int) (h : t.get (key a) = some b) :
    (t.put a).total f + f b = t.total f + f a := by
  obtain ⟨l₁, l₂, hrows, hput⟩ := rows_put_of_get h
  unfold total
  rw [hrows, hput]
  simp only [List.map_append, List.map_cons, List.sum_append, List.sum_cons]
  omega

/-- A sum over the rows is a sum over the keys, so tables with the same keys compare row by row. -/
theorem total_eq_keys (t : Table key) (f : α → Int) :
    t.total f = (t.keys.map (fun k => (t.get k).elim 0 f)).sum := by
  unfold total keys
  rw [List.map_map]
  congr 1
  apply List.map_congr_left
  intro a ha
  simp [get_of_mem ha]

/-- A row-by-row relation between tables with the same keys, read backwards. -/
theorem back {t u : Table key} {r : α → α → Prop} (hk : u.keys = t.keys)
    (h : ∀ k a, t.get k = some a → ∃ b, u.get k = some b ∧ r a b) {k : κ} {b : α} (hb : u.get k = some b) :
    ∃ a, t.get k = some a ∧ r a b := by
  obtain ⟨a, ha⟩ := mem_keys_iff.mp (hk ▸ mem_keys_iff.mpr ⟨b, hb⟩)
  obtain ⟨b', hb', hr⟩ := h k a ha
  obtain rfl : b = b' := by simpa [hb] using hb'
  exact ⟨a, ha, hr⟩

/-- Every row of `t` is still there in `u`, with the same `f`. -/
def Keeps {β : Type} (f : α → β) (t u : Table key) : Prop :=
  ∀ k a, t.get k = some a → ∃ a', u.get k = some a' ∧ f a' = f a

section Keeps

variable {β : Type} {f : α → β} {t u v : Table key}

theorem Keeps.refl : t.Keeps f t := fun _ a ha => ⟨a, ha, rfl⟩

theorem Keeps.trans (h : t.Keeps f u) (h' : u.Keeps f v) : t.Keeps f v := by
  intro k a ha
  obtain ⟨b, hb, hab⟩ := h k a ha
  obtain ⟨c, hc, hbc⟩ := h' k b hb
  exact ⟨c, hc, hbc.trans hab⟩

/-- A row written over one with the same `f`, or over none. -/
theorem Keeps.put {a : α} (h : ∀ b, t.get (key a) = some b → f a = f b) : t.Keeps f (t.put a) := by
  intro k b hb
  by_cases hk : k = key a
  · subst hk
    exact ⟨a, get_put_self t a, h b hb⟩
  · exact ⟨b, by rw [get_put_ne hk, hb], rfl⟩

end Keeps

/-- Every row of `u` with `P` comes from a row of `t` with `P`, under the same key and related by `r`. -/
def Stems (P : α → Prop) (r : α → α → Prop) (t u : Table key) : Prop :=
  ∀ k b, u.get k = some b → P b → ∃ a, t.get k = some a ∧ P a ∧ r a b

section Stems

variable {P : α → Prop} {r : α → α → Prop} {t u v : Table key}

theorem Stems.refl (hr : ∀ a, r a a) (t : Table key) : Stems P r t t := fun _ b hb hP => ⟨b, hb, hP, hr b⟩

theorem Stems.trans (hr : ∀ a b c, r a b → r b c → r a c) (h : Stems P r t u) (h' : Stems P r u v) :
    Stems P r t v := by
  intro k c hc hPc
  obtain ⟨b, hb, hPb, hbc⟩ := h' k c hc hPc
  obtain ⟨a, ha, hPa, hab⟩ := h k b hb hPb
  exact ⟨a, ha, hPa, hr a b c hab hbc⟩

theorem Stems.put {b : α} (hr : ∀ a, r a a) (hb : P b → ∃ a, t.get (key b) = some a ∧ P a ∧ r a b) :
    Stems P r t (t.put b) := by
  intro k c hc hP
  rw [get_put] at hc
  split at hc
  · next hk =>
    obtain rfl := Option.some.inj hc
    rw [hk]
    exact hb hP
  · exact ⟨c, hc, hP, hr c⟩

theorem Stems.of_keys (hk : u.keys = t.keys)
    (h : ∀ k a, t.get k = some a → ∃ b, u.get k = some b ∧ (P b → P a ∧ r a b)) : Stems P r t u := by
  intro k b hb hP
  obtain ⟨a, ha, hab⟩ := back hk h hb
  exact ⟨a, ha, hab hP⟩

end Stems

theorem total_le_total {t u : Table key} (f g : α → Int) (hk : t.keys = u.keys)
    (h : ∀ k a b, t.get k = some a → u.get k = some b → f a ≤ g b) : t.total f ≤ u.total g := by
  rw [total_eq_keys, total_eq_keys, ← hk]
  apply List.sum_le_sum
  intro k hk'
  obtain ⟨a, ha⟩ := mem_keys_iff.mp hk'
  obtain ⟨b, hb⟩ := mem_keys_iff.mp (hk ▸ hk')
  rw [ha, hb]
  exact h k a b ha hb

theorem total_congr {t u : Table key} (f g : α → Int) (hk : t.keys = u.keys)
    (h : ∀ k a b, t.get k = some a → u.get k = some b → f a = g b) : t.total f = u.total g :=
  le_antisymm (total_le_total f g hk fun k a b ha hb => (h k a b ha hb).le)
    (total_le_total g f hk.symm fun k a b ha hb => (h k b a hb ha).ge)

/-! ## Several rows -/

section PutAll

variable {t : Table key}

/-- The rows written one after the other. -/
def putAll (t : Table key) (l : List α) : Table key := l.foldl put t

theorem putAll_snoc (t : Table key) (l : List α) (a : α) : t.putAll (l ++ [a]) = (t.putAll l).put a := by
  unfold putAll
  rw [List.foldl_append]
  rfl

/-- The last row of a key stays. -/
theorem get_putAll (t : Table key) (l : List α) (k : κ) :
    (t.putAll l).get k = (l.reverse.find? fun a => key a = k).or (t.get k) := by
  induction l using List.reverseRecOn with
  | nil => rfl
  | append_singleton l a ih =>
    rw [putAll_snoc, get_put, ih, List.reverse_append, List.reverse_singleton, List.singleton_append]
    by_cases hk : k = key a
    · rw [if_pos hk, List.find?_cons_of_pos (by simp [hk]), Option.some_or]
    · rw [if_neg hk, List.find?_cons_of_neg (by simpa using Ne.symm hk)]

/-- A table copied row by row, in any order, has the same rows. -/
theorem putAll_perm {l : List α} (h : l.Perm t.rows) : ((empty : Table key).putAll l).rows.Perm t.rows := by
  apply rows_perm_of_get
  intro k
  rw [get_putAll]
  have hnone : (empty : Table key).get k = none := rfl
  rw [hnone, Option.or_none]
  cases hfind : l.reverse.find? fun a => key a = k with
  | none =>
    rw [List.find?_eq_none] at hfind
    refine (get_eq_none_iff.mpr fun hk => ?_).symm
    obtain ⟨a, ha, hak⟩ := List.mem_map.mp hk
    exact hfind a (List.mem_reverse.mpr (h.mem_iff.mpr ha)) (by simpa using hak)
  | some a =>
    have hmem : a ∈ t.rows := h.mem_iff.mp (List.mem_reverse.mp (List.mem_of_find?_eq_some hfind))
    have hkey : key a = k := by simpa using List.find?_some hfind
    rw [← hkey, get_of_mem hmem]

end PutAll

end Table

end Lib
