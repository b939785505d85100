import InfraPlatform.Lib.Table

/-!
# Buckets of encoded rows

A bucket maps keys to raw values, and is known by its laws only: a read gives the
last value written, a listing visits every key once.  A `RowCodec` turns rows into
raw values and back, up to a normal form.

`Holds C K t b` says that the bucket `b` holds the rows of the table `t`, encoded.
It is kept by writing (`Holds.put`) and deleting (`Holds.delete`), and fixes what is
read (`Holds.get_some`, `Holds.get_none`) and listed (`Holds.forEach`).
-/

namespace Lib

structure Buckets (Raw : Type) (ValidKey : String → Prop) where
  Bucket : Type
  empty : Bucket
  get : Bucket → String → Option Raw
  put : Bucket → String → Raw → Option Bucket
  delete : Bucket → String → Option Bucket
  forEach : Bucket → List (String × Raw)
  get_empty : ∀ k, get empty k = none
  get_put : ∀ b k v, ValidKey k →
    ∃ b', put b k v = some b' ∧ ∀ k', get b' k' = if k' = k then some v else get b k'
  get_delete : ∀ b k, ∃ b', delete b k = some b' ∧ ∀ k', get b' k' = if k' = k then none else get b k'
  forEach_nodup : ∀ b, ((forEach b).map Prod.fst).Nodup
  mem_forEach : ∀ b k v, (k, v) ∈ forEach b ↔ get b k = some v

/-- Rows as raw values.  What is read back is the row in normal form. -/
structure RowCodec (Raw α : Type) where
  key : α → String
  enc : α → Option Raw
  dec : Raw → Option α
  norm : α → α
  Valid : α → Prop
  dec_enc : ∀ a, Valid a → ∃ raw, enc a = some raw ∧ dec raw = some (norm a)
  valid_norm : ∀ a, Valid a → Valid (norm a)
  norm_norm : ∀ a, norm (norm a) = norm a

variable {Raw α : Type} {ValidKey : String → Prop}

def RowCodec.reread (C : RowCodec Raw α) (a : α) : Option α := (C.enc a).bind C.dec

theorem RowCodec.reread_eq (C : RowCodec Raw α) {a : α} (ha : C.Valid a) : C.reread a = some (C.norm a) := by
  obtain ⟨raw, henc, hdec⟩ := C.dec_enc a ha
  rw [reread, henc, Option.bind_some, hdec]

/-- Tables are buckets. -/
def Buckets.ofTables (Raw : Type) (ValidKey : String → Prop) [DecidablePred ValidKey] : Buckets Raw ValidKey where
  Bucket := Table (Prod.fst : String × Raw → String)
  empty := .empty
  get b k := (b.get k).map Prod.snd
  put b k v := if ValidKey k then some (b.put (k, v)) else none
  delete b k := some (b.erase k)
  forEach b := b.rows
  get_empty _ := rfl
  get_put b k v hk := by
    refine ⟨b.put (k, v), if_pos hk, fun k' => ?_⟩
    rw [Table.get_put]
    split <;> rfl
  get_delete b k := by
    refine ⟨b.erase k, rfl, fun k' => ?_⟩
    rw [Table.get_erase]
    split <;> rfl
  forEach_nodup b := b.nodup
  mem_forEach b k v := by
    constructor
    · intro h
      show (b.get k).map Prod.snd = some v
      rw [Table.get_of_mem h]
      rfl
    · intro h
      obtain ⟨⟨k', v'⟩, hget, rfl⟩ := Option.map_eq_some_iff.mp h
      obtain rfl : k' = k := Table.key_of_get hget
      exact Table.mem_of_get hget

structure Holds (C : RowCodec Raw α) (K : Buckets Raw ValidKey) (t : Table C.key) (b : K.Bucket) : Prop where
  valid : ∀ a ∈ t.rows, C.Valid a
  reads : ∀ k, (K.get b k).map C.dec = (t.get k).map fun a => some (C.norm a)

namespace Holds

variable {C : RowCodec Raw α} {K : Buckets Raw ValidKey} {t : Table C.key} {b : K.Bucket} {k : String} {a : α}

theorem empty : Holds C K .empty K.empty where
  valid a ha := by cases ha
  reads k := by rw [K.get_empty]; rfl

theorem get_none (h : Holds C K t b) (hk : t.get k = none) : K.get b k = none := by
  have hreads := h.reads k
  rw [hk] at hreads
  exact Option.map_eq_none_iff.mp hreads

theorem get_some (h : Holds C K t b) (hk : t.get k = some a) :
    ∃ raw, K.get b k = some raw ∧ C.dec raw = some (C.norm a) := by
  have hreads := h.reads k
  rw [hk] at hreads
  exact Option.map_eq_some_iff.mp hreads

theorem isSome_get (h : Holds C K t b) (k : String) : (K.get b k).isSome = (t.get k).isSome := by
  rw [← Option.isSome_map, h.reads k, Option.isSome_map]

theorem valid_of_get (h : Holds C K t b) (hk : t.get k = some a) : C.Valid a := h.valid a (Table.mem_of_get hk)

/-- Writing a row.  The writer may have read the row it changes from the bucket, so
that it writes `a'`, which has the same normal form as the row `a` of the table. -/
theorem put {a' : α} (h : Holds C K t b) (ha : C.Valid a) (ha' : C.Valid a') (hnorm : C.norm a' = C.norm a)
    (hkey : ValidKey (C.key a)) :
    ∃ raw b', C.enc a' = some raw ∧ K.put b (C.key a) raw = some b' ∧ Holds C K (t.put a) b' := by
  obtain ⟨raw, henc, hdec⟩ := C.dec_enc a' ha'
  obtain ⟨b', hput, hget⟩ := K.get_put b (C.key a) raw hkey
  refine ⟨raw, b', henc, hput, ?_, fun k => ?_⟩
  · intro c hc
    have hgetc := Table.get_of_mem hc
    rw [Table.get_put] at hgetc
    split at hgetc
    · obtain rfl := Option.some.inj hgetc
      exact ha
    · exact h.valid c (Table.mem_of_get hgetc)
  · rw [hget, Table.get_put]
    split
    · rw [Option.map_some, Option.map_some, hdec, hnorm]
    · exact h.reads k

theorem delete (h : Holds C K t b) (k : String) : ∃ b', K.delete b k = some b' ∧ Holds C K (t.erase k) b' := by
  obtain ⟨b', hdelete, hget⟩ := K.get_delete b k
  refine ⟨b', hdelete, fun c hc => ?_, fun k' => ?_⟩
  · exact h.valid c (List.mem_of_mem_filter hc)
  · rw [hget, Table.get_erase]
    split
    · rfl
    · exact h.reads k'

theorem mem_forEach (h : Holds C K t b) {e : String × Raw} (he : e ∈ K.forEach b) :
    ∃ a, t.get e.1 = some a ∧ C.dec e.2 = some (C.norm a) := by
  have hget : K.get b e.1 = some e.2 := (K.mem_forEach b e.1 e.2).mp he
  have hreads := h.reads e.1
  rw [hget] at hreads
  obtain ⟨a, ha, hnorm⟩ := Option.map_eq_some_iff.mp hreads.symm
  exact ⟨a, ha, hnorm.symm⟩

theorem keys_perm (h : Holds C K t b) : ((K.forEach b).map Prod.fst).Perm t.keys := by
  have hnodup : t.keys.Nodup := t.nodup
  rw [List.perm_ext_iff_of_nodup (K.forEach_nodup b) hnodup]
  intro k
  rw [List.mem_map]
  constructor
  · rintro ⟨e, he, rfl⟩
    obtain ⟨a, ha, -⟩ := h.mem_forEach he
    exact Table.mem_keys_iff.mpr ⟨a, ha⟩
  · intro hk
    obtain ⟨a, ha⟩ := Table.mem_keys_iff.mp hk
    obtain ⟨raw, hraw, -⟩ := h.get_some ha
    exact ⟨(k, raw), (K.mem_forEach b k raw).mpr hraw, rfl⟩

/-- A listing decodes to the normal forms of the rows, in some order. -/
theorem forEach (h : Holds C K t b) :
    ((K.forEach b).filterMap fun e => C.dec e.2).Perm (t.rows.map C.norm) := by
  -- both sides are read off the table, key by key
  let read : String → Option α := fun k => (t.get k).map C.norm
  have hleft : ((K.forEach b).filterMap fun e => C.dec e.2) = ((K.forEach b).map Prod.fst).filterMap read := by
    rw [List.filterMap_map]
    apply List.filterMap_congr
    intro e he
    obtain ⟨a, ha, hdec⟩ := h.mem_forEach he
    simp [read, ha, hdec]
  have hright : t.rows.map C.norm = t.keys.filterMap read := by
    rw [Table.keys, List.filterMap_map, ← List.filterMap_eq_map]
    apply List.filterMap_congr
    intro a ha
    simp [read, Table.get_of_mem ha]
  rw [hleft, hright]
  exact h.keys_perm.filterMap read

end Holds

end Lib
