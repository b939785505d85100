import Mathlib.Data.List.Sort
import Mathlib.Data.List.Nodup
import Mathlib.Data.Rat.Defs
import Mathlib.Tactic

/-!
# JSON trees and tagged records

A record is written as an object with one member for each field.  The field's tag
decides whether the member is written at all, and a reader gives a missing member,
or `null`, the zero value.

* `object` builds an object from named members of which some are left out;
  `readObj_object` finds each of them again.
* A writer and a reader for each kind of field: strings, enumerations, numbers,
  times, pointers, lists and string maps.  What is written is read back, a
  string map in the form `normMap`: by increasing key, and no map where it is empty.
* `unmarshal_marshal`: reading the text of a record gives what its fields give.
* `JsonText` and `TimeText` are the texts below the trees.
-/

namespace Lib

inductive Json where
  | null
  | num (q : ℚ)
  | str (s : String)
  | arr (items : List Json)
  | obj (members : List (String × Json))

/-- A text form of trees: what is printed is parsed back. -/
structure JsonText where
  Raw : Type
  print : Json → Raw
  parse : Raw → Option Json
  parse_print : ∀ j, parse (print j) = some j

/-- A text form of instants, counted from the zero time.  Not every instant has one. -/
structure TimeText where
  representable : Int → Bool
  format : Int → String
  parse : String → Option Int
  parse_format : ∀ t, representable t = true → parse (format t) = some t

namespace Json

/-! ## Objects -/

/-- What a record is read from: the members of an object, or none at all for `null`. -/
def members : Json → Option (List (String × Json))
  | .null => some []
  | .obj ms => some ms
  | _ => none

/-- The members that are written: those with a value. -/
def present (fields : List (String × Option Json)) : List (String × Json) :=
  fields.filterMap fun f => f.2.map (f.1, ·)

def object (fields : List (String × Option Json)) : Json := .obj (present fields)

theorem lookup_present {fields : List (String × Option Json)} (h : (fields.map Prod.fst).Nodup)
    (name : String) : (present fields).lookup name = (fields.lookup name).join := by
  induction fields with
  | nil => rfl
  | cons f rest ih =>
    obtain ⟨k, v⟩ := f
    rw [List.map_cons, List.nodup_cons] at h
    have hrest := ih h.2
    by_cases hk : name = k
    · subst hk
      rw [List.lookup_cons_self]
      cases v with
      | some j => simp [present]
      | none =>
        -- the member is left out, and no later one has its name
        have hnone : rest.lookup name = none := by
          rw [List.lookup_eq_none_iff]
          intro f hf
          have hne : name ≠ f.1 := fun he => h.1 (List.mem_map.mpr ⟨f, hf, he.symm⟩)
          simpa using hne
        rw [hnone] at hrest
        exact hrest
    · have hbeq : (name == k) = false := by simpa using hk
      rw [List.lookup_cons, hbeq]
      cases v with
      | some j =>
        show ((k, j) :: present rest).lookup name = _
        rw [List.lookup_cons, hbeq]
        exact hrest
      | none => exact hrest

/-- Reads a record from its members, by name. -/
def readObj {α : Type} (read : (String → Option Json) → Option α) (j : Option Json) : Option α :=
  (j.getD .null).members.bind fun ms => read fun name => ms.lookup name

theorem readObj_object {α : Type} (read : (String → Option Json) → Option α)
    {fields : List (String × Option Json)} (h : (fields.map Prod.fst).Nodup) :
    readObj read (some (object fields)) = read fun name => (fields.lookup name).join := by
  show (read fun name => (present fields).lookup name) = _
  rw [funext (lookup_present h)]

/-! ## Scalars -/

def readStr : Option Json → Option String
  | none | some .null => some ""
  | some (.str s) => some s
  | some _ => none

/-- A string tagged `omitempty`. -/
def omitEmpty (s : String) : Option Json := if s = "" then none else some (.str s)

def readNum : Option Json → Option ℚ
  | none | some .null => some 0
  | some (.num q) => some q
  | some _ => none

def int (n : Int) : Json := .num n

def readInt : Option Json → Option Int
  | none | some .null => some 0
  | some (.num q) => if q.den = 1 then some q.num else none
  | some _ => none

def time (T : TimeText) (t : Int) : Json := .str (T.format t)

/-- A time tagged `omitzero`. -/
def omitZero (T : TimeText) (t : Int) : Option Json := if t = 0 then none else some (time T t)

def readTime (T : TimeText) : Option Json → Option Int
  | none | some .null => some 0
  | some (.str s) => T.parse s
  | some _ => none

@[simp] theorem readStr_str (s : String) : readStr (some (.str s)) = some s := rfl

@[simp] theorem readStr_omitEmpty (s : String) : readStr (omitEmpty s) = some s := by
  unfold omitEmpty
  split
  · next h => rw [h]; rfl
  · rfl

@[simp] theorem readNum_num (q : ℚ) : readNum (some (.num q)) = some q := rfl

@[simp] theorem readInt_int (n : Int) : readInt (some (int n)) = some n := by
  simp [readInt, int]

theorem readTime_time {T : TimeText} {t : Int} (h : T.representable t = true) :
    readTime T (some (time T t)) = some t := T.parse_format t h

theorem readTime_omitZero {T : TimeText} {t : Int} (h : t ≠ 0 → T.representable t = true) :
    readTime T (omitZero T t) = some t := by
  unfold omitZero
  split
  · next h0 => rw [h0]; rfl
  · next h0 => exact readTime_time (h h0)

/-! ## Enumerations

An enumeration is a string type with constants.  A value that is no constant is kept
as its text, and is `Canonical` if that text is not one of a constant. -/

class TextEnum (α : Type) where
  text : α → String
  ofText : String → α

def Canonical {α : Type} [TextEnum α] (a : α) : Prop := TextEnum.ofText (TextEnum.text a) = a

instance {α : Type} [TextEnum α] [DecidableEq α] (a : α) : Decidable (Canonical a) :=
  inferInstanceAs (Decidable (_ = _))

def enum {α : Type} [TextEnum α] (a : α) : Json := .str (TextEnum.text a)

def readEnum {α : Type} [TextEnum α] (j : Option Json) : Option α := (readStr j).map TextEnum.ofText

theorem readEnum_enum {α : Type} [TextEnum α] {a : α} (h : Canonical a) : readEnum (some (enum a)) = some a :=
  congrArg some h

/-! ## Pointers -/

/-- A pointer tagged `omitempty`: a nil pointer is left out, any other is written as its target. -/
def readPtr {α : Type} (read : Option Json → Option α) : Option Json → Option (Option α)
  | none | some .null => some none
  | some j => (read (some j)).map some

theorem readPtr_int (p : Option Int) : readPtr readInt (p.map int) = some p := by
  cases p with
  | none => rfl
  | some n =>
    show (readInt (some (int n))).map some = _
    rw [readInt_int]
    rfl

theorem readPtr_time {T : TimeText} {p : Option Int} (h : ∀ t ∈ p, T.representable t = true) :
    readPtr (readTime T) (p.map (time T)) = some p := by
  cases p with
  | none => rfl
  | some t =>
    show (readTime T (some (time T t))).map some = _
    rw [readTime_time (h t rfl)]
    rfl

/-! ## String lists

An empty list is the nil slice, which is written as `null`. -/

def strs : List String → Json
  | [] => .null
  | s :: l => .arr ((s :: l).map .str)

def readStrs : Option Json → Option (List String)
  | none | some .null => some []
  | some (.arr js) => js.mapM fun j => readStr (some j)
  | some _ => none

theorem mapM_readStr (l : List String) : ((l.map Json.str).mapM fun j => readStr (some j)) = some l := by
  induction l with
  | nil => rfl
  | cons s l ih => simp [ih]

@[simp] theorem readStrs_strs (l : List String) : readStrs (some (strs l)) = some l := by
  cases l with
  | nil => rfl
  | cons s l => exact mapM_readStr (s :: l)

/-! ## Lists of records -/

def readArr {α : Type} (read : Json → Option α) : Option Json → Option (List α)
  | none | some .null => some []
  | some (.arr js) => js.mapM read
  | some _ => none

theorem readArr_map {α β : Type} {write : α → Json} {read : Json → Option β} {f : α → β}
    (h : ∀ a, read (write a) = some (f a)) (l : List α) :
    readArr read (some (.arr (l.map write))) = some (l.map f) := by
  change (l.map write).mapM read = some (l.map f)
  induction l with
  | nil => rfl
  | cons a l ih => simp [h, ih]

/-! ## String maps

A map is the list of its entries, with distinct keys.  It is written by increasing
key and, tagged `omitempty`, not at all when it is empty. -/

def sortKeys (m : List (String × String)) : List (String × String) :=
  m.insertionSort fun a b => a.1 ≤ b.1

def strMap : Option (List (String × String)) → Option Json
  | none | some [] => none
  | some (e :: m) => some (.obj ((sortKeys (e :: m)).map fun e => (e.1, .str e.2)))

def readStrMap : Option Json → Option (Option (List (String × String)))
  | none | some .null => some none
  | some (.obj ms) => (ms.mapM fun e => (readStr (some e.2)).map (e.1, ·)).map some
  | some _ => none

def normMap : Option (List (String × String)) → Option (List (String × String))
  | none | some [] => none
  | some (e :: m) => some (sortKeys (e :: m))

theorem mapM_readEntry (m : List (String × String)) :
    ((m.map fun e => (e.1, Json.str e.2)).mapM fun e => (readStr (some e.2)).map (e.1, ·)) = some m := by
  induction m with
  | nil => rfl
  | cons e m ih => simp [ih]

@[simp] theorem readStrMap_strMap (m : Option (List (String × String))) :
    readStrMap (strMap m) = some (normMap m) := by
  match m with
  | none | some [] => rfl
  | some (e :: m) => exact congrArg (Option.map some) (mapM_readEntry (sortKeys (e :: m)))

theorem sortKeys_perm (m : List (String × String)) : (sortKeys m).Perm m := List.perm_insertionSort _ m

theorem sortKeys_sorted (m : List (String × String)) : (sortKeys m).Pairwise fun a b => a.1 ≤ b.1 := by
  have htotal : Std.Total fun a b : String × String => a.1 ≤ b.1 := ⟨fun a b => String.le_total a.1 b.1⟩
  have htrans : IsTrans (String × String) fun a b => a.1 ≤ b.1 := ⟨fun _ _ _ => String.le_trans⟩
  exact List.pairwise_insertionSort _ m

@[simp] theorem normMap_normMap (m : Option (List (String × String))) : normMap (normMap m) = normMap m := by
  match m with
  | none | some [] => rfl
  | some (e :: m) =>
    have hsort : sortKeys (sortKeys (e :: m)) = sortKeys (e :: m) :=
      (sortKeys_sorted (e :: m)).insertionSort_eq
    have hlen := (sortKeys_perm (e :: m)).length_eq
    show normMap (some (sortKeys (e :: m))) = some (sortKeys (e :: m))
    cases hl : sortKeys (e :: m) with
    | nil => simp [hl] at hlen
    | cons e' m' =>
      rw [hl] at hsort
      exact congrArg some hsort

/-- The entries of a map; a nil map has none. -/
def entries (m : Option (List (String × String))) : List (String × String) := m.getD []

theorem entries_normMap_perm (m : Option (List (String × String))) :
    (entries (normMap m)).Perm (entries m) := by
  match m with
  | none | some [] => exact List.Perm.refl _
  | some (e :: m) => exact sortKeys_perm (e :: m)

theorem nodup_normMap {m : Option (List (String × String))} (h : ((entries m).map Prod.fst).Nodup) :
    ((entries (normMap m)).map Prod.fst).Nodup :=
  ((entries_normMap_perm m).map Prod.fst).nodup_iff.mpr h

theorem lookup_eq_some_iff_mem {m : List (String × String)} (h : (m.map Prod.fst).Nodup) {k v : String} :
    m.lookup k = some v ↔ (k, v) ∈ m := by
  induction m with
  | nil => simp
  | cons e m ih =>
    obtain ⟨k', v'⟩ := e
    rw [List.map_cons, List.nodup_cons] at h
    by_cases hk : k = k'
    · subst hk
      have hm : (k, v) ∉ m := fun hmem => h.1 (List.mem_map.mpr ⟨(k, v), hmem, rfl⟩)
      simp [hm, eq_comm]
    · have hbeq : (k == k') = false := by simpa using hk
      rw [List.lookup_cons, hbeq, List.mem_cons]
      simp [hk, ih h.2]

/-- The normal form of a map has the same lookups. -/
theorem lookup_normMap {m : Option (List (String × String))} (h : ((entries m).map Prod.fst).Nodup)
    (k : String) : (entries (normMap m)).lookup k = (entries m).lookup k := by
  ext v
  rw [lookup_eq_some_iff_mem (nodup_normMap h), lookup_eq_some_iff_mem h]
  exact (entries_normMap_perm m).mem_iff

/-! ## Texts of records -/

variable {α : Type}

/-- The text of a record, or an error if one of its times has none. -/
def marshal (J : JsonText) (T : TimeText) (times : List Int) (fields : List (String × Option Json)) :
    Option J.Raw :=
  if times.all T.representable then some (J.print (object fields)) else none

def unmarshal (J : JsonText) (read : (String → Option Json) → Option α) (raw : J.Raw) : Option α :=
  (J.parse raw).bind fun j => readObj read (some j)

theorem unmarshal_marshal (J : JsonText) {T : TimeText} {times : List Int} {fields : List (String × Option Json)}
    {read : (String → Option Json) → Option α} {a : α} (htimes : ∀ t ∈ times, T.representable t = true)
    (hnames : (fields.map Prod.fst).Nodup) (hread : (read fun name => (fields.lookup name).join) = some a) :
    ∃ raw, marshal J T times fields = some raw ∧ unmarshal J read raw = some a := by
  refine ⟨J.print (object fields), if_pos (List.all_eq_true.mpr htimes), ?_⟩
  unfold unmarshal
  rw [J.parse_print, Option.bind_some, readObj_object read hnames, hread]

end Json

end Lib
