import Mathlib.Data.List.ReduceOption
import InfraPlatform.Proxy.Discovery

/-!
# Refreshing with the same answer

`refresh` keeps the object of an entry whose name it knows with the same URL and the same weight.  It compares what
the object has, a URL text that went through `url.Parse` and a weight that is at least 1, with what the answer
says, and it knows one object per name.

* `places`: what each entry of an answer comes to: an object that is kept, a new one, or nothing.
* `Steady`: which answers are such that the same answer again keeps all objects.
* `refresh_again_iff`: these and no others.
-/

namespace Proxy

open Lib

/-! ## Lists of options -/

theorem length_reduceOption_le {α : Type} {as bs : List (Option α)}
    (h : List.Forall₂ (fun a b => b.isSome → a.isSome) as bs) : bs.reduceOption.length ≤ as.reduceOption.length := by
  induction h with
  | nil => simp
  | @cons a b as bs hab _ ih =>
    cases b with
    | none =>
      rw [List.reduceOption_cons_of_none]
      exact ih.trans (List.Sublist.length_le (by cases a <;> simp))
    | some b =>
      obtain ⟨a, rfl⟩ := Option.isSome_iff_exists.mp (hab rfl)
      simpa using ih

/-- What is listed tells where it is listed, if the second list has nothing where the first has nothing. -/
theorem eq_of_reduceOption {α : Type} {as bs : List (Option α)}
    (h : List.Forall₂ (fun a b => b.isSome → a.isSome) as bs) (heq : as.reduceOption = bs.reduceOption) : as = bs := by
  induction h with
  | nil => rfl
  | @cons a b as bs hab hbelow ih =>
    cases b with
    | none =>
      cases a with
      | none =>
        rw [List.reduceOption_cons_of_none, List.reduceOption_cons_of_none] at heq
        rw [ih heq]
      | some a =>
        -- then the rest of the second list would have more
        have hle := length_reduceOption_le hbelow
        rw [List.reduceOption_cons_of_some, List.reduceOption_cons_of_none] at heq
        have hlen := congrArg List.length heq
        rw [List.length_cons] at hlen
        omega
    | some b =>
      obtain ⟨a, rfl⟩ := Option.isSome_iff_exists.mp (hab rfl)
      rw [List.reduceOption_cons_of_some, List.reduceOption_cons_of_some] at heq
      obtain ⟨rfl, hrest⟩ := List.cons.inj heq
      rw [ih hrest]

/-! ## What an entry comes to -/

/-- The object that is kept for an entry. -/
def reusable (known : List (String × Upstream)) (spec : BackendSpec) : Option Upstream :=
  match known.lookup spec.name with
  | none => none
  | some existing => if existing.url = spec.url ∧ existing.backend.weight = spec.weight then some existing else none

theorem reusable_eq_some {known : List (String × Upstream)} {spec : BackendSpec} {u : Upstream} :
    reusable known spec = some u ↔
      known.lookup spec.name = some u ∧ u.url = spec.url ∧ u.backend.weight = spec.weight := by
  unfold reusable
  cases known.lookup spec.name with
  | none => simp
  | some existing =>
    simp only [Option.ite_none_right_eq_some, Option.some.injEq]
    constructor
    · rintro ⟨hsame, rfl⟩
      exact ⟨rfl, hsame⟩
    · rintro ⟨rfl, hsame⟩
      exact ⟨hsame, rfl⟩

section

variable (parse : String → Option String) (known : List (String × Upstream))

/-- The entry is listed: its object is kept or one can be made. -/
def isListed (spec : BackendSpec) : Bool := (reusable known spec).isSome || (parse spec.url).isSome

/-- An object is made for the entry. -/
def isNew (spec : BackendSpec) : Bool := (reusable known spec).isNone && (parse spec.url).isSome

/-- The object of an entry, a new one having the key `key`. -/
def place (key : Nat) (spec : BackendSpec) : Option Upstream :=
  match reusable known spec with
  | some u => some u
  | none => (parse spec.url).map fun url => ⟨Backend.new key spec.name spec.weight, url⟩

/-- The objects of the entries of an answer, when `key` objects were made before. -/
def places (key : Nat) : List BackendSpec → List (Option Upstream)
  | [] => []
  | spec :: specs => place parse known key spec :: places (key + (isNew parse known spec).toNat) specs

end

variable {parse : String → Option String} {known : List (String × Upstream)}

theorem place_isSome (parse : String → Option String) (known : List (String × Upstream)) (key : Nat)
    (spec : BackendSpec) : (place parse known key spec).isSome = isListed parse known spec := by
  unfold place isListed
  cases reusable known spec <;> simp

theorem length_places (key : Nat) (specs : List BackendSpec) :
    (places parse known key specs).length = specs.length := by
  induction specs generalizing key with
  | nil => rfl
  | cons spec specs ih => rw [places, List.length_cons, List.length_cons, ih]

/-- The object at a place, by the objects made before. -/
theorem getElem?_places (parse : String → Option String) (known : List (String × Upstream)) (key i : Nat)
    (specs : List BackendSpec) :
    (places parse known key specs)[i]? =
      specs[i]?.map (place parse known (key + (specs.take i).countP (isNew parse known))) := by
  induction specs generalizing key i with
  | nil => simp [places]
  | cons spec specs ih =>
    cases i with
    | zero => simp [places]
    | succ i =>
      rw [places, List.getElem?_cons_succ, List.getElem?_cons_succ, ih, List.take_succ_cons, List.countP_cons]
      congr 2
      cases isNew parse known spec <;> simp
      omega

/-! ## The loop of `refresh` -/

/-- The entries of the map, in the order in which they are written. -/
def named (specs : List BackendSpec) (us : List (Option Upstream)) : List (String × Upstream) :=
  (specs.zip us).filterMap fun e => e.2.map fun u => (e.1.name, u)

theorem add_eq (parse : String → Option String) (known : List (String × Upstream)) (acc : Refresh)
    (spec : BackendSpec) :
    (acc.add parse known spec).backends = acc.backends ++ (place parse known acc.made.length spec).toList ∧
    (acc.add parse known spec).next =
      (place parse known acc.made.length spec).toList.map (fun u => (spec.name, u)) ++ acc.next ∧
    (acc.add parse known spec).made.length = acc.made.length + (isNew parse known spec).toNat := by
  have hcreate (hno : reusable known spec = none) :
      (acc.create parse spec).backends = acc.backends ++ (place parse known acc.made.length spec).toList ∧
      (acc.create parse spec).next =
        (place parse known acc.made.length spec).toList.map (fun u => (spec.name, u)) ++ acc.next ∧
      (acc.create parse spec).made.length = acc.made.length + (isNew parse known spec).toNat := by
    unfold Refresh.create place isNew
    cases parse spec.url <;> simp [hno, Refresh.use]
  unfold Refresh.add
  cases hlook : known.lookup spec.name with
  | none => exact hcreate (by simp [reusable, hlook])
  | some existing =>
    by_cases hsame : existing.url = spec.url ∧ existing.backend.weight = spec.weight
    · have hkept : reusable known spec = some existing := reusable_eq_some.mpr ⟨hlook, hsame⟩
      simp [hsame, Refresh.use, place, isNew, hkept]
    · simp only [if_neg hsame]
      exact hcreate (by simp [reusable, hlook, hsame])

/-- **The loop of `refresh`.** -/
theorem foldl_add (parse : String → Option String) (known : List (String × Upstream)) (specs : List BackendSpec)
    (acc : Refresh) :
    (specs.foldl (Refresh.add parse · known) acc).backends =
      acc.backends ++ (places parse known acc.made.length specs).reduceOption ∧
    (specs.foldl (Refresh.add parse · known) acc).next =
      (named specs (places parse known acc.made.length specs)).reverse ++ acc.next := by
  induction specs generalizing acc with
  | nil => simp [places, named]
  | cons spec specs ih =>
    obtain ⟨hbackends, hnext, hmade⟩ := add_eq parse known acc spec
    obtain ⟨ihbackends, ihnext⟩ := ih (acc.add parse known spec)
    rw [List.foldl_cons, ihbackends, ihnext, hmade, hbackends, hnext, places]
    cases place parse known acc.made.length spec with
    | none => simp [named]
    | some u => simp [named]

theorem mem_named {specs : List BackendSpec} {us : List (Option Upstream)} {name : String} {u : Upstream} :
    (name, u) ∈ named specs us ↔ ∃ (i : Nat) (spec : BackendSpec),
      specs[i]? = some spec ∧ spec.name = name ∧ us[i]? = some (some u) := by
  simp only [named, List.mem_filterMap, Prod.exists, Option.map_eq_some_iff]
  constructor
  · rintro ⟨spec, v, hmem, w, rfl, heq⟩
    obtain ⟨i, hi⟩ := List.mem_iff_getElem?.mp hmem
    obtain ⟨rfl, rfl⟩ := Prod.mk.inj heq
    obtain ⟨hspec, hv⟩ := List.getElem?_zip_eq_some.mp hi
    exact ⟨i, spec, hspec, rfl, hv⟩
  · rintro ⟨i, spec, hspec, rfl, hu⟩
    have hzip : (specs.zip us)[i]? = some (spec, some u) := List.getElem?_zip_eq_some.mpr ⟨hspec, hu⟩
    exact ⟨spec, some u, List.mem_of_getElem? hzip, u, rfl, rfl⟩

/-! ## Answers that keep all objects -/

/-- The entry says what an object made from it says. -/
def isNormal (parse : String → Option String) (spec : BackendSpec) : Bool :=
  parse spec.url = some spec.url && 0 < spec.weight

/-- Where an object is made, the entry says what the object will say, and no other listed entry has its name. -/
def Steady (parse : String → Option String) (known : List (String × Upstream)) (specs : List BackendSpec) : Prop :=
  (∀ spec ∈ specs, isNew parse known spec = true → isNormal parse spec = true) ∧
  specs.Pairwise fun a b => a.name = b.name → isListed parse known a = true → isListed parse known b = true →
    isNew parse known a = false ∧ isNew parse known b = false

instance (parse : String → Option String) (known : List (String × Upstream)) (specs : List BackendSpec) :
    Decidable (Steady parse known specs) := inferInstanceAs (Decidable (_ ∧ _))

theorem new_weight_eq {key : Nat} {name : String} {weight : Int64} :
    (Backend.new key name weight).weight = weight ↔ 0 < weight := by
  unfold Backend.new
  dsimp only
  split
  · next hle =>
    constructor
    · intro heq
      rw [← heq] at hle
      exact absurd hle (by decide)
    · intro hpos
      exact absurd hle (Int64.not_le.mpr hpos)
  · next hle => exact ⟨fun _ => Int64.not_le.mp hle, fun _ => rfl⟩

/-- An object that is listed was kept or is new. -/
theorem place_eq_some {key : Nat} {spec : BackendSpec} {u : Upstream} (h : place parse known key spec = some u) :
    isNew parse known spec = false ∧ reusable known spec = some u ∨
    isNew parse known spec = true ∧ ∃ url, parse spec.url = some url ∧
      u = ⟨Backend.new key spec.name spec.weight, url⟩ := by
  unfold place at h
  unfold isNew
  cases hkept : reusable known spec with
  | some v => simpa [hkept] using h
  | none =>
    simp only [hkept, Option.map_eq_some_iff] at h
    obtain ⟨url, hurl, rfl⟩ := h
    exact .inr ⟨by simp [hurl], url, hurl, rfl⟩

theorem place_eq_none {key : Nat} {spec : BackendSpec} (h : place parse known key spec = none) :
    reusable known spec = none ∧ parse spec.url = none := by
  have hlisted := place_isSome parse known key spec
  rw [h] at hlisted
  simpa [isListed] using hlisted.symm

section Again

variable {specs : List BackendSpec} {key : Nat}

/-- What the provider knows after the answer. -/
abbrev knownThen (parse : String → Option String) (known : List (String × Upstream)) (specs : List BackendSpec)
    (key : Nat) : List (String × Upstream) := (named specs (places parse known key specs)).reverse

theorem lookup_knownThen {name : String} {u : Upstream} (h : (knownThen parse known specs key).lookup name = some u) :
    ∃ (i : Nat) (spec : BackendSpec), specs[i]? = some spec ∧ spec.name = name ∧
      (places parse known key specs)[i]? = some (some u) := by
  obtain ⟨l₁, l₂, hl, -⟩ := List.lookup_eq_some_iff.mp h
  have hmem : (name, u) ∈ (named specs (places parse known key specs)).reverse := by simp [hl]
  exact mem_named.mp (List.mem_reverse.mp hmem)

/-- A listed entry is known by its name. -/
theorem knownThen_of_listed {i : Nat} {spec : BackendSpec} {u : Upstream} (hspec : specs[i]? = some spec)
    (hu : (places parse known key specs)[i]? = some (some u)) :
    ∃ v, (knownThen parse known specs key).lookup spec.name = some v := by
  have hmem : (spec.name, u) ∈ knownThen parse known specs key :=
    List.mem_reverse.mpr (mem_named.mpr ⟨i, spec, hspec, rfl, hu⟩)
  cases hlook : (knownThen parse known specs key).lookup spec.name with
  | some v => exact ⟨v, rfl⟩
  | none =>
    have hno := List.lookup_eq_none_iff.mp hlook _ hmem
    simp at hno

/-! ### A steady answer -/

/-- The objects say what their entries say. -/
theorem Steady.says {i : Nat} {spec : BackendSpec} {u : Upstream} (h : Steady parse known specs)
    (hspec : specs[i]? = some spec) (hu : (places parse known key specs)[i]? = some (some u)) :
    u.url = spec.url ∧ u.backend.weight = spec.weight := by
  rw [getElem?_places, hspec, Option.map_some, Option.some.injEq] at hu
  rcases place_eq_some hu with ⟨-, hkept⟩ | ⟨hnew, url, hurl, rfl⟩
  · exact (reusable_eq_some.mp hkept).2
  · have hnormal := h.1 spec (List.mem_of_getElem? hspec) hnew
    simp only [isNormal, Bool.and_eq_true, decide_eq_true_eq] at hnormal
    rw [hurl, Option.some.injEq] at hnormal
    exact ⟨hnormal.1, new_weight_eq.mpr hnormal.2⟩

theorem isListed_of_place {i : Nat} {spec : BackendSpec} {u : Upstream} (hspec : specs[i]? = some spec)
    (hu : (places parse known key specs)[i]? = some (some u)) : isListed parse known spec = true := by
  rw [getElem?_places, hspec, Option.map_some, Option.some.injEq] at hu
  rw [← place_isSome parse known (key + (specs.take i).countP (isNew parse known)), hu]
  rfl

/-- Entries of one name have one object. -/
theorem Steady.agree {i j : Nat} {a b : BackendSpec} {u v : Upstream} (h : Steady parse known specs) (hij : i < j)
    (ha : specs[i]? = some a) (hb : specs[j]? = some b) (hname : a.name = b.name)
    (hu : (places parse known key specs)[i]? = some (some u))
    (hv : (places parse known key specs)[j]? = some (some v)) : u = v := by
  obtain ⟨hi, rfl⟩ := List.getElem?_eq_some_iff.mp ha
  obtain ⟨hj, rfl⟩ := List.getElem?_eq_some_iff.mp hb
  obtain ⟨holda, holdb⟩ := List.pairwise_iff_getElem.mp h.2 i j hi hj hij hname (isListed_of_place ha hu)
    (isListed_of_place hb hv)
  rw [getElem?_places, ha, Option.map_some, Option.some.injEq] at hu
  rw [getElem?_places, hb, Option.map_some, Option.some.injEq] at hv
  rcases place_eq_some hu with ⟨-, hu⟩ | ⟨hnew, -⟩
  · rcases place_eq_some hv with ⟨-, hv⟩ | ⟨hnew, -⟩
    · have hua := (reusable_eq_some.mp hu).1
      have hvb := (reusable_eq_some.mp hv).1
      rw [hname, hvb] at hua
      exact (Option.some.inj hua).symm
    · rw [holdb] at hnew
      cases hnew
  · rw [holda] at hnew
    cases hnew

theorem Steady.lookup {i : Nat} {spec : BackendSpec} {u : Upstream} (h : Steady parse known specs)
    (hspec : specs[i]? = some spec) (hu : (places parse known key specs)[i]? = some (some u)) :
    (knownThen parse known specs key).lookup spec.name = some u := by
  obtain ⟨v, hv⟩ := knownThen_of_listed hspec hu
  obtain ⟨j, b, hb, hname, hvj⟩ := lookup_knownThen hv
  rw [hv]
  rcases Nat.lt_trichotomy i j with hij | rfl | hij
  · rw [h.agree hij hspec hb hname.symm hu hvj]
  · rw [hvj] at hu
    exact Option.some.inj hu
  · rw [h.agree hij hb hspec hname hvj hu]

/-- A steady answer comes to the same objects again. -/
theorem Steady.places_again (h : Steady parse known specs) (key' : Nat) :
    places parse (knownThen parse known specs key) key' specs = places parse known key specs := by
  apply List.ext_getElem?
  intro i
  cases hspec : specs[i]? with
  | none => rw [getElem?_places, getElem?_places, hspec, Option.map_none, Option.map_none]
  | some spec =>
    have hfirst := getElem?_places parse known key i specs
    rw [hspec, Option.map_some] at hfirst
    rw [getElem?_places, hspec, Option.map_some, hfirst, Option.some.injEq]
    cases hplace : place parse known (key + (specs.take i).countP (isNew parse known)) spec with
    | some u =>
      rw [hplace] at hfirst
      have hkept : reusable (knownThen parse known specs key) spec = some u :=
        reusable_eq_some.mpr ⟨h.lookup hspec hfirst, h.says hspec hfirst⟩
      rw [place, hkept]
    | none =>
      obtain ⟨hno, hparse⟩ := place_eq_none hplace
      have hkept : reusable (knownThen parse known specs key) spec = none := by
        cases hv : reusable (knownThen parse known specs key) spec with
        | none => rfl
        | some v =>
          -- an object that fits the entry was made from an entry that says the same
          obtain ⟨hlook, hurl, hweight⟩ := reusable_eq_some.mp hv
          obtain ⟨j, b, hb, hname, hvj⟩ := lookup_knownThen hlook
          obtain ⟨hurl', hweight'⟩ := h.says hb hvj
          have hsame : b = spec := by
            obtain ⟨_, _, _⟩ := b
            obtain ⟨_, _, _⟩ := spec
            simp_all
          have hlisted := isListed_of_place hb hvj
          rw [hsame] at hlisted
          simp [isListed, hno, hparse] at hlisted
      simp [place, hkept, hparse]

/-! ### An answer that keeps all objects -/

/-- The objects known before have lower keys than those that are made. -/
def KeysBelow (known : List (String × Upstream)) (key : Nat) : Prop := ∀ e ∈ known, e.2.backend.key < key

theorem reusable_key {spec : BackendSpec} {u : Upstream} (hbelow : KeysBelow known key)
    (h : reusable known spec = some u) : u.backend.key < key := by
  obtain ⟨l₁, l₂, hl, -⟩ := List.lookup_eq_some_iff.mp (reusable_eq_some.mp h).1
  exact hbelow (spec.name, u) (by simp [hl])

/-- If a second pass makes no object, it lists nothing that the first does not. -/
theorem listed_before (hold : ∀ spec ∈ specs, isNew parse (knownThen parse known specs key) spec = false) (key' : Nat) :
    List.Forall₂ (fun a b => b.isSome → a.isSome) (places parse known key specs)
      (places parse (knownThen parse known specs key) key' specs) := by
  rw [List.forall₂_iff_get]
  refine ⟨by rw [length_places, length_places], ?_⟩
  intro i hi hi' hsome
  have hlt : i < specs.length := by rwa [length_places] at hi
  have hspec : specs[i]? = some specs[i] := List.getElem?_eq_getElem hlt
  have hmem : specs[i] ∈ specs := List.getElem_mem hlt
  have hfirst := getElem?_places parse known key i specs
  have hagain := getElem?_places parse (knownThen parse known specs key) key' i specs
  rw [hspec, Option.map_some, List.getElem?_eq_getElem hi, Option.some.injEq] at hfirst
  rw [hspec, Option.map_some, List.getElem?_eq_getElem hi', Option.some.injEq] at hagain
  rw [List.get_eq_getElem, hagain, place_isSome] at hsome
  rw [List.get_eq_getElem, hfirst, place_isSome]
  by_contra hno
  simp only [isListed, Bool.or_eq_true, not_or, Bool.not_eq_true, Option.isSome_eq_false_iff,
    Option.isNone_iff_eq_none] at hno
  obtain ⟨hno, hparse⟩ := hno
  simp only [isListed, hparse, Option.isSome_none, Bool.or_false] at hsome
  obtain ⟨v, hv⟩ := Option.isSome_iff_exists.mp hsome
  obtain ⟨hlook, hurl, hweight⟩ := reusable_eq_some.mp hv
  obtain ⟨j, b, hb, hname, hvj⟩ := lookup_knownThen hlook
  rw [getElem?_places, hb, Option.map_some, Option.some.injEq] at hvj
  rcases place_eq_some hvj with ⟨-, hkept⟩ | ⟨-, url, hbparse, -⟩
  · -- the object was there before, and fitted this entry then
    obtain ⟨hlook₀, -⟩ := reusable_eq_some.mp hkept
    rw [hname] at hlook₀
    have hfits : reusable known specs[i] = some v := reusable_eq_some.mpr ⟨hlook₀, hurl, hweight⟩
    rw [hno] at hfits
    cases hfits
  · -- the entry it was made from is kept by the second pass, so both entries have its URL
    have hbkept := hold b (List.mem_of_getElem? hb)
    simp only [isNew, hbparse, Option.isSome_some, Bool.and_true, Option.isNone_eq_false_iff] at hbkept
    obtain ⟨w, hw⟩ := Option.isSome_iff_exists.mp hbkept
    obtain ⟨hlookb, hurlb, -⟩ := reusable_eq_some.mp hw
    rw [hname, hlook, Option.some.injEq] at hlookb
    subst hlookb
    rw [← hurlb, hurl, hparse] at hbparse
    cases hbparse

/-- **An answer that comes to the same objects again is steady.** -/
theorem steady_of_again (hbelow : KeysBelow known key) (key' : Nat)
    (hold : ∀ spec ∈ specs, isNew parse (knownThen parse known specs key) spec = false)
    (heq : (places parse (knownThen parse known specs key) key' specs).reduceOption =
      (places parse known key specs).reduceOption) : Steady parse known specs := by
  have hsame := eq_of_reduceOption (listed_before hold key') heq.symm
  -- each listed object is the one known by the entry's name, and says what the entry says
  have hkept {i : Nat} {spec : BackendSpec} {u : Upstream} (hspec : specs[i]? = some spec)
      (hu : (places parse known key specs)[i]? = some (some u)) :
      reusable (knownThen parse known specs key) spec = some u := by
    rw [hsame, getElem?_places, hspec, Option.map_some, Option.some.injEq] at hu
    rcases place_eq_some hu with ⟨-, h⟩ | ⟨hnew, -⟩
    · exact h
    · rw [hold spec (List.mem_of_getElem? hspec)] at hnew
      cases hnew
  have hplace {i : Nat} {spec : BackendSpec} (hspec : specs[i]? = some spec)
      (hlisted : isListed parse known spec = true) : ∃ u, (places parse known key specs)[i]? = some (some u) ∧
        place parse known (key + (specs.take i).countP (isNew parse known)) spec = some u := by
    rw [← place_isSome parse known (key + (specs.take i).countP (isNew parse known))] at hlisted
    obtain ⟨u, hu⟩ := Option.isSome_iff_exists.mp hlisted
    exact ⟨u, by rw [getElem?_places, hspec, Option.map_some, hu], hu⟩
  constructor
  · intro spec hmem hnew
    obtain ⟨i, hspec⟩ := List.mem_iff_getElem?.mp hmem
    have hlisted : isListed parse known spec = true := by
      simp only [isNew, Bool.and_eq_true] at hnew
      simp [isListed, hnew.2]
    obtain ⟨u, hu, hmade⟩ := hplace hspec hlisted
    obtain ⟨-, hurl, hweight⟩ := reusable_eq_some.mp (hkept hspec hu)
    rcases place_eq_some hmade with ⟨hno, -⟩ | ⟨-, url, hparse, rfl⟩
    · rw [hnew] at hno
      cases hno
    · have hpos := new_weight_eq.mp hweight
      simp only at hurl
      simp [isNormal, hparse, hurl, hpos]
  · rw [List.pairwise_iff_getElem]
    intro i j hi hj hij hname hli hlj
    have hsi : specs[i]? = some specs[i] := List.getElem?_eq_getElem hi
    have hsj : specs[j]? = some specs[j] := List.getElem?_eq_getElem hj
    obtain ⟨u, hu, hmadeu⟩ := hplace hsi hli
    obtain ⟨v, hv, hmadev⟩ := hplace hsj hlj
    -- both are the object known by the name
    have huv : u = v := by
      have hlu := (reusable_eq_some.mp (hkept hsi hu)).1
      have hlv := (reusable_eq_some.mp (hkept hsj hv)).1
      rw [hname, hlv] at hlu
      exact (Option.some.inj hlu).symm
    subst huv
    have hcount : isNew parse known specs[i] = true →
        (specs.take i).countP (isNew parse known) < (specs.take j).countP (isNew parse known) := by
      intro hnew
      have hsplit : specs.take (i + 1) = specs.take i ++ [specs[i]] := List.take_succ_eq_append_getElem hi
      have hle : (specs.take (i + 1)).countP (isNew parse known) ≤ (specs.take j).countP (isNew parse known) :=
        (List.take_prefix_take_left (show i + 1 ≤ j by omega)).sublist.countP_le
      rw [hsplit, List.countP_append, List.countP_singleton, if_pos hnew] at hle
      omega
    rcases place_eq_some hmadeu with ⟨holdu, hku⟩ | ⟨hnewu, url, -, rfl⟩
    · rcases place_eq_some hmadev with ⟨holdv, -⟩ | ⟨-, url, -, rfl⟩
      · exact ⟨holdu, holdv⟩
      · have hkey := reusable_key hbelow hku
        simp only [Backend.new] at hkey
        omega
    · rcases place_eq_some hmadev with ⟨-, hkv⟩ | ⟨-, url', -, heqv⟩
      · have hkey := reusable_key hbelow hkv
        simp only [Backend.new] at hkey
        omega
      · have hkeys := congrArg (fun w => w.backend.key) heqv
        simp only [Backend.new] at hkeys
        have := hcount hnewu
        omega

end Again

/-! ## Two refreshes -/

namespace Fleet

variable {σ : Fleet} {specs : List BackendSpec}

theorem refresh_pool (parse : String → Option String) (σ : Fleet) (specs : List BackendSpec) :
    (σ.refresh parse (some specs)).pool = (places parse σ.known σ.made.length specs).reduceOption := by
  have hpool := (foldl_add parse σ.known specs ⟨σ.made, σ.health.alive, [], []⟩).1
  rwa [List.nil_append] at hpool

theorem refresh_known (parse : String → Option String) (σ : Fleet) (specs : List BackendSpec) :
    (σ.refresh parse (some specs)).known = knownThen parse σ.known specs σ.made.length := by
  have hnext := (foldl_add parse σ.known specs ⟨σ.made, σ.health.alive, [], []⟩).2
  rwa [List.append_nil] at hnext

theorem IsMade.key_lt {made : List Backend} {b : Backend} (h : IsMade made b) : b.key < made.length :=
  (List.getElem?_eq_some_iff.mp h).1

/-- Adding an entry leaves the flags of the objects that are there. -/
theorem add_alive (parse : String → Option String) (known : List (String × Upstream)) (acc : Refresh)
    (spec : BackendSpec) {k : Nat} (hk : k < acc.made.length) :
    (acc.add parse known spec).alive k = acc.alive k ∧ k < (acc.add parse known spec).made.length := by
  have hcreate : (acc.create parse spec).alive k = acc.alive k ∧ k < (acc.create parse spec).made.length := by
    unfold Refresh.create
    cases parse spec.url with
    | none => exact ⟨rfl, hk⟩
    | some url =>
      have hne : k ≠ acc.made.length := by omega
      simp [Refresh.use, Backend.new, hne]
      omega
  unfold Refresh.add
  split
  · exact hcreate
  · split
    · exact ⟨rfl, hk⟩
    · exact hcreate

/-- A refresh leaves the flags of the objects that are there. -/
theorem refresh_keeps_alive (parse : String → Option String) (σ : Fleet) (specs : List BackendSpec) {b : Backend}
    (hb : IsMade σ.made b) : (σ.refresh parse (some specs)).health.alive b.key = σ.health.alive b.key := by
  have hfold (acc : Refresh) (hk : b.key < acc.made.length) :
      (specs.foldl (Refresh.add parse · σ.known) acc).alive b.key = acc.alive b.key := by
    induction specs generalizing acc with
    | nil => rfl
    | cons spec specs ih =>
      obtain ⟨halive, hlt⟩ := add_alive parse σ.known acc spec hk
      rw [List.foldl_cons, ih _ hlt, halive]
  exact hfold _ hb.key_lt

/-- **The same answer again**: the pool lists the same objects, place by place, exactly if the answer is steady; the
flags of the objects that were in the pool are left alone in any case. -/
theorem refresh_again_iff (parse : String → Option String) (σ : Fleet)
    (hknown : ∀ e ∈ σ.known, IsMade σ.made e.2.backend) (specs : List BackendSpec) :
    (((σ.refresh parse (some specs)).refresh parse (some specs)).pool = (σ.refresh parse (some specs)).pool ↔
      Steady parse σ.known specs) ∧
    ∀ u ∈ (σ.refresh parse (some specs)).pool,
      ((σ.refresh parse (some specs)).refresh parse (some specs)).health.alive u.backend.key =
        (σ.refresh parse (some specs)).health.alive u.backend.key := by
  have hkeeps := keeps_refresh parse σ.health.alive hknown specs
  have hmade : ∀ u ∈ (σ.refresh parse (some specs)).pool, IsMade (σ.refresh parse (some specs)).made u.backend :=
    hkeeps.backends
  refine ⟨?_, fun u hu => refresh_keeps_alive parse _ specs (hmade u hu)⟩
  have hbelow : KeysBelow σ.known σ.made.length := fun e he => (hknown e he).key_lt
  have hagain := refresh_pool parse (σ.refresh parse (some specs)) specs
  rw [refresh_known] at hagain
  constructor
  · intro heq
    refine steady_of_again hbelow (σ.refresh parse (some specs)).made.length ?_ ?_
    · intro spec hmem
      by_contra hnew
      -- a new object would be listed now and not before
      obtain ⟨i, hspec⟩ := List.mem_iff_getElem?.mp hmem
      have hplace := getElem?_places parse (knownThen parse σ.known specs σ.made.length)
        (σ.refresh parse (some specs)).made.length i specs
      rw [hspec, Option.map_some] at hplace
      rw [Bool.not_eq_false] at hnew
      obtain ⟨hno, hparse⟩ : reusable (knownThen parse σ.known specs σ.made.length) spec = none ∧
          (parse spec.url).isSome := by simpa [isNew] using hnew
      obtain ⟨url, hurl⟩ := Option.isSome_iff_exists.mp hparse
      simp only [place, hno, hurl, Option.map_some] at hplace
      have hlisted := List.reduceOption_mem_iff.mpr (List.mem_of_getElem? hplace)
      rw [← hagain, heq] at hlisted
      have hlt := (hmade _ hlisted).key_lt
      simp only [Backend.new] at hlt
      omega
    · rw [← hagain, heq, refresh_pool]
  · intro hsteady
    rw [hagain, hsteady.places_again, refresh_pool]

/-- A provider that has not heard anything yet. -/
def unheard : Fleet := { health := .start ⟨3, 2⟩ }

/-- Two backends with their weights. -/
def plainAnswer : List BackendSpec :=
  [{ name := "a", url := "http://10.0.0.1:80", weight := 1 }, { name := "b", url := "http://10.0.0.2:80", weight := 2 }]

theorem refresh_again_iff_plain : (unheard.refresh some (some plainAnswer)).pool.length = 2 ∧
    ((unheard.refresh some (some plainAnswer)).refresh some (some plainAnswer)).pool =
      (unheard.refresh some (some plainAnswer)).pool :=
  ⟨by decide +kernel, (refresh_again_iff some unheard (by simp [unheard]) plainAnswer).1.mpr (by decide +kernel)⟩

/-- An entry without a weight gets another object with each refresh. -/
theorem replaced_without_weight : ¬ ∀ (parse : String → Option String) (σ : Fleet) (specs : List BackendSpec),
    (∀ e ∈ σ.known, IsMade σ.made e.2.backend) →
      ((σ.refresh parse (some specs)).refresh parse (some specs)).pool = (σ.refresh parse (some specs)).pool := by
  intro h
  have hpool := h some unheard [{ name := "a", url := "http://10.0.0.1:80" }] (by simp [unheard])
  revert hpool
  decide +kernel

end Fleet

end Proxy
