import Mathlib.Tactic

/-!
# Percent-encoding

Byte strings in which `%XY` stands for the byte with hexadecimal digits `X` and `Y`.  `escape keep` writes every byte
outside `keep` that way, `unescape` reads a byte string back or fails.

* `unescape_iff`: `Decodes`, reading as a relation, byte by byte.
* `Decodes.of_escape`: what was escaped is read back.
* `Decodes.append_inj`: where the text of a decoded part ends is determined by how many bytes it stands for.
* `Decodes.snoc`: a last byte that is neither a percent sign nor a hexadecimal digit stands for itself.
-/

namespace Lib.Percent

/-- The percent sign. -/
def percent : UInt8 := 37

/-- The value of a hexadecimal digit, in upper or lower case. -/
def unhex (c : UInt8) : Option UInt8 :=
  if 48 ≤ c ∧ c ≤ 57 then some (c - 48)
  else if 97 ≤ c ∧ c ≤ 102 then some (c - 97 + 10)
  else if 65 ≤ c ∧ c ≤ 70 then some (c - 65 + 10)
  else none

/-- The upper-case digit of a value below 16. -/
def hexDigit (n : UInt8) : UInt8 := if n < 10 then 48 + n else 55 + n

def escapeByte (keep : UInt8 → Bool) (c : UInt8) : List UInt8 :=
  if keep c then [c] else [percent, hexDigit (c >>> 4), hexDigit (c &&& 15)]

def escape (keep : UInt8 → Bool) (s : List UInt8) : List UInt8 := s.flatMap (escapeByte keep)

/-- The byte that two digits stand for. -/
def unhexPair (a b : UInt8) : Option UInt8 :=
  match unhex a, unhex b with
  | some x, some y => some (x <<< 4 ||| y)
  | _, _ => none

def unescape : List UInt8 → Option (List UInt8)
  | [] => some []
  | c :: s =>
    if c = percent then
      match s with
      | a :: b :: s =>
        match unhexPair a b with
        | some c => (unescape s).map (c :: ·)
        | none => none
      | _ => none
    else (unescape s).map (c :: ·)

/-! ## Reading as a relation -/

/-- The text reads as these bytes. -/
inductive Decodes : List UInt8 → List UInt8 → Prop where
  | nil : Decodes [] []
  | plain {c : UInt8} {s t : List UInt8} : c ≠ percent → Decodes s t → Decodes (c :: s) (c :: t)
  | coded {a b c : UInt8} {s t : List UInt8} : unhexPair a b = some c → Decodes s t →
      Decodes (percent :: a :: b :: s) (c :: t)

theorem Decodes.unescape {s t : List UInt8} (h : Decodes s t) : unescape s = some t := by
  induction h with
  | nil => rfl
  | plain hc _ ih =>
    rw [Percent.unescape.eq_def]
    simp only [if_neg hc, ih, Option.map_some]
  | coded hab _ ih =>
    rw [Percent.unescape.eq_def]
    simp only [if_pos, hab, ih, Option.map_some]

theorem decodes_of_unescape {s t : List UInt8} (h : unescape s = some t) : Decodes s t := by
  induction s using Percent.unescape.induct generalizing t with
  | case1 =>
    obtain rfl := Option.some.inj h
    exact .nil
  | case2 a b s c hab ih =>
    rw [Percent.unescape.eq_def] at h
    simp only [if_pos, hab, Option.map_eq_some_iff] at h
    obtain ⟨t, hs, rfl⟩ := h
    exact .coded hab (ih hs)
  | case3 a b s hab =>
    rw [Percent.unescape.eq_def] at h
    simp [hab] at h
  | case4 s hshort =>
    rw [Percent.unescape.eq_def] at h
    rcases s with _ | ⟨a, _ | ⟨b, s⟩⟩
    · simp at h
    · simp at h
    · exact absurd rfl (hshort a b s)
  | case5 c s hc ih =>
    rw [Percent.unescape.eq_def] at h
    simp only [if_neg hc, Option.map_eq_some_iff] at h
    obtain ⟨t, hs, rfl⟩ := h
    exact .plain hc (ih hs)

theorem unescape_iff {s t : List UInt8} : unescape s = some t ↔ Decodes s t := ⟨decodes_of_unescape, Decodes.unescape⟩

namespace Decodes

variable {s t u v p q : List UInt8}

theorem det (h : Decodes s p) (h' : Decodes s q) : p = q := by
  have hp := h.unescape
  rw [h'.unescape] at hp
  exact (Option.some.inj hp).symm

theorem append (h : Decodes s p) (h' : Decodes t q) : Decodes (s ++ t) (p ++ q) := by
  induction h with
  | nil => exact h'
  | plain hc _ ih => exact .plain hc ih
  | coded hab _ ih => exact .coded hab ih

/-- Only the empty text reads as nothing. -/
theorem eq_nil (h : Decodes s []) : s = [] := by
  cases h
  rfl

/-- Where a part of the text ends is determined by the bytes it stands for. -/
theorem append_inj (h : Decodes s p) (h' : Decodes t p) (heq : s ++ u = t ++ v) : s = t := by
  induction h generalizing t with
  | nil => exact h'.eq_nil.symm
  | @plain c s p hc _ ih =>
    cases h' with
    | plain _ ht =>
      rw [List.cons_append, List.cons_append] at heq
      rw [ih ht (List.cons.inj heq).2]
    | coded _ _ => exact absurd (List.cons.inj heq).1 hc
  | @coded a b c s p hab _ ih =>
    cases h' with
    | plain hc _ => exact absurd (List.cons.inj heq).1.symm hc
    | coded _ ht =>
      simp only [List.cons_append, List.cons.injEq, true_and] at heq
      obtain ⟨rfl, rfl, heq⟩ := heq
      rw [ih ht heq]

/-- A first byte other than a percent sign stands for itself. -/
theorem cons {c : UInt8} (hc : c ≠ percent) (h : Decodes (c :: s) p) : ∃ q, p = c :: q ∧ Decodes s q := by
  cases h with
  | plain _ hs => exact ⟨_, rfl, hs⟩
  | coded _ _ => exact absurd rfl hc

/-- So does a last one that is no hexadecimal digit either. -/
theorem snoc {c : UInt8} (hc : c ≠ percent) (hhex : unhex c = none) (h : Decodes (s ++ [c]) p) :
    ∃ q, p = q ++ [c] ∧ Decodes s q := by
  generalize htext : s ++ [c] = text at h
  induction h generalizing s with
  | nil => simp at htext
  | @plain d text p hd hrest ih =>
    cases s with
    | nil =>
      obtain ⟨rfl, rfl⟩ := List.cons.inj htext
      cases hrest
      exact ⟨[], rfl, .nil⟩
    | cons e s =>
      obtain ⟨rfl, hshort⟩ := List.cons.inj htext
      obtain ⟨q, rfl, hs⟩ := ih hshort
      exact ⟨e :: q, rfl, .plain hd hs⟩
  | @coded a b d text p hab hrest ih =>
    -- the last byte is not one of the three that encode the first one
    rcases s with _ | ⟨e, _ | ⟨a', _ | ⟨b', s⟩⟩⟩
    · exact absurd (List.cons.inj htext).1 hc
    · simp at htext
    · simp only [List.cons_append, List.nil_append, List.cons.injEq] at htext
      obtain ⟨rfl, rfl, rfl, -⟩ := htext
      simp [unhexPair, hhex] at hab
    · simp only [List.cons_append, List.cons.injEq] at htext
      obtain ⟨rfl, rfl, rfl, hshort⟩ := htext
      obtain ⟨q, rfl, hs⟩ := ih hshort
      exact ⟨d :: q, rfl, .coded hab hs⟩

end Decodes

/-! ## Writing -/

theorem escape_append (keep : UInt8 → Bool) (s t : List UInt8) :
    escape keep (s ++ t) = escape keep s ++ escape keep t := List.flatMap_append

theorem escape_cons (keep : UInt8 → Bool) (c : UInt8) (s : List UInt8) :
    escape keep (c :: s) = escapeByte keep c ++ escape keep s := rfl

theorem escape_kept {keep : UInt8 → Bool} {c : UInt8} (hc : keep c = true) : escape keep [c] = [c] := by
  simp [escape, escapeByte, hc]

theorem unhexPair_hexDigit_all : ∀ n < 256,
    unhexPair (hexDigit (UInt8.ofNat n >>> 4)) (hexDigit (UInt8.ofNat n &&& 15)) = some (UInt8.ofNat n) := by
  decide +kernel

theorem unhexPair_hexDigit (c : UInt8) : unhexPair (hexDigit (c >>> 4)) (hexDigit (c &&& 15)) = some c := by
  have h := unhexPair_hexDigit_all c.toNat c.toNat_lt
  rwa [UInt8.ofNat_toNat] at h

/-- **What was escaped is read back**, if the percent sign itself is escaped. -/
theorem Decodes.of_escape {keep : UInt8 → Bool} (hkeep : keep percent = false) (s : List UInt8) :
    Decodes (escape keep s) s := by
  induction s with
  | nil => exact .nil
  | cons c s ih =>
    rw [escape_cons, escapeByte]
    split
    · next hc =>
      refine .plain ?_ ih
      rintro rfl
      rw [hkeep] at hc
      cases hc
    · exact .coded (unhexPair_hexDigit c) ih

end Lib.Percent
