import Mathlib.Algebra.Order.Field.Rat
import Mathlib.Tactic

/-!
# Machine numbers

* `wrapInt64`: what is left of a result in 64 bits, two's complement.  A chain of sums and differences may be
  wrapped at every step or once at its end.
* `Float64.sub`: the difference of two doubles, rounded to the nearest one, ties to even.  A double is the rational
  that it stands for; the infinities are `2 ^ 1024` and its negative, where the finite ones would go on.  There is no
  NaN: it does not come out of a difference whose second operand is finite.
-/

namespace Lib

/-! ## Integers -/

def wrapInt64 (x : Int) : Int := x.bmod (2 ^ 64)

/-- A value of the type `int64`. -/
def IsInt64 (x : Int) : Prop := -2 ^ 63 ≤ x ∧ x < 2 ^ 63

instance (x : Int) : Decidable (IsInt64 x) := inferInstanceAs (Decidable (-2 ^ 63 ≤ x ∧ x < 2 ^ 63))

theorem wrapInt64_of {x : Int} (h : IsInt64 x) : wrapInt64 x = x := by
  obtain ⟨hlo, hhi⟩ := h
  unfold wrapInt64
  rw [Int.bmod_eq_iff (by decide)]
  omega

theorem isInt64_wrapInt64 (x : Int) : IsInt64 (wrapInt64 x) := by
  have hlo := Int.le_bmod (x := x) (m := 2 ^ 64) (by decide)
  have hhi := Int.bmod_lt (x := x) (m := 2 ^ 64) (by decide)
  unfold IsInt64 wrapInt64
  omega

theorem wrapInt64_wrapInt64_add (x y : Int) : wrapInt64 (wrapInt64 x + y) = wrapInt64 (x + y) := Int.bmod_add_bmod

theorem wrapInt64_wrapInt64_sub (x y : Int) : wrapInt64 (wrapInt64 x - y) = wrapInt64 (x - y) := Int.bmod_sub_bmod

theorem wrapInt64_le_self (x : Int) (hx : 0 ≤ x) : wrapInt64 x ≤ x := by
  unfold wrapInt64
  rw [Int.bmod_def]
  have hle : x % (2 ^ 64 : Nat) ≤ x := by omega
  split <;> omega

/-! ## Doubles -/

namespace Float64

def pow2 (e : Int) : ℚ := if 0 ≤ e then (2 ^ e.toNat : Nat) else mkRat 1 (2 ^ (-e).toNat)

/-- The integer part of the logarithm of a positive number: the quotient of two powers of two is off by one at most. -/
def log2 (x : ℚ) : Int :=
  let e : Int := x.num.natAbs.log2 - x.den.log2
  if pow2 e ≤ x then e else e - 1

/-- The unit in the last place of a double of this size, subnormal ones included. -/
def ulp (x : ℚ) : ℚ := pow2 (max (log2 x - 52) (-1074))

def roundEven (q : ℚ) : Int :=
  let below := q.floor
  if q - below < mkRat 1 2 then below
  else if q - below > mkRat 1 2 then below + 1
  else if below % 2 = 0 then below else below + 1

/-- The nearest number of 53 significant bits, whatever its size. -/
def round (x : ℚ) : ℚ :=
  if x = 0 then 0
  else
    let u := ulp (if x < 0 then -x else x)
    roundEven (x / u) * u

def inf : ℚ := pow2 1024

def sub (a b : ℚ) : ℚ := if a = inf ∨ a = -inf then a else max (-inf) (min inf (round (a - b)))

-- 0.3 - 0.1 is not the double nearest 0.2
example : sub (mkRat 5404319552844595 18014398509481984) (mkRat 3602879701896397 36028797018963968) =
    mkRat 7205759403792793 36028797018963968 := by decide +kernel

end Float64

end Lib
