import Mathlib.Data.Int.Log
import Mathlib.Data.Rat.Floor

/-!
Floating-point numbers as the rationals that they stand for: the result of an operation is
the exact one, rounded to so many significant bits, ties to even. Exponents are not bounded,
so that this speaks about results which neither overflow nor are subnormal.
-/
namespace Ratfist.Rounding

def roundEven (x : ℚ) : ℤ :=
  let n := ⌊x⌋
  if x - n < 1 / 2 then n else if 1 / 2 < x - n then n + 1 else n + n % 2

/-- The nearest number of `p` significant bits. -/
def roundTo (p : ℕ) (x : ℚ) : ℚ :=
  let ulp : ℚ := 2 ^ (Int.log 2 |x| - (p - 1 : ℤ))
  roundEven (x / ulp) * ulp

def single (x : ℚ) : ℚ := roundTo 24 x

def div (round : ℚ → ℚ) (x y : ℚ) : Option ℚ := if y = 0 then none else some (round (x / y))

theorem div_of_ne_zero (round : ℚ → ℚ) (x : ℚ) {y : ℚ} (hy : y ≠ 0) :
    div round x y = some (round (x / y)) := if_neg hy

end Ratfist.Rounding
