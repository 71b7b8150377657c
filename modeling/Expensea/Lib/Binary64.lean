import Expensea.Lib.Decimal

namespace Binary64

open DecimalArith

/-!
# Double precision

The values of IEEE 754 binary64 numbers and the rounding of exact results to them.

* `exponent` — the power of two below a number;
* `nearest` — the nearest double, ties to even;
* `overflows` — the nearest double is an infinity.
-/

/-- `⌊log₂ |q|⌋` of a number that is not zero. -/
def exponent (q : ℚ) : ℤ :=
  let e : ℤ := (Nat.log2 q.num.natAbs : ℤ) - Nat.log2 q.den
  if (2 : ℚ) ^ e ≤ |q| then e else e - 1

/-- The distance between doubles of the size of a number: 53 significant bits, and no less than the
    smallest subnormal number. -/
def spacing (q : ℚ) : ℚ := 2 ^ max (exponent q - 52) (-1074)

/-- The nearest double, ties to even, as if there were no largest one. -/
def nearest (q : ℚ) : ℚ := if q = 0 then 0 else roundHalfEven (q / spacing q) * spacing q

/-- The nearest double is beyond the largest finite one. -/
def overflows (q : ℚ) : Bool := (2 : ℚ) ^ 1024 ≤ |nearest q|

example : nearest (1 / 10) = 3602879701896397 / 36028797018963968 := by decide +kernel

end Binary64
