import Expensea.Lib.Decimal
import Mathlib.Data.Rat.Floor
import Mathlib.Tactic.NormNum

namespace Expensea

open DecimalArith

/-!
# Exact money

`app/domain/money.py` over `decimal.Decimal` values, and the `NUMERIC` columns that store
them (`app/db/base.py`).

* `Decimal` — a Python decimal by its value; arithmetic rounds to the default context;
* `validatePositiveMoney` — the check every amount passes;
* `Money`, `Confidence` — what a `NUMERIC(19, 4)` amount and a `NUMERIC(5, 4)` confidence
  column can hold.
-/

/-- A `decimal.Decimal`, by value. -/
inductive Decimal where
  | finite (value : ℚ)
  | infinity (negative : Bool)
  | nan
  deriving DecidableEq, Repr

/-- The default context: 28 significant digits, `Emin = -999999`. -/
def defaultContext : Context := ⟨28, -1000026⟩

/-- `a + b` in the default context. -/
def decAdd (a b : ℚ) : ℚ := defaultContext.round (a + b)

/-- `a - b` in the default context. -/
def decSub (a b : ℚ) : ℚ := defaultContext.round (a - b)

/-- `a * b` in the default context. -/
def decMul (a b : ℚ) : ℚ := defaultContext.round (a * b)

/-- `a / b` in the default context. -/
def decDiv (a b : ℚ) : ℚ := defaultContext.round (a / b)

/-- `value.quantize(Decimal("0.0001"))`, ties to even. -/
def quantizeHalfEven (x : ℚ) : ℚ := roundHalfEven (x * 10 ^ 4) / 10 ^ 4

/-- `value.quantize(Decimal("0.0001"), rounding=ROUND_HALF_UP)` -/
def quantizeHalfUp (x : ℚ) : ℚ := roundHalfUp (x * 10 ^ 4) / 10 ^ 4

/-- `_MAX_ABSOLUTE_AMOUNT` -/
def MAX_ABSOLUTE_AMOUNT : ℚ := 10 ^ 15

/-- `MONEY_SCALE` -/
def MONEY_SCALE : Nat := 4

/-- `-value.normalize().as_tuple().exponent` is at most `scale`: the value rounded to the
    context has at most that many fractional digits. -/
def fitsScale (scale : Nat) (value : ℚ) : Bool :=
  (defaultContext.round value * 10 ^ scale).den == 1

/-- `validate_positive_money`: the value unchanged, or the message of the `ValueError`. -/
def validatePositiveMoney : Decimal → Except String ℚ
  | .finite value =>
    if value ≤ 0 then .error "Amount must be greater than zero"
    else if MAX_ABSOLUTE_AMOUNT ≤ value then .error "Amount exceeds NUMERIC(19, 4)"
    else if fitsScale MONEY_SCALE value then .ok value
    else .error "Amount cannot have more than 4 fractional digits"
  | _ => .error "Amount must be finite"

/-! ### Columns -/

/-- A `NUMERIC(19, 4)` value, in units of `0.0001`. -/
structure Money where
  units : ℤ
  range : |units| < 10 ^ 19
  deriving DecidableEq

/-- The value Python reads back. -/
def Money.value (m : Money) : ℚ := m.units / 10 ^ 4

/-- What `NUMERIC(19, 4)` stores of a value: rounded to four places, or out of range. -/
def Money.store (value : ℚ) : Option Money :=
  if h : |fixed 4 value| < 10 ^ 19 then some ⟨fixed 4 value, h⟩ else none

/-- A `NUMERIC(5, 4)` value between zero and one, in units of `0.0001`. -/
structure Confidence where
  units : Nat
  range : units ≤ 10000
  deriving DecidableEq

/-- The value Python reads back. -/
def Confidence.value (c : Confidence) : ℚ := c.units / 10 ^ 4

/-- What a confidence column stores of a value: rounded to four places, or rejected by the
    column's range check. -/
def Confidence.store (value : ℚ) : Option Confidence :=
  if h : 0 ≤ fixed 4 value ∧ (fixed 4 value).toNat ≤ 10000 then
    some ⟨(fixed 4 value).toNat, h.2⟩
  else none

/-- `Decimal("1.0000")` -/
def Confidence.one : Confidence := ⟨10000, le_rfl⟩

theorem Money.value_injective {a b : Money} (h : a.value = b.value) : a = b := by
  obtain ⟨a, ha⟩ := a
  obtain ⟨b, hb⟩ := b
  have : (a : ℚ) = b := by
    simp only [Money.value] at h
    linarith
  simpa using this

@[simp] theorem Money.store_value (m : Money) : Money.store m.value = some m := by
  have hfixed : fixed 4 m.value = m.units := by
    rw [fixed, Money.value, div_mul_cancel₀ _ (by norm_num), roundHalfUp_intCast]
  rw [Money.store]
  simp only [hfixed, dif_pos m.range]

/-! ### What an accepted amount is stored as -/

section Accepted

/-- An accepted amount is positive, in range, and rounds to a multiple of `0.0001`. -/
theorem validatePositiveMoney_ok {d : Decimal} {value : ℚ}
    (h : validatePositiveMoney d = .ok value) :
    d = .finite value ∧ 0 < value ∧ value < 10 ^ 15 ∧
      ∃ n : ℤ, defaultContext.round value = n * 10 ^ (-4 : ℤ) := by
  cases d with
  | infinity b => simp [validatePositiveMoney] at h
  | nan => simp [validatePositiveMoney] at h
  | finite v =>
    simp only [validatePositiveMoney] at h
    split_ifs at h with hpos hmax hfit
    obtain rfl : v = value := by simpa using h
    refine ⟨rfl, not_le.1 hpos, not_le.1 hmax, ?_⟩
    have hden : (defaultContext.round v * 10 ^ 4).den = 1 := by
      simpa [fitsScale, MONEY_SCALE] using hfit
    refine ⟨(defaultContext.round v * 10 ^ 4).num, ?_⟩
    have hnum : ((defaultContext.round v * 10 ^ 4).num : ℚ) = defaultContext.round v * 10 ^ 4 :=
      Rat.coe_int_num_of_den_eq_one hden
    rw [hnum]
    norm_num
    ring

/-- The stored form of an accepted amount is its rounding to the context. -/
theorem fixed_of_accepted {value : ℚ} {n : ℤ} (hpos : 0 < value) (hlt : value < 10 ^ 15)
    (hn : defaultContext.round value = n * 10 ^ (-4 : ℤ)) : fixed 4 value = n := by
  refine fixed_eq_of_round (c := defaultContext) hpos (by simpa using hn) ?_ (by decide)
  refine hlt.trans ?_
  norm_num [defaultContext]

/-- Adding an accepted amount to a stored sum, in the context, adds its stored form. -/
theorem decAdd_accepted {value : ℚ} {m n : ℤ} (hpos : 0 < value) (hlt : value < 10 ^ 15)
    (hn : defaultContext.round value = n * 10 ^ (-4 : ℤ)) (hm : 0 ≤ m) (hmax : m < 10 ^ 19) :
    decAdd (m / 10 ^ 4) value = (m + n : ℤ) / 10 ^ 4 := by
  have hunit : (m / 10 ^ 4 : ℚ) = m * 10 ^ (-4 : ℤ) := by
    norm_num
    ring
  have hm' : (0 : ℚ) ≤ m * 10 ^ (-4 : ℤ) := by
    have : (0 : ℚ) ≤ m := by exact_mod_cast hm
    positivity
  have hmax' : (m * 10 ^ (-4 : ℤ) : ℚ) < 10 ^ 15 := by
    have : (m : ℚ) < 10 ^ 19 := by exact_mod_cast hmax
    norm_num at this ⊢
    linarith
  rw [decAdd, hunit, Context.round_add hm' hpos hn ?_ (by decide), hn]
  · push_cast
    norm_num
    ring
  · refine (add_lt_add hmax' hlt).trans ?_
    norm_num [defaultContext]

/-- Subtracting sums of units is exact while the difference has at most 28 digits. -/
theorem decSub_exact {m n : ℤ} (hmax : |m - n| < 10 ^ 28) :
    decSub (m / 10 ^ 4) (n / 10 ^ 4) = (m - n : ℤ) / 10 ^ 4 := by
  have hunit : ((m - n : ℤ) / 10 ^ 4 : ℚ) = (m - n : ℤ) * 10 ^ (-4 : ℤ) := by
    norm_num
    ring
  have hmax' : |((m - n : ℤ) : ℚ)| < 10 ^ 28 := by exact_mod_cast hmax
  rw [decSub, ← sub_div, ← Int.cast_sub, hunit]
  refine Context.round_multiple_abs ?_ (by decide)
  rw [abs_mul, abs_of_pos (by positivity : (0 : ℚ) < 10 ^ (-4 : ℤ))]
  calc |((m - n : ℤ) : ℚ)| * 10 ^ (-4 : ℤ) < 10 ^ 28 * 10 ^ (-4 : ℤ) :=
        mul_lt_mul_of_pos_right hmax' (by positivity)
    _ = 10 ^ (-4 + (28 : ℕ) : ℤ) := by norm_num

/-- Subtracting stored sums in the context is exact. -/
theorem decSub_units {m n : ℤ} (hle : n ≤ m) (hmax : m - n < 10 ^ 19) :
    decSub (m / 10 ^ 4) (n / 10 ^ 4) = (m - n : ℤ) / 10 ^ 4 := by
  have hunit : (m / 10 ^ 4 - n / 10 ^ 4 : ℚ) = (m - n : ℤ) * 10 ^ (-4 : ℤ) := by
    push_cast
    norm_num
    ring
  rw [decSub, hunit]
  rcases eq_or_lt_of_le hle with rfl | hlt
  · have hzero : roundHalfEven 0 = 0 := by simpa using roundHalfEven_intCast 0
    simp [Context.round, hzero]
  · have hpos : (0 : ℚ) < (m - n : ℤ) := by exact_mod_cast sub_pos.2 hlt
    have hlt' : ((m - n : ℤ) : ℚ) < 10 ^ 19 := by exact_mod_cast hmax
    rw [Context.round_multiple (by positivity) ?_ (by decide)]
    · norm_num
      ring
    · norm_num [defaultContext] at hlt' ⊢
      linarith

/-- An accepted amount that does not exceed a stored sum is not stored as more. -/
theorem stored_le_of_accepted {value : ℚ} {m n : ℤ} (hpos : 0 < value)
    (hlt : value < 10 ^ 15) (hn : defaultContext.round value = n * 10 ^ (-4 : ℤ))
    (hle : value ≤ m / 10 ^ 4) : n ≤ m := by
  have hfine : defaultContext.exponent value < -4 := by
    refine Context.exponent_lt hpos (hlt.trans ?_) (by decide)
    norm_num [defaultContext]
  have hnear := (abs_le.1 (Context.abs_sub_round (c := defaultContext) value)).1
  have hunit : (10 : ℚ) ^ defaultContext.exponent value < 10 ^ (-4 : ℤ) :=
    zpow_lt_zpow_right₀ (by norm_num) hfine
  rw [hn] at hnear
  have hlt' : (n : ℚ) < m + 1 := by
    norm_num at hunit hnear hle ⊢
    linarith
  have : n < m + 1 := by exact_mod_cast hlt'
  omega

end Accepted

end Expensea
