import Expensea.Ledger.Obligations
import Expensea.Ledger.Service

namespace Expensea.Ledger

open DecimalArith

/-!
# Exact amounts

Which decimals `validate_positive_money` accepts, and what the parsers of transactions,
obligations, settlements and recurring payments make of them.  `Decimal.normalize` rounds to the
28 significant digits of the context before the decimal places are counted.

* `Exact` — a value with at most four decimal places;
* `Vanishes` — the further decimal places of a value lie beyond the context's last digit;
* `accepts_exact_iff` — where the check accepts exactly the amounts a column can hold.
-/

/-- `value * 10 ** 4` is an integer. -/
def Exact (value : ℚ) : Prop := ∃ n : ℤ, value * 10 ^ 4 = n

/-- The value is not a multiple of `0.0001`, and the nearest one is at most half a unit in the
    last of its 28 digits away. -/
def Vanishes (value : ℚ) : Prop :=
  ∃ n : ℤ, value * 10 ^ 4 ≠ n ∧ |value - n * 10 ^ (-4 : ℤ)| ≤
    1 / 2 * 10 ^ max (Int.log 10 value - 27) (-1000026)

/-- The check accepts a value exactly if it is an amount, and returns it unchanged. -/
def AcceptsExact (value : ℚ) : Prop :=
  ∀ returned, validatePositiveMoney (.finite value) = .ok returned ↔
    returned = value ∧ 0 < value ∧ value < 10 ^ 15 ∧ Exact value

section Exact

variable {value : ℚ}

/-- Exact amounts in range are what a column can hold. -/
theorem exact_iff_money (hpos : 0 < value) (hlt : value < 10 ^ 15) :
    Exact value ↔ ∃ m : Money, m.value = value := by
  constructor
  · intro h
    obtain ⟨n, hn⟩ := h
    have hupper : (n : ℚ) < 10 ^ 19 := by
      rw [← hn]
      linarith
    have hlower : (0 : ℚ) < n := by
      rw [← hn]
      linarith
    have hupper' : n < 10 ^ 19 := by exact_mod_cast hupper
    have hlower' : 0 < n := by exact_mod_cast hlower
    refine ⟨⟨n, by rw [abs_of_pos hlower']; exact hupper'⟩, ?_⟩
    rw [Money.value, ← hn]
    exact mul_div_cancel_right₀ value (by norm_num)
  · intro h
    obtain ⟨m, rfl⟩ := h
    exact ⟨m.units, by rw [Money.value, div_mul_cancel₀ _ (by norm_num)]⟩

/-- An integer number of ten-thousandths, either way. -/
theorem eq_multiple_iff {x : ℚ} {n : ℤ} : x = n * 10 ^ (-4 : ℤ) ↔ x * 10 ^ 4 = n := by
  rw [show (10 : ℚ) ^ (-4 : ℤ) = 1 / 10 ^ 4 by norm_num, mul_one_div, eq_div_iff (by norm_num)]

/-- The scale check passes where the rounded value is a multiple of `0.0001`. -/
theorem fitsScale_iff : fitsScale MONEY_SCALE value = true ↔
    ∃ n : ℤ, defaultContext.round value = n * 10 ^ (-4 : ℤ) := by
  simp only [fitsScale, MONEY_SCALE, beq_iff_eq, eq_multiple_iff]
  constructor
  · intro h
    exact ⟨_, (Rat.coe_int_num_of_den_eq_one h).symm⟩
  · intro h
    obtain ⟨n, hn⟩ := h
    rw [hn, Rat.den_intCast]

/-- What the scale check lets through: the exact amounts, and those whose further digits vanish. -/
theorem fitsScale_iff_exact (hpos : 0 < value) (hlt : value < 10 ^ 15) :
    fitsScale MONEY_SCALE value = true ↔ Exact value ∨ Vanishes value := by
  have hexponent : defaultContext.exponent value =
      max (Int.log 10 value - 27) (-1000026) := by
    rw [Context.exponent, abs_of_pos hpos]
    rfl
  have hfine : defaultContext.exponent value < -4 := by
    refine Context.exponent_lt hpos (hlt.trans ?_) (by decide)
    norm_num [defaultContext]
  rw [fitsScale_iff, Context.round_eq_multiple_iff hfine, hexponent]
  constructor
  · intro h
    obtain ⟨n, hn⟩ := h
    by_cases hexact : value * 10 ^ 4 = n
    · exact .inl ⟨n, hexact⟩
    · exact .inr ⟨n, hexact, hn⟩
  · intro h
    rcases h with ⟨n, hn⟩ | ⟨n, -, hn⟩
    · refine ⟨n, ?_⟩
      rw [← eq_multiple_iff.2 hn, sub_self, abs_zero]
      exact mul_nonneg (by norm_num) (zpow_nonneg (by norm_num) _)
    · exact ⟨n, hn⟩

/-- The check, by what it asks of a finite value. -/
theorem validate_finite_iff {returned : ℚ} :
    validatePositiveMoney (.finite value) = .ok returned ↔
      returned = value ∧ 0 < value ∧ value < 10 ^ 15 ∧ fitsScale MONEY_SCALE value = true := by
  rw [validatePositiveMoney, MAX_ABSOLUTE_AMOUNT]
  by_cases hpos : value ≤ 0
  · rw [if_pos hpos]
    exact iff_of_false (fun h => by cases h) fun h => absurd h.2.1 (not_lt.2 hpos)
  by_cases hmax : 10 ^ 15 ≤ value
  · rw [if_neg hpos, if_pos hmax]
    exact iff_of_false (fun h => by cases h) fun h => absurd h.2.2.1 (not_lt.2 hmax)
  by_cases hfit : fitsScale MONEY_SCALE value = true
  · rw [if_neg hpos, if_neg hmax, if_pos hfit, Except.ok.injEq]
    exact ⟨fun h => ⟨h.symm, not_le.1 hpos, not_le.1 hmax, hfit⟩, fun h => h.1.symm⟩
  · rw [if_neg hpos, if_neg hmax, if_neg hfit]
    exact iff_of_false (fun h => by cases h) fun h => hfit h.2.2.2

/-- A value whose further digits vanish is not exact: no two multiples of `0.0001` are that
    close. -/
theorem not_exact_of_vanishes (hlt : value < 10 ^ 15) (hpos : 0 < value) (h : Vanishes value) :
    ¬ Exact value := by
  intro hexact
  obtain ⟨n, hn, hnear⟩ := h
  obtain ⟨m, hm⟩ := hexact
  have hne : (1 : ℚ) ≤ |((m - n : ℤ) : ℚ)| := by
    have hsub : m - n ≠ 0 := fun he => hn (by rw [hm, sub_eq_zero.1 he])
    exact_mod_cast Int.one_le_abs hsub
  have hunit : (10 : ℚ) ^ max (Int.log 10 value - 27) (-1000026) ≤ 10 ^ (-4 : ℤ) := by
    have hlog : Int.log 10 value < 15 :=
      (Int.lt_zpow_iff_log_lt (by norm_num) hpos).1 (by exact_mod_cast hlt)
    exact zpow_le_zpow_right₀ (by norm_num) (by omega)
  have hvalue : value - n * 10 ^ (-4 : ℤ) = (m - n : ℤ) * 10 ^ (-4 : ℤ) := by
    rw [eq_multiple_iff.2 hm]
    push_cast
    ring
  rw [hvalue, abs_mul, abs_of_pos (by norm_num : (0 : ℚ) < 10 ^ (-4 : ℤ))] at hnear
  have hfour : (0 : ℚ) < 10 ^ (-4 : ℤ) := by norm_num
  have hapart := mul_le_mul_of_nonneg_right hne hfour.le
  generalize (10 : ℚ) ^ max (Int.log 10 value - 27) (-1000026) = unit at hnear hunit
  generalize (10 : ℚ) ^ (-4 : ℤ) = four at hnear hunit hfour hapart
  linarith

/-- Where the check accepts exactly the amounts. -/
theorem acceptsExact_iff :
    AcceptsExact value ↔ ¬ (0 < value ∧ value < 10 ^ 15 ∧ Vanishes value) := by
  constructor
  · intro h hvanishes
    obtain ⟨hpos, hlt, hvanishes⟩ := hvanishes
    have hok := validate_finite_iff.2
      ⟨rfl, hpos, hlt, (fitsScale_iff_exact hpos hlt).2 (.inr hvanishes)⟩
    exact not_exact_of_vanishes hlt hpos hvanishes ((h value).1 hok).2.2.2
  · intro h returned
    rw [validate_finite_iff]
    refine and_congr_right fun _ => and_congr_right fun hpos => and_congr_right fun hlt => ?_
    rw [fitsScale_iff_exact hpos hlt]
    exact or_iff_left fun hvanishes => h ⟨hpos, hlt, hvanishes⟩

/-- An accepted amount fits a column exactly unless its further digits vanish. -/
theorem accepted_money_iff {U : Unicode} {text : PyStr} (h : parseAmount U text = .ok value) :
    (∃ m : Money, m.value = value) ↔ ¬ Vanishes value := by
  obtain ⟨d, -, hd⟩ := parseAmount_ok h
  obtain ⟨rfl, -⟩ := validatePositiveMoney_ok hd
  obtain ⟨-, hpos, hlt, hfit⟩ := validate_finite_iff.1 hd
  rw [← exact_iff_money hpos hlt]
  constructor
  · intro hexact hvanishes
    exact not_exact_of_vanishes hlt hpos hvanishes hexact
  · intro hvanishes
    exact ((fitsScale_iff_exact hpos hlt).1 hfit).resolve_right hvanishes

end Exact

/-- **Where amounts are exact.**  The check accepts a finite value if and only if it is positive,
    below `10 ^ 15` and a multiple of `0.0001`, and returns it unchanged, for all values but those
    in range whose further digits vanish; and the amount of an accepted transaction, obligation,
    settlement or recurring payment is a `NUMERIC(19, 4)` exactly if its further digits do not
    vanish. -/
theorem accepts_exact_iff (U : Unicode) :
    (∀ value, AcceptsExact value ↔ ¬ (0 < value ∧ value < 10 ^ 15 ∧ Vanishes value)) ∧
    (∀ input command, parseCreateTransaction U input = .ok command →
      ((∃ m : Money, m.value = command.amount) ↔ ¬ Vanishes command.amount)) ∧
    (∀ personId amount currency description issuedDate dueDate transactionId command,
      parseCreateObligation U personId amount currency description issuedDate dueDate
        transactionId = .ok command →
      ((∃ m : Money, m.value = command.amount) ↔ ¬ Vanishes command.amount)) ∧
    (∀ amount currency settledAt transactionId note command,
      parseSettlement U amount currency settledAt transactionId note = .ok command →
      ∃ value, command.amount = .finite value ∧
        ((∃ m : Money, m.value = value) ↔ ¬ Vanishes value)) ∧
    ∀ amount currency merchantName recurrenceRule nextExpectedDate command,
      parseCreateRecurringPayment U amount currency merchantName recurrenceRule
        nextExpectedDate = .ok command →
      ((∃ m : Money, m.value = command.amount) ↔ ¬ Vanishes command.amount) := by
  refine ⟨fun value => acceptsExact_iff, fun input command h => ?_,
    fun personId amount currency description issued due transaction command h => ?_,
    fun amount currency settledAt transaction note command h => ?_,
    fun amount currency merchantName rule next command h => ?_⟩
  · exact accepted_money_iff (parseCreateTransaction_amount h)
  · obtain ⟨-, value, -, -, -, hamount, -, rfl⟩ := parseCreateObligation_ok h
    exact accepted_money_iff hamount
  · obtain ⟨value, hamount, hvalue, -⟩ := parseSettlement_ok h
    exact ⟨value, hvalue, accepted_money_iff hamount⟩
  · obtain ⟨-, -, value, code, hamount, -, rfl⟩ := parseCreateRecurringPayment_ok h
    exact accepted_money_iff hamount

/-- `12.50` is accepted, and nothing of it vanishes. -/
theorem accepts_exact_iff_price : AcceptsExact (25 / 2) := by
  refine ((accepts_exact_iff .plain).1 (25 / 2)).2 fun h => ?_
  exact not_exact_of_vanishes h.2.1 h.1 h.2.2 ⟨125000, by norm_num⟩

/-- A settlement of one, and a one in the twenty-ninth decimal place. -/
theorem accepts_inexact : ¬ AcceptsExact (1 + 1 / 10 ^ 29) ∧
    ∃ command, parseSettlement .plain (py "1.00000000000000000000000000001") (py "EUR")
        ⟨0, some 0⟩ none none = .ok command ∧
      command.amount = .finite (1 + 1 / 10 ^ 29) ∧ ¬ ∃ m : Money, m.value = 1 + 1 / 10 ^ 29 := by
  have hexact : ¬ Exact (1 + 1 / 10 ^ 29) := by
    intro h
    obtain ⟨n, hn⟩ := h
    have hscaled : (n : ℚ) * 10 ^ 25 = 10 ^ 29 + 1 := by
      rw [← hn]
      norm_num
    have hint : n * 10 ^ 25 = 10 ^ 29 + 1 := by exact_mod_cast hscaled
    omega
  have hok : validatePositiveMoney (.finite (1 + 1 / 10 ^ 29)) = .ok (1 + 1 / 10 ^ 29) := by
    decide +kernel
  refine ⟨fun h => hexact ((h _).1 hok).2.2.2, ?_⟩
  refine ⟨⟨.finite (1 + 1 / 10 ^ 29), py "EUR", 0, none, none⟩, by decide +kernel, rfl, ?_⟩
  rw [← exact_iff_money (by norm_num) (by norm_num)]
  exact hexact

end Expensea.Ledger
