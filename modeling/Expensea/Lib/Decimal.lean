import Mathlib.Data.Int.Log
import Mathlib.Data.Rat.Floor
import Mathlib.Tactic.Linarith
import Mathlib.Tactic.NormNum
import Mathlib.Tactic.Positivity
import Mathlib.Tactic.FieldSimp
import Mathlib.Tactic.Ring
import Mathlib.Tactic.LinearCombination

namespace DecimalArith

/-!
# Decimal arithmetic with bounded precision

The value level of a decimal floating-point context: a result is the nearest multiple of
a power of ten that leaves `prec` significant digits, ties to even, and never below the
smallest exponent of the context.

* `roundHalfEven`, `roundHalfUp` — rounding to an integer;
* `Context.round` — rounding to a context;
* `Context.round_add` — adding a coarse number commutes with rounding;
* `Context.round_mono` — rounding keeps the order;
* `fixed` — rounding to a fixed number of fractional digits, ties away from zero.
-/

/-- The nearest integer, ties to even. -/
def roundHalfEven (x : ℚ) : ℤ :=
  if x - ⌊x⌋ < 1 / 2 then ⌊x⌋
  else if 1 / 2 < x - ⌊x⌋ then ⌊x⌋ + 1
  else if ⌊x⌋ % 2 = 0 then ⌊x⌋ else ⌊x⌋ + 1

/-- The nearest integer, ties away from zero. -/
def roundHalfUp (x : ℚ) : ℤ :=
  if 0 ≤ x then ⌊x + 1 / 2⌋ else -⌊-x + 1 / 2⌋

/-- Rounding moves by at most one half. -/
theorem abs_sub_roundHalfEven (x : ℚ) : |x - roundHalfEven x| ≤ 1 / 2 := by
  have h₀ : (⌊x⌋ : ℚ) ≤ x := Int.floor_le x
  have h₁ : x < ⌊x⌋ + 1 := Int.lt_floor_add_one x
  rw [abs_le]
  unfold roundHalfEven
  split_ifs <;> push_cast <;> constructor <;> linarith

/-- An even integer within one half is the rounded value. -/
theorem roundHalfEven_eq_of_even {x : ℚ} {n : ℤ} (h : |x - n| ≤ 1 / 2) (hn : n % 2 = 0) :
    roundHalfEven x = n := by
  obtain ⟨hlo, hhi⟩ := abs_le.1 h
  have hround := abs_le.1 (abs_sub_roundHalfEven x)
  by_contra hne
  -- the two candidates are neighbours and `x` lies half way between them
  have hgap : roundHalfEven x = n + 1 ∨ roundHalfEven x = n - 1 := by
    have h₁ : ((roundHalfEven x : ℤ) : ℚ) ≤ ((n + 1 : ℤ) : ℚ) := by push_cast; linarith
    have h₂ : ((n - 1 : ℤ) : ℚ) ≤ ((roundHalfEven x : ℤ) : ℚ) := by push_cast; linarith
    have h₁' := Int.cast_le.1 h₁
    have h₂' := Int.cast_le.1 h₂
    omega
  have h₀ : (⌊x⌋ : ℚ) ≤ x := Int.floor_le x
  rcases hgap with hgap | hgap
  · have hx : x = n + 1 / 2 := by
      rw [hgap] at hround
      push_cast at hround
      linarith
    have hfloor : ⌊x⌋ = n := by rw [Int.floor_eq_iff]; constructor <;> linarith
    rw [roundHalfEven, hfloor, hx, if_neg (by norm_num), if_neg (by norm_num), if_pos hn] at hgap
    omega
  · have hx : x = n - 1 / 2 := by
      rw [hgap] at hround
      push_cast at hround
      linarith
    have hfloor : ⌊x⌋ = n - 1 := by
      rw [Int.floor_eq_iff]
      push_cast
      constructor <;> linarith
    have hodd : ¬ (n - 1) % 2 = 0 := by omega
    rw [roundHalfEven, hfloor, hx, if_neg (by push_cast; linarith),
      if_neg (by push_cast; linarith), if_neg hodd] at hgap
    omega

/-- An integer strictly within one half is the rounded value. -/
theorem roundHalfUp_eq_of_abs_lt {x : ℚ} {n : ℤ} (h : |x - n| < 1 / 2) :
    roundHalfUp x = n := by
  obtain ⟨hlo, hhi⟩ := abs_lt.1 h
  unfold roundHalfUp
  split_ifs
  · rw [Int.floor_eq_iff]
    constructor <;> linarith
  · rw [neg_eq_iff_eq_neg, Int.floor_eq_iff]
    push_cast
    constructor <;> linarith

@[simp] theorem roundHalfUp_intCast (n : ℤ) : roundHalfUp n = n :=
  roundHalfUp_eq_of_abs_lt (by norm_num)

@[simp] theorem roundHalfEven_intCast (n : ℤ) : roundHalfEven n = n := by
  rw [roundHalfEven, Int.floor_intCast, if_pos (by norm_num)]

/-- An integer strictly within one half is the rounded value. -/
theorem roundHalfEven_eq_of_abs_lt {x : ℚ} {n : ℤ} (h : |x - n| < 1 / 2) :
    roundHalfEven x = n := by
  obtain ⟨hlo, hhi⟩ := abs_lt.1 h
  obtain ⟨hlo', hhi'⟩ := abs_le.1 (abs_sub_roundHalfEven x)
  have hbelow : ((roundHalfEven x : ℤ) : ℚ) < ((n + 1 : ℤ) : ℚ) := by
    push_cast
    linarith
  have habove : ((n - 1 : ℤ) : ℚ) < ((roundHalfEven x : ℤ) : ℚ) := by
    push_cast
    linarith
  have hlt : roundHalfEven x < n + 1 := by exact_mod_cast hbelow
  have hgt : n - 1 < roundHalfEven x := by exact_mod_cast habove
  omega

/-- Two fractions that differ are at least the inverse of their denominators apart. -/
theorem one_div_le_abs_sub {a m : ℤ} {b d : ℕ} (hb : 0 < b) (hd : 0 < d)
    (hne : (a / b : ℚ) ≠ m / d) : 1 / ((b : ℚ) * d) ≤ |(a / b : ℚ) - m / d| := by
  have hb' : (0 : ℚ) < b := by exact_mod_cast hb
  have hd' : (0 : ℚ) < d := by exact_mod_cast hd
  have hsub : (a / b : ℚ) - m / d = ((a * d - m * b : ℤ) : ℚ) / (b * d) := by
    push_cast
    field_simp
  have hnum : (a * d - m * b : ℤ) ≠ 0 := by
    intro hzero
    rw [hzero, Int.cast_zero, zero_div, sub_eq_zero] at hsub
    exact hne hsub
  have hone : (1 : ℚ) ≤ |((a * d - m * b : ℤ) : ℚ)| := by
    exact_mod_cast Int.one_le_abs hnum
  rw [hsub, abs_div, abs_of_pos (mul_pos hb' hd')]
  exact div_le_div_of_nonneg_right hone (mul_pos hb' hd').le

/-- Rounding to the nearest integer keeps the order. -/
theorem mono_of_nearest {f : ℚ → ℤ} (hf : ∀ x, |x - f x| ≤ 1 / 2) {x y : ℚ} (h : x ≤ y) :
    f x ≤ f y := by
  by_contra hlt
  have hstep : ((f y + 1 : ℤ) : ℚ) ≤ f x := by
    have : f y + 1 ≤ f x := by omega
    exact_mod_cast this
  push_cast at hstep
  -- both lie half way between the two results, so they are the same number
  have hx := abs_le.1 (hf x)
  have hy := abs_le.1 (hf y)
  have heq : x = y := by linarith
  rw [heq] at hlt
  exact hlt le_rfl

theorem roundHalfEven_mono {x y : ℚ} (h : x ≤ y) : roundHalfEven x ≤ roundHalfEven y :=
  mono_of_nearest abs_sub_roundHalfEven h

/-- Rounding moves by at most one half. -/
theorem abs_sub_roundHalfUp (x : ℚ) : |x - roundHalfUp x| ≤ 1 / 2 := by
  rw [abs_le]
  unfold roundHalfUp
  split_ifs
  · have h₀ := Int.floor_le (x + 1 / 2)
    have h₁ := Int.lt_floor_add_one (x + 1 / 2)
    constructor <;> linarith
  · have h₀ := Int.floor_le (-x + 1 / 2)
    have h₁ := Int.lt_floor_add_one (-x + 1 / 2)
    push_cast
    constructor <;> linarith

theorem roundHalfUp_mono {x y : ℚ} (h : x ≤ y) : roundHalfUp x ≤ roundHalfUp y :=
  mono_of_nearest abs_sub_roundHalfUp h

/-! ### Contexts -/

/-- Precision and smallest exponent of a decimal context. -/
structure Context where
  prec : Nat
  etiny : ℤ

namespace Context

variable (c : Context)

/-- The exponent a result of this size is rounded to. -/
def exponent (x : ℚ) : ℤ := max (Int.log 10 |x| - (c.prec - 1)) c.etiny

/-- The nearest number the context represents. -/
def round (x : ℚ) : ℚ := roundHalfEven (x / 10 ^ c.exponent x) * 10 ^ c.exponent x

variable {c}

/-- Rounding moves by at most half a unit in the last place. -/
theorem abs_sub_round (x : ℚ) : |x - c.round x| ≤ 1 / 2 * 10 ^ c.exponent x := by
  have hpos : (0 : ℚ) < 10 ^ c.exponent x := zpow_pos (by norm_num) _
  have hx : x - c.round x =
      (x / 10 ^ c.exponent x - roundHalfEven (x / 10 ^ c.exponent x)) * 10 ^ c.exponent x := by
    rw [sub_mul, div_mul_cancel₀ _ hpos.ne', round]
  rw [hx, abs_mul, abs_of_pos hpos]
  exact mul_le_mul_of_nonneg_right (abs_sub_roundHalfEven _) hpos.le

/-- Larger numbers are rounded more coarsely. -/
theorem exponent_mono {x y : ℚ} (hx : 0 < x) (hxy : x ≤ y) : c.exponent x ≤ c.exponent y := by
  have hlog : Int.log 10 |x| ≤ Int.log 10 |y| := by
    rw [abs_of_pos hx, abs_of_pos (hx.trans_le hxy)]
    exact Int.log_mono_right hx hxy
  exact max_le_max (by omega) le_rfl

/-- Below `10 ^ (t + prec - 1)` the rounding unit is finer than `10 ^ t`. -/
theorem exponent_lt {x : ℚ} {t : ℤ} (hx : 0 < x) (hlt : x < 10 ^ (t + c.prec - 1))
    (ht : c.etiny < t) : c.exponent x < t := by
  have hlog : Int.log 10 |x| < t + c.prec - 1 := by
    rw [abs_of_pos hx]
    exact (Int.lt_zpow_iff_log_lt (by norm_num) hx).1 (by exact_mod_cast hlt)
  exact max_lt (by omega) ht

/-- A number close enough to a coarser multiple rounds to it. -/
theorem round_eq_of_near {x : ℚ} {t m : ℤ} (hfine : c.exponent x < t)
    (hnear : |x - m * 10 ^ t| ≤ 1 / 2 * 10 ^ c.exponent x) : c.round x = m * 10 ^ t := by
  obtain ⟨k, hk⟩ : ∃ k : ℕ, t = c.exponent x + (k + 1 : ℕ) :=
    ⟨(t - c.exponent x - 1).toNat, by omega⟩
  have hpos : (0 : ℚ) < 10 ^ c.exponent x := zpow_pos (by norm_num) _
  -- in units of the last place the multiple is a multiple of ten, hence even
  have hunits : (m * 10 ^ t : ℚ) = ((m * 10 ^ (k + 1) : ℤ) : ℚ) * 10 ^ c.exponent x := by
    rw [hk, zpow_add₀ (by norm_num), zpow_natCast]
    push_cast
    ring
  have heven : (m * 10 ^ (k + 1) : ℤ) % 2 = 0 :=
    Int.emod_eq_zero_of_dvd ⟨m * 10 ^ k * 5, by ring⟩
  rw [hunits] at hnear ⊢
  rw [round, roundHalfEven_eq_of_even (n := m * 10 ^ (k + 1)) ?_ heven]
  have hdiv : x / 10 ^ c.exponent x - ((m * 10 ^ (k + 1) : ℤ) : ℚ) =
      (x - ((m * 10 ^ (k + 1) : ℤ) : ℚ) * 10 ^ c.exponent x) / 10 ^ c.exponent x := by
    rw [sub_div, mul_div_cancel_right₀ _ hpos.ne']
  rw [hdiv, abs_div, abs_of_pos hpos, div_le_iff₀ hpos]
  exact hnear

/-- A number is rounded to a multiple of a coarser unit exactly if one is that close. -/
theorem round_eq_multiple_iff {x : ℚ} {t : ℤ} (hfine : c.exponent x < t) :
    (∃ m : ℤ, c.round x = m * 10 ^ t) ↔
      ∃ m : ℤ, |x - m * 10 ^ t| ≤ 1 / 2 * 10 ^ c.exponent x := by
  constructor
  · intro h
    obtain ⟨m, hm⟩ := h
    have hnear := abs_sub_round (c := c) x
    rw [hm] at hnear
    exact ⟨m, hnear⟩
  · intro h
    obtain ⟨m, hm⟩ := h
    exact ⟨m, round_eq_of_near hfine hm⟩

/-- A multiple of a coarser unit is represented exactly. -/
theorem round_multiple {t m : ℤ} (hm : (0 : ℚ) < m * 10 ^ t)
    (hlt : (m * 10 ^ t : ℚ) < 10 ^ (t + c.prec - 1)) (ht : c.etiny < t) :
    c.round (m * 10 ^ t) = m * 10 ^ t :=
  round_eq_of_near (exponent_lt hm hlt ht) (by
    rw [sub_self, abs_zero]
    exact mul_nonneg (by norm_num) (zpow_nonneg (by norm_num) _))

/-- A multiple of `10 ^ t` that is rounded no more coarsely is not rounded. -/
theorem round_of_exponent_le {t m : ℤ} (h : c.exponent (m * 10 ^ t) ≤ t) :
    c.round (m * 10 ^ t) = m * 10 ^ t := by
  rw [round]
  generalize c.exponent (m * 10 ^ t) = e at h ⊢
  obtain ⟨k, rfl⟩ : ∃ k : ℕ, t = e + k := ⟨(t - e).toNat, by omega⟩
  have hpos : (0 : ℚ) < 10 ^ e := zpow_pos (by norm_num) _
  have hunits : (m * 10 ^ (e + k : ℤ) / 10 ^ e : ℚ) = ((m * 10 ^ k : ℤ) : ℚ) := by
    rw [zpow_add₀ (by norm_num), zpow_natCast, div_eq_iff hpos.ne']
    push_cast
    ring
  rw [hunits, roundHalfEven_intCast, ← hunits, div_mul_cancel₀ _ hpos.ne']

/-- A multiple of `10 ^ t` of either sign with at most `prec` digits is not rounded. -/
theorem round_multiple_abs {t m : ℤ} (hlt : |(m * 10 ^ t : ℚ)| < 10 ^ (t + c.prec))
    (ht : c.etiny ≤ t) : c.round (m * 10 ^ t) = m * 10 ^ t := by
  by_cases hzero : (m * 10 ^ t : ℚ) = 0
  · have hround : roundHalfEven 0 = 0 := by simpa using roundHalfEven_intCast 0
    rw [hzero, round, zero_div, hround, Int.cast_zero, zero_mul]
  · have hlog : Int.log 10 |(m * 10 ^ t : ℚ)| < t + c.prec :=
      (Int.lt_zpow_iff_log_lt (by norm_num) (abs_pos.2 hzero)).1 (by exact_mod_cast hlt)
    exact round_of_exponent_le (max_le (by omega) ht)

/-- If `v` rounds to a multiple of `10 ^ t`, adding a multiple of `10 ^ t` before or after
    rounding gives the same. -/
theorem round_add {v : ℚ} {t m n : ℤ} (hm : (0 : ℚ) ≤ m * 10 ^ t) (hv : 0 < v)
    (hround : c.round v = n * 10 ^ t) (hlt : m * 10 ^ t + v < 10 ^ (t + c.prec - 1))
    (ht : c.etiny < t) : c.round (m * 10 ^ t + v) = m * 10 ^ t + c.round v := by
  have hpos : (0 : ℚ) < m * 10 ^ t + v := by linarith
  have hnear : |m * 10 ^ t + v - ((m + n : ℤ) : ℚ) * 10 ^ t| ≤
      1 / 2 * 10 ^ c.exponent (m * 10 ^ t + v) := by
    have hsub : m * 10 ^ t + v - ((m + n : ℤ) : ℚ) * 10 ^ t = v - c.round v := by
      rw [hround]
      push_cast
      ring
    rw [hsub]
    refine (abs_sub_round v).trans (mul_le_mul_of_nonneg_left ?_ (by norm_num))
    exact zpow_le_zpow_right₀ (by norm_num) (exponent_mono hv (by linarith))
  rw [round_eq_of_near (exponent_lt hpos hlt ht) hnear, hround]
  push_cast
  ring

/-- Rounding to the context first changes nothing where no tie lies within half a unit of the
    number but the number itself. -/
theorem roundHalfEven_round {x : ℚ} {s : ℕ} (hfine : c.exponent x ≤ -(s + 1 : ℤ))
    (hgap : ∀ m : ℤ, x ≠ m * 10 ^ (-(s + 1 : ℤ)) →
      1 / 2 * 10 ^ c.exponent x < |x - m * 10 ^ (-(s + 1 : ℤ))|) :
    roundHalfEven (c.round x * 10 ^ s) = roundHalfEven (x * 10 ^ s) := by
  have hpos : (0 : ℚ) < 10 ^ s := by positivity
  have hunit : (10 : ℚ) ^ (-(s + 1 : ℤ)) * 10 ^ s = 1 / 10 := by
    rw [zpow_neg, zpow_add₀ (by norm_num), zpow_natCast]
    field_simp
  have htie : ∀ m : ℤ, (m * 10 ^ (-(s + 1 : ℤ)) : ℚ) * 10 ^ s = m / 10 := by
    intro m
    rw [mul_assoc, hunit]
    ring
  by_cases hexact : ∃ m : ℤ, x = m * 10 ^ (-(s + 1 : ℤ))
  · -- a number with so few digits is not rounded
    obtain ⟨m, rfl⟩ := hexact
    rw [round_of_exponent_le hfine]
  · have hfar : ∀ m : ℤ, |x - c.round x| < |x - m * 10 ^ (-(s + 1 : ℤ))| := fun m =>
      (abs_sub_round x).trans_lt (hgap m fun h => hexact ⟨m, h⟩)
    generalize hn : roundHalfEven (x * 10 ^ s) = n
    obtain ⟨hlo, hhi⟩ := abs_le.1 (hn ▸ abs_sub_roundHalfEven (x * 10 ^ s))
    -- the ties on both sides of the nearest integer
    have hlower : ((10 * n - 5 : ℤ) * 10 ^ (-(s + 1 : ℤ)) : ℚ) ≤ x := by
      refine le_of_mul_le_mul_right ?_ hpos
      rw [htie]
      push_cast
      linarith
    have hupper : x ≤ ((10 * n + 5 : ℤ) * 10 ^ (-(s + 1 : ℤ)) : ℚ) := by
      refine le_of_mul_le_mul_right ?_ hpos
      rw [htie]
      push_cast
      linarith
    have hbelow := hfar (10 * n - 5)
    have habove := hfar (10 * n + 5)
    rw [abs_of_nonneg (sub_nonneg.2 hlower)] at hbelow
    rw [abs_of_nonpos (sub_nonpos.2 hupper)] at habove
    have hgt := (abs_lt.1 hbelow).2
    have hlt := (abs_lt.1 habove).1
    rw [neg_neg] at hlt
    apply roundHalfEven_eq_of_abs_lt
    have hgt' := mul_lt_mul_of_pos_right ((sub_lt_sub_iff_left x).1 hgt) hpos
    have hlt' := mul_lt_mul_of_pos_right ((sub_lt_sub_iff_left x).1 hlt) hpos
    rw [htie] at hgt' hlt'
    push_cast at hgt' hlt'
    rw [abs_lt]
    constructor <;> linarith

/-! ### Order -/

/-- A multiple of the unit is not crossed by rounding, from below. -/
theorem round_le_multiple {x : ℚ} {t m : ℤ} (h : x ≤ m * 10 ^ t) (ht : c.exponent x ≤ t) :
    c.round x ≤ m * 10 ^ t := by
  rw [round]
  generalize c.exponent x = e at ht ⊢
  obtain ⟨k, rfl⟩ : ∃ k : ℕ, t = e + k := ⟨(t - e).toNat, by omega⟩
  have hpos : (0 : ℚ) < 10 ^ e := zpow_pos (by norm_num) _
  have hunits : (m * 10 ^ (e + k : ℤ) : ℚ) = ((m * 10 ^ k : ℤ) : ℚ) * 10 ^ e := by
    rw [zpow_add₀ (by norm_num), zpow_natCast]
    push_cast
    ring
  rw [hunits] at h ⊢
  have hle := roundHalfEven_mono ((div_le_iff₀ hpos).2 h)
  rw [roundHalfEven_intCast] at hle
  have hcast : ((roundHalfEven (x / 10 ^ e) : ℤ) : ℚ) ≤ ((m * 10 ^ k : ℤ) : ℚ) := by
    exact_mod_cast hle
  exact mul_le_mul_of_nonneg_right hcast hpos.le

/-- A multiple of the unit is not crossed by rounding, from above. -/
theorem multiple_le_round {x : ℚ} {t m : ℤ} (h : m * 10 ^ t ≤ x) (ht : c.exponent x ≤ t) :
    m * 10 ^ t ≤ c.round x := by
  rw [round]
  generalize c.exponent x = e at ht ⊢
  obtain ⟨k, rfl⟩ : ∃ k : ℕ, t = e + k := ⟨(t - e).toNat, by omega⟩
  have hpos : (0 : ℚ) < 10 ^ e := zpow_pos (by norm_num) _
  have hunits : (m * 10 ^ (e + k : ℤ) : ℚ) = ((m * 10 ^ k : ℤ) : ℚ) * 10 ^ e := by
    rw [zpow_add₀ (by norm_num), zpow_natCast]
    push_cast
    ring
  rw [hunits] at h ⊢
  have hle := roundHalfEven_mono ((le_div_iff₀ hpos).2 h)
  rw [roundHalfEven_intCast] at hle
  have hcast : ((m * 10 ^ k : ℤ) : ℚ) ≤ ((roundHalfEven (x / 10 ^ e) : ℤ) : ℚ) := by
    exact_mod_cast hle
  exact mul_le_mul_of_nonneg_right hcast hpos.le

theorem round_nonneg {x : ℚ} (h : 0 ≤ x) : 0 ≤ c.round x := by
  have hle := multiple_le_round (c := c) (x := x) (m := 0) (by simpa using h) le_rfl
  rwa [Int.cast_zero, zero_mul] at hle

theorem round_nonpos {x : ℚ} (h : x ≤ 0) : c.round x ≤ 0 := by
  have hle := round_le_multiple (c := c) (x := x) (m := 0) (by simpa using h) le_rfl
  rwa [Int.cast_zero, zero_mul] at hle

/-- Rounding keeps the order of numbers that are not negative. -/
theorem round_mono (hprec : 0 < c.prec) {x y : ℚ} (hx : 0 ≤ x) (hxy : x ≤ y) :
    c.round x ≤ c.round y := by
  rcases hx.eq_or_lt with rfl | hx
  · have hzero : c.round 0 = 0 := le_antisymm (round_nonpos le_rfl) (round_nonneg le_rfl)
    rw [hzero]
    exact round_nonneg hxy
  have hy : 0 < y := hx.trans_le hxy
  have hmono := exponent_mono (c := c) hx hxy
  rcases hmono.eq_or_lt with heq | hlt
  · -- the same unit
    have hpos : (0 : ℚ) < 10 ^ c.exponent y := zpow_pos (by norm_num) _
    rw [round, round, heq]
    have hle := roundHalfEven_mono ((div_le_div_iff_of_pos_right hpos).2 hxy)
    have hcast : ((roundHalfEven (x / 10 ^ c.exponent y) : ℤ) : ℚ) ≤
        ((roundHalfEven (y / 10 ^ c.exponent y) : ℤ) : ℚ) := by exact_mod_cast hle
    exact mul_le_mul_of_nonneg_right hcast hpos.le
  · -- a power of ten lies between them, which neither crosses
    have hetiny : c.etiny ≤ c.exponent x := le_max_right _ _
    have hexponent : c.exponent y = max (Int.log 10 y - (c.prec - 1)) c.etiny := by
      rw [exponent, abs_of_pos hy]
    have hlog : Int.log 10 x - (c.prec - 1) ≤ c.exponent x := by
      rw [exponent, abs_of_pos hx]
      exact le_max_left _ _
    have hbelow : x < (10 : ℚ) ^ Int.log 10 y := by
      have := (Int.lt_zpow_iff_log_lt (b := 10) (by norm_num) (x := Int.log 10 y) hx).2 (by omega)
      exact_mod_cast this
    have habove : (10 : ℚ) ^ Int.log 10 y ≤ y := by
      have := Int.zpow_log_le_self (b := 10) (by norm_num) hy
      exact_mod_cast this
    have hleft : c.round x ≤ (1 : ℤ) * (10 : ℚ) ^ Int.log 10 y :=
      round_le_multiple (by rw [Int.cast_one, one_mul]; exact hbelow.le) (by omega)
    have hright : (1 : ℤ) * (10 : ℚ) ^ Int.log 10 y ≤ c.round y :=
      multiple_le_round (by rw [Int.cast_one, one_mul]; exact habove) (by omega)
    exact hleft.trans hright

/-- How far rounding moves a number below a power of ten. -/
theorem abs_sub_round_le {x : ℚ} {s : ℤ} (h : |x| < 10 ^ s) (ht : c.etiny ≤ s - c.prec)
    (hs : 0 < s) : |x - c.round x| ≤ 1 / 2 * 10 ^ (s - c.prec) := by
  refine (abs_sub_round x).trans (mul_le_mul_of_nonneg_left ?_ (by norm_num))
  refine zpow_le_zpow_right₀ (by norm_num) (max_le ?_ ht)
  by_cases hzero : x = 0
  · rw [hzero, abs_zero, Int.log_zero_right]
    omega
  · have hlog : Int.log 10 |x| < s :=
      (Int.lt_zpow_iff_log_lt (by norm_num) (abs_pos.2 hzero)).1 (by exact_mod_cast h)
    omega

end Context

/-! ### Fixed-point columns -/

/-- Round to `scale` fractional digits, ties away from zero, in units of the last digit. -/
def fixed (scale : Nat) (x : ℚ) : ℤ := roundHalfUp (x * 10 ^ scale)

/-- A number that the context takes to a multiple of `10 ^ (-scale)` is stored as that
    multiple. -/
theorem fixed_eq_of_round {c : Context} {v : ℚ} {scale : Nat} {n : ℤ} (hv : 0 < v)
    (hround : c.round v = n * 10 ^ (-scale : ℤ)) (hlt : v < 10 ^ (-scale + c.prec - 1 : ℤ))
    (ht : c.etiny < -scale) : fixed scale v = n := by
  refine roundHalfUp_eq_of_abs_lt ?_
  have hfine := Context.exponent_lt hv hlt ht
  have hunit : (10 : ℚ) ^ c.exponent v * 10 ^ scale < 1 := by
    have hstep : (10 : ℚ) ^ c.exponent v < 10 ^ (-scale : ℤ) :=
      zpow_lt_zpow_right₀ (by norm_num) hfine
    calc (10 : ℚ) ^ c.exponent v * 10 ^ scale
        < 10 ^ (-scale : ℤ) * 10 ^ scale := mul_lt_mul_of_pos_right hstep (by positivity)
      _ = 1 := by rw [zpow_neg, zpow_natCast, inv_mul_cancel₀ (by positivity)]
  have hsub : v * 10 ^ scale - n = (v - c.round v) * 10 ^ scale := by
    rw [hround, sub_mul, mul_assoc, zpow_neg, zpow_natCast, inv_mul_cancel₀ (by positivity),
      mul_one]
  rw [hsub, abs_mul, abs_of_pos (by positivity : (0 : ℚ) < 10 ^ scale)]
  calc |v - c.round v| * 10 ^ scale
      ≤ 1 / 2 * 10 ^ c.exponent v * 10 ^ scale :=
        mul_le_mul_of_nonneg_right (Context.abs_sub_round v) (by positivity)
    _ = 1 / 2 * (10 ^ c.exponent v * 10 ^ scale) := by ring
    _ < 1 / 2 * 1 := mul_lt_mul_of_pos_left hunit (by norm_num)
    _ = 1 / 2 := by norm_num

end DecimalArith
