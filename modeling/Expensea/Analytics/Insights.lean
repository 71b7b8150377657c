import Expensea.Analytics.Calculations

namespace Expensea.Analytics

open DecimalArith
open Expensea.Ledger

/-!
# Grounded insights

The insight rules in exact arithmetic, against what `buildInsights` emits.

* `decSum_units`, `le_wholePercent_iff` — what the sums and the percentages compute;
* `Grounded` — every insight is due, and every one that is due is emitted;
* `insights_grounded_iff` — where that holds: the two percentages are rounded before they are
  compared, so it fails from half a point below a threshold on.
-/

/-! ### Arithmetic -/

/-- A number with few places and at most 28 digits is not rounded. -/
theorem round_places (places : ℕ) (hplaces : places ≤ 1000) {m : ℤ} (hmax : |m| < 10 ^ 28) :
    defaultContext.round (m / 10 ^ places) = m / 10 ^ places := by
  have hunit : (m / 10 ^ places : ℚ) = m * 10 ^ (-places : ℤ) := by
    rw [zpow_neg, zpow_natCast, div_eq_mul_inv]
  have hmax' : |(m : ℚ)| < 10 ^ 28 := by exact_mod_cast hmax
  have hpos : (0 : ℚ) < 10 ^ (-places : ℤ) := zpow_pos (by norm_num) _
  have hpower : (10 : ℚ) ^ (-places + (defaultContext.prec : ℤ)) =
      10 ^ 28 * 10 ^ (-places : ℤ) := by
    rw [zpow_add₀ (by norm_num), mul_comm]
    rfl
  rw [hunit]
  refine Context.round_multiple_abs ?_ ?_
  · rw [hpower, abs_mul, abs_of_pos hpos]
    exact mul_lt_mul_of_pos_right hmax' hpos
  · show (-1000026 : ℤ) ≤ -places
    omega

/-- A sum of amounts that has at most 28 digits all along. -/
theorem foldl_decAdd_units {units : List ℤ} : ∀ {start : ℤ},
    |start| + (units.map fun u => |u|).sum < 10 ^ 28 →
    (units.map fun u : ℤ => (u / 10 ^ 4 : ℚ)).foldl decAdd (start / 10 ^ 4) =
      (start + units.sum : ℤ) / 10 ^ 4 := by
  induction units with
  | nil =>
    intro start _
    simp
  | cons u units ih =>
    intro start hsize
    rw [List.map_cons, List.sum_cons] at hsize
    have htriangle := abs_add_le start u
    have hrest : 0 ≤ (units.map fun u => |u|).sum :=
      List.sum_nonneg fun x hx => by
        obtain ⟨v, -, rfl⟩ := List.mem_map.1 hx
        exact abs_nonneg v
    have hadd : decAdd (start / 10 ^ 4) (u / 10 ^ 4) = (start + u : ℤ) / 10 ^ 4 := by
      rw [decAdd, ← add_div, ← Int.cast_add, round_places 4 (by decide) (by omega)]
    rw [List.map_cons, List.foldl_cons, hadd, ih (by omega), List.sum_cons, add_assoc]

/-- The sum of amounts, in units. -/
theorem decSum_units {units : List ℤ} (hsize : (units.map fun u => |u|).sum < 10 ^ 28) :
    decSum (units.map fun u : ℤ => (u / 10 ^ 4 : ℚ)) = (units.sum : ℤ) / 10 ^ 4 := by
  have hzero : (0 : ℚ) = (0 : ℤ) / 10 ^ 4 := by norm_num
  have hsum := @foldl_decAdd_units units 0 (by simpa using hsize)
  rw [decSum, hzero, hsum, zero_add]

/-- A rounded number reaches a positive integer from half a unit below it. -/
theorem le_roundHalfUp_iff {n : ℤ} (hn : 1 ≤ n) (x : ℚ) :
    n ≤ roundHalfUp x ↔ (n : ℚ) - 1 / 2 ≤ x := by
  have hn' : (1 : ℚ) ≤ n := by exact_mod_cast hn
  unfold roundHalfUp
  by_cases hx : 0 ≤ x
  · rw [if_pos hx, Int.le_floor, sub_le_iff_le_add]
  · rw [if_neg hx]
    have hneg : 0 ≤ ⌊-x + 1 / 2⌋ := by
      rw [Int.floor_nonneg]
      linarith
    constructor
    · intro h
      omega
    · intro h
      linarith

/-- A quotient just below a threshold is not carried over it: what the two roundings add is less
    than the distance. -/
theorem percent_lt {q τ : ℚ} (hpos : 0 < q) (hτ : τ ≤ 995 / 1000)
    (hround : defaultContext.round τ = τ) (hgap : 1 / 10 ^ 27 ≤ τ - q) :
    defaultContext.round (defaultContext.round q * 100) < 100 * τ := by
  have hle : q ≤ τ := by
    have hunit : (0 : ℚ) < 1 / 10 ^ 27 := by norm_num
    linarith
  have hmono := Context.round_mono (c := defaultContext) (by decide) hpos.le hle
  rw [hround] at hmono
  have hnonneg := Context.round_nonneg (c := defaultContext) hpos.le
  have hfirst : |q - defaultContext.round q| ≤ 1 / 2 * 10 ^ (1 - (28 : ℤ)) :=
    Context.abs_sub_round_le (c := defaultContext) (by rw [abs_of_pos hpos]; norm_num; linarith)
      (by decide) (by decide)
  have hsecond : |defaultContext.round q * 100 -
      defaultContext.round (defaultContext.round q * 100)| ≤ 1 / 2 * 10 ^ (2 - (28 : ℤ)) :=
    Context.abs_sub_round_le (c := defaultContext)
      (by rw [abs_of_nonneg (by positivity)]; norm_num; linarith) (by decide) (by decide)
  rw [abs_le] at hfirst hsecond
  norm_num at hfirst hsecond hgap
  linarith

/-- **A rounded percentage.**  It reaches a threshold from half a point below it on: the quotient
    is rounded to 28 digits first, but no fraction of amounts lies close enough to be carried over
    the threshold by that. -/
theorem le_wholePercent_iff {a b : ℤ} (hb : 0 < b) (hsize : b ≤ 10 ^ 24) {n : ℤ} (hn : 1 ≤ n)
    (hn' : n ≤ 100) : n ≤ roundHalfUp (decMul (decDiv (a / 10 ^ 4) (b / 10 ^ 4)) 100) ↔
      (10 * n - 5) * b ≤ 1000 * a := by
  have hb' : (0 : ℚ) < b := by exact_mod_cast hb
  have hquotient : (a / 10 ^ 4 / (b / 10 ^ 4) : ℚ) = a / b := by
    field_simp
  have hlow : (1 : ℚ) ≤ n := by exact_mod_cast hn
  have hhigh : (n : ℚ) ≤ 100 := by exact_mod_cast hn'
  -- the threshold, and a hundred times it
  have hthreshold : defaultContext.round ((10 * n - 5 : ℤ) / 10 ^ 3) = (10 * n - 5 : ℤ) / 10 ^ 3 :=
    round_places 3 (by decide) (by rw [abs_lt]; omega)
  have hpercent : defaultContext.round ((10 * n - 5 : ℤ) / 10 ^ 1) = (10 * n - 5 : ℤ) / 10 ^ 1 :=
    round_places 1 (by decide) (by rw [abs_lt]; omega)
  push_cast at hthreshold hpercent
  rw [le_roundHalfUp_iff hn, decMul, decDiv, hquotient]
  have hcompare : (10 * n - 5) * b ≤ 1000 * a ↔ (10 * n - 5 : ℚ) / 10 ^ 3 ≤ a / b := by
    rw [le_div_iff₀ hb', div_mul_eq_mul_div, div_le_iff₀ (by norm_num)]
    rw [← @Int.cast_le ℚ]
    push_cast
    constructor <;> intro h <;> linarith
  rw [hcompare]
  constructor
  · intro h
    by_contra hlt
    rw [not_le] at hlt
    by_cases hpos : (a / b : ℚ) ≤ 0
    · -- nothing, or a decrease
      have hr := Context.round_nonpos (c := defaultContext) hpos
      have hp := Context.round_nonpos (c := defaultContext)
        (x := defaultContext.round (a / b : ℚ) * 100) (by linarith)
      linarith
    · rw [not_le] at hpos
      have hdiff : (1 : ℤ) ≤ (10 * n - 5) * b - 1000 * a := by
        rw [← not_le, ← hcompare, not_le] at hlt
        omega
      have hdiff' : (1 : ℚ) ≤ (10 * n - 5) * b - 1000 * a := by exact_mod_cast hdiff
      have hsize' : (b : ℚ) ≤ 10 ^ 24 := by exact_mod_cast hsize
      have hgap : (1 : ℚ) / 10 ^ 27 ≤ (10 * n - 5) / 10 ^ 3 - a / b := by
        have hsub : (10 * n - 5 : ℚ) / 10 ^ 3 - a / b =
            ((10 * n - 5) * b - 1000 * a) / (1000 * b) := by
          field_simp
          ring
        rw [hsub, div_le_div_iff₀ (by norm_num) (by positivity)]
        nlinarith only [hdiff', hsize']
      have hlt' := percent_lt hpos (by linarith) hthreshold hgap
      linarith
  · intro h
    have hquotient₀ : (0 : ℚ) ≤ (10 * n - 5) / 10 ^ 3 := by
      apply div_nonneg _ (by norm_num)
      linarith
    have hr := Context.round_mono (c := defaultContext) (by decide) hquotient₀ h
    rw [hthreshold] at hr
    have hp := Context.round_mono (c := defaultContext) (by decide)
      (x := ((10 * n - 5) / 10 ^ 1 : ℚ)) (y := defaultContext.round (a / b : ℚ) * 100)
      (by linarith) (by linarith)
    rw [hpercent] at hp
    linarith

/-- A number with at most 28 digits before the point moves by less than one. -/
theorem abs_round_le {x : ℚ} {s : ℤ} (h : |x| < 10 ^ s) (hpos : 0 < s) (hle : s ≤ 28) :
    |defaultContext.round x| ≤ |x| + 1 := by
  have hmove := Context.abs_sub_round_le (c := defaultContext) h
    (by show (-1000026 : ℤ) ≤ s - 28; omega) hpos
  have hunit : (10 : ℚ) ^ (s - (defaultContext.prec : ℤ)) ≤ 1 := by
    apply zpow_le_one_of_nonpos₀ (by norm_num)
    show s - 28 ≤ 0
    omega
  have htriangle := abs_sub_abs_le_abs_sub (defaultContext.round x) x
  rw [abs_sub_comm] at htriangle
  linarith

/-- The nearest integer is at most half away. -/
theorem abs_roundHalfUp_le (x : ℚ) : |(roundHalfUp x : ℚ)| ≤ |x| + 1 / 2 := by
  have hmove := abs_sub_roundHalfUp x
  have htriangle := abs_sub_abs_le_abs_sub (roundHalfUp x : ℚ) x
  rw [abs_sub_comm] at htriangle
  linarith

/-- The percentage is small enough to be quantized. -/
theorem wholePercent_eq_some {a b : ℤ} (hb : 0 < b) (ha : |a| ≤ 10 ^ 25) :
    wholePercent (a / 10 ^ 4) (b / 10 ^ 4) =
      some (roundHalfUp (decMul (decDiv (a / 10 ^ 4) (b / 10 ^ 4)) 100)) := by
  have hb' : (1 : ℚ) ≤ b := by exact_mod_cast hb
  have ha' : |(a : ℚ)| ≤ 10 ^ 25 := by exact_mod_cast ha
  have hquotient : |(a / 10 ^ 4 / (b / 10 ^ 4) : ℚ)| ≤ 10 ^ 25 := by
    have hsame : (a / 10 ^ 4 / (b / 10 ^ 4) : ℚ) = a / b := by
      field_simp
    rw [hsame, abs_div, abs_of_pos (by linarith : (0 : ℚ) < b), div_le_iff₀ (by linarith)]
    nlinarith only [ha', hb']
  have hdiv : |decDiv (a / 10 ^ 4) (b / 10 ^ 4)| ≤ 10 ^ 25 + 1 := by
    refine (abs_round_le (s := 26) (lt_of_le_of_lt hquotient ?_) (by decide) (by decide)).trans ?_
    · norm_num
    · linarith
  have hmul : |decMul (decDiv (a / 10 ^ 4) (b / 10 ^ 4)) 100| ≤ 10 ^ 27 + 101 := by
    have hproduct : |decDiv (a / 10 ^ 4) (b / 10 ^ 4) * 100| ≤ 10 ^ 27 + 100 := by
      rw [abs_mul, abs_of_pos (by norm_num : (0 : ℚ) < 100)]
      linarith
    refine (abs_round_le (s := 28) (lt_of_le_of_lt hproduct ?_) (by decide) le_rfl).trans ?_
    · norm_num
    · linarith
  have hround := abs_roundHalfUp_le (decMul (decDiv (a / 10 ^ 4) (b / 10 ^ 4)) 100)
  have hfits : |roundHalfUp (decMul (decDiv (a / 10 ^ 4) (b / 10 ^ 4)) 100)| < 10 ^ 28 := by
    rw [← @Int.cast_lt ℚ, Int.cast_abs]
    push_cast
    linarith
  unfold wholePercent
  dsimp only
  rw [if_pos hfits]

/-- The average is small enough to be quantized. -/
theorem periodMetrics_eq_some {rows : List AnalyticsTransaction} {spent : ℤ}
    (hspent : decSum (rows.map signedAmount) = spent / 10 ^ 4) (hsize : |spent| ≤ 10 ^ 25) :
    ∃ average, periodMetrics rows = some ⟨spent / 10 ^ 4, rows.length, average⟩ := by
  unfold periodMetrics
  rw [hspent]
  by_cases hempty : rows.length = 0
  · rw [if_pos hempty]
    exact ⟨0, rfl⟩
  · rw [if_neg hempty]
    have hcount : (1 : ℚ) ≤ rows.length := by
      exact_mod_cast Nat.one_le_iff_ne_zero.2 hempty
    have hspent' : |(spent : ℚ)| ≤ 10 ^ 25 := by exact_mod_cast hsize
    have hquotient : |(spent / 10 ^ 4 / rows.length : ℚ)| ≤ 10 ^ 21 := by
      rw [abs_div, abs_div, abs_of_pos (by linarith : (0 : ℚ) < rows.length),
        abs_of_pos (by norm_num : (0 : ℚ) < 10 ^ 4), div_div, div_le_iff₀ (by positivity)]
      linarith
    have hdiv : |decDiv (spent / 10 ^ 4) rows.length| ≤ 10 ^ 21 + 1 := by
      refine (abs_round_le (s := 22) (lt_of_le_of_lt hquotient ?_) (by decide)
        (by decide)).trans ?_
      · norm_num
      · linarith
    have hround := abs_sub_roundHalfEven (decDiv (spent / 10 ^ 4) rows.length * 10 ^ 4)
    have htriangle := abs_sub_abs_le_abs_sub
      (roundHalfEven (decDiv (spent / 10 ^ 4) rows.length * 10 ^ 4) : ℚ)
      (decDiv (spent / 10 ^ 4) rows.length * 10 ^ 4)
    rw [abs_sub_comm, abs_mul (decDiv (spent / 10 ^ 4) rows.length),
      abs_of_pos (by norm_num : (0 : ℚ) < 10 ^ 4)] at htriangle
    have hfits : |roundHalfEven (decDiv (spent / 10 ^ 4) rows.length * 10 ^ 4)| < 10 ^ 28 := by
      rw [← @Int.cast_lt ℚ, Int.cast_abs]
      push_cast
      linarith
    unfold quantizeMoney
    rw [if_pos hfits]
    exact ⟨_, rfl⟩

/-! ### The rules in exact arithmetic -/

/-- The amount of a row in units, negative for a refund. -/
def signedUnits (row : AnalyticsTransaction) : ℤ :=
  if row.transactionType = .refund then -row.amount.units else row.amount.units

/-- What was spent, in units. -/
def spentUnits (rows : List AnalyticsTransaction) : ℤ := (rows.map signedUnits).sum

/-- The amounts of rows together, in units. -/
def unitsOf (rows : List AnalyticsTransaction) : ℤ := (rows.map fun row => row.amount.units).sum

/-- The size of rows, whatever their signs. -/
def magnitude (rows : List AnalyticsTransaction) : ℤ :=
  (rows.map fun row => |row.amount.units|).sum

/-- What one merchant supplies, in units. -/
def merchantUnits (merchant : Uuid) (rows : List AnalyticsTransaction) : ℤ :=
  unitsOf (rows.filter fun row => row.merchantId = some merchant)

/-- Twice the median of amounts: of the middle one, or of the two middle ones together. -/
def twiceMedian (units : List ℤ) : ℤ :=
  let data := units.insertionSort (· ≤ ·)
  let half := data.length / 2
  if data.length % 2 = 1 then 2 * data.getD half 0
  else data.getD (half - 1) 0 + data.getD half 0

/-- The expenses of at least twice the median, where there are three. -/
def largeRows (positive : List AnalyticsTransaction) : List AnalyticsTransaction :=
  if 3 ≤ positive.length then
    positive.filter fun row =>
      twiceMedian (positive.map fun row => row.amount.units) ≤ row.amount.units
  else []

/-- The expenses of one merchant and amount. -/
def repeated (merchant : Uuid) (amount : Money) (rows : List AnalyticsTransaction) :
    List AnalyticsTransaction :=
  rows.filter fun row => POSITIVE_TYPES.contains row.transactionType ∧
    row.merchantId = some merchant ∧ row.amount = amount

/-- At least three rows, each 25 to 35 days after the one before. -/
def Monthly (rows : List AnalyticsTransaction) : Prop :=
  3 ≤ rows.length ∧ (byTime rows).IsChain fun a b => 25 ≤ gapDays a b ∧ gapDays a b ≤ 35

/-- The insights of a code. -/
def coded (code : InsightCode) (emitted : List GroundedInsight) : List GroundedInsight :=
  emitted.filter fun i => i.code = code

/-- Spending is at least a quarter above a positive baseline. -/
def Increased (previous current : List AnalyticsTransaction) : Prop :=
  0 < spentUnits previous ∧ 5 * spentUnits previous ≤ 4 * spentUnits current

/-- One merchant supplies at least half of positive spending. -/
def Concentrated (positive : List AnalyticsTransaction) : Prop :=
  0 < unitsOf positive ∧ ∃ merchant, unitsOf positive ≤ 2 * merchantUnits merchant positive

/-- An open or partially paid receivable of the owner in the currency is past its due date. -/
def Forgotten (userId : Uuid) (currency : PyStr) (today : Date) (g : Db) : Prop :=
  ∃ o ∈ g.receivables, o.userId = userId ∧ o.currency = currency ∧
    (o.status = .opened ∨ o.status = .partiallyPaid) ∧ ∃ due, o.dueDate = some due ∧ due < today

/-- Insights are grounded: each rule is reported exactly where it holds. -/
structure Grounded (userId : Uuid) (currency : PyStr)
    (current previous history : List AnalyticsTransaction) (today : Date) (g : Db)
    (emitted : List GroundedInsight) : Prop where
  increase : coded .spendingIncrease emitted ≠ [] ↔ Increased previous current
  large : (coded .largeTransaction emitted).map GroundedInsight.supportingTransactionIds =
    (largeRows (positiveRows current)).map fun row => [row.id]
  concentration : coded .merchantConcentration emitted ≠ [] ↔ Concentrated (positiveRows current)
  recurring : ∀ ids, ids ∈ (coded .possibleRecurring emitted).map
      GroundedInsight.supportingTransactionIds ↔
    ∃ merchant amount, Monthly (repeated merchant amount history) ∧
      ids = (byTime (repeated merchant amount history)).map AnalyticsTransaction.id
  debt : coded .forgottenDebt emitted ≠ [] ↔ Forgotten userId currency today g

/-- The increase is rounded up to the threshold: from 24.5 % on, but below 25 %. -/
def IncreaseRoundedUp (previous current : List AnalyticsTransaction) : Prop :=
  0 < spentUnits previous ∧ 1245 * spentUnits previous ≤ 1000 * spentUnits current ∧
    4 * spentUnits current < 5 * spentUnits previous

/-- The greatest share is rounded up to the threshold: from 49.5 % on, but below 50 %. -/
def ShareRoundedUp (positive : List AnalyticsTransaction) : Prop :=
  0 < unitsOf positive ∧
    (∃ merchant, 495 * unitsOf positive ≤ 1000 * merchantUnits merchant positive) ∧
    ∀ merchant, 2 * merchantUnits merchant positive < unitsOf positive

/-! ### Sums -/

section Sums

variable {rows : List AnalyticsTransaction}

theorem abs_spentUnits_le (rows : List AnalyticsTransaction) : |spentUnits rows| ≤ magnitude rows := by
  unfold spentUnits magnitude
  induction rows with
  | nil => exact le_refl _
  | cons row rows ih =>
    simp only [List.map_cons, List.sum_cons]
    have habs : |signedUnits row| = |row.amount.units| := by
      unfold signedUnits
      split_ifs
      · exact abs_neg _
      · rfl
    have htriangle := abs_add_le (signedUnits row) (rows.map signedUnits).sum
    omega

theorem abs_unitsOf_le (rows : List AnalyticsTransaction) : |unitsOf rows| ≤ magnitude rows := by
  unfold unitsOf magnitude
  induction rows with
  | nil => exact le_refl _
  | cons row rows ih =>
    simp only [List.map_cons, List.sum_cons]
    have htriangle := abs_add_le row.amount.units (rows.map fun row => row.amount.units).sum
    omega

/-- Some of the rows are no larger than all. -/
theorem magnitude_filter_le (p : AnalyticsTransaction → Bool) (rows : List AnalyticsTransaction) :
    magnitude (rows.filter p) ≤ magnitude rows := by
  unfold magnitude
  induction rows with
  | nil => exact le_refl _
  | cons row rows ih =>
    have hpos := abs_nonneg row.amount.units
    rw [List.filter_cons]
    split_ifs
    · simp only [List.map_cons, List.sum_cons]
      omega
    · simp only [List.map_cons, List.sum_cons]
      omega

/-- What was spent is not rounded. -/
theorem decSum_signedAmount (hsize : magnitude rows < 10 ^ 28) :
    decSum (rows.map signedAmount) = spentUnits rows / 10 ^ 4 := by
  have hvalues : rows.map signedAmount =
      (rows.map signedUnits).map fun u : ℤ => (u / 10 ^ 4 : ℚ) := by
    rw [List.map_map]
    apply List.map_congr_left
    intro row _
    unfold signedAmount
    show _ = ((signedUnits row : ℤ) / 10 ^ 4 : ℚ)
    unfold signedUnits Money.value
    split_ifs
    · push_cast
      ring
    · rfl
  have habs : ((rows.map signedUnits).map fun u => |u|).sum = magnitude rows := by
    rw [List.map_map]
    unfold magnitude
    congr 1
    apply List.map_congr_left
    intro row _
    show |signedUnits row| = |row.amount.units|
    unfold signedUnits
    split_ifs
    · exact abs_neg _
    · rfl
  rw [hvalues, decSum_units (by rw [habs]; exact hsize)]
  rfl

theorem amountSum_eq (hsize : magnitude rows ≤ 10 ^ 24) :
    amountSum rows = unitsOf rows / 10 ^ 4 := by
  have hvalues : (rows.map fun row => row.amount.value) =
      (rows.map fun row => row.amount.units).map fun u : ℤ => (u / 10 ^ 4 : ℚ) := by
    rw [List.map_map]
    rfl
  have habs : ((rows.map fun row => row.amount.units).map fun u => |u|).sum = magnitude rows := by
    rw [List.map_map]
    rfl
  unfold amountSum
  rw [hvalues, decSum_units (by rw [habs]; omega)]
  rfl

end Sums

/-! ### Each rule -/

section Rules

variable {current previous positive history : List AnalyticsTransaction}

/-- The increase is reported from 24.5 % on. -/
theorem spendingIncrease_spec {previousMetrics currentMetrics : PeriodMetrics}
    (hprevious : previousMetrics.spent = spentUnits previous / 10 ^ 4)
    (hcurrent : currentMetrics.spent = spentUnits current / 10 ^ 4)
    (hprev : magnitude previous ≤ 10 ^ 24) (hcur : magnitude current ≤ 10 ^ 24) :
    ∃ emitted, spendingIncrease current previousMetrics currentMetrics = some emitted ∧
      (∀ i ∈ emitted, i.code = .spendingIncrease) ∧
      (emitted ≠ [] ↔ 0 < spentUnits previous ∧
        1245 * spentUnits previous ≤ 1000 * spentUnits current) := by
  have hprevAbs := abs_le.1 ((abs_spentUnits_le previous).trans hprev)
  have hcurAbs := abs_le.1 ((abs_spentUnits_le current).trans hcur)
  have hsign : 0 < previousMetrics.spent ↔ 0 < spentUnits previous := by
    rw [hprevious, div_pos_iff_of_pos_right (by norm_num), Int.cast_pos]
  unfold spendingIncrease
  by_cases hpos : 0 < spentUnits previous
  · have hchange : decSub currentMetrics.spent previousMetrics.spent =
        (spentUnits current - spentUnits previous : ℤ) / 10 ^ 4 := by
      rw [hprevious, hcurrent, decSub_exact]
      rw [abs_lt]
      omega
    have hpercent := wholePercent_eq_some (a := spentUnits current - spentUnits previous) hpos
      (by rw [abs_le]; omega)
    have hthreshold := le_wholePercent_iff (a := spentUnits current - spentUnits previous) hpos
      (by omega) (n := 25) (by decide) (by decide)
    rw [if_pos (hsign.2 hpos)]
    dsimp only
    rw [hchange, hprevious, hpercent]
    refine ⟨_, rfl, ?_, ?_⟩
    · intro i hi
      split_ifs at hi
      · rw [List.mem_singleton.1 hi]
      · cases hi
    · split_ifs with hreached
      · rw [hthreshold] at hreached
        simp only [ne_eq, List.cons_ne_self, not_false_eq_true, true_iff]
        omega
      · rw [hthreshold] at hreached
        simp only [ne_eq, not_true_eq_false, false_iff]
        omega
  · rw [if_neg (fun h => hpos (hsign.1 h))]
    refine ⟨[], rfl, fun i hi => absurd hi List.not_mem_nil, ?_⟩
    simp only [ne_eq, not_true_eq_false, false_iff]
    omega

/-- The order of values is that of their units. -/
theorem sorted_values (units : List ℤ) :
    (units.map fun u : ℤ => (u / 10 ^ 4 : ℚ)).insertionSort (· ≤ ·) =
      (units.insertionSort (· ≤ ·)).map fun u : ℤ => (u / 10 ^ 4 : ℚ) := by
  have horder : ∀ a ∈ units, ∀ b ∈ units, a ≤ b ↔ (a / 10 ^ 4 : ℚ) ≤ b / 10 ^ 4 := by
    intro a _ b _
    rw [div_le_div_iff_of_pos_right (by norm_num), Int.cast_le]
  exact (List.map_insertionSort (fun a b : ℤ => a ≤ b) (fun x y : ℚ => x ≤ y) _ units horder).symm

/-- Twice the median that is computed is twice the median. -/
theorem decMul_median {units : List ℤ} (hsize : ∀ u ∈ units, |u| < 10 ^ 19) :
    decMul (median (units.map fun u : ℤ => (u / 10 ^ 4 : ℚ))) 2 = twiceMedian units / 10 ^ 4 := by
  have hget : ∀ i, ((units.insertionSort (· ≤ ·)).map fun u : ℤ => (u / 10 ^ 4 : ℚ)).getD i 0 =
      ((units.insertionSort (· ≤ ·)).getD i 0 : ℤ) / 10 ^ 4 := by
    intro i
    rw [List.getD_eq_getElem?_getD, List.getD_eq_getElem?_getD, List.getElem?_map]
    cases (units.insertionSort (· ≤ ·))[i]? with
    | none => norm_num
    | some u => rfl
  have hbound : ∀ i, |(units.insertionSort (· ≤ ·)).getD i 0| < 10 ^ 19 := by
    intro i
    rw [List.getD_eq_getElem?_getD]
    cases hi : (units.insertionSort (· ≤ ·))[i]? with
    | none => decide
    | some u => exact hsize u ((List.mem_insertionSort _).1 (List.mem_of_getElem? hi))
  unfold median twiceMedian
  rw [sorted_values]
  dsimp only
  rw [List.length_map, hget, hget]
  generalize units.insertionSort (· ≤ ·) = data at hbound ⊢
  have hmiddle := abs_lt.1 (hbound (data.length / 2))
  have hbelow := abs_lt.1 (hbound (data.length / 2 - 1))
  generalize data.getD (data.length / 2) 0 = b at hmiddle ⊢
  generalize data.getD (data.length / 2 - 1) 0 = a at hbelow ⊢
  by_cases hodd : data.length % 2 = 1
  · rw [if_pos hodd, if_pos hodd]
    have hdouble : (b / 10 ^ 4 * 2 : ℚ) = (2 * b : ℤ) / 10 ^ 4 := by
      push_cast
      ring
    rw [decMul, hdouble, round_places 4 (by decide) (by rw [abs_lt]; omega)]
  · rw [if_neg hodd, if_neg hodd]
    -- the mean has one place more than the amounts
    have hsum : decAdd (a / 10 ^ 4) (b / 10 ^ 4) = (a + b : ℤ) / 10 ^ 4 := by
      rw [decAdd, ← add_div, ← Int.cast_add, round_places 4 (by decide) (by rw [abs_lt]; omega)]
    have hhalf : ((a + b : ℤ) / 10 ^ 4 / 2 : ℚ) = (5 * (a + b) : ℤ) / 10 ^ 5 := by
      push_cast
      ring
    have hdouble : ((5 * (a + b) : ℤ) / 10 ^ 5 * 2 : ℚ) = (a + b : ℤ) / 10 ^ 4 := by
      push_cast
      ring
    rw [hsum, decDiv, hhalf, round_places 5 (by decide) (by rw [abs_lt]; omega), decMul, hdouble,
      round_places 4 (by decide) (by rw [abs_lt]; omega)]

/-- The large transactions are those of at least twice the median. -/
theorem largeTransactions_eq (positive : List AnalyticsTransaction) :
    largeTransactions positive = (largeRows positive).map largeInsight := by
  unfold largeTransactions largeRows
  by_cases hthree : 3 ≤ positive.length
  · rw [if_pos hthree, if_pos hthree]
    dsimp only
    congr 1
    apply List.filter_congr
    intro row _
    have hvalues : (positive.map fun row => row.amount.value) =
        (positive.map fun row => row.amount.units).map fun u : ℤ => (u / 10 ^ 4 : ℚ) := by
      rw [List.map_map]
      rfl
    have hrange : ∀ u ∈ positive.map fun row => row.amount.units, |u| < 10 ^ 19 := by
      intro u hu
      obtain ⟨r, -, rfl⟩ := List.mem_map.1 hu
      exact r.amount.range
    rw [hvalues, decMul_median hrange, Money.value]
    rw [decide_eq_decide, div_le_div_iff_of_pos_right (by norm_num), Int.cast_le]
  · rw [if_neg hthree, if_neg hthree]
    rfl

/-- Rows that carry the names of their merchants. -/
def Named (rows : List AnalyticsTransaction) : Prop :=
  ∃ name : Uuid → PyStr, ∀ row ∈ rows, row.merchantName = row.merchantId.map name

/-- The groups of `merchant_rows` are the rows of one merchant each. -/
theorem mem_merchantRows {name : Uuid → PyStr}
    (hname : ∀ row ∈ positive, row.merchantName = row.merchantId.map name)
    {key : Uuid × PyStr} {rows : List AnalyticsTransaction} :
    (key, rows) ∈ merchantRows positive ↔ rows ≠ [] ∧ key.2 = name key.1 ∧
      rows = positive.filter fun row => row.merchantId = some key.1 := by
  have hkey : ∀ row ∈ positive, merchantKey row = row.merchantId.map fun id => (id, name id) := by
    intro row hrow
    unfold merchantKey
    rw [hname row hrow]
    cases row.merchantId with
    | none => rfl
    | some id => rfl
  unfold merchantRows
  rw [Group.mem_collect, Group.rowsOf_keyed]
  obtain ⟨id, text⟩ := key
  dsimp only
  by_cases htext : text = name id
  · -- the name goes with the merchant
    have hsame : (positive.filter fun row => merchantKey row = some (id, text)) =
        positive.filter fun row => row.merchantId = some id := by
      apply List.filter_congr
      intro row hrow
      rw [hkey row hrow, decide_eq_decide, htext]
      cases row.merchantId with
      | none => simp
      | some id' =>
        simp only [Option.map_some, Option.some.injEq, Prod.mk.injEq]
        constructor
        · intro h
          exact h.1
        · rintro rfl
          exact ⟨rfl, rfl⟩
    rw [hsame]
    simp only [htext, true_and]
  · have hnone : (positive.filter fun row => merchantKey row = some (id, text)) = [] := by
      rw [List.filter_eq_nil_iff]
      intro row hrow hmatch
      rw [decide_eq_true_eq, hkey row hrow] at hmatch
      cases hid : row.merchantId with
      | none =>
        rw [hid] at hmatch
        cases hmatch
      | some id' =>
        rw [hid] at hmatch
        obtain ⟨rfl, rfl⟩ := Prod.mk.inj (Option.some.inj hmatch)
        exact htext rfl
    rw [hnone]
    constructor
    · rintro ⟨hne, heq⟩
      exact absurd heq hne
    · rintro ⟨-, heq, -⟩
      exact absurd heq htext

/-- A merchant without rows has no expenses. -/
theorem merchantUnits_of_absent {merchant : Uuid}
    (h : (positive.filter fun row => row.merchantId = some merchant) = []) :
    merchantUnits merchant positive = 0 := by
  unfold merchantUnits
  rw [h]
  rfl

/-- The rows that are chosen are those of the merchant with the most expenses. -/
theorem merchantRows_argmax {name : Uuid → PyStr}
    (hname : ∀ row ∈ positive, row.merchantName = row.merchantId.map name)
    (hsize : magnitude positive ≤ 10 ^ 24) {merchant : Uuid} {text : PyStr}
    {rows : List AnalyticsTransaction}
    (hmax : (merchantRows positive).argmax (fun item => amountSum item.2) =
      some ((merchant, text), rows)) :
    amountSum rows = merchantUnits merchant positive / 10 ^ 4 ∧
      ∀ other, (positive.filter fun row => row.merchantId = some other) ≠ [] →
        merchantUnits other positive ≤ merchantUnits merchant positive := by
  have hgroup : ∀ merchant, amountSum (positive.filter fun row => row.merchantId = some merchant) =
      merchantUnits merchant positive / 10 ^ 4 := by
    intro merchant
    exact amountSum_eq ((magnitude_filter_le _ _).trans hsize)
  obtain ⟨-, -, hrows⟩ := (mem_merchantRows hname).1 (List.argmax_mem hmax)
  dsimp only at hrows
  have hsum : amountSum rows = merchantUnits merchant positive / 10 ^ 4 := by
    rw [hrows]
    exact hgroup merchant
  refine ⟨hsum, fun other hother => ?_⟩
  have hmem : ((other, name other), _) ∈ merchantRows positive :=
    (mem_merchantRows hname).2 ⟨hother, rfl, rfl⟩
  -- the decimal sums are exact, so they compare as the units do
  have hle := List.le_of_mem_argmax hmem hmax
  dsimp only at hle
  rw [hsum, hgroup other, div_le_div_iff_of_pos_right (by norm_num), Int.cast_le] at hle
  exact hle

/-- The concentration is reported from 49.5 % on. -/
theorem merchantConcentration_spec (hnamed : Named positive)
    (hsize : magnitude positive ≤ 10 ^ 24) :
    ∃ emitted, merchantConcentration positive = some emitted ∧
      (∀ i ∈ emitted, i.code = .merchantConcentration) ∧
      (emitted ≠ [] ↔ 0 < unitsOf positive ∧
        ∃ merchant, 495 * unitsOf positive ≤ 1000 * merchantUnits merchant positive) := by
  obtain ⟨name, hname⟩ := hnamed
  have htotal := amountSum_eq hsize
  have htotalAbs := abs_le.1 ((abs_unitsOf_le positive).trans hsize)
  have hsign : 0 < amountSum positive ↔ 0 < unitsOf positive := by
    rw [htotal, div_pos_iff_of_pos_right (by norm_num), Int.cast_pos]
  have hgroupAbs : ∀ merchant, |merchantUnits merchant positive| ≤ 10 ^ 24 := by
    intro merchant
    exact (abs_unitsOf_le _).trans ((magnitude_filter_le _ _).trans hsize)
  unfold merchantConcentration
  dsimp only
  by_cases hpos : 0 < unitsOf positive
  · rw [if_pos (hsign.2 hpos)]
    cases hmax : (merchantRows positive).argmax fun item => amountSum item.2 with
    | none =>
      -- no row has a merchant
      rw [List.argmax_eq_none] at hmax
      refine ⟨[], rfl, fun i hi => absurd hi List.not_mem_nil, ?_⟩
      simp only [ne_eq, not_true_eq_false, false_iff, not_and, not_exists]
      intro _ merchant hle
      have hrows : (positive.filter fun row => row.merchantId = some merchant) = [] := by
        by_contra hne
        have hmem : ((merchant, name merchant), _) ∈ merchantRows positive :=
          (mem_merchantRows hname).2 ⟨hne, rfl, rfl⟩
        rw [hmax] at hmem
        cases hmem
      have hzero := merchantUnits_of_absent hrows
      omega
    | some item =>
      obtain ⟨⟨merchant, text⟩, rows⟩ := item
      obtain ⟨hsum, hgreatest⟩ := merchantRows_argmax hname hsize hmax
      have hbound := abs_le.1 (hgroupAbs merchant)
      have hpercent := wholePercent_eq_some (a := merchantUnits merchant positive) hpos
        (by rw [abs_le]; omega)
      have hthreshold := le_wholePercent_iff (a := merchantUnits merchant positive) hpos (by omega)
        (n := 50) (by decide) (by decide)
      dsimp only
      rw [hsum, htotal, hpercent]
      have hreaches : (10 * 50 - 5) * unitsOf positive ≤ 1000 * merchantUnits merchant positive ↔
          0 < unitsOf positive ∧
            ∃ merchant, 495 * unitsOf positive ≤ 1000 * merchantUnits merchant positive := by
        constructor
        · intro h
          exact ⟨hpos, merchant, by omega⟩
        · rintro ⟨-, other, hle⟩
          by_cases hother : (positive.filter fun row => row.merchantId = some other) = []
          · have hzero := merchantUnits_of_absent hother
            omega
          · have hmost := hgreatest other hother
            omega
      rw [← hreaches, ← hthreshold]
      refine ⟨_, rfl, ?_, ?_⟩
      · intro i hi
        split_ifs at hi
        · rw [List.mem_singleton.1 hi]
        · cases hi
      · split_ifs with hreached
        · simp [hreached]
        · simp [hreached]
  · rw [if_neg (fun h => hpos (hsign.1 h))]
    refine ⟨[], rfl, fun i hi => absurd hi List.not_mem_nil, ?_⟩
    simp only [ne_eq, not_true_eq_false, false_iff]
    exact fun h => hpos h.1

/-- All gaps are those of a month if each row follows the one before by a month. -/
theorem all_gaps_iff (p : ℤ → Bool) (ordered : List AnalyticsTransaction) :
    (gaps ordered).all p = true ↔ ordered.IsChain fun a b => p (gapDays a b) = true := by
  unfold gaps
  induction ordered with
  | nil => simp
  | cons a ordered ih =>
    cases ordered with
    | nil => simp
    | cons b ordered =>
      rw [List.isChain_cons_cons, ← ih]
      simp

/-- The rows of a group are reported if they are a month apart. -/
theorem recurringInsight_spec (rows : List AnalyticsTransaction) :
    (∀ i, recurringInsight rows = some i → i.code = .possibleRecurring) ∧
      ∀ ids, (recurringInsight rows).map GroundedInsight.supportingTransactionIds = some ids ↔
        Monthly rows ∧ ids = (byTime rows).map AnalyticsTransaction.id := by
  have hlength : (byTime rows).length = rows.length := List.length_insertionSort _ rows
  have hchain : (gaps (byTime rows)).all (fun gap => 25 ≤ gap && gap ≤ 35) = true ↔
      (byTime rows).IsChain fun a b => 25 ≤ gapDays a b ∧ gapDays a b ≤ 35 := by
    rw [all_gaps_iff]
    simp only [Bool.and_eq_true, decide_eq_true_eq]
  unfold recurringInsight Monthly
  dsimp only
  rw [← hchain, ← hlength]
  by_cases hthree : 3 ≤ (byTime rows).length
  · rw [if_neg (Nat.not_lt.2 hthree)]
    obtain ⟨last, hlast⟩ : ∃ last, (byTime rows).getLast? = some last := by
      cases hget : (byTime rows).getLast? with
      | none =>
        rw [List.getLast?_eq_none_iff.1 hget] at hthree
        exact absurd hthree (by decide)
      | some last => exact ⟨last, rfl⟩
    have hgaps : gaps (byTime rows) ≠ [] := by
      intro hnone
      have hcount : (gaps (byTime rows)).length = (byTime rows).length - 1 := by
        unfold gaps
        rw [List.length_zipWith, List.length_tail]
        omega
      rw [hnone, List.length_nil] at hcount
      omega
    by_cases hall : (gaps (byTime rows)).all (fun gap => 25 ≤ gap && gap ≤ 35) = true
    · rw [if_pos ⟨hgaps, hall⟩, hlast]
      refine ⟨fun i hi => ?_, fun ids => ?_⟩
      · rw [← Option.some.inj hi]
      · rw [Option.map_some, Option.map_some, Option.some.injEq]
        constructor
        · intro h
          exact ⟨⟨hthree, hall⟩, h.symm⟩
        · intro h
          exact h.2.symm
    · rw [if_neg (fun h => hall h.2)]
      refine ⟨fun i hi => absurd hi (Option.some_ne_none i).symm, fun ids => ?_⟩
      constructor
      · intro h
        cases h
      · intro h
        exact absurd h.1.2 hall
  · rw [if_pos (Nat.not_le.1 hthree)]
    refine ⟨fun i hi => absurd hi (Option.some_ne_none i).symm, fun ids => ?_⟩
    constructor
    · intro h
      cases h
    · intro h
      exact absurd h.1.1 hthree

/-- The expenses of a merchant and an amount are a group. -/
theorem filter_recurringKey (merchant : Uuid) (amount : Money) (rows : List AnalyticsTransaction) :
    (rows.filter fun row => recurringKey row = some (merchant, amount)) =
      repeated merchant amount rows := by
  unfold repeated
  apply List.filter_congr
  intro row _
  rw [decide_eq_decide]
  unfold recurringKey
  by_cases htype : POSITIVE_TYPES.contains row.transactionType = true
  · rw [if_pos htype, and_iff_right htype]
    cases row.merchantId with
    | none => simp
    | some id => simp
  · rw [if_neg htype]
    constructor
    · intro h
      cases h
    · intro h
      exact absurd h.1 htype

/-- The repeated payments that are reported. -/
theorem possibleRecurring_spec (history : List AnalyticsTransaction) :
    (∀ i ∈ possibleRecurring history, i.code = .possibleRecurring) ∧
      ∀ ids, ids ∈ (possibleRecurring history).map GroundedInsight.supportingTransactionIds ↔
        ∃ merchant amount, Monthly (repeated merchant amount history) ∧
          ids = (byTime (repeated merchant amount history)).map AnalyticsTransaction.id := by
  unfold possibleRecurring
  dsimp only
  constructor
  · intro i hi
    obtain ⟨item, -, hitem⟩ := List.mem_filterMap.1 hi
    exact (recurringInsight_spec item.2).1 i hitem
  · intro ids
    simp only [List.mem_map, List.mem_filterMap]
    constructor
    · rintro ⟨i, ⟨⟨⟨merchant, amount⟩, rows⟩, hmem, hi⟩, rfl⟩
      obtain ⟨-, hrows⟩ := Group.mem_collect.1 hmem
      rw [Group.rowsOf_keyed, filter_recurringKey] at hrows
      dsimp only at hi
      rw [hrows] at hi
      refine ⟨merchant, amount, ((recurringInsight_spec _).2 _).1 ?_⟩
      rw [hi, Option.map_some]
    · rintro ⟨merchant, amount, hmonthly⟩
      have hsome := ((recurringInsight_spec (repeated merchant amount history)).2 ids).2 hmonthly
      obtain ⟨i, hi, hids⟩ := Option.map_eq_some_iff.1 hsome
      refine ⟨i, ⟨((merchant, amount), repeated merchant amount history), ?_, hi⟩, hids⟩
      rw [Group.mem_collect, Group.rowsOf_keyed, filter_recurringKey]
      refine ⟨?_, rfl⟩
      intro hnone
      have hthree := hmonthly.1.1
      rw [hnone] at hthree
      exact absurd hthree (by decide)

/-- A receivable past its due date is reported. -/
theorem forgottenDebt_spec (userId : Uuid) (currency : PyStr) (today : Date) (g : Db) :
    (∀ i ∈ forgottenDebt (overdueRows userId currency today g) today, i.code = .forgottenDebt) ∧
      (forgottenDebt (overdueRows userId currency today g) today ≠ [] ↔
        Forgotten userId currency today g) := by
  have hrows : ((overdueRows userId currency today g).filter fun item => item.dueDate < today) ≠ [] ↔
      Forgotten userId currency today g := by
    have hnonempty : ∀ l : List OverdueReceivable, l ≠ [] ↔ ∃ item, item ∈ l := fun l =>
      ⟨List.exists_mem_of_ne_nil l, fun ⟨_, hitem⟩ => List.ne_nil_of_mem hitem⟩
    rw [hnonempty]
    unfold Forgotten overdueRows
    simp only [List.mem_filter, List.mem_filterMap, Option.map_eq_some_iff]
    constructor
    · rintro ⟨item, ⟨o, ⟨ho, hpass⟩, due, hdue, rfl⟩, hlate⟩
      simp only [overdueRow, Bool.and_eq_true, Bool.or_eq_true, beq_iff_eq] at hpass
      exact ⟨o, ho, hpass.1.1.1, hpass.1.1.2, hpass.2, due, hdue, by simpa using hlate⟩
    · rintro ⟨o, ho, huser, hcurrency, hopen, due, hdue, hlate⟩
      refine ⟨⟨o.id, due⟩, ⟨o, ⟨ho, ?_⟩, due, hdue, rfl⟩, by simpa using hlate⟩
      simp only [overdueRow, Bool.and_eq_true, Bool.or_eq_true, beq_iff_eq, huser, hcurrency, hdue,
        true_and]
      exact ⟨by simpa using hlate, hopen⟩
  unfold forgottenDebt
  dsimp only
  by_cases hnone : ((overdueRows userId currency today g).filter fun item =>
      item.dueDate < today) = []
  · rw [if_pos hnone, ← hrows]
    exact ⟨fun i hi => absurd hi List.not_mem_nil, iff_of_false (fun h => h rfl) fun h => h hnone⟩
  · rw [if_neg hnone, ← hrows]
    refine ⟨fun i hi => ?_, iff_of_true (List.cons_ne_nil _ _) hnone⟩
    rw [List.mem_singleton.1 hi]

end Rules

/-! ### All rules -/

section Coded

variable {code other : InsightCode} {emitted rest : List GroundedInsight}

theorem coded_append : coded code (emitted ++ rest) = coded code emitted ++ coded code rest :=
  List.filter_append ..

theorem coded_self (h : ∀ i ∈ emitted, i.code = code) : coded code emitted = emitted :=
  List.filter_eq_self.2 fun i hi => by simpa using h i hi

theorem coded_other (h : ∀ i ∈ emitted, i.code = other) (hne : other ≠ code) :
    coded code emitted = [] := by
  rw [coded, List.filter_eq_nil_iff]
  intro i hi hcode
  rw [decide_eq_true_eq, h i hi] at hcode
  exact hne hcode

end Coded

/-- References to merchants lead to one. -/
def MerchantsThere (g : Db) : Prop :=
  ∀ t ∈ g.transactions, ∀ id, t.merchantId = some id → ∃ m ∈ g.merchants, m.id = id

/-- The rows of the query carry the names of their merchants. -/
theorem named_transactionRows {g : Db} (hg : MerchantsThere g) (userId : Uuid) (currency : PyStr)
    (startUtc endUtc : Instant) : Named (transactionRows userId currency startUtc endUtc g) := by
  refine ⟨fun id => ((g.merchants.find? fun m => m.id == id).map Merchant.displayName).getD [],
    fun row hrow => ?_⟩
  obtain ⟨t, ht, rfl⟩ := List.mem_map.1 hrow
  rw [List.mem_insertionSort, List.mem_filter] at ht
  show (t.merchantId.bind fun id =>
    (g.merchants.find? fun m => m.id == id).map Merchant.displayName) = t.merchantId.map _
  cases hmerchant : t.merchantId with
  | none => rfl
  | some id =>
    obtain ⟨m, hm, hid⟩ := hg t ht.1 id hmerchant
    rw [Option.bind_some, Option.map_some]
    cases hfind : g.merchants.find? fun m => m.id == id with
    | none => exact absurd (by simpa using hid) (List.find?_eq_none.1 hfind m hm)
    | some m' => rfl

/-- The insights of each rule, found again by their codes. -/
theorem coded_parts {increase large concentration recurring debt : List GroundedInsight}
    (hincrease : ∀ i ∈ increase, i.code = .spendingIncrease)
    (hlarge : ∀ i ∈ large, i.code = .largeTransaction)
    (hconcentration : ∀ i ∈ concentration, i.code = .merchantConcentration)
    (hrecurring : ∀ i ∈ recurring, i.code = .possibleRecurring)
    (hdebt : ∀ i ∈ debt, i.code = .forgottenDebt) :
    let emitted := increase ++ large ++ concentration ++ recurring ++ debt
    coded .spendingIncrease emitted = increase ∧ coded .largeTransaction emitted = large ∧
      coded .merchantConcentration emitted = concentration ∧
      coded .possibleRecurring emitted = recurring ∧ coded .forgottenDebt emitted = debt := by
  dsimp only
  simp only [coded_append]
  refine ⟨?_, ?_, ?_, ?_, ?_⟩
  · rw [coded_self hincrease, coded_other hlarge (by decide), coded_other hconcentration (by decide),
      coded_other hrecurring (by decide), coded_other hdebt (by decide)]
    simp only [List.append_nil]
  · rw [coded_other hincrease (by decide), coded_self hlarge, coded_other hconcentration (by decide),
      coded_other hrecurring (by decide), coded_other hdebt (by decide)]
    simp only [List.append_nil, List.nil_append]
  · rw [coded_other hincrease (by decide), coded_other hlarge (by decide), coded_self hconcentration,
      coded_other hrecurring (by decide), coded_other hdebt (by decide)]
    simp only [List.append_nil, List.nil_append]
  · rw [coded_other hincrease (by decide), coded_other hlarge (by decide),
      coded_other hconcentration (by decide), coded_self hrecurring, coded_other hdebt (by decide)]
    simp only [List.append_nil, List.nil_append]
  · rw [coded_other hincrease (by decide), coded_other hlarge (by decide),
      coded_other hconcentration (by decide), coded_other hrecurring (by decide), coded_self hdebt]
    simp only [List.nil_append]

/-- What is emitted over rows that carry the names of their merchants. -/
theorem buildInsights_spec (userId : Uuid) (currency : PyStr) (today : Date) (g : Db)
    {current previous : List AnalyticsTransaction} (history : List AnalyticsTransaction)
    {previousMetrics currentMetrics : PeriodMetrics}
    (hprevious : previousMetrics.spent = spentUnits previous / 10 ^ 4)
    (hcurrent : currentMetrics.spent = spentUnits current / 10 ^ 4)
    (hnamed : Named current) (hprev : magnitude previous ≤ 10 ^ 24)
    (hcur : magnitude current ≤ 10 ^ 24) :
    ∃ emitted, buildInsights current history previousMetrics currentMetrics
        (overdueRows userId currency today g) today = some emitted ∧
      (Grounded userId currency current previous history today g emitted ↔
        ¬ IncreaseRoundedUp previous current ∧ ¬ ShareRoundedUp (positiveRows current)) := by
  obtain ⟨increase, hincrease, hincreaseCode, hincreaseIff⟩ :=
    spendingIncrease_spec hprevious hcurrent hprev hcur
  have hnamed' : Named (positiveRows current) := by
    obtain ⟨name, hname⟩ := hnamed
    exact ⟨name, fun row hrow => hname row (List.mem_filter.1 hrow).1⟩
  obtain ⟨concentration, hconcentration, hconcentrationCode, hconcentrationIff⟩ :=
    merchantConcentration_spec hnamed' ((magnitude_filter_le _ _).trans hcur)
  obtain ⟨hrecurringCode, hrecurring⟩ := possibleRecurring_spec history
  obtain ⟨hdebtCode, hdebt⟩ := forgottenDebt_spec userId currency today g
  have hlargeCode : ∀ i ∈ largeTransactions (positiveRows current), i.code = .largeTransaction := by
    intro i hi
    rw [largeTransactions_eq] at hi
    obtain ⟨row, -, rfl⟩ := List.mem_map.1 hi
    rfl
  have hbuild : buildInsights current history previousMetrics currentMetrics
      (overdueRows userId currency today g) today = some (increase ++
        largeTransactions (positiveRows current) ++ concentration ++ possibleRecurring history ++
        forgottenDebt (overdueRows userId currency today g) today) := by
    unfold buildInsights
    dsimp only
    rw [hincrease, hconcentration]
    rfl
  obtain ⟨h₁, h₂, h₃, h₄, h₅⟩ :=
    coded_parts hincreaseCode hlargeCode hconcentrationCode hrecurringCode hdebtCode
  refine ⟨_, hbuild, ?_⟩
  generalize increase ++ largeTransactions (positiveRows current) ++ concentration ++
    possibleRecurring history ++ forgottenDebt (overdueRows userId currency today g) today =
    emitted at h₁ h₂ h₃ h₄ h₅ ⊢
  constructor
  · intro hgrounded
    have hinc := hgrounded.increase
    have hcon := hgrounded.concentration
    rw [h₁, hincreaseIff] at hinc
    rw [h₃, hconcentrationIff] at hcon
    constructor
    · rintro ⟨hpos, hreached, hbelow⟩
      have hdue := (hinc.1 ⟨hpos, hreached⟩).2
      omega
    · rintro ⟨hpos, hreached, hbelow⟩
      obtain ⟨-, merchant, hdue⟩ := hcon.1 ⟨hpos, hreached⟩
      have hless := hbelow merchant
      omega
  · rintro ⟨hinc, hcon⟩
    have hincrease' : coded .spendingIncrease emitted ≠ [] ↔ Increased previous current := by
      rw [h₁, hincreaseIff]
      unfold Increased
      unfold IncreaseRoundedUp at hinc
      omega
    have hlarge : (coded .largeTransaction emitted).map GroundedInsight.supportingTransactionIds =
        (largeRows (positiveRows current)).map fun row => [row.id] := by
      rw [h₂, largeTransactions_eq, List.map_map]
      rfl
    have hconcentration' : coded .merchantConcentration emitted ≠ [] ↔
        Concentrated (positiveRows current) := by
      rw [h₃, hconcentrationIff]
      constructor
      · rintro ⟨hpos, hreached⟩
        refine ⟨hpos, ?_⟩
        by_contra hnone
        rw [not_exists] at hnone
        exact hcon ⟨hpos, hreached, fun merchant => not_le.1 (hnone merchant)⟩
      · rintro ⟨hpos, merchant, hdue⟩
        exact ⟨hpos, merchant, by omega⟩
    rw [← h₄] at hrecurring
    rw [← h₅] at hdebt
    exact ⟨hincrease', hlarge, hconcentration', hrecurring, hdebt⟩

/-- The insights of a database whose amounts sum without rounding. -/
theorem insights_spec (userId : Uuid) (currency : PyStr) (current previous history : Bounds)
    (today : Date) (g : Db) (hg : MerchantsThere g)
    (hprev : magnitude (transactionRows userId currency previous.startUtc previous.endUtc g) ≤
      10 ^ 24)
    (hcur : magnitude (transactionRows userId currency current.startUtc current.endUtc g) ≤
      10 ^ 24) :
    ∃ emitted, insights userId currency current previous history today g = some emitted ∧
      (Grounded userId currency
        (transactionRows userId currency current.startUtc current.endUtc g)
        (transactionRows userId currency previous.startUtc previous.endUtc g)
        (transactionRows userId currency history.startUtc history.endUtc g) today g emitted ↔
      ¬ IncreaseRoundedUp
        (transactionRows userId currency previous.startUtc previous.endUtc g)
        (transactionRows userId currency current.startUtc current.endUtc g) ∧
      ¬ ShareRoundedUp
        (positiveRows (transactionRows userId currency current.startUtc current.endUtc g))) := by
  have hnamed := named_transactionRows hg userId currency current.startUtc current.endUtc
  unfold insights
  dsimp only
  generalize transactionRows userId currency current.startUtc current.endUtc g = currentRows
    at hcur hnamed ⊢
  generalize transactionRows userId currency previous.startUtc previous.endUtc g = previousRows
    at hprev ⊢
  generalize transactionRows userId currency history.startUtc history.endUtc g = historyRows
  obtain ⟨currentAverage, hcurrent⟩ := periodMetrics_eq_some (decSum_signedAmount (by omega))
    ((abs_spentUnits_le _).trans (hcur.trans (by norm_num)))
  obtain ⟨previousAverage, hprevious⟩ := periodMetrics_eq_some (decSum_signedAmount (by omega))
    ((abs_spentUnits_le _).trans (hprev.trans (by norm_num)))
  let previousMetrics : PeriodMetrics :=
    ⟨spentUnits previousRows / 10 ^ 4, previousRows.length, previousAverage⟩
  let currentMetrics : PeriodMetrics :=
    ⟨spentUnits currentRows / 10 ^ 4, currentRows.length, currentAverage⟩
  have hprevSpent : previousMetrics.spent = spentUnits previousRows / 10 ^ 4 := rfl
  have hcurSpent : currentMetrics.spent = spentUnits currentRows / 10 ^ 4 := rfl
  rw [hcurrent, hprevious]
  exact buildInsights_spec userId currency today g historyRows hprevSpent hcurSpent hnamed hprev hcur

/-- **Grounded insights.**  Over every database whose amounts sum without rounding, the insights
    are those of the rules exactly where neither percentage is rounded up to its threshold. -/
theorem insights_grounded_iff (userId : Uuid) (currency : PyStr)
    (current previous history : Bounds) (today : Date) (g : Db) (hg : MerchantsThere g)
    (hprev : magnitude (transactionRows userId currency previous.startUtc previous.endUtc g) ≤
      10 ^ 24)
    (hcur : magnitude (transactionRows userId currency current.startUtc current.endUtc g) ≤
      10 ^ 24) :
    (∃ emitted, insights userId currency current previous history today g = some emitted ∧
      Grounded userId currency
        (transactionRows userId currency current.startUtc current.endUtc g)
        (transactionRows userId currency previous.startUtc previous.endUtc g)
        (transactionRows userId currency history.startUtc history.endUtc g) today g emitted) ↔
      ¬ IncreaseRoundedUp
        (transactionRows userId currency previous.startUtc previous.endUtc g)
        (transactionRows userId currency current.startUtc current.endUtc g) ∧
      ¬ ShareRoundedUp
        (positiveRows (transactionRows userId currency current.startUtc current.endUtc g)) := by
  obtain ⟨emitted, hemitted, hiff⟩ :=
    insights_spec userId currency current previous history today g hg hprev hcur
  rw [hemitted, ← hiff]
  constructor
  · rintro ⟨emitted', heq, hgrounded⟩
    obtain rfl := Option.some.inj heq
    exact hgrounded
  · intro hgrounded
    exact ⟨emitted, rfl, hgrounded⟩

/-! ### Half a point -/

/-- A posted expense of owner 1 on a day. -/
def expenseOn (id : Uuid) (amount : Money) (day : ℤ) : LedgerTransaction where
  id := id
  userId := 1
  amount := amount
  currency := py "INR"
  transactionType := .expense
  merchantId := none
  categoryId := none
  description := py "Groceries"
  transactionDate := day * DAY
  source := .manual
  confidence := none
  status := .posted
  categorySource := none
  categoryClassifierVersion := none
  categoryConfidence := none
  categoryOverridden := false

/-- One hundred rupees. -/
def hundred : Money := ⟨1000000, by decide⟩

/-- One hundred rupees spent in January 2024, and an amount in February. -/
def twoMonths (amount : Money) : Db :=
  { Db.empty 0 with
    users := [⟨1, py "UTC", py "INR"⟩]
    transactions := [expenseOn 20 hundred 738890, expenseOn 21 amount 738920] }

/-- January 2024, in UTC. -/
def january : Bounds := ⟨738885 * DAY, 738916 * DAY⟩

/-- February 2024, in UTC. -/
def february : Bounds := ⟨738916 * DAY, 738945 * DAY⟩

/-- The twelve months up to February 2024, in UTC. -/
def twelveMonths : Bounds := ⟨738579 * DAY, 738945 * DAY⟩

theorem merchantsThere_twoMonths (amount : Money) : MerchantsThere (twoMonths amount) := by
  intro t ht id hid
  have hnone : t.merchantId = none := by
    rcases List.mem_cons.1 ht with rfl | ht
    · rfl
    · rw [List.mem_singleton.1 ht]
      rfl
  rw [hnone] at hid
  cases hid

/-- 130 rupees after 100 are reported, as they should be. -/
theorem insights_grounded_iff_thirty : ∃ emitted,
    insights 1 (py "INR") february january twelveMonths 738930 (twoMonths ⟨1300000, by decide⟩) =
      some emitted ∧
    Grounded 1 (py "INR")
      (transactionRows 1 (py "INR") february.startUtc february.endUtc
        (twoMonths ⟨1300000, by decide⟩))
      (transactionRows 1 (py "INR") january.startUtc january.endUtc
        (twoMonths ⟨1300000, by decide⟩))
      (transactionRows 1 (py "INR") twelveMonths.startUtc twelveMonths.endUtc
        (twoMonths ⟨1300000, by decide⟩)) 738930 (twoMonths ⟨1300000, by decide⟩) emitted := by
  refine (insights_grounded_iff 1 (py "INR") february january twelveMonths 738930
    (twoMonths ⟨1300000, by decide⟩) (merchantsThere_twoMonths _) (by decide +kernel)
    (by decide +kernel)).2 ⟨?_, ?_⟩
  · unfold IncreaseRoundedUp
    decide +kernel
  · have hnone : ∀ row ∈ positiveRows (transactionRows 1 (py "INR") february.startUtc
        february.endUtc (twoMonths ⟨1300000, by decide⟩)), row.merchantId = none := by
      decide +kernel
    rintro ⟨hpos, ⟨merchant, hle⟩, -⟩
    have hrows : (positiveRows (transactionRows 1 (py "INR") february.startUtc february.endUtc
        (twoMonths ⟨1300000, by decide⟩))).filter (fun row => row.merchantId = some merchant) =
        [] := by
      rw [List.filter_eq_nil_iff]
      intro row hrow hmerchant
      rw [decide_eq_true_eq, hnone row hrow] at hmerchant
      cases hmerchant
    have hzero : merchantUnits merchant (positiveRows (transactionRows 1 (py "INR")
        february.startUtc february.endUtc (twoMonths ⟨1300000, by decide⟩))) = 0 := by
      unfold merchantUnits
      rw [hrows]
      rfl
    omega

/-- 124.50 rupees after 100 are 24.5 % more, but reported as at least 25 %. -/
theorem insights_grounded_half_point :
    ¬ ∀ (userId : Uuid) (currency : PyStr) (current previous history : Bounds) (today : Date)
      (g : Db), MerchantsThere g →
      ∃ emitted, insights userId currency current previous history today g = some emitted ∧
        Grounded userId currency
          (transactionRows userId currency current.startUtc current.endUtc g)
          (transactionRows userId currency previous.startUtc previous.endUtc g)
          (transactionRows userId currency history.startUtc history.endUtc g) today g emitted := by
  intro hall
  obtain ⟨emitted, hemitted, hgrounded⟩ := hall 1 (py "INR") february january twelveMonths 738930
    (twoMonths ⟨1245000, by decide⟩) (merchantsThere_twoMonths _)
  have hreported : (insights 1 (py "INR") february january twelveMonths 738930
      (twoMonths ⟨1245000, by decide⟩)).map (fun emitted =>
        (coded .spendingIncrease emitted).length) = some 1 := by
    decide +kernel
  rw [hemitted, Option.map_some, Option.some.injEq] at hreported
  have hdue := hgrounded.increase.1 (List.ne_nil_of_length_eq_add_one hreported)
  unfold Increased at hdue
  have hnot : ¬ 5 * spentUnits (transactionRows 1 (py "INR") january.startUtc january.endUtc
      (twoMonths ⟨1245000, by decide⟩)) ≤ 4 * spentUnits (transactionRows 1 (py "INR")
        february.startUtc february.endUtc (twoMonths ⟨1245000, by decide⟩)) := by
    decide +kernel
  exact hnot hdue.2

end Expensea.Analytics
