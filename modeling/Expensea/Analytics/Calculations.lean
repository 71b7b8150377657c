import Expensea.Analytics.Overdue
import Expensea.Ledger.Periods
import Expensea.Lib.Group
import Mathlib.Data.List.MinMax

namespace Expensea.Analytics

open DecimalArith
open Expensea.Ledger

/-!
# Calculations

The query, the period comparison and the insight rules of `app/analytics`.

* `transactionRows` — posted spending of an owner in a currency and a period;
* `periodMetrics` — spending, count and average;
* `buildInsights` — the rules, one after another;
* `insights` — the rules over the rows of the current, the previous and the last twelve months.

`quantize` fails with `InvalidOperation` where the result has more digits than the context holds:
that is `none`.
-/

/-- `SPENDING_TYPES` -/
def SPENDING_TYPES : List TransactionType := [.expense, .sharedExpense, .refund]

/-- The types that add to spending. -/
def POSITIVE_TYPES : List TransactionType := [.expense, .sharedExpense]

/-- `AnalyticsTransaction` -/
structure AnalyticsTransaction where
  id : Uuid
  amount : Money
  transactionType : TransactionType
  occurredAt : Instant
  merchantId : Option Uuid
  merchantName : Option PyStr
  categoryId : Option Uuid
  categoryName : PyStr
  deriving DecidableEq

/-- `text or default` -/
def orText (text : Option PyStr) (default : PyStr) : PyStr :=
  match text with
  | none => default
  | some s => if s = [] then default else s

/-! ### Query -/

/-- The filter of `transactions` on one row. -/
def spendingRow (userId : Uuid) (currency : PyStr) (startUtc endUtc : Instant)
    (t : LedgerTransaction) : Bool :=
  t.userId == userId && t.currency == currency && t.status == .posted &&
    SPENDING_TYPES.contains t.transactionType &&
    decide (startUtc ≤ t.transactionDate) && decide (t.transactionDate < endUtc)

/-- `ORDER BY transaction_date, id` -/
def occursBefore (a b : LedgerTransaction) : Bool :=
  a.transactionDate < b.transactionDate || a.transactionDate == b.transactionDate && a.id ≤ b.id

/-- A row with the names of its merchant and its category. -/
def analyticsTransaction (g : Db) (t : LedgerTransaction) : AnalyticsTransaction where
  id := t.id
  amount := t.amount
  transactionType := t.transactionType
  occurredAt := t.transactionDate
  merchantId := t.merchantId
  merchantName := t.merchantId.bind fun id =>
    (g.merchants.find? fun m => m.id == id).map Merchant.displayName
  categoryId := t.categoryId
  categoryName := orText (t.categoryId.bind fun id =>
    (g.categories.find? fun c => c.id == id).map Category.name) (py "Uncategorized")

/-- `transactions` -/
def transactionRows (userId : Uuid) (currency : PyStr) (startUtc endUtc : Instant) (g : Db) :
    List AnalyticsTransaction :=
  ((g.transactions.filter (spendingRow userId currency startUtc endUtc)).insertionSort fun a b =>
    occursBefore a b = true).map (analyticsTransaction g)

/-! ### Comparison -/

/-- `signed_amount` -/
def signedAmount (row : AnalyticsTransaction) : ℚ :=
  if row.transactionType = .refund then -row.amount.value else row.amount.value

/-- `sum(values, start=ZERO)` -/
def decSum (values : List ℚ) : ℚ := values.foldl decAdd 0

/-- `PeriodMetrics` -/
structure PeriodMetrics where
  spent : ℚ
  transactionCount : Nat
  averageSize : ℚ
  deriving DecidableEq

/-- `value.quantize(Decimal("0.0001"))` -/
def quantizeMoney (value : ℚ) : Option ℚ :=
  if |roundHalfEven (value * 10 ^ 4)| < 10 ^ 28 then some (quantizeHalfEven value) else none

/-- `period_metrics` -/
def periodMetrics (rows : List AnalyticsTransaction) : Option PeriodMetrics := do
  let spent := decSum (rows.map signedAmount)
  let average ← if rows.length = 0 then some 0 else quantizeMoney (decDiv spent rows.length)
  pure ⟨spent, rows.length, average⟩

/-! ### Insights -/

/-- The codes of insights. -/
inductive InsightCode where
  | spendingIncrease
  | largeTransaction
  | merchantConcentration
  | possibleRecurring
  | forgottenDebt
  deriving DecidableEq, Repr

/-- `GroundedInsight` -/
structure GroundedInsight where
  code : InsightCode
  title : String
  detail : PyStr
  amount : Option ℚ
  percentage : Option ℤ
  supportingTransactionIds : List Uuid
  supportingObligationIds : List Uuid
  deriving DecidableEq

/-- `(part / whole * 100).quantize(Decimal("1"), rounding=ROUND_HALF_UP)` -/
def wholePercent (part whole : ℚ) : Option ℤ :=
  let percent := roundHalfUp (decMul (decDiv part whole) 100)
  if |percent| < 10 ^ 28 then some percent else none

/-- The rule `spending_increase`. -/
def spendingIncrease (current : List AnalyticsTransaction)
    (previousMetrics currentMetrics : PeriodMetrics) : Option (List GroundedInsight) :=
  if 0 < previousMetrics.spent then do
    let change := decSub currentMetrics.spent previousMetrics.spent
    let percent ← wholePercent change previousMetrics.spent
    pure (if 25 ≤ percent then [{
      code := .spendingIncrease
      title := "Spending increased"
      detail := py "Current-month posted spending is at least 25% above last month."
      amount := some change
      percentage := some percent
      supportingTransactionIds := current.map AnalyticsTransaction.id
      supportingObligationIds := [] }] else [])
  else some []

/-- `statistics.median` of a list that is not empty. -/
def median (values : List ℚ) : ℚ :=
  let data := values.insertionSort (· ≤ ·)
  let half := data.length / 2
  if data.length % 2 = 1 then data.getD half 0
  else decDiv (decAdd (data.getD (half - 1) 0) (data.getD half 0)) 2

/-- The insight of a large transaction. -/
def largeInsight (row : AnalyticsTransaction) : GroundedInsight where
  code := .largeTransaction
  title := "Large transaction"
  detail := orText row.merchantName row.categoryName ++
    py " is at least twice the current median expense."
  amount := some row.amount.value
  percentage := none
  supportingTransactionIds := [row.id]
  supportingObligationIds := []

/-- The rule `large_transaction`. -/
def largeTransactions (positive : List AnalyticsTransaction) : List GroundedInsight :=
  if 3 ≤ positive.length then
    let middle := median (positive.map fun row => row.amount.value)
    (positive.filter fun row => decMul middle 2 ≤ row.amount.value).map largeInsight
  else []

/-- The key of `merchant_rows`. -/
def merchantKey (row : AnalyticsTransaction) : Option (Uuid × PyStr) :=
  row.merchantId.bind fun id => row.merchantName.map fun name => (id, name)

/-- `sum((row.amount for row in rows), start=ZERO)` -/
def amountSum (rows : List AnalyticsTransaction) : ℚ := decSum (rows.map fun row => row.amount.value)

/-- `merchant_rows` -/
def merchantRows (positive : List AnalyticsTransaction) :
    List ((Uuid × PyStr) × List AnalyticsTransaction) :=
  Group.collect (positive.filterMap fun row => (merchantKey row).map fun key => (key, row))

/-- The rule `merchant_concentration`. -/
def merchantConcentration (positive : List AnalyticsTransaction) :
    Option (List GroundedInsight) :=
  let positiveTotal := amountSum positive
  if 0 < positiveTotal then
    match (merchantRows positive).argmax fun item => amountSum item.2 with
    | none => some []
    | some item => do
      let share ← wholePercent (amountSum item.2) positiveTotal
      pure (if 50 ≤ share then [{
        code := .merchantConcentration
        title := "Merchant concentration"
        detail := item.1.2 ++ py " represents at least half of positive spending."
        amount := some (amountSum item.2)
        percentage := some share
        supportingTransactionIds := item.2.map AnalyticsTransaction.id
        supportingObligationIds := [] }] else [])
  else some []

/-- The key of `recurring`. -/
def recurringKey (row : AnalyticsTransaction) : Option (Uuid × Money) :=
  if POSITIVE_TYPES.contains row.transactionType then
    row.merchantId.map fun id => (id, row.amount)
  else none

/-- `sorted(rows, key=lambda item: item.occurred_at)` -/
def byTime (rows : List AnalyticsTransaction) : List AnalyticsTransaction :=
  rows.insertionSort fun a b => a.occurredAt ≤ b.occurredAt

/-- The days between the dates of two rows. -/
def gapDays (left right : AnalyticsTransaction) : ℤ :=
  right.occurredAt / DAY - left.occurredAt / DAY

/-- `gaps` -/
def gaps (ordered : List AnalyticsTransaction) : List ℤ :=
  List.zipWith gapDays ordered ordered.tail

/-- The insight of the rows of one merchant and amount, if they are a month apart. -/
def recurringInsight (rows : List AnalyticsTransaction) : Option GroundedInsight :=
  let ordered := byTime rows
  if ordered.length < 3 then none
  else if gaps ordered ≠ [] ∧ (gaps ordered).all (fun gap => 25 ≤ gap && gap ≤ 35) then
    ordered.getLast?.map fun last => {
      code := .possibleRecurring
      title := "Possible recurring payment"
      detail := orText last.merchantName (py "A merchant") ++
        py " repeated with the same amount on a monthly cadence."
      amount := some last.amount.value
      percentage := none
      supportingTransactionIds := ordered.map AnalyticsTransaction.id
      supportingObligationIds := [] }
  else none

/-- The rule `possible_recurring`. -/
def possibleRecurring (history : List AnalyticsTransaction) : List GroundedInsight :=
  let recurring := Group.collect (history.filterMap fun row =>
    (recurringKey row).map fun key => (key, row))
  recurring.filterMap fun item => recurringInsight item.2

/-- The rule `forgotten_debt`. -/
def forgottenDebt (overdue : List OverdueReceivable) (today : Date) : List GroundedInsight :=
  let forgotten := overdue.filter fun item => item.dueDate < today
  if forgotten = [] then []
  else [{
    code := .forgottenDebt
    title := "Receivable may need attention"
    detail := py "An open receivable is past its due date."
    amount := none
    percentage := none
    supportingTransactionIds := []
    supportingObligationIds := forgotten.map OverdueReceivable.id }]

/-- Rows whose type adds to spending. -/
def positiveRows (rows : List AnalyticsTransaction) : List AnalyticsTransaction :=
  rows.filter fun row => POSITIVE_TYPES.contains row.transactionType

/-- `build_insights` -/
def buildInsights (current history : List AnalyticsTransaction)
    (previousMetrics currentMetrics : PeriodMetrics) (overdue : List OverdueReceivable)
    (today : Date) : Option (List GroundedInsight) := do
  let increase ← spendingIncrease current previousMetrics currentMetrics
  let positive := positiveRows current
  let concentration ← merchantConcentration positive
  pure (increase ++ largeTransactions positive ++ concentration ++ possibleRecurring history ++
    forgottenDebt overdue today)

/-! ### Service -/

/-- The UTC bounds of a period. -/
structure Bounds where
  startUtc : Instant
  endUtc : Instant
  deriving DecidableEq

/-- The insights of `report` over the rows of three periods. -/
def insights (userId : Uuid) (currency : PyStr) (current previous history : Bounds) (today : Date)
    (g : Db) : Option (List GroundedInsight) := do
  let currentRows := transactionRows userId currency current.startUtc current.endUtc g
  let previousRows := transactionRows userId currency previous.startUtc previous.endUtc g
  let historyRows := transactionRows userId currency history.startUtc history.endUtc g
  let currentMetrics ← periodMetrics currentRows
  let previousMetrics ← periodMetrics previousRows
  buildInsights currentRows historyRows previousMetrics currentMetrics
    (overdueRows userId currency today g) today

/-- So many months before one. -/
def monthsBefore (m : YearMonth) : Nat → Except LedgerError YearMonth
  | 0 => .ok m
  | n + 1 => do
    let previous ← m.previous
    monthsBefore previous n

end Expensea.Analytics
