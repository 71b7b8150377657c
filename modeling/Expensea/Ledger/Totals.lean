import Expensea.Ledger.Periods
import Expensea.Lib.Group
import Expensea.Lib.Table
import Expensea.Store
import Mathlib.Data.List.Sort

namespace Expensea.Ledger

open DecimalArith

/-!
# Totals

The spending queries of `app/ledger/repository.py` and the services over them.

* `financialTotals` — spent, income and count of a period, over rows of every type;
* `categoryTotals`, `merchantTotals` — signed spending by the id and the name of an outer join;
* `monthlyTotals` — signed spending by local month;
* `monthlySpending` — a series of months that ends with the current one;
* `financialSummary`, `spendingByCategory`, `spendingByMerchant` — one month, the current one
  unless another is asked for.

The sums of SQL are exact; `collate` is the order of names in the database.
-/

/-- `_SPENDING_TYPES` -/
def SPENDING_TYPES : List TransactionType := [.expense, .sharedExpense, .refund]

/-! ### Queries -/

/-- A posted row of an owner in a currency, between two instants. -/
def postedRow (userId : Uuid) (currency : PyStr) (startUtc endUtc : Instant)
    (t : LedgerTransaction) : Bool :=
  t.userId == userId && t.currency == currency && t.status == .posted &&
    decide (startUtc ≤ t.transactionDate) && decide (t.transactionDate < endUtc)

/-- The posted rows that count as spending. -/
def spendingRows (userId : Uuid) (currency : PyStr) (startUtc endUtc : Instant) (g : Db) :
    List LedgerTransaction :=
  g.transactions.filter fun t =>
    postedRow userId currency startUtc endUtc t && SPENDING_TYPES.contains t.transactionType

/-- The `spending_expression` of `financial_totals`. -/
def spendingOf (t : LedgerTransaction) : ℚ :=
  if t.transactionType = .expense ∨ t.transactionType = .sharedExpense then t.amount.value
  else if t.transactionType = .refund then -t.amount.value
  else 0

/-- `income_expression` -/
def incomeOf (t : LedgerTransaction) : ℚ :=
  if t.transactionType = .income then t.amount.value else 0

/-- The `spending_expression` of the queries over spending types. -/
def signedSpending (t : LedgerTransaction) : ℚ :=
  if t.transactionType = .expense ∨ t.transactionType = .sharedExpense then t.amount.value
  else -t.amount.value

/-- `financial_totals` -/
def financialTotals (userId : Uuid) (currency : PyStr) (period : MonthPeriod) (g : Db) :
    ℚ × ℚ × Nat :=
  let rows := g.transactions.filter (postedRow userId currency period.startUtc period.endUtc)
  ((rows.map spendingOf).sum, (rows.map incomeOf).sum, rows.length)

/-- Names in ascending order, a missing one last. -/
def nameLe (collate : PyStr → PyStr → Bool) : Option PyStr → Option PyStr → Bool
  | _, none => true
  | none, some _ => false
  | some a, some b => collate a b

/-- A group: an id, the name it is joined with, and a sum. -/
abbrev GroupTotal := (Option Uuid × Option PyStr) × ℚ

/-- `ORDER BY sum DESC, name ASC` -/
def totalBefore (collate : PyStr → PyStr → Bool) (a b : GroupTotal) : Bool :=
  b.2 < a.2 || a.2 == b.2 && nameLe collate a.1.2 b.1.2

/-- Signed spending, grouped by an id and the name that an outer join finds for it. -/
def groupTotals (collate : PyStr → PyStr → Bool) (id : LedgerTransaction → Option Uuid)
    (names : LedgerTransaction → List (Option PyStr)) (rows : List LedgerTransaction) :
    List GroupTotal :=
  let joined := rows.flatMap fun t => (names t).map fun name => ((id t, name), signedSpending t)
  (Group.sums Prod.fst Prod.snd joined).insertionSort fun a b => totalBefore collate a b = true

/-- `LEFT OUTER JOIN merchants` -/
def merchantNames (g : Db) (t : LedgerTransaction) : List (Option PyStr) :=
  (Table.outerJoin (fun m => some m.id == t.merchantId) g.merchants).map fun m =>
    m.map Merchant.displayName

/-- `LEFT OUTER JOIN categories` -/
def categoryNames (g : Db) (t : LedgerTransaction) : List (Option PyStr) :=
  (Table.outerJoin (fun c => some c.id == t.categoryId) g.categories).map fun c =>
    c.map Category.name

/-- `merchant_totals` -/
def merchantTotals (collate : PyStr → PyStr → Bool) (userId : Uuid) (currency : PyStr)
    (period : MonthPeriod) (g : Db) : List (Option Uuid × PyStr × ℚ) :=
  (groupTotals collate LedgerTransaction.merchantId (merchantNames g)
    (spendingRows userId currency period.startUtc period.endUtc g)).map fun e =>
      (e.1.1, e.1.2.getD (py "No merchant"), e.2)

/-- `category_totals` -/
def categoryTotals (collate : PyStr → PyStr → Bool) (userId : Uuid) (currency : PyStr)
    (period : MonthPeriod) (g : Db) : List (Option Uuid × PyStr × ℚ) :=
  (groupTotals collate LedgerTransaction.categoryId (categoryNames g)
    (spendingRows userId currency period.startUtc period.endUtc g)).map fun e =>
      (e.1.1, e.1.2.getD (py "Uncategorized"), e.2)

/-- `monthly_totals`, in a zone. -/
def monthlyTotals (userId : Uuid) (currency : PyStr) (zone : Zone) (startUtc endUtc : Instant)
    (g : Db) : List (Date × ℚ) :=
  Group.sums (fun t => localMonth (zone.wall t.transactionDate)) signedSpending
    (spendingRows userId currency startUtc endUtc g)

/-! ### Services -/

/-- `parse_timezone`, by the zones that are known. -/
def zoneNamed (zones : PyStr → Option Zone) (timezoneName : PyStr) : Except LedgerError Zone :=
  match zones timezoneName with
  | none => .error ⟨.validation, "INVALID_TIMEZONE",
      "The configured user timezone is not recognized.", some "timezone"⟩
  | some zone => .ok zone

/-- What the services select first: the zone of the owner, and the currency, by default the
    owner's. -/
structure Selection where
  zone : Zone
  currency : PyStr

/-- `_require_user`, `parse_currency` and `parse_timezone` -/
def select (U : Unicode) (zones : PyStr → Option Zone) (userId : Uuid)
    (currency : Option PyStr) (g : Db) : Except LedgerError Selection :=
  match g.users.find? fun u => u.id == userId with
  | none => .error ⟨.notFound, "PROFILE_NOT_FOUND", "The ledger profile was not found.", none⟩
  | some user => do
    let selected ← parseCurrency U ((currency.filter (· ≠ [])).getD user.defaultCurrency)
    let zone ← zoneNamed zones user.timezone
    pure ⟨zone, selected⟩

/-- `month or YearMonth.containing(now, timezone)` -/
def selectedMonth (month : Option YearMonth) (now : Instant) (zone : Zone) :
    Except LedgerError YearMonth :=
  match month with
  | some m => .ok m
  | none => YearMonth.containing now zone

/-- `FinancialSummary` -/
structure FinancialSummary where
  currency : PyStr
  periodStart : Date
  periodEnd : Date
  spent : ℚ
  income : ℚ
  transactionCount : Nat

/-- `financial_summary` -/
def financialSummary (U : Unicode) (zones : PyStr → Option Zone) (now : Instant) (userId : Uuid)
    (currency : Option PyStr) (month : Option YearMonth) (g : Db) :
    Except LedgerError FinancialSummary := do
  let s ← select U zones userId currency g
  let m ← selectedMonth month now s.zone
  let period ← monthPeriod s.zone m
  let totals := financialTotals userId s.currency period g
  pure ⟨s.currency, period.startDate, period.endDate, totals.1, totals.2.1, totals.2.2⟩

/-- `_percentage`; `quantize` fails where the result has more digits than the context holds. -/
def percentage (amount total : ℚ) : Option ℤ :=
  if total ≤ 0 then some 0
  else
    let percent := roundHalfUp (decMul (decDiv amount total) 100)
    if |percent| < 10 ^ 28 then some percent else none

/-- Each total with its share of all of them. -/
def withShares (totals : List (Option Uuid × PyStr × ℚ)) :
    Option (List ((Option Uuid × PyStr × ℚ) × ℤ)) :=
  let denominator := (totals.map fun e => e.2.2).foldl decAdd 0
  totals.mapM fun e => (percentage e.2.2 denominator).map fun share => (e, share)

/-- `CategorySpending` -/
structure CategorySpending where
  categoryId : Option Uuid
  categoryName : PyStr
  amount : ℚ
  currency : PyStr
  sharePercentage : ℤ

/-- `MerchantSpending` -/
structure MerchantSpending where
  merchantId : Option Uuid
  merchantName : PyStr
  amount : ℚ
  currency : PyStr
  sharePercentage : ℤ

/-- `spending_by_category` -/
def spendingByCategory (U : Unicode) (collate : PyStr → PyStr → Bool)
    (zones : PyStr → Option Zone) (now : Instant) (userId : Uuid) (currency : Option PyStr)
    (month : Option YearMonth) (g : Db) : Except LedgerError (Option (List CategorySpending)) := do
  let s ← select U zones userId currency g
  let m ← selectedMonth month now s.zone
  let period ← monthPeriod s.zone m
  let shared := withShares (categoryTotals collate userId s.currency period g)
  pure (shared.map fun entries => entries.map fun e =>
    ⟨e.1.1, e.1.2.1, e.1.2.2, s.currency, e.2⟩)

/-- `spending_by_merchant` -/
def spendingByMerchant (U : Unicode) (collate : PyStr → PyStr → Bool)
    (zones : PyStr → Option Zone) (now : Instant) (userId : Uuid) (currency : Option PyStr)
    (month : Option YearMonth) (g : Db) : Except LedgerError (Option (List MerchantSpending)) := do
  let s ← select U zones userId currency g
  let m ← selectedMonth month now s.zone
  let period ← monthPeriod s.zone m
  let shared := withShares (merchantTotals collate userId s.currency period g)
  pure (shared.map fun entries => entries.map fun e =>
    ⟨e.1.1, e.1.2.1, e.1.2.2, s.currency, e.2⟩)

/-- `MonthlySpending` -/
structure MonthlySpending where
  monthStart : Date
  amount : ℚ
  currency : PyStr
  deriving DecidableEq

/-- The series over consecutive periods. -/
def monthlySeries (userId : Uuid) (currency : PyStr) (zone : Zone) (periods : List MonthPeriod)
    (g : Db) : List MonthlySpending :=
  match periods.head?, periods.getLast? with
  | some first, some last =>
    let totals := monthlyTotals userId currency zone first.startUtc last.endUtc g
    periods.map fun period => ⟨period.startDate, Group.lookup period.startDate totals, currency⟩
  | _, _ => []

/-- `monthly_spending` -/
def monthlySpending (U : Unicode) (zones : PyStr → Option Zone) (now : Instant) (userId : Uuid)
    (currency : Option PyStr) (months : ℤ) (g : Db) :
    Except LedgerError (List MonthlySpending) := do
  let s ← select U zones userId currency g
  let endingMonth ← YearMonth.containing now s.zone
  let selectedMonths ← previousMonths endingMonth months
  let periods ← selectedMonths.mapM (monthPeriod s.zone)
  pure (monthlySeries userId s.currency s.zone periods g)

/-! ### Sums of the queries -/

section Sums

variable {userId : Uuid} {currency : PyStr} {startUtc endUtc : Instant} {g : Db}

/-- Rows of other types add nothing. -/
theorem sum_spendingOf (rows : List LedgerTransaction) : (rows.map spendingOf).sum =
    ((rows.filter fun t => SPENDING_TYPES.contains t.transactionType).map signedSpending).sum := by
  induction rows with
  | nil => rfl
  | cons t rows ih =>
    have hrow : spendingOf t =
        if SPENDING_TYPES.contains t.transactionType = true then signedSpending t else 0 := by
      unfold spendingOf signedSpending
      cases t.transactionType <;> rfl
    rw [List.map_cons, List.sum_cons, ih, hrow]
    by_cases htype : SPENDING_TYPES.contains t.transactionType = true
    · rw [if_pos htype, List.filter_cons, if_pos htype, List.map_cons, List.sum_cons]
    · rw [if_neg htype, List.filter_cons, if_neg htype, zero_add]

/-- What was spent in a period is the sum over its spending rows. -/
theorem financialTotals_spent (userId : Uuid) (currency : PyStr) (period : MonthPeriod) (g : Db) :
    (financialTotals userId currency period g).1 =
      ((spendingRows userId currency period.startUtc period.endUtc g).map signedSpending).sum := by
  show ((g.transactions.filter _).map spendingOf).sum = _
  rw [sum_spendingOf, List.filter_filter]
  unfold spendingRows
  congr 2
  apply List.filter_congr
  intro t _
  exact Bool.and_comm _ _

/-- Where the join finds one name for each row, the groups together are the rows. -/
theorem sum_groupTotals {collate : PyStr → PyStr → Bool} {id : LedgerTransaction → Option Uuid}
    {names : LedgerTransaction → List (Option PyStr)} {rows : List LedgerTransaction}
    (hone : ∀ t ∈ rows, ∃ name, names t = [name]) :
    ((groupTotals collate id names rows).map Prod.snd).sum = (rows.map signedSpending).sum := by
  have hjoined : (rows.flatMap fun t => (names t).map fun name =>
      ((id t, name), signedSpending t)).map Prod.snd = rows.map signedSpending := by
    induction rows with
    | nil => rfl
    | cons t rows ih =>
      obtain ⟨name, hname⟩ := hone t List.mem_cons_self
      have hrest := ih fun t' ht' => hone t' (List.mem_cons_of_mem t ht')
      rw [List.flatMap_cons, List.map_append, hrest, hname]
      rfl
  have hperm := (List.perm_insertionSort (fun a b => totalBefore collate a b = true)
    (Group.sums Prod.fst Prod.snd (rows.flatMap fun t => (names t).map fun name =>
      ((id t, name), signedSpending t)))).map Prod.snd
  rw [groupTotals, hperm.sum_eq, Group.sum_sums, hjoined]

theorem merchantNames_eq (hkeys : (g.merchants.map Merchant.id).Nodup) (t : LedgerTransaction) :
    ∃ name, merchantNames g t = [name] := by
  unfold merchantNames
  cases hid : t.merchantId with
  | none =>
    have hnone : g.merchants.filter (fun m => some m.id == none) = [] :=
      List.filter_eq_nil_iff.2 fun m _ => by simp
    rw [Table.outerJoin, hnone]
    exact ⟨none, rfl⟩
  | some id =>
    have hp : ∀ m ∈ g.merchants, (some m.id == some id) = true → m.id = id := by
      intro m _ hm
      simpa using hm
    rw [Table.outerJoin_eq hkeys hp]
    exact ⟨_, rfl⟩

theorem categoryNames_eq (hkeys : (g.categories.map Category.id).Nodup) (t : LedgerTransaction) :
    ∃ name, categoryNames g t = [name] := by
  unfold categoryNames
  cases hid : t.categoryId with
  | none =>
    have hnone : g.categories.filter (fun c => some c.id == none) = [] :=
      List.filter_eq_nil_iff.2 fun c _ => by simp
    rw [Table.outerJoin, hnone]
    exact ⟨none, rfl⟩
  | some id =>
    have hp : ∀ c ∈ g.categories, (some c.id == some id) = true → c.id = id := by
      intro c _ hc
      simpa using hc
    rw [Table.outerJoin_eq hkeys hp]
    exact ⟨_, rfl⟩

/-- The totals of merchants add up to what was spent. -/
theorem sum_merchantTotals (collate : PyStr → PyStr → Bool) (period : MonthPeriod)
    (hkeys : (g.merchants.map Merchant.id).Nodup) :
    ((merchantTotals collate userId currency period g).map fun e => e.2.2).sum =
      (financialTotals userId currency period g).1 := by
  rw [financialTotals_spent, merchantTotals, List.map_map]
  exact sum_groupTotals fun t _ => merchantNames_eq hkeys t

/-- The totals of categories add up to what was spent. -/
theorem sum_categoryTotals (collate : PyStr → PyStr → Bool) (period : MonthPeriod)
    (hkeys : (g.categories.map Category.id).Nodup) :
    ((categoryTotals collate userId currency period g).map fun e => e.2.2).sum =
      (financialTotals userId currency period g).1 := by
  rw [financialTotals_spent, categoryTotals, List.map_map]
  exact sum_groupTotals fun t _ => categoryNames_eq hkeys t

end Sums

/-! ### The answers of the services -/

/-- The totals that are shared out stay. -/
theorem map_withShares {totals : List (Option Uuid × PyStr × ℚ)}
    {entries : List ((Option Uuid × PyStr × ℚ) × ℤ)} (h : withShares totals = some entries) :
    entries.map Prod.fst = totals := by
  unfold withShares at h
  dsimp only at h
  generalize (totals.map fun e => e.2.2).foldl decAdd 0 = denominator at h
  induction totals generalizing entries with
  | nil =>
    obtain rfl := Option.some.inj h
    rfl
  | cons e totals ih =>
    rw [List.mapM_cons] at h
    obtain ⟨first, hfirst, h⟩ := Option.bind_eq_some_iff.1 h
    obtain ⟨rest, hrest, h⟩ := Option.bind_eq_some_iff.1 h
    obtain rfl := Option.some.inj h
    obtain ⟨share, -, rfl⟩ := Option.map_eq_some_iff.1 hfirst
    rw [List.map_cons, ih hrest]

section Answers

variable {U : Unicode} {zones : PyStr → Option Zone} {now : Instant} {userId : Uuid}
  {currency : Option PyStr} {month : Option YearMonth} {g : Db} {s : Selection} {m : YearMonth}
  {period : MonthPeriod}

theorem financialSummary_ok (hs : select U zones userId currency g = .ok s)
    (hm : selectedMonth month now s.zone = .ok m) (hperiod : monthPeriod s.zone m = .ok period)
    {summary : FinancialSummary}
    (h : financialSummary U zones now userId currency month g = .ok summary) :
    summary.spent = (financialTotals userId s.currency period g).1 := by
  unfold financialSummary at h
  rw [hs] at h
  dsimp only [bind, Except.bind] at h
  rw [hm] at h
  dsimp only at h
  rw [hperiod] at h
  rw [← Except.ok.inj h]

theorem spendingByCategory_ok {collate : PyStr → PyStr → Bool}
    (hs : select U zones userId currency g = .ok s)
    (hm : selectedMonth month now s.zone = .ok m) (hperiod : monthPeriod s.zone m = .ok period)
    {entries : List CategorySpending}
    (h : spendingByCategory U collate zones now userId currency month g = .ok (some entries)) :
    entries.map CategorySpending.amount =
      (categoryTotals collate userId s.currency period g).map fun e => e.2.2 := by
  unfold spendingByCategory at h
  rw [hs] at h
  dsimp only [bind, Except.bind] at h
  rw [hm] at h
  dsimp only at h
  rw [hperiod] at h
  obtain ⟨shared, hshared, rfl⟩ := Option.map_eq_some_iff.1 (Except.ok.inj h)
  rw [← map_withShares hshared, List.map_map, List.map_map]
  rfl

theorem spendingByMerchant_ok {collate : PyStr → PyStr → Bool}
    (hs : select U zones userId currency g = .ok s)
    (hm : selectedMonth month now s.zone = .ok m) (hperiod : monthPeriod s.zone m = .ok period)
    {entries : List MerchantSpending}
    (h : spendingByMerchant U collate zones now userId currency month g = .ok (some entries)) :
    entries.map MerchantSpending.amount =
      (merchantTotals collate userId s.currency period g).map fun e => e.2.2 := by
  unfold spendingByMerchant at h
  rw [hs] at h
  dsimp only [bind, Except.bind] at h
  rw [hm] at h
  dsimp only at h
  rw [hperiod] at h
  obtain ⟨shared, hshared, rfl⟩ := Option.map_eq_some_iff.1 (Except.ok.inj h)
  rw [← map_withShares hshared, List.map_map, List.map_map]
  rfl

end Answers

/-! ### The entry of a month -/

section Months

variable {userId : Uuid} {currency : PyStr} {g : Db}

/-- The entry of a month in the totals is what was spent in it, where the clock neither repeats
    nor skips its two midnights and the midnight that the series begins with. -/
theorem lookup_monthlyTotals {zone : Zone} {first number : ℤ} {firstPeriod period : MonthPeriod}
    (hfirst : PeriodOf zone first firstPeriod) (hp : PeriodOf zone number period)
    (hle : first ≤ number) (hbegin : Regular zone first) (hstart : Regular zone number)
    (hend : Regular zone (number + 1)) :
    Group.lookup period.startDate
        (monthlyTotals userId currency zone firstPeriod.startUtc period.endUtc g) =
      (financialTotals userId currency period g).1 := by
  rw [financialTotals_spent, monthlyTotals, Group.lookup_sums, Group.sumOf, hp.startDate]
  unfold spendingRows
  rw [List.filter_filter]
  congr 2
  apply List.filter_congr
  intro t _
  rw [Bool.eq_iff_iff]
  simp only [postedRow, Bool.and_eq_true, beq_iff_eq, decide_eq_true_eq]
  have hmonth := mem_period_iff hp hstart hend t.transactionDate
  constructor
  · intro h
    obtain ⟨hlocal, ⟨⟨hrow, -⟩, hlast⟩, htype⟩ := h
    exact ⟨⟨⟨hrow, (hmonth.2 hlocal).1⟩, hlast⟩, htype⟩
  · intro h
    obtain ⟨⟨⟨hrow, hfrom⟩, hlast⟩, htype⟩ := h
    have hlocal := hmonth.1 ⟨hfrom, hlast⟩
    exact ⟨hlocal, ⟨⟨hrow, period_start_le hfirst hbegin hle hlocal⟩, hlast⟩, htype⟩

/-- The months back from one begin so many months earlier. -/
theorem head_monthsBack {n : Nat} : ∀ {m : YearMonth} {months : List YearMonth},
    1 ≤ m.month ∧ m.month ≤ 12 → monthsBack m n = .ok months →
    ∃ first, months.head? = some first ∧ (1 ≤ first.month ∧ first.month ≤ 12) ∧
      first.number = m.number - n := by
  induction n with
  | zero =>
    intro m months hm h
    obtain rfl := Except.ok.inj h
    exact ⟨m, rfl, hm, by omega⟩
  | succ n ih =>
    intro m months hm h
    rw [monthsBack] at h
    cases hprevious : m.previous with
    | error e =>
      rw [hprevious] at h
      cases h
    | ok previous =>
      rw [hprevious] at h
      dsimp only [bind, Except.bind] at h
      cases hback : monthsBack previous n with
      | error e =>
        rw [hback] at h
        cases h
      | ok months' =>
        rw [hback] at h
        obtain rfl := Except.ok.inj h
        obtain ⟨hnumber, hvalid⟩ := YearMonth.previous_ok hprevious
        obtain ⟨first, hfirst, hmonth, hcount⟩ := ih hvalid hback
        refine ⟨first, ?_, hmonth, by push_cast; omega⟩
        rw [List.head?_append, hfirst]
        rfl

/-- The results of a loop that does not fail. -/
theorem forall₂_of_mapM {α β ε : Type} {f : α → Except ε β} {xs : List α} :
    ∀ {ys : List β}, xs.mapM f = .ok ys → List.Forall₂ (fun x y => f x = .ok y) xs ys := by
  induction xs with
  | nil =>
    intro ys h
    obtain rfl := Except.ok.inj h
    exact .nil
  | cons x xs ih =>
    intro ys h
    rw [List.mapM_cons] at h
    cases hx : f x with
    | error e =>
      rw [hx] at h
      cases h
    | ok y =>
      rw [hx] at h
      dsimp only [bind, Except.bind] at h
      cases hxs : xs.mapM f with
      | error e =>
        rw [hxs] at h
        cases h
      | ok ys' =>
        rw [hxs] at h
        obtain rfl := Except.ok.inj h
        exact .cons hx (ih hxs)

/-- The entry of a month in a series, zero if it is absent. -/
def entryOf (monthStart : Date) (series : List MonthlySpending) : ℚ :=
  ((series.find? fun e => e.monthStart = monthStart).map MonthlySpending.amount).getD 0

/-- The entries of a series are those of the totals. -/
theorem entryOf_map (amount : Date → ℚ) {periods : List MonthPeriod} {period : MonthPeriod}
    (hmem : period ∈ periods) : entryOf period.startDate
      (periods.map fun p => ⟨p.startDate, amount p.startDate, currency⟩) =
        amount period.startDate := by
  unfold entryOf
  cases hfind : (periods.map fun p => (⟨p.startDate, amount p.startDate, currency⟩ :
      MonthlySpending)).find? fun e => e.monthStart = period.startDate with
  | none =>
    have habsent := List.find?_eq_none.1 hfind _ (List.mem_map_of_mem hmem)
    simp at habsent
  | some e =>
    obtain ⟨p, -, rfl⟩ := List.mem_map.1 (List.mem_of_find?_eq_some hfind)
    have hstart : p.startDate = period.startDate := by simpa using List.find?_some hfind
    show amount p.startDate = _
    rw [hstart]

/-- A series ends with the current month, and its entry is that of the totals from the first
    month of the series on. -/
theorem monthlySpending_ok {U : Unicode} {zones : PyStr → Option Zone} {now : Instant}
    {selected : Option PyStr} {months : ℤ} {s : Selection} {m : YearMonth} {period : MonthPeriod}
    {series : List MonthlySpending} (hs : select U zones userId selected g = .ok s)
    (hm : YearMonth.containing now s.zone = .ok m) (hperiod : monthPeriod s.zone m = .ok period)
    (h : monthlySpending U zones now userId selected months g = .ok series) :
    ∃ firstPeriod, PeriodOf s.zone (m.number - (months - 1)) firstPeriod ∧ 1 ≤ months ∧
      entryOf period.startDate series = Group.lookup period.startDate
        (monthlyTotals userId s.currency s.zone firstPeriod.startUtc period.endUtc g) := by
  have hvalid := YearMonth.containing_ok hm
  unfold monthlySpending at h
  rw [hs] at h
  dsimp only [bind, Except.bind] at h
  rw [hm] at h
  dsimp only at h
  cases hmonths : previousMonths m months with
  | error e =>
    rw [hmonths] at h
    cases h
  | ok selectedMonths =>
    rw [hmonths] at h
    dsimp only at h
    cases hperiods : selectedMonths.mapM (monthPeriod s.zone) with
    | error e =>
      rw [hperiods] at h
      cases h
    | ok periods =>
      rw [hperiods] at h
      obtain rfl := Except.ok.inj h
      have hall := forall₂_of_mapM hperiods
      obtain ⟨⟨rest, hlast⟩, -⟩ := previousMonths_ok hvalid hmonths
      -- the periods end with that of the current month
      have hend : periods.getLast? = some period := by
        have hreverse := List.rel_reverse hall
        rw [hlast, List.reverse_append] at hreverse
        obtain ⟨last, others, hcurrent, -, heq⟩ := List.forall₂_cons_left_iff.1 hreverse
        rw [hperiod] at hcurrent
        rw [← List.head?_reverse, heq, Except.ok.inj hcurrent]
        rfl
      -- and begin with that of the first month
      unfold previousMonths at hmonths
      split_ifs at hmonths with hcount
      obtain ⟨first, hfirst, hfirstMonth, hnumber⟩ := head_monthsBack hvalid hmonths
      cases selectedMonths with
      | nil => cases hfirst
      | cons a tail =>
        obtain rfl := Option.some.inj hfirst
        obtain ⟨firstPeriod, periods', hfirstPeriod, -, rfl⟩ := List.forall₂_cons_left_iff.1 hall
        have hp := monthPeriod_ok hfirstMonth hfirstPeriod
        have hsize : a.number = m.number - (months - 1) := by omega
        rw [hsize] at hp
        refine ⟨firstPeriod, hp, by omega, ?_⟩
        unfold monthlySeries
        rw [hend]
        exact entryOf_map (fun d => Group.lookup d (monthlyTotals userId s.currency s.zone
          firstPeriod.startUtc period.endUtc g)) (List.mem_of_getLast? hend)

end Months

end Expensea.Ledger
