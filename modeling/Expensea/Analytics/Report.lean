import Expensea.Analytics.Insights
import Expensea.Ledger.MonthPartition
import Expensea.Ledger.Totals

namespace Expensea.Analytics

open DecimalArith
open Expensea.Ledger

/-!
# The report

`report` of `app/analytics/service.py`, and its figures against those of the ledger.

* `categoryContributions` — both months by category, with the change;
* `report` — the comparison of the current month with the one before;
* `spending_figures_agree` — what was spent is one number, wherever it is computed.
-/

/-! ### Contributions -/

/-- `CategoryContribution` -/
structure CategoryContribution where
  categoryId : Option Uuid
  categoryName : PyStr
  currentAmount : ℚ
  previousAmount : ℚ
  change : ℚ
  deriving DecidableEq

/-- The key of `grouped`. -/
def contributionKey (row : AnalyticsTransaction) : Option Uuid × PyStr :=
  (row.categoryId, row.categoryName)

/-- The rows of the current month, and then those of the previous one, by their keys. -/
def contributionRows (current previous : List AnalyticsTransaction) :
    List ((Option Uuid × PyStr) × (AnalyticsTransaction ⊕ AnalyticsTransaction)) :=
  current.map (fun row => (contributionKey row, .inl row)) ++
    previous.map (fun row => (contributionKey row, .inr row))

/-- The contribution of the rows of one key. -/
def contribution
    (item : (Option Uuid × PyStr) × List (AnalyticsTransaction ⊕ AnalyticsTransaction)) :
    CategoryContribution :=
  let currentAmount := decSum ((item.2.filterMap Sum.getLeft?).map signedAmount)
  let previousAmount := decSum ((item.2.filterMap Sum.getRight?).map signedAmount)
  { categoryId := item.1.1
    categoryName := item.1.2
    currentAmount := currentAmount
    previousAmount := previousAmount
    change := decSub currentAmount previousAmount }

/-- The order of `(-abs(item.change), item.category_name)`. -/
def contributionBefore (a b : CategoryContribution) : Bool :=
  |b.change| < |a.change| || |a.change| == |b.change| && decide (a.categoryName ≤ b.categoryName)

/-- `category_contributions` -/
def categoryContributions (current previous : List AnalyticsTransaction) :
    List CategoryContribution :=
  ((Group.collect (contributionRows current previous)).map contribution).insertionSort fun a b =>
    contributionBefore a b = true

/-! ### Report -/

/-- `AnalyticsReport` -/
structure AnalyticsReport where
  currency : PyStr
  currentPeriodStart : Date
  currentPeriodEnd : Date
  previousPeriodStart : Date
  previousPeriodEnd : Date
  current : PeriodMetrics
  previous : PeriodMetrics
  totalChange : ℚ
  countChange : ℤ
  averageSizeChange : ℚ
  contributions : List CategoryContribution
  insights : List GroundedInsight

/-- The UTC bounds of a period. -/
def boundsOf (period : MonthPeriod) : Bounds := ⟨period.startUtc, period.endUtc⟩

/-- The rows of a period. -/
def rowsIn (userId : Uuid) (currency : PyStr) (period : MonthPeriod) (g : Db) :
    List AnalyticsTransaction :=
  transactionRows userId currency period.startUtc period.endUtc g

/-- The report on the rows of the current and the previous month. -/
def reportOn (userId : Uuid) (currency : PyStr) (current previous history : MonthPeriod)
    (today : Date) (g : Db) : Option AnalyticsReport := do
  let currentRows := rowsIn userId currency current g
  let previousRows := rowsIn userId currency previous g
  let currentMetrics ← periodMetrics currentRows
  let previousMetrics ← periodMetrics previousRows
  let emitted ← insights userId currency (boundsOf current) (boundsOf previous)
    ⟨history.startUtc, current.endUtc⟩ today g
  pure {
    currency := currency
    currentPeriodStart := current.startDate
    currentPeriodEnd := current.endDate
    previousPeriodStart := previous.startDate
    previousPeriodEnd := previous.endDate
    current := currentMetrics
    previous := previousMetrics
    totalChange := decSub currentMetrics.spent previousMetrics.spent
    countChange := currentMetrics.transactionCount - previousMetrics.transactionCount
    averageSizeChange := decSub currentMetrics.averageSize previousMetrics.averageSize
    contributions := categoryContributions currentRows previousRows
    insights := emitted }

/-- `report` -/
def report (U : Unicode) (zones : PyStr → Option Zone) (now : Instant) (userId : Uuid)
    (currency : Option PyStr) (g : Db) : Except LedgerError (Option AnalyticsReport) := do
  let s ← select U zones userId currency g
  let currentMonth ← YearMonth.containing now s.zone
  let previousMonth ← currentMonth.previous
  let historyMonth ← monthsBefore currentMonth 11
  let currentPeriod ← monthPeriod s.zone currentMonth
  let previousPeriod ← monthPeriod s.zone previousMonth
  let historyPeriod ← monthPeriod s.zone historyMonth
  pure (reportOn userId s.currency currentPeriod previousPeriod historyPeriod
    (s.zone.wall now / DAY) g)

/-! ### Sums -/

section Sums

variable {current previous rows : List AnalyticsTransaction}

/-- What was spent, from its units. -/
theorem sum_signedAmount (rows : List AnalyticsTransaction) :
    (rows.map signedAmount).sum = spentUnits rows / 10 ^ 4 := by
  unfold spentUnits
  induction rows with
  | nil => simp
  | cons row rows ih =>
    have hrow : signedAmount row = signedUnits row / 10 ^ 4 := by
      unfold signedAmount signedUnits Money.value
      split_ifs
      · push_cast
        ring
      · rfl
    rw [List.map_cons, List.sum_cons, ih, hrow, List.map_cons, List.sum_cons]
    push_cast
    ring

/-- The rows of the report are the spending rows of the ledger. -/
theorem sum_transactionRows (userId : Uuid) (currency : PyStr) (startUtc endUtc : Instant)
    (g : Db) : ((transactionRows userId currency startUtc endUtc g).map signedAmount).sum =
      ((spendingRows userId currency startUtc endUtc g).map signedSpending).sum := by
  have hperm := (List.perm_insertionSort (fun a b => occursBefore a b = true)
    (g.transactions.filter (spendingRow userId currency startUtc endUtc))).map
      (signedAmount ∘ analyticsTransaction g)
  have hfilter : g.transactions.filter (spendingRow userId currency startUtc endUtc) =
      spendingRows userId currency startUtc endUtc g := by
    unfold spendingRows
    apply List.filter_congr
    intro t _
    rw [Bool.eq_iff_iff]
    simp only [spendingRow, postedRow, Analytics.SPENDING_TYPES, Ledger.SPENDING_TYPES,
      Bool.and_eq_true, and_assoc]
    tauto
  unfold transactionRows
  rw [List.map_map, hperm.sum_eq, hfilter]
  congr 1
  apply List.map_congr_left
  intro t ht
  -- spending that is not an expense is a refund
  have htype := (Bool.and_eq_true_iff.1 (List.mem_filter.1 ht).2).2
  show signedAmount (analyticsTransaction g t) = signedSpending t
  unfold signedAmount signedSpending analyticsTransaction
  dsimp only
  unfold Ledger.SPENDING_TYPES at htype
  cases hkind : t.transactionType <;> rw [hkind] at htype <;> first | rfl | cases htype

end Sums

/-! ### Groups of contributions -/

section Contributions

variable {current previous : List AnalyticsTransaction}

/-- The key of a contribution. -/
def CategoryContribution.key (c : CategoryContribution) : Option Uuid × PyStr :=
  (c.categoryId, c.categoryName)

/-- The rows of one key. -/
def keyedRows (key : Option Uuid × PyStr) (rows : List AnalyticsTransaction) :
    List AnalyticsTransaction := rows.filter fun row => contributionKey row = key

/-- A key holds its rows of either month. -/
theorem rowsOf_contributionRows (key : Option Uuid × PyStr) :
    Group.rowsOf key (contributionRows current previous) =
      (keyedRows key current).map .inl ++ (keyedRows key previous).map .inr := by
  unfold Group.rowsOf contributionRows keyedRows
  rw [List.filter_append, List.filter_map, List.filter_map, List.map_append, List.map_map,
    List.map_map]
  rfl

theorem lefts_append {α : Type} (as bs : List α) :
    (as.map (Sum.inl : α → α ⊕ α) ++ bs.map Sum.inr).filterMap Sum.getLeft? = as := by
  have hright : (bs.map (Sum.inr : α → α ⊕ α)).filterMap Sum.getLeft? = [] := by
    induction bs with
    | nil => rfl
    | cons b bs ih => exact ih
  rw [List.filterMap_append, hright, List.append_nil]
  induction as with
  | nil => rfl
  | cons a as ih => exact congrArg (a :: ·) ih

theorem rights_append {α : Type} (as bs : List α) :
    (as.map (Sum.inl : α → α ⊕ α) ++ bs.map Sum.inr).filterMap Sum.getRight? = bs := by
  have hright : (bs.map (Sum.inr : α → α ⊕ α)).filterMap Sum.getRight? = bs := by
    induction bs with
    | nil => rfl
    | cons b bs ih => exact congrArg (b :: ·) ih
  rw [List.filterMap_append, hright]
  induction as with
  | nil => rfl
  | cons a as ih => exact ih

/-- Each contribution sums the rows of its key, without rounding while both months together have
    at most 28 digits. -/
structure ContributionOf (current previous : List AnalyticsTransaction)
    (c : CategoryContribution) : Prop where
  currentAmount : c.currentAmount = ((keyedRows c.key current).map signedAmount).sum
  previousAmount : c.previousAmount = ((keyedRows c.key previous).map signedAmount).sum
  change : c.change = c.currentAmount - c.previousAmount

theorem decSub_spent (hsize : magnitude current + magnitude previous < 10 ^ 28) :
    decSub ((current.map signedAmount).sum) ((previous.map signedAmount).sum) =
      (current.map signedAmount).sum - (previous.map signedAmount).sum := by
  have hcurrent := abs_le.1 (abs_spentUnits_le current)
  have hprevious := abs_le.1 (abs_spentUnits_le previous)
  rw [sum_signedAmount, sum_signedAmount, decSub_exact (by rw [abs_lt]; omega)]
  push_cast
  ring

theorem magnitude_nonneg (rows : List AnalyticsTransaction) : 0 ≤ magnitude rows :=
  (abs_nonneg _).trans (abs_spentUnits_le rows)

/-- A sum that is not rounded. -/
theorem decSum_eq_sum {rows : List AnalyticsTransaction} (hsize : magnitude rows < 10 ^ 28) :
    decSum (rows.map signedAmount) = (rows.map signedAmount).sum := by
  rw [decSum_signedAmount hsize, sum_signedAmount]

theorem contributionOf_contribution
    (hsize : magnitude current + magnitude previous < 10 ^ 28) (key : Option Uuid × PyStr) :
    ContributionOf current previous
      (contribution (key, Group.rowsOf key (contributionRows current previous))) := by
  have hcurrent := magnitude_filter_le (fun row => contributionKey row = key) current
  have hprevious := magnitude_filter_le (fun row => contributionKey row = key) previous
  have hpos := magnitude_nonneg current
  have hpos' := magnitude_nonneg previous
  have hleft : decSum ((keyedRows key current).map signedAmount) =
      ((keyedRows key current).map signedAmount).sum := decSum_eq_sum (by
    unfold keyedRows
    omega)
  have hright : decSum ((keyedRows key previous).map signedAmount) =
      ((keyedRows key previous).map signedAmount).sum := decSum_eq_sum (by
    unfold keyedRows
    omega)
  have hchange : decSub ((keyedRows key current).map signedAmount).sum
      ((keyedRows key previous).map signedAmount).sum =
      ((keyedRows key current).map signedAmount).sum -
        ((keyedRows key previous).map signedAmount).sum := decSub_spent (by
    unfold keyedRows
    omega)
  unfold contribution
  dsimp only
  rw [rowsOf_contributionRows, lefts_append, rights_append, hleft, hright, hchange]
  exact ⟨rfl, rfl, rfl⟩

/-- The contributions are those of the keys of either month, each once. -/
theorem categoryContributions_spec
    (hsize : magnitude current + magnitude previous < 10 ^ 28) :
    (∀ c ∈ categoryContributions current previous, ContributionOf current previous c) ∧
      ((categoryContributions current previous).map CategoryContribution.key).Nodup ∧
      ∀ row ∈ current ++ previous,
        contributionKey row ∈
          (categoryContributions current previous).map CategoryContribution.key := by
  have hperm : (categoryContributions current previous).Perm
      ((Group.collect (contributionRows current previous)).map contribution) :=
    List.perm_insertionSort _ _
  have hkeys : ((categoryContributions current previous).map CategoryContribution.key).Perm
      ((Group.collect (contributionRows current previous)).map Prod.fst) := by
    have hmap := hperm.map CategoryContribution.key
    rw [List.map_map] at hmap
    exact hmap
  refine ⟨fun c hc => ?_, ?_, fun row hrow => ?_⟩
  · obtain ⟨⟨key, rows⟩, hitem, rfl⟩ := List.mem_map.1 (hperm.mem_iff.1 hc)
    obtain ⟨-, rfl⟩ := Group.mem_collect.1 hitem
    exact contributionOf_contribution hsize key
  · rw [hkeys.nodup_iff]
    exact (Group.collect_spec _).1
  · have hrows : Group.rowsOf (contributionKey row) (contributionRows current previous) ≠ [] := by
      rw [rowsOf_contributionRows]
      intro hnone
      obtain ⟨hleft, hright⟩ := List.append_eq_nil_iff.1 hnone
      rw [List.map_eq_nil_iff] at hleft hright
      have hself : decide (contributionKey row = contributionKey row) = true := by simp
      rcases List.mem_append.1 hrow with hrow | hrow
      · exact List.filter_eq_nil_iff.1 hleft row hrow hself
      · exact List.filter_eq_nil_iff.1 hright row hrow hself
    rw [hkeys.mem_iff]
    exact List.mem_map_of_mem (f := Prod.fst) (Group.mem_collect.2 ⟨hrows, rfl⟩)

/-- The contributions of either month add up to what was spent in it. -/
theorem sum_contributions (hsize : magnitude current + magnitude previous < 10 ^ 28) :
    ((categoryContributions current previous).map
        CategoryContribution.currentAmount).sum = (current.map signedAmount).sum ∧
      ((categoryContributions current previous).map
        CategoryContribution.previousAmount).sum = (previous.map signedAmount).sum := by
  obtain ⟨hof, hnodup, hcover⟩ := categoryContributions_spec hsize
  generalize categoryContributions current previous = contributions at hof hnodup hcover ⊢
  have hcurrent : contributions.map CategoryContribution.currentAmount =
      (contributions.map CategoryContribution.key).map fun key =>
        Group.sumOf contributionKey signedAmount key current := by
    rw [List.map_map]
    exact List.map_congr_left fun c hc => (hof c hc).currentAmount
  have hprevious : contributions.map CategoryContribution.previousAmount =
      (contributions.map CategoryContribution.key).map fun key =>
        Group.sumOf contributionKey signedAmount key previous := by
    rw [List.map_map]
    exact List.map_congr_left fun c hc => (hof c hc).previousAmount
  constructor
  · rw [hcurrent]
    exact Group.sum_sumOf hnodup fun row hrow => hcover row (List.mem_append_left _ hrow)
  · rw [hprevious]
    exact Group.sum_sumOf hnodup fun row hrow => hcover row (List.mem_append_right _ hrow)

/-- The changes add up to the difference. -/
theorem sum_changes (hsize : magnitude current + magnitude previous < 10 ^ 28) :
    ((categoryContributions current previous).map CategoryContribution.change).sum =
      (current.map signedAmount).sum - (previous.map signedAmount).sum := by
  obtain ⟨hof, -, -⟩ := categoryContributions_spec hsize
  obtain ⟨hcurrent, hprevious⟩ := sum_contributions hsize
  rw [← hcurrent, ← hprevious, eq_sub_iff_add_eq, ← List.sum_map_add]
  congr 1
  apply List.map_congr_left
  intro c hc
  rw [(hof c hc).change, sub_add_cancel]

end Contributions

/-! ### One number -/

/-- The primary keys of the joined tables. -/
structure Keyed (g : Db) : Prop where
  merchants : (g.merchants.map Merchant.id).Nodup
  categories : (g.categories.map Category.id).Nodup

/-- A report on two months agrees with what was spent in the current one, and splits both into
    contributions. -/
structure ReportAgrees (spent : ℚ) (current previous : List AnalyticsTransaction)
    (r : AnalyticsReport) : Prop where
  currentSpent : r.current.spent = spent
  currentSum : (r.contributions.map CategoryContribution.currentAmount).sum = r.current.spent
  previousSum : (r.contributions.map CategoryContribution.previousAmount).sum = r.previous.spent
  changeSum : (r.contributions.map CategoryContribution.change).sum = r.totalChange
  counted : ∀ c ∈ r.contributions, ContributionOf current previous c
  once : ∀ row ∈ current ++ previous,
    (r.contributions.map CategoryContribution.key).count (contributionKey row) = 1

/-- The figures of the month of an instant, of the queries and of the services over them. -/
structure FiguresAgree (U : Unicode) (collate : PyStr → PyStr → Bool) (zones : PyStr → Option Zone)
    (now : Instant) (userId : Uuid) (currency : Option PyStr) (s : Selection) (m : YearMonth)
    (period : MonthPeriod) (g : Db) : Prop where
  categories : ((categoryTotals collate userId s.currency period g).map fun e => e.2.2).sum =
    (financialTotals userId s.currency period g).1
  merchants : ((merchantTotals collate userId s.currency period g).map fun e => e.2.2).sum =
    (financialTotals userId s.currency period g).1
  summary : ∀ month summary, selectedMonth month now s.zone = .ok m →
    financialSummary U zones now userId currency month g = .ok summary →
    summary.spent = (financialTotals userId s.currency period g).1
  byCategory : ∀ month entries, selectedMonth month now s.zone = .ok m →
    spendingByCategory U collate zones now userId currency month g = .ok (some entries) →
    (entries.map CategorySpending.amount).sum = (financialTotals userId s.currency period g).1
  byMerchant : ∀ month entries, selectedMonth month now s.zone = .ok m →
    spendingByMerchant U collate zones now userId currency month g = .ok (some entries) →
    (entries.map MerchantSpending.amount).sum = (financialTotals userId s.currency period g).1
  series : ∀ months series, monthlySpending U zones now userId currency months g = .ok series →
    Regular s.zone (m.number - (months - 1)) → Regular s.zone m.number →
    Regular s.zone (m.number + 1) →
    entryOf period.startDate series = (financialTotals userId s.currency period g).1
  report : ∀ r, report U zones now userId currency g = .ok (some r) →
    ∃ previousMonth previous, m.previous = .ok previousMonth ∧
      monthPeriod s.zone previousMonth = .ok previous ∧
      (magnitude (rowsIn userId s.currency period g) +
          magnitude (rowsIn userId s.currency previous g) < 10 ^ 28 →
        ReportAgrees (financialTotals userId s.currency period g).1
          (rowsIn userId s.currency period g) (rowsIn userId s.currency previous g) r)

section Agreement

variable {U : Unicode} {zones : PyStr → Option Zone} {now : Instant} {userId : Uuid}
  {currency : Option PyStr} {g : Db} {s : Selection} {m : YearMonth} {period : MonthPeriod}

theorem periodMetrics_spent {rows : List AnalyticsTransaction} {metrics : PeriodMetrics}
    (h : periodMetrics rows = some metrics) : metrics.spent = decSum (rows.map signedAmount) := by
  unfold periodMetrics at h
  dsimp only at h
  by_cases hempty : rows.length = 0
  · rw [if_pos hempty] at h
    rw [← Option.some.inj h]
  · rw [if_neg hempty] at h
    obtain ⟨average, -, hmetrics⟩ := Option.bind_eq_some_iff.1 h
    rw [← Option.some.inj hmetrics]

/-- The figures of a report. -/
theorem reportOn_some {selected : PyStr} {current previous history : MonthPeriod} {today : Date}
    {r : AnalyticsReport}
    (h : reportOn userId selected current previous history today g = some r) :
    r.current.spent = decSum ((rowsIn userId selected current g).map signedAmount) ∧
      r.previous.spent = decSum ((rowsIn userId selected previous g).map signedAmount) ∧
      r.totalChange = decSub r.current.spent r.previous.spent ∧
      r.contributions = categoryContributions (rowsIn userId selected current g)
        (rowsIn userId selected previous g) := by
  unfold reportOn at h
  obtain ⟨currentMetrics, hcurrent, h⟩ := Option.bind_eq_some_iff.1 h
  obtain ⟨previousMetrics, hprevious, h⟩ := Option.bind_eq_some_iff.1 h
  obtain ⟨emitted, -, h⟩ := Option.bind_eq_some_iff.1 h
  obtain rfl := Option.some.inj h
  exact ⟨periodMetrics_spent hcurrent, periodMetrics_spent hprevious, rfl, rfl⟩

/-- A report is about the month of the instant and the one before. -/
theorem report_ok (hs : select U zones userId currency g = .ok s)
    (hm : YearMonth.containing now s.zone = .ok m) (hperiod : monthPeriod s.zone m = .ok period)
    {r : AnalyticsReport} (h : report U zones now userId currency g = .ok (some r)) :
    ∃ previousMonth previous history, m.previous = .ok previousMonth ∧
      monthPeriod s.zone previousMonth = .ok previous ∧
      reportOn userId s.currency period previous history (s.zone.wall now / DAY) g = some r := by
  unfold report at h
  rw [hs] at h
  dsimp only [bind, Except.bind] at h
  rw [hm] at h
  dsimp only at h
  cases hprevious : m.previous with
  | error e =>
    rw [hprevious] at h
    cases h
  | ok previousMonth =>
    rw [hprevious] at h
    dsimp only at h
    cases hback : monthsBefore m 11 with
    | error e =>
      rw [hback] at h
      cases h
    | ok historyMonth =>
      rw [hback, hperiod] at h
      dsimp only at h
      cases hpreviousPeriod : monthPeriod s.zone previousMonth with
      | error e =>
        rw [hpreviousPeriod] at h
        cases h
      | ok previous =>
        rw [hpreviousPeriod] at h
        dsimp only at h
        cases hhistory : monthPeriod s.zone historyMonth with
        | error e =>
          rw [hhistory] at h
          cases h
        | ok history =>
          rw [hhistory] at h
          exact ⟨previousMonth, previous, history, rfl, hpreviousPeriod, Except.ok.inj h⟩

/-- A report agrees with the ledger while its sums have at most 28 digits. -/
theorem reportAgrees {selected : PyStr} {previous history : MonthPeriod} {today : Date}
    {r : AnalyticsReport}
    (h : reportOn userId selected period previous history today g = some r)
    (hsize : magnitude (rowsIn userId selected period g) +
      magnitude (rowsIn userId selected previous g) < 10 ^ 28) :
    ReportAgrees (financialTotals userId selected period g).1 (rowsIn userId selected period g)
      (rowsIn userId selected previous g) r := by
  obtain ⟨hcurrent, hprevious, hchange, hcontributions⟩ := reportOn_some h
  have hpos := magnitude_nonneg (rowsIn userId selected period g)
  have hpos' := magnitude_nonneg (rowsIn userId selected previous g)
  rw [decSum_eq_sum (by omega)] at hcurrent hprevious
  rw [hcurrent, hprevious, decSub_spent hsize] at hchange
  obtain ⟨hof, hnodup, hcover⟩ := categoryContributions_spec hsize
  obtain ⟨hcurrentSum, hpreviousSum⟩ := sum_contributions hsize
  have hspent : r.current.spent = (financialTotals userId selected period g).1 := by
    rw [hcurrent, financialTotals_spent]
    exact sum_transactionRows userId selected period.startUtc period.endUtc g
  refine ⟨hspent, ?_, ?_, ?_, ?_, ?_⟩
  · rw [hcontributions, hcurrentSum, hcurrent]
  · rw [hcontributions, hpreviousSum, hprevious]
  · rw [hcontributions, sum_changes hsize, hchange]
  · rw [hcontributions]
    exact hof
  · rw [hcontributions]
    exact fun row hrow => List.count_eq_one_of_mem hnodup (hcover row hrow)

/-- **Every spending figure agrees.**  For the month of an instant in the owner's zone, what was
    spent is the sum of the categories, the sum of the merchants, what the services answer for
    the month, whether it is asked for or chosen by default, the month's entry in every series
    whose midnights the clock neither repeats nor skips, and the current spending of the report,
    whose contributions count each transaction once, while the amounts of both months together
    have at most 28 digits. -/
theorem spending_figures_agree (collate : PyStr → PyStr → Bool) (hg : Keyed g)
    (hs : select U zones userId currency g = .ok s)
    (hm : YearMonth.containing now s.zone = .ok m) (hperiod : monthPeriod s.zone m = .ok period) :
    FiguresAgree U collate zones now userId currency s m period g := by
  have hp := monthPeriod_ok (YearMonth.containing_ok hm) hperiod
  refine ⟨sum_categoryTotals collate period hg.categories,
    sum_merchantTotals collate period hg.merchants, ?_, ?_, ?_, ?_, ?_⟩
  · exact fun month summary hmonth => financialSummary_ok hs hmonth hperiod
  · intro month entries hmonth h
    rw [spendingByCategory_ok hs hmonth hperiod h]
    exact sum_categoryTotals collate period hg.categories
  · intro month entries hmonth h
    rw [spendingByMerchant_ok hs hmonth hperiod h]
    exact sum_merchantTotals collate period hg.merchants
  · intro months series hseries hfirst hstart hend
    obtain ⟨firstPeriod, hfirstPeriod, hmonths, hentry⟩ := monthlySpending_ok hs hm hperiod hseries
    rw [hentry]
    exact lookup_monthlyTotals hfirstPeriod hp (by omega) hfirst hstart hend
  · intro r hr
    obtain ⟨previousMonth, previous, history, hprevious, hpreviousPeriod, hon⟩ :=
      report_ok hs hm hperiod hr
    exact ⟨previousMonth, previous, hprevious, hpreviousPeriod, reportAgrees hon⟩

/-! ### Months of a report -/

/-- So many months before a month, where they do not begin before 2000. -/
theorem monthsBefore_ok {n : Nat} : ∀ {m : YearMonth}, YearMonth.make m.year m.month = .ok m →
    24000 + (n : ℤ) ≤ m.number →
    ∃ earlier, monthsBefore m n = .ok earlier ∧
      YearMonth.make earlier.year earlier.month = .ok earlier ∧ earlier.number = m.number - n := by
  induction n with
  | zero =>
    intro m hm _
    exact ⟨m, rfl, hm, by simp⟩
  | succ n ih =>
    intro m hm hcount
    obtain ⟨-, hrange⟩ := (YearMonth.make_eq_ok_iff _ _ _).1 hm
    push_cast at hcount
    have hnumber := hcount
    unfold YearMonth.number at hnumber
    -- the month before is not earlier than January 2000
    obtain ⟨previous, hprevious⟩ : ∃ previous, m.previous = .ok previous := by
      unfold YearMonth.previous
      by_cases hjanuary : m.month = 1
      · rw [if_pos hjanuary]
        exact ⟨_, (YearMonth.make_eq_ok_iff _ _ _).2 ⟨rfl, by omega⟩⟩
      · rw [if_neg hjanuary]
        exact ⟨_, (YearMonth.make_eq_ok_iff _ _ _).2 ⟨rfl, by omega⟩⟩
    obtain ⟨hback, hmonth⟩ := YearMonth.previous_ok hprevious
    have hvalid : YearMonth.make previous.year previous.month = .ok previous := by
      unfold YearMonth.number at hback
      exact (YearMonth.make_eq_ok_iff _ _ _).2 ⟨rfl, by omega⟩
    obtain ⟨earlier, hearlier, hmake, hcounted⟩ := ih hvalid (by omega)
    rw [monthsBefore, hprevious]
    exact ⟨earlier, hearlier, hmake, by push_cast; omega⟩

/-- There is a report on two months that have amounts of at most `10 ^ 20`. -/
theorem reportOn_returns {selected : PyStr} {current previous : MonthPeriod}
    (history : MonthPeriod) (today : Date) (hg : MerchantsThere g)
    (hcur : magnitude (rowsIn userId selected current g) ≤ 10 ^ 24)
    (hprev : magnitude (rowsIn userId selected previous g) ≤ 10 ^ 24) :
    ∃ r, reportOn userId selected current previous history today g = some r := by
  obtain ⟨currentAverage, hcurrent⟩ := periodMetrics_eq_some (decSum_signedAmount (by omega))
    ((abs_spentUnits_le _).trans (hcur.trans (by norm_num)))
  obtain ⟨previousAverage, hprevious⟩ := periodMetrics_eq_some (decSum_signedAmount (by omega))
    ((abs_spentUnits_le _).trans (hprev.trans (by norm_num)))
  obtain ⟨emitted, hemitted, -⟩ := insights_spec userId selected (boundsOf current)
    (boundsOf previous) ⟨history.startUtc, current.endUtc⟩ today g hg hprev hcur
  unfold reportOn
  dsimp only
  rw [hcurrent, hprevious, hemitted]
  exact ⟨_, rfl⟩

/-- From December 2000 to November 2100 there is a report, while each month has amounts of at most
    `10 ^ 20`. -/
theorem report_returns (hg : MerchantsThere g) (hs : select U zones userId currency g = .ok s)
    (hm : YearMonth.containing now s.zone = .ok m) (hfirst : (YearMonth.mk 2000 12).number ≤ m.number)
    (hlast : m ≠ ⟨2100, 12⟩)
    (hsize : ∀ p, magnitude (rowsIn userId s.currency p g) ≤ 10 ^ 24) :
    ∃ r, report U zones now userId currency g = .ok (some r) := by
  have hmake : YearMonth.make m.year m.month = .ok m := by
    obtain rfl := (YearMonth.make_ok hm).1
    exact hm
  have hbefore : ∀ n : Nat, n ≤ 11 → ∃ earlier period, monthsBefore m n = .ok earlier ∧
      monthPeriod s.zone earlier = .ok period := by
    intro n hn
    have hnumber : (YearMonth.mk 2000 12).number = 24011 := by decide
    obtain ⟨earlier, hearlier, hvalid, hback⟩ := monthsBefore_ok hmake (n := n) (by omega)
    obtain ⟨-, hrange⟩ := (YearMonth.make_eq_ok_iff _ _ _).1 hmake
    obtain ⟨-, hrange'⟩ := (YearMonth.make_eq_ok_iff _ _ _).1 hvalid
    have hnotlast : ¬ (earlier.year = 2100 ∧ earlier.month = 12) := by
      rintro ⟨hyear, hmonth⟩
      unfold YearMonth.number at hback
      apply hlast
      obtain ⟨year, month⟩ := m
      dsimp only at hrange hback
      rw [YearMonth.mk.injEq]
      omega
    obtain ⟨-, period, -, hperiod⟩ := monthPeriod_of_valid s.zone hvalid hnotlast
    exact ⟨earlier, period, hearlier, hperiod⟩
  obtain ⟨_, current, hcurrentMonth, hcurrent⟩ := hbefore 0 (by decide)
  obtain rfl := Except.ok.inj hcurrentMonth
  obtain ⟨previousMonth, previous, hpreviousMonth, hprevious⟩ := hbefore 1 (by decide)
  obtain ⟨historyMonth, history, hhistoryMonth, hhistory⟩ := hbefore 11 (by decide)
  have hback : m.previous = .ok previousMonth := by
    rw [monthsBefore] at hpreviousMonth
    cases hstep : m.previous with
    | error e =>
      rw [hstep] at hpreviousMonth
      cases hpreviousMonth
    | ok p =>
      rw [hstep] at hpreviousMonth
      exact hpreviousMonth
  obtain ⟨r, hr⟩ := reportOn_returns history (s.zone.wall now / DAY) hg (hsize current)
    (hsize previous)
  refine ⟨r, ?_⟩
  unfold report
  rw [hs]
  dsimp only [bind, Except.bind]
  rw [hm]
  dsimp only
  rw [hback]
  dsimp only
  rw [hhistoryMonth, hcurrent]
  dsimp only
  rw [hprevious]
  dsimp only
  rw [hhistory]
  exact congrArg Except.ok hr

end Agreement

theorem regular_utc (number : ℤ) : Regular utcZone.toZone number := by
  refine ⟨fun t t' htt' hwall => ?_, trivial⟩
  unfold Zone.wall at hwall ⊢
  have hzero : ∀ t, offsetAt t utcZone.initial utcZone.transitions = 0 := fun _ => rfl
  rw [hzero] at hwall ⊢
  omega

/-- The period of February 2024, in UTC. -/
def februaryUtc : MonthPeriod := ⟨⟨2024, 2⟩, 738916, 738945, 738916 * DAY, 738945 * DAY⟩

/-- The period of January 2024, in UTC. -/
def januaryUtc : MonthPeriod := ⟨⟨2024, 1⟩, 738885, 738916, 738885 * DAY, 738916 * DAY⟩

/-- One hundred rupees in January 2024 and as much in February, seen in February: 100 rupees. -/
theorem spending_figures_agree_utc : ∃ period,
    monthPeriod utcZone.toZone ⟨2024, 2⟩ = .ok period ∧
    FiguresAgree .plain (fun a b => decide (a ≤ b)) (fun _ => some utcZone.toZone) (738930 * DAY) 1
      none ⟨utcZone.toZone, py "INR"⟩ ⟨2024, 2⟩ period (twoMonths hundred) ∧
    ((report .plain (fun _ => some utcZone.toZone) (738930 * DAY) 1 none
      (twoMonths hundred)).toOption.join.map fun r => r.current.spent) = some 100 ∧
    (financialTotals 1 (py "INR") period (twoMonths hundred)).1 = 100 :=
  ⟨februaryUtc, rfl, spending_figures_agree _ ⟨by decide, by decide⟩ rfl rfl rfl, by decide +kernel,
    by decide +kernel⟩

/-! ### Zones and sizes at which figures differ -/

/-- An hour is skipped from half past eleven on 31 January 2024 on.  The zone is made up: from
    2000 on no IANA zone jumps over the midnight that starts a month. -/
def skippingZone : Zone where
  initial := 0
  transitions := [⟨738916 * DAY - 30 * MINUTE, 60 * MINUTE⟩]
  ordered := by decide

theorem skippingZone_unrepeated (wall : ℤ) : skippingZone.Unrepeated wall := by
  intro t t' htt' hwall
  have hoffset : ∀ t : ℤ, skippingZone.wall t =
      if 738916 * DAY - 30 * MINUTE ≤ t then t + 60 * MINUTE else t + 0 := by
    intro t
    show t + (if _ then _ else _) = _
    split_ifs <;> rfl
  rw [hoffset] at hwall ⊢
  have hpos : (0 : ℤ) < 60 * MINUTE := by decide
  split_ifs at hwall ⊢ <;> omega

/-- An expense fifteen minutes before midnight UTC, which is a quarter to one on 1 February. -/
def skippedExpense : Db :=
  { Db.empty 0 with
    users := [⟨1, py "UTC", py "INR"⟩]
    transactions := [{ expenseOn 20 hundred 0 with
      transactionDate := 738916 * DAY - 15 * MINUTE }] }

theorem large_range : |(10 ^ 18 : ℤ)| < 10 ^ 19 := by norm_num

theorem smallest_range : |(1 : ℤ)| < 10 ^ 19 := by norm_num

/-- Expenses of a hundred thousand billion in February 2024, and the smallest one after them. -/
def manyExpenses (n : Nat) : Db :=
  { Db.empty 0 with
    users := [⟨1, py "UTC", py "INR"⟩]
    transactions := (List.range n).map (fun id => expenseOn id ⟨10 ^ 18, large_range⟩ 738920) ++
      [expenseOn n ⟨1, smallest_range⟩ 738921] }

/-- The expenses come in the order of the query. -/
theorem sorted_manyExpenses (n : Nat) :
    (manyExpenses n).transactions.Pairwise fun a b => occursBefore a b = true := by
  refine List.pairwise_append.2 ⟨?_, List.pairwise_singleton _ _, ?_⟩
  · rw [List.pairwise_map]
    refine List.pairwise_lt_range.imp fun hlt => ?_
    simp [occursBefore, expenseOn, Nat.le_of_lt hlt]
  · intro a ha b hb
    obtain ⟨id, -, rfl⟩ := List.mem_map.1 ha
    rw [List.mem_singleton.1 hb]
    rfl

theorem rowsIn_manyExpenses (n : Nat) : rowsIn 1 (py "INR") februaryUtc (manyExpenses n) =
    (manyExpenses n).transactions.map (analyticsTransaction (manyExpenses n)) := by
  have hall : (manyExpenses n).transactions.filter
      (spendingRow 1 (py "INR") februaryUtc.startUtc februaryUtc.endUtc) =
        (manyExpenses n).transactions := by
    rw [List.filter_eq_self]
    intro t ht
    rcases List.mem_append.1 ht with ht | ht
    · obtain ⟨id, -, rfl⟩ := List.mem_map.1 ht
      rfl
    · rw [List.mem_singleton.1 ht]
      rfl
  unfold rowsIn transactionRows
  rw [hall, (sorted_manyExpenses n).insertionSort_eq]

theorem rowsIn_january (n : Nat) : rowsIn 1 (py "INR") januaryUtc (manyExpenses n) = [] := by
  have hnone : (manyExpenses n).transactions.filter
      (spendingRow 1 (py "INR") januaryUtc.startUtc januaryUtc.endUtc) = [] := by
    rw [List.filter_eq_nil_iff]
    intro t ht
    rcases List.mem_append.1 ht with ht | ht
    · obtain ⟨id, -, rfl⟩ := List.mem_map.1 ht
      exact Bool.false_ne_true
    · rw [List.mem_singleton.1 ht]
      exact Bool.false_ne_true
  unfold rowsIn transactionRows
  rw [hnone]
  rfl

theorem signedAmounts_manyExpenses (n : Nat) :
    (rowsIn 1 (py "INR") februaryUtc (manyExpenses n)).map signedAmount =
      List.replicate n (10 ^ 14) ++ [1 / 10 ^ 4] := by
  have hlarge : ∀ id, signedAmount (analyticsTransaction (manyExpenses n)
      (expenseOn id ⟨10 ^ 18, large_range⟩ 738920)) = 10 ^ 14 := by
    intro id
    show ((10 ^ 18 : ℤ) / 10 ^ 4 : ℚ) = 10 ^ 14
    norm_num
  have hsmall : signedAmount (analyticsTransaction (manyExpenses n)
      (expenseOn n ⟨1, smallest_range⟩ 738921)) = 1 / 10 ^ 4 := by
    show ((1 : ℤ) / 10 ^ 4 : ℚ) = 1 / 10 ^ 4
    norm_num
  have hlarges : (List.range n).map ((signedAmount ∘ analyticsTransaction (manyExpenses n)) ∘
      fun id => expenseOn id ⟨10 ^ 18, large_range⟩ 738920) = List.replicate n (10 ^ 14) := by
    refine (List.map_congr_left fun id _ => hlarge id).trans ?_
    rw [List.map_const', List.length_range]
  rw [rowsIn_manyExpenses, List.map_map]
  show List.map _ ((List.range n).map _ ++ [_]) = _
  rw [List.map_append, List.map_map, List.map_singleton, hlarges]
  exact congrArg (fun x => List.replicate n (10 ^ 14) ++ [x]) hsmall

/-- Up to ten billion of them, the large amounts are summed without rounding. -/
theorem foldl_replicate (n : Nat) : ∀ k : Nat, k + n ≤ 10 ^ 10 →
    (List.replicate n (10 ^ 14 : ℚ)).foldl decAdd (k * 10 ^ 14) = (k + n : ℕ) * 10 ^ 14 := by
  induction n with
  | zero =>
    intro k _
    rfl
  | succ n ih =>
    intro k hk
    have hstep : decAdd (k * 10 ^ 14) (10 ^ 14) = (k + 1 : ℕ) * 10 ^ 14 := by
      have hunit : (k * 10 ^ 14 + 10 ^ 14 : ℚ) = ((k + 1 : ℕ) * 10 ^ 14 : ℤ) / 10 ^ 0 := by
        push_cast
        ring
      rw [decAdd, hunit, round_places 0 (by decide) (by rw [abs_lt]; push_cast; omega)]
      push_cast
      ring
    rw [List.replicate_succ, List.foldl_cons, hstep, ih (k + 1) (by omega), Nat.add_right_comm k 1 n,
      Nat.add_assoc k n 1]

/-- Rows without merchants are not concentrated. -/
theorem merchantConcentration_unnamed {positive : List AnalyticsTransaction}
    (h : ∀ row ∈ positive, row.merchantId = none) : merchantConcentration positive = some [] := by
  have hnone : positive.filterMap (fun row => (merchantKey row).map fun key => (key, row)) = [] := by
    rw [List.filterMap_eq_nil_iff]
    intro row hrow
    unfold merchantKey
    rw [h row hrow]
    rfl
  unfold merchantConcentration merchantRows
  rw [hnone]
  dsimp only
  split_ifs
  · rfl
  · rfl

section Many

variable {n : Nat} (hn : n = 10 ^ 10)

include hn

/-- The smallest amount is lost behind ten billion large ones. -/
theorem decSum_manyExpenses :
    decSum ((rowsIn 1 (py "INR") februaryUtc (manyExpenses n)).map signedAmount) = 10 ^ 24 := by
  have hlarge := foldl_replicate n 0 (by omega)
  rw [Nat.cast_zero, zero_mul, Nat.zero_add] at hlarge
  rw [signedAmounts_manyExpenses, decSum, List.foldl_append, hlarge, hn]
  decide +kernel

theorem sum_manyExpenses : (financialTotals 1 (py "INR") februaryUtc (manyExpenses n)).1 =
    10 ^ 24 + 1 / 10 ^ 4 := by
  have hcount : (n : ℚ) = 10 ^ 10 := by
    rw [hn]
    norm_num
  rw [financialTotals_spent, ← sum_transactionRows]
  show ((rowsIn 1 (py "INR") februaryUtc (manyExpenses n)).map signedAmount).sum = _
  rw [signedAmounts_manyExpenses, List.sum_append, List.sum_replicate, List.sum_singleton,
    nsmul_eq_mul, hcount]
  norm_num

/-- The report on those expenses. -/
theorem reportOn_manyExpenses (history : MonthPeriod) (today : Date) : ∃ r,
    reportOn 1 (py "INR") februaryUtc januaryUtc history today (manyExpenses n) = some r ∧
      r.current.spent = 10 ^ 24 := by
  have hlength : (rowsIn 1 (py "INR") februaryUtc (manyExpenses n)).length =
      10 ^ 10 + 1 := by
    rw [← List.length_map signedAmount, signedAmounts_manyExpenses, List.length_append,
      List.length_replicate, hn]
    rfl
  obtain ⟨average, hcurrent⟩ : ∃ average,
      periodMetrics (rowsIn 1 (py "INR") februaryUtc (manyExpenses n)) =
        some ⟨10 ^ 24, 10 ^ 10 + 1, average⟩ := by
    obtain ⟨average, haverage⟩ := Option.isSome_iff_exists.1
      (show (quantizeMoney (decDiv (10 ^ 24) (10 ^ 10 + 1 : ℕ))).isSome = true by decide +kernel)
    unfold periodMetrics
    rw [decSum_manyExpenses hn, hlength, if_neg (by norm_num), haverage]
    exact ⟨average, rfl⟩
  have hprevious : periodMetrics (rowsIn 1 (py "INR") januaryUtc (manyExpenses n)) =
      some ⟨0, 0, 0⟩ := by
    rw [rowsIn_january]
    rfl
  have hunnamed : ∀ row ∈ positiveRows (rowsIn 1 (py "INR") februaryUtc (manyExpenses n)),
      row.merchantId = none := by
    intro row hrow
    rw [rowsIn_manyExpenses] at hrow
    obtain ⟨t, ht, rfl⟩ := List.mem_map.1 (List.mem_filter.1 hrow).1
    rcases List.mem_append.1 ht with ht | ht
    · obtain ⟨id, -, rfl⟩ := List.mem_map.1 ht
      rfl
    · rw [List.mem_singleton.1 ht]
      rfl
  obtain ⟨emitted, hemitted⟩ : ∃ emitted, insights 1 (py "INR") (boundsOf februaryUtc)
      (boundsOf januaryUtc) ⟨history.startUtc, februaryUtc.endUtc⟩ today (manyExpenses n) =
        some emitted := by
    unfold insights
    dsimp only
    change ∃ emitted, ((periodMetrics (rowsIn 1 (py "INR") februaryUtc (manyExpenses n))).bind
      fun currentMetrics => (periodMetrics (rowsIn 1 (py "INR") januaryUtc
        (manyExpenses n))).bind fun previousMetrics => buildInsights
          (rowsIn 1 (py "INR") februaryUtc (manyExpenses n)) _ previousMetrics currentMetrics
          _ today) = some emitted
    rw [hcurrent, hprevious]
    unfold buildInsights
    dsimp only [Option.bind]
    rw [merchantConcentration_unnamed hunnamed]
    exact ⟨_, rfl⟩
  unfold reportOn
  dsimp only
  rw [hcurrent, hprevious, hemitted]
  exact ⟨_, rfl, rfl⟩

end Many

/-- **Where figures differ.**  Where the clock jumps over the first midnight of a month, a
    transaction of the skipped hour is in the series but not in the totals of the month; and
    amounts of more than 28 digits together are rounded by the report. -/
theorem spending_figures_differ :
    (¬ ∀ (U : Unicode) (zones : PyStr → Option Zone) (now : Instant) (userId : Uuid)
      (currency : Option PyStr) (g : Db) (s : Selection) (m : YearMonth) (period : MonthPeriod)
      (months : ℤ) (series : List MonthlySpending), Keyed g →
      select U zones userId currency g = .ok s → YearMonth.containing now s.zone = .ok m →
      monthPeriod s.zone m = .ok period →
      (∀ number, s.zone.Unrepeated (midnight (monthStart number))) →
      monthlySpending U zones now userId currency months g = .ok series →
      entryOf period.startDate series = (financialTotals userId s.currency period g).1) ∧
    ¬ ∀ (U : Unicode) (zones : PyStr → Option Zone) (now : Instant) (userId : Uuid)
      (currency : Option PyStr) (g : Db) (s : Selection) (m : YearMonth) (period : MonthPeriod)
      (r : AnalyticsReport), Keyed g →
      select U zones userId currency g = .ok s → YearMonth.containing now s.zone = .ok m →
      monthPeriod s.zone m = .ok period →
      (∀ number, s.zone.Unrepeated (midnight (monthStart number))) →
      report U zones now userId currency g = .ok (some r) →
      r.current.spent = (financialTotals userId s.currency period g).1 := by
  constructor
  · intro hall
    have hagree := hall .plain (fun _ => some skippingZone) (738930 * DAY) 1 none skippedExpense
      ⟨skippingZone, py "INR"⟩ ⟨2024, 2⟩ _ 2 _ ⟨by decide, by decide⟩ rfl rfl rfl
      (fun number => skippingZone_unrepeated _) rfl
    exact absurd hagree (by decide +kernel)
  · intro hall
    obtain ⟨n, hn⟩ : ∃ n : Nat, n = 10 ^ 10 := ⟨_, rfl⟩
    obtain ⟨r, hr, hspent⟩ := reportOn_manyExpenses hn
      ⟨⟨2023, 3⟩, 738579, 738610, 738579 * DAY, 738610 * DAY⟩ 738930
    have hreport : report .plain (fun _ => some utcZone.toZone) (738930 * DAY) 1 none
        (manyExpenses n) = .ok (some r) := congrArg Except.ok hr
    have hagree := hall .plain (fun _ => some utcZone.toZone) (738930 * DAY) 1 none
      (manyExpenses n) ⟨utcZone.toZone, py "INR"⟩ ⟨2024, 2⟩ februaryUtc r
      ⟨List.nodup_nil, List.nodup_nil⟩ rfl rfl rfl (fun number => (regular_utc number).1) hreport
    rw [hspent, sum_manyExpenses hn] at hagree
    norm_num at hagree

end Expensea.Analytics
