import Expensea.Domain.Zone
import Expensea.Ledger.Commands

namespace Expensea.Ledger

/-!
# Periods

`app/ledger/periods.py`: the months of a user's calendar and the instants they begin at.

* `monthPeriod` — a month by its dates and its UTC bounds;
* `mem_period_iff` — where the clock neither repeats nor skips the two midnights, the instants
  between the bounds are those of the local month.
-/

/-- `YearMonth` -/
structure YearMonth where
  year : ℤ
  month : ℤ
  deriving DecidableEq

/-- `YearMonth.__post_init__` -/
def YearMonth.make (year month : ℤ) : Except LedgerError YearMonth :=
  if year < 2000 ∨ 2100 < year then
    .error ⟨.validation, "INVALID_YEAR", "year must be between 2000 and 2100.", some "year"⟩
  else if month < 1 ∨ 12 < month then
    .error ⟨.validation, "INVALID_MONTH", "month must be between 1 and 12.", some "month"⟩
  else .ok ⟨year, month⟩

/-- `YearMonth.containing`, in a zone. -/
def YearMonth.containing (instant : ℤ) (zone : Zone) : Except LedgerError YearMonth :=
  let civil := Date.civil (zone.wall instant / DAY)
  YearMonth.make civil.year civil.month

/-- `YearMonth.next` -/
def YearMonth.next (m : YearMonth) : Except LedgerError YearMonth :=
  if m.month = 12 then YearMonth.make (m.year + 1) 1 else YearMonth.make m.year (m.month + 1)

/-- `YearMonth.previous` -/
def YearMonth.previous (m : YearMonth) : Except LedgerError YearMonth :=
  if m.month = 1 then YearMonth.make (m.year - 1) 12 else YearMonth.make m.year (m.month - 1)

/-- `MonthPeriod` -/
structure MonthPeriod where
  month : YearMonth
  startDate : Date
  endDate : Date
  startUtc : Instant
  endUtc : Instant
  deriving DecidableEq

/-- `month_period`, in a zone. -/
def monthPeriod (zone : Zone) (month : YearMonth) : Except LedgerError MonthPeriod := do
  let following ← month.next
  let startDate := (CivilDate.mk month.year month.month 1).toDate
  let endDate := (CivilDate.mk following.year following.month 1).toDate
  pure {
    month := month
    startDate := startDate
    endDate := endDate
    startUtc := zone.toUtc (midnight startDate)
    endUtc := zone.toUtc (midnight endDate) }

/-- So many months back from one, the earliest first. -/
def monthsBack (m : YearMonth) : Nat → Except LedgerError (List YearMonth)
  | 0 => .ok [m]
  | n + 1 => do
    let previous ← m.previous
    let months ← monthsBack previous n
    pure (months ++ [m])

/-- `previous_months` -/
def previousMonths (ending : YearMonth) (count : ℤ) : Except LedgerError (List YearMonth) :=
  if count < 1 ∨ 24 < count then
    .error ⟨.validation, "INVALID_MONTH_COUNT", "months must be between 1 and 24.", some "months"⟩
  else monthsBack ending (count.toNat - 1)

/-! ### What a period is -/

/-- The number of a month, counted from year zero. -/
def YearMonth.number (m : YearMonth) : ℤ := m.year * 12 + m.month - 1

theorem YearMonth.make_ok {year month : ℤ} {m : YearMonth} (h : YearMonth.make year month = .ok m) :
    m = ⟨year, month⟩ ∧ 1 ≤ month ∧ month ≤ 12 := by
  unfold YearMonth.make at h
  split_ifs at h with hyear hmonth
  obtain rfl := Except.ok.inj h
  exact ⟨rfl, by omega, by omega⟩

theorem YearMonth.next_ok {m next : YearMonth} (h : m.next = .ok next) :
    next.number = m.number + 1 ∧ 1 ≤ next.month ∧ next.month ≤ 12 := by
  unfold YearMonth.next at h
  unfold YearMonth.number
  split_ifs at h with hlast
  · obtain ⟨rfl, hpos, hle⟩ := YearMonth.make_ok h
    exact ⟨by dsimp only; omega, hpos, hle⟩
  · obtain ⟨rfl, hpos, hle⟩ := YearMonth.make_ok h
    exact ⟨by dsimp only; omega, hpos, hle⟩

theorem YearMonth.previous_ok {m previous : YearMonth} (h : m.previous = .ok previous) :
    previous.number = m.number - 1 ∧ 1 ≤ previous.month ∧ previous.month ≤ 12 := by
  unfold YearMonth.previous at h
  unfold YearMonth.number
  split_ifs at h with hfirst
  · obtain ⟨rfl, hpos, hle⟩ := YearMonth.make_ok h
    exact ⟨by dsimp only; omega, hpos, hle⟩
  · obtain ⟨rfl, hpos, hle⟩ := YearMonth.make_ok h
    exact ⟨by dsimp only; omega, hpos, hle⟩

theorem YearMonth.containing_ok {instant : ℤ} {zone : Zone} {m : YearMonth}
    (h : YearMonth.containing instant zone = .ok m) : 1 ≤ m.month ∧ m.month ≤ 12 := by
  obtain ⟨rfl, hpos, hle⟩ := YearMonth.make_ok h
  exact ⟨hpos, hle⟩

/-- The first of a month. -/
theorem toDate_first {m : YearMonth} (hm : 1 ≤ m.month ∧ m.month ≤ 12) :
    (CivilDate.mk m.year m.month 1).toDate = monthStart m.number := by
  have hyear : m.number / 12 = m.year := by
    unfold YearMonth.number
    omega
  have hmonth : m.number % 12 + 1 = m.month := by
    unfold YearMonth.number
    omega
  rw [monthStart, hyear, hmonth]

/-- A period by the number of its month. -/
structure PeriodOf (zone : Zone) (number : ℤ) (period : MonthPeriod) : Prop where
  startDate : period.startDate = monthStart number
  endDate : period.endDate = monthStart (number + 1)
  startUtc : period.startUtc = zone.toUtc (midnight (monthStart number))
  endUtc : period.endUtc = zone.toUtc (midnight (monthStart (number + 1)))

theorem monthPeriod_ok {zone : Zone} {m : YearMonth} {period : MonthPeriod}
    (hm : 1 ≤ m.month ∧ m.month ≤ 12) (h : monthPeriod zone m = .ok period) :
    PeriodOf zone m.number period := by
  unfold monthPeriod at h
  cases hnext : m.next with
  | error e =>
    rw [hnext] at h
    cases h
  | ok following =>
    rw [hnext] at h
    obtain rfl := Except.ok.inj h
    obtain ⟨hnumber, hmonth⟩ := YearMonth.next_ok hnext
    have hstart := toDate_first hm
    have hend := toDate_first hmonth
    rw [hnumber] at hend
    exact ⟨hstart, hend, congrArg (fun d => zone.toUtc (midnight d)) hstart,
      congrArg (fun d => zone.toUtc (midnight d)) hend⟩

/-- The months back from one end with it, and none is later. -/
theorem monthsBack_ok {n : Nat} : ∀ {m : YearMonth} {months : List YearMonth},
    1 ≤ m.month ∧ m.month ≤ 12 → monthsBack m n = .ok months →
    (∃ rest, months = rest ++ [m]) ∧
      ∀ p ∈ months, (1 ≤ p.month ∧ p.month ≤ 12) ∧ p.number ≤ m.number := by
  induction n with
  | zero =>
    intro m months hm h
    obtain rfl := Except.ok.inj h
    refine ⟨⟨[], rfl⟩, fun p hp => ?_⟩
    rw [List.mem_singleton.1 hp]
    exact ⟨hm, Int.le_refl _⟩
  | succ n ih =>
    intro m months hm h
    rw [monthsBack] at h
    cases hprevious : m.previous with
    | error e =>
      rw [hprevious] at h
      cases h
    | ok previous =>
      obtain ⟨hnumber, hvalid⟩ := YearMonth.previous_ok hprevious
      cases hback : monthsBack previous n with
      | error e =>
        rw [hprevious] at h
        dsimp only [bind, Except.bind] at h
        rw [hback] at h
        cases h
      | ok months' =>
        rw [hprevious] at h
        dsimp only [bind, Except.bind] at h
        rw [hback] at h
        obtain rfl := Except.ok.inj h
        obtain ⟨-, hall⟩ := ih hvalid hback
        refine ⟨⟨months', rfl⟩, fun p hp => ?_⟩
        rcases List.mem_append.1 hp with hp | hp
        · obtain ⟨hpm, hle⟩ := hall p hp
          exact ⟨hpm, by omega⟩
        · rw [List.mem_singleton.1 hp]
          exact ⟨hm, Int.le_refl _⟩

theorem previousMonths_ok {m : YearMonth} {count : ℤ} {months : List YearMonth}
    (hm : 1 ≤ m.month ∧ m.month ≤ 12) (h : previousMonths m count = .ok months) :
    (∃ rest, months = rest ++ [m]) ∧
      ∀ p ∈ months, (1 ≤ p.month ∧ p.month ≤ 12) ∧ p.number ≤ m.number := by
  unfold previousMonths at h
  split_ifs at h
  exact monthsBack_ok hm h

/-! ### Local months -/

/-- The clock neither repeats nor skips the first midnight of a month. -/
def Regular (zone : Zone) (number : ℤ) : Prop :=
  zone.Unrepeated (midnight (monthStart number)) ∧ zone.Passes (midnight (monthStart number))

/-- Where the clock neither repeats nor skips the two midnights, the instants between the bounds
    of a month are those whose local month it is. -/
theorem mem_period_iff {zone : Zone} {number : ℤ} {period : MonthPeriod}
    (hp : PeriodOf zone number period) (hstart : Regular zone number)
    (hend : Regular zone (number + 1)) (t : ℤ) :
    period.startUtc ≤ t ∧ t < period.endUtc ↔ localMonth (zone.wall t) = monthStart number := by
  rw [localMonth_eq_iff, hp.startUtc, hp.endUtc, Zone.toUtc_le hstart.1 hstart.2, ← Int.not_le,
    Zone.toUtc_le hend.1 hend.2, Int.not_le]

/-- An earlier month begins earlier. -/
theorem period_start_le {zone : Zone} {first number : ℤ} {period : MonthPeriod}
    (hp : PeriodOf zone first period) (hregular : Regular zone first) (hle : first ≤ number) {t : ℤ}
    (ht : localMonth (zone.wall t) = monthStart number) : period.startUtc ≤ t := by
  rw [hp.startUtc, Zone.toUtc_le hregular.1 hregular.2]
  have hmono : midnight (monthStart first) ≤ midnight (monthStart number) :=
    Int.mul_le_mul_of_nonneg_right (monthStart_mono hle) (by decide)
  exact Int.le_trans hmono ((localMonth_eq_iff _ _).1 ht).1

end Expensea.Ledger
