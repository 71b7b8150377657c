import Expensea.Ledger.Periods

namespace Expensea.Ledger

/-!
# Months partition time

Two paths of `app/ledger/periods.py` against each other: the bounds that `month_period` gives a
month, and the month that `YearMonth.containing` gives an instant.

* `containing_iff` — the month of an instant, by the local midnights around it;
* `month_partition_iff` — the two agree on every instant of a month exactly where the clock
  neither repeats nor skips the midnights that bound it.
-/

/-- The period of a month holds the instants that are looked up in it, and ends where the period
    of the next one starts. -/
structure Partitions (zone : ZoneInfo) (m : YearMonth) (period : MonthPeriod) : Prop where
  nonempty : period.startUtc < period.endUtc
  ends : ∃ next, m.next = .ok next ∧
    period.endUtc = zone.toUtc (midnight (CivilDate.mk next.year next.month 1).toDate)
  contiguous : ∀ next following, m.next = .ok next → monthPeriod zone.toZone next = .ok following →
    period.endUtc = following.startUtc
  exact : ∀ t, period.startUtc ≤ t ∧ t < period.endUtc ↔
    YearMonth.containing t zone.toZone = .ok m

/-! ### Months of instants -/

/-- A month that passes its check. -/
theorem YearMonth.make_eq_ok_iff (year month : ℤ) (m : YearMonth) :
    YearMonth.make year month = .ok m ↔
      m = ⟨year, month⟩ ∧ 2000 ≤ year ∧ year ≤ 2100 ∧ 1 ≤ month ∧ month ≤ 12 := by
  unfold YearMonth.make
  split_ifs with hyear hmonth
  · simp only [false_iff]
    omega
  · simp only [false_iff]
    omega
  · rw [Except.ok.injEq]
    constructor
    · intro h
      exact ⟨h.symm, by omega, by omega, by omega, by omega⟩
    · intro h
      exact h.1.symm

/-- The month of an instant, by the local midnights around it. -/
theorem containing_iff {zone : Zone} {m : YearMonth} (hm : YearMonth.make m.year m.month = .ok m)
    (t : ℤ) : YearMonth.containing t zone = .ok m ↔
      midnight (monthStart m.number) ≤ zone.wall t ∧
        zone.wall t < midnight (monthStart (m.number + 1)) := by
  rw [← localMonth_eq_iff]
  obtain ⟨hvalid, -⟩ := Date.civil_spec (zone.wall t / DAY)
  unfold YearMonth.containing localMonth
  generalize Date.civil (zone.wall t / DAY) = civil at hvalid ⊢
  constructor
  · intro h
    obtain ⟨rfl, -⟩ := YearMonth.make_ok h
    rfl
  · intro h
    have hnumber : civil.monthNumber = m.number := monthStart_injective h
    obtain ⟨-, hrange⟩ := (YearMonth.make_eq_ok_iff _ _ _).1 hm
    have hpos := hvalid.month_pos
    have hle := hvalid.month_le
    unfold CivilDate.monthNumber YearMonth.number at hnumber
    have hyear : civil.year = m.year := by omega
    have hmonth : civil.month = m.month := by omega
    dsimp only
    rw [hyear, hmonth]
    exact hm

/-- Every month but the last one has a period. -/
theorem monthPeriod_of_valid (zone : Zone) {m : YearMonth}
    (hm : YearMonth.make m.year m.month = .ok m) (hlast : ¬ (m.year = 2100 ∧ m.month = 12)) :
    ∃ next period, m.next = .ok next ∧ monthPeriod zone m = .ok period := by
  obtain ⟨-, hrange⟩ := (YearMonth.make_eq_ok_iff _ _ _).1 hm
  have hnext : ∃ next, m.next = .ok next := by
    unfold YearMonth.next
    by_cases hdecember : m.month = 12
    · rw [if_pos hdecember]
      exact ⟨_, (YearMonth.make_eq_ok_iff _ _ _).2 ⟨rfl, by omega⟩⟩
    · rw [if_neg hdecember]
      exact ⟨_, (YearMonth.make_eq_ok_iff _ _ _).2 ⟨rfl, by omega⟩⟩
  obtain ⟨next, hnext⟩ := hnext
  unfold monthPeriod
  rw [hnext]
  exact ⟨next, _, rfl, rfl⟩

/-! ### Bounds -/

/-- The two midnights that bound a month lie at least 28 days apart. -/
theorem midnight_add_le (number : ℤ) :
    midnight (monthStart number) + 28 * DAY ≤ midnight (monthStart (number + 1)) := by
  have hdays : (monthStart number + 28) * DAY ≤ monthStart (number + 1) * DAY :=
    Int.mul_le_mul_of_nonneg_right (monthStart_add_le number) (by decide)
  rw [Int.add_mul] at hdays
  exact hdays

/-- A bound is less than a day from its midnight. -/
theorem toUtc_bounds (zone : ZoneInfo) (wall : ℤ) :
    wall - DAY < zone.toUtc wall ∧ zone.toUtc wall < wall + DAY := by
  obtain ⟨hlo, hhi⟩ := abs_lt.1 (zone.abs_toUtc_sub_lt wall)
  omega

theorem wall_bounds (zone : ZoneInfo) (t : ℤ) : t - DAY < zone.wall t ∧ zone.wall t < t + DAY := by
  obtain ⟨hlo, hhi⟩ := abs_lt.1 (zone.abs_wall_sub_lt t)
  omega

/-- The instants of a month agree with its midnights where each midnight begins at its instant.
    The midnights are so far apart that one does not make up for the other. -/
theorem between_iff (zone : ZoneInfo) {first last : ℤ} (hfar : first + 28 * DAY ≤ last) :
    (∀ t, zone.toUtc first ≤ t ∧ t < zone.toUtc last ↔ first ≤ zone.wall t ∧ zone.wall t < last) ↔
      (∀ t, zone.toUtc first ≤ t ↔ first ≤ zone.wall t) ∧
        ∀ t, zone.toUtc last ≤ t ↔ last ≤ zone.wall t := by
  have hfirst := toUtc_bounds zone first
  have hlast := toUtc_bounds zone last
  have hday : (0 : ℤ) < DAY := by decide
  constructor
  · intro hall
    constructor
    · intro t
      have hwall := wall_bounds zone t
      have ht := hall t
      omega
    · intro t
      have hwall := wall_bounds zone t
      have ht := hall t
      omega
  · intro ⟨hbegin, hend⟩ t
    have hb := hbegin t
    have he := hend t
    omega

/-! ### The two paths -/

/-- **Local months partition time.**  The period of a month holds exactly the instants that are
    looked up in it, wherever the clock neither repeats nor skips the midnights that bound it,
    and nowhere else. -/
theorem month_partition_iff (zone : ZoneInfo) (m : YearMonth)
    (hm : YearMonth.make m.year m.month = .ok m) (hlast : ¬ (m.year = 2100 ∧ m.month = 12)) :
    (∃ period, monthPeriod zone.toZone m = .ok period ∧ Partitions zone m period) ↔
      Regular zone.toZone m.number ∧ Regular zone.toZone (m.number + 1) := by
  obtain ⟨-, hrange⟩ := (YearMonth.make_eq_ok_iff _ _ _).1 hm
  have hmonth : 1 ≤ m.month ∧ m.month ≤ 12 := hrange.2.2
  obtain ⟨next, period, hnext, hperiod⟩ := monthPeriod_of_valid zone.toZone hm hlast
  have hp := monthPeriod_ok hmonth hperiod
  obtain ⟨hnumber, hnextMonth⟩ := YearMonth.next_ok hnext
  have hexact : (∀ t, period.startUtc ≤ t ∧ t < period.endUtc ↔
      YearMonth.containing t zone.toZone = .ok m) ↔
      Regular zone.toZone m.number ∧ Regular zone.toZone (m.number + 1) := by
    simp only [containing_iff hm, hp.startUtc, hp.endUtc]
    rw [between_iff zone (midnight_add_le m.number), Zone.toUtc_le_iff, Zone.toUtc_le_iff]
    exact Iff.rfl
  rw [← hexact]
  constructor
  · intro ⟨period', hperiod', hpartitions⟩
    rw [hperiod] at hperiod'
    obtain rfl := Except.ok.inj hperiod'
    exact hpartitions.exact
  · intro hall
    have hstart := toUtc_bounds zone (midnight (monthStart m.number))
    have hend := toUtc_bounds zone (midnight (monthStart (m.number + 1)))
    have hfar := midnight_add_le m.number
    have hday : (0 : ℤ) < DAY := by decide
    have hfirst := toDate_first hnextMonth
    rw [hnumber] at hfirst
    have hends : period.endUtc =
        zone.toUtc (midnight (CivilDate.mk next.year next.month 1).toDate) := by
      rw [hp.endUtc, hfirst]
    have hnonempty : period.startUtc < period.endUtc := by
      have hlt : zone.toUtc (midnight (monthStart m.number)) <
          zone.toUtc (midnight (monthStart (m.number + 1))) := by
        omega
      rw [hp.startUtc, hp.endUtc]
      exact hlt
    refine ⟨period, hperiod, hnonempty, ⟨next, hnext, hends⟩, ?_, hall⟩
    intro next' following hnext' hfollowing
    rw [hnext] at hnext'
    obtain rfl := Except.ok.inj hnext'
    rw [(monthPeriod_ok hnextMonth hfollowing).startUtc, hnumber, hp.endUtc]

/-- UTC has no transitions. -/
def utcZone : ZoneInfo where
  initial := 0
  transitions := []
  ordered := List.Pairwise.nil
  initial_lt_day := by decide
  offset_lt_day := fun _ h => absurd h List.not_mem_nil

/-- `Europe/Berlin` in 2024: an hour ahead, and two from 31 March to 27 October. -/
def berlin : ZoneInfo where
  initial := 60 * MINUTE
  transitions := [⟨63847443600000000, 120 * MINUTE⟩, ⟨63865587600000000, 60 * MINUTE⟩]
  ordered := by decide
  initial_lt_day := by decide
  offset_lt_day := by decide

/-- In Berlin the last day of March 2024 is an hour short, and the midnights around the month are
    as they should be. -/
theorem month_partition_iff_berlin : ∃ period,
    monthPeriod berlin.toZone ⟨2024, 3⟩ = .ok period ∧ Partitions berlin ⟨2024, 3⟩ period := by
  have hoffset : ∀ t : ℤ, berlin.wall t = if 63847443600000000 ≤ t then
      (if 63865587600000000 ≤ t then t + 60 * MINUTE else t + 120 * MINUTE) else t + 60 * MINUTE := by
    intro t
    show t + (if _ then (if _ then _ else _) else _) = _
    split_ifs <;> rfl
  have hpos : (0 : ℤ) < 60 * MINUTE := by decide
  have hunrepeated : ∀ wall, wall ≤ 63865587600000000 → berlin.Unrepeated wall := by
    intro wall hwall t t' htt' hreached
    rw [hoffset] at hreached ⊢
    split_ifs at hreached ⊢ <;> omega
  refine (month_partition_iff berlin ⟨2024, 3⟩ rfl (by decide)).2 ⟨⟨?_, ?_⟩, ?_, ?_⟩
  · exact hunrepeated _ (by decide)
  · exact ⟨by decide, by decide, trivial⟩
  · exact hunrepeated _ (by decide)
  · exact ⟨by decide, by decide, trivial⟩

/-- `America/St_Johns` in 2009: two and a half hours back from 8 March on, and three and a half
    again from one minute past the midnight that starts 1 November. -/
def stJohns : ZoneInfo where
  initial := -210 * MINUTE
  transitions := [⟨63372079860000000, -150 * MINUTE⟩, ⟨63392639460000000, -210 * MINUTE⟩]
  ordered := by decide
  initial_lt_day := by decide
  offset_lt_day := by decide

/-- In St. John's the last hour of October 2009 is in the period of November a second time: three
    o'clock UTC is half past eleven on 31 October. -/
theorem month_partition_st_johns :
    ¬ ∀ (zone : ZoneInfo) (m : YearMonth), YearMonth.make m.year m.month = .ok m →
      ¬ (m.year = 2100 ∧ m.month = 12) →
      ∃ period, monthPeriod zone.toZone m = .ok period ∧ Partitions zone m period := by
  intro hall
  obtain ⟨period, hperiod, hpartitions⟩ := hall stJohns ⟨2009, 11⟩ rfl (by decide)
  have hinside : period.startUtc ≤ 63392641200000000 ∧ 63392641200000000 < period.endUtc := by
    obtain rfl := Except.ok.inj hperiod
    decide +kernel
  have hoctober : YearMonth.containing 63392641200000000 stJohns.toZone = .ok ⟨2009, 10⟩ := by
    decide +kernel
  rw [hpartitions.exact, hoctober] at hinside
  exact absurd hinside (by decide)

end Expensea.Ledger
