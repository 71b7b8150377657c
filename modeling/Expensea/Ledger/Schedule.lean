import Expensea.Domain.Calendar
import Expensea.Ledger.Service

namespace Expensea.Ledger

/-!
# Recurring schedules

Successive calls of `advance_expected_date`.  Each sees the date before it only, so a day that
was cut to the end of a short month, or meets it, is taken for a month end from then on.

* `occurrence` — the date after so many advances;
* `scheduled` — the start's day in the month so many periods later;
* `occurrence_day` — which day the advances come to;
* `schedule_kept_iff` — when the two agree.
-/

/-- `months[rule]` of `advance_expected_date`. -/
def ruleMonths : RecurrenceRule → Option ℤ
  | .weekly => none
  | .monthly => some 1
  | .quarterly => some 3
  | .yearly => some 12

/-- The date after `n` advances. -/
def occurrence (rule : RecurrenceRule) (start : Date) : Nat → Option Date
  | 0 => some start
  | n + 1 => (occurrence rule start n).bind fun current => advanceExpectedDate current rule

section Schedule

variable (start : Date) (period : ℤ)

/-- The number of the month `n` periods after the start. -/
def monthAfter (n : Nat) : ℤ := (Date.civil start).monthNumber + n * period

/-- The day of the start in the month `n` periods later, or the last one if it is not in that
    month or the start is the last of its own. -/
def scheduled (n : Nat) : Date :=
  let day := (Date.civil start).day
  let last := monthLength (monthAfter start period n)
  (dayOfMonth (monthAfter start period n)
    (if day = monthLength (Date.civil start).monthNumber then last else min day last)).toDate

/-- The start is a month end, or some occurrence before the `n`-th fell on one. -/
def Sticks (n : Nat) : Prop :=
  (Date.civil start).day = monthLength (Date.civil start).monthNumber ∨
    ∃ k, 1 ≤ k ∧ k < n ∧ monthLength (monthAfter start period k) ≤ (Date.civil start).day

variable {start period}

theorem monthAfter_zero : monthAfter start period 0 = (Date.civil start).monthNumber := by
  rw [monthAfter, Nat.cast_zero, zero_mul, add_zero]

theorem monthAfter_succ (n : Nat) :
    monthAfter start period (n + 1) = monthAfter start period n + period := by
  rw [monthAfter, monthAfter, Nat.cast_succ, add_mul, one_mul, add_assoc]

theorem not_sticks_zero {n : Nat} (h : ¬ Sticks start period n) :
    (Date.civil start).day ≠ monthLength (Date.civil start).monthNumber := fun hlast => h (.inl hlast)

theorem Sticks.succ {n : Nat} (h : Sticks start period n) : Sticks start period (n + 1) := by
  rcases h with h | ⟨k, hpos, hlt, hle⟩
  · exact .inl h
  · exact .inr ⟨k, hpos, by omega, hle⟩

/-- One advance, from a day of a month: month ends stay month ends, other days are cut. -/
theorem advance_dayOfMonth {rule : RecurrenceRule} {number day : ℤ} {current next : Date}
    (hrule : ruleMonths rule = some period) (hcurrent : Date.civil current = dayOfMonth number day)
    (hpos : 1 ≤ day) (h : advanceExpectedDate current rule = some next) :
    Date.civil next = dayOfMonth (number + period)
      (if day = monthLength number then monthLength (number + period)
        else min day (monthLength (number + period))) := by
  have hadd : advanceExpectedDate.addMonths current period = (dayOfMonth (number + period)
      (if day = monthLength number then monthLength (number + period)
        else min day (monthLength (number + period)))).toDate := by
    have hnumber : number / 12 * 12 + (number % 12 + 1) - 1 + period = number + period := by omega
    rw [advanceExpectedDate.addMonths, hcurrent]
    simp only [dayOfMonth, hnumber]
    rfl
  have hnext : next = advanceExpectedDate.addMonths current period := by
    unfold advanceExpectedDate at h
    cases rule with
    | weekly => cases hrule
    | monthly | quarterly | yearly =>
      obtain rfl := Option.some.inj hrule
      dsimp only at h
      split at h
      · exact (Option.some.inj h).symm
      · cases h
  have hlength : 1 ≤ monthLength (number + period) := daysInMonth_pos _ _
  rw [hnext, hadd]
  refine (valid_dayOfMonth ?_ ?_).civil_toDate
  · split_ifs
    · exact hlength
    · exact le_min hpos hlength
  · split_ifs
    · exact le_refl _
    · exact min_le_right _ _

/-- Where the advances come to: after a month end, to the month ends; until then, to the day of
    the start or, in a month too short for it, to the last one. -/
theorem occurrence_day {rule : RecurrenceRule} (hrule : ruleMonths rule = some period) {n : Nat} :
    ∀ {date : Date}, occurrence rule start n = some date →
      (Sticks start period n → Date.civil date =
        dayOfMonth (monthAfter start period n) (monthLength (monthAfter start period n))) ∧
      (¬ Sticks start period n → Date.civil date = dayOfMonth (monthAfter start period n)
        (min (Date.civil start).day (monthLength (monthAfter start period n)))) := by
  have hvalid := (Date.civil_spec start).1
  have hpos := hvalid.day_pos
  have hfirst := hvalid.day_le_monthLength
  induction n with
  | zero =>
    intro date h
    obtain rfl := Option.some.inj h
    rw [monthAfter_zero]
    constructor
    · intro hsticks
      rcases hsticks with hlast | ⟨k, hk, hlt, -⟩
      · rw [← hlast]
        exact hvalid.eq_dayOfMonth
      · omega
    · intro _
      rw [min_eq_left hfirst]
      exact hvalid.eq_dayOfMonth
  | succ n ih =>
    intro date h
    obtain ⟨current, hcurrent, hadvance⟩ := Option.bind_eq_some_iff.1 h
    obtain ⟨hstuck, hfree⟩ := ih hcurrent
    rw [monthAfter_succ]
    by_cases hn : Sticks start period n
    · -- the date before is a month end already
      have hstep := advance_dayOfMonth hrule (hstuck hn) (daysInMonth_pos _ _) hadvance
      rw [if_pos rfl] at hstep
      exact ⟨fun _ => hstep, fun hfree => absurd hn.succ hfree⟩
    · have hstep := advance_dayOfMonth hrule (hfree hn) (le_min hpos (daysInMonth_pos _ _)) hadvance
      by_cases hle : 1 ≤ n ∧ monthLength (monthAfter start period n) ≤ (Date.civil start).day
      · -- the date before is the end of a month that is too short, or just long enough
        rw [min_eq_right hle.2, if_pos rfl] at hstep
        exact ⟨fun _ => hstep, fun hfree =>
          absurd (.inr ⟨n, hle.1, Nat.lt_succ_self n, hle.2⟩) hfree⟩
      · have hlt : (Date.civil start).day < monthLength (monthAfter start period n) := by
          by_cases hzero : n = 0
          · have hne := not_sticks_zero hn
            rw [hzero, monthAfter_zero]
            omega
          · omega
        rw [min_eq_left hlt.le, if_neg hlt.ne] at hstep
        refine ⟨fun hsticks => absurd hsticks fun hsticks => ?_, fun _ => hstep⟩
        rcases hsticks with hlast | ⟨k, hk, hkn, hshort⟩
        · exact hn (.inl hlast)
        · by_cases heq : k = n
          · subst heq
            exact hle ⟨hk, hshort⟩
          · exact hn (.inr ⟨k, hk, by omega, hshort⟩)

end Schedule

/-- **When a schedule keeps its day.**  For a month-based rule, the date after `n` advances is the
    start's day in the month `n` periods later, or the last of a month too short for it, if and
    only if the start is a month end, or the month of every advance strictly between has a later
    day than the start's, or the last month has no later day. -/
theorem schedule_kept_iff {rule : RecurrenceRule} {start date : Date} {period : ℤ} {n : Nat}
    (hrule : ruleMonths rule = some period) (h : occurrence rule start n = some date) :
    date = scheduled start period n ↔
      (Date.civil start).day = monthLength (Date.civil start).monthNumber ∨
      (∀ k, 1 ≤ k → k < n → (Date.civil start).day < monthLength (monthAfter start period k)) ∨
      monthLength (monthAfter start period n) ≤ (Date.civil start).day := by
  obtain ⟨hstuck, hfree⟩ := occurrence_day hrule h
  have hpos := (Date.civil_spec start).1.day_pos
  have hlength : 1 ≤ monthLength (monthAfter start period n) := daysInMonth_pos _ _
  have hdate := (Date.civil_spec date).2
  rw [scheduled]
  by_cases hlast : (Date.civil start).day = monthLength (Date.civil start).monthNumber
  · rw [if_pos hlast]
    refine iff_of_true ?_ (.inl hlast)
    rw [← hdate, hstuck (.inl hlast)]
  rw [if_neg hlast]
  have hkept : Date.civil date = dayOfMonth (monthAfter start period n)
      (min (Date.civil start).day (monthLength (monthAfter start period n))) →
      date = (dayOfMonth (monthAfter start period n)
        (min (Date.civil start).day (monthLength (monthAfter start period n)))).toDate := by
    intro hcivil
    rw [← hcivil, hdate]
  by_cases hsticks : Sticks start period n
  · -- a month end, which is the scheduled day exactly if the month has no later one
    obtain hlast' | ⟨k, hk, hkn, hshort⟩ := hsticks
    · exact absurd hlast' hlast
    have hcivil := hstuck (.inr ⟨k, hk, hkn, hshort⟩)
    constructor
    · intro heq
      have hvalid : (dayOfMonth (monthAfter start period n) (min (Date.civil start).day
          (monthLength (monthAfter start period n)))).Valid :=
        valid_dayOfMonth (le_min hpos hlength) (min_le_right _ _)
      rw [heq, hvalid.civil_toDate] at hcivil
      have hday := congrArg CivilDate.day hcivil
      exact .inr (.inr (min_eq_right_iff.1 hday))
    · intro hcases
      rcases hcases with h | h | h
      · exact absurd h hlast
      · exact absurd hshort (not_le.2 (h k hk hkn))
      · apply hkept
        rw [hcivil, min_eq_right h]
  · refine iff_of_true (hkept (hfree hsticks)) (.inr (.inl fun k hk hkn => ?_))
    by_contra hshort
    exact hsticks (.inr ⟨k, hk, hkn, not_lt.1 hshort⟩)

/-- Quarterly from the thirtieth of November 2024, the last day of its month. -/
theorem schedule_kept_iff_quarterly :
    (CivilDate.mk 2025 5 31).toDate = scheduled (CivilDate.mk 2024 11 30).toDate 3 2 := by
  have hdates : occurrence .quarterly (CivilDate.mk 2024 11 30).toDate 2 =
      some (CivilDate.mk 2025 5 31).toDate := by decide
  exact (schedule_kept_iff rfl hdates).2 (.inl (by decide))

/-- Monthly from the thirtieth of January 2023: after February, the last day of March. -/
theorem schedule_drifts : ∃ date,
    occurrence .monthly (CivilDate.mk 2023 1 30).toDate 2 = some date ∧
      Date.civil date = ⟨2023, 3, 31⟩ ∧ date ≠ scheduled (CivilDate.mk 2023 1 30).toDate 1 2 ∧
      Date.civil (scheduled (CivilDate.mk 2023 1 30).toDate 1 2) = ⟨2023, 3, 30⟩ :=
  ⟨(CivilDate.mk 2023 3 31).toDate, by decide, by decide, by decide, by decide⟩

end Expensea.Ledger
