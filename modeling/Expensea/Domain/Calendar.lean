import Expensea.Domain.Time
import Mathlib.Tactic.IntervalCases
import Mathlib.Tactic.Ring

namespace Expensea

/-!
# The calendar

What the date arithmetic of `Domain.Time` computes.  Months are numbered from year zero, so
that month `12 * year + month - 1` is followed by the next number.

* `monthStart`, `monthStart_succ` — the first day of a month, and of the next one;
* `Date.civil_spec` — a day number is the day number of its year, month and day;
* `CivilDate.Valid.civil_toDate` — and the civil form of a valid date's number is that date;
* `dayOfMonth` — a day of a month by the month's number.
-/

/-- Month and day are in the calendar. -/
structure CivilDate.Valid (c : CivilDate) : Prop where
  month_pos : 1 ≤ c.month
  month_le : c.month ≤ 12
  day_pos : 1 ≤ c.day
  day_le : c.day ≤ daysInMonth c.year c.month

/-- The first day of a month by its number. -/
def monthStart (number : ℤ) : Date := (CivilDate.mk (number / 12) (number % 12 + 1) 1).toDate

/-- The number of a month. -/
def CivilDate.monthNumber (c : CivilDate) : ℤ := c.year * 12 + c.month - 1

/-! ### Months -/

theorem daysInMonth_pos (year month : ℤ) : 1 ≤ daysInMonth year month := by
  unfold daysInMonth
  split_ifs <;> omega

theorem twentyEight_le_daysInMonth (year month : ℤ) : 28 ≤ daysInMonth year month := by
  unfold daysInMonth
  split_ifs <;> omega

/-- A year has 365 days, and one more if it is a leap year. -/
theorem daysBeforeYear_succ (year : ℤ) :
    daysBeforeYear (year + 1) = daysBeforeYear year + if isLeap year then 366 else 365 := by
  have hleap : isLeap year = true ↔ year % 4 = 0 ∧ (year % 100 ≠ 0 ∨ year % 400 = 0) := by
    simp [isLeap]
  simp only [daysBeforeYear]
  by_cases h : isLeap year = true
  · rw [if_pos h]
    rw [hleap] at h
    omega
  · rw [if_neg h]
    rw [hleap] at h
    omega

/-- The days before a month and its own are the days before the next one. -/
theorem daysBeforeMonth_succ (year : ℤ) {month : ℤ} (hpos : 1 ≤ month) :
    daysBeforeMonth year (month + 1) = daysBeforeMonth year month + daysInMonth year month := by
  obtain ⟨n, rfl⟩ : ∃ n : ℕ, month = n + 1 := ⟨(month - 1).toNat, by omega⟩
  have hsucc : ((n : ℤ) + 1 + 1).toNat - 1 = n + 1 := by omega
  have hthis : ((n : ℤ) + 1).toNat - 1 = n := by omega
  have hsum : ∀ (l : List ℤ) (a : ℤ), (l ++ [a]).foldr (· + ·) 0 = l.foldr (· + ·) 0 + a := by
    intro l a
    induction l with
    | nil => simp
    | cons b l ih =>
      simp only [List.cons_append, List.foldr_cons, ih]
      ring
  simp only [daysBeforeMonth, hsucc, hthis, List.range_succ, bind_pure_comp, List.map_eq_map,
    List.map_append, List.map_singleton]
  exact hsum _ _

/-- December is the last month. -/
theorem daysBeforeMonth_december (year : ℤ) :
    daysBeforeMonth year 12 + daysInMonth year 12 = if isLeap year then 366 else 365 := by
  by_cases h : isLeap year = true
  · simp [daysBeforeMonth, daysInMonth, List.range_succ, h]
  · simp [daysBeforeMonth, daysInMonth, List.range_succ, h]

/-- The next month starts after the days of this one. -/
theorem monthStart_succ (number : ℤ) :
    monthStart (number + 1) = monthStart number + daysInMonth (number / 12) (number % 12 + 1) := by
  show daysBeforeYear ((number + 1) / 12) + daysBeforeMonth ((number + 1) / 12)
      ((number + 1) % 12 + 1) + 1 - 1 =
    daysBeforeYear (number / 12) + daysBeforeMonth (number / 12) (number % 12 + 1) + 1 - 1 +
      daysInMonth (number / 12) (number % 12 + 1)
  by_cases hlast : number % 12 = 11
  · -- the year ends
    have hyear : (number + 1) / 12 = number / 12 + 1 := by omega
    have hmonth : (number + 1) % 12 + 1 = 1 := by omega
    have hdecember : number % 12 + 1 = 12 := by omega
    have hlen := daysBeforeMonth_december (number / 12)
    have hfirst : daysBeforeMonth (number / 12 + 1) 1 = 0 := rfl
    rw [hyear, hmonth, hdecember, daysBeforeYear_succ, hfirst]
    omega
  · have hyear : (number + 1) / 12 = number / 12 := by omega
    have hmonth : (number + 1) % 12 + 1 = number % 12 + 1 + 1 := by omega
    have hpos : 1 ≤ number % 12 + 1 := by omega
    rw [hyear, hmonth, daysBeforeMonth_succ _ hpos]
    omega

theorem monthStart_lt_succ (number : ℤ) : monthStart number < monthStart (number + 1) := by
  have hpos := daysInMonth_pos (number / 12) (number % 12 + 1)
  rw [monthStart_succ]
  exact lt_add_of_pos_right _ hpos

theorem monthStart_mono {m n : ℤ} (h : m ≤ n) : monthStart m ≤ monthStart n := by
  induction n, h using Int.leInduction with
  | base => exact Int.le_refl _
  | succ n _ ih => exact Int.le_of_lt (Int.lt_of_le_of_lt ih (monthStart_lt_succ n))

theorem monthStart_lt {m n : ℤ} (h : m < n) : monthStart m < monthStart n :=
  Int.lt_of_lt_of_le (monthStart_lt_succ m) (monthStart_mono (show m + 1 ≤ n by omega))

/-- Months that start on the same day are the same. -/
theorem monthStart_injective {m n : ℤ} (h : monthStart m = monthStart n) : m = n := by
  rcases Int.lt_trichotomy m n with hlt | heq | hlt
  · exact absurd h (Int.ne_of_lt (monthStart_lt hlt))
  · exact heq
  · exact absurd h.symm (Int.ne_of_lt (monthStart_lt hlt))

/-- A month has at least 28 days. -/
theorem monthStart_add_le (number : ℤ) : monthStart number + 28 ≤ monthStart (number + 1) := by
  rw [monthStart_succ]
  exact Int.add_le_add_left (twentyEight_le_daysInMonth _ _) _

namespace CivilDate.Valid

variable {c : CivilDate}

theorem monthNumber_div (h : c.Valid) : c.monthNumber / 12 = c.year := by
  have hpos := h.month_pos
  have hle := h.month_le
  unfold CivilDate.monthNumber
  omega

theorem monthNumber_mod (h : c.Valid) : c.monthNumber % 12 + 1 = c.month := by
  have hpos := h.month_pos
  have hle := h.month_le
  unfold CivilDate.monthNumber
  omega

/-- A valid date in terms of its month. -/
theorem toDate_eq (h : c.Valid) : c.toDate = monthStart c.monthNumber + (c.day - 1) := by
  unfold monthStart
  rw [h.monthNumber_div, h.monthNumber_mod]
  show daysBeforeYear c.year + daysBeforeMonth c.year c.month + c.day - 1 =
    daysBeforeYear c.year + daysBeforeMonth c.year c.month + 1 - 1 + (c.day - 1)
  omega

theorem monthStart_le (h : c.Valid) : monthStart c.monthNumber ≤ c.toDate := by
  have hday := h.day_pos
  rw [h.toDate_eq]
  exact le_add_of_nonneg_right (sub_nonneg.2 hday)

/-- The days of a month come before the next one. -/
theorem lt_monthStart (h : c.Valid) : c.toDate < monthStart (c.monthNumber + 1) := by
  have hday := h.day_le
  rw [h.toDate_eq, monthStart_succ, h.monthNumber_div, h.monthNumber_mod]
  have hlt : c.day - 1 < daysInMonth c.year c.month := by omega
  exact Int.add_lt_add_left hlt _

end CivilDate.Valid

/-! ### Days -/

/-- The month of a day, from the days of some month on: by the months that are left. -/
theorem monthOfDay_from (year : ℤ) : ∀ (n : ℕ) (month day : ℤ), month + n = 12 → 1 ≤ month →
    0 ≤ day → daysBeforeMonth year month + day < (if isLeap year then 366 else 365) →
    let found := monthOfDay year ((List.range n).map fun i : ℕ => month + (i : ℤ)) day
    1 ≤ found.1 ∧ found.1 ≤ 12 ∧ 1 ≤ found.2 ∧ found.2 ≤ daysInMonth year found.1 ∧
      daysBeforeMonth year found.1 + found.2 - 1 = daysBeforeMonth year month + day := by
  intro n
  induction n with
  | zero =>
    intro month day hn hpos hday hlt
    have hmonth : month = 12 := by omega
    have hlen := daysBeforeMonth_december year
    subst hmonth
    show (1 : ℤ) ≤ 12 ∧ (12 : ℤ) ≤ 12 ∧ 1 ≤ day + 1 ∧ day + 1 ≤ daysInMonth year 12 ∧
      daysBeforeMonth year 12 + (day + 1) - 1 = daysBeforeMonth year 12 + day
    omega
  | succ n ih =>
    intro month day hn hpos hday hlt
    have hlist : (List.range (n + 1)).map (fun i : ℕ => month + (i : ℤ)) =
        month :: (List.range n).map fun i : ℕ => month + 1 + (i : ℤ) := by
      rw [List.range_succ_eq_map, List.map_cons, List.map_map]
      congr 1
      · simp
      · refine List.map_congr_left fun i _ => ?_
        simp only [Function.comp_apply, Nat.succ_eq_add_one]
        push_cast
        omega
    rw [hlist]
    by_cases hin : day < daysInMonth year month
    · show let found := if day < daysInMonth year month then (month, day + 1) else _
        1 ≤ found.1 ∧ found.1 ≤ 12 ∧ 1 ≤ found.2 ∧ found.2 ≤ daysInMonth year found.1 ∧
          daysBeforeMonth year found.1 + found.2 - 1 = daysBeforeMonth year month + day
      rw [if_pos hin]
      dsimp only
      omega
    · show let found := if day < daysInMonth year month then (month, day + 1) else
          monthOfDay year ((List.range n).map fun i : ℕ => month + 1 + (i : ℤ))
            (day - daysInMonth year month)
        1 ≤ found.1 ∧ found.1 ≤ 12 ∧ 1 ≤ found.2 ∧ found.2 ≤ daysInMonth year found.1 ∧
          daysBeforeMonth year found.1 + found.2 - 1 = daysBeforeMonth year month + day
      rw [if_neg hin]
      have hsucc := daysBeforeMonth_succ year hpos
      have hrest := ih (month + 1) (day - daysInMonth year month) (by omega) (by omega) (by omega)
        (by omega)
      dsimp only at hrest ⊢
      omega

/-- The month of a day of a year. -/
theorem monthOfDay_spec (year day : ℤ) (hpos : 0 ≤ day)
    (hlt : day < if isLeap year then 366 else 365) :
    let found := monthOfDay year [1, 2, 3, 4, 5, 6, 7, 8, 9, 10, 11] day
    1 ≤ found.1 ∧ found.1 ≤ 12 ∧ 1 ≤ found.2 ∧ found.2 ≤ daysInMonth year found.1 ∧
      daysBeforeMonth year found.1 + found.2 - 1 = day := by
  have hfirst : daysBeforeMonth year 1 = 0 := rfl
  have hspec := monthOfDay_from year 11 1 day (by decide) (by decide) hpos (by omega)
  rw [hfirst, zero_add] at hspec
  exact hspec

/-- The days before a year, by its cycles of 400, 100, 4 and 1 years. -/
theorem daysBeforeYear_cycles (n400 n100 n4 n1 : ℤ) (h₁ : 0 ≤ n100) (h₂ : n100 ≤ 3) (h₃ : 0 ≤ n4)
    (h₄ : n4 ≤ 24) (h₅ : 0 ≤ n1) (h₆ : n1 ≤ 3) :
    daysBeforeYear (n400 * 400 + n100 * 100 + n4 * 4 + n1 + 1) =
      n400 * 146097 + n100 * 36524 + n4 * 1461 + n1 * 365 := by
  simp only [daysBeforeYear]
  omega

/-- The last day of a cycle belongs to a leap year. -/
theorem isLeap_cycles {n400 n100 n4 : ℤ} (hpos : 0 ≤ n4) (hle : n4 ≤ 24)
    (hlast : n4 ≠ 24 ∨ n100 = 3) :
    isLeap (n400 * 400 + n100 * 100 + n4 * 4 + 3 + 1) = true := by
  have hleap : ∀ year : ℤ, year % 4 = 0 ∧ (year % 100 ≠ 0 ∨ year % 400 = 0) →
      isLeap year = true := fun year h => by simpa [isLeap] using h
  apply hleap
  omega

/-- **Dates by year, month and day.**  The civil form of a day number is valid, and its day
    number is that day. -/
theorem Date.civil_spec (d : Date) : (Date.civil d).Valid ∧ (Date.civil d).toDate = d := by
  unfold Date.civil
  dsimp only
  obtain ⟨n400, h400⟩ : ∃ n : ℤ, n = d / 146097 := ⟨_, rfl⟩
  obtain ⟨r, hr⟩ : ∃ n : ℤ, n = d % 146097 := ⟨_, rfl⟩
  have hsum : n400 * 146097 + r = d := by
    rw [h400, hr, mul_comm]
    exact Int.mul_ediv_add_emod d 146097
  have hr₀ : 0 ≤ r := hr ▸ Int.emod_nonneg d (by decide)
  have hr₁ : r < 146097 := hr ▸ Int.emod_lt_of_pos d (by decide)
  rw [← h400, ← hr]
  obtain ⟨n100, h100⟩ : ∃ n : ℤ, n = min (r / 36524) 3 := ⟨_, rfl⟩
  rw [← h100]
  obtain ⟨r', hr'⟩ : ∃ n : ℤ, n = r - n100 * 36524 := ⟨_, rfl⟩
  rw [← hr']
  obtain ⟨n4, h4⟩ : ∃ n : ℤ, n = r' / 1461 := ⟨_, rfl⟩
  obtain ⟨r'', hr''⟩ : ∃ n : ℤ, n = r' % 1461 := ⟨_, rfl⟩
  rw [← h4, ← hr'']
  obtain ⟨n1, h1⟩ : ∃ n : ℤ, n = min (r'' / 365) 3 := ⟨_, rfl⟩
  rw [← h1]
  have hday : r'' - n1 * 365 <
      if isLeap (n400 * 400 + n100 * 100 + n4 * 4 + n1 + 1) then 366 else 365 := by
    by_cases hlong : r'' - n1 * 365 = 365
    · -- only the fourth year of a cycle has so many days
      have hn1 : n1 = 3 := by omega
      rw [hn1, isLeap_cycles (by omega) (by omega) (by omega), if_pos rfl]
      omega
    · split <;> omega
  obtain ⟨hpos, hle, hdpos, hdle, hdays⟩ := monthOfDay_spec _ _ (by omega) hday
  refine ⟨⟨hpos, hle, hdpos, hdle⟩, ?_⟩
  have hbefore := daysBeforeYear_cycles n400 n100 n4 n1
    (by omega) (by omega) (by omega) (by omega) (by omega) (by omega)
  unfold CivilDate.toDate
  dsimp only
  rw [hbefore]
  have hcycles : n400 * 146097 + n100 * 36524 + n4 * 1461 + n1 * 365 + (r'' - n1 * 365) =
      n400 * 146097 + r := by omega
  have hassoc : ∀ a b c : ℤ, a + b + c - 1 = a + (b + c - 1) := fun a b c => by ring
  rw [hassoc, hdays, hcycles, hsum]

/-- Valid dates of one day number are the same. -/
theorem CivilDate.Valid.unique {a b : CivilDate} (ha : a.Valid) (hb : b.Valid)
    (h : a.toDate = b.toDate) : a = b := by
  -- the earlier month would end before the later one starts
  have hbefore : ∀ {a b : CivilDate}, a.Valid → b.Valid → a.toDate = b.toDate →
      ¬ a.monthNumber < b.monthNumber := by
    intro a b ha hb h hlt
    have hnext : monthStart (a.monthNumber + 1) ≤ monthStart b.monthNumber := monthStart_mono hlt
    have hend := lt_of_lt_of_le ha.lt_monthStart (hnext.trans hb.monthStart_le)
    rw [h] at hend
    exact lt_irrefl _ hend
  have hnumber : a.monthNumber = b.monthNumber :=
    le_antisymm (not_lt.1 (hbefore hb ha h.symm)) (not_lt.1 (hbefore ha hb h))
  have hyear : a.year = b.year := by rw [← ha.monthNumber_div, hnumber, hb.monthNumber_div]
  have hmonth : a.month = b.month := by rw [← ha.monthNumber_mod, hnumber, hb.monthNumber_mod]
  have hday : a.day = b.day := by
    rw [ha.toDate_eq, hb.toDate_eq, hnumber] at h
    have hcancel := Int.add_left_cancel h
    omega
  obtain ⟨year, month, day⟩ := a
  dsimp only at hyear hmonth hday
  rw [hyear, hmonth, hday]

/-- The civil form of the day number of a valid date is that date. -/
theorem CivilDate.Valid.civil_toDate {c : CivilDate} (h : c.Valid) : Date.civil c.toDate = c :=
  (Date.civil_spec c.toDate).1.unique h (Date.civil_spec c.toDate).2

/-! ### Days of numbered months -/

/-- The days of a month. -/
def monthLength (number : ℤ) : ℤ := daysInMonth (number / 12) (number % 12 + 1)

/-- A day of a month. -/
def dayOfMonth (number day : ℤ) : CivilDate := ⟨number / 12, number % 12 + 1, day⟩

theorem valid_dayOfMonth {number day : ℤ} (hpos : 1 ≤ day) (hle : day ≤ monthLength number) :
    (dayOfMonth number day).Valid := by
  refine ⟨?_, ?_, hpos, hle⟩
  · show 1 ≤ number % 12 + 1
    omega
  · show number % 12 + 1 ≤ 12
    omega

/-- A date is a day of its month. -/
theorem CivilDate.Valid.eq_dayOfMonth {c : CivilDate} (h : c.Valid) :
    c = dayOfMonth c.monthNumber c.day := by
  rw [dayOfMonth, h.monthNumber_div, h.monthNumber_mod]

theorem CivilDate.Valid.day_le_monthLength {c : CivilDate} (h : c.Valid) :
    c.day ≤ monthLength c.monthNumber := by
  rw [monthLength, h.monthNumber_div, h.monthNumber_mod]
  exact h.day_le

end Expensea
