import Expensea.Domain.Text
import Mathlib.Data.Int.Basic

namespace Expensea

/-!
# Dates and times

Python `datetime` values by their wall clock and offset, in microseconds from
0001-01-01T00:00, and the instants in UTC that the database stores.
-/

/-- An instant in UTC, in microseconds from 0001-01-01T00:00:00Z. -/
abbrev Instant := ℤ

/-- `datetime.max` -/
def MAX_INSTANT : Instant := 315537897599999999

/-- A calendar date, as days from 0001-01-01. -/
abbrev Date := ℤ

/-! ### The calendar -/

/-- A date by its year, month and day. -/
structure CivilDate where
  year : ℤ
  month : ℤ
  day : ℤ
  deriving DecidableEq, Repr

/-- `calendar.isleap` -/
def isLeap (year : ℤ) : Bool := year % 4 == 0 && (year % 100 != 0 || year % 400 == 0)

/-- `calendar.monthrange(year, month)[1]` -/
def daysInMonth (year month : ℤ) : ℤ :=
  if month = 2 then (if isLeap year then 29 else 28)
  else if month = 4 ∨ month = 6 ∨ month = 9 ∨ month = 11 then 30
  else 31

/-- Days before the first of January of a year. -/
def daysBeforeYear (year : ℤ) : ℤ :=
  let y := year - 1
  y * 365 + y / 4 - y / 100 + y / 400

/-- Days of a year before the first of a month. -/
def daysBeforeMonth (year month : ℤ) : ℤ :=
  ((List.range (month.toNat - 1)).map fun m => daysInMonth year (m + 1)).foldr (· + ·) 0

/-- The day number of a date. -/
def CivilDate.toDate (d : CivilDate) : Date :=
  daysBeforeYear d.year + daysBeforeMonth d.year d.month + d.day - 1

/-- Walk through the months of a year. -/
def monthOfDay (year : ℤ) : List ℤ → ℤ → ℤ × ℤ
  | [], day => (12, day + 1)
  | m :: ms, day =>
    if day < daysInMonth year m then (m, day + 1) else monthOfDay year ms (day - daysInMonth year m)

/-- Year, month and day of a day number: whole cycles of 400, 100, 4 and 1 years first. -/
def Date.civil (d : Date) : CivilDate :=
  let n400 := d / 146097
  let n := d % 146097
  let n100 := min (n / 36524) 3
  let n := n - n100 * 36524
  let n4 := n / 1461
  let n := n % 1461
  let n1 := min (n / 365) 3
  let day := n - n1 * 365
  let year := n400 * 400 + n100 * 100 + n4 * 4 + n1 + 1
  let (month, day) := monthOfDay year [1, 2, 3, 4, 5, 6, 7, 8, 9, 10, 11] day
  ⟨year, month, day⟩

/-- `date.max` -/
def MAX_DATE : Date := 3652058

example : (CivilDate.mk 9999 12 31).toDate = MAX_DATE := by decide

example : Date.civil (CivilDate.mk 2024 2 29).toDate = ⟨2024, 2, 29⟩ := by decide

/-- A `datetime`: wall clock, and UTC offset when it is aware. -/
structure DateTime where
  wall : ℤ
  offset : Option ℤ
  deriving DecidableEq, Repr

/-- `datetime.min <= t <= datetime.max` -/
def representable (t : ℤ) : Bool := 0 ≤ t && t ≤ MAX_INSTANT

/-- `value.astimezone(UTC)` of an aware datetime; `none` is the `OverflowError` of a result
    outside the calendar. -/
def astimezoneUtc (wall offset : ℤ) : Option Instant :=
  if representable (wall - offset) then some (wall - offset) else none

/-- A UTC instant as an aware datetime. -/
def Instant.toDateTime (t : Instant) : DateTime := ⟨t, some 0⟩

/-- Microseconds in a minute. -/
def MINUTE : ℤ := 60 * 1000000

/-- Microseconds in a day. -/
def DAY : ℤ := 86400 * 1000000

/-- The time-zone database: `parse_timezone` and the local date of an instant. -/
structure TimeZones where
  known : PyStr → Bool
  localDate : PyStr → Instant → Date

end Expensea
