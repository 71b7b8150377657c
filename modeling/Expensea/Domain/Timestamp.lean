import Expensea.Domain.Time
import Expensea.Lib.Binary64

namespace Expensea

open DecimalArith

/-!
# Timestamps

`datetime.fromtimestamp(seconds, tz=UTC)` of a Python `float`.  Whether the C library's `gmtime`
converts a number of seconds is a parameter.

* `fromTimestamp` — the datetime, or what is raised;
* `fromTimestampUsec` — of microseconds divided by a million.
-/

/-- What `datetime.fromtimestamp` raises. -/
inductive TimestampError where
  /-- `OverflowError`: the seconds, or the quotient, are too large. -/
  | overflow
  /-- `OSError`: `gmtime` fails. -/
  | os
  /-- `ValueError`: a year outside the calendar. -/
  | value
  deriving DecidableEq, Repr

/-- Seconds from 0001-01-01 to 1970-01-01. -/
def EPOCH_SECONDS : ℤ := 719162 * 86400

/-- The integer part of a number, towards zero. -/
def truncate (q : ℚ) : ℤ := if 0 ≤ q then ⌊q⌋ else ⌈q⌉

/-- The seconds of a timestamp and its microseconds, rounded half to even. -/
def splitTimestamp (t : ℚ) : ℤ × ℤ :=
  let seconds := truncate t
  let micros := roundHalfEven (Binary64.nearest ((t - seconds) * 10 ^ 6))
  if 1000000 ≤ micros then (seconds + 1, micros - 1000000)
  else if micros < 0 then (seconds - 1, micros + 1000000)
  else (seconds, micros)

/-- `datetime.fromtimestamp(t, tz=UTC)` -/
def fromTimestamp (gmtime : ℤ → Bool) (t : ℚ) : Except TimestampError DateTime :=
  let (seconds, micros) := splitTimestamp t
  if seconds < -2 ^ 63 ∨ 2 ^ 63 ≤ seconds then .error .overflow
  else if !gmtime seconds then .error .os
  else
    let wall := (EPOCH_SECONDS + seconds) * 1000000 + micros
    if representable wall then .ok ⟨wall, some 0⟩ else .error .value

/-- `datetime.fromtimestamp(usec / 1_000_000, tz=UTC)` of an integer. -/
def fromTimestampUsec (gmtime : ℤ → Bool) (usec : ℤ) : Except TimestampError DateTime :=
  if Binary64.overflows (usec / 1000000) then .error .overflow
  else fromTimestamp gmtime (Binary64.nearest (usec / 1000000))

/-- The 64-bit GNU C library: the year fits an `int`. -/
def glibcGmtime (seconds : ℤ) : Bool :=
  -67768040609740800 ≤ seconds && seconds ≤ 67768036191676799

example : fromTimestampUsec glibcGmtime 1500000 =
    .ok ⟨(EPOCH_SECONDS + 1) * 1000000 + 500000, some 0⟩ := by decide +kernel

/-- A datetime in UTC is inside the calendar. -/
theorem fromTimestampUsec_ok {gmtime : ℤ → Bool} {usec : ℤ} {t : DateTime}
    (h : fromTimestampUsec gmtime usec = .ok t) : ∃ wall, t = ⟨wall, some 0⟩ ∧ representable wall = true := by
  rw [fromTimestampUsec] at h
  split at h
  · cases h
  rw [fromTimestamp] at h
  dsimp only at h
  split at h
  · cases h
  split at h
  · cases h
  split at h
  · rename_i hinside
    cases h
    exact ⟨_, rfl, hinside⟩
  · cases h

end Expensea
