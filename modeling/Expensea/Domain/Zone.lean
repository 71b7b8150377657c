import Expensea.Domain.Calendar

namespace Expensea

/-!
# Time zones

What a `ZoneInfo` is: an offset from UTC that changes at certain instants.  PostgreSQL's
`timezone(name, instant)` reads the same clock.

* `Zone.wall` — the local clock at an instant;
* `Zone.toUtc` — the instant of a local time, the earlier one where there are two and by the
  offset before the change where there is none (`fold=0`);
* `Zone.toUtc_le` — a local time that the clock neither repeats nor skips begins at its instant;
* `Zone.toUtc_le_iff` — and no other local time does.
-/

/-- A transition of a zone: from this instant on, its offset in microseconds. -/
structure Transition where
  utc : ℤ
  offset : ℤ
  deriving DecidableEq

/-- A time zone: its first offset, and its transitions in order. -/
structure Zone where
  initial : ℤ
  transitions : List Transition
  ordered : transitions.Pairwise fun a b => a.utc < b.utc

/-- The offset at an instant. -/
def offsetAt (t : ℤ) (before : ℤ) : List Transition → ℤ
  | [] => before
  | a :: rest => if a.utc ≤ t then offsetAt t a.offset rest else before

/-- The offset of a local time with `fold=0`: a transition counts from the end of the hour that
    it repeats or skips. -/
def localOffset (wall : ℤ) (before : ℤ) : List Transition → ℤ
  | [] => before
  | a :: rest =>
    if a.utc + max before a.offset ≤ wall then localOffset wall a.offset rest else before

/-- The transitions do not skip a local time: none jumps from before it to after it. -/
def Unskipped (wall : ℤ) (before : ℤ) : List Transition → Prop
  | [] => True
  | a :: rest => ¬ (a.utc + before < wall ∧ wall < a.utc + a.offset) ∧ Unskipped wall a.offset rest

/-- `ZoneInfo`: the offsets of a zone lie strictly between one day back and one day ahead. -/
structure ZoneInfo extends Zone where
  initial_lt_day : |initial| < DAY
  offset_lt_day : ∀ a ∈ transitions, |a.offset| < DAY

namespace Zone

/-- The local clock at an instant: `instant.astimezone(zone)`. -/
def wall (z : Zone) (t : ℤ) : ℤ := t + offsetAt t z.initial z.transitions

/-- `datetime.combine(date, time, zone).astimezone(UTC)` -/
def toUtc (z : Zone) (wall : ℤ) : ℤ := wall - localOffset wall z.initial z.transitions

/-- The clock never goes back across a local time. -/
def Unrepeated (z : Zone) (wall : ℤ) : Prop := ∀ t t', t ≤ t' → wall ≤ z.wall t → wall ≤ z.wall t'

/-- The clock does not jump over a local time. -/
def Passes (z : Zone) (wall : ℤ) : Prop := Unskipped wall z.initial z.transitions

end Zone

/-- Before the first transition the first offset holds. -/
theorem offsetAt_of_lt {t : ℤ} {before : ℤ} {transitions : List Transition}
    (h : ∀ a ∈ transitions, t < a.utc) : offsetAt t before transitions = before := by
  cases transitions with
  | nil => rfl
  | cons a rest =>
    rw [offsetAt, if_neg]
    exact Int.not_le.2 (h a List.mem_cons_self)

/-- Over a list of transitions, a local time that is neither repeated nor skipped begins at its
    instant. -/
theorem localOffset_le {wall : ℤ} {transitions : List Transition}
    (ho : transitions.Pairwise fun a b => a.utc < b.utc) : ∀ {before : ℤ},
    (∀ t t', t ≤ t' → wall ≤ t + offsetAt t before transitions →
      wall ≤ t' + offsetAt t' before transitions) → Unskipped wall before transitions →
    ∀ t, wall - localOffset wall before transitions ≤ t ↔
      wall ≤ t + offsetAt t before transitions := by
  induction transitions with
  | nil =>
    intro before _ _ t
    rw [localOffset, offsetAt]
    omega
  | cons a rest ih =>
    obtain ⟨hfirst, hrest⟩ := List.pairwise_cons.1 ho
    intro before hback hskip t
    obtain ⟨hjump, hskip⟩ := hskip
    have hbefore : ∀ t, t < a.utc → offsetAt t before (a :: rest) = before := fun t ht => by
      rw [offsetAt, if_neg (Int.not_le.2 ht)]
    have hafter : ∀ t, a.utc ≤ t → offsetAt t before (a :: rest) = offsetAt t a.offset rest :=
      fun t ht => by rw [offsetAt, if_pos ht]
    have hat : ∀ t, t ≤ a.utc → offsetAt t a.offset rest = a.offset := fun t ht =>
      offsetAt_of_lt fun b hb => Int.lt_of_le_of_lt ht (hfirst b hb)
    rw [localOffset]
    by_cases hpassed : a.utc + max before a.offset ≤ wall
    · -- the local time lies after the transition
      rw [if_pos hpassed]
      have hmono : ∀ t t', t ≤ t' → wall ≤ t + offsetAt t a.offset rest →
          wall ≤ t' + offsetAt t' a.offset rest := by
        intro t t' htt' hwall
        by_cases ht : a.utc ≤ t
        · have h := hback t t' htt'
          rw [hafter t ht, hafter t' (Int.le_trans ht htt')] at h
          exact h hwall
        · rw [hat t (by omega)] at hwall
          omega
      rw [ih hrest hmono hskip t]
      by_cases ht : a.utc ≤ t
      · rw [hafter t ht]
      · rw [hbefore t (by omega), hat t (by omega)]
        omega
    · rw [if_neg hpassed]
      by_cases hinside : wall < a.utc + before
      · -- the local time is reached before the transition
        by_cases ht : a.utc ≤ t
        · have hreached := hback (wall - before) t (by omega)
          rw [hbefore (wall - before) (by omega)] at hreached
          have hle : wall ≤ t + offsetAt t before (a :: rest) := hreached (by omega)
          omega
        · rw [hbefore t (by omega)]
          omega
      · -- the clock jumps from the local time on
        have hexact : wall = a.utc + before := by
          omega
        by_cases ht : a.utc ≤ t
        · have hreached := hback a.utc t ht
          rw [hafter a.utc (Int.le_refl _), hat a.utc (Int.le_refl _)] at hreached
          have hle : wall ≤ t + offsetAt t before (a :: rest) := hreached (by omega)
          omega
        · rw [hbefore t (by omega)]
          omega

/-- A local time that the clock neither repeats nor skips begins at its instant. -/
theorem Zone.toUtc_le {z : Zone} {wall : ℤ} (hback : z.Unrepeated wall) (hpass : z.Passes wall)
    (t : ℤ) : z.toUtc wall ≤ t ↔ wall ≤ z.wall t :=
  localOffset_le z.ordered hback hpass t

/-- Where a local time has been reached for good, no later transition jumps over it. -/
theorem unskipped_of_reached {wall : ℤ} {transitions : List Transition}
    (ho : transitions.Pairwise fun a b => a.utc < b.utc) : ∀ {before reached : ℤ},
    (∀ a ∈ transitions, reached < a.utc) →
    (∀ t, reached ≤ t → wall ≤ t + offsetAt t before transitions) →
    Unskipped wall before transitions := by
  induction transitions with
  | nil =>
    intro before reached _ _
    trivial
  | cons a rest ih =>
    obtain ⟨hfirst, hrest⟩ := List.pairwise_cons.1 ho
    intro before reached hlater hall
    have ha := hlater a List.mem_cons_self
    have hlast := hall (a.utc - 1) (by omega)
    rw [offsetAt, if_neg (by omega)] at hlast
    refine ⟨by omega, ih hrest hfirst fun t ht => ?_⟩
    have hwall := hall t (by omega)
    rw [offsetAt, if_pos ht] at hwall
    exact hwall

/-- Over a list of transitions, a local time that begins at its instant is not skipped. -/
theorem unskipped_of_localOffset_le {wall : ℤ} {transitions : List Transition}
    (ho : transitions.Pairwise fun a b => a.utc < b.utc) : ∀ {before : ℤ},
    (∀ t, wall - localOffset wall before transitions ≤ t ↔
      wall ≤ t + offsetAt t before transitions) → Unskipped wall before transitions := by
  induction transitions with
  | nil =>
    intro before _
    trivial
  | cons a rest ih =>
    obtain ⟨hfirst, hrest⟩ := List.pairwise_cons.1 ho
    intro before hbegin
    have hbefore : ∀ t, t < a.utc → offsetAt t before (a :: rest) = before := fun t ht => by
      rw [offsetAt, if_neg (Int.not_le.2 ht)]
    have hafter : ∀ t, a.utc ≤ t → offsetAt t before (a :: rest) = offsetAt t a.offset rest :=
      fun t ht => by rw [offsetAt, if_pos ht]
    have hat : ∀ t, t ≤ a.utc → offsetAt t a.offset rest = a.offset := fun t ht =>
      offsetAt_of_lt fun b hb => Int.lt_of_le_of_lt ht (hfirst b hb)
    rw [localOffset] at hbegin
    by_cases hpassed : a.utc + max before a.offset ≤ wall
    · -- the local time lies after the transition
      rw [if_pos hpassed] at hbegin
      refine ⟨by omega, ih hrest fun t => ?_⟩
      by_cases ht : a.utc ≤ t
      · rw [hbegin t, hafter t ht]
      · have hnot := hbegin t
        rw [hbefore t (by omega)] at hnot
        rw [hnot, hat t (by omega)]
        omega
    · -- it is read by the offset before the transition
      rw [if_neg hpassed] at hbegin
      have hjump : ¬ (a.utc + before < wall ∧ wall < a.utc + a.offset) := by
        have hstart := hbegin a.utc
        rw [hafter a.utc (Int.le_refl _), hat a.utc (Int.le_refl _)] at hstart
        omega
      refine ⟨hjump, unskipped_of_reached hrest hfirst fun t ht => ?_⟩
      have hreached := (hbegin t).1 (by omega)
      rw [hafter t ht] at hreached
      exact hreached

/-- **Local times that begin at their instant.**  They are those that the clock neither repeats
    nor skips. -/
theorem Zone.toUtc_le_iff {z : Zone} {wall : ℤ} :
    (∀ t, z.toUtc wall ≤ t ↔ wall ≤ z.wall t) ↔ z.Unrepeated wall ∧ z.Passes wall := by
  constructor
  · intro hbegin
    have hunrepeated : z.Unrepeated wall := by
      intro t t' htt' hwall
      rw [← hbegin] at hwall ⊢
      exact Int.le_trans hwall htt'
    exact ⟨hunrepeated, unskipped_of_localOffset_le z.ordered hbegin⟩
  · intro ⟨hback, hpass⟩
    exact Zone.toUtc_le hback hpass

/-! ### Bounds -/

/-- An offset is the first one or that of a transition. -/
theorem offsetAt_lt {t : ℤ} {transitions : List Transition} : ∀ {before : ℤ}, |before| < DAY →
    (∀ a ∈ transitions, |a.offset| < DAY) → |offsetAt t before transitions| < DAY := by
  induction transitions with
  | nil =>
    intro before hbefore _
    exact hbefore
  | cons a rest ih =>
    intro before hbefore hall
    rw [offsetAt]
    by_cases ht : a.utc ≤ t
    · rw [if_pos ht]
      exact ih (hall a List.mem_cons_self) fun b hb => hall b (List.mem_cons_of_mem a hb)
    · rw [if_neg ht]
      exact hbefore

theorem localOffset_lt {wall : ℤ} {transitions : List Transition} : ∀ {before : ℤ},
    |before| < DAY → (∀ a ∈ transitions, |a.offset| < DAY) →
    |localOffset wall before transitions| < DAY := by
  induction transitions with
  | nil =>
    intro before hbefore _
    exact hbefore
  | cons a rest ih =>
    intro before hbefore hall
    rw [localOffset]
    by_cases hpassed : a.utc + max before a.offset ≤ wall
    · rw [if_pos hpassed]
      exact ih (hall a List.mem_cons_self) fun b hb => hall b (List.mem_cons_of_mem a hb)
    · rw [if_neg hpassed]
      exact hbefore

/-- The clock is less than a day off. -/
theorem ZoneInfo.abs_wall_sub_lt (z : ZoneInfo) (t : ℤ) : |z.wall t - t| < DAY := by
  have hsub : z.wall t - t = offsetAt t z.initial z.transitions := by
    unfold Zone.wall
    omega
  rw [hsub]
  exact offsetAt_lt z.initial_lt_day z.offset_lt_day

theorem ZoneInfo.abs_toUtc_sub_lt (z : ZoneInfo) (wall : ℤ) : |wall - z.toUtc wall| < DAY := by
  have hsub : wall - z.toUtc wall = localOffset wall z.initial z.transitions := by
    unfold Zone.toUtc
    omega
  rw [hsub]
  exact localOffset_lt z.initial_lt_day z.offset_lt_day

/-! ### Months -/

/-- Midnight at the start of a date. -/
def midnight (d : Date) : ℤ := d * DAY

/-- `date_trunc('month', local)::date` -/
def localMonth (wall : ℤ) : Date := monthStart (Date.civil (wall / DAY)).monthNumber

/-- A local time lies in the month its date is in. -/
theorem localMonth_eq_iff (wall number : ℤ) : localMonth wall = monthStart number ↔
    midnight (monthStart number) ≤ wall ∧ wall < midnight (monthStart (number + 1)) := by
  obtain ⟨hvalid, hdate⟩ := Date.civil_spec (wall / DAY)
  have hfrom := hvalid.monthStart_le
  have hto := hvalid.lt_monthStart
  rw [hdate] at hfrom hto
  have hday : ∀ d : ℤ, midnight d ≤ wall ↔ d ≤ wall / DAY := by
    intro d
    rw [midnight, Int.le_ediv_iff_mul_le (by decide)]
  rw [hday, ← Int.not_le, hday, Int.not_le, localMonth]
  generalize (Date.civil (wall / DAY)).monthNumber = current at hfrom hto ⊢
  constructor
  · intro heq
    have hnumber : current = number := monthStart_injective heq
    rw [← hnumber]
    exact ⟨hfrom, hto⟩
  · rintro ⟨hle, hlt⟩
    rcases Int.lt_trichotomy current number with h | h | h
    · have hmono := monthStart_mono (show current + 1 ≤ number by omega)
      exact absurd (Int.lt_of_lt_of_le hto hmono) (Int.not_lt.2 hle)
    · rw [h]
    · have hmono := monthStart_mono (show number + 1 ≤ current by omega)
      exact absurd (Int.lt_of_lt_of_le hlt hmono) (Int.not_lt.2 hfrom)

end Expensea
