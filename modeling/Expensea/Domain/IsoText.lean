import Expensea.Domain.Calendar
import Expensea.Domain.Enums

namespace Expensea

/-!
# Times and identifiers as text

`datetime.isoformat`, `datetime.fromisoformat`, `str(uuid)` and `UUID(text)`, and the text
operations around them.

* `isoformat` — a UTC time in the extended format;
* `isoExtended` — reading that format;
* `uuidText`, `uuidOfText` — an identifier as thirty-two hexadecimal digits in groups;
* `isoExtended_isoformat`, `uuidOfText_uuidText` — what is read is what was written.
-/

/-! ### Digits -/

/-- A number in `width` digits. -/
def padded (base : Nat) (symbol : Nat → CodePoint) : Nat → Nat → PyStr
  | 0, _ => []
  | width + 1, n => padded base symbol width (n / base) ++ [symbol (n % base)]

/-- Read `width` digits after the number `n` read so far. -/
def readDigits (base : Nat) (digit : CodePoint → Option Nat) :
    Nat → Nat → PyStr → Option (Nat × PyStr)
  | 0, n, s => some (n, s)
  | _ + 1, _, [] => none
  | width + 1, n, c :: s =>
    match digit c with
    | none => none
    | some d => readDigits base digit width (n * base + d) s

section Digits

variable {base : Nat} {symbol : Nat → CodePoint} {digit : CodePoint → Option Nat}

/-- Reading some digits and then more. -/
theorem readDigits_add {w k m n : Nat} {s rest : PyStr}
    (h : readDigits base digit w m s = some (n, rest)) :
    readDigits base digit (w + k) m s = readDigits base digit k n rest := by
  induction w generalizing m s with
  | zero =>
    obtain ⟨hn, hs⟩ := Prod.mk.inj (Option.some.inj h)
    rw [Nat.zero_add, hn, hs]
  | succ w ih =>
    cases s with
    | nil => cases h
    | cons c s =>
      rw [Nat.succ_add]
      simp only [readDigits] at h ⊢
      cases hd : digit c with
      | none => rw [hd] at h; cases h
      | some d =>
        rw [hd] at h
        exact ih h

/-- The digits of a number are read as that number, after the digits before them. -/
theorem readDigits_padded (hdigit : ∀ d < base, digit (symbol d) = some d) (hbase : 0 < base)
    {width n : Nat} (m : Nat) (s : PyStr) (hn : n < base ^ width) :
    readDigits base digit width m (padded base symbol width n ++ s) =
      some (m * base ^ width + n, s) := by
  induction width generalizing n s with
  | zero =>
    have hzero : n = 0 := by simpa using hn
    simp [padded, readDigits, hzero]
  | succ width ih =>
    have hquot : n / base < base ^ width := by
      rw [Nat.div_lt_iff_lt_mul hbase]
      rwa [pow_succ] at hn
    have hlast : m * base ^ width * base + n = (m * base ^ width + n / base) * base + n % base := by
      have hdiv := Nat.div_add_mod n base
      rw [Nat.add_mul, Nat.add_assoc, Nat.mul_comm (n / base), hdiv]
    rw [padded, List.append_assoc, readDigits_add (ih (n := n / base) ([symbol (n % base)] ++ s) hquot),
      pow_succ, ← Nat.mul_assoc, hlast]
    simp only [List.singleton_append, readDigits, hdigit _ (Nat.mod_lt n hbase)]

/-- Every digit of a number satisfies what all digits do. -/
theorem padded_forall {p : CodePoint → Prop}
    (hbase : 0 < base) (h : ∀ d < base, p (symbol d)) (width n : Nat) :
    ∀ c ∈ padded base symbol width n, p c := by
  induction width generalizing n with
  | zero => simp [padded]
  | succ width ih =>
    intro c hc
    rw [padded, List.mem_append, List.mem_singleton] at hc
    rcases hc with hc | rfl
    · exact ih _ c hc
    · exact h _ (Nat.mod_lt n hbase)

end Digits

/-- A decimal digit. -/
def decimalChar (d : Nat) : CodePoint := Fin.ofNat _ (0x30 + d)

/-- The value of a decimal digit. -/
def decimalValue (c : CodePoint) : Option Nat :=
  if 0x30 ≤ c.val ∧ c.val ≤ 0x39 then some (c.val - 0x30) else none

theorem decimalValue_decimalChar : ∀ d < 10, decimalValue (decimalChar d) = some d := by
  decide

/-- `%0<width>d` -/
def decimalText : Nat → Nat → PyStr := padded 10 decimalChar

/-- Read `width` decimal digits. -/
def readNumber (width : Nat) (s : PyStr) : Option (Nat × PyStr) :=
  readDigits 10 decimalValue width 0 s

theorem readNumber_decimalText {width n : Nat} (s : PyStr) (hn : n < 10 ^ width) :
    readNumber width (decimalText width n ++ s) = some (n, s) := by
  rw [readNumber, decimalText, readDigits_padded decimalValue_decimalChar (by decide) 0 s hn,
    Nat.zero_mul, Nat.zero_add]

/-- Read one character. -/
def expect (c : CodePoint) : PyStr → Option PyStr
  | [] => none
  | c' :: s => if c' = c then some s else none

theorem expect_cons (c : CodePoint) (s : PyStr) : expect c (c :: s) = some s := if_pos rfl

/-! ### Replacing text -/

/-- `text.replace(pattern, new)`, once `skip` more characters of an occurrence are passed. -/
def replaceFrom (pattern new : PyStr) : Nat → PyStr → PyStr
  | _, [] => []
  | skip + 1, _ :: s => replaceFrom pattern new skip s
  | 0, c :: s =>
    if pattern.isPrefixOf (c :: s) then new ++ replaceFrom pattern new (pattern.length - 1) s
    else c :: replaceFrom pattern new 0 s

/-- `text.replace(pattern, new)` of a pattern that is not empty. -/
def replaceText (pattern new s : PyStr) : PyStr := replaceFrom pattern new 0 s

/-- A pattern that starts like nothing before it is replaced at the end. -/
theorem replaceText_suffix {a : CodePoint} {pattern new s : PyStr} (hs : a ∉ s) :
    replaceText (a :: pattern) new (s ++ a :: pattern) = s ++ new := by
  have hskip : ∀ t : PyStr, replaceFrom (a :: pattern) new t.length t = [] := by
    intro t
    induction t with
    | nil => rfl
    | cons c t ih => exact ih
  induction s with
  | nil =>
    show (if (a :: pattern).isPrefixOf (a :: pattern) then _ else _) = _
    rw [if_pos (by simp), List.length_cons, Nat.add_sub_cancel, hskip, List.append_nil, List.nil_append]
  | cons c s ih =>
    have hc : a ≠ c := fun h => hs (h ▸ List.mem_cons_self)
    have hprefix : ¬ (a :: pattern).isPrefixOf (c :: (s ++ a :: pattern)) = true := by
      simp [List.isPrefixOf, hc]
    show (if (a :: pattern).isPrefixOf (c :: (s ++ a :: pattern)) then _ else _) = _
    rw [if_neg hprefix]
    show c :: replaceText (a :: pattern) new (s ++ a :: pattern) = _
    rw [ih fun h => hs (List.mem_cons_of_mem c h)]
    rfl

/-! ### Times -/

/-- Microseconds in a second. -/
def SECOND : ℤ := 1000000

/-- `date.isoformat()` -/
def dateText (c : CivilDate) : PyStr :=
  decimalText 4 c.year.toNat ++ 0x2D :: decimalText 2 c.month.toNat ++ 0x2D :: decimalText 2 c.day.toNat

/-- `time.isoformat()`: microseconds are left out where there are none. -/
def timeText (us : ℤ) : PyStr :=
  decimalText 2 (us / (3600 * SECOND)).toNat ++ 0x3A ::
    (decimalText 2 (us / (60 * SECOND) % 60).toNat ++ 0x3A ::
      (decimalText 2 (us / SECOND % 60).toNat ++
        if us % SECOND = 0 then [] else 0x2E :: decimalText 6 (us % SECOND).toNat))

/-- `value.isoformat()` of a UTC time, but for its offset. -/
def wallText (t : Instant) : PyStr :=
  dateText (Date.civil (t / DAY)) ++ 0x54 :: timeText (t % DAY)

/-- `value.isoformat()` of a UTC time. -/
def isoformat (t : Instant) : PyStr := wallText t ++ py "+00:00"

/-- `YYYY-MM-DD` -/
def readDate (s : PyStr) : Option (Date × PyStr) := do
  let (year, s) ← readNumber 4 s
  let s ← expect 0x2D s
  let (month, s) ← readNumber 2 s
  let s ← expect 0x2D s
  let (day, s) ← readNumber 2 s
  if 1 ≤ year ∧ 1 ≤ month ∧ month ≤ 12 ∧ 1 ≤ day ∧ (day : ℤ) ≤ daysInMonth year month then
    some ((CivilDate.mk year month day).toDate, s)
  else none

/-- The fraction of a second: six digits, or nothing. -/
def readFraction : PyStr → Option (Nat × PyStr)
  | 0x2E :: s => readNumber 6 s
  | s => some (0, s)

/-- `HH:MM:SS[.ffffff]`, in microseconds. -/
def readTime (s : PyStr) : Option (ℤ × PyStr) := do
  let (hour, s) ← readNumber 2 s
  let s ← expect 0x3A s
  let (minute, s) ← readNumber 2 s
  let s ← expect 0x3A s
  let (second, s) ← readNumber 2 s
  let (fraction, s) ← readFraction s
  if hour < 24 ∧ minute < 60 ∧ second < 60 then
    some (((hour * 3600 + minute * 60 + second : Nat) : ℤ) * SECOND + fraction, s)
  else none

/-- `+HH:MM` or `-HH:MM` to the end, in microseconds. -/
def readOffset : PyStr → Option ℤ
  | [] => none
  | sign :: s => do
    let (hour, s) ← readNumber 2 s
    let s ← expect 0x3A s
    let (minute, s) ← readNumber 2 s
    if s = [] ∧ hour < 24 ∧ minute < 60 then
      if sign = 0x2B then some (((hour * 60 + minute : Nat) : ℤ) * MINUTE)
      else if sign = 0x2D then some (-((hour * 60 + minute : Nat) : ℤ) * MINUTE)
      else none
    else none

/-- `datetime.fromisoformat` of a date and a time of day in the extended format with an
    offset. -/
def isoExtended (s : PyStr) : Option DateTime := do
  let (date, s) ← readDate s
  let s ← expect 0x54 s
  let (us, s) ← readTime s
  let offset ← readOffset s
  some ⟨date * DAY + us, some offset⟩

/-- A year of the calendar has four digits. -/
theorem year_bounds {d : Date} (hpos : 0 ≤ d) (hmax : d ≤ MAX_DATE) :
    1 ≤ (Date.civil d).year ∧ (Date.civil d).year ≤ 9999 := by
  obtain ⟨hvalid, hdate⟩ := Date.civil_spec d
  have hyear := hvalid.monthNumber_div
  have hlow := hvalid.monthStart_le
  have hhigh := hvalid.lt_monthStart
  rw [hdate] at hlow hhigh
  -- the year one starts on day zero, the year ten thousand after the last day
  have hfirst : monthStart 12 = 0 := by decide
  have hend : monthStart 120000 = MAX_DATE + 1 := by decide
  constructor
  · by_contra hlt
    have hnumber : (Date.civil d).monthNumber + 1 ≤ 12 := by omega
    have hle := monthStart_mono hnumber
    rw [hfirst] at hle
    exact absurd (hhigh.trans_le hle) (not_lt.2 hpos)
  · by_contra hlt
    have hnumber : 120000 ≤ (Date.civil d).monthNumber := by omega
    have hle := monthStart_mono hnumber
    rw [hend] at hle
    exact absurd (lt_of_lt_of_le (Int.lt_add_one_of_le hmax) (hle.trans hlow)) (lt_irrefl _)

theorem readDate_dateText {d : Date} (hpos : 0 ≤ d) (hmax : d ≤ MAX_DATE) (s : PyStr) :
    readDate (dateText (Date.civil d) ++ s) = some (d, s) := by
  obtain ⟨⟨hmonth, hmonth', hday, hday'⟩, hdate⟩ := Date.civil_spec d
  obtain ⟨hyear, hyear'⟩ := year_bounds hpos hmax
  have hdays : daysInMonth (Date.civil d).year (Date.civil d).month ≤ 31 := by
    unfold daysInMonth
    split_ifs <;> omega
  obtain ⟨y, hy⟩ : ∃ y : Nat, (Date.civil d).year = y := ⟨_, (Int.toNat_of_nonneg (by omega)).symm⟩
  obtain ⟨m, hm⟩ : ∃ m : Nat, (Date.civil d).month = m := ⟨_, (Int.toNat_of_nonneg (by omega)).symm⟩
  obtain ⟨n, hn⟩ : ∃ n : Nat, (Date.civil d).day = n := ⟨_, (Int.toNat_of_nonneg (by omega)).symm⟩
  have hcivil : Date.civil d = ⟨y, m, n⟩ := by
    rw [← hy, ← hm, ← hn]
  rw [hy, hm] at hday' hdays
  rw [hn] at hday'
  rw [hcivil] at hdate ⊢
  simp only [dateText, Int.toNat_natCast, List.append_assoc, List.cons_append, readDate]
  rw [readNumber_decimalText _ (by omega)]
  simp only [Option.bind_eq_bind, Option.bind_some, expect_cons]
  rw [readNumber_decimalText _ (by omega)]
  simp only [Option.bind_some, expect_cons]
  rw [readNumber_decimalText _ (by omega)]
  simp only [Option.bind_some]
  rw [if_pos ⟨by omega, by omega, by omega, by omega, hday'⟩, hdate]

theorem readFraction_decimalText {n : Nat} (hn : n < 10 ^ 6) {s : PyStr}
    (hs : ∀ s', s ≠ 0x2E :: s') :
    readFraction ((if n = 0 then [] else 0x2E :: decimalText 6 n) ++ s) = some (n, s) := by
  by_cases hzero : n = 0
  · rw [if_pos hzero, List.nil_append, readFraction, hzero]
    exact hs
  · rw [if_neg hzero, List.cons_append, readFraction, readNumber_decimalText _ hn]

/-- A time of day is read as it was written. -/
theorem readTime_timeText {us : ℤ} (hpos : 0 ≤ us) (hlt : us < DAY) {s : PyStr}
    (hs : ∀ s', s ≠ 0x2E :: s') : readTime (timeText us ++ s) = some (us, s) := by
  obtain ⟨n, rfl⟩ : ∃ n : Nat, us = n := ⟨_, (Int.toNat_of_nonneg hpos).symm⟩
  have hn : n < 86400000000 := by
    have : (86400 * 1000000 : ℤ) = 86400000000 := by norm_num
    rw [DAY, this] at hlt
    omega
  have hhour : ((n : ℤ) / (3600 * SECOND)).toNat = n / 3600000000 := by
    show ((n : ℤ) / 3600000000).toNat = _
    omega
  have hminute : ((n : ℤ) / (60 * SECOND) % 60).toNat = n / 60000000 % 60 := by
    show ((n : ℤ) / 60000000 % 60).toNat = _
    omega
  have hsecond : ((n : ℤ) / SECOND % 60).toNat = n / 1000000 % 60 := by
    show ((n : ℤ) / 1000000 % 60).toNat = _
    omega
  have hfraction : ((n : ℤ) % SECOND).toNat = n % 1000000 := by
    show ((n : ℤ) % 1000000).toNat = _
    omega
  have hwhole : ((n : ℤ) % SECOND = 0) = (n % 1000000 = 0) := by
    show ((n : ℤ) % 1000000 = 0) = _
    apply propext
    omega
  simp only [timeText, hhour, hminute, hsecond, hfraction, hwhole, List.append_assoc,
    List.cons_append, readTime]
  rw [readNumber_decimalText _ (by omega)]
  simp only [Option.bind_eq_bind, Option.bind_some, expect_cons]
  rw [readNumber_decimalText _ (by omega)]
  simp only [Option.bind_some, expect_cons]
  rw [readNumber_decimalText _ (by omega)]
  simp only [Option.bind_some]
  rw [readFraction_decimalText (by omega) hs]
  simp only [Option.bind_some]
  rw [if_pos ⟨by omega, by omega, by omega⟩]
  congr 2
  show ((n / 3600000000 * 3600 + n / 60000000 % 60 * 60 + n / 1000000 % 60 : Nat) : ℤ) * 1000000 +
    (n % 1000000 : Nat) = n
  omega

/-- A time of day and its date are written in digits and separators. -/
theorem wallText_chars (t : Instant) :
    ∀ c ∈ wallText t, (decimalValue c).isSome ∨ c = 0x2D ∨ c = 0x3A ∨ c = 0x2E ∨ c = 0x54 := by
  have hnumber : ∀ width n, ∀ c ∈ decimalText width n, (decimalValue c).isSome ∨ c = 0x2D ∨
      c = 0x3A ∨ c = 0x2E ∨ c = 0x54 :=
    padded_forall (by decide) (by decide)
  intro c hc
  have hfraction : ∀ us, c ∈ (if us % SECOND = 0 then [] else 0x2E :: decimalText 6 (us % SECOND).toNat) →
      c = 0x2E ∨ c ∈ decimalText 6 (us % SECOND).toNat := by
    intro us h
    split_ifs at h
    · cases h
    · exact List.mem_cons.1 h
  simp only [wallText, dateText, timeText, List.mem_append, List.mem_cons] at hc
  grind

/-- **Times round trip.**  A time of the calendar is read as it was written. -/
theorem isoExtended_isoformat {t : ℤ} (ht : representable t = true) :
    isoExtended (isoformat t) = some (Instant.toDateTime t) := by
  obtain ⟨hpos, hmax⟩ : 0 ≤ t ∧ t ≤ 315537897599999999 := by
    rw [representable, Bool.and_eq_true] at ht
    exact ⟨of_decide_eq_true ht.1, of_decide_eq_true ht.2⟩
  have hday : 0 ≤ t / DAY ∧ t / DAY ≤ 3652058 := by
    show 0 ≤ t / (86400 * 1000000) ∧ t / (86400 * 1000000) ≤ 3652058
    omega
  have htime : 0 ≤ t % DAY ∧ t % DAY < DAY := by
    show 0 ≤ t % (86400 * 1000000) ∧ t % (86400 * 1000000) < 86400 * 1000000
    omega
  have hsplit : t / DAY * DAY + t % DAY = t := by
    show t / (86400 * 1000000) * (86400 * 1000000) + t % (86400 * 1000000) = t
    omega
  have hoffset : readOffset (py "+00:00") = some 0 := by decide
  have hdot : ∀ s', py "+00:00" ≠ 0x2E :: s' := by
    intro s' h
    exact absurd (List.cons.inj h).1 (by decide)
  rw [isoformat, wallText, isoExtended, List.append_assoc, readDate_dateText hday.1 hday.2]
  simp only [Option.bind_eq_bind, Option.bind_some, List.cons_append, expect_cons]
  rw [readTime_timeText htime.1 htime.2 hdot]
  simp only [Option.bind_some, hoffset, hsplit]
  rfl

/-! ### Identifiers -/

/-- A hexadecimal digit. -/
def hexChar (d : Nat) : CodePoint := Fin.ofNat _ (if d < 10 then 0x30 + d else 0x57 + d)

/-- The value of a hexadecimal digit, of either case. -/
def hexValue (c : CodePoint) : Option Nat :=
  if 0x30 ≤ c.val ∧ c.val ≤ 0x39 then some (c.val - 0x30)
  else if 0x41 ≤ c.val ∧ c.val ≤ 0x46 then some (c.val - 0x37)
  else if 0x61 ≤ c.val ∧ c.val ≤ 0x66 then some (c.val - 0x57)
  else none

theorem hexValue_hexChar : ∀ d < 16, hexValue (hexChar d) = some d := by
  decide

/-- `uuid.hex` -/
def uuidHex (id : Uuid) : PyStr := padded 16 hexChar 32 id

/-- Digits in groups of 8, 4, 4, 4 and 12. -/
def grouped (s : PyStr) : PyStr :=
  s.take 8 ++ 0x2D :: (s.drop 8).take 4 ++ 0x2D :: (s.drop 12).take 4 ++
    0x2D :: (s.drop 16).take 4 ++ 0x2D :: s.drop 20

/-- `str(uuid)` -/
def uuidText (id : Uuid) : PyStr := grouped (uuidHex id)

/-- `UUID(text)` of thirty-two hexadecimal digits, hyphens aside. -/
def uuidOfText (s : PyStr) : Option Uuid :=
  match readDigits 16 hexValue 32 0 (s.filter (· != 0x2D)) with
  | some (id, []) => some id
  | _ => none

/-- An identifier is written in hexadecimal digits and hyphens. -/
theorem uuidText_chars (id : Uuid) : ∀ c ∈ uuidText id, (hexValue c).isSome ∨ c = 0x2D := by
  have hhex : ∀ c ∈ uuidHex id, (hexValue c).isSome ∨ c = 0x2D :=
    padded_forall (by decide) (by decide) 32 id
  intro c hc
  simp only [uuidText, grouped, List.mem_append, List.mem_cons] at hc
  rcases hc with (((hc | rfl | hc) | rfl | hc) | rfl | hc) | rfl | hc
  · exact hhex c (List.mem_of_mem_take hc)
  · exact .inr rfl
  · exact hhex c (List.mem_of_mem_drop (List.mem_of_mem_take hc))
  · exact .inr rfl
  · exact hhex c (List.mem_of_mem_drop (List.mem_of_mem_take hc))
  · exact .inr rfl
  · exact hhex c (List.mem_of_mem_drop (List.mem_of_mem_take hc))
  · exact .inr rfl
  · exact hhex c (List.mem_of_mem_drop hc)

/-- **Identifiers round trip.** -/
theorem uuidOfText_uuidText {id : Uuid} (hid : id < 2 ^ 128) :
    uuidOfText (uuidText id) = some id := by
  have hhex : ∀ c ∈ uuidHex id, c ≠ 0x2D :=
    padded_forall (by decide) (by decide) 32 id
  have hkeep : ∀ s : PyStr, (∀ c ∈ s, c ∈ uuidHex id) → s.filter (· != 0x2D) = s := by
    intro s hs
    rw [List.filter_eq_self]
    intro c hc
    simpa using hhex c (hs c hc)
  have hdigits : (uuidText id).filter (· != 0x2D) = uuidHex id := by
    have hsplit : ∀ n, ((uuidHex id).drop n).take 4 ++ (uuidHex id).drop (n + 4) =
        (uuidHex id).drop n := by
      intro n
      rw [← List.drop_drop, List.take_append_drop]
    simp only [uuidText, grouped, List.filter_append, List.filter_cons, bne_self_eq_false,
      Bool.false_eq_true, if_false, List.append_assoc]
    rw [hkeep _ fun c hc => List.mem_of_mem_take hc,
      hkeep _ fun c hc => List.mem_of_mem_drop (List.mem_of_mem_take hc),
      hkeep _ fun c hc => List.mem_of_mem_drop (List.mem_of_mem_take hc),
      hkeep _ fun c hc => List.mem_of_mem_drop (List.mem_of_mem_take hc),
      hkeep _ fun c hc => List.mem_of_mem_drop hc,
      hsplit 16, hsplit 12, hsplit 8, List.take_append_drop]
  have hread := readDigits_padded hexValue_hexChar (by decide) 0 []
    (show id < 16 ^ 32 from hid.trans_le (by norm_num))
  rw [List.append_nil] at hread
  rw [uuidOfText, hdigits, uuidHex, hread, Nat.zero_mul, Nat.zero_add]

end Expensea
