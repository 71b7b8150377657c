import Expensea.Lib.Regex
import Mathlib.Data.Nat.Digits.Defs
import Mathlib.Data.List.TakeWhile
import Mathlib.Data.Rat.Floor
import Mathlib.Tactic.FieldSimp
import Mathlib.Tactic.Linarith
import Mathlib.Tactic.NormNum
import Mathlib.Tactic.Positivity
import Mathlib.Tactic.Ring

namespace Expensea.Web

open Regex

/-!
# Money on the screen

`formatMoney` of `apps/web/src/lib/ledger-formatters.ts`.  What `Intl.NumberFormat` returns is a
parameter, `Intl`; what the code relies on about it in the default locale is `Layout`.

* `formatMoney` — the text of an amount;
* `readMoney` — the value a reader of that text sees;
* `formatMoney_exact_iff` — the two values are the same, and the sign is shown, except between
  minus one and zero.
-/

/-- A JavaScript string: its UTF-16 code units. -/
abbrev JsStr := List UInt16

/-- The text of a literal. -/
def js (s : String) : JsStr := s.toList.map fun c => UInt16.ofNat c.toNat

def MINUS : UInt16 := 0x2D
def POINT : UInt16 := 0x2E
def ZERO : UInt16 := 0x30

/-- `\d` -/
def isDigit (u : UInt16) : Bool := 0x30 ≤ u && u ≤ 0x39

/-- `[A-Z]` -/
def isUpper (u : UInt16) : Bool := 0x41 ≤ u && u ≤ 0x5A

/-! ### Patterns -/

/-- `(?:0|[1-9]\d*)` -/
def INTEGER_PART : Regex UInt16 :=
  alt (sym (· == ZERO)) (seq (sym fun u => 0x31 ≤ u && u ≤ 0x39) (many isDigit))

/-- `\.\d{1,4}` -/
def FRACTION_PART : Regex UInt16 :=
  seq (sym (· == POINT)) (seq (sym isDigit) (upTo isDigit 3))

/-- `DECIMAL_STRING_PATTERN` -/
def DECIMAL_STRING_PATTERN : Regex UInt16 :=
  seq (alt (sym (· == MINUS)) eps) (seq INTEGER_PART (alt FRACTION_PART eps))

/-- `CURRENCY_CODE_PATTERN` -/
def CURRENCY_CODE_PATTERN : Regex UInt16 := chars [isUpper, isUpper, isUpper]

/-- `pattern.test(text)` of a pattern between `^` and `$` that asks for no word boundary. -/
def test (pattern : Regex UInt16) (text : JsStr) : Bool := fullMatch (fun _ => false) pattern text

/-- A `RangeError`. -/
structure RangeError where
  message : String
  deriving DecidableEq

/-- `assertDecimalString` -/
def assertDecimalString (amount : JsStr) : Except RangeError Unit :=
  if test DECIMAL_STRING_PATTERN amount then .ok ()
  else .error ⟨"Money values must be decimal strings with at most four fractional digits."⟩

/-- `assertCurrencyCode` -/
def assertCurrencyCode (currency : JsStr) : Except RangeError Unit :=
  if test CURRENCY_CODE_PATTERN currency then .ok ()
  else .error ⟨"Currency values must be uppercase ISO 4217 codes."⟩

/-! ### Number formats -/

/-- The types of the parts of a formatted number that the formatter meets. -/
inductive PartType where
  | currency
  | decimal
  | fraction
  | group
  | integer
  | literal
  | minusSign
  deriving DecidableEq

/-- `Intl.NumberFormatPart` -/
structure Part where
  type : PartType
  value : JsStr
  deriving DecidableEq

/-- `Intl.NumberFormat(..).formatToParts(..)`. -/
structure Intl where
  /-- With a currency, its narrow symbol, grouping and no fractional digits: the parts of a
      `BigInt`. -/
  currencyParts (locale currency : JsStr) (n : ℤ) : List Part
  /-- Without options: the parts of `1.1`. -/
  numberParts (locale : JsStr) : List Part

/-- The number an optional minus and digits write. -/
def digitsValue (s : JsStr) : Nat := s.foldl (fun n u => 10 * n + (u.toNat - 48)) 0

/-- `BigInt(text)` -/
def bigInt (s : JsStr) : ℤ :=
  if s.head? = some MINUS then -(digitsValue s.tail : ℤ) else digitsValue s

/-- `decimalSeparator` -/
def decimalSeparator (I : Intl) (locale : JsStr) : JsStr :=
  (((I.numberParts locale).find? fun part => part.type == .decimal).map Part.value).getD [POINT]

/-- `part.type === 'integer' || part.type === 'group'` -/
def isNumberPart (part : Part) : Bool := part.type == .integer || part.type == .group

/-- `lastNumberPartIndex` after the loop; `none` is `-1`. -/
def lastNumberPartIndex (parts : List Part) : Option Nat :=
  parts.zipIdx.foldl (fun last entry => if isNumberPart entry.1 then some entry.2 else last) none

/-- `rawFraction.replace(/0+$/, '')` -/
def stripZeros (s : JsStr) : JsStr := (s.reverse.dropWhile (· == ZERO)).reverse

/-- The default `locale`. -/
def EN_IN : JsStr := js "en-IN"

/-- `formatMoney` -/
def formatMoney (I : Intl) (amount currency locale : JsStr) : Except RangeError JsStr := do
  assertDecimalString amount
  assertCurrencyCode currency
  let pieces := amount.splitOn POINT
  let integerPart := pieces[0]?.getD [ZERO]
  let rawFraction := pieces[1]?.getD []
  let fraction := stripZeros rawFraction
  let parts := I.currencyParts locale currency (bigInt integerPart)
  let last := lastNumberPartIndex parts
  pure (parts.zipIdx.map fun entry =>
    if some entry.2 ≠ last ∨ fraction = [] then entry.1.value
    else entry.1.value ++ decimalSeparator I locale ++ fraction).flatten

/-! ### Reading -/

/-- The value of fractional digits. -/
def fractionValue (s : JsStr) : ℚ := digitsValue s / 10 ^ s.length

/-- The value of digits with at most one decimal point. -/
def decimalValue (s : JsStr) : ℚ :=
  digitsValue (s.takeWhile (· != POINT)) + fractionValue ((s.dropWhile (· != POINT)).drop 1)

/-- The value an amount writes. -/
def amountValue (amount : JsStr) : ℚ :=
  if amount.head? = some MINUS then -decimalValue amount.tail else decimalValue amount

/-- What a reader who knows the currency's symbol sees: a sign, and digits whose grouping and
    spacing do not count. -/
def readMoney (symbol text : JsStr) : ℚ :=
  let digits := fun s : JsStr => (s.drop symbol.length).filter fun u => isDigit u || u == POINT
  if text.head? = some MINUS then -decimalValue (digits text.tail) else decimalValue (digits text)

/-- What `Intl.NumberFormat` does in the default locale: a minus for negative numbers, the symbol
    of the currency, perhaps a space, and the digits of the number in groups. -/
structure Layout (I : Intl) (symbol : JsStr → JsStr) : Prop where
  signless : ∀ currency, test CURRENCY_CODE_PATTERN currency = true →
    (symbol currency).head?.any (· != MINUS) = true
  parts : ∀ currency n, test CURRENCY_CODE_PATTERN currency = true → ∃ literals numbers,
    I.currencyParts EN_IN currency n = (if n < 0 then [⟨.minusSign, [MINUS]⟩] else []) ++
      ⟨.currency, symbol currency⟩ :: (literals ++ numbers) ∧
    (∀ part ∈ literals, part.type = .literal ∧ ∀ u ∈ part.value, isDigit u = false ∧ u ≠ POINT) ∧
    numbers ≠ [] ∧
    (∀ part ∈ numbers, part.type = .integer ∧ (∀ u ∈ part.value, isDigit u = true) ∨
      part.type = .group ∧ ∀ u ∈ part.value, isDigit u = false ∧ u ≠ POINT) ∧
    digitsValue ((numbers.filter fun part => part.type == .integer).flatMap Part.value) = n.natAbs
  decimal : decimalSeparator I EN_IN = [POINT]

/-! ### Digits -/

theorem digitsValue_append (s t : JsStr) :
    digitsValue (s ++ t) = digitsValue s * 10 ^ t.length + digitsValue t := by
  have hfrom : ∀ (t : JsStr) (n : Nat), t.foldl (fun n u => 10 * n + (u.toNat - 48)) n =
      n * 10 ^ t.length + digitsValue t := by
    intro t
    induction t with
    | nil => exact fun n => by simp [digitsValue]
    | cons u t ih =>
      intro n
      rw [digitsValue, List.foldl_cons, List.foldl_cons, ih, ih, List.length_cons, pow_succ]
      ring
  rw [digitsValue, List.foldl_append, hfrom]
  rfl

theorem digit_le {u : UInt16} (h : isDigit u = true) : u.toNat - 48 ≤ 9 := by
  rw [isDigit, Bool.and_eq_true, decide_eq_true_eq, decide_eq_true_eq] at h
  have hle := UInt16.le_iff_toNat_le.1 h.2
  have hnine : (0x39 : UInt16).toNat = 57 := rfl
  omega

theorem digitsValue_lt {s : JsStr} (h : ∀ u ∈ s, isDigit u = true) :
    digitsValue s < 10 ^ s.length := by
  induction s with
  | nil => exact Nat.one_pos
  | cons u s ih =>
    obtain ⟨hu, hs⟩ := List.forall_mem_cons.1 h
    have hsplit := digitsValue_append [u] s
    have hone : digitsValue [u] = u.toNat - 48 := by simp [digitsValue]
    have hle := Nat.mul_le_mul_right (10 ^ s.length) (digit_le hu)
    rw [List.singleton_append, hone] at hsplit
    rw [hsplit, List.length_cons, pow_succ]
    have hlt := ih hs
    omega

theorem fractionValue_nonneg (s : JsStr) : 0 ≤ fractionValue s := by
  rw [fractionValue]
  positivity

theorem fractionValue_lt_one {s : JsStr} (h : ∀ u ∈ s, isDigit u = true) : fractionValue s < 1 := by
  rw [fractionValue, div_lt_one (by positivity)]
  exact_mod_cast digitsValue_lt h

/-- Trailing zeros of a fraction do not count. -/
theorem fractionValue_stripZeros (s : JsStr) : fractionValue (stripZeros s) = fractionValue s := by
  induction s using List.reverseRecOn with
  | nil => rfl
  | append_singleton s u ih =>
    rw [stripZeros, List.reverse_append, List.reverse_singleton, List.singleton_append,
      List.dropWhile_cons]
    by_cases hu : (u == ZERO) = true
    · have hzero : digitsValue [u] = 0 := by
        rw [beq_iff_eq.1 hu]
        rfl
      rw [if_pos hu]
      show fractionValue (stripZeros s) = _
      rw [ih, fractionValue, fractionValue, digitsValue_append, hzero, List.length_append,
        List.length_singleton, pow_succ]
      push_cast
      field_simp
      ring
    · rw [if_neg hu, List.reverse_cons, List.reverse_reverse]

theorem stripZeros_mem {s : JsStr} {u : UInt16} (h : u ∈ stripZeros s) : u ∈ s := by
  rw [stripZeros, List.mem_reverse] at h
  exact List.mem_reverse.1 ((List.dropWhile_sublist _).subset h)

theorem isDigit_ne_point {u : UInt16} (h : isDigit u = true) : u ≠ POINT := by
  rintro rfl
  exact absurd h (by decide)

/-- A number's digits and its fraction are read apart. -/
theorem decimalValue_split {integer fraction : JsStr} (h : ∀ u ∈ integer, isDigit u = true) :
    decimalValue (integer ++ if fraction = [] then [] else POINT :: fraction) =
      digitsValue integer + fractionValue fraction := by
  have hclear : ∀ u ∈ integer, (u != POINT) = true := fun u hu =>
    bne_iff_ne.2 (isDigit_ne_point (h u hu))
  by_cases hempty : fraction = []
  · have hzero : fractionValue [] = 0 := by norm_num [fractionValue, digitsValue]
    rw [if_pos hempty, List.append_nil, decimalValue, List.takeWhile_eq_self_iff.2 hclear,
      List.dropWhile_eq_nil_iff.2 hclear, List.drop_nil, hempty]
  · rw [if_neg hempty, decimalValue, List.takeWhile_append_of_pos hclear,
      List.dropWhile_append_of_pos hclear]
    simp

/-! ### Amounts -/

/-- An amount by its sign, its integer part and its fraction. -/
structure Written (amount : JsStr) (negative : Bool) (integer fraction : JsStr) : Prop where
  text : amount = (if negative then [MINUS] else []) ++ integer ++
    (if fraction = [] then [] else POINT :: fraction)
  integer_nonempty : integer ≠ []
  integer_digits : ∀ u ∈ integer, isDigit u = true
  fraction_digits : ∀ u ∈ fraction, isDigit u = true

theorem integerPart_digits {before : Option UInt16} {w rest : JsStr}
    (h : Matches (fun _ => false) INTEGER_PART before w rest) :
    w ≠ [] ∧ ∀ u ∈ w, isDigit u = true := by
  rcases h with ⟨u, rfl, hu⟩ | ⟨u, v, rfl, ⟨a, rfl, ha⟩, hv⟩
  · rw [beq_iff_eq] at hu
    rw [hu]
    exact ⟨List.cons_ne_nil _ _, List.forall_mem_singleton.2 (by decide)⟩
  · refine ⟨List.cons_ne_nil _ _, List.forall_mem_cons.2 ⟨?_, hv⟩⟩
    rw [Bool.and_eq_true, decide_eq_true_eq, decide_eq_true_eq] at ha
    rw [isDigit, Bool.and_eq_true, decide_eq_true_eq, decide_eq_true_eq]
    exact ⟨UInt16.le_trans (show (0x30 : UInt16) ≤ 0x31 by decide) ha.1, ha.2⟩

theorem fractionPart_digits {before : Option UInt16} {w rest : JsStr}
    (h : Matches (fun _ => false) FRACTION_PART before w rest) :
    ∃ fraction, w = POINT :: fraction ∧ fraction ≠ [] ∧ ∀ u ∈ fraction, isDigit u = true := by
  obtain ⟨u, v, rfl, ⟨a, rfl, ha⟩, u', v', rfl, ⟨b, rfl, hb⟩, hv⟩ := h
  obtain ⟨-, hall⟩ := (matches_upTo isDigit 3).1 hv
  rw [beq_iff_eq] at ha
  rw [ha]
  exact ⟨b :: v', rfl, List.cons_ne_nil _ _, List.forall_mem_cons.2 ⟨hb, hall⟩⟩

/-- What the pattern accepts. -/
theorem written_of_test {amount : JsStr} (h : test DECIMAL_STRING_PATTERN amount = true) :
    ∃ negative integer fraction, Written amount negative integer fraction := by
  rw [test, fullMatch_iff] at h
  obtain ⟨sign, rest, rfl, hsign, integer, tail, rfl, hinteger, htail⟩ := h
  obtain ⟨hne, hdigits⟩ := integerPart_digits hinteger
  have hsign' : ∃ negative : Bool, sign = if negative then [MINUS] else [] := by
    rcases hsign with ⟨u, rfl, hu⟩ | hsign
    · rw [beq_iff_eq] at hu
      exact ⟨true, by rw [hu]; rfl⟩
    · exact ⟨false, hsign⟩
  have htail' : ∃ fraction, tail = (if fraction = [] then [] else POINT :: fraction) ∧
      ∀ u ∈ fraction, isDigit u = true := by
    rcases htail with htail | htail
    · obtain ⟨fraction, rfl, hfraction, hall⟩ := fractionPart_digits htail
      exact ⟨fraction, by rw [if_neg hfraction], hall⟩
    · exact ⟨[], by rw [if_pos rfl]; exact htail, by simp⟩
  obtain ⟨negative, hnegative⟩ := hsign'
  obtain ⟨fraction, hfraction, hall⟩ := htail'
  refine ⟨negative, integer, fraction, ?_, hne, hdigits, hall⟩
  rw [hnegative, hfraction, List.append_assoc]

section Amount

variable {amount integer fraction : JsStr} {negative : Bool}

/-- `amount.split('.')` -/
theorem Written.splitOn (hw : Written amount negative integer fraction) :
    amount.splitOn POINT = ((if negative then [MINUS] else []) ++ integer) ::
      if fraction = [] then [] else [fraction] := by
  have hsign : ∀ u ∈ (if negative then [MINUS] else []) ++ integer, (u == POINT) = false := by
    intro u hu
    rw [List.mem_append] at hu
    rw [beq_eq_false_iff_ne]
    rcases hu with hu | hu
    · cases negative with
      | true =>
        rw [List.mem_singleton.1 hu]
        decide
      | false => cases hu
    · exact isDigit_ne_point (hw.integer_digits u hu)
  have hfraction : ∀ u ∈ fraction, (u == POINT) = false := fun u hu =>
    beq_eq_false_iff_ne.2 (isDigit_ne_point (hw.fraction_digits u hu))
  rw [List.splitOn_eq_splitOnP, hw.text]
  by_cases hempty : fraction = []
  · rw [if_pos hempty, if_pos hempty, List.append_nil, List.splitOnP_eq_singleton hsign]
  · rw [if_neg hempty, if_neg hempty, List.splitOnP_append_cons_of_forall_mem hsign POINT
      (beq_self_eq_true _), List.splitOnP_eq_singleton hfraction]

theorem head?_digits (hne : integer ≠ []) (h : ∀ u ∈ integer, isDigit u = true)
    (rest : JsStr) : (integer ++ rest).head? ≠ some MINUS := by
  cases integer with
  | nil => exact absurd rfl hne
  | cons u integer =>
    intro hhead
    have hu := h u List.mem_cons_self
    rw [Option.some.inj hhead] at hu
    exact absurd hu (by decide)

theorem Written.bigInt (hw : Written amount negative integer fraction) :
    bigInt ((if negative then [MINUS] else []) ++ integer) =
      if negative then -(digitsValue integer : ℤ) else digitsValue integer := by
  cases negative with
  | true => rfl
  | false =>
    have hhead := head?_digits hw.integer_nonempty hw.integer_digits []
    rw [List.append_nil] at hhead
    show bigInt integer = digitsValue integer
    rw [Web.bigInt, if_neg hhead]

theorem Written.amountValue (hw : Written amount negative integer fraction) :
    amountValue amount = if negative then -(digitsValue integer + fractionValue fraction)
      else digitsValue integer + fractionValue fraction := by
  have hvalue : decimalValue (integer ++ if fraction = [] then [] else POINT :: fraction) =
      digitsValue integer + fractionValue fraction := decimalValue_split hw.integer_digits
  cases negative with
  | true =>
    rw [hw.text, ← hvalue, Web.amountValue, if_pos rfl, List.append_assoc]
    rfl
  | false =>
    have hhead := head?_digits hw.integer_nonempty hw.integer_digits
      (if fraction = [] then [] else POINT :: fraction)
    have htext : amount = integer ++ if fraction = [] then [] else POINT :: fraction := hw.text
    rw [htext, Web.amountValue, if_neg hhead, hvalue]
    rfl

end Amount

/-! ### The formatted text -/

/-- The index of the last part that is one of the number. -/
theorem lastNumberPartIndex_append {parts : List Part} {part : Part} (h : isNumberPart part = true) :
    lastNumberPartIndex (parts ++ [part]) = some parts.length := by
  rw [lastNumberPartIndex, List.zipIdx_append, List.foldl_append]
  simp [h]

/-- The fraction is put behind the last part of the number. -/
theorem join_append {parts : List Part} {part : Part} (separator fraction : JsStr) :
    (((parts ++ [part]).zipIdx.map fun entry =>
      if some entry.2 ≠ some parts.length ∨ fraction = [] then entry.1.value
      else entry.1.value ++ separator ++ fraction).flatten) =
      (parts ++ [part]).flatMap Part.value ++
        if fraction = [] then [] else separator ++ fraction := by
  have hinit : (parts.zipIdx.map fun entry =>
      if some entry.2 ≠ some parts.length ∨ fraction = [] then entry.1.value
      else entry.1.value ++ separator ++ fraction) = parts.map Part.value := by
    rw [← congrArg (List.map Part.value) (List.zipIdx_map_fst 0 parts), List.map_map]
    apply List.map_congr_left
    intro entry hentry
    have hlt := List.snd_lt_of_mem_zipIdx hentry
    rw [if_pos]
    · rfl
    · refine .inl fun heq => ?_
      have := Option.some.inj heq
      omega
  rw [List.zipIdx_append, List.map_append, hinit, List.flatten_append, List.flatMap_append,
    List.append_assoc]
  by_cases hempty : fraction = []
  · simp [hempty, List.flatMap]
  · simp [hempty, List.flatMap]

/-- What the reader keeps of a text. -/
def kept (u : UInt16) : Bool := isDigit u || u == POINT

theorem filter_kept_of_digits {s : JsStr} (h : ∀ u ∈ s, isDigit u = true) : s.filter kept = s :=
  List.filter_eq_self.2 fun u hu => by rw [kept, h u hu, Bool.true_or]

theorem filter_kept_nil {s : JsStr} (h : ∀ u ∈ s, isDigit u = false ∧ u ≠ POINT) :
    s.filter kept = [] :=
  List.filter_eq_nil_iff.2 fun u hu => by
    rw [kept, (h u hu).1, Bool.false_or, beq_iff_eq]
    exact (h u hu).2

/-- Of the parts of a number the reader keeps the digits. -/
theorem filter_kept_numbers {numbers : List Part}
    (h : ∀ part ∈ numbers, part.type = .integer ∧ (∀ u ∈ part.value, isDigit u = true) ∨
      part.type = .group ∧ ∀ u ∈ part.value, isDigit u = false ∧ u ≠ POINT) :
    (numbers.flatMap Part.value).filter kept =
        (numbers.filter fun part => part.type == .integer).flatMap Part.value ∧
      ∀ u ∈ (numbers.filter fun part => part.type == .integer).flatMap Part.value,
        isDigit u = true := by
  induction numbers with
  | nil => exact ⟨rfl, by simp⟩
  | cons part numbers ih =>
    obtain ⟨hpart, hnumbers⟩ := List.forall_mem_cons.1 h
    obtain ⟨hkept, hdigits⟩ := ih hnumbers
    rw [List.flatMap_cons, List.filter_append, hkept, List.filter_cons]
    rcases hpart with ⟨htype, hvalue⟩ | ⟨htype, hvalue⟩
    · have hinteger : (part.type == PartType.integer) = true := by
        rw [htype]
        rfl
      rw [if_pos hinteger, List.flatMap_cons, filter_kept_of_digits hvalue]
      refine ⟨rfl, fun u hu => ?_⟩
      exact (List.mem_append.1 hu).elim (hvalue u) (hdigits u)
    · have hgroup : (part.type == PartType.integer) = false := by
        rw [htype]
        rfl
      rw [if_neg (by rw [hgroup]; decide), filter_kept_nil hvalue]
      exact ⟨rfl, hdigits⟩

section Format

variable {I : Intl} {symbol : JsStr → JsStr} {amount currency integer fraction : JsStr}
  {negative : Bool}

/-- The text of an amount: a sign where the integer part is negative, the symbol, text of which
    the reader keeps the digits of the integer part, and the fraction without its last zeros. -/
theorem formatMoney_text (hI : Layout I symbol) (hamount : test DECIMAL_STRING_PATTERN amount = true)
    (hcurrency : test CURRENCY_CODE_PATTERN currency = true)
    (hw : Written amount negative integer fraction) : ∃ body digits : JsStr,
    formatMoney I amount currency EN_IN = .ok
      ((if negative ∧ 0 < digitsValue integer then [MINUS] else []) ++ (symbol currency ++ (body ++
        if stripZeros fraction = [] then [] else POINT :: stripZeros fraction))) ∧
      body.filter kept = digits ∧ (∀ u ∈ digits, isDigit u = true) ∧
      digitsValue digits = digitsValue integer := by
  have hnumber := hw.bigInt
  obtain ⟨literals, numbers, hparts, hliterals, hne, hnumbers, hexact⟩ := hI.parts currency
    (bigInt ((if negative then [MINUS] else []) ++ integer)) hcurrency
  obtain ⟨hkept, hdigits⟩ := filter_kept_numbers hnumbers
  have hclear : (literals.flatMap Part.value).filter kept = [] := by
    apply filter_kept_nil
    intro u hu
    obtain ⟨part, hpart, hu⟩ := List.mem_flatMap.1 hu
    exact (hliterals part hpart).2 u hu
  have hfraction : (amount.splitOn POINT)[1]?.getD [] = fraction := by
    rw [hw.splitOn]
    by_cases hempty : fraction = []
    · rw [if_pos hempty, hempty]
      rfl
    · rw [if_neg hempty]
      rfl
  have hinteger : (amount.splitOn POINT)[0]?.getD [ZERO] =
      (if negative then [MINUS] else []) ++ integer := by
    rw [hw.splitOn]
    rfl
  -- the last part is one of the number
  have hlast := List.dropLast_append_getLast hne
  have hpart : isNumberPart (numbers.getLast hne) = true := by
    rw [isNumberPart, Bool.or_eq_true, beq_iff_eq, beq_iff_eq]
    exact (hnumbers _ (List.getLast_mem hne)).imp (fun h => h.1) fun h => h.1
  generalize hn : bigInt ((if negative then [MINUS] else []) ++ integer) = n at *
  generalize hsign : (if n < 0 then [(⟨.minusSign, [MINUS]⟩ : Part)] else []) = sign at hparts
  have hsplit : I.currencyParts EN_IN currency n =
      (sign ++ ⟨.currency, symbol currency⟩ :: (literals ++ numbers.dropLast)) ++
        [numbers.getLast hne] := by
    rw [hparts, List.append_assoc, List.cons_append, List.append_assoc, hlast]
  have hflat : (I.currencyParts EN_IN currency n).flatMap Part.value =
      sign.flatMap Part.value ++ (symbol currency ++
        (literals.flatMap Part.value ++ numbers.flatMap Part.value)) := by
    rw [hparts, List.flatMap_append, List.flatMap_cons, List.flatMap_append]
  have htext : sign.flatMap Part.value =
      if negative ∧ 0 < digitsValue integer then [MINUS] else [] := by
    have hneg : n < 0 ↔ negative = true ∧ 0 < digitsValue integer := by
      rw [hnumber]
      cases negative with
      | true => simp
      | false => simp
    rw [← hsign, apply_ite (List.flatMap Part.value)]
    exact if_congr hneg rfl rfl
  refine ⟨literals.flatMap Part.value ++ numbers.flatMap Part.value, _, ?_, rfl, ?_, ?_⟩
  · have hrun : formatMoney I amount currency EN_IN =
        .ok ((I.currencyParts EN_IN currency n).zipIdx.map fun entry =>
          if some entry.2 ≠ lastNumberPartIndex (I.currencyParts EN_IN currency n) ∨
              stripZeros fraction = [] then entry.1.value
          else entry.1.value ++ decimalSeparator I EN_IN ++ stripZeros fraction).flatten := by
      rw [formatMoney, assertDecimalString, if_pos hamount, assertCurrencyCode, if_pos hcurrency]
      show Except.ok _ = _
      rw [hinteger, hfraction, hn]
    rw [hrun, hsplit, lastNumberPartIndex_append hpart, join_append, ← hsplit, hflat, htext,
      hI.decimal, List.append_assoc, List.append_assoc]
    rfl
  · rw [List.filter_append, hclear, List.nil_append, hkept]
    exact hdigits
  · rw [List.filter_append, hclear, List.nil_append, hkept, hexact, hnumber]
    cases negative with
    | true => simp
    | false => simp

/-- **The formatted amount.**  In the default locale an amount is shown with its value, and a minus
    exactly if it is negative, unless it lies between minus one and zero. -/
theorem formatMoney_exact_iff (hI : Layout I symbol)
    (hamount : test DECIMAL_STRING_PATTERN amount = true)
    (hcurrency : test CURRENCY_CODE_PATTERN currency = true) :
    (∃ text, formatMoney I amount currency EN_IN = .ok text ∧
      readMoney (symbol currency) text = amountValue amount ∧
      (text.head? = some MINUS ↔ amountValue amount < 0)) ↔
    ¬ (-1 < amountValue amount ∧ amountValue amount < 0) := by
  obtain ⟨negative, integer, fraction, hw⟩ := written_of_test hamount
  obtain ⟨body, digits, hrun, hbody, hdigits, hvalue⟩ := formatMoney_text hI hamount hcurrency hw
  have hfraction : ∀ u ∈ stripZeros fraction, isDigit u = true := fun u hu =>
    hw.fraction_digits u (stripZeros_mem hu)
  generalize htail : (if stripZeros fraction = [] then [] else POINT :: stripZeros fraction) = tail
    at hrun
  -- what is read behind the symbol
  have hread : decimalValue (((symbol currency ++ (body ++ tail)).drop
      (symbol currency).length).filter kept) = digitsValue integer + fractionValue fraction := by
    have hkept : tail.filter kept = tail := by
      rw [← htail]
      split_ifs
      · rfl
      · rw [List.filter_cons_of_pos (by decide), filter_kept_of_digits hfraction]
    rw [List.drop_left, List.filter_append, hbody, hkept, ← htail, decimalValue_split hdigits, hvalue,
      fractionValue_stripZeros]
  have hhead : (symbol currency ++ (body ++ tail)).head? ≠ some MINUS := by
    have hsignless := hI.signless currency hcurrency
    cases hsymbol : symbol currency with
    | nil =>
      rw [hsymbol] at hsignless
      cases hsignless
    | cons u rest =>
      rw [hsymbol] at hsignless
      intro h
      rw [Option.some.inj h] at hsignless
      simp at hsignless
  have hnonneg := fractionValue_nonneg fraction
  have hlt := fractionValue_lt_one hw.fraction_digits
  rw [hw.amountValue]
  by_cases hshown : negative = true ∧ 0 < digitsValue integer
  · -- the sign is the one of the integer part
    rw [if_pos hshown] at hrun
    have hpos : (1 : ℚ) ≤ digitsValue integer := by exact_mod_cast hshown.2
    have hvalue : (if negative = true then -((digitsValue integer : ℚ) + fractionValue fraction)
        else digitsValue integer + fractionValue fraction) =
        -(digitsValue integer + fractionValue fraction) := if_pos hshown.1
    rw [hvalue]
    constructor
    · intro _ hrange
      linarith
    · intro _
      have hminus : ([MINUS] ++ (symbol currency ++ (body ++ tail))).head? = some MINUS := rfl
      refine ⟨_, hrun, ?_, fun _ => by linarith, fun _ => hminus⟩
      rw [readMoney, if_pos hminus]
      exact congrArg Neg.neg hread
  · -- no sign is shown
    rw [if_neg hshown, List.nil_append] at hrun
    have hshows : readMoney (symbol currency) (symbol currency ++ (body ++ tail)) =
        digitsValue integer + fractionValue fraction := by
      rw [readMoney, if_neg hhead]
      exact hread
    cases negative with
    | false =>
      have hdigits : (0 : ℚ) ≤ digitsValue integer := Nat.cast_nonneg _
      constructor
      · intro _ hrange
        have := hrange.2
        simp only [Bool.false_eq_true, if_false] at this
        linarith
      · intro _
        refine ⟨_, hrun, hshows, ?_⟩
        simp only [Bool.false_eq_true, if_false]
        exact ⟨fun h => absurd h hhead, fun h => by linarith⟩
    | true =>
      have hzero : digitsValue integer = 0 := by
        by_contra hne
        exact hshown ⟨rfl, Nat.pos_of_ne_zero hne⟩
      rw [hzero, Nat.cast_zero, zero_add] at hshows
      simp only [if_true, hzero, Nat.cast_zero, zero_add]
      constructor
      · intro h hrange
        obtain ⟨text, htext, hvalue, -⟩ := h
        rw [hrun] at htext
        rw [← Except.ok.inj htext, hshows] at hvalue
        linarith
      · intro hrange
        have hnone : fractionValue fraction = 0 := by
          by_contra hne
          have hpos := lt_of_le_of_ne hnonneg (Ne.symm hne)
          exact hrange ⟨by linarith, by linarith⟩
        refine ⟨_, hrun, ?_, ?_⟩
        · rw [hshows, hnone, neg_zero]
        · rw [hnone, neg_zero]
          exact ⟨fun h => absurd h hhead, fun h => absurd h (lt_irrefl 0)⟩

end Format

/-! ### The Indian format -/

def COMMA : UInt16 := 0x2C

/-- The decimal digits of a number. -/
def decimalDigits (n : Nat) : JsStr :=
  if n = 0 then [ZERO] else (Nat.digits 10 n).reverse.map fun d => UInt16.ofNat (48 + d)

/-- A group ends before the last three digits and before every two in front of them. -/
def endsGroup (left : Nat) : Bool := left == 3 || 3 < left && left % 2 == 1

/-- Digits in groups. -/
def pieces : JsStr → List JsStr
  | [] => []
  | [u] => [[u]]
  | u :: v :: rest =>
    if endsGroup (rest.length + 1) then [u] :: pieces (v :: rest)
    else (pieces (v :: rest)).modifyHead (u :: ·)

/-- Groups with commas between them. -/
def groupedParts : List JsStr → List Part
  | [] => []
  | [s] => [⟨.integer, s⟩]
  | s :: t :: rest => ⟨.integer, s⟩ :: ⟨.group, [COMMA]⟩ :: groupedParts (t :: rest)

/-- The symbol of the rupee, or the code itself. -/
def indianSymbol (currency : JsStr) : JsStr := if currency = js "INR" then [0x20B9] else currency

/-- The format of `en-IN`, with a no-break space behind a code. -/
def indian : Intl where
  currencyParts _ currency n := (if n < 0 then [⟨.minusSign, [MINUS]⟩] else []) ++
    ⟨.currency, indianSymbol currency⟩ ::
      ((if currency = js "INR" then [] else [⟨.literal, [0xA0]⟩]) ++
        groupedParts (pieces (decimalDigits n.natAbs)))
  numberParts _ := [⟨.integer, js "1"⟩, ⟨.decimal, [POINT]⟩, ⟨.fraction, js "1"⟩]

theorem digitsValue_decimalDigits (n : Nat) :
    digitsValue (decimalDigits n) = n ∧ ∀ u ∈ decimalDigits n, isDigit u = true := by
  have hdigit : ∀ d < 10, isDigit (UInt16.ofNat (48 + d)) = true ∧
      digitsValue [UInt16.ofNat (48 + d)] = d := by
    decide
  have hvalue : ∀ digits : List Nat, (∀ d ∈ digits, d < 10) →
      digitsValue (digits.reverse.map fun d => UInt16.ofNat (48 + d)) = Nat.ofDigits 10 digits := by
    intro digits
    induction digits with
    | nil => exact fun _ => rfl
    | cons d digits ih =>
      intro h
      obtain ⟨hd, hdigits⟩ := List.forall_mem_cons.1 h
      rw [List.reverse_cons, List.map_append, List.map_singleton, digitsValue_append, ih hdigits,
        (hdigit d hd).2, Nat.ofDigits_cons, List.length_singleton]
      ring
  rw [decimalDigits]
  by_cases hn : n = 0
  · rw [if_pos hn, hn]
    exact ⟨rfl, List.forall_mem_singleton.2 (by decide)⟩
  · have hlt : ∀ d ∈ Nat.digits 10 n, d < 10 := fun d hd => Nat.digits_lt_base (by norm_num) hd
    rw [if_neg hn, hvalue _ hlt, Nat.ofDigits_digits]
    refine ⟨rfl, fun u hu => ?_⟩
    obtain ⟨d, hd, rfl⟩ := List.mem_map.1 hu
    exact (hdigit d (hlt d (List.mem_reverse.1 hd))).1

/-- Grouping neither loses nor moves a digit. -/
theorem flatten_pieces (s : JsStr) : (pieces s).flatten = s := by
  induction s using pieces.induct with
  | case1 => rfl
  | case2 u => rfl
  | case3 u v rest hends ih =>
    rw [pieces, if_pos hends, List.flatten_cons, ih]
    rfl
  | case4 u v rest hends ih =>
    rw [pieces, if_neg hends]
    cases hpieces : pieces (v :: rest) with
    | nil =>
      rw [hpieces] at ih
      cases ih
    | cons piece others =>
      rw [hpieces] at ih
      rw [List.modifyHead_cons, List.flatten_cons, List.cons_append, ← List.flatten_cons, ih]

/-- The parts of grouped digits are their groups and commas. -/
theorem groupedParts_spec (groups : List JsStr) :
    ((groupedParts groups).filter fun part => part.type == .integer).flatMap Part.value =
        groups.flatten ∧
      ∀ part ∈ groupedParts groups, (part.type = .integer ∧ part.value ∈ groups) ∨
        part = ⟨.group, [COMMA]⟩ := by
  induction groups using groupedParts.induct with
  | case1 => exact ⟨rfl, by simp [groupedParts]⟩
  | case2 s => exact ⟨by simp [groupedParts], by simp [groupedParts]⟩
  | case3 s t rest ih =>
    obtain ⟨hflat, hmem⟩ := ih
    rw [groupedParts]
    constructor
    · rw [List.filter_cons_of_pos (by rfl), List.filter_cons_of_neg (by decide), List.flatMap_cons,
        hflat]
      rfl
    · intro part hpart
      rw [List.mem_cons, List.mem_cons] at hpart
      rcases hpart with rfl | rfl | hpart
      · exact .inl ⟨rfl, List.mem_cons_self⟩
      · exact .inr rfl
      · exact (hmem part hpart).imp (fun h => ⟨h.1, List.mem_cons_of_mem _ h.2⟩) id

theorem layout_indian : Layout indian indianSymbol where
  signless currency hcurrency := by
    rw [indianSymbol]
    by_cases hinr : currency = js "INR"
    · rw [if_pos hinr]
      rfl
    · rw [if_neg hinr]
      rw [test, fullMatch_iff, CURRENCY_CODE_PATTERN, matches_chars] at hcurrency
      cases hcurrency with
      | cons hu _ =>
        show (_ != MINUS) = true
        rw [bne_iff_ne]
        rintro rfl
        exact absurd hu (by decide)
  parts currency n _ := by
    obtain ⟨hvalue, hdigits⟩ := digitsValue_decimalDigits n.natAbs
    obtain ⟨hflat, hmem⟩ := groupedParts_spec (pieces (decimalDigits n.natAbs))
    rw [flatten_pieces] at hflat
    refine ⟨_, _, rfl, ?_, ?_, ?_, ?_⟩
    · intro part hpart
      split_ifs at hpart
      · cases hpart
      · rw [List.mem_singleton.1 hpart]
        exact ⟨rfl, List.forall_mem_singleton.2 (by decide)⟩
    · intro hnil
      rw [hnil] at hflat
      have hempty : decimalDigits n.natAbs = [] := hflat.symm
      rw [decimalDigits] at hempty
      split_ifs at hempty with hzero
      rw [List.map_eq_nil_iff, List.reverse_eq_nil_iff, Nat.digits_eq_nil_iff_eq_zero] at hempty
      exact hzero hempty
    · intro part hpart
      rcases hmem part hpart with ⟨htype, hpiece⟩ | rfl
      · refine .inl ⟨htype, fun u hu => hdigits u ?_⟩
        rw [← flatten_pieces (decimalDigits n.natAbs)]
        exact List.mem_flatten.2 ⟨part.value, hpiece, hu⟩
      · exact .inr ⟨rfl, List.forall_mem_singleton.2 (by decide)⟩
    · rw [hflat, hvalue]
  decimal := rfl

/-- `-1250.5000` rupees. -/
theorem formatMoney_exact_iff_rupees :
    formatMoney indian (js "-1250.5000") (js "INR") EN_IN = .ok (js "-₹1,250.5") ∧
    ((∃ text, formatMoney indian (js "-1250.5000") (js "INR") EN_IN = .ok text ∧
      readMoney (indianSymbol (js "INR")) text = amountValue (js "-1250.5000") ∧
      (text.head? = some MINUS ↔ amountValue (js "-1250.5000") < 0)) ↔
    ¬ (-1 < amountValue (js "-1250.5000") ∧ amountValue (js "-1250.5000") < 0)) :=
  ⟨by decide +kernel, formatMoney_exact_iff layout_indian (by decide +kernel) (by decide +kernel)⟩

/-- Minus half a rupee is shown as half a rupee. -/
theorem formatMoney_drops_minus : Layout indian indianSymbol ∧ ¬ ∀ amount currency,
    test DECIMAL_STRING_PATTERN amount = true → test CURRENCY_CODE_PATTERN currency = true →
      ∃ text, formatMoney indian amount currency EN_IN = .ok text ∧
        readMoney (indianSymbol currency) text = amountValue amount ∧
        (text.head? = some MINUS ↔ amountValue amount < 0) := by
  refine ⟨layout_indian, fun h => ?_⟩
  obtain ⟨text, hrun, -, hsign⟩ := h (js "-0.5") (js "INR") (by decide +kernel) (by decide +kernel)
  have htext : formatMoney indian (js "-0.5") (js "INR") EN_IN = .ok (js "₹0.5") := by
    decide +kernel
  have hnegative : amountValue (js "-0.5") < 0 := by
    decide +kernel
  rw [htext] at hrun
  rw [← Except.ok.inj hrun] at hsign
  exact absurd (hsign.2 hnegative) (by decide +kernel)

end Expensea.Web
