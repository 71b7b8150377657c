import Expensea.Domain.Money
import Expensea.Domain.Text

namespace Expensea

/-!
# Decimals as text

`Decimal(text)` and `format(value, "f")`, on which amounts travel between services.

* `decimalOfText` — the numeric strings of `decimal`;
* `formatF` — a stored amount in plain notation.
-/

section Parse

variable (U : Unicode)

/-- The leading digits and what follows them. -/
def takeDigits : PyStr → List (Fin 10) × PyStr
  | [] => ([], [])
  | c :: s =>
    match U.digit c with
    | some d =>
      let (ds, rest) := takeDigits s
      (d :: ds, rest)
    | none => ([], c :: s)

/-- The number a list of digits writes. -/
def digitsValue (ds : List (Fin 10)) : Nat := ds.foldl (fun n d => 10 * n + d.val) 0

/-- ASCII lower case, as the `IGNORECASE` flag compares. -/
def asciiLower (c : CodePoint) : CodePoint := if 0x41 ≤ c ∧ c ≤ 0x5A then c + 0x20 else c

/-- An optional sign: whether it is `-`, and the rest. -/
def takeSign : PyStr → Bool × PyStr
  | 0x2B :: s => (false, s)
  | 0x2D :: s => (true, s)
  | s => (false, s)

/-- The exponent part `E[+-]digits`, or nothing; `none` where neither ends the text. -/
def exponentOfText : PyStr → Option ℤ
  | [] => some 0
  | c :: s =>
    if asciiLower c = 0x65 then
      let (negative, s) := takeSign s
      let (ds, rest) := takeDigits U s
      if ds = [] ∨ rest ≠ [] then none
      else some (if negative then -(digitsValue ds : ℤ) else digitsValue ds)
    else none

/-- The largest exponent a `Decimal` can have. -/
def MAX_EMAX : ℤ := 999999999999999999

/-- Digits, an optional fraction and an optional exponent. -/
def numberOfText (negative : Bool) (s : PyStr) : Option Decimal :=
  let (whole, s) := takeDigits U s
  let (fraction, s) := match s with
    | 0x2E :: s => takeDigits U s
    | s => ([], s)
  if whole ++ fraction = [] then none
  else do
    let exponent ← exponentOfText U s
    let coefficient := digitsValue (whole ++ fraction)
    let scaled := exponent - fraction.length
    if coefficient = 0 then some (.finite 0)
    else if MAX_EMAX < scaled + Nat.log 10 coefficient ∨ scaled < -2 * MAX_EMAX + 1 then none
    else some (.finite ((if negative then -1 else 1) * coefficient * 10 ^ scaled))

/-- `Decimal(text)`; `none` is `InvalidOperation`. -/
def decimalOfText (text : PyStr) : Option Decimal :=
  let (negative, s) := takeSign ((strip text).filter (· != 0x5F))
  let lower := s.map asciiLower
  if lower = py "inf" ∨ lower = py "infinity" then some (.infinity negative)
  else if (takeDigits U (lower.drop 3)).2 = [] ∧ lower.take 3 = py "nan" then some .nan
  else if (takeDigits U (lower.drop 4)).2 = [] ∧ lower.take 4 = py "snan" then some .nan
  else numberOfText U negative s

end Parse

/-- The decimal digits of a number. -/
def natText (n : Nat) : PyStr := (Nat.toDigits 10 n).map fun c => Fin.ofNat _ c.toNat

/-- `format(value, "f")` of a stored amount: four fractional digits. -/
def formatF (m : Money) : PyStr :=
  (if m.units < 0 then py "-" else []) ++ natText (m.units.natAbs / 10000) ++ py "." ++
    (natText (10000 + m.units.natAbs % 10000)).drop 1

example : decimalOfText .plain (py "12.50") = some (.finite (25 / 2)) := by decide +kernel

example : formatF ⟨125000, by norm_num⟩ = py "12.5000" := by decide +kernel

end Expensea
