import Mathlib.Data.List.Infix
import Mathlib.Data.Fin.Basic
import Mathlib.Tactic.Common

namespace Expensea

/-!
# Text

A Python `str` is a sequence of code points, lone surrogates included, so it is
modelled as a list of code points rather than as a Lean `String` (whose characters
exclude surrogates).  The Unicode tables behind `unicodedata.normalize`,
`str.casefold`, `str.upper` and `str.title` are a parameter, `Unicode`; what the
code relies on about them is `Unicode.Lawful` of `Domain.Normalization`.

* `normalizeDisplayText`, `normalizeLookupText` — `app/domain/normalization.py`;
* `utf8Size` — the length of `text.encode("utf-8")`, which fails on surrogates.
-/

/-- A Unicode code point, surrogates included. -/
abbrev CodePoint := Fin 0x110000

instance codePointNeZero : @NeZero Nat Zero.ofOfNat0 0x110000 := Nat.instNeZeroSucc

/-- A Python `str`. -/
abbrev PyStr := List CodePoint

/-- The text of a literal. -/
def py (s : String) : PyStr := s.toList.map fun c => Fin.ofNat _ c.toNat

/-- Unicode tables of the standard library. -/
structure Unicode where
  /-- `unicodedata.normalize("NFKC", _)` -/
  nfkc : PyStr → PyStr
  /-- `str.casefold` -/
  casefold : PyStr → PyStr
  /-- `str.upper` -/
  upper : PyStr → PyStr
  /-- `str.title` -/
  title : PyStr → PyStr
  /-- The value of a decimal digit (`\d`), as `int` and `Decimal` read it. -/
  digit : CodePoint → Option (Fin 10)

/-- The digits `0` to `9`. -/
def asciiDigit (c : CodePoint) : Option (Fin 10) :=
  if 0x30 ≤ c ∧ c ≤ 0x39 then some (Fin.ofNat 10 (c.val - 0x30)) else none

/-- Tables that leave text alone: what the real ones do on lower-case ASCII letters. -/
def Unicode.plain : Unicode := ⟨id, id, id, id, asciiDigit⟩

/-- The characters `str.split()` and `str.strip()` treat as white space. -/
def isSpace (c : CodePoint) : Bool :=
  (0x09 ≤ c && c ≤ 0x0D) || (0x1C ≤ c && c ≤ 0x20) || c == 0x85 || c == 0xA0 || c == 0x1680 ||
    (0x2000 ≤ c && c ≤ 0x200A) || c == 0x2028 || c == 0x2029 || c == 0x202F || c == 0x205F ||
    c == 0x3000

/-- The space character U+0020. -/
def space : CodePoint := 0x20

/-- `text.split()`: the maximal runs without white space. -/
def split (s : PyStr) : List PyStr := (s.splitOnP isSpace).filter (· ≠ [])

/-- `" ".join(words)` -/
def joinSpace (words : List PyStr) : PyStr := [space].intercalate words

/-- `text.strip()` -/
def strip (s : PyStr) : PyStr :=
  ((s.dropWhile isSpace).reverse.dropWhile isSpace).reverse

/-- `pattern in text` -/
def contains (pattern text : PyStr) : Bool := text.tails.any fun t => pattern.isPrefixOf t

section Normalization

variable (U : Unicode)

/-- Normalize Unicode and collapse surrounding and repeated white space. -/
def normalizeDisplayText (value : PyStr) : PyStr := joinSpace (split (U.nfkc value))

/-- A case-insensitive lookup key from display text. -/
def normalizeLookupText (value : PyStr) : PyStr := U.casefold (normalizeDisplayText U value)

end Normalization

/-! ### UTF-8 -/

/-- A surrogate code point: it has no UTF-8 form. -/
def isSurrogate (c : CodePoint) : Bool := 0xD800 ≤ c && c ≤ 0xDFFF

/-- Bytes of one code point in UTF-8. -/
def utf8Width (c : CodePoint) : Nat :=
  if c < 0x80 then 1 else if c < 0x800 then 2 else if c < 0x10000 then 3 else 4

/-- `len(text.encode("utf-8"))`, or `none` where `encode` raises. -/
def utf8Size (s : PyStr) : Option Nat :=
  if s.any isSurrogate then none else some (s.foldr (fun c n => utf8Width c + n) 0)

example : normalizeDisplayText .plain (py "  a\t b ") = py "a b" := by decide

end Expensea
