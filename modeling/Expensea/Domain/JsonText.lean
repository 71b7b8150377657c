import Expensea.Domain.DecimalText
import Expensea.Domain.IsoText
import Expensea.Lib.Binary64
import Expensea.Lib.Utf8

namespace Expensea

/-!
# JSON documents

`json.loads` of bytes: the encoding they are in, and the value their text writes.

* `decodeDetected` — `json.detect_encoding`, and decoding with `surrogatepass`;
* `scanValue` — one value at the start of a text;
* `loads` — the value of a document, or what `json.loads` raises;
* `scan_fuel` — the scanner has enough fuel.
-/

/-- A Python `float`. -/
inductive PyFloat where
  | finite (value : ℚ)
  | infinity (negative : Bool)
  | nan
  deriving DecidableEq, Repr

/-- A JSON value; the fields of an object are in the order of the document. -/
inductive Json where
  | null
  | bool (b : Bool)
  | int (n : ℤ)
  | float (x : PyFloat)
  | str (s : PyStr)
  | array (items : List Json)
  | object (fields : List (PyStr × Json))

/-- What `json.loads` raises. -/
inductive JsonError where
  /-- `UnicodeDecodeError` or `JSONDecodeError` -/
  | invalid
  /-- `ValueError`: an integer literal of more digits than `int` converts. -/
  | digits
  deriving DecidableEq, Repr

/-! ### Encodings -/

section Encodings

open Utf8 (Byte codePoint)

/-- The 16-bit units of bytes, and whether the first byte of a unit is the high one. -/
def utf16Units (big : Bool) : List Byte → Option (List Nat)
  | [] => some []
  | [_] => none
  | a :: b :: bytes => (utf16Units big bytes).map fun units =>
    (if big then a.val * 256 + b.val else b.val * 256 + a.val) :: units

/-- A high surrogate. -/
def isHigh (n : Nat) : Bool := 0xD800 ≤ n && n ≤ 0xDBFF

/-- A low surrogate. -/
def isLow (n : Nat) : Bool := 0xDC00 ≤ n && n ≤ 0xDFFF

/-- The code point of a surrogate pair. -/
def joinSurrogates (high low : Nat) : CodePoint :=
  codePoint (0x10000 + (high - 0xD800) * 0x400 + (low - 0xDC00))

/-- The code points of 16-bit units; a lone surrogate stays. -/
def joinUnits : List Nat → PyStr
  | [] => []
  | [unit] => [codePoint unit]
  | unit :: next :: units =>
    if isHigh unit && isLow next then joinSurrogates unit next :: joinUnits units
    else codePoint unit :: joinUnits (next :: units)

/-- The code points of bytes in groups of four. -/
def utf32 (big : Bool) : List Byte → Option PyStr
  | [] => some []
  | a :: b :: c :: d :: bytes =>
    let n := if big then ((a.val * 256 + b.val) * 256 + c.val) * 256 + d.val
      else ((d.val * 256 + c.val) * 256 + b.val) * 256 + a.val
    if n < 0x110000 then (utf32 big bytes).map (codePoint n :: ·) else none
  | _ => none

/-- `bytes.decode("utf-16", "surrogatepass")` in a byte order. -/
def utf16 (big : Bool) (bytes : List Byte) : Option PyStr := (utf16Units big bytes).map joinUnits

/-- `json.detect_encoding` where no byte-order mark is found: by the null bytes of the first
    characters. -/
def decodePlain (bytes : List Byte) : Option PyStr :=
  match bytes.map Fin.val with
  | a :: b :: c :: d :: _ =>
    if a = 0 then (if b = 0 then utf32 true bytes else utf16 true bytes)
    else if b = 0 then (if c = 0 ∧ d = 0 then utf32 false bytes else utf16 false bytes)
    else Utf8.decode true bytes
  | [a, b] =>
    if a = 0 then utf16 true bytes
    else if b = 0 then utf16 false bytes
    else Utf8.decode true bytes
  | _ => Utf8.decode true bytes

/-- `content.decode(json.detect_encoding(content), "surrogatepass")` -/
def decodeDetected (bytes : List Byte) : Option PyStr :=
  let marks := bytes.map Fin.val
  if [0x00, 0x00, 0xFE, 0xFF].isPrefixOf marks then utf32 true (bytes.drop 4)
  else if [0xFF, 0xFE, 0x00, 0x00].isPrefixOf marks then utf32 false (bytes.drop 4)
  else if [0xFE, 0xFF].isPrefixOf marks then utf16 true (bytes.drop 2)
  else if [0xFF, 0xFE].isPrefixOf marks then utf16 false (bytes.drop 2)
  else if [0xEF, 0xBB, 0xBF].isPrefixOf marks then Utf8.decode true (bytes.drop 3)
  else decodePlain bytes

end Encodings

/-! ### Strings -/

/-- White space of JSON. -/
def isJsonSpace (c : CodePoint) : Bool := c == 0x20 || c == 0x09 || c == 0x0A || c == 0x0D

/-- The text after white space. -/
def skipSpace (s : PyStr) : PyStr := s.dropWhile isJsonSpace

/-- The value of a hexadecimal digit, in either case. -/
def hexDigitValue (c : CodePoint) : Option Nat :=
  if 0x30 ≤ c.val ∧ c.val ≤ 0x39 then some (c.val - 0x30)
  else if 0x61 ≤ c.val ∧ c.val ≤ 0x66 then some (c.val - 0x57)
  else if 0x41 ≤ c.val ∧ c.val ≤ 0x46 then some (c.val - 0x37)
  else none

/-- Four hexadecimal digits. -/
def hex4 : PyStr → Option (Nat × PyStr)
  | a :: b :: c :: d :: s => do
    let a ← hexDigitValue a
    let b ← hexDigitValue b
    let c ← hexDigitValue c
    let d ← hexDigitValue d
    some (((a * 16 + b) * 16 + c) * 16 + d, s)
  | _ => none

/-- The escaped characters that are one letter long, and what they stand for. -/
def ESCAPES : List (CodePoint × CodePoint) :=
  [(0x22, 0x22), (0x5C, 0x5C), (0x2F, 0x2F), (0x62, 0x08), (0x66, 0x0C), (0x6E, 0x0A), (0x72, 0x0D),
    (0x74, 0x09)]

/-- What follows a backslash: surrogates that are escaped one after the other are joined. -/
def scanEscape (s : PyStr) : Option (CodePoint × PyStr) :=
  match expect 0x75 s with
  | some digits => do
    let (unit, rest) ← hex4 digits
    if isHigh unit then
      match (expect 0x5C rest).bind (expect 0x75) with
      | none => some (Utf8.codePoint unit, rest)
      | some more => do
        let (next, after) ← hex4 more
        if isLow next then some (joinSurrogates unit next, after)
        else some (Utf8.codePoint unit, rest)
    else some (Utf8.codePoint unit, rest)
  | none =>
    match s with
    | [] => none
    | c :: rest => (ESCAPES.find? fun e => e.1 == c).map fun e => (e.2, rest)

/-- The rest of a string, after its opening quote. -/
def scanString : Nat → PyStr → Except JsonError (PyStr × PyStr)
  | 0, _ => .error .invalid
  | _ + 1, [] => .error .invalid
  | fuel + 1, c :: s =>
    if c = 0x22 then .ok ([], s)
    else if c.val < 0x20 then .error .invalid
    else if c = 0x5C then
      match scanEscape s with
      | none => .error .invalid
      | some (d, rest) => (scanString fuel rest).map fun r => (d :: r.1, r.2)
    else (scanString fuel s).map fun r => (c :: r.1, r.2)

/-! ### Numbers -/

/-- `sys.int_info.default_max_str_digits` -/
def MAX_STR_DIGITS : Nat := 4300

/-- `float(text)` of a decimal literal. -/
def decimalFloat (negative : Bool) (coefficient : Nat) (exponent : ℤ) : PyFloat :=
  let sign : ℚ := if negative then -1 else 1
  if coefficient = 0 then .finite 0
  else if 400 < exponent + Nat.log 10 coefficient then .infinity negative
  else if exponent + Nat.log 10 coefficient < -400 then .finite 0
  else if Binary64.overflows (sign * coefficient * 10 ^ exponent) then .infinity negative
  else .finite (Binary64.nearest (sign * coefficient * 10 ^ exponent))

/-- The digits before the fraction: a zero alone, or digits that do not start with one. -/
def scanWhole : PyStr → Option (List (Fin 10) × PyStr)
  | [] => none
  | c :: s =>
    match asciiDigit c with
    | none => none
    | some d => if d.val = 0 then some ([d], s) else some (takeDigits .plain (c :: s))

/-- A fraction, if there is one. -/
def scanFraction (s : PyStr) : List (Fin 10) × PyStr :=
  match expect 0x2E s with
  | none => ([], s)
  | some digits =>
    match takeDigits .plain digits with
    | ([], _) => ([], s)
    | found => found

/-- An exponent, if there is one. -/
def scanExponent (s : PyStr) : Option (ℤ × PyStr) :=
  match s with
  | [] => none
  | c :: rest =>
    if asciiLower c = 0x65 then
      let (negative, digits) := takeSign rest
      match takeDigits .plain digits with
      | ([], _) => none
      | (ds, after) => some (if negative then -(digitsValue ds : ℤ) else digitsValue ds, after)
    else none

/-- A number. -/
def scanNumber (s : PyStr) : Except JsonError (Json × PyStr) :=
  let negative := (expect 0x2D s).isSome
  match scanWhole ((expect 0x2D s).getD s) with
  | none => .error .invalid
  | some (whole, afterWhole) =>
    let (fraction, afterFraction) := scanFraction afterWhole
    match scanExponent afterFraction with
    | some (exponent, rest) => .ok (.float (decimalFloat negative (digitsValue (whole ++ fraction))
        (exponent - fraction.length)), rest)
    | none =>
      if fraction ≠ [] then
        .ok (.float (decimalFloat negative (digitsValue (whole ++ fraction)) (-fraction.length)),
          afterFraction)
      else if MAX_STR_DIGITS < whole.length then .error .digits
      else .ok (.int (if negative then -(digitsValue whole : ℤ) else digitsValue whole), afterFraction)

/-! ### Values -/

/-- The names of values. -/
def LITERALS : List (PyStr × Json) :=
  [(py "null", .null), (py "true", .bool true), (py "false", .bool false), (py "NaN", .float .nan),
    (py "Infinity", .float (.infinity false)), (py "-Infinity", .float (.infinity true))]

/-- A named value or a number. -/
def scanScalar (s : PyStr) : Except JsonError (Json × PyStr) :=
  match LITERALS.find? fun l => l.1.isPrefixOf s with
  | some l => .ok (l.2, s.drop l.1.length)
  | none => scanNumber s

mutual

/-- A value at the start of a text. -/
def scanValue : Nat → PyStr → Except JsonError (Json × PyStr)
  | 0, _ => .error .invalid
  | fuel + 1, s =>
    match expect 0x22 s with
    | some text => (scanString text.length text).map fun r => (.str r.1, r.2)
    | none =>
      match expect 0x7B s with
      | some inside =>
        match expect 0x7D (skipSpace inside) with
        | some rest => .ok (.object [], rest)
        | none => (scanFields fuel (skipSpace inside)).map fun r => (.object r.1, r.2)
      | none =>
        match expect 0x5B s with
        | some inside =>
          match expect 0x5D (skipSpace inside) with
          | some rest => .ok (.array [], rest)
          | none => (scanItems fuel (skipSpace inside)).map fun r => (.array r.1, r.2)
        | none => scanScalar s

/-- The items of an array up to its closing bracket. -/
def scanItems : Nat → PyStr → Except JsonError (List Json × PyStr)
  | 0, _ => .error .invalid
  | fuel + 1, s =>
    match scanValue fuel s with
    | .error e => .error e
    | .ok (item, rest) =>
      match expect 0x5D (skipSpace rest) with
      | some after => .ok ([item], after)
      | none =>
        match expect 0x2C (skipSpace rest) with
        | none => .error .invalid
        | some more => (scanItems fuel (skipSpace more)).map fun r => (item :: r.1, r.2)

/-- The fields of an object up to its closing brace. -/
def scanFields : Nat → PyStr → Except JsonError (List (PyStr × Json) × PyStr)
  | 0, _ => .error .invalid
  | fuel + 1, s =>
    match expect 0x22 s with
    | none => .error .invalid
    | some text =>
      match scanString text.length text with
      | .error e => .error e
      | .ok (key, afterKey) =>
        match expect 0x3A (skipSpace afterKey) with
        | none => .error .invalid
        | some beforeValue =>
          match scanValue fuel (skipSpace beforeValue) with
          | .error e => .error e
          | .ok (value, rest) =>
            match expect 0x7D (skipSpace rest) with
            | some after => .ok ([(key, value)], after)
            | none =>
              match expect 0x2C (skipSpace rest) with
              | none => .error .invalid
              | some more => (scanFields fuel (skipSpace more)).map fun r => ((key, value) :: r.1, r.2)

end

/-- The value a text writes. -/
def loadsText (s : PyStr) : Except JsonError Json :=
  match scanValue (2 * s.length + 1) (skipSpace s) with
  | .error e => .error e
  | .ok (value, rest) => if skipSpace rest = [] then .ok value else .error .invalid

/-- `json.loads(content)` of bytes. -/
def loads (content : List Utf8.Byte) : Except JsonError Json :=
  match decodeDetected content with
  | none => .error .invalid
  | some text => loadsText text

/-- `document.get(key)` of an object: the last field of that name. -/
def getField (fields : List (PyStr × Json)) (key : String) : Option Json :=
  (fields.reverse.find? fun f => f.1 == py key).map Prod.snd

/-! ### The scanner ends -/

/-- The rest of the text is handed on. -/
theorem scanned_of_map {α β : Type} {x : Except JsonError (α × PyStr)} {f : α × PyStr → β} {v : β}
    {rest : PyStr} (h : x.map (fun r => (f r, r.2)) = .ok (v, rest)) : ∃ a, x = .ok (a, rest) := by
  cases x with
  | error e => cases h
  | ok found =>
    cases h
    exact ⟨found.1, rfl⟩

theorem expect_length {c : CodePoint} {s rest : PyStr} (h : expect c s = some rest) :
    rest.length < s.length := by
  cases s with
  | nil => cases h
  | cons d s =>
    rw [expect] at h
    split at h
    · cases h
      exact Nat.lt_succ_self _
    · cases h

theorem skipSpace_length (s : PyStr) : (skipSpace s).length ≤ s.length :=
  (List.dropWhile_sublist _).length_le

theorem hex4_length {s rest : PyStr} {n : Nat} (h : hex4 s = some (n, rest)) :
    rest.length < s.length := by
  match s, h with
  | a :: b :: c :: d :: s, h =>
    rw [hex4] at h
    obtain ⟨_, -, h⟩ := Option.bind_eq_some_iff.1 h
    obtain ⟨_, -, h⟩ := Option.bind_eq_some_iff.1 h
    obtain ⟨_, -, h⟩ := Option.bind_eq_some_iff.1 h
    obtain ⟨_, -, h⟩ := Option.bind_eq_some_iff.1 h
    cases h
    simp only [List.length_cons]
    omega

theorem scanEscape_length {s rest : PyStr} {c : CodePoint} (h : scanEscape s = some (c, rest)) :
    rest.length < s.length := by
  unfold scanEscape at h
  cases hu : expect 0x75 s with
  | none =>
    rw [hu] at h
    cases s with
    | nil => cases h
    | cons d s =>
      obtain ⟨_, -, hpair⟩ := Option.map_eq_some_iff.1 h
      cases hpair
      exact Nat.lt_succ_self _
  | some digits =>
    have hdigits := expect_length hu
    rw [hu] at h
    obtain ⟨⟨unit, afterUnit⟩, hunit, h⟩ := Option.bind_eq_some_iff.1 h
    have hrest := hex4_length hunit
    dsimp only at h
    split at h
    · split at h
      · rw [← (Prod.mk.inj (Option.some.inj h)).2]
        omega
      · -- a second escape follows
        rename_i more hmore
        obtain ⟨afterSlash, hslash, hmore⟩ := Option.bind_eq_some_iff.1 hmore
        have h₁ := expect_length hslash
        have h₂ := expect_length hmore
        obtain ⟨⟨next, after⟩, hnext, h⟩ := Option.bind_eq_some_iff.1 h
        have h₃ := hex4_length hnext
        dsimp only at h
        split at h
        · rw [← (Prod.mk.inj (Option.some.inj h)).2]
          omega
        · rw [← (Prod.mk.inj (Option.some.inj h)).2]
          omega
    · rw [← (Prod.mk.inj (Option.some.inj h)).2]
      omega

theorem scanString_length {fuel : Nat} {s rest text : PyStr}
    (h : scanString fuel s = .ok (text, rest)) : rest.length < s.length := by
  induction fuel generalizing s text with
  | zero => cases h
  | succ fuel ih =>
    cases s with
    | nil => cases h
    | cons c s =>
      rw [scanString] at h
      rw [List.length_cons]
      split at h
      · cases h
        exact Nat.lt_succ_self _
      split at h
      · cases h
      split at h
      · split at h
        · cases h
        · rename_i d afterEscape hescape
          obtain ⟨more, hmore⟩ := scanned_of_map h
          have h₁ := scanEscape_length hescape
          have h₂ := ih hmore
          omega
      · obtain ⟨more, hmore⟩ := scanned_of_map h
        have h₁ := ih hmore
        omega

/-- More fuel than characters changes nothing. -/
theorem scanString_fuel {f₁ f₂ : Nat} {s : PyStr} (h₁ : s.length ≤ f₁) (h₂ : s.length ≤ f₂) :
    scanString f₁ s = scanString f₂ s := by
  induction f₁ generalizing f₂ s with
  | zero =>
    obtain rfl := List.length_eq_zero_iff.1 (Nat.le_zero.1 h₁)
    cases f₂ with
    | zero => rfl
    | succ f₂ => rfl
  | succ f₁ ih =>
    cases s with
    | nil =>
      cases f₂ with
      | zero => rfl
      | succ f₂ => rfl
    | cons c s =>
      rw [List.length_cons] at h₁ h₂
      obtain ⟨f₂, rfl⟩ : ∃ f, f₂ = f + 1 := ⟨f₂ - 1, by omega⟩
      rw [scanString, scanString, ih (by omega) (by omega : s.length ≤ f₂)]
      cases hescape : scanEscape s with
      | none => rfl
      | some found =>
        obtain ⟨d, rest⟩ := found
        have hrest := scanEscape_length hescape
        dsimp only
        rw [ih (by omega) (by omega : rest.length ≤ f₂)]

theorem takeDigits_length (s : PyStr) : (takeDigits .plain s).2.length ≤ s.length := by
  induction s with
  | nil => exact Nat.le_refl _
  | cons c s ih =>
    rw [takeDigits]
    split
    · exact Nat.le_succ_of_le ih
    · exact Nat.le_refl _

theorem scanWhole_length {s rest : PyStr} {ds : List (Fin 10)} (h : scanWhole s = some (ds, rest)) :
    rest.length < s.length := by
  cases s with
  | nil => cases h
  | cons c s =>
    rw [scanWhole] at h
    cases hdigit : asciiDigit c with
    | none =>
      rw [hdigit] at h
      cases h
    | some d =>
      rw [hdigit] at h
      dsimp only at h
      split at h
      · cases h
        exact Nat.lt_succ_self _
      · have hmore : takeDigits .plain (c :: s) =
            (d :: (takeDigits .plain s).1, (takeDigits .plain s).2) := by
          rw [takeDigits, show Unicode.plain.digit c = some d from hdigit]
        rw [hmore] at h
        cases h
        exact Nat.lt_succ_of_le (takeDigits_length s)

theorem scanFraction_length (s : PyStr) : (scanFraction s).2.length ≤ s.length := by
  rw [scanFraction]
  cases hpoint : expect 0x2E s with
  | none => exact Nat.le_refl _
  | some digits =>
    have h₁ := expect_length hpoint
    have h₂ := takeDigits_length digits
    dsimp only
    split
    · exact Nat.le_refl _
    · omega

theorem takeSign_length (s : PyStr) : (takeSign s).2.length ≤ s.length := by
  unfold takeSign
  split
  · exact Nat.le_succ _
  · exact Nat.le_succ _
  · exact Nat.le_refl _

theorem scanExponent_length {s rest : PyStr} {n : ℤ} (h : scanExponent s = some (n, rest)) :
    rest.length ≤ s.length := by
  cases s with
  | nil => cases h
  | cons c s =>
    rw [scanExponent] at h
    split at h
    · have h₁ := takeSign_length s
      have h₂ := takeDigits_length (takeSign s).2
      dsimp only at h
      split at h
      · cases h
      · rename_i found hfound
        cases h
        rw [hfound] at h₂
        rw [List.length_cons]
        dsimp only at h₂
        omega
    · cases h

theorem scanNumber_length {s rest : PyStr} {v : Json} (h : scanNumber s = .ok (v, rest)) :
    rest.length < s.length := by
  have hsign : ((expect 0x2D s).getD s).length ≤ s.length := by
    cases hminus : expect 0x2D s with
    | none => exact Nat.le_refl _
    | some after => exact Nat.le_of_lt (expect_length hminus)
  rw [scanNumber] at h
  dsimp only at h
  split at h
  · cases h
  · rename_i whole afterWhole hwhole
    have h₁ := scanWhole_length hwhole
    have h₂ := scanFraction_length afterWhole
    split at h
    · rename_i exponent afterExponent hexponent
      have h₃ := scanExponent_length hexponent
      cases h
      omega
    · split at h
      · cases h
        omega
      · split at h
        · cases h
        · cases h
          omega

theorem scanScalar_length {s rest : PyStr} {v : Json} (h : scanScalar s = .ok (v, rest)) :
    rest.length < s.length := by
  have hname : ∀ l ∈ LITERALS, 0 < l.1.length := by
    intro l hl
    simp only [LITERALS, List.mem_cons, List.not_mem_nil, or_false] at hl
    rcases hl with rfl | rfl | rfl | rfl | rfl | rfl <;> decide
  rw [scanScalar] at h
  split at h
  · rename_i l hfound
    cases h
    have hpos := hname l (List.mem_of_find?_eq_some hfound)
    have hprefix : l.1 <+: s := by
      have hfind := List.find?_some hfound
      exact List.isPrefixOf_iff_prefix.1 hfind
    have hle := hprefix.length_le
    rw [List.length_drop]
    omega
  · exact scanNumber_length h

/-- A scanned value is followed by less text. -/
theorem scan_length (fuel : Nat) :
    (∀ {s rest : PyStr} {v : Json}, scanValue fuel s = .ok (v, rest) → rest.length < s.length) ∧
      (∀ {s rest : PyStr} {items : List Json}, scanItems fuel s = .ok (items, rest) →
        rest.length < s.length) ∧
      ∀ {s rest : PyStr} {fields : List (PyStr × Json)}, scanFields fuel s = .ok (fields, rest) →
        rest.length < s.length := by
  induction fuel with
  | zero =>
    refine ⟨fun h => ?_, fun h => ?_, fun h => ?_⟩
    · cases h
    · cases h
    · cases h
  | succ fuel ih =>
    obtain ⟨hvalue, hitems, hfields⟩ := ih
    refine ⟨@fun s rest v h => ?_, @fun s rest items h => ?_, @fun s rest fields h => ?_⟩
    · rw [scanValue] at h
      split at h
      · rename_i text hquote
        obtain ⟨found, hstring⟩ := scanned_of_map h
        have h₁ := expect_length hquote
        have h₂ := scanString_length hstring
        omega
      split at h
      · rename_i inside hbrace
        have h₁ := expect_length hbrace
        have h₂ := skipSpace_length inside
        split at h
        · rename_i after hclose
          have h₃ := expect_length hclose
          cases h
          omega
        · obtain ⟨found, hscanned⟩ := scanned_of_map h
          have h₃ := hfields hscanned
          omega
      split at h
      · rename_i inside hbracket
        have h₁ := expect_length hbracket
        have h₂ := skipSpace_length inside
        split at h
        · rename_i after hclose
          have h₃ := expect_length hclose
          cases h
          omega
        · obtain ⟨found, hscanned⟩ := scanned_of_map h
          have h₃ := hitems hscanned
          omega
      · exact scanScalar_length h
    · rw [scanItems] at h
      split at h
      · cases h
      · rename_i item afterItem hitem
        have h₁ := hvalue hitem
        have h₂ := skipSpace_length afterItem
        split at h
        · rename_i after hclose
          have h₃ := expect_length hclose
          cases h
          omega
        · split at h
          · cases h
          · rename_i more hcomma
            have h₃ := expect_length hcomma
            have h₄ := skipSpace_length more
            obtain ⟨found, hscanned⟩ := scanned_of_map h
            have h₅ := hitems hscanned
            omega
    · rw [scanFields] at h
      split at h
      · cases h
      · rename_i text hquote
        have h₁ := expect_length hquote
        split at h
        · cases h
        · rename_i key afterKey hkey
          have h₂ := scanString_length hkey
          have h₃ := skipSpace_length afterKey
          split at h
          · cases h
          · rename_i beforeValue hcolon
            have h₄ := expect_length hcolon
            have h₅ := skipSpace_length beforeValue
            split at h
            · cases h
            · rename_i value afterValue hscannedValue
              have h₆ := hvalue hscannedValue
              have h₇ := skipSpace_length afterValue
              split at h
              · rename_i after hclose
                have h₈ := expect_length hclose
                cases h
                omega
              · split at h
                · cases h
                · rename_i more hcomma
                  have h₈ := expect_length hcomma
                  have h₉ := skipSpace_length more
                  obtain ⟨found, hscanned⟩ := scanned_of_map h
                  have h₁₀ := hfields hscanned
                  omega

/-- **The scanner has enough fuel:** twice the length of the text is as good as any more. -/
theorem scan_fuel (f₁ : Nat) :
    (∀ f₂ s, 2 * s.length < f₁ → 2 * s.length < f₂ → scanValue f₁ s = scanValue f₂ s) ∧
      (∀ f₂ s, 2 * s.length + 1 < f₁ → 2 * s.length + 1 < f₂ → scanItems f₁ s = scanItems f₂ s) ∧
      ∀ f₂ s, 2 * s.length + 1 < f₁ → 2 * s.length + 1 < f₂ → scanFields f₁ s = scanFields f₂ s := by
  induction f₁ with
  | zero =>
    refine ⟨fun f₂ s h => ?_, fun f₂ s h => ?_, fun f₂ s h => ?_⟩
    · omega
    · omega
    · omega
  | succ f₁ ih =>
    obtain ⟨hvalue, hitems, hfields⟩ := ih
    refine ⟨fun f₂ s h₁ h₂ => ?_, fun f₂ s h₁ h₂ => ?_, fun f₂ s h₁ h₂ => ?_⟩
    · obtain ⟨f₂, rfl⟩ : ∃ f, f₂ = f + 1 := ⟨f₂ - 1, by omega⟩
      rw [scanValue, scanValue]
      split
      · rfl
      split
      · rename_i inside hbrace
        have hlength := expect_length hbrace
        have hspace := skipSpace_length inside
        rw [hfields f₂ (skipSpace inside) (by omega) (by omega)]
      split
      · rename_i inside hbracket
        have hlength := expect_length hbracket
        have hspace := skipSpace_length inside
        rw [hitems f₂ (skipSpace inside) (by omega) (by omega)]
      · rfl
    · obtain ⟨f₂, rfl⟩ : ∃ f, f₂ = f + 1 := ⟨f₂ - 1, by omega⟩
      rw [scanItems, scanItems, hvalue f₂ s (by omega) (by omega)]
      split
      · rfl
      · rename_i item afterItem hitem
        have hlength := (scan_length f₂).1 hitem
        have hspace := skipSpace_length afterItem
        split
        · rfl
        · split
          · rfl
          · rename_i more hcomma
            have hcommaLength := expect_length hcomma
            have hmore := skipSpace_length more
            rw [hitems f₂ (skipSpace more) (by omega) (by omega)]
    · obtain ⟨f₂, rfl⟩ : ∃ f, f₂ = f + 1 := ⟨f₂ - 1, by omega⟩
      rw [scanFields, scanFields]
      split
      · rfl
      · rename_i text hquote
        have htext := expect_length hquote
        split
        · rfl
        · rename_i key afterKey hkey
          have hafterKey := scanString_length hkey
          have hspace := skipSpace_length afterKey
          split
          · rfl
          · rename_i beforeValue hcolon
            have hbefore := expect_length hcolon
            have hspace' := skipSpace_length beforeValue
            rw [hvalue f₂ (skipSpace beforeValue) (by omega) (by omega)]
            split
            · rfl
            · rename_i value afterValue hscanned
              have hafter := (scan_length f₂).1 hscanned
              have hspace'' := skipSpace_length afterValue
              split
              · rfl
              · split
                · rfl
                · rename_i more hcomma
                  have hcommaLength := expect_length hcomma
                  have hmore := skipSpace_length more
                  rw [hfields f₂ (skipSpace more) (by omega) (by omega)]

/-- The value of a text, with any fuel that is enough. -/
theorem loadsText_fuel {s : PyStr} {fuel : Nat} (h : 2 * s.length < fuel) :
    scanValue fuel (skipSpace s) = scanValue (2 * s.length + 1) (skipSpace s) := by
  have hspace := skipSpace_length s
  exact (scan_fuel fuel).1 _ _ (by omega) (by omega)

end Expensea
