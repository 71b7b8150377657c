import Mathlib.Data.List.Basic
import Mathlib.Tactic.Common

/-!
# UTF-8

Code points and their bytes, with the surrogates refused or passed through.

* `Utf8.encode` — the bytes of code points, surrogates in three bytes like their neighbours;
* `Utf8.decode` — the code points of bytes, one byte at a time;
* `Utf8.decode_encode` — what was encoded is decoded;
* `Utf8.decode_scalar` — what is decoded strictly has no surrogate.
-/

namespace Utf8

/-- A byte. -/
abbrev Byte := Fin 256

theorem bytes_pos : 0 < 256 := by decide

theorem codePoints_pos : 0 < 0x110000 := by decide

/-- The byte of a number. -/
def byte (n : Nat) : Byte := ⟨n % 256, Nat.mod_lt n bytes_pos⟩

/-- The code point of a number. -/
def codePoint (n : Nat) : Fin 0x110000 := ⟨n % 0x110000, Nat.mod_lt n codePoints_pos⟩

/-- A surrogate. -/
def Surrogate (c : Fin 0x110000) : Prop := 0xD800 ≤ c.val ∧ c.val ≤ 0xDFFF

instance (c : Fin 0x110000) : Decidable (Surrogate c) := by
  unfold Surrogate
  infer_instance

/-- The bytes of a code point. -/
def encodeChar (c : Fin 0x110000) : List Byte :=
  if c.val < 0x80 then [byte c.val]
  else if c.val < 0x800 then [byte (0xC0 + c.val / 64), byte (0x80 + c.val % 64)]
  else if c.val < 0x10000 then
    [byte (0xE0 + c.val / 4096), byte (0x80 + c.val / 64 % 64), byte (0x80 + c.val % 64)]
  else
    [byte (0xF0 + c.val / 262144), byte (0x80 + c.val / 4096 % 64), byte (0x80 + c.val / 64 % 64),
      byte (0x80 + c.val % 64)]

/-- The bytes of code points. -/
def encode (s : List (Fin 0x110000)) : List Byte := s.flatMap encodeChar

/-! ### Decoding -/

/-- What a started character still needs: how many bytes, the bounds of the next one, and the value
    so far. -/
structure Owed where
  count : Nat
  low : Nat
  high : Nat
  value : Nat

/-- After the first byte of a character; `pass` lets surrogates through. -/
def lead (pass : Bool) (b : Nat) : Option Owed :=
  if b < 0x80 then some ⟨0, 0x80, 0xBF, b⟩
  else if b < 0xC2 then none
  else if b < 0xE0 then some ⟨1, 0x80, 0xBF, b - 0xC0⟩
  else if b < 0xF0 then
    some ⟨2, if b = 0xE0 then 0xA0 else 0x80, if b = 0xED ∧ pass = false then 0x9F else 0xBF, b - 0xE0⟩
  else if b < 0xF5 then
    some ⟨3, if b = 0xF0 then 0x90 else 0x80, if b = 0xF4 then 0x8F else 0xBF, b - 0xF0⟩
  else none

/-- After one more byte of a character. -/
def Owed.next (owed : Owed) (b : Nat) : Option Owed :=
  if owed.low ≤ b ∧ b ≤ owed.high then
    some ⟨owed.count - 1, 0x80, 0xBF, owed.value * 64 + (b - 0x80)⟩
  else none

/-- The code points of bytes, from between characters or inside of one. -/
def decodeFrom (pass : Bool) : Option Owed → List Byte → Option (List (Fin 0x110000))
  | none, [] => some []
  | some _, [] => none
  | state, b :: bytes =>
    let after := match state with
      | none => lead pass b.val
      | some owed => owed.next b.val
    match after with
    | none => none
    | some owed =>
      if owed.count = 0 then (decodeFrom pass none bytes).map (codePoint owed.value :: ·)
      else decodeFrom pass (some owed) bytes

/-- The code points of bytes; `none` where they are not UTF-8. -/
def decode (pass : Bool) (bytes : List Byte) : Option (List (Fin 0x110000)) :=
  decodeFrom pass none bytes

variable {pass : Bool}

theorem decodeFrom_lead {b : Byte} {bytes : List Byte} {owed : Owed}
    (h : lead pass b.val = some owed) :
    decodeFrom pass none (b :: bytes) =
      if owed.count = 0 then (decodeFrom pass none bytes).map (codePoint owed.value :: ·)
      else decodeFrom pass (some owed) bytes := by
  rw [decodeFrom, h]

theorem decodeFrom_next {b : Byte} {bytes : List Byte} {owed owed' : Owed}
    (h : owed.next b.val = some owed') :
    decodeFrom pass (some owed) (b :: bytes) =
      if owed'.count = 0 then (decodeFrom pass none bytes).map (codePoint owed'.value :: ·)
      else decodeFrom pass (some owed') bytes := by
  rw [decodeFrom, h]

theorem byte_val {n : Nat} (h : n < 256) : (byte n).val = n := Nat.mod_eq_of_lt h

theorem codePoint_val (c : Fin 0x110000) : codePoint c.val = c := by
  apply Fin.ext
  exact Nat.mod_eq_of_lt c.isLt

/-- A byte in the middle of a character. -/
theorem decodeFrom_middle {count low high value n : Nat} (hlow : low ≤ 0x80 + n)
    (hhigh : 0x80 + n ≤ high) (hn : n < 64) (bytes : List Byte) :
    decodeFrom pass (some ⟨count + 2, low, high, value⟩) (byte (0x80 + n) :: bytes) =
      decodeFrom pass (some ⟨count + 1, 0x80, 0xBF, value * 64 + n⟩) bytes := by
  have hbyte : (byte (0x80 + n)).val = 0x80 + n := byte_val (by omega)
  have hnext : (Owed.mk (count + 2) low high value).next (byte (0x80 + n)).val =
      some ⟨count + 1, 0x80, 0xBF, value * 64 + n⟩ := by
    rw [hbyte, Owed.next, if_pos ⟨hlow, hhigh⟩, Nat.add_sub_cancel_left]
    rfl
  rw [decodeFrom_next hnext, if_neg (Nat.succ_ne_zero count)]

/-- The last byte of a character. -/
theorem decodeFrom_last {low high value n : Nat} (hlow : low ≤ 0x80 + n) (hhigh : 0x80 + n ≤ high)
    (hn : n < 64) (bytes : List Byte) :
    decodeFrom pass (some ⟨1, low, high, value⟩) (byte (0x80 + n) :: bytes) =
      (decodeFrom pass none bytes).map (codePoint (value * 64 + n) :: ·) := by
  have hbyte : (byte (0x80 + n)).val = 0x80 + n := byte_val (by omega)
  have hnext : (Owed.mk 1 low high value).next (byte (0x80 + n)).val =
      some ⟨0, 0x80, 0xBF, value * 64 + n⟩ := by
    rw [hbyte, Owed.next, if_pos ⟨hlow, hhigh⟩, Nat.add_sub_cancel_left]
    rfl
  rw [decodeFrom_next hnext, if_pos rfl]

/-- One character is decoded, before whatever follows it. -/
theorem decodeFrom_encodeChar {c : Fin 0x110000} (h : pass = true ∨ ¬ Surrogate c)
    (bytes : List Byte) :
    decodeFrom pass none (encodeChar c ++ bytes) = (decodeFrom pass none bytes).map (c :: ·) := by
  have hc : c.val < 0x110000 := c.isLt
  have hpoint : ∀ n, n = c.val → codePoint n = c := by
    intro n hn
    rw [hn]
    exact codePoint_val c
  rw [encodeChar]
  by_cases h₁ : c.val < 0x80
  · rw [if_pos h₁, List.singleton_append]
    have hbyte : (byte c.val).val = c.val := byte_val (by omega)
    have hlead : lead pass (byte c.val).val = some ⟨0, 0x80, 0xBF, c.val⟩ := by
      rw [hbyte, lead, if_pos h₁]
    rw [decodeFrom_lead hlead, if_pos rfl, hpoint _ rfl]
  rw [if_neg h₁]
  by_cases h₂ : c.val < 0x800
  · rw [if_pos h₂]
    have hbyte : (byte (0xC0 + c.val / 64)).val = 0xC0 + c.val / 64 := byte_val (by omega)
    have hlead : lead pass (byte (0xC0 + c.val / 64)).val = some ⟨1, 0x80, 0xBF, c.val / 64⟩ := by
      rw [hbyte, lead, if_neg (by omega), if_neg (by omega), if_pos (by omega),
        Nat.add_sub_cancel_left]
    rw [List.cons_append, decodeFrom_lead hlead, if_neg Nat.one_ne_zero, List.singleton_append,
      decodeFrom_last (by omega) (by omega) (by omega), hpoint _ (by omega)]
  rw [if_neg h₂]
  by_cases h₃ : c.val < 0x10000
  · rw [if_pos h₃]
    have hbyte : (byte (0xE0 + c.val / 4096)).val = 0xE0 + c.val / 4096 := byte_val (by omega)
    have hlead : lead pass (byte (0xE0 + c.val / 4096)).val =
        some ⟨2, if 0xE0 + c.val / 4096 = 0xE0 then 0xA0 else 0x80,
          if 0xE0 + c.val / 4096 = 0xED ∧ pass = false then 0x9F else 0xBF, c.val / 4096⟩ := by
      rw [hbyte, lead, if_neg (by omega), if_neg (by omega), if_neg (by omega), if_pos (by omega),
        Nat.add_sub_cancel_left]
    have hlow : (if 0xE0 + c.val / 4096 = 0xE0 then 0xA0 else 0x80) ≤ 0x80 + c.val / 64 % 64 := by
      split <;> omega
    have hhigh : 0x80 + c.val / 64 % 64 ≤
        if 0xE0 + c.val / 4096 = 0xED ∧ pass = false then 0x9F else 0xBF := by
      split
      · -- the bound that keeps surrogates out
        rename_i hed
        rcases h with hpass | hscalar
        · rw [hed.2] at hpass
          cases hpass
        · unfold Surrogate at hscalar
          omega
      · omega
    rw [List.cons_append, decodeFrom_lead hlead, if_neg (Nat.succ_ne_zero 1), List.cons_append,
      decodeFrom_middle hlow hhigh (by omega), List.singleton_append,
      decodeFrom_last (by omega) (by omega) (by omega), hpoint _ (by omega)]
  · rw [if_neg h₃]
    have hbyte : (byte (0xF0 + c.val / 262144)).val = 0xF0 + c.val / 262144 := byte_val (by omega)
    have hlead : lead pass (byte (0xF0 + c.val / 262144)).val =
        some ⟨3, if 0xF0 + c.val / 262144 = 0xF0 then 0x90 else 0x80,
          if 0xF0 + c.val / 262144 = 0xF4 then 0x8F else 0xBF, c.val / 262144⟩ := by
      rw [hbyte, lead, if_neg (by omega), if_neg (by omega), if_neg (by omega), if_neg (by omega),
        if_pos (by omega), Nat.add_sub_cancel_left]
    have hlow : (if 0xF0 + c.val / 262144 = 0xF0 then 0x90 else 0x80) ≤ 0x80 + c.val / 4096 % 64 := by
      split <;> omega
    have hhigh : 0x80 + c.val / 4096 % 64 ≤
        if 0xF0 + c.val / 262144 = 0xF4 then 0x8F else 0xBF := by
      split <;> omega
    rw [List.cons_append, decodeFrom_lead hlead, if_neg (Nat.succ_ne_zero 2), List.cons_append,
      decodeFrom_middle hlow hhigh (by omega), List.cons_append,
      decodeFrom_middle (by omega) (by omega) (by omega), List.singleton_append,
      decodeFrom_last (by omega) (by omega) (by omega), hpoint _ (by omega)]

/-- **Round trip.** -/
theorem decode_encode {s : List (Fin 0x110000)} (h : pass = true ∨ ∀ c ∈ s, ¬ Surrogate c) :
    decode pass (encode s) = some s := by
  rw [decode, encode]
  induction s with
  | nil => rfl
  | cons c s ih =>
    rw [List.flatMap_cons, decodeFrom_encodeChar (h.imp_right fun hall => hall c List.mem_cons_self),
      ih (h.imp_right fun hall d hd => hall d (List.mem_cons_of_mem _ hd))]
    rfl

/-! ### Strict decoding -/

/-- Where a started character ends: not among the surrogates, and within the code points. -/
def Owed.Scalar (owed : Owed) : Prop :=
  match owed.count with
  | 0 => owed.value < 0xD800 ∨ 0xDFFF < owed.value ∧ owed.value < 0x110000
  | 1 => 0x80 ≤ owed.low ∧ owed.high ≤ 0xBF ∧
      (owed.value * 64 + 64 ≤ 0xD800 ∨ 0xDFFF < owed.value * 64 ∧ owed.value * 64 + 64 ≤ 0x110000)
  | 2 => 0x80 ≤ owed.low ∧ owed.high ≤ 0xBF ∧
      ((owed.value * 64 + (owed.high - 0x80)) * 64 + 64 ≤ 0xD800 ∨
        0xDFFF < owed.value * 4096 ∧ owed.value * 4096 + 4096 ≤ 0x110000)
  | 3 => 0x80 ≤ owed.low ∧ owed.high ≤ 0xBF ∧
      (owed.value = 0 ∧ 0x90 ≤ owed.low ∨ 1 ≤ owed.value ∧
        (owed.value * 64 + (owed.high - 0x80)) * 4096 + 4096 ≤ 0x110000)
  | _ => False

theorem lead_scalar {b : Byte} {owed : Owed} (h : lead false b.val = some owed) : owed.Scalar := by
  have hb : b.val < 256 := b.isLt
  rw [lead] at h
  by_cases h₁ : b.val < 0x80
  · rw [if_pos h₁] at h
    cases h
    left
    show b.val < 0xD800
    omega
  rw [if_neg h₁] at h
  by_cases h₂ : b.val < 0xC2
  · rw [if_pos h₂] at h
    cases h
  rw [if_neg h₂] at h
  by_cases h₃ : b.val < 0xE0
  · rw [if_pos h₃] at h
    cases h
    refine ⟨Nat.le_refl _, Nat.le_refl _, .inl ?_⟩
    show (b.val - 0xC0) * 64 + 64 ≤ 0xD800
    omega
  rw [if_neg h₃] at h
  by_cases h₄ : b.val < 0xF0
  · rw [if_pos h₄] at h
    cases h
    show _ ≤ _ ∧ _ ≤ _ ∧ _
    refine ⟨by dsimp only; split <;> omega, by dsimp only; split <;> omega, ?_⟩
    dsimp only
    by_cases hed : b.val = 0xED
    · rw [if_pos ⟨hed, rfl⟩, hed]
      omega
    · rw [if_neg fun hand => hed hand.1]
      omega
  rw [if_neg h₄] at h
  by_cases h₅ : b.val < 0xF5
  · rw [if_pos h₅] at h
    cases h
    show _ ≤ _ ∧ _ ≤ _ ∧ _
    refine ⟨by dsimp only; split <;> omega, by dsimp only; split <;> omega, ?_⟩
    dsimp only
    by_cases hf0 : b.val = 0xF0
    · rw [if_pos hf0]
      omega
    · by_cases hf4 : b.val = 0xF4
      · rw [if_pos hf4]
        omega
      · rw [if_neg hf4]
        omega
  · rw [if_neg h₅] at h
    cases h

theorem next_scalar {owed owed' : Owed} {b : Nat} (hcount : owed.count ≠ 0) (hs : owed.Scalar)
    (h : owed.next b = some owed') : owed'.Scalar := by
  obtain ⟨count, low, high, value⟩ := owed
  rw [Owed.next] at h
  split at h
  · rename_i hbounds
    cases h
    dsimp only at hbounds
    match count, hcount, hs with
    | 1, _, hs =>
      obtain ⟨hlow, hhigh, hvalue⟩ := hs
      dsimp only at hlow hhigh hvalue
      show _ < 0xD800 ∨ _ < _ ∧ _ < 0x110000
      dsimp only
      omega
    | 2, _, hs =>
      obtain ⟨hlow, hhigh, hvalue⟩ := hs
      dsimp only at hlow hhigh hvalue
      refine ⟨Nat.le_refl _, Nat.le_refl _, ?_⟩
      dsimp only
      omega
    | 3, _, hs =>
      obtain ⟨hlow, hhigh, hvalue⟩ := hs
      dsimp only at hlow hhigh hvalue
      refine ⟨Nat.le_refl _, Nat.le_refl _, ?_⟩
      dsimp only
      omega
  · cases h

theorem codePoint_scalar {owed : Owed} (hcount : owed.count = 0) (hs : owed.Scalar) :
    ¬ Surrogate (codePoint owed.value) := by
  obtain ⟨count, low, high, value⟩ := owed
  dsimp only at hcount
  subst hcount
  have hvalue : value < 0xD800 ∨ 0xDFFF < value ∧ value < 0x110000 := hs
  intro hsurrogate
  have hval : (codePoint value).val = value := Nat.mod_eq_of_lt (by omega)
  unfold Surrogate at hsurrogate
  rw [show (codePoint (Owed.mk 0 low high value).value).val = value from hval] at hsurrogate
  omega

/-- **Strictly decoded text has no surrogate.** -/
theorem decode_scalar {bytes : List Byte} {s : List (Fin 0x110000)}
    (h : decode false bytes = some s) : ∀ c ∈ s, ¬ Surrogate c := by
  have hfrom : ∀ (bytes : List Byte) (state : Option Owed) (s : List (Fin 0x110000)),
      (∀ owed ∈ state, owed.count ≠ 0 ∧ owed.Scalar) → decodeFrom false state bytes = some s →
        ∀ c ∈ s, ¬ Surrogate c := by
    intro bytes
    induction bytes with
    | nil =>
      intro state s _ h
      cases state with
      | none =>
        cases h
        intro c hc
        cases hc
      | some owed => cases h
    | cons b bytes ih =>
      intro state s hstate h
      -- what the byte leaves is a character that ends outside the surrogates
      have hafter : ∃ owed : Owed, owed.Scalar ∧
          (if owed.count = 0 then (decodeFrom false none bytes).map (codePoint owed.value :: ·)
            else decodeFrom false (some owed) bytes) = some s := by
        cases state with
        | none =>
          cases hlead : lead false b.val with
          | none =>
            rw [decodeFrom, hlead] at h
            cases h
          | some owed =>
            rw [decodeFrom_lead hlead] at h
            exact ⟨owed, lead_scalar hlead, h⟩
        | some started =>
          cases hnext : started.next b.val with
          | none =>
            rw [decodeFrom, hnext] at h
            cases h
          | some owed =>
            rw [decodeFrom_next hnext] at h
            obtain ⟨hcount, hs⟩ := hstate started rfl
            exact ⟨owed, next_scalar hcount hs hnext, h⟩
      obtain ⟨owed, hscalar, hrest⟩ := hafter
      by_cases hcount : owed.count = 0
      · rw [if_pos hcount, Option.map_eq_some_iff] at hrest
        obtain ⟨rest, hdecoded, rfl⟩ := hrest
        intro c hc
        rcases List.mem_cons.1 hc with rfl | hmem
        · exact codePoint_scalar hcount hscalar
        · exact ih none rest (fun owed hnone => by cases hnone) hdecoded c hmem
      · rw [if_neg hcount] at hrest
        refine ih (some owed) s (fun owed' hsome => ?_) hrest
        cases hsome
        exact ⟨hcount, hscalar⟩
  exact hfrom bytes none s (fun owed hnone => by cases hnone) h

end Utf8
