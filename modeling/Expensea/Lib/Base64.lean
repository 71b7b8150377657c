import Mathlib.Data.Fin.Basic
import Mathlib.Data.List.Basic
import Mathlib.Tactic.Common

namespace Base64

/-!
# Base 64

Bytes as symbols of six bits, with padding to a multiple of four symbols, over any alphabet.

* `encode`, `decode` — with padding; `decode` is strict about its place;
* `bare` — without padding, as `rstrip` leaves it and `padTo4` completes it;
* `decode_bare` — decoding what was encoded.
-/

/-- A byte. -/
abbrev Byte := Fin 256

/-- Symbols for the sixty-four values, and one for padding. -/
structure Alphabet (σ : Type) where
  symbol : Fin 64 → σ
  pad : σ
  /-- The value a symbol is read as. -/
  value : σ → Option (Fin 64)

/-- Every symbol is read as its value, and the padding as none. -/
structure Alphabet.Lawful {σ : Type} (A : Alphabet σ) : Prop where
  value_symbol : ∀ n, A.value (A.symbol n) = some n
  value_pad : A.value A.pad = none

variable {σ : Type} [DecidableEq σ] (A : Alphabet σ)

/-- The last six bits of a number. -/
def sextet (n : Nat) : Fin 64 := Fin.ofNat 64 n

/-- The last eight bits of a number. -/
def byte (n : Nat) : Byte := Fin.ofNat 256 n

/-- The symbols of some bytes, without padding. -/
def bare : List Byte → List σ
  | [] => []
  | [a] => [A.symbol (sextet (a.val / 4)), A.symbol (sextet (a.val % 4 * 16))]
  | [a, b] => [A.symbol (sextet (a.val / 4)), A.symbol (sextet (a.val % 4 * 16 + b.val / 16)),
      A.symbol (sextet (b.val % 16 * 4))]
  | a :: b :: c :: rest =>
    A.symbol (sextet (a.val / 4)) :: A.symbol (sextet (a.val % 4 * 16 + b.val / 16)) ::
      A.symbol (sextet (b.val % 16 * 4 + c.val / 64)) :: A.symbol (sextet (c.val % 64)) :: bare rest

/-- Complete with padding to a multiple of four symbols. -/
def padTo4 (s : List σ) : List σ := s ++ List.replicate ((4 - s.length % 4) % 4) A.pad

/-- The symbols of some bytes, with padding. -/
def encode (bytes : List Byte) : List σ := padTo4 A (bare A bytes)

/-- Remove a symbol from the end. -/
def rstrip (p : σ) (s : List σ) : List σ := (s.reverse.dropWhile fun c => c = p).reverse

/-- The first byte of four values. -/
def byte₁ (a b : Fin 64) : Byte := byte (a.val * 4 + b.val / 16)

/-- The second one. -/
def byte₂ (b c : Fin 64) : Byte := byte (b.val % 16 * 16 + c.val / 4)

/-- The third one. -/
def byte₃ (c d : Fin 64) : Byte := byte (c.val % 4 * 64 + d.val)

/-- The bytes of some symbols with padding; `none` where it is not complete, or padding stands
    elsewhere than at the end. -/
def decode : List σ → Option (List Byte)
  | [] => some []
  | a :: b :: c :: d :: rest =>
    if c = A.pad ∧ d = A.pad ∧ rest = [] then do
      let a ← A.value a
      let b ← A.value b
      some [byte₁ a b]
    else if d = A.pad ∧ rest = [] then do
      let a ← A.value a
      let b ← A.value b
      let c ← A.value c
      some [byte₁ a b, byte₂ b c]
    else do
      let a ← A.value a
      let b ← A.value b
      let c ← A.value c
      let d ← A.value d
      let bytes ← decode rest
      some (byte₁ a b :: byte₂ b c :: byte₃ c d :: bytes)
  | _ => none

variable {A}

omit [DecidableEq σ] in
theorem symbol_ne_pad (hA : A.Lawful) (n : Fin 64) : A.symbol n ≠ A.pad := by
  intro h
  have hvalue := hA.value_symbol n
  rw [h, hA.value_pad] at hvalue
  cases hvalue

omit [DecidableEq σ] in
/-- No symbol of the bytes is the padding. -/
theorem bare_ne_pad (hA : A.Lawful) (bytes : List Byte) : ∀ s ∈ bare A bytes, s ≠ A.pad := by
  fun_induction bare A bytes with
  | case1 => simp
  | case2 a => simp [symbol_ne_pad hA]
  | case3 a b => simp [symbol_ne_pad hA]
  | case4 a b c rest ih =>
    simp only [List.mem_cons, forall_eq_or_imp]
    exact ⟨symbol_ne_pad hA _, symbol_ne_pad hA _, symbol_ne_pad hA _, symbol_ne_pad hA _, ih⟩

/-- Stripping the padding of an encoding leaves its symbols. -/
theorem rstrip_encode (hA : A.Lawful) (bytes : List Byte) :
    rstrip A.pad (encode A bytes) = bare A bytes := by
  have hdrop : ∀ (n : Nat) (s : List σ), (∀ c ∈ s, c ≠ A.pad) →
      (List.replicate n A.pad ++ s).dropWhile (fun c => c = A.pad) = s := by
    intro n s hs
    induction n with
    | zero =>
      cases s with
      | nil => rfl
      | cons c s => exact List.dropWhile_cons_of_neg (by simpa using hs c List.mem_cons_self)
    | succ n ih =>
      rw [List.replicate_succ, List.cons_append, List.dropWhile_cons_of_pos (by simp), ih]
  rw [rstrip, encode, padTo4, List.reverse_append, List.reverse_replicate, hdrop, List.reverse_reverse]
  intro c hc
  exact bare_ne_pad hA bytes c (List.mem_reverse.1 hc)

/-- The first byte from its own bits and those of the second. -/
theorem byte₁_sextet (a : Byte) (n : Nat) (hn : n < 16) :
    byte₁ (sextet (a.val / 4)) (sextet (a.val % 4 * 16 + n)) = a := by
  apply Fin.ext
  simp only [byte₁, byte, sextet, Fin.ofNat]
  omega

theorem byte₂_sextet (m : Nat) (b : Byte) (n : Nat) (hn : n < 4) :
    byte₂ (sextet (m % 4 * 16 + b.val / 16)) (sextet (b.val % 16 * 4 + n)) = b := by
  apply Fin.ext
  simp only [byte₂, byte, sextet, Fin.ofNat]
  omega

theorem byte₃_sextet (m : Nat) (c : Byte) :
    byte₃ (sextet (m % 16 * 4 + c.val / 64)) (sextet (c.val % 64)) = c := by
  apply Fin.ext
  simp only [byte₃, byte, sextet, Fin.ofNat]
  omega

/-- Decoding what was encoded. -/
theorem decode_encode (hA : A.Lawful) (bytes : List Byte) :
    decode A (encode A bytes) = some bytes := by
  rw [encode, padTo4]
  fun_induction bare A bytes with
  | case1 => simp [decode]
  | case2 a =>
    have hfirst := byte₁_sextet a 0 (by omega)
    rw [Nat.add_zero] at hfirst
    simp [decode, hA.value_symbol, hfirst]
  | case3 a b =>
    have hfirst := byte₁_sextet a (b.val / 16) (by omega)
    have hsecond := byte₂_sextet a.val b 0 (by omega)
    rw [Nat.add_zero] at hsecond
    simp [decode, hA.value_symbol, symbol_ne_pad hA, hfirst, hsecond]
  | case4 a b c rest ih =>
    have hlen : (bare A rest).length % 4 = ((bare A rest).length + 4) % 4 := by omega
    have hfirst := byte₁_sextet a (b.val / 16) (by omega)
    have hsecond := byte₂_sextet a.val b (c.val / 64) (by omega)
    have hthird := byte₃_sextet b.val c
    have hlast : ¬ (A.symbol (sextet (c.val % 64)) = A.pad) := symbol_ne_pad hA _
    rw [hlen] at ih
    simp only [List.cons_append, List.length_cons]
    rw [decode, if_neg fun h => hlast h.2.1, if_neg fun h => hlast h.1, ih]
    simp [hA.value_symbol, hfirst, hsecond, hthird]

/-- Decoding what was encoded and stripped, once it is completed again. -/
theorem decode_bare (hA : A.Lawful) (bytes : List Byte) :
    decode A (padTo4 A (rstrip A.pad (encode A bytes))) = some bytes := by
  rw [rstrip_encode hA]
  exact decode_encode hA bytes

end Base64
