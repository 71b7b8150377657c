import Mathlib.Data.List.Forall2
import Mathlib.Tactic.Common

/-!
# Regular expressions

Expressions over an arbitrary alphabet with the zero-width assertion `\b`, and the two questions a
program asks of one: whether it is found in a text and whether it covers the text.

* `Matches` — what an expression matches between what is before and what is after;
* `search`, `fullMatch` — the backtracking matcher;
* `search_iff`, `fullMatch_iff` — what it finds.
-/

/-- A regular expression. -/
inductive Regex (α : Type) where
  | eps
  | sym (p : α → Bool)
  | boundary
  | seq (r q : Regex α)
  | alt (r q : Regex α)
  | many (p : α → Bool)

namespace Regex

variable {α : Type}

/-- `\b`: just one of the two neighbours is part of a word. -/
def isBoundary (word : α → Bool) (before after : Option α) : Bool :=
  before.any word != after.any word

/-- The character before what follows a match. -/
def lastOr (before : Option α) (w : List α) : Option α := w.getLast?.or before

/-- The expression matches `w` after a character and before a text. -/
def Matches (word : α → Bool) : Regex α → Option α → List α → List α → Prop
  | eps, _, w, _ => w = []
  | sym p, _, w, _ => ∃ a, w = [a] ∧ p a = true
  | boundary, before, w, after => w = [] ∧ isBoundary word before after.head? = true
  | seq r q, before, w, after => ∃ u v, w = u ++ v ∧
      Matches word r before u (v ++ after) ∧ Matches word q (lastOr before u) v after
  | alt r q, before, w, after => Matches word r before w after ∨ Matches word q before w after
  | many p, _, w, _ => ∀ a ∈ w, p a = true

/-! ### The matcher -/

/-- Match a run of a class, then go on. -/
def manyThen (p : α → Bool) (k : Option α → List α → Bool) : Option α → List α → Bool
  | before, [] => k before []
  | before, a :: s => k before (a :: s) || p a && manyThen p k (some a) s

/-- Match an expression at the start of a text, then go on with what follows. -/
def matchThen (word : α → Bool) : Regex α → (Option α → List α → Bool) →
    Option α → List α → Bool
  | eps, k, before, s => k before s
  | sym _, _, _, [] => false
  | sym p, k, _, a :: s => p a && k (some a) s
  | boundary, k, before, s => isBoundary word before s.head? && k before s
  | seq r q, k, before, s => matchThen word r (matchThen word q k) before s
  | alt r q, k, before, s => matchThen word r k before s || matchThen word q k before s
  | many p, k, before, s => manyThen p k before s

/-- The expression is found from here on. -/
def searchFrom (word : α → Bool) (r : Regex α) : Option α → List α → Bool
  | before, [] => matchThen word r (fun _ _ => true) before []
  | before, a :: s =>
    matchThen word r (fun _ _ => true) before (a :: s) || searchFrom word r (some a) s

/-- The expression is found in the text. -/
def search (word : α → Bool) (r : Regex α) (s : List α) : Bool := searchFrom word r none s

/-- The expression covers the text. -/
def fullMatch (word : α → Bool) (r : Regex α) (s : List α) : Bool :=
  matchThen word r (fun _ rest => rest.isEmpty) none s

/-! ### What it finds -/

@[simp] theorem lastOr_nil (before : Option α) : lastOr before [] = before := rfl

@[simp] theorem lastOr_singleton (before : Option α) (a : α) : lastOr before [a] = some a := rfl

theorem lastOr_append (before : Option α) (u v : List α) :
    lastOr before (u ++ v) = lastOr (lastOr before u) v := by
  rw [lastOr, lastOr, lastOr, List.getLast?_append, Option.or_assoc]

theorem lastOr_cons (before : Option α) (a : α) (w : List α) :
    lastOr before (a :: w) = lastOr (some a) w :=
  lastOr_append before [a] w

theorem manyThen_iff {p : α → Bool} {k : Option α → List α → Bool} {s : List α} :
    ∀ {before : Option α}, manyThen p k before s = true ↔
      ∃ w rest, s = w ++ rest ∧ (∀ a ∈ w, p a = true) ∧ k (lastOr before w) rest = true := by
  induction s with
  | nil =>
    intro before
    rw [manyThen]
    constructor
    · exact fun hk => ⟨[], [], rfl, by simp, hk⟩
    · intro h
      obtain ⟨w, rest, hs, -, hk⟩ := h
      obtain ⟨rfl, rfl⟩ := List.append_eq_nil_iff.1 hs.symm
      exact hk
  | cons a s ih =>
    intro before
    rw [manyThen, Bool.or_eq_true, Bool.and_eq_true, ih]
    constructor
    · intro h
      rcases h with hk | ⟨ha, w, rest, rfl, hw, hk⟩
      · exact ⟨[], a :: s, rfl, by simp, hk⟩
      · exact ⟨a :: w, rest, rfl, List.forall_mem_cons.2 ⟨ha, hw⟩, by rwa [lastOr_cons]⟩
    · intro h
      obtain ⟨w, rest, hs, hw, hk⟩ := h
      cases w with
      | nil =>
        rw [List.nil_append] at hs
        exact .inl (hs ▸ hk)
      | cons b w =>
        rw [List.cons_append, List.cons.injEq] at hs
        obtain ⟨rfl, rfl⟩ := hs
        obtain ⟨ha, hw⟩ := List.forall_mem_cons.1 hw
        rw [lastOr_cons] at hk
        exact .inr ⟨ha, w, rest, rfl, hw, hk⟩

/-- The matcher succeeds where the expression matches and it can go on. -/
theorem matchThen_iff {word : α → Bool} (r : Regex α) : ∀ {k : Option α → List α → Bool}
    {before : Option α} {s : List α}, matchThen word r k before s = true ↔
      ∃ w rest, s = w ++ rest ∧ Matches word r before w rest ∧ k (lastOr before w) rest = true := by
  induction r with
  | eps =>
    intro k before s
    simp [matchThen, Matches]
  | sym p =>
    intro k before s
    cases s with
    | nil => simp [matchThen, Matches]
    | cons a s =>
      rw [matchThen, Bool.and_eq_true]
      constructor
      · intro h
        exact ⟨[a], s, rfl, ⟨a, rfl, h.1⟩, h.2⟩
      · intro h
        obtain ⟨w, rest, hs, ⟨b, rfl, hp⟩, hk⟩ := h
        rw [List.singleton_append, List.cons.injEq] at hs
        obtain ⟨rfl, rfl⟩ := hs
        exact ⟨hp, hk⟩
  | boundary =>
    intro k before s
    simp [matchThen, Matches, and_assoc]
  | seq r q ihr ihq =>
    intro k before s
    rw [matchThen, ihr]
    constructor
    · intro h
      obtain ⟨u, rest, rfl, hr, hk⟩ := h
      obtain ⟨v, rest, rfl, hq, hk⟩ := ihq.1 hk
      refine ⟨u ++ v, rest, (List.append_assoc u v rest).symm, ⟨u, v, rfl, hr, hq⟩, ?_⟩
      rwa [lastOr_append]
    · intro h
      obtain ⟨w, rest, rfl, ⟨u, v, rfl, hr, hq⟩, hk⟩ := h
      rw [lastOr_append] at hk
      exact ⟨u, v ++ rest, List.append_assoc u v rest, hr, ihq.2 ⟨v, rest, rfl, hq, hk⟩⟩
  | alt r q ihr ihq =>
    intro k before s
    rw [matchThen, Bool.or_eq_true, ihr, ihq]
    constructor
    · intro h
      rcases h with ⟨w, rest, hs, hm, hk⟩ | ⟨w, rest, hs, hm, hk⟩
      · exact ⟨w, rest, hs, .inl hm, hk⟩
      · exact ⟨w, rest, hs, .inr hm, hk⟩
    · intro h
      obtain ⟨w, rest, hs, hm, hk⟩ := h
      exact hm.imp (fun hm => ⟨w, rest, hs, hm, hk⟩) fun hm => ⟨w, rest, hs, hm, hk⟩
  | many p =>
    intro k before s
    exact manyThen_iff

theorem searchFrom_iff {word : α → Bool} {r : Regex α} {s : List α} : ∀ {before : Option α},
    searchFrom word r before s = true ↔
      ∃ l w rest, s = l ++ w ++ rest ∧ Matches word r (lastOr before l) w rest := by
  induction s with
  | nil =>
    intro before
    rw [searchFrom, matchThen_iff]
    constructor
    · intro h
      obtain ⟨w, rest, hs, hm, -⟩ := h
      exact ⟨[], w, rest, hs, hm⟩
    · intro h
      obtain ⟨l, w, rest, hs, hm⟩ := h
      obtain ⟨hlw, rfl⟩ := List.append_eq_nil_iff.1 hs.symm
      obtain ⟨rfl, rfl⟩ := List.append_eq_nil_iff.1 hlw
      exact ⟨[], [], rfl, hm, rfl⟩
  | cons a s ih =>
    intro before
    rw [searchFrom, Bool.or_eq_true, matchThen_iff, ih]
    constructor
    · intro h
      rcases h with ⟨w, rest, hs, hm, -⟩ | ⟨l, w, rest, rfl, hm⟩
      · exact ⟨[], w, rest, hs, hm⟩
      · exact ⟨a :: l, w, rest, rfl, by rwa [lastOr_cons]⟩
    · intro h
      obtain ⟨l, w, rest, hs, hm⟩ := h
      cases l with
      | nil => exact .inl ⟨w, rest, hs, hm, rfl⟩
      | cons b l =>
        rw [List.cons_append, List.cons_append, List.cons.injEq] at hs
        obtain ⟨rfl, rfl⟩ := hs
        rw [lastOr_cons] at hm
        exact .inr ⟨l, w, rest, rfl, hm⟩

/-- An expression is found where some part of the text matches it in its place. -/
theorem search_iff {word : α → Bool} {r : Regex α} {s : List α} : search word r s = true ↔
    ∃ l w rest, s = l ++ w ++ rest ∧ Matches word r l.getLast? w rest := by
  rw [search, searchFrom_iff]
  simp only [lastOr, Option.or_none]

/-- An expression covers a text that it matches. -/
theorem fullMatch_iff {word : α → Bool} {r : Regex α} {s : List α} :
    fullMatch word r s = true ↔ Matches word r none s [] := by
  rw [fullMatch, matchThen_iff]
  constructor
  · intro h
    obtain ⟨w, rest, rfl, hm, hk⟩ := h
    rw [List.isEmpty_iff.1 hk] at hm ⊢
    rwa [List.append_nil]
  · intro h
    exact ⟨s, [], (List.append_nil s).symm, h, rfl⟩

/-! ### Derived forms -/

/-- A sequence of characters. -/
def chars : List (α → Bool) → Regex α
  | [] => eps
  | p :: ps => seq (sym p) (chars ps)

/-- One of several expressions. -/
def alts : List (Regex α) → Regex α
  | [] => sym fun _ => false
  | r :: rs => alt r (alts rs)

/-- At most `n` characters of a class: `p{0,n}`. -/
def upTo (p : α → Bool) : Nat → Regex α
  | 0 => eps
  | n + 1 => alt eps (seq (sym p) (upTo p n))

variable {word : α → Bool} {before : Option α} {after w : List α}

theorem matches_chars (ps : List (α → Bool)) : ∀ {before : Option α} {w : List α},
    Matches word (chars ps) before w after ↔ List.Forall₂ (fun p a => p a = true) ps w := by
  induction ps with
  | nil =>
    intro before w
    rw [List.forall₂_nil_left_iff]
    exact Iff.rfl
  | cons p ps ih =>
    intro before w
    rw [List.forall₂_cons_left_iff]
    constructor
    · intro h
      obtain ⟨u, v, rfl, ⟨a, rfl, hp⟩, hv⟩ := h
      exact ⟨a, v, hp, ih.1 hv, rfl⟩
    · intro h
      obtain ⟨a, v, hp, hv, rfl⟩ := h
      exact ⟨[a], v, rfl, ⟨a, rfl, hp⟩, ih.2 hv⟩

theorem matches_replicate (p : α → Bool) (n : Nat) : ∀ {before : Option α} {w : List α},
    Matches word (chars (List.replicate n p)) before w after ↔
      w.length = n ∧ ∀ a ∈ w, p a = true := by
  intro before w
  rw [matches_chars]
  induction n generalizing w with
  | zero =>
    rw [List.replicate_zero, List.forall₂_nil_left_iff, List.length_eq_zero_iff]
    constructor
    · rintro rfl
      exact ⟨rfl, by simp⟩
    · exact fun h => h.1
  | succ n ih =>
    rw [List.replicate_succ, List.forall₂_cons_left_iff]
    constructor
    · intro h
      obtain ⟨a, v, hp, hv, rfl⟩ := h
      obtain ⟨hlen, hall⟩ := ih.1 hv
      exact ⟨congrArg (· + 1) hlen, List.forall_mem_cons.2 ⟨hp, hall⟩⟩
    · intro h
      obtain ⟨hlen, hall⟩ := h
      cases w with
      | nil => cases hlen
      | cons a v =>
        obtain ⟨hp, hall⟩ := List.forall_mem_cons.1 hall
        exact ⟨a, v, hp, ih.2 ⟨Nat.succ.inj hlen, hall⟩, rfl⟩

theorem matches_alts (rs : List (Regex α)) :
    Matches word (alts rs) before w after ↔ ∃ r ∈ rs, Matches word r before w after := by
  induction rs with
  | nil => simp [alts, Matches]
  | cons r rs ih =>
    rw [List.exists_mem_cons_iff, ← ih]
    exact Iff.rfl

theorem matches_upTo (p : α → Bool) (n : Nat) : ∀ {before : Option α} {w : List α},
    Matches word (upTo p n) before w after ↔ w.length ≤ n ∧ ∀ a ∈ w, p a = true := by
  induction n with
  | zero =>
    intro before w
    show w = [] ↔ _
    rw [Nat.le_zero, List.length_eq_zero_iff]
    constructor
    · rintro rfl
      exact ⟨rfl, by simp⟩
    · exact fun h => h.1
  | succ n ih =>
    intro before w
    show w = [] ∨ (∃ u v, w = u ++ v ∧ (∃ a, u = [a] ∧ p a = true) ∧ _) ↔ _
    constructor
    · intro h
      rcases h with rfl | ⟨u, v, rfl, ⟨a, rfl, hp⟩, hv⟩
      · exact ⟨Nat.zero_le _, by simp⟩
      · obtain ⟨hlen, hall⟩ := ih.1 hv
        exact ⟨Nat.succ_le_succ hlen, List.forall_mem_cons.2 ⟨hp, hall⟩⟩
    · intro h
      obtain ⟨hlen, hall⟩ := h
      cases w with
      | nil => exact .inl rfl
      | cons a v =>
        obtain ⟨hp, hall⟩ := List.forall_mem_cons.1 hall
        exact .inr ⟨[a], v, rfl, ⟨a, rfl, hp⟩, ih.2 ⟨Nat.le_of_succ_le_succ hlen, hall⟩⟩

/-- An expression between two boundaries. -/
theorem matches_bounded {r : Regex α} : Matches word (seq boundary (seq r boundary)) before w after ↔
    isBoundary word before (w ++ after).head? = true ∧ Matches word r before w after ∧
      isBoundary word (lastOr before w) after.head? = true := by
  constructor
  · intro h
    obtain ⟨u, v, rfl, ⟨rfl, hbefore⟩, u', v', rfl, hr, rfl, hafter⟩ := h
    rw [List.nil_append, List.append_nil]
    rw [List.append_nil] at hbefore
    exact ⟨hbefore, hr, hafter⟩
  · intro h
    obtain ⟨hbefore, hr, hafter⟩ := h
    exact ⟨[], w, rfl, ⟨rfl, hbefore⟩, w, [], (List.append_nil w).symm, hr, rfl, hafter⟩

/-- An expression behind a boundary. -/
theorem matches_boundary_seq {r : Regex α} : Matches word (seq boundary r) before w after ↔
    isBoundary word before (w ++ after).head? = true ∧ Matches word r before w after := by
  constructor
  · intro h
    obtain ⟨u, v, rfl, ⟨rfl, hbefore⟩, hr⟩ := h
    exact ⟨hbefore, hr⟩
  · intro h
    exact ⟨[], w, rfl, ⟨rfl, h.1⟩, h.2⟩

/-- A boundary before a word character has none before it. -/
theorem any_before {a : α} {s : List α} (ha : word a = true)
    (h : isBoundary word before (a :: s).head? = true) : before.any word = false := by
  rw [isBoundary, List.head?_cons, Option.any_some, ha, bne_iff_ne] at h
  simpa using h

/-- A boundary behind a word character has none behind it. -/
theorem any_after {a : α} {next : Option α} (ha : word a = true)
    (h : isBoundary word (some a) next = true) : next.any word = false := by
  rw [isBoundary, Option.any_some, ha, bne_iff_ne] at h
  simpa using h

end Regex
