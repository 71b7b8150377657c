import Mathlib.Logic.Basic
import Mathlib.Tactic.Common

/-!
# Statements that write rows

A statement writes its rows one after another.  What is checked for a row sees the rows the
statement has written so far; what is deferred is checked once, at its end.

* `Rules` — the checks a store makes;
* `Rules.execute` — one statement;
* `Rules.Run` — statements executed one after another, each row write under a condition;
* `Rules.Run.invariant`, `Rules.Run.finished` — what holds in every state of a run.
-/

/-- The checks of a store with states `S` on statements `Q` that write rows `W`; they fail with
    an `ε`. -/
structure Rules (S Q W ε : Type) where
  /-- The rows can be written by one statement. -/
  admits : S → Q → Bool
  writes : Q → List W
  /-- One row, checked as it is written. -/
  write : S → W → Except ε S
  /-- The checks at the end of the statement. -/
  finish : S → Except ε Unit

namespace Rules

variable {S Q W ε : Type} (rules : Rules S Q W ε)

/-- The rows of a statement, one after another. -/
def writeAll : S → List W → Except ε S
  | s, [] => .ok s
  | s, w :: ws => do
    let written ← rules.write s w
    writeAll written ws

/-- One statement: the state after it, or the first check that failed. -/
def execute (s : S) (q : Q) : Except ε S := do
  let written ← rules.writeAll s (rules.writes q)
  rules.finish written
  pure written

/-- Every row write meets the condition in the state it finds. -/
def Meets (ok : S → W → Prop) : S → List W → Prop
  | _, [] => True
  | s, w :: ws => ok s w ∧
    match rules.write s w with
    | .ok written => Meets ok written ws
    | .error _ => True

instance decidableMeets (ok : S → W → Prop) [∀ s w, Decidable (ok s w)] (s : S) (ws : List W) :
    Decidable (rules.Meets ok s ws) :=
  match ws with
  | [] => .isTrue trivial
  | w :: ws =>
    have : Decidable (match rules.write s w with
        | .ok written => rules.Meets ok written ws
        | .error _ => True) :=
      match rules.write s w with
      | .ok written => decidableMeets ok written ws
      | .error _ => .isTrue trivial
    inferInstanceAs (Decidable (ok s w ∧ _))

/-- The states that accepted statements reach, whose row writes meet a condition. -/
inductive Run (ok : S → W → Prop) (start : S) : S → Prop
  | start : Run ok start start
  | execute {s s' : S} {q : Q} (h : Run ok start s) (hadmits : rules.admits s q = true)
      (hmeets : rules.Meets ok s (rules.writes q)) (hexecute : rules.execute s q = .ok s') :
      Run ok start s'

variable {rules}

/-- A check that comes second. -/
theorem bind_eq_ok {α β : Type} {x : Except ε α} {f : α → Except ε β} {b : β} :
    (x >>= f) = .ok b ↔ ∃ a, x = .ok a ∧ f a = .ok b := by
  cases x with
  | error e =>
    constructor
    · intro h
      cases h
    · intro h
      obtain ⟨a, ha, -⟩ := h
      cases ha
  | ok a =>
    constructor
    · intro h
      exact ⟨a, rfl, h⟩
    · intro h
      obtain ⟨a', ha, h⟩ := h
      cases ha
      exact h

theorem writeAll_cons {s s' : S} {w : W} {ws : List W} :
    rules.writeAll s (w :: ws) = .ok s' ↔
      ∃ written, rules.write s w = .ok written ∧ rules.writeAll written ws = .ok s' := by
  rw [writeAll]
  exact bind_eq_ok

theorem execute_ok {s s' : S} {q : Q} :
    rules.execute s q = .ok s' ↔
      rules.writeAll s (rules.writes q) = .ok s' ∧ rules.finish s' = .ok () := by
  rw [execute, bind_eq_ok]
  constructor
  · intro h
    obtain ⟨written, hwritten, hrest⟩ := h
    obtain ⟨_, hfinish, hpure⟩ := bind_eq_ok.1 hrest
    cases hpure
    exact ⟨hwritten, hfinish⟩
  · intro h
    exact ⟨s', h.1, bind_eq_ok.2 ⟨(), h.2, rfl⟩⟩

/-- What every row write keeps, the rows of a statement keep. -/
theorem writeAll_invariant {ok : S → W → Prop} {I : S → Prop}
    (hwrite : ∀ s w s', I s → ok s w → rules.write s w = .ok s' → I s') {ws : List W} {s s' : S}
    (hs : I s) (hmeets : rules.Meets ok s ws) (h : rules.writeAll s ws = .ok s') : I s' := by
  induction ws generalizing s with
  | nil =>
    cases h
    exact hs
  | cons w ws ih =>
    obtain ⟨written, hw, hrest⟩ := writeAll_cons.1 h
    have hnext := hmeets.2
    rw [hw] at hnext
    exact ih (hwrite s w written hs hmeets.1 hw) hnext hrest

/-- **Invariant rule.**  What the start has and every row write keeps, every state of a run
    has. -/
theorem Run.invariant {ok : S → W → Prop} {I : S → Prop} {start s : S} (hstart : I start)
    (hwrite : ∀ s w s', I s → ok s w → rules.write s w = .ok s' → I s')
    (h : rules.Run ok start s) : I s := by
  induction h with
  | start => exact hstart
  | execute _ _ hmeets hexecute ih =>
    exact writeAll_invariant hwrite ih hmeets (execute_ok.1 hexecute).1

/-- The deferred checks hold in every state of a run. -/
theorem Run.finished {ok : S → W → Prop} {start s : S} (hstart : rules.finish start = .ok ())
    (h : rules.Run ok start s) : rules.finish s = .ok () := by
  cases h with
  | start => exact hstart
  | execute _ _ _ hexecute => exact (execute_ok.1 hexecute).2

/-- A condition that always holds is met. -/
theorem meets_of_forall {ok : S → W → Prop} (hok : ∀ s w, ok s w) (ws : List W) (s : S) :
    rules.Meets ok s ws := by
  induction ws generalizing s with
  | nil => trivial
  | cons w ws ih =>
    refine ⟨hok s w, ?_⟩
    cases rules.write s w with
    | error e => trivial
    | ok written => exact ih written

end Rules
