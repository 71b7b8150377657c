import Mathlib.Logic.Basic
import Mathlib.Tactic.Common

namespace Txn

/-!
# Transactions as programs

A database transaction is a program over a store `G`: it reads the store, queues
writes, takes locks and ends by returning a value (commit) or by failing
(rollback).  The same program has two meanings:

* `Tx.run` — executed alone, as one atomic step on the store;
* `Interleave.Step` (next module) — executed statement by statement among other
  transactions, with its writes private until it commits.

`Tx` is a monad, so a program is written in `do` notation.  Everything here is
generic in the store, the lock names and the error type.
-/

/-- A transaction program over a store `G` with lock names `L`, errors `ε` and
    result `α`. -/
inductive Tx (G L ε : Type) (α : Type) : Type where
  /-- Commit and return `a`. -/
  | pure (a : α)
  /-- Roll back. -/
  | fail (e : ε)
  /-- One reading statement: it sees the store as committed now, under the
      transaction's own writes. -/
  | read (k : G → Tx G L ε α)
  /-- One writing statement. -/
  | write (w : G → G) (k : Tx G L ε α)
  /-- Take a lock, waiting for it; it is held to the end of the transaction. -/
  | lock (l : L) (k : Tx G L ε α)
  /-- Take a lock if no other transaction holds it, and say whether it was taken. -/
  | tryLock (l : L) (k : Bool → Tx G L ε α)

namespace Tx

variable {G L ε α β γ : Type}

/-- Sequential composition: the second program runs in the same transaction. -/
def bind : Tx G L ε α → (α → Tx G L ε β) → Tx G L ε β
  | .pure a, f => f a
  | .fail e, _ => .fail e
  | .read k, f => .read fun g => (k g).bind f
  | .write w k, f => .write w (k.bind f)
  | .lock l k, f => .lock l (k.bind f)
  | .tryLock l k, f => .tryLock l fun b => (k b).bind f

instance : Monad (Tx G L ε) where
  pure := Tx.pure
  bind := Tx.bind

theorem bind_pure (x : Tx G L ε α) : x.bind Tx.pure = x := by
  induction x with
  | pure a => rfl
  | fail e => rfl
  | read k ih => simp only [Tx.bind, ih]
  | write w k ih => simp only [Tx.bind, ih]
  | lock l k ih => simp only [Tx.bind, ih]
  | tryLock l k ih => simp only [Tx.bind, ih]

theorem bind_assoc (x : Tx G L ε α) (f : α → Tx G L ε β) (h : β → Tx G L ε γ) :
    (x.bind f).bind h = x.bind fun a => (f a).bind h := by
  induction x with
  | pure a => rfl
  | fail e => rfl
  | read k ih => simp only [Tx.bind, ih]
  | write w k ih => simp only [Tx.bind, ih]
  | lock l k ih => simp only [Tx.bind, ih]
  | tryLock l k ih => simp only [Tx.bind, ih]

instance : LawfulMonad (Tx G L ε) :=
  LawfulMonad.mk' (Tx G L ε) (fun x => bind_pure x) (fun _ _ => rfl)
    (fun x f h => bind_assoc x f h)

/-! ### Statements -/

/-- A query: evaluate `f` on the store the statement sees. -/
def reads (f : G → α) : Tx G L ε α := .read fun g => .pure (f g)

/-- An update of the store. -/
def modify (w : G → G) : Tx G L ε Unit := .write w (.pure ())

/-- Take the lock `l`, waiting for it. -/
def acquire (l : L) : Tx G L ε Unit := .lock l (.pure ())

/-- Take the lock `l` unless another transaction holds it. -/
def tryAcquire (l : L) : Tx G L ε Bool := .tryLock l .pure

/-- Roll the transaction back with an error. -/
def throw (e : ε) : Tx G L ε α := .fail e

/-- Run `f` on every element in turn. -/
def each : List β → (β → Tx G L ε Unit) → Tx G L ε Unit
  | [], _ => .pure ()
  | b :: bs, f => (f b).bind fun _ => each bs f

/-- A program that writes nothing and takes no lock. -/
def ReadOnly : Tx G L ε α → Prop
  | .pure _ => True
  | .fail _ => True
  | .read k => ∀ g, (k g).ReadOnly
  | .write _ _ => False
  | .lock _ _ => False
  | .tryLock _ _ => False

theorem readOnly_pure (a : α) : (Pure.pure a : Tx G L ε α).ReadOnly := trivial

theorem readOnly_throw (e : ε) : (throw e : Tx G L ε α).ReadOnly := trivial

theorem readOnly_reads (f : G → α) : (reads f : Tx G L ε α).ReadOnly := fun _ => trivial

theorem readOnly_bind {x : Tx G L ε α} {f : α → Tx G L ε β} (hx : x.ReadOnly)
    (hf : ∀ a, (f a).ReadOnly) : (x >>= f).ReadOnly := by
  show (x.bind f).ReadOnly
  induction x with
  | pure a => exact hf a
  | fail e => trivial
  | read k ih => exact fun g => ih g (hx g)
  | write w k ih => exact hx.elim
  | lock l k ih => exact hx.elim
  | tryLock l k ih => exact hx.elim

/-- Every writing statement of the program, whatever it reads, satisfies `P`. -/
def Writes (P : (G → G) → Prop) : Tx G L ε α → Prop
  | .pure _ => True
  | .fail _ => True
  | .read k => ∀ g, (k g).Writes P
  | .write w k => P w ∧ k.Writes P
  | .lock _ k => k.Writes P
  | .tryLock _ k => ∀ b, (k b).Writes P

theorem writes_bind {P : (G → G) → Prop} {x : Tx G L ε α} {f : α → Tx G L ε β} (hx : x.Writes P)
    (hf : ∀ a, (f a).Writes P) : (x >>= f).Writes P := by
  show (x.bind f).Writes P
  induction x with
  | pure a => exact hf a
  | fail e => trivial
  | read k ih => exact fun g => ih g (hx g)
  | write w k ih => exact ⟨hx.1, ih hx.2⟩
  | lock l k ih => exact ih hx
  | tryLock l k ih => exact fun b => ih b (hx b)

theorem writes_each {P : (G → G) → Prop} {f : β → Tx G L ε Unit} (hf : ∀ b, (f b).Writes P)
    (bs : List β) : (each bs f).Writes P := by
  induction bs with
  | nil => trivial
  | cons b bs ih => exact writes_bind (hf b) fun _ => ih

theorem writes_of_readOnly {P : (G → G) → Prop} {x : Tx G L ε α} (hx : x.ReadOnly) :
    x.Writes P := by
  induction x with
  | pure a => trivial
  | fail e => trivial
  | read k ih => exact fun g => ih g (hx g)
  | write w k ih => exact hx.elim
  | lock l k ih => exact hx.elim
  | tryLock l k ih => exact hx.elim

/-- What follows a query sees one of its results. -/
theorem writes_reads_bind {P : (G → G) → Prop} {f : G → α} {k : α → Tx G L ε β}
    (h : ∀ a, (k a).Writes P) : (reads f >>= k).Writes P := fun g => h (f g)

/-- A lock writes nothing. -/
theorem writes_acquire_bind {P : (G → G) → Prop} {l : L} {k : Unit → Tx G L ε β}
    (h : (k ()).Writes P) : (acquire l >>= k).Writes P := h

theorem Writes.mono {P P' : (G → G) → Prop} (hP : ∀ w, P w → P' w) {x : Tx G L ε α}
    (hx : x.Writes P) : x.Writes P' := by
  induction x with
  | pure a => trivial
  | fail e => trivial
  | read k ih => exact fun g => ih g (hx g)
  | write w k ih => exact ⟨hP w hx.1, ih hx.2⟩
  | lock l k ih => exact ih hx
  | tryLock l k ih => exact fun b => ih b (hx b)

/-- A program that reads nothing: what it writes is the same in every store. -/
def Blind : Tx G L ε α → Prop
  | .pure _ => True
  | .fail _ => True
  | .read _ => False
  | .write _ k => k.Blind
  | .lock _ k => k.Blind
  | .tryLock _ _ => False

theorem blind_bind {x : Tx G L ε α} {f : α → Tx G L ε β} (hx : x.Blind) (hf : ∀ a, (f a).Blind) :
    (x >>= f).Blind := by
  show (x.bind f).Blind
  induction x with
  | pure a => exact hf a
  | fail e => trivial
  | read k ih => exact hx.elim
  | write w k ih => exact ih hx
  | lock l k ih => exact ih hx
  | tryLock l k ih => exact hx.elim

theorem blind_each {f : β → Tx G L ε Unit} (hf : ∀ b, (f b).Blind) (bs : List β) :
    (each bs f).Blind := by
  induction bs with
  | nil => trivial
  | cons b bs ih => exact blind_bind (hf b) fun _ => ih

/-- Every error the program may end with, whatever it reads, satisfies `P`. -/
def Throws (P : ε → Prop) : Tx G L ε α → Prop
  | .pure _ => True
  | .fail e => P e
  | .read k => ∀ g, (k g).Throws P
  | .write _ k => k.Throws P
  | .lock _ k => k.Throws P
  | .tryLock _ k => ∀ b, (k b).Throws P

section Throws

variable {P : ε → Prop}

theorem throws_pure (a : α) : (Pure.pure a : Tx G L ε α).Throws P := trivial

theorem throws_throw {e : ε} : (throw e : Tx G L ε α).Throws P ↔ P e := Iff.rfl

theorem throws_reads (f : G → α) : (reads f : Tx G L ε α).Throws P := fun _ => trivial

theorem throws_modify (w : G → G) : (modify w : Tx G L ε Unit).Throws P := trivial

theorem throws_acquire (l : L) : (acquire l : Tx G L ε Unit).Throws P := trivial

theorem throws_bind {x : Tx G L ε α} {f : α → Tx G L ε β} (hx : x.Throws P)
    (hf : ∀ a, (f a).Throws P) : (x >>= f).Throws P := by
  show (x.bind f).Throws P
  induction x with
  | pure a => exact hf a
  | fail e => exact hx
  | read k ih => exact fun g => ih g (hx g)
  | write w k ih => exact ih hx
  | lock l k ih => exact ih hx
  | tryLock l k ih => exact fun b => ih b (hx b)

/-- What follows a query sees one of its results. -/
theorem throws_reads_bind {f : G → α} {k : α → Tx G L ε β} (h : ∀ g, (k (f g)).Throws P) :
    (reads f >>= k).Throws P := h

theorem Throws.bind {x : Tx G L ε α} {f : α → Tx G L ε β} (hx : x.Throws P)
    (hf : ∀ a, (f a).Throws P) : (x >>= f).Throws P := throws_bind hx hf

end Throws

/-- Every result the program may end with, whatever it reads, satisfies `Q`. -/
def Returns (Q : α → Prop) : Tx G L ε α → Prop
  | .pure a => Q a
  | .fail _ => True
  | .read k => ∀ g, (k g).Returns Q
  | .write _ k => k.Returns Q
  | .lock _ k => k.Returns Q
  | .tryLock _ k => ∀ b, (k b).Returns Q

section Returns

variable {Q : α → Prop} {R : β → Prop}

theorem returns_pure {a : α} (h : Q a) : (Pure.pure a : Tx G L ε α).Returns Q := h

/-- What a sequence returns, its second part returns. -/
theorem returns_bind {x : Tx G L ε α} {f : α → Tx G L ε β} (hf : ∀ a, (f a).Returns R) :
    (x >>= f).Returns R := by
  show (x.bind f).Returns R
  induction x with
  | pure a => exact hf a
  | fail e => trivial
  | read k ih => exact fun g => ih g
  | write w k ih => exact ih
  | lock l k ih => exact ih
  | tryLock l k ih => exact fun b => ih b

/-- The second part of a sequence goes on from what the first part returns. -/
theorem Returns.bind {x : Tx G L ε α} {f : α → Tx G L ε β} (hx : x.Returns Q)
    (hf : ∀ a, Q a → (f a).Returns R) : (x >>= f).Returns R := by
  show (x.bind f).Returns R
  induction x with
  | pure a => exact hf a hx
  | fail e => trivial
  | read k ih => exact fun g => ih g (hx g)
  | write w k ih => exact ih hx
  | lock l k ih => exact ih hx
  | tryLock l k ih => exact fun b => ih b (hx b)

/-- The second part of a sequence sees only what the first part returns. -/
theorem Returns.throws_bind {P : ε → Prop} {x : Tx G L ε α} {f : α → Tx G L ε β}
    (hr : x.Returns Q) (hx : x.Throws P) (hf : ∀ a, Q a → (f a).Throws P) :
    (x >>= f).Throws P := by
  show (x.bind f).Throws P
  induction x with
  | pure a => exact hf a hr
  | fail e => exact hx
  | read k ih => exact fun g => ih g (hr g) (hx g)
  | write w k ih => exact ih hr hx
  | lock l k ih => exact ih hr hx
  | tryLock l k ih => exact fun b => ih b (hr b) (hx b)

end Returns

/-! ### Running alone -/

/-- The meaning of a transaction that no other one overlaps: an error leaves no
    trace, success returns the value and the new store. -/
def run : Tx G L ε α → G → Except ε (α × G)
  | .pure a, g => .ok (a, g)
  | .fail e, _ => .error e
  | .read k, g => (k g).run g
  | .write w k, g => k.run (w g)
  | .lock _ k, g => k.run g
  | .tryLock _ k, g => (k true).run g

@[simp] theorem run_pure (a : α) (g : G) :
    (Pure.pure a : Tx G L ε α).run g = .ok (a, g) := rfl

@[simp] theorem run_throw (e : ε) (g : G) :
    (throw e : Tx G L ε α).run g = .error e := rfl

@[simp] theorem run_reads (f : G → α) (g : G) :
    (reads f : Tx G L ε α).run g = .ok (f g, g) := rfl

@[simp] theorem run_modify (w : G → G) (g : G) :
    (modify w : Tx G L ε Unit).run g = .ok ((), w g) := rfl

@[simp] theorem run_acquire (l : L) (g : G) :
    (acquire l : Tx G L ε Unit).run g = .ok ((), g) := rfl

/-- A sequence runs its second part on what the first part left. -/
@[simp] theorem run_bind (x : Tx G L ε α) (f : α → Tx G L ε β) (g : G) :
    (x >>= f).run g =
      match x.run g with
      | .ok (a, g') => (f a).run g'
      | .error e => .error e := by
  show (x.bind f).run g = _
  induction x generalizing g with
  | pure a => rfl
  | fail e => rfl
  | read k ih => simp only [Tx.bind, run, ih]
  | write w k ih => simp only [Tx.bind, run, ih]
  | lock l k ih => simp only [Tx.bind, run, ih]
  | tryLock l k ih => simp only [Tx.bind, run, ih]

@[simp] theorem run_map (f : α → β) (x : Tx G L ε α) (g : G) :
    (f <$> x).run g =
      match x.run g with
      | .ok (a, g') => .ok (f a, g')
      | .error e => .error e := by
  rw [map_eq_pure_bind, run_bind]
  rfl

/-- Whether the program commits when run alone. -/
def commits (x : Tx G L ε α) (g : G) : Bool :=
  match x.run g with
  | .ok _ => true
  | .error _ => false

/-- The store after running the program alone. -/
def after (x : Tx G L ε α) (g : G) : G :=
  match x.run g with
  | .ok (_, g') => g'
  | .error _ => g

theorem run_of_commits {x : Tx G L ε α} {g : G} (h : x.commits g = true) :
    ∃ a, x.run g = .ok (a, x.after g) := by
  cases hrun : x.run g with
  | error e => simp [commits, hrun] at h
  | ok r =>
    obtain ⟨a, g'⟩ := r
    exact ⟨a, by simp [after, hrun]⟩

/-- Whether the program, run alone, commits with a result that satisfies `p`. -/
def returns (x : Tx G L ε α) (p : α → Bool) (g : G) : Bool :=
  match x.run g with
  | .ok (a, _) => p a
  | .error _ => false

theorem run_of_returns {x : Tx G L ε α} {p : α → Bool} {g : G} (h : x.returns p g = true) :
    ∃ a, x.run g = .ok (a, x.after g) ∧ p a = true := by
  cases hrun : x.run g with
  | error e => simp [returns, hrun] at h
  | ok r =>
    obtain ⟨a, g'⟩ := r
    exact ⟨a, by simp [after, hrun], by simpa [returns, hrun] using h⟩

/-- A failed program leaves the store as it was. -/
theorem after_of_error {x : Tx G L ε α} {g : G} {e : ε} (h : x.run g = .error e) :
    x.after g = g := by
  simp [after, h]

theorem after_of_ok {x : Tx G L ε α} {g g' : G} {a : α} (h : x.run g = .ok (a, g')) :
    x.after g = g' := by
  simp [after, h]

/-- A read-only program leaves the store as it was. -/
theorem run_readOnly {x : Tx G L ε α} (hx : x.ReadOnly) {g g' : G} {a : α}
    (h : x.run g = .ok (a, g')) : g' = g := by
  induction x with
  | pure a => exact (congrArg Prod.snd (Except.ok.inj h)).symm
  | fail e => cases h
  | read k ih => exact ih g (hx g) h
  | write w k ih => exact hx.elim
  | lock l k ih => exact hx.elim
  | tryLock l k ih => exact hx.elim

/-- The error of a run is one that the program throws. -/
theorem Throws.run_error {P : ε → Prop} {x : Tx G L ε α} (hx : x.Throws P) {g : G} {e : ε}
    (h : x.run g = .error e) : P e := by
  induction x generalizing g with
  | pure a => cases h
  | fail e' =>
    obtain rfl := Except.error.inj h
    exact hx
  | read k ih => exact ih g (hx g) h
  | write w k ih => exact ih hx h
  | lock l k ih => exact ih hx h
  | tryLock l k ih => exact ih true (hx true) h

/-- The result of a run is one that the program returns. -/
theorem Returns.run_ok {Q : α → Prop} {x : Tx G L ε α} (hx : x.Returns Q) {g g' : G} {a : α}
    (h : x.run g = .ok (a, g')) : Q a := by
  induction x generalizing g with
  | pure b =>
    obtain ⟨rfl, -⟩ := Prod.mk.inj (Except.ok.inj h)
    exact hx
  | fail e => cases h
  | read k ih => exact ih g (hx g) h
  | write w k ih => exact ih hx h
  | lock l k ih => exact ih hx h
  | tryLock l k ih => exact ih true (hx true) h

/-- Inversion of a failed sequence: the first part failed, or the second did after it. -/
theorem run_bind_error {x : Tx G L ε α} {f : α → Tx G L ε β} {g : G} {e : ε} :
    (x >>= f).run g = .error e ↔
      x.run g = .error e ∨ ∃ a g', x.run g = .ok (a, g') ∧ (f a).run g' = .error e := by
  rw [run_bind]
  cases hx : x.run g with
  | error e' => simp
  | ok p =>
    obtain ⟨a, g'⟩ := p
    simp

/-- Inversion of a successful sequence: both parts succeeded. -/
theorem run_bind_ok {x : Tx G L ε α} {f : α → Tx G L ε β} {g : G} {r : β × G} :
    (x >>= f).run g = .ok r ↔ ∃ a g', x.run g = .ok (a, g') ∧ (f a).run g' = .ok r := by
  rw [run_bind]
  cases hx : x.run g with
  | error e => simp
  | ok p =>
    obtain ⟨a, g'⟩ := p
    simp

/-- Run alone on `g`, the program fails with an error that satisfies `P`. -/
def FailsWith (P : ε → Prop) (x : Tx G L ε α) (g : G) : Prop := ∃ e, x.run g = .error e ∧ P e

section FailsWith

variable {P : ε → Prop} {x : Tx G L ε α} {f : α → Tx G L ε β} {g g' : G} {a : α}

/-- A sequence fails in its first part, or in its second part after the first. -/
theorem failsWith_bind : (x >>= f).FailsWith P g ↔
    x.FailsWith P g ∨ ∃ a g', x.run g = .ok (a, g') ∧ (f a).FailsWith P g' := by
  unfold FailsWith
  rw [run_bind]
  cases hx : x.run g with
  | error e => simp
  | ok r =>
    obtain ⟨a, g'⟩ := r
    simp

/-- A sequence whose first part commits fails where its second part does. -/
theorem failsWith_bind_of_run (hx : x.run g = .ok (a, g')) :
    (x >>= f).FailsWith P g ↔ (f a).FailsWith P g' := by
  unfold FailsWith
  rw [run_bind, hx]

theorem Throws.not_failsWith (hx : x.Throws fun e => ¬ P e) : ¬ x.FailsWith P g := by
  rintro ⟨e, he, hP⟩
  exact hx.run_error he hP

/-- If the second part throws no such error, the first one is to blame. -/
theorem failsWith_bind_of_throws (hf : ∀ a, (f a).Throws fun e => ¬ P e) :
    (x >>= f).FailsWith P g ↔ x.FailsWith P g := by
  rw [failsWith_bind]
  refine or_iff_left ?_
  rintro ⟨a, g', -, h⟩
  exact (hf a).not_failsWith h

end FailsWith

/-! ### Postconditions -/

/-- If the program commits when run alone on `g`, it does so with `Q`. -/
def Ensures (x : Tx G L ε α) (g : G) (Q : α → G → Prop) : Prop :=
  ∀ a g', x.run g = .ok (a, g') → Q a g'

section Ensures

variable {g : G} {Q : α → G → Prop} {R : β → G → Prop}

theorem ensures_iff {x : Tx G L ε α} : x.Ensures g Q ↔
    match x.run g with
    | .ok (a, g') => Q a g'
    | .error _ => True := by
  unfold Ensures
  cases h : x.run g with
  | error e => simp
  | ok r =>
    obtain ⟨a, g'⟩ := r
    simp only [Except.ok.injEq, Prod.mk.injEq]
    exact ⟨fun hq => hq a g' ⟨rfl, rfl⟩, by rintro hq _ _ ⟨rfl, rfl⟩; exact hq⟩

theorem ensures_pure {a : α} : (Pure.pure a : Tx G L ε α).Ensures g Q ↔ Q a g := by
  rw [ensures_iff, run_pure]

theorem ensures_throw {e : ε} : (throw e : Tx G L ε α).Ensures g Q ↔ True := by
  rw [ensures_iff, run_throw]

theorem ensures_reads {f : G → α} : (reads f : Tx G L ε α).Ensures g Q ↔ Q (f g) g := by
  rw [ensures_iff, run_reads]

theorem ensures_modify {w : G → G} {Q : Unit → G → Prop} :
    (modify w : Tx G L ε Unit).Ensures g Q ↔ Q () (w g) := by
  rw [ensures_iff, run_modify]

theorem ensures_acquire {l : L} {Q : Unit → G → Prop} :
    (acquire l : Tx G L ε Unit).Ensures g Q ↔ Q () g := by
  rw [ensures_iff, run_acquire]

/-- Composition of postconditions. -/
theorem ensures_bind {x : Tx G L ε α} {f : α → Tx G L ε β} :
    (x >>= f).Ensures g R ↔ x.Ensures g fun a g' => (f a).Ensures g' R := by
  constructor
  · intro h a g' ha b g'' hb
    exact h b g'' (run_bind_ok.2 ⟨a, g', ha, hb⟩)
  · intro h b g'' hb
    obtain ⟨a, g', ha, hb⟩ := run_bind_ok.1 hb
    exact h a g' ha b g'' hb

/-- Using a program's postcondition in a longer one. -/
theorem Ensures.bind {x : Tx G L ε α} {f : α → Tx G L ε β} (hx : x.Ensures g Q)
    (hf : ∀ a g', Q a g' → (f a).Ensures g' R) : (x >>= f).Ensures g R :=
  ensures_bind.2 fun a g' ha => hf a g' (hx a g' ha)

theorem Ensures.mono {x : Tx G L ε α} {Q' : α → G → Prop} (hx : x.Ensures g Q)
    (h : ∀ a g', Q a g' → Q' a g') : x.Ensures g Q' := fun a g' ha => h a g' (hx a g' ha)

/-- A read-only program says nothing about its result and keeps the store. -/
theorem ReadOnly.ensures {x : Tx G L ε α} (hx : x.ReadOnly) : x.Ensures g fun _ g' => g' = g :=
  fun _ _ h => run_readOnly hx h

/-- After a read-only program the store is the same. -/
theorem ReadOnly.ensures_bind {x : Tx G L ε α} (hx : x.ReadOnly) {f : α → Tx G L ε β}
    (hf : ∀ a, (f a).Ensures g R) : (x >>= f).Ensures g R :=
  hx.ensures.bind fun a _ hg => hg ▸ hf a

end Ensures

end Tx

end Txn
