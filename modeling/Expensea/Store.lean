import Expensea.Lib.Interleave
import Expensea.Lib.Table
import Expensea.Models

namespace Expensea

open Txn
open Txn.Tx (reads modify acquire throw)

/-!
# The database

The tables together, the locks transactions take on them, the errors they end with, and
the statements the repositories share.

* `Db`, `Lock`, `AppError`, `DbTx` — what every modelled operation is written over;
* `selectForUpdate` — `SELECT ... FOR UPDATE` of at most one row;
* `insertOrIgnore` — `INSERT ... ON CONFLICT DO NOTHING`;
* `insertChecked` — an ORM insert, flushed: constraints hold or the transaction fails.

Rows of every table stand in insertion order.  Foreign keys are not checked where the
transaction itself has just read or inserted the row they refer to: no modelled
operation deletes rows.
-/

/-- The tables. -/
structure Db where
  users : List User
  people : List Person
  merchants : List Merchant
  categories : List Category
  transactions : List LedgerTransaction
  receivables : List Obligation
  payables : List Obligation
  settlements : List ObligationSettlement
  recurringPayments : List RecurringPayment
  categoryRules : List CategoryRule
  merchantCategoryMaps : List MerchantCategoryMap
  userCorrections : List UserCorrection
  connections : List SourceConnection
  rawEvents : List RawEvent
  processing : List RawEventProcessing
  normalizedEvents : List NormalizedFinancialEvent
  evidence : List Evidence
  cases : List ReconciliationCase
  actions : List ReconciliationAction
  proposals : List FinancialEventProposal
  clock : Instant

/-- A database without rows. -/
def Db.empty (clock : Instant) : Db :=
  ⟨[], [], [], [], [], [], [], [], [], [], [], [], [], [], [], [], [], [], [], [], clock⟩

/-- Tables whose rows or unique keys transactions lock. -/
inductive TableName where
  | people
  | merchants
  | categories
  | transactions
  | receivables
  | payables
  | settlements
  | recurringPayments
  | categoryRules
  | userCorrections
  | connections
  | rawEvents
  | processing
  | normalizedEvents
  | evidence
  | cases
  | actions
  | proposals
  deriving DecidableEq, Repr

/-- Locks: the per-owner advisory lock, row locks, and the wait on a unique key that
    another open transaction is inserting. -/
inductive Lock where
  | advisory (key : Nat)
  | row (table : TableName) (id : Uuid)
  | key (table : TableName) (ids : List Uuid) (text : List PyStr)
  deriving DecidableEq, Repr

/-- The subclasses of `LedgerError`. -/
inductive LedgerErrorKind where
  | validation
  | notFound
  | conflict
  deriving DecidableEq, Repr

/-- `LedgerError` -/
structure LedgerError where
  kind : LedgerErrorKind
  code : String
  message : String
  field : Option String := none
  deriving DecidableEq, Repr

/-- How an operation fails. -/
inductive AppError where
  | ledger (e : LedgerError)
  | ingestionConflict (code message : String)
  | connectorContent (code message : String)
  | connectorUnavailable (code message : String)
  | reconciliationNotFound (code message : String)
  | reconciliationConflict (code message : String)
  | proposalReview (code message : String)
  /-- A pydantic `ValidationError`. -/
  | contract (field : String)
  /-- A violated database constraint. -/
  | integrity (constraint : String)
  /-- A value its column cannot hold. -/
  | data (column : String)
  /-- `OverflowError`: a time outside the calendar. -/
  | overflow
  /-- `RuntimeError` -/
  | runtime (message : String)
  deriving DecidableEq, Repr

/-- Database transactions. -/
abbrev DbTx := Tx Db Lock AppError

/-- The identifiers `uuid4()` draws in one operation, by the row each is for. -/
structure FreshIds where
  connection : Uuid
  rawEvent : Uuid
  normalizedEvent : Uuid
  merchant : Uuid
  transaction : Uuid
  evidence : Uuid
  case : Uuid
  action : Uuid
  proposal : Uuid
  person : Uuid
  obligation : Uuid
  recurringPayment : Uuid
  deriving DecidableEq

/-- Fail unless a condition holds. -/
def require (condition : Bool) (e : AppError) : DbTx Unit :=
  if condition then pure () else throw e

/-- The value of an option, or fail. -/
def requireSome {α : Type} (value : Option α) (e : AppError) : DbTx α :=
  match value with
  | some a => pure a
  | none => throw e

/-- Continue a pure computation that may have failed. -/
def ofExcept {ε α : Type} (f : ε → AppError) : Except ε α → DbTx α
  | .ok a => pure a
  | .error e => throw (f e)

/-- Inversion of a mapped computation that succeeded. -/
theorem map_ok {ε α β : Type} {f : α → β} {x : Except ε α} {b : β} (h : x.map f = .ok b) :
    ∃ a, x = .ok a ∧ b = f a := by
  cases x with
  | error e => cases h
  | ok a => exact ⟨a, rfl, (Except.ok.inj h).symm⟩

/-- Inversion of a computation with a mapped error that failed. -/
theorem mapError_error {ε ε' α : Type} {f : ε → ε'} {x : Except ε α} {e' : ε'}
    (h : x.mapError f = .error e') : ∃ e, x = .error e ∧ e' = f e := by
  cases x with
  | error e => exact ⟨e, rfl, (Except.error.inj h).symm⟩
  | ok a => cases h

/-! ### Text columns -/

/-- A code point PostgreSQL text can hold: neither NUL nor a surrogate. -/
def storableChar (c : CodePoint) : Bool := c != 0 && !isSurrogate c

/-- The text is within a `VARCHAR(limit)` column. -/
def fitsColumn (limit : Nat) (s : PyStr) : Bool := s.length ≤ limit && s.all storableChar

/-- Nullable text columns. -/
def optFitsColumn (limit : Nat) (s : Option PyStr) : Bool := s.all (fitsColumn limit)

/-- A JSONB column holds the value: PostgreSQL rejects NUL in JSON text. -/
def storableValue : Value → Bool
  | .str s => s.all storableChar
  | .list items => items.all (·.all storableChar)
  | _ => true

/-- A JSONB column holds the object. -/
def storableFields (fields : Fields) : Bool := fields.all fun f => storableValue f.2

/-! ### Statements -/

section Statements

variable {R : Type}

/-- `SELECT ... WHERE p FOR UPDATE` of at most one row: chosen from what is committed when
    the statement starts, then locked and checked again. -/
def selectForUpdate (rows : Db → List R) (table : TableName) (key : R → Uuid) (p : R → Bool) :
    DbTx (Option R) := do
  let found ← reads fun g => (rows g).find? p
  match found with
  | none => pure none
  | some r => do
    acquire (.row table (key r))
    reads fun g => (rows g).find? fun r' => key r' == key r && p r'

/-- `INSERT ... ON CONFLICT DO NOTHING`: whether the row was inserted.  A transaction that
    is inserting the same key, or the same primary key, is waited for; any other constraint
    fails the statement.  PostgreSQL lets go of the key where it does nothing; here it stays
    locked until the transaction ends. -/
def insertOrIgnore (key primary : Lock) (conflict : Db → Bool) (violation : Db → Option AppError)
    (row : Db → Db) : DbTx Bool := do
  acquire key
  let present ← reads conflict
  if present then pure false
  else do
    acquire primary
    let failed ← reads violation
    match failed with
    | some e => throw e
    | none => do
      modify row
      pure true

/-- Insert a row unless the store or the row itself violates a constraint.  A transaction
    that is inserting the same primary key is waited for. -/
def insertChecked (key : Lock) (violation : Db → Option AppError) (row : Db → Db) :
    DbTx Unit := do
  acquire key
  let failed ← reads violation
  match failed with
  | some e => throw e
  | none => modify row

end Statements

theorem readOnly_require (condition : Bool) (e : AppError) : (require condition e).ReadOnly := by
  unfold require
  split
  · exact Tx.readOnly_pure ()
  · exact Tx.readOnly_throw e

theorem readOnly_requireSome {α : Type} (value : Option α) (e : AppError) :
    (requireSome value e).ReadOnly := by
  cases value with
  | none => exact Tx.readOnly_throw e
  | some a => exact Tx.readOnly_pure a

theorem readOnly_ofExcept {ε α : Type} (f : ε → AppError) (x : Except ε α) :
    (ofExcept f x).ReadOnly := by
  cases x with
  | error e => exact Tx.readOnly_throw (f e)
  | ok a => exact Tx.readOnly_pure a

section Writes

variable {R α β : Type} {P : (Db → Db) → Prop}

theorem writes_require_bind {condition : Bool} {e : AppError} {k : Unit → DbTx β}
    (h : (k ()).Writes P) : (require condition e >>= k).Writes P :=
  Tx.writes_bind (Tx.writes_of_readOnly (readOnly_require condition e)) fun _ => h

theorem writes_requireSome_bind {value : Option α} {e : AppError} {k : α → DbTx β}
    (h : ∀ a, (k a).Writes P) : (requireSome value e >>= k).Writes P :=
  Tx.writes_bind (Tx.writes_of_readOnly (readOnly_requireSome value e)) h

/-- A pure computation goes on with a value it returned. -/
theorem writes_ofExcept_bind {ε : Type} {f : ε → AppError} {x : Except ε α} {k : α → DbTx β}
    (h : ∀ a, x = .ok a → (k a).Writes P) : (ofExcept f x >>= k).Writes P := by
  cases x with
  | error e => trivial
  | ok a => exact h a rfl

theorem writes_selectForUpdate (rows : Db → List R) (table : TableName) (key : R → Uuid)
    (p : R → Bool) : (selectForUpdate rows table key p).Writes P := by
  refine Tx.writes_reads_bind fun found => ?_
  cases found with
  | none => trivial
  | some r => exact fun _ => trivial

theorem writes_insertOrIgnore {key primary : Lock} {conflict : Db → Bool}
    {violation : Db → Option AppError} {row : Db → Db} (h : P row) :
    (insertOrIgnore key primary conflict violation row).Writes P := by
  refine Tx.writes_acquire_bind (Tx.writes_reads_bind fun present => ?_)
  split
  · trivial
  · refine Tx.writes_acquire_bind (Tx.writes_reads_bind fun failed => ?_)
    cases failed with
    | some e => trivial
    | none => exact ⟨h, trivial⟩

theorem writes_insertChecked {key : Lock} {violation : Db → Option AppError} {row : Db → Db}
    (h : P row) : (insertChecked key violation row).Writes P := by
  refine Tx.writes_acquire_bind (Tx.writes_reads_bind fun failed => ?_)
  cases failed with
  | some e => trivial
  | none => exact ⟨h, trivial⟩

end Writes

section Throws

variable {R α ε : Type} {P : AppError → Prop}

theorem throws_require {condition : Bool} {e : AppError} (he : P e) :
    (require condition e).Throws P := by
  unfold require
  split
  · exact Tx.throws_pure ()
  · exact he

theorem throws_requireSome {value : Option α} {e : AppError} (he : P e) :
    (requireSome value e).Throws P := by
  cases value with
  | none => exact he
  | some a => exact Tx.throws_pure a

theorem throws_ofExcept {f : ε → AppError} {x : Except ε α} (he : ∀ e, x = .error e → P (f e)) :
    (ofExcept f x).Throws P := by
  cases x with
  | error e => exact he e rfl
  | ok a => exact Tx.throws_pure a

/-- A pure computation goes on with a value it returned. -/
theorem throws_ofExcept_bind {f : ε → AppError} {x : Except ε α} {β : Type} {k : α → DbTx β}
    (he : ∀ e, x = .error e → P (f e)) (hk : ∀ a, x = .ok a → (k a).Throws P) :
    (ofExcept f x >>= k).Throws P := by
  cases x with
  | error e => exact he e rfl
  | ok a => exact hk a rfl

theorem throws_selectForUpdate (rows : Db → List R) (table : TableName) (key : R → Uuid)
    (p : R → Bool) : (selectForUpdate rows table key p).Throws P := by
  refine Tx.throws_bind (Tx.throws_reads _) fun found => ?_
  cases found with
  | none => exact Tx.throws_pure none
  | some r => exact Tx.throws_bind (Tx.throws_acquire _) fun _ => Tx.throws_reads _

theorem throws_insertOrIgnore {key primary : Lock} {conflict : Db → Bool} {violation : Db → Option AppError}
    {row : Db → Db} (he : ∀ g e, violation g = some e → P e) :
    (insertOrIgnore key primary conflict violation row).Throws P := by
  refine Tx.throws_bind (Tx.throws_acquire _) fun _ => ?_
  refine Tx.throws_bind (Tx.throws_reads _) fun present => ?_
  split
  · exact Tx.throws_pure false
  · refine Tx.throws_bind (Tx.throws_acquire _) fun _ => ?_
    intro g
    show (match violation g with
      | some e => Tx.throw e
      | none => Tx.modify row >>= fun _ => pure true : DbTx Bool).Throws P
    cases hv : violation g with
    | some e => exact he g e hv
    | none => exact Tx.throws_bind (Tx.throws_modify row) fun _ => Tx.throws_pure true

theorem throws_insertChecked {key : Lock} {violation : Db → Option AppError} {row : Db → Db}
    (he : ∀ g e, violation g = some e → P e) : (insertChecked key violation row).Throws P := by
  refine Tx.throws_bind (Tx.throws_acquire _) fun _ => ?_
  intro g
  show (match violation g with
    | some e => Tx.throw e
    | none => Tx.modify row : DbTx Unit).Throws P
  cases hv : violation g with
  | some e => exact he g e hv
  | none => exact Tx.throws_modify row

end Throws

/-! ### Running statements alone -/

section Run

variable {R α β ε : Type} {g g' : Db}

@[simp] theorem run_require (condition : Bool) (e : AppError) (g : Db) :
    (require condition e).run g = if condition then .ok ((), g) else .error e := by
  unfold require
  split <;> rfl

@[simp] theorem run_requireSome (value : Option α) (e : AppError) (g : Db) :
    (requireSome value e).run g =
      match value with
      | some a => .ok (a, g)
      | none => .error e := by
  cases value <;> rfl

@[simp] theorem run_ofExcept (f : ε → AppError) (x : Except ε α) (g : Db) :
    (ofExcept f x).run g =
      match x with
      | .ok a => .ok (a, g)
      | .error e => .error (f e) := by
  cases x <;> rfl

/-- Among the rows that also have the key of the first row satisfying `p`, that row is
    first. -/
theorem find?_key_eq {rows : List R} {key : R → Uuid} {p : R → Bool} {r : R}
    (h : rows.find? p = some r) : rows.find? (fun r' => key r' == key r && p r') = some r := by
  induction rows with
  | nil => simp at h
  | cons a rows ih =>
    rw [List.find?_cons] at h ⊢
    cases hp : p a with
    | true =>
      obtain rfl : a = r := by simpa [hp] using h
      simp
    | false =>
      rw [hp] at h
      simpa using ih h

/-- Alone, a locking read is a read. -/
@[simp] theorem run_selectForUpdate (rows : Db → List R) (table : TableName) (key : R → Uuid)
    (p : R → Bool) (g : Db) :
    (selectForUpdate rows table key p).run g = .ok ((rows g).find? p, g) := by
  unfold selectForUpdate
  simp only [Tx.run_bind, Tx.run_reads]
  cases hfound : (rows g).find? p with
  | none => simp
  | some r => simp [find?_key_eq hfound]

@[simp] theorem run_insertOrIgnore (key primary : Lock) (conflict : Db → Bool)
    (violation : Db → Option AppError) (row : Db → Db) (g : Db) :
    (insertOrIgnore key primary conflict violation row).run g =
      if conflict g then .ok (false, g)
      else match violation g with
        | some e => .error e
        | none => .ok (true, row g) := by
  simp only [insertOrIgnore, Tx.run_bind, Tx.run_acquire, Tx.run_reads]
  cases hc : conflict g with
  | true => rfl
  | false =>
    simp only [Bool.false_eq_true, if_false, Tx.run_bind, Tx.run_acquire, Tx.run_reads]
    cases hv : violation g <;> rfl

@[simp] theorem run_insertChecked (key : Lock) (violation : Db → Option AppError)
    (row : Db → Db) (g : Db) :
    (insertChecked key violation row).run g =
      match violation g with
      | some e => .error e
      | none => .ok ((), row g) := by
  simp only [insertChecked, Tx.run_bind, Tx.run_acquire, Tx.run_reads]
  cases violation g <;> rfl

/-- A program that goes on if a condition holds. -/
theorem failsWith_require {P : AppError → Prop} {condition : Bool} {e : AppError}
    {f : Unit → DbTx β} (he : ¬ P e) :
    (require condition e >>= f).FailsWith P g ↔ condition = true ∧ (f ()).FailsWith P g := by
  cases condition with
  | false =>
    refine iff_of_false ?_ fun h => by cases h.1
    rintro ⟨e', he', hP⟩
    obtain rfl := Except.error.inj he'
    exact he hP
  | true =>
    rw [require, if_pos rfl, pure_bind]
    simp

/-- A program that goes on with the value of a pure computation. -/
theorem failsWith_ofExcept {P : AppError → Prop} {h : ε → AppError} {x : Except ε α}
    {f : α → DbTx β} (he : ∀ e, x = .error e → ¬ P (h e)) :
    (ofExcept h x >>= f).FailsWith P g ↔ ∃ a, x = .ok a ∧ (f a).FailsWith P g := by
  cases x with
  | error e =>
    refine iff_of_false ?_ ?_
    · rintro ⟨e', he', hP⟩
      obtain rfl := Except.error.inj he'
      exact he e rfl hP
    · rintro ⟨a, ha, -⟩
      cases ha
  | ok a =>
    rw [ofExcept, pure_bind]
    simp

theorem ensures_require {condition : Bool} {e : AppError} {Q : Unit → Db → Prop} :
    (require condition e).Ensures g Q ↔ (condition = true → Q () g) := by
  rw [Tx.ensures_iff, run_require]
  cases condition <;> simp

theorem ensures_requireSome {value : Option α} {e : AppError} {Q : α → Db → Prop} :
    (requireSome value e).Ensures g Q ↔ ∀ a, value = some a → Q a g := by
  rw [Tx.ensures_iff, run_requireSome]
  cases value <;> simp

theorem ensures_ofExcept {f : ε → AppError} {x : Except ε α} {Q : α → Db → Prop} :
    (ofExcept f x).Ensures g Q ↔ ∀ a, x = .ok a → Q a g := by
  rw [Tx.ensures_iff, run_ofExcept]
  cases x <;> simp

theorem ensures_selectForUpdate {rows : Db → List R} {table : TableName} {key : R → Uuid}
    {p : R → Bool} {Q : Option R → Db → Prop} :
    (selectForUpdate rows table key p).Ensures g Q ↔ Q ((rows g).find? p) g := by
  rw [Tx.ensures_iff, run_selectForUpdate]

theorem ensures_insertOrIgnore {key primary : Lock} {conflict : Db → Bool}
    {violation : Db → Option AppError} {row : Db → Db} {Q : Bool → Db → Prop} :
    (insertOrIgnore key primary conflict violation row).Ensures g Q ↔
      (conflict g = true → Q false g) ∧
      (conflict g = false → violation g = none → Q true (row g)) := by
  rw [Tx.ensures_iff, run_insertOrIgnore]
  cases conflict g <;> cases violation g <;> simp

theorem ensures_insertChecked {key : Lock} {violation : Db → Option AppError} {row : Db → Db}
    {Q : Unit → Db → Prop} :
    (insertChecked key violation row).Ensures g Q ↔ (violation g = none → Q () (row g)) := by
  rw [Tx.ensures_iff, run_insertChecked]
  cases violation g <;> simp

end Run

/-! ### Statements among other transactions -/

section Wp

variable {R α β : Type} {D : Discipline Db Lock AppError α} {w : Db → Db} {h : List Lock} {g : Db}

theorem wp_require {condition : Bool} {e : AppError} {Q : Unit → (Db → Db) → List Lock → Db → Prop} :
    D.wp (require condition e) Q w h g ↔ (condition = true → Q () w h g) := by
  unfold require
  split
  · rename_i hc
    simp [hc, D.wp_pure]
  · rename_i hc
    simp [hc, D.wp_throw]

theorem wp_requireSome {value : Option β} {e : AppError}
    {Q : β → (Db → Db) → List Lock → Db → Prop} :
    D.wp (requireSome value e) Q w h g ↔ ∀ a, value = some a → Q a w h g := by
  cases value with
  | none => simp [requireSome, D.wp_throw]
  | some a => simp [requireSome, D.wp_pure]

theorem wp_ofExcept {ε : Type} {f : ε → AppError} {x : Except ε β}
    {Q : β → (Db → Db) → List Lock → Db → Prop} :
    D.wp (ofExcept f x) Q w h g ↔ ∀ a, x = .ok a → Q a w h g := by
  cases x with
  | error e => simp [ofExcept, D.wp_throw]
  | ok a => simp [ofExcept, D.wp_pure]

/-- A locking read that finds a row goes on under the lock of that row, with the row as it
    is committed once the lock is held. -/
theorem wp_selectForUpdate_rely {rows : Db → List R} {table : TableName} {key : R → Uuid}
    {p : R → Bool} {Q : Option R → (Db → Db) → List Lock → Db → Prop}
    (hnone : ∀ g', D.rely h g g' → D.inv g' → Q none w h g')
    (hsome : ∀ r g₁ g₂, p r = true → D.rely h g g₁ → D.inv g₁ →
      D.rely (.row table (key r) :: h) g₁ g₂ → D.inv g₂ →
      Q ((rows (w g₂)).find? fun r' => key r' == key r && p r') w (.row table (key r) :: h) g₂) :
    D.wp (selectForUpdate rows table key p) Q w h g := by
  unfold selectForUpdate
  simp only [D.wp_bind, D.wp_reads]
  intro g₁ hr₁ hi₁
  cases hfound : (rows (w g₁)).find? p with
  | none => exact hnone g₁ hr₁ hi₁
  | some r =>
    simp only [D.wp_bind, D.wp_acquire, D.wp_reads]
    intro g₂ hr₂ hi₂ g₃ hr₃ hi₃
    exact hsome r g₂ g₃ (List.find?_some hfound) (D.rely_trans _ _ _ _ hr₁ hr₂) hi₂ hr₃ hi₃

/-- The same where nothing was known of the store before. -/
theorem wp_selectForUpdate {rows : Db → List R} {table : TableName} {key : R → Uuid}
    {p : R → Bool} {Q : Option R → (Db → Db) → List Lock → Db → Prop}
    (hnone : ∀ g', D.rely h g g' → D.inv g' → Q none w h g')
    (hsome : ∀ r g', p r = true → D.inv g' →
      Q ((rows (w g')).find? fun r' => key r' == key r && p r') w (.row table (key r) :: h) g') :
    D.wp (selectForUpdate rows table key p) Q w h g :=
  wp_selectForUpdate_rely hnone fun r _ g' hp _ _ _ hi => hsome r g' hp hi

/-- An insert that gives way to a row of its key: there is one already, or the row goes in
    while its key and its primary key are locked. -/
theorem wp_insertOrIgnore {key primary : Lock} {conflict : Db → Bool}
    {violation : Db → Option AppError} {row : Db → Db}
    {Q : Bool → (Db → Db) → List Lock → Db → Prop}
    (hpresent : ∀ g₁ g₂, D.rely h g g₁ → D.inv g₁ → D.rely (key :: h) g₁ g₂ → D.inv g₂ →
      conflict (w g₂) = true → Q false w (key :: h) g₂)
    (hins : ∀ g₁ g₂ g₃ g₄ g₅, D.rely h g g₁ → D.inv g₁ → D.rely (key :: h) g₁ g₂ → D.inv g₂ →
      conflict (w g₂) = false → D.rely (key :: h) g₂ g₃ → D.inv g₃ →
      D.rely (primary :: key :: h) g₃ g₄ → D.inv g₄ → violation (w g₄) = none →
      D.rely (primary :: key :: h) g₄ g₅ → D.inv g₅ →
      Q true (row ∘ w) (primary :: key :: h) g₅) :
    D.wp (insertOrIgnore key primary conflict violation row) Q w h g := by
  rw [insertOrIgnore, D.wp_bind, D.wp_acquire]
  intro g₁ hr₁ hi₁
  rw [D.wp_bind, D.wp_reads]
  intro g₂ hr₂ hi₂
  cases hc : conflict (w g₂) with
  | true => exact hpresent g₁ g₂ hr₁ hi₁ hr₂ hi₂ hc
  | false =>
    rw [if_neg (by decide), D.wp_bind, D.wp_acquire]
    intro g₃ hr₃ hi₃
    rw [D.wp_bind, D.wp_reads]
    intro g₄ hr₄ hi₄
    cases hv : violation (w g₄) with
    | some e => trivial
    | none =>
      intro g₅ hr₅ hi₅
      exact hins g₁ g₂ g₃ g₄ g₅ hr₁ hi₁ hr₂ hi₂ hc hr₃ hi₃ hr₄ hi₄ hv hr₅ hi₅

/-- An insert that succeeds was allowed by some store committed after its key was locked. -/
theorem wp_insertChecked {key : Lock} {violation : Db → Option AppError} {row : Db → Db}
    {Q : Unit → (Db → Db) → List Lock → Db → Prop}
    (hins : ∀ g₁ g₂ g₃, D.rely h g g₁ → D.inv g₁ → D.rely (key :: h) g₁ g₂ → D.inv g₂ →
      violation (w g₂) = none → D.rely (key :: h) g₂ g₃ → D.inv g₃ →
      Q () (row ∘ w) (key :: h) g₃) :
    D.wp (insertChecked key violation row) Q w h g := by
  rw [insertChecked, D.wp_bind, D.wp_acquire]
  intro g₁ hr₁ hi₁
  rw [D.wp_bind, D.wp_reads]
  intro g₂ hr₂ hi₂
  cases hv : violation (w g₂) with
  | none => exact fun g₃ hr₃ hi₃ => hins g₁ g₂ g₃ hr₁ hi₁ hr₂ hi₂ hv hr₃ hi₃
  | some e => trivial

end Wp

end Expensea
