import Expensea.Ledger.Commands

namespace Expensea.Ledger

open Txn
open Txn.Tx (reads modify)

/-!
# Obligations — commands, repository and service

`app/ledger/obligation_commands.py`, `obligation_repository.py` and
`obligation_service.py`.  A receivable and a payable have the same columns and the same
two code paths, so every operation is one program with the `ObligationKind` as a
parameter, and the source's two functions are its two instances.

* `createObligation`, `settle`, `cancel` — the three writing workflows;
* `ObligationOperation` — a call of one of them, and the program it runs.
-/

/-- `CreatePersonCommand` -/
structure CreatePersonCommand where
  name : PyStr
  normalizedName : PyStr
  deriving DecidableEq

/-- `CreateObligationCommand` -/
structure CreateObligationCommand where
  personId : Uuid
  amount : ℚ
  currency : PyStr
  description : PyStr
  issuedDate : Date
  dueDate : Option Date
  transactionId : Option Uuid
  deriving DecidableEq

/-- `parse_create_person` -/
def parseCreatePerson (U : Unicode) (name : PyStr) : Except LedgerError CreatePersonCommand :=
  let displayName := normalizeDisplayText U name
  if displayName = [] then
    .error ⟨.validation, "INVALID_PERSON_NAME", "Person name cannot be blank.", some "name"⟩
  else if 120 < displayName.length then
    .error ⟨.validation, "INVALID_PERSON_NAME", "Person name cannot exceed 120 characters.",
      some "name"⟩
  else .ok ⟨displayName, normalizeLookupText U displayName⟩

/-- `_parse_description` -/
def parseDescription (U : Unicode) (description : PyStr) : Except LedgerError PyStr :=
  let normalized := normalizeDisplayText U description
  if normalized = [] then
    .error ⟨.validation, "INVALID_DESCRIPTION", "Description cannot be blank.",
      some "description"⟩
  else if 500 < normalized.length then
    .error ⟨.validation, "INVALID_DESCRIPTION", "Description cannot exceed 500 characters.",
      some "description"⟩
  else .ok normalized

/-- `parse_create_obligation` -/
def parseCreateObligation (U : Unicode) (personId : Uuid) (amount currency description : PyStr)
    (issuedDate : Date) (dueDate : Option Date) (transactionId : Option Uuid) :
    Except LedgerError CreateObligationCommand := do
  let parsedDescription ← parseDescription U description
  if dueDate.any fun due => due < issuedDate then
    throw ⟨.validation, "INVALID_DUE_DATE", "Due date cannot be before the issued date.",
      some "dueDate"⟩
  let parsedAmount ← match parseAmount U amount with
    | .ok value => pure value
    | .error _ => throw ⟨.validation, "INVALID_AMOUNT",
        "Amount must be positive, finite, and have at most four decimal places.", some "amount"⟩
  let parsedCurrency ← parseCurrency U currency
  pure ⟨personId, parsedAmount, parsedCurrency, parsedDescription, issuedDate, dueDate,
    transactionId⟩

/-- What an accepted obligation was parsed from. -/
theorem parseCreateObligation_ok {U : Unicode} {personId : Uuid}
    {amount currency description : PyStr} {issuedDate : Date} {dueDate : Option Date}
    {transactionId : Option Uuid} {command : CreateObligationCommand}
    (h : parseCreateObligation U personId amount currency description issuedDate dueDate
      transactionId = .ok command) :
    ∃ parsedDescription parsedAmount parsedCurrency,
      parseDescription U description = .ok parsedDescription ∧
      (dueDate.any fun due => due < issuedDate) = false ∧
      parseAmount U amount = .ok parsedAmount ∧ parseCurrency U currency = .ok parsedCurrency ∧
      command = ⟨personId, parsedAmount, parsedCurrency, parsedDescription, issuedDate, dueDate,
        transactionId⟩ := by
  unfold parseCreateObligation at h
  cases hdescription : parseDescription U description with
  | error e => rw [hdescription] at h; cases h
  | ok parsedDescription =>
    rw [hdescription] at h
    cases hdue : dueDate.any fun due => due < issuedDate with
    | true => simp [hdue, bind, Except.bind, throw, throwThe, MonadExceptOf.throw] at h
    | false =>
      cases hamount : parseAmount U amount with
      | error e => simp [hdue, hamount, bind, Except.bind, throw, throwThe, MonadExceptOf.throw] at h
      | ok parsedAmount =>
        cases hcurrency : parseCurrency U currency with
        | error e => simp [hdue, hamount, hcurrency, bind, Except.bind, pure, Except.pure] at h
        | ok parsedCurrency =>
          simp [hdue, hamount, hcurrency, bind, Except.bind, pure, Except.pure] at h
          exact ⟨_, _, _, rfl, rfl, rfl, rfl, h.symm⟩

/-- `SettleObligationCommand` -/
structure SettleObligationCommand where
  amount : Decimal
  currency : PyStr
  settledAt : Instant
  transactionId : Option Uuid
  note : Option PyStr
  deriving DecidableEq

/-- `parse_settlement` -/
def parseSettlement (U : Unicode) (amount currency : PyStr) (settledAt : DateTime)
    (transactionId : Option Uuid) (note : Option PyStr) :
    Except AppError SettleObligationCommand := do
  match settledAt.offset with
  | none => throw (.ledger ⟨.validation, "INVALID_SETTLEMENT_DATE",
      "Settlement date must include a timezone offset.", some "settledAt"⟩)
  | some offset =>
    let normalizedNote := (note.map (normalizeDisplayText U)).filter (· ≠ [])
    if normalizedNote.any fun text => 500 < text.length then
      throw (.ledger ⟨.validation, "INVALID_SETTLEMENT_NOTE",
        "Settlement note cannot exceed 500 characters.", some "note"⟩)
    let parsedAmount ← match parseAmount U amount with
      | .ok value => pure value
      | .error _ => throw (.ledger ⟨.validation, "INVALID_AMOUNT",
          "Amount must be positive, finite, and have at most four decimal places.", some "amount"⟩)
    let parsedCurrency ← (parseCurrency U currency).mapError .ledger
    match astimezoneUtc settledAt.wall offset with
    | none => throw .overflow
    | some settledAt =>
      pure ⟨.finite parsedAmount, parsedCurrency, settledAt, transactionId, normalizedNote⟩

/-- What an accepted settlement was parsed from. -/
theorem parseSettlement_ok {U : Unicode} {amount currency : PyStr} {settledAt : DateTime}
    {transactionId : Option Uuid} {note : Option PyStr} {command : SettleObligationCommand}
    (h : parseSettlement U amount currency settledAt transactionId note = .ok command) :
    ∃ value, parseAmount U amount = .ok value ∧ command.amount = .finite value ∧
      parseCurrency U currency = .ok command.currency ∧
      command.note = (note.map (normalizeDisplayText U)).filter (· ≠ []) ∧
      ∀ text, command.note = some text → text.length ≤ 500 := by
  unfold parseSettlement at h
  split at h
  · cases h
  simp only [bind, Except.bind, throw, throwThe, MonadExceptOf.throw, pure, Except.pure] at h
  split at h
  · cases h
  rename_i hlength
  cases hamount : parseAmount U amount with
  | error e =>
    rw [hamount] at h
    cases h
  | ok value =>
    cases hcode : parseCurrency U currency with
    | error e =>
      rw [hamount, hcode] at h
      cases h
    | ok code =>
      rw [hamount, hcode] at h
      dsimp only [Except.mapError] at h
      split at h
      · cases h
      obtain rfl := Except.ok.inj h
      refine ⟨value, rfl, rfl, rfl, rfl, fun text htext => ?_⟩
      dsimp only at htext
      rw [htext, Option.any_some, decide_eq_true_eq] at hlength
      exact not_lt.1 hlength

/-- `ObligationView` -/
structure ObligationView where
  id : Uuid
  kind : ObligationKind
  personId : Uuid
  personName : PyStr
  amount : ℚ
  settledAmount : ℚ
  outstandingAmount : ℚ
  currency : PyStr
  description : PyStr
  issuedDate : Date
  dueDate : Option Date
  settlementStatus : ObligationStatus
  effectiveStatus : ObligationStatus
  transactionId : Option Uuid
  deriving DecidableEq

/-- `SettlementView` -/
structure SettlementView where
  id : Uuid
  kind : ObligationKind
  obligationId : Uuid
  amount : ℚ
  currency : PyStr
  settledAt : Instant
  transactionId : Option Uuid
  note : Option PyStr
  deriving DecidableEq

/-- `SettlementResult` -/
structure SettlementResult where
  settlement : SettlementView
  obligation : ObligationView
  deriving DecidableEq

/-! ### The two tables -/

/-- The rows of `receivables` or of `payables`. -/
def obligations : ObligationKind → Db → List Obligation
  | .receivable, g => g.receivables
  | .payable, g => g.payables

/-- Replace the rows of `receivables` or of `payables`. -/
def setObligations (kind : ObligationKind) (f : List Obligation → List Obligation) (g : Db) : Db :=
  match kind with
  | .receivable => { g with receivables := f g.receivables }
  | .payable => { g with payables := f g.payables }

/-- The table an obligation stands in. -/
def obligationTable : ObligationKind → TableName
  | .receivable => .receivables
  | .payable => .payables

/-- The settlement's `receivable_id` or `payable_id` is this one. -/
def refersTo (kind : ObligationKind) (id : Uuid)
    (s : ObligationSettlement) : Bool :=
  match kind with
  | .receivable => s.receivableId == some id
  | .payable => s.payableId == some id

/-- The settlements of one obligation. -/
def settlementsOf (kind : ObligationKind) (id : Uuid) (g : Db) : List ObligationSettlement :=
  g.settlements.filter (refersTo kind id)

/-- `sum(amount)` of settlements, in units of `0.0001`. -/
def settledUnits (settlements : List ObligationSettlement) : ℤ :=
  settlements.foldr (fun s n => s.amount.units + n) 0

/-! ### Repository -/

/-- `owner_timezone` -/
def ownerTimezone (userId : Uuid) : DbTx (Option PyStr) :=
  reads fun g => (g.users.find? fun u => u.id == userId).map User.timezone

/-- `create_person` -/
def createPersonRow (personId userId : Uuid) (command : CreatePersonCommand) :
    DbTx (Option Uuid) := do
  require (fitsColumn 120 command.name && fitsColumn 120 command.normalizedName) (.data "people")
  require (notBlank command.name) (.integrity "ck_people_name_not_blank")
  require (notBlank command.normalizedName) (.integrity "ck_people_normalized_name_not_blank")
  let inserted ← insertOrIgnore (.key .people [userId] [command.normalizedName])
    (.row .people personId)
    (fun g => g.people.any fun p =>
      p.userId == userId && p.normalizedName == command.normalizedName)
    (fun g => if g.people.any fun p => p.id == personId then
      some (.integrity "pk_people") else none)
    (fun g => { g with
      people := g.people ++ [⟨personId, userId, command.name, command.normalizedName⟩] })
  pure (if inserted then some personId else none)

/-- `person_exists` -/
def personExists (userId personId : Uuid) : DbTx Bool :=
  reads fun g => g.people.any fun p => p.userId == userId && p.id == personId

/-- `transaction_exists` -/
def transactionExists (userId transactionId : Uuid) : DbTx Bool :=
  reads fun g => g.transactions.any fun t => t.userId == userId && t.id == transactionId

/-- `_obligation_view`.  `amount` is the attribute of the loaded object. -/
def obligationView (obligation : Obligation) (amount : ℚ) (kind : ObligationKind)
    (personName : PyStr) (settledAmount : ℚ) (asOf : Date) : ObligationView :=
  let remainingPrincipal := decSub amount settledAmount
  let outstanding := if obligation.status = .cancelled then 0 else remainingPrincipal
  { id := obligation.id
    kind := kind
    personId := obligation.personId
    personName := personName
    amount := amount
    settledAmount := settledAmount
    outstandingAmount := outstanding
    currency := obligation.currency
    description := obligation.description
    issuedDate := obligation.issuedDate
    dueDate := obligation.dueDate
    settlementStatus := obligation.status
    effectiveStatus :=
      if (obligation.status = .opened ∨ obligation.status = .partiallyPaid) ∧
          (obligation.dueDate.any fun due => due < asOf) ∧ 0 < outstanding then
        .overdue
      else obligation.status
    transactionId := obligation.transactionId }

/-- `get_receivable` and `get_payable`: the row joined with its person and its settled
    total.  An object the session created itself still has the amount it was given. -/
def getObligation (kind : ObligationKind) (userId id : Uuid) (given : Option ℚ) (asOf : Date) :
    DbTx (Option ObligationView) :=
  reads fun g => do
    let obligation ← (obligations kind g).find? fun o => o.userId == userId && o.id == id
    let person ← g.people.find? fun p => p.id == obligation.personId && p.userId == userId
    some (obligationView obligation (given.getD obligation.amount.value) kind person.name
      (settledUnits (settlementsOf kind id g) / 10 ^ 4) asOf)

/-- The constraints on a new row of `receivables` or `payables`. -/
def obligationViolation (kind : ObligationKind) (id : Uuid) (command : CreateObligationCommand)
    (g : Db) : Option AppError :=
  if (obligations kind g).any fun o => o.id == id then some (.integrity "pk")
  else if !(fitsColumn 3 command.currency && fitsColumn 500 command.description) then
    some (.data "text")
  else match Money.store command.amount with
    | none => some (.data "amount")
    | some amount =>
      if !(0 < amount.units) then some (.integrity "amount_positive")
      else if !currencyFormat command.currency then some (.integrity "currency_format")
      else if !notBlank command.description then some (.integrity "description_not_blank")
      else if !(command.dueDate.all fun due => command.issuedDate ≤ due) then
        some (.integrity "due_not_before_issued")
      else none

/-- `create_receivable` and `create_payable` of the repository. -/
def createObligationRow (kind : ObligationKind) (id userId : Uuid)
    (command : CreateObligationCommand) (asOf : Date) : DbTx ObligationView := do
  insertChecked (.row (obligationTable kind) id) (obligationViolation kind id command) fun g =>
    match Money.store command.amount with
    | none => g
    | some amount => setObligations kind (· ++ [{
        id := id
        userId := userId
        personId := command.personId
        amount := amount
        currency := command.currency
        description := command.description
        issuedDate := command.issuedDate
        dueDate := command.dueDate
        status := .opened
        transactionId := command.transactionId }]) g
  let projected ← getObligation kind userId id (some command.amount) asOf
  requireSome projected (.runtime "Inserted obligation was not visible in its owner scope")

/-- `lock_receivable` and `lock_payable` -/
def lockObligation (kind : ObligationKind) (userId id : Uuid) : DbTx (Option Obligation) :=
  selectForUpdate (obligations kind) (obligationTable kind) Obligation.id fun o =>
    o.userId == userId && o.id == id

/-- `receivable_settled_amount` and `payable_settled_amount` -/
def settledAmount (kind : ObligationKind) (userId id : Uuid) : DbTx ℚ :=
  reads fun g =>
    settledUnits ((settlementsOf kind id g).filter fun s => s.userId == userId) / 10 ^ 4

/-- The row `add_receivable_settlement` or `add_payable_settlement` inserts. -/
def settlementRow (kind : ObligationKind) (settlementId userId id : Uuid)
    (command : SettleObligationCommand) (amount : Money) : ObligationSettlement where
  id := settlementId
  userId := userId
  receivableId := if kind = .receivable then some id else none
  payableId := if kind = .payable then some id else none
  amount := amount
  currency := command.currency
  settledAt := command.settledAt
  transactionId := command.transactionId
  note := command.note

/-- The constraints on a new row of `obligation_settlements`. -/
def settlementViolation (settlementId : Uuid) (command : SettleObligationCommand) (amount : ℚ)
    (g : Db) : Option AppError :=
  if g.settlements.any fun s => s.id == settlementId then
    some (.integrity "pk_obligation_settlements")
  else if !(fitsColumn 3 command.currency && optFitsColumn 500 command.note) then
    some (.data "text")
  else match Money.store amount with
    | none => some (.data "amount")
    | some stored =>
      if !(0 < stored.units) then some (.integrity "amount_positive")
      else if !currencyFormat command.currency then some (.integrity "currency_format")
      else none

/-- `add_receivable_settlement` and `add_payable_settlement` -/
def addSettlement (kind : ObligationKind) (settlementId userId id : Uuid)
    (command : SettleObligationCommand) (amount : ℚ) : DbTx SettlementView := do
  insertChecked (.row .settlements settlementId)
      (settlementViolation settlementId command amount) fun g =>
    match Money.store amount with
    | none => g
    | some stored => { g with
        settlements := g.settlements ++ [settlementRow kind settlementId userId id command stored] }
  pure {
    id := settlementId
    kind := kind
    obligationId := id
    amount := amount
    currency := command.currency
    settledAt := command.settledAt
    transactionId := command.transactionId
    note := command.note }

/-- `obligation.status = status`, flushed. -/
def setObligationStatus (kind : ObligationKind) (id : Uuid) (status : ObligationStatus) :
    DbTx Unit :=
  modify (setObligations kind (Table.set Obligation.id id fun o => { o with status := status }))

/-! ### Service -/

/-- The error of `_require_owner`. -/
def profileNotFound : LedgerError :=
  ⟨.notFound, "PROFILE_NOT_FOUND", "The ledger profile was not found.", none⟩

/-- `_require_owner` -/
def requireOwner (userId : Uuid) : DbTx PyStr := do
  let timezoneName ← ownerTimezone userId
  requireSome timezoneName (.ledger profileNotFound)

/-- `parse_timezone` of the owner's stored zone name. -/
def parseTimezone (zones : TimeZones) (timezoneName : PyStr) : DbTx Unit :=
  require (zones.known timezoneName)
    (.ledger ⟨.validation, "INVALID_TIMEZONE", "The configured user timezone is not recognized.",
      some "timezone"⟩)

/-- `_owner_today`, by a clock that shows `now`. -/
def ownerToday (zones : TimeZones) (now : Instant) (userId : Uuid) : DbTx Date := do
  let timezoneName ← requireOwner userId
  parseTimezone zones timezoneName
  pure (zones.localDate timezoneName now)

/-- The error of an unknown transaction reference. -/
def transactionNotFound : LedgerError :=
  ⟨.notFound, "TRANSACTION_NOT_FOUND", "The transaction was not found.", some "transactionId"⟩

/-- `_validate_settlement_reference` -/
def validateTransactionReference (userId : Uuid) (transactionId : Option Uuid) : DbTx Unit :=
  match transactionId with
  | none => pure ()
  | some id => do
    let present ← transactionExists userId id
    require present (.ledger transactionNotFound)

/-- `_validate_create_references` -/
def validateCreateReferences (userId : Uuid) (command : CreateObligationCommand) : DbTx Unit := do
  let present ← personExists userId command.personId
  require present
    (.ledger ⟨.notFound, "PERSON_NOT_FOUND", "The person was not found.", some "personId"⟩)
  validateTransactionReference userId command.transactionId

/-- `_validate_settlement`: the amount, once it may be settled. -/
def validateSettlement (obligation : Obligation) (command : SettleObligationCommand)
    (alreadySettled : ℚ) : Except LedgerError ℚ :=
  match validatePositiveMoney command.amount with
  | .error _ => .error ⟨.validation, "INVALID_AMOUNT",
      "Settlement amount must be positive and exact.", some "amount"⟩
  | .ok amount =>
    if obligation.status = .cancelled then
      .error ⟨.conflict, "OBLIGATION_CANCELLED", "A cancelled obligation cannot be settled.", none⟩
    else if obligation.status = .paid then
      .error ⟨.conflict, "OBLIGATION_PAID", "A paid obligation cannot be settled again.", none⟩
    else if command.currency ≠ obligation.currency then
      .error ⟨.validation, "SETTLEMENT_CURRENCY_MISMATCH",
        "Settlement currency must match the obligation currency.", some "currency"⟩
    else if decSub obligation.amount.value alreadySettled < amount then
      .error ⟨.conflict, "SETTLEMENT_EXCEEDS_OUTSTANDING",
        "Settlement amount exceeds the outstanding principal.", some "amount"⟩
    else .ok amount

/-- `_next_status` -/
def nextStatus (principal settled : ℚ) : ObligationStatus :=
  if settled = principal then .paid else .partiallyPaid

/-- The error of an unknown receivable or payable. -/
def obligationNotFound : ObligationKind → LedgerError
  | .receivable => ⟨.notFound, "RECEIVABLE_NOT_FOUND", "The receivable was not found.", none⟩
  | .payable => ⟨.notFound, "PAYABLE_NOT_FOUND", "The payable was not found.", none⟩

/-- `create_person` -/
def createPerson (personId userId : Uuid) (command : CreatePersonCommand) : DbTx Uuid := do
  let _ ← requireOwner userId
  let person ← createPersonRow personId userId command
  requireSome person (.ledger ⟨.conflict, "PERSON_ALREADY_EXISTS",
    "A person with that name already exists.", some "name"⟩)

/-- `create_receivable` and `create_payable`. -/
def createObligation (kind : ObligationKind) (zones : TimeZones) (now : Instant)
    (id userId : Uuid) (command : CreateObligationCommand) : DbTx ObligationView := do
  let asOf ← ownerToday zones now userId
  validateCreateReferences userId command
  createObligationRow kind id userId command asOf

/-- `settle_receivable` and `settle_payable`. -/
def settle (kind : ObligationKind) (zones : TimeZones) (now : Instant)
    (settlementId userId id : Uuid) (command : SettleObligationCommand) :
    DbTx SettlementResult := do
  let asOf ← ownerToday zones now userId
  let locked ← lockObligation kind userId id
  let obligation ← requireSome locked (.ledger (obligationNotFound kind))
  validateTransactionReference userId command.transactionId
  let settled ← settledAmount kind userId id
  let amount ← ofExcept .ledger (validateSettlement obligation command settled)
  let settlement ← addSettlement kind settlementId userId id command amount
  setObligationStatus kind id (nextStatus obligation.amount.value (decAdd settled amount))
  let projected ← getObligation kind userId id none asOf
  let projected ← requireSome projected (.ledger (obligationNotFound kind))
  pure ⟨settlement, projected⟩

/-- `cancel_receivable` and `cancel_payable`. -/
def cancel (kind : ObligationKind) (zones : TimeZones) (now : Instant) (userId id : Uuid) :
    DbTx ObligationView := do
  let asOf ← ownerToday zones now userId
  let locked ← lockObligation kind userId id
  let obligation ← requireSome locked (.ledger (obligationNotFound kind))
  require (obligation.status ≠ .paid)
    (.ledger ⟨.conflict, "OBLIGATION_PAID", "A paid obligation cannot be cancelled.", none⟩)
  setObligationStatus kind id .cancelled
  let projected ← getObligation kind userId id none asOf
  requireSome projected (.ledger (obligationNotFound kind))

/-- `create_receivable` -/
def createReceivable := createObligation .receivable

/-- `create_payable` -/
def createPayable := createObligation .payable

/-- `settle_receivable` -/
def settleReceivable := settle .receivable

/-- `settle_payable` -/
def settlePayable := settle .payable

/-- `cancel_receivable` -/
def cancelReceivable := cancel .receivable

/-- `cancel_payable` -/
def cancelPayable := cancel .payable

/-- A call of a writing workflow, with the values its session draws: the clock and new
    identifiers. -/
inductive ObligationOperation where
  | createReceivable (now : Instant) (id userId : Uuid) (command : CreateObligationCommand)
  | createPayable (now : Instant) (id userId : Uuid) (command : CreateObligationCommand)
  | settleReceivable (now : Instant) (settlementId userId id : Uuid)
      (command : SettleObligationCommand)
  | settlePayable (now : Instant) (settlementId userId id : Uuid)
      (command : SettleObligationCommand)
  | cancelReceivable (now : Instant) (userId id : Uuid)
  | cancelPayable (now : Instant) (userId id : Uuid)

/-- The obligation a call returned. -/
inductive ObligationResult where
  | obligation (view : ObligationView)
  | settlement (result : SettlementResult)
  deriving DecidableEq

/-- The transaction a call runs. -/
def ObligationOperation.program (zones : TimeZones) :
    ObligationOperation → DbTx ObligationResult
  | .createReceivable now id userId command => do
    pure (.obligation (← Ledger.createReceivable zones now id userId command))
  | .createPayable now id userId command => do
    pure (.obligation (← Ledger.createPayable zones now id userId command))
  | .settleReceivable now settlementId userId id command => do
    pure (.settlement (← Ledger.settleReceivable zones now settlementId userId id command))
  | .settlePayable now settlementId userId id command => do
    pure (.settlement (← Ledger.settlePayable zones now settlementId userId id command))
  | .cancelReceivable now userId id => do
    pure (.obligation (← Ledger.cancelReceivable zones now userId id))
  | .cancelPayable now userId id => do
    pure (.obligation (← Ledger.cancelPayable zones now userId id))

end Expensea.Ledger
