import Expensea.Categorization.Repository

namespace Expensea.Ledger

open Txn
open Txn.Tx (reads modify acquire)

/-!
# Ledger services — manual transactions and recurring payments

`create_transaction` of `app/ledger/service.py`, and what `recurring_repository.py` and
`recurring_service.py` write.
-/

/-- A category assignment put into a command. -/
def CreateTransactionCommand.assigned (command : CreateTransactionCommand)
    (assignment : Categorization.CategoryAssignment) : CreateTransactionCommand :=
  { command with
    categoryId := some assignment.categoryId
    categorySource := some assignment.source
    categoryClassifierVersion := some assignment.version
    categoryConfidence := some assignment.confidence
    categoryOverridden := assignment.overridden }

/-- The error of an unknown profile. -/
def profileMissing : LedgerError :=
  ⟨.notFound, "PROFILE_NOT_FOUND", "The ledger profile was not found.", none⟩

/-- `create_transaction` of the service: manual entry, classified unless a category is
    chosen. -/
def createManualTransaction (U : Unicode) (merchantId transactionId userId : Uuid)
    (command : CreateTransactionCommand) : DbTx TransactionView := do
  let known ← userExists userId
  require known (.ledger profileMissing)
  match command.categoryId with
  | some categoryId => do
    let visible ← categoryIsVisible userId categoryId
    require visible (.ledger ⟨.notFound, "CATEGORY_NOT_FOUND",
      "The selected category was not found.", some "categoryId"⟩)
    createTransaction merchantId transactionId userId command
  | none => do
    let assignment ← Categorization.classify U userId command.description
      (command.merchant.map Prod.snd)
    match assignment with
    | some assignment =>
      createTransaction merchantId transactionId userId (command.assigned assignment)
    | none => createTransaction merchantId transactionId userId command

/-! ### Categories -/

/-- `category_name_is_visible` -/
def categoryNameIsVisible (userId : Uuid) (normalizedName : PyStr) : DbTx Bool :=
  reads fun g => g.categories.any fun c => c.normalizedName == normalizedName && Visible userId c

/-- The constraints on a new row of `categories`. -/
def categoryViolation (id userId : Uuid) (command : CreateCategoryCommand) (g : Db) :
    Option AppError :=
  if !(fitsColumn 80 command.name && fitsColumn 80 command.normalizedName) then
    some (.data "categories")
  else if !notBlank command.name then some (.integrity "ck_categories_name_not_blank")
  else if !notBlank command.normalizedName then
    some (.integrity "ck_categories_normalized_name_not_blank")
  else if command.parentCategoryId == some id then
    some (.integrity "ck_categories_parent_not_self")
  else if g.categories.any fun c => c.id == id then some (.integrity "pk_categories")
  else if g.categories.any fun c =>
      c.userId == some userId && c.normalizedName == command.normalizedName then
    some (.integrity "uq_categories_user_normalized_name")
  else none

/-- `create_category` of the repository. -/
def createCategoryRow (id userId : Uuid) (command : CreateCategoryCommand) : DbTx Uuid := do
  acquire (.key .categories [userId] [command.normalizedName])
  insertChecked (.row .categories id) (categoryViolation id userId command) fun g => { g with
    categories := g.categories ++ [⟨id, some userId, command.name, command.normalizedName,
      command.parentCategoryId⟩] }
  pure id

/-- The parent of a new category is visible. -/
def requireParent (userId : Uuid) : Option Uuid → DbTx Unit
  | none => pure ()
  | some parent => do
    let visible ← categoryIsVisible userId parent
    require visible (.ledger ⟨.notFound, "CATEGORY_NOT_FOUND",
      "The parent category was not found.", some "parentCategoryId"⟩)

/-- `create_category` of the service. -/
def createCategory (id userId : Uuid) (command : CreateCategoryCommand) : DbTx Uuid := do
  let known ← userExists userId
  require known (.ledger profileMissing)
  requireParent userId command.parentCategoryId
  let taken ← categoryNameIsVisible userId command.normalizedName
  require (!taken) (.ledger ⟨.conflict, "CATEGORY_ALREADY_EXISTS",
    "A category with that name already exists.", some "name"⟩)
  createCategoryRow id userId command

/-! ### Recurring payments -/

/-- `CreateRecurringPaymentCommand` -/
structure CreateRecurringPaymentCommand where
  amount : ℚ
  currency : PyStr
  merchantName : PyStr
  normalizedMerchantName : PyStr
  recurrenceRule : RecurrenceRule
  nextExpectedDate : Date
  deriving DecidableEq

/-- `parse_create_recurring_payment` -/
def parseCreateRecurringPayment (U : Unicode) (amount currency merchantName : PyStr)
    (recurrenceRule : RecurrenceRule) (nextExpectedDate : Date) :
    Except LedgerError CreateRecurringPaymentCommand := do
  let displayName := normalizeDisplayText U merchantName
  let normalizedName := normalizeLookupText U displayName
  if displayName = [] ∨ normalizedName = [] then
    throw ⟨.validation, "INVALID_MERCHANT", "Merchant name cannot be blank.", some "merchantName"⟩
  if 160 < displayName.length ∨ 160 < normalizedName.length then
    throw ⟨.validation, "INVALID_MERCHANT", "Merchant name cannot exceed 160 characters.",
      some "merchantName"⟩
  let parsedAmount ← match parseAmount U amount with
    | .ok value => pure value
    | .error _ => throw ⟨.validation, "INVALID_AMOUNT",
        "Amount must be positive, finite, and have at most four decimal places.", some "amount"⟩
  let parsedCurrency ← parseCurrency U currency
  pure ⟨parsedAmount, parsedCurrency, displayName, normalizedName, recurrenceRule,
    nextExpectedDate⟩

/-- What an accepted recurring payment was parsed from. -/
theorem parseCreateRecurringPayment_ok {U : Unicode} {amount currency merchantName : PyStr}
    {recurrenceRule : RecurrenceRule} {nextExpectedDate : Date}
    {command : CreateRecurringPaymentCommand}
    (h : parseCreateRecurringPayment U amount currency merchantName recurrenceRule
      nextExpectedDate = .ok command) :
    let displayName := normalizeDisplayText U merchantName
    let normalizedName := normalizeLookupText U displayName
    ¬ (displayName = [] ∨ normalizedName = []) ∧
      ¬ (160 < displayName.length ∨ 160 < normalizedName.length) ∧
      ∃ parsedAmount parsedCurrency, parseAmount U amount = .ok parsedAmount ∧
        parseCurrency U currency = .ok parsedCurrency ∧
        command = ⟨parsedAmount, parsedCurrency, displayName, normalizedName, recurrenceRule,
          nextExpectedDate⟩ := by
  unfold parseCreateRecurringPayment at h
  simp only [bind, Except.bind, throw, throwThe, MonadExceptOf.throw, pure, Except.pure] at h
  split at h
  · cases h
  rename_i hne
  split at h
  · cases h
  rename_i hle
  cases hamount : parseAmount U amount with
  | error e =>
    rw [hamount] at h
    cases h
  | ok value =>
    cases hcode : parseCurrency U currency with
    | error e =>
      rw [hamount, hcode] at h
      cases h
    | ok code =>
      rw [hamount, hcode] at h
      exact ⟨hne, hle, value, code, rfl, rfl, (Except.ok.inj h).symm⟩

/-- `get_or_create_merchant` of recurring payments: an existing row is kept as it is. -/
def getOrCreateRecurringMerchant (merchantId : Uuid) (command : CreateRecurringPaymentCommand) :
    DbTx Uuid := do
  let merchant ← getOrCreateMerchant merchantId
    (some (command.merchantName, command.normalizedMerchantName))
  requireSome merchant (.runtime "Canonical merchant insert completed without a visible row")

/-- `create` of the recurring repository. -/
def createRecurringRow (id userId merchantId : Uuid) (command : CreateRecurringPaymentCommand) :
    DbTx Uuid := do
  require (fitsColumn 3 command.currency) (.data "recurring_payments")
  let amount ← requireSome (Money.store command.amount) (.data "amount")
  require (0 < amount.units) (.integrity "ck_recurring_payments_amount_positive")
  require (currencyFormat command.currency) (.integrity "ck_recurring_payments_currency_format")
  insertChecked (.row .recurringPayments id)
    (fun g => if g.recurringPayments.any fun p => p.id == id then
      some (.integrity "pk_recurring_payments") else none)
    (fun g => { g with recurringPayments := g.recurringPayments ++ [{
      id := id
      userId := userId
      merchantId := merchantId
      amount := amount
      currency := command.currency
      recurrenceRule := command.recurrenceRule
      nextExpectedDate := command.nextExpectedDate
      status := .active }] })
  pure id

/-- `advance_expected_date`; `none` is a date outside the calendar. -/
def advanceExpectedDate (current : Date) (rule : RecurrenceRule) : Option Date :=
  let advanced := match rule with
    | .weekly => current + 7
    | .monthly => addMonths 1
    | .quarterly => addMonths 3
    | .yearly => addMonths 12
  if advanced ≤ MAX_DATE then some advanced else none
where
  /-- The same day so many months later, month ends staying month ends. -/
  addMonths (months : ℤ) : Date :=
    let c := Date.civil current
    let absoluteMonth := c.year * 12 + c.month - 1 + months
    let targetYear := absoluteMonth / 12
    let targetMonth := absoluteMonth % 12 + 1
    let sourceMonthEnd := daysInMonth c.year c.month
    let targetMonthEnd := daysInMonth targetYear targetMonth
    let targetDay := if c.day = sourceMonthEnd then targetMonthEnd else min c.day targetMonthEnd
    (CivilDate.mk targetYear targetMonth targetDay).toDate

/-- The command of the expense that records an occurrence. -/
def recurringExpense (payment : RecurringPayment) (merchantName : PyStr)
    (transactionDate : Instant) : CreateTransactionCommand where
  amount := payment.amount.value
  currency := payment.currency
  transactionType := .expense
  description := py "Recurring payment: " ++ merchantName
  transactionDate := transactionDate
  status := .posted
  categoryId := none
  merchant := none
  source := .manual
  confidence := none
  categorySource := none
  categoryClassifierVersion := none
  categoryConfidence := none
  categoryOverridden := false

/-- `record_due_payment`: the expense inserted, the next date returned. -/
def recordDuePayment (transactionId userId paymentId : Uuid) (expectedDate : Date)
    (transactionDate : Instant) : DbTx Date := do
  let locked ← selectForUpdate Db.recurringPayments .recurringPayments RecurringPayment.id
    fun p => p.userId == userId && p.id == paymentId
  let payment ← requireSome locked (.ledger ⟨.notFound, "RECURRING_PAYMENT_NOT_FOUND",
    "The recurring payment was not found.", none⟩)
  let merchant ← reads fun g => g.merchants.find? fun m => m.id == payment.merchantId
  let merchant ← requireSome merchant (.ledger ⟨.notFound, "RECURRING_PAYMENT_NOT_FOUND",
    "The recurring payment was not found.", none⟩)
  require (payment.status = .active) (.ledger ⟨.conflict, "RECURRING_PAYMENT_NOT_ACTIVE",
    "Only an active recurring payment can be recorded.", none⟩)
  require (payment.nextExpectedDate = expectedDate) (.ledger ⟨.conflict,
    "RECURRING_OCCURRENCE_CONFLICT", "That expected occurrence is stale or was already recorded.",
    some "expectedDate"⟩)
  let row ← ofExcept id (transactionRow transactionId userId (some payment.merchantId)
    (recurringExpense payment merchant.displayName transactionDate))
  insertTransaction row
  let advanced ← requireSome (advanceExpectedDate payment.nextExpectedDate payment.recurrenceRule)
    .overflow
  modify fun g => { g with
    recurringPayments := Table.set RecurringPayment.id payment.id
      (fun p => { p with nextExpectedDate := advanced }) g.recurringPayments }
  pure advanced

end Expensea.Ledger
