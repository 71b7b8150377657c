import Expensea.Domain.DecimalText
import Expensea.Store

namespace Expensea.Ledger

/-!
# Transaction commands

`app/ledger/commands.py`: how untrusted values become a `CreateTransactionCommand`.
-/

/-- `SUPPORTED_CURRENCIES` -/
def SUPPORTED_CURRENCIES : List PyStr :=
  ["AED", "AUD", "CAD", "CHF", "CNY", "EUR", "GBP", "HKD", "INR", "JPY", "NZD", "SGD", "USD"].map py

/-- `currency ~ '^[A-Z]{3}$'` -/
def currencyFormat (currency : PyStr) : Bool :=
  currency.length == 3 && currency.all fun c => 0x41 ≤ c && c ≤ 0x5A

/-- `char_length(btrim(text)) > 0`: PostgreSQL trims spaces only. -/
def notBlank (text : PyStr) : Bool := text.any fun c => c != space

/-- `normalize_currency_code`, or `none` for its `ValueError`. -/
def normalizeCurrencyCode (U : Unicode) (value : PyStr) : Option PyStr :=
  let normalized := U.upper (strip value)
  if currencyFormat normalized then some normalized else none

/-- `parse_currency` -/
def parseCurrency (U : Unicode) (currency : PyStr) : Except LedgerError PyStr :=
  match normalizeCurrencyCode U currency with
  | none => .error ⟨.validation, "INVALID_CURRENCY",
      "Currency must be a supported three-letter code.", some "currency"⟩
  | some code =>
    if code ∈ SUPPORTED_CURRENCIES then .ok code
    else .error ⟨.validation, "UNSUPPORTED_CURRENCY",
      "That currency is not supported in this phase.", some "currency"⟩

/-- The text starts with `+` or `-`. -/
def startsWithSign : PyStr → Bool
  | c :: _ => c == 0x2B || c == 0x2D
  | [] => false

/-- `_parse_amount` -/
def parseAmount (U : Unicode) (rawAmount : PyStr) : Except LedgerError ℚ :=
  if rawAmount = [] ∨ rawAmount ≠ strip rawAmount ∨ startsWithSign rawAmount then
    .error ⟨.validation, "INVALID_AMOUNT", "Amount must be a positive decimal string.",
      some "amount"⟩
  else match (decimalOfText U rawAmount).map validatePositiveMoney with
    | some (.ok amount) => .ok amount
    | _ => .error ⟨.validation, "INVALID_AMOUNT",
        "Amount must be positive, finite, and have at most four decimal places.", some "amount"⟩

/-- `_parse_optional_merchant_name`: the display name and the lookup name. -/
def parseOptionalMerchantName (U : Unicode) (value : Option PyStr) :
    Except LedgerError (Option (PyStr × PyStr)) :=
  match value with
  | none => .ok none
  | some value =>
    let displayName := normalizeDisplayText U value
    if displayName = [] then .ok none
    else if 160 < displayName.length then
      .error ⟨.validation, "INVALID_MERCHANT_NAME", "Merchant name cannot exceed 160 characters.",
        some "merchantName"⟩
    else .ok (some (displayName, U.casefold displayName))

/-- `_parse_optional_confidence` -/
def parseOptionalConfidence (value : Option Decimal) : Except LedgerError (Option ℚ) :=
  match value with
  | none => .ok none
  | some (.finite confidence) =>
    if confidence < 0 ∨ 1 < confidence then
      .error ⟨.validation, "INVALID_CONFIDENCE", "Confidence must be between zero and one.",
        some "confidence"⟩
    else .ok (some (quantizeHalfEven confidence))
  | some _ => .error ⟨.validation, "INVALID_CONFIDENCE", "Confidence must be between zero and one.",
      some "confidence"⟩

/-- `CreateTransactionCommand` -/
structure CreateTransactionCommand where
  amount : ℚ
  currency : PyStr
  transactionType : TransactionType
  description : PyStr
  transactionDate : Instant
  status : TransactionStatus
  categoryId : Option Uuid
  merchant : Option (PyStr × PyStr)
  source : TransactionSource
  confidence : Option ℚ
  categorySource : Option CategorizationSource
  categoryClassifierVersion : Option String
  categoryConfidence : Option ℚ
  categoryOverridden : Bool
  deriving DecidableEq

/-- The arguments of `parse_create_transaction`. -/
structure TransactionInput where
  amount : PyStr
  currency : PyStr
  transactionType : TransactionType
  description : PyStr
  transactionDate : DateTime
  status : TransactionStatus := .posted
  categoryId : Option Uuid := none
  merchantName : Option PyStr := none
  source : TransactionSource := .manual
  confidence : Option Decimal := none
  deriving DecidableEq

/-- `parse_create_transaction` -/
def parseCreateTransaction (U : Unicode) (input : TransactionInput) :
    Except AppError CreateTransactionCommand := do
  let amount ← (parseAmount U input.amount).mapError .ledger
  let currency ← (parseCurrency U input.currency).mapError .ledger
  let description := normalizeDisplayText U input.description
  if description = [] then
    throw (.ledger ⟨.validation, "INVALID_DESCRIPTION", "Description cannot be blank.",
      some "description"⟩)
  if 500 < description.length then
    throw (.ledger ⟨.validation, "INVALID_DESCRIPTION", "Description cannot exceed 500 characters.",
      some "description"⟩)
  match input.transactionDate.offset with
  | none => throw (.ledger ⟨.validation, "INVALID_TRANSACTION_DATE",
      "Transaction date must include a timezone offset.", some "transactionDate"⟩)
  | some offset =>
    let merchant ← (parseOptionalMerchantName U input.merchantName).mapError .ledger
    let confidence ← (parseOptionalConfidence input.confidence).mapError .ledger
    match astimezoneUtc input.transactionDate.wall offset with
    | none => throw .overflow
    | some transactionDate =>
      pure {
        amount := amount
        currency := currency
        transactionType := input.transactionType
        description := description
        transactionDate := transactionDate
        status := input.status
        categoryId := input.categoryId
        merchant := merchant
        source := input.source
        confidence := confidence
        categorySource := input.categoryId.map fun _ => .userOverride
        categoryClassifierVersion := input.categoryId.map fun _ => "explicit-user-v1"
        categoryConfidence := input.categoryId.map fun _ => 1
        categoryOverridden := input.categoryId.isSome }

/-- `CreateCategoryCommand` -/
structure CreateCategoryCommand where
  name : PyStr
  normalizedName : PyStr
  parentCategoryId : Option Uuid
  deriving DecidableEq

/-- `parse_create_category` -/
def parseCreateCategory (U : Unicode) (name : PyStr) (parentCategoryId : Option Uuid) :
    Except LedgerError CreateCategoryCommand :=
  let parsedName := normalizeDisplayText U name
  if parsedName = [] then
    .error ⟨.validation, "INVALID_CATEGORY_NAME", "Category name cannot be blank.", some "name"⟩
  else if 80 < parsedName.length then
    .error ⟨.validation, "INVALID_CATEGORY_NAME", "Category name cannot exceed 80 characters.",
      some "name"⟩
  else .ok ⟨parsedName, U.casefold parsedName, parentCategoryId⟩

/-- The category metadata of a command is all there or all absent. -/
def CreateTransactionCommand.categoryMetadataConsistent (c : CreateTransactionCommand) : Bool :=
  (c.categoryId.isNone && c.categorySource.isNone && c.categoryClassifierVersion.isNone &&
    c.categoryConfidence.isNone && !c.categoryOverridden) ||
  (c.categoryId.isSome && c.categorySource.isSome && c.categoryClassifierVersion.isSome &&
    c.categoryConfidence.isSome)

/-- What every parsed command is: the given type, status, category and source, with the
    metadata of an explicit choice. -/
theorem parseCreateTransaction_ok {U : Unicode} {input : TransactionInput}
    {command : CreateTransactionCommand} (h : parseCreateTransaction U input = .ok command) :
    command.categoryId = input.categoryId ∧ command.source = input.source ∧
      command.status = input.status ∧ command.transactionType = input.transactionType ∧
      command.categorySource = input.categoryId.map (fun _ => .userOverride) ∧
      command.categoryClassifierVersion = input.categoryId.map (fun _ => "explicit-user-v1") ∧
      command.categoryConfidence = input.categoryId.map (fun _ => 1) ∧
      command.categoryOverridden = input.categoryId.isSome := by
  simp only [parseCreateTransaction, bind, Except.bind, throw, throwThe, MonadExceptOf.throw, pure,
    Except.pure] at h
  split at h
  · cases h
  split at h
  · cases h
  split at h
  · cases h
  split at h
  · cases h
  split at h
  · cases h
  split at h
  · cases h
  split at h
  · cases h
  split at h
  · cases h
  obtain rfl := Except.ok.inj h
  exact ⟨rfl, rfl, rfl, rfl, rfl, rfl, rfl, rfl⟩

/-- An accepted amount passed the check of amounts. -/
theorem parseAmount_ok {U : Unicode} {rawAmount : PyStr} {amount : ℚ}
    (h : parseAmount U rawAmount = .ok amount) :
    ∃ d, decimalOfText U rawAmount = some d ∧ validatePositiveMoney d = .ok amount := by
  unfold parseAmount at h
  split at h
  · cases h
  cases hd : decimalOfText U rawAmount with
  | none =>
    rw [hd] at h
    cases h
  | some d =>
    rw [hd, Option.map_some] at h
    cases hv : validatePositiveMoney d with
    | error e =>
      rw [hv] at h
      cases h
    | ok value =>
      rw [hv] at h
      obtain rfl := Except.ok.inj h
      exact ⟨d, rfl, hv⟩

/-- The amount of a parsed command. -/
theorem parseCreateTransaction_amount {U : Unicode} {input : TransactionInput}
    {command : CreateTransactionCommand} (h : parseCreateTransaction U input = .ok command) :
    parseAmount U input.amount = .ok command.amount := by
  unfold parseCreateTransaction at h
  cases hamount : parseAmount U input.amount with
  | error e =>
    rw [hamount] at h
    cases h
  | ok amount =>
    simp only [hamount, bind, Except.bind, Except.mapError, throw, throwThe, MonadExceptOf.throw,
      pure, Except.pure] at h
    split at h
    · cases h
    split at h
    · cases h
    split at h
    · cases h
    split at h
    · cases h
    split at h
    · cases h
    split at h
    · cases h
    split at h
    · cases h
    obtain rfl := Except.ok.inj h
    rfl

/-- A parsed command has consistent category metadata. -/
theorem parseCreateTransaction_consistent {U : Unicode} {input : TransactionInput}
    {command : CreateTransactionCommand} (h : parseCreateTransaction U input = .ok command) :
    command.categoryMetadataConsistent = true := by
  obtain ⟨hid, -, -, -, hsource, hversion, hconfidence, hoverridden⟩ := parseCreateTransaction_ok h
  rw [CreateTransactionCommand.categoryMetadataConsistent, hid, hsource, hversion, hconfidence,
    hoverridden]
  cases input.categoryId <;> rfl

end Expensea.Ledger
