import Expensea.Ai.Extraction
import Expensea.Ingestion.Service
import Expensea.Ledger.Obligations

namespace Expensea.Ai

open Txn
open Txn.Tx (reads modify)
open Reconciliation (Config EvidenceSource)
open Ingestion (ContractError)

/-!
# Proposals — repository and service

`app/ai/proposal_repository.py` and `proposal_service.py`.

* `extract` — the current prompt's proposal of a raw event, created once;
* `approve` — a pending proposal becomes a transaction, an obligation or a recurring
  payment, or waits for reconciliation;
* `reject` — a pending proposal is dismissed.
-/

/-- `FinancialEventProposalView` -/
structure FinancialEventProposalView where
  proposal : FinancialEventProposal
  source : ConnectorType
  canonicalTarget : Option (String × Uuid)
  deriving DecidableEq

/-- `RawExtractionContext` -/
structure RawExtractionContext where
  rawEventId : Uuid
  occurredAt : Option Instant
  payload : Fields
  timezone : PyStr
  defaultCurrency : PyStr

/-! ### Repository -/

/-- `_canonical_target` -/
def canonicalTarget (p : FinancialEventProposal) : Option (String × Uuid) :=
  (p.transactionId.map fun target => ("transaction", target)) <|>
  (p.receivableId.map fun target => ("receivable", target)) <|>
  (p.payableId.map fun target => ("payable", target)) <|>
  (p.recurringPaymentId.map fun target => ("recurring_payment", target))

/-- `_proposal_view` -/
def proposalView (p : FinancialEventProposal) (source : ConnectorType) :
    FinancialEventProposalView := ⟨p, source, canonicalTarget p⟩

/-- The connection an owner's raw event came through. -/
def sourceOf (userId rawEventId : Uuid) (g : Db) : Option SourceConnection := do
  let raw ← g.rawEvents.find? fun r => r.id == rawEventId && r.userId == userId
  g.connections.find? fun s => s.id == raw.sourceConnectionId && s.userId == userId

/-- `get` -/
def getProposal (userId proposalId : Uuid) (g : Db) : Option FinancialEventProposalView := do
  let p ← g.proposals.find? fun p => p.id == proposalId && p.userId == userId
  let source ← sourceOf userId p.rawEventId g
  some (proposalView p source.connectorType)

/-- A proposal of a raw event under a prompt (`uq_financial_event_proposals_raw_prompt`). -/
def prompted (rawEventId : Uuid) (promptName promptVersion schemaVersion : String)
    (p : FinancialEventProposal) : Bool :=
  p.rawEventId == rawEventId && p.promptName == promptName && p.promptVersion == promptVersion &&
    p.schemaVersion == schemaVersion

/-- `existing_for_prompt`, for the current prompt. -/
def existingForPrompt (userId rawEventId : Uuid) : DbTx (Option FinancialEventProposalView) :=
  reads fun g => do
    let p ← g.proposals.find? fun p => p.userId == userId &&
      prompted rawEventId PROMPT_NAME PROMPT_VERSION SCHEMA_VERSION p
    getProposal userId p.id g

/-- `raw_extraction_context` -/
def rawExtractionContext (userId rawEventId : Uuid) : DbTx (Option RawExtractionContext) :=
  reads fun g => do
    let raw ← g.rawEvents.find? fun r => r.id == rawEventId && r.userId == userId
    let _ ← sourceOf userId rawEventId g
    let user ← g.users.find? fun u => u.id == raw.userId
    some ⟨raw.id, raw.occurredAt, raw.payload, user.timezone, user.defaultCurrency⟩

/-- The text of a proposal fits its columns. -/
def storableExtraction (event : ExtractedFinancialEvent) : Bool :=
  optFitsColumn 3 event.currency && fitsColumn 500 event.description &&
    optFitsColumn 160 event.merchantName && optFitsColumn 160 event.counterparty &&
    optFitsColumn 80 event.categoryHint && event.tags.all (·.all storableChar)

/-- The row of an extraction, or the first violated constraint. -/
def proposalRow (id userId rawEventId : Uuid) (extraction : FinancialExtractionResult) :
    Except AppError FinancialEventProposal := do
  let event := extraction.event
  if !storableExtraction event then throw (.data "financial_event_proposals")
  let amount ← Ingestion.storeAmount event.amount
  if !(amount.all fun a => 0 < a.units) then
    throw (.integrity "ck_financial_event_proposals_amount_positive_when_present")
  let confidence ← match Confidence.store event.confidence with
    | none => throw (.integrity "ck_financial_event_proposals_confidence_range")
    | some c => pure c
  if !(event.currency.all Ledger.currencyFormat) then
    throw (.integrity "ck_financial_event_proposals_currency_format_when_present")
  if !Ledger.notBlank event.description then
    throw (.integrity "ck_financial_event_proposals_description_not_blank")
  if amount.isNone ≠ event.currency.isNone then
    throw (.integrity "ck_financial_event_proposals_money_pair_complete")
  pure {
    id := id
    userId := userId
    rawEventId := rawEventId
    eventKind := event.eventKind
    amount := amount
    currency := event.currency
    description := event.description
    occurredAt := event.occurredAt
    dueDate := event.dueDate
    merchantName := event.merchantName
    counterparty := event.counterparty
    recurrenceRule := event.recurrenceRule
    nextExpectedDate := event.nextExpectedDate
    categoryHint := event.categoryHint
    tags := event.tags
    confidence := confidence
    status := .needsReview
    reviewReasons := extraction.reviewReasons
    promptName := extraction.promptName
    promptVersion := extraction.promptVersion
    schemaVersion := extraction.schemaVersion
    transactionId := none
    receivableId := none
    payableId := none
    recurringPaymentId := none }

/-- The end of `create_or_get`: the row inserted, or else the owner's row of the prompt. -/
def selectProposal (proposalId userId : Uuid) (same : FinancialEventProposal → Bool)
    (inserted : Bool) : DbTx FinancialEventProposalView := do
  let existing ← reads fun g => (g.proposals.find? fun p =>
    p.userId == userId && same p).map FinancialEventProposal.id
  let selected ← requireSome (if inserted then some proposalId else existing)
    (.runtime "Proposal upsert did not return an owner-visible row")
  let proposal ← reads (getProposal userId selected)
  requireSome proposal (.runtime "Proposal disappeared after insertion")

/-- `create_or_get` -/
def createOrGet (proposalId userId : Uuid) (context : RawExtractionContext)
    (extraction : FinancialExtractionResult) : DbTx FinancialEventProposalView := do
  let row ← ofExcept id (proposalRow proposalId userId context.rawEventId extraction)
  let same := prompted context.rawEventId extraction.promptName extraction.promptVersion
    extraction.schemaVersion
  let inserted ← insertOrIgnore
    (.key .proposals [context.rawEventId] [py extraction.promptName, py extraction.promptVersion,
      py extraction.schemaVersion])
    (.row .proposals proposalId)
    (fun g => g.proposals.any same)
    (fun g => if g.proposals.any fun p => p.id == proposalId then
      some (.integrity "pk_financial_event_proposals") else none)
    (fun g => { g with proposals := g.proposals ++ [row] })
  selectProposal proposalId userId same inserted

/-- `lock` -/
def lockProposal (userId proposalId : Uuid) : DbTx (Option FinancialEventProposal) :=
  selectForUpdate Db.proposals .proposals FinancialEventProposal.id fun p =>
    p.id == proposalId && p.userId == userId

/-- `source_for_proposal` -/
def sourceForProposal (userId : Uuid) (proposal : FinancialEventProposal) :
    DbTx SourceConnection := do
  let source ← reads (sourceOf userId proposal.rawEventId)
  requireSome source (.runtime "Proposal source was not visible to its owner")

/-! ### Extraction -/

/-- What the proposal service is configured with. -/
structure ProposalConfig where
  core : Config
  extractor : ExtractorSettings

/-- `_record_extraction_failure` -/
def recordExtractionFailure (userId rawEventId : Uuid) (errorCode : String) : DbTx Unit := do
  let processing ← Ingestion.lockProcessing userId rawEventId
  Ingestion.setProcessing { processing with lastErrorCode := some errorCode }

/-- What an extraction ends with: the proposal, or the code of an `AIError` that was
    recorded. -/
abbrev ExtractOutcome := Except String FinancialEventProposalView

/-- The end of `extract_raw_event`. -/
def recordExtraction (fresh : FreshIds) (userId rawEventId : Uuid)
    (context : RawExtractionContext) :
    Except ExtractionError FinancialExtractionResult → DbTx ExtractOutcome
  | .ok extraction => do
    let view ← createOrGet fresh.proposal userId context extraction
    let processing ← Ingestion.lockProcessing userId rawEventId
    Ingestion.setProcessing { processing with lastErrorCode := none }
    pure (.ok view)
  | .error (.ai code) => do
    recordExtractionFailure userId rawEventId code
    pure (.error code)
  | .error .uncaught => Tx.throw .overflow

/-- The text of a source event that can be extracted. -/
def extractionText (payload : Fields) : Option PyStr :=
  ((payload.get "extraction_text").bind Value.text?).filter fun text => strip text ≠ []

/-- `extract_raw_event` for an event without a proposal. -/
def extractNew (C : ProposalConfig) (fresh : FreshIds) (userId rawEventId : Uuid)
    (answer : Except String CompletionData) : DbTx ExtractOutcome := do
  let context ← rawExtractionContext userId rawEventId
  let context ← requireSome context
    (.proposalReview "RAW_EVENT_NOT_FOUND" "The source event was not found.")
  let text ← requireSome (extractionText context.payload)
    (.proposalReview "SOURCE_TEXT_NOT_AVAILABLE"
      "The source event has no supported text to extract.")
  recordExtraction fresh userId rawEventId context
    (extractEvent C.core.platform.unicode C.core.platform.zones C.extractor text context.timezone
      context.defaultCurrency answer)

/-- `extract_raw_event`, for the answer the provider gives. -/
def extract (C : ProposalConfig) (fresh : FreshIds) (userId rawEventId : Uuid)
    (answer : Except String CompletionData) : DbTx ExtractOutcome := do
  let existing ← existingForPrompt userId rawEventId
  match existing with
  | some view => pure (.ok view)
  | none => extractNew C fresh userId rawEventId answer

/-! ### Review -/

/-- `_require_pending` -/
def requirePending (proposal : Option FinancialEventProposal) : DbTx FinancialEventProposal := do
  let proposal ← requireSome proposal
    (.proposalReview "PROPOSAL_NOT_FOUND" "The financial event proposal was not found.")
  require (proposal.status == .needsReview)
    (.proposalReview "PROPOSAL_ALREADY_REVIEWED"
      "The financial event proposal has already been reviewed.")
  pure proposal

/-- `reject` -/
def reject (userId proposalId : Uuid) : DbTx FinancialEventProposalView := do
  let locked ← lockProposal userId proposalId
  let proposal ← requirePending locked
  let source ← sourceForProposal userId proposal
  let rejected := { proposal with status := .rejected }
  Reconciliation.updateProposal rejected
  let processing ← Ingestion.lockProcessing userId proposal.rawEventId
  Ingestion.setProcessing { processing with lastErrorCode := some "USER_REJECTED" }
  pure (proposalView rejected source.connectorType)

/-- `_normalized_contract` -/
def normalizedContract (U : Unicode) (p : FinancialEventProposal) :
    Except ContractError Ingestion.NormalizedFinancialEventV1 :=
  Ingestion.validateEvent U {
    eventKind := some p.eventKind
    amount := p.amount.map fun m => some (.finite m.value)
    currency := p.currency
    description := some p.description
    occurredAt := p.occurredAt.map Instant.toDateTime
    merchantName := p.merchantName
    counterparty := p.counterparty
    categoryHint := p.categoryHint
    tags := p.tags
    confidence := some (some (.finite p.confidence.value)) }

/-- `_require_money_and_occurred` -/
def requireMoneyAndOccurred (p : FinancialEventProposal) : DbTx (Money × PyStr × Instant) :=
  match p.amount, p.currency, p.occurredAt with
  | some amount, some currency, some occurredAt => pure (amount, currency, occurredAt)
  | _, _, _ => Tx.throw (.proposalReview "PROPOSAL_FINANCIAL_FIELDS_REQUIRED"
      "Amount, currency, and occurrence time are required before approval.")

/-- The command of a proposal, or the error of the parser. -/
def proposalCommand (U : Unicode) (p : FinancialEventProposal) (amount : Money) (currency : PyStr)
    (transactionType : TransactionType) (occurredAt : Instant)
    (assignment : Option Categorization.CategoryAssignment) (categoryId : Option Uuid) :
    Except AppError Ledger.CreateTransactionCommand :=
  (Ledger.parseCreateTransaction U (Reconciliation.ingestionInput amount currency transactionType
    p.description occurredAt categoryId p.merchantName (some p.confidence))).map
    fun command => Reconciliation.categorized command assignment (some p.confidence.value)

/-- The locator of an approval: the proposal, as 32 hexadecimal digits in groups. -/
def proposalLocator (uuidText : Uuid → PyStr) (p : FinancialEventProposal) : EvidenceSource :=
  ⟨[("proposalId", .str (uuidText p.id))], none⟩

/-- `_approve_transaction` -/
def approveTransaction (C : ProposalConfig) (fresh : FreshIds) (userId : Uuid)
    (p : FinancialEventProposal) (transactionType : TransactionType)
    (event : NormalizedFinancialEvent) :
    DbTx Reconciliation.ReconciliationProcessingOutcome := do
  let U := C.core.platform.unicode
  let (amount, currency, occurredAt) ← requireMoneyAndOccurred p
  let assignment ← Categorization.classify U userId p.description
    (p.merchantName.map (normalizeLookupText U))
  let categoryId ← Reconciliation.resolveCategory U userId assignment p.categoryHint
  let command ← ofExcept id
    (proposalCommand U p amount currency transactionType occurredAt assignment categoryId)
  Reconciliation.reconcileTransaction C.core fresh userId event command
    (proposalLocator C.core.platform.uuidText p)

/-- The person of a proposal's counterparty, created unless the owner has it. -/
def counterpartyPerson (U : Unicode) (fresh : FreshIds) (userId : Uuid) (counterparty : PyStr) :
    DbTx Uuid := do
  let command ← ofExcept .ledger (Ledger.parseCreatePerson U counterparty)
  let created ← Ledger.createPersonRow fresh.person userId command
  let existing ← reads fun g => (g.people.find? fun p =>
    p.userId == userId && p.normalizedName == command.normalizedName).map Person.id
  requireSome (created.or existing)
    (.runtime "Person upsert completed without an owner-visible row")

/-- `_approve_obligation`, by a clock that shows `now`. -/
def approveObligation (C : ProposalConfig) (fresh : FreshIds) (now : Instant) (userId : Uuid)
    (p : FinancialEventProposal) (kind : ObligationKind) : DbTx Uuid := do
  let U := C.core.platform.unicode
  let zones := C.core.platform.zones
  let (amount, currency, occurredAt) ← requireMoneyAndOccurred p
  let counterparty ← requireSome p.counterparty (.proposalReview "PROPOSAL_COUNTERPARTY_REQUIRED"
    "A receivable or payable needs a counterparty before approval.")
  let timezoneName ← Ledger.ownerTimezone userId
  let timezoneName ← requireSome timezoneName
    (.proposalReview "PROFILE_NOT_FOUND" "The ledger profile was not found.")
  let personId ← counterpartyPerson U fresh userId counterparty
  Ledger.parseTimezone zones timezoneName
  let command ← ofExcept .ledger (Ledger.parseCreateObligation U personId (formatF amount) currency
    p.description (zones.localDate timezoneName occurredAt) p.dueDate none)
  let view ← Ledger.createObligationRow kind fresh.obligation userId command
    (zones.localDate timezoneName now)
  pure view.id

/-- The fields a recurring payment needs. -/
def recurringFields (p : FinancialEventProposal) :
    Option (Money × PyStr × PyStr × RecurrenceRule × Date) := do
  let amount ← p.amount
  let currency ← p.currency
  let merchantName ← p.merchantName
  let recurrenceRule ← p.recurrenceRule
  let nextExpectedDate ← p.nextExpectedDate
  some (amount, currency, merchantName, recurrenceRule, nextExpectedDate)

/-- `_approve_recurring` -/
def approveRecurring (C : ProposalConfig) (fresh : FreshIds) (userId : Uuid)
    (p : FinancialEventProposal) : DbTx Uuid := do
  let (amount, currency, merchantName, recurrenceRule, nextExpectedDate) ←
    requireSome (recurringFields p) (.proposalReview "PROPOSAL_RECURRING_FIELDS_REQUIRED"
      "A recurring payment needs amount, merchant, rule, and next date.")
  let command ← ofExcept .ledger (Ledger.parseCreateRecurringPayment C.core.platform.unicode
    (formatF amount) currency merchantName recurrenceRule nextExpectedDate)
  let known ← Ledger.userExists userId
  require known (.proposalReview "PROFILE_NOT_FOUND" "The ledger profile was not found.")
  let merchantId ← Ledger.getOrCreateRecurringMerchant fresh.merchant command
  Ledger.createRecurringRow fresh.recurringPayment userId merchantId command

/-- The proposal with the target of a reconciled transaction; `none` while a possible
    duplicate waits for review. -/
def reconciledTarget (p : FinancialEventProposal)
    (outcome : Reconciliation.ReconciliationProcessingOutcome) :
    DbTx (Option FinancialEventProposal) :=
  if outcome.requiresReview then pure none
  else do
    let transactionId ← requireSome outcome.transactionId
      (.proposalReview "RECONCILIATION_TARGET_MISSING"
        "Reconciliation did not produce a canonical transaction.")
    pure (some { p with transactionId := some transactionId })

/-- The branches of `approve`: the proposal with its target, or `none`. -/
def approveTarget (C : ProposalConfig) (fresh : FreshIds) (now : Instant) (userId : Uuid)
    (p : FinancialEventProposal) (event : NormalizedFinancialEvent) :
    DbTx (Option FinancialEventProposal) :=
  match p.eventKind.transactionType, p.eventKind with
  | some transactionType, _ => do
    let outcome ← approveTransaction C fresh userId p transactionType event
    reconciledTarget p outcome
  | none, .receivable => do
    let target ← approveObligation C fresh now userId p .receivable
    pure (some { p with receivableId := some target })
  | none, .payable => do
    let target ← approveObligation C fresh now userId p .payable
    pure (some { p with payableId := some target })
  | none, .recurring => do
    let target ← approveRecurring C fresh userId p
    pure (some { p with recurringPaymentId := some target })
  | none, _ => Tx.throw (.proposalReview "PROPOSAL_KIND_NOT_APPROVABLE"
      "This extracted event kind cannot be approved.")

/-- The end of `approve`. -/
def finishApproval (source : SourceConnection) (processing : RawEventProcessing)
    (p : FinancialEventProposal) :
    Option FinancialEventProposal → DbTx FinancialEventProposalView
  | none => do
    let waiting := { p with status := .reconciliationReview }
    Ingestion.setProcessing { processing with lastErrorCode := some "POSSIBLE_DUPLICATE" }
    Reconciliation.updateProposal waiting
    pure (proposalView waiting source.connectorType)
  | some target => do
    let approved := { target with status := .approved }
    Ingestion.requireStateTransition processing.state .processed
    Ingestion.setProcessing { processing with state := .processed, lastErrorCode := none }
    Reconciliation.updateProposal approved
    pure (proposalView approved source.connectorType)

/-- `approve` -/
def approve (C : ProposalConfig) (fresh : FreshIds) (now : Instant) (userId proposalId : Uuid) :
    DbTx FinancialEventProposalView := do
  let locked ← lockProposal userId proposalId
  let proposal ← requirePending locked
  let source ← sourceForProposal userId proposal
  let processing ← Ingestion.lockProcessing userId proposal.rawEventId
  let normalized ← ofExcept Ingestion.uncaughtError
    (normalizedContract C.core.platform.unicode proposal)
  let event ← Ingestion.storeNormalizedEvent fresh.normalizedEvent userId proposal.rawEventId
    normalized PROMPT_NAME proposal.promptVersion
  let target ← approveTarget C fresh now userId proposal event
  finishApproval source processing proposal target

end Expensea.Ai
