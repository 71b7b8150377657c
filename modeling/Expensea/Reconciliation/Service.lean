import Expensea.Ledger.Service
import Expensea.Reconciliation.Repository

namespace Expensea.Reconciliation

open Txn
open Txn.Tx (reads modify)

/-!
# Reconciliation — service

`app/reconciliation/service.py`.

* `reconcileTransaction` — the handoff that ingestion and approval share: merge, queue for
  review, or create a transaction;
* `merge`, `keepSeparate`, `unmerge` — the owner's review of one case.
-/

/-- What the service is configured with. -/
structure Config where
  platform : Ingestion.Platform
  policy : ReconciliationPolicy

/-- `ReconciliationProcessingOutcome` -/
structure ReconciliationProcessingOutcome where
  caseId : Uuid
  transactionId : Option Uuid
  result : ReconciliationResult
  deriving DecidableEq

/-- `requires_review` -/
def ReconciliationProcessingOutcome.requiresReview (outcome : ReconciliationProcessingOutcome) :
    Bool := outcome.result.decision == .possibleDuplicate

/-- `_require_candidate_id` -/
def requireCandidateId (value : Option Uuid) : DbTx Uuid :=
  requireSome value (.reconciliationConflict "RECONCILIATION_CANDIDATE_REQUIRED"
    "This reconciliation decision has no candidate transaction.")

/-- The candidate is still the same posted money of the same kind. -/
def stillMatches (transaction : LedgerTransaction) (event : NormalizedFinancialEvent)
    (transactionType : TransactionType) : Bool :=
  event.amount.isSome && event.currency.isSome && transaction.status == .posted &&
    some transaction.amount == event.amount && some transaction.currency == event.currency &&
    transaction.transactionType == transactionType

/-- `_validate_candidate` -/
def validateCandidate (transaction : LedgerTransaction) (event : NormalizedFinancialEvent)
    (transactionType : TransactionType) : DbTx Unit :=
  require (stillMatches transaction event transactionType)
    (.reconciliationConflict "RECONCILIATION_CANDIDATE_CHANGED"
      "The candidate transaction no longer satisfies reconciliation rules.")

/-- Where an event's evidence comes from. -/
structure EvidenceSource where
  locator : Fields
  excerpt : Option PyStr

/-- The branch of `reconcile_transaction` for a decision to merge. -/
def mergeWithCandidate (fresh : FreshIds) (userId : Uuid) (event : NormalizedFinancialEvent)
    (transactionType : TransactionType) (result : ReconciliationResult)
    (source : EvidenceSource) : DbTx ReconciliationProcessingOutcome := do
  let candidateId ← requireCandidateId result.candidateTransactionId
  let candidate ← lockTransaction userId candidateId
  validateCandidate candidate event transactionType
  Ingestion.addEvidence fresh.evidence userId event.rawEventId event.id candidate.id
    source.locator source.excerpt
  let case ← createCase fresh.case fresh.action userId event result .merged (some candidate.id)
    .autoMerged source.locator source.excerpt
  pure ⟨case.id, some candidate.id, result⟩

/-- The branch of `reconcile_transaction` for a possible duplicate. -/
def flagCandidate (fresh : FreshIds) (userId : Uuid) (event : NormalizedFinancialEvent)
    (result : ReconciliationResult) (source : EvidenceSource) :
    DbTx ReconciliationProcessingOutcome := do
  let case ← createCase fresh.case fresh.action userId event result .pending none
    .candidateFlagged source.locator source.excerpt
  pure ⟨case.id, none, result⟩

/-- The branch of `reconcile_transaction` for a new transaction. -/
def createSeparate (fresh : FreshIds) (userId : Uuid) (event : NormalizedFinancialEvent)
    (command : Ledger.CreateTransactionCommand) (result : ReconciliationResult)
    (source : EvidenceSource) : DbTx ReconciliationProcessingOutcome := do
  let transaction ← Ledger.createTransaction fresh.merchant fresh.transaction userId command
  Ingestion.addEvidence fresh.evidence userId event.rawEventId event.id transaction.id
    source.locator source.excerpt
  let case ← createCase fresh.case fresh.action userId event result .keptSeparate
    (some transaction.id) .createdNew source.locator source.excerpt
  pure ⟨case.id, some transaction.id, result⟩

/-- `reconcile_transaction` -/
def reconcileTransaction (C : Config) (fresh : FreshIds) (userId : Uuid)
    (event : NormalizedFinancialEvent) (command : Ledger.CreateTransactionCommand)
    (source : EvidenceSource) : DbTx ReconciliationProcessingOutcome := do
  acquireUserWriteLock userId
  let candidates ← findCandidates C.platform userId event command.transactionType C.policy
  let result := reconcileCandidates C.platform.unicode C.policy event candidates
  match result.decision with
  | .merge => mergeWithCandidate fresh userId event command.transactionType result source
  | .possibleDuplicate => flagCandidate fresh userId event result source
  | .newTransaction => createSeparate fresh userId event command result source

/-! ### Commands from events -/

/-- The metadata of a category that a model's hint named. -/
def hinted (command : Ledger.CreateTransactionCommand) (confidence : Option ℚ) :
    Ledger.CreateTransactionCommand :=
  { command with
    categorySource := some .model
    categoryClassifierVersion := some Categorization.CLASSIFIER_VERSION
    categoryConfidence := confidence
    categoryOverridden := false }

/-- A parsed command with the metadata of its category: from the assignment, else from the
    hint that resolved, else none. -/
def categorized (command : Ledger.CreateTransactionCommand)
    (assignment : Option Categorization.CategoryAssignment) (confidence : Option ℚ) :
    Ledger.CreateTransactionCommand :=
  match assignment with
  | some assignment => { command with
      categorySource := some assignment.source
      categoryClassifierVersion := some assignment.version
      categoryConfidence := some assignment.confidence
      categoryOverridden := false }
  | none => if command.categoryId.isSome then hinted command confidence else command

@[simp] theorem categorized_source (command : Ledger.CreateTransactionCommand)
    (assignment : Option Categorization.CategoryAssignment) (confidence : Option ℚ) :
    (categorized command assignment confidence).source = command.source := by
  unfold categorized
  split
  · rfl
  · split <;> rfl

/-- The category of an event: the assignment's, else the one its hint names. -/
def resolveCategory (U : Unicode) (userId : Uuid)
    (assignment : Option Categorization.CategoryAssignment) (categoryHint : Option PyStr) :
    DbTx (Option Uuid) :=
  match assignment, categoryHint with
  | some assignment, _ => pure (some assignment.categoryId)
  | none, some hint => Ledger.findVisibleCategoryId userId (normalizeLookupText U hint)
  | none, none => pure none

/-- The lookup name of a merchant; empty text counts as absent. -/
def merchantLookup (U : Unicode) (merchantName : Option PyStr) : Option PyStr :=
  (merchantName.filter (· ≠ [])).map (normalizeLookupText U)

/-- The arguments ingestion, review and approval give to `parse_create_transaction`. -/
def ingestionInput (amount : Money) (currency : PyStr) (transactionType : TransactionType)
    (description : PyStr) (occurredAt : Instant) (categoryId : Option Uuid)
    (merchantName : Option PyStr) (confidence : Option Confidence) : Ledger.TransactionInput where
  amount := formatF amount
  currency := currency
  transactionType := transactionType
  description := description
  transactionDate := Instant.toDateTime occurredAt
  status := .posted
  categoryId := categoryId
  merchantName := merchantName
  source := .ingestion
  confidence := confidence.map fun c => .finite c.value

/-- The command of an event with its money and time, or the error of the parser. -/
def eventCommand (U : Unicode) (event : NormalizedFinancialEvent) (amount : Money)
    (currency : PyStr) (transactionType : TransactionType) (occurredAt : Instant)
    (assignment : Option Categorization.CategoryAssignment) (categoryId : Option Uuid) :
    Except AppError Ledger.CreateTransactionCommand :=
  (Ledger.parseCreateTransaction U (ingestionInput amount currency transactionType
    event.description occurredAt categoryId event.merchantName event.confidence)).map
    fun command => categorized command assignment (event.confidence.map Confidence.value)

/-- `_transaction_type` -/
def requireTransactionType (event : NormalizedFinancialEvent) : DbTx TransactionType :=
  requireSome event.eventKind.transactionType
    (.reconciliationConflict "RECONCILIATION_EVENT_KIND_UNSUPPORTED"
      "This financial event kind cannot be reconciled as a transaction.")

/-- `_transaction_command` -/
def transactionCommand (U : Unicode) (userId : Uuid) (event : NormalizedFinancialEvent) :
    DbTx Ledger.CreateTransactionCommand :=
  match event.amount, event.currency, event.occurredAt with
  | some amount, some currency, some occurredAt => do
    let transactionType ← requireTransactionType event
    let assignment ← Categorization.classify U userId event.description
      (merchantLookup U event.merchantName)
    let categoryId ← resolveCategory U userId assignment event.categoryHint
    ofExcept id (eventCommand U event amount currency transactionType occurredAt assignment
      categoryId)
  | _, _, _ => Tx.throw (.reconciliationConflict "RECONCILIATION_EVENT_INCOMPLETE"
      "The reconciliation event lacks required transaction fields.")

/-! ### Review -/

/-- `_require_pending` -/
def requirePending (case : Option ReconciliationCase) : DbTx ReconciliationCase := do
  let case ← requireSome case caseNotFound
  require (case.status == .pending)
    (.reconciliationConflict "RECONCILIATION_CASE_ALREADY_RESOLVED"
      "The reconciliation case has already been resolved.")
  pure case

/-- `_require_merged` -/
def requireMerged (case : Option ReconciliationCase) : DbTx ReconciliationCase := do
  let case ← requireSome case caseNotFound
  require (case.status == .merged)
    (.reconciliationConflict "RECONCILIATION_CASE_NOT_MERGED"
      "Only a currently merged reconciliation case can be unmerged.")
  pure case

/-- No evidence is linked to the case yet. -/
def requireUnlinked (userId : Uuid) (case : ReconciliationCase) : DbTx Unit := do
  let evidence ← evidenceForCase userId case
  require evidence.isNone (.reconciliationConflict "RECONCILIATION_EVIDENCE_ALREADY_LINKED"
    "The reconciliation evidence is already linked.")

/-- The proposal of a completed source, if there is one, is approved with the transaction. -/
def approveProposal (transactionId : Uuid) : Option FinancialEventProposal → DbTx Unit
  | none => pure ()
  | some proposal => do
    require (proposal.status == .reconciliationReview)
      (.reconciliationConflict "RECONCILIATION_PROPOSAL_NOT_REVIEWABLE"
        "The financial proposal is no longer awaiting reconciliation.")
    updateProposal { proposal with status := .approved, transactionId := some transactionId }

/-- `_complete_source` -/
def completeSource (userId : Uuid) (case : ReconciliationCase) (transactionId : Uuid) :
    DbTx Unit := do
  let processing ← Ingestion.lockProcessing userId case.rawEventId
  require (processing.state == .needsReview)
    (.reconciliationConflict "RECONCILIATION_SOURCE_NOT_REVIEWABLE"
      "The source event is no longer awaiting reconciliation.")
  Ingestion.requireStateTransition processing.state .processed
  Ingestion.setProcessing { processing with state := .processed, lastErrorCode := none }
  let proposal ← proposalForRawEvent userId case.rawEventId
  approveProposal transactionId proposal

/-- Resolve a pending case in favour of a transaction. -/
def resolveCase (fresh : FreshIds) (userId : Uuid) (case : ReconciliationCase)
    (status : ReconciliationStatus) (actionType : ReconciliationActionType)
    (transactionId : Uuid) : DbTx ReconciliationCaseView := do
  Ingestion.addEvidence fresh.evidence userId case.rawEventId case.normalizedEventId transactionId
    case.evidenceLocator case.evidenceExcerpt
  let resolved := { case with status := status, resultingTransactionId := some transactionId }
  updateCase resolved
  appendAction fresh.action userId resolved actionType none (some transactionId)
  completeSource userId resolved transactionId
  requireView userId case.id

/-- `merge` -/
def merge (fresh : FreshIds) (userId caseId : Uuid) : DbTx ReconciliationCaseView := do
  acquireUserWriteLock userId
  let locked ← lockCase userId caseId
  let case ← requirePending locked
  let candidateId ← requireCandidateId case.candidateTransactionId
  let event ← normalizedForCase userId case
  let transactionType ← requireTransactionType event
  let candidate ← lockTransaction userId candidateId
  validateCandidate candidate event transactionType
  requireUnlinked userId case
  resolveCase fresh userId case .merged .userMerged candidate.id

/-- `keep_separate` -/
def keepSeparate (C : Config) (fresh : FreshIds) (userId caseId : Uuid) :
    DbTx ReconciliationCaseView := do
  acquireUserWriteLock userId
  let locked ← lockCase userId caseId
  let case ← requirePending locked
  requireUnlinked userId case
  let event ← normalizedForCase userId case
  let command ← transactionCommand C.platform.unicode userId event
  let transaction ← Ledger.createTransaction fresh.merchant fresh.transaction userId command
  resolveCase fresh userId case .keptSeparate .userKeptSeparate transaction.id

/-- The evidence of a merged case, which still names the transaction of the case. -/
def mergedEvidence (case : ReconciliationCase) (evidence : Option Evidence) : Option Evidence :=
  evidence.filter fun e => case.resultingTransactionId == some e.transactionId

/-- Write a piece of evidence back. -/
def updateEvidence (evidence : Evidence) : DbTx Unit :=
  modify fun g => { g with
    evidence := Table.set Evidence.id evidence.id (fun _ => evidence) g.evidence }

/-- The proposal of an unmerged source, if there is one, follows its evidence. -/
def repointProposal (transactionId : Uuid) : Option FinancialEventProposal → DbTx Unit
  | none => pure ()
  | some proposal => updateProposal { proposal with transactionId := some transactionId }

/-- `unmerge` -/
def unmerge (C : Config) (fresh : FreshIds) (userId caseId : Uuid) :
    DbTx ReconciliationCaseView := do
  acquireUserWriteLock userId
  let locked ← lockCase userId caseId
  let case ← requireMerged locked
  let linked ← evidenceForCase userId case
  let evidence ← requireSome (mergedEvidence case linked)
    (.reconciliationConflict "RECONCILIATION_EVIDENCE_MISMATCH"
      "The merged evidence no longer matches this reconciliation case.")
  let event ← normalizedForCase userId case
  let command ← transactionCommand C.platform.unicode userId event
  let transaction ← Ledger.createTransaction fresh.merchant fresh.transaction userId command
  updateEvidence { evidence with transactionId := transaction.id }
  let resolved := { case with
    status := .unmerged
    resultingTransactionId := some transaction.id }
  updateCase resolved
  appendAction fresh.action userId resolved .userUnmerged (some evidence.transactionId)
    (some transaction.id)
  let proposal ← proposalForRawEvent userId case.rawEventId
  repointProposal transaction.id proposal
  requireView userId case.id

end Expensea.Reconciliation
