import Expensea.Domain.Enums
import Expensea.Domain.Json
import Expensea.Domain.Money

namespace Expensea

/-!
# Rows

The tables of `app/models/`, each as the columns the modelled code reads or writes.
Nullable columns are options; text that users or sources control is a `PyStr`, fixed
vocabulary (codes, versions, reasons) a `String`.
-/

/-! ### Ledger -/

/-- `users` -/
structure User where
  id : Uuid
  timezone : PyStr
  defaultCurrency : PyStr
  deriving DecidableEq

/-- `people` -/
structure Person where
  id : Uuid
  userId : Uuid
  name : PyStr
  normalizedName : PyStr
  deriving DecidableEq

/-- `merchants` -/
structure Merchant where
  id : Uuid
  normalizedName : PyStr
  displayName : PyStr
  deriving DecidableEq

/-- `categories` -/
structure Category where
  id : Uuid
  userId : Option Uuid
  name : PyStr
  normalizedName : PyStr
  parentCategoryId : Option Uuid
  deriving DecidableEq

/-- `transactions` -/
structure LedgerTransaction where
  id : Uuid
  userId : Uuid
  amount : Money
  currency : PyStr
  transactionType : TransactionType
  merchantId : Option Uuid
  categoryId : Option Uuid
  description : PyStr
  transactionDate : Instant
  source : TransactionSource
  confidence : Option Confidence
  status : TransactionStatus
  categorySource : Option CategorizationSource
  categoryClassifierVersion : Option String
  categoryConfidence : Option Confidence
  categoryOverridden : Bool
  deriving DecidableEq

/-- `ck_transactions_category_metadata_consistent` -/
def LedgerTransaction.categoryMetadataConsistent (t : LedgerTransaction) : Bool :=
  (t.categoryId.isNone && t.categorySource.isNone && t.categoryClassifierVersion.isNone &&
    t.categoryConfidence.isNone && !t.categoryOverridden) ||
  (t.categoryId.isSome && t.categorySource.isSome && t.categoryClassifierVersion.isSome &&
    t.categoryConfidence.isSome)

/-- `receivables` and `payables`: two tables with the same columns. -/
structure Obligation where
  id : Uuid
  userId : Uuid
  personId : Uuid
  amount : Money
  currency : PyStr
  description : PyStr
  issuedDate : Date
  dueDate : Option Date
  status : ObligationStatus
  transactionId : Option Uuid
  deriving DecidableEq

/-- `obligation_settlements` -/
structure ObligationSettlement where
  id : Uuid
  userId : Uuid
  receivableId : Option Uuid
  payableId : Option Uuid
  amount : Money
  currency : PyStr
  settledAt : Instant
  transactionId : Option Uuid
  note : Option PyStr
  deriving DecidableEq

/-- `recurring_payments` -/
structure RecurringPayment where
  id : Uuid
  userId : Uuid
  merchantId : Uuid
  amount : Money
  currency : PyStr
  recurrenceRule : RecurrenceRule
  nextExpectedDate : Date
  status : RecurringPaymentStatus
  deriving DecidableEq

/-! ### Categorization -/

/-- `category_rules` -/
structure CategoryRule where
  id : Uuid
  userId : Uuid
  normalizedPattern : PyStr
  categoryId : Uuid
  priority : ℤ
  enabled : Bool
  createdAt : Instant
  deriving DecidableEq

/-- `merchant_category_maps` -/
structure MerchantCategoryMap where
  id : Uuid
  userId : Uuid
  merchantId : Uuid
  categoryId : Uuid
  verified : Bool
  deriving DecidableEq

/-- `user_corrections` -/
structure UserCorrection where
  id : Uuid
  userId : Uuid
  transactionId : Uuid
  previousCategoryId : Option Uuid
  correctedCategoryId : Uuid
  merchantId : Option Uuid
  normalizedDescription : PyStr
  classifierVersion : String
  confidence : Confidence
  createdAt : Instant
  deriving DecidableEq

/-! ### Ingestion -/

/-- `source_connections` -/
structure SourceConnection where
  id : Uuid
  userId : Uuid
  connectorType : ConnectorType
  connectionKey : PyStr
  displayName : String
  status : SourceConnectionStatus
  cursor : Fields
  lastSyncedAt : Option Instant
  lastErrorCode : Option String
  deriving DecidableEq

/-- `raw_events` -/
structure RawEvent where
  id : Uuid
  userId : Uuid
  sourceConnectionId : Uuid
  identityKey : PyStr
  externalEventId : Option PyStr
  contentSha256 : PyStr
  sourceEventType : PyStr
  occurredAt : Option Instant
  payload : Fields
  deriving DecidableEq

/-- `raw_event_processing` -/
structure RawEventProcessing where
  rawEventId : Uuid
  userId : Uuid
  state : RawEventState
  attemptCount : Nat
  lastErrorCode : Option String
  deriving DecidableEq

/-- `normalized_financial_events` -/
structure NormalizedFinancialEvent where
  id : Uuid
  userId : Uuid
  rawEventId : Uuid
  schemaVersion : String
  normalizerKey : String
  normalizerVersion : String
  eventKind : NormalizedEventKind
  amount : Option Money
  currency : Option PyStr
  description : PyStr
  occurredAt : Option Instant
  merchantName : Option PyStr
  counterparty : Option PyStr
  categoryHint : Option PyStr
  tags : List PyStr
  paymentIdentifiers : List PyStr
  confidence : Option Confidence
  deriving DecidableEq

/-- `evidence` -/
structure Evidence where
  id : Uuid
  userId : Uuid
  rawEventId : Uuid
  normalizedEventId : Uuid
  transactionId : Uuid
  locator : Fields
  excerpt : Option PyStr
  deriving DecidableEq

/-! ### Reconciliation and review -/

/-- `reconciliation_cases` -/
structure ReconciliationCase where
  id : Uuid
  userId : Uuid
  normalizedEventId : Uuid
  rawEventId : Uuid
  candidateTransactionId : Option Uuid
  resultingTransactionId : Option Uuid
  initialDecision : ReconciliationDecision
  status : ReconciliationStatus
  score : ℚ
  scoreVersion : String
  reasons : List String
  evidenceLocator : Fields
  evidenceExcerpt : Option PyStr
  deriving DecidableEq

/-- `ck_reconciliation_cases_status_targets_consistent` -/
def ReconciliationCase.statusTargetsConsistent (c : ReconciliationCase) : Bool :=
  match c.status with
  | .pending => c.initialDecision == .possibleDuplicate && c.candidateTransactionId.isSome &&
      c.resultingTransactionId.isNone
  | .merged => c.candidateTransactionId.isSome &&
      c.resultingTransactionId == c.candidateTransactionId
  | .keptSeparate => c.resultingTransactionId.isSome &&
      c.resultingTransactionId != c.candidateTransactionId
  | .unmerged => c.candidateTransactionId.isSome && c.resultingTransactionId.isSome &&
      c.resultingTransactionId != c.candidateTransactionId

/-- `ck_reconciliation_cases_initial_decision_lifecycle` -/
def ReconciliationCase.initialDecisionLifecycle (c : ReconciliationCase) : Bool :=
  match c.initialDecision with
  | .merge => c.status == .merged || c.status == .unmerged
  | .possibleDuplicate => true
  | .newTransaction => c.status == .keptSeparate

/-- `reconciliation_actions` -/
structure ReconciliationAction where
  id : Uuid
  caseId : Uuid
  userId : Uuid
  actionType : ReconciliationActionType
  fromTransactionId : Option Uuid
  toTransactionId : Option Uuid
  score : ℚ
  reasons : List String
  deriving DecidableEq

/-- `financial_event_proposals` -/
structure FinancialEventProposal where
  id : Uuid
  userId : Uuid
  rawEventId : Uuid
  eventKind : NormalizedEventKind
  amount : Option Money
  currency : Option PyStr
  description : PyStr
  occurredAt : Option Instant
  dueDate : Option Date
  merchantName : Option PyStr
  counterparty : Option PyStr
  recurrenceRule : Option RecurrenceRule
  nextExpectedDate : Option Date
  categoryHint : Option PyStr
  tags : List PyStr
  confidence : Confidence
  status : ProposalStatus
  reviewReasons : List String
  promptName : String
  promptVersion : String
  schemaVersion : String
  transactionId : Option Uuid
  receivableId : Option Uuid
  payableId : Option Uuid
  recurringPaymentId : Option Uuid
  deriving DecidableEq

/-- `num_nonnulls(transaction_id, receivable_id, payable_id, recurring_payment_id)` -/
def FinancialEventProposal.targetCount (p : FinancialEventProposal) : Nat :=
  p.transactionId.toList.length + p.receivableId.toList.length + p.payableId.toList.length +
    p.recurringPaymentId.toList.length

/-- `ck_financial_event_proposals_approved_has_canonical_target` (which implies
    `at_most_one_canonical_target`) -/
def FinancialEventProposal.approvedHasCanonicalTarget (p : FinancialEventProposal) : Bool :=
  if p.status = .approved then p.targetCount == 1 else p.targetCount == 0

end Expensea
