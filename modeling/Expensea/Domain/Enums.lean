namespace Expensea

/-!
# Persisted vocabularies

The enumerations of `app/domain/enums.py` that the modelled code reads or writes, with
the strings their members stand for where the code compares or stores text.
-/

/-- A UUID, as its 128-bit number. -/
abbrev Uuid := Nat

/-- `TransactionType` -/
inductive TransactionType where
  | expense
  | income
  | transfer
  | refund
  | sharedExpense
  deriving DecidableEq, Repr

/-- `TransactionStatus` -/
inductive TransactionStatus where
  | pending
  | posted
  | voided
  deriving DecidableEq, Repr

/-- `TransactionSource` -/
inductive TransactionSource where
  | manual
  | ingestion
  deriving DecidableEq, Repr

/-- `CategorizationSource` -/
inductive CategorizationSource where
  | userRule
  | merchantMap
  | verifiedCorrection
  | retrieval
  | model
  | userOverride
  deriving DecidableEq, Repr

/-- `ConnectorType` -/
inductive ConnectorType where
  | manualNote
  | csvImport
  | mockReceipt
  | gmail
  | googleKeepTakeout
  deriving DecidableEq, Repr

/-- The persisted string of a connector type. -/
def ConnectorType.value : ConnectorType → String
  | manualNote => "manual_note"
  | csvImport => "csv_import"
  | mockReceipt => "mock_receipt"
  | gmail => "gmail"
  | googleKeepTakeout => "google_keep_takeout"

/-- `SourceConnectionStatus` -/
inductive SourceConnectionStatus where
  | active
  | paused
  | error
  | disconnected
  deriving DecidableEq, Repr

/-- `RawEventState` -/
inductive RawEventState where
  | received
  | normalized
  | processed
  | needsReview
  | failed
  deriving DecidableEq, Repr

/-- The persisted string of a raw-event state. -/
def RawEventState.value : RawEventState → String
  | received => "received"
  | normalized => "normalized"
  | processed => "processed"
  | needsReview => "needs_review"
  | failed => "failed"

/-- `NormalizedEventKind` -/
inductive NormalizedEventKind where
  | expense
  | income
  | transfer
  | refund
  | sharedExpense
  | receivable
  | payable
  | recurring
  | unknown
  deriving DecidableEq, Repr

/-- The string of an event kind, as sources spell it. -/
def NormalizedEventKind.value : NormalizedEventKind → String
  | expense => "expense"
  | income => "income"
  | transfer => "transfer"
  | refund => "refund"
  | sharedExpense => "shared_expense"
  | receivable => "receivable"
  | payable => "payable"
  | recurring => "recurring"
  | unknown => "unknown"

/-- Every event kind. -/
def NormalizedEventKind.all : List NormalizedEventKind :=
  [expense, income, transfer, refund, sharedExpense, receivable, payable, recurring, unknown]

/-- The transaction type an event kind is posted as.  Ingestion (`_POSTABLE_KINDS`), scoring
    (`_EVENT_TYPES`), review and approval (`_TRANSACTION_TYPES`) keep the same table. -/
def NormalizedEventKind.transactionType : NormalizedEventKind → Option TransactionType
  | expense => some .expense
  | income => some .income
  | transfer => some .transfer
  | refund => some .refund
  | sharedExpense => some .sharedExpense
  | _ => none

/-- `ProposalStatus` -/
inductive ProposalStatus where
  | needsReview
  | reconciliationReview
  | approved
  | rejected
  deriving DecidableEq, Repr

/-- `ReconciliationDecision` -/
inductive ReconciliationDecision where
  | merge
  | possibleDuplicate
  | newTransaction
  deriving DecidableEq, Repr

/-- `ReconciliationStatus` -/
inductive ReconciliationStatus where
  | pending
  | merged
  | keptSeparate
  | unmerged
  deriving DecidableEq, Repr

/-- `ReconciliationActionType` -/
inductive ReconciliationActionType where
  | candidateFlagged
  | autoMerged
  | createdNew
  | userMerged
  | userKeptSeparate
  | userUnmerged
  deriving DecidableEq, Repr

/-- `ObligationStatus` -/
inductive ObligationStatus where
  | opened
  | partiallyPaid
  | paid
  | overdue
  | cancelled
  deriving DecidableEq, Repr

/-- `ObligationKind`: the direction of an interpersonal obligation. -/
inductive ObligationKind where
  | receivable
  | payable
  deriving DecidableEq, Repr

/-- `RecurrenceRule` -/
inductive RecurrenceRule where
  | weekly
  | monthly
  | quarterly
  | yearly
  deriving DecidableEq, Repr

/-- `RecurringPaymentStatus` -/
inductive RecurringPaymentStatus where
  | active
  | paused
  | ended
  | needsReview
  deriving DecidableEq, Repr

end Expensea
