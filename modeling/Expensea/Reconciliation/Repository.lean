import Expensea.Ingestion.Repository
import Expensea.Reconciliation.Scoring

namespace Expensea.Reconciliation

open Txn
open Txn.Tx (reads modify acquire)

/-!
# Reconciliation — repository

`app/reconciliation/repository.py`.

* `findCandidates` — exact-money candidates by time or payment identifier;
* `createCase`, `appendAction`, `updateCase` — the case and its audit trail;
* `getView` — the case as its owner sees it.
-/

/-- `acquire_user_write_lock`: the key is the first eight bytes of the identifier. -/
def acquireUserWriteLock (userId : Uuid) : DbTx Unit := acquire (.advisory (userId / 2 ^ 64))

/-! ### Candidates -/

/-- The posted transactions of the owner with the event's money and type. -/
def eligible (userId : Uuid) (event : NormalizedFinancialEvent) (transactionType : TransactionType)
    (t : LedgerTransaction) : Bool :=
  t.userId == userId && event.amount == some t.amount && event.currency == some t.currency &&
    t.transactionType == transactionType && t.status == .posted

/-- Nearest in time first, then by identifier. -/
def nearer (occurredAt : Instant) (a b : LedgerTransaction) : Bool :=
  |a.transactionDate - occurredAt| < |b.transactionDate - occurredAt| ||
    |a.transactionDate - occurredAt| == |b.transactionDate - occurredAt| && a.id ≤ b.id

/-- `temporal_statement` -/
def temporalIds (userId : Uuid) (event : NormalizedFinancialEvent)
    (transactionType : TransactionType) (policy : ReconciliationPolicy) (occurredAt : Instant)
    (g : Db) : List Uuid :=
  let inWindow := g.transactions.filter fun t => eligible userId event transactionType t &&
    occurredAt - policy.candidateWindow ≤ t.transactionDate &&
    t.transactionDate ≤ occurredAt + policy.candidateWindow
  ((inWindow.insertionSort fun a b => nearer occurredAt a b = true).take
    policy.maxCandidates).map LedgerTransaction.id

/-- The normalized event a piece of evidence stands for. -/
def evidenceEvent (userId : Uuid) (g : Db) (e : Evidence) : Option NormalizedFinancialEvent :=
  g.normalizedEvents.find? fun n => n.id == e.normalizedEventId && n.userId == userId

/-- `exact_statement`: transactions whose evidence shares a payment identifier. -/
def exactIds (P : Ingestion.Platform) (userId : Uuid) (event : NormalizedFinancialEvent)
    (transactionType : TransactionType) (policy : ReconciliationPolicy) (g : Db) : List Uuid :=
  let matching := g.evidence.filter fun e => e.userId == userId &&
    ((evidenceEvent userId g e).any fun n =>
      event.paymentIdentifiers.any n.paymentIdentifiers.contains) &&
    g.transactions.any fun t => t.id == e.transactionId && eligible userId event transactionType t
  (P.distinctOrder (matching.map Evidence.transactionId).dedup).take policy.maxCandidates

/-- The payment identifiers of a transaction's evidence. -/
def transactionIdentifiers (userId transactionId : Uuid) (g : Db) : List PyStr :=
  (g.evidence.filter fun e => e.userId == userId && e.transactionId == transactionId).flatMap
    fun e => ((evidenceEvent userId g e).map (·.paymentIdentifiers)).getD []

/-- The candidate a transaction is scored as. -/
def candidateOf (userId : Uuid) (g : Db) (t : LedgerTransaction) : CandidateTransaction where
  id := t.id
  amount := t.amount
  currency := t.currency
  transactionType := t.transactionType
  description := t.description
  transactionDate := t.transactionDate
  merchantName := (g.merchants.find? fun m => t.merchantId == some m.id).map Merchant.displayName
  paymentIdentifiers := transactionIdentifiers userId t.id g

/-- `find_candidates`: exact identifiers first; the window must lie in the calendar. -/
def findCandidates (P : Ingestion.Platform) (userId : Uuid) (event : NormalizedFinancialEvent)
    (transactionType : TransactionType) (policy : ReconciliationPolicy) :
    DbTx (List CandidateTransaction) :=
  match event.occurredAt with
  | none => pure []
  | some occurredAt =>
    if event.amount.isNone ∨ event.currency.isNone then pure []
    else do
      require (representable (occurredAt - policy.candidateWindow)) .overflow
      require (representable (occurredAt + policy.candidateWindow)) .overflow
      let temporal ← reads (temporalIds userId event transactionType policy occurredAt)
      let exact ← reads fun g => if event.paymentIdentifiers = [] then []
        else exactIds P userId event transactionType policy g
      let candidateIds := ((exact ++ temporal).reverse.dedup.reverse).take policy.maxCandidates
      reads fun g => candidateIds.filterMap fun id =>
        (g.transactions.find? fun t => t.id == id && t.userId == userId).map (candidateOf userId g)

/-- `lock_transaction` -/
def lockTransaction (userId transactionId : Uuid) : DbTx LedgerTransaction := do
  let locked ← selectForUpdate Db.transactions .transactions LedgerTransaction.id fun t =>
    t.id == transactionId && t.userId == userId
  requireSome locked (.reconciliationNotFound "RECONCILIATION_TRANSACTION_NOT_FOUND"
    "The reconciliation transaction was not found.")

/-! ### Cases -/

/-- `append_action` -/
def appendAction (actionId userId : Uuid) (case : ReconciliationCase)
    (actionType : ReconciliationActionType) (fromTransactionId toTransactionId : Option Uuid) :
    DbTx Unit :=
  insertChecked (.row .actions actionId)
    (fun g => if g.actions.any fun a => a.id == actionId then
      some (.integrity "pk_reconciliation_actions") else none)
    (fun g => { g with actions := g.actions ++ [{
      id := actionId
      caseId := case.id
      userId := userId
      actionType := actionType
      fromTransactionId := fromTransactionId
      toTransactionId := toTransactionId
      score := case.score
      reasons := case.reasons }] })

/-- The checks on a row of `reconciliation_cases`. -/
def caseViolation (c : ReconciliationCase) : Option AppError :=
  if !(storableFields c.evidenceLocator && optFitsColumn 500 c.evidenceExcerpt) then
    some (.data "reconciliation_cases")
  else if !(0 ≤ c.score ∧ c.score ≤ 1) then
    some (.integrity "ck_reconciliation_cases_score_range")
  else if !c.initialDecisionLifecycle then
    some (.integrity "ck_reconciliation_cases_initial_decision_lifecycle")
  else if !c.statusTargetsConsistent then
    some (.integrity "ck_reconciliation_cases_status_targets_consistent")
  else none

/-- Insert a case. -/
def insertCase (c : ReconciliationCase) : DbTx Unit := do
  acquire (.row .cases c.id)
  insertChecked (.key .cases [c.normalizedEventId] [])
    (fun g => (caseViolation c).or
      (if g.cases.any fun c' => c'.id == c.id then some (.integrity "pk_reconciliation_cases")
      else if g.cases.any fun c' => c'.normalizedEventId == c.normalizedEventId then
        some (.integrity "uq_reconciliation_cases_normalized_event")
      else none))
    (fun g => { g with cases := g.cases ++ [c] })

/-- `create_case` -/
def createCase (caseId actionId userId : Uuid) (event : NormalizedFinancialEvent)
    (result : ReconciliationResult) (status : ReconciliationStatus)
    (resultingTransactionId : Option Uuid) (actionType : ReconciliationActionType)
    (evidenceLocator : Fields) (evidenceExcerpt : Option PyStr) : DbTx ReconciliationCase := do
  let case : ReconciliationCase := {
    id := caseId
    userId := userId
    normalizedEventId := event.id
    rawEventId := event.rawEventId
    candidateTransactionId := result.candidateTransactionId
    resultingTransactionId := resultingTransactionId
    initialDecision := result.decision
    status := status
    score := result.score
    scoreVersion := SCORE_VERSION
    reasons := result.reasons
    evidenceLocator := evidenceLocator
    evidenceExcerpt := evidenceExcerpt }
  insertCase case
  appendAction actionId userId case actionType none resultingTransactionId
  pure case

/-- The error of an unknown case. -/
def caseNotFound : AppError :=
  .reconciliationNotFound "RECONCILIATION_CASE_NOT_FOUND" "The reconciliation case was not found."

/-- `lock_case` -/
def lockCase (userId caseId : Uuid) : DbTx (Option ReconciliationCase) :=
  selectForUpdate Db.cases .cases ReconciliationCase.id fun c => c.id == caseId && c.userId == userId

/-- Write a locked case back. -/
def updateCase (c : ReconciliationCase) : DbTx Unit := do
  require (caseViolation c).isNone
    (.integrity "ck_reconciliation_cases_status_targets_consistent")
  modify fun g => { g with cases := Table.set ReconciliationCase.id c.id (fun _ => c) g.cases }

/-- `normalized_for_case` -/
def normalizedForCase (userId : Uuid) (c : ReconciliationCase) : DbTx NormalizedFinancialEvent := do
  let event ← reads fun g => g.normalizedEvents.find? fun n =>
    n.id == c.normalizedEventId && n.rawEventId == c.rawEventId && n.userId == userId
  requireSome event (.reconciliationNotFound "RECONCILIATION_EVENT_NOT_FOUND"
    "The normalized reconciliation event was not found.")

/-- `evidence_for_case` -/
def evidenceForCase (userId : Uuid) (c : ReconciliationCase) : DbTx (Option Evidence) :=
  reads fun g => g.evidence.find? fun e => e.normalizedEventId == c.normalizedEventId &&
    e.rawEventId == c.rawEventId && e.userId == userId

/-- A proposal that a reconciliation concerns. -/
def reconcilableProposal (userId rawEventId : Uuid) (p : FinancialEventProposal) : Bool :=
  p.rawEventId == rawEventId && p.userId == userId &&
    (p.status == .reconciliationReview || p.status == .approved)

/-- `proposal_for_raw_event` -/
def proposalForRawEvent (userId rawEventId : Uuid) : DbTx (Option FinancialEventProposal) :=
  selectForUpdate Db.proposals .proposals FinancialEventProposal.id
    (reconcilableProposal userId rawEventId)

/-- Write a locked proposal back. -/
def updateProposal (p : FinancialEventProposal) : DbTx Unit := do
  require p.approvedHasCanonicalTarget
    (.integrity "ck_financial_event_proposals_approved_has_canonical_target")
  modify fun g => { g with
    proposals := Table.set FinancialEventProposal.id p.id (fun _ => p) g.proposals }

/-! ### Views -/

/-- `ReconciliationCaseView` -/
structure ReconciliationCaseView where
  case : ReconciliationCase
  source : ConnectorType
  eventKind : NormalizedEventKind
  amount : Money
  currency : PyStr
  description : PyStr
  occurredAt : Instant
  merchantName : Option PyStr
  candidateDescription : Option PyStr
  candidateOccurredAt : Option Instant
  candidateMerchantName : Option PyStr
  actions : List ReconciliationAction

/-- The case joined with its event, its source and its candidate. -/
def caseView (userId caseId : Uuid) (g : Db) : Option (Except AppError ReconciliationCaseView) := do
  let c ← g.cases.find? fun c => c.id == caseId && c.userId == userId
  let event ← g.normalizedEvents.find? fun n => n.id == c.normalizedEventId && n.userId == userId
  let raw ← g.rawEvents.find? fun r => r.id == c.rawEventId && r.userId == userId
  let connection ← g.connections.find? fun s =>
    s.id == raw.sourceConnectionId && s.userId == userId
  let candidate := g.transactions.find? fun t => c.candidateTransactionId == some t.id
  let merchant := candidate.bind fun t => g.merchants.find? fun m => t.merchantId == some m.id
  match event.amount, event.currency, event.occurredAt with
  | some amount, some currency, some occurredAt => some (.ok {
      case := c
      source := connection.connectorType
      eventKind := event.eventKind
      amount := amount
      currency := currency
      description := event.description
      occurredAt := occurredAt
      merchantName := event.merchantName
      candidateDescription := candidate.map (·.description)
      candidateOccurredAt := candidate.map (·.transactionDate)
      candidateMerchantName := merchant.map (·.displayName)
      actions := g.actions.filter fun a => a.userId == userId && a.caseId == caseId })
  | _, _, _ => some (.error
      (.runtime "Reconciliation case references an incomplete transaction event"))

/-- `get_view`, required to be there. -/
def requireView (userId caseId : Uuid) : DbTx ReconciliationCaseView := do
  let view ← reads (caseView userId caseId)
  let view ← requireSome view caseNotFound
  ofExcept id view

end Expensea.Reconciliation
