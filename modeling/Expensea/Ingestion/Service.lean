import Expensea.Reconciliation.Service

namespace Expensea.Ingestion

open Txn
open Txn.Tx (reads modify)
open Reconciliation (Config)

/-!
# Ingestion — service

`app/ingestion/service.py`.  A delivery is several transactions: the connection, the raw
event, a look at its state, and then its processing or its failure.

* `ensureConnection`, `storeEnvelope`, `terminalResult`, `markFailed`, `processNormalized`
  — the transactions, one each;
* `ingestForConnection`, `ingest` — a whole delivery.
-/

/-- `NORMALIZER_VERSION` -/
def NORMALIZER_VERSION : String := "1"

/-- `_ensure_connection` -/
def ensureConnection (C : Config) (fresh : FreshIds) (userId : Uuid) (connector : Connector)
    (connectionKey : PyStr) : DbTx SourceConnection := do
  let normalizedKey := normalizeDisplayText C.platform.unicode connectionKey
  require (normalizedKey ≠ [] ∧ normalizedKey.length ≤ 128)
    (.ingestionConflict "INVALID_CONNECTION_KEY" "The source connection key is invalid.")
  let known ← Ledger.userExists userId
  require known (.ledger Ledger.profileMissing)
  let connection ← ensureConnectionRow fresh.connection userId connector normalizedKey
  require (connection.status == .active)
    (.ingestionConflict "SOURCE_CONNECTION_INACTIVE" "The source connection is not active.")
  pure connection

/-- `_store_raw_event` -/
def storeEnvelope (C : Config) (fresh : FreshIds) (userId : Uuid) (connection : SourceConnection)
    (envelope : ConnectorEnvelope) : DbTx StoredRawEvent := do
  let payload ← ofExcept id (canonicalEnvelope C.platform envelope)
  let contentHash := contentSha256 C.platform envelope
  storeRawEvent fresh.rawEvent userId connection.id envelope
    (eventIdentityKey envelope contentHash) contentHash payload

/-- The result of an event that is finished already. -/
def finishedResult (userId : Uuid) (stored : StoredRawEvent) (processing : RawEventProcessing) :
    DbTx IngestionResult := do
  let normalized ← normalizedForRawEvent userId stored.id
  let evidence ← evidenceForRawEvent userId stored.id
  pure {
    rawEventId := stored.id
    normalizedEventId := normalized.map NormalizedFinancialEvent.id
    transactionId := evidence.map Evidence.transactionId
    state := processing.state
    replayed := !stored.created
    errorCode := processing.lastErrorCode }

/-- `_terminal_result` -/
def terminalResult (userId : Uuid) (stored : StoredRawEvent) : DbTx (Option IngestionResult) := do
  let processing ← getProcessing userId stored.id
  if isTerminal processing.state then
    let result ← finishedResult userId stored processing
    pure (some result)
  else pure none

/-- Move a processing row to a state it may go to, with an error code. -/
def moveTo (processing : RawEventProcessing) (target : RawEventState)
    (errorCode : Option String) : DbTx RawEventProcessing := do
  requireStateTransition processing.state target
  let moved := { processing with state := target, lastErrorCode := errorCode }
  setProcessing moved
  pure moved

/-- `_mark_failed` -/
def markFailed (userId : Uuid) (stored : StoredRawEvent) (errorCode : String) :
    DbTx IngestionResult := do
  let processing ← lockProcessing userId stored.id
  if isTerminal processing.state then finishedResult userId stored processing
  else do
    let _ ← moveTo { processing with attemptCount := processing.attemptCount + 1 } .failed
      (some errorCode)
    pure {
      rawEventId := stored.id
      normalizedEventId := none
      transactionId := none
      state := .failed
      replayed := !stored.created
      errorCode := some errorCode }

/-- What became of an event that was posted or queued: its transaction and its state. -/
abbrev Posted := Option Uuid × RawEventProcessing

/-- Queue an event for review. -/
def queueReview (processing : RawEventProcessing) (errorCode : String) : DbTx Posted := do
  let moved ← moveTo processing .needsReview (some errorCode)
  pure (none, moved)

/-- The state of an event after reconciliation. -/
def settleOutcome (processing : RawEventProcessing)
    (outcome : Reconciliation.ReconciliationProcessingOutcome) : DbTx Posted :=
  if outcome.requiresReview then queueReview processing "POSSIBLE_DUPLICATE"
  else do
    let transactionId ← requireSome outcome.transactionId
      (.ingestionConflict "RECONCILIATION_TARGET_MISSING"
        "Reconciliation did not produce a canonical transaction.")
    let moved ← moveTo processing .processed none
    pure (some transactionId, moved)

/-- Post the command of an event, or queue the event where the ledger rejects its values. -/
def postCommand (C : Config) (fresh : FreshIds) (userId : Uuid) (envelope : ConnectorEnvelope)
    (processing : RawEventProcessing) (event : NormalizedFinancialEvent) :
    Except AppError Ledger.CreateTransactionCommand → DbTx Posted
  | .ok command => do
    let outcome ← Reconciliation.reconcileTransaction C fresh userId event command
      ⟨envelope.locator, envelope.evidenceExcerpt⟩
    settleOutcome processing outcome
  | .error (.ledger _) => queueReview processing "LEDGER_VALIDATION_REVIEW"
  | .error e => Tx.throw e

/-- `_post_or_queue_review` -/
def postOrQueueReview (C : Config) (fresh : FreshIds) (userId : Uuid)
    (envelope : ConnectorEnvelope) (processing : RawEventProcessing)
    (event : NormalizedFinancialEvent) : DbTx Posted :=
  match event.eventKind.transactionType, event.amount, event.currency, event.occurredAt with
  | some transactionType, some amount, some currency, some occurredAt => do
    let assignment ← Categorization.classify C.platform.unicode userId event.description
      (Reconciliation.merchantLookup C.platform.unicode event.merchantName)
    let categoryId ← Reconciliation.resolveCategory C.platform.unicode userId assignment
      event.categoryHint
    postCommand C fresh userId envelope processing event
      (Reconciliation.eventCommand C.platform.unicode event amount currency transactionType
        occurredAt assignment categoryId)
  | _, _, _, _ => queueReview processing "REVIEW_REQUIRED"

/-- The state `NORMALIZED`, reached now or by an earlier delivery. -/
def moveToNormalized (processing : RawEventProcessing) : DbTx RawEventProcessing := do
  require (processing.state == .normalized ||
      (allowedTransitions processing.state).contains .normalized)
    (.ingestionConflict "INVALID_INGESTION_STATE_TRANSITION"
      ("Raw event cannot transition from " ++ processing.state.value ++ " to normalized."))
  let moved := { processing with state := .normalized, lastErrorCode := none }
  setProcessing moved
  pure moved

/-- `_process_normalized` -/
def processNormalized (C : Config) (fresh : FreshIds) (userId : Uuid)
    (connection : SourceConnection) (envelope : ConnectorEnvelope) (stored : StoredRawEvent)
    (normalized : NormalizedFinancialEventV1) : DbTx IngestionResult := do
  let processing ← lockProcessing userId stored.id
  if isTerminal processing.state then finishedResult userId stored processing
  else do
    let persisted ← storeNormalizedEvent fresh.normalizedEvent userId stored.id normalized
      connection.connectorType.value NORMALIZER_VERSION
    let processing ← moveToNormalized
      { processing with attemptCount := processing.attemptCount + 1 }
    let (transactionId, processing) ← postOrQueueReview C fresh userId envelope processing persisted
    pure {
      rawEventId := stored.id
      normalizedEventId := some persisted.id
      transactionId := transactionId
      state := processing.state
      replayed := !stored.created
      errorCode := processing.lastErrorCode }

/-- The error of a validation that ingestion does not catch. -/
def uncaughtError : ContractError → AppError
  | .invalid => .contract "NormalizedFinancialEventV1"
  | .overflow => .overflow

/-- The last transaction of a delivery, by what `normalize` made of the envelope. -/
def finishDelivery (C : Config) (fresh : FreshIds) (userId : Uuid) (connection : SourceConnection)
    (envelope : ConnectorEnvelope) (stored : StoredRawEvent) :
    NormalizeResult → DbTx IngestionResult
  | .event normalized => processNormalized C fresh userId connection envelope stored normalized
  | .contentError code => markFailed userId stored code
  | .uncaught e => Tx.throw (uncaughtError e)

/-- A delivery goes on unless its event is finished. -/
def continueDelivery (C : Config) (fresh : FreshIds) (userId : Uuid) (connector : Connector)
    (connection : SourceConnection) (envelope : ConnectorEnvelope) (stored : StoredRawEvent) :
    Option IngestionResult → DbTx IngestionResult
  | some result => pure result
  | none => finishDelivery C fresh userId connection envelope stored (connector.normalize envelope)

/-- `_ingest_for_connection`, with its transactions as one. -/
def ingestForConnection (C : Config) (fresh : FreshIds) (userId : Uuid) (connector : Connector)
    (connection : SourceConnection) (envelope : ConnectorEnvelope) : DbTx IngestionResult := do
  let stored ← storeEnvelope C fresh userId connection envelope
  let terminal ← terminalResult userId stored
  continueDelivery C fresh userId connector connection envelope stored terminal

/-- `ingest_envelope`, with its transactions as one. -/
def ingest (C : Config) (fresh : FreshIds) (userId : Uuid) (connector : Connector)
    (envelope : ConnectorEnvelope) (connectionKey : PyStr) : DbTx IngestionResult := do
  let connection ← ensureConnection C fresh userId connector connectionKey
  ingestForConnection C fresh userId connector connection envelope

end Expensea.Ingestion
