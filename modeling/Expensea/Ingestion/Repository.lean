import Expensea.Ingestion.Identity
import Expensea.Ingestion.State
import Expensea.Ledger.Transactions

namespace Expensea.Ingestion

open Txn
open Txn.Tx (reads modify acquire)

/-!
# Ingestion — repository

`app/ingestion/repository.py`, with the constraints of the tables it writes.

* `ensureConnection`, `storeRawEvent`, `storeNormalizedEvent` — replay-safe inserts;
* `getProcessing`, `lockProcessing` — a raw event's processing state;
* `addEvidence` — the link of an event to a transaction.
-/

/-- `StoredRawEvent` -/
structure StoredRawEvent where
  id : Uuid
  created : Bool
  contentSha256 : PyStr
  deriving DecidableEq

/-- `IngestionResult` -/
structure IngestionResult where
  rawEventId : Uuid
  normalizedEventId : Option Uuid
  transactionId : Option Uuid
  state : RawEventState
  replayed : Bool
  errorCode : Option String
  deriving DecidableEq

/-! ### Connections -/

/-- `get_connection` -/
def getConnection (userId connectionId : Uuid) : DbTx SourceConnection := do
  let connection ← reads fun g => g.connections.find? fun c =>
    c.id == connectionId && c.userId == userId
  requireSome connection (.ingestionConflict "SOURCE_CONNECTION_NOT_FOUND"
    "The source connection was not found.")

/-- The owner's connection of a type under a key. -/
def connectionKeyed (userId : Uuid) (connectorType : ConnectorType) (connectionKey : PyStr)
    (c : SourceConnection) : Bool :=
  c.userId == userId && c.connectorType == connectorType && c.connectionKey == connectionKey

/-- `ensure_connection` -/
def ensureConnectionRow (connectionId userId : Uuid) (connector : Connector)
    (connectionKey : PyStr) : DbTx SourceConnection := do
  require (fitsColumn 128 connectionKey) (.data "source_connections")
  require (Ledger.notBlank connectionKey)
    (.integrity "ck_source_connections_connection_key_not_blank")
  let keyed := connectionKeyed userId connector.key connectionKey
  let inserted ← insertOrIgnore
    (.key .connections [userId] [py connector.key.value, connectionKey])
    (.row .connections connectionId)
    (fun g => g.connections.any keyed)
    (fun g => if g.connections.any fun c => c.id == connectionId then
      some (.integrity "pk_source_connections") else none)
    (fun g => { g with connections := g.connections ++ [{
      id := connectionId
      userId := userId
      connectorType := connector.key
      connectionKey := connectionKey
      displayName := connector.displayName
      status := .active
      cursor := []
      lastSyncedAt := none
      lastErrorCode := none }] })
  let existing ← reads fun g => (g.connections.find? keyed).map SourceConnection.id
  let selected ← requireSome (if inserted then some connectionId else existing)
    (.runtime "Connection upsert did not return an owner-visible row")
  getConnection userId selected

/-- `update_connection_cursor` -/
def updateConnectionCursor (userId connectionId : Uuid) (cursor : Fields) (syncedAt : Instant) :
    DbTx Unit := do
  let locked ← selectForUpdate Db.connections .connections SourceConnection.id fun c =>
    c.id == connectionId && c.userId == userId
  let connection ← requireSome locked (.ingestionConflict "SOURCE_CONNECTION_NOT_FOUND"
    "The source connection was not found.")
  require (storableFields cursor) (.data "source_connections")
  modify fun g => { g with
    connections := Table.set SourceConnection.id connection.id (fun c => { c with
      cursor := cursor
      lastSyncedAt := some syncedAt
      lastErrorCode := none }) g.connections }

/-! ### Raw events -/

/-- The raw event of a connection with an identity. -/
def identified (userId connectionId : Uuid) (identityKey : PyStr) (r : RawEvent) : Bool :=
  r.userId == userId && r.sourceConnectionId == connectionId && r.identityKey == identityKey

/-- The columns of a raw event hold what an envelope has. -/
def storableEnvelope (envelope : ConnectorEnvelope) (identityKey : PyStr) (payload : Fields) :
    Bool :=
  fitsColumn 320 identityKey && optFitsColumn 255 envelope.externalEventId &&
    fitsColumn 80 envelope.eventType && storableFields payload

/-- `store_raw_event` -/
def storeRawEvent (rawEventId userId connectionId : Uuid) (envelope : ConnectorEnvelope)
    (identityKey contentHash : PyStr) (payload : Fields) : DbTx StoredRawEvent := do
  require (storableEnvelope envelope identityKey payload) (.data "raw_events")
  require (Ledger.notBlank envelope.eventType)
    (.integrity "ck_raw_events_source_event_type_not_blank")
  let inserted ← insertOrIgnore (.key .rawEvents [connectionId] [identityKey])
    (.row .rawEvents rawEventId)
    (fun g => g.rawEvents.any fun r =>
      r.sourceConnectionId == connectionId && r.identityKey == identityKey)
    (fun g => if g.rawEvents.any fun r => r.id == rawEventId then
      some (.integrity "pk_raw_events") else none)
    (fun g => { g with rawEvents := g.rawEvents ++ [{
      id := rawEventId
      userId := userId
      sourceConnectionId := connectionId
      identityKey := identityKey
      externalEventId := envelope.externalEventId
      contentSha256 := contentHash
      sourceEventType := envelope.eventType
      occurredAt := envelope.occurredAt
      payload := payload }] })
  let existing ← reads fun g =>
    (g.rawEvents.find? (identified userId connectionId identityKey)).map RawEvent.id
  let selected ← requireSome (if inserted then some rawEventId else existing)
    (.runtime "Raw-event upsert did not return an owner-visible row")
  let existingHash ← reads fun g => (g.rawEvents.find? fun r =>
    r.id == selected && r.userId == userId).map RawEvent.contentSha256
  require (existingHash = some contentHash)
    (.ingestionConflict "SOURCE_IDENTITY_CONTENT_MISMATCH"
      "A source identity was redelivered with different content.")
  let _ ← insertOrIgnore (.key .processing [selected] []) (.row .processing selected)
    (fun g => g.processing.any fun p => p.rawEventId == selected)
    (fun _ => none)
    (fun g => { g with processing := g.processing ++ [⟨selected, userId, .received, 0, none⟩] })
  pure ⟨selected, inserted, contentHash⟩

/-- The processing row of an owner's raw event. -/
def processingOf (userId rawEventId : Uuid) (p : RawEventProcessing) : Bool :=
  p.rawEventId == rawEventId && p.userId == userId

/-- The error of a missing processing row. -/
def processingMissing : AppError := .runtime "Raw event is missing its processing state"

/-- `get_processing` -/
def getProcessing (userId rawEventId : Uuid) : DbTx RawEventProcessing := do
  let processing ← reads fun g => g.processing.find? (processingOf userId rawEventId)
  requireSome processing processingMissing

/-- `get_processing(..., for_update=True)` -/
def lockProcessing (userId rawEventId : Uuid) : DbTx RawEventProcessing := do
  let processing ← selectForUpdate Db.processing .processing RawEventProcessing.rawEventId
    (processingOf userId rawEventId)
  requireSome processing processingMissing

/-- Write a locked processing row back. -/
def setProcessing (p : RawEventProcessing) : DbTx Unit :=
  modify fun g => { g with
    processing := Table.set RawEventProcessing.rawEventId p.rawEventId (fun _ => p) g.processing }

/-! ### Normalized events -/

/-- An optional amount column. -/
def storeAmount : Option ℚ → Except AppError (Option Money)
  | none => .ok none
  | some value =>
    match Money.store value with
    | none => .error (.data "amount")
    | some amount => .ok (some amount)

/-- The text of an event fits its columns. -/
def storableEvent (event : NormalizedFinancialEventV1) : Bool :=
  optFitsColumn 3 event.currency && fitsColumn 500 event.description &&
    optFitsColumn 160 event.merchantName && optFitsColumn 160 event.counterparty &&
    optFitsColumn 80 event.categoryHint && event.tags.all (·.all storableChar) &&
    event.paymentIdentifiers.all (·.all storableChar)

/-- The row of a validated event, or the first violated constraint. -/
def normalizedRow (id userId rawEventId : Uuid) (event : NormalizedFinancialEventV1)
    (normalizerKey normalizerVersion : String) : Except AppError NormalizedFinancialEvent := do
  if !storableEvent event then throw (.data "normalized_financial_events")
  let amount ← storeAmount event.amount
  if !(amount.all fun a => 0 < a.units) then
    throw (.integrity "ck_normalized_financial_events_amount_positive_when_present")
  let confidence ← Ledger.storeConfidence "ck_normalized_financial_events_confidence_range"
    event.confidence
  if !(event.currency.all Ledger.currencyFormat) then
    throw (.integrity "ck_normalized_financial_events_currency_format_when_present")
  if !Ledger.notBlank event.description then
    throw (.integrity "ck_normalized_financial_events_description_not_blank")
  pure {
    id := id
    userId := userId
    rawEventId := rawEventId
    schemaVersion := NORMALIZED_EVENT_SCHEMA_VERSION
    normalizerKey := normalizerKey
    normalizerVersion := normalizerVersion
    eventKind := event.eventKind
    amount := amount
    currency := event.currency
    description := event.description
    occurredAt := event.occurredAt
    merchantName := event.merchantName
    counterparty := event.counterparty
    categoryHint := event.categoryHint
    tags := event.tags
    paymentIdentifiers := event.paymentIdentifiers
    confidence := confidence }

/-- The normalized event of a raw event under a contract (`uq_normalized_events_raw_contract`). -/
def contracted (rawEventId : Uuid) (normalizerKey normalizerVersion : String)
    (n : NormalizedFinancialEvent) : Bool :=
  n.rawEventId == rawEventId && n.schemaVersion == NORMALIZED_EVENT_SCHEMA_VERSION &&
    n.normalizerKey == normalizerKey && n.normalizerVersion == normalizerVersion

/-- `store_normalized_event` -/
def storeNormalizedEvent (normalizedEventId userId rawEventId : Uuid)
    (event : NormalizedFinancialEventV1) (normalizerKey normalizerVersion : String) :
    DbTx NormalizedFinancialEvent := do
  let row ← ofExcept id
    (normalizedRow normalizedEventId userId rawEventId event normalizerKey normalizerVersion)
  let same := contracted rawEventId normalizerKey normalizerVersion
  let inserted ← insertOrIgnore
    (.key .normalizedEvents [rawEventId] [py normalizerKey, py normalizerVersion])
    (.row .normalizedEvents normalizedEventId)
    (fun g => g.normalizedEvents.any same)
    (fun g => if g.normalizedEvents.any fun n => n.id == normalizedEventId then
      some (.integrity "pk_normalized_financial_events") else none)
    (fun g => { g with normalizedEvents := g.normalizedEvents ++ [row] })
  let existing ← reads fun g => (g.normalizedEvents.find? fun n =>
    n.userId == userId && same n).map NormalizedFinancialEvent.id
  let selected ← requireSome (if inserted then some normalizedEventId else existing)
    (.runtime "Normalized-event upsert did not return an owner-visible row")
  let normalized ← reads fun g => g.normalizedEvents.find? fun n =>
    n.id == selected && n.userId == userId
  requireSome normalized (.runtime "Normalized event disappeared after insertion")

/-- `normalized_for_raw_event`: the newest one. -/
def normalizedForRawEvent (userId rawEventId : Uuid) : DbTx (Option NormalizedFinancialEvent) :=
  reads fun g => (g.normalizedEvents.filter fun n =>
    n.userId == userId && n.rawEventId == rawEventId).getLast?

/-! ### Evidence -/

/-- `evidence_for_raw_event` -/
def evidenceForRawEvent (userId rawEventId : Uuid) : DbTx (Option Evidence) :=
  reads fun g => g.evidence.find? fun e => e.userId == userId && e.rawEventId == rawEventId

/-- `add_evidence` -/
def addEvidence (evidenceId userId rawEventId normalizedEventId transactionId : Uuid)
    (locator : Fields) (excerpt : Option PyStr) : DbTx Unit := do
  require (storableFields locator && optFitsColumn 500 excerpt) (.data "evidence")
  acquire (.row .evidence evidenceId)
  insertChecked (.key .evidence [normalizedEventId] [])
    (fun g => if g.evidence.any fun e => e.id == evidenceId then some (.integrity "pk_evidence")
      else if g.evidence.any fun e => e.normalizedEventId == normalizedEventId then
        some (.integrity "uq_evidence_normalized_event")
      else none)
    (fun g => { g with evidence := g.evidence ++
      [⟨evidenceId, userId, rawEventId, normalizedEventId, transactionId, locator, excerpt⟩] })

end Expensea.Ingestion
