import Expensea.Connectors.Notes
import Expensea.Jobs.Repository
import Expensea.Reconciliation.Errors

namespace Expensea.Jobs

open Txn
open Ingestion (Platform)

/-!
# Durable jobs — the worker

`app/jobs/worker.py` over `submit_manual_note` of `app/ai/proposal_service.py`: a slot claims a
job, submits its note, and records an outcome for the lease.

* `Submission`, `submitManualNote` — transactions that commit one after another, so that an
  error keeps what was committed before it;
* `handle` — what the handlers of `_execute` make of an error;
* `execute`, `runOnce` — one turn of a slot;
* `Refused` — the notes whose delivery ends with an error that no handler names;
* `no_poison_job` — the other notes leave an outcome, and only they do.
-/

/-! ### The payload of a job -/

/-- The items of a JSON array, as `json.dumps` separates them. -/
def spaced (items : List PyStr) : PyStr := (py ", ").intercalate items

/-- `json.dumps(self.model_dump(mode="json"), ensure_ascii=False)` -/
def payloadText (P : Platform) (payload : FinancialNotePayload) (timestamp : DateTime) : PyStr :=
  py "\x7b" ++ spaced [
    py "\"note\": " ++ Ingestion.jsonString payload.note,
    py "\"source_timestamp\": " ++ Ingestion.jsonString (P.isoformat timestamp),
    py "\"labels\": [" ++ spaced (payload.labels.map Ingestion.jsonString) ++ py "]"] ++ py "\x7d"

/-- A text of the payload: not blank, without NUL, and of Unicode scalar values. -/
def payloadField (limit : Nat) (text : PyStr) : Bool :=
  text.length ≤ limit && strip text ≠ [] && text.all fun c => c != 0 && !isSurrogate c

/-- `FinancialNotePayload.model_validate`: the timestamp of a valid payload. -/
def validatePayload (P : Platform) (payload : FinancialNotePayload) : Option DateTime := do
  let timestamp ← P.parseDatetime payload.sourceTimestamp
  let size ← utf8Size (payloadText P payload timestamp)
  if payloadField 8000 payload.note && timestamp.offset.isSome && payload.labels.length ≤ 12 &&
      payload.labels.all (payloadField 40) && size ≤ 30000 then some timestamp
  else none

/-! ### The submission of a note -/

/-- How `submit_manual_note` fails: with an `AIProviderError` or an `AIOutputError`, by its
    code, with a `TimeoutError`, or with an error of the services it calls. -/
inductive SubmitError where
  | provider (code : String)
  | output (code : String)
  | timeout
  | app (e : AppError)
  deriving DecidableEq

/-- The codes under which the extractor raises `AIOutputError`. -/
def OUTPUT_CODES : List String :=
  ["EMPTY_FINANCIAL_NOTE", "FINANCIAL_NOTE_TOO_LONG", "INVALID_SOURCE_TIMEZONE",
    "INVALID_DEFAULT_CURRENCY", "AI_OUTPUT_SCHEMA_INVALID"]

/-- The error of a recorded extraction failure. -/
def extractionError (code : String) : SubmitError :=
  if code ∈ OUTPUT_CODES then .output code else .provider code

/-- Transactions that commit one after another. -/
abbrev Submission (α : Type) := ExceptT SubmitError (StateM Db) α

/-- What a submission ends with, and the database it leaves. -/
def attempt {α : Type} (x : Submission α) (g : Db) : Except SubmitError α × Db := x g

/-- Run one transaction to its commit; a failure leaves no trace of it. -/
def commit {α : Type} (x : DbTx α) : Submission α := fun g =>
  match x.run g with
  | .ok (a, g') => (.ok a, g')
  | .error e => (.error (.app e), g)

/-- Continue a pure computation. -/
def computed {α : Type} (x : Except AppError α) : Submission α := fun g =>
  (x.mapError .app, g)

/-- The default of `ingest_envelope`'s `connection_key`. -/
def DEFAULT_CONNECTION_KEY : PyStr := py "default"

/-- `ingest_envelope`, transaction by transaction. -/
def ingestEnvelope (C : Reconciliation.Config) (fresh : FreshIds) (userId : Uuid)
    (connector : Ingestion.Connector) (envelope : Ingestion.ConnectorEnvelope) :
    Submission Ingestion.IngestionResult := do
  let connection ← commit
    (Ingestion.ensureConnection C fresh userId connector DEFAULT_CONNECTION_KEY)
  let stored ← commit (Ingestion.storeEnvelope C fresh userId connection envelope)
  let terminal ← commit (Ingestion.terminalResult userId stored)
  commit (Ingestion.continueDelivery C fresh userId connector connection envelope stored terminal)

/-- `extract_raw_event`: an `AIError` is recorded and raised again. -/
def extractRawEvent (C : Ai.ProposalConfig) (fresh : FreshIds) (userId rawEventId : Uuid)
    (answer : Except String Ai.CompletionData) : Submission FinancialEventProposal := do
  let outcome ← commit (Ai.extract C fresh userId rawEventId answer)
  match outcome with
  | .ok view => pure view.proposal
  | .error code => throw (extractionError code)

/-- `submit_manual_note` -/
def submitManualNote (C : Ai.ProposalConfig) (fresh : FreshIds) (userId : Uuid) (note : PyStr)
    (sourceTimestamp : DateTime) (clientRequestId : Uuid) (labels : List PyStr)
    (answer : Except String Ai.CompletionData) : Submission FinancialEventProposal := do
  let envelope ← computed
    (Connectors.createManualNoteEnvelope C.core.platform note sourceTimestamp clientRequestId labels)
  let ingested ← ingestEnvelope C.core fresh userId
    (Connectors.manualNoteConnector C.core.platform.unicode []) envelope
  extractRawEvent C fresh userId ingested.rawEventId answer

/-! ### One turn of a slot -/

/-- What the worker works on: the queue and the database of the services. -/
structure System where
  jobs : JobDb
  db : Db

/-- What a turn draws and is answered: the identifiers of its rows, the reply of the provider,
    the jitter of its delay, and the database at the moment its time limit was reached, if it
    was. -/
structure Turn where
  fresh : FreshIds
  answer : Except String Ai.CompletionData
  jitter : Jitter
  cutAt : Option Db

/-- `retry_delay` -/
def retryDelay (settings : JobsSettings) (attempt : Nat) (jitter : Jitter) : ℚ :=
  min settings.maxBackoffSeconds (settings.backoffSeconds * 2 ^ min ((attempt : ℤ) - 1) 10) *
    (1 / 2 + 1 / 2 * jitter.1)

/-- The submission of a lease's note, under `asyncio.timeout`. -/
def submitLease (C : Ai.ProposalConfig) (turn : Turn) (lease : Lease) :
    Submission FinancialEventProposal := fun g =>
  match lease.payload.bind fun payload => (validatePayload C.core.platform payload).map
      fun timestamp => (payload, timestamp) with
  | none => (.error (.app (.contract "FinancialNotePayload")), g)
  | some (payload, timestamp) =>
    match turn.cutAt with
    | some g' => (.error .timeout, g')
    | none => submitManualNote C turn.fresh lease.userId payload.note timestamp lease.id
        payload.labels turn.answer g

/-- The error code the handlers of `_execute` record and whether the job is retried; `none` for
    an error that no handler names. -/
def handle : SubmitError → Option (String × Bool)
  | .provider code =>
    if code = "AI_PROVIDER_DISABLED" then some ("AI_PROVIDER_DISABLED", false)
    else some ("PROVIDER_UNAVAILABLE", true)
  | .output _ => some ("EXTRACTION_REVIEW_REQUIRED", false)
  | .timeout => some ("JOB_TIMEOUT", true)
  | .app (.proposalReview _ _) => some ("EXTRACTION_REVIEW_REQUIRED", false)
  | .app (.connectorContent _ _) => some ("EXTRACTION_REVIEW_REQUIRED", false)
  | .app (.contract _) => some ("INVALID_JOB_PAYLOAD", false)
  | .app (.integrity _) => some ("JOB_DATABASE_ERROR", true)
  | .app (.data _) => some ("JOB_DATABASE_ERROR", true)
  | .app _ => none

/-- What `_execute` reports for a submission; `none` while its error propagates. -/
def report (settings : JobsSettings) (turn : Turn) (lease : Lease) :
    Except SubmitError FinancialEventProposal → Except SubmitError FinishRequest
  | .ok proposal => .ok ⟨some ⟨proposal.id⟩, none, false,
      retryDelay settings lease.attempts turn.jitter⟩
  | .error e =>
    match handle e with
    | some (code, retryable) => .ok ⟨none, some code, retryable,
        retryDelay settings lease.attempts turn.jitter⟩
    | none => .error e

/-- Errors of `run_once`: of the submission, or of a queue transaction. -/
inductive TurnError where
  | submission (e : SubmitError)
  | queue (e : JobError)
  deriving DecidableEq

/-- `_execute`: whether the lease was still owned when its outcome was recorded. -/
def execute (C : Ai.ProposalConfig) (settings : JobsSettings) (turn : Turn) (lease : Lease)
    (s : System) : Except TurnError Bool × System :=
  let (submitted, db) := attempt (submitLease C turn lease) s.db
  match report settings turn lease submitted with
  | .error e => (.error (.submission e), { s with db := db })
  | .ok r =>
    match (finish lease r).run s.jobs with
    | .ok (recorded, jobs) => (.ok recorded, ⟨jobs, db⟩)
    | .error e => (.error (.queue e), { s with db := db })

/-- `run_once`: whether there was a job. -/
def runOnce (C : Ai.ProposalConfig) (settings : JobsSettings) (token : Uuid)
    (jitter : Uuid → Jitter) (turn : Turn) (s : System) : Except TurnError Bool × System :=
  match (claim settings token jitter).run s.jobs with
  | .error e => (.error (.queue e), s)
  | .ok (none, jobs) => (.ok false, { s with jobs := jobs })
  | .ok (some lease, jobs) =>
    match execute C settings turn lease { s with jobs := jobs } with
    | (.ok _, s') => (.ok true, s')
    | (.error e, s') => (.error e, s')

/-! ### Errors that no handler names -/

/-- An AI, ingestion or ledger error. -/
def SubmitError.ofServices : SubmitError → Bool
  | .provider _ => true
  | .output _ => true
  | .app (.ledger _) => true
  | .app (.ingestionConflict _ _) => true
  | .app (.connectorContent _ _) => true
  | .app (.connectorUnavailable _ _) => true
  | .app (.proposalReview _ _) => true
  | _ => false

/-- Such an error without a handler. -/
def Stray (e : AppError) : Prop := (SubmitError.app e).ofServices = true ∧ handle (.app e) = none

theorem not_stray_of_handled {e : AppError} {r : String × Bool} (h : handle (.app e) = some r) :
    ¬ Stray e := by
  rintro ⟨-, hnone⟩
  rw [h] at hnone
  cases hnone

theorem not_stray_of_other {e : AppError} (h : (SubmitError.app e).ofServices = false) :
    ¬ Stray e := by
  rintro ⟨hservices, -⟩
  rw [h] at hservices
  cases hservices

theorem ordinary_not_stray : Reconciliation.Ordinary fun e => ¬ Stray e where
  data := fun _ => not_stray_of_handled rfl
  integrity := fun _ _ => not_stray_of_handled rfl
  runtime := fun _ => not_stray_of_other rfl
  overflow := not_stray_of_other rfl
  notFound := fun _ _ => not_stray_of_other rfl
  conflict := fun _ _ => not_stray_of_other rfl

/-! ### Programs without stray errors -/

section Settles

variable {userId : Uuid} {P : AppError → Prop}

/-- A declared transition is never refused. -/
theorem throws_moveTo {processing : RawEventProcessing} {target : RawEventState}
    (h : (Ingestion.allowedTransitions processing.state).contains target = true)
    (errorCode : Option String) : (Ingestion.moveTo processing target errorCode).Throws P := by
  unfold Ingestion.moveTo Ingestion.requireStateTransition
  rw [h]
  exact (Tx.throws_pure ()).bind fun _ => (Tx.throws_modify _).bind fun _ => Tx.throws_pure _

theorem throws_queueReview {processing : RawEventProcessing} (h : processing.state = .normalized)
    (errorCode : String) : (Ingestion.queueReview processing errorCode).Throws P := by
  refine (throws_moveTo ?_ _).bind fun _ => Tx.throws_pure _
  rw [h]
  rfl

theorem throws_settleOutcome {processing : RawEventProcessing}
    {outcome : Reconciliation.ReconciliationProcessingOutcome}
    (h : processing.state = .normalized)
    (htarget : outcome.requiresReview = true ∨ outcome.transactionId.isSome = true) :
    (Ingestion.settleOutcome processing outcome).Throws P := by
  unfold Ingestion.settleOutcome
  split
  · exact throws_queueReview h _
  · rename_i hreview
    obtain ⟨transactionId, hid⟩ := Option.isSome_iff_exists.1 (htarget.resolve_left hreview)
    rw [hid]
    refine (Tx.throws_pure _).bind fun _ => (throws_moveTo ?_ _).bind fun _ => Tx.throws_pure _
    rw [h]
    rfl

/-- What is posted or queued for review settles: the ledger's rejection of a command is caught. -/
theorem throws_postOrQueueReview {C : Reconciliation.Config} {fresh : FreshIds}
    {envelope : Ingestion.ConnectorEnvelope} {processing : RawEventProcessing}
    {event : NormalizedFinancialEvent} (h : processing.state = .normalized) :
    (Ingestion.postOrQueueReview C fresh userId envelope processing event).Throws
      fun e => ¬ Stray e := by
  unfold Ingestion.postOrQueueReview
  split
  · refine (Reconciliation.throws_classify _ _ _).bind fun assignment => ?_
    refine (Reconciliation.throws_resolveCategory _ _ _).bind fun categoryId => ?_
    unfold Ingestion.postCommand
    split
    · refine Reconciliation.returns_reconcileTransaction.throws_bind ?_ fun outcome htarget =>
        throws_settleOutcome h htarget
      exact Reconciliation.throws_reconcileTransaction ordinary_not_stray
        (.inr (not_stray_of_handled rfl))
    · exact throws_queueReview h _
    · rename_i e hnot he
      rcases Reconciliation.eventCommand_error he with ⟨l, rfl⟩ | rfl
      · exact absurd rfl (hnot l)
      · exact not_stray_of_other rfl
  · exact throws_queueReview h _

/-- An event that is not finished moves to `NORMALIZED`. -/
theorem throws_moveToNormalized {processing : RawEventProcessing}
    (h : Ingestion.isTerminal processing.state = false) :
    (Ingestion.moveToNormalized processing).Throws P := by
  have hallowed : (processing.state == .normalized ||
      (Ingestion.allowedTransitions processing.state).contains .normalized) = true := by
    cases hstate : processing.state with
    | received => rfl
    | normalized => rfl
    | failed => rfl
    | needsReview =>
      rw [hstate] at h
      cases h
    | processed =>
      rw [hstate] at h
      cases h
  unfold Ingestion.moveToNormalized
  rw [hallowed]
  exact (Tx.throws_pure ()).bind fun _ => (Tx.throws_modify _).bind fun _ => Tx.throws_pure _

theorem returns_moveToNormalized {processing : RawEventProcessing} :
    (Ingestion.moveToNormalized processing).Returns fun moved => moved.state = .normalized :=
  Tx.returns_bind fun _ => Tx.returns_bind fun _ => Tx.returns_pure rfl

/-- The processing of a stored event settles, whatever the database holds. -/
theorem throws_processNormalized {C : Reconciliation.Config} {fresh : FreshIds}
    {connection : SourceConnection} {envelope : Ingestion.ConnectorEnvelope}
    {stored : Ingestion.StoredRawEvent} {normalized : Ingestion.NormalizedFinancialEventV1} :
    (Ingestion.processNormalized C fresh userId connection envelope stored normalized).Throws
      fun e => ¬ Stray e := by
  refine (Reconciliation.throws_lockProcessing ordinary_not_stray _).bind fun processing => ?_
  split
  · exact Reconciliation.throws_finishedResult _ _ _
  · rename_i hopen
    refine (Reconciliation.throws_storeNormalizedEvent ordinary_not_stray).bind fun event => ?_
    refine returns_moveToNormalized.throws_bind (throws_moveToNormalized ?_) fun moved hmoved => ?_
    · simpa using hopen
    · exact (throws_postOrQueueReview hmoved).bind fun _ => Tx.throws_pure _

theorem throws_markFailed {stored : Ingestion.StoredRawEvent} {errorCode : String} :
    (Ingestion.markFailed userId stored errorCode).Throws fun e => ¬ Stray e := by
  refine (Reconciliation.throws_lockProcessing ordinary_not_stray _).bind fun processing => ?_
  split
  · exact Reconciliation.throws_finishedResult _ _ _
  · rename_i hopen
    refine (throws_moveTo ?_ _).bind fun _ => Tx.throws_pure _
    cases hstate : processing.state with
    | received => rfl
    | normalized => rfl
    | failed => rfl
    | needsReview =>
      rw [hstate] at hopen
      exact absurd rfl hopen
    | processed =>
      rw [hstate] at hopen
      exact absurd rfl hopen

/-- The end of a delivery settles. -/
theorem throws_continueDelivery {C : Reconciliation.Config} {fresh : FreshIds}
    {connector : Ingestion.Connector} {connection : SourceConnection}
    {envelope : Ingestion.ConnectorEnvelope} {stored : Ingestion.StoredRawEvent}
    {terminal : Option Ingestion.IngestionResult} :
    (Ingestion.continueDelivery C fresh userId connector connection envelope stored
      terminal).Throws fun e => ¬ Stray e := by
  cases terminal with
  | some result => exact Tx.throws_pure _
  | none =>
    show (Ingestion.finishDelivery C fresh userId connection envelope stored
      (connector.normalize envelope)).Throws _
    cases connector.normalize envelope with
    | event normalized => exact throws_processNormalized
    | contentError code => exact throws_markFailed
    | uncaught e =>
      cases e with
      | invalid => exact not_stray_of_handled rfl
      | overflow => exact not_stray_of_other rfl

theorem throws_terminalResult {stored : Ingestion.StoredRawEvent} :
    (Ingestion.terminalResult userId stored).Throws fun e => ¬ Stray e := by
  refine Tx.throws_bind ?_ fun processing => ?_
  · exact (Tx.throws_reads _).bind fun _ => throws_requireSome (not_stray_of_other rfl)
  · split
    · exact (Reconciliation.throws_finishedResult _ _ _).bind fun _ => Tx.throws_pure _
    · exact Tx.throws_pure none

theorem proposalRow_error (hP : Reconciliation.Ordinary P) {rowId rawEventId : Uuid}
    {extraction : Ai.FinancialExtractionResult} {e : AppError}
    (h : Ai.proposalRow rowId userId rawEventId extraction = .error e) : P e := by
  simp only [Ai.proposalRow, bind, Except.bind, throw, throwThe, MonadExceptOf.throw, pure,
    Except.pure] at h
  split at h
  · obtain rfl := Except.error.inj h
    exact hP.data _
  split at h
  · rename_i hamount
    obtain rfl := Except.error.inj h
    exact Reconciliation.storeAmount_error hP hamount
  split at h
  · obtain rfl := Except.error.inj h
    exact hP.named (by decide)
  cases hconfidence : Confidence.store extraction.event.confidence with
  | none =>
    rw [hconfidence] at h
    obtain rfl := Except.error.inj h
    exact hP.named (by decide)
  | some c =>
    rw [hconfidence] at h
    dsimp only at h
    split at h
    · obtain rfl := Except.error.inj h
      exact hP.named (by decide)
    split at h
    · obtain rfl := Except.error.inj h
      exact hP.named (by decide)
    split at h
    · obtain rfl := Except.error.inj h
      exact hP.named (by decide)
    · cases h

theorem throws_createOrGet (hP : Reconciliation.Ordinary P) {proposalId : Uuid}
    {context : Ai.RawExtractionContext} {extraction : Ai.FinancialExtractionResult} :
    (Ai.createOrGet proposalId userId context extraction).Throws P := by
  refine throws_ofExcept_bind (fun e he => proposalRow_error hP he) fun row _ => ?_
  refine (throws_insertOrIgnore fun g e he => ?_).bind fun inserted => ?_
  · split at he <;> cases he
    exact hP.named (by decide)
  · refine (Tx.throws_reads _).bind fun existing => ?_
    refine (throws_requireSome (hP.runtime _)).bind fun selected => ?_
    exact (Tx.throws_reads _).bind fun proposal => throws_requireSome (hP.runtime _)

/-- An extraction settles: what the provider and the extractor reject is recorded. -/
theorem throws_extract {C : Ai.ProposalConfig} {fresh : FreshIds} {rawEventId : Uuid}
    {answer : Except String Ai.CompletionData} :
    (Ai.extract C fresh userId rawEventId answer).Throws fun e => ¬ Stray e := by
  refine (Tx.throws_reads _).bind fun existing => ?_
  cases existing with
  | some view => exact Tx.throws_pure _
  | none =>
    refine (Tx.throws_reads _).bind fun context => ?_
    refine (throws_requireSome (not_stray_of_handled rfl)).bind fun context => ?_
    refine (throws_requireSome (not_stray_of_handled rfl)).bind fun text => ?_
    unfold Ai.recordExtraction
    split
    · refine (throws_createOrGet ordinary_not_stray).bind fun view => ?_
      refine (Reconciliation.throws_lockProcessing ordinary_not_stray _).bind fun processing => ?_
      exact (Reconciliation.throws_setProcessing _ _).bind fun _ => Tx.throws_pure _
    · refine Tx.throws_bind ?_ fun _ => Tx.throws_pure _
      refine (Reconciliation.throws_lockProcessing ordinary_not_stray _).bind fun processing => ?_
      exact Reconciliation.throws_setProcessing _ _
    · exact not_stray_of_other rfl

end Settles

/-! ### Which submissions stray -/

/-- The submission ends with a stray error. -/
def Strays {α : Type} (x : Submission α) (g : Db) : Prop :=
  ∃ e g', attempt x g = (.error (.app e), g') ∧ Stray e

section Strays

variable {α β : Type} {g : Db}

theorem attempt_bind (x : Submission α) (f : α → Submission β) (g : Db) :
    attempt (x >>= f) g =
      match attempt x g with
      | (.ok a, g') => attempt (f a) g'
      | (.error e, g') => (.error e, g') := by
  show ExceptT.bind x f g = _
  unfold ExceptT.bind ExceptT.mk attempt
  show (match x g with | (a, g') => ExceptT.bindCont f a g') = _
  rcases x g with ⟨r, g'⟩
  cases r <;> rfl

theorem attempt_commit (x : DbTx α) (g : Db) :
    attempt (commit x) g =
      match x.run g with
      | .ok (a, g') => (.ok a, g')
      | .error e => (.error (.app e), g) := rfl

/-- A sequence strays in its first part, or in its second part after the first. -/
theorem strays_bind {x : Submission α} {f : α → Submission β} :
    Strays (x >>= f) g ↔
      Strays x g ∨ ∃ a g', attempt x g = (.ok a, g') ∧ Strays (f a) g' := by
  unfold Strays
  rw [attempt_bind]
  rcases hx : attempt x g with ⟨r, g₁⟩
  cases r with
  | ok a => simp
  | error e => simp

theorem strays_commit {x : DbTx α} : Strays (commit x) g ↔ x.FailsWith Stray g := by
  unfold Strays Tx.FailsWith
  rw [attempt_commit]
  cases hx : x.run g with
  | ok r => simp
  | error e => simp

theorem attempt_commit_ok {x : DbTx α} {a : α} {g' : Db} :
    attempt (commit x) g = (.ok a, g') ↔ x.run g = .ok (a, g') := by
  rw [attempt_commit]
  cases hx : x.run g with
  | ok r => simp [Prod.ext_iff]
  | error e => simp

theorem not_strays_commit {x : DbTx α} (hx : x.Throws fun e => ¬ Stray e) :
    ¬ Strays (commit x) g := by
  rw [strays_commit]
  exact hx.not_failsWith

theorem strays_computed {x : Except AppError α} :
    Strays (computed x) g ↔ ∃ e, x = .error e ∧ Stray e := by
  cases x with
  | ok a => simp [Strays, attempt, computed, Except.mapError]
  | error e => simp [Strays, attempt, computed, Except.mapError]

theorem attempt_computed_ok {x : Except AppError α} {a : α} {g' : Db} :
    attempt (computed x) g = (.ok a, g') ↔ x = .ok a ∧ g' = g := by
  cases x with
  | ok a => simp [attempt, computed, Except.mapError, eq_comm]
  | error e => simp [attempt, computed, Except.mapError]

end Strays

/-! ### Refused deliveries -/

/-- The keys of `source_connections` and `raw_events`, and the reference between them. -/
structure SourceKeys (g : Db) : Prop where
  connectionIds : (g.connections.map SourceConnection.id).Nodup
  connectionKeys : ∀ c ∈ g.connections, ∀ c' ∈ g.connections, c.userId = c'.userId →
    c.connectorType = c'.connectorType → c.connectionKey = c'.connectionKey → c = c'
  rawIds : (g.rawEvents.map RawEvent.id).Nodup
  identities : ∀ r ∈ g.rawEvents, ∀ r' ∈ g.rawEvents,
    r.sourceConnectionId = r'.sourceConnectionId → r.identityKey = r'.identityKey → r = r'
  rawOwned : ∀ r ∈ g.rawEvents, ∃ c ∈ g.connections,
    c.id = r.sourceConnectionId ∧ c.userId = r.userId

/-- An envelope whose content and identity the tables hold. -/
def Storable (P : Platform) (envelope : Ingestion.ConnectorEnvelope) : Prop :=
  ∃ payload, Ingestion.canonicalEnvelope P envelope = .ok payload ∧
    Ingestion.storableEnvelope envelope
      (Ingestion.eventIdentityKey envelope (Ingestion.contentSha256 P envelope)) payload = true ∧
    Ledger.notBlank envelope.eventType = true

/-- The connection stores another content under the identity of the envelope. -/
def Mismatched (P : Platform) (envelope : Ingestion.ConnectorEnvelope) (connectionId : Uuid)
    (g : Db) : Prop :=
  ∃ r ∈ g.rawEvents, r.sourceConnectionId = connectionId ∧
    r.identityKey = Ingestion.eventIdentityKey envelope (Ingestion.contentSha256 P envelope) ∧
    r.contentSha256 ≠ Ingestion.contentSha256 P envelope

/-- The owner's notes cannot take the envelope: the profile is missing, the connection of the
    notes is not active, or it stores another content under the same identity. -/
def DeliveryRefused (P : Platform) (userId : Uuid) (envelope : Ingestion.ConnectorEnvelope)
    (g : Db) : Prop :=
  (∀ u ∈ g.users, u.id ≠ userId) ∨
  ∃ c ∈ g.connections,
    Ingestion.connectionKeyed userId .manualNote DEFAULT_CONNECTION_KEY c = true ∧
    (c.status ≠ .active ∨ Storable P envelope ∧ Mismatched P envelope c.id g)

/-- A valid note whose delivery the owner's notes cannot take. -/
def Refused (C : Ai.ProposalConfig) (lease : Lease) (g : Db) : Prop :=
  ∃ payload timestamp envelope, lease.payload = some payload ∧
    validatePayload C.core.platform payload = some timestamp ∧
    Connectors.createManualNoteEnvelope C.core.platform payload.note timestamp lease.id
      payload.labels = .ok envelope ∧
    DeliveryRefused C.core.platform lease.userId envelope g

section Delivery

variable {C : Reconciliation.Config} {fresh : FreshIds} {userId : Uuid} {g : Db}

/-- What connecting ends with. -/
inductive Connected (fresh : FreshIds) (userId : Uuid) (type : ConnectorType) (key : PyStr)
    (g : Db) : Except AppError (SourceConnection × Db) → Prop where
  | missing (code message : String) (field : Option String)
      (hmissing : ∀ u ∈ g.users, u.id ≠ userId) :
      Connected fresh userId type key g (.error (.ledger ⟨.notFound, code, message, field⟩))
  | inactive (c : SourceConnection) (code message : String) (hc : c ∈ g.connections)
      (hkeyed : Ingestion.connectionKeyed userId type key c = true) (hstatus : c.status ≠ .active) :
      Connected fresh userId type key g (.error (.ingestionConflict code message))
  | taken (ck : String) (hknown : ∃ u ∈ g.users, u.id = userId)
      (hnone : ∀ c ∈ g.connections, Ingestion.connectionKeyed userId type key c = false) :
      Connected fresh userId type key g (.error (.integrity ck))
  | active (c : SourceConnection) (hknown : ∃ u ∈ g.users, u.id = userId)
      (hc : c ∈ g.connections) (hkeyed : Ingestion.connectionKeyed userId type key c = true)
      (hstatus : c.status = .active) : Connected fresh userId type key g (.ok (c, g))
  | created (c : SourceConnection) (hknown : ∃ u ∈ g.users, u.id = userId)
      (hnone : ∀ c' ∈ g.connections, Ingestion.connectionKeyed userId type key c' = false)
      (hid : c.id = fresh.connection) (hfresh : ∀ c' ∈ g.connections, c'.id ≠ fresh.connection) :
      Connected fresh userId type key g
        (.ok (c, { g with connections := g.connections ++ [c] }))

/-- A row found under a key that identifies it, read again by its primary key. -/
theorem getConnection_run {c : SourceConnection} (hids : (g.connections.map SourceConnection.id).Nodup)
    (hc : c ∈ g.connections) (howner : c.userId = userId) :
    (Ingestion.getConnection userId c.id).run g = .ok (c, g) := by
  have hfound : g.connections.find? (fun c' => c'.id == c.id && c'.userId == userId) = some c := by
    refine Table.find?_of_unique hc (by simp [howner]) fun c' hc' h => ?_
    simp only [Bool.and_eq_true, beq_iff_eq] at h
    exact List.inj_on_of_nodup_map hids hc' hc h.1
  rw [Ingestion.getConnection, Tx.run_bind, Tx.run_reads, hfound]
  rfl

theorem ensureConnection_connected (hkeys : SourceKeys g) {connector : Ingestion.Connector}
    (hdefault : normalizeDisplayText C.platform.unicode DEFAULT_CONNECTION_KEY =
      DEFAULT_CONNECTION_KEY) :
    Connected fresh userId connector.key DEFAULT_CONNECTION_KEY g
      ((Ingestion.ensureConnection C fresh userId connector DEFAULT_CONNECTION_KEY).run g) := by
  unfold Ingestion.ensureConnection
  rw [hdefault]
  have hlength : decide (DEFAULT_CONNECTION_KEY ≠ [] ∧ DEFAULT_CONNECTION_KEY.length ≤ 128) = true := by
    decide
  simp only [Tx.run_bind, run_require, hlength, if_true, Ledger.userExists, Tx.run_reads]
  cases hknown : g.users.any fun u => u.id == userId with
  | false =>
    refine .missing _ _ _ fun u hu hid => ?_
    rw [List.any_eq_false] at hknown
    exact hknown u hu (by simp [hid])
  | true =>
    obtain ⟨u, hu, hid⟩ := List.any_eq_true.1 hknown
    have hknown : ∃ u ∈ g.users, u.id = userId := ⟨u, hu, by simpa using hid⟩
    simp only [if_true, Ingestion.ensureConnectionRow, Tx.run_bind, run_require, run_insertOrIgnore,
      Tx.run_reads, run_requireSome,
      show fitsColumn 128 DEFAULT_CONNECTION_KEY = true by decide,
      show Ledger.notBlank DEFAULT_CONNECTION_KEY = true by decide]
    generalize hkeyed : Ingestion.connectionKeyed userId connector.key DEFAULT_CONNECTION_KEY = keyed
    cases hpresent : g.connections.any keyed with
    | true =>
      obtain ⟨c, hc, hck⟩ := List.any_eq_true.1 hpresent
      have hfound : g.connections.find? keyed = some c := by
        refine Table.find?_of_unique hc hck fun c' hc' hck' => ?_
        subst hkeyed
        simp only [Ingestion.connectionKeyed, Bool.and_eq_true, beq_iff_eq] at hck hck'
        exact hkeys.connectionKeys c' hc' c hc (hck'.1.1.trans hck.1.1.symm)
          (hck'.1.2.trans hck.1.2.symm) (hck'.2.trans hck.2.symm)
      have howner : c.userId = userId := by
        subst hkeyed
        simp only [Ingestion.connectionKeyed, Bool.and_eq_true, beq_iff_eq] at hck
        exact hck.1.1
      simp only [if_true, hfound, Option.map_some, Bool.false_eq_true, if_false,
        getConnection_run hkeys.connectionIds hc howner]
      subst hkeyed
      cases hactive : c.status == .active with
      | true => exact .active c hknown hc hck (by simpa using hactive)
      | false => exact .inactive c _ _ hc hck (by simpa using hactive)
    | false =>
      have hnone : ∀ c ∈ g.connections, keyed c = false := by
        intro c hc
        rw [List.any_eq_false] at hpresent
        simpa using hpresent c hc
      simp only [Bool.false_eq_true, if_false]
      cases htaken : g.connections.any fun c => c.id == fresh.connection with
      | true =>
        subst hkeyed
        exact .taken _ hknown hnone
      | false =>
        have hfresh : ∀ c ∈ g.connections, c.id ≠ fresh.connection :=
          Table.fresh_of_any (by simp [htaken])
        have hget : ∀ c : SourceConnection, c.id = fresh.connection → c.userId = userId →
            (Ingestion.getConnection userId fresh.connection).run
              { g with connections := g.connections ++ [c] } =
            .ok (c, { g with connections := g.connections ++ [c] }) := by
          intro c hid howner
          have hfound : (g.connections ++ [c]).find?
              (fun c' => c'.id == fresh.connection && c'.userId == userId) = some c := by
            refine Table.find?_append_fresh (fun c' hc' => ?_) (by simp [hid, howner])
            simp [hfresh c' hc']
          rw [Ingestion.getConnection, Tx.run_bind, Tx.run_reads, hfound]
          rfl
        simp only [Bool.false_eq_true, if_false, if_true]
        rw [hget _ rfl rfl]
        subst hkeyed
        exact .created _ hknown hnone rfl hfresh

theorem canonicalEnvelope_error {P : Platform} {envelope : Ingestion.ConnectorEnvelope}
    {e : AppError} (h : Ingestion.canonicalEnvelope P envelope = .error e) :
    ∃ code message, e = .connectorContent code message := by
  unfold Ingestion.canonicalEnvelope at h
  split at h
  · exact ⟨_, _, (Except.error.inj h).symm⟩
  split at h
  · exact ⟨_, _, (Except.error.inj h).symm⟩
  · cases h

/-- Storing a raw event strays exactly on a mismatch with what its connection stores. -/
theorem storeRawEvent_strays {rawEventId connectionId : Uuid}
    {envelope : Ingestion.ConnectorEnvelope} {identityKey contentHash : PyStr} {payload : Fields}
    (hids : (g.rawEvents.map RawEvent.id).Nodup)
    (hidentities : ∀ r ∈ g.rawEvents, ∀ r' ∈ g.rawEvents,
      r.sourceConnectionId = r'.sourceConnectionId → r.identityKey = r'.identityKey → r = r')
    (howner : ∀ r ∈ g.rawEvents, r.sourceConnectionId = connectionId → r.userId = userId) :
    (Ingestion.storeRawEvent rawEventId userId connectionId envelope identityKey contentHash
        payload).FailsWith Stray g ↔
      Ingestion.storableEnvelope envelope identityKey payload = true ∧
        Ledger.notBlank envelope.eventType = true ∧
        ∃ r ∈ g.rawEvents, r.sourceConnectionId = connectionId ∧ r.identityKey = identityKey ∧
          r.contentSha256 ≠ contentHash := by
  unfold Ingestion.storeRawEvent
  rw [failsWith_require (not_stray_of_handled rfl), failsWith_require (not_stray_of_handled rfl)]
  refine and_congr_right fun _ => and_congr_right fun _ => ?_
  -- what follows the insert: only the hashes can differ
  have hend : ∀ (selected : Uuid) (inserted : Bool) (g' : Db),
      (Tx.reads (fun g : Db => (g.rawEvents.find? fun r =>
        r.id == selected && r.userId == userId).map RawEvent.contentSha256) >>= fun existingHash =>
        require (existingHash = some contentHash)
          (.ingestionConflict "SOURCE_IDENTITY_CONTENT_MISMATCH"
            "A source identity was redelivered with different content.") >>= fun _ =>
        insertOrIgnore (.key .processing [selected] []) (.row .processing selected)
          (fun g => g.processing.any fun p => p.rawEventId == selected) (fun _ => none)
          (fun g => { g with
            processing := g.processing ++ [⟨selected, userId, .received, 0, none⟩] }) >>= fun _ =>
        (pure ⟨selected, inserted, contentHash⟩ : DbTx Ingestion.StoredRawEvent)).FailsWith
          Stray g' ↔
      (g'.rawEvents.find? fun r => r.id == selected && r.userId == userId).map
        RawEvent.contentSha256 ≠ some contentHash := by
    intro selected inserted g'
    rw [Tx.failsWith_bind_of_run (Tx.run_reads _ g')]
    rw [Tx.failsWith_bind_of_throws fun _ => (throws_insertOrIgnore fun _ _ h => by cases h).bind
      fun _ => Tx.throws_pure _]
    unfold Tx.FailsWith
    rw [run_require]
    split
    · rename_i heq
      simpa using heq
    · rename_i hne
      refine iff_of_true ⟨_, rfl, rfl, rfl⟩ ?_
      simpa using hne
  cases hpresent : g.rawEvents.any fun r =>
      r.sourceConnectionId == connectionId && r.identityKey == identityKey with
  | true =>
    obtain ⟨r, hr, hkey⟩ := List.any_eq_true.1 hpresent
    simp only [Bool.and_eq_true, beq_iff_eq] at hkey
    have hrowner := howner r hr hkey.1
    have hfound : g.rawEvents.find? (Ingestion.identified userId connectionId identityKey) =
        some r := by
      refine Table.find?_of_unique hr ?_ fun r' hr' h => ?_
      · simp [Ingestion.identified, hrowner, hkey]
      · simp only [Ingestion.identified, Bool.and_eq_true, beq_iff_eq] at h
        exact hidentities r' hr' r hr (h.1.2.trans hkey.1.symm) (h.2.trans hkey.2.symm)
    have hread : g.rawEvents.find? (fun r' => r'.id == r.id && r'.userId == userId) = some r := by
      refine Table.find?_of_unique hr (by simp [hrowner]) fun r' hr' h => ?_
      simp only [Bool.and_eq_true, beq_iff_eq] at h
      exact List.inj_on_of_nodup_map hids hr' hr h.1
    rw [Tx.failsWith_bind_of_run (a := false) (by rw [run_insertOrIgnore, hpresent]; rfl),
      Tx.failsWith_bind_of_run (Tx.run_reads _ g), hfound]
    show (requireSome (some r.id) _ >>= _).FailsWith Stray g ↔ _
    rw [requireSome, pure_bind, hend, hread]
    constructor
    · intro hne
      exact ⟨r, hr, hkey.1, hkey.2, fun heq => hne (congrArg some heq)⟩
    · rintro ⟨r', hr', hconnection, hidentity, hne⟩
      rw [hidentities r' hr' r hr (hconnection.trans hkey.1.symm) (hidentity.trans hkey.2.symm)]
        at hne
      exact fun heq => hne (Option.some.inj heq)
  | false =>
    have hnone : ¬ ∃ r ∈ g.rawEvents, r.sourceConnectionId = connectionId ∧
        r.identityKey = identityKey ∧ r.contentSha256 ≠ contentHash := by
      rintro ⟨r, hr, hconnection, hidentity, -⟩
      rw [List.any_eq_false] at hpresent
      exact hpresent r hr (by simp [hconnection, hidentity])
    refine iff_of_false ?_ hnone
    cases htaken : g.rawEvents.any fun r => r.id == rawEventId with
    | true =>
      rintro ⟨e, he, hstray⟩
      rw [Tx.run_bind, run_insertOrIgnore, hpresent, if_neg (by simp), htaken] at he
      obtain rfl := Except.error.inj he
      exact not_stray_of_handled rfl hstray
    | false =>
      have hfresh : ∀ r ∈ g.rawEvents, r.id ≠ rawEventId := Table.fresh_of_any (by simp [htaken])
      rw [Tx.failsWith_bind_of_run (a := true)
        (by rw [run_insertOrIgnore, hpresent, if_neg (by simp), htaken]; rfl),
        Tx.failsWith_bind_of_run (Tx.run_reads _ _)]
      show ¬ (requireSome (some rawEventId) _ >>= _).FailsWith Stray _
      rw [requireSome, pure_bind, hend, Table.find?_append_fresh]
      · simp
      · intro r hr
        simp [hfresh r hr]
      · simp

/-- Storing an envelope strays exactly on a mismatch with what its connection stores. -/
theorem storeEnvelope_strays {connection : SourceConnection}
    {envelope : Ingestion.ConnectorEnvelope} (hids : (g.rawEvents.map RawEvent.id).Nodup)
    (hidentities : ∀ r ∈ g.rawEvents, ∀ r' ∈ g.rawEvents,
      r.sourceConnectionId = r'.sourceConnectionId → r.identityKey = r'.identityKey → r = r')
    (howner : ∀ r ∈ g.rawEvents, r.sourceConnectionId = connection.id → r.userId = userId) :
    (Ingestion.storeEnvelope C fresh userId connection envelope).FailsWith Stray g ↔
      Storable C.platform envelope ∧ Mismatched C.platform envelope connection.id g := by
  unfold Ingestion.storeEnvelope Storable Mismatched
  rw [failsWith_ofExcept fun e he => ?_]
  · simp only [storeRawEvent_strays hids hidentities howner]
    constructor
    · rintro ⟨payload, hpayload, hfits, hblank, hmismatch⟩
      exact ⟨⟨payload, hpayload, hfits, hblank⟩, hmismatch⟩
    · rintro ⟨⟨payload, hpayload, hfits, hblank⟩, hmismatch⟩
      exact ⟨payload, hpayload, hfits, hblank, hmismatch⟩
  · obtain ⟨code, message, rfl⟩ := canonicalEnvelope_error he
    exact not_stray_of_handled rfl

/-- A delivery to the manual notes strays exactly where the notes cannot take the envelope. -/
theorem ingestEnvelope_strays (hkeys : SourceKeys g) {connector : Ingestion.Connector}
    (hnotes : connector.key = .manualNote)
    (hdefault : normalizeDisplayText C.platform.unicode DEFAULT_CONNECTION_KEY =
      DEFAULT_CONNECTION_KEY) {envelope : Ingestion.ConnectorEnvelope} :
    Strays (ingestEnvelope C fresh userId connector envelope) g ↔
      DeliveryRefused C.platform userId envelope g := by
  have hrest : ∀ connection g', Strays (commit
      (Ingestion.storeEnvelope C fresh userId connection envelope) >>= fun stored =>
        commit (Ingestion.terminalResult userId stored) >>= fun terminal =>
        commit (Ingestion.continueDelivery C fresh userId connector connection envelope stored
          terminal)) g' ↔
      (Ingestion.storeEnvelope C fresh userId connection envelope).FailsWith Stray g' := by
    intro connection g'
    rw [strays_bind, strays_commit]
    refine or_iff_left ?_
    rintro ⟨stored, g'', -, h⟩
    rcases strays_bind.1 h with h | ⟨terminal, g₃, -, h⟩
    · exact not_strays_commit throws_terminalResult h
    · exact not_strays_commit throws_continueDelivery h
  have hconnected : Connected fresh userId connector.key DEFAULT_CONNECTION_KEY g
      ((Ingestion.ensureConnection C fresh userId connector DEFAULT_CONNECTION_KEY).run g) :=
    ensureConnection_connected hkeys hdefault
  unfold ingestEnvelope
  rw [strays_bind, strays_commit, Tx.FailsWith]
  simp only [hrest, attempt_commit_ok]
  rw [hnotes] at hconnected
  generalize (Ingestion.ensureConnection C fresh userId connector DEFAULT_CONNECTION_KEY).run g =
    outcome at hconnected ⊢
  unfold DeliveryRefused
  cases hconnected with
  | missing code message field hmissing =>
    exact iff_of_true (.inl ⟨_, rfl, rfl, rfl⟩) (.inl hmissing)
  | inactive c code message hc hkeyed hstatus =>
    exact iff_of_true (.inl ⟨_, rfl, rfl, rfl⟩) (.inr ⟨c, hc, hkeyed, .inl hstatus⟩)
  | taken ck hknown hnone =>
    refine iff_of_false ?_ ?_
    · rintro (⟨e, he, hstray⟩ | ⟨c, g', h, -⟩)
      · obtain rfl := Except.error.inj he
        exact not_stray_of_handled rfl hstray
      · cases h
    · rintro (hmissing | ⟨c, hc, hkeyed, -⟩)
      · obtain ⟨u, hu, hid⟩ := hknown
        exact hmissing u hu hid
      · rw [hnone c hc] at hkeyed
        cases hkeyed
  | active c hknown hc hkeyed hstatus =>
    have howner : ∀ r ∈ g.rawEvents, r.sourceConnectionId = c.id → r.userId = userId := by
      intro r hr hconnection
      obtain ⟨c', hc', hid, howner⟩ := hkeys.rawOwned r hr
      rw [List.inj_on_of_nodup_map hkeys.connectionIds hc' hc (hid.trans hconnection)] at howner
      simp only [Ingestion.connectionKeyed, Bool.and_eq_true, beq_iff_eq] at hkeyed
      exact howner.symm.trans hkeyed.1.1
    have hstore : (Ingestion.storeEnvelope C fresh userId c envelope).FailsWith Stray g ↔
        Storable C.platform envelope ∧ Mismatched C.platform envelope c.id g :=
      storeEnvelope_strays hkeys.rawIds hkeys.identities howner
    constructor
    · rintro (⟨e, he, -⟩ | ⟨c', g', h, hfails⟩)
      · cases he
      · obtain ⟨rfl, rfl⟩ := Prod.mk.inj (Except.ok.inj h)
        exact .inr ⟨c, hc, hkeyed, .inr (hstore.1 hfails)⟩
    · rintro (hmissing | ⟨c', hc', hkeyed', h⟩)
      · obtain ⟨u, hu, hid⟩ := hknown
        exact absurd hid (hmissing u hu)
      · -- the owner has one connection of the notes
        have heq : c' = c := by
          simp only [Ingestion.connectionKeyed, Bool.and_eq_true, beq_iff_eq] at hkeyed hkeyed'
          exact hkeys.connectionKeys c' hc' c hc (hkeyed'.1.1.trans hkeyed.1.1.symm)
            (hkeyed'.1.2.trans hkeyed.1.2.symm) (hkeyed'.2.trans hkeyed.2.symm)
        subst heq
        exact .inr ⟨c', g, rfl, hstore.2 (h.resolve_left fun hne => hne hstatus)⟩
  | created c hknown hnone hid hfresh =>
    -- no stored event refers to the connection that was just created
    have hnever : ∀ r ∈ g.rawEvents, r.sourceConnectionId ≠ c.id := by
      intro r hr hconnection
      obtain ⟨c', hc', hid', -⟩ := hkeys.rawOwned r hr
      exact hfresh c' hc' (hid'.trans (hconnection.trans hid))
    have hstore : (Ingestion.storeEnvelope C fresh userId c envelope).FailsWith Stray
        { g with connections := g.connections ++ [c] } ↔
        Storable C.platform envelope ∧ Mismatched C.platform envelope c.id g :=
      storeEnvelope_strays hkeys.rawIds hkeys.identities
        fun r hr hconnection => absurd hconnection (hnever r hr)
    refine iff_of_false ?_ ?_
    · rintro (⟨e, he, -⟩ | ⟨c', g', h, hfails⟩)
      · cases he
      · obtain ⟨rfl, rfl⟩ := Prod.mk.inj (Except.ok.inj h)
        obtain ⟨-, r, hr, hconnection, -⟩ := hstore.1 hfails
        exact hnever r hr hconnection
    · rintro (hmissing | ⟨c', hc', hkeyed, -⟩)
      · obtain ⟨u, hu, hid⟩ := hknown
        exact hmissing u hu hid
      · rw [hnone c' hc'] at hkeyed
        cases hkeyed

theorem not_stray_of_createManualNoteEnvelope {P : Platform} {note : PyStr}
    {sourceTimestamp : DateTime} {noteId : Uuid} {labels : List PyStr} {e : AppError}
    (h : Connectors.createManualNoteEnvelope P note sourceTimestamp noteId labels = .error e) :
    ¬ Stray e := by
  rcases Connectors.createManualNoteEnvelope_error h with ⟨code, message, rfl⟩ | ⟨rejected, rfl⟩
  · exact not_stray_of_handled rfl
  · cases rejected with
    | invalid => exact not_stray_of_handled rfl
    | overflow => exact not_stray_of_other rfl

end Delivery

section Turns

variable {C : Ai.ProposalConfig} {settings : JobsSettings} {turn : Turn} {lease : Lease}

theorem submitManualNote_strays {fresh : FreshIds} {userId clientRequestId : Uuid} {note : PyStr}
    {sourceTimestamp : DateTime} {labels : List PyStr} {answer : Except String Ai.CompletionData}
    {g : Db} (hkeys : SourceKeys g)
    (hdefault : normalizeDisplayText C.core.platform.unicode DEFAULT_CONNECTION_KEY =
      DEFAULT_CONNECTION_KEY) :
    Strays (submitManualNote C fresh userId note sourceTimestamp clientRequestId labels answer) g ↔
      ∃ envelope, Connectors.createManualNoteEnvelope C.core.platform note sourceTimestamp
          clientRequestId labels = .ok envelope ∧
        DeliveryRefused C.core.platform userId envelope g := by
  have hextract : ∀ rawEventId g', ¬ Strays (extractRawEvent C fresh userId rawEventId answer) g' := by
    intro rawEventId g' h
    rcases strays_bind.1 h with h | ⟨outcome, g'', -, h⟩
    · exact not_strays_commit throws_extract h
    · obtain ⟨e, g₃, he, -⟩ := h
      cases outcome with
      | ok view => cases (Prod.mk.inj he).1
      | error code =>
        -- an `AIError` is no error of the other services
        have herror : extractionError code = .app e := Except.error.inj (Prod.mk.inj he).1
        unfold extractionError at herror
        split at herror <;> cases herror
  have hingest : ∀ envelope, Strays (ingestEnvelope C.core fresh userId
      (Connectors.manualNoteConnector C.core.platform.unicode []) envelope >>= fun ingested =>
        extractRawEvent C fresh userId ingested.rawEventId answer) g ↔
      DeliveryRefused C.core.platform userId envelope g := by
    intro envelope
    rw [strays_bind, ingestEnvelope_strays hkeys rfl hdefault]
    refine or_iff_left ?_
    rintro ⟨ingested, g', -, h⟩
    exact hextract _ _ h
  unfold submitManualNote
  rw [strays_bind, strays_computed]
  constructor
  · rintro (⟨e, he, hstray⟩ | ⟨envelope, g', henvelope, h⟩)
    · exact absurd hstray (not_stray_of_createManualNoteEnvelope he)
    · obtain ⟨hbuilt, hsame⟩ := attempt_computed_ok.1 henvelope
      rw [hsame] at h
      exact ⟨envelope, hbuilt, (hingest envelope).1 h⟩
  · rintro ⟨envelope, henvelope, h⟩
    exact .inr ⟨envelope, g, attempt_computed_ok.2 ⟨henvelope, rfl⟩, (hingest envelope).2 h⟩

/-- The submission of a lease strays exactly where its note is refused in time. -/
theorem submitLease_strays {g : Db} (hkeys : SourceKeys g)
    (hdefault : normalizeDisplayText C.core.platform.unicode DEFAULT_CONNECTION_KEY =
      DEFAULT_CONNECTION_KEY) :
    Strays (submitLease C turn lease) g ↔ turn.cutAt = none ∧ Refused C lease g := by
  unfold Refused
  cases hpayload : lease.payload with
  | none =>
    refine iff_of_false ?_ ?_
    · rintro ⟨e, g', he, hstray⟩
      rw [attempt, submitLease, hpayload] at he
      obtain rfl := SubmitError.app.inj (Except.error.inj (Prod.mk.inj he).1)
      exact not_stray_of_handled rfl hstray
    · rintro ⟨-, payload, timestamp, envelope, h, -⟩
      cases h
  | some payload =>
    cases hvalid : validatePayload C.core.platform payload with
    | none =>
      refine iff_of_false ?_ ?_
      · rintro ⟨e, g', he, hstray⟩
        rw [attempt, submitLease, hpayload, Option.bind_some, hvalid] at he
        obtain rfl := SubmitError.app.inj (Except.error.inj (Prod.mk.inj he).1)
        exact not_stray_of_handled rfl hstray
      · rintro ⟨-, payload', timestamp, envelope, h, hvalid', -⟩
        obtain rfl := Option.some.inj h
        rw [hvalid] at hvalid'
        cases hvalid'
    | some timestamp =>
      have hsubmit : ∀ g', attempt (submitLease C turn lease) g' = match turn.cutAt with
          | some g'' => (.error .timeout, g'')
          | none => attempt (submitManualNote C turn.fresh lease.userId payload.note timestamp
              lease.id payload.labels turn.answer) g' := by
        intro g'
        rw [attempt, submitLease, hpayload, Option.bind_some, hvalid]
        rfl
      cases hcut : turn.cutAt with
      | some g'' =>
        refine iff_of_false ?_ fun h => by cases h.1
        rintro ⟨e, g', he, -⟩
        rw [hsubmit, hcut] at he
        cases (Prod.mk.inj he).1
      | none =>
        have hsame : Strays (submitLease C turn lease) g ↔ Strays (submitManualNote C turn.fresh
            lease.userId payload.note timestamp lease.id payload.labels turn.answer) g := by
          unfold Strays
          rw [hsubmit, hcut]
        rw [hsame, submitManualNote_strays hkeys hdefault]
        constructor
        · rintro ⟨envelope, henvelope, h⟩
          exact ⟨rfl, payload, timestamp, envelope, rfl, hvalid, henvelope, h⟩
        · rintro ⟨-, payload', timestamp', envelope, h, hvalid', henvelope, hrefused⟩
          obtain rfl := Option.some.inj h
          rw [hvalid] at hvalid'
          obtain rfl := Option.some.inj hvalid'
          exact ⟨envelope, henvelope, hrefused⟩

/-- Alone, recording an outcome succeeds. -/
theorem finish_run (lease : Lease) (r : FinishRequest) (g : JobDb) :
    ∃ recorded g', (finish lease r).run g = .ok (recorded, g') := by
  simp only [finish, now, selectForUpdate, Tx.run_bind, Tx.run_reads]
  cases g.jobs.find? (lease.owns g.clock) with
  | none => exact ⟨_, _, rfl⟩
  | some j =>
    simp only [Tx.run_bind, Tx.run_acquire, Tx.run_reads]
    cases (g.get j.id).filter (lease.owns g.clock) with
    | none => exact ⟨_, _, rfl⟩
    | some j' => exact ⟨_, _, rfl⟩

section Claimed

variable {token : Uuid} {jitter : Uuid → Jitter} {queue jobs : JobDb} {g : Db} {e : SubmitError}
  {db : Db}

/-- An error without a handler propagates. -/
theorem runOnce_of_unhandled
    (hclaim : (claim settings token jitter).run queue = .ok (some lease, jobs))
    (he : attempt (submitLease C turn lease) g = (.error e, db)) (hhandle : handle e = none) :
    runOnce C settings token jitter turn ⟨queue, g⟩ = (.error (.submission e), ⟨jobs, db⟩) := by
  rw [runOnce, hclaim]
  simp only [execute, he, report, hhandle]

/-- The outcome of an error with a handler is recorded. -/
theorem runOnce_of_handled
    (hclaim : (claim settings token jitter).run queue = .ok (some lease, jobs))
    (he : attempt (submitLease C turn lease) g = (.error e, db)) {code : String}
    {retryable : Bool} (hhandle : handle e = some (code, retryable)) :
    ∃ r recorded jobs', r.errorCode = some code ∧
      (finish lease r).run jobs = .ok (recorded, jobs') ∧
      runOnce C settings token jitter turn ⟨queue, g⟩ = (.ok true, ⟨jobs', db⟩) := by
  obtain ⟨recorded, jobs', hfinish⟩ := finish_run lease ⟨none, some code, retryable,
    retryDelay settings lease.attempts turn.jitter⟩ jobs
  refine ⟨_, recorded, jobs', rfl, hfinish, ?_⟩
  rw [runOnce, hclaim]
  simp only [execute, he, report, hhandle, hfinish]

/-- An error of the services that does not stray has a handler. -/
theorem handled_of_not_strays (he : attempt (submitLease C turn lease) g = (.error e, db))
    (hservices : e.ofServices = true) (hstray : ¬ Strays (submitLease C turn lease) g) :
    ∃ code retryable, handle e = some (code, retryable) := by
  cases hhandle : handle e with
  | some r => exact ⟨r.1, r.2, rfl⟩
  | none =>
    cases e with
    | provider code =>
      by_cases hcode : code = "AI_PROVIDER_DISABLED"
      · rw [handle, if_pos hcode] at hhandle
        cases hhandle
      · rw [handle, if_neg hcode] at hhandle
        cases hhandle
    | output code => cases hhandle
    | timeout => cases hhandle
    | app e => exact absurd ⟨e, db, he, hservices, hhandle⟩ hstray

end Claimed

/-- Whatever AI, ingestion or ledger error the submission of the lease raises, the turn records
    an outcome for the lease and goes on. -/
def Recorded (C : Ai.ProposalConfig) (settings : JobsSettings) (token : Uuid)
    (jitter : Uuid → Jitter) (turn : Turn) (s : System) (lease : Lease) (jobs : JobDb) : Prop :=
  ∀ e db, attempt (submitLease C turn lease) s.db = (.error e, db) → e.ofServices = true →
    ∃ r recorded jobs', r.errorCode.isSome = true ∧
      (finish lease r).run jobs = .ok (recorded, jobs') ∧
      runOnce C settings token jitter turn s = (.ok true, ⟨jobs', db⟩)

theorem not_recorded_of_unhandled {token : Uuid} {jitter : Uuid → Jitter} {queue jobs : JobDb}
    {g db : Db} {e : SubmitError}
    (hclaim : (claim settings token jitter).run queue = .ok (some lease, jobs))
    (he : attempt (submitLease C turn lease) g = (.error e, db)) (hservices : e.ofServices = true)
    (hhandle : handle e = none) :
    ¬ Recorded C settings token jitter turn ⟨queue, g⟩ lease jobs := by
  intro hrecorded
  obtain ⟨r, recorded, jobs', -, -, hrun⟩ := hrecorded _ _ he hservices
  rw [runOnce_of_unhandled hclaim he hhandle] at hrun
  cases (Prod.mk.inj hrun).1

/-- **Which jobs poison a worker.**  For every claimed job, from every database: whatever AI,
    ingestion or ledger error its submission raises, the turn records an outcome for its lease
    and goes on, if and only if it is not the case that, within the time limit, its valid note
    is refused, because the owner's profile is missing, the owner's connection of manual notes
    is not active, or that connection stores another content under the identity of the job. -/
theorem no_poison_job (hdefault : normalizeDisplayText C.core.platform.unicode
      DEFAULT_CONNECTION_KEY = DEFAULT_CONNECTION_KEY) {token : Uuid} {jitter : Uuid → Jitter}
    {s : System} {jobs : JobDb} (hkeys : SourceKeys s.db)
    (hclaim : (claim settings token jitter).run s.jobs = .ok (some lease, jobs)) :
    Recorded C settings token jitter turn s lease jobs ↔
      ¬ (turn.cutAt = none ∧ Refused C lease s.db) := by
  rw [← submitLease_strays hkeys hdefault]
  constructor
  · rintro hrecorded ⟨e, db, he, hservices, hhandle⟩
    exact not_recorded_of_unhandled hclaim he hservices hhandle hrecorded
  · intro hstray e db he hservices
    obtain ⟨code, retryable, hhandle⟩ := handled_of_not_strays he hservices hstray
    obtain ⟨r, recorded, jobs', hcode, hfinish, hrun⟩ := runOnce_of_handled hclaim he hhandle
    exact ⟨r, recorded, jobs', by rw [hcode]; rfl, hfinish, hrun⟩

end Turns


/-! ### A note submitted twice -/

/-- The SHA-256 digests of the two notes' canonical texts. -/
def noteDigest (text : PyStr) : PyStr :=
  if contains (py "lunch 12 EUR") text then py "a368011a548abf61daa475dcfe16c38e857ff0e988da96a08297c8f3b05d982f"
  else py "0744869ee431730c2f35e61f672b3b1d3aa7c8565372638b8ce229a7a5e0fcfb"

/-- The platform on these notes, which were written at noon. -/
def notePlatform : Platform where
  unicode := .plain
  sha256 := noteDigest
  isoformat := fun _ => py "2026-01-01T12:00:00Z"
  parseDatetime := fun _ => some ⟨63902865600000000, some 0⟩
  uuidText := fun id => py "00000000-0000-0000-0000-00000000000" ++ natText id
  distinctOrder := id
  zones := ⟨fun _ => true, fun _ _ => 0⟩

/-- The default services on that platform. -/
def noteConfig : Ai.ProposalConfig := ⟨⟨notePlatform, .default⟩, ⟨2000, 1⟩⟩

/-- A turn without a provider. -/
def noteTurn (n : Uuid) : Turn where
  fresh := ⟨n, n, n, n, n, n, n, n, n, n, n, n⟩
  answer := .error "AI_PROVIDER_DISABLED"
  jitter := ⟨0, le_rfl, one_pos⟩
  cutAt := none

/-- The job 7 of owner 1, with a note about dinner. -/
def noteJob : Job where
  id := 7
  userId := 1
  idempotencyKey := 3
  kind := .financialNoteExtract
  payload := some ⟨py "dinner 30 EUR", py "2026-01-01T12:00:00Z", []⟩
  payloadHash := ""
  status := .queued
  attempts := 0
  maxAttempts := 3
  reviewRetries := 0
  createdAt := 0
  availableAt := 0
  leaseToken := none
  leaseExpiresAt := none
  completedAt := none
  errorCode := none
  result := none

/-- The database of owner 1, before any note. -/
def noteStore : Db := { Db.empty 0 with users := [⟨1, py "UTC", py "EUR"⟩] }

/-- The owner submitted a note about lunch directly, with the client request id 7. -/
def noteSubmitted : Db :=
  (attempt (submitManualNote noteConfig (noteTurn 2).fresh 1 (py "lunch 12 EUR")
    ⟨63902865600000000, some 0⟩ 7 [] (noteTurn 2).answer) noteStore).2

/-- No jitter. -/
def noteJitter : Jitter := ⟨0, le_rfl, one_pos⟩

/-- The queue after the job was claimed. -/
def noteClaimed : JobDb :=
  (claim .default 9 fun _ => noteJitter).after ⟨[noteJob], 1⟩

/-- The lease of the claimed job. -/
def noteLease : Lease := noteJob.leaseFor 9

theorem noteJob_claimed : (claim .default 9 fun _ => noteJitter).run ⟨[noteJob], 1⟩ =
    .ok (some noteLease, noteClaimed) := by
  have hreturns : (claim .default 9 fun _ => noteJitter).returns (· == some noteLease)
      ⟨[noteJob], 1⟩ = true := by decide +kernel
  obtain ⟨claimed, hrun, hclaimed⟩ := Tx.run_of_returns hreturns
  rw [show claimed = some noteLease by simpa using hclaimed] at hrun
  exact hrun

theorem noteStore_sourceKeys : SourceKeys noteStore := by
  constructor <;> simp [noteStore, Db.empty]

/-- The note of the job is accepted where there was no other one: one of the turns of
    `no_poison_job`. -/
theorem no_poison_job_first :
    Recorded noteConfig .default 9 (fun _ => noteJitter) (noteTurn 3) ⟨⟨[noteJob], 1⟩, noteStore⟩
      noteLease noteClaimed := by
  have hiff : Recorded noteConfig .default 9 (fun _ => noteJitter) (noteTurn 3)
      ⟨⟨[noteJob], 1⟩, noteStore⟩ noteLease noteClaimed ↔
      ¬ ((noteTurn 3).cutAt = none ∧ Refused noteConfig noteLease noteStore) :=
    no_poison_job (s := ⟨⟨[noteJob], 1⟩, noteStore⟩) (by decide) noteStore_sourceKeys
      noteJob_claimed
  refine hiff.2 ?_
  rintro ⟨-, payload, timestamp, envelope, -, -, -, hmissing | ⟨c, hc, -⟩⟩
  · exact hmissing _ List.mem_cons_self rfl
  · cases hc

/-- Whether a submission or a turn ends with this code of an ingestion conflict. -/
def SubmitError.conflicts (code : String) : SubmitError → Bool
  | .app (.ingestionConflict code' _) => code' == code
  | _ => false

/-- The note about dinner under the same identity stops the worker: the error of its submission
    propagates. -/
theorem no_poison_job_mismatch :
    (claim .default 9 fun _ => noteJitter).run ⟨[noteJob], 1⟩ =
      .ok (some noteLease, noteClaimed) ∧
    (∃ e s', runOnce noteConfig .default 9 (fun _ => noteJitter) (noteTurn 3)
        ⟨⟨[noteJob], 1⟩, noteSubmitted⟩ = (.error (.submission e), s') ∧
      e.conflicts "SOURCE_IDENTITY_CONTENT_MISMATCH" = true) ∧
    ¬ Recorded noteConfig .default 9 (fun _ => noteJitter) (noteTurn 3)
      ⟨⟨[noteJob], 1⟩, noteSubmitted⟩ noteLease noteClaimed := by
  have hsubmitted : ∃ e db, attempt (submitLease noteConfig (noteTurn 3) noteLease)
      noteSubmitted = (.error e, db) ∧
      e.conflicts "SOURCE_IDENTITY_CONTENT_MISMATCH" = true := by
    have hends : (match (attempt (submitLease noteConfig (noteTurn 3) noteLease)
        noteSubmitted).1 with
      | .error e => e.conflicts "SOURCE_IDENTITY_CONTENT_MISMATCH"
      | .ok _ => false) = true := by decide +kernel
    generalize attempt (submitLease noteConfig (noteTurn 3) noteLease) noteSubmitted = outcome
      at hends
    obtain ⟨submitted, db⟩ := outcome
    cases submitted with
    | ok proposal => cases hends
    | error e => exact ⟨e, db, rfl, hends⟩
  obtain ⟨e, db, he, hconflicts⟩ := hsubmitted
  have hservices : e.ofServices = true ∧ handle e = none := by
    unfold SubmitError.conflicts at hconflicts
    split at hconflicts
    · exact ⟨rfl, rfl⟩
    · cases hconflicts
  exact ⟨noteJob_claimed,
    ⟨e, _, runOnce_of_unhandled noteJob_claimed he hservices.2, hconflicts⟩,
    not_recorded_of_unhandled noteJob_claimed he hservices.1 hservices.2⟩

end Expensea.Jobs
