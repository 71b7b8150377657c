import Expensea.Connectors.CsvImport

namespace Expensea.Connectors

open Ingestion

/-!
# Text connectors

`app/connectors/manual_note.py`, `google_keep_takeout.py` and `gmail.py`: sources whose
text is stored for extraction and whose own events are of unknown kind.

* `createManualNoteEnvelope` — one authenticated note to an envelope;
* `manualNoteConnector`, `keepConnector`, `gmailConnector` — the connectors.
-/

/-- `MAX_MANUAL_NOTE_CHARS` -/
def MAX_MANUAL_NOTE_CHARS : Nat := 8000

/-- The label loop of `create_manual_note_envelope`. -/
def noteLabels (U : Unicode) (seen kept : List PyStr) :
    List PyStr → Except AppError (List PyStr)
  | [] => .ok kept
  | raw :: labels =>
    let label := normalizeDisplayText U raw
    if label = [] then noteLabels U seen kept labels
    else if MAX_TAG_LENGTH < label.length then
      contentError "INVALID_NOTE_LABEL" "A financial note label exceeds the size limit."
    else
      let kept := if U.casefold label ∈ seen then kept else kept ++ [label]
      if kept.length = MAX_TAGS then .ok kept
      else noteLabels U (seen ++ [U.casefold label]) kept labels

/-- `create_manual_note_envelope` -/
def createManualNoteEnvelope (P : Platform) (note : PyStr) (sourceTimestamp : DateTime)
    (noteId : Uuid) (labels : List PyStr) : Except AppError ConnectorEnvelope := do
  let normalizedNote := normalizeDisplayText P.unicode note
  if normalizedNote = [] then
    contentError "EMPTY_FINANCIAL_NOTE" "The financial note cannot be blank."
  if MAX_MANUAL_NOTE_CHARS < normalizedNote.length then
    contentError "FINANCIAL_NOTE_TOO_LONG" "The financial note exceeds the ingestion size limit."
  if sourceTimestamp.offset = none then
    contentError "INVALID_SOURCE_TIMESTAMP"
      "The note source timestamp must include a timezone offset."
  let normalizedLabels ← noteLabels P.unicode [] [] labels
  (makeEnvelope P.unicode (some (py "manual:" ++ P.uuidText noteId)) (py "manual_financial_note")
    (some sourceTimestamp)
    [("extraction_text", .str normalizedNote), ("labels", .list normalizedLabels)]
    [("noteId", .str (P.uuidText noteId))]
    (some (normalizedNote.take 500))).mapError envelopeError

/-- One turn of the loop. -/
theorem noteLabels_cons (U : Unicode) (seen kept labels : List PyStr) (raw : PyStr) :
    noteLabels U seen kept (raw :: labels) =
      if normalizeDisplayText U raw = [] then noteLabels U seen kept labels
      else if MAX_TAG_LENGTH < (normalizeDisplayText U raw).length then
        contentError "INVALID_NOTE_LABEL" "A financial note label exceeds the size limit."
      else
        let kept := if U.casefold (normalizeDisplayText U raw) ∈ seen then kept
          else kept ++ [normalizeDisplayText U raw]
        if kept.length = MAX_TAGS then .ok kept
        else noteLabels U (seen ++ [U.casefold (normalizeDisplayText U raw)]) kept labels := rfl

/-- Labels are rejected as content. -/
theorem noteLabels_error {U : Unicode} {labels seen kept : List PyStr} {e : AppError}
    (h : noteLabels U seen kept labels = .error e) :
    ∃ code message, e = .connectorContent code message := by
  induction labels generalizing seen kept with
  | nil => cases h
  | cons raw labels ih =>
    rw [noteLabels_cons] at h
    dsimp only at h
    split at h
    · exact ih h
    split at h
    · exact ⟨_, _, (Except.error.inj h).symm⟩
    generalize (if _ ∈ seen then kept else _) = kept' at h
    split at h
    · cases h
    · exact ih h

/-- A note is rejected as content, or by the validation of its envelope. -/
theorem createManualNoteEnvelope_error {P : Platform} {note : PyStr} {sourceTimestamp : DateTime}
    {noteId : Uuid} {labels : List PyStr} {e : AppError}
    (h : createManualNoteEnvelope P note sourceTimestamp noteId labels = .error e) :
    (∃ code message, e = .connectorContent code message) ∨ ∃ rejected, e = envelopeError rejected := by
  simp only [createManualNoteEnvelope, contentError, bind, Except.bind] at h
  split at h
  · exact .inl ⟨_, _, (Except.error.inj h).symm⟩
  split at h
  · exact .inl ⟨_, _, (Except.error.inj h).symm⟩
  split at h
  · exact .inl ⟨_, _, (Except.error.inj h).symm⟩
  split at h
  · rename_i hlabels
    obtain rfl := Except.error.inj h
    exact .inl (noteLabels_error hlabels)
  · obtain ⟨rejected, -, rfl⟩ := mapError_error h
    exact .inr ⟨rejected, rfl⟩

/-- The event a text connector builds itself: of unknown kind, without money. -/
def unknownEvent (U : Unicode) (envelope : ConnectorEnvelope) (description : PyStr)
    (merchantName : Option PyStr) (tags : List PyStr) : NormalizeResult :=
  match validateEvent U {
      eventKind := some .unknown
      description := some description
      occurredAt := envelope.occurredAt.map Instant.toDateTime
      merchantName := merchantName
      tags := tags } with
  | .ok event => .event event
  | .error e => .uncaught e

/-- `normalize` of `ManualNoteConnector` -/
def manualNoteNormalize (U : Unicode) (envelope : ConnectorEnvelope) : NormalizeResult :=
  let description := match textField envelope.payload "extraction_text" with
    | some note => note.take 200
    | none => py "Manual financial note"
  unknownEvent U envelope description none (listField envelope.payload "labels")

/-- `ManualNoteConnector` -/
def manualNoteConnector (U : Unicode) (events : List ConnectorEnvelope) : Connector where
  key := .manualNote
  displayName := "Manual financial notes"
  fetch := fetchFromOffset events "The manual-note connector cursor is invalid."
  normalize := manualNoteNormalize U

/-- `_optional_text` of a payload field. -/
def optionalText (U : Unicode) (payload : Fields) (key : String) : PyStr :=
  ((textField payload key).map (normalizeDisplayText U)).getD []

/-- `normalize` of `GoogleKeepTakeoutConnector` -/
def keepNormalize (U : Unicode) (envelope : ConnectorEnvelope) : NormalizeResult :=
  let title := optionalText U envelope.payload "title"
  let noteText := optionalText U envelope.payload "note_text"
  let description :=
    if title ≠ [] then title
    else if noteText ≠ [] then noteText.take 200
    else py "Google Keep financial note"
  unknownEvent U envelope description none
    (py "google-keep" :: listField envelope.payload "labels")

/-- `GoogleKeepTakeoutConnector` -/
def keepConnector (U : Unicode) (events : List ConnectorEnvelope) : Connector where
  key := .googleKeepTakeout
  displayName := "Google Keep Takeout"
  fetch := fetchFromOffset events "The Google Keep import cursor is invalid."
  normalize := keepNormalize U

/-- `_payload_text` -/
def payloadText (payload : Fields) (key : String) : Option PyStr :=
  (textField payload key).filter (· ≠ [])

/-- `normalize` of `GmailReceiptConnector` -/
def gmailNormalize (U : Unicode) (envelope : ConnectorEnvelope) : NormalizeResult :=
  let tags := match envelope.payload.get "tags" with
    | some (.list items) => items
    | _ => [py "gmail"]
  unknownEvent U envelope
    ((payloadText envelope.payload "subject").getD (py "Gmail financial message"))
    (payloadText envelope.payload "sender_name") tags

/-- `GmailReceiptConnector`, over a mailbox that answers each page token with a page. -/
def gmailConnector (U : Unicode) (pages : Option PyStr → Except AppError ConnectorBatch) :
    Connector where
  key := .gmail
  displayName := "Gmail receipts"
  fetch := fun cursor => match cursor.get "pageToken" with
    | none => pages none
    | some .null => pages none
    | some (.str token) => pages (if token = [] then none else some token)
    | some _ => .error (.connectorContent "INVALID_CONNECTOR_CURSOR"
        "The Gmail connector cursor is invalid.")
  normalize := gmailNormalize U

/-- A text connector's event has no kind that could be posted. -/
theorem unknownEvent_kind {U : Unicode} {envelope : ConnectorEnvelope} {description : PyStr}
    {merchantName : Option PyStr} {tags : List PyStr} {event : NormalizedFinancialEventV1}
    (h : unknownEvent U envelope description merchantName tags = .event event) :
    event.eventKind.transactionType = none := by
  unfold unknownEvent at h
  split at h
  · rename_i hvalid
    injection h with h
    subst h
    have hkind : _ = NormalizedEventKind.unknown := validateEvent_kind hvalid rfl
    rw [hkind]
    rfl
  · cases h

/-- A text connector never reports a content error. -/
theorem unknownEvent_ne_contentError {U : Unicode} {envelope : ConnectorEnvelope}
    {description : PyStr} {merchantName : Option PyStr} {tags : List PyStr} {code : String} :
    unknownEvent U envelope description merchantName tags ≠ .contentError code := by
  unfold unknownEvent
  split <;> exact fun h => by cases h

end Expensea.Connectors
