import Expensea.Ingestion.Contracts

namespace Expensea.Ai

open Ingestion

/-!
# Extraction

`app/ai/extraction.py`: the deterministic part around a provider's answer.

* `validateExtracted` — the schema of an answer;
* `reviewReasons` — why a proposal needs review;
* `extractEvent` — a note and an answer to a result, or the code of an `AIError`.
-/

/-- `PROMPT_NAME` -/
def PROMPT_NAME : String := "financial_note_extraction"

/-- `PROMPT_VERSION` -/
def PROMPT_VERSION : String := "1.0.0"

/-- `SCHEMA_VERSION` -/
def SCHEMA_VERSION : String := "financial-note-event/v1"

/-- `ExtractedFinancialEvent` -/
structure ExtractedFinancialEvent where
  eventKind : NormalizedEventKind
  amount : Option ℚ
  currency : Option PyStr
  description : PyStr
  occurredAt : Option Instant
  dueDate : Option Date
  merchantName : Option PyStr
  counterparty : Option PyStr
  recurrenceRule : Option RecurrenceRule
  nextExpectedDate : Option Date
  categoryHint : Option PyStr
  tags : List PyStr
  confidence : ℚ
  deriving DecidableEq

/-- The JSON object a provider returns: the fields it shares with the event contract and
    three of its own.  A date or a rule that cannot be read is `none` inside `some`. -/
structure CompletionData where
  shared : EventInput
  dueDate : Option (Option Date) := none
  recurrenceRule : Option (Option RecurrenceRule) := none
  nextExpectedDate : Option (Option Date) := none

/-- An optional field that must be readable where it is given. -/
def readableField {α : Type} : Option (Option α) → Except ContractError (Option α)
  | none => .ok none
  | some none => .error .invalid
  | some (some a) => .ok (some a)

/-- `ExtractedFinancialEvent.model_validate` -/
def validateExtracted (U : Unicode) (data : CompletionData) :
    Except ContractError ExtractedFinancialEvent := do
  let event ← validateEvent U data.shared
  -- `extra="forbid"`: the schema has no payment identifiers
  if data.shared.paymentIdentifiers ≠ [] then throw .invalid
  let dueDate ← readableField data.dueDate
  let recurrenceRule ← readableField data.recurrenceRule
  let nextExpectedDate ← readableField data.nextExpectedDate
  match event.confidence with
  | none => .error .invalid
  | some confidence => pure {
      eventKind := event.eventKind
      amount := event.amount
      currency := event.currency
      description := event.description
      occurredAt := event.occurredAt
      dueDate := dueDate
      merchantName := event.merchantName
      counterparty := event.counterparty
      recurrenceRule := recurrenceRule
      nextExpectedDate := nextExpectedDate
      categoryHint := event.categoryHint
      tags := event.tags
      confidence := confidence }

/-- `_KINDS_REQUIRING_MONEY` -/
def requiresMoney : NormalizedEventKind → Bool
  | .transfer => false
  | .unknown => false
  | _ => true

/-- `_review_reasons` -/
def reviewReasons (event : ExtractedFinancialEvent) (threshold : ℚ) : List String :=
  ["AI_REVIEW_REQUIRED"] ++
  (if event.confidence < threshold then ["LOW_CONFIDENCE"] else []) ++
  (if requiresMoney event.eventKind ∧ event.amount.isNone then ["MISSING_AMOUNT_OR_CURRENCY"]
    else []) ++
  (if event.occurredAt.isNone then ["MISSING_OCCURRED_AT"] else []) ++
  (if (event.eventKind = .receivable ∨ event.eventKind = .payable) ∧ event.counterparty.isNone then
    ["MISSING_COUNTERPARTY"] else []) ++
  (if event.eventKind = .recurring ∧ event.recurrenceRule.isNone then
    ["MISSING_RECURRENCE_RULE"] else []) ++
  (if event.eventKind = .recurring ∧ event.nextExpectedDate.isNone then
    ["MISSING_NEXT_EXPECTED_DATE"] else [])

/-- `FinancialExtractionResult` -/
structure FinancialExtractionResult where
  event : ExtractedFinancialEvent
  reviewReasons : List String
  promptName : String
  promptVersion : String
  schemaVersion : String
  deriving DecidableEq

/-- The settings of `FinancialNoteExtractor`. -/
structure ExtractorSettings where
  maxInputChars : Nat
  reviewConfidenceThreshold : ℚ

/-- How an extraction fails: an `AIError`, by its code, or an error nobody catches. -/
inductive ExtractionError where
  | ai (code : String)
  | uncaught
  deriving DecidableEq

/-- `extract` of the extractor, for the answer the provider gives to the note's prompt. -/
def extractEvent (U : Unicode) (zones : TimeZones) (settings : ExtractorSettings) (note : PyStr)
    (timezone defaultCurrency : PyStr) (answer : Except String CompletionData) :
    Except ExtractionError FinancialExtractionResult :=
  if strip note = [] then .error (.ai "EMPTY_FINANCIAL_NOTE")
  else if settings.maxInputChars < (strip note).length then .error (.ai "FINANCIAL_NOTE_TOO_LONG")
  else if !zones.known timezone then .error (.ai "INVALID_SOURCE_TIMEZONE")
  else match Ledger.parseCurrency U defaultCurrency, answer with
    | .error _, _ => .error (.ai "INVALID_DEFAULT_CURRENCY")
    | .ok _, .error code => .error (.ai code)
    | .ok _, .ok data =>
      match validateExtracted U data with
      | .error .invalid => .error (.ai "AI_OUTPUT_SCHEMA_INVALID")
      | .error .overflow => .error .uncaught
      | .ok event => .ok {
          event := event
          reviewReasons := reviewReasons event settings.reviewConfidenceThreshold
          promptName := PROMPT_NAME
          promptVersion := PROMPT_VERSION
          schemaVersion := SCHEMA_VERSION }

/-- Only a result of the current prompt is produced. -/
theorem extractEvent_prompt {U : Unicode} {zones : TimeZones} {settings : ExtractorSettings}
    {note timezone defaultCurrency : PyStr} {answer : Except String CompletionData}
    {result : FinancialExtractionResult}
    (h : extractEvent U zones settings note timezone defaultCurrency answer = .ok result) :
    result.promptName = PROMPT_NAME ∧ result.promptVersion = PROMPT_VERSION ∧
      result.schemaVersion = SCHEMA_VERSION := by
  unfold extractEvent at h
  split at h
  · cases h
  split at h
  · cases h
  split at h
  · cases h
  split at h
  · cases h
  · cases h
  split at h
  · cases h
  · cases h
  obtain rfl := Except.ok.inj h
  exact ⟨rfl, rfl, rfl⟩

end Expensea.Ai
