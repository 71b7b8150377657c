import Expensea.Ledger.Commands

namespace Expensea.Ingestion

/-!
# Event contracts

`NormalizedFinancialEventV1` of `app/ingestion/contracts.py` and `ConnectorEnvelope` of
`app/connectors/contracts.py`: the validated values connectors hand to ingestion.  A value
of either structure comes from its validator, `validateEvent` or `makeEnvelope`.
-/

/-- How building a validated value fails: a pydantic `ValidationError`, or an
    `OverflowError` of a time conversion, which pydantic lets through. -/
inductive ContractError where
  | invalid
  | overflow
  deriving DecidableEq, Repr

/-- `NORMALIZED_EVENT_SCHEMA_VERSION` -/
def NORMALIZED_EVENT_SCHEMA_VERSION : String := "financial-event/v1"

/-- `MAX_TAGS` -/
def MAX_TAGS : Nat := 12

/-- `MAX_TAG_LENGTH` -/
def MAX_TAG_LENGTH : Nat := 40

/-- `MAX_PAYMENT_IDENTIFIERS` -/
def MAX_PAYMENT_IDENTIFIERS : Nat := 8

/-- `MAX_PAYMENT_IDENTIFIER_LENGTH` -/
def MAX_PAYMENT_IDENTIFIER_LENGTH : Nat := 160

/-- `NormalizedFinancialEventV1` -/
structure NormalizedFinancialEventV1 where
  eventKind : NormalizedEventKind
  amount : Option ℚ
  currency : Option PyStr
  description : PyStr
  occurredAt : Option Instant
  merchantName : Option PyStr
  counterparty : Option PyStr
  categoryHint : Option PyStr
  tags : List PyStr
  paymentIdentifiers : List PyStr
  confidence : Option ℚ
  deriving DecidableEq

/-- What a caller passes to the event contract.  A kind or a number that cannot be read is
    `none` inside `some`. -/
structure EventInput where
  eventKind : Option NormalizedEventKind
  amount : Option (Option Decimal) := none
  currency : Option PyStr := none
  description : Option PyStr
  occurredAt : Option DateTime := none
  merchantName : Option PyStr := none
  counterparty : Option PyStr := none
  categoryHint : Option PyStr := none
  tags : List PyStr := []
  paymentIdentifiers : List PyStr := []
  confidence : Option (Option Decimal) := none

section Fields

variable (U : Unicode)

/-- `normalize_text`: blank text counts as absent. -/
def normalizeText (value : Option PyStr) : Option PyStr :=
  (value.map (normalizeDisplayText U)).filter (· ≠ [])

/-- An optional text field of bounded length, after `normalize_text`.  Pydantic rejects
    text that has no UTF-8 form. -/
def boundedText (limit : Nat) (value : Option PyStr) : Except ContractError (Option PyStr) :=
  match normalizeText U value with
  | none => .ok none
  | some text =>
    if text.length ≤ limit ∧ ¬ text.any isSurrogate then .ok (some text) else .error .invalid

/-- `description`: required, not blank, at most 500 characters. -/
def requiredText (limit : Nat) (value : Option PyStr) : Except ContractError PyStr :=
  match boundedText U limit value with
  | .ok (some text) => .ok text
  | .ok none => .error .invalid
  | .error e => .error e

/-- `Field(gt=0, max_digits=19, decimal_places=4)`: trailing zeros do not count, so these
    are the values `validate_positive_money` accepts. -/
def moneyField (value : Option (Option Decimal)) : Except ContractError (Option ℚ) :=
  match value with
  | none => .ok none
  | some none => .error .invalid
  | some (some d) =>
    match validatePositiveMoney d with
    | .ok amount => .ok (some amount)
    | .error _ => .error .invalid

/-- `Field(ge=0, le=1, max_digits=5, decimal_places=4)` -/
def confidenceField (value : Option (Option Decimal)) : Except ContractError (Option ℚ) :=
  match value with
  | none => .ok none
  | some (some (.finite c)) =>
    if 0 ≤ c ∧ c ≤ 1 ∧ fitsScale 4 c then .ok (some c) else .error .invalid
  | _ => .error .invalid

/-- `normalize_currency` -/
def currencyField (value : Option PyStr) : Except ContractError (Option PyStr) :=
  match value with
  | none => .ok none
  | some text =>
    match Ledger.parseCurrency U text with
    | .ok currency => .ok (some currency)
    | .error _ => .error .invalid

/-- `normalize_occurred_at` -/
def occurredAtField (value : Option DateTime) : Except ContractError (Option Instant) :=
  match value with
  | none => .ok none
  | some ⟨_, none⟩ => .error .invalid
  | some ⟨wall, some offset⟩ =>
    match astimezoneUtc wall offset with
    | none => .error .overflow
    | some t => .ok (some t)

/-- The loop of `normalize_tags` over the tags that are left. -/
def collectTags (seen kept : List PyStr) : List PyStr → Except ContractError (List PyStr)
  | [] => .ok kept
  | item :: items =>
    let tag := normalizeDisplayText U item
    if tag = [] then collectTags seen kept items
    else if MAX_TAG_LENGTH < tag.length then .error .invalid
    else if U.casefold tag ∈ seen then collectTags seen kept items
    else collectTags (seen ++ [U.casefold tag]) (kept ++ [tag]) items

/-- `normalize_tags` -/
def tagsField (value : List PyStr) : Except ContractError (List PyStr) :=
  match collectTags U [] [] value with
  | .ok tags => if tags.length ≤ MAX_TAGS then .ok tags else .error .invalid
  | .error e => .error e

/-- `[a-z]` -/
def isLower (c : CodePoint) : Bool := 0x61 ≤ c && c ≤ 0x7A

/-- `[a-z0-9]` -/
def isLowerOrDigit (c : CodePoint) : Bool := isLower c || (asciiDigit c).isSome

/-- `_PAYMENT_IDENTIFIER_PATTERN.fullmatch`: neither part can contain the colon. -/
def isPaymentIdentifier (identifier : PyStr) : Bool :=
  let space := identifier.takeWhile (· != 0x3A)
  let value := (identifier.dropWhile (· != 0x3A)).drop 1
  identifier.contains 0x3A &&
  (2 ≤ space.length && space.length ≤ 32) && (space.head?.any isLower &&
    space.tail.all fun c => isLowerOrDigit c || (py "_.-").contains c) &&
  (3 ≤ value.length && value.length ≤ 128) && (value.head?.any isLowerOrDigit &&
    value.tail.all fun c => isLowerOrDigit c || (py "._/@-").contains c)

/-- The loop of `normalize_payment_identifiers`. -/
def collectIdentifiers (kept : List PyStr) : List PyStr → Except ContractError (List PyStr)
  | [] => .ok kept
  | item :: items =>
    let identifier := U.casefold (strip item)
    if MAX_PAYMENT_IDENTIFIER_LENGTH < identifier.length then .error .invalid
    else if !isPaymentIdentifier identifier then .error .invalid
    else if identifier ∈ kept then collectIdentifiers kept items
    else collectIdentifiers (kept ++ [identifier]) items

/-- `normalize_payment_identifiers` -/
def paymentIdentifiersField (value : List PyStr) : Except ContractError (List PyStr) :=
  match collectIdentifiers U [] value with
  | .ok identifiers =>
    if identifiers.length ≤ MAX_PAYMENT_IDENTIFIERS then .ok identifiers else .error .invalid
  | .error e => .error e

/-- `NormalizedFinancialEventV1.model_validate`.  A rejected field does not keep the others
    from being read, so an overflow of the time is raised before any rejection. -/
def validateEvent (input : EventInput) : Except ContractError NormalizedFinancialEventV1 := do
  let occurredAt ← occurredAtField input.occurredAt
  let eventKind ← match input.eventKind with
    | some kind => Except.ok kind
    | none => .error .invalid
  let amount ← moneyField input.amount
  let currency ← currencyField U input.currency
  let description ← requiredText U 500 input.description
  let merchantName ← boundedText U 160 input.merchantName
  let counterparty ← boundedText U 160 input.counterparty
  let categoryHint ← boundedText U 80 input.categoryHint
  let tags ← tagsField U input.tags
  let paymentIdentifiers ← paymentIdentifiersField U input.paymentIdentifiers
  let confidence ← confidenceField input.confidence
  if amount.isNone ≠ currency.isNone then .error .invalid
  else .ok {
    eventKind := eventKind
    amount := amount
    currency := currency
    description := description
    occurredAt := occurredAt
    merchantName := merchantName
    counterparty := counterparty
    categoryHint := categoryHint
    tags := tags
    paymentIdentifiers := paymentIdentifiers
    confidence := confidence }

/-- A validated event has the kind it was given. -/
theorem validateEvent_kind {U : Unicode} {input : EventInput} {event : NormalizedFinancialEventV1}
    {kind : NormalizedEventKind} (h : validateEvent U input = .ok event)
    (hkind : input.eventKind = some kind) : event.eventKind = kind := by
  simp only [validateEvent, hkind, bind, Except.bind] at h
  repeat' split at h
  -- every branch but the last one is an error
  all_goals cases h
  rfl

end Fields

/-! ### Envelopes -/

/-- `ConnectorEnvelope` -/
structure ConnectorEnvelope where
  externalEventId : Option PyStr
  eventType : PyStr
  occurredAt : Option Instant
  payload : Fields
  locator : Fields
  evidenceExcerpt : Option PyStr
  deriving DecidableEq

/-- The `ConnectorEnvelope` constructor. -/
def makeEnvelope (U : Unicode) (externalEventId : Option PyStr) (eventType : PyStr)
    (occurredAt : Option DateTime) (payload locator : Fields) (evidenceExcerpt : Option PyStr) :
    Except ContractError ConnectorEnvelope := do
  let occurredAt ← occurredAtField occurredAt
  let externalEventId ← boundedText U 255 externalEventId
  let eventType ← requiredText U 80 (some eventType)
  let evidenceExcerpt ← boundedText U 500 evidenceExcerpt
  pure ⟨externalEventId, eventType, occurredAt, payload, locator, evidenceExcerpt⟩

/-- What a built envelope carries. -/
theorem makeEnvelope_ok {U : Unicode} {externalEventId : Option PyStr} {eventType : PyStr}
    {occurredAt : Option DateTime} {payload locator : Fields} {evidenceExcerpt : Option PyStr}
    {envelope : ConnectorEnvelope}
    (h : makeEnvelope U externalEventId eventType occurredAt payload locator evidenceExcerpt =
      .ok envelope) :
    envelope.payload = payload ∧ envelope.locator = locator ∧
      occurredAtField occurredAt = .ok envelope.occurredAt ∧
      boundedText U 255 externalEventId = .ok envelope.externalEventId ∧
      requiredText U 80 (some eventType) = .ok envelope.eventType ∧
      boundedText U 500 evidenceExcerpt = .ok envelope.evidenceExcerpt := by
  simp only [makeEnvelope, bind, Except.bind, pure, Except.pure] at h
  split at h
  · cases h
  rename_i hoccurred
  split at h
  · cases h
  rename_i hexternal
  split at h
  · cases h
  rename_i htype
  split at h
  · cases h
  rename_i hexcerpt
  obtain rfl := Except.ok.inj h
  exact ⟨rfl, rfl, hoccurred, hexternal, htype, hexcerpt⟩

/-- `ConnectorBatch` -/
structure ConnectorBatch where
  events : List ConnectorEnvelope
  nextCursor : Fields

/-- What `normalize` of a connector ends with: the event, a `ConnectorContentError`, or an
    error that ingestion does not catch. -/
inductive NormalizeResult where
  | event (e : NormalizedFinancialEventV1)
  | contentError (code : String)
  | uncaught (e : ContractError)

/-- What ingestion uses of a connector: its key and name, and the two operations. -/
structure Connector where
  key : ConnectorType
  displayName : String
  fetch : Fields → Except AppError ConnectorBatch
  normalize : ConnectorEnvelope → NormalizeResult

end Expensea.Ingestion
