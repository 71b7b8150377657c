import Expensea.Domain.DecimalText
import Expensea.Ingestion.Contracts
import Mathlib.Data.List.Sort

namespace Expensea.Ingestion

/-!
# Source identity

`app/ingestion/identity.py`: the canonical JSON text of an envelope, its hash, and the
delivery identity.

* `Platform` — what the standard library and pydantic contribute;
* `canonicalEnvelope` — the payload to store and the text to hash, or the content error;
* `contentSha256`, `eventIdentityKey` — the two keys of a stored event.
-/

/-- Functions of the platform. -/
structure Platform where
  unicode : Unicode
  /-- `hashlib.sha256(text.encode("utf-8")).hexdigest()` -/
  sha256 : PyStr → PyStr
  /-- An aware datetime as pydantic writes it in JSON. -/
  isoformat : DateTime → PyStr
  /-- `TypeAdapter(datetime).validate_python` of a text -/
  parseDatetime : PyStr → Option DateTime
  /-- `str(uuid)` -/
  uuidText : Uuid → PyStr
  /-- The order in which `SELECT DISTINCT` returns these identifiers. -/
  distinctOrder : List Uuid → List Uuid
  zones : TimeZones

/-- `MAX_ENVELOPE_BYTES` -/
def MAX_ENVELOPE_BYTES : Nat := 32768

/-! ### JSON text -/

/-- The hexadecimal digit of a number below sixteen. -/
def hexDigit (n : Nat) : CodePoint := Fin.ofNat _ (if n < 10 then 0x30 + n else 0x57 + n)

/-- A character inside a JSON string, as `json.dumps(..., ensure_ascii=False)` escapes it. -/
def jsonChar (c : CodePoint) : PyStr :=
  if c = 0x22 then py "\\\""
  else if c = 0x5C then py "\\\\"
  else if c = 0x0A then py "\\n"
  else if c = 0x0D then py "\\r"
  else if c = 0x09 then py "\\t"
  else if c = 0x08 then py "\\b"
  else if c = 0x0C then py "\\f"
  else if c < 0x20 then py "\\u00" ++ [hexDigit (c.val / 16), hexDigit (c.val % 16)]
  else [c]

/-- A JSON string. -/
def jsonString (s : PyStr) : PyStr := py "\"" ++ s.flatMap jsonChar ++ py "\""

/-- Items between commas. -/
def commaSeparated (items : List PyStr) : PyStr := (py ",").intercalate items

/-- An integer. -/
def intText (n : ℤ) : PyStr := (if n < 0 then py "-" else []) ++ natText n.natAbs

/-- A value of a payload or locator. -/
def jsonValue (isoformat : DateTime → PyStr) : Value → PyStr
  | .null => py "null"
  | .int n => intText n
  | .str s => jsonString s
  | .list items => py "[" ++ commaSeparated (items.map jsonString) ++ py "]"
  | .datetime d => jsonString (isoformat d)

/-- Text in the order of its code points. -/
def textLe : PyStr → PyStr → Bool
  | [], _ => true
  | _ :: _, [] => false
  | a :: s, b :: t => a < b || a == b && textLe s t

/-- An object of fields that are written already, in the order of the keys. -/
def jsonObject (fields : List (String × PyStr)) : PyStr :=
  let sorted := (fields.map fun f => (py f.1, f.2)).insertionSort fun a b => textLe a.1 b.1 = true
  py "\x7b" ++ commaSeparated (sorted.map fun f => jsonString f.1 ++ py ":" ++ f.2) ++ py "\x7d"

/-- A payload or locator. -/
def jsonFields (isoformat : DateTime → PyStr) (fields : Fields) : PyStr :=
  jsonObject (fields.map fun f => (f.1, jsonValue isoformat f.2))

/-- Nullable text. -/
def jsonOptional : Option PyStr → PyStr
  | none => py "null"
  | some s => jsonString s

/-! ### The canonical envelope -/

/-- A value in JSON mode: datetimes become text. -/
def Value.serialized (isoformat : DateTime → PyStr) : Value → Value
  | .datetime d => .str (isoformat d)
  | v => v

/-- `serialized["payload"]` -/
def serializedPayload (isoformat : DateTime → PyStr) (payload : Fields) : Fields :=
  payload.map fun f => (f.1, Value.serialized isoformat f.2)

/-- The canonical JSON text of an envelope: everything but the external identifier. -/
def canonicalText (P : Platform) (envelope : ConnectorEnvelope) : PyStr :=
  jsonObject [
    ("event_type", jsonString envelope.eventType),
    ("occurred_at", jsonOptional (envelope.occurredAt.map fun t =>
      P.isoformat (Instant.toDateTime t))),
    ("payload", jsonFields P.isoformat envelope.payload),
    ("locator", jsonFields P.isoformat envelope.locator),
    ("evidence_excerpt", jsonOptional envelope.evidenceExcerpt)]

/-- `canonical_envelope`: the payload to store, or the content error.  Text without a UTF-8
    form cannot be serialized. -/
def canonicalEnvelope (P : Platform) (envelope : ConnectorEnvelope) : Except AppError Fields :=
  match utf8Size (canonicalText P envelope) with
  | none => .error (.connectorContent "INVALID_SOURCE_PAYLOAD"
      "The source event is not valid JSON data.")
  | some size =>
    if MAX_ENVELOPE_BYTES < size then
      .error (.connectorContent "SOURCE_PAYLOAD_TOO_LARGE"
        "The minimized source event exceeds the ingestion size limit.")
    else .ok (serializedPayload P.isoformat envelope.payload)

/-- An accepted envelope is stored with its payload in JSON mode. -/
theorem canonicalEnvelope_ok {P : Platform} {envelope : ConnectorEnvelope} {payload : Fields}
    (h : canonicalEnvelope P envelope = .ok payload) :
    payload = serializedPayload P.isoformat envelope.payload := by
  unfold canonicalEnvelope at h
  split at h
  · cases h
  split at h
  · cases h
  exact (Except.ok.inj h).symm

/-- `content_sha256` -/
def contentSha256 (P : Platform) (envelope : ConnectorEnvelope) : PyStr :=
  P.sha256 (canonicalText P envelope)

/-- `event_identity_key` -/
def eventIdentityKey (envelope : ConnectorEnvelope) (contentHash : PyStr) : PyStr :=
  match envelope.externalEventId with
  | some id => py "external:" ++ id
  | none => py "sha256:" ++ contentHash

end Expensea.Ingestion
