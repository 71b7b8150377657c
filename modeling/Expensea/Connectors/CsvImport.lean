import Expensea.Ingestion.Identity

namespace Expensea.Connectors

open Ingestion

/-!
# CSV import

`app/connectors/csv_import.py`.

* `csvRecords` — the standard reader, in its default dialect;
* `parseCsvDocument` — a document to envelopes;
* `csvConnector` — the connector over them.
-/

/-! ### The reader -/

/-- Lines with their terminators: `\n`, `\r` or `\r\n`. -/
def splitLines : PyStr → List PyStr
  | [] => []
  | c :: s =>
    if c = 0x0A ∨ c = 0x0D ∧ s.head? ≠ some 0x0A then [c] :: splitLines s
    else match splitLines s with
      | [] => [[c]]
      | line :: lines => (c :: line) :: lines

/-- Where the reader is in a record. -/
inductive ReaderState where
  | startRecord
  | startField
  | inField
  | inQuotedField
  | quoteInQuotedField
  | eatCrnl
  deriving DecidableEq

/-- The reader: its state, the finished fields of the record and the field it reads. -/
structure Reader where
  state : ReaderState
  fields : List PyStr
  field : PyStr

/-- The reader at the start of a record. -/
def Reader.start : Reader := ⟨.startRecord, [], []⟩

/-- `parse_save_field`, and go on in a state. -/
def Reader.save (r : Reader) (state : ReaderState) : Reader := ⟨state, r.fields ++ [r.field], []⟩

/-- `parse_add_char`, and go on in a state. -/
def Reader.add (r : Reader) (c : CodePoint) (state : ReaderState) : Reader :=
  ⟨state, r.fields, r.field ++ [c]⟩

/-- A line terminator. -/
def isNewline (c : CodePoint) : Bool := c == 0x0A || c == 0x0D

/-- A character outside quotes, at the start of a field or in it. -/
def Reader.unquoted (r : Reader) (c : CodePoint) : Reader :=
  if isNewline c then r.save .eatCrnl
  else if c = 0x2C then r.save .startField
  else r.add c .inField

/-- `parse_process_char` -/
def Reader.feed (r : Reader) (c : CodePoint) : Reader :=
  match r.state with
  | .startRecord =>
    if isNewline c then { r with state := .eatCrnl }
    else if c = 0x22 then { r with state := .inQuotedField }
    else r.unquoted c
  | .startField => if c = 0x22 then { r with state := .inQuotedField } else r.unquoted c
  | .inField => r.unquoted c
  | .inQuotedField =>
    if c = 0x22 then { r with state := .quoteInQuotedField } else r.add c .inQuotedField
  | .quoteInQuotedField => if c = 0x22 then r.add c .inQuotedField else r.unquoted c
  | .eatCrnl => r

/-- `parse_process_char` at the end of a line. -/
def Reader.endLine (r : Reader) : Reader :=
  match r.state with
  | .startRecord => r
  | .startField => r.save .startRecord
  | .inField => r.save .startRecord
  | .inQuotedField => r
  | .quoteInQuotedField => r.save .startRecord
  | .eatCrnl => { r with state := .startRecord }

/-- The largest field the reader accepts. -/
def FIELD_LIMIT : Nat := 131072

/-- The characters of a line; `none` is `csv.Error` for a field beyond the limit. -/
def Reader.feedLine (r : Reader) : PyStr → Option Reader
  | [] => some r.endLine
  | c :: line =>
    if FIELD_LIMIT < (r.feed c).field.length then none else (r.feed c).feedLine line

/-- The records of a document, and whether the reader then failed. -/
def readRecords (r : Reader) : List PyStr → List (List PyStr) × Bool
  | [] =>
    -- the end of the input closes a field that is open
    if r.field ≠ [] ∨ r.state = .inQuotedField then ([(r.save .startRecord).fields], false)
    else ([], false)
  | line :: lines =>
    match r.feedLine line with
    | none => ([], true)
    | some r' =>
      if r'.state = .startRecord then
        let (records, failed) := readRecords .start lines
        (r'.fields :: records, failed)
      else readRecords r' lines

/-- `csv.reader(io.StringIO(text, newline=""))` -/
def csvRecords (text : PyStr) : List (List PyStr) × Bool := readRecords .start (splitLines text)

example : csvRecords (py "a,\"b \"\"c\"\"\"\r\n\n,") =
    ([[py "a", py "b \"c\""], [], [[], []]], false) := by decide

/-! ### The characters of the records -/

/-- The characters that the reader holds. -/
def Reader.Holds (p : CodePoint → Prop) (r : Reader) : Prop :=
  (∀ field ∈ r.fields, ∀ c ∈ field, p c) ∧ ∀ c ∈ r.field, p c

section Characters

variable {p : CodePoint → Prop} {r : Reader}

theorem Reader.holds_start : Reader.start.Holds p :=
  ⟨List.forall_mem_nil _, List.forall_mem_nil _⟩

theorem Reader.Holds.save (h : r.Holds p) (state : ReaderState) : (r.save state).Holds p := by
  refine ⟨fun field hfield => ?_, List.forall_mem_nil _⟩
  rcases List.mem_append.1 hfield with hmem | hmem
  · exact h.1 field hmem
  · rw [List.mem_singleton.1 hmem]
    exact h.2

theorem Reader.Holds.add (h : r.Holds p) {c : CodePoint} (hc : p c) (state : ReaderState) :
    (r.add c state).Holds p := by
  refine ⟨h.1, fun d hd => ?_⟩
  rcases List.mem_append.1 hd with hmem | hmem
  · exact h.2 d hmem
  · rw [List.mem_singleton.1 hmem]
    exact hc

theorem Reader.Holds.unquoted (h : r.Holds p) {c : CodePoint} (hc : p c) :
    (r.unquoted c).Holds p := by
  rw [Reader.unquoted]
  split
  · exact h.save _
  split
  · exact h.save _
  · exact h.add hc _

theorem Reader.Holds.feed (h : r.Holds p) {c : CodePoint} (hc : p c) : (r.feed c).Holds p := by
  rw [Reader.feed]
  cases r.state with
  | startRecord =>
    dsimp only
    split
    · exact h
    split
    · exact h
    · exact h.unquoted hc
  | startField =>
    dsimp only
    split
    · exact h
    · exact h.unquoted hc
  | inField => exact h.unquoted hc
  | inQuotedField =>
    dsimp only
    split
    · exact h
    · exact h.add hc _
  | quoteInQuotedField =>
    dsimp only
    split
    · exact h.add hc _
    · exact h.unquoted hc
  | eatCrnl => exact h

theorem Reader.Holds.endLine (h : r.Holds p) : r.endLine.Holds p := by
  rw [Reader.endLine]
  cases r.state with
  | startRecord => exact h
  | startField => exact h.save _
  | inField => exact h.save _
  | inQuotedField => exact h
  | quoteInQuotedField => exact h.save _
  | eatCrnl => exact h

theorem Reader.Holds.feedLine {r' : Reader} {line : PyStr} (h : r.Holds p)
    (hline : ∀ c ∈ line, p c) (hfeed : r.feedLine line = some r') : r'.Holds p := by
  induction line generalizing r with
  | nil =>
    rw [Reader.feedLine] at hfeed
    rw [← Option.some.inj hfeed]
    exact h.endLine
  | cons c line ih =>
    obtain ⟨hc, hline⟩ := List.forall_mem_cons.1 hline
    rw [Reader.feedLine] at hfeed
    split at hfeed
    · cases hfeed
    · exact ih (h.feed hc) hline hfeed

/-- The cells of the records hold characters of the lines. -/
theorem readRecords_holds {lines : List PyStr} (h : r.Holds p)
    (hlines : ∀ line ∈ lines, ∀ c ∈ line, p c) :
    ∀ record ∈ (readRecords r lines).1, ∀ cell ∈ record, ∀ c ∈ cell, p c := by
  induction lines generalizing r with
  | nil =>
    rw [readRecords]
    split
    · intro record hrecord
      rw [List.mem_singleton.1 hrecord]
      exact (h.save .startRecord).1
    · exact List.forall_mem_nil _
  | cons line lines ih =>
    obtain ⟨hline, hlines⟩ := List.forall_mem_cons.1 hlines
    rw [readRecords]
    split
    · exact List.forall_mem_nil _
    · rename_i r' hfeed
      have h' := h.feedLine hline hfeed
      split
      · exact List.forall_mem_cons.2 ⟨h'.1, ih Reader.holds_start hlines⟩
      · exact ih h' hlines

theorem splitLines_mem (s : PyStr) : ∀ line ∈ splitLines s, ∀ c ∈ line, c ∈ s := by
  induction s with
  | nil => exact List.forall_mem_nil _
  | cons a s ih =>
    have hlift : ∀ line ∈ splitLines s, ∀ c ∈ line, c ∈ a :: s := fun line hline c hc =>
      List.mem_cons_of_mem a (ih line hline c hc)
    rw [splitLines]
    split
    · refine List.forall_mem_cons.2 ⟨fun c hc => ?_, hlift⟩
      rw [List.mem_singleton.1 hc]
      exact List.mem_cons_self
    · split
      · intro line hline c hc
        rw [List.mem_singleton.1 hline, List.mem_singleton] at hc
        rw [hc]
        exact List.mem_cons_self
      · rename_i line lines hsplit
        rw [hsplit] at hlift
        obtain ⟨hline, hlines⟩ := List.forall_mem_cons.1 hlift
        exact List.forall_mem_cons.2 ⟨List.forall_mem_cons.2 ⟨List.mem_cons_self, hline⟩, hlines⟩

/-- The cells of a document hold characters of it. -/
theorem csvRecords_mem (text : PyStr) :
    ∀ record ∈ (csvRecords text).1, ∀ cell ∈ record, ∀ c ∈ cell, c ∈ text :=
  readRecords_holds Reader.holds_start (splitLines_mem text)

end Characters

/-! ### Rows -/

/-- `MAX_CSV_DOCUMENT_BYTES` -/
def MAX_CSV_DOCUMENT_BYTES : Nat := 262144

/-- `MAX_CSV_ROWS` -/
def MAX_CSV_ROWS : Nat := 1000

/-- `_REQUIRED_COLUMNS` -/
def REQUIRED_COLUMNS : List String := ["event_kind", "description"]

/-- `_ALLOWED_COLUMNS` -/
def ALLOWED_COLUMNS : List String :=
  ["external_id", "event_kind", "amount", "currency", "description", "occurred_at",
    "merchant_name", "counterparty", "category_hint", "tags", "payment_identifiers", "confidence"]

/-- The columns copied into the payload as they are. -/
def COPIED_COLUMNS : List String :=
  ["amount", "currency", "merchant_name", "counterparty", "category_hint", "confidence"]

/-- The values of a row by column, normalized: of columns with one name the last counts. -/
abbrev RowValues := String → Option PyStr

/-- `csv.DictReader` with `_row_envelope`'s `values`; `none` for a row that is too long. -/
def rowValues (U : Unicode) (columns record : List PyStr) : Option RowValues :=
  if columns.length < record.length then none
  else
    let cells := columns.zip (record.map some ++
      List.replicate (columns.length - record.length) none)
    some fun column => ((cells.reverse.find? fun cell => cell.1 == py column).bind Prod.snd).map
      (normalizeDisplayText U)

/-- `values.get(column)` where it is neither missing nor empty. -/
def RowValues.present (values : RowValues) (column : String) : Option PyStr :=
  (values column).filter (· ≠ [])

/-- `[item.strip() for item in text.split("|") if item.strip()]` -/
def splitBars (text : PyStr) : List PyStr :=
  ((text.splitOn 0x7C).map strip).filter (· ≠ [])

/-- A `ConnectorContentError`. -/
def contentError {α : Type} (code message : String) : Except AppError α :=
  .error (.connectorContent code message)

/-- `_optional_datetime` -/
def optionalDatetime (P : Platform) (value : Option PyStr) (rowNumber : Nat) :
    Except AppError (Option DateTime) :=
  match value with
  | none => .ok none
  | some text =>
    match P.parseDatetime text with
    | some ⟨wall, some offset⟩ => .ok (some ⟨wall, some offset⟩)
    | _ => contentError "CSV_ROW_DATETIME_INVALID"
        ("CSV row " ++ toString rowNumber ++ " occurred_at must include a timezone offset.")

/-- The payload of a row. -/
def rowPayload (values : RowValues) (eventKind description : PyStr)
    (occurredAt : Option DateTime) : Fields :=
  [("event_kind", .str eventKind), ("description", .str description)] ++
  (COPIED_COLUMNS.filterMap fun column =>
    (values.present column).map fun value => (column, Value.str value)) ++
  ((values.present "tags").map fun tags => ("tags", Value.list (splitBars tags))).toList ++
  ((values.present "payment_identifiers").map fun identifiers =>
    ("payment_identifiers", Value.list (splitBars identifiers))).toList ++
  (occurredAt.map fun t => ("occurred_at", Value.datetime t)).toList

/-- The error of a value the envelope rejects. -/
def envelopeError : ContractError → AppError
  | .invalid => .contract "ConnectorEnvelope"
  | .overflow => .overflow

/-- `_row_envelope` for the values of a row. -/
def valuesEnvelope (P : Platform) (values : RowValues) (rowNumber : Nat) (fileHash : PyStr) :
    Except AppError ConnectorEnvelope :=
  match values.present "event_kind", values.present "description" with
  | some eventKind, some description => do
    let occurredAt ← optionalDatetime P (values.present "occurred_at") rowNumber
    (makeEnvelope P.unicode (values.present "external_id") (py "csv_financial_event") occurredAt
      (rowPayload values eventKind description occurredAt)
      [("fileHash", .str fileHash), ("row", .int rowNumber)]
      (some (description.take 500))).mapError envelopeError
  | _, _ => contentError "CSV_ROW_REQUIRED_VALUE_MISSING"
      ("CSV row " ++ toString rowNumber ++ " requires event_kind and description values.")

/-- `_row_envelope` -/
def rowEnvelope (P : Platform) (columns record : List PyStr) (rowNumber : Nat)
    (fileHash : PyStr) : Except AppError ConnectorEnvelope :=
  match rowValues P.unicode columns record with
  | none => contentError "CSV_ROW_COLUMN_MISMATCH"
      ("CSV row " ++ toString rowNumber ++ " has more values than declared columns.")
  | some values => valuesEnvelope P values rowNumber fileHash

/-- The loop of `parse_csv_document` over the rows from a number on. -/
def rowEnvelopes (P : Platform) (columns : List PyStr) (fileHash : PyStr) :
    Nat → List (List PyStr) → Except AppError (List ConnectorEnvelope)
  | _, [] => .ok []
  | rowNumber, record :: records =>
    if MAX_CSV_ROWS + 1 < rowNumber then
      contentError "CSV_ROW_LIMIT_EXCEEDED" "CSV imports cannot exceed 1000 data rows."
    else do
      let envelope ← rowEnvelope P columns record rowNumber fileHash
      let envelopes ← rowEnvelopes P columns fileHash (rowNumber + 1) records
      pure (envelope :: envelopes)

/-- The checks on the header row. -/
def checkColumns (columns : List PyStr) : Except AppError Unit :=
  if columns.isEmpty || columns.any List.isEmpty then
    contentError "CSV_HEADER_INVALID" "The CSV document must include a non-empty header row."
  else if !(REQUIRED_COLUMNS.all fun column => columns.contains (py column)) then
    contentError "CSV_REQUIRED_COLUMNS_MISSING"
      "CSV rows require event_kind and description columns."
  else if !(columns.all fun column => (ALLOWED_COLUMNS.map py).contains column) then
    contentError "CSV_COLUMNS_UNSUPPORTED" "The CSV document includes unsupported columns."
  else .ok ()

/-- The header of a document and its data rows, blank ones left out. -/
structure CsvTable where
  columns : List PyStr
  rows : List (List PyStr)
  failed : Bool

/-- `csv.DictReader` over a text; a failure in the header itself is not caught. -/
def csvTable (text : PyStr) : Except AppError CsvTable :=
  match csvRecords text with
  | ([], true) => .error (.runtime "csv.Error")
  | ([], false) => .ok ⟨[], [], false⟩
  | (columns :: records, failed) => .ok ⟨columns, records.filter (· ≠ []), failed⟩

/-- `bytes.decode("utf-8-sig")`: without the byte-order mark. -/
def decodeSig (content : PyStr) : PyStr :=
  match content with
  | 0xFEFF :: text => text
  | text => text

/-- `parse_csv_document` of a text, which is hashed and measured in UTF-8. -/
def parseCsvDocument (P : Platform) (content : PyStr) : Except AppError (List ConnectorEnvelope) :=
  match utf8Size content with
  | none => .error (.runtime "UnicodeEncodeError")
  | some size => do
    if MAX_CSV_DOCUMENT_BYTES < size then
      contentError "CSV_DOCUMENT_TOO_LARGE" "The CSV document exceeds the 256 KiB import limit."
    let text := decodeSig content
    if (0 : CodePoint) ∈ text then
      contentError "CSV_DOCUMENT_INVALID" "The CSV document contains unsupported null bytes."
    let table ← csvTable text
    checkColumns table.columns
    let envelopes ← rowEnvelopes P table.columns (P.sha256 content) 2 table.rows
    if table.failed then
      contentError "CSV_DOCUMENT_INVALID" "The CSV document could not be parsed safely."
    pure envelopes

/-! ### What the envelopes carry -/

/-- A payload has columns of the document only. -/
theorem rowPayload_columns {values : RowValues} {eventKind description : PyStr}
    {occurredAt : Option DateTime} {f : String × Value}
    (hf : f ∈ rowPayload values eventKind description occurredAt) : f.1 ∈ ALLOWED_COLUMNS := by
  simp only [rowPayload, List.mem_append, List.mem_filterMap, Option.mem_toList,
    Option.map_eq_some_iff] at hf
  rcases hf with (((hf | hf) | hf) | hf) | hf
  · rcases List.mem_cons.1 hf with rfl | hf
    · show "event_kind" ∈ ALLOWED_COLUMNS
      decide
    · rw [List.mem_singleton.1 hf]
      show "description" ∈ ALLOWED_COLUMNS
      decide
  · obtain ⟨column, hcolumn, value, -, rfl⟩ := hf
    have hsub : ∀ column ∈ COPIED_COLUMNS, column ∈ ALLOWED_COLUMNS := by decide
    exact hsub column hcolumn
  · obtain ⟨tags, -, rfl⟩ := hf
    show "tags" ∈ ALLOWED_COLUMNS
    decide
  · obtain ⟨identifiers, -, rfl⟩ := hf
    show "payment_identifiers" ∈ ALLOWED_COLUMNS
    decide
  · obtain ⟨t, -, rfl⟩ := hf
    show "occurred_at" ∈ ALLOWED_COLUMNS
    decide

/-- What the envelope of a row is built from. -/
theorem valuesEnvelope_ok {P : Platform} {values : RowValues} {rowNumber : Nat} {fileHash : PyStr}
    {envelope : ConnectorEnvelope} (h : valuesEnvelope P values rowNumber fileHash = .ok envelope) :
    ∃ eventKind description occurredAt,
      values.present "event_kind" = some eventKind ∧
      values.present "description" = some description ∧
      optionalDatetime P (values.present "occurred_at") rowNumber = .ok occurredAt ∧
      makeEnvelope P.unicode (values.present "external_id") (py "csv_financial_event") occurredAt
        (rowPayload values eventKind description occurredAt)
        [("fileHash", .str fileHash), ("row", .int rowNumber)] (some (description.take 500)) =
          .ok envelope := by
  unfold valuesEnvelope at h
  split at h
  · rename_i eventKind description hkind hdescription
    simp only [bind, Except.bind] at h
    split at h
    · cases h
    rename_i occurredAt hoccurred
    refine ⟨eventKind, description, occurredAt, hkind, hdescription, hoccurred, ?_⟩
    cases hmake : makeEnvelope P.unicode (values.present "external_id") (py "csv_financial_event")
        occurredAt (rowPayload values eventKind description occurredAt)
        [("fileHash", .str fileHash), ("row", .int rowNumber)] (some (description.take 500)) with
    | error e =>
      rw [hmake] at h
      cases h
    | ok built =>
      rw [hmake] at h
      exact congrArg Except.ok (Except.ok.inj h)
  · cases h

/-- The envelope of each row, in order. -/
theorem rowEnvelopes_getElem? {P : Platform} {columns : List PyStr} {fileHash : PyStr}
    {rows : List (List PyStr)} {events : List ConnectorEnvelope} {start i : Nat}
    {envelope : ConnectorEnvelope} (h : rowEnvelopes P columns fileHash start rows = .ok events)
    (hi : events[i]? = some envelope) :
    ∃ record, rows[i]? = some record ∧
      rowEnvelope P columns record (start + i) fileHash = .ok envelope := by
  induction rows generalizing start events i with
  | nil =>
    obtain rfl := Except.ok.inj h
    cases hi
  | cons record rows ih =>
    unfold rowEnvelopes at h
    split at h
    · cases h
    simp only [bind, Except.bind, pure, Except.pure] at h
    split at h
    · cases h
    rename_i first hfirst
    split at h
    · cases h
    rename_i rest hrest
    obtain rfl := Except.ok.inj h
    cases i with
    | zero =>
      obtain rfl : first = envelope := by simpa using hi
      exact ⟨record, rfl, hfirst⟩
    | succ i =>
      obtain ⟨record', hrecord', henvelope⟩ := ih hrest (by simpa using hi)
      refine ⟨record', by simpa using hrecord', ?_⟩
      rwa [show start + (i + 1) = start + 1 + i by omega]

/-- A parsed document: its table and the envelopes of its rows. -/
theorem parseCsvDocument_ok {P : Platform} {content : PyStr} {events : List ConnectorEnvelope}
    (h : parseCsvDocument P content = .ok events) :
    ∃ table, csvTable (decodeSig content) = .ok table ∧
      rowEnvelopes P table.columns (P.sha256 content) 2 table.rows = .ok events := by
  unfold parseCsvDocument at h
  split at h
  · cases h
  simp only [bind, Except.bind, pure, Except.pure] at h
  split at h
  · cases h
  split at h
  · cases h
  split at h
  · cases h
  rename_i table htable
  split at h
  · cases h
  split at h
  · cases h
  rename_i built hbuilt
  split at h
  · cases h
  obtain rfl := Except.ok.inj h
  exact ⟨table, htable, hbuilt⟩

/-- The payload of a parsed row has columns of the document only. -/
theorem parseCsvDocument_columns {P : Platform} {content : PyStr}
    {events : List ConnectorEnvelope} (h : parseCsvDocument P content = .ok events)
    {envelope : ConnectorEnvelope} (hmem : envelope ∈ events) :
    ∀ f ∈ envelope.payload, f.1 ∈ ALLOWED_COLUMNS := by
  obtain ⟨table, -, hrows⟩ := parseCsvDocument_ok h
  obtain ⟨i, hi⟩ := List.getElem?_of_mem hmem
  obtain ⟨record, -, hrow⟩ := rowEnvelopes_getElem? hrows hi
  unfold rowEnvelope at hrow
  split at hrow
  · cases hrow
  · obtain ⟨_, _, _, -, -, -, hmake⟩ := valuesEnvelope_ok hrow
    rw [(makeEnvelope_ok hmake).1]
    exact fun f hf => rowPayload_columns hf

/-! ### The connector -/

/-- `fetch` of the connectors whose cursor is an offset into their events. -/
def fetchFromOffset (events : List ConnectorEnvelope) (message : String) (cursor : Fields) :
    Except AppError ConnectorBatch :=
  let batch := fun offset : Nat => ConnectorBatch.mk (events.drop offset)
    [("offset", .int events.length)]
  match cursor.get "offset" with
  | none => .ok (batch 0)
  | some (.int (.ofNat offset)) => .ok (batch offset)
  | some _ => .error (.connectorContent "INVALID_CONNECTOR_CURSOR" message)

/-- A number field of a payload: absent, unreadable or read. -/
def numberField (U : Unicode) (payload : Fields) (column : String) : Option (Option Decimal) :=
  (payload.get column).map fun value => value.text?.bind (decimalOfText U)

/-- A text field of a payload. -/
def textField (payload : Fields) (column : String) : Option PyStr :=
  (payload.get column).bind Value.text?

/-- A list field of a payload. -/
def listField (payload : Fields) (column : String) : List PyStr :=
  match payload.get column with
  | some (.list items) => items
  | _ => []

/-- The event kind a text names. -/
def eventKindOfText (text : PyStr) : Option NormalizedEventKind :=
  NormalizedEventKind.all.find? fun kind => py kind.value = text

/-- A time field of a payload. -/
def timeField (payload : Fields) (column : String) : Option DateTime :=
  match payload.get column with
  | some (.datetime t) => some t
  | _ => none

/-- A payload as the event contract reads it. -/
def payloadInput (U : Unicode) (payload : Fields) : EventInput where
  eventKind := (textField payload "event_kind").bind eventKindOfText
  amount := numberField U payload "amount"
  currency := textField payload "currency"
  description := textField payload "description"
  occurredAt := timeField payload "occurred_at"
  merchantName := textField payload "merchant_name"
  counterparty := textField payload "counterparty"
  categoryHint := textField payload "category_hint"
  tags := listField payload "tags"
  paymentIdentifiers := listField payload "payment_identifiers"
  confidence := numberField U payload "confidence"

/-- `normalize` of `CsvTransactionConnector` -/
def csvNormalize (U : Unicode) (envelope : ConnectorEnvelope) : NormalizeResult :=
  match validateEvent U (payloadInput U envelope.payload) with
  | .ok event => .event event
  | .error .invalid => .contentError "CSV_ROW_INVALID"
  | .error .overflow => .uncaught .overflow

/-- `CsvTransactionConnector` -/
def csvConnector (U : Unicode) (events : List ConnectorEnvelope) : Connector where
  key := .csvImport
  displayName := "CSV transaction import"
  fetch := fetchFromOffset events "The CSV import cursor is invalid."
  normalize := csvNormalize U

end Expensea.Connectors
