import Expensea.Connectors.KeepTakeout
import Expensea.Domain.Normalization

namespace Expensea.Connectors

open Ingestion

/-!
# Errors of CSV documents

Which documents make `parse_csv_document` raise something else than a `ConnectorContentError`.

* `Documented` — what is documented of the Unicode tables and of the digest;
* `Contained` — every error is a `ConnectorContentError`;
* `RowFits` — what the envelope asks of a row that was accepted;
* `CsvImportable` — the limits that the parser leaves to what it calls;
* `parseCsvContent_contained_iff` — the parser is contained on exactly these documents.
-/

/-- What is documented of the Unicode tables and of the digest: NFKC leaves ASCII alone and the
    beginning of a text in normal form in normal form, and a digest is 64 hexadecimal digits. -/
structure Documented (P : Platform) : Prop where
  unicode : P.unicode.Lawful
  nfkc_ascii : ∀ s : PyStr, (∀ c ∈ s, c.val < 0x80) → P.unicode.nfkc s = s
  nfkc_take : ∀ (s : PyStr) (n : Nat), P.unicode.nfkc s = s → P.unicode.nfkc (s.take n) = s.take n
  sha256_hex : ∀ s, (P.sha256 s).length = 64 ∧ ∀ c ∈ P.sha256 s, c.val < 0x80

/-- Every error is a `ConnectorContentError`. -/
def Contained {α : Type} (r : Except AppError α) : Prop :=
  ∀ e, r = .error e → ∃ code message, e = .connectorContent code message

section Contained

variable {α β : Type}

theorem contained_ok (a : α) : Contained (.ok a : Except AppError α) := by
  intro e h
  cases h

theorem contained_of_isOk {r : Except AppError α} (h : r.isOk = true) : Contained r := by
  cases r with
  | error e => cases h
  | ok a => exact contained_ok a

theorem contained_contentError (code message : String) :
    Contained (contentError code message : Except AppError α) := by
  intro e h
  cases h
  exact ⟨code, message, rfl⟩

theorem not_contained_runtime (message : String) :
    ¬ Contained (.error (.runtime message) : Except AppError α) := by
  intro h
  obtain ⟨_, _, he⟩ := h _ rfl
  cases he

theorem contained_map {r : Except AppError α} {f : α → β} : Contained (r.map f) ↔ Contained r := by
  cases r with
  | error e =>
    constructor
    · intro h e' he
      cases he
      exact h _ rfl
    · intro h e' he
      cases he
      exact h _ rfl
  | ok a => exact iff_of_true (contained_ok (f a)) (contained_ok a)

theorem contained_error_cast {e : AppError} :
    Contained (.error e : Except AppError α) ↔ Contained (.error e : Except AppError β) := by
  constructor
  · intro h e' he
    cases he
    exact h _ rfl
  · intro h e' he
    cases he
    exact h _ rfl

/-- A validated value is contained if it is built. -/
theorem contained_validated {r : Except ContractError α} :
    Contained (r.mapError envelopeError) ↔ ∃ a, r = .ok a := by
  cases r with
  | error e =>
    constructor
    · intro h
      obtain ⟨_, _, he⟩ := h _ rfl
      cases e with
      | invalid => cases he
      | overflow => cases he
    · intro h
      obtain ⟨a, ha⟩ := h
      cases ha
  | ok a => exact iff_of_true (contained_ok a) ⟨a, rfl⟩

end Contained

/-! ### Fields of an envelope -/

section Envelope

variable {P : Platform}

/-- An optional text is accepted if its display form is short enough and has no surrogate. -/
theorem boundedText_ok_iff (h : Documented P) {limit : Nat} {text : PyStr} :
    (∃ r, boundedText P.unicode limit (some text) = .ok r) ↔
      (normalizeDisplayText P.unicode text).length ≤ limit ∧ text.any isSurrogate = false := by
  rw [boundedText, normalizeText, Option.map_some]
  by_cases hblank : normalizeDisplayText P.unicode text = []
  · -- a blank text is absent, and has no surrogate
    have hfree := any_surrogate_display h.unicode text
    rw [hblank] at hfree
    rw [Option.filter_some, if_neg (by simpa using hblank)]
    refine iff_of_true ⟨none, rfl⟩ ⟨?_, hfree.symm⟩
    rw [hblank]
    exact Nat.zero_le _
  · rw [Option.filter_some, if_pos (by simpa using hblank)]
    dsimp only
    rw [any_surrogate_display h.unicode]
    constructor
    · intro hok
      obtain ⟨r, hr⟩ := hok
      split at hr
      · rename_i hboth
        exact ⟨hboth.1, Bool.not_eq_true _ ▸ hboth.2⟩
      · cases hr
    · intro hboth
      rw [if_pos ⟨hboth.1, by rw [hboth.2]; exact Bool.false_ne_true⟩]
      exact ⟨_, rfl⟩

/-- The first 500 characters of display text are accepted unless one of them is a surrogate. -/
theorem excerpt_ok_iff (h : Documented P) (s : PyStr) :
    (∃ r, boundedText P.unicode 500 (some ((normalizeDisplayText P.unicode s).take 500)) = .ok r) ↔
      ((normalizeDisplayText P.unicode s).take 500).any isSurrogate = false := by
  have hnormal := h.nfkc_take _ 500 (h.unicode.nfkc_display s)
  have hlength : (normalizeDisplayText P.unicode ((normalizeDisplayText P.unicode s).take 500)).length ≤
      500 := (length_display_le hnormal).trans (List.length_take_le 500 _)
  rw [boundedText_ok_iff h]
  exact and_iff_right hlength

/-- An ASCII text has no surrogate. -/
theorem ascii_free {s : PyStr} (hs : ∀ c ∈ s, c.val < 0x80) : s.any isSurrogate = false := by
  rw [List.any_eq_false]
  intro c hc hsurrogate
  have hlow := hs c hc
  have hhigh := ((isSurrogate_iff c).1 hsurrogate).1
  omega

/-- The type of an envelope is accepted as it is. -/
theorem eventType_ok (h : Documented P) {s : PyStr} (hascii : (s.all fun c => c.val < 0x80) = true)
    (hne : s ≠ []) (hwords : joinSpace (split s) = s) (hlength : s.length ≤ 80) :
    ∃ r, requiredText P.unicode 80 (some s) = .ok r := by
  have hs : ∀ c ∈ s, c.val < 0x80 := by simpa using hascii
  have hdisplay : normalizeDisplayText P.unicode s = s := by
    rw [normalizeDisplayText, h.nfkc_ascii s hs, hwords]
  refine ⟨s, ?_⟩
  rw [requiredText, boundedText, normalizeText, Option.map_some, hdisplay, Option.filter_some,
    if_pos (by simpa using hne)]
  dsimp only
  rw [ascii_free hs, if_pos ⟨hlength, by simp⟩]

/-- An envelope is built if its fields are accepted. -/
theorem makeEnvelope_ok_iff {U : Unicode} {externalEventId : Option PyStr} {eventType : PyStr}
    {occurredAt : Option DateTime} {payload locator : Fields} {evidenceExcerpt : Option PyStr} :
    (∃ envelope, makeEnvelope U externalEventId eventType occurredAt payload locator evidenceExcerpt =
        .ok envelope) ↔
      (∃ r, occurredAtField occurredAt = .ok r) ∧ (∃ r, boundedText U 255 externalEventId = .ok r) ∧
        (∃ r, requiredText U 80 (some eventType) = .ok r) ∧
          ∃ r, boundedText U 500 evidenceExcerpt = .ok r := by
  constructor
  · intro h
    obtain ⟨envelope, hmake⟩ := h
    obtain ⟨-, -, hoccurred, hexternal, htype, hexcerpt⟩ := makeEnvelope_ok hmake
    exact ⟨⟨_, hoccurred⟩, ⟨_, hexternal⟩, ⟨_, htype⟩, ⟨_, hexcerpt⟩⟩
  · intro h
    obtain ⟨⟨t, hoccurred⟩, ⟨external, hexternal⟩, ⟨type, htype⟩, ⟨excerpt, hexcerpt⟩⟩ := h
    refine ⟨⟨external, type, t, payload, locator, excerpt⟩, ?_⟩
    rw [makeEnvelope, hoccurred, hexternal, htype, hexcerpt]
    rfl

end Envelope

/-! ### Rows -/

/-- The row has a kind and a description, and a time with an offset if it has one. -/
structure RowAccepted (P : Platform) (values : RowValues) : Prop where
  kind : ∃ kind, values.present "event_kind" = some kind
  description : ∃ description, values.present "description" = some description
  occurredAt : ∀ text, values.present "occurred_at" = some text →
    ∃ wall offset, P.parseDatetime text = some ⟨wall, some offset⟩

/-- The row's external id is within its limit, and its time is inside the calendar in UTC. -/
structure RowFits (P : Platform) (values : RowValues) : Prop where
  externalId : ∀ id, values.present "external_id" = some id → id.length ≤ 255
  occurredAt : ∀ text wall offset, values.present "occurred_at" = some text →
    P.parseDatetime text = some ⟨wall, some offset⟩ → representable (wall - offset) = true

/-- Up to `n` rows: an accepted row fits, and so do the rows after it; a row that is not accepted
    ends the import. -/
def RowsFit (P : Platform) (columns : List PyStr) : Nat → List (List PyStr) → Prop
  | _, [] => True
  | 0, _ :: _ => True
  | n + 1, record :: rows => ∀ values, rowValues P.unicode columns record = some values →
    RowAccepted P values → RowFits P values ∧ RowsFit P columns n rows

section Rows

variable {P : Platform} {values : RowValues} {fileHash : PyStr}

/-- The time of a row. -/
theorem optionalDatetime_accepted (h : RowAccepted P values) (rowNumber : Nat) :
    ∃ t, optionalDatetime P (values.present "occurred_at") rowNumber = .ok t ∧
      ((∃ r, occurredAtField t = .ok r) ↔ ∀ text wall offset,
        values.present "occurred_at" = some text →
          P.parseDatetime text = some ⟨wall, some offset⟩ → representable (wall - offset) = true) := by
  cases htext : values.present "occurred_at" with
  | none =>
    refine ⟨none, rfl, iff_of_true ⟨none, rfl⟩ fun text wall offset hsome => ?_⟩
    cases hsome
  | some text =>
    obtain ⟨wall, offset, hparse⟩ := h.occurredAt text htext
    refine ⟨some ⟨wall, some offset⟩, ?_, ?_⟩
    · rw [optionalDatetime, hparse]
    · rw [occurredAtField, astimezoneUtc]
      by_cases hinside : representable (wall - offset) = true
      · rw [if_pos hinside]
        refine iff_of_true ⟨_, rfl⟩ fun text' wall' offset' hsome hparse' => ?_
        cases hsome
        rw [hparse] at hparse'
        cases hparse'
        exact hinside
      · rw [if_neg hinside]
        refine iff_of_false (fun hok => ?_) fun hall => hinside (hall text wall offset rfl hparse)
        obtain ⟨r, hr⟩ := hok
        cases hr

/-- A row that is not accepted is rejected as content. -/
theorem valuesEnvelope_rejected (h : ¬ RowAccepted P values) (rowNumber : Nat) (fileHash : PyStr) :
    ∃ code message, valuesEnvelope P values rowNumber fileHash = .error (.connectorContent code message) := by
  unfold valuesEnvelope
  cases hkind : values.present "event_kind" with
  | none => exact ⟨_, _, rfl⟩
  | some kind =>
    cases hdescription : values.present "description" with
    | none => exact ⟨_, _, rfl⟩
    | some description =>
      cases htext : values.present "occurred_at" with
      | none =>
        refine absurd ⟨⟨kind, hkind⟩, ⟨description, hdescription⟩, fun text hsome => ?_⟩ h
        rw [htext] at hsome
        cases hsome
      | some text =>
        rw [optionalDatetime]
        dsimp only
        split
        · rename_i parsed wall offset hparse
          refine absurd ⟨⟨kind, hkind⟩, ⟨description, hdescription⟩, fun text' hsome => ?_⟩ h
          rw [htext] at hsome
          cases hsome
          exact ⟨wall, offset, hparse⟩
        · exact ⟨_, _, rfl⟩

/-- An accepted row is validated, and becomes an envelope if it fits. -/
theorem valuesEnvelope_accepted (hP : Documented P)
    (hvalues : ∀ column value, values.present column = some value →
      ∃ cell : PyStr, cell.any isSurrogate = false ∧ value = normalizeDisplayText P.unicode cell)
    (h : RowAccepted P values) (rowNumber : Nat) (fileHash : PyStr) :
    ∃ built : Except ContractError ConnectorEnvelope,
      valuesEnvelope P values rowNumber fileHash = built.mapError envelopeError ∧
        ((∃ envelope, built = .ok envelope) ↔ RowFits P values) := by
  obtain ⟨kind, hkind⟩ := h.kind
  obtain ⟨description, hdescription⟩ := h.description
  obtain ⟨t, ht, htime⟩ := optionalDatetime_accepted h rowNumber
  have htype : ∃ r, requiredText P.unicode 80 (some (py "csv_financial_event")) = .ok r :=
    eventType_ok hP (by decide +kernel) (by decide +kernel) (by decide +kernel) (by decide +kernel)
  have hexcerpt : ∃ r, boundedText P.unicode 500 (some (description.take 500)) = .ok r := by
    obtain ⟨cell, hcell, rfl⟩ := hvalues _ _ hdescription
    rw [excerpt_ok_iff hP, List.any_eq_false]
    intro c hc hsurrogate
    have hmem := (mem_display_surrogate hP.unicode hsurrogate cell).1 (List.mem_of_mem_take hc)
    rw [List.any_eq_false] at hcell
    exact hcell c hmem hsurrogate
  have hexternal : (∃ r, boundedText P.unicode 255 (values.present "external_id") = .ok r) ↔
      ∀ id, values.present "external_id" = some id → id.length ≤ 255 := by
    cases hid : values.present "external_id" with
    | none =>
      refine iff_of_true ⟨none, rfl⟩ fun id hsome => ?_
      cases hsome
    | some id =>
      obtain ⟨cell, hcell, rfl⟩ := hvalues _ _ hid
      rw [boundedText_ok_iff hP, display_display hP.unicode, any_surrogate_display hP.unicode, hcell]
      constructor
      · intro hok id' hsome
        cases hsome
        exact hok.1
      · intro hall
        exact ⟨hall _ rfl, rfl⟩
  refine ⟨makeEnvelope P.unicode (values.present "external_id") (py "csv_financial_event") t
    (rowPayload values kind description t) [("fileHash", .str fileHash), ("row", .int rowNumber)]
    (some (description.take 500)), ?_, ?_⟩
  · rw [valuesEnvelope, hkind, hdescription]
    dsimp only
    rw [ht]
    rfl
  · rw [makeEnvelope_ok_iff, htime, hexternal]
    constructor
    · intro hall
      exact ⟨hall.2.1, hall.1⟩
    · intro hfits
      exact ⟨hfits.occurredAt, hfits.externalId, htype, hexcerpt⟩

/-- The cells that a value of a row comes from. -/
theorem rowValues_cell {U : Unicode} {columns record : List PyStr} {values : RowValues}
    (h : rowValues U columns record = some values) {column : String} {value : PyStr}
    (hvalue : values.present column = some value) :
    ∃ cell ∈ record, value = normalizeDisplayText U cell := by
  rw [rowValues] at h
  split at h
  · cases h
  · cases h
    rw [RowValues.present, Option.filter_eq_some_iff] at hvalue
    obtain ⟨cell, hcell, rfl⟩ := Option.map_eq_some_iff.1 hvalue.1
    obtain ⟨⟨name, found⟩, hfound, hsome⟩ := Option.bind_eq_some_iff.1 hcell
    have hmem : (name, found) ∈ columns.zip (record.map some ++
        List.replicate (columns.length - record.length) none) :=
      List.mem_reverse.1 (List.mem_of_find?_eq_some hfound)
    have hright := (List.of_mem_zip hmem).2
    dsimp only at hsome
    rw [hsome, List.mem_append] at hright
    rcases hright with hcellmem | hnone
    · obtain ⟨cell', hcell', heq⟩ := List.mem_map.1 hcellmem
      rw [← Option.some.inj heq]
      exact ⟨cell', hcell', rfl⟩
    · cases List.eq_of_mem_replicate hnone

/-- The rows of a document without surrogates, from a row number on. -/
theorem rowEnvelopes_contained_iff (hP : Documented P) {columns : List PyStr}
    {rows : List (List PyStr)}
    (hcells : ∀ record ∈ rows, ∀ cell ∈ record, cell.any isSurrogate = false) (rowNumber : Nat) :
    Contained (rowEnvelopes P columns fileHash rowNumber rows) ↔
      RowsFit P columns (MAX_CSV_ROWS + 2 - rowNumber) rows := by
  induction rows generalizing rowNumber with
  | nil =>
    rw [rowEnvelopes, RowsFit]
    exact iff_of_true (contained_ok _) trivial
  | cons record rows ih =>
    rw [rowEnvelopes]
    by_cases hlimit : MAX_CSV_ROWS + 1 < rowNumber
    · rw [if_pos hlimit, show MAX_CSV_ROWS + 2 - rowNumber = 0 by omega, RowsFit]
      exact iff_of_true (contained_contentError _ _) trivial
    rw [if_neg hlimit, show MAX_CSV_ROWS + 2 - rowNumber = MAX_CSV_ROWS + 2 - (rowNumber + 1) + 1
      by omega, RowsFit, rowEnvelope]
    have ih := ih (fun r hr => hcells r (List.mem_cons_of_mem _ hr)) (rowNumber + 1)
    cases hvalues : rowValues P.unicode columns record with
    | none =>
      refine iff_of_true (contained_contentError _ _) fun values hsome => ?_
      cases hsome
    | some values =>
      have hsome : ∀ p : RowValues → Prop, (∀ values', some values = some values' → p values') ↔
          p values := fun p => ⟨fun h => h values rfl, fun h values' he => Option.some.inj he ▸ h⟩
      rw [hsome]
      dsimp only
      by_cases haccepted : RowAccepted P values
      · obtain ⟨built, hbuilt, hfits⟩ := valuesEnvelope_accepted hP (fun column value hvalue => by
          obtain ⟨cell, hcell, hnormal⟩ := rowValues_cell hvalues hvalue
          exact ⟨cell, hcells record List.mem_cons_self cell hcell, hnormal⟩) haccepted rowNumber
          fileHash
        rw [hbuilt, forall_prop_of_true haccepted, ← hfits]
        cases built with
        | error e =>
          refine iff_of_false (fun hcontained => ?_) fun hboth => ?_
          · -- the error of the row is the error of the document
            have herror : Contained ((Except.error e : Except ContractError ConnectorEnvelope).mapError
              envelopeError) := contained_error_cast.1 hcontained
            obtain ⟨_, he⟩ := contained_validated.1 herror
            cases he
          · obtain ⟨_, he⟩ := hboth.1
            cases he
        | ok envelope =>
          show Contained ((rowEnvelopes P columns fileHash (rowNumber + 1) rows).map
            (envelope :: ·)) ↔ _
          rw [contained_map, ih]
          exact (and_iff_right ⟨envelope, rfl⟩).symm
      · obtain ⟨code, message, herror⟩ := valuesEnvelope_rejected haccepted rowNumber fileHash
        rw [herror]
        exact iff_of_true (contained_contentError _ _) fun haccepted' => absurd haccepted' haccepted

end Rows

/-! ### Documents -/

/-- The header has the required columns, and allowed ones only. -/
structure HeaderAccepted (columns : List PyStr) : Prop where
  required : ∀ column ∈ REQUIRED_COLUMNS, py column ∈ columns
  allowed : ∀ column ∈ columns, column ∈ ALLOWED_COLUMNS.map py

/-- The text of a document within the size limit, decoded and without null bytes. -/
structure CsvText (content : Content) (text : PyStr) : Prop where
  decoded : ∃ encoded decoded, content.encoded = some encoded ∧
    encoded.length ≤ MAX_CSV_DOCUMENT_BYTES ∧ Utf8.decode false encoded = some decoded ∧
      decodeSig decoded = text
  clean : NUL ∉ text

/-- What a document must keep to: it can be encoded, its header is not beyond the reader's limit,
    and below an accepted header the rows fit. -/
structure CsvImportable (P : Platform) (content : Content) : Prop where
  encodable : ∀ text, content = .text text → text.any isSurrogate = false
  header : ∀ text, CsvText content text → csvRecords text ≠ ([], true)
  rows : ∀ text columns records failed, CsvText content text →
    csvRecords text = (columns :: records, failed) → HeaderAccepted columns →
      RowsFit P columns MAX_CSV_ROWS (records.filter (· ≠ []))

section Documents

variable {P : Platform} {content : Content}

theorem encoded_isSome_iff :
    (∃ encoded, content.encoded = some encoded) ↔
      ∀ text, content = .text text → text.any isSurrogate = false := by
  cases content with
  | bytes content =>
    refine iff_of_true ⟨content, rfl⟩ fun text htext => ?_
    cases htext
  | text s =>
    rw [Content.encoded]
    by_cases hs : s.any isSurrogate = true
    · rw [if_pos hs]
      refine iff_of_false (fun h => ?_) fun h => ?_
      · obtain ⟨_, hnone⟩ := h
        cases hnone
      · rw [h s rfl] at hs
        cases hs
    · rw [if_neg hs]
      refine iff_of_true ⟨_, rfl⟩ fun text htext => ?_
      cases htext
      exact Bool.not_eq_true _ ▸ hs

theorem checkColumns_ok {columns : List PyStr} (h : HeaderAccepted columns) :
    checkColumns columns = .ok () := by
  have hnamed : ∀ column ∈ ALLOWED_COLUMNS.map py, List.isEmpty column = false := by decide +kernel
  have hempty : (columns.isEmpty || columns.any List.isEmpty) = false := by
    rw [Bool.or_eq_false_iff, List.any_eq_false]
    constructor
    · have hmem := h.required "event_kind" (by decide)
      rw [List.isEmpty_eq_false_iff]
      exact List.ne_nil_of_mem hmem
    · intro column hcolumn
      rw [hnamed column (h.allowed column hcolumn)]
      exact Bool.false_ne_true
  have hrequired : (REQUIRED_COLUMNS.all fun column => columns.contains (py column)) = true := by
    rw [List.all_eq_true]
    intro column hcolumn
    exact List.contains_iff_mem.2 (h.required column hcolumn)
  have hallowed : (columns.all fun column => (ALLOWED_COLUMNS.map py).contains column) = true := by
    rw [List.all_eq_true]
    intro column hcolumn
    exact List.contains_iff_mem.2 (h.allowed column hcolumn)
  rw [checkColumns, hempty, hrequired, hallowed]
  rfl

theorem checkColumns_rejected {columns : List PyStr} (h : ¬ HeaderAccepted columns) :
    ∃ code message, checkColumns columns = .error (.connectorContent code message) := by
  rw [checkColumns]
  split
  · exact ⟨_, _, rfl⟩
  split
  · exact ⟨_, _, rfl⟩
  split
  · exact ⟨_, _, rfl⟩
  · rename_i hrequired hallowed
    rw [Bool.not_eq_true', Bool.not_eq_false, List.all_eq_true] at hrequired hallowed
    refine absurd ⟨fun column hcolumn => ?_, fun column hcolumn => ?_⟩ h
    · exact List.contains_iff_mem.1 (hrequired column hcolumn)
    · exact List.contains_iff_mem.1 (hallowed column hcolumn)

theorem decodeSig_mem {s : PyStr} {c : CodePoint} (h : c ∈ decodeSig s) : c ∈ s := by
  unfold decodeSig at h
  split at h
  · exact List.mem_cons_of_mem _ h
  · exact h

/-- A decoded document. -/
theorem parseCsvText_contained_iff (hP : Documented P) {decoded : PyStr}
    (hfree : ∀ c ∈ decoded, isSurrogate c = false) :
    Contained (parseCsvText P decoded) ↔ (NUL ∉ decodeSig decoded →
      csvRecords (decodeSig decoded) ≠ ([], true) ∧ ∀ columns records failed,
        csvRecords (decodeSig decoded) = (columns :: records, failed) → HeaderAccepted columns →
          RowsFit P columns MAX_CSV_ROWS (records.filter (· ≠ []))) := by
  rw [parseCsvText]
  by_cases hzero : NUL ∈ decodeSig decoded
  · dsimp only
    rw [if_pos (List.contains_iff_mem.2 hzero)]
    exact iff_of_true (contained_contentError _ _) fun hclean => absurd hzero hclean
  dsimp only
  rw [if_neg (mt List.contains_iff_mem.1 hzero), forall_prop_of_true hzero]
  have hcells := csvRecords_mem (decodeSig decoded)
  rw [csvTable]
  generalize csvRecords (decodeSig decoded) = read at hcells ⊢
  obtain ⟨records, failed⟩ := read
  cases records with
  | nil =>
    cases failed with
    | true =>
      refine iff_of_false (not_contained_runtime _) fun h => ?_
      exact h.1 rfl
    | false =>
      refine iff_of_true (contained_contentError _ _) ⟨by simp, fun columns records failed he => ?_⟩
      cases he
  | cons columns records =>
    have hcondition : ((columns :: records, failed) ≠ (([] : List (List PyStr)), true) ∧
          ∀ columns' records' failed', (columns :: records, failed) = (columns' :: records', failed') →
            HeaderAccepted columns' → RowsFit P columns' MAX_CSV_ROWS (records'.filter (· ≠ []))) ↔
        (HeaderAccepted columns → RowsFit P columns MAX_CSV_ROWS (records.filter (· ≠ []))) := by
      constructor
      · intro h
        exact h.2 columns records failed rfl
      · intro h
        refine ⟨by simp, fun columns' records' failed' he => ?_⟩
        cases he
        exact h
    rw [hcondition]
    by_cases hheader : HeaderAccepted columns
    · have hrows : Contained (rowEnvelopes P columns (P.sha256 decoded) 2 (records.filter (· ≠ []))) ↔
          RowsFit P columns MAX_CSV_ROWS (records.filter (· ≠ [])) := by
        refine rowEnvelopes_contained_iff hP (fun record hrecord cell hcell => ?_) 2
        rw [List.any_eq_false]
        intro c hc
        have hmem := hcells record (List.mem_cons_of_mem _ (List.mem_of_mem_filter hrecord)) cell hcell
          c hc
        rw [hfree c (decodeSig_mem hmem)]
        exact Bool.false_ne_true
      rw [forall_prop_of_true hheader, ← hrows]
      show Contained (do
        checkColumns columns
        let envelopes ← rowEnvelopes P columns (P.sha256 decoded) 2 (records.filter (· ≠ []))
        if failed then
          contentError "CSV_DOCUMENT_INVALID" "The CSV document could not be parsed safely."
        pure envelopes) ↔ _
      rw [checkColumns_ok hheader]
      -- a failure of the reader after the rows is a content error
      cases rowEnvelopes P columns (P.sha256 decoded) 2 (records.filter (· ≠ [])) with
      | error e => exact contained_error_cast
      | ok envelopes =>
        refine iff_of_true ?_ (contained_ok envelopes)
        cases failed with
        | false => exact contained_ok envelopes
        | true => exact contained_contentError _ _
    · obtain ⟨code, message, hrejected⟩ := checkColumns_rejected hheader
      show Contained (do
        checkColumns columns
        let envelopes ← rowEnvelopes P columns (P.sha256 decoded) 2 (records.filter (· ≠ []))
        if failed then
          contentError "CSV_DOCUMENT_INVALID" "The CSV document could not be parsed safely."
        pure envelopes) ↔ _
      rw [hrejected]
      exact iff_of_true (contained_contentError _ _) fun h => absurd h hheader

theorem csvText_iff {encoded : List Utf8.Byte} (hencoded : content.encoded = some encoded)
    {text : PyStr} : CsvText content text ↔ encoded.length ≤ MAX_CSV_DOCUMENT_BYTES ∧
      (∃ decoded, Utf8.decode false encoded = some decoded ∧ decodeSig decoded = text) ∧
        NUL ∉ text := by
  constructor
  · intro h
    obtain ⟨encoded', decoded, hencoded', hsize, hdecoded, htext⟩ := h.decoded
    rw [hencoded] at hencoded'
    cases hencoded'
    exact ⟨hsize, ⟨decoded, hdecoded, htext⟩, h.clean⟩
  · intro h
    obtain ⟨hsize, ⟨decoded, hdecoded, htext⟩, hclean⟩ := h
    exact ⟨⟨encoded, decoded, hencoded, hsize, hdecoded, htext⟩, hclean⟩

/-- `parse_csv_document` fails in its own way on these documents. -/
theorem parseCsvContent_contained_iff (hP : Documented P) (content : Content) :
    Contained (parseCsvContent P content) ↔ CsvImportable P content := by
  rw [parseCsvContent]
  cases hencoded : content.encoded with
  | none =>
    refine iff_of_false (not_contained_runtime _) fun h => ?_
    obtain ⟨_, hsome⟩ := encoded_isSome_iff.2 h.encodable
    rw [hencoded] at hsome
    cases hsome
  | some encoded =>
    have hencodable := encoded_isSome_iff.1 ⟨encoded, hencoded⟩
    have hunread : (∀ text, ¬ CsvText content text) → CsvImportable P content := fun hnone =>
      ⟨hencodable, fun text htext => absurd htext (hnone text), fun text _ _ _ htext =>
        absurd htext (hnone text)⟩
    dsimp only
    by_cases hsize : MAX_CSV_DOCUMENT_BYTES < encoded.length
    · rw [if_pos hsize]
      refine iff_of_true (contained_contentError _ _) (hunread fun text htext => ?_)
      have hle := ((csvText_iff hencoded).1 htext).1
      omega
    rw [if_neg hsize]
    cases hdecoded : Utf8.decode false encoded with
    | none =>
      refine iff_of_true (contained_contentError _ _) (hunread fun text htext => ?_)
      obtain ⟨_, ⟨_, hsome, -⟩, -⟩ := (csvText_iff hencoded).1 htext
      rw [hdecoded] at hsome
      cases hsome
    | some decoded =>
      have htext : ∀ text, CsvText content text ↔
          decodeSig decoded = text ∧ NUL ∉ text := by
        intro text
        rw [csvText_iff hencoded, and_iff_right (Nat.le_of_not_lt hsize), hdecoded]
        simp
      have hfree : ∀ c ∈ decoded, isSurrogate c = false := by
        intro c hc
        rw [← Bool.not_eq_true, isSurrogate_iff]
        exact Utf8.decode_scalar hdecoded c hc
      rw [parseCsvText_contained_iff hP hfree]
      constructor
      · intro h
        refine ⟨hencodable, fun text hcsv => ?_, fun text columns records failed hcsv => ?_⟩
        · obtain ⟨rfl, hclean⟩ := (htext text).1 hcsv
          exact (h hclean).1
        · obtain ⟨rfl, hclean⟩ := (htext text).1 hcsv
          exact (h hclean).2 columns records failed
      · intro h hclean
        have hcsv := (htext _).2 ⟨rfl, hclean⟩
        exact ⟨h.header _ hcsv, fun columns records failed => h.rows _ columns records failed hcsv⟩

end Documents

end Expensea.Connectors
