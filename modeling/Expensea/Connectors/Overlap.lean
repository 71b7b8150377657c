import Expensea.Connectors.CsvImport
import Expensea.Reconciliation.Errors

namespace Expensea.Connectors

open Txn
open Ingestion
open Reconciliation (Config Ordinary)

/-!
# Overlapping documents

A row that stands in two CSV documents, delivered through one connection from both.

* `canonicalText_locator` — the canonical text of an envelope has its locator;
* `storeEnvelope_stored` — the raw event that a stored envelope ends with;
* `Replays` — a delivery that ends with a raw event stored before;
* `csv_replay_iff` — the second delivery replays the first exactly if the documents are the same
  and the row stands at the same place;
* `csv_replay_shifted` — a row that moved by one line.
-/

/-! ### The locator in the canonical text -/

/-- The decimal digits of a number tell it. -/
theorem natText_injective : Function.Injective natText := by
  intro m n h
  have hchar : Function.Injective fun c : Char => (Fin.ofNat 0x110000 c.toNat : CodePoint) := by
    intro c d hcd
    have hbound : ∀ c : Char, c.toNat < 0x110000 := by
      intro c
      rcases c.valid with hlow | hhigh
      · exact hlow.trans (by decide)
      · exact hhigh.2
    have hval : c.toNat % 0x110000 = d.toNat % 0x110000 := congrArg Fin.val hcd
    rw [Nat.mod_eq_of_lt (hbound c), Nat.mod_eq_of_lt (hbound d)] at hval
    exact Char.toNat_inj.1 hval
  have hdigits : Nat.toDigits 10 m = Nat.toDigits 10 n := List.map_injective_iff.2 hchar h
  rw [← Nat.ofDigitChars_ten_toDigits (n := m), hdigits, Nat.ofDigitChars_ten_toDigits]

/-- The text of a CSV locator: the hash of the file and the row, each between the same texts. -/
theorem jsonObject_locator : ∃ before between after : PyStr, ∀ a b : PyStr,
    jsonObject [("fileHash", a), ("row", b)] = before ++ a ++ (between ++ b ++ after) := by
  have hle : textLe (py "fileHash") (py "row") = true := by decide +kernel
  refine ⟨py "\x7b" ++ (jsonString (py "fileHash") ++ py ":"),
    py "," ++ (jsonString (py "row") ++ py ":"), py "\x7d", fun a b => ?_⟩
  simp only [jsonObject, List.map_cons, List.map_nil, List.insertionSort_cons,
    List.insertionSort_nil, List.orderedInsert_nil, List.orderedInsert_cons, hle, if_true,
    commaSeparated, List.intercalate_cons_cons, List.intercalate_singleton, List.append_assoc]

/-- The text of an envelope: its locator between texts that do not depend on it. -/
theorem jsonObject_envelope (eventType occurredAt payload excerpt : PyStr) :
    ∃ before after : PyStr, ∀ locator : PyStr,
      jsonObject [("event_type", eventType), ("occurred_at", occurredAt), ("payload", payload),
        ("locator", locator), ("evidence_excerpt", excerpt)] = before ++ locator ++ after := by
  -- the keys in their order: event_type, evidence_excerpt, locator, occurred_at, payload
  have htype : textLe (py "event_type") (py "evidence_excerpt") = true := by decide +kernel
  have hoccurred : textLe (py "occurred_at") (py "evidence_excerpt") = false := by decide +kernel
  have hpayload : textLe (py "payload") (py "evidence_excerpt") = false := by decide +kernel
  have hlocator : textLe (py "locator") (py "evidence_excerpt") = false := by decide +kernel
  have hpayload' : textLe (py "payload") (py "locator") = false := by decide +kernel
  have hoccurred' : textLe (py "occurred_at") (py "locator") = false := by decide +kernel
  have hlast : textLe (py "occurred_at") (py "payload") = true := by decide +kernel
  refine ⟨py "\x7b" ++ ((jsonString (py "event_type") ++ py ":" ++ eventType) ++ py "," ++
      ((jsonString (py "evidence_excerpt") ++ py ":" ++ excerpt) ++ py "," ++
        (jsonString (py "locator") ++ py ":"))),
    py "," ++ ((jsonString (py "occurred_at") ++ py ":" ++ occurredAt) ++ py "," ++
      (jsonString (py "payload") ++ py ":" ++ payload)) ++ py "\x7d", fun locator => ?_⟩
  simp only [jsonObject, List.map_cons, List.map_nil, List.insertionSort_cons,
    List.insertionSort_nil, List.orderedInsert_nil, List.orderedInsert_cons, htype, hoccurred,
    hpayload, hlocator, hpayload', hoccurred', hlast, if_true, Bool.false_eq_true, if_false,
    commaSeparated, List.intercalate_cons_cons, List.intercalate_singleton, List.append_assoc]

/-- The digest is 64 hexadecimal digits. -/
def HexDigest (P : Platform) : Prop :=
  ∀ s, (P.sha256 s).length = 64 ∧ ∀ c ∈ P.sha256 s, isLowerOrDigit c = true

/-- A digest needs no escapes. -/
theorem jsonString_digest {s : PyStr} (h : ∀ c ∈ s, isLowerOrDigit c = true) :
    jsonString s = py "\"" ++ s ++ py "\"" := by
  have hchar : ∀ c : CodePoint, isLowerOrDigit c = true → jsonChar c = [c] := by
    intro c hc
    have hrange : 0x30 ≤ c.val ∧ (c.val ≤ 0x39 ∨ 0x61 ≤ c.val) := by
      rw [isLowerOrDigit, Bool.or_eq_true, isLower, Bool.and_eq_true, decide_eq_true_eq] at hc
      rcases hc with hlower | hdigit
      · have hlow : 0x61 ≤ c.val := hlower.1
        omega
      · rw [asciiDigit] at hdigit
        split at hdigit
        · rename_i hbounds
          exact ⟨hbounds.1, .inl hbounds.2⟩
        · cases hdigit
    have hne : ∀ d : CodePoint, d.val < 0x30 ∨ d.val = 0x5C → c ≠ d := by
      intro d hd he
      rw [he] at hrange
      omega
    rw [jsonChar, if_neg (hne _ (by decide)), if_neg (hne _ (by decide)), if_neg (hne _ (by decide)),
      if_neg (hne _ (by decide)), if_neg (hne _ (by decide)), if_neg (hne _ (by decide)),
      if_neg (hne _ (by decide)), if_neg]
    intro hcontrol
    have hlow : c.val < 0x20 := hcontrol
    omega
  have hflat : s.flatMap jsonChar = s := by
    induction s with
    | nil => rfl
    | cons c s ih =>
      rw [List.flatMap_cons, hchar c (h c List.mem_cons_self),
        ih fun d hd => h d (List.mem_cons_of_mem _ hd)]
      rfl
  rw [jsonString, hflat]

/-- The locator of the row with a number in a file. -/
def csvLocator (fileHash : PyStr) (rowNumber : Nat) : Fields :=
  [("fileHash", .str fileHash), ("row", .int rowNumber)]

/-- The text of a locator tells the hash of the file and the row. -/
theorem csvLocator_text {P : Platform} (hex : HexDigest P) {s t : PyStr} {m n : Nat}
    (h : jsonFields P.isoformat (csvLocator (P.sha256 s) m) =
      jsonFields P.isoformat (csvLocator (P.sha256 t) n)) : P.sha256 s = P.sha256 t ∧ m = n := by
  obtain ⟨before, between, after, hobject⟩ := jsonObject_locator
  have htext : ∀ (u : PyStr) (k : Nat), jsonFields P.isoformat (csvLocator (P.sha256 u) k) =
      before ++ (py "\"" ++ P.sha256 u ++ py "\"") ++ (between ++ natText k ++ after) := by
    intro u k
    rw [← jsonString_digest (hex u).2, ← hobject]
    rfl
  rw [htext s m, htext t n, List.append_assoc before, List.append_assoc before,
    List.append_cancel_left_eq] at h
  have hlength : (py "\"" ++ P.sha256 s ++ py "\"").length =
      (py "\"" ++ P.sha256 t ++ py "\"").length := by
    rw [List.length_append, List.length_append, List.length_append, List.length_append, (hex s).1,
      (hex t).1]
  obtain ⟨hdigest, hrow⟩ := List.append_inj h hlength
  rw [List.append_cancel_right_eq, List.append_cancel_left_eq] at hdigest
  rw [List.append_cancel_right_eq, List.append_cancel_left_eq] at hrow
  exact ⟨hdigest, natText_injective hrow⟩

/-- Envelopes that differ in their locators only have the same text if the locators have. -/
theorem canonicalText_locator {P : Platform} {a b : ConnectorEnvelope}
    (htype : a.eventType = b.eventType) (hoccurred : a.occurredAt = b.occurredAt)
    (hpayload : a.payload = b.payload) (hexcerpt : a.evidenceExcerpt = b.evidenceExcerpt)
    (h : canonicalText P a = canonicalText P b) :
    jsonFields P.isoformat a.locator = jsonFields P.isoformat b.locator := by
  obtain ⟨before, after, hobject⟩ := jsonObject_envelope (jsonString b.eventType)
    (jsonOptional (b.occurredAt.map fun t => P.isoformat (Instant.toDateTime t)))
    (jsonFields P.isoformat b.payload) (jsonOptional b.evidenceExcerpt)
  rw [canonicalText, canonicalText, htype, hoccurred, hpayload, hexcerpt, hobject, hobject,
    List.append_cancel_right_eq, List.append_cancel_left_eq] at h
  exact h

/-! ### One row of two documents -/

/-- The values of a row of a document. -/
def RowOf (P : Platform) (content : PyStr) (i : Nat) (values : RowValues) : Prop :=
  ∃ table record, csvTable (decodeSig content) = .ok table ∧ table.rows[i]? = some record ∧
    rowValues P.unicode table.columns record = some values

/-- Rows of two documents with the same values. -/
def SameRow (P : Platform) (contentA : PyStr) (i : Nat) (contentB : PyStr) (j : Nat) : Prop :=
  ∃ valuesA valuesB, RowOf P contentA i valuesA ∧ RowOf P contentB j valuesB ∧
    ∀ column, valuesA.present column = valuesB.present column

/-- What the envelopes of the same row of two documents have in common. -/
structure SameContent (a b : ConnectorEnvelope) : Prop where
  externalEventId : a.externalEventId = b.externalEventId
  eventType : a.eventType = b.eventType
  occurredAt : a.occurredAt = b.occurredAt
  payload : a.payload = b.payload
  evidenceExcerpt : a.evidenceExcerpt = b.evidenceExcerpt

section Rows

variable {P : Platform} {content : PyStr} {events : List ConnectorEnvelope} {i : Nat}
  {a b : ConnectorEnvelope}

/-- The envelope of a row. -/
theorem parseCsvDocument_row (h : parseCsvDocument P content = .ok events)
    (hi : events[i]? = some a) : ∃ values, RowOf P content i values ∧
      valuesEnvelope P values (2 + i) (P.sha256 content) = .ok a := by
  obtain ⟨table, htable, hrows⟩ := parseCsvDocument_ok h
  obtain ⟨record, hrecord, hrow⟩ := rowEnvelopes_getElem? hrows hi
  rw [rowEnvelope] at hrow
  split at hrow
  · cases hrow
  · rename_i values hvalues
    exact ⟨values, ⟨table, record, htable, hrecord, hvalues⟩, hrow⟩

theorem RowOf.unique {values values' : RowValues} (h : RowOf P content i values)
    (h' : RowOf P content i values') : values = values' := by
  obtain ⟨table, record, htable, hrecord, hvalues⟩ := h
  obtain ⟨table', record', htable', hrecord', hvalues'⟩ := h'
  rw [htable] at htable'
  cases htable'
  rw [hrecord] at hrecord'
  cases hrecord'
  rw [hvalues] at hvalues'
  exact Option.some.inj hvalues'

/-- The time of a row does not depend on where it stands. -/
theorem optionalDatetime_ok {value : Option PyStr} {m n : Nat} {t t' : Option DateTime}
    (h : optionalDatetime P value m = .ok t) (h' : optionalDatetime P value n = .ok t') : t = t' := by
  unfold optionalDatetime at h h'
  cases value with
  | none => exact (Except.ok.inj h).symm.trans (Except.ok.inj h')
  | some text =>
    dsimp only at h h'
    split at h
    · rename_i hparse
      rw [hparse] at h'
      exact (Except.ok.inj h).symm.trans (Except.ok.inj h')
    · cases h

/-- The envelopes of rows with the same values. -/
theorem valuesEnvelope_same {valuesA valuesB : RowValues} {m n : Nat} {hashA hashB : PyStr}
    (hsame : ∀ column, valuesA.present column = valuesB.present column)
    (ha : valuesEnvelope P valuesA m hashA = .ok a) (hb : valuesEnvelope P valuesB n hashB = .ok b) :
    SameContent a b ∧ a.locator = csvLocator hashA m ∧ b.locator = csvLocator hashB n := by
  obtain ⟨kindA, descriptionA, tA, hkindA, hdescriptionA, htA, hmakeA⟩ := valuesEnvelope_ok ha
  obtain ⟨kindB, descriptionB, tB, hkindB, hdescriptionB, htB, hmakeB⟩ := valuesEnvelope_ok hb
  rw [hsame] at hkindA hdescriptionA htA hmakeA
  rw [hkindA] at hkindB
  rw [hdescriptionA] at hdescriptionB
  cases hkindB
  cases hdescriptionB
  have ht := optionalDatetime_ok htA htB
  rw [ht] at hmakeA
  have hpayload : rowPayload valuesA kindA descriptionA tB = rowPayload valuesB kindA descriptionA tB := by
    simp only [rowPayload, hsame]
  obtain ⟨hpayloadA, hlocatorA, hoccurredA, hexternalA, htypeA, hexcerptA⟩ := makeEnvelope_ok hmakeA
  obtain ⟨hpayloadB, hlocatorB, hoccurredB, hexternalB, htypeB, hexcerptB⟩ := makeEnvelope_ok hmakeB
  refine ⟨⟨?_, ?_, ?_, ?_, ?_⟩, hlocatorA, hlocatorB⟩
  · rw [hexternalA] at hexternalB
    exact Except.ok.inj hexternalB
  · rw [htypeA] at htypeB
    exact Except.ok.inj htypeB
  · rw [hoccurredA] at hoccurredB
    exact Except.ok.inj hoccurredB
  · rw [hpayloadA, hpayloadB, hpayload]
  · rw [hexcerptA] at hexcerptB
    exact Except.ok.inj hexcerptB

end Rows

/-! ### The stored event -/

/-- The keys of `raw_events`. -/
structure RawEventKeys (g : Db) : Prop where
  ids : ∀ r ∈ g.rawEvents, ∀ r' ∈ g.rawEvents, r.id = r'.id → r = r'
  identities : ∀ r ∈ g.rawEvents, ∀ r' ∈ g.rawEvents, r.sourceConnectionId = r'.sourceConnectionId →
    r.identityKey = r'.identityKey → r = r'

/-- The raw event has the identity of an envelope of a connection. -/
structure Identifies (userId connectionId : Uuid) (identityKey : PyStr) (raw : RawEvent) : Prop where
  userId : raw.userId = userId
  connection : raw.sourceConnectionId = connectionId
  identity : raw.identityKey = identityKey

/-- The error of an identity with other content. -/
def contentMismatch : AppError := .ingestionConflict "SOURCE_IDENTITY_CONTENT_MISMATCH"
  "A source identity was redelivered with different content."

section Stored

variable {rawEventId userId connectionId : Uuid} {envelope : ConnectorEnvelope}
  {identityKey contentHash : PyStr} {payload : Fields} {raw : RawEvent} {g g' : Db}

theorem RawEventKeys.mono (h : RawEventKeys g) (hsub : ∀ r ∈ g'.rawEvents, r ∈ g.rawEvents) :
    RawEventKeys g' :=
  ⟨fun r hr r' hr' => h.ids r (hsub r hr) r' (hsub r' hr'), fun r hr r' hr' =>
    h.identities r (hsub r hr) r' (hsub r' hr')⟩

theorem identified_iff : identified userId connectionId identityKey raw = true ↔
    Identifies userId connectionId identityKey raw := by
  rw [identified, Bool.and_eq_true, Bool.and_eq_true, beq_iff_eq, beq_iff_eq, beq_iff_eq]
  constructor
  · intro h
    exact ⟨h.1.1, h.1.2, h.2⟩
  · intro h
    exact ⟨⟨h.userId, h.connection⟩, h.identity⟩

/-- The row that a search by identity finds. -/
theorem RawEventKeys.find_identified (h : RawEventKeys g) (hraw : raw ∈ g.rawEvents)
    (hid : Identifies userId connectionId identityKey raw) :
    g.rawEvents.find? (identified userId connectionId identityKey) = some raw := by
  refine Table.find?_of_unique hraw (identified_iff.2 hid) fun r hr hfound => ?_
  have hr' := identified_iff.1 hfound
  exact h.identities r hr raw hraw (hr'.connection.trans hid.connection.symm)
    (hr'.identity.trans hid.identity.symm)

/-- The row that a search by key finds. -/
theorem RawEventKeys.find_id (h : RawEventKeys g) (hraw : raw ∈ g.rawEvents) :
    g.rawEvents.find? (fun r => r.id == raw.id && r.userId == raw.userId) = some raw := by
  refine Table.find?_of_unique hraw (by simp) fun r hr hfound => ?_
  rw [Bool.and_eq_true, beq_iff_eq] at hfound
  exact h.ids r hr raw hraw hfound.1

/-- Storing an envelope whose identity is stored: the content decides. -/
theorem storeRawEvent_again (hkeys : RawEventKeys g) (hraw : raw ∈ g.rawEvents)
    (hid : Identifies userId connectionId identityKey raw)
    (hstorable : storableEnvelope envelope identityKey payload = true)
    (hnamed : Ledger.notBlank envelope.eventType = true) (rawEventId : Uuid) :
    (raw.contentSha256 = contentHash → ∃ g', (storeRawEvent rawEventId userId connectionId envelope
      identityKey contentHash payload).run g = .ok (⟨raw.id, false, contentHash⟩, g')) ∧
    (raw.contentSha256 ≠ contentHash → (storeRawEvent rawEventId userId connectionId envelope
      identityKey contentHash payload).run g = .error contentMismatch) := by
  have hconflict : (g.rawEvents.any fun r =>
      r.sourceConnectionId == connectionId && r.identityKey == identityKey) = true :=
    List.any_eq_true.2 ⟨raw, hraw, by simp [hid.connection, hid.identity]⟩
  have hfind := hkeys.find_id hraw
  rw [hid.userId] at hfind
  unfold storeRawEvent
  simp only [Tx.run_bind, run_require, hstorable, hnamed, if_true, run_insertOrIgnore, hconflict,
    Tx.run_reads, Bool.false_eq_true, if_false, run_requireSome, hkeys.find_identified hraw hid,
    Option.map_some, hfind]
  constructor
  · intro hcontent
    rw [hcontent]
    by_cases hprocessing : (g.processing.any fun p => p.rawEventId == raw.id) = true
    · refine ⟨g, ?_⟩
      simp [hprocessing]
    · refine ⟨{ g with processing := g.processing ++ [⟨raw.id, userId, .received, 0, none⟩] }, ?_⟩
      simp [hprocessing]
  · intro hcontent
    simp [hcontent, contentMismatch]

/-- A raw event that was stored is in the table. -/
theorem storeRawEvent_stored : (storeRawEvent rawEventId userId connectionId envelope identityKey
    contentHash payload).Ensures g fun stored g' =>
      storableEnvelope envelope identityKey payload = true ∧
        Ledger.notBlank envelope.eventType = true ∧ (RawEventKeys g' → ∃ raw ∈ g'.rawEvents,
          raw.id = stored.id ∧ Identifies userId connectionId identityKey raw ∧
            raw.contentSha256 = contentHash) := by
  -- the row selected by its identity and the row with the content have one key
  have hrow : ∀ {g' : Db} {selected : Uuid}, RawEventKeys g' →
      (∃ r ∈ g'.rawEvents, r.id = selected ∧ Identifies userId connectionId identityKey r) →
      ((g'.rawEvents.find? fun r => r.id == selected && r.userId == userId).map
        RawEvent.contentSha256) = some contentHash →
      ∃ raw ∈ g'.rawEvents, raw.id = selected ∧ Identifies userId connectionId identityKey raw ∧
        raw.contentSha256 = contentHash := by
    intro g' selected hkeys hidentified hhash
    obtain ⟨r, hr, hid, hidentifies⟩ := hidentified
    obtain ⟨r', hfound, hcontent⟩ := Option.map_eq_some_iff.1 hhash
    have hmem := List.mem_of_find?_eq_some hfound
    have hkey := List.find?_some hfound
    rw [Bool.and_eq_true, beq_iff_eq] at hkey
    obtain rfl := hkeys.ids r hr r' hmem (hid.trans hkey.1.symm)
    exact ⟨r, hr, hid, hidentifies, hcontent⟩
  unfold storeRawEvent
  simp only [Tx.ensures_bind, ensures_require, ensures_insertOrIgnore, Tx.ensures_reads,
    ensures_requireSome, Tx.ensures_pure, decide_eq_true_eq]
  intro hstorable hnamed
  refine ⟨fun _ selected hselected hhash => ⟨fun _ => ?_, fun _ _ => ?_⟩,
    fun _ _ selected hselected hhash => ⟨fun _ => ?_, fun _ _ => ?_⟩⟩
  all_goals refine ⟨hstorable, hnamed, fun hkeys => hrow (hkeys.mono fun _ h => h) ?_ hhash⟩
  all_goals simp only [Bool.false_eq_true, if_false, if_true] at hselected
  -- the identity was stored before
  · obtain ⟨r, hfound, rfl⟩ := Option.map_eq_some_iff.1 hselected
    exact ⟨r, List.mem_of_find?_eq_some hfound, rfl, identified_iff.1 (List.find?_some hfound)⟩
  · obtain ⟨r, hfound, rfl⟩ := Option.map_eq_some_iff.1 hselected
    exact ⟨r, List.mem_of_find?_eq_some hfound, rfl, identified_iff.1 (List.find?_some hfound)⟩
  -- it is stored now
  · exact ⟨_, List.mem_append_right _ (List.mem_singleton_self _), Option.some.inj hselected, rfl, rfl, rfl⟩
  · exact ⟨_, List.mem_append_right _ (List.mem_singleton_self _), Option.some.inj hselected, rfl, rfl, rfl⟩

end Stored

/-! ### The rest of a delivery -/

/-- The program never ends with a content mismatch. -/
def Matches {α : Type} (x : DbTx α) : Prop := x.Throws (· ≠ contentMismatch)

/-- The errors of the shared programs are no content mismatch. -/
theorem matched : Ordinary (· ≠ contentMismatch) where
  data := fun _ h => by cases h
  integrity := fun _ _ h => by cases h
  runtime := fun _ h => by cases h
  overflow := fun h => by cases h
  notFound := fun _ _ h => by cases h
  conflict := fun _ _ h => by cases h

section Delivery

variable {C : Config} {fresh : FreshIds} {userId : Uuid} {connector : Connector}
  {connection : SourceConnection} {envelope : ConnectorEnvelope} {stored : StoredRawEvent}
  {g g' : Db}

theorem matches_transition (current target : RawEventState) :
    Matches (requireStateTransition current target) := by
  refine throws_require fun h => ?_
  have hcode : "INVALID_INGESTION_STATE_TRANSITION" ≠ "SOURCE_IDENTITY_CONTENT_MISMATCH" := by decide
  exact hcode (AppError.ingestionConflict.inj h).1

theorem matches_moveTo (processing : RawEventProcessing) (target : RawEventState)
    (errorCode : Option String) : Matches (moveTo processing target errorCode) :=
  (matches_transition _ _).bind fun _ => (Reconciliation.throws_setProcessing _ _).bind fun _ =>
    Tx.throws_pure _

theorem matches_markFailed (errorCode : String) : Matches (markFailed userId stored errorCode) := by
  refine (Reconciliation.throws_lockProcessing matched _).bind fun processing => ?_
  split
  · exact Reconciliation.throws_finishedResult _ _ _
  · exact (matches_moveTo _ _ _).bind fun _ => Tx.throws_pure _

theorem matches_queueReview (processing : RawEventProcessing) (errorCode : String) :
    Matches (queueReview processing errorCode) :=
  (matches_moveTo _ _ _).bind fun _ => Tx.throws_pure _

theorem matches_settleOutcome (processing : RawEventProcessing)
    (outcome : Reconciliation.ReconciliationProcessingOutcome) :
    Matches (settleOutcome processing outcome) := by
  unfold settleOutcome
  split
  · exact matches_queueReview _ _
  · refine (throws_requireSome fun h => ?_).bind fun transactionId => ?_
    · have hcode : "RECONCILIATION_TARGET_MISSING" ≠ "SOURCE_IDENTITY_CONTENT_MISMATCH" := by decide
      exact hcode (AppError.ingestionConflict.inj h).1
    · exact (matches_moveTo _ _ _).bind fun _ => Tx.throws_pure _

theorem matches_postOrQueueReview (processing : RawEventProcessing)
    (event : NormalizedFinancialEvent) :
    Matches (postOrQueueReview C fresh userId envelope processing event) := by
  unfold postOrQueueReview
  split
  · refine (Reconciliation.throws_classify _ _ _).bind fun assignment => ?_
    refine (Reconciliation.throws_resolveCategory _ _ _).bind fun categoryId => ?_
    cases hcommand : Reconciliation.eventCommand C.platform.unicode event _ _ _ _ assignment
        categoryId with
    | ok command =>
      refine (Reconciliation.throws_reconcileTransaction matched (.inr fun h => ?_)).bind fun outcome =>
        matches_settleOutcome _ _
      cases h
    | error e =>
      rcases Reconciliation.eventCommand_error hcommand with hledger | hoverflow
      · obtain ⟨l, rfl⟩ := hledger
        exact matches_queueReview _ _
      · rw [hoverflow]
        intro h
        cases h
  · exact matches_queueReview _ _

theorem matches_processNormalized (normalized : NormalizedFinancialEventV1) :
    Matches (processNormalized C fresh userId connection envelope stored normalized) := by
  refine (Reconciliation.throws_lockProcessing matched _).bind fun processing => ?_
  split
  · exact Reconciliation.throws_finishedResult _ _ _
  · refine (Reconciliation.throws_storeNormalizedEvent matched).bind fun persisted => ?_
    refine Tx.throws_bind ?_ fun processing' => ?_
    · refine (throws_require fun h => ?_).bind fun _ =>
        (Reconciliation.throws_setProcessing _ _).bind fun _ => Tx.throws_pure _
      have hcode : "INVALID_INGESTION_STATE_TRANSITION" ≠ "SOURCE_IDENTITY_CONTENT_MISMATCH" := by
        decide
      exact hcode (AppError.ingestionConflict.inj h).1
    · exact (matches_postOrQueueReview _ _).bind fun _ => Tx.throws_pure _

/-- After the raw event is stored, nothing ends with a content mismatch. -/
theorem matches_continueDelivery (terminal : Option IngestionResult) :
    Matches (continueDelivery C fresh userId connector connection envelope stored terminal) := by
  cases terminal with
  | some result => exact Tx.throws_pure _
  | none =>
    show Matches (finishDelivery C fresh userId connection envelope stored
      (connector.normalize envelope))
    cases connector.normalize envelope with
    | event normalized => exact matches_processNormalized _
    | contentError code => exact matches_markFailed _
    | uncaught e =>
      intro h
      cases e with
      | invalid => cases h
      | overflow => cases h

/-- The result of a delivery is about the raw event it stored. -/
def AboutStored (stored : StoredRawEvent) (result : IngestionResult) : Prop :=
  result.rawEventId = stored.id ∧ result.replayed = !stored.created

theorem about_finishedResult (processing : RawEventProcessing) :
    (finishedResult userId stored processing).Returns (AboutStored stored) :=
  Tx.returns_bind fun _ => Tx.returns_bind fun _ => Tx.returns_pure ⟨rfl, rfl⟩

theorem about_finishDelivery (result : NormalizeResult) :
    (finishDelivery C fresh userId connection envelope stored result).Returns (AboutStored stored) := by
  cases result with
  | event normalized =>
    refine Tx.returns_bind fun processing => ?_
    split
    · exact about_finishedResult _
    · refine Tx.returns_bind fun persisted => Tx.returns_bind fun processing' => ?_
      exact Tx.returns_bind fun _ => Tx.returns_pure ⟨rfl, rfl⟩
  | contentError code =>
    refine Tx.returns_bind fun processing => ?_
    split
    · exact about_finishedResult _
    · exact Tx.returns_bind fun _ => Tx.returns_pure ⟨rfl, rfl⟩
  | uncaught e => trivial

theorem about_terminalResult : (terminalResult userId stored).Returns fun terminal =>
    ∀ result ∈ terminal, AboutStored stored result := by
  refine Tx.returns_bind fun processing => ?_
  split
  · refine (about_finishedResult processing).bind fun result habout => Tx.returns_pure ?_
    intro result' hsome
    rw [← Option.some.inj hsome]
    exact habout
  · refine Tx.returns_pure fun result hnone => ?_
    cases hnone

/-- What a delivery returns is about the raw event that its envelope is stored as. -/
theorem about_ingestForConnection {result : IngestionResult}
    (h : (ingestForConnection C fresh userId connector connection envelope).run g = .ok (result, g')) :
    ∃ stored g₁, (storeEnvelope C fresh userId connection envelope).run g = .ok (stored, g₁) ∧
      AboutStored stored result := by
  obtain ⟨stored, g₁, hstored, hrest⟩ := Tx.run_bind_ok.1 h
  refine ⟨stored, g₁, hstored, ?_⟩
  have habout : (terminalResult userId stored >>=
      continueDelivery C fresh userId connector connection envelope stored).Returns
        (AboutStored stored) := by
    refine about_terminalResult.bind fun terminal hterminal => ?_
    cases terminal with
    | some result => exact Tx.returns_pure (hterminal result rfl)
    | none => exact about_finishDelivery _
  exact habout.run_ok hrest

/-- A delivery ends with a content mismatch where its envelope is stored. -/
theorem ingestForConnection_mismatch
    (h : (ingestForConnection C fresh userId connector connection envelope).run g =
      .error contentMismatch) :
    (storeEnvelope C fresh userId connection envelope).run g = .error contentMismatch := by
  rcases Tx.run_bind_error.1 h with hstore | hrest
  · exact hstore
  · obtain ⟨stored, g₁, -, hrest⟩ := hrest
    have hmatches : Matches (terminalResult userId stored >>=
        continueDelivery C fresh userId connector connection envelope stored) := by
      have hprocessing : Matches (getProcessing userId stored.id) :=
        (Tx.throws_reads _).bind fun _ => throws_requireSome (matched.runtime _)
      refine Tx.throws_bind ?_ fun terminal => matches_continueDelivery terminal
      refine hprocessing.bind fun processing => ?_
      split
      · exact (Reconciliation.throws_finishedResult _ _ _).bind fun _ => Tx.throws_pure _
      · exact Tx.throws_pure _
    exact absurd rfl (hmatches.run_error hrest)

end Delivery

/-! ### The second delivery -/

/-- No two of the texts have one digest. -/
def CollisionFree (P : Platform) (texts : List PyStr) : Prop :=
  ∀ s ∈ texts, ∀ t ∈ texts, P.sha256 s = P.sha256 t → s = t

/-- A delivery replays a stored raw event: its envelope is stored as that event, it does not end
    with a content mismatch, and its result is about that event. -/
structure Replays (C : Config) (fresh : FreshIds) (userId : Uuid) (connector : Connector)
    (connection : SourceConnection) (envelope : ConnectorEnvelope) (rawEventId : Uuid) (g : Db) :
    Prop where
  stored : ∃ stored g', (storeEnvelope C fresh userId connection envelope).run g = .ok (stored, g') ∧
    stored.id = rawEventId ∧ stored.created = false
  matching : (ingestForConnection C fresh userId connector connection envelope).run g ≠
    .error contentMismatch
  result : ∀ result g', (ingestForConnection C fresh userId connector connection envelope).run g =
    .ok (result, g') → result.rawEventId = rawEventId ∧ result.replayed = true

/-- An envelope is stored if its canonical form is. -/
theorem storeEnvelope_ok_iff {C : Config} {fresh : FreshIds} {userId : Uuid}
    {connection : SourceConnection} {envelope : ConnectorEnvelope} {g : Db} {r : StoredRawEvent × Db} :
    (storeEnvelope C fresh userId connection envelope).run g = .ok r ↔
      ∃ payload, canonicalEnvelope C.platform envelope = .ok payload ∧
        (storeRawEvent fresh.rawEvent userId connection.id envelope
          (eventIdentityKey envelope (contentSha256 C.platform envelope))
          (contentSha256 C.platform envelope) payload).run g = .ok r := by
  rw [storeEnvelope, Tx.run_bind, run_ofExcept]
  cases canonicalEnvelope C.platform envelope with
  | error e =>
    refine iff_of_false (fun h => ?_) fun h => ?_
    · cases h
    · obtain ⟨_, hnone, -⟩ := h
      cases hnone
  | ok payload =>
    constructor
    · intro h
      exact ⟨payload, rfl, h⟩
    · intro h
      obtain ⟨_, hpayload, hrun⟩ := h
      cases hpayload
      exact hrun

/-- **Overlapping documents.**  A row that stands in two documents, with an external id, is stored
    from the first one; delivered from the second one at any later time, it replays the stored
    event exactly if the documents are the same and the row stands at the same place. -/
theorem csv_replay_iff {C : Config} (hex : HexDigest C.platform) {contentA contentB : PyStr}
    {eventsA eventsB : List ConnectorEnvelope}
    (hparsedA : parseCsvDocument C.platform contentA = .ok eventsA)
    (hparsedB : parseCsvDocument C.platform contentB = .ok eventsB) {i j : Nat}
    {a b : ConnectorEnvelope} (ha : eventsA[i]? = some a) (hb : eventsB[j]? = some b)
    (hsame : SameRow C.platform contentA i contentB j) (hid : a.externalEventId.isSome = true)
    (hdigest : CollisionFree C.platform
      [contentA, contentB, canonicalText C.platform a, canonicalText C.platform b])
    {fresh : FreshIds} {userId : Uuid} {connection : SourceConnection} {stored : StoredRawEvent}
    {g₀ g₁ g : Db}
    (hfirst : (storeEnvelope C fresh userId connection a).run g₀ = .ok (stored, g₁))
    (hkept : ∀ r ∈ g₁.rawEvents, r ∈ g.rawEvents) (hkeys : RawEventKeys g) (fresh' : FreshIds)
    (connector : Connector) :
    Replays C fresh' userId connector connection b stored.id g ↔ contentA = contentB ∧ i = j := by
  obtain ⟨valuesA, hrowA, hvaluesA⟩ := parseCsvDocument_row hparsedA ha
  obtain ⟨valuesB, hrowB, hvaluesB⟩ := parseCsvDocument_row hparsedB hb
  have hpresent : ∀ column, valuesA.present column = valuesB.present column := by
    obtain ⟨valuesA', valuesB', hrowA', hrowB', hpresent⟩ := hsame
    rw [hrowA.unique hrowA', hrowB.unique hrowB']
    exact hpresent
  obtain ⟨hcommon, hlocatorA, hlocatorB⟩ := valuesEnvelope_same hpresent hvaluesA hvaluesB
  -- the identity is the external id
  have hidentity : eventIdentityKey a (contentSha256 C.platform a) =
      eventIdentityKey b (contentSha256 C.platform b) := by
    obtain ⟨id, hsome⟩ := Option.isSome_iff_exists.1 hid
    rw [eventIdentityKey, eventIdentityKey, ← hcommon.externalEventId, hsome]
  obtain ⟨payload, hpayload, hstored⟩ := storeEnvelope_ok_iff.1 hfirst
  obtain ⟨hstorable, hnamed, hraw⟩ := storeRawEvent_stored stored g₁ hstored
  obtain ⟨raw, hraw, hrawId, hidentifies, hcontent⟩ := hraw (hkeys.mono hkept)
  have hraw := hkept raw hraw
  have hagain := hidentifies
  rw [hidentity] at hagain
  constructor
  · intro hreplays
    obtain ⟨stored', g', hrun, -, -⟩ := hreplays.stored
    obtain ⟨payload', -, hstored'⟩ := storeEnvelope_ok_iff.1 hrun
    obtain ⟨hstorable', hnamed', -⟩ := storeRawEvent_stored stored' g' hstored'
    have hhash : raw.contentSha256 = contentSha256 C.platform b := by
      by_contra hne
      rw [(storeRawEvent_again hkeys hraw hagain hstorable' hnamed' _).2 hne] at hstored'
      cases hstored'
    have htext : canonicalText C.platform a = canonicalText C.platform b :=
      hdigest _ (by simp) _ (by simp) (hcontent.symm.trans hhash)
    have hlocator := canonicalText_locator hcommon.eventType hcommon.occurredAt hcommon.payload
      hcommon.evidenceExcerpt htext
    rw [hlocatorA, hlocatorB] at hlocator
    obtain ⟨hfile, hnumber⟩ := csvLocator_text hex hlocator
    exact ⟨hdigest _ (by simp) _ (by simp) hfile, by omega⟩
  · intro hplace
    obtain ⟨rfl, rfl⟩ := hplace
    rw [hparsedA] at hparsedB
    cases hparsedB
    rw [ha] at hb
    cases hb
    obtain ⟨g', hrun⟩ := (storeRawEvent_again hkeys hraw hidentifies hstorable hnamed
      fresh'.rawEvent).1 hcontent
    have hstore : (storeEnvelope C fresh' userId connection a).run g =
        .ok (⟨raw.id, false, contentSha256 C.platform a⟩, g') :=
      storeEnvelope_ok_iff.2 ⟨payload, hpayload, hrun⟩
    refine ⟨⟨_, g', hstore, hrawId, rfl⟩, fun hmismatch => ?_, fun result g₄ hresult => ?_⟩
    · have herror := ingestForConnection_mismatch hmismatch
      rw [hstore] at herror
      cases herror
    · obtain ⟨stored', g₅, hstore', habout⟩ := about_ingestForConnection hresult
      rw [hstore] at hstore'
      obtain ⟨rfl, -⟩ := Prod.mk.inj (Except.ok.inj hstore')
      exact ⟨habout.1.trans hrawId, habout.2⟩

/-! ### Tea, below another row -/

/-- A document with one row. -/
def teaDocument : PyStr := py "external_id,event_kind,description\nx1,expense,tea\n"

/-- A later document that has the row as well. -/
def laterDocument : PyStr :=
  py "external_id,event_kind,description\nx0,expense,milk\nx1,expense,tea\n"

/-- The SHA-256 digests of the documents, and of the canonical texts of the row in either. -/
def teaDigest (text : PyStr) : PyStr :=
  if text = teaDocument then
    py "53ca0a38a86a2e9e0b9d005c0dda611018424cbe6656c6a4ce3c99be488f7bd5"
  else if text = laterDocument then
    py "a4bb3c996d05fe01748d0646088469d09ec3390538241e7bc030d2729e0b40ab"
  else if contains (py "\"row\":2") text then
    py "587a92816b8608999a487f99405a8e349ad690864a573b6bb3b1006f136213e0"
  else py "1d5cb9ae4ffea11c9e3fe5b766ad45bfe3844310330bb4f9bc1b90292791b129"

/-- The platform on these documents, which have no times. -/
def teaPlatform : Platform where
  unicode := .plain
  sha256 := teaDigest
  isoformat := fun _ => py ""
  parseDatetime := fun _ => none
  uuidText := natText
  distinctOrder := id
  zones := ⟨fun _ => true, fun _ _ => 0⟩

/-- The default policy on that platform. -/
def teaConfig : Config := ⟨teaPlatform, .default⟩

/-- The envelopes of a document. -/
def teaEvents (content : PyStr) : List ConnectorEnvelope :=
  (parseCsvDocument teaPlatform content).toOption.getD []

/-- The header of the documents. -/
def teaColumns : List PyStr := [py "external_id", py "event_kind", py "description"]

/-- The cells of the row. -/
def teaCells : List PyStr := [py "x1", py "expense", py "tea"]

/-- The envelope of the row, by its place in a document. -/
def teaEnvelope (content : PyStr) (rowNumber : Nat) : ConnectorEnvelope :=
  ⟨some (py "x1"), py "csv_financial_event", none,
    [("event_kind", .str (py "expense")), ("description", .str (py "tea"))],
    csvLocator (teaDigest content) rowNumber, some (py "tea")⟩

/-- The connection of the documents. -/
def teaConnection : SourceConnection :=
  ⟨1, 1, .csvImport, py "bank", "CSV transaction import", .active, [], none, none⟩

/-- The identifiers of a delivery. -/
def teaIds : FreshIds := ⟨1, 1, 1, 1, 1, 1, 1, 1, 1, 1, 1, 1⟩

/-- The store after the row of the first document is stored. -/
def teaStored : Db :=
  (storeEnvelope teaConfig teaIds 1 teaConnection (teaEnvelope teaDocument 2)).after (Db.empty 0)

theorem teaEvents_parsed (content : PyStr)
    (h : (parseCsvDocument teaPlatform content).isOk = true) :
    parseCsvDocument teaPlatform content = .ok (teaEvents content) := by
  unfold teaEvents
  cases hparse : parseCsvDocument teaPlatform content with
  | error e =>
    rw [hparse] at h
    cases h
  | ok events => rfl

theorem teaDocument_parsed :
    parseCsvDocument teaPlatform teaDocument = .ok (teaEvents teaDocument) :=
  teaEvents_parsed teaDocument (by decide +kernel)

theorem teaDocument_row : (teaEvents teaDocument)[0]? = some (teaEnvelope teaDocument 2) := by
  decide +kernel

theorem teaPlatform_hex : HexDigest teaPlatform := by
  have hdigits : ∀ digest : PyStr, (digest.length == 64 && digest.all isLowerOrDigit) = true →
      digest.length = 64 ∧ ∀ c ∈ digest, isLowerOrDigit c = true := by
    intro digest h
    simpa using h
  intro s
  show (teaDigest s).length = 64 ∧ ∀ c ∈ teaDigest s, isLowerOrDigit c = true
  rw [teaDigest]
  split
  · exact hdigits _ (by decide +kernel)
  split
  · exact hdigits _ (by decide +kernel)
  split
  · exact hdigits _ (by decide +kernel)
  · exact hdigits _ (by decide +kernel)

theorem teaStored_run : ∃ stored,
    (storeEnvelope teaConfig teaIds 1 teaConnection (teaEnvelope teaDocument 2)).run (Db.empty 0) =
      .ok (stored, teaStored) := by
  refine Tx.run_of_commits ?_
  decide +kernel

theorem teaStored_keys : RawEventKeys teaStored := by
  have hone : teaStored.rawEvents.length = 1 := by decide +kernel
  obtain ⟨raw, hraw⟩ := List.length_eq_one_iff.1 hone
  have hall : ∀ r ∈ teaStored.rawEvents, r = raw := by
    rw [hraw]
    exact fun r hr => List.mem_singleton.1 hr
  exact ⟨fun r hr r' hr' _ => (hall r hr).trans (hall r' hr').symm, fun r hr r' hr' _ _ =>
    (hall r hr).trans (hall r' hr').symm⟩

/-- The row is delivered again from the same document. -/
theorem csv_replay_iff_again : ∃ stored,
    (storeEnvelope teaConfig teaIds 1 teaConnection (teaEnvelope teaDocument 2)).run (Db.empty 0) =
      .ok (stored, teaStored) ∧
    Replays teaConfig teaIds 1 (csvConnector .plain []) teaConnection (teaEnvelope teaDocument 2)
      stored.id teaStored := by
  obtain ⟨stored, hrun⟩ := teaStored_run
  obtain ⟨values, hvalues, -⟩ := parseCsvDocument_row teaDocument_parsed teaDocument_row
  have hdigest : CollisionFree teaPlatform [teaDocument, teaDocument,
      canonicalText teaPlatform (teaEnvelope teaDocument 2),
      canonicalText teaPlatform (teaEnvelope teaDocument 2)] := by
    have hne : teaDigest teaDocument ≠
        teaDigest (canonicalText teaPlatform (teaEnvelope teaDocument 2)) := by decide +kernel
    have hcases : ∀ s ∈ [teaDocument, teaDocument, canonicalText teaPlatform (teaEnvelope teaDocument 2),
        canonicalText teaPlatform (teaEnvelope teaDocument 2)], s = teaDocument ∨
          s = canonicalText teaPlatform (teaEnvelope teaDocument 2) := by simp
    intro s hs t ht heq
    rcases hcases s hs with rfl | rfl
    · rcases hcases t ht with rfl | rfl
      · rfl
      · exact absurd heq hne
    · rcases hcases t ht with rfl | rfl
      · exact absurd heq.symm hne
      · rfl
  refine ⟨stored, hrun, ?_⟩
  exact (csv_replay_iff teaPlatform_hex teaDocument_parsed teaDocument_parsed teaDocument_row
    teaDocument_row ⟨values, values, hvalues, hvalues, fun _ => rfl⟩ rfl hdigest hrun (fun _ hr => hr)
    teaStored_keys teaIds _).2 ⟨rfl, rfl⟩

/-- Below another row, the row is not replayed. -/
theorem csv_replay_shifted : ¬ ∀ (contentA contentB : PyStr)
    (eventsA eventsB : List ConnectorEnvelope),
    parseCsvDocument teaPlatform contentA = .ok eventsA →
    parseCsvDocument teaPlatform contentB = .ok eventsB →
    ∀ (i j : Nat) (a b : ConnectorEnvelope), eventsA[i]? = some a → eventsB[j]? = some b →
      SameRow teaPlatform contentA i contentB j → a.externalEventId.isSome = true →
        ∀ (stored : StoredRawEvent) (g : Db),
          (storeEnvelope teaConfig teaIds 1 teaConnection a).run (Db.empty 0) = .ok (stored, g) →
            Replays teaConfig teaIds 1 (csvConnector .plain []) teaConnection b stored.id g := by
  intro h
  have hparsedB := teaEvents_parsed laterDocument (by decide +kernel)
  have hrowB : (teaEvents laterDocument)[1]? = some (teaEnvelope laterDocument 3) := by
    decide +kernel
  obtain ⟨stored, hrun⟩ := teaStored_run
  have hsame : SameRow teaPlatform teaDocument 0 laterDocument 1 := by
    have htableA : csvRecords (decodeSig teaDocument) = ([teaColumns, teaCells], false) := by
      decide +kernel
    have htableB : csvRecords (decodeSig laterDocument) =
        ([teaColumns, [py "x0", py "expense", py "milk"], teaCells], false) := by decide +kernel
    have hvalues : (rowValues .plain teaColumns teaCells).isSome = true := by decide +kernel
    obtain ⟨values, hvalues⟩ := Option.isSome_iff_exists.1 hvalues
    refine ⟨values, values, ⟨⟨teaColumns, [teaCells], false⟩, teaCells, ?_, rfl, hvalues⟩,
      ⟨⟨teaColumns, [[py "x0", py "expense", py "milk"], teaCells], false⟩, teaCells, ?_, rfl, hvalues⟩,
      fun _ => rfl⟩
    · rw [csvTable, htableA]
      rfl
    · rw [csvTable, htableB]
      rfl
  have hreplays := h _ _ _ _ teaDocument_parsed hparsedB 0 1 _ _ teaDocument_row hrowB hsame rfl stored
    teaStored hrun
  have hfails : ((storeEnvelope teaConfig teaIds 1 teaConnection (teaEnvelope laterDocument 3)).run
      teaStored).isOk = false := by decide +kernel
  obtain ⟨_, _, hok, -, -⟩ := hreplays.stored
  rw [hok] at hfails
  cases hfails

end Expensea.Connectors
