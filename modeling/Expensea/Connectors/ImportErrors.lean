import Expensea.Connectors.Containment

namespace Expensea.Connectors

open Ingestion

/-!
# Errors of the import parsers

The documents that `parse_csv_document` and `parse_keep_takeout_document` are contained on.

* `ClockServes` — no timestamp of a note is one that `gmtime` fails on;
* `KeepImportable` — the limits that the parser of notes leaves to what it calls;
* `parsers_contained_iff` — the parsers are contained on exactly the importable documents;
* `parsers_leak` — a note with a timestamp in the far future.
-/

/-! ### The time of a note -/

/-- The seconds of a raw timestamp, where it is a number of seconds the C library has. -/
def timestampSeconds (U : Unicode) (raw : Json) : Option ℤ :=
  (intOfJson U raw).bind fun usec =>
    if Binary64.overflows (usec / 1000000) then none
    else
      let seconds := (splitTimestamp (Binary64.nearest (usec / 1000000))).1
      if seconds < -2 ^ 63 ∨ 2 ^ 63 ≤ seconds then none else some seconds

/-- `gmtime` fails on a raw timestamp. -/
def Refused (U : Unicode) (gmtime : ℤ → Bool) (raw : Json) : Prop :=
  ∃ seconds, timestampSeconds U raw = some seconds ∧ gmtime seconds = false

/-- A raw timestamp is a datetime. -/
def Dated (U : Unicode) (gmtime : ℤ → Bool) (raw : Json) : Prop :=
  ∃ t, timeOfJson U gmtime raw = .ok t

/-- None of the raw timestamps up to the first datetime is refused by `gmtime`. -/
def ClockServes (U : Unicode) (gmtime : ℤ → Bool) (document : List (PyStr × Json)) :
    List String → Prop
  | [] => True
  | key :: keys =>
    match getField document key with
    | none => ClockServes U gmtime document keys
    | some .null => ClockServes U gmtime document keys
    | some raw => ¬ Refused U gmtime raw ∧
        (¬ Dated U gmtime raw → ClockServes U gmtime document keys)

section Clock

variable {U : Unicode} {gmtime : ℤ → Bool} {document : List (PyStr × Json)}

theorem timeOfJson_os_iff (raw : Json) :
    timeOfJson U gmtime raw = .error .os ↔ Refused U gmtime raw := by
  rw [timeOfJson, Refused, timestampSeconds]
  cases intOfJson U raw with
  | none =>
    refine iff_of_false (fun h => ?_) fun h => ?_
    · cases h
    · obtain ⟨_, hnone, -⟩ := h
      cases hnone
  | some usec =>
    rw [Option.bind_some]
    dsimp only
    rw [fromTimestampUsec]
    by_cases hoverflow : Binary64.overflows (usec / 1000000) = true
    · rw [if_pos hoverflow, if_pos hoverflow]
      refine iff_of_false (fun h => ?_) fun h => ?_
      · cases h
      · obtain ⟨_, hnone, -⟩ := h
        cases hnone
    rw [if_neg hoverflow, if_neg hoverflow, fromTimestamp]
    generalize splitTimestamp (Binary64.nearest (usec / 1000000)) = split
    obtain ⟨seconds, micros⟩ := split
    dsimp only
    by_cases hrange : seconds < -2 ^ 63 ∨ 2 ^ 63 ≤ seconds
    · rw [if_pos hrange, if_pos hrange]
      refine iff_of_false (fun h => ?_) fun h => ?_
      · cases h
      · obtain ⟨_, hnone, -⟩ := h
        cases hnone
    rw [if_neg hrange, if_neg hrange]
    cases hserved : gmtime seconds with
    | false => exact iff_of_true rfl ⟨seconds, rfl, hserved⟩
    | true =>
      refine iff_of_false (fun h => ?_) fun h => ?_
      · rw [Bool.not_true, if_neg Bool.false_ne_true] at h
        split at h
        · cases h
        · cases h
      · obtain ⟨_, hsome, hrefused⟩ := h
        rw [← Option.some.inj hsome, hserved] at hrefused
        cases hrefused

/-- A time that is found is inside the calendar. -/
theorem timeOfJson_ok {raw : Json} {t : DateTime} (h : timeOfJson U gmtime raw = .ok t) :
    ∃ r, occurredAtField (some t) = .ok r := by
  rw [timeOfJson] at h
  split at h
  · cases h
  · obtain ⟨wall, rfl, hinside⟩ := fromTimestampUsec_ok h
    refine ⟨some wall, ?_⟩
    rw [occurredAtField, astimezoneUtc, sub_zero, if_pos hinside]

/-- What the loop makes of a raw timestamp. -/
theorem firstTimestamp_some {key : String} {keys : List String} {raw : Json}
    (hget : getField document key = some raw) (hnull : raw ≠ .null) :
    (∀ t, timeOfJson U gmtime raw = .ok t →
      firstTimestamp U gmtime document (key :: keys) = .ok (some t)) ∧
    (timeOfJson U gmtime raw = .error .os →
      firstTimestamp U gmtime document (key :: keys) = .error (.runtime "OSError")) ∧
    ∀ e, timeOfJson U gmtime raw = .error e → e ≠ .os →
      firstTimestamp U gmtime document (key :: keys) = firstTimestamp U gmtime document keys := by
  rw [firstTimestamp, hget]
  cases raw with
  | null => exact absurd rfl hnull
  | _ =>
    refine ⟨fun t ht => ?_, fun hos => ?_, fun e he hother => ?_⟩
    · dsimp only
      rw [ht]
    · dsimp only
      rw [hos]
    · dsimp only
      rw [he]
      cases e with
      | os => exact absurd rfl hother
      | _ => rfl

theorem clockServes_some {key : String} {keys : List String} {raw : Json}
    (hget : getField document key = some raw) (hnull : raw ≠ .null) :
    ClockServes U gmtime document (key :: keys) ↔ ¬ Refused U gmtime raw ∧
      (¬ Dated U gmtime raw → ClockServes U gmtime document keys) := by
  rw [ClockServes, hget]
  cases raw with
  | null => exact absurd rfl hnull
  | _ => exact Iff.rfl

/-- The time of a note is found, or there is none, unless `gmtime` fails on the way. -/
theorem firstTimestamp_served (U : Unicode) (gmtime : ℤ → Bool) (document : List (PyStr × Json))
    (keys : List String) :
    (ClockServes U gmtime document keys ∧ ∃ t, firstTimestamp U gmtime document keys = .ok t ∧
      ∃ r, occurredAtField t = .ok r) ∨
    (¬ ClockServes U gmtime document keys ∧
      firstTimestamp U gmtime document keys = .error (.runtime "OSError")) := by
  induction keys with
  | nil => exact .inl ⟨trivial, none, rfl, none, rfl⟩
  | cons key keys ih =>
    cases hget : getField document key with
    | none =>
      rw [ClockServes, firstTimestamp, hget]
      exact ih
    | some raw =>
      by_cases hnull : raw = .null
      · rw [ClockServes, firstTimestamp, hget, hnull]
        exact ih
      obtain ⟨hdated, hos, hskipped⟩ := firstTimestamp_some hget hnull
      rw [clockServes_some hget hnull, ← timeOfJson_os_iff, Dated]
      cases htime : timeOfJson U gmtime raw with
      | ok t =>
        refine .inl ⟨⟨?_, fun hundated => absurd ⟨t, rfl⟩ hundated⟩, some t, hdated t htime,
          timeOfJson_ok htime⟩
        intro hos
        cases hos
      | error e =>
        by_cases he : e = .os
        · rw [he] at htime ⊢
          exact .inr ⟨fun hserved => hserved.1 rfl, hos htime⟩
        · have hundated : ¬ ∃ t, (Except.error e : Except TimestampError DateTime) = .ok t := by
            intro hdated
            obtain ⟨_, hok⟩ := hdated
            cases hok
          have hother : (Except.error e : Except TimestampError DateTime) ≠ .error .os := fun h =>
            he (Except.error.inj h)
          rw [forall_prop_of_true hundated, and_iff_right hother, hskipped e htime he]
          exact ih

end Clock

/-! ### Notes -/

/-- The document holds a note that becomes an envelope. -/
structure HoldsNote (U : Unicode) (content : Content) (document : List (PyStr × Json)) : Prop where
  read : ∃ encoded, content.encoded = some encoded ∧
    encoded.length ≤ MAX_KEEP_DOCUMENT_BYTES ∧ loads encoded = .ok (.object document)
  kept : isTrue (getField document "isTrashed") = false
  written : ¬ ((noteTexts U document).1 = [] ∧ (noteTexts U document).2 = [])

/-- What a note must keep to: `gmtime` serves its timestamps, and neither the name of its file nor
    its excerpt has a surrogate. -/
structure NoteFits (U : Unicode) (gmtime : ℤ → Bool) (filename : PyStr)
    (document : List (PyStr × Json)) : Prop where
  clock : ClockServes U gmtime document TIMESTAMP_KEYS
  filename : filename.any isSurrogate = false
  excerpt : ((extractionText U document).take 500).any isSurrogate = false

/-- What a document must keep to: it can be encoded, its integers are not too long for `int`, and
    its note fits. -/
structure KeepImportable (U : Unicode) (gmtime : ℤ → Bool) (filename : PyStr) (content : Content) :
    Prop where
  encodable : ∀ text, content = .text text → text.any isSurrogate = false
  digits : ∀ encoded, content.encoded = some encoded →
    encoded.length ≤ MAX_KEEP_DOCUMENT_BYTES → loads encoded ≠ .error .digits
  note : ∀ document, HoldsNote U content document → NoteFits U gmtime filename document

section Notes

variable {P : Platform} {gmtime : ℤ → Bool} {filename : PyStr} {content : Content}

/-- The external id of a note is accepted. -/
theorem takeoutId_ok (h : Documented P) (filename : PyStr) :
    ∃ r, boundedText P.unicode 255 (some (py "takeout:" ++ P.sha256 filename)) = .ok r := by
  obtain ⟨hlength, hhash⟩ := h.sha256_hex filename
  have hprefix : ((py "takeout:").all fun c => c.val < 0x80) = true := by decide +kernel
  rw [List.all_eq_true] at hprefix
  have hascii : ∀ c ∈ py "takeout:" ++ P.sha256 filename, c.val < 0x80 := by
    intro c hc
    rcases List.mem_append.1 hc with hmem | hmem
    · simpa using hprefix c hmem
    · exact hhash c hmem
  have hshort : (py "takeout:" ++ P.sha256 filename).length ≤ 255 := by
    rw [List.length_append, hlength]
    decide +kernel
  rw [boundedText_ok_iff h]
  exact ⟨(length_display_le (h.nfkc_ascii _ hascii)).trans hshort, ascii_free hascii⟩

/-- The envelope of a note. -/
theorem noteEnvelope_contained_iff (h : Documented P) (document : List (PyStr × Json)) :
    Contained (noteEnvelope P gmtime filename document) ↔
      NoteFits P.unicode gmtime filename document := by
  have htype : ∃ r, requiredText P.unicode 80 (some (py "google_keep_note")) = .ok r :=
    eventType_ok h (by decide +kernel) (by decide +kernel) (by decide +kernel) (by decide +kernel)
  have hexcerpt : (∃ r, boundedText P.unicode 500
      (some ((extractionText P.unicode document).take 500)) = .ok r) ↔
        ((extractionText P.unicode document).take 500).any isSurrogate = false :=
    excerpt_ok_iff h _
  rw [noteEnvelope, keepTimestamp]
  rcases firstTimestamp_served P.unicode gmtime document TIMESTAMP_KEYS with hserved | hrefused
  · obtain ⟨hclock, t, htime, hoccurred⟩ := hserved
    rw [htime]
    by_cases hfilename : filename.any isSurrogate = true
    · have hsize : utf8Size filename = none := by rw [utf8Size, if_pos hfilename]
      rw [hsize]
      refine iff_of_false (not_contained_runtime _) fun hfits => ?_
      rw [hfits.filename] at hfilename
      cases hfilename
    · rw [Bool.not_eq_true] at hfilename
      have hsize : (utf8Size filename).isNone = false := by
        rw [utf8Size, hfilename]
        rfl
      rw [hsize]
      show Contained (Except.mapError envelopeError _) ↔ _
      rw [contained_validated, makeEnvelope_ok_iff, hexcerpt]
      constructor
      · intro hall
        exact ⟨hclock, hfilename, hall.2.2.2⟩
      · intro hfits
        exact ⟨hoccurred, takeoutId_ok h filename, htype, hfits.excerpt⟩
  · rw [hrefused.2]
    exact iff_of_false (not_contained_runtime _) fun hfits => hrefused.1 hfits.clock

/-- `parse_keep_takeout_document` fails in its own way on these documents. -/
theorem parseKeepTakeoutDocument_contained_iff (h : Documented P) (filename : PyStr)
    (content : Content) :
    Contained (parseKeepTakeoutDocument P gmtime filename content) ↔
      KeepImportable P.unicode gmtime filename content := by
  rw [parseKeepTakeoutDocument]
  cases hencoded : content.encoded with
  | none =>
    refine iff_of_false (not_contained_runtime _) fun himportable => ?_
    obtain ⟨_, hsome⟩ := encoded_isSome_iff.2 himportable.encodable
    rw [hencoded] at hsome
    cases hsome
  | some encoded =>
    have hencodable := encoded_isSome_iff.1 ⟨encoded, hencoded⟩
    have hread : ∀ document, HoldsNote P.unicode content document →
        encoded.length ≤ MAX_KEEP_DOCUMENT_BYTES ∧ loads encoded = .ok (.object document) := by
      intro document hnote
      obtain ⟨encoded', hencoded', hsize, hloads⟩ := hnote.read
      rw [hencoded] at hencoded'
      cases hencoded'
      exact ⟨hsize, hloads⟩
    -- without a note that is kept, only the integers can fail
    have hnoNote : (∀ document, ¬ HoldsNote P.unicode content document) →
        (encoded.length ≤ MAX_KEEP_DOCUMENT_BYTES → loads encoded ≠ .error .digits) →
          KeepImportable P.unicode gmtime filename content := by
      intro hnone hdigits
      refine ⟨hencodable, fun encoded' hencoded' => ?_, fun document hnote =>
        absurd hnote (hnone document)⟩
      rw [hencoded] at hencoded'
      cases hencoded'
      exact hdigits
    dsimp only
    by_cases hsize : MAX_KEEP_DOCUMENT_BYTES < encoded.length
    · rw [if_pos hsize]
      refine iff_of_true (contained_contentError _ _) (hnoNote (fun document hnote => ?_) fun hle => ?_)
      · have hle := (hread document hnote).1
        omega
      · omega
    rw [if_neg hsize]
    have hsize := Nat.le_of_not_lt hsize
    cases hloads : loads encoded with
    | error e =>
      have hnone : ∀ document, ¬ HoldsNote P.unicode content document := by
        intro document hnote
        have hok := (hread document hnote).2
        rw [hloads] at hok
        cases hok
      cases e with
      | invalid =>
        refine iff_of_true (contained_contentError _ _) (hnoNote hnone fun _ hdigits => ?_)
        rw [hloads] at hdigits
        cases hdigits
      | digits =>
        exact iff_of_false (not_contained_runtime _) fun himportable =>
          himportable.digits encoded hencoded hsize hloads
    | ok value =>
      have hdigits : loads encoded ≠ .error .digits := by
        intro herror
        rw [hloads] at herror
        cases herror
      cases value with
      | object document =>
        have hself : ∀ document', HoldsNote P.unicode content document' → document' = document := by
          intro document' hnote
          have hok := (hread document' hnote).2
          rw [hloads] at hok
          exact (Json.object.inj (Except.ok.inj hok)).symm
        dsimp only
        by_cases htrashed : isTrue (getField document "isTrashed") = true
        · rw [if_pos htrashed]
          refine iff_of_true (contained_ok _) (hnoNote (fun document' hnote => ?_) fun _ => hdigits)
          have hkept := hnote.kept
          rw [hself document' hnote, htrashed] at hkept
          cases hkept
        rw [if_neg htrashed]
        by_cases hblank : (noteTexts P.unicode document).1 = [] ∧ (noteTexts P.unicode document).2 = []
        · rw [if_pos hblank]
          refine iff_of_true (contained_ok _) (hnoNote (fun document' hnote => ?_) fun _ => hdigits)
          have hwritten := hnote.written
          rw [hself document' hnote] at hwritten
          exact hwritten hblank
        rw [if_neg hblank, contained_map, noteEnvelope_contained_iff h]
        constructor
        · intro hfits
          refine ⟨hencodable, fun encoded' hencoded' _ => ?_, fun document' hnote => ?_⟩
          · rw [hencoded] at hencoded'
            cases hencoded'
            exact hdigits
          · rw [hself document' hnote]
            exact hfits
        · intro himportable
          exact himportable.note document ⟨⟨encoded, hencoded, hsize, hloads⟩,
            Bool.not_eq_true _ ▸ htrashed, hblank⟩
      | _ =>
        refine iff_of_true (contained_contentError _ _) (hnoNote (fun document hnote => ?_) fun _ =>
          hdigits)
        have hok := (hread document hnote).2
        rw [hloads] at hok
        cases hok

end Notes

/-- The import parsers fail with a `ConnectorContentError` only, on exactly the importable
    documents; and of a text the CSV parser makes the envelopes that `parseCsvDocument` does. -/
theorem parsers_contained_iff {P : Platform} (h : Documented P) (gmtime : ℤ → Bool)
    (filename : PyStr) (content : Content) :
    (Contained (parseCsvContent P content) ↔ CsvImportable P content) ∧
      (Contained (parseKeepTakeoutDocument P gmtime filename content) ↔
        KeepImportable P.unicode gmtime filename content) ∧
      ∀ text, content = .text text → parseCsvContent P content = parseCsvDocument P text := by
  refine ⟨parseCsvContent_contained_iff h content,
    parseKeepTakeoutDocument_contained_iff h filename content, ?_⟩
  rintro text rfl
  exact parseCsvContent_text P text

/-! ### A coffee and a note -/

/-- A document with one row. -/
def coffeeCsv : PyStr :=
  py "event_kind,description,occurred_at\nexpense,Coffee,2026-01-01T12:00:00Z\n"

/-- A note of a second and a half after the epoch. -/
def earlyNote : PyStr := py "\x7b\"title\":\"a\",\"createdTimestampUsec\":\"1500000\"\x7d"

/-- A note of 10¹⁸ seconds after the epoch. -/
def distantNote : PyStr :=
  py "\x7b\"title\":\"a\",\"createdTimestampUsec\":\"1000000000000000000000000\"\x7d"

/-- The SHA-256 digests of the note's file name and of the document. -/
def importDigest (text : PyStr) : PyStr :=
  if text = py "a.json" then
    py "6025a12236ee54baceb48b335c5a8e54f073af9cb25fddd990f95e06d6e039d9"
  else py "510cf9d9ef81ed77e390a1e882d513b5556845d56a41e9d4d658e87c16f52845"

/-- The platform on these documents. -/
def importPlatform : Platform where
  unicode := .plain
  sha256 := importDigest
  isoformat := fun _ => py "2026-01-01T12:00:00Z"
  parseDatetime := fun _ => some ⟨63902865600000000, some 0⟩
  uuidText := natText
  distinctOrder := id
  zones := ⟨fun _ => true, fun _ _ => 0⟩

theorem plain_lawful : Unicode.plain.Lawful where
  nfkc_display _ := rfl
  nfkc_special _ _ _ := Iff.rfl
  casefold_flatMap s := (List.flatMap_singleton' s).symm
  casefold_ne_nil c := List.cons_ne_nil c []
  casefold_length _ := Nat.le_of_ble_eq_true rfl
  casefold_space := rfl
  casefold_nonspace _ hne hspace := hne (List.mem_singleton.1 hspace).symm
  casefold_special _ _ _ := List.mem_singleton

theorem importPlatform_documented : Documented importPlatform where
  unicode := plain_lawful
  nfkc_ascii _ _ := rfl
  nfkc_take _ _ _ := rfl
  sha256_hex s := by
    have hdigits : ∀ digest : PyStr,
        (digest.length == 64 && digest.all fun c => c.val < 0x80) = true →
          digest.length = 64 ∧ ∀ c ∈ digest, c.val < 0x80 := by
      intro digest h
      simpa using h
    show (importDigest s).length = 64 ∧ ∀ c ∈ importDigest s, c.val < 0x80
    rw [importDigest]
    split
    · exact hdigits _ (by decide +kernel)
    · exact hdigits _ (by decide +kernel)

theorem parsers_contained_iff_coffee : CsvImportable importPlatform (.text coffeeCsv) ∧
    KeepImportable .plain glibcGmtime (py "a.json") (.text earlyNote) := by
  have hcsv : (parseCsvContent importPlatform (.text coffeeCsv)).isOk = true := by decide +kernel
  have hnote : (parseKeepTakeoutDocument importPlatform glibcGmtime (py "a.json")
      (.text earlyNote)).isOk = true := by decide +kernel
  have himportable := parsers_contained_iff importPlatform_documented glibcGmtime (py "a.json")
  exact ⟨(himportable _).1.1 (contained_of_isOk hcsv),
    (himportable _).2.1.1 (contained_of_isOk hnote)⟩

/-- `gmtime` fails on the seconds of the note, and its error is not caught. -/
theorem parsers_leak : ¬ ∀ (filename : PyStr) (content : Content),
    Contained (parseCsvContent importPlatform content) ∧
      Contained (parseKeepTakeoutDocument importPlatform glibcGmtime filename content) := by
  intro h
  have hnote : parseKeepTakeoutDocument importPlatform glibcGmtime (py "a.json")
      (.text distantNote) = .error (.runtime "OSError") := by decide +kernel
  have hcontained := (h (py "a.json") (.text distantNote)).2
  rw [hnote] at hcontained
  exact not_contained_runtime _ hcontained

end Expensea.Connectors
