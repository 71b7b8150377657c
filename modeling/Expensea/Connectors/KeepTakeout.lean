import Expensea.Connectors.CsvImport
import Expensea.Domain.JsonText
import Expensea.Domain.Timestamp

namespace Expensea.Connectors

open Ingestion

/-!
# Imported documents

The documents of the import connectors as bytes or text, and `parse_keep_takeout_document` of
`app/connectors/google_keep_takeout.py`.

* `Content` — `bytes | str`, and its bytes;
* `parseCsvContent` — `parse_csv_document`, with `parseCsvContent_text` for a text;
* `keepTimestamp` — `_keep_timestamp`;
* `parseKeepTakeoutDocument` — a note to an envelope, or none.
-/

/-! ### Content -/

/-- `content: bytes | str` -/
inductive Content where
  | bytes (content : List Utf8.Byte)
  | text (content : PyStr)

/-- `content.encode("utf-8") if isinstance(content, str) else content`; `none` is the
    `UnicodeEncodeError` of a surrogate. -/
def Content.encoded : Content → Option (List Utf8.Byte)
  | .bytes content => some content
  | .text content => if content.any isSurrogate then none else some (Utf8.encode content)

/-- The null character. -/
def NUL : CodePoint := Utf8.codePoint 0

/-- `parse_csv_document` once the document is decoded. -/
def parseCsvText (P : Platform) (decoded : PyStr) : Except AppError (List ConnectorEnvelope) := do
  let text := decodeSig decoded
  if text.contains NUL then
    contentError "CSV_DOCUMENT_INVALID" "The CSV document contains unsupported null bytes."
  let table ← csvTable text
  checkColumns table.columns
  let envelopes ← rowEnvelopes P table.columns (P.sha256 decoded) 2 table.rows
  if table.failed then
    contentError "CSV_DOCUMENT_INVALID" "The CSV document could not be parsed safely."
  pure envelopes

/-- `parse_csv_document` -/
def parseCsvContent (P : Platform) (content : Content) : Except AppError (List ConnectorEnvelope) :=
  match content.encoded with
  | none => .error (.runtime "UnicodeEncodeError")
  | some encoded =>
    if MAX_CSV_DOCUMENT_BYTES < encoded.length then
      contentError "CSV_DOCUMENT_TOO_LARGE" "The CSV document exceeds the 256 KiB import limit."
    else
      match Utf8.decode false encoded with
      | none => contentError "CSV_DOCUMENT_INVALID_ENCODING" "The CSV document must use UTF-8 encoding."
      | some decoded => parseCsvText P decoded

theorem isSurrogate_iff (c : CodePoint) : isSurrogate c = true ↔ Utf8.Surrogate c := by
  rw [isSurrogate, Bool.and_eq_true, decide_eq_true_iff, decide_eq_true_iff]
  rfl

theorem length_encode (s : PyStr) :
    (Utf8.encode s).length = s.foldr (fun c n => utf8Width c + n) 0 := by
  induction s with
  | nil => rfl
  | cons c s ih =>
    have hwidth : (Utf8.encodeChar c).length = utf8Width c := by
      rw [Utf8.encodeChar, utf8Width]
      by_cases h₁ : c.val < 0x80
      · rw [if_pos h₁, if_pos (show c < 0x80 from h₁)]
        rfl
      rw [if_neg h₁, if_neg (show ¬ c < 0x80 from h₁)]
      by_cases h₂ : c.val < 0x800
      · rw [if_pos h₂, if_pos (show c < 0x800 from h₂)]
        rfl
      rw [if_neg h₂, if_neg (show ¬ c < 0x800 from h₂)]
      by_cases h₃ : c.val < 0x10000
      · rw [if_pos h₃, if_pos (show c < 0x10000 from h₃)]
        rfl
      · rw [if_neg h₃, if_neg (show ¬ c < 0x10000 from h₃)]
        rfl
    rw [Utf8.encode, List.flatMap_cons, List.length_append, List.foldr_cons, hwidth]
    exact congrArg (utf8Width c + ·) ih

/-- A text that can be encoded is decoded from its bytes. -/
theorem decode_encode_text {s : PyStr} (h : s.any isSurrogate = false) :
    Utf8.decode false (Utf8.encode s) = some s := by
  refine Utf8.decode_encode (.inr fun c hc hsurrogate => ?_)
  have hany : s.any isSurrogate = true :=
    List.any_eq_true.2 ⟨c, hc, (isSurrogate_iff c).2 hsurrogate⟩
  rw [h] at hany
  cases hany

/-- A text is parsed as `parseCsvDocument` says. -/
theorem parseCsvContent_text (P : Platform) (s : PyStr) :
    parseCsvContent P (.text s) = parseCsvDocument P s := by
  rw [parseCsvContent, Content.encoded, parseCsvDocument, utf8Size]
  by_cases hs : s.any isSurrogate = true
  · rw [if_pos hs, if_pos hs]
  · rw [if_neg hs, if_neg hs]
    dsimp only
    rw [length_encode, decode_encode_text (by simpa using hs)]
    by_cases hsize : MAX_CSV_DOCUMENT_BYTES < s.foldr (fun c n => utf8Width c + n) 0
    · rw [if_pos hsize, if_pos hsize]
      rfl
    · rw [if_neg hsize, if_neg hsize]
      dsimp only
      rw [parseCsvText]
      dsimp only
      have hnul : NUL = 0 := rfl
      rw [hnul]
      by_cases hzero : (0 : CodePoint) ∈ decodeSig s
      · rw [if_pos (List.contains_iff_mem.2 hzero), if_pos hzero]
      · rw [if_neg (mt List.contains_iff_mem.1 hzero), if_neg hzero]

/-! ### Fields of a note -/

/-- `MAX_KEEP_DOCUMENT_BYTES` -/
def MAX_KEEP_DOCUMENT_BYTES : Nat := 65536

/-- `MAX_KEEP_NOTE_CHARS` -/
def MAX_KEEP_NOTE_CHARS : Nat := 8000

/-- The line feed. -/
def newline : CodePoint := 0x0A

/-- `"\n".join(items)` -/
def joinLines (items : List PyStr) : PyStr := [newline].intercalate items

/-- `_optional_text` of a member. -/
def optionalJsonText (U : Unicode) : Option Json → PyStr
  | some (.str s) => normalizeDisplayText U s
  | _ => []

/-- `value is True` -/
def isTrue : Option Json → Bool
  | some (.bool b) => b
  | _ => false

/-- One line of `_list_content_text`. -/
def listItemText (U : Unicode) : Json → Option PyStr
  | .object item =>
    let text := optionalJsonText U (getField item "text")
    if text = [] then none
    else some ((if isTrue (getField item "isChecked") then py "[x]" else py "[ ]") ++ space :: text)
  | _ => none

/-- `_list_content_text` -/
def listContentText (U : Unicode) : Option Json → PyStr
  | some (.array items) => joinLines (items.filterMap (listItemText U))
  | _ => []

/-- The loop of `_labels`. -/
def collectLabels (U : Unicode) (seen labels : List PyStr) : List Json → List PyStr
  | [] => labels
  | .object raw :: rest =>
    let label := optionalJsonText U (getField raw "name")
    if label = [] then collectLabels U seen labels rest
    else
      let lookup := U.casefold (label.take MAX_TAG_LENGTH)
      let seen' := if lookup ∈ seen then seen else seen ++ [lookup]
      let labels' := if lookup ∈ seen then labels else labels ++ [label.take MAX_TAG_LENGTH]
      if labels'.length = MAX_TAGS - 1 then labels' else collectLabels U seen' labels' rest
  | _ :: rest => collectLabels U seen labels rest

/-- `_labels` -/
def keepLabels (U : Unicode) : Option Json → List PyStr
  | some (.array raw) => collectLabels U [] [] raw
  | _ => []

/-! ### The time of a note -/

/-- White space that `int` ignores around a number. -/
def isIntSpace (c : CodePoint) : Bool := isSpace c && !(0x1C ≤ c && c ≤ 0x1F)

/-- Digits with single underscores between them. -/
def groupedDigits (U : Unicode) : PyStr → Option (List (Fin 10))
  | [] => none
  | [c] => (U.digit c).map fun d => [d]
  | c :: next :: s =>
    match U.digit c with
    | none => none
    | some d =>
      if next = 0x5F then (groupedDigits U s).map (d :: ·)
      else (groupedDigits U (next :: s)).map (d :: ·)

/-- `int(text)`; `none` is `ValueError`. -/
def intOfText (U : Unicode) (text : PyStr) : Option ℤ :=
  let stripped := ((text.dropWhile isIntSpace).reverse.dropWhile isIntSpace).reverse
  let (negative, digits) := takeSign stripped
  match groupedDigits U digits with
  | none => none
  | some ds =>
    if MAX_STR_DIGITS < ds.length then none
    else some (if negative then -(digitsValue ds : ℤ) else digitsValue ds)

/-- `int(raw_value)`; `none` is `OverflowError`, `TypeError` or `ValueError`. -/
def intOfJson (U : Unicode) : Json → Option ℤ
  | .bool b => some (if b then 1 else 0)
  | .int n => some n
  | .float (.finite q) => some (truncate q)
  | .str s => intOfText U s
  | _ => none

/-- `datetime.fromtimestamp(int(raw_value) / 1_000_000, tz=UTC)` -/
def timeOfJson (U : Unicode) (gmtime : ℤ → Bool) (raw : Json) : Except TimestampError DateTime :=
  match intOfJson U raw with
  | none => .error .value
  | some usec => fromTimestampUsec gmtime usec

/-- The keys of `_keep_timestamp`, in its order. -/
def TIMESTAMP_KEYS : List String := ["userEditedTimestampUsec", "createdTimestampUsec"]

/-- The loop of `_keep_timestamp`: an `OSError` is not caught. -/
def firstTimestamp (U : Unicode) (gmtime : ℤ → Bool) (document : List (PyStr × Json)) :
    List String → Except AppError (Option DateTime)
  | [] => .ok none
  | key :: keys =>
    match getField document key with
    | none => firstTimestamp U gmtime document keys
    | some .null => firstTimestamp U gmtime document keys
    | some raw =>
      match timeOfJson U gmtime raw with
      | .ok t => .ok (some t)
      | .error .os => .error (.runtime "OSError")
      | .error _ => firstTimestamp U gmtime document keys

/-- `_keep_timestamp` -/
def keepTimestamp (U : Unicode) (gmtime : ℤ → Bool) (document : List (PyStr × Json)) :
    Except AppError (Option DateTime) := firstTimestamp U gmtime document TIMESTAMP_KEYS

/-! ### A note -/

/-- The title and the text of a note, normalized; the text is cut. -/
def noteTexts (U : Unicode) (document : List (PyStr × Json)) : PyStr × PyStr :=
  let title := optionalJsonText U (getField document "title")
  let textContent := optionalJsonText U (getField document "textContent")
  let listText := listContentText U (getField document "listContent")
  let noteText := normalizeDisplayText U (joinLines ([textContent, listText].filter (· ≠ [])))
  (title, noteText.take MAX_KEEP_NOTE_CHARS)

/-- `extraction_text`: title and text, normalized together. -/
def extractionText (U : Unicode) (document : List (PyStr × Json)) : PyStr :=
  normalizeDisplayText U
    (joinLines ([(noteTexts U document).1, (noteTexts U document).2].filter (· ≠ [])))

/-- The envelope of a note with a title or a text. -/
def noteEnvelope (P : Platform) (gmtime : ℤ → Bool) (filename : PyStr)
    (document : List (PyStr × Json)) : Except AppError ConnectorEnvelope := do
  let labels := keepLabels P.unicode (getField document "labels")
  let occurredAt ← keepTimestamp P.unicode gmtime document
  if (utf8Size filename).isNone then throw (.runtime "UnicodeEncodeError")
  let filenameHash := P.sha256 filename
  (makeEnvelope P.unicode (some (py "takeout:" ++ filenameHash)) (py "google_keep_note") occurredAt
    [("title", .str (noteTexts P.unicode document).1),
      ("note_text", .str (noteTexts P.unicode document).2),
      ("extraction_text", .str ((extractionText P.unicode document).take MAX_KEEP_NOTE_CHARS)),
      ("labels", .list labels)]
    [("exportFileHash", .str filenameHash)]
    (some ((extractionText P.unicode document).take 500))).mapError envelopeError

/-- `parse_keep_takeout_document` -/
def parseKeepTakeoutDocument (P : Platform) (gmtime : ℤ → Bool) (filename : PyStr)
    (content : Content) : Except AppError (Option ConnectorEnvelope) :=
  match content.encoded with
  | none => .error (.runtime "UnicodeEncodeError")
  | some encoded =>
    if MAX_KEEP_DOCUMENT_BYTES < encoded.length then
      contentError "KEEP_DOCUMENT_TOO_LARGE"
        "A Google Keep export document exceeds the import size limit."
    else
      match loads encoded with
      | .error .invalid => contentError "KEEP_DOCUMENT_INVALID"
          "A Google Keep export document is not valid JSON."
      | .error .digits => .error (.runtime "ValueError")
      | .ok (.object document) =>
        if isTrue (getField document "isTrashed") then .ok none
        else if (noteTexts P.unicode document).1 = [] ∧ (noteTexts P.unicode document).2 = [] then
          .ok none
        else (noteEnvelope P gmtime filename document).map some
      | .ok _ => contentError "KEEP_DOCUMENT_INVALID"
          "A Google Keep export document must contain one note object."

end Expensea.Connectors
