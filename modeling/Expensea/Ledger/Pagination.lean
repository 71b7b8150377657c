import Expensea.Domain.IsoText
import Expensea.Ingestion.Identity
import Expensea.Ledger.Obligations
import Expensea.Ledger.Transactions
import Expensea.Lib.Base64
import Expensea.Lib.Keyset
import Mathlib.Data.Prod.Lex

namespace Expensea.Ledger

open Txn
open Txn.Tx (reads)
open Ingestion (jsonObject jsonString intText)

/-!
# Pagination

`app/ledger/pagination.py`, and `list_transactions` of the ledger repository and service.

* `encodeTransactionCursor`, `decodeTransactionCursor` — the opaque cursors;
* `decode_encode` — a cursor decodes to the sort keys it was encoded from;
* `listTransactions` — one page of an owner's transactions;
* `pagination_exact` — what following the cursors from page to page yields.
-/

/-! ### Cursors -/

/-- `CURSOR_VERSION` -/
def CURSOR_VERSION : Nat := 1

/-- `MAX_PAGE_SIZE` -/
def MAX_PAGE_SIZE : ℤ := 100

/-- `TransactionCursor` -/
structure TransactionCursor where
  occurredAt : Instant
  transactionId : Uuid
  deriving DecidableEq

/-- `validate_page_size` -/
def validatePageSize (first : ℤ) : Except LedgerError Nat :=
  if first < 1 ∨ MAX_PAGE_SIZE < first then
    .error ⟨.validation, "INVALID_PAGE_SIZE", "first must be between 1 and 100.", some "first"⟩
  else .ok first.toNat

/-- The URL-safe alphabet.  `b64decode` reads the standard one as well. -/
def urlsafe : Base64.Alphabet CodePoint where
  symbol n :=
    if n.val < 26 then Fin.ofNat _ (0x41 + n.val)
    else if n.val < 52 then Fin.ofNat _ (0x61 + (n.val - 26))
    else if n.val < 62 then Fin.ofNat _ (0x30 + (n.val - 52))
    else if n.val = 62 then 0x2D
    else 0x5F
  pad := 0x3D
  value c :=
    if 0x41 ≤ c.val ∧ c.val ≤ 0x5A then some (Base64.sextet (c.val - 0x41))
    else if 0x61 ≤ c.val ∧ c.val ≤ 0x7A then some (Base64.sextet (c.val - 0x61 + 26))
    else if 0x30 ≤ c.val ∧ c.val ≤ 0x39 then some (Base64.sextet (c.val - 0x30 + 52))
    else if c = 0x2D ∨ c = 0x2B then some (Base64.sextet 62)
    else if c = 0x5F ∨ c = 0x2F then some (Base64.sextet 63)
    else none

theorem urlsafe_lawful : urlsafe.Lawful where
  value_symbol := by decide
  value_pad := by decide

/-- `json.dumps(payload, separators=(",", ":"), sort_keys=True)` of a cursor's texts, which are
    ASCII. -/
def cursorJson (at' id : PyStr) : PyStr :=
  jsonObject [("at", jsonString at'), ("id", jsonString id), ("v", intText CURSOR_VERSION)]

/-- `text.encode("utf-8")` of ASCII text. -/
def asciiBytes (s : PyStr) : List Base64.Byte := s.map fun c => Base64.byte c.val

/-- `encode_transaction_cursor` -/
def encodeTransactionCursor (cursor : TransactionCursor) : PyStr :=
  Base64.rstrip urlsafe.pad (Base64.encode urlsafe (asciiBytes (cursorJson
    (replaceText (py "+00:00") (py "Z") (isoformat cursor.occurredAt))
    (uuidText cursor.transactionId))))

/-- A value of a cursor's object. -/
inductive CursorValue where
  | string (s : PyStr)
  | number (n : ℚ)
  | bool (b : Bool)
  | other
  deriving DecidableEq

/-- The fields of a JSON object, in the order of the document. -/
abbrev CursorFields := List (PyStr × CursorValue)

/-- What `json.loads` makes of a text. -/
inductive Loaded where
  | object (fields : CursorFields)
  /-- A value of another type, or an exception the decoder catches. -/
  | rejected
  /-- `RecursionError`: more nested than the interpreter allows. -/
  | tooDeep
  deriving DecidableEq

/-- What the standard library does on texts that no cursor is encoded to. -/
structure CursorLibrary where
  /-- `json.loads` -/
  loads : List Base64.Byte → Loaded
  /-- `datetime.fromisoformat` -/
  fromisoformat : PyStr → Option DateTime
  /-- `UUID(text)` -/
  uuid : PyStr → Option Uuid

/-! ### Plain JSON objects -/

/-- A character that stands for itself in a JSON string. -/
def plainChar (c : CodePoint) : Bool :=
  0x20 ≤ c.val && c.val < 0x80 && c.val != 0x22 && c.val != 0x5C

/-- The rest of a plain string, after its opening quote. -/
def plainString : PyStr → Option (PyStr × PyStr)
  | [] => none
  | c :: s =>
    if c = 0x22 then some ([], s)
    else if plainChar c then (plainString s).map fun r => (c :: r.1, r.2)
    else none

/-- A plain string or a digit. -/
def plainValue : PyStr → Option (CursorValue × PyStr)
  | [] => none
  | c :: s =>
    if c = 0x22 then (plainString s).map fun r => (.string r.1, r.2)
    else (decimalValue c).map fun d => (.number d, s)

/-- `"key":value` -/
def plainField (s : PyStr) : Option ((PyStr × CursorValue) × PyStr) := do
  let s ← expect 0x22 s
  let (key, s) ← plainString s
  let s ← expect 0x3A s
  let (value, s) ← plainValue s
  some ((key, value), s)

/-- At most `n` fields, up to the closing brace that ends the text. -/
def plainFields : Nat → PyStr → Option CursorFields
  | 0, _ => none
  | n + 1, s =>
    match plainField s with
    | none => none
    | some (field, rest) =>
      match rest with
      | [] => none
      | c :: s =>
        if c = 0x7D ∧ s = [] then some [field]
        else if c = 0x2C then (plainFields n s).map (field :: ·)
        else none

/-- An object of plain strings and digits, without white space. -/
def plainObject (s : PyStr) : Option CursorFields := do
  let s ← expect 0x7B s
  plainFields s.length s

/-! ### Decoding -/

/-- The text of ASCII bytes. -/
def asciiText (bytes : List Base64.Byte) : Option PyStr :=
  if bytes.all fun b => b.val < 0x80 then some (bytes.map fun b => Fin.ofNat _ b.val) else none

/-- `json.loads` -/
def loadsObject (L : CursorLibrary) (bytes : List Base64.Byte) : Loaded :=
  match (asciiText bytes).bind plainObject with
  | some fields => .object fields
  | none => L.loads bytes

/-- `payload[key]`: the last field of that name. -/
def CursorFields.get (fields : CursorFields) (key : String) : Option CursorValue :=
  (fields.reverse.find? fun f => f.1 == py key).map Prod.snd

/-- `value != CURSOR_VERSION` fails: numbers and booleans compare by their value. -/
def isCursorVersion : CursorValue → Bool
  | .number n => n == CURSOR_VERSION
  | .bool b => b
  | _ => false

/-- The sort keys of a cursor's object: its wall clock, offset and identifier. -/
def cursorFields (L : CursorLibrary) (fields : CursorFields) : Option (ℤ × ℤ × Uuid) := do
  if !(fields.all fun f => f.1 == py "at" || f.1 == py "id" || f.1 == py "v") then none
  else
    let at' ← fields.get "at"
    let id ← fields.get "id"
    let version ← fields.get "v"
    if !isCursorVersion version then none
    else match at', id with
      | .string at', .string id =>
        let text := replaceText (py "Z") (py "+00:00") at'
        let occurredAt ← (isoExtended text).or (L.fromisoformat text)
        let offset ← occurredAt.offset
        let transactionId ← (uuidOfText id).or (L.uuid id)
        some (occurredAt.wall, offset, transactionId)
      | _, _ => none

/-- `InvalidCursorError` -/
def invalidCursor : LedgerError :=
  ⟨.validation, "INVALID_CURSOR", "The pagination cursor is invalid or no longer supported.",
    some "after"⟩

/-- `decode_transaction_cursor`: the conversion to UTC is after the handler. -/
def decodeTransactionCursor (L : CursorLibrary) (rawCursor : PyStr) :
    Except AppError TransactionCursor :=
  match Base64.decode urlsafe (Base64.padTo4 urlsafe rawCursor) with
  | none => .error (.ledger invalidCursor)
  | some bytes =>
    match loadsObject L bytes with
    | .rejected => .error (.ledger invalidCursor)
    | .tooDeep => .error (.runtime "maximum recursion depth exceeded")
    | .object fields =>
      match cursorFields L fields with
      | none => .error (.ledger invalidCursor)
      | some (wall, offset, transactionId) =>
        match astimezoneUtc wall offset with
        | none => .error .overflow
        | some occurredAt => .ok ⟨occurredAt, transactionId⟩

/-! ### Cursors round trip -/

/-- A plain character is written as it is. -/
theorem jsonChar_plain {c : CodePoint} (hc : plainChar c = true) : Ingestion.jsonChar c = [c] := by
  have hlow : ¬ c < 0x20 := by
    simp only [plainChar, Bool.and_eq_true, decide_eq_true_eq] at hc
    exact not_lt.2 hc.1.1.1
  have hne : ∀ c' : CodePoint, plainChar c' = false → c ≠ c' := fun c' hc' he => by
    rw [he, hc'] at hc
    cases hc
  unfold Ingestion.jsonChar
  rw [if_neg (hne _ (by decide)), if_neg (hne _ (by decide)), if_neg (hne _ (by decide)),
    if_neg (hne _ (by decide)), if_neg (hne _ (by decide)), if_neg (hne _ (by decide)),
    if_neg (hne _ (by decide)), if_neg hlow]

theorem jsonString_plain {s : PyStr} (hs : ∀ c ∈ s, plainChar c = true) :
    jsonString s = 0x22 :: (s ++ [0x22]) := by
  have hflat : s.flatMap Ingestion.jsonChar = s := by
    rw [List.flatMap_congr fun c hc => jsonChar_plain (hs c hc)]
    exact List.flatMap_singleton' s
  rw [jsonString, hflat]
  rfl

/-- A plain string is read as it was written. -/
theorem plainString_append {s : PyStr} (hs : ∀ c ∈ s, plainChar c = true) (rest : PyStr) :
    plainString (s ++ 0x22 :: rest) = some (s, rest) := by
  induction s with
  | nil => rfl
  | cons c s ih =>
    have hc := hs c List.mem_cons_self
    have hquote : c ≠ 0x22 := fun he => by
      rw [he] at hc
      exact absurd hc (by decide)
    rw [List.cons_append, plainString, if_neg hquote, if_pos hc, ih fun c' hc' => hs c' (List.mem_cons_of_mem c hc')]
    rfl

/-- A cursor's text, by the tokens it is read in. -/
theorem cursorJson_plain {at' id : PyStr} (hat : ∀ c ∈ at', plainChar c = true)
    (hid : ∀ c ∈ id, plainChar c = true) :
    cursorJson at' id = 0x7B :: 0x22 :: (py "at" ++ 0x22 :: 0x3A :: 0x22 :: (at' ++ 0x22 :: 0x2C ::
      0x22 :: (py "id" ++ 0x22 :: 0x3A :: 0x22 :: (id ++ 0x22 :: 0x2C :: 0x22 ::
        (py "v" ++ 0x22 :: 0x3A :: 0x31 :: [0x7D]))))) := by
  have hsorted : ∀ a b v : PyStr, jsonObject [("at", a), ("id", b), ("v", v)] =
      py "\x7b" ++ Ingestion.commaSeparated [jsonString (py "at") ++ py ":" ++ a,
        jsonString (py "id") ++ py ":" ++ b, jsonString (py "v") ++ py ":" ++ v] ++ py "\x7d" := by
    have horder : Ingestion.textLe (py "at") (py "id") = true ∧
        Ingestion.textLe (py "id") (py "v") = true := by
      decide
    simp [jsonObject, horder.1, horder.2]
  have hkeys : jsonString (py "at") = 0x22 :: (py "at" ++ [0x22]) ∧
      jsonString (py "id") = 0x22 :: (py "id" ++ [0x22]) ∧
      jsonString (py "v") = 0x22 :: (py "v" ++ [0x22]) := by
    decide
  rw [cursorJson, hsorted, jsonString_plain hat, jsonString_plain hid, hkeys.1, hkeys.2.1, hkeys.2.2]
  have hpunctuation : py "\x7b" = [0x7B] ∧ py "\x7d" = [0x7D] ∧ py ":" = [0x3A] ∧ py "," = [0x2C] ∧
      intText CURSOR_VERSION = [0x31] := by
    decide +kernel
  obtain ⟨hopen, hclose, hcolon, hcomma, hversion⟩ := hpunctuation
  rw [Ingestion.commaSeparated, hopen, hclose, hcolon, hcomma, hversion]
  simp [List.intercalate, List.append_assoc]

/-- The fields of a cursor are read as they were written. -/
theorem plainObject_cursorJson {at' id : PyStr} (hat : ∀ c ∈ at', plainChar c = true)
    (hid : ∀ c ∈ id, plainChar c = true) :
    plainObject (cursorJson at' id) =
      some [(py "at", .string at'), (py "id", .string id), (py "v", .number 1)] := by
  have hkeys : (∀ c ∈ py "at", plainChar c = true) ∧ (∀ c ∈ py "id", plainChar c = true) := by
    rw [← List.all_eq_true, ← List.all_eq_true]
    decide
  rw [cursorJson_plain hat hid, plainObject, expect_cons]
  have hstring : ∀ (key value : PyStr) (rest : PyStr), (∀ c ∈ key, plainChar c = true) →
      (∀ c ∈ value, plainChar c = true) →
      plainField (0x22 :: (key ++ 0x22 :: 0x3A :: 0x22 :: (value ++ 0x22 :: rest))) =
        some ((key, .string value), rest) := by
    intro key value rest hkey hvalue
    rw [plainField, expect_cons]
    simp only [Option.bind_eq_bind, Option.bind_some, plainString_append hkey, expect_cons, plainValue,
      if_true, plainString_append hvalue, Option.map_some]
  have hversion : plainField (0x22 :: (py "v" ++ 0x22 :: 0x3A :: 0x31 :: [0x7D])) =
      some ((py "v", .number 1), [0x7D]) := by
    decide +kernel
  have hat' : py "at" = [0x61, 0x74] := by decide
  -- three fields, and a text of more characters
  have hfields : ∀ n, plainFields (n + 3) (0x22 :: (py "at" ++ 0x22 :: 0x3A :: 0x22 ::
      (at' ++ 0x22 :: 0x2C :: 0x22 :: (py "id" ++ 0x22 :: 0x3A :: 0x22 :: (id ++ 0x22 :: 0x2C ::
        0x22 :: (py "v" ++ 0x22 :: 0x3A :: 0x31 :: [0x7D])))))) =
      some [(py "at", .string at'), (py "id", .string id), (py "v", .number 1)] := by
    intro n
    rw [plainFields, hstring _ _ _ hkeys.1 hat]
    dsimp only
    rw [if_neg (by simp), if_pos rfl, plainFields, hstring _ _ _ hkeys.2 hid]
    dsimp only
    rw [if_neg (by simp), if_pos rfl, plainFields, hversion]
    rfl
  simp only [Option.bind_eq_bind, Option.bind_some]
  rw [← hfields _, hat']
  rfl

/-- ASCII text in bytes and back. -/
theorem asciiText_asciiBytes {s : PyStr} (hs : ∀ c ∈ s, c.val < 0x80) :
    asciiText (asciiBytes s) = some s := by
  have hbyte : ∀ c ∈ s, (Base64.byte c.val).val = c.val := fun c hc =>
    Nat.mod_eq_of_lt ((hs c hc).trans (by decide))
  have hall : (asciiBytes s).all (fun b => b.val < 0x80) = true := by
    rw [List.all_eq_true]
    intro b hb
    obtain ⟨c, hc, rfl⟩ := List.mem_map.1 hb
    rw [hbyte c hc]
    exact decide_eq_true (hs c hc)
  rw [asciiText, if_pos hall, asciiBytes, List.map_map]
  congr 1
  refine (List.map_congr_left fun c hc => ?_).trans (List.map_id s)
  show Fin.ofNat _ (Base64.byte c.val).val = c
  rw [hbyte c hc]
  exact Fin.ext (Nat.mod_eq_of_lt c.isLt)

theorem plainChar_of_digit {c : CodePoint} (h : (hexValue c).isSome ∨ (decimalValue c).isSome) :
    plainChar c = true := by
  have hrange : 0x30 ≤ c.val ∧ c.val ≤ 0x39 ∨ 0x41 ≤ c.val ∧ c.val ≤ 0x46 ∨
      0x61 ≤ c.val ∧ c.val ≤ 0x66 := by
    rcases h with h | h
    · unfold hexValue at h
      split_ifs at h <;> first | omega | cases h
    · unfold decimalValue at h
      split_ifs at h <;> first | omega | cases h
  simp only [plainChar, Bool.and_eq_true, decide_eq_true_eq, bne_iff_ne]
  omega

/-- **Cursors round trip.**  A cursor decodes to the sort keys it was encoded from. -/
theorem decode_encode (L : CursorLibrary) {cursor : TransactionCursor}
    (hat : representable cursor.occurredAt = true) (hid : cursor.transactionId < 2 ^ 128) :
    decodeTransactionCursor L (encodeTransactionCursor cursor) = .ok cursor := by
  have hwall : ∀ c ∈ wallText cursor.occurredAt, plainChar c = true ∧ c ≠ 0x2B ∧ c ≠ 0x5A := by
    intro c hc
    rcases wallText_chars cursor.occurredAt c hc with h | rfl | rfl | rfl | rfl
    · refine ⟨plainChar_of_digit (.inr h), ?_, ?_⟩
      · rintro rfl
        cases h
      · rintro rfl
        cases h
    all_goals decide
  have hz : replaceText (py "+00:00") (py "Z") (isoformat cursor.occurredAt) =
      wallText cursor.occurredAt ++ py "Z" :=
    replaceText_suffix fun h => (hwall _ h).2.1 rfl
  have hback : replaceText (py "Z") (py "+00:00") (wallText cursor.occurredAt ++ py "Z") =
      isoformat cursor.occurredAt :=
    replaceText_suffix fun h => (hwall _ h).2.2 rfl
  have hatPlain : ∀ c ∈ wallText cursor.occurredAt ++ py "Z", plainChar c = true := by
    intro c hc
    rcases List.mem_append.1 hc with hc | hc
    · exact (hwall c hc).1
    · rw [List.mem_singleton.1 (show c ∈ [(0x5A : CodePoint)] from hc)]
      decide
  have hidPlain : ∀ c ∈ uuidText cursor.transactionId, plainChar c = true := by
    intro c hc
    rcases uuidText_chars cursor.transactionId c hc with h | rfl
    · exact plainChar_of_digit (.inl h)
    · decide
  have hascii : ∀ c ∈ cursorJson (wallText cursor.occurredAt ++ py "Z")
      (uuidText cursor.transactionId), c.val < 0x80 := by
    have hlt : ∀ c, plainChar c = true → c.val < 0x80 := by
      intro c hc
      simp only [plainChar, Bool.and_eq_true, decide_eq_true_eq] at hc
      exact hc.1.1.2
    have hkey : ∀ key : PyStr, key.all (fun c => c.val < 0x80) = true → ∀ c ∈ key, c.val < 0x80 :=
      fun key hall c hc => of_decide_eq_true (List.all_eq_true.1 hall c hc)
    rw [cursorJson_plain hatPlain hidPlain]
    simp only [List.forall_mem_cons, List.forall_mem_append]
    simp only [List.forall_mem_append] at hatPlain
    refine ⟨by decide, by decide, hkey _ (by decide), by decide, by decide, by decide,
      ⟨fun c hc => hlt c (hatPlain.1 c hc), fun c hc => hlt c (hatPlain.2 c hc)⟩, by decide,
      by decide, by decide, hkey _ (by decide), by decide, by decide, by decide,
      fun c hc => hlt c (hidPlain c hc), by decide, by decide, by decide, hkey _ (by decide),
      by decide, by decide, by decide, by decide, fun c hc => by cases hc⟩
  have hfields : cursorFields L [(py "at", .string (wallText cursor.occurredAt ++ py "Z")),
      (py "id", .string (uuidText cursor.transactionId)), (py "v", .number 1)] =
      some (cursor.occurredAt, 0, cursor.transactionId) := by
    have hversion : isCursorVersion (.number 1) = true := by decide +kernel
    show (if !isCursorVersion (.number 1) then none else
      (((isoExtended (replaceText (py "Z") (py "+00:00")
        (wallText cursor.occurredAt ++ py "Z"))).or (L.fromisoformat _)).bind fun occurredAt =>
      occurredAt.offset.bind fun offset =>
      ((uuidOfText (uuidText cursor.transactionId)).or (L.uuid _)).bind fun transactionId =>
      some (occurredAt.wall, offset, transactionId))) = _
    rw [hversion, hback, isoExtended_isoformat hat, uuidOfText_uuidText hid]
    rfl
  rw [encodeTransactionCursor, decodeTransactionCursor, Base64.decode_bare urlsafe_lawful, hz]
  dsimp only
  rw [loadsObject, asciiText_asciiBytes hascii, Option.bind_some,
    plainObject_cursorJson hatPlain hidPlain]
  dsimp only
  rw [hfields]
  simp only [astimezoneUtc, sub_zero, hat, if_true]

/-! ### Pages -/

/-- `TransactionEdge` -/
structure TransactionEdge where
  cursor : PyStr
  node : TransactionView
  deriving DecidableEq

/-- `TransactionPage` -/
structure TransactionPage where
  edges : List TransactionEdge
  hasNextPage : Bool
  endCursor : Option PyStr
  deriving DecidableEq

/-- `_transaction_view` of a stored row. -/
def transactionRowView (t : LedgerTransaction) (merchantName categoryName : Option PyStr) :
    TransactionView where
  id := t.id
  amount := t.amount.value
  currency := t.currency
  transactionType := t.transactionType
  description := t.description
  transactionDate := t.transactionDate
  status := t.status
  merchantName := merchantName
  categoryName := categoryName
  categorySource := t.categorySource
  categoryClassifierVersion := t.categoryClassifierVersion
  categoryConfidence := t.categoryConfidence.map Confidence.value
  categoryOverridden := t.categoryOverridden

/-- The keyset predicate. -/
def below (after : TransactionCursor) (t : LedgerTransaction) : Bool :=
  t.transactionDate < after.occurredAt ||
    t.transactionDate == after.occurredAt && t.id < after.transactionId

/-- `ORDER BY transaction_date DESC, id DESC` -/
def notBefore (a b : LedgerTransaction) : Bool :=
  b.transactionDate < a.transactionDate || b.transactionDate == a.transactionDate && b.id ≤ a.id

/-- The selected transactions joined with the names of their merchants and categories. -/
def joinedTransactions (userId : Uuid) (after : Option TransactionCursor) (g : Db) :
    List (LedgerTransaction × Option PyStr × Option PyStr) :=
  (g.transactions.filter fun t => t.userId == userId && after.all (below · t)).flatMap fun t =>
    (Table.outerJoin (fun m => some m.id == t.merchantId) g.merchants).flatMap fun m =>
      (Table.outerJoin (fun c => some c.id == t.categoryId) g.categories).map fun c =>
        (t, m.map Merchant.displayName, c.map Category.name)

/-- `list_transactions` of the repository. -/
def listTransactionRows (userId : Uuid) (limit : Nat) (after : Option TransactionCursor) :
    DbTx (List TransactionView) :=
  reads fun g => (((joinedTransactions userId after g).insertionSort fun a b =>
    notBefore a.1 b.1 = true).take limit).map fun row => transactionRowView row.1 row.2.1 row.2.2

/-- One page of the rows read for it. -/
def transactionPage (pageSize : Nat) (rows : List TransactionView) : TransactionPage :=
  let edges := (rows.take pageSize).map fun row =>
    ⟨encodeTransactionCursor ⟨row.transactionDate, row.id⟩, row⟩
  { edges := edges
    hasNextPage := pageSize < rows.length
    endCursor := edges.getLast?.map TransactionEdge.cursor }

/-- `decode_transaction_cursor(after) if after is not None else None` -/
def decodeAfter (L : CursorLibrary) : Option PyStr → Except AppError (Option TransactionCursor)
  | none => .ok none
  | some after => (decodeTransactionCursor L after).map some

/-- `list_transactions` -/
def listTransactions (L : CursorLibrary) (userId : Uuid) (first : ℤ) (after : Option PyStr) :
    DbTx TransactionPage := do
  let pageSize ← ofExcept .ledger (validatePageSize first)
  let decodedCursor ← ofExcept id (decodeAfter L after)
  let known ← reads fun g => g.users.any fun u => u.id == userId
  require known (.ledger profileNotFound)
  let rows ← listTransactionRows userId (pageSize + 1) decodedCursor
  pure (transactionPage pageSize rows)

/-! ### One page -/

/-- What the schema promises of the rows that are listed: primary keys, identifiers of 128
    bits and times of the calendar. -/
structure Listable (userId : Uuid) (g : Db) : Prop where
  known : ∃ u ∈ g.users, u.id = userId
  transactions : (g.transactions.map LedgerTransaction.id).Nodup
  merchants : (g.merchants.map Merchant.id).Nodup
  categories : (g.categories.map Category.id).Nodup
  uuids : ∀ t ∈ g.transactions, t.id < 2 ^ 128
  dates : ∀ t ∈ g.transactions, representable t.transactionDate = true

/-- The owner's transactions. -/
def ownTransactions (userId : Uuid) (g : Db) : List LedgerTransaction :=
  g.transactions.filter fun t => t.userId == userId

/-- The sort key of a transaction: its date, then its identifier. -/
def sortKey (t : LedgerTransaction) : Lex (Nat × Nat) := toLex (t.transactionDate.toNat, t.id)

/-- The view of a stored transaction. -/
def viewOf (g : Db) (t : LedgerTransaction) : TransactionView :=
  transactionRowView t ((g.merchants.find? fun m => some m.id == t.merchantId).map Merchant.displayName)
    ((g.categories.find? fun c => some c.id == t.categoryId).map Category.name)

section Page

variable {L : CursorLibrary} {userId : Uuid} {g : Db}

/-- The sort keys compare as the query does. -/
theorem sortKey_lt {a b : LedgerTransaction} (ha : representable a.transactionDate = true)
    (hb : representable b.transactionDate = true) : sortKey a < sortKey b ↔
      a.transactionDate < b.transactionDate ∨ a.transactionDate = b.transactionDate ∧ a.id < b.id := by
  have hpos : ∀ t : ℤ, representable t = true → 0 ≤ t := by
    intro t ht
    rw [representable, Bool.and_eq_true] at ht
    exact of_decide_eq_true ht.1
  obtain ⟨m, hm⟩ := Int.eq_ofNat_of_zero_le (hpos _ ha)
  obtain ⟨n, hn⟩ := Int.eq_ofNat_of_zero_le (hpos _ hb)
  rw [sortKey, sortKey, Prod.Lex.toLex_lt_toLex, hm, hn]
  simp only [Int.toNat_natCast, Nat.cast_lt, Nat.cast_inj]

/-- The cursor of a transaction. -/
def cursorOf (t : LedgerTransaction) : TransactionCursor := ⟨t.transactionDate, t.id⟩

/-- The owner's transactions after one of them, newest first. -/
def remaining (userId : Uuid) (c : Option LedgerTransaction) (g : Db) : List LedgerTransaction :=
  Keyset.timeline sortKey (Keyset.before sortKey (c.map sortKey) (ownTransactions userId g))

theorem sortKey_nodup (hg : Listable userId g) :
    ((ownTransactions userId g).map sortKey).Nodup := by
  have hids : ((ownTransactions userId g).map LedgerTransaction.id).Nodup :=
    hg.transactions.sublist (List.filter_sublist.map _)
  refine List.Nodup.of_map (fun k => (ofLex k).2) ?_
  rw [List.map_map]
  exact hids

/-- The joins find each transaction's merchant and category, or none. -/
theorem joined_transactions (hg : Listable userId g) (after : Option TransactionCursor) :
    joinedTransactions userId after g =
      (g.transactions.filter fun t => t.userId == userId && after.all (below · t)).map fun t =>
        (t, (g.merchants.find? fun m => some m.id == t.merchantId).map Merchant.displayName,
          (g.categories.find? fun c => some c.id == t.categoryId).map Category.name) := by
  have hmerchants : (g.merchants.map fun m => some m.id).Nodup := by
    have := hg.merchants.map (Option.some_injective Uuid)
    rwa [List.map_map] at this
  have hcategories : (g.categories.map fun c => some c.id).Nodup := by
    have := hg.categories.map (Option.some_injective Uuid)
    rwa [List.map_map] at this
  rw [joinedTransactions, ← List.flatMap_singleton' (List.map _ _), List.flatMap_map]
  refine List.flatMap_congr fun t _ => ?_
  rw [Table.outerJoin_eq (k := t.merchantId) hmerchants fun m _ hm => by simpa using hm,
    Table.outerJoin_eq (k := t.categoryId) hcategories fun c _ hc => by simpa using hc]
  rfl

/-- The rows read for a page are the first of the owner's remaining transactions. -/
theorem listTransactionRows_eq (hg : Listable userId g) (limit : Nat) {c : Option LedgerTransaction}
    (hc : ∀ t, c = some t → representable t.transactionDate = true) :
    (listTransactionRows userId limit (c.map cursorOf)).run g =
      .ok (((remaining userId c g).take limit).map (viewOf g), g) := by
  have hdate : ∀ t ∈ g.transactions, representable t.transactionDate = true := hg.dates
  have hselected : (g.transactions.filter fun t => t.userId == userId && (c.map cursorOf).all (below · t)) =
      Keyset.before sortKey (c.map sortKey) (ownTransactions userId g) := by
    rw [Keyset.before, ownTransactions, List.filter_filter]
    refine List.filter_congr fun t ht => ?_
    rw [Bool.and_comm]
    congr 1
    cases c with
    | none => rfl
    | some a =>
      have hlt := sortKey_lt (hdate t ht) (hc a rfl)
      show (t.transactionDate < a.transactionDate || t.transactionDate == a.transactionDate &&
        t.id < a.id : Bool) = decide (sortKey t < sortKey a)
      rw [Bool.eq_iff_iff, decide_eq_true_eq, hlt]
      simp
  have hmem : ∀ t ∈ Keyset.before sortKey (c.map sortKey) (ownTransactions userId g),
      t ∈ g.transactions := fun t ht => List.mem_of_mem_filter (Keyset.mem_before.1 ht).1
  have horder : ∀ a ∈ Keyset.before sortKey (c.map sortKey) (ownTransactions userId g),
      ∀ b ∈ Keyset.before sortKey (c.map sortKey) (ownTransactions userId g),
      (sortKey b ≤ sortKey a ↔ notBefore a b = true) := by
    intro a ha b hb
    have hlt := sortKey_lt (hdate a (hmem a ha)) (hdate b (hmem b hb))
    rw [← not_lt, hlt, notBefore, Bool.or_eq_true, Bool.and_eq_true, decide_eq_true_eq,
      decide_eq_true_eq, beq_iff_eq]
    have horder : ∀ (x y : ℤ) (m n : ℕ), ¬ (x < y ∨ x = y ∧ m < n) ↔ y < x ∨ y = x ∧ n ≤ m := by
      intro x y m n
      omega
    exact horder _ _ _ _
  rw [listTransactionRows, Tx.run_reads, joined_transactions hg, hselected]
  have hsort := List.map_insertionSort (fun a b => sortKey b ≤ sortKey a)
    (fun a b : LedgerTransaction × Option PyStr × Option PyStr => notBefore a.1 b.1 = true)
    (fun t => (t, (g.merchants.find? fun m => some m.id == t.merchantId).map Merchant.displayName,
      (g.categories.find? fun c => some c.id == t.categoryId).map Category.name)) _ horder
  rw [← hsort, ← List.map_take, List.map_map]
  rfl

/-- The page of a request that follows a transaction of the calendar. -/
theorem listTransactions_run (hg : Listable userId g) {first : ℤ} (hfirst : 1 ≤ first ∧ first ≤ 100)
    {c : Option LedgerTransaction}
    (hc : ∀ t, c = some t → representable t.transactionDate = true ∧ t.id < 2 ^ 128) :
    (listTransactions L userId first (c.map fun t => encodeTransactionCursor (cursorOf t))).run g =
      .ok (transactionPage first.toNat
        (((remaining userId c g).take (first.toNat + 1)).map (viewOf g)), g) := by
  have hsize : validatePageSize first = .ok first.toNat := by
    rw [validatePageSize, if_neg]
    rw [MAX_PAGE_SIZE]
    omega
  have hdecoded : decodeAfter L (c.map fun t => encodeTransactionCursor (cursorOf t)) =
      .ok (c.map cursorOf) := by
    cases c with
    | none => rfl
    | some t =>
      have ht := hc t rfl
      show (decodeTransactionCursor L (encodeTransactionCursor (cursorOf t))).map some = _
      rw [decode_encode L ht.1 ht.2]
      rfl
  have hknown : (g.users.any fun u => u.id == userId) = true := by
    obtain ⟨u, hu, hid⟩ := hg.known
    exact List.any_eq_true.2 ⟨u, hu, by simp [hid]⟩
  have hrows := listTransactionRows_eq hg (first.toNat + 1) fun t ht => (hc t ht).1
  simp only [listTransactions, Tx.run_bind, run_ofExcept, hsize, hdecoded, Tx.run_reads, run_require,
    hknown, if_true, hrows, Tx.run_pure]

/-- What a page shows, whether another follows, and from where. -/
theorem transactionPage_spec (g : Db) (size : Nat) (l : List LedgerTransaction) :
    let page := transactionPage (size + 1) ((l.take (size + 2)).map (viewOf g))
    page.edges.map TransactionEdge.node = (l.take (size + 1)).map (viewOf g) ∧
    (page.hasNextPage = true ↔ size + 1 < l.length) ∧
    ∀ r, l[size]? = some r → page.endCursor = some (encodeTransactionCursor (cursorOf r)) := by
  intro page
  have hrows : ((l.take (size + 2)).map (viewOf g)).take (size + 1) =
      (l.take (size + 1)).map (viewOf g) := by
    rw [← List.map_take, List.take_take]
    congr 2
    omega
  refine ⟨?_, ?_, fun r hr => ?_⟩
  · simp only [page, transactionPage, hrows, List.map_map]
    rfl
  · simp only [page, transactionPage, decide_eq_true_eq, List.length_map, List.length_take]
    omega
  · have hlast : (l.take (size + 1)).getLast? = some r := by
      rw [List.getLast?_take, if_neg (by omega), Nat.add_sub_cancel, hr, Option.some_or]
    simp only [page, transactionPage, hrows, List.getLast?_map, hlast, Option.map_some]
    congr 1

end Page

/-! ### From page to page -/

/-- The pages of the requests from the `i`-th on, each following the end cursor of the one
    before, until no page follows. -/
inductive Follows (L : CursorLibrary) (userId : Uuid) (stores : Nat → Db) (sizes : Nat → ℤ) :
    Nat → Option PyStr → List TransactionPage → Prop
  | last {i : Nat} {after : Option PyStr} {page : TransactionPage} :
      (listTransactions L userId (sizes i) after).run (stores i) = .ok (page, stores i) →
      page.hasNextPage = false → Follows L userId stores sizes i after [page]
  | next {i : Nat} {after : Option PyStr} {page : TransactionPage} {pages : List TransactionPage} :
      (listTransactions L userId (sizes i) after).run (stores i) = .ok (page, stores i) →
      page.hasNextPage = true → Follows L userId stores sizes (i + 1) page.endCursor pages →
      Follows L userId stores sizes i after (page :: pages)

section Follows

variable {L : CursorLibrary} {userId : Uuid} {stores : Nat → Db} {sizes : Nat → ℤ} {i : Nat}
  {c : Option LedgerTransaction}

/-- The cursor text that follows a transaction. -/
def afterText (c : Option LedgerTransaction) : Option PyStr :=
  c.map fun t => encodeTransactionCursor (cursorOf t)

/-- The transactions the requests of a walk read. -/
abbrev Walks (userId : Uuid) (stores : Nat → Db) (sizes : Nat → ℤ) :
    Nat → Option LedgerTransaction → List (List LedgerTransaction) → Prop :=
  fun i c => Keyset.Walk sortKey (fun j => ownTransactions userId (stores j))
    (fun j => (sizes j).toNat - 1) i (c.map sortKey)

/-- A page shows these transactions, as they stand in one of the stores. -/
def Shows (stores : Nat → Db) (page : TransactionPage) (rows : List LedgerTransaction) : Prop :=
  ∃ j, page.edges.map TransactionEdge.node = rows.map (viewOf (stores j))

theorem listable_remaining (hok : ∀ j, Listable userId (stores j)) {t : LedgerTransaction}
    (ht : t ∈ remaining userId c (stores i)) :
    representable t.transactionDate = true ∧ t.id < 2 ^ 128 := by
  have hmem := List.mem_of_mem_filter (Keyset.mem_before.1 (Keyset.mem_timeline.1 ht)).1
  exact ⟨(hok i).dates t hmem, (hok i).uuids t hmem⟩

theorem exists_size {first : ℤ} (h : 1 ≤ first ∧ first ≤ 100) : ∃ n, first.toNat = n + 1 := by
  refine ⟨first.toNat - 1, ?_⟩
  omega

/-- Following the cursors is walking through the owner's transactions. -/
theorem Follows.walk (hok : ∀ j, Listable userId (stores j))
    (hsizes : ∀ j, 1 ≤ sizes j ∧ sizes j ≤ 100) {after : Option PyStr}
    {pages : List TransactionPage} (hf : Follows L userId stores sizes i after pages)
    (hc : ∀ t, c = some t → representable t.transactionDate = true ∧ t.id < 2 ^ 128)
    (hafter : after = afterText c) :
    ∃ rows, Walks userId stores sizes i c rows ∧ List.Forall₂ (Shows stores) pages rows := by
  induction hf generalizing c with
  | @last i after page hrun hlast =>
    rw [hafter, afterText, listTransactions_run (hok i) (hsizes i) hc] at hrun
    obtain ⟨n, hn⟩ := exists_size (hsizes i)
    rw [hn] at hrun
    obtain rfl : transactionPage (n + 1) _ = page := (Prod.mk.inj (Except.ok.inj hrun)).1
    obtain ⟨hnodes, hmore, -⟩ := transactionPage_spec (stores i) n (remaining userId c (stores i))
    have hle : (remaining userId c (stores i)).length ≤ n + 1 := by
      by_contra hlt
      rw [hmore.2 (by omega)] at hlast
      cases hlast
    refine ⟨[remaining userId c (stores i)], .last (by rw [hn]; exact hle), .cons ⟨i, ?_⟩ .nil⟩
    rw [hnodes, List.take_of_length_le hle]
  | @next i after page pages hrun hmore _ ih =>
    rw [hafter, afterText, listTransactions_run (hok i) (hsizes i) hc] at hrun
    obtain ⟨n, hn⟩ := exists_size (hsizes i)
    rw [hn] at hrun
    obtain rfl : transactionPage (n + 1) _ = page := (Prod.mk.inj (Except.ok.inj hrun)).1
    obtain ⟨hnodes, hmore', hcursor⟩ := transactionPage_spec (stores i) n (remaining userId c (stores i))
    have hlt := hmore'.1 hmore
    have hget := List.getElem?_eq_getElem (l := remaining userId c (stores i)) (i := n) (by omega)
    obtain ⟨rows, hwalk, hshows⟩ := ih (c := some (remaining userId c (stores i))[n])
      (fun t ht => Option.some.inj ht ▸ listable_remaining hok (List.mem_of_getElem? hget))
      (hcursor _ hget)
    refine ⟨(remaining userId c (stores i)).take (n + 1) :: rows, ?_, .cons ⟨i, hnodes⟩ hshows⟩
    have hstep : Walks userId stores sizes i c
        ((remaining userId c (stores i)).take ((sizes i).toNat - 1 + 1) :: rows) :=
      .next (by rw [hn]; exact hlt) (by rw [hn]; exact hget) hwalk
    rwa [hn] at hstep

/-- Where a walk goes, the requests can follow. -/
theorem exists_follows (hok : ∀ j, Listable userId (stores j))
    (hsizes : ∀ j, 1 ≤ sizes j ∧ sizes j ≤ 100) {rows : List (List LedgerTransaction)}
    (hw : Walks userId stores sizes i c rows)
    (hc : ∀ t, c = some t → representable t.transactionDate = true ∧ t.id < 2 ^ 128) :
    ∃ pages, Follows L userId stores sizes i (afterText c) pages := by
  unfold Walks at hw
  generalize hk : c.map sortKey = cursor at hw
  induction hw generalizing c with
  | @last i cursor hle =>
    subst hk
    obtain ⟨n, hn⟩ := exists_size (hsizes i)
    have hrun := listTransactions_run (L := L) (hok i) (hsizes i) hc
    rw [hn] at hrun hle
    obtain ⟨-, hmore, -⟩ := transactionPage_spec (stores i) n (remaining userId c (stores i))
    refine ⟨_, .last hrun ?_⟩
    rw [← Bool.not_eq_true, hmore]
    exact not_lt.2 hle
  | @next i cursor r rows hlt hget _ ih =>
    subst hk
    obtain ⟨n, hn⟩ := exists_size (hsizes i)
    have hrun := listTransactions_run (L := L) (hok i) (hsizes i) hc
    rw [hn] at hrun hlt hget
    obtain ⟨-, hmore, hcursor⟩ := transactionPage_spec (stores i) n (remaining userId c (stores i))
    have hnext := ih (c := some r)
      (fun t ht => Option.some.inj ht ▸ listable_remaining (c := c) hok (List.mem_of_getElem? hget)) rfl
    change ∃ pages, Follows L userId stores sizes (i + 1)
      (some (encodeTransactionCursor (cursorOf r))) pages at hnext
    obtain ⟨pages, hpages⟩ := hnext
    rw [← hcursor r hget] at hpages
    exact ⟨_, .next hrun (hmore.2 hlt) hpages⟩

/-- What the pages show, row by row. -/
theorem nodes_of_shows {pages : List TransactionPage} {rows : List (List LedgerTransaction)}
    (h : List.Forall₂ (Shows stores) pages rows) :
    List.Forall₂ (fun v t => ∃ j, v = viewOf (stores j) t)
      (pages.flatMap fun page => page.edges.map TransactionEdge.node) rows.flatten := by
  induction h with
  | nil => exact .nil
  | @cons page l pages rows hshow _ ih =>
    obtain ⟨j, hj⟩ := hshow
    rw [List.flatMap_cons, List.flatten_cons]
    refine List.rel_append ?_ ih
    rw [hj, List.forall₂_map_left_iff]
    exact List.forall₂_same.2 fun t _ => ⟨j, rfl⟩

/-- The views show the transactions in their order, each of them, and no others. -/
theorem spec_of_forall₂ {nodes : List TransactionView} {ts : List LedgerTransaction}
    (h : List.Forall₂ (fun v t => ∃ j, v = viewOf (stores j) t) nodes ts) :
    (nodes.map fun v => (v.transactionDate, v.id)) = (ts.map fun t => (t.transactionDate, t.id)) ∧
    (∀ v ∈ nodes, ∃ j, ∃ t ∈ ts, v = viewOf (stores j) t) ∧
    ∀ t ∈ ts, ∃ j, viewOf (stores j) t ∈ nodes := by
  induction h with
  | nil => simp
  | @cons v t nodes ts hv _ ih =>
    obtain ⟨j, rfl⟩ := hv
    obtain ⟨hkeys, hleft, hright⟩ := ih
    refine ⟨by rw [List.map_cons, List.map_cons, hkeys]; rfl, fun v hv => ?_, fun t' ht' => ?_⟩
    · rcases List.mem_cons.1 hv with rfl | hv
      · exact ⟨j, t, List.mem_cons_self, rfl⟩
      · obtain ⟨k, t', ht', heq⟩ := hleft v hv
        exact ⟨k, t', List.mem_cons_of_mem t ht', heq⟩
    · rcases List.mem_cons.1 ht' with rfl | ht'
      · exact ⟨j, List.mem_cons_self⟩
      · obtain ⟨k, hk⟩ := hright t' ht'
        exact ⟨k, List.mem_cons_of_mem _ hk⟩

/-- **Keyset pagination is exact.**  Let every store list the owner's transactions, and let
    every transaction stay once it is there.  With page sizes from 1 to 100, following the end
    cursors from the first page on comes to an end.  The transactions it yields are the owner's,
    in strictly descending order of their dates and identifiers, and none is yielded twice;
    every one that is there at the first request is yielded; and if the stores are all the same,
    what is yielded is the owner's transactions in that order, each once. -/
theorem pagination_exact (hok : ∀ j, Listable userId (stores j))
    (hgrow : ∀ j, ∀ t ∈ (stores j).transactions, t ∈ (stores (j + 1)).transactions)
    (hsizes : ∀ j, 1 ≤ sizes j ∧ sizes j ≤ 100) :
    (∃ pages, Follows L userId stores sizes 0 none pages) ∧
    ∀ pages, Follows L userId stores sizes 0 none pages →
      let nodes := pages.flatMap fun page => page.edges.map TransactionEdge.node
      nodes.Pairwise (fun a b => b.transactionDate < a.transactionDate ∨
        b.transactionDate = a.transactionDate ∧ b.id < a.id) ∧
      (nodes.map TransactionView.id).Nodup ∧
      (∀ v ∈ nodes, ∃ j k, ∃ t ∈ (stores j).transactions, t.userId = userId ∧
        v = viewOf (stores k) t) ∧
      (∀ t ∈ (stores 0).transactions, t.userId = userId →
        ∃ k, viewOf (stores k) t ∈ nodes) ∧
      ((∀ j, stores j = stores 0) → ∃ rows : List LedgerTransaction,
        rows.Perm (ownTransactions userId (stores 0)) ∧ nodes = rows.map (viewOf (stores 0))) := by
  have hfirst : ∀ t, (none : Option LedgerTransaction) = some t →
      representable t.transactionDate = true ∧ t.id < 2 ^ 128 := fun t ht => by cases ht
  have hlater : ∀ {j k}, j ≤ k → ∀ t ∈ (stores j).transactions, t ∈ (stores k).transactions := by
    intro j k hjk
    induction hjk with
    | refl => exact fun t ht => ht
    | step _ ih => exact fun t ht => hgrow _ t (ih t ht)
  constructor
  · obtain ⟨rows, hw⟩ : ∃ rows, Walks userId stores sizes 0 none rows :=
      Keyset.exists_walk (fun j => ownTransactions userId (stores j))
        (fun j => (sizes j).toNat - 1) 0 none
    exact exists_follows hok hsizes (c := none) hw hfirst
  intro pages hf nodes
  obtain ⟨rows, hw, hshows⟩ := hf.walk hok hsizes (c := none) hfirst rfl
  have hnodes : List.Forall₂ (fun v t => ∃ j, v = viewOf (stores j) t) nodes rows.flatten :=
    nodes_of_shows hshows
  have hmem : ∀ t ∈ rows.flatten, ∃ j, t ∈ (stores j).transactions ∧ t.userId = userId := by
    intro t ht
    obtain ⟨j, -, hj⟩ := (hw.mem t ht).1
    exact ⟨j, List.mem_of_mem_filter hj, by simpa using List.of_mem_filter hj⟩
  have hdescending := hw.descending fun j => sortKey_nodup (hok j)
  obtain ⟨hkeys, hleft, hright⟩ := spec_of_forall₂ hnodes
  refine ⟨?_, ?_, fun v hv => ?_, fun t ht howner => ?_, fun hsame => ?_⟩
  · have horder : rows.flatten.Pairwise fun a b => b.transactionDate < a.transactionDate ∨
        b.transactionDate = a.transactionDate ∧ b.id < a.id := by
      refine hdescending.imp_of_mem fun ha hb hlt => ?_
      obtain ⟨j, hj, -⟩ := hmem _ ha
      obtain ⟨k, hk, -⟩ := hmem _ hb
      exact (sortKey_lt ((hok k).dates _ hk) ((hok j).dates _ hj)).1 hlt
    have hpairs := List.pairwise_map (f := fun t : LedgerTransaction => (t.transactionDate, t.id))
      (R := fun a b => b.1 < a.1 ∨ b.1 = a.1 ∧ b.2 < a.2) |>.2 horder
    rw [← hkeys, List.pairwise_map] at hpairs
    exact hpairs
  · -- rows with one identifier are the same row, and a row is not after itself
    have hids : (rows.flatten.map LedgerTransaction.id).Nodup := by
      rw [List.Nodup, List.pairwise_map]
      refine hdescending.imp_of_mem fun {a b} ha hb hlt hid => ?_
      obtain ⟨j, hj, -⟩ := hmem _ ha
      obtain ⟨k, hk, -⟩ := hmem _ hb
      have hsame := List.inj_on_of_nodup_map (hok (max j k)).transactions
        (hlater (le_max_left j k) a hj) (hlater (le_max_right j k) b hk) hid
      rw [hsame] at hlt
      exact lt_irrefl _ hlt
    have hmap := congrArg (List.map Prod.snd) hkeys
    rw [List.map_map, List.map_map] at hmap
    show (nodes.map (Prod.snd ∘ fun v : TransactionView => (v.transactionDate, v.id))).Nodup
    rw [hmap]
    exact hids
  · obtain ⟨k, t, ht, rfl⟩ := hleft v hv
    obtain ⟨j, hj, howner⟩ := hmem t ht
    exact ⟨j, k, t, hj, howner, rfl⟩
  · refine hright t (hw.complete (fun j => sortKey_nodup (hok j)) (fun j _ => ?_) fun k hk => ?_)
    · exact List.mem_filter.2 ⟨hlater (Nat.zero_le j) t ht, by simp [howner]⟩
    · cases hk
  · have hstores : (fun j => ownTransactions userId (stores j)) =
        fun _ => ownTransactions userId (stores 0) := funext fun j => by rw [hsame j]
    refine ⟨rows.flatten, ?_, ?_⟩
    · rw [Walks, hstores] at hw
      rw [hw.exact (sortKey_nodup (hok 0))]
      refine (List.perm_insertionSort _ _).trans (List.Perm.of_eq ?_)
      exact List.filter_eq_self.2 fun _ _ => rfl
    · have heq : List.Forall₂ Eq nodes (rows.flatten.map (viewOf (stores 0))) := by
        rw [List.forall₂_map_right_iff]
        exact hnodes.imp fun v t ⟨j, hv⟩ => by rw [hv, hsame j]
      rwa [List.forall₂_eq_eq_eq] at heq

end Follows

/-- A transaction at the epoch. -/
def pagedRow (id : Uuid) : LedgerTransaction where
  id := id
  userId := 1
  amount := ⟨12500, by norm_num⟩
  currency := py "EUR"
  transactionType := .expense
  merchantId := none
  categoryId := none
  description := py "Lunch"
  transactionDate := 0
  source := .manual
  confidence := none
  status := .posted
  categorySource := none
  categoryClassifierVersion := none
  categoryConfidence := none
  categoryOverridden := false

/-- A store of three transactions of one date, to which a fourth is added after the first
    request. -/
def pagedStores : Nat → Db
  | 0 => { Db.empty 0 with
      users := [⟨1, py "UTC", py "EUR"⟩]
      transactions := [pagedRow 4, pagedRow 2, pagedRow 3] }
  | _ + 1 => { Db.empty 0 with
      users := [⟨1, py "UTC", py "EUR"⟩]
      transactions := [pagedRow 4, pagedRow 2, pagedRow 3, pagedRow 1] }

theorem pagedStores_listable (j : Nat) : Listable 1 (pagedStores j) := by
  have hepoch : representable 0 = true := by decide +kernel
  have hdate : ∀ id, representable (pagedRow id).transactionDate = true := fun _ => hepoch
  cases j with
  | zero =>
    refine ⟨⟨_, List.mem_cons_self, rfl⟩, by decide, .nil, .nil, fun t ht => ?_, fun t ht => ?_⟩
    · simp only [pagedStores, List.mem_cons, List.not_mem_nil, or_false] at ht
      rcases ht with rfl | rfl | rfl <;> norm_num [pagedRow]
    · simp only [pagedStores, List.mem_cons, List.not_mem_nil, or_false] at ht
      rcases ht with rfl | rfl | rfl <;> exact hdate _
  | succ j =>
    have hids : [4, 2, 3, 1].Nodup := by decide
    refine ⟨⟨_, List.mem_cons_self, rfl⟩, hids, .nil, .nil, fun t ht => ?_, fun t ht => ?_⟩
    · simp only [pagedStores, List.mem_cons, List.not_mem_nil, or_false] at ht
      rcases ht with rfl | rfl | rfl | rfl <;> norm_num [pagedRow]
    · simp only [pagedStores, List.mem_cons, List.not_mem_nil, or_false] at ht
      rcases ht with rfl | rfl | rfl | rfl <;> exact hdate _

/-- A library that reads no other texts. -/
def noOtherTexts : CursorLibrary := ⟨fun _ => .rejected, fun _ => none, fun _ => none⟩

/-- Page sizes by turns of one and of two. -/
def pagedSizes (j : Nat) : ℤ := j % 2 + 1

/-- Pages of one and of two rows, over dates that are all the same. -/
theorem pagination_exact_ties :
    (∃ pages, Follows noOtherTexts 1 pagedStores pagedSizes 0 none pages) ∧
    ∀ pages, Follows noOtherTexts 1 pagedStores pagedSizes 0 none pages →
      ((pages.flatMap fun page => page.edges.map TransactionEdge.node).map
        TransactionView.id).Nodup ∧
      ∀ t ∈ (pagedStores 0).transactions, t.userId = 1 → ∃ k, viewOf (pagedStores k) t ∈
        pages.flatMap fun page => page.edges.map TransactionEdge.node := by
  have hgrow : ∀ j, ∀ t ∈ (pagedStores j).transactions, t ∈ (pagedStores (j + 1)).transactions := by
    intro j t ht
    cases j with
    | zero => exact List.mem_append_left [pagedRow 1] ht
    | succ j => exact ht
  have hsizes : ∀ j, 1 ≤ pagedSizes j ∧ pagedSizes j ≤ 100 := by
    intro j
    rw [pagedSizes]
    omega
  obtain ⟨hends, hpages⟩ := pagination_exact (L := noOtherTexts) pagedStores_listable hgrow hsizes
  exact ⟨hends, fun pages h => ⟨(hpages pages h).2.1, (hpages pages h).2.2.2.1⟩⟩

end Expensea.Ledger
