import Expensea.Ledger.Pagination

namespace Expensea.Ledger

/-!
# Cursors of any text

What `decode_transaction_cursor` does on a string that no cursor was encoded to.  Everything up
to the identifier is read inside the handler; the conversion of the time to UTC is not.

* `encodeTransactionCursorAt` — encoding a time of any offset;
* `Spells` — the text is a cursor's, of this clock time, offset and identifier;
* `decode_cases` — the four ways decoding ends;
* `cursor_codec_iff` — cursors round trip, and which texts end in another exception.
-/

/-- `encode_transaction_cursor` of a `datetime`; `none` is the `ValueError` of a naive one, or the
    `OverflowError` of one whose UTC form is outside the calendar. -/
def encodeTransactionCursorAt (occurredAt : DateTime) (transactionId : Uuid) : Option PyStr := do
  let offset ← occurredAt.offset
  let utc ← astimezoneUtc occurredAt.wall offset
  some (encodeTransactionCursor ⟨utc, transactionId⟩)

section Decode

variable (L : CursorLibrary) (rawCursor : PyStr)

/-- The text is the base64 of a cursor's object. -/
def Spells (wall offset : ℤ) (transactionId : Uuid) : Prop :=
  ∃ bytes fields, Base64.decode urlsafe (Base64.padTo4 urlsafe rawCursor) = some bytes ∧
    loadsObject L bytes = .object fields ∧
    cursorFields L fields = some (wall, offset, transactionId)

/-- The text is the base64 of a document nested deeper than the interpreter reads. -/
def NestsTooDeep : Prop :=
  ∃ bytes, Base64.decode urlsafe (Base64.padTo4 urlsafe rawCursor) = some bytes ∧
    loadsObject L bytes = .tooDeep

variable {L rawCursor}

/-- Decoding a cursor's text converts its time to UTC. -/
theorem Spells.decode {wall offset : ℤ} {id : Uuid} (h : Spells L rawCursor wall offset id) :
    decodeTransactionCursor L rawCursor =
      if representable (wall - offset) then .ok ⟨wall - offset, id⟩ else .error .overflow := by
  obtain ⟨bytes, fields, hbytes, hloads, hfields⟩ := h
  simp only [decodeTransactionCursor, hbytes, hloads, hfields, astimezoneUtc]
  by_cases hrange : representable (wall - offset) = true
  · rw [if_pos hrange, if_pos hrange]
  · rw [if_neg hrange, if_neg hrange]

theorem NestsTooDeep.decode (h : NestsTooDeep L rawCursor) :
    decodeTransactionCursor L rawCursor = .error (.runtime "maximum recursion depth exceeded") := by
  obtain ⟨bytes, hbytes, hloads⟩ := h
  simp only [decodeTransactionCursor, hbytes, hloads]

/-- A text is a cursor's, nests too deep, or is rejected. -/
theorem decode_cases (L : CursorLibrary) (rawCursor : PyStr) :
    (∃ wall offset id, Spells L rawCursor wall offset id) ∨ NestsTooDeep L rawCursor ∨
    decodeTransactionCursor L rawCursor = .error (.ledger invalidCursor) := by
  cases hbytes : Base64.decode urlsafe (Base64.padTo4 urlsafe rawCursor) with
  | none =>
    refine .inr (.inr ?_)
    simp only [decodeTransactionCursor, hbytes]
  | some bytes =>
    cases hloads : loadsObject L bytes with
    | tooDeep => exact .inr (.inl ⟨bytes, hbytes, hloads⟩)
    | rejected =>
      refine .inr (.inr ?_)
      simp only [decodeTransactionCursor, hbytes, hloads]
    | object fields =>
      cases hfields : cursorFields L fields with
      | some keys =>
        obtain ⟨wall, offset, id⟩ := keys
        exact .inl ⟨wall, offset, id, bytes, fields, hbytes, hloads, hfields⟩
      | none =>
        refine .inr (.inr ?_)
        simp only [decodeTransactionCursor, hbytes, hloads, hfields]

/-- Which texts are decoded or rejected. -/
theorem decode_total_iff :
    ((∃ cursor, decodeTransactionCursor L rawCursor = .ok cursor) ∨
      decodeTransactionCursor L rawCursor = .error (.ledger invalidCursor)) ↔
    ¬ NestsTooDeep L rawCursor ∧ ∀ wall offset id, Spells L rawCursor wall offset id →
      representable (wall - offset) = true := by
  constructor
  · intro h
    constructor
    · intro hdeep
      rw [hdeep.decode] at h
      rcases h with ⟨cursor, h⟩ | h <;> cases h
    · intro wall offset id hspells
      by_contra hrange
      rw [hspells.decode, if_neg hrange] at h
      rcases h with ⟨cursor, h⟩ | h <;> cases h
  · intro h
    obtain ⟨hdeep, hrange⟩ := h
    rcases decode_cases L rawCursor with ⟨wall, offset, id, hspells⟩ | h | h
    · exact .inl ⟨_, by rw [hspells.decode, if_pos (hrange _ _ _ hspells)]⟩
    · exact absurd h hdeep
    · exact .inr h

end Decode

/-- A time of any offset, encoded and decoded. -/
theorem decode_encodeAt (L : CursorLibrary) {wall offset utc : ℤ} {transactionId : Uuid}
    (hutc : astimezoneUtc wall offset = some utc) (hid : transactionId < 2 ^ 128) :
    ∃ text, encodeTransactionCursorAt ⟨wall, some offset⟩ transactionId = some text ∧
      decodeTransactionCursor L text = .ok ⟨utc, transactionId⟩ := by
  have hrange : representable utc = true := by
    rw [astimezoneUtc] at hutc
    split at hutc
    · rename_i hrange
      rwa [← Option.some.inj hutc]
    · cases hutc
  refine ⟨encodeTransactionCursor ⟨utc, transactionId⟩, ?_, decode_encode L hrange hid⟩
  rw [encodeTransactionCursorAt]
  simp only [Option.bind_eq_bind, Option.bind_some, hutc]

/-- **The cursor codec.**  A time whose UTC form is in the calendar and an identifier decode to
    that time in UTC and that identifier.  A text is decoded or rejected with
    `InvalidCursorError` if and only if it is not nested too deep and does not spell a cursor
    whose time leaves the calendar in UTC. -/
theorem cursor_codec_iff (L : CursorLibrary) :
    (∀ wall offset utc transactionId, astimezoneUtc wall offset = some utc →
      transactionId < 2 ^ 128 →
      ∃ text, encodeTransactionCursorAt ⟨wall, some offset⟩ transactionId = some text ∧
        decodeTransactionCursor L text = .ok ⟨utc, transactionId⟩) ∧
    ∀ rawCursor, ((∃ cursor, decodeTransactionCursor L rawCursor = .ok cursor) ∨
        decodeTransactionCursor L rawCursor = .error (.ledger invalidCursor)) ↔
      ¬ NestsTooDeep L rawCursor ∧ ∀ wall offset id, Spells L rawCursor wall offset id →
        representable (wall - offset) = true :=
  ⟨fun _ _ _ _ hutc hid => decode_encodeAt L hutc hid, fun _ => decode_total_iff⟩

/-- One hour after the epoch, written an hour ahead of UTC. -/
theorem cursor_codec_iff_ahead : ∃ text,
    encodeTransactionCursorAt ⟨7200000000, some 3600000000⟩ 7 = some text ∧
      decodeTransactionCursor noOtherTexts text = .ok ⟨3600000000, 7⟩ :=
  (cursor_codec_iff noOtherTexts).1 7200000000 3600000000 3600000000 7 (by decide +kernel)
    (by norm_num)

/-- The cursor of `0001-01-01T00:00:00+00:01`: in UTC it is a minute before the calendar. -/
def firstMinute : PyStr :=
  py "eyJhdCI6IjAwMDEtMDEtMDFUMDA6MDA6MDArMDA6MDEiLCJpZCI6IjAwMDAwMDAwLTAwMDAtMDAwMC0wMDAwLTAwMDAwMDAwMDAwMSIsInYiOjF9"

/-- It is neither decoded nor rejected. -/
theorem cursor_overflows : ¬ ((∃ cursor,
      decodeTransactionCursor noOtherTexts firstMinute = .ok cursor) ∨
    decodeTransactionCursor noOtherTexts firstMinute = .error (.ledger invalidCursor)) := by
  have hdecode : decodeTransactionCursor noOtherTexts firstMinute = .error .overflow := by
    decide +kernel
  rw [hdecode]
  intro h
  rcases h with ⟨cursor, h⟩ | h <;> cases h

end Expensea.Ledger
