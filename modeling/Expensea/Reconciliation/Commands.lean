import Expensea.Ai.ProposalService

namespace Expensea.Reconciliation

open Txn
open Ledger (CreateTransactionCommand)

/-!
# Commands of events

The `CreateTransactionCommand` of a financial event, as ingestion, approval and review build
it.

* `StoredEvent`, `SameFields` — a normalized event, and a proposal with its fields;
* `builders_agree` — the three builders.
-/

/-- The event is a row of a validated contract. -/
def StoredEvent (U : Unicode) (event : NormalizedFinancialEvent) : Prop :=
  ∃ input validated id userId rawEventId normalizerKey normalizerVersion,
    Ingestion.validateEvent U input = .ok validated ∧
    Ingestion.normalizedRow id userId rawEventId validated normalizerKey normalizerVersion =
      .ok event

/-- The proposal has the field values of the event. -/
structure SameFields (p : FinancialEventProposal) (event : NormalizedFinancialEvent) : Prop where
  eventKind : p.eventKind = event.eventKind
  amount : p.amount = event.amount
  currency : p.currency = event.currency
  description : p.description = event.description
  occurredAt : p.occurredAt = event.occurredAt
  merchantName : p.merchantName = event.merchantName
  categoryHint : p.categoryHint = event.categoryHint
  confidence : some p.confidence = event.confidence

/-! ### Merchant names -/

/-- Optional text of the contract is never empty. -/
theorem boundedText_ne_nil {U : Unicode} {limit : Nat} {value : Option PyStr} {text : Option PyStr}
    (h : Ingestion.boundedText U limit value = .ok text) : text ≠ some [] := by
  unfold Ingestion.boundedText at h
  split at h
  · obtain rfl := Except.ok.inj h
    exact fun hnone => by cases hnone
  · rename_i found hfound
    split at h
    · obtain rfl := Except.ok.inj h
      have hne := (Option.filter_eq_some_iff.1 hfound).2
      rintro ⟨⟩
      simp at hne
    · cases h

theorem validateEvent_merchant {U : Unicode} {input : Ingestion.EventInput}
    {validated : Ingestion.NormalizedFinancialEventV1}
    (h : Ingestion.validateEvent U input = .ok validated) :
    Ingestion.boundedText U 160 input.merchantName = .ok validated.merchantName := by
  simp only [Ingestion.validateEvent, bind, Except.bind] at h
  repeat' split at h
  -- every branch but the last one is an error
  all_goals cases h
  assumption

theorem normalizedRow_merchant {rowId userId rawEventId : Uuid}
    {validated : Ingestion.NormalizedFinancialEventV1} {normalizerKey normalizerVersion : String}
    {event : NormalizedFinancialEvent}
    (h : Ingestion.normalizedRow rowId userId rawEventId validated normalizerKey
      normalizerVersion = .ok event) : event.merchantName = validated.merchantName := by
  simp only [Ingestion.normalizedRow, bind, Except.bind, throw, throwThe, MonadExceptOf.throw,
    pure, Except.pure] at h
  repeat' split at h
  all_goals cases h
  rfl

/-- The merchant name of a stored event is not empty. -/
theorem StoredEvent.merchantName {U : Unicode} {event : NormalizedFinancialEvent}
    (h : StoredEvent U event) : event.merchantName ≠ some [] := by
  obtain ⟨input, validated, id, userId, rawEventId, key, version, hvalid, hrow⟩ := h
  rw [normalizedRow_merchant hrow]
  exact boundedText_ne_nil (validateEvent_merchant hvalid)

/-- Without empty text, ingestion and approval look a merchant up alike. -/
theorem merchantLookup_eq {U : Unicode} {merchantName : Option PyStr} (h : merchantName ≠ some []) :
    merchantLookup U merchantName = merchantName.map (normalizeLookupText U) := by
  cases merchantName with
  | none => rfl
  | some name =>
    have hname : name ≠ [] := fun hnil => h (by rw [hnil])
    simp [merchantLookup, Option.filter, hname]

/-! ### Classification -/

section Classification

variable (U : Unicode) (userId : Uuid) (g : Db)

/-- Classification never fails. -/
theorem classify_run (description : PyStr) (merchant : Option PyStr) :
    ∃ assignment, (Categorization.classify U userId description merchant).run g =
      .ok (assignment, g) := by
  unfold Categorization.classify Categorization.classifyByCorrections
  rw [Tx.run_bind, Tx.run_reads]
  dsimp only
  cases (Categorization.rulesInOrder userId g).find? fun r =>
      contains r.normalizedPattern (U.casefold description) with
  | some r => exact ⟨_, rfl⟩
  | none =>
    have hmerchant : ∃ found, (Categorization.namedMerchant merchant).run g = .ok (found, g) := by
      unfold Categorization.namedMerchant
      split
      · exact ⟨_, rfl⟩
      · split <;> exact ⟨_, rfl⟩
    obtain ⟨found, hfound⟩ := hmerchant
    have hmapped : ∃ mapped, (Categorization.merchantMapping userId found).run g =
        .ok (mapped, g) := by
      cases found with
      | none => exact ⟨_, rfl⟩
      | some m => exact ⟨_, rfl⟩
    obtain ⟨mapped, hmapped⟩ := hmapped
    dsimp only
    rw [Tx.run_bind, hfound]
    dsimp only
    rw [Tx.run_bind, hmapped]
    cases mapped with
    | some c => exact ⟨_, rfl⟩
    | none =>
      dsimp only
      rw [Tx.run_bind, Tx.run_reads]
      dsimp only
      cases (Categorization.correctionsInOrder userId g).find? fun c =>
          c.normalizedDescription == U.casefold description with
      | some c => exact ⟨_, rfl⟩
      | none => exact ⟨_, rfl⟩

theorem resolveCategory_run (assignment : Option Categorization.CategoryAssignment)
    (categoryHint : Option PyStr) : ∃ categoryId,
    (resolveCategory U userId assignment categoryHint).run g = .ok (categoryId, g) := by
  unfold resolveCategory
  split <;> exact ⟨_, rfl⟩

end Classification

/-- The command of a proposal is the command of an event with its fields. -/
theorem SameFields.proposalCommand_eq {p : FinancialEventProposal}
    {event : NormalizedFinancialEvent} (h : SameFields p event) (U : Unicode) (amount : Money)
    (currency : PyStr) (transactionType : TransactionType) (occurredAt : Instant)
    (assignment : Option Categorization.CategoryAssignment) (categoryId : Option Uuid) :
    Ai.proposalCommand U p amount currency transactionType occurredAt assignment categoryId =
      eventCommand U event amount currency transactionType occurredAt assignment categoryId := by
  unfold Ai.proposalCommand eventCommand
  rw [h.description, h.merchantName, ← h.confidence]
  rfl

/-- **Three builders agree.**  For a stored event with a postable kind, an amount, a currency
    and a time, and any database: ingestion posts, review rebuilds and the approval of a
    proposal with the same fields hands over one and the same command. -/
theorem builders_agree {C : Ai.ProposalConfig} {event : NormalizedFinancialEvent} {amount : Money}
    {currency : PyStr} {occurredAt : Instant} {transactionType : TransactionType}
    (hstored : StoredEvent C.core.platform.unicode event)
    (hkind : event.eventKind.transactionType = some transactionType)
    (hamount : event.amount = some amount) (hcurrency : event.currency = some currency)
    (hoccurred : event.occurredAt = some occurredAt) (userId : Uuid) (g : Db) :
    ∃ built : Except AppError CreateTransactionCommand,
      (∀ fresh envelope processing,
        (Ingestion.postOrQueueReview C.core fresh userId envelope processing event).run g =
          (Ingestion.postCommand C.core fresh userId envelope processing event built).run g) ∧
      (∀ p, SameFields p event → ∀ fresh normalized,
        (Ai.approveTransaction C fresh userId p transactionType normalized).run g =
          (ofExcept id built >>= fun command =>
            reconcileTransaction C.core fresh userId normalized command
              (Ai.proposalLocator C.core.platform.uuidText p)).run g) ∧
      (transactionCommand C.core.platform.unicode userId event).run g =
        (ofExcept id built).run g := by
  have hlookup := merchantLookup_eq (U := C.core.platform.unicode) hstored.merchantName
  obtain ⟨assignment, hassignment⟩ := classify_run C.core.platform.unicode userId g
    event.description (event.merchantName.map (normalizeLookupText C.core.platform.unicode))
  obtain ⟨categoryId, hcategory⟩ := resolveCategory_run C.core.platform.unicode userId g
    assignment event.categoryHint
  refine ⟨eventCommand C.core.platform.unicode event amount currency transactionType occurredAt
    assignment categoryId, fun fresh envelope processing => ?_, fun p hp fresh normalized => ?_, ?_⟩
  · unfold Ingestion.postOrQueueReview
    rw [hkind, hamount, hcurrency, hoccurred]
    dsimp only
    rw [hlookup, Tx.run_bind, hassignment]
    dsimp only
    rw [Tx.run_bind, hcategory]
  · have hmoney : (Ai.requireMoneyAndOccurred p : DbTx _) = pure (amount, currency, occurredAt) := by
      unfold Ai.requireMoneyAndOccurred
      rw [hp.amount, hp.currency, hp.occurredAt, hamount, hcurrency, hoccurred]
    unfold Ai.approveTransaction
    rw [hmoney, pure_bind]
    dsimp only
    rw [hp.description, hp.merchantName, hp.categoryHint, Tx.run_bind, hassignment]
    dsimp only
    rw [Tx.run_bind, hcategory]
    dsimp only
    rw [hp.proposalCommand_eq]
  · unfold transactionCommand
    rw [hamount, hcurrency, hoccurred]
    dsimp only
    rw [requireTransactionType, hkind, requireSome, pure_bind, hlookup, Tx.run_bind, hassignment]
    dsimp only
    rw [Tx.run_bind, hcategory]

/-- Tea for ten euros, with a merchant and a confidence. -/
def sampleInput : Ingestion.EventInput where
  eventKind := some .expense
  amount := some (some (.finite 10))
  currency := some (py "EUR")
  description := some (py "tea")
  occurredAt := some ⟨63902865600000000, some 0⟩
  merchantName := some (py "shop")
  confidence := some (some (.finite (1 / 2)))

/-- The stored event of an input. -/
def eventOf (input : Ingestion.EventInput) : Except AppError NormalizedFinancialEvent :=
  match Ingestion.validateEvent .plain input with
  | .ok validated => Ingestion.normalizedRow 1 1 1 validated "csv" "1"
  | .error _ => .error (.contract "NormalizedFinancialEventV1")

theorem eventOf_stored {input : Ingestion.EventInput} {event : NormalizedFinancialEvent}
    (h : eventOf input = .ok event) : StoredEvent .plain event := by
  unfold eventOf at h
  split at h
  · rename_i validated hvalid
    exact ⟨input, validated, 1, 1, 1, "csv", "1", hvalid, h⟩
  · cases h

/-- The builders agree on the sample event, and none of them fails. -/
theorem builders_agree_sample : ∃ event : NormalizedFinancialEvent, ∃ built,
    eventOf sampleInput = .ok event ∧
    (transactionCommand .plain 1 event).run (Db.empty 0) = (ofExcept id built).run (Db.empty 0) ∧
    (transactionCommand .plain 1 event).commits (Db.empty 0) = true := by
  have hok : (match eventOf sampleInput with
      | .ok event => event.eventKind == .expense && event.amount.isSome &&
          event.currency.isSome && event.occurredAt.isSome &&
          (transactionCommand .plain 1 event).commits (Db.empty 0)
      | .error _ => false) = true := by decide +kernel
  cases hevent : eventOf sampleInput with
  | error e =>
    rw [hevent] at hok
    cases hok
  | ok event =>
    rw [hevent] at hok
    simp only [Bool.and_eq_true, beq_iff_eq] at hok
    obtain ⟨⟨⟨⟨hkind, hamount⟩, hcurrency⟩, hoccurred⟩, hcommits⟩ := hok
    obtain ⟨amount, hamount⟩ := Option.isSome_iff_exists.1 hamount
    obtain ⟨currency, hcurrency⟩ := Option.isSome_iff_exists.1 hcurrency
    obtain ⟨occurredAt, hoccurred⟩ := Option.isSome_iff_exists.1 hoccurred
    let C : Ai.ProposalConfig := ⟨⟨⟨.plain, id, fun _ => [], fun _ => none, fun _ => [], id,
      ⟨fun _ => true, fun _ _ => 0⟩⟩, .default⟩, ⟨2000, 1⟩⟩
    obtain ⟨built, -, -, hbuilt⟩ := builders_agree (C := C) (eventOf_stored hevent)
      (by rw [hkind]; rfl) hamount hcurrency hoccurred 1 (Db.empty 0)
    exact ⟨event, built, rfl, hbuilt, hcommits⟩

end Expensea.Reconciliation
