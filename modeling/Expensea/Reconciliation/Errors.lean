import Expensea.Ai.ProposalService

namespace Expensea.Reconciliation

open Txn
open Ledger (CreateTransactionCommand)

/-!
# Errors of the shared programs

Which errors the programs that ingestion, approval and review share can end with, whatever
the database holds.

* `Ordinary` — a condition on errors that the errors of the database and of reconciliation
  satisfy, but for one constraint;
* `throws_*` — the programs that end with such errors only.
-/

/-- The violation of `ck_transactions_category_metadata_consistent`. -/
def metadataViolated : AppError := .integrity Ledger.CATEGORY_METADATA_CONSISTENT

/-- A condition that holds of the errors of the database and of reconciliation, except perhaps
    of a violation of the metadata check. -/
structure Ordinary (P : AppError → Prop) : Prop where
  data : ∀ column, P (.data column)
  integrity : ∀ ck, ck ≠ Ledger.CATEGORY_METADATA_CONSISTENT → P (.integrity ck)
  runtime : ∀ message, P (.runtime message)
  overflow : P .overflow
  notFound : ∀ code message, P (.reconciliationNotFound code message)
  conflict : ∀ code message, P (.reconciliationConflict code message)

variable {P : AppError → Prop} {userId : Uuid}

/-- What the clauses of `Ordinary` say about the condition of one named constraint. -/
theorem Ordinary.named (hP : Ordinary P) {ck : String}
    (h : (ck == Ledger.CATEGORY_METADATA_CONSISTENT) = false) : P (.integrity ck) :=
  hP.integrity ck (by simpa using h)

/-! ### Ledger -/

section Ledger

variable {command : CreateTransactionCommand}

theorem throws_getOrCreateMerchant (hP : Ordinary P) (merchantId : Uuid)
    (merchant : Option (PyStr × PyStr)) :
    (Ledger.getOrCreateMerchant merchantId merchant).Throws P := by
  unfold Ledger.getOrCreateMerchant
  split
  · exact Tx.throws_pure none
  · refine (throws_require (hP.data _)).bind fun _ => ?_
    refine (throws_require (hP.named (by decide))).bind fun _ => ?_
    refine (throws_require (hP.named (by decide))).bind fun _ => ?_
    refine (Tx.throws_acquire _).bind fun _ => (Tx.throws_reads _).bind fun existing => ?_
    split
    · exact Tx.throws_pure _
    · refine (throws_insertChecked fun g e he => ?_).bind fun _ => Tx.throws_pure _
      split at he <;> cases he
      exact hP.named (by decide)

theorem storeConfidence_error {ck : String} {value : Option ℚ} {e : AppError}
    (h : Ledger.storeConfidence ck value = .error e) :
    e = .integrity ck ∧ value.all (fun c => (Confidence.store c).isSome) = false := by
  unfold Ledger.storeConfidence at h
  split at h
  · cases h
  split at h
  · rename_i hnone
    exact ⟨(Except.error.inj h).symm, by simp [hnone]⟩
  · cases h

/-- A row is rejected by its columns or by a constraint, by the metadata check only where the
    metadata are inconsistent. -/
theorem transactionRow_error (hP : Ordinary P) {id : Uuid} {merchant : Option Uuid} {e : AppError}
    (h : Ledger.transactionRow id userId merchant command = .error e) :
    P e ∨ e = metadataViolated ∧ command.categoryMetadataConsistent = false := by
  simp only [Ledger.transactionRow, bind, Except.bind, throw, throwThe, MonadExceptOf.throw, pure,
    Except.pure] at h
  split at h
  · obtain rfl := Except.error.inj h
    exact .inl (hP.data _)
  split at h
  · obtain rfl := Except.error.inj h
    exact .inl (hP.data _)
  split at h
  · obtain rfl := Except.error.inj h
    exact .inl (hP.named (by decide))
  split at h
  · rename_i hconfidence
    obtain rfl := Except.error.inj h
    rw [(storeConfidence_error hconfidence).1]
    exact .inl (hP.named (by decide))
  split at h
  · rename_i hconsistent
    exact .inr ⟨(Except.error.inj h).symm, by simpa using hconsistent⟩
  split at h
  · rename_i hconfidence
    obtain rfl := Except.error.inj h
    rw [(storeConfidence_error hconfidence).1]
    exact .inl (hP.named (by decide))
  split at h
  · obtain rfl := Except.error.inj h
    exact .inl (hP.named (by decide))
  split at h
  · obtain rfl := Except.error.inj h
    exact .inl (hP.named (by decide))
  · cases h

theorem throws_insertTransaction (hP : Ordinary P) (row : LedgerTransaction) :
    (Ledger.insertTransaction row).Throws P := by
  refine throws_insertChecked fun g e he => ?_
  split at he <;> cases he
  exact hP.named (by decide)

/-- A create ends with such errors if its metadata are consistent, or if the condition holds
    of the metadata check as well. -/
theorem throws_createTransaction (hP : Ordinary P) {merchantId transactionId : Uuid}
    (h : command.categoryMetadataConsistent = true ∨ P metadataViolated) :
    (Ledger.createTransaction merchantId transactionId userId command).Throws P := by
  refine (throws_getOrCreateMerchant hP _ _).bind fun merchant => ?_
  refine throws_ofExcept_bind (fun e he => ?_) fun row _ => ?_
  · rcases transactionRow_error hP he with hPe | ⟨rfl, hinconsistent⟩
    · exact hPe
    · refine h.resolve_left fun hconsistent => ?_
      rw [hconsistent] at hinconsistent
      cases hinconsistent
  · exact (throws_insertTransaction hP row).bind fun _ => Tx.throws_reads _

end Ledger

/-! ### Commands of events -/

section Commands

variable {U : Unicode}

/-- What a parser ends with is no constraint. -/
theorem parseCreateTransaction_error {input : Ledger.TransactionInput} {e : AppError}
    (h : Ledger.parseCreateTransaction U input = .error e) :
    (∃ l, e = .ledger l) ∨ e = .overflow := by
  have hledger : ∀ {β : Type} {y : Except LedgerError β} {e : AppError},
      y.mapError AppError.ledger = .error e → ∃ l, e = .ledger l :=
    fun hy => (mapError_error hy).imp fun _ h => h.2
  simp only [Ledger.parseCreateTransaction, bind, Except.bind, throw, throwThe,
    MonadExceptOf.throw, pure, Except.pure] at h
  split at h
  · rename_i hamount
    exact .inl ((Except.error.inj h) ▸ hledger hamount)
  split at h
  · rename_i hcurrency
    exact .inl ((Except.error.inj h) ▸ hledger hcurrency)
  split at h
  · exact .inl ⟨_, (Except.error.inj h).symm⟩
  split at h
  · exact .inl ⟨_, (Except.error.inj h).symm⟩
  split at h
  · exact .inl ⟨_, (Except.error.inj h).symm⟩
  split at h
  · rename_i hmerchant
    exact .inl ((Except.error.inj h) ▸ hledger hmerchant)
  split at h
  · rename_i hconfidence
    exact .inl ((Except.error.inj h) ▸ hledger hconfidence)
  split at h
  · exact .inr (Except.error.inj h).symm
  · cases h

theorem eventCommand_error {event : NormalizedFinancialEvent} {amount : Money}
    {currency : PyStr} {transactionType : TransactionType} {occurredAt : Instant}
    {assignment : Option Categorization.CategoryAssignment} {categoryId : Option Uuid} {e : AppError}
    (h : eventCommand U event amount currency transactionType occurredAt assignment categoryId =
      .error e) : (∃ l, e = .ledger l) ∨ e = .overflow := by
  unfold eventCommand at h
  cases hparsed : Ledger.parseCreateTransaction U (ingestionInput amount currency transactionType
      event.description occurredAt categoryId event.merchantName event.confidence) with
  | error e' =>
    rw [hparsed] at h
    obtain rfl := Except.error.inj h
    exact parseCreateTransaction_error hparsed
  | ok command =>
    rw [hparsed] at h
    cases h

theorem throws_classify (P : AppError → Prop) (description : PyStr) (merchant : Option PyStr) :
    (Categorization.classify U userId description merchant).Throws P := by
  unfold Categorization.classify
  refine (Tx.throws_reads _).bind fun rules => ?_
  split
  · exact Tx.throws_pure _
  · refine Tx.throws_bind ?_ fun found => Tx.throws_bind ?_ fun mapped => ?_
    · unfold Categorization.namedMerchant
      split
      · exact Tx.throws_pure _
      · split
        · exact Tx.throws_pure _
        · exact Tx.throws_reads _
    · cases found with
      | none => exact Tx.throws_pure _
      | some m => exact Tx.throws_reads _
    · cases mapped with
      | some c => exact Tx.throws_pure _
      | none =>
        refine (Tx.throws_reads _).bind fun exact => ?_
        cases exact with
        | some c => exact Tx.throws_pure _
        | none => exact (Tx.throws_reads _).bind fun _ => Tx.throws_pure _

theorem throws_resolveCategory (P : AppError → Prop)
    (assignment : Option Categorization.CategoryAssignment) (categoryHint : Option PyStr) :
    (resolveCategory U userId assignment categoryHint).Throws P := by
  unfold resolveCategory
  split
  · exact Tx.throws_pure _
  · exact Tx.throws_reads _
  · exact Tx.throws_pure _

end Commands

/-! ### Reconciliation -/

section Reconciliation

variable {C : Config} {fresh : FreshIds} {event : NormalizedFinancialEvent}
  {command : CreateTransactionCommand} {result : ReconciliationResult} {source : EvidenceSource}

theorem throws_addEvidence (hP : Ordinary P)
    (evidenceId rawEventId normalizedEventId transactionId : Uuid)
    (locator : Fields) (excerpt : Option PyStr) :
    (Ingestion.addEvidence evidenceId userId rawEventId normalizedEventId transactionId
      locator excerpt).Throws P := by
  refine (throws_require (hP.data _)).bind fun _ => (Tx.throws_acquire _).bind fun _ => ?_
  refine throws_insertChecked fun g e he => ?_
  split at he
  · cases he
    exact hP.named (by decide)
  split at he <;> cases he
  exact hP.named (by decide)

theorem throws_appendAction (hP : Ordinary P) (actionId : Uuid) (c : ReconciliationCase)
    (actionType : ReconciliationActionType) (fromId toId : Option Uuid) :
    (appendAction actionId userId c actionType fromId toId).Throws P := by
  refine throws_insertChecked fun g e he => ?_
  split at he <;> cases he
  exact hP.named (by decide)

theorem caseViolation_error (hP : Ordinary P) {c : ReconciliationCase} {e : AppError}
    (h : caseViolation c = some e) : P e := by
  unfold caseViolation at h
  split at h
  · cases h
    exact hP.data _
  split at h
  · cases h
    exact hP.named (by decide)
  split at h
  · cases h
    exact hP.named (by decide)
  split at h <;> cases h
  exact hP.named (by decide)

theorem throws_createCase (hP : Ordinary P) (caseId actionId : Uuid)
    (event : NormalizedFinancialEvent) (result : ReconciliationResult)
    (status : ReconciliationStatus) (resulting : Option Uuid)
    (actionType : ReconciliationActionType) (locator : Fields) (excerpt : Option PyStr) :
    (createCase caseId actionId userId event result status resulting actionType locator
      excerpt).Throws P := by
  refine Tx.throws_bind ?_ fun _ => (throws_appendAction hP _ _ _ _ _).bind fun _ =>
    Tx.throws_pure _
  refine (Tx.throws_acquire _).bind fun _ => throws_insertChecked fun g e he => ?_
  rcases Option.or_eq_some_iff.1 he with he | ⟨-, he⟩
  · exact caseViolation_error hP he
  · split at he
    · cases he
      exact hP.named (by decide)
    split at he <;> cases he
    exact hP.named (by decide)

theorem throws_lockTransaction (hP : Ordinary P) (transactionId : Uuid) :
    (lockTransaction userId transactionId).Throws P :=
  (throws_selectForUpdate _ _ _ _).bind fun _ => throws_requireSome (hP.notFound _ _)

theorem throws_findCandidates (hP : Ordinary P) (platform : Ingestion.Platform)
    (event : NormalizedFinancialEvent) (transactionType : TransactionType)
    (policy : ReconciliationPolicy) :
    (findCandidates platform userId event transactionType policy).Throws P := by
  unfold findCandidates
  split
  · exact Tx.throws_pure _
  · split
    · exact Tx.throws_pure _
    · refine (throws_require hP.overflow).bind fun _ => ?_
      refine (throws_require hP.overflow).bind fun _ => ?_
      exact (Tx.throws_reads _).bind fun _ => (Tx.throws_reads _).bind fun _ => Tx.throws_reads _

theorem throws_mergeWithCandidate (hP : Ordinary P) (transactionType : TransactionType) :
    (mergeWithCandidate fresh userId event transactionType result source).Throws P := by
  refine (throws_requireSome (hP.conflict _ _)).bind fun candidateId => ?_
  refine (throws_lockTransaction hP _).bind fun candidate => ?_
  refine (throws_require (hP.conflict _ _)).bind fun _ => ?_
  refine (throws_addEvidence hP _ _ _ _ _ _).bind fun _ => ?_
  exact (throws_createCase hP _ _ _ _ _ _ _ _ _).bind fun _ => Tx.throws_pure _

theorem throws_flagCandidate (hP : Ordinary P) :
    (flagCandidate fresh userId event result source).Throws P :=
  (throws_createCase hP _ _ _ _ _ _ _ _ _).bind fun _ => Tx.throws_pure _

/-- What follows the insert of a new transaction. -/
theorem throws_linkNew (hP : Ordinary P) (view : Ledger.TransactionView) :
    (Ingestion.addEvidence fresh.evidence userId event.rawEventId event.id view.id
      source.locator source.excerpt >>= fun _ =>
      createCase fresh.case fresh.action userId event result .keptSeparate (some view.id)
        .createdNew source.locator source.excerpt >>= fun c =>
      (pure ⟨c.id, some view.id, result⟩ : DbTx ReconciliationProcessingOutcome)).Throws P := by
  refine (throws_addEvidence hP _ _ _ _ _ _).bind fun _ => ?_
  exact (throws_createCase hP _ _ _ _ _ _ _ _ _).bind fun _ => Tx.throws_pure _

theorem throws_reconcileTransaction (hP : Ordinary P)
    (h : command.categoryMetadataConsistent = true ∨ P metadataViolated) :
    (reconcileTransaction C fresh userId event command source).Throws P := by
  refine (Tx.throws_acquire _).bind fun _ => ?_
  refine (throws_findCandidates hP _ _ _ _).bind fun candidates => ?_
  dsimp only
  split
  · exact throws_mergeWithCandidate hP _
  · exact throws_flagCandidate hP
  · exact (throws_createTransaction hP h).bind (throws_linkNew hP)

/-- A decision that needs no review has a transaction. -/
theorem returns_reconcileTransaction :
    (reconcileTransaction C fresh userId event command source).Returns fun outcome =>
      outcome.requiresReview = true ∨ outcome.transactionId.isSome = true := by
  refine Tx.returns_bind fun _ => Tx.returns_bind fun candidates => ?_
  dsimp only
  split
  · refine Tx.returns_bind fun _ => Tx.returns_bind fun _ => Tx.returns_bind fun _ => ?_
    exact Tx.returns_bind fun _ => Tx.returns_bind fun _ => Tx.returns_pure (.inr rfl)
  · rename_i hdecision
    refine Tx.returns_bind fun _ => Tx.returns_pure (.inl ?_)
    rw [ReconciliationProcessingOutcome.requiresReview, hdecision]
    rfl
  · refine Tx.returns_bind fun _ => Tx.returns_bind fun _ => ?_
    exact Tx.returns_bind fun _ => Tx.returns_pure (.inr rfl)

end Reconciliation

/-! ### Ingestion -/

section Ingestion

theorem throws_lockProcessing (hP : Ordinary P) (rawEventId : Uuid) :
    (Ingestion.lockProcessing userId rawEventId).Throws P :=
  (throws_selectForUpdate _ _ _ _).bind fun _ => throws_requireSome (hP.runtime _)

theorem throws_setProcessing (P : AppError → Prop) (p : RawEventProcessing) :
    (Ingestion.setProcessing p).Throws P := Tx.throws_modify _

theorem storeAmount_error (hP : Ordinary P) {value : Option ℚ} {e : AppError}
    (h : Ingestion.storeAmount value = .error e) : P e := by
  unfold Ingestion.storeAmount at h
  split at h
  · cases h
  split at h <;> cases h
  exact hP.data _

theorem normalizedRow_error (hP : Ordinary P) {rowId rawEventId : Uuid}
    {event : Ingestion.NormalizedFinancialEventV1} {normalizerKey normalizerVersion : String}
    {e : AppError}
    (h : Ingestion.normalizedRow rowId userId rawEventId event normalizerKey normalizerVersion =
      .error e) : P e := by
  simp only [Ingestion.normalizedRow, bind, Except.bind, throw, throwThe, MonadExceptOf.throw,
    pure, Except.pure] at h
  split at h
  · obtain rfl := Except.error.inj h
    exact hP.data _
  split at h
  · rename_i hamount
    obtain rfl := Except.error.inj h
    exact storeAmount_error hP hamount
  split at h
  · obtain rfl := Except.error.inj h
    exact hP.named (by decide)
  split at h
  · rename_i hconfidence
    obtain rfl := Except.error.inj h
    rw [(storeConfidence_error hconfidence).1]
    exact hP.named (by decide)
  split at h
  · obtain rfl := Except.error.inj h
    exact hP.named (by decide)
  split at h
  · obtain rfl := Except.error.inj h
    exact hP.named (by decide)
  · cases h

theorem throws_storeNormalizedEvent (hP : Ordinary P) {normalizedEventId rawEventId : Uuid}
    {event : Ingestion.NormalizedFinancialEventV1} {normalizerKey normalizerVersion : String} :
    (Ingestion.storeNormalizedEvent normalizedEventId userId rawEventId event normalizerKey
      normalizerVersion).Throws P := by
  refine throws_ofExcept_bind (fun e he => normalizedRow_error hP he) fun row _ => ?_
  refine (throws_insertOrIgnore fun g e he => ?_).bind fun inserted => ?_
  · split at he <;> cases he
    exact hP.named (by decide)
  · refine (Tx.throws_reads _).bind fun existing => ?_
    refine (throws_requireSome (hP.runtime _)).bind fun selected => ?_
    exact (Tx.throws_reads _).bind fun normalized => throws_requireSome (hP.runtime _)

theorem throws_finishedResult (P : AppError → Prop) (stored : Ingestion.StoredRawEvent)
    (processing : RawEventProcessing) :
    (Ingestion.finishedResult userId stored processing).Throws P :=
  (Tx.throws_reads _).bind fun _ => (Tx.throws_reads _).bind fun _ => Tx.throws_pure _

end Ingestion

end Expensea.Reconciliation
