import Expensea.Reconciliation.Records

namespace Expensea.Reconciliation

open Txn

/-!
# What the services do to the records

One lemma for each program on the way: if it commits when run alone, how the records
changed.

* `Untouched` — programs that leave the records alone;
* `Reconciled` — the three outcomes of `reconcileTransaction`;
* `storeEnvelope_ensures`, `storeNormalizedEvent_ensures`, `completeSource_ensures` — the
  shared steps of ingestion, approval and review.
-/

variable {g : Db} {userId : Uuid}

/-! ### Programs that leave the records alone -/

/-- The program may write, but not to the records. -/
def Untouched {α : Type} (x : DbTx α) : Prop :=
  ∀ g, x.Ensures g fun _ g' => records g' = records g

section Untouched

variable {α β : Type}

theorem untouched_of_readOnly {x : DbTx α} (hx : x.ReadOnly) : Untouched x :=
  fun _ => hx.ensures.mono fun _ _ hg => by rw [hg]

theorem untouched_pure (a : α) : Untouched (pure a : DbTx α) :=
  untouched_of_readOnly (Tx.readOnly_pure a)

theorem untouched_throw (e : AppError) : Untouched (Tx.throw e : DbTx α) :=
  untouched_of_readOnly (Tx.readOnly_throw e)

theorem untouched_reads (f : Db → α) : Untouched (Tx.reads f : DbTx α) :=
  untouched_of_readOnly (Tx.readOnly_reads f)

theorem untouched_require (condition : Bool) (e : AppError) : Untouched (require condition e) :=
  untouched_of_readOnly (readOnly_require condition e)

theorem untouched_requireSome (value : Option α) (e : AppError) :
    Untouched (requireSome value e) :=
  untouched_of_readOnly (readOnly_requireSome value e)

theorem untouched_ofExcept {ε : Type} (f : ε → AppError) (x : Except ε α) :
    Untouched (ofExcept f x) :=
  untouched_of_readOnly (readOnly_ofExcept f x)

theorem untouched_bind {x : DbTx α} {f : α → DbTx β} (hx : Untouched x)
    (hf : ∀ a, Untouched (f a)) : Untouched (x >>= f) := by
  intro g
  refine (hx g).bind fun a g₁ hg₁ => ?_
  exact (hf a g₁).mono fun _ _ hg => hg.trans hg₁

/-- A longer program, past a part that leaves the records alone. -/
theorem Untouched.bind {x : DbTx α} (hx : Untouched x) {f : α → DbTx β} {S : Records}
    (hS : records g = S) {Q : β → Db → Prop}
    (hf : ∀ a g', records g' = S → (f a).Ensures g' Q) : (x >>= f).Ensures g Q :=
  (hx g).bind fun a g' hg' => hf a g' (hg'.trans hS)

theorem untouched_selectForUpdate {R : Type} (rows : Db → List R) (table : TableName)
    (key : R → Uuid) (p : R → Bool) : Untouched (selectForUpdate rows table key p) :=
  fun _ => ensures_selectForUpdate.2 rfl

theorem untouched_insertChecked {key : Lock} {violation : Db → Option AppError} {row : Db → Db}
    (h : ∀ g, records (row g) = records g) : Untouched (insertChecked key violation row) :=
  fun g => ensures_insertChecked.2 fun _ => h g

theorem untouched_insertOrIgnore {key primary : Lock} {conflict : Db → Bool}
    {violation : Db → Option AppError} {row : Db → Db} (h : ∀ g, records (row g) = records g) :
    Untouched (insertOrIgnore key primary conflict violation row) :=
  fun g => ensures_insertOrIgnore.2 ⟨fun _ => rfl, fun _ _ => h g⟩

theorem untouched_appendAction (actionId userId : Uuid) (c : ReconciliationCase)
    (actionType : ReconciliationActionType) (source target : Option Uuid) :
    Untouched (appendAction actionId userId c actionType source target) :=
  untouched_insertChecked fun _ => rfl

theorem untouched_requireView (userId caseId : Uuid) : Untouched (requireView userId caseId) := by
  refine untouched_bind (untouched_reads _) fun view => ?_
  exact untouched_bind (untouched_requireSome _ _) fun view => untouched_ofExcept _ _

theorem untouched_getOrCreateMerchant (merchantId : Uuid) (merchant : Option (PyStr × PyStr)) :
    Untouched (Ledger.getOrCreateMerchant merchantId merchant) := by
  intro g
  refine Ledger.getOrCreateMerchant_ensures.mono fun _ g' hg' => ?_
  obtain ⟨merchants, rfl⟩ := hg'
  rfl

theorem untouched_ensureConnectionRow (connectionId userId : Uuid)
    (connector : Ingestion.Connector) (connectionKey : PyStr) :
    Untouched (Ingestion.ensureConnectionRow connectionId userId connector connectionKey) := by
  refine untouched_bind (untouched_require _ _) fun _ => ?_
  refine untouched_bind (untouched_require _ _) fun _ => ?_
  refine untouched_bind (untouched_insertOrIgnore fun _ => rfl) fun inserted => ?_
  refine untouched_bind (untouched_reads _) fun existing => ?_
  refine untouched_bind (untouched_requireSome _ _) fun selected => ?_
  exact untouched_bind (untouched_reads _) fun _ => untouched_requireSome _ _

theorem untouched_ensureConnection (C : Config) (fresh : FreshIds) (userId : Uuid)
    (connector : Ingestion.Connector) (connectionKey : PyStr) :
    Untouched (Ingestion.ensureConnection C fresh userId connector connectionKey) := by
  refine untouched_bind (untouched_require _ _) fun _ => ?_
  refine untouched_bind (untouched_reads _) fun known => ?_
  refine untouched_bind (untouched_require _ _) fun _ => ?_
  refine untouched_bind (untouched_ensureConnectionRow _ _ _ _) fun connection => ?_
  exact untouched_bind (untouched_require _ _) fun _ => untouched_pure _

theorem untouched_counterpartyPerson (U : Unicode) (fresh : FreshIds) (userId : Uuid)
    (counterparty : PyStr) : Untouched (Ai.counterpartyPerson U fresh userId counterparty) := by
  refine untouched_bind (untouched_ofExcept _ _) fun command => ?_
  refine untouched_bind ?_ fun created => ?_
  · refine untouched_bind (untouched_require _ _) fun _ => ?_
    refine untouched_bind (untouched_require _ _) fun _ => ?_
    refine untouched_bind (untouched_require _ _) fun _ => ?_
    exact untouched_bind (untouched_insertOrIgnore fun _ => rfl) fun _ => untouched_pure _
  · exact untouched_bind (untouched_reads _) fun _ => untouched_requireSome _ _

theorem untouched_createObligationRow (kind : ObligationKind) (id userId : Uuid)
    (command : Ledger.CreateObligationCommand) (asOf : Date) :
    Untouched (Ledger.createObligationRow kind id userId command asOf) := by
  refine untouched_bind (untouched_insertChecked fun g => ?_) fun _ => ?_
  · cases Money.store command.amount with
    | none => rfl
    | some amount => cases kind <;> rfl
  · exact untouched_bind (untouched_reads _) fun _ => untouched_requireSome _ _

theorem untouched_requireMoneyAndOccurred (p : FinancialEventProposal) :
    Untouched (Ai.requireMoneyAndOccurred p) := by
  unfold Ai.requireMoneyAndOccurred
  split
  · exact untouched_pure _
  · exact untouched_throw _

theorem untouched_approveObligation (C : Ai.ProposalConfig) (fresh : FreshIds) (now : Instant)
    (userId : Uuid) (p : FinancialEventProposal) (kind : ObligationKind) :
    Untouched (Ai.approveObligation C fresh now userId p kind) := by
  refine untouched_bind (untouched_requireMoneyAndOccurred p) fun money => ?_
  refine untouched_bind (untouched_requireSome _ _) fun counterparty => ?_
  refine untouched_bind (untouched_reads _) fun timezoneName => ?_
  refine untouched_bind (untouched_requireSome _ _) fun timezoneName => ?_
  refine untouched_bind (untouched_counterpartyPerson _ _ _ _) fun personId => ?_
  refine untouched_bind (untouched_require _ _) fun _ => ?_
  refine untouched_bind (untouched_ofExcept _ _) fun command => ?_
  exact untouched_bind (untouched_createObligationRow _ _ _ _ _) fun _ => untouched_pure _

theorem untouched_approveRecurring (C : Ai.ProposalConfig) (fresh : FreshIds) (userId : Uuid)
    (p : FinancialEventProposal) : Untouched (Ai.approveRecurring C fresh userId p) := by
  refine untouched_bind (untouched_requireSome _ _) fun fields => ?_
  refine untouched_bind (untouched_ofExcept _ _) fun command => ?_
  refine untouched_bind (untouched_reads _) fun known => ?_
  refine untouched_bind (untouched_require _ _) fun _ => ?_
  refine untouched_bind ?_ fun merchantId => ?_
  · exact untouched_bind (untouched_getOrCreateMerchant _ _) fun _ => untouched_requireSome _ _
  · refine untouched_bind (untouched_require _ _) fun _ => ?_
    refine untouched_bind (untouched_requireSome _ _) fun amount => ?_
    refine untouched_bind (untouched_require _ _) fun _ => ?_
    refine untouched_bind (untouched_require _ _) fun _ => ?_
    exact untouched_bind (untouched_insertChecked fun _ => rfl) fun _ => untouched_pure _

end Untouched

/-! ### Commands -/

/-- A command from an event or a proposal is an ingestion. -/
theorem eventCommand_source {U : Unicode} {event : NormalizedFinancialEvent} {amount : Money}
    {currency : PyStr} {transactionType : TransactionType} {occurredAt : Instant}
    {assignment : Option Categorization.CategoryAssignment} {categoryId : Option Uuid}
    {command : Ledger.CreateTransactionCommand}
    (h : eventCommand U event amount currency transactionType occurredAt assignment categoryId =
      .ok command) : command.source = .ingestion := by
  obtain ⟨parsed, hparsed, rfl⟩ := map_ok h
  have hsource := (Ledger.parseCreateTransaction_ok hparsed).2.1
  rw [categorized_source, hsource]
  rfl

theorem proposalCommand_source {U : Unicode} {p : FinancialEventProposal} {amount : Money}
    {currency : PyStr} {transactionType : TransactionType} {occurredAt : Instant}
    {assignment : Option Categorization.CategoryAssignment} {categoryId : Option Uuid}
    {command : Ledger.CreateTransactionCommand}
    (h : Ai.proposalCommand U p amount currency transactionType occurredAt assignment categoryId =
      .ok command) : command.source = .ingestion := by
  obtain ⟨parsed, hparsed, rfl⟩ := map_ok h
  have hsource := (Ledger.parseCreateTransaction_ok hparsed).2.1
  rw [categorized_source, hsource]
  rfl

theorem readOnly_resolveCategory (U : Unicode) (userId : Uuid)
    (assignment : Option Categorization.CategoryAssignment) (categoryHint : Option PyStr) :
    (resolveCategory U userId assignment categoryHint).ReadOnly := by
  unfold resolveCategory
  split
  · exact Tx.readOnly_pure _
  · exact Tx.readOnly_reads _
  · exact Tx.readOnly_pure _

/-- The command of a reviewed event is an ingestion. -/
theorem transactionCommand_ensures {U : Unicode} {event : NormalizedFinancialEvent} :
    (transactionCommand U userId event).Ensures g fun command g' =>
      command.source = .ingestion ∧ g' = g := by
  unfold transactionCommand
  split
  · refine (readOnly_requireSome _ _).ensures_bind fun transactionType => ?_
    refine Categorization.classify_readOnly.ensures_bind fun assignment => ?_
    refine (readOnly_resolveCategory _ _ _ _).ensures_bind fun categoryId => ?_
    exact ensures_ofExcept.2 fun command hcommand => ⟨eventCommand_source hcommand, rfl⟩
  · exact Tx.ensures_throw.2 trivial

/-! ### New rows -/

/-- A new transaction of ingestion. -/
structure NewTransaction (S : Records) (t : LedgerTransaction) : Prop where
  source : t.source = .ingestion
  fresh : ∀ t' ∈ S.transactions, t'.id ≠ t.id

/-- New evidence for a normalized event. -/
structure NewEvidence (S : Records) (normalizedEventId rawEventId userId : Uuid)
    (e : Evidence) : Prop where
  normalizedEventId : e.normalizedEventId = normalizedEventId
  rawEventId : e.rawEventId = rawEventId
  userId : e.userId = userId
  fresh : ∀ e' ∈ S.evidence, e'.id ≠ e.id

/-- A new case of a normalized event. -/
structure NewCase (S : Records) (event : NormalizedFinancialEvent) (userId : Uuid)
    (c : ReconciliationCase) : Prop where
  normalizedEventId : c.normalizedEventId = event.id
  rawEventId : c.rawEventId = event.rawEventId
  userId : c.userId = userId
  fresh : ∀ c' ∈ S.cases, c'.id ≠ c.id

theorem createTransaction_ensures {merchantId transactionId : Uuid}
    {command : Ledger.CreateTransactionCommand} (hsource : command.source = .ingestion) :
    (Ledger.createTransaction merchantId transactionId userId command).Ensures g fun view g' =>
      ∃ t, NewTransaction (records g) t ∧ view.id = t.id ∧
        records g' = { records g with transactions := g.transactions ++ [t] } := by
  refine Ledger.createTransaction_ensures.mono fun view g' h => ?_
  obtain ⟨hid, hfresh, merchants, row, hrow, rfl⟩ := h
  refine ⟨row, ⟨hrow.source.trans hsource, ?_⟩, hid.trans hrow.id.symm, rfl⟩
  rw [hrow.id]
  exact hfresh

theorem addEvidence_ensures {evidenceId rawEventId normalizedEventId transactionId : Uuid}
    {locator : Fields} {excerpt : Option PyStr} :
    (Ingestion.addEvidence evidenceId userId rawEventId normalizedEventId transactionId locator
      excerpt).Ensures g fun _ g' =>
      ∃ e, NewEvidence (records g) normalizedEventId rawEventId userId e ∧
        e.transactionId = transactionId ∧
        records g' = { records g with evidence := g.evidence ++ [e] } := by
  unfold Ingestion.addEvidence
  simp only [Tx.ensures_bind, ensures_require, Tx.ensures_acquire, ensures_insertChecked]
  intro _ hviolation
  split at hviolation
  · cases hviolation
  · rename_i hpk
    refine ⟨_, ⟨rfl, rfl, rfl, ?_⟩, rfl, rfl⟩
    exact Table.fresh_of_any hpk

theorem createCase_ensures {caseId actionId : Uuid} {event : NormalizedFinancialEvent}
    {result : ReconciliationResult} {status : ReconciliationStatus} {resulting : Option Uuid}
    {actionType : ReconciliationActionType} {locator : Fields} {excerpt : Option PyStr} :
    (createCase caseId actionId userId event result status resulting actionType locator
      excerpt).Ensures g fun c g' =>
      NewCase (records g) event userId c ∧ c.status = status ∧
        c.resultingTransactionId = resulting ∧
        records g' = { records g with cases := g.cases ++ [c] } := by
  unfold createCase insertCase
  simp only [Tx.ensures_bind, Tx.ensures_acquire, ensures_insertChecked]
  intro hviolation
  obtain ⟨-, hkeys⟩ := Option.or_eq_none_iff.1 hviolation
  split at hkeys
  · cases hkeys
  · rename_i hpk
    refine (untouched_appendAction _ _ _ _ _ _ _).mono fun _ g' hg' => ?_
    refine Tx.ensures_pure.2 ⟨⟨rfl, rfl, rfl, ?_⟩, rfl, rfl, hg'⟩
    exact Table.fresh_of_any hpk

/-! ### Reconciliation of a new event -/

/-- The three ways a new event is reconciled, and its transaction if it has one. -/
inductive Reconciled (S : Records) (event : NormalizedFinancialEvent) (userId : Uuid) :
    Records → Option Uuid → Prop where
  /-- The evidence joins the candidate's. -/
  | merged (e : Evidence) (c : ReconciliationCase)
      (he : NewEvidence S event.id event.rawEventId userId e) (hc : NewCase S event userId c)
      (hstatus : c.status = .merged) (hresulting : c.resultingTransactionId = some e.transactionId) :
      Reconciled S event userId
        { S with evidence := S.evidence ++ [e], cases := S.cases ++ [c] } (some e.transactionId)
  /-- The candidate is flagged for review. -/
  | flagged (c : ReconciliationCase) (hc : NewCase S event userId c) (hstatus : c.status = .pending) :
      Reconciled S event userId { S with cases := S.cases ++ [c] } none
  /-- The event becomes its own transaction. -/
  | created (t : LedgerTransaction) (e : Evidence) (c : ReconciliationCase)
      (ht : NewTransaction S t) (he : NewEvidence S event.id event.rawEventId userId e)
      (hc : NewCase S event userId c) (htransaction : e.transactionId = t.id)
      (hstatus : c.status = .keptSeparate) (hresulting : c.resultingTransactionId = some t.id) :
      Reconciled S event userId
        { S with
          transactions := S.transactions ++ [t]
          evidence := S.evidence ++ [e]
          cases := S.cases ++ [c] } (some t.id)

/-- What the caller is told agrees with what was done. -/
structure OutcomeFor (target : Option Uuid)
    (outcome : ReconciliationProcessingOutcome) : Prop where
  review : outcome.requiresReview = target.isNone
  transactionId : outcome.transactionId = target

theorem mergeWithCandidate_ensures {fresh : FreshIds} {event : NormalizedFinancialEvent}
    {transactionType : TransactionType} {result : ReconciliationResult} {source : EvidenceSource}
    (hdecision : result.decision = .merge) :
    (mergeWithCandidate fresh userId event transactionType result source).Ensures g
      fun outcome g' => ∃ target, Reconciled (records g) event userId (records g') target ∧
        OutcomeFor target outcome := by
  unfold mergeWithCandidate
  refine (untouched_requireSome _ _).bind rfl fun candidateId g₁ hg₁ => ?_
  refine (untouched_bind (untouched_selectForUpdate _ _ _ _) fun _ =>
    untouched_requireSome _ _).bind hg₁ fun candidate g₂ hg₂ => ?_
  refine (untouched_require _ _).bind hg₂ fun _ g₃ hg₃ => ?_
  refine addEvidence_ensures.bind fun _ g₄ h₄ => ?_
  obtain ⟨e, he, htransaction, hg₄⟩ := h₄
  refine createCase_ensures.bind fun c g₅ h₅ => ?_
  obtain ⟨hc, hstatus, hresulting, hg₅⟩ := h₅
  refine Tx.ensures_pure.2 ⟨some e.transactionId, ?_, ?_⟩
  · have hrecords : records g₅ = { records g with
        evidence := (records g).evidence ++ [e], cases := (records g).cases ++ [c] } := by
      rw [hg₅, ← hg₃]
      rw [show g₄.cases = (records g₄).cases from rfl, hg₄]
      rfl
    rw [hrecords]
    refine .merged e c ?_ ?_ hstatus (hresulting.trans (by rw [htransaction]))
    · rw [hg₃] at he
      exact he
    · rw [hg₄, hg₃] at hc
      exact ⟨hc.normalizedEventId, hc.rawEventId, hc.userId, hc.fresh⟩
  · exact ⟨by rw [ReconciliationProcessingOutcome.requiresReview, hdecision]; rfl,
      by rw [htransaction]⟩

theorem flagCandidate_ensures {fresh : FreshIds} {event : NormalizedFinancialEvent}
    {result : ReconciliationResult} {source : EvidenceSource}
    (hdecision : result.decision = .possibleDuplicate) :
    (flagCandidate fresh userId event result source).Ensures g fun outcome g' =>
      ∃ target, Reconciled (records g) event userId (records g') target ∧
        OutcomeFor target outcome := by
  unfold flagCandidate
  refine createCase_ensures.bind fun c g' h => ?_
  obtain ⟨hc, hstatus, -, hg'⟩ := h
  refine Tx.ensures_pure.2 ⟨none, ?_, ?_⟩
  · rw [hg']
    exact .flagged c hc hstatus
  · exact ⟨by rw [ReconciliationProcessingOutcome.requiresReview, hdecision]; rfl, rfl⟩

theorem createSeparate_ensures {fresh : FreshIds} {event : NormalizedFinancialEvent}
    {command : Ledger.CreateTransactionCommand} {result : ReconciliationResult}
    {source : EvidenceSource} (hdecision : result.decision = .newTransaction)
    (hsource : command.source = .ingestion) :
    (createSeparate fresh userId event command result source).Ensures g fun outcome g' =>
      ∃ target, Reconciled (records g) event userId (records g') target ∧
        OutcomeFor target outcome := by
  unfold createSeparate
  refine (createTransaction_ensures hsource).bind fun view g₁ h₁ => ?_
  obtain ⟨t, ht, hview, hg₁⟩ := h₁
  refine addEvidence_ensures.bind fun _ g₂ h₂ => ?_
  obtain ⟨e, he, htransaction, hg₂⟩ := h₂
  refine createCase_ensures.bind fun c g₃ h₃ => ?_
  obtain ⟨hc, hstatus, hresulting, hg₃⟩ := h₃
  refine Tx.ensures_pure.2 ⟨some t.id, ?_, ?_⟩
  · have hrecords : records g₃ = { records g with
        transactions := (records g).transactions ++ [t]
        evidence := (records g).evidence ++ [e]
        cases := (records g).cases ++ [c] } := by
      rw [hg₃, show g₂.cases = (records g₂).cases from rfl, hg₂,
        show g₁.evidence = (records g₁).evidence from rfl, hg₁]
      rfl
    rw [hrecords]
    rw [hg₁] at he
    rw [hg₂, hg₁] at hc
    rw [hview] at htransaction hresulting
    exact .created t e c ht ⟨he.normalizedEventId, he.rawEventId, he.userId, he.fresh⟩
      ⟨hc.normalizedEventId, hc.rawEventId, hc.userId, hc.fresh⟩ htransaction hstatus hresulting
  · exact ⟨by rw [ReconciliationProcessingOutcome.requiresReview, hdecision]; rfl, by rw [hview]⟩

theorem readOnly_findCandidates (P : Ingestion.Platform) (userId : Uuid)
    (event : NormalizedFinancialEvent) (transactionType : TransactionType)
    (policy : ReconciliationPolicy) :
    (findCandidates P userId event transactionType policy).ReadOnly := by
  unfold findCandidates
  split
  · exact Tx.readOnly_pure _
  · split
    · exact Tx.readOnly_pure _
    · refine Tx.readOnly_bind (readOnly_require _ _) fun _ => ?_
      refine Tx.readOnly_bind (readOnly_require _ _) fun _ => ?_
      refine Tx.readOnly_bind (Tx.readOnly_reads _) fun temporal => ?_
      exact Tx.readOnly_bind (Tx.readOnly_reads _) fun exact => Tx.readOnly_reads _

theorem reconcileTransaction_ensures {C : Config} {fresh : FreshIds}
    {event : NormalizedFinancialEvent} {command : Ledger.CreateTransactionCommand}
    {source : EvidenceSource} (hsource : command.source = .ingestion) :
    (reconcileTransaction C fresh userId event command source).Ensures g fun outcome g' =>
      ∃ target, Reconciled (records g) event userId (records g') target ∧
        OutcomeFor target outcome := by
  unfold reconcileTransaction acquireUserWriteLock
  rw [Tx.ensures_bind, Tx.ensures_acquire]
  refine (readOnly_findCandidates _ _ _ _ _).ensures_bind fun candidates => ?_
  dsimp only
  cases hdecision : (reconcileCandidates C.platform.unicode C.policy event candidates).decision with
  | merge => exact mergeWithCandidate_ensures hdecision
  | possibleDuplicate => exact flagCandidate_ensures hdecision
  | newTransaction => exact createSeparate_ensures hdecision hsource

/-! ### Normalized events and their raw events -/

theorem normalizedRow_ok {rowId rawEventId : Uuid}
    {event : Ingestion.NormalizedFinancialEventV1} {normalizerKey normalizerVersion : String}
    {row : NormalizedFinancialEvent}
    (h : Ingestion.normalizedRow rowId userId rawEventId event normalizerKey normalizerVersion =
      .ok row) :
    row.id = rowId ∧ row.userId = userId ∧ row.rawEventId = rawEventId ∧
      row.eventKind = event.eventKind ∧
      Ingestion.contracted rawEventId normalizerKey normalizerVersion row = true := by
  simp only [Ingestion.normalizedRow, bind, Except.bind, throw, throwThe, MonadExceptOf.throw, pure,
    Except.pure] at h
  repeat' split at h
  -- every branch but the last one is an error
  all_goals cases h
  refine ⟨rfl, rfl, rfl, rfl, ?_⟩
  simp [Ingestion.contracted]

/-- The normalized event to go on with: a row that was there, or the new one. -/
inductive Normalized (S : Records) (rawEventId userId : Uuid)
    (kind : NormalizedEventKind) : Records → NormalizedFinancialEvent → Prop where
  | existing (n : NormalizedFinancialEvent) (hmem : n ∈ S.normalizedEvents)
      (hraw : n.rawEventId = rawEventId) (huser : n.userId = userId) :
      Normalized S rawEventId userId kind S n
  | stored (n : NormalizedFinancialEvent) (hfresh : ∀ m ∈ S.normalizedEvents, m.id ≠ n.id)
      (hraw : n.rawEventId = rawEventId) (huser : n.userId = userId) (hkind : n.eventKind = kind) :
      Normalized S rawEventId userId kind
        { S with normalizedEvents := S.normalizedEvents ++ [n] } n

/-- The event to go on with was there, or is of the kind that was stored. -/
theorem Normalized.origin {S S' : Records} {rawEventId userId : Uuid} {kind : NormalizedEventKind}
    {n : NormalizedFinancialEvent} (h : Normalized S rawEventId userId kind S' n) :
    (n ∈ S.normalizedEvents ∧ n.rawEventId = rawEventId) ∨ n.eventKind = kind := by
  cases h with
  | existing _ hmem hraw _ => exact .inl ⟨hmem, hraw⟩
  | stored _ _ _ _ hkind => exact .inr hkind

theorem storeNormalizedEvent_ensures {normalizedEventId rawEventId : Uuid}
    {event : Ingestion.NormalizedFinancialEventV1} {normalizerKey normalizerVersion : String}
    (hids : (g.normalizedEvents.map NormalizedFinancialEvent.id).Nodup) :
    (Ingestion.storeNormalizedEvent normalizedEventId userId rawEventId event normalizerKey
      normalizerVersion).Ensures g fun n g' =>
        Normalized (records g) rawEventId userId event.eventKind (records g') n := by
  unfold Ingestion.storeNormalizedEvent
  rw [Tx.ensures_bind, ensures_ofExcept]
  intro row hrow
  obtain ⟨hid, huser, hraw, hkind, -⟩ := normalizedRow_ok hrow
  dsimp only
  rw [Tx.ensures_bind, ensures_insertOrIgnore]
  constructor
  · -- the contract has a row already
    intro _
    simp only [Tx.ensures_bind, Tx.ensures_reads, ensures_requireSome, Bool.false_eq_true, if_false]
    intro selected hselected n hn
    obtain ⟨m, hm, rfl⟩ := Option.map_eq_some_iff.1 hselected
    have hmem := List.mem_of_find?_eq_some hn
    have heq : n = m := by
      refine List.inj_on_of_nodup_map hids hmem (List.mem_of_find?_eq_some hm) ?_
      have := List.find?_some hn
      simp only [Bool.and_eq_true, beq_iff_eq] at this
      exact this.1
    have hcontract := List.find?_some hm
    simp only [Bool.and_eq_true, beq_iff_eq, Ingestion.contracted] at hcontract
    refine .existing n hmem ?_ ?_
    · rw [heq]
      exact hcontract.2.1.1.1
    · rw [heq]
      exact hcontract.1
  · intro _ hviolation
    have hfresh : ∀ m ∈ g.normalizedEvents, m.id ≠ row.id := by
      rw [hid]
      split at hviolation
      · cases hviolation
      · rename_i hpk
        exact Table.fresh_of_any hpk
    simp only [Tx.ensures_bind, Tx.ensures_reads, ensures_requireSome, if_true, Option.some.injEq]
    intro selected hselected n hn
    subst hselected
    rw [Table.find?_append_fresh] at hn
    · obtain rfl := Option.some.inj hn
      exact .stored _ hfresh hraw huser hkind
    · intro m hm
      rw [← hid]
      simp [hfresh m hm]
    · simp [hid, huser]

/-- The processing row of an owner's raw event. -/
structure ProcessingFor (S : Records) (rawEventId userId : Uuid) (p : RawEventProcessing) :
    Prop where
  mem : p ∈ S.processing
  rawEventId : p.rawEventId = rawEventId
  userId : p.userId = userId

theorem processingFor_of_find {rawEventId : Uuid} {p : RawEventProcessing}
    (h : g.processing.find? (Ingestion.processingOf userId rawEventId) = some p) :
    ProcessingFor (records g) rawEventId userId p := by
  have hp := List.find?_some h
  simp only [Ingestion.processingOf, Bool.and_eq_true, beq_iff_eq] at hp
  exact ⟨List.mem_of_find?_eq_some h, hp.1, hp.2⟩

theorem lockProcessing_ensures {rawEventId : Uuid} :
    (Ingestion.lockProcessing userId rawEventId).Ensures g fun p g' =>
      ProcessingFor (records g) rawEventId userId p ∧ g' = g := by
  unfold Ingestion.lockProcessing
  rw [Tx.ensures_bind, ensures_selectForUpdate, ensures_requireSome]
  exact fun p hp => ⟨processingFor_of_find hp, rfl⟩

theorem getProcessing_ensures {rawEventId : Uuid} :
    (Ingestion.getProcessing userId rawEventId).Ensures g fun p g' =>
      ProcessingFor (records g) rawEventId userId p ∧ g' = g := by
  unfold Ingestion.getProcessing
  rw [Tx.ensures_bind, Tx.ensures_reads, ensures_requireSome]
  exact fun p hp => ⟨processingFor_of_find hp, rfl⟩

end Expensea.Reconciliation
