import Expensea.Ai.ProposalService
import Expensea.Reconciliation.Effects

namespace Expensea.Ai

open Txn
open Txn.Tx (reads modify)

/-!
# What an approval writes

The writing statements of the three ways to approve a proposal, by the tables they update:
a property of updates that holds of every update of these tables holds of all of them.

* `writes_reconcileTransaction` — the transaction way;
* `writes_approveTarget` — every way, before the proposal and its event are completed.
-/

/-- `P` holds of every update of the tables a new transaction is written to. -/
structure OfPosting (P : (Db → Db) → Prop) : Prop where
  merchants : ∀ f : List Merchant → List Merchant, P fun g => { g with merchants := f g.merchants }
  transactions : ∀ f : List LedgerTransaction → List LedgerTransaction,
    P fun g => { g with transactions := f g.transactions }

/-- `P` holds of every update of the tables a reconciliation writes. -/
structure OfTransactions (P : (Db → Db) → Prop) : Prop where
  merchants : ∀ f : List Merchant → List Merchant, P fun g => { g with merchants := f g.merchants }
  transactions : ∀ f : List LedgerTransaction → List LedgerTransaction,
    P fun g => { g with transactions := f g.transactions }
  evidence : ∀ f : List Evidence → List Evidence, P fun g => { g with evidence := f g.evidence }
  cases : ∀ f : List ReconciliationCase → List ReconciliationCase,
    P fun g => { g with cases := f g.cases }
  actions : ∀ f : List ReconciliationAction → List ReconciliationAction,
    P fun g => { g with actions := f g.actions }

/-- `P` holds of every update of the tables an approval writes, but for obligations, people
    and those of the proposal and its event. -/
structure OfApproval (P : (Db → Db) → Prop) : Prop extends OfTransactions P where
  normalizedEvents : ∀ f : List NormalizedFinancialEvent → List NormalizedFinancialEvent,
    P fun g => { g with normalizedEvents := f g.normalizedEvents }
  recurringPayments : ∀ f : List RecurringPayment → List RecurringPayment,
    P fun g => { g with recurringPayments := f g.recurringPayments }

/-- `P` holds of every update of the tables of an approved obligation. -/
structure OfObligations (P : (Db → Db) → Prop) : Prop where
  same : P id
  people : ∀ f : List Person → List Person, P fun g => { g with people := f g.people }
  obligations : ∀ kind (f : List Obligation → List Obligation), P (Ledger.setObligations kind f)

section Transactions

variable {P : (Db → Db) → Prop} {userId : Uuid}

theorem OfTransactions.posting (hP : OfTransactions P) : OfPosting P :=
  ⟨hP.merchants, hP.transactions⟩

theorem writes_getOrCreateMerchant (hP : OfPosting P) (merchantId : Uuid)
    (merchant : Option (PyStr × PyStr)) : (Ledger.getOrCreateMerchant merchantId merchant).Writes P := by
  cases merchant with
  | none => trivial
  | some names =>
    refine writes_require_bind (writes_require_bind (writes_require_bind ?_))
    refine Tx.writes_acquire_bind (Tx.writes_reads_bind fun existing => ?_)
    cases existing with
    | some m => trivial
    | none => exact Tx.writes_bind (writes_insertChecked (hP.merchants (· ++ [_]))) fun _ => trivial

theorem writes_createTransaction (hP : OfPosting P) {merchantId transactionId : Uuid}
    {command : Ledger.CreateTransactionCommand} :
    (Ledger.createTransaction merchantId transactionId userId command).Writes P := by
  refine Tx.writes_bind (writes_getOrCreateMerchant hP merchantId command.merchant) fun merchant => ?_
  refine writes_ofExcept_bind fun row _ => ?_
  exact Tx.writes_bind (writes_insertChecked (hP.transactions (· ++ [row]))) fun _ _ => trivial

theorem writes_addEvidence (hP : OfTransactions P)
    {evidenceId rawEventId normalizedEventId transactionId : Uuid} {locator : Fields}
    {excerpt : Option PyStr} :
    (Ingestion.addEvidence evidenceId userId rawEventId normalizedEventId transactionId locator
      excerpt).Writes P :=
  writes_require_bind (Tx.writes_acquire_bind (writes_insertChecked (hP.evidence (· ++ [_]))))

theorem writes_createCase (hP : OfTransactions P) {caseId actionId : Uuid}
    {event : NormalizedFinancialEvent} {result : Reconciliation.ReconciliationResult}
    {status : ReconciliationStatus} {resulting : Option Uuid}
    {actionType : ReconciliationActionType} {locator : Fields} {excerpt : Option PyStr} :
    (Reconciliation.createCase caseId actionId userId event result status resulting actionType
      locator excerpt).Writes P := by
  refine Tx.writes_bind (x := Reconciliation.insertCase _) ?_ fun _ => ?_
  · exact Tx.writes_acquire_bind (writes_insertChecked (hP.cases (· ++ [_])))
  · exact Tx.writes_bind (writes_insertChecked (hP.actions (· ++ [_]))) fun _ => trivial

/-- A reconciliation writes merchants, transactions, evidence, cases and actions. -/
theorem writes_reconcileTransaction (hP : OfTransactions P) {C : Reconciliation.Config}
    {fresh : FreshIds} {event : NormalizedFinancialEvent}
    {command : Ledger.CreateTransactionCommand} {source : Reconciliation.EvidenceSource} :
    (Reconciliation.reconcileTransaction C fresh userId event command source).Writes P := by
  refine Tx.writes_acquire_bind ?_
  refine Tx.writes_bind (Tx.writes_of_readOnly (Reconciliation.readOnly_findCandidates _ _ _ _ _))
    fun candidates => ?_
  dsimp only
  split
  · refine writes_requireSome_bind fun candidateId => ?_
    refine Tx.writes_bind (x := Reconciliation.lockTransaction userId candidateId) ?_ fun t => ?_
    · exact Tx.writes_bind (writes_selectForUpdate _ _ _ _) fun locked =>
        Tx.writes_of_readOnly (readOnly_requireSome _ _)
    · refine writes_require_bind ?_
      refine Tx.writes_bind (writes_addEvidence hP) fun _ => ?_
      exact Tx.writes_bind (writes_createCase hP) fun _ => trivial
  · exact Tx.writes_bind (writes_createCase hP) fun _ => trivial
  · refine Tx.writes_bind (writes_createTransaction hP.posting) fun transaction => ?_
    refine Tx.writes_bind (writes_addEvidence hP) fun _ => ?_
    exact Tx.writes_bind (writes_createCase hP) fun _ => trivial

end Transactions

section Approvals

variable {P : (Db → Db) → Prop} {userId : Uuid} {C : ProposalConfig} {fresh : FreshIds}
  {p : FinancialEventProposal}

theorem writes_storeNormalizedEvent (hP : OfApproval P) {normalizedEventId rawEventId : Uuid}
    {event : Ingestion.NormalizedFinancialEventV1} {normalizerKey normalizerVersion : String} :
    (Ingestion.storeNormalizedEvent normalizedEventId userId rawEventId event normalizerKey
      normalizerVersion).Writes P := by
  refine writes_ofExcept_bind fun row _ => ?_
  refine Tx.writes_bind (writes_insertOrIgnore (hP.normalizedEvents (· ++ [row]))) fun _ => ?_
  refine Tx.writes_reads_bind fun existing => writes_requireSome_bind fun selected => ?_
  exact Tx.writes_reads_bind fun normalized => Tx.writes_of_readOnly (readOnly_requireSome _ _)

theorem readOnly_requireMoneyAndOccurred : (requireMoneyAndOccurred p).ReadOnly := by
  unfold requireMoneyAndOccurred
  split
  · trivial
  · trivial

theorem writes_approveTransaction (hP : OfApproval P) {transactionType : TransactionType}
    {event : NormalizedFinancialEvent} :
    (approveTransaction C fresh userId p transactionType event).Writes P := by
  refine Tx.writes_bind (Tx.writes_of_readOnly readOnly_requireMoneyAndOccurred) fun money => ?_
  refine Tx.writes_bind (Tx.writes_of_readOnly Categorization.classify_readOnly) fun assignment => ?_
  refine Tx.writes_bind (Tx.writes_of_readOnly (Reconciliation.readOnly_resolveCategory _ _ _ _))
    fun categoryId => ?_
  exact writes_ofExcept_bind fun command _ =>
    writes_reconcileTransaction hP.toOfTransactions

theorem writes_approveObligation (hP : OfObligations P) {now : Instant} {kind : ObligationKind} :
    (approveObligation C fresh now userId p kind).Writes P := by
  refine Tx.writes_bind (Tx.writes_of_readOnly readOnly_requireMoneyAndOccurred) fun money => ?_
  refine writes_requireSome_bind fun counterparty => Tx.writes_reads_bind fun timezone => ?_
  refine writes_requireSome_bind fun timezoneName => ?_
  refine Tx.writes_bind (x := counterpartyPerson _ _ _ _) ?_ fun personId => ?_
  · refine writes_ofExcept_bind fun command _ => ?_
    refine Tx.writes_bind (x := Ledger.createPersonRow _ _ _) ?_ fun created => ?_
    · refine writes_require_bind (writes_require_bind (writes_require_bind ?_))
      exact Tx.writes_bind (writes_insertOrIgnore (hP.people (· ++ [_]))) fun _ => trivial
    · exact Tx.writes_reads_bind fun _ => Tx.writes_of_readOnly (readOnly_requireSome _ _)
  · refine writes_require_bind (writes_ofExcept_bind fun command _ => ?_)
    refine Tx.writes_bind (x := Ledger.createObligationRow _ _ _ _ _) ?_ fun _ => trivial
    refine Tx.writes_bind (writes_insertChecked ?_) fun _ => ?_
    · cases Money.store command.amount with
      | none => exact hP.same
      | some amount => exact hP.obligations kind (· ++ [_])
    · exact Tx.writes_reads_bind fun _ => Tx.writes_of_readOnly (readOnly_requireSome _ _)

/-- A recurring payment is approved: a merchant and the payment may be new. -/
theorem writes_approveRecurring_of (hP : OfPosting P)
    (hpayments : ∀ f : List RecurringPayment → List RecurringPayment,
      P fun g => { g with recurringPayments := f g.recurringPayments }) :
    (approveRecurring C fresh userId p).Writes P := by
  refine writes_requireSome_bind fun fields => writes_ofExcept_bind fun command _ => ?_
  refine Tx.writes_reads_bind fun known => writes_require_bind ?_
  refine Tx.writes_bind (x := Ledger.getOrCreateRecurringMerchant _ _) ?_ fun merchantId => ?_
  · refine Tx.writes_bind (writes_getOrCreateMerchant hP _ _) fun _ => ?_
    exact Tx.writes_of_readOnly (readOnly_requireSome _ _)
  · refine writes_require_bind (writes_requireSome_bind fun amount => ?_)
    refine writes_require_bind (writes_require_bind ?_)
    exact Tx.writes_bind (writes_insertChecked (hpayments (· ++ [_]))) fun _ => trivial

theorem writes_approveRecurring (hP : OfApproval P) :
    (approveRecurring C fresh userId p).Writes P :=
  writes_approveRecurring_of hP.posting hP.recurringPayments

/-- Every way to approve writes the tables of its target only. -/
theorem writes_approveTarget (hP : OfApproval P) (hO : OfObligations P) {now : Instant}
    {event : NormalizedFinancialEvent} : (approveTarget C fresh now userId p event).Writes P := by
  unfold approveTarget
  split
  · refine Tx.writes_bind (writes_approveTransaction hP) fun outcome => ?_
    unfold reconciledTarget
    split
    · trivial
    · exact writes_requireSome_bind fun _ => trivial
  · exact Tx.writes_bind (writes_approveObligation hO) fun _ => trivial
  · exact Tx.writes_bind (writes_approveObligation hO) fun _ => trivial
  · exact Tx.writes_bind (writes_approveRecurring hP) fun _ => trivial
  · trivial

/-- The same proposal: its row, its raw event and its prompt. -/
structure SameProposal (p q : FinancialEventProposal) : Prop where
  id : q.id = p.id
  rawEventId : q.rawEventId = p.rawEventId
  promptName : q.promptName = p.promptName
  promptVersion : q.promptVersion = p.promptVersion
  schemaVersion : q.schemaVersion = p.schemaVersion

theorem SameProposal.prompted {p q : FinancialEventProposal} (h : SameProposal p q)
    (rawEventId : Uuid) (promptName promptVersion schemaVersion : String) :
    Ai.prompted rawEventId promptName promptVersion schemaVersion q =
      Ai.prompted rawEventId promptName promptVersion schemaVersion p := by
  rw [Ai.prompted, h.rawEventId, h.promptName, h.promptVersion, h.schemaVersion, Ai.prompted]

/-- The target of an approval is the proposal with the identifier of its target. -/
theorem returns_approveTarget {now : Instant} {event : NormalizedFinancialEvent} :
    (approveTarget C fresh now userId p event).Returns fun target =>
      ∀ q, target = some q → SameProposal p q := by
  unfold approveTarget
  split
  · refine Tx.returns_bind fun outcome => ?_
    unfold reconciledTarget
    split
    · exact Tx.returns_pure (fun q hq => by cases hq)
    · refine Tx.returns_bind fun transactionId => Tx.returns_pure ?_
      rintro q ⟨⟩
      exact ⟨rfl, rfl, rfl, rfl, rfl⟩
  all_goals
    first
    | refine Tx.returns_bind fun target => Tx.returns_pure ?_
      rintro q ⟨⟩
      exact ⟨rfl, rfl, rfl, rfl, rfl⟩
    | trivial

end Approvals

end Expensea.Ai
