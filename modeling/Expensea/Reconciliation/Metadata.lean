import Expensea.Ledger.Service
import Expensea.Reconciliation.Commands
import Expensea.Reconciliation.Errors
import Expensea.Reconciliation.Runs

namespace Expensea.Reconciliation

open Txn
open Ledger (CreateTransactionCommand TransactionView)

/-!
# Category metadata

Which writers of `transactions` can be aborted by
`ck_transactions_category_metadata_consistent`.

* `Spares` — a program that never ends with that violation;
* `HintCommand` — the command of an event whose category is its hint's and which has no
  confidence: the one command with inconsistent metadata;
* `category_metadata` — every writer, one by one.
-/

/-- The program never ends with a violation of the metadata check. -/
def Spares {α : Type} (x : DbTx α) : Prop := x.Throws (· ≠ metadataViolated)

/-- The other errors of the shared programs are no violation of the metadata check. -/
theorem spared : Ordinary (· ≠ metadataViolated) where
  data := fun _ h => by cases h
  integrity := fun _ hck h => hck (AppError.integrity.inj h)
  runtime := fun _ h => by cases h
  overflow := fun h => by cases h
  notFound := fun _ _ h => by cases h
  conflict := fun _ _ h => by cases h

section Sequences

variable {α β : Type} {x : DbTx α} {f : α → DbTx β} {g : Db}

theorem Spares.run (hx : Spares x) : x.run g ≠ .error metadataViolated :=
  fun h => hx.run_error h rfl

/-- If the first part spares, the second one is to blame. -/
theorem Spares.violated_bind (hx : Spares x) :
    (x >>= f).run g = .error metadataViolated ↔
      ∃ a g', x.run g = .ok (a, g') ∧ (f a).run g' = .error metadataViolated := by
  rw [Tx.run_bind_error]
  exact or_iff_right hx.run

/-- If the second part spares, the first one is to blame. -/
theorem violated_bind_of_spares (hf : ∀ a, Spares (f a)) :
    (x >>= f).run g = .error metadataViolated ↔ x.run g = .error metadataViolated := by
  rw [Tx.run_bind_error]
  refine or_iff_left ?_
  rintro ⟨a, g', -, h⟩
  exact (hf a).run h

/-- A first part that only reads hands its state on. -/
theorem violated_bind_of_run {a : α} (hx : x.run g = .ok (a, g)) :
    (x >>= f).run g = .error metadataViolated ↔ (f a).run g = .error metadataViolated := by
  rw [Tx.run_bind, hx]

theorem spares_require {condition : Bool} {e : AppError} (he : e ≠ metadataViolated) :
    Spares (require condition e) := throws_require he

theorem spares_requireSome {value : Option α} {e : AppError} (he : e ≠ metadataViolated) :
    Spares (requireSome value e) := throws_requireSome he

theorem spares_reads {h : Db → α} : Spares (Tx.reads h : DbTx α) := Tx.throws_reads h

theorem Spares.bind (hx : Spares x) (hf : ∀ a, Spares (f a)) : Spares (x >>= f) :=
  Tx.throws_bind hx hf

end Sequences

/-! ### The insert -/

section Insert

variable {merchantId transactionId userId : Uuid} {command : CreateTransactionCommand} {g g' : Db}

/-- The checks on a row that come before the metadata check. -/
def firstChecks (command : CreateTransactionCommand) : Bool :=
  fitsColumn 3 command.currency && fitsColumn 500 command.description &&
    (Money.store command.amount).any (fun amount => 0 < amount.units) &&
    command.categoryConfidence.all fun c => (Confidence.store c).isSome

theorem storeConfidence_ok {ck : String} {value : Option ℚ} {c : Option Confidence}
    (h : Ledger.storeConfidence ck value = .ok c) :
    value.all (fun c => (Confidence.store c).isSome) = true := by
  unfold Ledger.storeConfidence at h
  split at h
  · rfl
  split at h
  · cases h
  · rename_i hsome
    simp [hsome]

/-- The metadata check fails exactly on inconsistent metadata that passed the first
    checks. -/
theorem transactionRow_violated {id : Uuid} {merchant : Option Uuid} :
    Ledger.transactionRow id userId merchant command = .error metadataViolated ↔
      firstChecks command = true ∧ command.categoryMetadataConsistent = false := by
  unfold Ledger.transactionRow firstChecks
  simp only [bind, Except.bind, throw, throwThe, MonadExceptOf.throw, pure, Except.pure]
  cases hfits : fitsColumn 3 command.currency && fitsColumn 500 command.description with
  | false => simp [metadataViolated]
  | true =>
    cases hamount : Money.store command.amount with
    | none => simp [metadataViolated]
    | some amount =>
      rw [if_neg (by simp)]
      dsimp only
      by_cases hpositive : 0 < amount.units
      · rw [if_neg (by simp [hpositive])]
        cases hcategory : Ledger.storeConfidence "ck_transactions_category_confidence_range"
            command.categoryConfidence with
        | error e =>
          obtain ⟨rfl, hall⟩ := storeConfidence_error hcategory
          rw [hall]
          simp [metadataViolated, Ledger.CATEGORY_METADATA_CONSISTENT]
        | ok c =>
          rw [storeConfidence_ok hcategory]
          cases hconsistent : command.categoryMetadataConsistent with
          | false => simp [metadataViolated, hpositive]
          | true =>
            -- the checks that follow fail with other errors
            simp only [Bool.not_true, Bool.false_eq_true, if_false, Bool.true_eq_false, and_false,
              iff_false]
            cases hconfidence : Ledger.storeConfidence "ck_transactions_confidence_range"
                command.confidence with
            | error e =>
              obtain ⟨rfl, -⟩ := storeConfidence_error hconfidence
              simp [metadataViolated, Ledger.CATEGORY_METADATA_CONSISTENT]
            | ok c' =>
              dsimp only
              split
              · simp [metadataViolated, Ledger.CATEGORY_METADATA_CONSISTENT]
              split
              · simp [metadataViolated, Ledger.CATEGORY_METADATA_CONSISTENT]
              · simp
      · rw [if_pos (by simp [hpositive])]
        simp [metadataViolated, hpositive, Ledger.CATEGORY_METADATA_CONSISTENT]

/-- The insert of a command is reached: its merchant is upserted and the first checks
    pass. -/
def Insertable (merchantId : Uuid) (command : CreateTransactionCommand) (g : Db) : Prop :=
  (Ledger.getOrCreateMerchant merchantId command.merchant).commits g = true ∧
    firstChecks command = true

/-- A create is aborted exactly by inconsistent metadata of an insertable command. -/
theorem createTransaction_violated :
    (Ledger.createTransaction merchantId transactionId userId command).run g =
        .error metadataViolated ↔
      Insertable merchantId command g ∧ command.categoryMetadataConsistent = false := by
  unfold Ledger.createTransaction Insertable
  rw [Spares.violated_bind (throws_getOrCreateMerchant spared merchantId command.merchant)]
  constructor
  · rintro ⟨merchant, g', hmerchant, hrow⟩
    have hcommits : (Ledger.getOrCreateMerchant merchantId command.merchant).commits g = true := by
      rw [Tx.commits, hmerchant]
    cases hresult : Ledger.transactionRow transactionId userId merchant command with
    | error e =>
      rw [hresult] at hrow
      obtain rfl := Except.error.inj hrow
      obtain ⟨hfirst, hconsistent⟩ := transactionRow_violated.1 hresult
      exact ⟨⟨hcommits, hfirst⟩, hconsistent⟩
    | ok row =>
      rw [hresult] at hrow
      have hspares : Spares (Ledger.insertTransaction row >>= fun _ =>
          Tx.reads (Ledger.transactionView transactionId command merchant)) :=
        (throws_insertTransaction spared row).bind fun _ => spares_reads
      exact absurd hrow hspares.run
  · rintro ⟨⟨hcommits, hfirst⟩, hconsistent⟩
    obtain ⟨merchant, hmerchant⟩ := Tx.run_of_commits hcommits
    refine ⟨merchant, _, hmerchant, ?_⟩
    rw [transactionRow_violated.2 ⟨hfirst, hconsistent⟩]
    rfl

end Insert

/-! ### Programs that spare -/

section Programs

variable {α : Type} {userId : Uuid} {g : Db}

theorem spares_selectForUpdate {R : Type} {rows : Db → List R} {table : TableName} {key : R → Uuid}
    {p : R → Bool} : Spares (selectForUpdate rows table key p) := throws_selectForUpdate _ _ _ _

theorem proposalCommand_error {U : Unicode} {p : FinancialEventProposal} {amount : Money}
    {currency : PyStr} {transactionType : TransactionType} {occurredAt : Instant}
    {assignment : Option Categorization.CategoryAssignment} {categoryId : Option Uuid} {e : AppError}
    (h : Ai.proposalCommand U p amount currency transactionType occurredAt assignment categoryId =
      .error e) : (∃ l, e = .ledger l) ∨ e = .overflow := by
  unfold Ai.proposalCommand at h
  cases hparsed : Ledger.parseCreateTransaction U (ingestionInput amount currency transactionType
      p.description occurredAt categoryId p.merchantName (some p.confidence)) with
  | error e' =>
    rw [hparsed] at h
    obtain rfl := Except.error.inj h
    exact parseCreateTransaction_error hparsed
  | ok command =>
    rw [hparsed] at h
    cases h

theorem not_violated {e : AppError} (h : (∃ l, e = .ledger l) ∨ e = .overflow) :
    e ≠ metadataViolated := by
  rintro rfl
  rcases h with ⟨l, h⟩ | h <;> cases h

theorem spares_requireStateTransition (current target : RawEventState) :
    Spares (Ingestion.requireStateTransition current target) := by
  unfold Ingestion.requireStateTransition
  exact spares_require nofun

theorem spares_moveTo (processing : RawEventProcessing) (target : RawEventState)
    (errorCode : Option String) : Spares (Ingestion.moveTo processing target errorCode) :=
  (spares_requireStateTransition _ _).bind fun _ => (throws_setProcessing _ _).bind fun _ =>
    Tx.throws_pure _

end Programs

/-! ### Reconciliation -/

section Reconciliation

variable {C : Config} {fresh : FreshIds} {userId : Uuid} {event : NormalizedFinancialEvent}
  {command : CreateTransactionCommand} {result : ReconciliationResult} {source : EvidenceSource}
  {g : Db}

/-- The event is decided to be a new transaction. -/
def DecidedNew (C : Config) (userId : Uuid) (event : NormalizedFinancialEvent)
    (transactionType : TransactionType) (g : Db) : Prop :=
  (findCandidates C.platform userId event transactionType C.policy).returns (fun candidates =>
    (reconcileCandidates C.platform.unicode C.policy event candidates).decision ==
      .newTransaction) g = true

/-- Reconciliation is aborted where it creates the transaction. -/
theorem reconcileTransaction_violated :
    (reconcileTransaction C fresh userId event command source).run g = .error metadataViolated ↔
      DecidedNew C userId event command.transactionType g ∧
        Insertable fresh.merchant command g ∧ command.categoryMetadataConsistent = false := by
  unfold reconcileTransaction acquireUserWriteLock DecidedNew Tx.returns
  rw [violated_bind_of_run (Tx.run_acquire _ g)]
  cases hcandidates : (findCandidates C.platform userId event command.transactionType
      C.policy).run g with
  | error e =>
    rw [Tx.run_bind, hcandidates]
    have hne : e ≠ metadataViolated := (throws_findCandidates spared _ _ _ _).run_error hcandidates
    simp [hne]
  | ok r =>
    obtain ⟨candidates, g'⟩ := r
    obtain rfl := Tx.run_readOnly (readOnly_findCandidates _ _ _ _ _) hcandidates
    rw [violated_bind_of_run hcandidates]
    dsimp only
    cases hdecision : (reconcileCandidates C.platform.unicode C.policy event candidates).decision with
    | merge => simpa using Spares.run (throws_mergeWithCandidate spared _)
    | possibleDuplicate => simpa using Spares.run (throws_flagCandidate spared)
    | newTransaction =>
      unfold createSeparate
      rw [violated_bind_of_spares (throws_linkNew spared), createTransaction_violated]
      simp

end Reconciliation

/-! ### Commands of events -/

section Commands

variable {U : Unicode} {userId : Uuid} {event : NormalizedFinancialEvent} {amount : Money}
  {currency : PyStr} {transactionType : TransactionType} {occurredAt : Instant}
  {assignment : Option Categorization.CategoryAssignment} {categoryId : Option Uuid}
  {command : CreateTransactionCommand} {g : Db}

/-- Category metadata are inconsistent exactly where a hint names the category and there is
    no confidence. -/
theorem categorized_inconsistent {confidence : Option ℚ}
    (hcommand : command.categoryMetadataConsistent = true)
    (hassigned : assignment.isSome = true → command.categoryId.isSome = true) :
    (categorized command assignment confidence).categoryMetadataConsistent = false ↔
      assignment = none ∧ command.categoryId.isSome = true ∧ confidence = none := by
  cases assignment with
  | some a =>
    have hsome := hassigned rfl
    simp [categorized, CreateTransactionCommand.categoryMetadataConsistent, hsome]
  | none =>
    cases hid : command.categoryId with
    | none => simp [categorized, hid, hcommand]
    | some id =>
      cases confidence with
      | none =>
        simp [categorized, hid, hinted, CreateTransactionCommand.categoryMetadataConsistent]
      | some c =>
        simp [categorized, hid, hinted, CreateTransactionCommand.categoryMetadataConsistent]

theorem eventCommand_inconsistent
    (h : eventCommand U event amount currency transactionType occurredAt assignment categoryId =
      .ok command) (hassigned : assignment.isSome = true → categoryId.isSome = true) :
    command.categoryMetadataConsistent = false ↔
      assignment = none ∧ categoryId.isSome = true ∧ event.confidence = none := by
  obtain ⟨parsed, hparsed, rfl⟩ := map_ok h
  have hid := (Ledger.parseCreateTransaction_ok hparsed).1
  have hid : parsed.categoryId = categoryId := hid
  rw [categorized_inconsistent (Ledger.parseCreateTransaction_consistent hparsed)
    (by rwa [hid]), hid, Option.map_eq_none_iff]

theorem proposalCommand_consistent {p : FinancialEventProposal}
    (h : Ai.proposalCommand U p amount currency transactionType occurredAt assignment categoryId =
      .ok command) (hassigned : assignment.isSome = true → categoryId.isSome = true) :
    command.categoryMetadataConsistent = true := by
  obtain ⟨parsed, hparsed, rfl⟩ := map_ok h
  have hid := (Ledger.parseCreateTransaction_ok hparsed).1
  have hid : parsed.categoryId = categoryId := hid
  rw [← Bool.not_eq_false, categorized_inconsistent
    (Ledger.parseCreateTransaction_consistent hparsed) (by rwa [hid])]
  rintro ⟨-, -, h⟩
  cases h

/-- The category of an event comes from its hint alone, and the event has no confidence. -/
structure HintOnly (U : Unicode) (userId : Uuid) (event : NormalizedFinancialEvent)
    (categoryId : Uuid) (g : Db) : Prop where
  confidence : event.confidence = none
  unclassified : (Categorization.classify U userId event.description
    (merchantLookup U event.merchantName)).returns Option.isNone g = true
  hint : ∃ hint ∈ event.categoryHint,
    Ledger.visibleCategoryId userId (normalizeLookupText U hint) g = some categoryId

/-- The command of an event whose category comes from its hint alone and which has no
    confidence. -/
def HintCommand (U : Unicode) (userId : Uuid) (event : NormalizedFinancialEvent) (g : Db)
    (command : CreateTransactionCommand) : Prop :=
  ∃ amount currency transactionType occurredAt categoryId,
    event.amount = some amount ∧ event.currency = some currency ∧
    event.eventKind.transactionType = some transactionType ∧
    event.occurredAt = some occurredAt ∧ HintOnly U userId event categoryId g ∧
    eventCommand U event amount currency transactionType occurredAt none (some categoryId) =
      .ok command

theorem HintCommand.inconsistent (h : HintCommand U userId event g command) :
    command.categoryMetadataConsistent = false := by
  obtain ⟨amount, currency, transactionType, occurredAt, categoryId, -, -, -, -, hhint, hcommand⟩ := h
  exact (eventCommand_inconsistent hcommand nofun).2 ⟨rfl, rfl, hhint.confidence⟩

/-- The category a classified event resolves to. -/
theorem resolveCategory_assigned {categoryHint : Option PyStr} {g' : Db}
    (h : (resolveCategory U userId assignment categoryHint).run g = .ok (categoryId, g')) :
    assignment.isSome = true → categoryId.isSome = true := by
  intro hsome
  cases assignment with
  | none => cases hsome
  | some a =>
    obtain ⟨rfl, -⟩ := Prod.mk.inj (Except.ok.inj h)
    rfl

/-- What builds the command of an event from the database, with `k` to follow. -/
def buildThen {α : Type} (U : Unicode) (userId : Uuid) (event : NormalizedFinancialEvent)
    (amount : Money) (currency : PyStr) (transactionType : TransactionType) (occurredAt : Instant)
    (k : Except AppError CreateTransactionCommand → DbTx α) : DbTx α := do
  let assignment ← Categorization.classify U userId event.description
    (merchantLookup U event.merchantName)
  let categoryId ← resolveCategory U userId assignment event.categoryHint
  k (eventCommand U event amount currency transactionType occurredAt assignment categoryId)

/-- If what follows is violated by inconsistent metadata only, the event is to blame. -/
theorem buildThen_violated {α : Type} {k : Except AppError CreateTransactionCommand → DbTx α}
    {R : CreateTransactionCommand → Prop} (hamount : event.amount = some amount)
    (hcurrency : event.currency = some currency)
    (htype : event.eventKind.transactionType = some transactionType)
    (hoccurred : event.occurredAt = some occurredAt)
    (herror : ∀ e, (∃ l, e = AppError.ledger l) ∨ e = .overflow →
      (k (.error e)).run g ≠ .error metadataViolated)
    (hok : ∀ command, (k (.ok command)).run g = .error metadataViolated ↔
      R command ∧ command.categoryMetadataConsistent = false) :
    (buildThen U userId event amount currency transactionType occurredAt k).run g =
        .error metadataViolated ↔
      ∃ command, HintCommand U userId event g command ∧ R command := by
  obtain ⟨assignment, hclassify⟩ := classify_run U userId g event.description
    (merchantLookup U event.merchantName)
  obtain ⟨categoryId, hresolve⟩ := resolveCategory_run U userId g assignment
    event.categoryHint
  have hassigned := resolveCategory_assigned hresolve
  unfold buildThen
  rw [violated_bind_of_run hclassify, violated_bind_of_run hresolve]
  constructor
  · intro hviolated
    cases hcommand : eventCommand U event amount currency transactionType occurredAt assignment
        categoryId with
    | error e =>
      rw [hcommand] at hviolated
      exact absurd hviolated (herror e (eventCommand_error hcommand))
    | ok command =>
      rw [hcommand, hok] at hviolated
      obtain ⟨rfl, hid, hconfidence⟩ :=
        (eventCommand_inconsistent hcommand hassigned).1 hviolated.2
      obtain ⟨id, rfl⟩ := Option.isSome_iff_exists.1 hid
      refine ⟨command, ⟨amount, currency, transactionType, occurredAt, id, hamount, hcurrency, htype,
        hoccurred, ⟨hconfidence, by rw [Tx.returns, hclassify]; rfl, ?_⟩, hcommand⟩, hviolated.1⟩
      cases hhint : event.categoryHint with
      | none =>
        rw [hhint] at hresolve
        cases hresolve
      | some hint =>
        rw [hhint] at hresolve
        exact ⟨hint, rfl, (Prod.mk.inj (Except.ok.inj hresolve)).1⟩
  · rintro ⟨command, hcommand, hR⟩
    have hinconsistent := hcommand.inconsistent
    obtain ⟨amount', currency', transactionType', occurredAt', id, hamount', hcurrency', htype',
      hoccurred', hhint, hbuilt⟩ := hcommand
    obtain rfl := Option.some.inj (hamount.symm.trans hamount')
    obtain rfl := Option.some.inj (hcurrency.symm.trans hcurrency')
    obtain rfl := Option.some.inj (htype.symm.trans htype')
    obtain rfl := Option.some.inj (hoccurred.symm.trans hoccurred')
    have hnone := hhint.unclassified
    rw [Tx.returns, hclassify] at hnone
    obtain rfl := Option.isNone_iff_eq_none.1 hnone
    obtain ⟨hint, hmem, hvisible⟩ := hhint.hint
    rw [Option.mem_def.1 hmem] at hresolve
    obtain rfl : Ledger.visibleCategoryId userId (normalizeLookupText U hint) g = categoryId :=
      (Prod.mk.inj (Except.ok.inj hresolve)).1
    rw [hvisible, hbuilt, hok]
    exact ⟨hR, hinconsistent⟩

end Commands

/-! ### Writers of events -/

section Writers

variable {C : Config} {fresh : FreshIds} {userId : Uuid} {event : NormalizedFinancialEvent} {g : Db}

theorem spares_queueReview (processing : RawEventProcessing) (errorCode : String) :
    Spares (Ingestion.queueReview processing errorCode) :=
  (spares_moveTo _ _ _).bind fun _ => Tx.throws_pure _

theorem spares_settleOutcome (processing : RawEventProcessing)
    (outcome : ReconciliationProcessingOutcome) :
    Spares (Ingestion.settleOutcome processing outcome) := by
  unfold Ingestion.settleOutcome
  split
  · exact spares_queueReview _ _
  · refine (spares_requireSome (by decide)).bind fun transactionId => ?_
    exact (spares_moveTo _ _ _).bind fun _ => Tx.throws_pure _

/-- Direct ingestion of an event is aborted exactly where a hint without a confidence reaches
    the insert. -/
theorem postOrQueueReview_violated {envelope : Ingestion.ConnectorEnvelope}
    {processing : RawEventProcessing} :
    (Ingestion.postOrQueueReview C fresh userId envelope processing event).run g =
        .error metadataViolated ↔
      ∃ command, HintCommand C.platform.unicode userId event g command ∧
        DecidedNew C userId event command.transactionType g ∧ Insertable fresh.merchant command g := by
  unfold Ingestion.postOrQueueReview
  split
  · rename_i transactionType amount currency occurredAt htype hamount hcurrency hoccurred
    refine buildThen_violated (k := Ingestion.postCommand C fresh userId envelope processing event)
      hamount hcurrency htype hoccurred (fun e he => ?_) fun command => ?_
    · rcases he with ⟨l, rfl⟩ | rfl
      · exact (spares_queueReview _ _).run
      · exact nofun
    · unfold Ingestion.postCommand
      dsimp only
      rw [violated_bind_of_spares (spares_settleOutcome processing),
        reconcileTransaction_violated, and_assoc]
  · rename_i hfields
    refine iff_of_false (spares_queueReview _ _).run ?_
    rintro ⟨command, ⟨amount, currency, transactionType, occurredAt, id, hamount, hcurrency, htype,
      hoccurred, -⟩, -⟩
    exact hfields _ _ _ _ htype hamount hcurrency hoccurred

/-- Rebuilding the command of an event and inserting it. -/
theorem transactionCommand_violated {α : Type} {k : TransactionView → DbTx α}
    (hk : ∀ view, Spares (k view)) :
    (transactionCommand C.platform.unicode userId event >>= fun command =>
        Ledger.createTransaction fresh.merchant fresh.transaction userId command >>= k).run g =
        .error metadataViolated ↔
      ∃ command, HintCommand C.platform.unicode userId event g command ∧
        Insertable fresh.merchant command g := by
  unfold transactionCommand
  split
  · rename_i amount currency occurredAt hamount hcurrency hoccurred
    cases htype : event.eventKind.transactionType with
    | none =>
      rw [requireTransactionType, htype]
      refine iff_of_false (fun h => by cases h) ?_
      rintro ⟨command, ⟨amount, currency, transactionType, occurredAt, id, -, -, htype', -⟩, -⟩
      rw [htype] at htype'
      cases htype'
    | some transactionType =>
      rw [requireTransactionType, htype, requireSome, pure_bind]
      simp only [bind_assoc]
      refine buildThen_violated (k := fun built => ofExcept id built >>= fun command =>
        Ledger.createTransaction fresh.merchant fresh.transaction userId command >>= k)
        hamount hcurrency htype hoccurred (fun e he => ?_) fun command => ?_
      · exact fun hviolated => not_violated he (Except.error.inj hviolated)
      · show (Ledger.createTransaction fresh.merchant fresh.transaction userId command >>= k).run g =
          .error metadataViolated ↔ _
        rw [violated_bind_of_spares hk, createTransaction_violated]
  · rename_i hfields
    refine iff_of_false (fun h => by cases h) ?_
    rintro ⟨command, ⟨amount, currency, transactionType, occurredAt, id, hamount, hcurrency, -,
      hoccurred, -⟩, -⟩
    exact hfields _ _ _ hamount hcurrency hoccurred

theorem spares_updateCase (c : ReconciliationCase) : Spares (updateCase c) :=
  (spares_require (by decide)).bind fun _ => Tx.throws_modify _

theorem spares_updateProposal (p : FinancialEventProposal) : Spares (updateProposal p) :=
  (spares_require (by decide)).bind fun _ => Tx.throws_modify _

/-- The only error of a view is an incomplete event. -/
theorem caseView_error {caseId : Uuid} {e : AppError} (h : caseView userId caseId g = some (.error e)) :
    e ≠ metadataViolated := by
  unfold caseView at h
  simp only [Option.bind_eq_bind, Option.bind_eq_some_iff] at h
  obtain ⟨c, -, event, -, raw, -, connection, -, h⟩ := h
  split at h
  · cases h
  · obtain rfl := Except.error.inj (Option.some.inj h)
    decide

theorem spares_requireView (caseId : Uuid) : Spares (requireView userId caseId) := by
  refine Tx.throws_reads_bind fun g => ?_
  cases hview : caseView userId caseId g with
  | none => exact (by decide : caseNotFound ≠ metadataViolated)
  | some view =>
    refine throws_ofExcept fun e he => ?_
    rw [he] at hview
    exact caseView_error hview

theorem spares_proposalForRawEvent (rawEventId : Uuid) :
    Spares (proposalForRawEvent userId rawEventId) := spares_selectForUpdate

theorem spares_completeSource (c : ReconciliationCase) (transactionId : Uuid) :
    Spares (completeSource userId c transactionId) := by
  refine (throws_lockProcessing spared _).bind fun processing => ?_
  refine (spares_require (by decide)).bind fun _ => ?_
  refine (spares_requireStateTransition _ _).bind fun _ => ?_
  refine (throws_setProcessing _ _).bind fun _ => ?_
  refine (spares_proposalForRawEvent _).bind fun found => ?_
  cases found with
  | none => exact Tx.throws_pure _
  | some x => exact (spares_require (by decide)).bind fun _ => spares_updateProposal _

theorem spares_resolveCase (c : ReconciliationCase) (status : ReconciliationStatus)
    (actionType : ReconciliationActionType) (transactionId : Uuid) :
    Spares (resolveCase fresh userId c status actionType transactionId) := by
  refine (throws_addEvidence spared _ _ _ _ _ _).bind fun _ => ?_
  refine (spares_updateCase _).bind fun _ => ?_
  refine (throws_appendAction spared _ _ _ _ _).bind fun _ => ?_
  exact (spares_completeSource _ _).bind fun _ => spares_requireView _

/-- The owner's case, if it has the status. -/
def ownedCase (userId caseId : Uuid) (status : ReconciliationStatus) (g : Db) :
    Option ReconciliationCase :=
  (g.cases.find? fun c => c.id == caseId && c.userId == userId).filter (·.status == status)

/-- The evidence of a case. -/
def caseEvidence (userId : Uuid) (c : ReconciliationCase) (g : Db) : Option Evidence :=
  g.evidence.find? fun e => e.normalizedEventId == c.normalizedEventId &&
    e.rawEventId == c.rawEventId && e.userId == userId

/-- The normalized event of a case. -/
def caseEvent (userId : Uuid) (c : ReconciliationCase) (g : Db) : Option NormalizedFinancialEvent :=
  g.normalizedEvents.find? fun n =>
    n.id == c.normalizedEventId && n.rawEventId == c.rawEventId && n.userId == userId

/-- A program that goes on with an option. -/
theorem violated_requireSome {α β : Type} {value : Option α} {e : AppError} {f : α → DbTx β}
    (he : e ≠ metadataViolated) :
    (requireSome value e >>= f).run g = .error metadataViolated ↔
      ∃ a, value = some a ∧ (f a).run g = .error metadataViolated := by
  cases value with
  | none =>
    refine iff_of_false (fun h => he (Except.error.inj h)) ?_
    rintro ⟨a, ha, -⟩
    cases ha
  | some a =>
    rw [requireSome, pure_bind]
    simp

theorem violated_require {β : Type} {condition : Bool} {e : AppError} {f : Unit → DbTx β}
    (he : e ≠ metadataViolated) :
    (require condition e >>= f).run g = .error metadataViolated ↔
      condition = true ∧ (f ()).run g = .error metadataViolated := by
  cases condition with
  | false => exact iff_of_false (fun h => he (Except.error.inj h)) nofun
  | true =>
    rw [require, if_pos rfl, pure_bind]
    simp

/-- Keeping a case separate is aborted exactly where a hint without a confidence reaches the
    insert. -/
theorem keepSeparate_violated {caseId : Uuid} :
    (keepSeparate C fresh userId caseId).run g = .error metadataViolated ↔
      ∃ c event command, ownedCase userId caseId .pending g = some c ∧
        caseEvidence userId c g = none ∧ caseEvent userId c g = some event ∧
        HintCommand C.platform.unicode userId event g command ∧
        Insertable fresh.merchant command g := by
  unfold keepSeparate acquireUserWriteLock lockCase requirePending requireUnlinked evidenceForCase
    normalizedForCase
  rw [violated_bind_of_run (Tx.run_acquire _ g),
    violated_bind_of_run (run_selectForUpdate Db.cases _ _ _ g)]
  simp only [bind_assoc, pure_bind]
  rw [violated_requireSome (by decide)]
  have hrest : ∀ c : ReconciliationCase, ∀ event,
      (transactionCommand C.platform.unicode userId event >>= fun command =>
        Ledger.createTransaction fresh.merchant fresh.transaction userId command >>= fun view =>
          resolveCase fresh userId c .keptSeparate .userKeptSeparate view.id).run g =
        .error metadataViolated ↔
      ∃ command, HintCommand C.platform.unicode userId event g command ∧
        Insertable fresh.merchant command g :=
    fun c event => transactionCommand_violated fun view => spares_resolveCase _ _ _ _
  simp only [violated_require (e := .reconciliationConflict "RECONCILIATION_CASE_ALREADY_RESOLVED"
    "The reconciliation case has already been resolved.") (by decide),
    violated_bind_of_run (Tx.run_reads _ g),
    violated_require (e := .reconciliationConflict "RECONCILIATION_EVIDENCE_ALREADY_LINKED"
      "The reconciliation evidence is already linked.") (by decide),
    violated_requireSome (e := .reconciliationNotFound "RECONCILIATION_EVENT_NOT_FOUND"
      "The normalized reconciliation event was not found.") (by decide), hrest]
  simp only [ownedCase, Option.filter_eq_some_iff, caseEvidence, caseEvent, Option.isNone_iff_eq_none]
  constructor
  · rintro ⟨c, hc, hstatus, hevidence, event, hevent, command, hcommand⟩
    exact ⟨c, event, command, ⟨hc, hstatus⟩, hevidence, hevent, hcommand⟩
  · rintro ⟨c, event, command, ⟨hc, hstatus⟩, hevidence, hevent, hcommand⟩
    exact ⟨c, hc, hstatus, hevidence, event, hevent, command, hcommand⟩

theorem spares_repointProposal (transactionId : Uuid) (found : Option FinancialEventProposal) :
    Spares (repointProposal transactionId found) := by
  cases found with
  | none => exact Tx.throws_pure _
  | some x => exact spares_updateProposal _

/-- Unmerging a case is aborted exactly where a hint without a confidence reaches the
    insert. -/
theorem unmerge_violated {caseId : Uuid} :
    (unmerge C fresh userId caseId).run g = .error metadataViolated ↔
      ∃ c event command, ownedCase userId caseId .merged g = some c ∧
        (mergedEvidence c (caseEvidence userId c g)).isSome ∧ caseEvent userId c g = some event ∧
        HintCommand C.platform.unicode userId event g command ∧
        Insertable fresh.merchant command g := by
  unfold unmerge acquireUserWriteLock lockCase requireMerged evidenceForCase normalizedForCase
  rw [violated_bind_of_run (Tx.run_acquire _ g),
    violated_bind_of_run (run_selectForUpdate Db.cases _ _ _ g)]
  simp only [bind_assoc, pure_bind]
  rw [violated_requireSome (by decide)]
  have hrest : ∀ (c : ReconciliationCase) (e : Evidence) event,
      (transactionCommand C.platform.unicode userId event >>= fun command =>
        Ledger.createTransaction fresh.merchant fresh.transaction userId command >>= fun view =>
          updateEvidence { e with transactionId := view.id } >>= fun _ =>
          updateCase { c with status := .unmerged, resultingTransactionId := some view.id } >>=
            fun _ =>
          appendAction fresh.action userId
            { c with status := .unmerged, resultingTransactionId := some view.id } .userUnmerged
            (some e.transactionId) (some view.id) >>= fun _ =>
          proposalForRawEvent userId c.rawEventId >>= fun found =>
          repointProposal view.id found >>= fun _ => requireView userId c.id).run g =
        .error metadataViolated ↔
      ∃ command, HintCommand C.platform.unicode userId event g command ∧
        Insertable fresh.merchant command g := fun c e event => by
    refine transactionCommand_violated fun view => ?_
    refine Tx.throws_bind (Tx.throws_modify _) fun _ => ?_
    refine (spares_updateCase _).bind fun _ => (throws_appendAction spared _ _ _ _ _).bind fun _ => ?_
    refine (spares_proposalForRawEvent _).bind fun found => ?_
    exact (spares_repointProposal _ _).bind fun _ => spares_requireView _
  simp only [violated_require (e := .reconciliationConflict "RECONCILIATION_CASE_NOT_MERGED"
    "Only a currently merged reconciliation case can be unmerged.") (by decide),
    violated_bind_of_run (Tx.run_reads _ g),
    violated_requireSome (e := .reconciliationConflict "RECONCILIATION_EVIDENCE_MISMATCH"
      "The merged evidence no longer matches this reconciliation case.") (by decide),
    violated_requireSome (e := .reconciliationNotFound "RECONCILIATION_EVENT_NOT_FOUND"
      "The normalized reconciliation event was not found.") (by decide), hrest]
  simp only [ownedCase, Option.filter_eq_some_iff, caseEvidence, caseEvent,
    Option.isSome_iff_exists]
  constructor
  · rintro ⟨c, hc, hstatus, e, he, event, hevent, command, hcommand⟩
    exact ⟨c, event, command, ⟨hc, hstatus⟩, ⟨e, he⟩, hevent, hcommand⟩
  · rintro ⟨c, event, command, ⟨hc, hstatus⟩, ⟨e, he⟩, hevent, hcommand⟩
    exact ⟨c, hc, hstatus, e, he, event, hevent, command, hcommand⟩

end Writers

/-! ### Writers that never fail the check -/

section Safe

variable {userId : Uuid}

/-- Manual creation. -/
theorem spares_createManualTransaction {U : Unicode} {merchantId transactionId : Uuid}
    {command : CreateTransactionCommand} (h : command.categoryMetadataConsistent = true) :
    Spares (Ledger.createManualTransaction U merchantId transactionId userId command) := by
  unfold Ledger.createManualTransaction
  refine spares_reads.bind fun known => (spares_require (by decide)).bind fun _ => ?_
  split
  · refine spares_reads.bind fun visible => (spares_require (by decide)).bind fun _ => ?_
    exact throws_createTransaction spared (.inl h)
  · refine (throws_classify _ _ _).bind fun assignment => ?_
    cases assignment with
    | none => exact throws_createTransaction spared (.inl h)
    | some assignment => exact throws_createTransaction spared (.inl <| by
        simp [CreateTransactionCommand.assigned,
          CreateTransactionCommand.categoryMetadataConsistent])

/-- Recording a due payment. -/
theorem spares_recordDuePayment {transactionId paymentId : Uuid} {expectedDate : Date}
    {transactionDate : Instant} :
    Spares (Ledger.recordDuePayment transactionId userId paymentId expectedDate
      transactionDate) := by
  refine spares_selectForUpdate.bind fun locked => ?_
  refine (spares_requireSome (by decide)).bind fun payment => ?_
  refine spares_reads.bind fun merchant => ?_
  refine (spares_requireSome (by decide)).bind fun merchant => ?_
  refine (spares_require (by decide)).bind fun _ => (spares_require (by decide)).bind fun _ => ?_
  refine throws_ofExcept_bind (fun e he hviolated => ?_) fun row _ => ?_
  · have hviolated : e = metadataViolated := hviolated
    rw [hviolated, transactionRow_violated] at he
    exact absurd he.2 (by
      simp [Ledger.recurringExpense, CreateTransactionCommand.categoryMetadataConsistent])
  · refine (throws_insertTransaction spared row).bind fun _ => ?_
    exact (spares_requireSome (by decide)).bind fun _ =>
      Tx.throws_bind (Tx.throws_modify _) fun _ => Tx.throws_pure _

/-- Category correction. -/
theorem spares_correct {U : Unicode} {correctionId mapId transactionId categoryId : Uuid} :
    Spares (Categorization.correct U correctionId mapId userId transactionId categoryId) := by
  unfold Categorization.correct Categorization.correctRow
  refine spares_reads.bind fun visible => (spares_require (by decide)).bind fun _ => ?_
  refine Spares.bind ?_ fun value => spares_requireSome (by decide)
  refine spares_selectForUpdate.bind fun locked => ?_
  cases locked with
  | none => exact Tx.throws_pure _
  | some t =>
    refine Tx.throws_bind (Tx.throws_modify _) fun _ => ?_
    rw [Categorization.corrected_consistent]
    refine Tx.throws_bind (Tx.throws_pure ()) fun _ => ?_
    refine Tx.throws_bind (Tx.throws_modify _) fun _ => spares_reads.bind fun now => ?_
    refine (spares_require (by decide)).bind fun _ => (spares_require (by decide)).bind fun _ => ?_
    refine Tx.throws_bind (throws_insertChecked fun g e he => ?_) fun _ => Tx.throws_pure _
    split at he <;> cases he
    decide

theorem spares_approveTransaction {C : Ai.ProposalConfig} {fresh : FreshIds}
    {p : FinancialEventProposal} {transactionType : TransactionType}
    {event : NormalizedFinancialEvent} :
    Spares (Ai.approveTransaction C fresh userId p transactionType event) := by
  unfold Ai.approveTransaction
  refine Spares.bind ?_ fun money => (throws_classify _ _ _).bind fun assignment => ?_
  · unfold Ai.requireMoneyAndOccurred
    split
    · exact Tx.throws_pure _
    · exact fun h => by cases h
  · cases assignment with
    | some a =>
      refine throws_ofExcept_bind (fun e he => not_violated (proposalCommand_error he))
        fun command hcommand => ?_
      exact throws_reconcileTransaction spared (.inl <| proposalCommand_consistent hcommand fun _ => rfl)
    | none =>
      refine (throws_resolveCategory _ _ _).bind fun categoryId => ?_
      refine throws_ofExcept_bind (fun e he => not_violated (proposalCommand_error he))
        fun command hcommand => ?_
      exact throws_reconcileTransaction spared (.inl <| proposalCommand_consistent hcommand nofun)

theorem spares_counterpartyPerson {U : Unicode} {fresh : FreshIds} {counterparty : PyStr} :
    Spares (Ai.counterpartyPerson U fresh userId counterparty) := by
  refine throws_ofExcept_bind (fun e _ => nofun) fun command _ => ?_
  refine Spares.bind ?_ fun created => spares_reads.bind fun existing => spares_requireSome (by decide)
  refine (spares_require (by decide)).bind fun _ => (spares_require (by decide)).bind fun _ => ?_
  refine (spares_require (by decide)).bind fun _ => ?_
  refine Tx.throws_bind (throws_insertOrIgnore fun g e he => ?_) fun _ => Tx.throws_pure _
  split at he <;> cases he
  decide

theorem obligationViolation_ne {kind : ObligationKind} {rowId : Uuid}
    {command : Ledger.CreateObligationCommand} {g : Db} {e : AppError}
    (h : Ledger.obligationViolation kind rowId command g = some e) : e ≠ metadataViolated := by
  unfold Ledger.obligationViolation at h
  split at h
  · cases h
    decide
  split at h
  · cases h
    decide
  split at h
  · cases h
    decide
  split at h
  · cases h
    decide
  split at h
  · cases h
    decide
  split at h
  · cases h
    decide
  split at h <;> cases h
  decide

theorem spares_approveObligation {C : Ai.ProposalConfig} {fresh : FreshIds} {now : Instant}
    {p : FinancialEventProposal} {kind : ObligationKind} :
    Spares (Ai.approveObligation C fresh now userId p kind) := by
  unfold Ai.approveObligation
  refine Spares.bind ?_ fun money => (spares_requireSome (by decide)).bind fun counterparty => ?_
  · unfold Ai.requireMoneyAndOccurred
    split
    · exact Tx.throws_pure _
    · exact fun h => by cases h
  refine spares_reads.bind fun timezone => (spares_requireSome (by decide)).bind fun timezone => ?_
  refine spares_counterpartyPerson.bind fun personId => ?_
  refine (spares_require (by decide)).bind fun _ => ?_
  refine throws_ofExcept_bind (fun e _ => nofun) fun command _ => ?_
  refine Spares.bind ?_ fun view => Tx.throws_pure _
  refine Tx.throws_bind (throws_insertChecked fun g e he => obligationViolation_ne he) fun _ => ?_
  exact spares_reads.bind fun projected => spares_requireSome (by decide)

theorem spares_approveRecurring {C : Ai.ProposalConfig} {fresh : FreshIds}
    {p : FinancialEventProposal} : Spares (Ai.approveRecurring C fresh userId p) := by
  refine (spares_requireSome (by decide)).bind fun fields => ?_
  refine throws_ofExcept_bind (fun e _ => nofun) fun command _ => ?_
  refine spares_reads.bind fun known => (spares_require (by decide)).bind fun _ => ?_
  refine Spares.bind ?_ fun merchantId => ?_
  · exact (throws_getOrCreateMerchant spared _ _).bind fun _ => spares_requireSome (by decide)
  · refine (spares_require (by decide)).bind fun _ => (spares_requireSome (by decide)).bind fun _ => ?_
    refine (spares_require (by decide)).bind fun _ => (spares_require (by decide)).bind fun _ => ?_
    refine Tx.throws_bind (throws_insertChecked fun g e he => ?_) fun _ => Tx.throws_pure _
    split at he <;> cases he
    decide

theorem spares_approveTarget {C : Ai.ProposalConfig} {fresh : FreshIds} {now : Instant}
    {p : FinancialEventProposal} {event : NormalizedFinancialEvent} :
    Spares (Ai.approveTarget C fresh now userId p event) := by
  unfold Ai.approveTarget
  split
  · refine spares_approveTransaction.bind fun outcome => ?_
    unfold Ai.reconciledTarget
    split
    · exact Tx.throws_pure _
    · exact (spares_requireSome (by decide)).bind fun _ => Tx.throws_pure _
  · exact spares_approveObligation.bind fun _ => Tx.throws_pure _
  · exact spares_approveObligation.bind fun _ => Tx.throws_pure _
  · exact spares_approveRecurring.bind fun _ => Tx.throws_pure _
  · exact fun h => by cases h

/-- Proposal approval. -/
theorem spares_approve {C : Ai.ProposalConfig} {fresh : FreshIds} {now : Instant}
    {proposalId : Uuid} : Spares (Ai.approve C fresh now userId proposalId) := by
  unfold Ai.approve
  refine spares_selectForUpdate.bind fun locked => ?_
  refine Spares.bind ?_ fun proposal => ?_
  · exact (spares_requireSome (by decide)).bind fun _ => (spares_require (by decide)).bind fun _ =>
      Tx.throws_pure _
  refine Spares.bind ?_ fun source => (throws_lockProcessing spared _).bind fun processing => ?_
  · exact spares_reads.bind fun _ => spares_requireSome (by decide)
  refine throws_ofExcept_bind (fun e _ => ?_) fun normalized _ => ?_
  · cases e <;> decide
  refine (throws_storeNormalizedEvent spared).bind fun event => spares_approveTarget.bind fun target => ?_
  unfold Ai.finishApproval
  split
  · exact (throws_setProcessing _ _).bind fun _ => (spares_updateProposal _).bind fun _ =>
      Tx.throws_pure _
  · refine (spares_requireStateTransition _ _).bind fun _ => ?_
    exact (throws_setProcessing _ _).bind fun _ => (spares_updateProposal _).bind fun _ =>
      Tx.throws_pure _

end Safe

/-- **Category metadata.**  In every database, manual creation, proposal approval, recurring
    recording and category correction are never aborted by
    `ck_transactions_category_metadata_consistent`.  Direct ingestion of a normalized event,
    keep-separate and unmerge are aborted by it exactly where the insert is reached with an
    event that has no confidence and that nothing classifies, but whose hint names a visible
    category. -/
theorem category_metadata (C : Ai.ProposalConfig) (userId : Uuid) (g : Db) :
    (∀ merchantId transactionId input command,
      Ledger.parseCreateTransaction C.core.platform.unicode input = .ok command →
      (Ledger.createManualTransaction C.core.platform.unicode merchantId transactionId userId
        command).run g ≠ .error metadataViolated) ∧
    (∀ fresh now proposalId,
      (Ai.approve C fresh now userId proposalId).run g ≠ .error metadataViolated) ∧
    (∀ transactionId paymentId expectedDate transactionDate,
      (Ledger.recordDuePayment transactionId userId paymentId expectedDate transactionDate).run g ≠
        .error metadataViolated) ∧
    (∀ correctionId mapId transactionId categoryId,
      (Categorization.correct C.core.platform.unicode correctionId mapId userId transactionId
        categoryId).run g ≠ .error metadataViolated) ∧
    (∀ fresh envelope processing event,
      (Ingestion.postOrQueueReview C.core fresh userId envelope processing event).run g =
          .error metadataViolated ↔
        ∃ command, HintCommand C.core.platform.unicode userId event g command ∧
          DecidedNew C.core userId event command.transactionType g ∧
          Insertable fresh.merchant command g) ∧
    (∀ fresh caseId,
      (keepSeparate C.core fresh userId caseId).run g = .error metadataViolated ↔
        ∃ c event command, ownedCase userId caseId .pending g = some c ∧
          caseEvidence userId c g = none ∧ caseEvent userId c g = some event ∧
          HintCommand C.core.platform.unicode userId event g command ∧
          Insertable fresh.merchant command g) ∧
    (∀ fresh caseId,
      (unmerge C.core fresh userId caseId).run g = .error metadataViolated ↔
        ∃ c event command, ownedCase userId caseId .merged g = some c ∧
          (mergedEvidence c (caseEvidence userId c g)).isSome ∧ caseEvent userId c g = some event ∧
          HintCommand C.core.platform.unicode userId event g command ∧
          Insertable fresh.merchant command g) := by
  refine ⟨fun merchantId transactionId input command hparsed => ?_, fun fresh now proposalId => ?_,
    fun transactionId paymentId expectedDate transactionDate => ?_,
    fun correctionId mapId transactionId categoryId => ?_,
    fun fresh envelope processing event => postOrQueueReview_violated,
    fun fresh caseId => keepSeparate_violated, fun fresh caseId => unmerge_violated⟩
  · exact (spares_createManualTransaction
      (Ledger.parseCreateTransaction_consistent hparsed)).run
  · exact spares_approve.run
  · exact spares_recordDuePayment.run
  · exact spares_correct.run

/-- A store with one owner and the system category `food`. -/
def hintStore : Db :=
  { sampleStore with categories := [⟨7, none, py "food", py "food", none⟩] }

/-- The envelope of a row that names the category and gives no confidence. -/
def hintEvents : List Ingestion.ConnectorEnvelope :=
  match Connectors.parseCsvDocument samplePlatform
      (py ("event_kind,amount,currency,description,occurred_at,category_hint\n" ++
        "expense,10,EUR,tea,noon,food\n")) with
  | .ok events => events
  | .error _ => []

/-- The import of that row is aborted by the check. -/
theorem category_metadata_hint_aborts :
    hintEvents.length = 1 ∧ ∀ envelope ∈ hintEvents,
      (Ingestion.ingest sampleConfig.core (sampleIds 2) 1
        (Connectors.csvConnector .plain hintEvents) envelope (py "bank")).run hintStore =
          .error metadataViolated := by
  have hfails : (hintEvents.all fun envelope =>
      match (Ingestion.ingest sampleConfig.core (sampleIds 2) 1
        (Connectors.csvConnector .plain hintEvents) envelope (py "bank")).run hintStore with
      | .ok _ => false
      | .error e => e == metadataViolated) = true := by decide +kernel
  refine ⟨by decide +kernel, fun envelope hmem => ?_⟩
  have hone := List.all_eq_true.1 hfails envelope hmem
  cases hrun : (Ingestion.ingest sampleConfig.core (sampleIds 2) 1
      (Connectors.csvConnector .plain hintEvents) envelope (py "bank")).run hintStore with
  | ok r =>
    rw [hrun] at hone
    cases hone
  | error e =>
    rw [hrun] at hone
    rw [eq_of_beq hone]

/-- A coffee entered by hand with a category. -/
def sampleManual : Ledger.TransactionInput where
  amount := py "2.50"
  currency := py "EUR"
  transactionType := .expense
  description := py "coffee"
  transactionDate := ⟨63902865600000000, some 0⟩
  categoryId := some 7

/-- Manual creation with a category passes the check. -/
theorem category_metadata_manual : ∃ command,
    Ledger.parseCreateTransaction .plain sampleManual = .ok command ∧
    (Ledger.createManualTransaction .plain 1 2 1 command).run hintStore ≠
      .error metadataViolated := by
  have hok : (Ledger.parseCreateTransaction .plain sampleManual).isOk = true := by decide +kernel
  cases hparsed : Ledger.parseCreateTransaction .plain sampleManual with
  | error e =>
    rw [hparsed] at hok
    cases hok
  | ok command =>
    exact ⟨command, rfl, (category_metadata sampleConfig 1 hintStore).1 1 2 sampleManual command
      hparsed⟩

end Expensea.Reconciliation
