import Expensea.Ai.ReviewCodes
import Expensea.Connectors.Notes
import Expensea.Ingestion.SourceRegistry

namespace Expensea.Ingestion

open Txn
open Txn.Tx (reads modify)
open SourceRow

/-!
# Sources — replay

A delivery is several transactions, each of its own: it may stop after any of them, be tried
again, and run beside other deliveries of the same event and beside reviews of what came of it.

* `triple_extract`, `triple_approve`, `triple_unmerge` — what extractions and reviews leave in the
  registry of sources;
* `Request`, `Request.Follows` — the transactions, with what an earlier one returned;
* `replay_safe` — an event that is delivered again is the event that was delivered, in every
  interleaving.
-/

/-! ### Rows that are written back -/

section Updates

variable {P : Db → Prop}

theorem triple_updateProposal (hP : sourceRegistry.Lasting P) (p : FinancialEventProposal)
    (hp : ∀ g, P g → ofProposal p ∈ sourceRegistry.rows .proposals g) :
    sourceRegistry.Triple P (Reconciliation.updateProposal p) fun _ => P := by
  refine triple_require_bind fun _ => ?_
  refine Registry.triple_modify hP fun g hok hg t => ?_
  cases t <;> try rfl
  -- only the row of this proposal is written, with what stands of it
  refine map_set_const fun q hq hid => ?_
  exact eq_of_id hok (mem_proposals hq) (hp g hg) rfl hid

theorem triple_updateCase (hP : sourceRegistry.Lasting P) (c : ReconciliationCase)
    (hc : ∀ g, P g → ofCase c ∈ sourceRegistry.rows .cases g) :
    sourceRegistry.Triple P (Reconciliation.updateCase c) fun _ => P := by
  refine triple_require_bind fun _ => ?_
  refine Registry.triple_modify hP fun g hok hg t => ?_
  cases t <;> try rfl
  refine map_set_const fun c' hc' hid => ?_
  exact eq_of_id hok (mem_cases hc') (hc g hg) rfl hid

theorem triple_updateEvidence (hP : sourceRegistry.Lasting P) (e : Evidence)
    (he : ∀ g, P g → ofEvidence e ∈ sourceRegistry.rows .evidence g) :
    sourceRegistry.Triple P (Reconciliation.updateEvidence e) fun _ => P := by
  refine Registry.triple_modify hP fun g hok hg t => ?_
  cases t <;> try rfl
  refine map_set_const fun e' he' hid => ?_
  exact eq_of_id hok (mem_evidence he') (he g hg) rfl hid

/-- A proposal that was locked is known. -/
theorem triple_lockProposal (hP : sourceRegistry.Lasting P) (userId proposalId : Uuid) :
    sourceRegistry.Triple P (Ai.lockProposal userId proposalId) fun found g =>
      (∀ p, found = some p → ofProposal p ∈ sourceRegistry.rows .proposals g) ∧ P g :=
  (triple_selectForUpdate hP).mono (fun _ _ hg => hg) fun _ _ _ hg =>
    ⟨fun p hp => mem_proposals (hg.1 p hp).2, hg.2⟩

theorem triple_proposalForRawEvent (hP : sourceRegistry.Lasting P) (userId rawEventId : Uuid) :
    sourceRegistry.Triple P (Reconciliation.proposalForRawEvent userId rawEventId) fun found g =>
      (∀ p, found = some p → ofProposal p ∈ sourceRegistry.rows .proposals g) ∧ P g :=
  (triple_selectForUpdate hP).mono (fun _ _ hg => hg) fun _ _ _ hg =>
    ⟨fun p hp => mem_proposals (hg.1 p hp).2, hg.2⟩

theorem triple_lockCase (hP : sourceRegistry.Lasting P) (userId caseId : Uuid) :
    sourceRegistry.Triple P (Reconciliation.lockCase userId caseId) fun found g =>
      (∀ c, found = some c → ofCase c ∈ sourceRegistry.rows .cases g) ∧ P g :=
  (triple_selectForUpdate hP).mono (fun _ _ hg => hg) fun _ _ _ hg =>
    ⟨fun c hc => mem_cases (hg.1 c hc).2, hg.2⟩

theorem triple_evidenceForCase (hP : sourceRegistry.Lasting P) (userId : Uuid)
    (case : ReconciliationCase) :
    sourceRegistry.Triple P (Reconciliation.evidenceForCase userId case) fun found g =>
      (∀ e, found = some e → ofEvidence e ∈ sourceRegistry.rows .evidence g) ∧ P g :=
  Registry.triple_reads hP fun _ _ hg =>
    ⟨fun _ he => mem_evidence (List.mem_of_find?_eq_some he), hg⟩

end Updates

/-! ### Extraction -/

section Extraction

variable {P : Db → Prop} {userId rawEventId : Uuid}

/-- A proposal drawn from an owner's raw event under the current prompt. -/
structure DrawnFrom (userId rawEventId : Uuid) (p : FinancialEventProposal) : Prop where
  userId : p.userId = userId
  prompted : Ai.prompted rawEventId Ai.PROMPT_NAME Ai.PROMPT_VERSION Ai.SCHEMA_VERSION p = true

/-- Such a proposal is registered. -/
def Drawn (userId rawEventId : Uuid) (p : FinancialEventProposal) (g : Db) : Prop :=
  DrawnFrom userId rawEventId p ∧ ofProposal p ∈ sourceRegistry.rows .proposals g

/-- Such a proposal is registered under this identifier. -/
def DrawnAs (userId rawEventId id : Uuid) (g : Db) : Prop :=
  ∃ p, (p.id = id ∧ DrawnFrom userId rawEventId p) ∧ ofProposal p ∈ sourceRegistry.rows .proposals g

theorem lasting_drawn (userId rawEventId : Uuid) (p : FinancialEventProposal) :
    sourceRegistry.Lasting (Drawn userId rawEventId p) :=
  (Registry.lasting_const _).and (Registry.lasting_mem _ (ofProposal p))

theorem lasting_drawnAs (userId rawEventId id : Uuid) :
    sourceRegistry.Lasting (DrawnAs userId rawEventId id) :=
  Registry.Lasting.exists fun p => (Registry.lasting_const _).and
    (Registry.lasting_mem _ (ofProposal p))

/-- What stands of a proposal tells what it was drawn from. -/
theorem DrawnFrom.of_eq {p q : FinancialEventProposal} (h : DrawnFrom userId rawEventId p)
    (heq : ofProposal q = ofProposal p) : DrawnFrom userId rawEventId q := by
  have hsame := SourceRow.proposal.inj heq
  refine ⟨(congrArg FinancialEventProposal.userId hsame).trans h.userId, ?_⟩
  have hprompted := congrArg
    (Ai.prompted rawEventId Ai.PROMPT_NAME Ai.PROMPT_VERSION Ai.SCHEMA_VERSION) hsame
  exact hprompted.trans h.prompted

theorem getProposal_mem {proposalId : Uuid} {g : Db} {view : Ai.FinancialEventProposalView}
    (h : Ai.getProposal userId proposalId g = some view) :
    view.proposal.id = proposalId ∧ view.proposal ∈ g.proposals := by
  simp only [Ai.getProposal, Option.bind_eq_bind, Option.bind_eq_some_iff] at h
  obtain ⟨p, hp, source, -, hview⟩ := h
  have hfound := List.find?_some hp
  rw [Bool.and_eq_true, beq_iff_eq] at hfound
  rw [← Option.some.inj hview]
  exact ⟨hfound.1, List.mem_of_find?_eq_some hp⟩

/-- The proposal of an identifier that is known to be drawn is drawn. -/
theorem drawn_of_getProposal {proposalId : Uuid} {g : Db} {view : Ai.FinancialEventProposalView}
    (hok : sourceRegistry.Ok g) (hknown : DrawnAs userId rawEventId proposalId g)
    (h : Ai.getProposal userId proposalId g = some view) :
    Drawn userId rawEventId view.proposal g := by
  obtain ⟨p, ⟨hid, hdrawn⟩, hp⟩ := hknown
  obtain ⟨hview, hmem⟩ := getProposal_mem h
  have hsame := eq_of_id hok (mem_proposals hmem) hp rfl (hview.trans hid.symm)
  exact ⟨hdrawn.of_eq hsame, mem_proposals hmem⟩

theorem drawnAs_of_find {g : Db} {p : FinancialEventProposal}
    (h : (g.proposals.find? fun p => p.userId == userId &&
      Ai.prompted rawEventId Ai.PROMPT_NAME Ai.PROMPT_VERSION Ai.SCHEMA_VERSION p) = some p) :
    DrawnAs userId rawEventId p.id g := by
  have hfound := List.find?_some h
  rw [Bool.and_eq_true, beq_iff_eq] at hfound
  exact ⟨p, ⟨rfl, hfound.1, hfound.2⟩, mem_proposals (List.mem_of_find?_eq_some h)⟩

theorem triple_selectProposal (hP : sourceRegistry.Lasting P) (proposalId : Uuid)
    (inserted : Bool) :
    sourceRegistry.Triple
      (fun g => (inserted = true → DrawnAs userId rawEventId proposalId g) ∧ P g)
      (Ai.selectProposal proposalId userId
        (Ai.prompted rawEventId Ai.PROMPT_NAME Ai.PROMPT_VERSION Ai.SCHEMA_VERSION) inserted)
      fun view g => Drawn userId rawEventId view.proposal g ∧ P g := by
  have hread : sourceRegistry.Triple
      (fun g => (inserted = true → DrawnAs userId rawEventId proposalId g) ∧ P g)
      (reads fun g => (g.proposals.find? fun p => p.userId == userId &&
        Ai.prompted rawEventId Ai.PROMPT_NAME Ai.PROMPT_VERSION Ai.SCHEMA_VERSION p).map
          FinancialEventProposal.id : DbTx (Option Uuid))
      fun existing g => (∀ id, (if inserted then some proposalId else existing) = some id →
        DrawnAs userId rawEventId id g) ∧ P g := by
    refine Registry.triple_reads ((lasting_drawnAs _ _ _).imp.and hP) fun g _ hg =>
      ⟨fun id hid => ?_, hg.2⟩
    cases inserted with
    | true =>
      obtain rfl := Option.some.inj hid
      exact hg.1 rfl
    | false =>
      obtain ⟨p, hp, rfl⟩ := Option.map_eq_some_iff.1 hid
      exact drawnAs_of_find hp
  refine hread.bind fun existing => Registry.Triple.bind triple_requireSome fun selected => ?_
  have hview : sourceRegistry.Triple (fun g => DrawnAs userId rawEventId selected g ∧ P g)
      (reads (Ai.getProposal userId selected) : DbTx (Option Ai.FinancialEventProposalView))
      fun view g => (∀ v, view = some v → Drawn userId rawEventId v.proposal g) ∧ P g :=
    Registry.triple_reads ((lasting_drawnAs _ _ _).and hP) fun g hok hg =>
      ⟨fun _ hv => drawn_of_getProposal hok hg.1 hv, hg.2⟩
  refine Registry.Triple.bind (hview.mono (fun g _ hg => ⟨hg.2.1 selected hg.1, hg.2.2⟩)
    fun _ _ _ hg => hg) fun view => ?_
  exact triple_requireSome.mono (fun _ _ hg => hg) fun v g _ hg => ⟨hg.2.1 v hg.1, hg.2.2⟩

/-- A raw event has one proposal under the current prompt, for everyone who asks for it. -/
theorem triple_createOrGet (hP : sourceRegistry.Lasting P) (proposalId : Uuid)
    {context : Ai.RawExtractionContext} {extraction : Ai.FinancialExtractionResult}
    (hcontext : context.rawEventId = rawEventId)
    (hprompt : extraction.promptName = Ai.PROMPT_NAME ∧
      extraction.promptVersion = Ai.PROMPT_VERSION ∧ extraction.schemaVersion = Ai.SCHEMA_VERSION) :
    sourceRegistry.Triple P (Ai.createOrGet proposalId userId context extraction)
      fun view g => Drawn userId rawEventId view.proposal g ∧ P g := by
  obtain ⟨hname, hversion, hschema⟩ := hprompt
  subst hcontext
  rw [Ai.createOrGet, hname, hversion, hschema]
  refine triple_ofExcept_bind fun row hrow => ?_
  obtain ⟨hid, huser, -, -, -, hprompted⟩ := Reconciliation.proposalRow_ok hrow
  rw [hname, hversion, hschema] at hprompted
  have hkeys := hprompted
  simp only [Ai.prompted, Bool.and_eq_true, beq_iff_eq, and_assoc] at hkeys
  obtain ⟨hraw, hn, hv, hs⟩ := hkeys
  have hlock : Lock.key .proposals [context.rawEventId] [py Ai.PROMPT_NAME, py Ai.PROMPT_VERSION,
      py Ai.SCHEMA_VERSION] = sourceRegistry.unique (ofProposal row) := by
    rw [← hraw, ← hn, ← hv, ← hs]
    rfl
  have hprimary : Lock.row .proposals proposalId = sourceRegistry.primary (ofProposal row) := by
    rw [← hid]
    rfl
  dsimp only
  rw [hlock, hprimary]
  refine Registry.Triple.bind (triple_insertOrIgnore hP (ofProposal row) ?_ ?_ ?_) fun inserted =>
    (triple_selectProposal hP proposalId inserted).mono (fun g _ hg => ⟨fun hi => ?_, hg.2⟩)
      fun _ _ _ hg => hg
  · intro g hnone j hj he
    obtain ⟨p, hp, rfl⟩ := List.mem_map.1 hj
    have hkeys : [p.rawEventId] = [row.rawEventId] ∧
        [py p.promptName, py p.promptVersion, py p.schemaVersion] =
          [py row.promptName, py row.promptVersion, py row.schemaVersion] := by
      injection he with _ hids htexts
      exact ⟨hids, htexts⟩
    simp only [List.cons.injEq, and_true] at hkeys
    obtain ⟨hraw', hn', hv', hs'⟩ := hkeys
    rw [List.any_eq_false] at hnone
    refine hnone p hp ?_
    simp only [Ai.prompted, Bool.and_eq_true, beq_iff_eq, and_assoc]
    exact ⟨hraw'.trans hraw, (py_injective hn').trans hn, (py_injective hv').trans hv,
      (py_injective hs').trans hs⟩
  · intro g hnone j hj he
    obtain ⟨p, hp, rfl⟩ := List.mem_map.1 hj
    injection he with _ hid'
    exact absent_of_none hnone p hp (hid'.trans hid)
  · refine rows_insert (fun g => ?_) fun g t ht => ?_
    · exact List.map_append
    · cases t <;> first | rfl | exact absurd rfl ht
  · exact ⟨row, ⟨hid, huser, hprompted⟩, hg.1 hi⟩

/-- What an extraction ended with is known. -/
def Answered (userId rawEventId : Uuid) (outcome : Ai.ExtractOutcome) (g : Db) : Prop :=
  ∀ view, outcome = .ok view → Drawn userId rawEventId view.proposal g

theorem lasting_answered (userId rawEventId : Uuid) (outcome : Ai.ExtractOutcome) :
    sourceRegistry.Lasting (Answered userId rawEventId outcome) :=
  fun g g' hsub hg view hview => lasting_drawn _ _ _ g g' hsub (hg view hview)

theorem triple_recordExtraction (hP : sourceRegistry.Lasting P) (fresh : FreshIds)
    {context : Ai.RawExtractionContext}
    {result : Except Ai.ExtractionError Ai.FinancialExtractionResult}
    (hcontext : context.rawEventId = rawEventId)
    (hprompt : ∀ extraction, result = .ok extraction → extraction.promptName = Ai.PROMPT_NAME ∧
      extraction.promptVersion = Ai.PROMPT_VERSION ∧ extraction.schemaVersion = Ai.SCHEMA_VERSION) :
    sourceRegistry.Triple P (Ai.recordExtraction fresh userId rawEventId context result)
      fun outcome g => Answered userId rawEventId outcome g ∧ P g := by
  cases result with
  | ok extraction =>
    refine Registry.Triple.bind (triple_createOrGet hP _ hcontext (hprompt extraction rfl))
      fun view => ?_
    have hknown := (lasting_drawn userId rawEventId view.proposal).and hP
    refine Registry.Triple.bind (triple_lockProcessing hknown _) fun processing => ?_
    refine Registry.Triple.bind (triple_setProcessing hknown _) fun _ => ?_
    refine Registry.triple_pure fun g _ hg => ⟨fun v hv => ?_, hg.2⟩
    rw [← Except.ok.inj hv]
    exact hg.1
  | error e =>
    cases e with
    | ai code =>
      have hfailure : sourceRegistry.Triple P (Ai.recordExtractionFailure userId rawEventId code)
          fun _ => P :=
        Registry.Triple.bind (triple_lockProcessing hP _) fun _ => triple_setProcessing hP _
      refine hfailure.bind fun _ => Registry.triple_pure fun _ _ hg => ⟨fun v hv => ?_, hg⟩
      cases hv
    | uncaught => exact Registry.triple_throw _

/-- What an extraction returns is the registered proposal of its raw event. -/
theorem triple_extract (hP : sourceRegistry.Lasting P) (C : Ai.ProposalConfig) (fresh : FreshIds)
    (answer : Except String Ai.CompletionData) :
    sourceRegistry.Triple P (Ai.extract C fresh userId rawEventId answer)
      fun outcome g => Answered userId rawEventId outcome g ∧ P g := by
  have hread : sourceRegistry.Triple P (Ai.existingForPrompt userId rawEventId)
      fun existing g => (∀ view, existing = some view → Drawn userId rawEventId view.proposal g) ∧
        P g := by
    refine Registry.triple_reads hP fun g hok hg => ⟨fun view hview => ?_, hg⟩
    simp only [Option.bind_eq_bind, Option.bind_eq_some_iff] at hview
    obtain ⟨p, hp, hview⟩ := hview
    exact drawn_of_getProposal hok (drawnAs_of_find hp) hview
  refine hread.bind fun existing => ?_
  cases existing with
  | some view =>
    refine Registry.triple_pure fun g _ hg => ⟨fun v hv => ?_, hg.2⟩
    rw [← Except.ok.inj hv]
    exact hg.1 view rfl
  | none =>
    -- that there was none is not relied on: another extraction may create it meanwhile
    refine Registry.Triple.mono (P := P) ?_ (fun _ _ hg => hg.2) fun _ _ _ hg => hg
    have hcontext : sourceRegistry.Triple P (Ai.rawExtractionContext userId rawEventId)
        fun context g => (∀ c, context = some c → c.rawEventId = rawEventId) ∧ P g :=
      Registry.triple_reads hP fun g _ hg => ⟨fun _ hc => Ai.rawExtractionContext_id hc, hg⟩
    refine hcontext.bind fun found => Registry.triple_of_pure fun hfound => ?_
    refine triple_requireSome_bind fun context hsome => ?_
    refine triple_requireSome_bind fun text _ => ?_
    exact triple_recordExtraction hP fresh (hfound context hsome) fun _ => Ai.extractEvent_prompt

end Extraction

/-! ### Reviews -/

section Reviews

variable {P : Db → Prop} {userId : Uuid}

/-- The target of an approval is the proposal, as it stands. -/
theorem returns_approveTarget {C : Ai.ProposalConfig} {fresh : FreshIds} {now : Instant}
    {p : FinancialEventProposal} {event : NormalizedFinancialEvent} :
    (Ai.approveTarget C fresh now userId p event).Returns fun target =>
      ∀ q, target = some q → ofProposal q = ofProposal p := by
  unfold Ai.approveTarget
  split
  · refine Tx.returns_bind fun outcome => ?_
    unfold Ai.reconciledTarget
    split
    · exact Tx.returns_pure fun q hq => by cases hq
    · refine Tx.returns_bind fun transactionId => Tx.returns_pure fun q hq => ?_
      rw [← Option.some.inj hq]
      rfl
  all_goals
    first
    | refine Tx.returns_bind fun target => Tx.returns_pure fun q hq => ?_
      rw [← Option.some.inj hq]
      rfl
    | trivial

theorem keepsSources_obligations : Ai.OfObligations KeepsSources where
  same _ _ := rfl
  people _ _ t := by cases t <;> rfl
  obligations kind _ _ t := by cases kind <;> cases t <;> rfl

theorem triple_approveTarget (hP : sourceRegistry.Lasting P) (C : Ai.ProposalConfig)
    (fresh : FreshIds) (now : Instant) (p : FinancialEventProposal)
    (event : NormalizedFinancialEvent) :
    sourceRegistry.Triple P (Ai.approveTarget C fresh now userId p event) fun target g =>
      (∀ q, target = some q → ofProposal q = ofProposal p) ∧ P g := by
  refine Registry.Triple.returning ?_ returns_approveTarget
  unfold Ai.approveTarget
  split
  · -- a transaction: the reconciliation adds a case, and evidence
    refine Registry.Triple.bind (Q := fun _ => P) ?_ fun outcome => Registry.triple_of_same ?_ hP
    · refine Registry.Triple.bind (Registry.triple_readOnly Ai.readOnly_requireMoneyAndOccurred hP)
        fun money => ?_
      refine Registry.Triple.bind (Registry.triple_readOnly Categorization.classify_readOnly hP)
        fun assignment => ?_
      refine Registry.Triple.bind (Registry.triple_readOnly
        (Reconciliation.readOnly_resolveCategory _ _ _ _) hP) fun categoryId => ?_
      refine triple_ofExcept_bind fun command _ => ?_
      exact triple_reconcileTransaction hP _ _ _ _ _
    · unfold Ai.reconciledTarget
      split
      · trivial
      · exact writes_requireSome_bind fun _ => trivial
  · exact Registry.triple_of_same (Tx.writes_bind
      (Ai.writes_approveObligation keepsSources_obligations) fun _ => trivial) hP
  · exact Registry.triple_of_same (Tx.writes_bind
      (Ai.writes_approveObligation keepsSources_obligations) fun _ => trivial) hP
  · refine Registry.triple_of_same (Tx.writes_bind
      (Ai.writes_approveRecurring_of keepsSources_posting fun f g t => ?_) fun _ => trivial) hP
    cases t <;> rfl
  · exact Registry.triple_throw _

theorem triple_requirePending {locked : Option FinancialEventProposal} :
    sourceRegistry.Triple P (Ai.requirePending locked) fun p g => locked = some p ∧ P g :=
  triple_requireChecked

theorem readOnly_sourceForProposal (p : FinancialEventProposal) :
    (Ai.sourceForProposal userId p).ReadOnly :=
  Tx.readOnly_bind (Tx.readOnly_reads _) fun _ => readOnly_requireSome _ _

/-- A review goes on with a pending proposal that is known. -/
theorem triple_pending_bind {β : Type} {Q : β → Db → Prop} {k : FinancialEventProposal → DbTx β}
    (hP : sourceRegistry.Lasting P) (proposalId : Uuid)
    (hk : ∀ p, sourceRegistry.Triple
      (fun g => ofProposal p ∈ sourceRegistry.rows .proposals g ∧ P g) (k p) Q) :
    sourceRegistry.Triple P
      (Ai.lockProposal userId proposalId >>= fun locked => Ai.requirePending locked >>= k) Q :=
  (triple_lockProposal hP _ _).bind fun _ => triple_requirePending.bind fun p =>
    (hk p).mono (fun _ _ hg => ⟨hg.2.1 p hg.1, hg.2.2⟩) fun _ _ _ hg => hg

theorem triple_reject (hP : sourceRegistry.Lasting P) (proposalId : Uuid) :
    sourceRegistry.Triple P (Ai.reject userId proposalId) fun _ => P := by
  refine triple_pending_bind hP _ fun p => ?_
  have hp := (Registry.lasting_mem (R := sourceRegistry) .proposals (ofProposal p)).and hP
  refine Registry.Triple.bind (Registry.triple_readOnly (readOnly_sourceForProposal p) hp)
    fun source => ?_
  refine Registry.Triple.bind (triple_updateProposal hp _ fun g hg => hg.1) fun _ => ?_
  refine Registry.Triple.bind (triple_lockProcessing hp _) fun processing => ?_
  refine Registry.Triple.bind (triple_setProcessing hp _) fun _ => ?_
  exact Registry.triple_pure fun _ _ hg => hg.2

theorem triple_finishApproval (hP : sourceRegistry.Lasting P) (source : SourceConnection)
    (processing : RawEventProcessing) (p : FinancialEventProposal)
    (target : Option FinancialEventProposal)
    (hp : ∀ g, P g → ofProposal p ∈ sourceRegistry.rows .proposals g)
    (htarget : ∀ q, target = some q → ofProposal q = ofProposal p) :
    sourceRegistry.Triple P (Ai.finishApproval source processing p target) fun _ => P := by
  cases target with
  | none =>
    refine Registry.Triple.bind (triple_setProcessing hP _) fun _ => ?_
    refine Registry.Triple.bind (triple_updateProposal hP _ hp) fun _ => ?_
    exact Registry.triple_pure fun _ _ hg => hg
  | some q =>
    have hq : ofProposal q = ofProposal p := htarget q rfl
    refine triple_require_bind fun _ => ?_
    refine Registry.Triple.bind (triple_setProcessing hP _) fun _ => ?_
    refine Registry.Triple.bind (triple_updateProposal hP _ fun g hg => ?_) fun _ =>
      Registry.triple_pure fun _ _ hg => hg
    show ofProposal q ∈ _
    rw [hq]
    exact hp g hg

theorem triple_approve (hP : sourceRegistry.Lasting P) (C : Ai.ProposalConfig) (fresh : FreshIds)
    (now : Instant) (proposalId : Uuid) :
    sourceRegistry.Triple P (Ai.approve C fresh now userId proposalId) fun _ => P := by
  refine triple_pending_bind hP _ fun p => ?_
  have hp := (Registry.lasting_mem (R := sourceRegistry) .proposals (ofProposal p)).and hP
  refine Registry.Triple.bind (Registry.triple_readOnly (readOnly_sourceForProposal p) hp)
    fun source => ?_
  refine Registry.Triple.bind (triple_lockProcessing hp _) fun processing => ?_
  refine triple_ofExcept_bind fun normalized _ => ?_
  refine Registry.Triple.bind (triple_storeNormalizedEvent hp _ _ _ _ _) fun event => ?_
  refine Registry.Triple.bind (triple_approveTarget hp _ _ _ _ _) fun target =>
    Registry.triple_of_pure fun htarget => ?_
  exact (triple_finishApproval hp _ _ _ _ (fun _ hg => hg.1) htarget).mono (fun _ _ hg => hg)
    fun _ _ _ hg => hg.2

theorem readOnly_normalizedForCase (case : ReconciliationCase) :
    (Reconciliation.normalizedForCase userId case).ReadOnly :=
  Tx.readOnly_bind (Tx.readOnly_reads _) fun _ => readOnly_requireSome _ _

theorem readOnly_requireTransactionType (event : NormalizedFinancialEvent) :
    (Reconciliation.requireTransactionType event).ReadOnly := readOnly_requireSome _ _

theorem readOnly_transactionCommand (U : Unicode) (event : NormalizedFinancialEvent) :
    (Reconciliation.transactionCommand U userId event).ReadOnly := by
  unfold Reconciliation.transactionCommand
  split
  · refine Tx.readOnly_bind (readOnly_requireTransactionType _) fun transactionType => ?_
    refine Tx.readOnly_bind Categorization.classify_readOnly fun assignment => ?_
    refine Tx.readOnly_bind (Reconciliation.readOnly_resolveCategory _ _ _ _) fun categoryId => ?_
    exact readOnly_ofExcept _ _
  · trivial

theorem readOnly_requireView (caseId : Uuid) :
    (Reconciliation.requireView userId caseId).ReadOnly :=
  Tx.readOnly_bind (Tx.readOnly_reads _) fun _ =>
    Tx.readOnly_bind (readOnly_requireSome _ _) fun _ => readOnly_ofExcept _ _

theorem triple_completeSource (hP : sourceRegistry.Lasting P) (case : ReconciliationCase)
    (transactionId : Uuid) :
    sourceRegistry.Triple P (Reconciliation.completeSource userId case transactionId)
      fun _ => P := by
  refine Registry.Triple.bind (triple_lockProcessing hP _) fun processing => ?_
  refine triple_require_bind fun _ => ?_
  refine triple_require_bind fun _ => ?_
  refine Registry.Triple.bind (triple_setProcessing hP _) fun _ => ?_
  refine Registry.Triple.bind (triple_proposalForRawEvent hP _ _) fun found => ?_
  cases found with
  | none => exact Registry.triple_pure fun _ _ hg => hg.2
  | some p =>
    have hp := (Registry.lasting_mem (R := sourceRegistry) .proposals (ofProposal p)).and hP
    refine triple_require_bind fun _ => ?_
    refine Registry.Triple.mono (triple_updateProposal hp _ fun _ hg => hg.1) (fun g _ hg => ?_)
      fun _ _ _ hg => hg.2
    exact ⟨hg.1 p rfl, hg.2⟩

/-- A case that is decided is the case that was opened. -/
theorem triple_resolveCase (hP : sourceRegistry.Lasting P) (fresh : FreshIds)
    (case : ReconciliationCase) (status : ReconciliationStatus)
    (actionType : ReconciliationActionType) (transactionId : Uuid)
    (hcase : ∀ g, P g → ofCase case ∈ sourceRegistry.rows .cases g) :
    sourceRegistry.Triple P (Reconciliation.resolveCase fresh userId case status actionType
      transactionId) fun _ => P := by
  refine Registry.Triple.bind (triple_addEvidence hP _ _ _ _ _ _) fun _ => ?_
  refine Registry.Triple.bind (triple_updateCase hP _ hcase) fun _ => ?_
  refine Registry.Triple.bind (triple_appendAction hP _ _ _ _ _) fun _ => ?_
  refine Registry.Triple.bind (triple_completeSource hP _ _) fun _ => ?_
  exact Registry.triple_readOnly (readOnly_requireView _) hP

theorem triple_requirePendingCase {locked : Option ReconciliationCase} :
    sourceRegistry.Triple P (Reconciliation.requirePending locked) fun c g =>
      locked = some c ∧ P g := triple_requireChecked

theorem triple_requireMerged {locked : Option ReconciliationCase} :
    sourceRegistry.Triple P (Reconciliation.requireMerged locked) fun c g =>
      locked = some c ∧ P g := triple_requireChecked

/-- A review goes on with a checked case that is known. -/
theorem triple_lockedCase_bind {β : Type} {Q : β → Db → Prop}
    {check : Option ReconciliationCase → DbTx ReconciliationCase} {k : ReconciliationCase → DbTx β}
    (hP : sourceRegistry.Lasting P) (caseId : Uuid)
    (hcheck : ∀ locked {F : Db → Prop}, sourceRegistry.Triple F (check locked) fun c g =>
      locked = some c ∧ F g)
    (hk : ∀ c, sourceRegistry.Triple
      (fun g => ofCase c ∈ sourceRegistry.rows .cases g ∧ P g) (k c) Q) :
    sourceRegistry.Triple P
      (Reconciliation.lockCase userId caseId >>= fun locked => check locked >>= k) Q :=
  (triple_lockCase hP _ _).bind fun locked => (hcheck locked).bind fun c =>
    (hk c).mono (fun _ _ hg => ⟨hg.2.1 c hg.1, hg.2.2⟩) fun _ _ _ hg => hg

theorem triple_requireUnlinked (hP : sourceRegistry.Lasting P) (case : ReconciliationCase) :
    sourceRegistry.Triple P (Reconciliation.requireUnlinked userId case) fun _ => P :=
  Registry.triple_readOnly (Tx.readOnly_bind (Tx.readOnly_reads _) fun _ => readOnly_require _ _) hP

theorem triple_lockUser (hP : sourceRegistry.Lasting P) :
    sourceRegistry.Triple P (Reconciliation.acquireUserWriteLock userId) fun _ => P :=
  Registry.triple_of_same (p := Tx.acquire _) trivial hP

theorem triple_lockTransaction (hP : sourceRegistry.Lasting P) (transactionId : Uuid) :
    sourceRegistry.Triple P (Reconciliation.lockTransaction userId transactionId) fun _ => P :=
  Registry.triple_of_same (Tx.writes_bind (writes_selectForUpdate _ _ _ _) fun _ =>
    Tx.writes_of_readOnly (readOnly_requireSome _ _)) hP

theorem triple_merge (hP : sourceRegistry.Lasting P) (fresh : FreshIds) (caseId : Uuid) :
    sourceRegistry.Triple P (Reconciliation.merge fresh userId caseId) fun _ => P := by
  refine Registry.Triple.bind (triple_lockUser hP) fun _ => ?_
  refine triple_lockedCase_bind hP _ (fun _ => triple_requirePendingCase) fun c => ?_
  have hc := (Registry.lasting_mem (R := sourceRegistry) .cases (ofCase c)).and hP
  refine Registry.Triple.bind (Registry.triple_readOnly (readOnly_requireSome _ _) hc)
    fun candidateId => ?_
  refine Registry.Triple.bind (Registry.triple_readOnly (readOnly_normalizedForCase _) hc)
    fun event => ?_
  refine Registry.Triple.bind (Registry.triple_readOnly (readOnly_requireTransactionType _) hc)
    fun transactionType => ?_
  refine Registry.Triple.bind (triple_lockTransaction hc _) fun candidate => ?_
  refine triple_require_bind fun _ => ?_
  refine Registry.Triple.bind (triple_requireUnlinked hc _) fun _ => ?_
  exact (triple_resolveCase hc _ _ _ _ _ fun _ hg => hg.1).mono (fun _ _ hg => hg)
    fun _ _ _ hg => hg.2

theorem triple_keepSeparate (hP : sourceRegistry.Lasting P) (C : Reconciliation.Config)
    (fresh : FreshIds) (caseId : Uuid) :
    sourceRegistry.Triple P (Reconciliation.keepSeparate C fresh userId caseId) fun _ => P := by
  refine Registry.Triple.bind (triple_lockUser hP) fun _ => ?_
  refine triple_lockedCase_bind hP _ (fun _ => triple_requirePendingCase) fun c => ?_
  have hc := (Registry.lasting_mem (R := sourceRegistry) .cases (ofCase c)).and hP
  refine Registry.Triple.bind (triple_requireUnlinked hc _) fun _ => ?_
  refine Registry.Triple.bind (Registry.triple_readOnly (readOnly_normalizedForCase _) hc)
    fun event => ?_
  refine Registry.Triple.bind (Registry.triple_readOnly (readOnly_transactionCommand _ _) hc)
    fun command => ?_
  refine Registry.Triple.bind (triple_createTransaction hc _ _ _) fun transaction => ?_
  exact (triple_resolveCase hc _ _ _ _ _ fun _ hg => hg.1).mono (fun _ _ hg => hg)
    fun _ _ _ hg => hg.2

theorem triple_repointProposal (hP : sourceRegistry.Lasting P) (transactionId : Uuid)
    (found : Option FinancialEventProposal) :
    sourceRegistry.Triple
      (fun g => (∀ p, found = some p → ofProposal p ∈ sourceRegistry.rows .proposals g) ∧ P g)
      (Reconciliation.repointProposal transactionId found) fun _ => P := by
  cases found with
  | none => exact Registry.triple_pure fun _ _ hg => hg.2
  | some p =>
    have hp := (Registry.lasting_mem (R := sourceRegistry) .proposals (ofProposal p)).and hP
    refine Registry.Triple.mono (triple_updateProposal hp _ fun _ hg => hg.1) (fun g _ hg => ?_)
      fun _ _ _ hg => hg.2
    exact ⟨hg.1 p rfl, hg.2⟩

/-- Evidence that is repointed is the evidence that was added. -/
theorem triple_unmerge (hP : sourceRegistry.Lasting P) (C : Reconciliation.Config)
    (fresh : FreshIds) (caseId : Uuid) :
    sourceRegistry.Triple P (Reconciliation.unmerge C fresh userId caseId) fun _ => P := by
  refine Registry.Triple.bind (triple_lockUser hP) fun _ => ?_
  refine triple_lockedCase_bind hP _ (fun _ => triple_requireMerged) fun c => ?_
  have hc := (Registry.lasting_mem (R := sourceRegistry) .cases (ofCase c)).and hP
  refine Registry.Triple.bind (triple_evidenceForCase hc _ _) fun linked => ?_
  refine Registry.Triple.bind triple_requireSome fun e => ?_
  have he := (Registry.lasting_mem (R := sourceRegistry) .evidence (ofEvidence e)).and hc
  refine Registry.Triple.mono (P := fun g => ofEvidence e ∈ sourceRegistry.rows .evidence g ∧
    ofCase c ∈ sourceRegistry.rows .cases g ∧ P g) ?_ (fun g _ hg => ⟨?_, hg.2.2⟩)
    fun _ _ _ hg => hg
  · refine Registry.Triple.bind (Registry.triple_readOnly (readOnly_normalizedForCase _) he)
      fun event => ?_
    refine Registry.Triple.bind (Registry.triple_readOnly (readOnly_transactionCommand _ _) he)
      fun command => ?_
    refine Registry.Triple.bind (triple_createTransaction he _ _ _) fun transaction => ?_
    refine Registry.Triple.bind (triple_updateEvidence he _ fun _ hg => hg.1) fun _ => ?_
    refine Registry.Triple.bind (triple_updateCase he _ fun _ hg => hg.2.1) fun _ => ?_
    refine Registry.Triple.bind (triple_appendAction he _ _ _ _ _) fun _ => ?_
    refine Registry.Triple.bind (triple_proposalForRawEvent he _ _) fun found => ?_
    refine Registry.Triple.bind ((triple_repointProposal hP _ found).mono
      (fun _ _ hg => ⟨hg.1, hg.2.2.2⟩) fun _ _ _ hg => hg) fun _ => ?_
    exact Registry.triple_readOnly (readOnly_requireView _) hP
  · -- the evidence of a merged case was found
    refine hg.2.1 e ?_
    exact (Option.filter_eq_some_iff.1 hg.1).1

end Reviews

/-! ### Runs -/

/-- Where deliveries come from: a connector of an owner, under a key. -/
structure Origin where
  userId : Uuid
  connector : Connector
  connectionKey : PyStr

/-- What the commits of a run return. -/
inductive SourceResult where
  | connected (o : Origin) (c : SourceConnection)
  | stored (o : Origin) (c : SourceConnection) (envelope : ConnectorEnvelope) (s : StoredRawEvent)
  | looked (o : Origin) (c : SourceConnection) (envelope : ConnectorEnvelope) (s : StoredRawEvent)
      (terminal : Option IngestionResult)
  | delivered (o : Origin) (c : SourceConnection) (envelope : ConnectorEnvelope)
      (s : StoredRawEvent) (r : IngestionResult)
  | extracted (userId rawEventId : Uuid) (outcome : Ai.ExtractOutcome)
  | done

/-- The transactions of a delivery, of a synchronization, of an extraction and of the reviews. -/
inductive Request where
  | connect (fresh : FreshIds) (o : Origin)
  | store (fresh : FreshIds) (o : Origin) (c : SourceConnection) (envelope : ConnectorEnvelope)
  | look (o : Origin) (c : SourceConnection) (envelope : ConnectorEnvelope) (s : StoredRawEvent)
  | finish (fresh : FreshIds) (o : Origin) (c : SourceConnection) (envelope : ConnectorEnvelope)
      (s : StoredRawEvent) (terminal : Option IngestionResult)
  | advance (userId connectionId : Uuid) (cursor : Fields) (syncedAt : Instant)
  | extract (fresh : FreshIds) (userId rawEventId : Uuid) (answer : Except String Ai.CompletionData)
  | approve (fresh : FreshIds) (now : Instant) (userId proposalId : Uuid)
  | reject (userId proposalId : Uuid)
  | merge (fresh : FreshIds) (userId caseId : Uuid)
  | keepSeparate (fresh : FreshIds) (userId caseId : Uuid)
  | unmerge (fresh : FreshIds) (userId caseId : Uuid)

section Runs

variable (C : Ai.ProposalConfig)

/-- The transaction of a request, with what it was about beside its result. -/
def Request.program : Request → DbTx SourceResult
  | .connect fresh o =>
    .connected o <$> ensureConnection C.core fresh o.userId o.connector o.connectionKey
  | .store fresh o c envelope =>
    .stored o c envelope <$> storeEnvelope C.core fresh o.userId c envelope
  | .look o c envelope s => .looked o c envelope s <$> terminalResult o.userId s
  | .finish fresh o c envelope s terminal => .delivered o c envelope s <$>
    continueDelivery C.core fresh o.userId o.connector c envelope s terminal
  | .advance userId connectionId cursor syncedAt =>
    (fun _ => .done) <$> updateConnectionCursor userId connectionId cursor syncedAt
  | .extract fresh userId rawEventId answer =>
    .extracted userId rawEventId <$> Ai.extract C fresh userId rawEventId answer
  | .approve fresh now userId proposalId =>
    (fun _ => .done) <$> Ai.approve C fresh now userId proposalId
  | .reject userId proposalId => (fun _ => .done) <$> Ai.reject userId proposalId
  | .merge fresh userId caseId => (fun _ => .done) <$> Reconciliation.merge fresh userId caseId
  | .keepSeparate fresh userId caseId =>
    (fun _ => .done) <$> Reconciliation.keepSeparate C.core fresh userId caseId
  | .unmerge fresh userId caseId =>
    (fun _ => .done) <$> Reconciliation.unmerge C.core fresh userId caseId

/-- A stage of a delivery goes on with what an earlier stage returned.  One connection serves all
    the events of a synchronization. -/
def Request.Follows (log : List SourceResult) : Request → Prop
  | .store _ o c _ => .connected o c ∈ log
  | .look o c envelope s => .stored o c envelope s ∈ log
  | .finish _ o c envelope s terminal => .looked o c envelope s terminal ∈ log
  | _ => True

/-- The programs of a run. -/
def SourceRequests (log : List SourceResult) (p : DbTx SourceResult) : Prop :=
  ∃ q : Request, q.Follows log ∧ p = q.program C

/-- What a result tells of the registry, in a run with these results. -/
def SourceResult.Tells (log : List SourceResult) : SourceResult → Db → Prop
  | .connected o c, g => connectionKeyed o.userId o.connector.key
      (normalizeDisplayText C.core.platform.unicode o.connectionKey) c = true ∧
      ofConnection c ∈ sourceRegistry.rows .connections g
  | .stored o c envelope s, g => .connected o c ∈ log ∧ StoredAs o.userId c.id
      (eventIdentityKey envelope (contentSha256 C.core.platform envelope))
      (contentSha256 C.core.platform envelope) s.id g
  | .looked o c envelope s terminal, _ => .stored o c envelope s ∈ log ∧
      ∀ r, terminal = some r → r.rawEventId = s.id
  | .delivered o c envelope s r, _ => ∃ terminal, .looked o c envelope s terminal ∈ log ∧
      ((∀ r', terminal = some r' → r'.rawEventId = s.id) → r.rawEventId = s.id)
  | .extracted userId rawEventId outcome, g => Answered userId rawEventId outcome g
  | .done, _ => True

theorem lasting_tells (log : List SourceResult) (a : SourceResult) :
    sourceRegistry.Lasting (a.Tells C log) := by
  cases a with
  | connected o c => exact (Registry.lasting_const _).and (Registry.lasting_mem _ (ofConnection c))
  | stored o c envelope s => exact (Registry.lasting_const _).and (lasting_storedAs _ _ _ _ _)
  | looked o c envelope s terminal => exact Registry.lasting_const _
  | delivered o c envelope s r => exact Registry.lasting_const _
  | extracted userId rawEventId outcome => exact lasting_answered _ _ _
  | done => exact Registry.lasting_true

/-- Every request leaves what its result tells. -/
theorem request_safe {log : List SourceResult} {p : DbTx SourceResult} {g : Db}
    (hp : SourceRequests C log p) (hg : sourceRegistry.Ok g) :
    (sourceDiscipline (SourceResult.Tells C log)).Safe p id [] g := by
  have hP := Registry.lasting_true (R := sourceRegistry)
  obtain ⟨q, hq, rfl⟩ := hp
  refine Registry.Triple.safe (lasting_tells C log) ?_ hg
  cases q with
  | connect fresh o =>
    exact Registry.Triple.map ((triple_ensureConnection hP _ _ _ _).mono (fun _ _ hg => hg)
      fun _ _ _ hg => hg.1)
  | store fresh o c envelope =>
    exact Registry.Triple.map ((triple_storeEnvelope hP _ _ _ _).mono (fun _ _ hg => hg)
      fun _ _ _ hg => ⟨hq, hg.1⟩)
  | look o c envelope s =>
    exact Registry.Triple.map ((triple_terminalResult hP _).mono (fun _ _ hg => hg)
      fun _ _ _ hg => ⟨hq, hg.1⟩)
  | finish fresh o c envelope s terminal =>
    exact Registry.Triple.map ((triple_continueDelivery hP _ _ _ _ _ _ _).mono (fun _ _ hg => hg)
      fun _ _ _ hg => ⟨terminal, hq, hg.1⟩)
  | advance userId connectionId cursor syncedAt =>
    exact Registry.Triple.map (triple_updateConnectionCursor hP _ _ _)
  | extract fresh userId rawEventId answer =>
    exact Registry.Triple.map ((triple_extract hP _ _ _).mono (fun _ _ hg => hg)
      fun _ _ _ hg => hg.1)
  | approve fresh now userId proposalId => exact Registry.Triple.map (triple_approve hP _ _ _ _)
  | reject userId proposalId => exact Registry.Triple.map (triple_reject hP _)
  | merge fresh userId caseId => exact Registry.Triple.map (triple_merge hP _ _)
  | keepSeparate fresh userId caseId => exact Registry.Triple.map (triple_keepSeparate hP _ _ _)
  | unmerge fresh userId caseId => exact Registry.Triple.map (triple_unmerge hP _ _ _)

theorem sourceRequests_mono {log log' : List SourceResult} {p : DbTx SourceResult}
    (hsub : ∀ a ∈ log, a ∈ log') (hp : SourceRequests C log p) : SourceRequests C log' p := by
  obtain ⟨q, hq, rfl⟩ := hp
  refine ⟨q, ?_, rfl⟩
  -- a stage that follows an earlier result follows it in a longer log
  cases q <;> first | exact hsub _ hq | trivial

variable {C} {ι : Type} {g₀ : Db}

/-- **In every state the registry is in order, and every result tells the truth.** -/
theorem sources_of_reachable [DecidableEq ι] (h₀ : sourceRegistry.Ok g₀)
    {s : State Db Lock AppError SourceResult ι}
    (hs : Reachable (SourceRequests C) sourceRegistry.Same g₀ s) :
    sourceRegistry.Ok s.db ∧ ∀ a ∈ s.log, a.Tells C s.log s.db :=
  Registry.tells_of_reachable (lasting_tells C s.log) (fun _ _ _ hp hg => request_safe C hp hg) h₀
    (hs.admitted fun _ _ _ hsub hp => sourceRequests_mono C hsub hp)

/-! ### Replay -/

/-- No source is registered twice.  Of the normalized events this is said of those of the current
    schema version, which are all that the service writes. -/
structure SourcesUnique (g : Db) : Prop where
  connections : ∀ c ∈ g.connections, ∀ c' ∈ g.connections, c.userId = c'.userId →
    c.connectorType = c'.connectorType → c.connectionKey = c'.connectionKey → c = c'
  rawEvents : ∀ r ∈ g.rawEvents, ∀ r' ∈ g.rawEvents,
    r.sourceConnectionId = r'.sourceConnectionId → r.identityKey = r'.identityKey → r = r'
  normalizedEvents : ∀ n ∈ g.normalizedEvents, ∀ n' ∈ g.normalizedEvents,
    n.schemaVersion = NORMALIZED_EVENT_SCHEMA_VERSION →
    n'.schemaVersion = NORMALIZED_EVENT_SCHEMA_VERSION → n.rawEventId = n'.rawEventId →
    n.normalizerKey = n'.normalizerKey → n.normalizerVersion = n'.normalizerVersion → n = n'
  evidence : ∀ e ∈ g.evidence, ∀ e' ∈ g.evidence,
    e.normalizedEventId = e'.normalizedEventId → e = e'
  cases : ∀ c ∈ g.cases, ∀ c' ∈ g.cases, c.normalizedEventId = c'.normalizedEventId → c = c'
  proposals : ∀ p ∈ g.proposals, ∀ p' ∈ g.proposals, p.rawEventId = p'.rawEventId →
    p.promptName = p'.promptName → p.promptVersion = p'.promptVersion →
    p.schemaVersion = p'.schemaVersion → p = p'

/-- Rows of a table that are written one for one are told apart by their unique keys. -/
theorem eq_of_key {T : Type} {rows : List T} {f : T → SourceRow}
    (h : ((rows.map f).map sourceRegistry.unique).Nodup) {a b : T} (ha : a ∈ rows) (hb : b ∈ rows)
    (heq : sourceRegistry.unique (f a) = sourceRegistry.unique (f b)) : a = b := by
  rw [List.map_map] at h
  exact List.inj_on_of_nodup_map h ha hb heq

theorem sourcesUnique_of_ok {g : Db} (hg : sourceRegistry.Ok g) : SourcesUnique g where
  connections c hc c' hc' huser htype hkey := by
    refine eq_of_key (hg.unique .connections) hc hc' ?_
    show Lock.key .connections [c.userId] [py c.connectorType.value, c.connectionKey] =
      Lock.key .connections [c'.userId] [py c'.connectorType.value, c'.connectionKey]
    rw [huser, htype, hkey]
  rawEvents r hr r' hr' hconnection hidentity := by
    refine eq_of_key (hg.unique .rawEvents) hr hr' ?_
    show Lock.key .rawEvents [r.sourceConnectionId] [r.identityKey] =
      Lock.key .rawEvents [r'.sourceConnectionId] [r'.identityKey]
    rw [hconnection, hidentity]
  normalizedEvents n hn n' hn' hschema hschema' hraw hkey hversion := by
    refine eq_of_key (hg.unique .normalizedEvents) (List.mem_filter.2 ⟨hn, beq_iff_eq.2 hschema⟩)
      (List.mem_filter.2 ⟨hn', beq_iff_eq.2 hschema'⟩) ?_
    show Lock.key .normalizedEvents [n.rawEventId] [py n.normalizerKey, py n.normalizerVersion] =
      Lock.key .normalizedEvents [n'.rawEventId] [py n'.normalizerKey, py n'.normalizerVersion]
    rw [hraw, hkey, hversion]
  evidence e he e' he' hevent := by
    refine eq_of_key (hg.unique .evidence) he he' ?_
    show Lock.key .evidence [e.normalizedEventId] [] = Lock.key .evidence [e'.normalizedEventId] []
    rw [hevent]
  cases c hc c' hc' hevent := by
    refine eq_of_key (hg.unique .cases) hc hc' ?_
    show Lock.key .cases [c.normalizedEventId] [] = Lock.key .cases [c'.normalizedEventId] []
    rw [hevent]
  proposals p hp p' hp' hraw hname hversion hschema := by
    refine eq_of_key (hg.unique .proposals) hp hp' ?_
    show Lock.key .proposals [p.rawEventId] [py p.promptName, py p.promptVersion,
        py p.schemaVersion] =
      Lock.key .proposals [p'.rawEventId] [py p'.promptName, py p'.promptVersion,
        py p'.schemaVersion]
    rw [hraw, hname, hversion, hschema]

/-- Two envelopes of one source, through the same connection and with the same identity. -/
structure SameSource (C : Ai.ProposalConfig) (o o' : Origin) (e e' : ConnectorEnvelope) : Prop where
  userId : o.userId = o'.userId
  connector : o.connector.key = o'.connector.key
  connectionKey : normalizeDisplayText C.core.platform.unicode o.connectionKey =
    normalizeDisplayText C.core.platform.unicode o'.connectionKey
  identityKey : eventIdentityKey e (contentSha256 C.core.platform e) =
    eventIdentityKey e' (contentSha256 C.core.platform e')

/-- What a finished delivery is about. -/
theorem storedAs_of_delivered {g : Db} {log : List SourceResult}
    (htells : ∀ a ∈ log, a.Tells C log g) {o : Origin} {c : SourceConnection}
    {e : ConnectorEnvelope} {stored : StoredRawEvent} {r : IngestionResult}
    (hr : .delivered o c e stored r ∈ log) :
    .connected o c ∈ log ∧ StoredAs o.userId c.id
      (eventIdentityKey e (contentSha256 C.core.platform e)) (contentSha256 C.core.platform e)
      r.rawEventId g := by
  obtain ⟨terminal, hlooked, hid⟩ := htells _ hr
  obtain ⟨hstored, hterminal⟩ := htells _ hlooked
  obtain ⟨hconnected, hknown⟩ := htells _ hstored
  rw [hid hterminal]
  exact ⟨hconnected, hknown⟩

/-- The connection of an origin, for everyone who came through it. -/
theorem connection_unique {g : Db} (hok : sourceRegistry.Ok g) {log : List SourceResult}
    {o o' : Origin} {c c' : SourceConnection} (huser : o.userId = o'.userId)
    (hconnector : o.connector.key = o'.connector.key)
    (hkey : normalizeDisplayText C.core.platform.unicode o.connectionKey =
      normalizeDisplayText C.core.platform.unicode o'.connectionKey)
    (hc : (SourceResult.connected o c).Tells C log g)
    (hc' : (SourceResult.connected o' c').Tells C log g) : c.id = c'.id := by
  have hrow : ofConnection c = ofConnection c' := by
    refine hok.eq_of_unique hc.2 hc'.2 ?_
    rw [keyed_iff.1 hc.1, keyed_iff.1 hc'.1, huser, hconnector, hkey]
    rfl
  exact congrArg SourceRow.id hrow

/-- An identity has one raw event, with one content. -/
theorem storedAs_unique {g : Db} (hok : sourceRegistry.Ok g) {userId connectionId : Uuid}
    {identityKey hash hash' : PyStr} {id id' : Uuid}
    (h : StoredAs userId connectionId identityKey hash id g)
    (h' : StoredAs userId connectionId identityKey hash' id' g) : id = id' ∧ hash = hash' := by
  obtain ⟨r, ⟨rfl, hidentified, rfl⟩, hr⟩ := h
  obtain ⟨r', ⟨rfl, hidentified', rfl⟩, hr'⟩ := h'
  simp only [identified, Bool.and_eq_true, beq_iff_eq] at hidentified hidentified'
  obtain rfl : r = r' := by
    refine (sourcesUnique_of_ok hok).rawEvents r (mem_rawEvents.1 hr) r' (mem_rawEvents.1 hr') ?_ ?_
    · rw [hidentified.1.2, hidentified'.1.2]
    · rw [hidentified.2, hidentified'.2]
  exact ⟨rfl, rfl⟩

/-- A raw event has one proposal of the current prompt. -/
theorem drawn_unique {g : Db} (hok : sourceRegistry.Ok g) {userId userId' rawEventId : Uuid}
    {p p' : FinancialEventProposal} (h : Drawn userId rawEventId p g)
    (h' : Drawn userId' rawEventId p' g) : ofProposal p = ofProposal p' := by
  have hkey := h.1.prompted
  have hkey' := h'.1.prompted
  simp only [Ai.prompted, Bool.and_eq_true, beq_iff_eq] at hkey hkey'
  refine hok.eq_of_unique h.2 h'.2 ?_
  show Lock.key .proposals [p.rawEventId] [py p.promptName, py p.promptVersion,
      py p.schemaVersion] =
    Lock.key .proposals [p'.rawEventId] [py p'.promptName, py p'.promptVersion, py p'.schemaVersion]
  rw [hkey.1.1.1, hkey.1.1.2, hkey.1.2, hkey.2, hkey'.1.1.1, hkey'.1.1.2, hkey'.1.2, hkey'.2]

/-- **A source that is delivered again is the source that was delivered.**  Whatever deliveries,
    synchronizations, extractions and reviews run beside each other, and wherever they stop: no
    source is registered twice; two deliveries of one source that ended are about one raw event,
    with one content; and two extractions of one raw event that answered show one proposal. -/
theorem replay_safe [DecidableEq ι] (h₀ : sourceRegistry.Ok g₀)
    {s : State Db Lock AppError SourceResult ι}
    (hs : Reachable (SourceRequests C) sourceRegistry.Same g₀ s) :
    SourcesUnique s.db ∧
      (∀ o o' c c' e e' stored stored' r r', .delivered o c e stored r ∈ s.log →
        .delivered o' c' e' stored' r' ∈ s.log → SameSource C o o' e e' →
        r.rawEventId = r'.rawEventId ∧
          contentSha256 C.core.platform e = contentSha256 C.core.platform e') ∧
      ∀ userId userId' rawEventId view view', .extracted userId rawEventId (.ok view) ∈ s.log →
        .extracted userId' rawEventId (.ok view') ∈ s.log →
        ofProposal view.proposal = ofProposal view'.proposal := by
  obtain ⟨hok, htells⟩ := sources_of_reachable h₀ hs
  refine ⟨sourcesUnique_of_ok hok, ?_, ?_⟩
  · -- both came through one connection, where their identity has one raw event
    intro o o' c c' e e' stored stored' r r' hr hr' hsame
    obtain ⟨hconnected, hstored⟩ := storedAs_of_delivered htells hr
    obtain ⟨hconnected', hstored'⟩ := storedAs_of_delivered htells hr'
    rw [← hsame.userId, ← hsame.identityKey, ← connection_unique hok hsame.userId hsame.connector
      hsame.connectionKey (htells _ hconnected) (htells _ hconnected')] at hstored'
    exact storedAs_unique hok hstored hstored'
  · intro userId userId' rawEventId view view' hv hv'
    exact drawn_unique hok (htells _ hv view rfl) (htells _ hv' view' rfl)

end Runs

/-! ### A note that is delivered twice -/

section Again

variable {C : Ai.ProposalConfig} {fresh : FreshIds} {o : Origin} {c : SourceConnection}
  {envelope : ConnectorEnvelope} {s : StoredRawEvent} {terminal : Option IngestionResult}
  {r : IngestionResult} {log : List SourceResult} {g g₀ : Db}

theorem sourceRequests_connect (fresh : FreshIds) (o : Origin) : SourceRequests C log
    (.connected o <$> ensureConnection C.core fresh o.userId o.connector o.connectionKey) :=
  ⟨.connect fresh o, trivial, rfl⟩

theorem sourceRequests_store (fresh : FreshIds) (envelope : ConnectorEnvelope)
    (h : .connected o c ∈ log) : SourceRequests C log
    (.stored o c envelope <$> storeEnvelope C.core fresh o.userId c envelope) :=
  ⟨.store fresh o c envelope, h, rfl⟩

theorem sourceRequests_look (h : .stored o c envelope s ∈ log) :
    SourceRequests C log (.looked o c envelope s <$> terminalResult o.userId s) :=
  ⟨.look o c envelope s, h, rfl⟩

theorem sourceRequests_finish (fresh : FreshIds) (h : .looked o c envelope s terminal ∈ log) :
    SourceRequests C log (.delivered o c envelope s <$>
      continueDelivery C.core fresh o.userId o.connector c envelope s terminal) :=
  ⟨.finish fresh o c envelope s terminal, h, rfl⟩

/-- Whether the stages of a delivery, one after another, return this. -/
def delivers (C : Ai.ProposalConfig) (fresh : FreshIds) (o : Origin) (c : SourceConnection)
    (envelope : ConnectorEnvelope) (s : StoredRawEvent) (terminal : Option IngestionResult)
    (r : IngestionResult) (g : Db) : Bool :=
  let connect := ensureConnection C.core fresh o.userId o.connector o.connectionKey
  let store := storeEnvelope C.core fresh o.userId c envelope
  let look := terminalResult o.userId s
  connect.returns (· == c) g && store.returns (· == s) (connect.after g) &&
    look.returns (· == terminal) (store.after (connect.after g)) &&
    (continueDelivery C.core fresh o.userId o.connector c envelope s terminal).returns (· == r)
      (look.after (store.after (connect.after g)))

/-- The store once they are done. -/
def afterDelivery (C : Ai.ProposalConfig) (fresh : FreshIds) (o : Origin) (c : SourceConnection)
    (envelope : ConnectorEnvelope) (s : StoredRawEvent) (terminal : Option IngestionResult)
    (g : Db) : Db :=
  let connect := ensureConnection C.core fresh o.userId o.connector o.connectionKey
  let store := storeEnvelope C.core fresh o.userId c envelope
  let look := terminalResult o.userId s
  (continueDelivery C.core fresh o.userId o.connector c envelope s terminal).after
    (look.after (store.after (connect.after g)))

/-- A delivery, alone, is part of a run. -/
theorem delivered_alone
    (hs : Reachable (SourceRequests C) sourceRegistry.Same g₀
      (⟨g, log, fun _ => none⟩ : State Db Lock AppError SourceResult Unit))
    (hdelivers : delivers C fresh o c envelope s terminal r g = true) :
    Reachable (SourceRequests C) sourceRegistry.Same g₀
      (⟨afterDelivery C fresh o c envelope s terminal g, log ++ [.connected o c] ++
        [.stored o c envelope s] ++ [.looked o c envelope s terminal] ++
        [.delivered o c envelope s r], fun _ => none⟩ :
          State Db Lock AppError SourceResult Unit) := by
  obtain ⟨hthree, hfinish⟩ := (Bool.and_eq_true _ _).mp hdelivers
  obtain ⟨htwo, hlook⟩ := (Bool.and_eq_true _ _).mp hthree
  obtain ⟨hconnect, hstore⟩ := (Bool.and_eq_true _ _).mp htwo
  have hlast : ∀ (log : List SourceResult) a, a ∈ log ++ [a] :=
    fun _ _ => List.mem_append_right _ (List.mem_singleton_self _)
  have h₁ := hs.alone_map () (sourceRequests_connect fresh o) hconnect
  have h₂ := h₁.alone_map () (sourceRequests_store fresh envelope (hlast _ _)) hstore
  have h₃ := h₂.alone_map () (sourceRequests_look (hlast _ _)) hlook
  exact h₃.alone_map () (sourceRequests_finish fresh (hlast _ _)) hfinish

theorem ok_of_none (h : ∀ t, sourceRegistry.rows t g = []) : sourceRegistry.Ok g where
  primary t := by
    rw [h]
    exact List.nodup_nil
  unique t := by
    rw [h]
    exact List.nodup_nil

/-- The manual notes of owner 1. -/
def againOrigin : Origin := ⟨1, Connectors.manualNoteConnector .plain [], py "default"⟩

/-- A note about lunch. -/
def againEnvelope : ConnectorEnvelope where
  externalEventId := some (py "manual-note:7")
  eventType := py "manual_note"
  occurredAt := none
  payload := [("extraction_text", .str (py "lunch"))]
  locator := []
  evidenceExcerpt := none

/-- The connection that the first delivery makes. -/
def againConnection : SourceConnection :=
  ⟨2, 1, .manualNote, py "default", "Manual financial notes", .active, [], none, none⟩

/-- The raw event, as a delivery finds it. -/
def againStored (created : Bool) : StoredRawEvent :=
  ⟨2, created, contentSha256 Ai.lateConfig.core.platform againEnvelope⟩

/-- What a delivery ends with. -/
def againResult (replayed : Bool) : IngestionResult :=
  ⟨2, some 2, none, .needsReview, replayed, some "REVIEW_REQUIRED"⟩

/-- The identifiers a delivery draws. -/
def againIds (n : Uuid) : FreshIds := ⟨n, n, n, n, n, n, n, n, n, n, n, n⟩

/-- The store before the first delivery: there is an owner. -/
def againOwner : Db := { Db.empty 0 with users := [⟨1, py "UTC", py "EUR"⟩] }

/-- The store after it. -/
def againDelivered : Db :=
  afterDelivery Ai.lateConfig (againIds 2) againOrigin againConnection againEnvelope
    (againStored true) none againOwner

/-- The note is delivered, and delivered again: one of the runs of `replay_safe`. -/
theorem replay_safe_again : ∃ s : State Db Lock AppError SourceResult Unit,
    Reachable (SourceRequests Ai.lateConfig) sourceRegistry.Same againOwner s ∧
      .delivered againOrigin againConnection againEnvelope (againStored true)
        (againResult false) ∈ s.log ∧
      .delivered againOrigin againConnection againEnvelope (againStored false)
        (againResult true) ∈ s.log ∧
      s.db.rawEvents.length = 1 ∧ SourcesUnique s.db := by
  have hempty : sourceRegistry.Ok againOwner := ok_of_none fun t => by cases t <;> rfl
  have hfirst : delivers Ai.lateConfig (againIds 2) againOrigin againConnection againEnvelope
      (againStored true) none (againResult false) againOwner = true := by decide +kernel
  have hagain : delivers Ai.lateConfig (againIds 3) againOrigin againConnection againEnvelope
      (againStored false) (some (againResult true)) (againResult true) againDelivered = true := by
    decide +kernel
  have hs := delivered_alone (delivered_alone .init hfirst) hagain
  refine ⟨_, hs, by simp, by simp, ?_, (replay_safe hempty hs).1⟩
  show (afterDelivery Ai.lateConfig (againIds 3) againOrigin againConnection againEnvelope
    (againStored false) (some (againResult true)) againDelivered).rawEvents.length = 1
  decide +kernel

end Again

end Expensea.Ingestion
