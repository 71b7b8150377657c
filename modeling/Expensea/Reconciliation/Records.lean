import Expensea.Ai.ProposalService
import Mathlib.Logic.Function.Basic

namespace Expensea.Reconciliation

/-!
# Records of source events

The tables reconciliation is about, read as one dossier per raw event, and what the keys
of these tables guarantee.

* `Records` — the seven tables; every operation is a few appends and updates on them;
* `dossiers` — the rows that refer to a raw event, for each raw event;
* `WellFormed` — keys are distinct and references agree with the rows they refer to.
-/

/-- The tables that hold source events and what became of them. -/
structure Records where
  rawEvents : List RawEvent
  processing : List RawEventProcessing
  normalizedEvents : List NormalizedFinancialEvent
  evidence : List Evidence
  cases : List ReconciliationCase
  proposals : List FinancialEventProposal
  transactions : List LedgerTransaction

/-- The records of a database. -/
def records (g : Db) : Records :=
  ⟨g.rawEvents, g.processing, g.normalizedEvents, g.evidence, g.cases, g.proposals, g.transactions⟩

/-- What refers to one raw event. -/
structure Dossier where
  processing : List RawEventProcessing
  evidence : List Evidence
  cases : List ReconciliationCase
  proposals : List FinancialEventProposal

/-- The dossier of each raw event. -/
def dossiers (S : Records) (r : Uuid) : Dossier :=
  ⟨S.processing.filter (·.rawEventId == r), S.evidence.filter (·.rawEventId == r),
    S.cases.filter (·.rawEventId == r), S.proposals.filter (·.rawEventId == r)⟩

/-! ### References -/

/-- The raw event exists and belongs to the owner. -/
def Owned (rawEvents : List RawEvent) (rawEventId userId : Uuid) : Prop :=
  ∃ r ∈ rawEvents, r.id = rawEventId ∧ r.userId = userId

/-- The normalized event exists and stands for the owner's raw event. -/
def Linked (normalizedEvents : List NormalizedFinancialEvent)
    (normalizedEventId rawEventId userId : Uuid) : Prop :=
  ∃ n ∈ normalizedEvents, n.id = normalizedEventId ∧ n.rawEventId = rawEventId ∧ n.userId = userId

theorem Owned.append {rawEvents more : List RawEvent} {r u : Uuid} (h : Owned rawEvents r u) :
    Owned (rawEvents ++ more) r u := by
  obtain ⟨raw, hraw, hids⟩ := h
  exact ⟨raw, List.mem_append_left _ hraw, hids⟩

theorem Linked.append {events more : List NormalizedFinancialEvent} {n r u : Uuid}
    (h : Linked events n r u) : Linked (events ++ more) n r u := by
  obtain ⟨event, hevent, hids⟩ := h
  exact ⟨event, List.mem_append_left _ hevent, hids⟩

/-- The proposal of the current prompt, with the target its status asks for. -/
structure ProposalOk (p : FinancialEventProposal) : Prop where
  prompted : Ai.prompted p.rawEventId Ai.PROMPT_NAME Ai.PROMPT_VERSION Ai.SCHEMA_VERSION p = true
  target : p.approvedHasCanonicalTarget = true

/-- Keys are distinct and references agree. -/
structure WellFormed (S : Records) : Prop where
  rawIds : (S.rawEvents.map RawEvent.id).Nodup
  normalizedIds : (S.normalizedEvents.map NormalizedFinancialEvent.id).Nodup
  evidenceIds : (S.evidence.map Evidence.id).Nodup
  caseIds : (S.cases.map ReconciliationCase.id).Nodup
  proposalIds : (S.proposals.map FinancialEventProposal.id).Nodup
  transactionIds : (S.transactions.map LedgerTransaction.id).Nodup
  processing_owned : ∀ p ∈ S.processing, Owned S.rawEvents p.rawEventId p.userId
  normalized_owned : ∀ n ∈ S.normalizedEvents, Owned S.rawEvents n.rawEventId n.userId
  evidence_linked : ∀ e ∈ S.evidence,
    Linked S.normalizedEvents e.normalizedEventId e.rawEventId e.userId
  cases_linked : ∀ c ∈ S.cases,
    Linked S.normalizedEvents c.normalizedEventId c.rawEventId c.userId
  proposals_owned : ∀ p ∈ S.proposals, Owned S.rawEvents p.rawEventId p.userId
  proposals_ok : ∀ p ∈ S.proposals, ProposalOk p

namespace WellFormed

variable {S : Records}

/-- Two rows that refer to a raw event name the same owner. -/
theorem owner_eq (h : WellFormed S) {r u u' : Uuid} (h₁ : Owned S.rawEvents r u)
    (h₂ : Owned S.rawEvents r u') : u = u' := by
  obtain ⟨raw₁, hmem₁, hid₁, hu₁⟩ := h₁
  obtain ⟨raw₂, hmem₂, hid₂, hu₂⟩ := h₂
  have heq := List.inj_on_of_nodup_map h.rawIds hmem₁ hmem₂ (hid₁.trans hid₂.symm)
  rw [← hu₁, ← hu₂, heq]

theorem linked_owned (h : WellFormed S) {n r u : Uuid} (hl : Linked S.normalizedEvents n r u) :
    Owned S.rawEvents r u := by
  obtain ⟨event, hevent, -, hr, hu⟩ := hl
  obtain ⟨raw, hraw, hid, howner⟩ := h.normalized_owned event hevent
  exact ⟨raw, hraw, hid.trans hr, howner.trans hu⟩

/-- A normalized event stands for one raw event. -/
theorem linked_unique (h : WellFormed S) {n r u r' u' : Uuid}
    (h₁ : Linked S.normalizedEvents n r u) (h₂ : Linked S.normalizedEvents n r' u') :
    r = r' ∧ u = u' := by
  obtain ⟨event₁, hmem₁, hid₁, hr₁, hu₁⟩ := h₁
  obtain ⟨event₂, hmem₂, hid₂, hr₂, hu₂⟩ := h₂
  have heq := List.inj_on_of_nodup_map h.normalizedIds hmem₁ hmem₂ (hid₁.trans hid₂.symm)
  subst heq
  exact ⟨hr₁.symm.trans hr₂, hu₁.symm.trans hu₂⟩

/-! ### Rows that are added and updated -/

theorem addRawEvent (h : WellFormed S) {raw : RawEvent}
    (hfresh : ∀ r ∈ S.rawEvents, r.id ≠ raw.id) :
    WellFormed { S with rawEvents := S.rawEvents ++ [raw] } :=
  { h with
    rawIds := Table.nodup_append_one h.rawIds hfresh
    processing_owned := fun p hp => (h.processing_owned p hp).append
    normalized_owned := fun n hn => (h.normalized_owned n hn).append
    proposals_owned := fun p hp => (h.proposals_owned p hp).append }

theorem addProcessing (h : WellFormed S) {p : RawEventProcessing}
    (howned : Owned S.rawEvents p.rawEventId p.userId) :
    WellFormed { S with processing := S.processing ++ [p] } :=
  { h with
    processing_owned := by
      intro q hq
      rcases List.mem_append.1 hq with hq | hq
      · exact h.processing_owned q hq
      · rw [List.mem_singleton.1 hq]
        exact howned }

theorem setProcessing (h : WellFormed S) {p : RawEventProcessing}
    (howned : Owned S.rawEvents p.rawEventId p.userId) :
    WellFormed { S with
      processing := Table.set RawEventProcessing.rawEventId p.rawEventId (fun _ => p)
        S.processing } :=
  { h with
    processing_owned := by
      intro q hq
      rcases Table.mem_set_const hq with rfl | ⟨hq, -⟩
      · exact howned
      · exact h.processing_owned q hq }

theorem addNormalized (h : WellFormed S) {n : NormalizedFinancialEvent}
    (hfresh : ∀ m ∈ S.normalizedEvents, m.id ≠ n.id)
    (howned : Owned S.rawEvents n.rawEventId n.userId) :
    WellFormed { S with normalizedEvents := S.normalizedEvents ++ [n] } :=
  { h with
    normalizedIds := Table.nodup_append_one h.normalizedIds hfresh
    normalized_owned := by
      intro m hm
      rcases List.mem_append.1 hm with hm | hm
      · exact h.normalized_owned m hm
      · rw [List.mem_singleton.1 hm]
        exact howned
    evidence_linked := fun e he => (h.evidence_linked e he).append
    cases_linked := fun c hc => (h.cases_linked c hc).append }

theorem addEvidence (h : WellFormed S) {e : Evidence} (hfresh : ∀ e' ∈ S.evidence, e'.id ≠ e.id)
    (hlinked : Linked S.normalizedEvents e.normalizedEventId e.rawEventId e.userId) :
    WellFormed { S with evidence := S.evidence ++ [e] } :=
  { h with
    evidenceIds := Table.nodup_append_one h.evidenceIds hfresh
    evidence_linked := by
      intro e' he'
      rcases List.mem_append.1 he' with he' | he'
      · exact h.evidence_linked e' he'
      · rw [List.mem_singleton.1 he']
        exact hlinked }

theorem setEvidence (h : WellFormed S) {e : Evidence}
    (hlinked : Linked S.normalizedEvents e.normalizedEventId e.rawEventId e.userId) :
    WellFormed { S with
      evidence := Table.set Evidence.id e.id (fun _ => e) S.evidence } :=
  { h with
    evidenceIds := by
      rw [Table.map_key_set_const]
      exact h.evidenceIds
    evidence_linked := by
      intro e' he'
      rcases Table.mem_set_const he' with rfl | ⟨he', -⟩
      · exact hlinked
      · exact h.evidence_linked e' he' }

theorem addCase (h : WellFormed S) {c : ReconciliationCase} (hfresh : ∀ c' ∈ S.cases, c'.id ≠ c.id)
    (hlinked : Linked S.normalizedEvents c.normalizedEventId c.rawEventId c.userId) :
    WellFormed { S with cases := S.cases ++ [c] } :=
  { h with
    caseIds := Table.nodup_append_one h.caseIds hfresh
    cases_linked := by
      intro c' hc'
      rcases List.mem_append.1 hc' with hc' | hc'
      · exact h.cases_linked c' hc'
      · rw [List.mem_singleton.1 hc']
        exact hlinked }

theorem setCase (h : WellFormed S) {c : ReconciliationCase}
    (hlinked : Linked S.normalizedEvents c.normalizedEventId c.rawEventId c.userId) :
    WellFormed { S with
      cases := Table.set ReconciliationCase.id c.id (fun _ => c) S.cases } :=
  { h with
    caseIds := by
      rw [Table.map_key_set_const]
      exact h.caseIds
    cases_linked := by
      intro c' hc'
      rcases Table.mem_set_const hc' with rfl | ⟨hc', -⟩
      · exact hlinked
      · exact h.cases_linked c' hc' }

theorem addProposal (h : WellFormed S) {p : FinancialEventProposal}
    (hfresh : ∀ q ∈ S.proposals, q.id ≠ p.id) (howned : Owned S.rawEvents p.rawEventId p.userId)
    (hok : ProposalOk p) : WellFormed { S with proposals := S.proposals ++ [p] } :=
  { h with
    proposalIds := Table.nodup_append_one h.proposalIds hfresh
    proposals_owned := by
      intro q hq
      rcases List.mem_append.1 hq with hq | hq
      · exact h.proposals_owned q hq
      · rw [List.mem_singleton.1 hq]
        exact howned
    proposals_ok := by
      intro q hq
      rcases List.mem_append.1 hq with hq | hq
      · exact h.proposals_ok q hq
      · rw [List.mem_singleton.1 hq]
        exact hok }

theorem setProposal (h : WellFormed S) {p : FinancialEventProposal}
    (howned : Owned S.rawEvents p.rawEventId p.userId) (hok : ProposalOk p) :
    WellFormed { S with
      proposals := Table.set FinancialEventProposal.id p.id (fun _ => p) S.proposals } :=
  { h with
    proposalIds := by
      rw [Table.map_key_set_const]
      exact h.proposalIds
    proposals_owned := by
      intro q hq
      rcases Table.mem_set_const hq with rfl | ⟨hq, -⟩
      · exact howned
      · exact h.proposals_owned q hq
    proposals_ok := by
      intro q hq
      rcases Table.mem_set_const hq with rfl | ⟨hq, -⟩
      · exact hok
      · exact h.proposals_ok q hq }

theorem addTransaction (h : WellFormed S) {t : LedgerTransaction}
    (hfresh : ∀ t' ∈ S.transactions, t'.id ≠ t.id) :
    WellFormed { S with transactions := S.transactions ++ [t] } :=
  { h with
    transactionIds := Table.nodup_append_one h.transactionIds hfresh }

end WellFormed

/-! ### Dossiers of changed records -/

section Dossiers

variable (S : Records)

@[simp] theorem dossiers_addRawEvent (raw : RawEvent) :
    dossiers { S with rawEvents := S.rawEvents ++ [raw] } = dossiers S := rfl

theorem dossiers_addProcessing (p : RawEventProcessing) :
    dossiers { S with processing := S.processing ++ [p] } =
      Function.update (dossiers S) p.rawEventId { dossiers S p.rawEventId with
        processing := (dossiers S p.rawEventId).processing ++ [p] } := by
  funext r
  by_cases h : r = p.rawEventId
  · subst h
    rw [Function.update_self]
    simp only [dossiers, Table.filter_append_one, if_true]
  · rw [Function.update_of_ne h]
    simp only [dossiers, Table.filter_append_one, if_neg (Ne.symm h)]

theorem dossiers_addEvidence (e : Evidence) :
    dossiers { S with evidence := S.evidence ++ [e] } =
      Function.update (dossiers S) e.rawEventId { dossiers S e.rawEventId with
        evidence := (dossiers S e.rawEventId).evidence ++ [e] } := by
  funext r
  by_cases h : r = e.rawEventId
  · subst h
    rw [Function.update_self]
    simp only [dossiers, Table.filter_append_one, if_true]
  · rw [Function.update_of_ne h]
    simp only [dossiers, Table.filter_append_one, if_neg (Ne.symm h)]

theorem dossiers_addCase (c : ReconciliationCase) :
    dossiers { S with cases := S.cases ++ [c] } =
      Function.update (dossiers S) c.rawEventId { dossiers S c.rawEventId with
        cases := (dossiers S c.rawEventId).cases ++ [c] } := by
  funext r
  by_cases h : r = c.rawEventId
  · subst h
    rw [Function.update_self]
    simp only [dossiers, Table.filter_append_one, if_true]
  · rw [Function.update_of_ne h]
    simp only [dossiers, Table.filter_append_one, if_neg (Ne.symm h)]

theorem dossiers_addProposal (p : FinancialEventProposal) :
    dossiers { S with proposals := S.proposals ++ [p] } =
      Function.update (dossiers S) p.rawEventId { dossiers S p.rawEventId with
        proposals := (dossiers S p.rawEventId).proposals ++ [p] } := by
  funext r
  by_cases h : r = p.rawEventId
  · subst h
    rw [Function.update_self]
    simp only [dossiers, Table.filter_append_one, if_true]
  · rw [Function.update_of_ne h]
    simp only [dossiers, Table.filter_append_one, if_neg (Ne.symm h)]

/-- The only processing row of a raw event is replaced. -/
theorem dossiers_setProcessing {p p' : RawEventProcessing} (hr : p'.rawEventId = p.rawEventId)
    (honly : (dossiers S p.rawEventId).processing = [p]) :
    dossiers { S with
        processing := Table.set RawEventProcessing.rawEventId p'.rawEventId (fun _ => p')
          S.processing } =
      Function.update (dossiers S) p.rawEventId
        { dossiers S p.rawEventId with processing := [p'] } := by
  have hfilter : ∀ r, (Table.set RawEventProcessing.rawEventId p'.rawEventId (fun _ => p')
      S.processing).filter (·.rawEventId == r) =
        Table.set RawEventProcessing.rawEventId p'.rawEventId (fun _ => p')
          (S.processing.filter (·.rawEventId == r)) :=
    fun r => Table.filter_set fun q _ hq => by rw [hq]
  funext r
  by_cases h : r = p.rawEventId
  · subst h
    rw [Function.update_self]
    have honly : S.processing.filter (·.rawEventId == p.rawEventId) = [p] := honly
    simp only [dossiers, hfilter, honly]
    rw [Table.set_singleton hr.symm]
  · rw [Function.update_of_ne h]
    simp only [dossiers, hfilter]
    rw [Table.set_of_notMem]
    intro q hq hkey
    have hq : q.rawEventId = r := by simpa using (List.mem_filter.1 hq).2
    exact h (hq.symm.trans (hkey.trans hr))

/-- The only piece of evidence of a raw event is replaced. -/
theorem dossiers_setEvidence {e e' : Evidence} (hwf : WellFormed S) (hid : e'.id = e.id)
    (hr : e'.rawEventId = e.rawEventId) (honly : (dossiers S e.rawEventId).evidence = [e]) :
    dossiers { S with evidence := Table.set Evidence.id e'.id (fun _ => e') S.evidence } =
      Function.update (dossiers S) e.rawEventId
        { dossiers S e.rawEventId with evidence := [e'] } := by
  have honly : S.evidence.filter (·.rawEventId == e.rawEventId) = [e] := honly
  have hmem : e ∈ S.evidence := (List.mem_filter.1 (honly ▸ List.mem_singleton_self e)).1
  funext r
  by_cases h : r = e.rawEventId
  · subst h
    rw [Function.update_self]
    simp only [dossiers, Table.filter_set_const hwf.evidenceIds hmem hid hr, if_true, honly]
    rw [Table.set_singleton hid.symm]
  · rw [Function.update_of_ne h]
    simp only [dossiers, Table.filter_set_const hwf.evidenceIds hmem hid hr, if_neg (Ne.symm h)]

/-- The only case of a raw event is replaced. -/
theorem dossiers_setCase {c c' : ReconciliationCase} (hwf : WellFormed S) (hid : c'.id = c.id)
    (hr : c'.rawEventId = c.rawEventId) (honly : (dossiers S c.rawEventId).cases = [c]) :
    dossiers { S with cases := Table.set ReconciliationCase.id c'.id (fun _ => c') S.cases } =
      Function.update (dossiers S) c.rawEventId
        { dossiers S c.rawEventId with cases := [c'] } := by
  have honly : S.cases.filter (·.rawEventId == c.rawEventId) = [c] := honly
  have hmem : c ∈ S.cases := (List.mem_filter.1 (honly ▸ List.mem_singleton_self c)).1
  funext r
  by_cases h : r = c.rawEventId
  · subst h
    rw [Function.update_self]
    simp only [dossiers, Table.filter_set_const hwf.caseIds hmem hid hr, if_true, honly]
    rw [Table.set_singleton hid.symm]
  · rw [Function.update_of_ne h]
    simp only [dossiers, Table.filter_set_const hwf.caseIds hmem hid hr, if_neg (Ne.symm h)]

/-- The only proposal of a raw event is replaced. -/
theorem dossiers_setProposal {p p' : FinancialEventProposal} (hwf : WellFormed S)
    (hid : p'.id = p.id) (hr : p'.rawEventId = p.rawEventId)
    (honly : (dossiers S p.rawEventId).proposals = [p]) :
    dossiers { S with
        proposals := Table.set FinancialEventProposal.id p'.id (fun _ => p') S.proposals } =
      Function.update (dossiers S) p.rawEventId
        { dossiers S p.rawEventId with proposals := [p'] } := by
  have honly : S.proposals.filter (·.rawEventId == p.rawEventId) = [p] := honly
  have hmem : p ∈ S.proposals := (List.mem_filter.1 (honly ▸ List.mem_singleton_self p)).1
  funext r
  by_cases h : r = p.rawEventId
  · subst h
    rw [Function.update_self]
    simp only [dossiers, Table.filter_set_const hwf.proposalIds hmem hid hr, if_true, honly]
    rw [Table.set_singleton hid.symm]
  · rw [Function.update_of_ne h]
    simp only [dossiers, Table.filter_set_const hwf.proposalIds hmem hid hr,
      if_neg (Ne.symm h)]

end Dossiers

end Expensea.Reconciliation
