import Expensea.Reconciliation.Effects

namespace Expensea.Reconciliation

open Txn

/-!
# The lifecycle of a source event

What the records say about each raw event after every committed operation, and that the
steps of the services keep it.

* `Phase` — the five ways a dossier can look;
* `Booked` — transactions and the cases that created them, one to one;
* `Invariant` — both, for well-formed records;
* `Working` — one dossier is being changed, all others are in a phase.
-/

/-- The raw event has text a model could extract. -/
def hasText (raw : RawEvent) : Bool := (Ai.extractionText raw.payload).isSome

/-- How the dossier of a raw event looks between operations.  A case that no proposal led to
    belongs to an event without text. -/
inductive Phase (text : Bool) : Dossier → Prop where
  /-- Its content was rejected. -/
  | failed (p : RawEventProcessing) (hstate : p.state = .failed) (htext : text = false) :
      Phase text ⟨[p], [], [], []⟩
  /-- It waits for extraction, or its proposal for review. -/
  | review (p : RawEventProcessing) (q : Option FinancialEventProposal)
      (hstate : p.state = .needsReview)
      (hproposal : ∀ x ∈ q, x.status = .needsReview ∨ x.status = .rejected) :
      Phase text ⟨[p], [], [], q.toList⟩
  /-- Its case waits for review. -/
  | pending (p : RawEventProcessing) (c : ReconciliationCase) (q : Option FinancialEventProposal)
      (hstate : p.state = .needsReview) (hcase : c.status = .pending)
      (hproposal : ∀ x ∈ q, x.status = .reconciliationReview) (htext : q = none → text = false) :
      Phase text ⟨[p], [], [c], q.toList⟩
  /-- Its case is resolved, and its evidence names the transaction of the case. -/
  | resolved (p : RawEventProcessing) (e : Evidence) (c : ReconciliationCase)
      (q : Option FinancialEventProposal) (hstate : p.state = .processed)
      (hcase : c.status ≠ .pending) (hevent : e.normalizedEventId = c.normalizedEventId)
      (hresulting : c.resultingTransactionId = some e.transactionId)
      (hproposal : ∀ x ∈ q, x.status = .approved ∧ x.transactionId = some e.transactionId)
      (htext : q = none → text = false) :
      Phase text ⟨[p], [e], [c], q.toList⟩
  /-- Its proposal became an obligation or a recurring payment. -/
  | approved (p : RawEventProcessing) (x : FinancialEventProposal) (hstate : p.state = .processed)
      (hproposal : x.status = .approved) :
      Phase text ⟨[p], [], [], [x]⟩

namespace Phase

variable {text : Bool} {d : Dossier}

/-- Every dossier has one processing row. -/
theorem processing (h : Phase text d) : ∃ p, d.processing = [p] := by
  cases h with
  | failed p => exact ⟨p, rfl⟩
  | review p => exact ⟨p, rfl⟩
  | pending p => exact ⟨p, rfl⟩
  | resolved p => exact ⟨p, rfl⟩
  | approved p => exact ⟨p, rfl⟩

/-- An event that is not finished failed, and nothing else refers to it. -/
theorem of_open (h : Phase text d) {p : RawEventProcessing} (hp : d.processing = [p])
    (hstate : Ingestion.isTerminal p.state = false) : d = ⟨[p], [], [], []⟩ ∧ text = false := by
  cases h with
  | failed p' _ htext =>
    obtain rfl : p' = p := by simpa using hp
    exact ⟨rfl, htext⟩
  | review p' _ h =>
    obtain rfl : p' = p := by simpa using hp
    rw [h] at hstate
    cases hstate
  | pending p' _ _ h =>
    obtain rfl : p' = p := by simpa using hp
    rw [h] at hstate
    cases hstate
  | resolved p' _ _ _ h =>
    obtain rfl : p' = p := by simpa using hp
    rw [h] at hstate
    cases hstate
  | approved p' _ h =>
    obtain rfl : p' = p := by simpa using hp
    rw [h] at hstate
    cases hstate

/-- The dossier of a pending case. -/
theorem of_pending (h : Phase text d) {c : ReconciliationCase} (hc : c ∈ d.cases)
    (hs : c.status = .pending) : ∃ p q, d = ⟨[p], [], [c], q.toList⟩ ∧ p.state = .needsReview ∧
      (∀ x ∈ q, x.status = .reconciliationReview) ∧ (q = none → text = false) := by
  cases h with
  | failed => cases hc
  | review => cases hc
  | pending p c' q hstate _ hproposal htext =>
    obtain rfl := List.mem_singleton.1 hc
    exact ⟨p, q, rfl, hstate, hproposal, htext⟩
  | resolved p e c' q _ hcase =>
    obtain rfl := List.mem_singleton.1 hc
    exact absurd hs hcase
  | approved => cases hc

/-- The dossier of a resolved case. -/
theorem of_resolved (h : Phase text d) {c : ReconciliationCase} (hc : c ∈ d.cases)
    (hs : c.status ≠ .pending) : ∃ p e q, d = ⟨[p], [e], [c], q.toList⟩ ∧ p.state = .processed ∧
      e.normalizedEventId = c.normalizedEventId ∧
      c.resultingTransactionId = some e.transactionId ∧
      (∀ x ∈ q, x.status = .approved ∧ x.transactionId = some e.transactionId) ∧
      (q = none → text = false) := by
  cases h with
  | failed => cases hc
  | review => cases hc
  | pending p c' q _ hcase =>
    obtain rfl := List.mem_singleton.1 hc
    exact absurd hcase hs
  | resolved p e c' q hstate _ hevent hresulting hproposal htext =>
    obtain rfl := List.mem_singleton.1 hc
    exact ⟨p, e, q, rfl, hstate, hevent, hresulting, hproposal, htext⟩
  | approved => cases hc

/-- The dossier of a proposal that waits for review. -/
theorem of_proposal (h : Phase text d) {x : FinancialEventProposal} (hx : x ∈ d.proposals)
    (hs : x.status = .needsReview) : ∃ p, d = ⟨[p], [], [], [x]⟩ ∧ p.state = .needsReview := by
  cases h with
  | failed => cases hx
  | review p q hstate _ =>
    obtain rfl : q = some x := by simpa using hx
    exact ⟨p, rfl, hstate⟩
  | pending p c q _ _ hproposal =>
    have := hproposal x (by simpa using hx)
    rw [hs] at this
    cases this
  | resolved p e c q _ _ _ _ hproposal =>
    have := (hproposal x (by simpa using hx)).1
    rw [hs] at this
    cases this
  | approved p x' _ hproposal =>
    obtain rfl := List.mem_singleton.1 hx
    rw [hs] at hproposal
    cases hproposal

/-- The dossier of an event with text and without a proposal. -/
theorem of_text (h : Phase true d) (hnone : d.proposals = []) :
    ∃ p, d = ⟨[p], [], [], []⟩ ∧ p.state = .needsReview := by
  cases h with
  | failed _ _ htext => cases htext
  | review p q hstate _ =>
    cases q with
    | none => exact ⟨p, rfl, hstate⟩
    | some x => cases hnone
  | pending p c q _ _ _ htext =>
    cases q with
    | none => cases htext rfl
    | some x => cases hnone
  | resolved p e c q _ _ _ _ _ htext =>
    cases q with
    | none => cases htext rfl
    | some x => cases hnone
  | approved p x => cases hnone

end Phase

/-- A case that has its own transaction. -/
def Separate (c : ReconciliationCase) : Prop := c.status = .keptSeparate ∨ c.status = .unmerged

/-- Transactions and separate cases correspond one to one. -/
structure Booked (S : Records) : Prop where
  ingested : ∀ t ∈ S.transactions, t.source = .ingestion ∧
    ∃ c ∈ S.cases, Separate c ∧ c.resultingTransactionId = some t.id
  posted : ∀ c ∈ S.cases, Separate c → ∃ t ∈ S.transactions, c.resultingTransactionId = some t.id
  distinct : ∀ c ∈ S.cases, ∀ c' ∈ S.cases, Separate c → Separate c' →
    c.resultingTransactionId = c'.resultingTransactionId → c = c'

/-- What holds of the records between operations. -/
structure Invariant (S : Records) : Prop where
  wellFormed : WellFormed S
  booked : Booked S
  phases : ∀ raw ∈ S.rawEvents, Phase (hasText raw) (dossiers S raw.id)

/-- The dossier of one raw event is `d`; all others are in a phase. -/
structure Working (S : Records) (raw : RawEvent) (d : Dossier) : Prop where
  wellFormed : WellFormed S
  mem : raw ∈ S.rawEvents
  dossier : dossiers S raw.id = d
  others : ∀ raw' ∈ S.rawEvents, raw'.id ≠ raw.id → Phase (hasText raw') (dossiers S raw'.id)

variable {S : Records} {raw : RawEvent} {d : Dossier}

/-- The work on a dossier is done once it is in a phase. -/
theorem Working.close (h : Working S raw d) (hb : Booked S) (hphase : Phase (hasText raw) d) :
    Invariant S where
  wellFormed := h.wellFormed
  booked := hb
  phases := by
    intro raw' hraw'
    by_cases hid : raw'.id = raw.id
    · obtain rfl := List.inj_on_of_nodup_map h.wellFormed.rawIds hraw' h.mem hid
      rw [h.dossier]
      exact hphase
    · exact h.others raw' hraw' hid

/-- Work can start on any raw event. -/
theorem Invariant.working (h : Invariant S) (hraw : raw ∈ S.rawEvents) :
    Working S raw (dossiers S raw.id) :=
  ⟨h.wellFormed, hraw, rfl, fun raw' hraw' _ => h.phases raw' hraw'⟩

theorem Invariant.phase_of_owned (h : Invariant S) {r u : Uuid} (howned : Owned S.rawEvents r u) :
    ∃ raw ∈ S.rawEvents, raw.id = r ∧ raw.userId = u ∧ Phase (hasText raw) (dossiers S r) := by
  obtain ⟨raw, hraw, rfl, rfl⟩ := howned
  exact ⟨raw, hraw, rfl, rfl, h.phases raw hraw⟩

namespace Working

/-- The records changed in the dossier of `raw` only. -/
theorem update (h : Working S raw d) {S' : Records} {d' : Dossier} (hwf : WellFormed S')
    (hraw : S'.rawEvents = S.rawEvents)
    (hd : dossiers S' = Function.update (dossiers S) raw.id d') : Working S' raw d' where
  wellFormed := hwf
  mem := hraw ▸ h.mem
  dossier := by rw [hd, Function.update_self]
  others := by
    intro raw' hraw' hid
    rw [hd, Function.update_of_ne hid]
    exact h.others raw' (hraw ▸ hraw') hid

/-- The records changed outside every dossier. -/
theorem keep (h : Working S raw d) {S' : Records} (hwf : WellFormed S')
    (hraw : S'.rawEvents = S.rawEvents) (hd : dossiers S' = dossiers S) : Working S' raw d :=
  h.update hwf hraw (by rw [hd, ← h.dossier, Function.update_eq_self])

theorem owned (h : Working S raw d) : Owned S.rawEvents raw.id raw.userId :=
  ⟨raw, h.mem, rfl, rfl⟩

/-- A proposal in the dossier. -/
theorem proposal_mem (h : Working S raw d) {x : FinancialEventProposal} (hx : x ∈ d.proposals) :
    x ∈ S.proposals ∧ x.rawEventId = raw.id ∧ x.userId = raw.userId := by
  have hx' : x ∈ (dossiers S raw.id).proposals := h.dossier ▸ hx
  obtain ⟨hmem, hid⟩ := List.mem_filter.1 hx'
  have hid : x.rawEventId = raw.id := by simpa using hid
  have howned := h.wellFormed.proposals_owned x hmem
  rw [hid] at howned
  exact ⟨hmem, hid, h.wellFormed.owner_eq howned h.owned⟩

/-- A processing row in the dossier. -/
theorem processing_mem (h : Working S raw d) {p : RawEventProcessing} (hp : p ∈ d.processing) :
    p.rawEventId = raw.id ∧ p.userId = raw.userId := by
  have hp' : p ∈ (dossiers S raw.id).processing := h.dossier ▸ hp
  obtain ⟨hmem, hid⟩ := List.mem_filter.1 hp'
  have hid : p.rawEventId = raw.id := by simpa using hid
  have howned := h.wellFormed.processing_owned p hmem
  rw [hid] at howned
  exact ⟨hid, h.wellFormed.owner_eq howned h.owned⟩

/-- A case in the dossier. -/
theorem case_mem (h : Working S raw d) {c : ReconciliationCase} (hc : c ∈ d.cases) :
    c ∈ S.cases ∧ c.rawEventId = raw.id ∧ c.userId = raw.userId ∧
      Linked S.normalizedEvents c.normalizedEventId raw.id raw.userId := by
  have hc' : c ∈ (dossiers S raw.id).cases := h.dossier ▸ hc
  obtain ⟨hmem, hid⟩ := List.mem_filter.1 hc'
  have hid : c.rawEventId = raw.id := by simpa using hid
  have hlinked := h.wellFormed.cases_linked c hmem
  rw [hid] at hlinked
  have huser := h.wellFormed.owner_eq (h.wellFormed.linked_owned hlinked) h.owned
  rw [huser] at hlinked
  exact ⟨hmem, hid, huser, hlinked⟩

/-- A piece of evidence in the dossier. -/
theorem evidence_mem (h : Working S raw d) {e : Evidence} (he : e ∈ d.evidence) :
    e ∈ S.evidence ∧ e.rawEventId = raw.id ∧ e.userId = raw.userId ∧
      Linked S.normalizedEvents e.normalizedEventId raw.id raw.userId := by
  have he' : e ∈ (dossiers S raw.id).evidence := h.dossier ▸ he
  obtain ⟨hmem, hid⟩ := List.mem_filter.1 he'
  have hid : e.rawEventId = raw.id := by simpa using hid
  have hlinked := h.wellFormed.evidence_linked e hmem
  rw [hid] at hlinked
  have huser := h.wellFormed.owner_eq (h.wellFormed.linked_owned hlinked) h.owned
  rw [huser] at hlinked
  exact ⟨hmem, hid, huser, hlinked⟩

theorem addNormalized (h : Working S raw d) {n : NormalizedFinancialEvent}
    (hfresh : ∀ m ∈ S.normalizedEvents, m.id ≠ n.id) (hraw : n.rawEventId = raw.id)
    (huser : n.userId = raw.userId) :
    Working { S with normalizedEvents := S.normalizedEvents ++ [n] } raw d :=
  h.keep (h.wellFormed.addNormalized hfresh (hraw ▸ huser ▸ h.owned)) rfl rfl

theorem addTransaction (h : Working S raw d) {t : LedgerTransaction} (ht : NewTransaction S t) :
    Working { S with transactions := S.transactions ++ [t] } raw d :=
  h.keep (h.wellFormed.addTransaction ht.fresh) rfl rfl

theorem addEvidence (h : Working S raw d) {e : Evidence} {n : Uuid}
    (he : NewEvidence S n raw.id raw.userId e)
    (hlinked : Linked S.normalizedEvents n raw.id raw.userId) :
    Working { S with evidence := S.evidence ++ [e] } raw
      { d with evidence := d.evidence ++ [e] } := by
  refine h.update (h.wellFormed.addEvidence he.fresh ?_) rfl ?_
  · rw [he.normalizedEventId, he.rawEventId, he.userId]
    exact hlinked
  · rw [dossiers_addEvidence, he.rawEventId, h.dossier]

theorem addCase (h : Working S raw d) {c : ReconciliationCase} {n : NormalizedFinancialEvent}
    (hc : NewCase S n raw.userId c) (hraw : n.rawEventId = raw.id)
    (hlinked : Linked S.normalizedEvents n.id raw.id raw.userId) :
    Working { S with cases := S.cases ++ [c] } raw { d with cases := d.cases ++ [c] } := by
  refine h.update (h.wellFormed.addCase hc.fresh ?_) rfl ?_
  · rw [hc.normalizedEventId, hc.rawEventId, hc.userId, hraw]
    exact hlinked
  · rw [dossiers_addCase, hc.rawEventId, hraw, h.dossier]

theorem setProcessing (h : Working S raw d) {p p' : RawEventProcessing}
    (honly : d.processing = [p]) (hp : p.rawEventId = raw.id) (hp' : p'.rawEventId = raw.id)
    (huser : p'.userId = raw.userId) :
    Working { S with
        processing := Table.set RawEventProcessing.rawEventId p'.rawEventId (fun _ => p')
          S.processing } raw { d with processing := [p'] } := by
  refine h.update (h.wellFormed.setProcessing ?_) rfl ?_
  · rw [hp', huser]
    exact h.owned
  · rw [dossiers_setProcessing S (hp'.trans hp.symm) (by rw [hp, h.dossier, honly]), hp,
      h.dossier]

theorem setEvidence (h : Working S raw d) {e e' : Evidence} (honly : d.evidence = [e])
    (hid : e'.id = e.id) (hraw : e.rawEventId = raw.id) (hraw' : e'.rawEventId = raw.id)
    (hlinked : Linked S.normalizedEvents e'.normalizedEventId raw.id e'.userId) :
    Working { S with evidence := Table.set Evidence.id e'.id (fun _ => e') S.evidence } raw
      { d with evidence := [e'] } := by
  refine h.update (h.wellFormed.setEvidence ?_) rfl ?_
  · rw [hraw']
    exact hlinked
  · rw [dossiers_setEvidence S h.wellFormed hid (hraw'.trans hraw.symm)
      (by rw [hraw, h.dossier, honly]), hraw, h.dossier]

theorem setCase (h : Working S raw d) {c c' : ReconciliationCase} (honly : d.cases = [c])
    (hid : c'.id = c.id) (hraw : c.rawEventId = raw.id) (hraw' : c'.rawEventId = raw.id)
    (hlinked : Linked S.normalizedEvents c'.normalizedEventId raw.id c'.userId) :
    Working { S with cases := Table.set ReconciliationCase.id c'.id (fun _ => c') S.cases } raw
      { d with cases := [c'] } := by
  refine h.update (h.wellFormed.setCase ?_) rfl ?_
  · rw [hraw']
    exact hlinked
  · rw [dossiers_setCase S h.wellFormed hid (hraw'.trans hraw.symm)
      (by rw [hraw, h.dossier, honly]), hraw, h.dossier]

theorem setProposal (h : Working S raw d) {q q' : FinancialEventProposal}
    (honly : d.proposals = [q]) (hid : q'.id = q.id) (hraw : q.rawEventId = raw.id)
    (hraw' : q'.rawEventId = raw.id) (huser : q'.userId = raw.userId) (hok : ProposalOk q') :
    Working { S with
        proposals := Table.set FinancialEventProposal.id q'.id (fun _ => q') S.proposals } raw
      { d with proposals := [q'] } := by
  refine h.update (h.wellFormed.setProposal ?_ hok) rfl ?_
  · rw [hraw', huser]
    exact h.owned
  · rw [dossiers_setProposal S h.wellFormed hid (hraw'.trans hraw.symm)
      (by rw [hraw, h.dossier, honly]), hraw, h.dossier]

theorem addProposal (h : Working S raw d) {q : FinancialEventProposal}
    (hfresh : ∀ x ∈ S.proposals, x.id ≠ q.id) (hraw : q.rawEventId = raw.id)
    (huser : q.userId = raw.userId) (hok : ProposalOk q) :
    Working { S with proposals := S.proposals ++ [q] } raw
      { d with proposals := d.proposals ++ [q] } := by
  refine h.update (h.wellFormed.addProposal hfresh ?_ hok) rfl ?_
  · rw [hraw, huser]
    exact h.owned
  · rw [dossiers_addProposal, hraw, h.dossier]

end Working

/-! ### Bookkeeping -/

namespace Booked

/-- Only the cases and the transactions matter. -/
theorem congr (h : Booked S) {S' : Records} (hc : S'.cases = S.cases)
    (ht : S'.transactions = S.transactions) : Booked S' where
  ingested := by
    rw [hc, ht]
    exact h.ingested
  posted := by
    rw [hc, ht]
    exact h.posted
  distinct := by
    rw [hc]
    exact h.distinct

/-- A case without its own transaction is added. -/
theorem addCase (h : Booked S) {c : ReconciliationCase} (hc : ¬ Separate c) :
    Booked { S with cases := S.cases ++ [c] } where
  ingested := by
    intro t ht
    obtain ⟨hsource, c', hc', hrest⟩ := h.ingested t ht
    exact ⟨hsource, c', List.mem_append_left _ hc', hrest⟩
  posted := by
    intro c' hc' hsep
    rcases List.mem_append.1 hc' with hc' | hc'
    · exact h.posted c' hc' hsep
    · rw [List.mem_singleton.1 hc'] at hsep
      exact absurd hsep hc
  distinct := by
    intro c₁ h₁ c₂ h₂ hsep₁ hsep₂ heq
    rcases List.mem_append.1 h₁ with h₁ | h₁
    · rcases List.mem_append.1 h₂ with h₂ | h₂
      · exact h.distinct c₁ h₁ c₂ h₂ hsep₁ hsep₂ heq
      · rw [List.mem_singleton.1 h₂] at hsep₂
        exact absurd hsep₂ hc
    · rw [List.mem_singleton.1 h₁] at hsep₁
      exact absurd hsep₁ hc

/-- A new transaction is no other case's. -/
theorem fresh_target (h : Booked S) {t : LedgerTransaction} (ht : NewTransaction S t)
    {c : ReconciliationCase} (hc : c ∈ S.cases) (hsep : Separate c) :
    c.resultingTransactionId ≠ some t.id := by
  obtain ⟨t', ht', heq⟩ := h.posted c hc hsep
  rw [heq]
  exact fun h' => ht.fresh t' ht' (Option.some.inj h')

/-- A case is added with its own new transaction. -/
theorem addSeparate (h : Booked S) {t : LedgerTransaction} {c : ReconciliationCase}
    (ht : NewTransaction S t) (hsep : Separate c) (hresulting : c.resultingTransactionId = some t.id) :
    Booked { S with transactions := S.transactions ++ [t], cases := S.cases ++ [c] } where
  ingested := by
    intro t' ht'
    rcases List.mem_append.1 ht' with ht' | ht'
    · obtain ⟨hsource, c', hc', hrest⟩ := h.ingested t' ht'
      exact ⟨hsource, c', List.mem_append_left _ hc', hrest⟩
    · rw [List.mem_singleton.1 ht']
      exact ⟨ht.source, c, List.mem_append_right _ (List.mem_singleton_self c), hsep, hresulting⟩
  posted := by
    intro c' hc' hsep'
    rcases List.mem_append.1 hc' with hc' | hc'
    · obtain ⟨t', ht', heq⟩ := h.posted c' hc' hsep'
      exact ⟨t', List.mem_append_left _ ht', heq⟩
    · rw [List.mem_singleton.1 hc']
      exact ⟨t, List.mem_append_right _ (List.mem_singleton_self t), hresulting⟩
  distinct := by
    intro c₁ h₁ c₂ h₂ hsep₁ hsep₂ heq
    rcases List.mem_append.1 h₁ with h₁ | h₁
    · rcases List.mem_append.1 h₂ with h₂ | h₂
      · exact h.distinct c₁ h₁ c₂ h₂ hsep₁ hsep₂ heq
      · rw [List.mem_singleton.1 h₂, hresulting] at heq
        exact absurd heq (h.fresh_target ht h₁ hsep₁)
    · rcases List.mem_append.1 h₂ with h₂ | h₂
      · rw [List.mem_singleton.1 h₁, hresulting] at heq
        exact absurd heq.symm (h.fresh_target ht h₂ hsep₂)
      · rw [List.mem_singleton.1 h₁, List.mem_singleton.1 h₂]

/-- The separate cases and their transactions before a case without one is replaced. -/
theorem ingested_of_set (h : Booked S) {c c' : ReconciliationCase}
    (hids : (S.cases.map ReconciliationCase.id).Nodup) (hc : c ∈ S.cases) (hid : c'.id = c.id)
    (hsep : ¬ Separate c) {t : LedgerTransaction} (ht : t ∈ S.transactions) :
    ∃ c₁ ∈ Table.set ReconciliationCase.id c'.id (fun _ => c') S.cases,
      Separate c₁ ∧ c₁.resultingTransactionId = some t.id := by
  obtain ⟨-, c₁, hc₁, hsep₁, heq⟩ := h.ingested t ht
  refine ⟨c₁, Table.mem_set_of_ne hc₁ fun hkey => hsep ?_, hsep₁, heq⟩
  rwa [← List.inj_on_of_nodup_map hids hc₁ hc (hkey.trans hid)]

/-- A case without its own transaction changes, and still has none. -/
theorem setCase (h : Booked S) {c c' : ReconciliationCase}
    (hids : (S.cases.map ReconciliationCase.id).Nodup) (hc : c ∈ S.cases) (hid : c'.id = c.id)
    (hsep : ¬ Separate c) (hsep' : ¬ Separate c') :
    Booked { S with cases := Table.set ReconciliationCase.id c'.id (fun _ => c') S.cases } where
  ingested := fun t ht => ⟨(h.ingested t ht).1, h.ingested_of_set hids hc hid hsep ht⟩
  posted := by
    intro c₁ hc₁ hsep₁
    rcases Table.mem_set_const hc₁ with rfl | ⟨hc₁, -⟩
    · exact absurd hsep₁ hsep'
    · exact h.posted c₁ hc₁ hsep₁
  distinct := by
    intro c₁ h₁ c₂ h₂ hsep₁ hsep₂ heq
    rcases Table.mem_set_const h₁ with rfl | ⟨h₁, -⟩
    · exact absurd hsep₁ hsep'
    · rcases Table.mem_set_const h₂ with rfl | ⟨h₂, -⟩
      · exact absurd hsep₂ hsep'
      · exact h.distinct c₁ h₁ c₂ h₂ hsep₁ hsep₂ heq

/-- A case without its own transaction gets a new one. -/
theorem setSeparate (h : Booked S) {t : LedgerTransaction} {c c' : ReconciliationCase}
    (hids : (S.cases.map ReconciliationCase.id).Nodup) (ht : NewTransaction S t)
    (hc : c ∈ S.cases) (hid : c'.id = c.id) (hsep : ¬ Separate c) (hsep' : Separate c')
    (hresulting : c'.resultingTransactionId = some t.id) :
    Booked { S with
      transactions := S.transactions ++ [t]
      cases := Table.set ReconciliationCase.id c'.id (fun _ => c') S.cases } where
  ingested := by
    intro t' ht'
    rcases List.mem_append.1 ht' with ht' | ht'
    · exact ⟨(h.ingested t' ht').1, h.ingested_of_set hids hc hid hsep ht'⟩
    · rw [List.mem_singleton.1 ht']
      exact ⟨ht.source, c', Table.mem_set_self hc hid, hsep', hresulting⟩
  posted := by
    intro c₁ hc₁ hsep₁
    rcases Table.mem_set_const hc₁ with rfl | ⟨hc₁, -⟩
    · exact ⟨t, List.mem_append_right _ (List.mem_singleton_self t), hresulting⟩
    · obtain ⟨t', ht', heq⟩ := h.posted c₁ hc₁ hsep₁
      exact ⟨t', List.mem_append_left _ ht', heq⟩
  distinct := by
    intro c₁ h₁ c₂ h₂ hsep₁ hsep₂ heq
    rcases Table.mem_set_const h₁ with rfl | ⟨hc₁, -⟩
    · rcases Table.mem_set_const h₂ with rfl | ⟨hc₂, -⟩
      · rfl
      · rw [hresulting] at heq
        exact absurd heq.symm (h.fresh_target ht hc₂ hsep₂)
    · rcases Table.mem_set_const h₂ with rfl | ⟨hc₂, -⟩
      · rw [hresulting] at heq
        exact absurd heq (h.fresh_target ht hc₁ hsep₁)
      · exact h.distinct c₁ hc₁ c₂ hc₂ hsep₁ hsep₂ heq

end Booked

end Expensea.Reconciliation
