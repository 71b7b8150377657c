import Expensea.Connectors.Notes
import Expensea.Reconciliation.Lifecycle

namespace Expensea.Reconciliation

open Txn

/-!
# The operations keep the lifecycle

Ingestion, extraction, approval, rejection, merge, keep-separate and unmerge, each run
alone: a committed operation moves one dossier from one phase to another.

* `Open` — a dossier without case or evidence, being worked on;
* `ingest_ensures`, `extract_ensures`, `reject_ensures`, `approve_ensures`;
* `merge_ensures`, `keepSeparate_ensures`, `unmerge_ensures`.
-/

variable {g : Db} {S S' : Records} {raw : RawEvent} {p : RawEventProcessing}
  {q : Option FinancialEventProposal} {x : FinancialEventProposal} {userId : Uuid}

/-! ### Open dossiers -/

/-- The dossier of `raw` has no case and no evidence yet. -/
structure Open (S : Records) (raw : RawEvent) (p : RawEventProcessing)
    (q : Option FinancialEventProposal) : Prop where
  working : Working S raw ⟨[p], [], [], q.toList⟩
  booked : Booked S
  rawEventId : p.rawEventId = raw.id
  userId : p.userId = raw.userId

/-- The only processing row of a dossier is the one a lookup finds. -/
theorem Working.processing_eq {d : Dossier} (h : Working S raw d) (honly : d.processing = [p])
    {u : Uuid} {p' : RawEventProcessing} (hp' : ProcessingFor S raw.id u p') : p' = p := by
  have hmem : p' ∈ (dossiers S raw.id).processing :=
    List.mem_filter.2 ⟨hp'.mem, by simp [hp'.rawEventId]⟩
  rw [h.dossier, honly] at hmem
  exact List.mem_singleton.1 hmem

theorem Open.setProcessing (h : Open S raw p q) {p' : RawEventProcessing}
    (hraw : p'.rawEventId = p.rawEventId) (huser : p'.userId = p.userId) :
    Open { S with
      processing := Table.set RawEventProcessing.rawEventId p'.rawEventId (fun _ => p')
        S.processing } raw p' q where
  working := h.working.setProcessing rfl h.rawEventId (hraw.trans h.rawEventId)
    (huser.trans h.userId)
  booked := ⟨h.booked.ingested, h.booked.posted, h.booked.distinct⟩
  rawEventId := hraw.trans h.rawEventId
  userId := huser.trans h.userId

/-- A normalized event of an open dossier. -/
structure EventOf (S : Records) (raw : RawEvent) (n : NormalizedFinancialEvent) : Prop where
  mem : n ∈ S.normalizedEvents
  rawEventId : n.rawEventId = raw.id
  userId : n.userId = raw.userId

theorem EventOf.linked {n : NormalizedFinancialEvent} (h : EventOf S raw n) :
    Linked S.normalizedEvents n.id raw.id raw.userId :=
  ⟨n, h.mem, rfl, h.rawEventId, h.userId⟩

theorem Open.normalized (h : Open S raw p q) {kind : NormalizedEventKind}
    {n : NormalizedFinancialEvent} (hn : Normalized S raw.id raw.userId kind S' n) :
    Open S' raw p q ∧ EventOf S' raw n := by
  cases hn with
  | existing _ hmem hraw huser => exact ⟨h, hmem, hraw, huser⟩
  | stored _ hfresh hraw huser hkind =>
    refine ⟨⟨h.working.addNormalized hfresh hraw huser, ?_, h.rawEventId, h.userId⟩, ?_⟩
    · exact ⟨h.booked.ingested, h.booked.posted, h.booked.distinct⟩
    · exact ⟨List.mem_append_right _ (List.mem_singleton_self n), hraw, huser⟩

/-- A dossier that was open is reconciled: it has a pending case, or a resolved case and its
    evidence. -/
inductive Handed (S : Records) (raw : RawEvent) (p : RawEventProcessing)
    (q : Option FinancialEventProposal) : Option Uuid → Prop where
  | flagged (c : ReconciliationCase) (hw : Working S raw ⟨[p], [], [c], q.toList⟩)
      (hcase : c.status = .pending) : Handed S raw p q none
  | posted (e : Evidence) (c : ReconciliationCase)
      (hw : Working S raw ⟨[p], [e], [c], q.toList⟩) (hcase : c.status ≠ .pending)
      (hevent : e.normalizedEventId = c.normalizedEventId)
      (hresulting : c.resultingTransactionId = some e.transactionId) :
      Handed S raw p q (some e.transactionId)

theorem Open.reconciled (h : Open S raw p q) {n : NormalizedFinancialEvent} (hn : EventOf S raw n)
    {target : Option Uuid} (hr : Reconciled S n raw.userId S' target) :
    Booked S' ∧ Handed S' raw p q target := by
  cases hr with
  | merged e c he hc hstatus hresulting =>
    rw [hn.rawEventId] at he
    have hw := (h.working.addEvidence he hn.linked).addCase
      ⟨hc.normalizedEventId, hc.rawEventId, hc.userId, hc.fresh⟩ hn.rawEventId hn.linked
    have hsep : ¬ Separate c := by
      rintro (hs | hs) <;> rw [hstatus] at hs <;> cases hs
    have hb := h.booked.addCase hsep
    refine ⟨⟨hb.ingested, hb.posted, hb.distinct⟩, ?_⟩
    refine .posted e c hw ?_ (he.normalizedEventId.trans hc.normalizedEventId.symm) hresulting
    rw [hstatus]
    exact fun hs => by cases hs
  | flagged c hc hstatus =>
    have hsep : ¬ Separate c := by
      rintro (hs | hs) <;> rw [hstatus] at hs <;> cases hs
    exact ⟨h.booked.addCase hsep,
      .flagged c (h.working.addCase hc hn.rawEventId hn.linked) hstatus⟩
  | created t e c ht he hc htransaction hstatus hresulting =>
    rw [hn.rawEventId] at he
    have hw := ((h.working.addTransaction ht).addEvidence
      ⟨he.normalizedEventId, he.rawEventId, he.userId, he.fresh⟩ hn.linked).addCase
      ⟨hc.normalizedEventId, hc.rawEventId, hc.userId, hc.fresh⟩ hn.rawEventId hn.linked
    have hb := h.booked.addSeparate ht (.inl hstatus) hresulting
    refine ⟨⟨hb.ingested, hb.posted, hb.distinct⟩, ?_⟩
    rw [← htransaction] at hresulting ⊢
    refine .posted e c hw ?_ (he.normalizedEventId.trans hc.normalizedEventId.symm) hresulting
    rw [hstatus]
    exact fun hs => by cases hs

/-! ### Ingestion -/

theorem setProcessing_ensures {p : RawEventProcessing} :
    (Ingestion.setProcessing p).Ensures g fun _ g' => records g' = { records g with
      processing := Table.set RawEventProcessing.rawEventId p.rawEventId (fun _ => p)
        g.processing } :=
  Tx.ensures_modify.2 rfl

theorem moveTo_ensures {target : RawEventState} {errorCode : Option String} :
    (Ingestion.moveTo p target errorCode).Ensures g fun moved g' =>
      moved = { p with state := target, lastErrorCode := errorCode } ∧
      records g' = { records g with
        processing := Table.set RawEventProcessing.rawEventId moved.rawEventId (fun _ => moved)
          g.processing } := by
  unfold Ingestion.moveTo
  refine (untouched_require _ _).bind rfl fun _ g₁ hg₁ => ?_
  refine setProcessing_ensures.bind fun _ g₂ hg₂ => ?_
  refine Tx.ensures_pure.2 ⟨rfl, ?_⟩
  rw [hg₂, show g₁.processing = (records g₁).processing from rfl, hg₁]
  rfl

/-- Queueing an open event for review. -/
theorem queueReview_ensures {errorCode : String} (h : Open (records g) raw p none) :
    (Ingestion.queueReview p errorCode).Ensures g fun _ g' => Invariant (records g') := by
  unfold Ingestion.queueReview
  refine moveTo_ensures.bind fun moved g₁ h₁ => ?_
  obtain ⟨rfl, hg₁⟩ := h₁
  refine Tx.ensures_pure.2 ?_
  rw [hg₁]
  have hopen : Open _ raw { p with
      state := .needsReview
      lastErrorCode := some errorCode } none := h.setProcessing rfl rfl
  exact hopen.working.close hopen.booked (.review _ none rfl fun x hx => by cases hx)

/-- The state of an ingested event after reconciliation. -/
theorem settleOutcome_ensures {target : Option Uuid} {outcome : ReconciliationProcessingOutcome}
    (hp : p.rawEventId = raw.id) (huser : p.userId = raw.userId) (hb : Booked (records g))
    (hh : Handed (records g) raw p none target) (ho : OutcomeFor target outcome)
    (htext : hasText raw = false) :
    (Ingestion.settleOutcome p outcome).Ensures g fun _ g' => Invariant (records g') := by
  unfold Ingestion.settleOutcome
  cases hh with
  | flagged c hw hcase =>
    rw [if_pos (by rw [ho.review]; rfl)]
    unfold Ingestion.queueReview
    refine moveTo_ensures.bind fun moved g₁ h₁ => ?_
    obtain ⟨rfl, hg₁⟩ := h₁
    refine Tx.ensures_pure.2 ?_
    rw [hg₁]
    refine Working.close (hw.setProcessing rfl hp hp huser)
      ⟨hb.ingested, hb.posted, hb.distinct⟩ ?_
    exact .pending _ c none rfl hcase (fun x hx => by cases hx) fun _ => htext
  | posted e c hw hcase hevent hresulting =>
    rw [if_neg (by rw [ho.review]; exact fun h => by cases h)]
    refine (untouched_requireSome _ _).bind rfl fun transactionId g₁ hg₁ => ?_
    refine moveTo_ensures.bind fun moved g₂ h₂ => ?_
    obtain ⟨rfl, hg₂⟩ := h₂
    refine Tx.ensures_pure.2 ?_
    rw [hg₂, show g₁.processing = (records g₁).processing from rfl, hg₁]
    refine Working.close (hw.setProcessing rfl hp hp huser)
      ⟨hb.ingested, hb.posted, hb.distinct⟩ ?_
    exact .resolved _ e c none rfl hcase hevent hresulting (fun x hx => by cases hx) fun _ => htext

theorem postCommand_ensures {C : Config} {fresh : FreshIds}
    {envelope : Ingestion.ConnectorEnvelope} {n : NormalizedFinancialEvent}
    {command : Except AppError Ledger.CreateTransactionCommand}
    (h : Open (records g) raw p none) (hn : EventOf (records g) raw n)
    (huser : raw.userId = userId) (htext : hasText raw = false)
    (hsource : ∀ c, command = .ok c → c.source = .ingestion) :
    (Ingestion.postCommand C fresh userId envelope p n command).Ensures g
      fun _ g' => Invariant (records g') := by
  cases command with
  | ok command =>
    unfold Ingestion.postCommand
    refine (reconcileTransaction_ensures (hsource command rfl)).bind fun outcome g₁ h₁ => ?_
    obtain ⟨target, hrec, hout⟩ := h₁
    rw [← huser] at hrec
    obtain ⟨hb, hh⟩ := h.reconciled hn hrec
    exact settleOutcome_ensures h.rawEventId h.userId hb hh hout htext
  | error e =>
    cases e with
    | ledger e => exact queueReview_ensures h
    | _ => exact Tx.ensures_throw.2 trivial

theorem postOrQueueReview_ensures {C : Config} {fresh : FreshIds}
    {envelope : Ingestion.ConnectorEnvelope} {n : NormalizedFinancialEvent}
    (h : Open (records g) raw p none) (hn : EventOf (records g) raw n)
    (huser : raw.userId = userId)
    (htext : n.eventKind.transactionType ≠ none → hasText raw = false) :
    (Ingestion.postOrQueueReview C fresh userId envelope p n).Ensures g
      fun _ g' => Invariant (records g') := by
  unfold Ingestion.postOrQueueReview
  split
  · rename_i transactionType amount currency occurredAt htype hamount hcurrency hoccurred
    refine Categorization.classify_readOnly.ensures_bind fun assignment => ?_
    refine (readOnly_resolveCategory _ _ _ _).ensures_bind fun categoryId => ?_
    refine postCommand_ensures h hn huser (htext ?_) fun command hcommand =>
      eventCommand_source hcommand
    rw [htype]
    exact fun h => by cases h
  · exact queueReview_ensures h

theorem moveToNormalized_ensures :
    (Ingestion.moveToNormalized p).Ensures g fun moved g' =>
      moved = { p with state := .normalized, lastErrorCode := none } ∧
      records g' = { records g with
        processing := Table.set RawEventProcessing.rawEventId moved.rawEventId (fun _ => moved)
          g.processing } := by
  unfold Ingestion.moveToNormalized
  refine (untouched_require _ _).bind rfl fun _ g₁ hg₁ => ?_
  refine setProcessing_ensures.bind fun _ g₂ hg₂ => ?_
  refine Tx.ensures_pure.2 ⟨rfl, ?_⟩
  rw [hg₂, show g₁.processing = (records g₁).processing from rfl, hg₁]
  rfl

theorem untouched_finishedResult (userId : Uuid) (stored : Ingestion.StoredRawEvent)
    (p : RawEventProcessing) : Untouched (Ingestion.finishedResult userId stored p) := by
  refine untouched_bind (untouched_reads _) fun normalized => ?_
  exact untouched_bind (untouched_reads _) fun evidence => untouched_pure _

/-- What a delivery may rely on when it is about to process an event: the event has no text
    if it is to be posted, or was rejected. -/
structure Deliverable (S : Records) (raw : RawEvent) (normalized : Ingestion.NormalizeResult) :
    Prop where
  posts : ∀ event, normalized = .event event → event.eventKind.transactionType ≠ none →
    hasText raw = false
  rejected : ∀ code, normalized = .contentError code → hasText raw = false
  untouched : hasText raw = false ∨ ∀ n ∈ S.normalizedEvents, n.rawEventId ≠ raw.id

theorem processNormalized_ensures {C : Config} {fresh : FreshIds} {connection : SourceConnection}
    {envelope : Ingestion.ConnectorEnvelope} {stored : Ingestion.StoredRawEvent}
    {event : Ingestion.NormalizedFinancialEventV1} (h : Open (records g) raw p none)
    (hstate : Ingestion.isTerminal p.state = false) (hid : stored.id = raw.id)
    (huser : raw.userId = userId) (hd : Deliverable (records g) raw (.event event)) :
    (Ingestion.processNormalized C fresh userId connection envelope stored event).Ensures g
      fun _ g' => Invariant (records g') := by
  unfold Ingestion.processNormalized
  refine lockProcessing_ensures.bind fun p' g₁ h₁ => ?_
  obtain ⟨hp', rfl⟩ := h₁
  rw [hid] at hp'
  obtain rfl := h.working.processing_eq rfl hp'
  rw [if_neg (by rw [hstate]; exact fun h => by cases h)]
  refine (storeNormalizedEvent_ensures h.working.wellFormed.normalizedIds).bind fun n g₂ h₂ => ?_
  rw [hid, ← huser] at h₂
  -- an event of a kind that is posted belongs to a source without text
  have htext : n.eventKind.transactionType ≠ none → hasText raw = false := by
    intro hkind
    rcases h₂.origin with ⟨hmem, hraw⟩ | hsame
    · rcases hd.untouched with htext | hnone
      · exact htext
      · exact absurd hraw (hnone n hmem)
    · exact hd.posts event rfl (hsame ▸ hkind)
  obtain ⟨hopen, hn⟩ := h.normalized h₂
  refine moveToNormalized_ensures.bind fun moved g₃ h₃ => ?_
  obtain ⟨rfl, hg₃⟩ := h₃
  have hopen : Open (records g₃) raw { p' with
      attemptCount := p'.attemptCount + 1
      state := .normalized
      lastErrorCode := none } none := by
    rw [hg₃]
    exact hopen.setProcessing rfl rfl
  have hn : EventOf (records g₃) raw n := by
    rw [hg₃]
    exact ⟨hn.mem, hn.rawEventId, hn.userId⟩
  refine (postOrQueueReview_ensures hopen hn huser htext).bind fun posted g₄ h₄ => ?_
  exact Tx.ensures_pure.2 h₄

theorem markFailed_ensures {stored : Ingestion.StoredRawEvent} {errorCode : String}
    (h : Open (records g) raw p none) (hstate : Ingestion.isTerminal p.state = false)
    (hid : stored.id = raw.id) (hd : Deliverable (records g) raw (.contentError errorCode)) :
    (Ingestion.markFailed userId stored errorCode).Ensures g
      fun _ g' => Invariant (records g') := by
  unfold Ingestion.markFailed
  refine lockProcessing_ensures.bind fun p' g₁ h₁ => ?_
  obtain ⟨hp', rfl⟩ := h₁
  rw [hid] at hp'
  obtain rfl := h.working.processing_eq rfl hp'
  rw [if_neg (by rw [hstate]; exact fun h => by cases h)]
  refine moveTo_ensures.bind fun moved g₂ h₂ => ?_
  obtain ⟨rfl, hg₂⟩ := h₂
  refine Tx.ensures_pure.2 ?_
  rw [hg₂]
  have hopen : Open _ raw { p' with
      attemptCount := p'.attemptCount + 1
      state := .failed
      lastErrorCode := some errorCode } none := h.setProcessing rfl rfl
  exact hopen.working.close hopen.booked (.failed _ rfl (hd.rejected errorCode rfl))

theorem finishDelivery_ensures {C : Config} {fresh : FreshIds} {connection : SourceConnection}
    {envelope : Ingestion.ConnectorEnvelope} {stored : Ingestion.StoredRawEvent}
    {normalized : Ingestion.NormalizeResult} (h : Open (records g) raw p none)
    (hstate : Ingestion.isTerminal p.state = false) (hid : stored.id = raw.id)
    (huser : raw.userId = userId) (hd : Deliverable (records g) raw normalized) :
    (Ingestion.finishDelivery C fresh userId connection envelope stored normalized).Ensures g
      fun _ g' => Invariant (records g') := by
  cases normalized with
  | event event => exact processNormalized_ensures h hstate hid huser hd
  | contentError code => exact markFailed_ensures h hstate hid hd
  | uncaught e => exact Tx.ensures_throw.2 trivial

/-- What storing an envelope did: the raw event was there, or it is new and received. -/
inductive Stored (S : Records) (userId : Uuid) (payload : Fields) : Records → Uuid → Prop where
  | existing (raw : RawEvent) (hmem : raw ∈ S.rawEvents) (huser : raw.userId = userId) :
      Stored S userId payload S raw.id
  | created (raw : RawEvent) (p : RawEventProcessing) (hfresh : ∀ r ∈ S.rawEvents, r.id ≠ raw.id)
      (huser : raw.userId = userId) (hpayload : raw.payload = payload)
      (hraw : p.rawEventId = raw.id) (howner : p.userId = raw.userId) (hstate : p.state = .received) :
      Stored S userId payload
        { S with rawEvents := S.rawEvents ++ [raw], processing := S.processing ++ [p] } raw.id

/-- Every raw event has a processing row. -/
theorem Invariant.processing_of_raw (h : Invariant S) (hraw : raw ∈ S.rawEvents) :
    ∃ p ∈ S.processing, p.rawEventId = raw.id := by
  obtain ⟨p, hp⟩ := (h.phases raw hraw).processing
  have hmem : p ∈ (dossiers S raw.id).processing := hp ▸ List.mem_singleton_self p
  obtain ⟨hmem, hid⟩ := List.mem_filter.1 hmem
  exact ⟨p, hmem, by simpa using hid⟩

theorem storeRawEvent_ensures {rawEventId connectionId : Uuid}
    {envelope : Ingestion.ConnectorEnvelope} {identityKey contentHash : PyStr} {payload : Fields}
    (h : Invariant (records g)) :
    (Ingestion.storeRawEvent rawEventId userId connectionId envelope identityKey contentHash
      payload).Ensures g fun stored g' =>
        Stored (records g) userId payload (records g') stored.id := by
  unfold Ingestion.storeRawEvent
  simp only [Tx.ensures_bind, ensures_require, ensures_insertOrIgnore, Tx.ensures_reads,
    ensures_requireSome, Tx.ensures_pure]
  intro _ _
  constructor
  · -- the identity is known: nothing is inserted
    intro _ selected hselected _
    simp only [Bool.false_eq_true, if_false] at hselected
    obtain ⟨raw, hfound, rfl⟩ := Option.map_eq_some_iff.1 hselected
    have hraw := List.mem_of_find?_eq_some hfound
    have hidentified := List.find?_some hfound
    simp only [Ingestion.identified, Bool.and_eq_true, beq_iff_eq] at hidentified
    refine ⟨fun _ => .existing raw hraw hidentified.1.1, fun hnone _ => ?_⟩
    obtain ⟨p, hp, hid⟩ := h.processing_of_raw hraw
    have hany : g.processing.any (fun p => p.rawEventId == raw.id) = true :=
      List.any_eq_true.2 ⟨p, hp, by simp [hid]⟩
    rw [hany] at hnone
    cases hnone
  · intro _ hviolation selected hselected _
    simp only [if_true, Option.some.injEq] at hselected
    subst hselected
    have hfresh : ∀ r ∈ g.rawEvents, r.id ≠ rawEventId := by
      split at hviolation
      · cases hviolation
      · rename_i hpk
        exact Table.fresh_of_any hpk
    refine ⟨fun hany => ?_, fun _ _ => ?_⟩
    · -- a new raw event has no processing row
      obtain ⟨p, hp, hid⟩ := List.any_eq_true.1 hany
      obtain ⟨r, hr, hrid, -⟩ := h.wellFormed.processing_owned p hp
      exact absurd (hrid.trans (by simpa using hid)) (hfresh r hr)
    · exact .created _ _ hfresh rfl rfl rfl rfl rfl

theorem storeEnvelope_ensures {C : Config} {fresh : FreshIds} {connection : SourceConnection}
    {envelope : Ingestion.ConnectorEnvelope} (h : Invariant (records g)) :
    (Ingestion.storeEnvelope C fresh userId connection envelope).Ensures g fun stored g' =>
      Stored (records g) userId
        (Ingestion.serializedPayload C.platform.isoformat envelope.payload) (records g')
        stored.id := by
  unfold Ingestion.storeEnvelope
  rw [Tx.ensures_bind, ensures_ofExcept]
  intro payload hpayload
  rw [Ingestion.canonicalEnvelope_ok hpayload]
  exact storeRawEvent_ensures h

/-- A new raw event is an open dossier that nothing refers to. -/
theorem Invariant.created (h : Invariant S) {p : RawEventProcessing}
    (hfresh : ∀ r ∈ S.rawEvents, r.id ≠ raw.id) (hraw : p.rawEventId = raw.id)
    (howner : p.userId = raw.userId) :
    Open { S with rawEvents := S.rawEvents ++ [raw], processing := S.processing ++ [p] } raw p
      none ∧ ∀ n ∈ S.normalizedEvents, n.rawEventId ≠ raw.id := by
  have hunowned : ∀ u, ¬ Owned S.rawEvents raw.id u := by
    rintro u ⟨r, hr, hid, -⟩
    exact hfresh r hr hid
  have hwf := (h.wellFormed.addRawEvent hfresh).addProcessing (p := p)
    (by rw [hraw, howner]; exact ⟨raw, List.mem_append_right _ (List.mem_singleton_self raw), rfl, rfl⟩)
  -- no row refers to the new event before its processing row is added
  have hempty : dossiers S raw.id = ⟨[], [], [], []⟩ := by
    simp only [dossiers, Dossier.mk.injEq, List.filter_eq_nil_iff, beq_iff_eq]
    refine ⟨fun x hx hid => ?_, fun x hx hid => ?_, fun x hx hid => ?_, fun x hx hid => ?_⟩
    · exact hunowned _ (hid ▸ h.wellFormed.processing_owned x hx)
    · exact hunowned _ (hid ▸ h.wellFormed.linked_owned (h.wellFormed.evidence_linked x hx))
    · exact hunowned _ (hid ▸ h.wellFormed.linked_owned (h.wellFormed.cases_linked x hx))
    · exact hunowned _ (hid ▸ h.wellFormed.proposals_owned x hx)
  have hd := dossiers_addProcessing { S with rawEvents := S.rawEvents ++ [raw] } p
  rw [dossiers_addRawEvent, hraw, hempty] at hd
  refine ⟨⟨⟨hwf, List.mem_append_right _ (List.mem_singleton_self raw), ?_, ?_⟩,
    ⟨h.booked.ingested, h.booked.posted, h.booked.distinct⟩, hraw, howner⟩, ?_⟩
  · rw [hd, Function.update_self]
    rfl
  · intro raw' hraw' hid
    rw [hd, Function.update_of_ne hid]
    rcases List.mem_append.1 hraw' with hraw' | hraw'
    · exact h.phases raw' hraw'
    · exact absurd (congrArg RawEvent.id (List.mem_singleton.1 hraw')) hid
  · intro n hn hid
    exact hunowned _ (hid ▸ h.wellFormed.normalized_owned n hn)

/-- The connectors of the registry and what they ingest: CSV rows of a parsed document, and
    any envelope of a text connector. -/
inductive Shipped (P : Ingestion.Platform) :
    Ingestion.Connector → Ingestion.ConnectorEnvelope → Prop where
  | csv {content : PyStr} {events : List Ingestion.ConnectorEnvelope}
      {envelope : Ingestion.ConnectorEnvelope}
      (hparse : Connectors.parseCsvDocument P content = .ok events) (hmem : envelope ∈ events) :
      Shipped P (Connectors.csvConnector P.unicode events) envelope
  | manualNote (events : List Ingestion.ConnectorEnvelope)
      (envelope : Ingestion.ConnectorEnvelope) :
      Shipped P (Connectors.manualNoteConnector P.unicode events) envelope
  | googleKeep (events : List Ingestion.ConnectorEnvelope)
      (envelope : Ingestion.ConnectorEnvelope) :
      Shipped P (Connectors.keepConnector P.unicode events) envelope
  | gmail (pages : Option PyStr → Except AppError Ingestion.ConnectorBatch)
      (envelope : Ingestion.ConnectorEnvelope) :
      Shipped P (Connectors.gmailConnector P.unicode pages) envelope

/-- A payload without the field has no text to extract. -/
theorem extractionText_eq_none {isoformat : DateTime → PyStr} {payload : Fields}
    (h : ∀ f ∈ payload, f.1 ≠ "extraction_text") :
    Ai.extractionText (Ingestion.serializedPayload isoformat payload) = none := by
  have hget : Fields.get (Ingestion.serializedPayload isoformat payload) "extraction_text" =
      none := by
    unfold Fields.get
    rw [List.find?_eq_none.2, Option.map_none]
    intro f hf
    obtain ⟨f', hf', rfl⟩ := List.mem_map.1 hf
    simpa using h f' hf'
  unfold Ai.extractionText
  rw [hget]
  rfl

/-- An event of a shipped connector is posted or rejected only if it has no text. -/
theorem Shipped.no_text {P : Ingestion.Platform} {connector : Ingestion.Connector}
    {envelope : Ingestion.ConnectorEnvelope} (h : Shipped P connector envelope)
    (isoformat : DateTime → PyStr) :
    Ai.extractionText (Ingestion.serializedPayload isoformat envelope.payload) = none ∨
      ((∀ event, connector.normalize envelope = .event event →
          event.eventKind.transactionType = none) ∧
        ∀ code, connector.normalize envelope ≠ .contentError code) := by
  cases h with
  | csv hparse hmem =>
    refine .inl (extractionText_eq_none fun f hf hname => ?_)
    have hcolumn := Connectors.parseCsvDocument_columns hparse hmem f hf
    rw [hname] at hcolumn
    revert hcolumn
    decide
  | manualNote events envelope =>
    exact .inr ⟨fun event h => Connectors.unknownEvent_kind h,
      fun code => Connectors.unknownEvent_ne_contentError⟩
  | googleKeep events envelope =>
    exact .inr ⟨fun event h => Connectors.unknownEvent_kind h,
      fun code => Connectors.unknownEvent_ne_contentError⟩
  | gmail pages envelope =>
    exact .inr ⟨fun event h => Connectors.unknownEvent_kind h,
      fun code => Connectors.unknownEvent_ne_contentError⟩

theorem terminalResult_ensures {stored : Ingestion.StoredRawEvent} :
    (Ingestion.terminalResult userId stored).Ensures g fun result g' =>
      records g' = records g ∧ ∃ p, ProcessingFor (records g) stored.id userId p ∧
        result.isSome = Ingestion.isTerminal p.state := by
  unfold Ingestion.terminalResult
  refine getProcessing_ensures.bind fun p g₁ h₁ => ?_
  obtain ⟨hp, rfl⟩ := h₁
  cases hstate : Ingestion.isTerminal p.state with
  | true =>
    rw [if_pos rfl]
    refine (untouched_finishedResult _ _ _).bind rfl fun result g₂ hg₂ => ?_
    exact Tx.ensures_pure.2 ⟨hg₂, p, hp, hstate.symm⟩
  | false =>
    rw [if_neg (fun h => by cases h)]
    exact Tx.ensures_pure.2 ⟨rfl, p, hp, hstate.symm⟩

/-- The records are as the invariant says, or a delivery has just stored a new event. -/
theorem Stored.open_or_invariant (h : Invariant S) {payload : Fields} {r : Uuid}
    (hs : Stored S userId payload S' r) :
    ∃ raw, raw.id = r ∧ raw.userId = userId ∧
      ((raw ∈ S'.rawEvents ∧ Invariant S') ∨ (raw.payload = payload ∧
        ∃ p, Ingestion.isTerminal p.state = false ∧ Open S' raw p none ∧
          ∀ n ∈ S'.normalizedEvents, n.rawEventId ≠ raw.id)) := by
  cases hs with
  | existing raw hmem huser => exact ⟨raw, rfl, huser, .inl ⟨hmem, h⟩⟩
  | created raw p hfresh huser hpayload hraw howner hstate =>
    obtain ⟨hopen, hnone⟩ := h.created hfresh hraw howner
    exact ⟨raw, rfl, huser, .inr ⟨hpayload, p, by rw [hstate]; rfl, hopen, hnone⟩⟩

/-- An unfinished event of the invariant is an open dossier without text. -/
theorem Invariant.unfinished (h : Invariant S) (hraw : raw ∈ S.rawEvents)
    (hp : ProcessingFor S raw.id userId p) (hstate : Ingestion.isTerminal p.state = false) :
    Open S raw p none ∧ hasText raw = false := by
  obtain ⟨p', hone⟩ := (h.phases raw hraw).processing
  obtain rfl := (h.working hraw).processing_eq hone hp
  obtain ⟨hd, htext⟩ := (h.phases raw hraw).of_open hone hstate
  have hworking := h.working hraw
  rw [hd] at hworking
  have howned := h.wellFormed.processing_owned p hp.mem
  rw [hp.rawEventId] at howned
  exact ⟨⟨hworking, h.booked, hp.rawEventId, h.wellFormed.owner_eq howned hworking.owned⟩, htext⟩

theorem ingestForConnection_ensures {C : Config} {fresh : FreshIds}
    {connector : Ingestion.Connector} {connection : SourceConnection}
    {envelope : Ingestion.ConnectorEnvelope} (h : Invariant (records g))
    (hshipped : Shipped C.platform connector envelope) :
    (Ingestion.ingestForConnection C fresh userId connector connection envelope).Ensures g
      fun _ g' => Invariant (records g') := by
  unfold Ingestion.ingestForConnection
  refine (storeEnvelope_ensures h).bind fun stored g₁ h₁ => ?_
  obtain ⟨raw, hid, huser, hcase⟩ := h₁.open_or_invariant h
  refine terminalResult_ensures.bind fun result g₂ h₂ => ?_
  obtain ⟨hg₂, p', hp', hresult⟩ := h₂
  rw [← hid] at hp'
  cases result with
  | some result =>
    refine Tx.ensures_pure.2 ?_
    rcases hcase with ⟨-, hinv⟩ | ⟨-, p, hstate, hopen, -⟩
    · rw [hg₂]
      exact hinv
    · -- a new event is not finished
      obtain rfl := hopen.working.processing_eq rfl hp'
      rw [hstate] at hresult
      cases hresult
  | none =>
    rcases hcase with ⟨hmem, hinv⟩ | ⟨hpayload, p, hstate, hopen, hnone⟩
    · obtain ⟨hopen, htext⟩ := hinv.unfinished hmem hp' hresult.symm
      rw [← hg₂] at hopen
      exact finishDelivery_ensures hopen hresult.symm hid.symm huser
        ⟨fun _ _ _ => htext, fun _ _ => htext, .inl htext⟩
    · rw [← hg₂] at hopen hnone
      refine finishDelivery_ensures hopen hstate hid.symm huser ?_
      rcases hshipped.no_text C.platform.isoformat with htext | ⟨hkind, hcode⟩
      · have htext : hasText raw = false := by
          rw [hasText, hpayload, htext]
          rfl
        exact ⟨fun _ _ _ => htext, fun _ _ => htext, .inl htext⟩
      · exact ⟨fun event he ht => absurd (hkind event he) ht,
          fun code hc => absurd hc (hcode code), .inr hnone⟩

/-- `ingest_envelope` keeps the invariant. -/
theorem ingest_ensures {C : Config} {fresh : FreshIds} {connector : Ingestion.Connector}
    {envelope : Ingestion.ConnectorEnvelope} {connectionKey : PyStr} (h : Invariant (records g))
    (hshipped : Shipped C.platform connector envelope) :
    (Ingestion.ingest C fresh userId connector envelope connectionKey).Ensures g
      fun _ g' => Invariant (records g') := by
  unfold Ingestion.ingest
  refine (untouched_ensureConnection _ _ _ _ _).bind rfl fun connection g₁ hg₁ => ?_
  exact ingestForConnection_ensures (hg₁ ▸ h) hshipped

/-! ### Extraction and rejection -/

theorem proposalRow_ok {rowId rawEventId : Uuid} {extraction : Ai.FinancialExtractionResult}
    {row : FinancialEventProposal}
    (h : Ai.proposalRow rowId userId rawEventId extraction = .ok row) :
    row.id = rowId ∧ row.userId = userId ∧ row.rawEventId = rawEventId ∧
      row.status = .needsReview ∧ row.targetCount = 0 ∧
      Ai.prompted rawEventId extraction.promptName extraction.promptVersion
        extraction.schemaVersion row = true := by
  simp only [Ai.proposalRow, bind, Except.bind, throw, throwThe, MonadExceptOf.throw, pure,
    Except.pure] at h
  repeat' split at h
  -- every branch but the last one is an error
  all_goals cases h
  refine ⟨rfl, rfl, rfl, rfl, rfl, ?_⟩
  simp [Ai.prompted]

/-- A locked proposal that waits for review, with its dossier. -/
theorem Invariant.waiting (h : Invariant S) {x : FinancialEventProposal} (hx : x ∈ S.proposals)
    (hstatus : x.status = .needsReview) :
    ∃ raw p, x.rawEventId = raw.id ∧ x.userId = raw.userId ∧ Open S raw p (some x) ∧
      p.state = .needsReview := by
  obtain ⟨raw, hraw, hid, huser, hphase⟩ := h.phase_of_owned (h.wellFormed.proposals_owned x hx)
  have hmem : x ∈ (dossiers S x.rawEventId).proposals := List.mem_filter.2 ⟨hx, by simp⟩
  obtain ⟨p, hd, hstate⟩ := hphase.of_proposal hmem hstatus
  rw [← hid] at hd
  have hp : p ∈ (dossiers S raw.id).processing := by
    rw [hd]
    exact List.mem_singleton_self p
  obtain ⟨hpmem, hpraw⟩ := List.mem_filter.1 hp
  have hpraw : p.rawEventId = raw.id := by simpa using hpraw
  have hworking := h.working hraw
  have howned := h.wellFormed.processing_owned p hpmem
  rw [hpraw] at howned
  have howner := h.wellFormed.owner_eq howned hworking.owned
  rw [hd] at hworking
  exact ⟨raw, p, hid.symm, huser.symm, ⟨hworking, h.booked, hpraw, howner⟩, hstate⟩

/-- `_require_pending` of a locked proposal. -/
theorem lockedProposal_ensures {proposalId : Uuid} :
    (Ai.lockProposal userId proposalId >>= Ai.requirePending).Ensures g fun x g' =>
      x ∈ g.proposals ∧ x.userId = userId ∧ x.status = .needsReview ∧ g' = g := by
  unfold Ai.lockProposal Ai.requirePending
  simp only [Tx.ensures_bind, ensures_selectForUpdate, ensures_requireSome, ensures_require,
    Tx.ensures_pure]
  intro x hx hstatus
  have hfound := List.find?_some hx
  simp only [Bool.and_eq_true, beq_iff_eq] at hfound
  exact ⟨List.mem_of_find?_eq_some hx, hfound.2, by simpa using hstatus, trivial⟩

theorem updateProposal_ensures {x : FinancialEventProposal} :
    (updateProposal x).Ensures g fun _ g' => x.approvedHasCanonicalTarget = true ∧
      records g' = { records g with
        proposals := Table.set FinancialEventProposal.id x.id (fun _ => x) g.proposals } := by
  unfold updateProposal
  rw [Tx.ensures_bind, ensures_require]
  exact fun hok => Tx.ensures_modify.2 ⟨hok, rfl⟩

theorem Open.setProposal (h : Open S raw p (some x)) {x' : FinancialEventProposal}
    (hid : x'.id = x.id) (hraw : x.rawEventId = raw.id) (hraw' : x'.rawEventId = raw.id)
    (huser : x'.userId = raw.userId) (hok : ProposalOk x') :
    Open { S with
      proposals := Table.set FinancialEventProposal.id x'.id (fun _ => x') S.proposals } raw p
      (some x') where
  working := h.working.setProposal rfl hid hraw hraw' huser hok
  booked := ⟨h.booked.ingested, h.booked.posted, h.booked.distinct⟩
  rawEventId := h.rawEventId
  userId := h.userId

theorem untouched_sourceForProposal (userId : Uuid) (x : FinancialEventProposal) :
    Untouched (Ai.sourceForProposal userId x) :=
  untouched_bind (untouched_reads _) fun _ => untouched_requireSome _ _

/-- `reject` keeps the invariant. -/
theorem reject_ensures {proposalId : Uuid} (h : Invariant (records g)) :
    (Ai.reject userId proposalId).Ensures g fun _ g' => Invariant (records g') := by
  unfold Ai.reject
  rw [← bind_assoc]
  refine lockedProposal_ensures.bind fun x g₁ h₁ => ?_
  obtain ⟨hx, huser, hstatus, rfl⟩ := h₁
  obtain ⟨raw, p, hraw, howner, hopen, hstate⟩ := h.waiting hx hstatus
  refine (untouched_sourceForProposal _ _).bind rfl fun source g₂ hg₂ => ?_
  refine updateProposal_ensures.bind fun _ g₃ h₃ => ?_
  obtain ⟨hok, hg₃⟩ := h₃
  rw [show g₂.proposals = (records g₂).proposals from rfl, hg₂] at hg₃
  have hopen : Open (records g₃) raw p (some { x with status := .rejected }) := by
    rw [hg₃]
    exact hopen.setProposal rfl hraw hraw howner ⟨(h.wellFormed.proposals_ok x hx).prompted, hok⟩
  refine lockProcessing_ensures.bind fun p' g₄ h₄ => ?_
  obtain ⟨hp', rfl⟩ := h₄
  rw [hraw] at hp'
  obtain rfl := hopen.working.processing_eq rfl hp'
  refine setProcessing_ensures.bind fun _ g₅ hg₅ => ?_
  refine Tx.ensures_pure.2 ?_
  rw [hg₅]
  have hopen : Open _ raw { p' with lastErrorCode := some "USER_REJECTED" }
      (some { x with status := .rejected }) := hopen.setProcessing rfl rfl
  exact hopen.working.close hopen.booked (.review _ (some _) hstate fun y hy => by
    obtain rfl := Option.some.inj hy
    exact .inr rfl)

theorem untouched_selectProposal (proposalId userId : Uuid)
    (same : FinancialEventProposal → Bool) (inserted : Bool) :
    Untouched (Ai.selectProposal proposalId userId same inserted) := by
  refine untouched_bind (untouched_reads _) fun existing => ?_
  refine untouched_bind (untouched_requireSome _ _) fun selected => ?_
  exact untouched_bind (untouched_reads _) fun _ => untouched_requireSome _ _

/-- A new proposal of the current prompt for a raw event that has none. -/
structure NewProposal (S : Records) (r u : Uuid) (x : FinancialEventProposal) : Prop where
  rawEventId : x.rawEventId = r
  userId : x.userId = u
  status : x.status = .needsReview
  ok : ProposalOk x
  fresh : ∀ y ∈ S.proposals, y.id ≠ x.id
  first : ∀ y ∈ S.proposals,
    Ai.prompted r Ai.PROMPT_NAME Ai.PROMPT_VERSION Ai.SCHEMA_VERSION y = false

/-- What an extraction of the current prompt adds. -/
theorem createOrGet_ensures {proposalId : Uuid} {context : Ai.RawExtractionContext}
    {extraction : Ai.FinancialExtractionResult} (hname : extraction.promptName = Ai.PROMPT_NAME)
    (hversion : extraction.promptVersion = Ai.PROMPT_VERSION)
    (hschema : extraction.schemaVersion = Ai.SCHEMA_VERSION) :
    (Ai.createOrGet proposalId userId context extraction).Ensures g fun _ g' =>
      records g' = records g ∨ ∃ x, NewProposal (records g) context.rawEventId userId x ∧
        records g' = { records g with proposals := g.proposals ++ [x] } := by
  unfold Ai.createOrGet
  rw [Tx.ensures_bind, ensures_ofExcept]
  intro row hrow
  obtain ⟨hid, huser, hraw, hstatus, htargets, hprompted⟩ := proposalRow_ok hrow
  rw [hname, hversion, hschema] at hprompted
  dsimp only
  rw [hname, hversion, hschema, Tx.ensures_bind, ensures_insertOrIgnore]
  constructor
  · exact fun _ => (untouched_selectProposal _ _ _ _ _).mono fun _ _ hg => .inl hg
  · intro hfirst hviolation
    refine (untouched_selectProposal _ _ _ _ _).mono fun _ _ hg => .inr ⟨row, ?_, hg⟩
    refine ⟨hraw, huser, hstatus, ⟨hraw ▸ hprompted, ?_⟩, ?_, ?_⟩
    · rw [FinancialEventProposal.approvedHasCanonicalTarget, if_neg (by rw [hstatus]; decide),
        htargets]
      rfl
    · rw [hid]
      split at hviolation
      · cases hviolation
      · rename_i hpk
        exact Table.fresh_of_any hpk
    · intro y hy
      simpa using List.any_eq_false.1 hfirst y hy

/-- The context of an extraction is the owner's raw event. -/
theorem rawExtractionContext_ensures {rawEventId : Uuid} :
    (Ai.rawExtractionContext userId rawEventId).Ensures g fun context g' => g' = g ∧
      ∀ c ∈ context, ∃ raw ∈ g.rawEvents, raw.id = rawEventId ∧ raw.userId = userId ∧
        c.rawEventId = raw.id ∧ c.payload = raw.payload := by
  unfold Ai.rawExtractionContext
  rw [Tx.ensures_reads]
  refine ⟨rfl, fun c hc => ?_⟩
  simp only [Option.mem_def, Option.bind_eq_bind, Option.bind_eq_some_iff] at hc
  obtain ⟨raw, hraw, source, -, user, -, hcontext⟩ := hc
  obtain rfl := Option.some.inj hcontext
  have hfound := List.find?_some hraw
  simp only [Bool.and_eq_true, beq_iff_eq] at hfound
  exact ⟨raw, List.mem_of_find?_eq_some hraw, hfound.1, hfound.2, rfl, rfl⟩

/-- A change of an error code alone keeps the phase of a dossier. -/
theorem Phase.setErrorCode {text : Bool} {d : Dossier} (h : Phase text d)
    {p : RawEventProcessing} (hp : d.processing = [p]) (errorCode : Option String) :
    Phase text { d with processing := [{ p with lastErrorCode := errorCode }] } := by
  cases h with
  | failed p' hstate htext =>
    obtain rfl : p' = p := by simpa using hp
    exact .failed _ hstate htext
  | review p' q hstate hproposal =>
    obtain rfl : p' = p := by simpa using hp
    exact .review _ q hstate hproposal
  | pending p' c q hstate hcase hproposal htext =>
    obtain rfl : p' = p := by simpa using hp
    exact .pending _ c q hstate hcase hproposal htext
  | resolved p' e c q hstate hcase hevent hresulting hproposal htext =>
    obtain rfl : p' = p := by simpa using hp
    exact .resolved _ e c q hstate hcase hevent hresulting hproposal htext
  | approved p' x hstate hproposal =>
    obtain rfl : p' = p := by simpa using hp
    exact .approved _ x hstate hproposal

/-- Writing an error code into a processing row keeps the invariant. -/
theorem setErrorCode_ensures {rawEventId : Uuid} {errorCode : Option String}
    (h : Invariant (records g)) {β : Type} (b : β) :
    (do
      let processing ← Ingestion.lockProcessing userId rawEventId
      Ingestion.setProcessing { processing with lastErrorCode := errorCode }
      pure b : DbTx β).Ensures g fun _ g' => Invariant (records g') := by
  refine lockProcessing_ensures.bind fun p g₁ h₁ => ?_
  obtain ⟨hp, rfl⟩ := h₁
  have howned := h.wellFormed.processing_owned p hp.mem
  obtain ⟨raw, hraw, hid, huser, -⟩ := h.phase_of_owned howned
  have hworking := h.working hraw
  obtain ⟨p', hone⟩ := (h.phases raw hraw).processing
  obtain rfl := hworking.processing_eq hone ⟨hp.mem, hid.symm, rfl⟩
  refine setProcessing_ensures.bind fun _ g₂ hg₂ => ?_
  refine Tx.ensures_pure.2 ?_
  rw [hg₂]
  refine Working.close (hworking.setProcessing hone hid.symm hid.symm huser.symm)
    ⟨h.booked.ingested, h.booked.posted, h.booked.distinct⟩ ?_
  exact (h.phases raw hraw).setErrorCode hone errorCode

/-- A first proposal of an event with text waits for review. -/
theorem Invariant.addProposal (h : Invariant S) (hraw : raw ∈ S.rawEvents)
    (htext : hasText raw = true) (hx : NewProposal S raw.id raw.userId x) :
    Invariant { S with proposals := S.proposals ++ [x] } := by
  have hnone : (dossiers S raw.id).proposals = [] := by
    refine List.filter_eq_nil_iff.2 fun y hy hid => ?_
    have hprompted := (h.wellFormed.proposals_ok y hy).prompted
    rw [show y.rawEventId = raw.id by simpa using hid, hx.first y hy] at hprompted
    cases hprompted
  have hphase := h.phases raw hraw
  rw [htext] at hphase
  obtain ⟨p, hd, hstate⟩ := hphase.of_text hnone
  have hworking := (h.working hraw).addProposal hx.fresh hx.rawEventId hx.userId hx.ok
  rw [hd] at hworking
  refine hworking.close ⟨h.booked.ingested, h.booked.posted, h.booked.distinct⟩ ?_
  exact .review p (some x) hstate fun y hy => by
    obtain rfl := Option.some.inj hy
    exact .inl hx.status

/-- `extract_raw_event` keeps the invariant. -/
theorem extract_ensures {C : Ai.ProposalConfig} {fresh : FreshIds} {rawEventId : Uuid}
    {answer : Except String Ai.CompletionData} (h : Invariant (records g)) :
    (Ai.extract C fresh userId rawEventId answer).Ensures g
      fun _ g' => Invariant (records g') := by
  unfold Ai.extract
  refine (untouched_reads _).bind rfl fun existing g₁ hg₁ => ?_
  rw [← hg₁] at h
  cases existing with
  | some view => exact Tx.ensures_pure.2 h
  | none =>
    unfold Ai.extractNew
    refine rawExtractionContext_ensures.bind fun context g₂ h₂ => ?_
    obtain ⟨rfl, hcontext⟩ := h₂
    rw [Tx.ensures_bind, ensures_requireSome]
    intro c hc
    obtain ⟨raw, hraw, hid, huser, hcid, hpayload⟩ := hcontext c hc
    rw [Tx.ensures_bind, ensures_requireSome]
    intro text htext
    have htext : hasText raw = true := by
      rw [hasText, ← hpayload, htext]
      rfl
    cases hresult : Ai.extractEvent C.core.platform.unicode C.core.platform.zones C.extractor text
        c.timezone c.defaultCurrency answer with
    | error e =>
      cases e with
      | uncaught => exact Tx.ensures_throw.2 trivial
      | ai code =>
        dsimp only [Ai.recordExtraction, Ai.recordExtractionFailure]
        rw [bind_assoc]
        exact setErrorCode_ensures h _
    | ok extraction =>
      obtain ⟨hname, hversion, hschema⟩ := Ai.extractEvent_prompt hresult
      refine (createOrGet_ensures hname hversion hschema).bind fun view g₃ h₃ => ?_
      refine setErrorCode_ensures ?_ _
      rcases h₃ with hg₃ | ⟨x, hx, hg₃⟩
      · rw [hg₃]
        exact h
      · rw [hg₃]
        rw [hcid, ← huser] at hx
        exact h.addProposal hraw htext hx

/-! ### Approval -/

/-- The proposal is the same but for its target. -/
structure SameProposal (x x' : FinancialEventProposal) : Prop where
  id : x'.id = x.id
  rawEventId : x'.rawEventId = x.rawEventId
  userId : x'.userId = x.userId
  prompt : x'.promptName = x.promptName ∧ x'.promptVersion = x.promptVersion ∧
    x'.schemaVersion = x.schemaVersion

theorem SameProposal.ok {x' : FinancialEventProposal} (h : SameProposal x x') (hx : ProposalOk x)
    (htarget : x'.approvedHasCanonicalTarget = true) : ProposalOk x' := by
  refine ⟨?_, htarget⟩
  have hprompted := hx.prompted
  unfold Ai.prompted at hprompted ⊢
  rw [h.prompt.1, h.prompt.2.1, h.prompt.2.2]
  simpa using hprompted

/-- What approving a proposal leads to before its status is written. -/
inductive ApprovedAs (S : Records) (raw : RawEvent) (p : RawEventProcessing)
    (x : FinancialEventProposal) : Option FinancialEventProposal → Prop where
  /-- A possible duplicate waits for reconciliation. -/
  | waiting (hb : Booked S) (hh : Handed S raw p (some x) none) : ApprovedAs S raw p x none
  /-- A transaction. -/
  | transaction (t : Uuid) (hb : Booked S) (hh : Handed S raw p (some x) (some t)) :
      ApprovedAs S raw p x (some { x with transactionId := some t })
  /-- An obligation or a recurring payment. -/
  | other (x' : FinancialEventProposal) (hopen : Open S raw p (some x)) (hsame : SameProposal x x') :
      ApprovedAs S raw p x (some x')

theorem approveTransaction_ensures {C : Ai.ProposalConfig} {fresh : FreshIds}
    {transactionType : TransactionType} {n : NormalizedFinancialEvent} :
    (Ai.approveTransaction C fresh userId x transactionType n).Ensures g fun outcome g' =>
      ∃ target, Reconciled (records g) n userId (records g') target ∧
        OutcomeFor target outcome := by
  unfold Ai.approveTransaction
  refine (untouched_requireMoneyAndOccurred x).bind rfl fun money g₁ hg₁ => ?_
  refine Categorization.classify_readOnly.ensures_bind fun assignment => ?_
  refine (readOnly_resolveCategory _ _ _ _).ensures_bind fun categoryId => ?_
  rw [Tx.ensures_bind, ensures_ofExcept]
  intro command hcommand
  rw [← hg₁]
  exact reconcileTransaction_ensures (proposalCommand_source hcommand)

theorem reconciledTarget_ensures {outcome : ReconciliationProcessingOutcome} {target : Option Uuid}
    (hb : Booked (records g)) (hh : Handed (records g) raw p (some x) target)
    (ho : OutcomeFor target outcome) :
    (Ai.reconciledTarget x outcome).Ensures g fun result g' =>
      ApprovedAs (records g') raw p x result := by
  unfold Ai.reconciledTarget
  cases target with
  | none =>
    rw [if_pos (by rw [ho.review]; rfl)]
    exact Tx.ensures_pure.2 (.waiting hb hh)
  | some t =>
    rw [if_neg (by rw [ho.review]; exact fun h => by cases h), Tx.ensures_bind,
      ensures_requireSome]
    intro t' ht'
    rw [ho.transactionId] at ht'
    obtain rfl := Option.some.inj ht'
    exact Tx.ensures_pure.2 (.transaction t hb hh)

theorem approveTarget_ensures {C : Ai.ProposalConfig} {fresh : FreshIds} {now : Instant}
    {n : NormalizedFinancialEvent} (h : Open (records g) raw p (some x))
    (hn : EventOf (records g) raw n) (huser : raw.userId = userId) :
    (Ai.approveTarget C fresh now userId x n).Ensures g fun result g' =>
      ApprovedAs (records g') raw p x result := by
  unfold Ai.approveTarget
  split
  · refine approveTransaction_ensures.bind fun outcome g₁ h₁ => ?_
    obtain ⟨target, hrec, hout⟩ := h₁
    rw [← huser] at hrec
    obtain ⟨hb, hh⟩ := h.reconciled hn hrec
    exact reconciledTarget_ensures hb hh hout
  · refine (untouched_approveObligation _ _ _ _ _ _).bind rfl fun target g₁ hg₁ => ?_
    exact Tx.ensures_pure.2 (.other _ (hg₁ ▸ h) ⟨rfl, rfl, rfl, rfl, rfl, rfl⟩)
  · refine (untouched_approveObligation _ _ _ _ _ _).bind rfl fun target g₁ hg₁ => ?_
    exact Tx.ensures_pure.2 (.other _ (hg₁ ▸ h) ⟨rfl, rfl, rfl, rfl, rfl, rfl⟩)
  · refine (untouched_approveRecurring _ _ _ _).bind rfl fun target g₁ hg₁ => ?_
    exact Tx.ensures_pure.2 (.other _ (hg₁ ▸ h) ⟨rfl, rfl, rfl, rfl, rfl, rfl⟩)
  · exact Tx.ensures_throw.2 trivial

/-- Writing the processing row and the proposal of a dossier. -/
theorem Working.setBoth {d : Dossier} (h : Working S raw d) (hp : d.processing = [p])
    (hx : d.proposals = [x]) {p' : RawEventProcessing} {x' : FinancialEventProposal}
    (hpraw : p'.rawEventId = p.rawEventId) (hpuser : p'.userId = p.userId)
    (hsame : SameProposal x x') (htarget : x'.approvedHasCanonicalTarget = true) :
    Working { S with
      processing := Table.set RawEventProcessing.rawEventId p'.rawEventId (fun _ => p')
        S.processing
      proposals := Table.set FinancialEventProposal.id x'.id (fun _ => x') S.proposals } raw
      { d with processing := [p'], proposals := [x'] } := by
  obtain ⟨hpid, hpowner⟩ := h.processing_mem (by rw [hp]; exact List.mem_singleton_self p)
  obtain ⟨hxmem, hxid, hxowner⟩ := h.proposal_mem (by rw [hx]; exact List.mem_singleton_self x)
  have hw := h.setProcessing hp hpid (hpraw.trans hpid) (hpuser.trans hpowner)
  exact hw.setProposal hx hsame.id hxid (hsame.rawEventId.trans hxid) (hsame.userId.trans hxowner)
    (hsame.ok (h.wellFormed.proposals_ok x hxmem) htarget)

theorem finishApproval_ensures {source : SourceConnection} {result : Option FinancialEventProposal}
    (hstate : p.state = .needsReview) (h : ApprovedAs (records g) raw p x result) :
    (Ai.finishApproval source p x result).Ensures g fun _ g' => Invariant (records g') := by
  cases h with
  | waiting hb hh =>
    cases hh with
    | flagged c hw hcase =>
      dsimp only [Ai.finishApproval]
      refine setProcessing_ensures.bind fun _ g₁ hg₁ => ?_
      refine updateProposal_ensures.bind fun _ g₂ h₂ => ?_
      obtain ⟨hok, hg₂⟩ := h₂
      refine Tx.ensures_pure.2 ?_
      rw [hg₂, show g₁.proposals = (records g₁).proposals from rfl, hg₁]
      refine Working.close (hw.setBoth rfl rfl rfl rfl ⟨rfl, rfl, rfl, rfl, rfl, rfl⟩ hok)
        (hb.congr rfl rfl) ?_
      refine .pending _ c (some _) hstate hcase (fun y hy => ?_) fun hy => by cases hy
      obtain rfl := Option.some.inj hy
      rfl
  | transaction t hb hh =>
    cases hh with
    | posted e c hw hcase hevent hresulting =>
      dsimp only [Ai.finishApproval]
      refine (untouched_require _ _).bind rfl fun _ g₁ hg₁ => ?_
      refine setProcessing_ensures.bind fun _ g₂ hg₂ => ?_
      refine updateProposal_ensures.bind fun _ g₃ h₃ => ?_
      obtain ⟨hok, hg₃⟩ := h₃
      refine Tx.ensures_pure.2 ?_
      rw [hg₃, show g₂.proposals = (records g₂).proposals from rfl, hg₂,
        show g₁.processing = (records g₁).processing from rfl, hg₁]
      refine Working.close (hw.setBoth rfl rfl rfl rfl ⟨rfl, rfl, rfl, rfl, rfl, rfl⟩ hok)
        (hb.congr rfl rfl) ?_
      refine .resolved _ e c (some _) rfl hcase hevent hresulting (fun y hy => ?_)
        fun hy => by cases hy
      obtain rfl := Option.some.inj hy
      exact ⟨rfl, rfl⟩
  | other x' hopen hsame =>
    dsimp only [Ai.finishApproval]
    refine (untouched_require _ _).bind rfl fun _ g₁ hg₁ => ?_
    refine setProcessing_ensures.bind fun _ g₂ hg₂ => ?_
    refine updateProposal_ensures.bind fun _ g₃ h₃ => ?_
    obtain ⟨hok, hg₃⟩ := h₃
    refine Tx.ensures_pure.2 ?_
    rw [hg₃, show g₂.proposals = (records g₂).proposals from rfl, hg₂,
      show g₁.processing = (records g₁).processing from rfl, hg₁]
    refine Working.close (hopen.working.setBoth rfl rfl rfl rfl
      ⟨hsame.id, hsame.rawEventId, hsame.userId, hsame.prompt⟩ hok)
      (hopen.booked.congr rfl rfl) ?_
    exact .approved _ _ rfl rfl

/-- `approve` keeps the invariant. -/
theorem approve_ensures {C : Ai.ProposalConfig} {fresh : FreshIds} {now : Instant}
    {proposalId : Uuid} (h : Invariant (records g)) :
    (Ai.approve C fresh now userId proposalId).Ensures g fun _ g' => Invariant (records g') := by
  unfold Ai.approve
  rw [← bind_assoc]
  refine lockedProposal_ensures.bind fun x g₁ h₁ => ?_
  obtain ⟨hx, huser, hstatus, rfl⟩ := h₁
  obtain ⟨raw, p, hraw, howner, hopen, hstate⟩ := h.waiting hx hstatus
  refine (untouched_sourceForProposal _ _).bind rfl fun source g₂ hg₂ => ?_
  rw [← hg₂] at hopen
  refine lockProcessing_ensures.bind fun p' g₃ h₃ => ?_
  obtain ⟨hp', rfl⟩ := h₃
  rw [hraw] at hp'
  obtain rfl := hopen.working.processing_eq rfl hp'
  rw [Tx.ensures_bind, ensures_ofExcept]
  intro normalized hnormalized
  refine (storeNormalizedEvent_ensures hopen.working.wellFormed.normalizedIds).bind
    fun n g₄ h₄ => ?_
  rw [hraw, ← huser, howner] at h₄
  obtain ⟨hopen, hn⟩ := hopen.normalized h₄
  refine (approveTarget_ensures hopen hn (howner.symm.trans huser)).bind fun result g₅ h₅ => ?_
  exact finishApproval_ensures hstate h₅

/-! ### Review of a case -/

/-- `_require_pending` of a locked case. -/
theorem lockedPending_ensures {caseId : Uuid} :
    (lockCase userId caseId >>= requirePending).Ensures g fun c g' =>
      c ∈ g.cases ∧ c.userId = userId ∧ c.status = .pending ∧ g' = g := by
  unfold lockCase requirePending
  simp only [Tx.ensures_bind, ensures_selectForUpdate, ensures_requireSome, ensures_require,
    Tx.ensures_pure]
  intro c hc hstatus
  have hfound := List.find?_some hc
  simp only [Bool.and_eq_true, beq_iff_eq] at hfound
  exact ⟨List.mem_of_find?_eq_some hc, hfound.2, by simpa using hstatus, trivial⟩

/-- `_require_merged` of a locked case. -/
theorem lockedMerged_ensures {caseId : Uuid} :
    (lockCase userId caseId >>= requireMerged).Ensures g fun c g' =>
      c ∈ g.cases ∧ c.userId = userId ∧ c.status = .merged ∧ g' = g := by
  unfold lockCase requireMerged
  simp only [Tx.ensures_bind, ensures_selectForUpdate, ensures_requireSome, ensures_require,
    Tx.ensures_pure]
  intro c hc hstatus
  have hfound := List.find?_some hc
  simp only [Bool.and_eq_true, beq_iff_eq] at hfound
  exact ⟨List.mem_of_find?_eq_some hc, hfound.2, by simpa using hstatus, trivial⟩

theorem untouched_normalizedForCase (userId : Uuid) (c : ReconciliationCase) :
    Untouched (normalizedForCase userId c) :=
  untouched_bind (untouched_reads _) fun _ => untouched_requireSome _ _

theorem untouched_requireUnlinked (userId : Uuid) (c : ReconciliationCase) :
    Untouched (requireUnlinked userId c) :=
  untouched_bind (untouched_reads _) fun _ => untouched_require _ _

theorem untouched_lockTransaction (userId transactionId : Uuid) :
    Untouched (lockTransaction userId transactionId) :=
  untouched_bind (untouched_selectForUpdate _ _ _ _) fun _ => untouched_requireSome _ _

/-- The proposal a review concerns is the one in the dossier. -/
theorem Working.proposalForRawEvent_ensures {d : Dossier} (h : Working (records g) raw d)
    (hq : d.proposals = q.toList)
    (hstatus : ∀ x ∈ q, x.status = .reconciliationReview ∨ x.status = .approved)
    (huser : raw.userId = userId) :
    (proposalForRawEvent userId raw.id).Ensures g fun found g' => found = q ∧ g' = g := by
  unfold proposalForRawEvent
  rw [ensures_selectForUpdate]
  refine ⟨?_, rfl⟩
  have hd : g.proposals.filter (·.rawEventId == raw.id) = q.toList := by
    rw [← hq, ← h.dossier]
    rfl
  have hsplit : g.proposals.find? (reconcilableProposal userId raw.id) =
      (g.proposals.filter (·.rawEventId == raw.id)).find? fun x => x.userId == userId &&
        (x.status == .reconciliationReview || x.status == .approved) := by
    rw [List.find?_filter]
    congr 1
    funext x
    simp only [reconcilableProposal, Bool.and_assoc, beq_eq_decide, Bool.decide_and,
      Bool.decide_eq_true]
  rw [hsplit, hd]
  cases q with
  | none => rfl
  | some x =>
    have hx := h.proposal_mem (x := x) (by rw [hq]; exact List.mem_singleton_self x)
    have hs := hstatus x rfl
    rw [Option.toList_some, List.find?_cons_of_pos]
    rw [hx.2.2, huser]
    rcases hs with hs | hs <;> rw [hs] <;> simp

theorem updateCase_ensures {c : ReconciliationCase} :
    (updateCase c).Ensures g fun _ g' => records g' = { records g with
      cases := Table.set ReconciliationCase.id c.id (fun _ => c) g.cases } := by
  unfold updateCase
  rw [Tx.ensures_bind, ensures_require]
  exact fun _ => Tx.ensures_modify.2 rfl

/-- The dossier of a source once its case is resolved. -/
structure Completed (S : Records) (raw : RawEvent) (e : Evidence) (c : ReconciliationCase)
    (q : Option FinancialEventProposal) : Prop where
  working : ∃ p, Working S raw ⟨[p], [e], [c], q.toList⟩ ∧ p.state = .processed
  proposal : ∀ x ∈ q, x.status = .approved ∧ x.transactionId = some e.transactionId

/-- `_complete_source`: the source is processed, its proposal approved. -/
theorem completeSource_ensures {e : Evidence} {c : ReconciliationCase}
    (h : Working (records g) raw ⟨[p], [e], [c], q.toList⟩) (hraw : c.rawEventId = raw.id)
    (huser : raw.userId = userId) (hq : ∀ x ∈ q, x.status = .reconciliationReview) :
    (completeSource userId c e.transactionId).Ensures g fun _ g' =>
      (records g').cases = g.cases ∧ (records g').transactions = g.transactions ∧
      ∃ q', (q = none ↔ q' = none) ∧ Completed (records g') raw e c q' := by
  unfold completeSource
  rw [hraw]
  refine lockProcessing_ensures.bind fun p' g₁ h₁ => ?_
  obtain ⟨hp', rfl⟩ := h₁
  obtain rfl := h.processing_eq rfl hp'
  refine (untouched_require _ _).bind rfl fun _ g₂ hg₂ => ?_
  refine (untouched_require _ _).bind hg₂ fun _ g₃ hg₃ => ?_
  refine setProcessing_ensures.bind fun _ g₄ hg₄ => ?_
  rw [show g₃.processing = (records g₃).processing from rfl, hg₃] at hg₄
  have hp := h.processing_mem (p := p') (List.mem_singleton_self p')
  have hw : Working (records g₄) raw
      ⟨[{ p' with state := .processed, lastErrorCode := none }], [e], [c], q.toList⟩ := by
    rw [hg₄]
    exact h.setProcessing rfl hp.1 hp.1 hp.2
  have hcases : (records g₄).cases = (records g₁).cases := by rw [hg₄]
  have htransactions : (records g₄).transactions = (records g₁).transactions := by rw [hg₄]
  refine (hw.proposalForRawEvent_ensures rfl (fun x hx => .inl (hq x hx)) huser).bind
    fun found g₅ h₅ => ?_
  obtain ⟨rfl, rfl⟩ := h₅
  cases found with
  | none =>
    refine Tx.ensures_pure.2 ⟨hcases, htransactions, none, Iff.rfl, ⟨_, hw, rfl⟩, ?_⟩
    exact fun x hx => by cases hx
  | some x =>
    dsimp only [approveProposal]
    refine (untouched_require _ _).bind rfl fun _ g₆ hg₆ => ?_
    refine updateProposal_ensures.mono fun _ g₇ h₇ => ?_
    obtain ⟨hok, hg₇⟩ := h₇
    rw [show g₆.proposals = (records g₆).proposals from rfl, hg₆] at hg₇
    have hx := hw.proposal_mem (x := x) (List.mem_singleton_self x)
    have happroved : Working (records g₇) raw
        ⟨[{ p' with state := .processed, lastErrorCode := none }], [e], [c],
          [{ x with status := .approved, transactionId := some e.transactionId }]⟩ := by
      rw [hg₇]
      exact hw.setProposal rfl rfl hx.2.1 hx.2.1 hx.2.2
        ⟨(hw.wellFormed.proposals_ok x hx.1).prompted, hok⟩
    refine ⟨?_, ?_, some _, by simp, ⟨_, happroved, rfl⟩, ?_⟩
    · rw [hg₇]
      exact hcases
    · rw [hg₇]
      exact htransactions
    · intro y hy
      obtain rfl := Option.some.inj hy
      exact ⟨rfl, rfl⟩

/-- `merge` and `keep_separate` from the evidence on: the case is resolved, its evidence
    names the transaction, and its source is completed. -/
theorem resolveCase_ensures {fresh : FreshIds} {c : ReconciliationCase}
    {status : ReconciliationStatus} {actionType : ReconciliationActionType} {t : Uuid}
    (h : Working (records g) raw ⟨[p], [], [c], q.toList⟩) (huser : raw.userId = userId)
    (hq : ∀ x ∈ q, x.status = .reconciliationReview) :
    (resolveCase fresh userId c status actionType t).Ensures g fun _ g' =>
      ∃ e q', e.transactionId = t ∧ e.normalizedEventId = c.normalizedEventId ∧
        (q = none ↔ q' = none) ∧
        Completed (records g') raw e
          { c with status := status, resultingTransactionId := some t } q' ∧
        (records g').cases = Table.set ReconciliationCase.id c.id
          (fun _ => { c with status := status, resultingTransactionId := some t }) g.cases ∧
        (records g').transactions = g.transactions := by
  unfold resolveCase
  obtain ⟨-, hraw, hcuser, hlinked⟩ := h.case_mem (c := c) (List.mem_singleton_self c)
  refine addEvidence_ensures.bind fun _ g₁ h₁ => ?_
  obtain ⟨e, he, htransaction, hg₁⟩ := h₁
  rw [hraw, ← huser] at he
  have hw : Working (records g₁) raw ⟨[p], [e], [c], q.toList⟩ := by
    rw [hg₁]
    exact h.addEvidence he hlinked
  refine updateCase_ensures.bind fun _ g₂ hg₂ => ?_
  refine (untouched_appendAction _ _ _ _ _ _).bind hg₂ fun _ g₃ hg₃ => ?_
  have hw : Working (records g₃) raw ⟨[p], [e],
      [{ c with status := status, resultingTransactionId := some t }], q.toList⟩ := by
    rw [hg₃]
    refine hw.setCase rfl rfl hraw hraw ?_
    rw [hg₁, hcuser]
    exact hlinked
  rw [← htransaction] at hw ⊢
  refine (completeSource_ensures hw hraw huser hq).bind fun _ g₄ h₄ => ?_
  obtain ⟨hcases, htransactions, q', hnone, hcompleted⟩ := h₄
  refine (untouched_requireView _ _ g₄).mono fun _ g₅ hg₅ => ?_
  rw [hg₅]
  refine ⟨e, q', rfl, he.normalizedEventId, hnone, hcompleted, ?_, ?_⟩
  · rw [hcases, show g₃.cases = (records g₃).cases from rfl, hg₃, htransaction,
      show g₁.cases = (records g₁).cases from rfl, hg₁]
    rfl
  · rw [htransactions, show g₃.transactions = (records g₃).transactions from rfl, hg₃, hg₁]
    rfl

/-- The dossier of a completed source is in a phase. -/
theorem Completed.phase {e : Evidence} {c : ReconciliationCase} {q' : Option FinancialEventProposal}
    (h : Completed S raw e c q') (hb : Booked S) (hcase : c.status ≠ .pending)
    (hevent : e.normalizedEventId = c.normalizedEventId)
    (hresulting : c.resultingTransactionId = some e.transactionId)
    (htext : q' = none → hasText raw = false) : Invariant S := by
  obtain ⟨p, hw, hstate⟩ := h.working
  exact hw.close hb (.resolved p e c q' hstate hcase hevent hresulting h.proposal htext)

/-- A locked pending case, with its dossier. -/
theorem Invariant.pending (h : Invariant S) {c : ReconciliationCase} (hc : c ∈ S.cases)
    (hstatus : c.status = .pending) :
    ∃ raw p q, c.rawEventId = raw.id ∧ c.userId = raw.userId ∧
      Working S raw ⟨[p], [], [c], Option.toList q⟩ ∧ p.state = .needsReview ∧
      (∀ x ∈ q, x.status = .reconciliationReview) ∧ (q = none → hasText raw = false) := by
  have howned := h.wellFormed.linked_owned (h.wellFormed.cases_linked c hc)
  obtain ⟨raw, hraw, hid, huser, hphase⟩ := h.phase_of_owned howned
  have hmem : c ∈ (dossiers S c.rawEventId).cases := List.mem_filter.2 ⟨hc, by simp⟩
  obtain ⟨p, q, hd, hstate, hq, htext⟩ := hphase.of_pending hmem hstatus
  have hw := h.working hraw
  rw [hid, hd] at hw
  exact ⟨raw, p, q, hid.symm, huser.symm, hw, hstate, hq, htext⟩

/-- A locked resolved case, with its dossier. -/
theorem Invariant.resolved (h : Invariant S) {c : ReconciliationCase} (hc : c ∈ S.cases)
    (hstatus : c.status ≠ .pending) :
    ∃ raw p e q, c.rawEventId = raw.id ∧ c.userId = raw.userId ∧
      Working S raw ⟨[p], [e], [c], Option.toList q⟩ ∧ p.state = .processed ∧
      e.normalizedEventId = c.normalizedEventId ∧
      c.resultingTransactionId = some e.transactionId ∧
      (∀ x ∈ q, x.status = .approved ∧ x.transactionId = some e.transactionId) ∧
      (q = none → hasText raw = false) := by
  have howned := h.wellFormed.linked_owned (h.wellFormed.cases_linked c hc)
  obtain ⟨raw, hraw, hid, huser, hphase⟩ := h.phase_of_owned howned
  have hmem : c ∈ (dossiers S c.rawEventId).cases := List.mem_filter.2 ⟨hc, by simp⟩
  obtain ⟨p, e, q, hd, hstate, hevent, hresulting, hq, htext⟩ := hphase.of_resolved hmem hstatus
  have hw := h.working hraw
  rw [hid, hd] at hw
  exact ⟨raw, p, e, q, hid.symm, huser.symm, hw, hstate, hevent, hresulting, hq, htext⟩

/-- `merge` keeps the invariant. -/
theorem merge_ensures {fresh : FreshIds} {caseId : Uuid} (h : Invariant (records g)) :
    (merge fresh userId caseId).Ensures g fun _ g' => Invariant (records g') := by
  unfold merge acquireUserWriteLock
  rw [Tx.ensures_bind, Tx.ensures_acquire, ← bind_assoc]
  refine lockedPending_ensures.bind fun c g₁ h₁ => ?_
  obtain ⟨hc, huser, hstatus, rfl⟩ := h₁
  obtain ⟨raw, p, q, hraw, hcuser, hw, hstate, hq, htext⟩ := h.pending hc hstatus
  refine (untouched_requireSome _ _).bind rfl fun candidateId g₂ hg₂ => ?_
  refine (untouched_normalizedForCase _ _).bind hg₂ fun event g₃ hg₃ => ?_
  refine (untouched_requireSome _ _).bind hg₃ fun transactionType g₄ hg₄ => ?_
  refine (untouched_lockTransaction _ _).bind hg₄ fun candidate g₅ hg₅ => ?_
  refine (untouched_require _ _).bind hg₅ fun _ g₆ hg₆ => ?_
  refine (untouched_requireUnlinked _ _).bind hg₆ fun _ g₇ hg₇ => ?_
  rw [← hg₇] at hw
  refine (resolveCase_ensures hw (hcuser.symm.trans huser) hq).mono fun _ g₈ h₈ => ?_
  obtain ⟨e, q', htarget, hevent, hnone, hcompleted, hcases, htransactions⟩ := h₈
  have hsep : ¬ Separate c := by
    rintro (hs | hs) <;> rw [hstatus] at hs <;> cases hs
  have hid : ({ c with
    status := .merged
    resultingTransactionId := some candidate.id } : ReconciliationCase).id = c.id := rfl
  have hb := h.booked.setCase h.wellFormed.caseIds hc hid hsep
    (by rintro (hs | hs) <;> cases hs)
  refine hcompleted.phase (hb.congr ?_ ?_) (fun hs => by cases hs) hevent (by rw [htarget])
    fun hq' => htext (hnone.2 hq')
  · rw [hcases, show g₇.cases = (records g₇).cases from rfl, hg₇]
  · rw [htransactions, show g₇.transactions = (records g₇).transactions from rfl, hg₇]

/-- `keep_separate` keeps the invariant. -/
theorem keepSeparate_ensures {C : Config} {fresh : FreshIds} {caseId : Uuid}
    (h : Invariant (records g)) :
    (keepSeparate C fresh userId caseId).Ensures g fun _ g' => Invariant (records g') := by
  unfold keepSeparate acquireUserWriteLock
  rw [Tx.ensures_bind, Tx.ensures_acquire, ← bind_assoc]
  refine lockedPending_ensures.bind fun c g₁ h₁ => ?_
  obtain ⟨hc, huser, hstatus, rfl⟩ := h₁
  obtain ⟨raw, p, q, hraw, hcuser, hw, hstate, hq, htext⟩ := h.pending hc hstatus
  refine (untouched_requireUnlinked _ _).bind rfl fun _ g₂ hg₂ => ?_
  refine (untouched_normalizedForCase _ _).bind hg₂ fun event g₃ hg₃ => ?_
  refine transactionCommand_ensures.bind fun command g₄ h₄ => ?_
  obtain ⟨hsource, rfl⟩ := h₄
  refine (createTransaction_ensures hsource).bind fun view g₅ h₅ => ?_
  obtain ⟨t, ht, hview, hg₅⟩ := h₅
  rw [hg₃] at ht
  have hrecords : records g₅ = { records g₁ with
      transactions := (records g₁).transactions ++ [t] } := by
    rw [hg₅, show g₄.transactions = (records g₄).transactions from rfl, hg₃]
  have hw : Working (records g₅) raw ⟨[p], [], [c], q.toList⟩ := by
    rw [hrecords]
    exact hw.addTransaction ht
  refine (resolveCase_ensures hw (hcuser.symm.trans huser) hq).mono fun _ g₆ h₆ => ?_
  obtain ⟨e, q', htarget, hevent, hnone, hcompleted, hcases, htransactions⟩ := h₆
  have hsep : ¬ Separate c := by
    rintro (hs | hs) <;> rw [hstatus] at hs <;> cases hs
  have hid : ({ c with
    status := .keptSeparate
    resultingTransactionId := some view.id } : ReconciliationCase).id = c.id := rfl
  have hb := h.booked.setSeparate h.wellFormed.caseIds ht hc hid hsep (.inl rfl) (by rw [hview])
  refine hcompleted.phase (hb.congr ?_ ?_) (fun hs => by cases hs) hevent (by rw [htarget])
    fun hq' => htext (hnone.2 hq')
  · rw [hcases, show g₅.cases = (records g₅).cases from rfl, hrecords]
  · rw [htransactions, show g₅.transactions = (records g₅).transactions from rfl, hrecords]

/-- The evidence of a resolved case is the one in its dossier. -/
theorem Working.mergedEvidence_eq {d : Dossier} (h : Working (records g) raw d) {e : Evidence}
    (he : d.evidence = [e]) {c : ReconciliationCase} (hraw : c.rawEventId = raw.id)
    {linked : Option Evidence} (hlinked : linked = g.evidence.find? fun e' =>
      e'.normalizedEventId == c.normalizedEventId && e'.rawEventId == c.rawEventId &&
        e'.userId == userId) {e' : Evidence} (hfound : mergedEvidence c linked = some e') :
    e' = e := by
  obtain ⟨hsome, -⟩ := Option.filter_eq_some_iff.1 hfound
  rw [hlinked] at hsome
  have hkeys := List.find?_some hsome
  simp only [Bool.and_eq_true, beq_iff_eq] at hkeys
  have hmem : e' ∈ (dossiers (records g) raw.id).evidence :=
    List.mem_filter.2 ⟨List.mem_of_find?_eq_some hsome, by simp [hkeys.1.2, hraw]⟩
  rw [h.dossier, he] at hmem
  exact List.mem_singleton.1 hmem

theorem updateEvidence_ensures {e : Evidence} :
    (updateEvidence e).Ensures g fun _ g' => records g' = { records g with
      evidence := Table.set Evidence.id e.id (fun _ => e) g.evidence } :=
  Tx.ensures_modify.2 rfl

/-- The proposal of an unmerged source follows its evidence. -/
theorem repointProposal_ensures {e : Evidence} {c : ReconciliationCase}
    (h : Working (records g) raw ⟨[p], [e], [c], q.toList⟩) (hstate : p.state = .processed)
    (hq : ∀ x ∈ q, x.status = .approved) (huser : raw.userId = userId) :
    (proposalForRawEvent userId raw.id >>= repointProposal e.transactionId).Ensures g fun _ g' =>
      (records g').cases = g.cases ∧ (records g').transactions = g.transactions ∧
      ∃ q', (q = none ↔ q' = none) ∧ Completed (records g') raw e c q' := by
  refine (h.proposalForRawEvent_ensures rfl (fun x hx => .inr (hq x hx)) huser).bind
    fun found g₁ h₁ => ?_
  obtain ⟨rfl, rfl⟩ := h₁
  cases found with
  | none =>
    exact Tx.ensures_pure.2 ⟨rfl, rfl, none, Iff.rfl, ⟨p, h, hstate⟩, fun x hx => by cases hx⟩
  | some x =>
    refine updateProposal_ensures.mono fun _ g₂ h₂ => ?_
    obtain ⟨hok, hg₂⟩ := h₂
    have hx := h.proposal_mem (x := x) (List.mem_singleton_self x)
    have hw : Working (records g₂) raw
        ⟨[p], [e], [c], [{ x with transactionId := some e.transactionId }]⟩ := by
      rw [hg₂]
      exact h.setProposal rfl rfl hx.2.1 hx.2.1 hx.2.2
        ⟨(h.wellFormed.proposals_ok x hx.1).prompted, hok⟩
    refine ⟨by rw [hg₂]; rfl, by rw [hg₂]; rfl, some _, by simp, ⟨p, hw, hstate⟩, ?_⟩
    intro y hy
    obtain rfl := Option.some.inj hy
    exact ⟨hq x rfl, rfl⟩

/-- `unmerge` keeps the invariant. -/
theorem unmerge_ensures {C : Config} {fresh : FreshIds} {caseId : Uuid}
    (h : Invariant (records g)) :
    (unmerge C fresh userId caseId).Ensures g fun _ g' => Invariant (records g') := by
  unfold unmerge acquireUserWriteLock
  rw [Tx.ensures_bind, Tx.ensures_acquire, ← bind_assoc]
  refine lockedMerged_ensures.bind fun c g₁ h₁ => ?_
  obtain ⟨hc, huser, hstatus, rfl⟩ := h₁
  obtain ⟨raw, p, e, q, hraw, hcuser, hw, hstate, hevent, -, hq, htext⟩ :=
    h.resolved hc (by rw [hstatus]; exact fun hs => by cases hs)
  unfold evidenceForCase
  rw [Tx.ensures_bind, Tx.ensures_reads, Tx.ensures_bind, ensures_requireSome]
  intro e' hmerged
  obtain rfl := hw.mergedEvidence_eq rfl hraw rfl hmerged
  refine (untouched_normalizedForCase _ _).bind rfl fun event g₃ hg₃ => ?_
  refine transactionCommand_ensures.bind fun command g₄ h₄ => ?_
  obtain ⟨hsource, rfl⟩ := h₄
  refine (createTransaction_ensures hsource).bind fun view g₅ h₅ => ?_
  obtain ⟨t, ht, hview, hg₅⟩ := h₅
  rw [hg₃] at ht
  have hrecords : records g₅ = { records g₁ with
      transactions := (records g₁).transactions ++ [t] } := by
    rw [hg₅, show g₄.transactions = (records g₄).transactions from rfl, hg₃]
  obtain ⟨-, heraw, heuser, helinked⟩ := hw.evidence_mem (e := e') (List.mem_singleton_self e')
  refine updateEvidence_ensures.bind fun _ g₆ hg₆ => ?_
  have hw : Working (records g₆) raw
      ⟨[p], [{ e' with transactionId := view.id }], [c], q.toList⟩ := by
    rw [hg₆, show g₅.evidence = (records g₅).evidence from rfl, hrecords]
    refine (hw.addTransaction ht).setEvidence rfl rfl heraw heraw ?_
    rw [heuser]
    exact helinked
  obtain ⟨-, -, -, hclinked⟩ := hw.case_mem (c := c) (List.mem_singleton_self c)
  refine updateCase_ensures.bind fun _ g₇ hg₇ => ?_
  refine (untouched_appendAction _ _ _ _ _ _).bind hg₇ fun _ g₈ hg₈ => ?_
  have hw : Working (records g₈) raw ⟨[p], [{ e' with transactionId := view.id }],
      [{ c with status := .unmerged, resultingTransactionId := some view.id }], q.toList⟩ := by
    rw [hg₈]
    refine hw.setCase rfl rfl hraw hraw ?_
    rw [hcuser]
    exact hclinked
  rw [hraw, ← bind_assoc]
  refine (repointProposal_ensures hw hstate (fun x hx => (hq x hx).1)
    (hcuser.symm.trans huser)).bind fun _ g₉ h₉ => ?_
  obtain ⟨hcases, htransactions, q', hnone, hcompleted⟩ := h₉
  refine (untouched_requireView _ _ g₉).mono fun _ g₁₀ hg₁₀ => ?_
  rw [hg₁₀]
  have hsep : ¬ Separate c := by
    rintro (hs | hs) <;> rw [hstatus] at hs <;> cases hs
  have hid : ({ c with
    status := .unmerged
    resultingTransactionId := some view.id } : ReconciliationCase).id = c.id := rfl
  have hb := h.booked.setSeparate h.wellFormed.caseIds ht hc hid hsep (.inr rfl) (by rw [hview])
  refine hcompleted.phase (hb.congr ?_ ?_) (fun hs => by cases hs) hevent rfl
    fun hq' => htext (hnone.2 hq')
  · rw [hcases, show g₈.cases = (records g₈).cases from rfl, hg₈,
      show g₆.cases = (records g₆).cases from rfl, hg₆, hrecords]
  · rw [htransactions, show g₈.transactions = (records g₈).transactions from rfl, hg₈, hg₆,
      hrecords]

end Expensea.Reconciliation
