import Expensea.Reconciliation.Operations
import Mathlib.Data.Set.Function

namespace Expensea.Reconciliation

open Txn

/-!
# Runs of the operations

Any sequence of ingestions, extractions and reviews of any owners, each one transaction that
rolls back on an error.

* `Request`, `Reached` — the operations, and the databases a run of them reaches;
* `Reached.invariant` — the lifecycle holds of every one of them;
* `reconciliation_lifecycle`, `no_orphan_no_double_count` — what it says about cases,
  evidence and transactions.
-/

/-- An operation with its arguments; what the provider answers and what the clock shows are
    arguments too. -/
inductive Operation where
  | ingest (connector : Ingestion.Connector) (envelope : Ingestion.ConnectorEnvelope)
      (connectionKey : PyStr)
  | extract (rawEventId : Uuid) (answer : Except String Ai.CompletionData)
  | approve (now : Instant) (proposalId : Uuid)
  | reject (proposalId : Uuid)
  | merge (caseId : Uuid)
  | keepSeparate (caseId : Uuid)
  | unmerge (caseId : Uuid)

/-- An operation that an owner requests, with the identifiers it draws. -/
structure Request where
  userId : Uuid
  fresh : FreshIds
  operation : Operation

/-- The transaction of a request. -/
def Request.transaction (C : Ai.ProposalConfig) (r : Request) : DbTx Unit :=
  match r.operation with
  | .ingest connector envelope connectionKey =>
    (fun _ => ()) <$> Ingestion.ingest C.core r.fresh r.userId connector envelope connectionKey
  | .extract rawEventId answer => (fun _ => ()) <$> Ai.extract C r.fresh r.userId rawEventId answer
  | .approve now proposalId => (fun _ => ()) <$> Ai.approve C r.fresh now r.userId proposalId
  | .reject proposalId => (fun _ => ()) <$> Ai.reject r.userId proposalId
  | .merge caseId => (fun _ => ()) <$> merge r.fresh r.userId caseId
  | .keepSeparate caseId => (fun _ => ()) <$> keepSeparate C.core r.fresh r.userId caseId
  | .unmerge caseId => (fun _ => ()) <$> unmerge C.core r.fresh r.userId caseId

/-- What is ingested comes from a shipped connector. -/
def Request.FromShipped (P : Ingestion.Platform) (r : Request) : Prop :=
  match r.operation with
  | .ingest connector envelope _ => Shipped P connector envelope
  | _ => True

/-- No source events, and nothing that came of them. -/
def NoRecords (g : Db) : Prop := records g = ⟨[], [], [], [], [], [], []⟩

/-- The databases that runs of requests reach from `g₀`. -/
inductive Reached (C : Ai.ProposalConfig) (g₀ : Db) : Db → Prop where
  | init : Reached C g₀ g₀
  | step {g : Db} (h : Reached C g₀ g) (r : Request) (hr : r.FromShipped C.core.platform) :
      Reached C g₀ ((r.transaction C).after g)

/-- Whatever a program ensures holds after it, if its failure would keep it. -/
theorem after_of_ensures {α : Type} {x : DbTx α} {g : Db} {P : Db → Prop} (hg : P g)
    (hx : x.Ensures g fun _ g' => P g') : P (((fun _ => ()) <$> x : DbTx Unit).after g) := by
  unfold Tx.after
  rw [Tx.run_map]
  cases hrun : x.run g with
  | error e => exact hg
  | ok r => exact hx r.1 r.2 hrun

theorem Invariant.of_noRecords {g : Db} (h : NoRecords g) : Invariant (records g) := by
  rw [h]
  constructor
  · constructor <;> simp
  · constructor <;> simp
  · simp

/-- Every operation keeps the lifecycle. -/
theorem Invariant.after {C : Ai.ProposalConfig} {g : Db} (h : Invariant (records g)) {r : Request}
    (hr : r.FromShipped C.core.platform) : Invariant (records ((r.transaction C).after g)) := by
  obtain ⟨userId, fresh, operation⟩ := r
  cases operation with
  | ingest connector envelope connectionKey =>
    exact after_of_ensures (P := fun g => Invariant (records g)) h (ingest_ensures h hr)
  | extract rawEventId answer =>
    exact after_of_ensures (P := fun g => Invariant (records g)) h (extract_ensures h)
  | approve now proposalId =>
    exact after_of_ensures (P := fun g => Invariant (records g)) h (approve_ensures h)
  | reject proposalId =>
    exact after_of_ensures (P := fun g => Invariant (records g)) h (reject_ensures h)
  | merge caseId =>
    exact after_of_ensures (P := fun g => Invariant (records g)) h (merge_ensures h)
  | keepSeparate caseId =>
    exact after_of_ensures (P := fun g => Invariant (records g)) h (keepSeparate_ensures h)
  | unmerge caseId =>
    exact after_of_ensures (P := fun g => Invariant (records g)) h (unmerge_ensures h)

variable {C : Ai.ProposalConfig} {g₀ g : Db}

/-- The lifecycle holds of every database a run reaches. -/
theorem Reached.invariant (hempty : NoRecords g₀) (h : Reached C g₀ g) :
    Invariant (records g) := by
  induction h with
  | init => exact .of_noRecords hempty
  | step _ r hr ih => exact ih.after hr

/-! ### Rows and dossiers -/

/-- The evidence of a case's event is in the dossier of its raw event. -/
theorem WellFormed.evidence_of_case {S : Records} (h : WellFormed S) {c : ReconciliationCase}
    (hc : c ∈ S.cases) {e : Evidence} (he : e ∈ S.evidence)
    (hevent : e.normalizedEventId = c.normalizedEventId) : e.rawEventId = c.rawEventId :=
  (h.linked_unique (hevent ▸ h.evidence_linked e he) (h.cases_linked c hc)).1

/-- If the dossier of a case has the evidence of its event, that is the evidence of the
    event. -/
theorem WellFormed.filter_evidence {S : Records} (h : WellFormed S) {c : ReconciliationCase}
    (hc : c ∈ S.cases)
    (hall : ∀ e ∈ (dossiers S c.rawEventId).evidence,
      e.normalizedEventId = c.normalizedEventId) :
    S.evidence.filter (·.normalizedEventId == c.normalizedEventId) =
      (dossiers S c.rawEventId).evidence := by
  refine List.filter_congr fun e he => ?_
  by_cases hevent : e.normalizedEventId = c.normalizedEventId
  · simp [hevent, h.evidence_of_case hc he hevent]
  · have hraw : e.rawEventId ≠ c.rawEventId := fun hraw =>
      hevent (hall e (List.mem_filter.2 ⟨he, by simp [hraw]⟩))
    simp [hevent, hraw]

/-- A dossier has at most one piece of evidence. -/
theorem Phase.evidence_length {text : Bool} {d : Dossier} (h : Phase text d) :
    d.evidence.length ≤ 1 := by
  cases h <;> simp

/-! ### What the lifecycle says -/

/-- **The reconciliation lifecycle.**  From a database without records, after any run: a
    pending case has no evidence for its event, its raw event needs review, and the proposal
    of its raw event, if any, waits for the reconciliation without a target; any other case
    has one piece of evidence for its event, which names the transaction of the case, its raw
    event is processed, and the proposal of its raw event, if any, is approved with that
    transaction. -/
theorem reconciliation_lifecycle (hempty : NoRecords g₀) (hg : Reached C g₀ g) :
    ∀ c ∈ g.cases,
      (c.status = .pending →
        g.evidence.filter (·.normalizedEventId == c.normalizedEventId) = [] ∧
        (∃ p, g.processing.filter (·.rawEventId == c.rawEventId) = [p] ∧
          p.state = .needsReview) ∧
        ∀ x ∈ g.proposals, x.rawEventId = c.rawEventId →
          x.status = .reconciliationReview ∧ x.targetCount = 0) ∧
      (c.status ≠ .pending →
        ∃ e, g.evidence.filter (·.normalizedEventId == c.normalizedEventId) = [e] ∧
          c.resultingTransactionId = some e.transactionId ∧
          (∃ p, g.processing.filter (·.rawEventId == c.rawEventId) = [p] ∧
            p.state = .processed) ∧
          ∀ x ∈ g.proposals, x.rawEventId = c.rawEventId →
            x.status = .approved ∧ x.transactionId = some e.transactionId) := by
  intro c hc
  have h := hg.invariant hempty
  have hwf := h.wellFormed
  have hdossier : ∀ {x : FinancialEventProposal}, x ∈ g.proposals →
      x.rawEventId = c.rawEventId → x ∈ (dossiers (records g) c.rawEventId).proposals :=
    fun hx hraw => List.mem_filter.2 ⟨hx, by simp [hraw]⟩
  constructor
  · intro hstatus
    obtain ⟨raw, p, q, hraw, -, hw, hstate, hq, -⟩ := h.pending hc hstatus
    have hd := hw.dossier
    rw [← hraw] at hd
    refine ⟨?_, ⟨p, congrArg Dossier.processing hd, hstate⟩, fun x hx hxraw => ?_⟩
    · rw [show g.evidence = (records g).evidence from rfl, hwf.filter_evidence hc, hd]
      rw [hd]
      simp
    · have hx' := hdossier hx hxraw
      rw [hd] at hx'
      have hstatus := hq x (by simpa using hx')
      have hok := (hwf.proposals_ok x hx).target
      rw [FinancialEventProposal.approvedHasCanonicalTarget, hstatus] at hok
      exact ⟨hstatus, by simpa using hok⟩
  · intro hstatus
    obtain ⟨raw, p, e, q, hraw, -, hw, hstate, hevent, hresulting, hq, -⟩ := h.resolved hc hstatus
    have hd := hw.dossier
    rw [← hraw] at hd
    refine ⟨e, ?_, hresulting, ⟨p, congrArg Dossier.processing hd, hstate⟩, fun x hx hxraw => ?_⟩
    · rw [show g.evidence = (records g).evidence from rfl, hwf.filter_evidence hc, hd]
      rw [hd]
      simpa using hevent
    · have hx' := hdossier hx hxraw
      rw [hd] at hx'
      exact hq x (by simpa using hx')

/-- A transaction has the case that created it, whose evidence names it. -/
theorem Invariant.evidence_of_transaction {S : Records} (h : Invariant S) {t : LedgerTransaction}
    (ht : t ∈ S.transactions) : ∃ e ∈ S.evidence, e.transactionId = t.id := by
  obtain ⟨-, c, hc, hsep, hresulting⟩ := h.booked.ingested t ht
  have hstatus : c.status ≠ .pending := by
    rcases hsep with hs | hs <;> rw [hs] <;> exact fun h => by cases h
  obtain ⟨raw, p, e, q, -, -, hw, -, -, hresulting', -⟩ := h.resolved hc hstatus
  have he := (hw.evidence_mem (e := e) (List.mem_singleton_self e)).1
  rw [hresulting] at hresulting'
  exact ⟨e, he, (Option.some.inj hresulting').symm⟩

/-- The evidence of one raw event is at most one row. -/
theorem Invariant.evidence_of_raw {S : Records} (h : Invariant S) (r : Uuid) :
    (S.evidence.filter (·.rawEventId == r)).length ≤ 1 := by
  cases hrows : S.evidence.filter (·.rawEventId == r) with
  | nil => exact Nat.zero_le 1
  | cons e rest =>
    have he : e ∈ S.evidence.filter (·.rawEventId == r) := hrows ▸ List.mem_cons_self
    obtain ⟨hmem, hraw⟩ := List.mem_filter.1 he
    have howned := h.wellFormed.linked_owned (h.wellFormed.evidence_linked e hmem)
    obtain ⟨raw, -, hid, -, hphase⟩ := h.phase_of_owned howned
    rw [show e.rawEventId = r by simpa using hraw] at hphase
    have hone := hphase.evidence_length
    rw [show (dossiers S r).evidence = e :: rest from hrows] at hone
    exact hone

/-- **No orphan and no double count.**  From a database without records, after any run:
    every transaction of ingestion has evidence; a raw event has at most one piece of
    evidence; and the cases that were kept separate or unmerged correspond one to one to the
    transactions of ingestion. -/
theorem no_orphan_no_double_count (hempty : NoRecords g₀) (hg : Reached C g₀ g) :
    (∀ t ∈ g.transactions, t.source = .ingestion → ∃ e ∈ g.evidence, e.transactionId = t.id) ∧
    (∀ r, (g.evidence.filter (·.rawEventId == r)).length ≤ 1) ∧
    (∀ c ∈ g.cases, c.status = .keptSeparate ∨ c.status = .unmerged →
      ∃! t, t ∈ g.transactions ∧ t.source = .ingestion ∧ c.resultingTransactionId = some t.id) ∧
    (∀ t ∈ g.transactions, t.source = .ingestion →
      ∃! c, c ∈ g.cases ∧ (c.status = .keptSeparate ∨ c.status = .unmerged) ∧
        c.resultingTransactionId = some t.id) := by
  have h := hg.invariant hempty
  refine ⟨fun t ht _ => h.evidence_of_transaction ht, h.evidence_of_raw, ?_, ?_⟩
  · intro c hc hsep
    obtain ⟨t, ht, hresulting⟩ := h.booked.posted c hc hsep
    refine ⟨t, ⟨ht, (h.booked.ingested t ht).1, hresulting⟩, ?_⟩
    rintro t' ⟨ht', -, hresulting'⟩
    rw [hresulting] at hresulting'
    exact List.inj_on_of_nodup_map h.wellFormed.transactionIds ht' ht
      (Option.some.inj hresulting').symm
  · intro t ht _
    obtain ⟨-, c, hc, hsep, hresulting⟩ := h.booked.ingested t ht
    refine ⟨c, ⟨hc, hsep, hresulting⟩, ?_⟩
    rintro c' ⟨hc', hsep', hresulting'⟩
    exact h.booked.distinct c' hc' c hc hsep' hsep (hresulting'.trans hresulting.symm)

/-! ### A document of two rows -/

/-- A platform that reads every time as the same noon and hashes to the first characters. -/
def samplePlatform : Ingestion.Platform where
  unicode := .plain
  sha256 := fun text => text.take 64
  isoformat := fun _ => py "2026-01-01T12:00:00Z"
  parseDatetime := fun _ => some ⟨63902865600000000, some 0⟩
  uuidText := fun _ => py "0"
  distinctOrder := id
  zones := ⟨fun _ => true, fun _ _ => 0⟩

/-- The default policy on that platform. -/
def sampleConfig : Ai.ProposalConfig := ⟨⟨samplePlatform, .default⟩, ⟨2000, 1⟩⟩

/-- Tea, bought twice. -/
def sampleDocument : PyStr :=
  py ("external_id,event_kind,amount,currency,description,occurred_at\n" ++
    "a,expense,10,EUR,tea,noon\nb,expense,10,EUR,tea,noon\n")

/-- The envelopes of the document. -/
def sampleEvents : List Ingestion.ConnectorEnvelope :=
  match Connectors.parseCsvDocument samplePlatform sampleDocument with
  | .ok events => events
  | .error _ => []

/-- A store with one owner. -/
def sampleStore : Db := { Db.empty 0 with users := [⟨1, py "UTC", py "EUR"⟩] }

theorem sampleStore_noRecords : NoRecords sampleStore := rfl

/-- The identifiers of the `n`-th request. -/
def sampleIds (n : Uuid) : FreshIds := ⟨n, n, n, n, n, n, n, n, n, n, n, n⟩

/-- The `n`-th request of the owner. -/
def sampleRequest (n : Uuid) (operation : Operation) : Request := ⟨1, sampleIds n, operation⟩

/-- The ingestion of a row. -/
def sampleIngest (n : Uuid) (envelope : Ingestion.ConnectorEnvelope) : Request :=
  sampleRequest n (.ingest (Connectors.csvConnector .plain sampleEvents) envelope (py "bank"))

/-- The store after the ingestion of every row: the second one is a possible duplicate. -/
def sampleImported : Db :=
  (sampleEvents.zipIdx 2).foldl (fun g e =>
    ((sampleIngest e.2 e.1).transaction sampleConfig).after g) sampleStore

/-- The store after the duplicate was merged and unmerged. -/
def sampleUnmerged : Db :=
  ((sampleRequest 5 (.unmerge 3)).transaction sampleConfig).after
    (((sampleRequest 4 (.merge 3)).transaction sampleConfig).after sampleImported)

theorem sampleDocument_parsed :
    Connectors.parseCsvDocument samplePlatform sampleDocument = .ok sampleEvents := by
  have hok : (Connectors.parseCsvDocument samplePlatform sampleDocument).isOk = true := by
    decide +kernel
  unfold sampleEvents
  cases hparse : Connectors.parseCsvDocument samplePlatform sampleDocument with
  | error e =>
    rw [hparse] at hok
    cases hok
  | ok events => rfl

/-- The rows of the document are ingested by a run. -/
theorem sampleImported_reached : Reached sampleConfig sampleStore sampleImported := by
  have hall : ∀ (events : List (Ingestion.ConnectorEnvelope × Uuid)) (g : Db),
      (∀ e ∈ events, e.1 ∈ sampleEvents) → Reached sampleConfig sampleStore g →
      Reached sampleConfig sampleStore (events.foldl (fun g e =>
        ((sampleIngest e.2 e.1).transaction sampleConfig).after g) g) := by
    intro events
    induction events with
    | nil => exact fun g _ hg => hg
    | cons e events ih =>
      intro g hevents hg
      refine ih _ (fun e' he' => hevents e' (List.mem_cons_of_mem _ he')) ?_
      exact hg.step _ (Shipped.csv sampleDocument_parsed (hevents e List.mem_cons_self))
  refine hall _ _ (fun e he => ?_) .init
  have hmem := List.mem_map_of_mem (f := Prod.fst) he
  rwa [List.zipIdx_map_fst] at hmem

/-- The second row waits for review: one of the runs of `reconciliation_lifecycle`. -/
theorem reconciliation_lifecycle_imported :
    sampleImported.cases.map ReconciliationCase.status = [.keptSeparate, .pending] ∧
    ∀ c ∈ sampleImported.cases, c.status = .pending →
      sampleImported.evidence.filter (·.normalizedEventId == c.normalizedEventId) = [] :=
  ⟨by decide +kernel, fun c hc hstatus =>
    ((reconciliation_lifecycle sampleStore_noRecords sampleImported_reached c hc).1 hstatus).1⟩

/-- The duplicate was merged and unmerged: one of the runs of `no_orphan_no_double_count`. -/
theorem no_orphan_no_double_count_unmerged :
    sampleUnmerged.cases.map ReconciliationCase.status = [.keptSeparate, .unmerged] ∧
    sampleUnmerged.transactions.length = 2 ∧
    ∀ t ∈ sampleUnmerged.transactions, t.source = .ingestion →
      ∃ e ∈ sampleUnmerged.evidence, e.transactionId = t.id := by
  refine ⟨by decide +kernel, by decide +kernel, ?_⟩
  have hmerged := sampleImported_reached.step (sampleRequest 4 (.merge 3)) trivial
  exact (no_orphan_no_double_count sampleStore_noRecords
    (hmerged.step (sampleRequest 5 (.unmerge 3)) trivial)).1

end Expensea.Reconciliation
