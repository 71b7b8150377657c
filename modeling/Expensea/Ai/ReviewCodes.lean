import Expensea.Ai.Writes
import Expensea.Reconciliation.Operations

namespace Expensea.Ai

open Txn Txn.Discipline
open Txn.Tx (reads modify acquire)

/-!
# Error codes of a reviewed event

Extractions, approvals and rejections of a note's raw event, run by any number of sessions.
An extraction waits for the model between its first look at the proposals and the
transaction that records its answer, and that transaction writes the event's error code
whatever a review decided meanwhile.

* `ReviewRequest` — the calls, and the transaction each runs;
* `ReviewDid` — what the commit of a call does to proposals and processing states;
* `codes_match_unless_late` — the error code matches the state in every run whose
  extractions are recorded in time;
* `codes_do_not_match` — and a late one that breaks it.
-/

/-- A call on a raw event or on a proposal. -/
inductive ReviewRequest where
  | extract (fresh : FreshIds) (userId rawEventId : Uuid) (answer : Except String CompletionData)
  | approve (fresh : FreshIds) (now : Instant) (userId proposalId : Uuid)
  | reject (userId proposalId : Uuid)

/-- What the commit of a call tells. -/
inductive ReviewResult where
  | shown (view : FinancialEventProposalView)
  | extracted (rawEventId : Uuid) (outcome : ExtractOutcome)
  | approved (proposalId : Uuid)
  | rejected (proposalId : Uuid)
  deriving DecidableEq

variable (C : ProposalConfig)

/-- The transaction of a call.  An extraction also tells whether its answer was recorded. -/
def ReviewRequest.program : ReviewRequest → DbTx ReviewResult
  | .extract fresh userId rawEventId answer => do
    let existing ← existingForPrompt userId rawEventId
    match existing with
    | some view => pure (.shown view)
    | none => do
      let outcome ← extractNew C fresh userId rawEventId answer
      pure (.extracted rawEventId outcome)
  | .approve fresh now userId proposalId => do
    let _ ← Ai.approve C fresh now userId proposalId
    pure (.approved proposalId)
  | .reject userId proposalId => do
    let _ ← Ai.reject userId proposalId
    pure (.rejected proposalId)

/-- What an extraction answers. -/
def ReviewResult.answer : ReviewResult → Option ExtractOutcome
  | .shown view => some (.ok view)
  | .extracted _ outcome => some outcome
  | _ => none

/-- The call of an extraction is `extract_raw_event`. -/
theorem program_extract (fresh : FreshIds) (userId rawEventId : Uuid)
    (answer : Except String CompletionData) :
    ReviewResult.answer <$> (ReviewRequest.extract fresh userId rawEventId answer).program C =
      some <$> extract C fresh userId rawEventId answer := by
  rw [ReviewRequest.program, extract, map_bind, map_bind]
  refine congrArg _ (funext fun existing => ?_)
  cases existing with
  | some view => rfl
  | none =>
    show ReviewResult.answer <$> (extractNew C fresh userId rawEventId answer >>= fun outcome =>
      pure (.extracted rawEventId outcome)) = _
    rw [map_bind, map_eq_pure_bind]
    rfl

/-! ### What a call does -/

/-- The proposal of an identifier. -/
def proposalOf (id : Uuid) (g : Db) : Option FinancialEventProposal :=
  Table.get FinancialEventProposal.id id g.proposals

/-- The processing state of a raw event. -/
def processingAt (rawEventId : Uuid) (g : Db) : Option RawEventProcessing :=
  Table.get RawEventProcessing.rawEventId rawEventId g.processing

/-- The unique key of a raw event's proposal under the current prompt. -/
def promptKey (rawEventId : Uuid) : Lock :=
  .key .proposals [rawEventId] [py PROMPT_NAME, py PROMPT_VERSION, py SCHEMA_VERSION]

/-- The raw event has no proposal. -/
def Unprompted (rawEventId : Uuid) (g : Db) : Prop :=
  ∀ p ∈ g.proposals, p.rawEventId ≠ rawEventId

/-- The error code an extraction leaves. -/
def ExtractOutcome.errorCode : ExtractOutcome → Option String
  | .ok _ => none
  | .error code => some code

/-- How a review of the proposal `p` of an event in state `row` ends. -/
inductive Ending (row : RawEventProcessing) (p' : FinancialEventProposal) :
    RawEventProcessing → ReviewResult → Prop
  | rejected (id : Uuid) (h : p'.status = .rejected) :
      Ending row p' { row with lastErrorCode := some "USER_REJECTED" } (.rejected id)
  | approved (id : Uuid) (h : p'.status = .approved) :
      Ending row p' { row with state := .processed, lastErrorCode := none } (.approved id)
  | waiting (id : Uuid) (h : p'.status = .reconciliationReview) :
      Ending row p' { row with lastErrorCode := some "POSSIBLE_DUPLICATE" } (.approved id)

/-- What a recorded extraction does: the error code is set, and a proposal may be new. -/
structure Records (rawEventId : Uuid) (outcome : ExtractOutcome) (g g' : Db) : Prop where
  processing : ∃ row, processingAt rawEventId g = some row ∧
    g'.processing = Table.set RawEventProcessing.rawEventId rawEventId
      (fun _ => { row with lastErrorCode := ExtractOutcome.errorCode outcome }) g.processing
  proposals : g'.proposals = g.proposals ∨ ∃ p, p.rawEventId = rawEventId ∧
    p.status = .needsReview ∧ g'.proposals = g.proposals ++ [p]

/-- What a review of a pending proposal does. -/
structure Reviews (o : ReviewResult) (proposalId : Uuid) (g g' : Db) : Prop where
  done : ∃ p row p' row', proposalOf proposalId g = some p ∧ p.status = .needsReview ∧
    processingAt p.rawEventId g = some row ∧ SameProposal p p' ∧ Ending row p' row' o ∧
    g'.proposals = Table.set FinancialEventProposal.id proposalId (fun _ => p') g.proposals ∧
    g'.processing = Table.set RawEventProcessing.rawEventId p.rawEventId (fun _ => row')
      g.processing

/-- What the commit of a call does to proposals and processing states. -/
def ReviewResult.Effect (g g' : Db) : ReviewResult → Prop
  | .shown _ => g'.proposals = g.proposals ∧ g'.processing = g.processing
  | .extracted rawEventId outcome => Records rawEventId outcome g g'
  | .approved proposalId => Reviews (.approved proposalId) proposalId g g'
  | .rejected proposalId => Reviews (.rejected proposalId) proposalId g g'

/-- What holds of the committed proposals: the keys are distinct, and those of the raw event
    `r` are of the current prompt. -/
structure ReviewInv (r : Uuid) (g : Db) : Prop where
  proposalIds : (g.proposals.map FinancialEventProposal.id).Nodup
  processingIds : (g.processing.map RawEventProcessing.rawEventId).Nodup
  prompts : ∀ p ∈ g.proposals, p.rawEventId = r →
    prompted r PROMPT_NAME PROMPT_VERSION SCHEMA_VERSION p = true
  single : ∀ p ∈ g.proposals, ∀ q ∈ g.proposals, p.rawEventId = r → q.rawEventId = r → p = q

/-- The commit of a call under the locks `h`: rows and keys that are not locked stay. -/
structure ReviewDid (r : Uuid) (h : List Lock) (o : ReviewResult) (g g' : Db) : Prop where
  proposals : ∀ id, .row .proposals id ∉ h → proposalOf id g' = proposalOf id g
  processing : ∀ id, .row .processing id ∉ h → processingAt id g' = processingAt id g
  born : promptKey r ∉ h → Unprompted r g → Unprompted r g'
  effect : o.Effect g g'

/-- What a session relies on: locked rows and keys stay. -/
structure ReviewRelies (r : Uuid) (h : List Lock) (g g' : Db) : Prop where
  proposals : ∀ id, .row .proposals id ∈ h → proposalOf id g' = proposalOf id g
  processing : ∀ id, .row .processing id ∈ h → processingAt id g' = processingAt id g
  born : promptKey r ∈ h → Unprompted r g → Unprompted r g'

/-- Other requests leave proposals and processing states alone. -/
structure ReviewOthers (g g' : Db) : Prop where
  proposals : g'.proposals = g.proposals
  processing : g'.processing = g.processing

/-- The locking discipline of reviews, for a raw event. -/
def reviewDiscipline (r : Uuid) : Discipline Db Lock AppError ReviewResult where
  inv := ReviewInv r
  post h o g g' := ReviewDid r h o g g'
  rely := ReviewRelies r
  env := ReviewOthers
  rely_refl _ _ := ⟨fun _ _ => rfl, fun _ _ => rfl, fun _ hu => hu⟩
  rely_trans _ _ _ _ h₁ h₂ := ⟨fun id hl => (h₂.proposals id hl).trans (h₁.proposals id hl),
    fun id hl => (h₂.processing id hl).trans (h₁.processing id hl),
    fun hl hu => h₂.born hl (h₁.born hl hu)⟩
  post_rely _ _ _ _ _ _ _ hdisj hdid := ⟨
    fun id hl => hdid.proposals id fun hl' => hdisj _ hl' hl,
    fun id hl => hdid.processing id fun hl' => hdisj _ hl' hl,
    fun hl => hdid.born fun hl' => hdisj _ hl' hl⟩
  env_inv := by
    rintro g g' hg ⟨hproposals, hprocessing⟩
    constructor
    · rw [hproposals]
      exact hg.proposalIds
    · rw [hprocessing]
      exact hg.processingIds
    · rw [hproposals]
      exact hg.prompts
    · rw [hproposals]
      exact hg.single
  env_rely := by
    rintro h g g' - ⟨hproposals, hprocessing⟩
    refine ⟨fun id _ => ?_, fun id _ => ?_, fun _ hu => ?_⟩
    · rw [proposalOf, hproposals, proposalOf]
    · rw [processingAt, hprocessing, processingAt]
    · rw [Unprompted, hproposals]
      exact hu

/-! ### Commits -/

section Commits

variable {r proposalId rawEventId : Uuid} {h : List Lock} {g g' : Db}

/-- Replacing one row keeps the others where they are. -/
theorem processingAt_set {id : Uuid} (row : RawEventProcessing) (hkey : row.rawEventId = rawEventId)
    (hne : id ≠ rawEventId) (hprocessing : g'.processing =
      Table.set RawEventProcessing.rawEventId rawEventId (fun _ => row) g.processing) :
    processingAt id g' = processingAt id g := by
  rw [processingAt, hprocessing, Table.get_set_of_ne hne.symm fun _ _ => hkey]
  rfl

theorem nodup_processing_set (hg : ReviewInv r g) (row : RawEventProcessing)
    (hkey : row.rawEventId = rawEventId) (hprocessing : g'.processing =
      Table.set RawEventProcessing.rawEventId rawEventId (fun _ => row) g.processing) :
    (g'.processing.map RawEventProcessing.rawEventId).Nodup := by
  rw [hprocessing, ← hkey, Table.map_key_set_const]
  exact hg.processingIds

/-- A call that changes neither proposals nor processing states. -/
theorem shown_commit (hg : ReviewInv r g) (view : FinancialEventProposalView) :
    ReviewInv r g ∧ ReviewDid r h (.shown view) g g :=
  ⟨hg, fun _ _ => rfl, fun _ _ => rfl, fun _ hu => hu, rfl, rfl⟩

/-- The review of a locked proposal of a locked event. -/
theorem reviews_commit (hg : ReviewInv r g) {o : ReviewResult}
    {p : FinancialEventProposal} (p' : FinancialEventProposal) {row row' : RawEventProcessing}
    (hp : proposalOf proposalId g = some p) (hpending : p.status = .needsReview)
    (hrow : processingAt p.rawEventId g = some row) (hsame : SameProposal p p')
    (hending : Ending row p' row' o)
    (hproposals : g'.proposals =
      Table.set FinancialEventProposal.id proposalId (fun _ => p') g.proposals)
    (hprocessing : g'.processing =
      Table.set RawEventProcessing.rawEventId p.rawEventId (fun _ => row') g.processing)
    (hlock : .row .proposals proposalId ∈ h) (hlock' : .row .processing p.rawEventId ∈ h)
    (heffect : Reviews o proposalId g g' → o.Effect g g') :
    ReviewInv r g' ∧ ReviewDid r h o g g' := by
  have hpid : p.id = proposalId := Table.key_of_get hp
  have hpid' : p'.id = proposalId := hsame.id.trans hpid
  have hrowid : row'.rawEventId = p.rawEventId := by
    have hrowid : row.rawEventId = p.rawEventId := Table.key_of_get hrow
    cases hending <;> exact hrowid
  -- every row of the new table is an old one, or the new one in place of the old one
  have hmem : ∀ q ∈ g'.proposals, ∃ q₀ ∈ g.proposals, SameProposal q₀ q ∧
      q = if q₀.id = proposalId then p' else q₀ := by
    intro q hq
    rw [hproposals] at hq
    obtain ⟨q₀, hq₀, rfl⟩ := Table.mem_set.1 hq
    refine ⟨q₀, hq₀, ?_, rfl⟩
    by_cases hid : q₀.id = proposalId
    · rw [if_pos hid]
      have hq₀p : q₀ = p := List.inj_on_of_nodup_map hg.proposalIds hq₀ (Table.mem_of_get hp)
        (hid.trans hpid.symm)
      rw [hq₀p]
      exact hsame
    · rw [if_neg hid]
      exact ⟨rfl, rfl, rfl, rfl, rfl⟩
  refine ⟨⟨?_, nodup_processing_set hg row' hrowid hprocessing, ?_, ?_⟩, ?_, ?_, ?_, ?_⟩
  · rw [hproposals, ← hpid', Table.map_key_set_const]
    exact hg.proposalIds
  · intro q hq hraw
    obtain ⟨q₀, hq₀, hsame₀, -⟩ := hmem q hq
    rw [hsame₀.prompted]
    exact hg.prompts q₀ hq₀ (hsame₀.rawEventId.symm.trans hraw)
  · intro q₁ hq₁ q₂ hq₂ hraw₁ hraw₂
    obtain ⟨a₁, ha₁, hsame₁, he₁⟩ := hmem q₁ hq₁
    obtain ⟨a₂, ha₂, hsame₂, he₂⟩ := hmem q₂ hq₂
    have ha : a₁ = a₂ := hg.single a₁ ha₁ a₂ ha₂ (hsame₁.rawEventId.symm.trans hraw₁)
      (hsame₂.rawEventId.symm.trans hraw₂)
    rw [he₁, he₂, ha]
  · intro id hid
    have hne : proposalId ≠ id := fun he => hid (he ▸ hlock)
    rw [proposalOf, hproposals, Table.get_set_of_ne hne fun _ _ => hpid']
    rfl
  · intro id hid
    exact processingAt_set row' hrowid (fun he => hid (he ▸ hlock')) hprocessing
  · intro _ hu q hq
    obtain ⟨q₀, hq₀, hsame₀, -⟩ := hmem q hq
    rw [hsame₀.rawEventId]
    exact hu q₀ hq₀
  · exact heffect ⟨p, row, p', row', hp, hpending, hrow, hsame, hending, hproposals, hprocessing⟩

/-- A proposal that an extraction may insert under the locks `h`. -/
structure Born (r rawEventId : Uuid) (h : List Lock) (g : Db) (p : FinancialEventProposal) :
    Prop where
  source : p.rawEventId = rawEventId
  status : p.status = .needsReview
  prompt : prompted rawEventId PROMPT_NAME PROMPT_VERSION SCHEMA_VERSION p = true
  fresh : proposalOf p.id g = none
  unprompted : rawEventId = r → Unprompted r g
  rowLock : .row .proposals p.id ∈ h
  keyLock : promptKey rawEventId ∈ h

theorem Born.proposalIds {p : FinancialEventProposal} (hborn : Born r rawEventId h g p)
    (hg : ReviewInv r g) : ((g.proposals ++ [p]).map FinancialEventProposal.id).Nodup :=
  Table.nodup_append_one hg.proposalIds (Table.get_eq_none_iff.1 hborn.fresh)

/-- A new proposal keeps the invariant. -/
theorem Born.inv {p : FinancialEventProposal} (hborn : Born r rawEventId h g p)
    (hg : ReviewInv r g) (hproposals : g'.proposals = g.proposals ++ [p])
    (hprocessing : (g'.processing.map RawEventProcessing.rawEventId).Nodup) : ReviewInv r g' where
  proposalIds := by
    rw [hproposals]
    exact hborn.proposalIds hg
  processingIds := hprocessing
  prompts := by
    intro q hq hraw
    rw [hproposals] at hq
    rcases List.mem_append.1 hq with hq | hq
    · exact hg.prompts q hq hraw
    · rw [List.mem_singleton.1 hq] at hraw ⊢
      rw [← hraw, hborn.source]
      exact hborn.prompt
  single := by
    -- beside a new proposal of the event there is no other
    have halone : ∀ q ∈ g.proposals, q.rawEventId = r → p.rawEventId = r → False :=
      fun q hq hqr hpr => hborn.unprompted (hborn.source.symm.trans hpr) q hq hqr
    intro q₁ hq₁ q₂ hq₂ hraw₁ hraw₂
    rw [hproposals] at hq₁ hq₂
    rcases List.mem_append.1 hq₁ with hq₁ | hq₁
    · rcases List.mem_append.1 hq₂ with hq₂ | hq₂
      · exact hg.single q₁ hq₁ q₂ hq₂ hraw₁ hraw₂
      · rw [List.mem_singleton.1 hq₂] at hraw₂
        exact (halone q₁ hq₁ hraw₁ hraw₂).elim
    · rw [List.mem_singleton.1 hq₁] at hraw₁ ⊢
      rcases List.mem_append.1 hq₂ with hq₂ | hq₂
      · exact (halone q₂ hq₂ hraw₂ hraw₁).elim
      · exact (List.mem_singleton.1 hq₂).symm

/-- A recorded extraction, with the event's processing state locked. -/
theorem records_commit (hg : ReviewInv r g) {outcome : ExtractOutcome} {row : RawEventProcessing}
    (hrow : processingAt rawEventId g = some row)
    (hprocessing : g'.processing = Table.set RawEventProcessing.rawEventId rawEventId
      (fun _ => { row with lastErrorCode := ExtractOutcome.errorCode outcome }) g.processing)
    (hlock : .row .processing rawEventId ∈ h)
    (hproposals : g'.proposals = g.proposals ∨
      ∃ p, Born r rawEventId h g p ∧ g'.proposals = g.proposals ++ [p]) :
    ReviewInv r g' ∧ ReviewDid r h (.extracted rawEventId outcome) g g' := by
  have hrowid : row.rawEventId = rawEventId := Table.key_of_get hrow
  have hnodup := nodup_processing_set hg
    { row with lastErrorCode := ExtractOutcome.errorCode outcome } hrowid hprocessing
  have hother : ∀ id, .row .processing id ∉ h → processingAt id g' = processingAt id g :=
    fun id hid => processingAt_set
      { row with lastErrorCode := ExtractOutcome.errorCode outcome } hrowid
      (fun he => hid (he ▸ hlock)) hprocessing
  rcases hproposals with hproposals | ⟨p, hborn, hproposals⟩
  · refine ⟨⟨?_, hnodup, ?_, ?_⟩, ?_, hother, ?_, ⟨⟨row, hrow, hprocessing⟩, .inl hproposals⟩⟩
    · rw [hproposals]
      exact hg.proposalIds
    · rw [hproposals]
      exact hg.prompts
    · rw [hproposals]
      exact hg.single
    · intro id _
      rw [proposalOf, hproposals, proposalOf]
    · intro _ hu
      rw [Unprompted, hproposals]
      exact hu
  · refine ⟨hborn.inv hg hproposals hnodup, ?_, hother, ?_, ⟨⟨row, hrow, hprocessing⟩,
      .inr ⟨p, hborn.source, hborn.status, hproposals⟩⟩⟩
    · intro id hid
      have hne : p.id ≠ id := fun he => hid (he ▸ hborn.rowLock)
      rw [proposalOf, hproposals, Table.get_append_one_of_ne hne, proposalOf]
    · intro hkey hu q hq
      rw [hproposals] at hq
      rcases List.mem_append.1 hq with hq | hq
      · exact hu q hq
      · rw [List.mem_singleton.1 hq, hborn.source]
        exact fun he => hkey (he ▸ hborn.keyLock)

end Commits

/-! ### Safety -/

theorem ReviewRelies.weaken {r : Uuid} {l : Lock} {h : List Lock} {g g' : Db}
    (hr : ReviewRelies r (l :: h) g g') : ReviewRelies r h g g' :=
  ⟨fun id hl => hr.proposals id (List.mem_cons_of_mem _ hl),
    fun id hl => hr.processing id (List.mem_cons_of_mem _ hl),
    fun hl => hr.born (List.mem_cons_of_mem _ hl)⟩

theorem ReviewRelies.trans {r : Uuid} {h : List Lock} {g g' g'' : Db}
    (h₁ : ReviewRelies r h g g') (h₂ : ReviewRelies r h g' g'') : ReviewRelies r h g g'' :=
  (reviewDiscipline r).rely_trans _ _ _ _ h₁ h₂

section Statements

variable {r userId proposalId rawEventId : Uuid} {w : Db → Db} {h : List Lock} {g : Db} {β : Type}
  {Q : β → (Db → Db) → List Lock → Db → Prop}

/-- A pending proposal is locked, and it is the committed one. -/
theorem wp_pendingProposal {k : FinancialEventProposal → DbTx β}
    (hk : ∀ p g', p.id = proposalId → p.status = .needsReview → ReviewInv r g' →
      proposalOf proposalId g' = some p →
      (reviewDiscipline r).wp (k p) Q id [.row .proposals proposalId] g') :
    (reviewDiscipline r).wp (do
      let locked ← lockProposal userId proposalId
      let proposal ← requirePending locked
      k proposal) Q id [] g := by
  rw [(reviewDiscipline r).wp_bind]
  apply wp_selectForUpdate
  · intro g₁ _ _
    trivial
  · intro q g₁ hq hg₁
    simp only [Bool.and_eq_true, beq_iff_eq] at hq
    rw [hq.1, (reviewDiscipline r).wp_bind, requirePending, (reviewDiscipline r).wp_bind,
      wp_requireSome]
    intro p hp
    have hfound := List.find?_some hp
    simp only [Bool.and_eq_true, beq_iff_eq] at hfound
    have hid : p.id = proposalId := hfound.1
    rw [(reviewDiscipline r).wp_bind, wp_require]
    intro hstatus
    refine hk p g₁ hid (by simpa using hstatus) hg₁ ?_
    rw [← hid]
    exact Table.get_of_mem hg₁.proposalIds (List.mem_of_find?_eq_some hp)

/-- A processing state is locked, under writes that leave the processing states alone. -/
theorem wp_lockProcessing {Q : RawEventProcessing → (Db → Db) → List Lock → Db → Prop}
    (hw : ∀ g, (w g).processing = g.processing)
    (hk : ∀ row g', ReviewRelies r h g g' → ReviewInv r g' →
      processingAt rawEventId g' = some row → Q row w (.row .processing rawEventId :: h) g') :
    (reviewDiscipline r).wp (Ingestion.lockProcessing userId rawEventId) Q w h g := by
  rw [Ingestion.lockProcessing, (reviewDiscipline r).wp_bind]
  apply wp_selectForUpdate_rely
  · intro g₁ _ _
    trivial
  · intro q g₁ g₂ hq hr₁ _ hr₂ hg₂
    simp only [Ingestion.processingOf, Bool.and_eq_true, beq_iff_eq] at hq
    rw [hq.1, wp_requireSome, hw]
    intro row hrow
    have hfound := List.find?_some hrow
    simp only [Ingestion.processingOf, Bool.and_eq_true, beq_iff_eq] at hfound
    refine hk row g₂ (ReviewRelies.trans hr₁ (ReviewRelies.weaken hr₂)) hg₂ ?_
    rw [← hfound.1]
    exact Table.get_of_mem (R := RawEventProcessing) hg₂.processingIds
      (List.mem_of_find?_eq_some hrow)

/-- A proposal is written back. -/
theorem wp_updateProposal {Q : Unit → (Db → Db) → List Lock → Db → Prop}
    {p : FinancialEventProposal}
    (hk : ∀ g', ReviewRelies r h g g' → ReviewInv r g' → Q () ((fun g => { g with
      proposals := Table.set FinancialEventProposal.id p.id (fun _ => p) g.proposals }) ∘ w) h g') :
    (reviewDiscipline r).wp (Reconciliation.updateProposal p) Q w h g := by
  rw [Reconciliation.updateProposal, (reviewDiscipline r).wp_bind, wp_require]
  exact fun _ => hk

/-- A locked processing state is written back. -/
theorem wp_setProcessing {Q : Unit → (Db → Db) → List Lock → Db → Prop} {row : RawEventProcessing}
    (hk : ∀ g', ReviewRelies r h g g' → ReviewInv r g' → Q () ((fun g => { g with
      processing := Table.set RawEventProcessing.rawEventId row.rawEventId (fun _ => row)
        g.processing }) ∘ w) h g') :
    (reviewDiscipline r).wp (Ingestion.setProcessing row) Q w h g := hk

/-- The source of a proposal is looked up. -/
theorem wp_sourceForProposal {p : FinancialEventProposal}
    {Q : SourceConnection → (Db → Db) → List Lock → Db → Prop}
    (hk : ∀ source g', ReviewRelies r h g g' → ReviewInv r g' → Q source w h g') :
    (reviewDiscipline r).wp (sourceForProposal userId p) Q w h g := by
  rw [sourceForProposal, (reviewDiscipline r).wp_bind, (reviewDiscipline r).wp_reads]
  intro g₁ hr₁ hg₁
  rw [wp_requireSome]
  exact fun source _ => hk source g₁ hr₁ hg₁

end Statements

section Safety

variable {C} {r : Uuid} {g : Db}

theorem reject_safe (userId proposalId : Uuid) :
    (reviewDiscipline r).Safe ((ReviewRequest.reject userId proposalId).program C) id [] g := by
  show (reviewDiscipline r).wp (Ai.reject userId proposalId >>= _) _ _ _ _
  rw [(reviewDiscipline r).wp_bind]
  apply wp_pendingProposal
  intro p g₁ hid hpending _ hp
  rw [(reviewDiscipline r).wp_bind]
  apply wp_sourceForProposal
  intro source g₂ hr₂ _
  rw [(reviewDiscipline r).wp_bind]
  apply wp_updateProposal
  intro g₃ hr₃ _
  rw [(reviewDiscipline r).wp_bind]
  refine wp_lockProcessing (fun _ => rfl) fun row g₄ hr₄ _ hrow => ?_
  rw [(reviewDiscipline r).wp_bind]
  apply wp_setProcessing
  intro g₅ hr₅ _ g' hr' hg'
  have hrely := ReviewRelies.trans hr₂ (hr₃.trans (hr₄.trans (hr₅.trans hr').weaken))
  have hp' : proposalOf proposalId g' = some p := (hrely.proposals _ (by simp)).trans hp
  have hrow' : processingAt p.rawEventId g' = some row :=
    ((hr₅.trans hr').processing _ (by simp)).trans hrow
  have hrowid : row.rawEventId = p.rawEventId := Table.key_of_get hrow
  refine reviews_commit hg' { p with status := .rejected } hp' hpending hrow'
    ⟨rfl, rfl, rfl, rfl, rfl⟩ (.rejected proposalId rfl) ?_ ?_ (by simp) (by simp) id
  · rw [← hid]
    rfl
  · rw [← hrowid]
    rfl

/-- An update that leaves proposals and processing states alone. -/
def KeepsReview (u : Db → Db) : Prop :=
  ∀ g, (u g).proposals = g.proposals ∧ (u g).processing = g.processing

theorem keepsReview_ofApproval : OfApproval KeepsReview where
  merchants _ _ := ⟨rfl, rfl⟩
  transactions _ _ := ⟨rfl, rfl⟩
  evidence _ _ := ⟨rfl, rfl⟩
  cases _ _ := ⟨rfl, rfl⟩
  actions _ _ := ⟨rfl, rfl⟩
  normalizedEvents _ _ := ⟨rfl, rfl⟩
  recurringPayments _ _ := ⟨rfl, rfl⟩

theorem keepsReview_ofObligations : OfObligations KeepsReview where
  same _ := ⟨rfl, rfl⟩
  people _ _ := ⟨rfl, rfl⟩
  obligations kind _ _ := by cases kind <;> exact ⟨rfl, rfl⟩

/-- An approval between its locks and its end: the proposal is pending, both rows are locked
    and untouched. -/
structure Approving (r proposalId : Uuid) (p : FinancialEventProposal) (row : RawEventProcessing)
    (w : Db → Db) (h : List Lock) (g : Db) : Prop where
  kept : KeepsReview w
  proposal : proposalOf proposalId g = some p
  processing : processingAt p.rawEventId g = some row
  proposalLock : .row .proposals proposalId ∈ h
  processingLock : .row .processing p.rawEventId ∈ h

theorem Approving.rely {proposalId : Uuid} {p : FinancialEventProposal} {row : RawEventProcessing}
    {w : Db → Db} {h : List Lock} {g g' : Db} (ha : Approving r proposalId p row w h g)
    (hr : ReviewRelies r h g g') : Approving r proposalId p row w h g' :=
  { ha with
    proposal := (hr.proposals _ ha.proposalLock).trans ha.proposal
    processing := (hr.processing _ ha.processingLock).trans ha.processing }

/-- What an approval writes in between keeps it where it is. -/
theorem wp_approving {proposalId : Uuid} {p : FinancialEventProposal} {row : RawEventProcessing}
    {β : Type} {x : DbTx β} (hx : x.Writes KeepsReview) {w : Db → Db} {h : List Lock}
    (ha : Approving r proposalId p row w h g) :
    (reviewDiscipline r).wp x (fun _ => Approving r proposalId p row) w h g := by
  refine (reviewDiscipline r).wp_of_kept (J := Approving r proposalId p row) ?_ ?_ ?_ hx w h g ha
  · exact fun w h g g' hr _ ha => ha.rely hr
  · intro u w h g hu ha
    refine { ha with kept := fun g => ?_ }
    obtain ⟨hu₁, hu₂⟩ := hu (w g)
    obtain ⟨hw₁, hw₂⟩ := ha.kept g
    exact ⟨hu₁.trans hw₁, hu₂.trans hw₂⟩
  · exact fun l w h g ha => { ha with
      proposalLock := List.mem_cons_of_mem _ ha.proposalLock
      processingLock := List.mem_cons_of_mem _ ha.processingLock }

/-- The end of an approval. -/
theorem wp_finishApproval {proposalId : Uuid} {p : FinancialEventProposal}
    {row : RawEventProcessing} {source : SourceConnection}
    {target : Option FinancialEventProposal} {w : Db → Db} {h : List Lock}
    (ha : Approving r proposalId p row w h g) (hpending : p.status = .needsReview)
    (htarget : ∀ q, target = some q → SameProposal p q) :
    (reviewDiscipline r).wp (finishApproval source row p target)
      (fun _ => (reviewDiscipline r).Commit (.approved proposalId)) w h g := by
  have hid : p.id = proposalId := Table.key_of_get ha.proposal
  have hrowid : row.rawEventId = p.rawEventId := Table.key_of_get ha.processing
  cases target with
  | none =>
    rw [finishApproval, (reviewDiscipline r).wp_bind]
    apply wp_setProcessing
    intro g₁ hr₁ _
    rw [(reviewDiscipline r).wp_bind]
    apply wp_updateProposal
    intro g₂ hr₂ _ g' hr' hg'
    have ha' := ha.rely (hr₁.trans (hr₂.trans hr'))
    refine reviews_commit hg' { p with status := .reconciliationReview } ha'.proposal hpending
      ha'.processing ⟨rfl, rfl, rfl, rfl, rfl⟩
      (.waiting proposalId rfl) ?_ ?_ ha.proposalLock ha.processingLock id
    · rw [← hid, ← (ha.kept g').1]
      rfl
    · rw [← hrowid, ← (ha.kept g').2]
      rfl
  | some q =>
    have hsame := htarget q rfl
    rw [finishApproval, (reviewDiscipline r).wp_bind, Ingestion.requireStateTransition, wp_require]
    intro _
    rw [(reviewDiscipline r).wp_bind]
    apply wp_setProcessing
    intro g₁ hr₁ _
    rw [(reviewDiscipline r).wp_bind]
    apply wp_updateProposal
    intro g₂ hr₂ _ g' hr' hg'
    have ha' := ha.rely (hr₁.trans (hr₂.trans hr'))
    refine reviews_commit hg' { q with status := .approved } ha'.proposal hpending ha'.processing
      ⟨hsame.id, hsame.rawEventId, hsame.promptName, hsame.promptVersion, hsame.schemaVersion⟩
      (.approved proposalId rfl) ?_ ?_ ha.proposalLock ha.processingLock id
    · rw [← hid, ← hsame.id, ← (ha.kept g').1]
      rfl
    · rw [← hrowid, ← (ha.kept g').2]
      rfl

theorem approve_safe (fresh : FreshIds) (now : Instant) (userId proposalId : Uuid) :
    (reviewDiscipline r).Safe ((ReviewRequest.approve fresh now userId proposalId).program C) id []
      g := by
  show (reviewDiscipline r).wp (Ai.approve C fresh now userId proposalId >>= _) _ _ _ _
  rw [(reviewDiscipline r).wp_bind]
  apply wp_pendingProposal
  intro p g₁ _ hpending _ hp
  rw [(reviewDiscipline r).wp_bind]
  apply wp_sourceForProposal
  intro source g₂ hr₂ _
  rw [(reviewDiscipline r).wp_bind]
  refine wp_lockProcessing (fun _ => rfl) fun row g₃ hr₃ _ hrow => ?_
  have ha : Approving r proposalId p row id
      [.row .processing p.rawEventId, .row .proposals proposalId] g₃ := by
    refine ⟨fun _ => ⟨rfl, rfl⟩, ?_, hrow, by simp, by simp⟩
    exact ((hr₂.trans hr₃).proposals _ (by simp)).trans hp
  rw [(reviewDiscipline r).wp_bind, wp_ofExcept]
  intro normalized _
  rw [(reviewDiscipline r).wp_bind]
  refine (reviewDiscipline r).wp_mono ?_ _ _ _ _
    (wp_approving (writes_storeNormalizedEvent keepsReview_ofApproval) ha)
  intro event w h g ha
  rw [(reviewDiscipline r).wp_bind]
  refine (reviewDiscipline r).wp_mono ?_ _ _ _ _ ((reviewDiscipline r).wp_of_returns
    returns_approveTarget w h g (wp_approving
      (writes_approveTarget keepsReview_ofApproval keepsReview_ofObligations) ha))
  rintro target w h g ⟨htarget, ha⟩
  exact wp_finishApproval ha hpending htarget

/-- An extraction before it locks the event: nothing is written, or one new proposal. -/
def Extracting (r rawEventId : Uuid) (w : Db → Db) (h : List Lock) (g : Db) : Prop :=
  w = id ∨ ∃ p, Born r rawEventId h g p ∧ w = fun g => { g with proposals := g.proposals ++ [p] }

theorem Extracting.rely {rawEventId : Uuid} {w : Db → Db} {h : List Lock} {g g' : Db}
    (he : Extracting r rawEventId w h g) (hr : ReviewRelies r h g g') :
    Extracting r rawEventId w h g' := by
  rcases he with hw | ⟨p, hborn, hw⟩
  · exact .inl hw
  · refine .inr ⟨p, { hborn with fresh := ?_, unprompted := fun he => ?_ }, hw⟩
    · exact (hr.proposals _ hborn.rowLock).trans hborn.fresh
    · exact hr.born (he ▸ hborn.keyLock) (hborn.unprompted he)

theorem Extracting.lock {rawEventId : Uuid} {w : Db → Db} {h : List Lock} {g : Db}
    (he : Extracting r rawEventId w h g) (l : Lock) : Extracting r rawEventId w (l :: h) g := by
  rcases he with hw | ⟨p, hborn, hw⟩
  · exact .inl hw
  · exact .inr ⟨p, { hborn with
      rowLock := List.mem_cons_of_mem _ hborn.rowLock
      keyLock := List.mem_cons_of_mem _ hborn.keyLock }, hw⟩

/-- The error code is recorded under the lock of the event. -/
theorem wp_recordCode {rawEventId : Uuid} (userId : Uuid) (outcome : ExtractOutcome) {w : Db → Db}
    {h : List Lock} (he : Extracting r rawEventId w h g) :
    (reviewDiscipline r).wp (do
      let processing ← Ingestion.lockProcessing userId rawEventId
      Ingestion.setProcessing { processing with lastErrorCode := ExtractOutcome.errorCode outcome })
      (fun _ => (reviewDiscipline r).Commit (.extracted rawEventId outcome)) w h g := by
  have hw : ∀ g, (w g).processing = g.processing := by
    rcases he with rfl | ⟨p, -, rfl⟩ <;> exact fun _ => rfl
  rw [(reviewDiscipline r).wp_bind]
  refine wp_lockProcessing hw fun row g₁ hr₁ _ hrow => ?_
  apply wp_setProcessing
  intro g₂ hr₂ _ g' hr' hg'
  have he' := ((he.rely hr₁).lock (.row .processing rawEventId)).rely (hr₂.trans hr')
  have hrow' : processingAt rawEventId g' = some row :=
    ((hr₂.trans hr').processing _ (by simp)).trans hrow
  have hrowid : row.rawEventId = rawEventId := Table.key_of_get hrow
  refine records_commit hg' hrow' ?_ (by simp) ?_
  · rw [← hw g', ← hrowid]
    rfl
  · rcases he' with rfl | ⟨p, hborn, rfl⟩
    · exact .inl rfl
    · exact .inr ⟨p, hborn, rfl⟩

/-- The proposal of an answer is created unless the event has one. -/
theorem wp_createOrGet {fresh userId rawEventId : Uuid} {context : RawExtractionContext}
    {extraction : FinancialExtractionResult} (hcontext : context.rawEventId = rawEventId)
    (hprompt : extraction.promptName = PROMPT_NAME ∧ extraction.promptVersion = PROMPT_VERSION ∧
      extraction.schemaVersion = SCHEMA_VERSION) :
    (reviewDiscipline r).wp (createOrGet fresh userId context extraction)
      (fun _ => Extracting r rawEventId) id [] g := by
  obtain ⟨hname, hversion, hschema⟩ := hprompt
  subst hcontext
  have hselect : ∀ inserted (same : FinancialEventProposal → Bool) w h g, ReviewInv r g →
      Extracting r context.rawEventId w h g →
      (reviewDiscipline r).wp (selectProposal fresh userId same inserted)
        (fun _ => Extracting r context.rawEventId) w h g := by
    intro inserted same w h g hg he
    refine (reviewDiscipline r).wp_of_readOnly ?_ hg fun _ g' hr _ => he.rely hr
    refine Tx.readOnly_bind (Tx.readOnly_reads _) fun existing => ?_
    refine Tx.readOnly_bind (readOnly_requireSome _ _) fun selected => ?_
    exact Tx.readOnly_bind (Tx.readOnly_reads _) fun proposal => readOnly_requireSome _ _
  rw [createOrGet, (reviewDiscipline r).wp_bind, wp_ofExcept]
  intro row hrow
  obtain ⟨hid, -, hraw, hstatus, -, hrowPrompt⟩ := Reconciliation.proposalRow_ok hrow
  rw [(reviewDiscipline r).wp_bind, hname, hversion, hschema]
  rw [hname, hversion, hschema] at hrowPrompt
  apply wp_insertOrIgnore
  · intro g₁ g₂ _ _ _ hg₂ _
    exact hselect _ _ _ _ _ hg₂ (.inl rfl)
  · intro g₁ g₂ g₃ g₄ g₅ _ _ _ hg₂ hconflict hr₃ _ hr₄ _ hviolation hr₅ hg₅
    refine hselect _ _ _ _ _ hg₅ (.inr ⟨row, ⟨hraw, hstatus, hrowPrompt, ?_, ?_, ?_, ?_⟩, rfl⟩)
    · -- the identifier was free when it was checked, and is locked
      have hfree : proposalOf fresh g₄ = none := by
        refine Table.get_eq_none_iff.2 (Table.fresh_of_any fun hany => ?_)
        dsimp only [id] at hviolation
        rw [if_pos hany] at hviolation
        cases hviolation
      rw [hid]
      exact (hr₅.proposals _ (by simp)).trans hfree
    · -- and so was the key of the prompt
      intro he
      have hnone : Unprompted r g₂ := by
        intro q hq hqr
        have hsame := hg₂.prompts q hq hqr
        rw [← he] at hsame
        exact List.any_eq_false.1 hconflict q hq hsame
      have hkey : promptKey r ∈ [promptKey context.rawEventId] := by simp [he]
      exact (hr₄.trans hr₅).weaken.born hkey (hr₃.born hkey hnone)
    · rw [hid]
      simp
    · exact List.mem_cons_of_mem _ List.mem_cons_self

/-- The context of an extraction is that of its raw event. -/
theorem rawExtractionContext_id {userId rawEventId : Uuid} {context : RawExtractionContext} {g : Db}
    (h : (do
      let raw ← g.rawEvents.find? fun r => r.id == rawEventId && r.userId == userId
      let _ ← sourceOf userId rawEventId g
      let user ← g.users.find? fun u => u.id == raw.userId
      some (⟨raw.id, raw.occurredAt, raw.payload, user.timezone, user.defaultCurrency⟩ :
        RawExtractionContext)) = some context) : context.rawEventId = rawEventId := by
  simp only [Option.bind_eq_bind, Option.bind_eq_some_iff] at h
  obtain ⟨raw, hraw, _, _, user, _, hcontext⟩ := h
  have hfound := List.find?_some hraw
  simp only [Bool.and_eq_true, beq_iff_eq] at hfound
  rw [← Option.some.inj hcontext]
  exact hfound.1

theorem extract_safe (fresh : FreshIds) (userId rawEventId : Uuid)
    (answer : Except String CompletionData) :
    (reviewDiscipline r).Safe
      ((ReviewRequest.extract fresh userId rawEventId answer).program C) id [] g := by
  show (reviewDiscipline r).wp (existingForPrompt userId rawEventId >>= _) _ _ _ _
  rw [(reviewDiscipline r).wp_bind, existingForPrompt, (reviewDiscipline r).wp_reads]
  intro g₁ _ _
  split
  · exact fun g' _ hg' => shown_commit hg' _
  rw [(reviewDiscipline r).wp_bind, extractNew, (reviewDiscipline r).wp_bind, rawExtractionContext,
    (reviewDiscipline r).wp_reads]
  intro g₂ _ hg₂
  rw [(reviewDiscipline r).wp_bind, wp_requireSome]
  intro context hcontext
  have hid := rawExtractionContext_id hcontext
  rw [(reviewDiscipline r).wp_bind, wp_requireSome]
  intro text _
  cases hresult : extractEvent C.core.platform.unicode C.core.platform.zones C.extractor text
      context.timezone context.defaultCurrency answer with
  | ok extraction =>
    rw [recordExtraction, (reviewDiscipline r).wp_bind]
    refine (reviewDiscipline r).wp_mono ?_ _ _ _ _
      (wp_createOrGet hid (extractEvent_prompt hresult))
    intro view w h g he
    have hcode := wp_recordCode userId (.ok view) he
    rw [(reviewDiscipline r).wp_bind] at hcode
    rw [(reviewDiscipline r).wp_bind]
    exact hcode
  | error e =>
    cases e with
    | ai code =>
      rw [recordExtraction, (reviewDiscipline r).wp_bind, recordExtractionFailure]
      exact wp_recordCode userId (.error code) (.inl rfl)
    | uncaught => trivial

end Safety

/-! ### Runs -/

section Runs

variable {C} {r : Uuid} {ι : Type} [DecidableEq ι] {g₀ g g' : Db}

/-- The error code of a raw event matches its state and its proposal. -/
structure CodesMatch (r : Uuid) (g : Db) : Prop where
  processed : ∀ row, processingAt r g = some row → row.state = .processed →
    row.lastErrorCode = none
  rejected : ∀ p ∈ g.proposals, p.rawEventId = r → p.status = .rejected →
    ∀ row, processingAt r g = some row → row.lastErrorCode = some "USER_REJECTED"

/-- No proposal of the event is rejected, and a failure finds it not processed. -/
structure Unreviewed (r : Uuid) (outcome : ExtractOutcome) (g : Db) : Prop where
  notRejected : ∀ p ∈ g.proposals, p.rawEventId = r → p.status ≠ .rejected
  notProcessed : ∀ code, outcome = .error code → ∀ row, processingAt r g = some row →
    row.state ≠ .processed

/-- An extraction of the event is recorded before its review. -/
def InTime (r : Uuid) (s : State Db Lock AppError ReviewResult ι)
    (ev : Event AppError ReviewResult) : Prop :=
  ∀ outcome, ev = .commit (.extracted r outcome) → Unreviewed r outcome s.db

/-- The codes match, and a processed event has an approved proposal. -/
structure Coded (r : Uuid) (g : Db) : Prop where
  codes : CodesMatch r g
  approved : ∀ row, processingAt r g = some row → row.state = .processed →
    ∃ p ∈ g.proposals, p.rawEventId = r ∧ p.status = .approved

/-- What does not concern the event. -/
theorem Coded.frame (hc : Coded r g) (hprocessing : processingAt r g' = processingAt r g)
    (hproposals : ∀ p : FinancialEventProposal, p.rawEventId = r →
      (p ∈ g'.proposals ↔ p ∈ g.proposals)) : Coded r g' := by
  refine ⟨⟨?_, ?_⟩, ?_⟩
  · rw [hprocessing]
    exact hc.codes.processed
  · rw [hprocessing]
    exact fun p hp hraw => hc.codes.rejected p ((hproposals p hraw).1 hp) hraw
  · rw [hprocessing]
    intro row hrow hstate
    obtain ⟨p, hp, hraw, hstatus⟩ := hc.approved row hrow hstate
    exact ⟨p, (hproposals p hraw).2 hp, hraw, hstatus⟩

/-- The processing state after it was written. -/
theorem processingAt_written {row row' : RawEventProcessing} (hrow : processingAt r g = some row)
    (hkey : row'.rawEventId = r) (hprocessing : g'.processing =
      Table.set RawEventProcessing.rawEventId r (fun _ => row') g.processing) :
    processingAt r g' = some row' := by
  rw [processingAt, hprocessing]
  exact Table.get_set_const hrow hkey

/-- An extraction deletes no proposal. -/
theorem Records.kept {rawEventId : Uuid} {outcome : ExtractOutcome}
    (hdid : Records rawEventId outcome g g') : ∀ p ∈ g.proposals, p ∈ g'.proposals := by
  intro p hp
  rcases hdid.proposals with hsame | ⟨q, -, -, happend⟩
  · rw [hsame]
    exact hp
  · rw [happend]
    exact List.mem_append_left _ hp

/-- The processing state a recorded extraction leaves. -/
theorem Records.written {outcome : ExtractOutcome} (hdid : Records r outcome g g') :
    ∃ row, processingAt r g = some row ∧
      processingAt r g' = some { row with lastErrorCode := ExtractOutcome.errorCode outcome } := by
  obtain ⟨row, hrow, hprocessing⟩ := hdid.processing
  have hrowid : row.rawEventId = r := Table.key_of_get hrow
  exact ⟨row, hrow, processingAt_written hrow hrowid hprocessing⟩

/-- An extraction that is recorded in time. -/
theorem Coded.records {rawEventId : Uuid} {outcome : ExtractOutcome} (hc : Coded r g)
    (htime : rawEventId = r → Unreviewed r outcome g) (hdid : Records rawEventId outcome g g') :
    Coded r g' := by
  have hkept := hdid.kept
  -- a new proposal is pending and of the event
  have hmem : ∀ p ∈ g'.proposals, p ∈ g.proposals ∨
      p.rawEventId = rawEventId ∧ p.status = .needsReview := by
    intro p hp
    rcases hdid.proposals with hsame | ⟨q, hraw, hstatus, happend⟩
    · exact .inl (hsame ▸ hp)
    · rw [happend] at hp
      rcases List.mem_append.1 hp with hp | hp
      · exact .inl hp
      · rw [List.mem_singleton.1 hp]
        exact .inr ⟨hraw, hstatus⟩
  by_cases hr : rawEventId = r
  · subst hr
    obtain ⟨hnotRejected, hnotProcessed⟩ := htime rfl
    obtain ⟨row, hrow, hrow'⟩ := hdid.written
    refine ⟨⟨?_, ?_⟩, ?_⟩
    · intro row₁ hrow₁ hstate
      rw [hrow'] at hrow₁
      obtain rfl := Option.some.inj hrow₁
      cases outcome with
      | ok view => rfl
      | error code => exact absurd hstate (hnotProcessed code rfl row hrow)
    · intro p hp hraw hstatus
      rcases hmem p hp with hold | ⟨-, hnew⟩
      · exact absurd hstatus (hnotRejected p hold hraw)
      · rw [hnew] at hstatus
        cases hstatus
    · intro row₁ hrow₁ hstate
      rw [hrow'] at hrow₁
      obtain rfl := Option.some.inj hrow₁
      obtain ⟨p, hp, hraw, hstatus⟩ := hc.approved row hrow hstate
      exact ⟨p, hkept p hp, hraw, hstatus⟩
  · obtain ⟨row, hrow, hprocessing⟩ := hdid.processing
    have hrowid : row.rawEventId = rawEventId := Table.key_of_get hrow
    refine hc.frame (processingAt_set { row with
      lastErrorCode := ExtractOutcome.errorCode outcome } hrowid (Ne.symm hr) hprocessing) ?_
    intro p hraw
    refine ⟨fun hp => ?_, hkept p⟩
    rcases hmem p hp with hold | ⟨hnew, -⟩
    · exact hold
    · exact absurd (hnew.symm.trans hraw) hr

/-- A review. -/
theorem Coded.reviews {o : ReviewResult} {proposalId : Uuid} (hc : Coded r g) (hg : ReviewInv r g)
    (hdid : Reviews o proposalId g g') : Coded r g' := by
  obtain ⟨p, row, p', row', hp, hpending, hrow, hsame, hending, hproposals, hprocessing⟩ := hdid.done
  have hpid : p.id = proposalId := Table.key_of_get hp
  have hpid' : p'.id = proposalId := hsame.id.trans hpid
  have hpmem : p ∈ g.proposals := Table.mem_of_get hp
  have hrowid : row.rawEventId = p.rawEventId := Table.key_of_get hrow
  have hrowid' : row'.rawEventId = p.rawEventId := by cases hending <;> exact hrowid
  by_cases hr : p.rawEventId = r
  · rw [hr] at hrow hprocessing hrowid'
    have hrow' := processingAt_written hrow hrowid' hprocessing
    -- it is the only proposal of the event
    have honly : ∀ q ∈ g'.proposals, q.rawEventId = r → q = p' := by
      intro q hq hraw
      rw [hproposals] at hq
      rcases Table.mem_set_const hq with hq | ⟨hq, hne⟩
      · exact hq
      · exact absurd ((congrArg _ (hg.single q hq p hpmem hraw hr)).trans hpid) hne
    -- so the event was not processed
    have hopen : row.state ≠ .processed := by
      intro hstate
      obtain ⟨q, hq, hraw, hstatus⟩ := hc.approved row hrow hstate
      rw [hg.single q hq p hpmem hraw hr, hpending] at hstatus
      cases hstatus
    have hthere : p' ∈ g'.proposals := by
      rw [hproposals, ← hpid']
      exact Table.mem_set_self hpmem (hpid'.trans hpid.symm)
    refine ⟨⟨?_, ?_⟩, ?_⟩
    · intro row₁ hrow₁ hstate
      rw [hrow'] at hrow₁
      obtain rfl := Option.some.inj hrow₁
      cases hending with
      | rejected id h => exact absurd hstate hopen
      | approved id h => rfl
      | waiting id h => exact absurd hstate hopen
    · intro q hq hraw hstatus row₁ hrow₁
      rw [honly q hq hraw] at hstatus
      rw [hrow'] at hrow₁
      obtain rfl := Option.some.inj hrow₁
      cases hending with
      | rejected id h => rfl
      | approved id h =>
        rw [h] at hstatus
        cases hstatus
      | waiting id h =>
        rw [h] at hstatus
        cases hstatus
    · intro row₁ hrow₁ hstate
      rw [hrow'] at hrow₁
      obtain rfl := Option.some.inj hrow₁
      cases hending with
      | rejected id h => exact absurd hstate hopen
      | approved id h => exact ⟨p', hthere, hsame.rawEventId.trans hr, h⟩
      | waiting id h => exact absurd hstate hopen
  · refine hc.frame (processingAt_set row' hrowid' (Ne.symm hr) hprocessing) ?_
    intro q hraw
    rw [hproposals]
    constructor
    · intro hq
      rcases Table.mem_set_const hq with rfl | ⟨hq, -⟩
      · exact absurd (hsame.rawEventId.symm.trans hraw) hr
      · exact hq
    · intro hq
      refine Table.mem_set_of_ne hq fun hid => hr ?_
      rw [← List.inj_on_of_nodup_map hg.proposalIds hq hpmem (hid.trans hpid.symm)]
      exact hraw

/-- The commit of a call. -/
theorem Coded.commit {h : List Lock} {o : ReviewResult} (hc : Coded r g) (hg : ReviewInv r g)
    (htime : ∀ outcome, o = .extracted r outcome → Unreviewed r outcome g)
    (hdid : ReviewDid r h o g g') : Coded r g' := by
  have heffect := hdid.effect
  cases o with
  | shown view =>
    obtain ⟨hproposals, hprocessing⟩ := heffect
    refine hc.frame (by rw [processingAt, hprocessing, processingAt]) fun p _ => ?_
    rw [hproposals]
  | extracted rawEventId outcome =>
    exact hc.records (fun he => htime outcome (by rw [he])) heffect
  | approved proposalId => exact hc.reviews hg heffect
  | rejected proposalId => exact hc.reviews hg heffect

variable (C)

/-- A session runs a call. -/
def ReviewRequests (_ : List ReviewResult) (p : DbTx ReviewResult) : Prop :=
  ∃ q : ReviewRequest, p = q.program C

variable {C}

theorem review_safe (log : List ReviewResult) (p : DbTx ReviewResult) (g : Db)
    (hp : ReviewRequests C log p) : (reviewDiscipline r).Safe p id [] g := by
  obtain ⟨q, rfl⟩ := hp
  cases q with
  | extract fresh userId rawEventId answer => exact extract_safe fresh userId rawEventId answer
  | approve fresh now userId proposalId => exact approve_safe fresh now userId proposalId
  | reject userId proposalId => exact reject_safe userId proposalId

/-- A store with a raw event that has no proposal yet and is not processed. -/
structure Submitted (r : Uuid) (g : Db) : Prop where
  proposalIds : (g.proposals.map FinancialEventProposal.id).Nodup
  processingIds : (g.processing.map RawEventProcessing.rawEventId).Nodup
  unprompted : Unprompted r g
  opened : ∀ row, processingAt r g = some row → row.state ≠ .processed

theorem Submitted.inv (h : Submitted r g) : ReviewInv r g where
  proposalIds := h.proposalIds
  processingIds := h.processingIds
  prompts := fun p hp hraw => absurd hraw (h.unprompted p hp)
  single := fun p hp _ _ hraw => absurd hraw (h.unprompted p hp)

theorem Submitted.coded (h : Submitted r g) : Coded r g where
  codes := {
    processed := fun row hrow hstate => absurd hstate (h.opened row hrow)
    rejected := fun p hp hraw => absurd hraw (h.unprompted p hp) }
  approved := fun row hrow hstate => absurd hstate (h.opened row hrow)

theorem coded_of_reachable (h₀ : Submitted r g₀) {s : State Db Lock AppError ReviewResult ι}
    (hs : ReachableBy (ReviewRequests C) ReviewOthers (InTime r) g₀ s) : Coded r s.db := by
  refine Discipline.commit_induction_by (D := reviewDiscipline r) (J := fun g _ => Coded r g)
    (fun log p g hp _ => review_safe log p g hp) h₀.inv h₀.coded ?_ ?_ hs
  · intro h o g' s hg _ htime hdid hc
    exact hc.commit hg (fun outcome he => htime outcome (by rw [he])) hdid
  · rintro g g' log - ⟨hproposals, hprocessing⟩ hc
    refine hc.frame (by rw [processingAt, hprocessing, processingAt]) fun p _ => ?_
    rw [hproposals]

/-- **Error codes match unless an extraction is late.**  In every state that is reached by
    steps whose extractions are recorded before the event is reviewed, a processed event has
    no error code and the event of a rejected proposal has that of the rejection.  There an
    extraction that ends after the event is processed leaves its state and code as they are,
    and one that is late, with a code of its own, is one that breaks the match. -/
theorem codes_match_unless_late (h₀ : Submitted r g₀) {s : State Db Lock AppError ReviewResult ι}
    (hs : ReachableBy (ReviewRequests C) ReviewOthers (InTime r) g₀ s) :
    CodesMatch r s.db ∧
    ∀ outcome s', Step (ReviewRequests C) ReviewOthers s (.commit (.extracted r outcome)) s' →
      (Unreviewed r outcome s.db → ∀ row, processingAt r s.db = some row →
        row.state = .processed → processingAt r s'.db = some row) ∧
      ((∀ code, outcome = .error code → code ≠ "USER_REJECTED") →
        (CodesMatch r s'.db ↔ Unreviewed r outcome s.db)) := by
  have hc := coded_of_reachable h₀ hs
  refine ⟨hc.codes, fun outcome s' hstep => ?_⟩
  have hgood := Discipline.sound (D := reviewDiscipline r)
    (fun log p g hp _ => review_safe log p g hp) h₀.inv hs.reachable
  obtain ⟨⟨h, hdid⟩, -⟩ := hgood.commit_post hstep
  have hrecords : Records r outcome s.db s'.db := hdid.effect
  obtain ⟨row, hrow, hrow'⟩ := hrecords.written
  refine ⟨fun hun row₁ hrow₁ hstate => ?_, fun hcode => ⟨fun hmatch => ⟨?_, ?_⟩, fun hun => ?_⟩⟩
  · rw [hrow] at hrow₁
    obtain rfl := Option.some.inj hrow₁
    have hnone := hc.codes.processed row hrow hstate
    cases outcome with
    | ok view =>
      rw [hrow']
      show some { row with lastErrorCode := none } = some row
      rw [← hnone]
    | error code => exact absurd hstate (hun.notProcessed code rfl row hrow)
  · -- a rejected proposal is still there, with the code of the extraction
    intro p hp hraw hstatus
    have hwritten := hmatch.rejected p (hrecords.kept p hp) hraw hstatus _ hrow'
    cases outcome with
    | ok view => cases hwritten
    | error code => exact hcode code rfl (Option.some.inj hwritten)
  · rintro code rfl row₁ hrow₁ hstate
    rw [hrow] at hrow₁
    obtain rfl := Option.some.inj hrow₁
    have hwritten := hmatch.processed _ hrow' hstate
    cases hwritten
  · exact (hc.records (fun _ => hun) hrecords).codes

/-! ### A late extraction -/

/-- The services on a platform without Unicode tables. -/
def lateConfig : ProposalConfig :=
  ⟨⟨⟨.plain, id, fun _ => [], fun _ => none, fun _ => [], id, ⟨fun _ => true, fun _ _ => 0⟩⟩,
    .default⟩, ⟨2000, 1⟩⟩

/-- A store with a note about lunch. -/
def lateStore : Db :=
  { Db.empty 0 with
    users := [⟨1, py "UTC", py "EUR"⟩]
    connections := [⟨1, 1, .manualNote, py "default", "Manual notes", .active, [], none, none⟩]
    rawEvents := [⟨1, 1, 1, py "note", none, [], py "note", some 0,
      [("extraction_text", .str (py "lunch"))]⟩]
    processing := [⟨1, 1, .needsReview, 1, none⟩] }

/-- The model takes the note for an event without an amount. -/
def lateAnswer : CompletionData where
  shared := {
    eventKind := some .expense
    description := some (py "lunch")
    confidence := some (some (.finite 1)) }

/-- An extraction of the note. -/
def lateExtraction (n : Uuid) : ReviewRequest :=
  .extract ⟨n, n, n, n, n, n, n, n, n, n, n, n⟩ 1 1 (.ok lateAnswer)

/-- The store after an extraction. -/
def lateExtracted : Db := ((lateExtraction 2).program lateConfig).after lateStore

/-- The store after the rejection of its proposal. -/
def lateRejected : Db := ((ReviewRequest.reject 1 2).program lateConfig).after lateExtracted

/-- An extraction of the first owner that returned its proposal. -/
def wasExtracted : ReviewResult → Bool
  | .extracted 1 (.ok _) => true
  | _ => false

theorem lateStore_submitted : Submitted 1 lateStore where
  proposalIds := by decide
  processingIds := by decide
  unprompted := fun p hp => by cases hp
  opened := by
    intro row hrow
    obtain rfl : RawEventProcessing.mk 1 1 .needsReview 1 none = row := Option.some.inj hrow
    decide

/-- The note is extracted and its proposal rejected: one of the runs of
    `codes_match_unless_late`. -/
theorem codes_match_unless_late_rejected :
    ∃ s : State Db Lock AppError ReviewResult Unit,
      ReachableBy (ReviewRequests lateConfig) ReviewOthers (InTime 1) lateStore s ∧
      s.db.proposals.map (·.status) = [.rejected] ∧
      s.db.processing.map (·.lastErrorCode) = [some "USER_REJECTED"] ∧ CodesMatch 1 s.db := by
  have hextract : ((lateExtraction 2).program lateConfig).returns
      wasExtracted lateStore = true := by decide +kernel
  obtain ⟨o, hrun, ho⟩ := Tx.run_of_returns hextract
  have hreject : ((ReviewRequest.reject 1 2).program lateConfig).returns (· == .rejected 2)
      lateExtracted = true := by decide +kernel
  obtain ⟨o', hrun', ho'⟩ := Tx.run_of_returns hreject
  have hsilent : ∀ s : State Db Lock AppError ReviewResult Unit, InTime 1 s .silent :=
    fun s outcome he => by cases he
  have h₁ : ReachableBy (ReviewRequests lateConfig) ReviewOthers (InTime 1) lateStore
      (⟨lateExtracted, [] ++ [o], fun _ => none⟩ : State Db Lock AppError ReviewResult Unit) := by
    refine ReachableBy.beside () rfl (fun _ _ h => by cases h) hsilent .init ⟨lateExtraction 2, rfl⟩
      hrun fun s hs outcome he => ⟨fun p hp => ?_, fun code hcode row hrow => ?_⟩
    · rw [hs] at hp
      cases hp
    · rw [hs] at hrow
      exact lateStore_submitted.opened row hrow
  have h₂ := h₁.beside () rfl (fun _ _ h => by cases h) hsilent
    ⟨ReviewRequest.reject 1 2, rfl⟩ hrun' fun s _ outcome he => by
      rw [eq_of_beq ho'] at he
      cases he
  have hstatus : lateRejected.proposals.map (·.status) = [.rejected] := by decide +kernel
  have hcodes : lateRejected.processing.map (·.lastErrorCode) = [some "USER_REJECTED"] := by
    decide +kernel
  exact ⟨_, h₂, hstatus, hcodes, (codes_match_unless_late lateStore_submitted h₂).1⟩

/-- Two extractions of the note see no proposal; the first one's is rejected, and then the
    second one is recorded. -/
theorem codes_do_not_match :
    ¬ ∀ s : State Db Lock AppError ReviewResult Bool,
      Reachable (ReviewRequests lateConfig) ReviewOthers lateStore s → CodesMatch 1 s.db := by
  intro hall
  have hextract : ((lateExtraction 2).program lateConfig).commits lateStore = true := by
    decide +kernel
  obtain ⟨o, hrun⟩ := Tx.run_of_commits hextract
  have hreject : ((ReviewRequest.reject 1 2).program lateConfig).commits lateExtracted = true := by
    decide +kernel
  obtain ⟨o', hrun'⟩ := Tx.run_of_commits hreject
  -- what is left of the other extraction once it has seen that there is no proposal
  let late : DbTx ReviewResult := do
    let outcome ← extractNew lateConfig ⟨3, 3, 3, 3, 3, 3, 3, 3, 3, 3, 3, 3⟩ 1 1 (.ok lateAnswer)
    pure (.extracted 1 outcome)
  have hlate : late.commits lateRejected = true := by decide +kernel
  obtain ⟨o'', hrun''⟩ := Tx.run_of_commits hlate
  have hheld : ∀ (j : Bool) (t : Session Db Lock AppError ReviewResult),
      Function.update (fun _ => none) false (some ⟨late, id, []⟩) j = some t → t.held = [] := by
    intro j t ht
    cases j with
    | false =>
      rw [Function.update_self] at ht
      rw [← Option.some.inj ht]
    | true => cases ht
  have hopen : ReviewRequests lateConfig [] (existingForPrompt 1 1 >>= fun existing =>
      match existing with
      | some view => pure (.shown view)
      | none => late) := ⟨lateExtraction 3, rfl⟩
  have h₀ : Reachable (ReviewRequests lateConfig) ReviewOthers lateStore
      (⟨lateStore, [], Function.update (fun _ => none) false (some ⟨late, id, []⟩)⟩ :
        State Db Lock AppError ReviewResult Bool) :=
    Reachable.opened false rfl .init hopen
  have h₁ := h₀.beside true rfl hheld ⟨lateExtraction 2, rfl⟩ hrun
  have h₂ := h₁.beside true rfl hheld ⟨ReviewRequest.reject 1 2, rfl⟩ hrun'
  have hnone : ∀ (j : Bool) (t : Session Db Lock AppError ReviewResult), j ≠ false →
      (fun _ => none : Bool → Option (Session Db Lock AppError ReviewResult)) j = some t →
      t.held = [] := fun _ _ _ h => by cases h
  have h₃ := Reachable.finish (w := id) false hnone hrun'' h₂
  have hmatch := hall _ h₃
  have hrejected : (late.after lateRejected).proposals.any (fun p =>
      p.rawEventId == 1 && p.status == .rejected) = true := by decide +kernel
  obtain ⟨p, hp, hstatus⟩ := List.any_eq_true.1 hrejected
  simp only [Bool.and_eq_true, beq_iff_eq] at hstatus
  have hcode : processingAt 1 (late.after lateRejected) = some ⟨1, 1, .needsReview, 1, none⟩ := by
    decide +kernel
  cases hmatch.rejected p hp hstatus.1 hstatus.2 _ hcode

end Runs

end Expensea.Ai
