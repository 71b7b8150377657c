import Expensea.Connectors.Overlap
import Expensea.Domain.Normalization
import Expensea.Ingestion.Replay
import Expensea.Jobs.Sent
import Expensea.Jobs.Worker

namespace Expensea.Jobs

open Txn Txn.Discipline
open Ingestion (SourceResult SourceRequests Origin sourceRegistry)

/-!
# Durable jobs — one proposal for a job

The queue and the sources side by side.  A worker reports a result for a lease when a submission of
the lease's note got as far as a proposal; it may crash before it reports, its lease may expire,
and the job is then submitted again, by any worker.

* `Call.Reports` — a result that a job has was reported for it by a call of `finish`;
* `Yielded` — a submission, of which each transaction committed on its own, gave this proposal;
* `Worked` — the steps of the queue and of the sources, in any order;
* `worked_runOnce` — the turns of a slot are such steps;
* `job_proposals` — however often a job is submitted it has one proposal, which is its result and no
  other job's.
-/

variable {settings : JobsSettings} {fingerprint : Fingerprint} {h : List JobLock}

/-! ### Results are reported -/

/-- A result that a job has after a commit was there before, or the call reported it for the job. -/
def Call.Reports (c : Call) (g g' : JobDb) : Prop :=
  ∀ j' ∈ g'.jobs, ∀ result, j'.result = some result →
    (∃ j ∈ g.jobs, j.id = j'.id ∧ j.userId = j'.userId ∧ j.result = some result) ∨
    ∃ lease r, c.request = .finish lease r ∧ lease.id = j'.id ∧ lease.userId = j'.userId ∧
      r.result = some result

theorem Recovered.result {t : Time} {j j' : Job} (hr : Recovered t j j') :
    j'.result = j.result := by
  cases hr with
  | same => rfl
  | dead => rfl
  | retry => rfl

/-- Only a report changes a result. -/
theorem Outcome.Effect.result {t : Time} {a : Outcome} {j j' : Job} (heff : a.Effect t j j')
    (ha : ∀ lease, a ≠ .finished lease true) : j'.result = j.result := by
  match a, heff with
  | .claimed none, heff => exact Recovered.result heff
  | .claimed (some l), heff =>
    simp only [Outcome.Effect] at heff
    split at heff
    · obtain ⟨m, expires, hm, -, -, -, rfl⟩ := heff
      exact hm.result
    · exact heff.result
  | .finished l true, _ => exact absurd rfl (ha l)
  | .finished l false, heff =>
    have hsame : j' = j := heff
    rw [hsame]
  | .view v, heff =>
    rcases heff with rfl | ⟨-, ⟨t, -, -, rfl⟩ | ⟨t, -, rfl⟩⟩
    · rfl
    · rfl
    · rfl

/-- A call other than `finish` does not end with an outcome of `finish`. -/
theorem Call.Did.not_finished {c : Call} {g g' : JobDb} (hdid : c.Did settings fingerprint g g')
    (hc : ∀ lease r, c.request ≠ .finish lease r) : ∀ lease, c.outcome ≠ .finished lease true := by
  obtain ⟨request, started, outcome⟩ := c
  intro lease he
  dsimp only at he
  subst he
  cases request with
  | enqueue id owner command =>
    obtain ⟨v, hv, -⟩ := hdid
    cases hv
  | claim token jitter =>
    obtain ⟨-, lease', hl⟩ := hdid
    cases hl
  | finish l r => exact hc l r rfl
  | reviewRetry owner id =>
    obtain ⟨v, hv, -⟩ := hdid
    cases hv
  | cancel owner id =>
    obtain ⟨v, hv, -⟩ := hdid
    cases hv

theorem Committed.reports {c : Call} {g g' : JobDb} {φ : Job → Job} {new : Option Job}
    (hc : Committed settings fingerprint h c.outcome g g' φ new)
    (hother : ∀ lease, c.outcome ≠ .finished lease true) : c.Reports g g' := by
  intro j' hj' result hresult
  rw [hc.jobs] at hj'
  rcases List.mem_append.1 hj' with hold | hnew
  · obtain ⟨j, hj, rfl⟩ := List.mem_map.1 hold
    have hsame := (hc.effect j hj).sameIdentity
    refine .inl ⟨j, hj, hsame.id.symm, hsame.userId.symm, ?_⟩
    rw [← (hc.effect j hj).result hother, hresult]
  · -- a new job has no result
    obtain ⟨-, -, -, command, createdAt, availableAt, hrow⟩ := hc.added j' (by simpa using hnew)
    rw [hrow] at hresult
    cases hresult

/-- `JobRepository.finish` writes the reported result to the row of its lease only. -/
theorem finish_reports (lease : Lease) (r : FinishRequest) (started : Time) (g : JobDb) :
    (queueDiscipline settings fingerprint).wp (finish lease r)
      (fun b w h g => ∀ g' φ new, Interference h g g' φ new → g'.Ok settings →
        Call.Reports ⟨.finish lease r, started, .finished lease b⟩ g' (w g')) id [] g := by
  refine (wp_bind _ _ _ _ _ _ _).2 (wp_now (fun _ => rfl) fun g₁ _ _ hi₁ _ => ?_)
  refine (wp_bind _ _ _ _ _ _ _).2 (wp_selectForUpdate (fun h' g' _ => ?_) ?_)
  · intro g₂ _ _ _ _ j' hj' result hresult
    exact .inl ⟨j', hj', rfl, rfl, hresult⟩
  · rintro j g₂ _ _ hi₂ - hj howns g₃ ⟨_, _, hi₃⟩ - g₄ _ _ hi₄ hg₄ j' hj' result hresult
    -- the row of the lease was locked, and is still there
    have hmem := (hi₃.trans hi₄).mem_of_locked hj List.mem_cons_self
    simp only [Lease.owns, Bool.and_eq_true, beq_iff_eq] at howns
    obtain ⟨k, hk, rfl⟩ := Table.mem_set.1 hj'
    by_cases hid : k.id = j.id
    · obtain rfl : k = j := List.inj_on_of_nodup_map hg₄.ids hk hmem hid
      rw [if_pos rfl] at hresult ⊢
      have hsame := k.finish_sameIdentity g₁.clock r
      cases hr : r.result with
      | none =>
        refine .inl ⟨k, hk, hsame.id.symm, hsame.userId.symm, ?_⟩
        rw [← hresult, Job.finish]
        simp only [hr]
        split <;> rfl
      | some reported =>
        refine .inr ⟨lease, r, rfl, ?_, ?_, ?_⟩
        · rw [hsame.id, howns.1.1.1.1.1]
        · rw [hsame.userId, howns.1.1.1.1.2]
        · rw [← hresult, Job.finish]
          simp only [hr]
    · rw [if_neg hid] at hresult ⊢
      exact .inl ⟨k, hk, rfl, rfl, hresult⟩

/-! ### The queue of the workers -/

/-- The calls a session may open: those of admitted requests. -/
def AdmitsOnly (settings : JobsSettings) (fingerprint : Fingerprint) (A : Request → Prop)
    (_ : List Call) (p : JobTx Call) : Prop :=
  ∃ r : Request, A r ∧ p = r.call settings fingerprint

/-- A discipline with a stronger postcondition. -/
def withPost {G L ε α : Type} (D : Discipline G L ε α) (post : List L → α → G → G → Prop)
    (hpost : ∀ h a g g', post h a g g' → D.post h a g g') : Discipline G L ε α where
  inv := D.inv
  post := post
  rely := D.rely
  env := D.env
  rely_refl := D.rely_refl
  rely_trans := D.rely_trans
  post_rely h h' a g g' hg hg' hdisj hp :=
    D.post_rely h h' a g g' hg hg' hdisj (hpost h a g g' hp)
  env_inv := D.env_inv
  env_rely := D.env_rely

/-- The locking discipline of the queue, with what the calls report. -/
def reportDiscipline (settings : JobsSettings) (fingerprint : Fingerprint) (A : Request → Prop) :
    Discipline JobDb JobLock JobError Call :=
  withPost (callDiscipline settings fingerprint)
    (fun h c g g' => (callDiscipline settings fingerprint).post h c g g' ∧
      c.Reports g g' ∧ A c.request)
    fun _ _ _ _ hp => hp.1

/-- A call reports what it was called with, whatever the table has become. -/
theorem call_reports (r : Request) (g : JobDb) :
    (callDiscipline settings fingerprint).wp (r.call settings fingerprint)
      (fun c w h g => ∀ g' φ new, Interference h g g' φ new → g'.Ok settings →
        c.Reports g' (w g')) id [] g := by
  have hsafe := @call_safe settings fingerprint [] _ ⟨r, rfl⟩ g
  -- what the other calls did, the safety of the queue says already
  have hother : (∀ lease r', r ≠ .finish lease r') →
      (callDiscipline settings fingerprint).wp (r.call settings fingerprint)
        (fun c w h g => ∀ g' φ new, Interference h g g' φ new → g'.Ok settings →
          c.Reports g' (w g')) id [] g := by
    intro hne
    refine wp_mono _ (fun c w h g' hc => ?_) _ _ _ _
      (wp_of_returns _ r.call_returns _ _ _ hsafe)
    intro g'' φ new hi hok
    obtain ⟨-, ⟨ψ, added, hcommitted⟩, hdid⟩ := hc.2 g'' ⟨φ, new, hi⟩ hok
    refine hcommitted.reports (hdid.not_finished fun lease r' he => ?_)
    exact hne lease r' (hc.1.symm.trans he)
  cases r with
  | finish lease r =>
    have hinv : (queueDiscipline settings fingerprint).inv =
        (callDiscipline settings fingerprint).inv := rfl
    have hrely : (queueDiscipline settings fingerprint).rely =
        (callDiscipline settings fingerprint).rely := rfl
    refine (wp_congr hinv hrely _ _ _ _ _).1 ?_
    refine (wp_bind _ _ _ _ _ _ _).2 (wp_now (fun _ => rfl) fun g₁ _ _ _ _ => ?_)
    exact (wp_bind _ _ _ _ _ _ _).2 ((wp_bind _ _ _ _ _ _ _).2
      (finish_reports lease r g₁.clock g₁))
  | enqueue id owner command => exact hother fun _ _ => nofun
  | claim token jitter => exact hother fun _ _ => nofun
  | reviewRetry owner id => exact hother fun _ _ => nofun
  | cancel owner id => exact hother fun _ _ => nofun

theorem report_safe {A : Request → Prop} {log : List Call} {p : JobTx Call}
    (hp : AdmitsOnly settings fingerprint A log p) (g : JobDb) :
    (reportDiscipline settings fingerprint A).Safe p id [] g := by
  obtain ⟨r, hr, rfl⟩ := hp
  have hsafe := @call_safe settings fingerprint [] _ ⟨r, rfl⟩ g
  have hboth := wp_of_returns _ r.call_returns _ _ _ (wp_and _ _ _ _ _ hsafe (call_reports r g))
  have hinv : (callDiscipline settings fingerprint).inv =
      (reportDiscipline settings fingerprint A).inv := rfl
  have hrely : (callDiscipline settings fingerprint).rely =
      (reportDiscipline settings fingerprint A).rely := rfl
  refine wp_mono _ (fun c w h g' hc => ?_) _ _ _ _ ((wp_congr hinv hrely _ _ _ _ _).1 hboth)
  obtain ⟨hrequest, hcommit, hreports⟩ := hc
  rintro g'' ⟨φ, new, hi⟩ hok
  obtain ⟨hok', hpost⟩ := hcommit g'' ⟨φ, new, hi⟩ hok
  exact ⟨hok', hpost, hreports g'' φ new hi hok, hrequest ▸ hr⟩

/-- A job's result was reported for it. -/
def Reported (A : Request → Prop) (g : JobDb) : Prop :=
  ∀ j ∈ g.jobs, ∀ result, j.result = some result →
    ∃ lease r, A (.finish lease r) ∧ lease.id = j.id ∧ lease.userId = j.userId ∧
      r.result = some result

/-- In every run, the results of the jobs are those that admitted calls reported for them. -/
theorem reported_of_reachable {A : Request → Prop} {ι : Type} [DecidableEq ι] {q₀ : JobDb}
    (hok : q₀.Ok settings) (hnone : ∀ j ∈ q₀.jobs, j.result = none)
    {s : State JobDb JobLock JobError Call ι}
    (hs : Reachable (AdmitsOnly settings fingerprint A) Passes q₀ s) :
    s.db.Ok settings ∧ Reported A s.db := by
  have hsafe : ∀ log (p : JobTx Call) g, AdmitsOnly settings fingerprint A log p →
      (reportDiscipline settings fingerprint A).inv g →
      (reportDiscipline settings fingerprint A).Safe p id [] g := fun _ _ g hp _ => report_safe hp g
  refine ⟨(Discipline.sound hsafe hok hs).inv, ?_⟩
  refine commit_induction (J := fun g _ => Reported A g) hsafe hok ?_ ?_ ?_ hs
  · intro j hj result hresult
    rw [hnone j hj] at hresult
    cases hresult
  · intro h c g g' log _ _ hpost hreported j' hj' result hresult
    obtain ⟨-, hreports, hA⟩ : (callDiscipline settings fingerprint).post h c g g' ∧
      c.Reports g g' ∧ A c.request := hpost
    rcases hreports j' hj' result hresult with ⟨j, hj, hid, huser, hres⟩ | ⟨lease, r, hc, hrest⟩
    · rw [← hid, ← huser]
      exact hreported j hj result hres
    · rw [hc] at hA
      exact ⟨lease, r, hA, hrest⟩
  · intro g g' log _ hpass hreported j hj result hresult
    exact hreported j (hpass.1 ▸ hj) result hresult

/-! ### Submissions -/

section Submissions

variable (C : Ai.ProposalConfig)

/-- The manual notes of an owner, as `submit_manual_note` delivers them. -/
def noteOrigin (userId : Uuid) : Origin :=
  ⟨userId, Connectors.manualNoteConnector C.core.platform.unicode [], DEFAULT_CONNECTION_KEY⟩

/-- A submission with a client request id, by an owner, gave this proposal: its delivery ended, and
    its extraction answered. -/
def Yielded (log : List SourceResult) (userId clientRequestId : Uuid)
    (p : FinancialEventProposal) : Prop :=
  ∃ note timestamp labels envelope c stored r view,
    Connectors.createManualNoteEnvelope C.core.platform note timestamp clientRequestId labels =
      .ok envelope ∧
    .delivered (noteOrigin C userId) c envelope stored r ∈ log ∧
    .extracted userId r.rawEventId (.ok view) ∈ log ∧ view.proposal = p

/-- The requests of the queue: a worker reports as the result of a lease the proposal that a
    submission for the lease gave. -/
def AdmitsWorker (log : List SourceResult) (request : Request) : Prop :=
  ∀ lease r, request = .finish lease r → ∀ result, r.result = some result →
    ∃ p, Yielded C log lease.userId lease.id p ∧ p.id = result.proposalId

/-- The queue and the sources. -/
structure Workers (ι κ : Type) where
  queue : State JobDb JobLock JobError Call ι
  sources : State Db Lock AppError SourceResult κ

/-- The states of the two together: every transaction commits, or is rolled back, in one of them. -/
inductive Worked {ι κ : Type} [DecidableEq ι] [DecidableEq κ] (settings : JobsSettings)
    (fingerprint : Fingerprint) (q₀ : JobDb) (g₀ : Db) : Workers ι κ → Prop
  | init : Worked settings fingerprint q₀ g₀ ⟨⟨q₀, [], fun _ => none⟩, ⟨g₀, [], fun _ => none⟩⟩
  | queue {n : Workers ι κ} {ev : Event JobError Call} {s : State JobDb JobLock JobError Call ι} :
      Worked settings fingerprint q₀ g₀ n →
      Step (AdmitsOnly settings fingerprint (AdmitsWorker C n.sources.log)) Passes n.queue ev s →
      Worked settings fingerprint q₀ g₀ { n with queue := s }
  | sources {n : Workers ι κ} {ev : Event AppError SourceResult}
      {s : State Db Lock AppError SourceResult κ} : Worked settings fingerprint q₀ g₀ n →
      Step (SourceRequests C) sourceRegistry.Same n.sources ev s →
      Worked settings fingerprint q₀ g₀ { n with sources := s }

end Submissions

section Safety

variable {C : Ai.ProposalConfig} {ι κ : Type} [DecidableEq ι] [DecidableEq κ] {q₀ : JobDb} {g₀ : Db}
  {n : Workers ι κ}

theorem Yielded.mono {log log' : List SourceResult} {userId clientRequestId : Uuid}
    {p : FinancialEventProposal} (hsub : ∀ a ∈ log, a ∈ log')
    (hp : Yielded C log userId clientRequestId p) : Yielded C log' userId clientRequestId p := by
  obtain ⟨note, timestamp, labels, envelope, c, stored, r, view, henvelope, hr, hview, heq⟩ := hp
  exact ⟨note, timestamp, labels, envelope, c, stored, r, view, henvelope, hsub _ hr,
    hsub _ hview, heq⟩

theorem admitsOnly_mono {log log' : List SourceResult} (hsub : ∀ a ∈ log, a ∈ log')
    {calls : List Call} {p : JobTx Call}
    (hp : AdmitsOnly settings fingerprint (AdmitsWorker C log) calls p) :
    AdmitsOnly settings fingerprint (AdmitsWorker C log') calls p := by
  obtain ⟨request, hrequest, rfl⟩ := hp
  refine ⟨request, fun lease r he result hresult => ?_, rfl⟩
  obtain ⟨p, hp, hid⟩ := hrequest lease r he result hresult
  exact ⟨p, hp.mono hsub, hid⟩

/-- The steps of the sources are a run of their own. -/
theorem Worked.sources_reachable (hn : Worked C settings fingerprint q₀ g₀ n) :
    Reachable (SourceRequests C) sourceRegistry.Same g₀ n.sources := by
  induction hn with
  | init => exact .init
  | queue _ _ ih => exact ih
  | sources _ hstep ih => exact ih.step hstep

/-- The steps of the queue are a run of their own, of workers that report what the sources tell in
    the end. -/
theorem Worked.queue_reachable (hn : Worked C settings fingerprint q₀ g₀ n)
    {log : List SourceResult} (hlog : ∀ a ∈ n.sources.log, a ∈ log) :
    Reachable (AdmitsOnly settings fingerprint (AdmitsWorker C log)) Passes q₀ n.queue := by
  induction hn with
  | init => exact .init
  -- `log` is the later one throughout: what was reported early is still told there
  | queue _ hstep ih => exact (ih hlog).step (hstep.mono fun _ hp => admitsOnly_mono hlog hp)
  | sources _ hstep ih => exact ih fun a ha => hlog a (hstep.mem_log ha)

/-- A run of the sources, and then one of workers that report what it tells. -/
theorem worked_of_runs {q : State JobDb JobLock JobError Call ι}
    {s : State Db Lock AppError SourceResult κ}
    (hs : Reachable (SourceRequests C) sourceRegistry.Same g₀ s)
    (hq : Reachable (AdmitsOnly settings fingerprint (AdmitsWorker C s.log)) Passes q₀ q) :
    Worked C settings fingerprint q₀ g₀ ⟨q, s⟩ := by
  -- what the workers may report is fixed once the sources are done
  have hstart : Worked C settings fingerprint q₀ g₀
      (⟨⟨q₀, [], fun _ => none⟩, s⟩ : Workers ι κ) := by
    clear hq
    induction hs with
    | init => exact .init
    | step _ hstep ih => exact ih.sources hstep
  induction hq with
  | init => exact hstart
  | step _ hstep ih => exact ih.queue hstep

/-! ### The identity of a note -/

/-- What the platform makes of the identifier of a note: ASCII text, which normalization leaves
    alone. -/
structure NamesNotes (P : Ingestion.Platform) : Prop where
  normalized : ∀ id, normalizeDisplayText P.unicode (py "manual:" ++ P.uuidText id) =
    py "manual:" ++ P.uuidText id
  injective : ∀ id id', P.uuidText id = P.uuidText id' → id = id'

theorem mapError_ok {ε ε' α : Type} {f : ε → ε'} {x : Except ε α} {a : α}
    (h : x.mapError f = .ok a) : x = .ok a := by
  cases x with
  | error e => cases h
  | ok b => rw [Except.ok.inj h]

/-- The identity of a note is its client request id, whatever its content. -/
theorem note_identityKey {P : Ingestion.Platform} (hP : NamesNotes P) {note : PyStr}
    {timestamp : DateTime} {id : Uuid} {labels : List PyStr} {e : Ingestion.ConnectorEnvelope}
    (he : Connectors.createManualNoteEnvelope P note timestamp id labels = .ok e) (hash : PyStr) :
    Ingestion.eventIdentityKey e hash = py "external:" ++ (py "manual:" ++ P.uuidText id) := by
  have hexternal : e.externalEventId = some (py "manual:" ++ P.uuidText id) := by
    simp only [Connectors.createManualNoteEnvelope, Connectors.contentError, bind,
      Except.bind] at he
    repeat' split at he
    all_goals try cases he
    -- the envelope was built
    obtain ⟨-, -, -, htext, -⟩ := Ingestion.makeEnvelope_ok (mapError_ok he)
    have hne : py "manual:" ++ P.uuidText id ≠ [] := by simp [py]
    have hnormal : Ingestion.normalizeText P.unicode (some (py "manual:" ++ P.uuidText id)) =
        some (py "manual:" ++ P.uuidText id) := by
      simp [Ingestion.normalizeText, hP.normalized, hne]
    rw [Ingestion.boundedText, hnormal] at htext
    dsimp only at htext
    split at htext
    · exact (Except.ok.inj htext).symm
    · cases htext
  rw [Ingestion.eventIdentityKey, hexternal]

/-- What a submission gave, and the raw event it was drawn from. -/
theorem Yielded.spec {log : List SourceResult} {g : Db} (hP : NamesNotes C.core.platform)
    (htells : ∀ a ∈ log, a.Tells C log g) {userId clientRequestId : Uuid}
    {p : FinancialEventProposal} (hp : Yielded C log userId clientRequestId p) :
    ∃ c hash id, .connected (noteOrigin C userId) c ∈ log ∧
      Ingestion.StoredAs userId c.id
        (py "external:" ++ (py "manual:" ++ C.core.platform.uuidText clientRequestId)) hash id g ∧
      Ingestion.Drawn userId id p g := by
  obtain ⟨note, timestamp, labels, e, c, stored, r, view, he, hr, hview, rfl⟩ := hp
  obtain ⟨hconnected, hstored⟩ := Ingestion.storedAs_of_delivered htells hr
  rw [note_identityKey hP he] at hstored
  exact ⟨c, _, _, hconnected, hstored, htells _ hview view rfl⟩

/-- The submissions with one client request id, by one owner, give one proposal. -/
theorem Yielded.unique {log : List SourceResult} {g : Db} (hP : NamesNotes C.core.platform)
    (hok : sourceRegistry.Ok g) (htells : ∀ a ∈ log, a.Tells C log g)
    {userId clientRequestId : Uuid} {p p' : FinancialEventProposal}
    (hp : Yielded C log userId clientRequestId p) (hp' : Yielded C log userId clientRequestId p') :
    p.id = p'.id := by
  obtain ⟨c, hash, id, hconnected, hstored, hdrawn⟩ := hp.spec hP htells
  obtain ⟨c', hash', id', hconnected', hstored', hdrawn'⟩ := hp'.spec hP htells
  -- they came through one connection, where the identity has one raw event
  rw [← Ingestion.connection_unique hok rfl rfl rfl (htells _ hconnected) (htells _ hconnected')]
    at hstored'
  obtain ⟨rfl, -⟩ := Ingestion.storedAs_unique hok hstored hstored'
  exact congrArg Ingestion.SourceRow.id (Ingestion.drawn_unique hok hdrawn hdrawn')

/-- A proposal is of one client request id. -/
theorem Yielded.clientRequestId_eq {log : List SourceResult} {g : Db}
    (hP : NamesNotes C.core.platform) (hok : sourceRegistry.Ok g)
    (htells : ∀ a ∈ log, a.Tells C log g) {userId userId' id id' : Uuid}
    {p p' : FinancialEventProposal} (hp : Yielded C log userId id p)
    (hp' : Yielded C log userId' id' p') (heq : p.id = p'.id) : id = id' := by
  obtain ⟨c, hash, raw, -, hstored, hdrawn⟩ := hp.spec hP htells
  obtain ⟨c', hash', raw', -, hstored', hdrawn'⟩ := hp'.spec hP htells
  -- a proposal is drawn from one raw event
  have hsame : Ingestion.SourceRow.ofProposal p = Ingestion.SourceRow.ofProposal p' :=
    Ingestion.eq_of_id hok hdrawn.2 hdrawn'.2 rfl heq
  have hfrom := hdrawn'.1.of_eq hsame
  have hraw : raw = raw' := by
    have hprompted := hdrawn.1.prompted
    have hprompted' := hfrom.prompted
    simp only [Ai.prompted, Bool.and_eq_true, beq_iff_eq] at hprompted hprompted'
    exact hprompted.1.1.1.symm.trans hprompted'.1.1.1
  obtain ⟨r, ⟨hr, hidentified, -⟩, hmem⟩ := hstored
  obtain ⟨r', ⟨hr', hidentified', -⟩, hmem'⟩ := hstored'
  -- and a raw event has one identity
  obtain rfl : r = r' := by
    have hrow := Ingestion.eq_of_id hok hmem hmem' rfl ((hr.trans hraw).trans hr'.symm)
    exact Ingestion.SourceRow.rawEvent.inj hrow
  simp only [Ingestion.identified, Bool.and_eq_true, beq_iff_eq] at hidentified hidentified'
  have hkey := hidentified.2.symm.trans hidentified'.2
  exact hP.injective _ _ (List.append_cancel_left (List.append_cancel_left hkey))

/-- **A job has one proposal.**  Whatever the workers do, and wherever they stop: the submissions
    for one job give one proposal, however often it is leased; the result of a job is that proposal,
    which is its owner's; and it is the result of no other job. -/
theorem job_proposals (hP : NamesNotes C.core.platform) (hq : q₀.Ok settings)
    (hnone : ∀ j ∈ q₀.jobs, j.result = none) (h₀ : sourceRegistry.Ok g₀)
    (hn : Worked C settings fingerprint q₀ g₀ n) :
    (∀ userId jobId p p', Yielded C n.sources.log userId jobId p →
      Yielded C n.sources.log userId jobId p' → p.id = p'.id) ∧
    ∀ j ∈ n.queue.db.jobs, ∀ result, j.result = some result →
      (∃ p ∈ n.sources.db.proposals, p.id = result.proposalId ∧ p.userId = j.userId) ∧
      (∀ p, Yielded C n.sources.log j.userId j.id p → p.id = result.proposalId) ∧
      ∀ j' ∈ n.queue.db.jobs, ∀ result', j'.result = some result' →
        result'.proposalId = result.proposalId → j' = j := by
  obtain ⟨hsources, htells⟩ := Ingestion.sources_of_reachable h₀ hn.sources_reachable
  obtain ⟨hjobs, hreported⟩ := reported_of_reachable hq hnone
    (hn.queue_reachable fun _ ha => ha)
  -- the result of a job is what a submission for it gave
  have hyielded : ∀ j ∈ n.queue.db.jobs, ∀ result, j.result = some result →
      ∃ p, Yielded C n.sources.log j.userId j.id p ∧ p.id = result.proposalId := by
    intro j hj result hresult
    obtain ⟨lease, r, hA, hid, huser, hr⟩ := hreported j hj result hresult
    obtain ⟨p, hp, hpid⟩ := hA lease r rfl result hr
    rw [hid, huser] at hp
    exact ⟨p, hp, hpid⟩
  refine ⟨fun _ _ _ _ hp hp' => hp.unique hP hsources htells hp', fun j hj result hresult => ?_⟩
  obtain ⟨p, hp, hpid⟩ := hyielded j hj result hresult
  refine ⟨?_, fun p' hp' => ?_, fun j' hj' result' hresult' heq => ?_⟩
  · obtain ⟨_, _, _, -, -, hdrawn⟩ := hp.spec hP htells
    obtain ⟨q, hq, hsame⟩ := List.mem_map.1 hdrawn.2
    have huser := (hdrawn.1.of_eq hsame).userId
    exact ⟨q, hq, (congrArg Ingestion.SourceRow.id hsame).trans hpid, huser⟩
  · exact (hp'.unique hP hsources htells hp).trans hpid
  · obtain ⟨p', hp', hpid'⟩ := hyielded j' hj' result' hresult'
    have hid := hp'.clientRequestId_eq hP hsources htells hp (by rw [hpid', heq, hpid])
    exact List.inj_on_of_nodup_map hjobs.ids hj' hj hid

end Safety

/-! ### The turns of a slot -/

section Turns

variable {C : Ai.ProposalConfig} {q₀ : JobDb} {g₀ : Db} {α β : Type} {turn : Turn} {lease : Lease}

/-- A run of the sources, between two transactions. -/
def SourcesAt (C : Ai.ProposalConfig) (g₀ g : Db) (log : List SourceResult) : Prop :=
  Reachable (SourceRequests C) sourceRegistry.Same g₀
    (⟨g, log, fun _ => none⟩ : State Db Lock AppError SourceResult Unit)

/-- Where the results of a run meet `P`, the transactions of this submission are steps of the run,
    and its answer meets `Q` with the results. -/
def Submits (C : Ai.ProposalConfig) (g₀ : Db) (P : List SourceResult → Prop) (x : Submission α)
    (Q : α → List SourceResult → Prop) : Prop :=
  ∀ g log, SourcesAt C g₀ g log → P log →
    ∃ log', (∀ a ∈ log, a ∈ log') ∧ SourcesAt C g₀ (attempt x g).2 log' ∧
      ∀ a, (attempt x g).1 = .ok a → Q a log'

variable {P : List SourceResult → Prop} {Q : α → List SourceResult → Prop}
  {R : β → List SourceResult → Prop}

theorem Submits.mono {x : Submission α} {Q' : α → List SourceResult → Prop}
    (hx : Submits C g₀ P x Q) (hQ : ∀ a log, Q a log → Q' a log) : Submits C g₀ P x Q' := by
  intro g log hs hP
  obtain ⟨log', hsub, hs', ha⟩ := hx g log hs hP
  exact ⟨log', hsub, hs', fun a h => hQ a log' (ha a h)⟩

theorem submits_pure (a : α) : Submits C g₀ (Q a) (pure a) Q := by
  intro g log hs hQ
  refine ⟨log, fun _ h => h, hs, fun b hb => ?_⟩
  cases hb
  exact hQ

theorem submits_throw (e : SubmitError) : Submits C g₀ P (throw e : Submission α) Q :=
  fun _ log hs _ => ⟨log, fun _ h => h, hs, nofun⟩

theorem submits_bind {x : Submission α} {f : α → Submission β} (hx : Submits C g₀ P x Q)
    (hf : ∀ a, Submits C g₀ (Q a) (f a) R) : Submits C g₀ P (x >>= f) R := by
  intro g log hs hP
  obtain ⟨log₁, hsub₁, hs₁, hQ⟩ := hx g log hs hP
  rw [attempt_bind]
  rcases hr : attempt x g with ⟨r, g₁⟩
  rw [hr] at hs₁ hQ
  cases r with
  | error e => exact ⟨log₁, hsub₁, hs₁, nofun⟩
  | ok a =>
    obtain ⟨log₂, hsub₂, hs₂, hR⟩ := hf a g₁ log₁ hs₁ (hQ a rfl)
    exact ⟨log₂, fun b hb => hsub₂ b (hsub₁ b hb), hs₂, hR⟩

/-- A transaction that the run admits. -/
theorem submits_commit {p : DbTx α} (f : α → SourceResult)
    (hp : ∀ log, P log → SourceRequests C log (f <$> p)) :
    Submits C g₀ P (commit p) fun a log =>
      f a ∈ log ∧ ∃ log₀, P log₀ ∧ ∀ b ∈ log₀, b ∈ log := by
  intro g log hs hP
  rw [attempt_commit]
  cases hrun : p.run g with
  | error e => exact ⟨log, fun _ h => h, hs, nofun⟩
  | ok r =>
    obtain ⟨a, g'⟩ := r
    have hmap : (f <$> p).run g = .ok (f a, g') := by rw [Tx.run_map, hrun]
    refine ⟨log ++ [f a], fun _ h => List.mem_append_left _ h,
      Reachable.alone () hs (hp log hP) hmap, fun b hb => ?_⟩
    cases hb
    exact ⟨List.mem_append_right _ (List.mem_singleton_self _), log, hP,
      fun _ h => List.mem_append_left _ h⟩

theorem submits_computed_bind {x : Except AppError α} {f : α → Submission β}
    (hf : ∀ a, x = .ok a → Submits C g₀ P (f a) R) : Submits C g₀ P (computed x >>= f) R := by
  intro g log hs hP
  rw [attempt_bind]
  cases x with
  | error e => exact ⟨log, fun _ h => h, hs, nofun⟩
  | ok a => exact hf a rfl g log hs hP

theorem submits_ingestEnvelope (fresh : FreshIds) (o : Origin)
    (hkey : o.connectionKey = DEFAULT_CONNECTION_KEY) (envelope : Ingestion.ConnectorEnvelope) :
    Submits C g₀ (fun _ => True) (ingestEnvelope C.core fresh o.userId o.connector envelope)
      fun r log => ∃ c stored, .delivered o c envelope stored r ∈ log := by
  rw [ingestEnvelope, ← hkey]
  -- each stage is admitted by what the one before it left in the log
  refine submits_bind (submits_commit (.connected o) fun log _ =>
    Ingestion.sourceRequests_connect fresh o) fun c => ?_
  refine submits_bind (submits_commit (.stored o c envelope) fun log h =>
    Ingestion.sourceRequests_store fresh envelope h.1) fun stored => ?_
  refine submits_bind (submits_commit (.looked o c envelope stored) fun log h =>
    Ingestion.sourceRequests_look h.1) fun terminal => ?_
  exact (submits_commit (.delivered o c envelope stored) fun log h =>
    Ingestion.sourceRequests_finish fresh h.1).mono fun r log h => ⟨c, stored, h.1⟩

theorem submits_extractRawEvent (fresh : FreshIds) (userId rawEventId : Uuid)
    (answer : Except String Ai.CompletionData) :
    Submits C g₀ P (extractRawEvent C fresh userId rawEventId answer) fun p log =>
      (∃ view, .extracted userId rawEventId (.ok view) ∈ log ∧ view.proposal = p) ∧
        ∃ log₀, P log₀ ∧ ∀ b ∈ log₀, b ∈ log := by
  refine submits_bind (submits_commit (.extracted userId rawEventId) fun log _ =>
    ⟨.extract fresh userId rawEventId answer, trivial, rfl⟩) fun outcome => ?_
  cases outcome with
  | error code => exact submits_throw _
  | ok view =>
    intro g log hs h
    exact submits_pure view.proposal g log hs ⟨⟨view, h.1, rfl⟩, h.2⟩

theorem submits_submitManualNote (fresh : FreshIds) (userId clientRequestId : Uuid) (note : PyStr)
    (timestamp : DateTime) (labels : List PyStr) (answer : Except String Ai.CompletionData) :
    Submits C g₀ (fun _ => True)
      (submitManualNote C fresh userId note timestamp clientRequestId labels answer)
      fun p log => Yielded C log userId clientRequestId p := by
  refine submits_computed_bind fun envelope henvelope => ?_
  refine submits_bind (submits_ingestEnvelope fresh (noteOrigin C userId) rfl envelope) fun r => ?_
  refine (submits_extractRawEvent fresh userId r.rawEventId answer).mono fun p log h => ?_
  obtain ⟨⟨view, hview, heq⟩, log₀, ⟨c, stored, hr⟩, hlog₀⟩ := h
  exact ⟨note, timestamp, labels, envelope, c, stored, r, view, henvelope, hlog₀ _ hr, hview, heq⟩

/-- A time limit stops the submission between two transactions of a run. -/
def Turn.CutsRun (C : Ai.ProposalConfig) (g₀ : Db) (log : List SourceResult) (turn : Turn) : Prop :=
  ∀ g', turn.cutAt = some g' → ∃ log', (∀ a ∈ log, a ∈ log') ∧ SourcesAt C g₀ g' log'

/-- The submission of a lease: not started, cut by its time limit, or that of a note. -/
theorem submitLease_cases (turn : Turn) (lease : Lease) (g : Db) :
    (∃ e, attempt (submitLease C turn lease) g = (.error e, g)) ∨
      (∃ g', turn.cutAt = some g' ∧
        attempt (submitLease C turn lease) g = (.error .timeout, g')) ∨
      ∃ note timestamp labels, attempt (submitLease C turn lease) g =
        attempt (submitManualNote C turn.fresh lease.userId note timestamp lease.id labels
          turn.answer) g := by
  rw [attempt, submitLease]
  split
  · exact .inl ⟨_, rfl⟩
  · split
    · rename_i g' hcut
      exact .inr (.inl ⟨g', hcut, rfl⟩)
    · exact .inr (.inr ⟨_, _, _, rfl⟩)

/-- What the submission of a lease gives, it gives as a run of the sources. -/
theorem submits_submitLease (turn : Turn) (lease : Lease) :
    Submits C g₀ (fun log => turn.CutsRun C g₀ log) (submitLease C turn lease)
      fun p log => Yielded C log lease.userId lease.id p := by
  intro g log hs hcut
  rcases submitLease_cases turn lease g with ⟨e, he⟩ | ⟨g', hg', he⟩ | ⟨note, timestamp, labels, he⟩
  · rw [he]
    exact ⟨log, fun _ h => h, hs, fun _ h => by cases h⟩
  · rw [he]
    obtain ⟨log', hsub, hs'⟩ := hcut g' hg'
    exact ⟨log', hsub, hs', fun _ h => by cases h⟩
  · rw [he]
    exact submits_submitManualNote _ _ _ _ _ _ _ g log hs trivial

/-- A report with a result is that of a submission that answered. -/
theorem report_result {submitted : Except SubmitError FinancialEventProposal} {r : FinishRequest}
    (h : report settings turn lease submitted = .ok r) {result : JobResult}
    (hr : r.result = some result) : ∃ p, submitted = .ok p ∧ p.id = result.proposalId := by
  cases submitted with
  | ok p =>
    cases h
    cases hr
    exact ⟨p, rfl, rfl⟩
  | error e =>
    rw [report] at h
    split at h
    · cases h
      cases hr
    · cases h

/-- A call that runs alone comes at the time of the queue. -/
theorem Request.call_run {r : Request} {g g' : JobDb} {outcome : Outcome}
    (h : (r.program settings fingerprint).run g = .ok (outcome, g')) :
    (r.call settings fingerprint).run g = .ok (⟨r, g.clock, outcome⟩, g') := by
  simp only [Request.call, now, Tx.run_bind, Tx.run_reads, h]
  rfl

/-- The system of a worker, as the state of the two. -/
def System.quiet (s : System) (calls : List Call) (log : List SourceResult) : Workers Unit Unit :=
  ⟨⟨s.jobs, calls, fun _ => none⟩, ⟨s.db, log, fun _ => none⟩⟩

/-- `_execute` is part of a run of workers. -/
theorem worked_execute {s : System} {calls : List Call} {log : List SourceResult} (lease : Lease)
    (hn : Worked C settings fingerprint q₀ g₀ (s.quiet calls log)) (hcut : turn.CutsRun C g₀ log) :
    ∃ calls' log', Worked C settings fingerprint q₀ g₀
      ((execute C settings turn lease s).2.quiet calls' log') := by
  obtain ⟨log', hsub, hsources, hyields⟩ :=
    submits_submitLease turn lease s.db log hn.sources_reachable hcut
  -- the queue stands still during the submission, which only adds to what may be reported
  have hqueue := hn.queue_reachable hsub
  simp only [execute]
  rcases hsubmitted : attempt (submitLease C turn lease) s.db with ⟨submitted, db⟩
  rw [hsubmitted] at hsources hyields
  cases hreport : report settings turn lease submitted with
  | error e => exact ⟨calls, log', worked_of_runs hsources hqueue⟩
  | ok r =>
    obtain ⟨recorded, jobs, hfinish⟩ := finish_run lease r s.jobs
    have hcall : ((Request.finish lease r).call settings fingerprint).run s.jobs =
        .ok (⟨.finish lease r, s.jobs.clock, .finished lease recorded⟩, jobs) := by
      refine Request.call_run ?_
      rw [Request.program, Tx.run_bind, hfinish]
      rfl
    -- a result that is reported was given for this lease
    have hadmits : AdmitsOnly settings fingerprint (AdmitsWorker C log') calls
        ((Request.finish lease r).call settings fingerprint) := by
      refine ⟨.finish lease r, fun lease' r' he result hr => ?_, rfl⟩
      cases he
      obtain ⟨p, hp, hid⟩ := report_result hreport hr
      exact ⟨p, hyields p hp, hid⟩
    dsimp only
    rw [hfinish]
    exact ⟨_, log', worked_of_runs hsources (Reachable.alone () hqueue hadmits hcall)⟩

/-- **A turn of a slot is part of a run of workers**, whatever it ends with. -/
theorem worked_runOnce {s : System} {calls : List Call} {log : List SourceResult}
    (hn : Worked C settings fingerprint q₀ g₀ (s.quiet calls log)) (token : Uuid)
    (jitter : Uuid → Jitter) (hcut : turn.CutsRun C g₀ log) :
    ∃ calls' log', Worked C settings fingerprint q₀ g₀
      ((runOnce C settings token jitter turn s).2.quiet calls' log') := by
  rw [runOnce]
  cases hclaim : (claim settings token jitter).run s.jobs with
  | error e => exact ⟨calls, log, hn⟩
  | ok claimed =>
    obtain ⟨found, jobs⟩ := claimed
    have hcall : ((Request.claim token jitter).call settings fingerprint).run s.jobs =
        .ok (⟨.claim token jitter, s.jobs.clock, .claimed found⟩, jobs) := by
      refine Request.call_run ?_
      rw [Request.program, Tx.run_bind, hclaim]
      rfl
    -- a claim reports nothing, so it is admitted whatever the sources told
    have hadmits : AdmitsOnly settings fingerprint (AdmitsWorker C log) calls
        ((Request.claim token jitter).call settings fingerprint) := by
      refine ⟨.claim token jitter, fun _ _ he => ?_, rfl⟩
      cases he
    have hclaimed : Worked C settings fingerprint q₀ g₀
        (System.quiet { s with jobs := jobs } (calls ++ [⟨.claim token jitter, s.jobs.clock,
          .claimed found⟩]) log) :=
      worked_of_runs hn.sources_reachable
        (Reachable.alone () (hn.queue_reachable fun _ ha => ha) hadmits hcall)
    cases found with
    | none => exact ⟨_, log, hclaimed⟩
    | some lease =>
      obtain ⟨calls', log', hdone⟩ := worked_execute lease hclaimed hcut
      refine ⟨calls', log', ?_⟩
      dsimp only
      rcases hexecute : execute C settings turn lease { s with jobs := jobs } with ⟨r, s'⟩
      rw [hexecute] at hdone
      cases r with
      | ok recorded => exact hdone
      | error e => exact hdone

end Turns

/-! ### A job that was submitted -/

theorem normalized_word {s : PyStr} (hs : s ≠ []) (hspace : ∀ c ∈ s, isSpace c = false) :
    normalizeDisplayText .plain s = s := by
  have hwords : Words [s] := fun w hw => by
    rw [List.mem_singleton.1 hw]
    exact ⟨hs, hspace⟩
  have hone : joinSpace [s] = s := by simp [joinSpace]
  have hsplit := split_joinSpace hwords
  rw [hone] at hsplit
  show joinSpace (split s) = s
  rw [hsplit, hone]

/-- A decimal number is written without white space. -/
theorem natText_not_space (n : Nat) : ∀ c ∈ natText n, isSpace c = false := by
  intro c hc
  obtain ⟨d, hd, rfl⟩ := List.mem_map.1 hc
  have hdigit := Nat.isDigit_of_mem_toDigits (by decide) (by decide) hd
  simp only [Char.isDigit, Bool.and_eq_true, decide_eq_true_eq] at hdigit
  have hlow : 48 ≤ d.toNat := UInt32.le_iff_toNat_le.1 hdigit.1
  have hhigh : d.toNat ≤ 57 := UInt32.le_iff_toNat_le.1 hdigit.2
  have hall : ∀ k < 10, isSpace (Fin.ofNat 0x110000 (48 + k)) = false := by decide
  have hvalue : 48 + (d.toNat - 48) = d.toNat := by omega
  rw [← hvalue]
  exact hall _ (by omega)

theorem notePlatform_names : NamesNotes notePlatform where
  normalized id := by
    have hwords : ((py "manual:" ++ py "00000000-0000-0000-0000-00000000000").all fun c =>
        !isSpace c) = true := by decide +kernel
    refine normalized_word (by simp [py]) fun c hc => ?_
    rw [show notePlatform.uuidText id = py "00000000-0000-0000-0000-00000000000" ++ natText id
      from rfl, ← List.append_assoc] at hc
    rcases List.mem_append.1 hc with hc | hc
    · simpa using List.all_eq_true.1 hwords c hc
    · exact natText_not_space id c hc
  injective id id' h := Connectors.natText_injective (List.append_cancel_left h)

/-- The queue with the job 7 of owner 1. -/
def noteQueue : JobDb := ⟨[noteJob], 1⟩

/-- A turn whose provider answers. -/
def answeredTurn : Turn := { noteTurn 3 with answer := .ok Ai.lateAnswer }

theorem noteQueue_ok : noteQueue.Ok .default where
  ids := by decide
  keys := by decide
  rows j hj := by
    rw [List.mem_singleton.1 hj]
    constructor <;> decide
  running_le := by decide
  pending_le := by decide
  owned_le _ := List.countP_le_length.trans (by decide)

/-- The job is leased, its note submitted and the proposal reported: one of the runs of
    `job_proposals`. -/
theorem job_proposals_reported : ∃ n : Workers Unit Unit,
    Worked noteConfig .default (fun _ => "") noteQueue noteStore n ∧
      ∃ j ∈ n.queue.db.jobs, j.result = some ⟨3⟩ ∧
        ∃ p ∈ n.sources.db.proposals, p.id = 3 ∧ p.userId = j.userId := by
  have hempty : sourceRegistry.Ok noteStore := Ingestion.ok_of_none fun t => by cases t <;> rfl
  have hnone : ∀ j ∈ noteQueue.jobs, j.result = none := fun j hj => by
    rw [List.mem_singleton.1 hj]
    rfl
  have hstart : Worked noteConfig .default (fun _ => "") noteQueue noteStore
      (System.quiet ⟨noteQueue, noteStore⟩ [] []) := .init
  have hcut : answeredTurn.CutsRun noteConfig noteStore [] := fun _ h => by cases h
  obtain ⟨calls, log, hn⟩ := worked_runOnce hstart 9 (fun _ => noteJitter) hcut
  have hresult : (runOnce noteConfig .default 9 (fun _ => noteJitter) answeredTurn
      ⟨noteQueue, noteStore⟩).2.jobs.jobs.map (·.result) = [some ⟨3⟩] := by decide +kernel
  generalize (runOnce noteConfig .default 9 (fun _ => noteJitter) answeredTurn
    ⟨noteQueue, noteStore⟩).2 = s at hn hresult
  have hmem := List.mem_singleton_self (some (JobResult.mk 3))
  rw [← hresult] at hmem
  obtain ⟨j, hj, hjr⟩ := List.mem_map.1 hmem
  exact ⟨_, hn, j, hj, hjr,
    ((job_proposals notePlatform_names noteQueue_ok hnone hempty hn).2 j hj _ hjr).1⟩

end Expensea.Jobs
