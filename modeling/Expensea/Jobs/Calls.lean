import Expensea.Jobs.Invariants

namespace Expensea.Jobs

open Txn Txn.Discipline
open Txn.Tx (reads modify acquire tryAcquire throw each)

/-!
# Durable jobs — the queue as its callers see it

The log of `Jobs.Invariants` holds what the transactions returned.  Here each commit is
logged as the whole call: the request, the time the call came and what it returned.

* `Call.Did` — what the commit of a call does to the table, by its request;
* `callDiscipline` — `queueDiscipline` together with `Call.Did`;
* `call_safe` — every call is safe under it, whatever the others do meanwhile.
-/

variable {settings : JobsSettings} {fingerprint : Fingerprint} {h : List JobLock}

/-- One committed call of the queue: its request, the database time when it came and its
    outcome. -/
structure Call where
  request : Request
  started : Time
  outcome : Outcome

/-- The transaction of a request, with the time it came. -/
def Request.call (settings : JobsSettings) (fingerprint : Fingerprint) (r : Request) :
    JobTx Call := do
  let started ← now
  let outcome ← r.program settings fingerprint
  pure ⟨r, started, outcome⟩

/-- The transactions a session may open: the call of any request. -/
def AdmitsCall (settings : JobsSettings) (fingerprint : Fingerprint) (_ : List Call)
    (p : JobTx Call) : Prop :=
  ∃ r : Request, p = r.call settings fingerprint

/-- The rows of the table keep their identifiers, and none is added. -/
def KeepsIds (w : JobDb → JobDb) : Prop := ∀ g, (w g).jobs.map Job.id = g.jobs.map Job.id

/-- What the commit of a call does to the table. -/
def Call.Did (settings : JobsSettings) (fingerprint : Fingerprint) (c : Call) (g g' : JobDb) :
    Prop :=
  match c.request with
  | .enqueue id owner command => ∃ v, c.outcome = .view v ∧
      ((g'.jobs = g.jobs ∧ ∃ j ∈ g.jobs, j.id = v.id) ∨
        (v.id = id ∧ ∃ createdAt availableAt,
          g'.jobs = g.jobs ++
            [command.row settings fingerprint id owner createdAt availableAt]))
  | .claim _ _ => g'.jobs.map Job.id = g.jobs.map Job.id ∧ ∃ lease, c.outcome = .claimed lease
  | .finish lease _ => g'.jobs.map Job.id = g.jobs.map Job.id ∧
      ∃ recorded, c.outcome = .finished lease recorded ∧
        (recorded = true → ∃ t, c.started ≤ t ∧ ∃ j ∈ g.jobs, lease.owns t j = true)
  | .reviewRetry owner id => ∃ v, c.outcome = .view v ∧ ∃ j ∈ g.jobs, ∃ t,
      j.userId = owner ∧ j.id = id ∧ j.status = .deadLetter ∧
        g'.jobs = (g.set j.id (Job.requeue t)).jobs
  | .cancel _ _ => ∃ v, c.outcome = .view v ∧ (g'.jobs = g.jobs ∨ ∃ j ∈ g.jobs, ∃ t,
      (j.status = .queued ∨ j.status = .retryWait) ∧ g'.jobs = (g.set j.id (Job.cancel t)).jobs)

/-- The locking discipline of the queue, with what each call does. -/
def callDiscipline (settings : JobsSettings) (fingerprint : Fingerprint) :
    Discipline JobDb JobLock JobError Call where
  inv := JobDb.Ok settings
  post h c g g' :=
    (queueDiscipline settings fingerprint).post h c.outcome g g' ∧
      c.Did settings fingerprint g g'
  rely := (queueDiscipline settings fingerprint).rely
  env := Passes
  rely_refl := (queueDiscipline settings fingerprint).rely_refl
  rely_trans := (queueDiscipline settings fingerprint).rely_trans
  post_rely h h' c g g' hg hg' hdisj hpost :=
    (queueDiscipline settings fingerprint).post_rely h h' c.outcome g g' hg hg' hdisj hpost.1
  env_inv := (queueDiscipline settings fingerprint).env_inv
  env_rely := (queueDiscipline settings fingerprint).env_rely

/-! ### What each request does -/

/-- A commit whose call does what `Call.Did` says, whatever the table has become. -/
def DidCommit (settings : JobsSettings) (fingerprint : Fingerprint) (c : Call) (w : JobDb → JobDb)
    (h : List JobLock) (g : JobDb) : Prop :=
  ∀ g' φ new, Interference h g g' φ new → g'.Ok settings → c.Did settings fingerprint g' (w g')

/-- A row of the table is still there, under its identifier and its key. -/
theorem Interference.mem_same {g g' : JobDb} {φ : Job → Job} {new : List Job}
    (hi : Interference h g g' φ new) {j : Job} (hj : j ∈ g.jobs) :
    φ j ∈ g'.jobs ∧ j.SameIdentity (φ j) := by
  refine ⟨?_, (hi.kept j hj).same⟩
  rw [hi.jobs]
  exact List.mem_append_left _ (List.mem_map_of_mem hj)

/-- `JobRepository.enqueue` adds the row of its command, or finds the job of its key. -/
theorem enqueue_did (jobId owner : Uuid) (command : EnqueueJob) (started : Time) (g : JobDb) :
    (queueDiscipline settings fingerprint).wp (enqueue settings fingerprint jobId owner command)
      (fun v => DidCommit settings fingerprint
        ⟨.enqueue jobId owner command, started, .view v⟩) id [] g := by
  refine (wp_bind _ _ _ _ _ _ _).2 (wp_now (fun _ => rfl) fun g₁ _ _ _ _ => ?_)
  refine (wp_bind _ _ _ _ _ _ _).2 fun g₂ _ _ => ?_
  refine (wp_bind _ _ _ _ _ _ _).2 ((wp_reads _ _ _ _ _ _).2 fun g₃ _ _ => ?_)
  split
  · rename_i job hfound
    split
    · trivial
    · -- nothing was written, and the row that was found stays
      intro g₄ φ new hi _
      obtain ⟨hmem, hsame⟩ := hi.mem_same (List.mem_of_find?_eq_some hfound)
      exact ⟨job.view, rfl, .inl ⟨rfl, φ job, hmem, hsame.id⟩⟩
  · refine (wp_bind _ _ _ _ _ _ _).2 (wp_checkCapacity (by simp) fun g₄ _ _ _ _ _ => ?_)
    refine (wp_bind _ _ _ _ _ _ _).2 (wp_now (fun _ => rfl) fun g₅ _ _ _ _ => ?_)
    refine (wp_bind _ _ _ _ _ _ _).2 (wp_insertJob (by simp) fun g₆ _ _ _ _ _ => ?_)
    intro g₇ _ _ _ _
    exact ⟨_, rfl, .inr ⟨rfl, _, _, rfl⟩⟩

/-- `JobRepository.finish` records an outcome only for a lease that was still current after the
    call came. -/
theorem finish_did (lease : Lease) (r : FinishRequest) (started : Time) (g : JobDb)
    (hg : started ≤ g.clock) :
    (queueDiscipline settings fingerprint).wp (finish lease r)
      (fun b => DidCommit settings fingerprint
        ⟨.finish lease r, started, .finished lease b⟩) id [] g := by
  refine (wp_bind _ _ _ _ _ _ _).2 (wp_now (fun _ => rfl) fun g₁ _ _ hi₁ _ => ?_)
  refine (wp_bind _ _ _ _ _ _ _).2 (wp_selectForUpdate (fun h' g' _ => ?_) ?_)
  · intro g₂ _ _ _ _
    exact ⟨rfl, false, rfl, fun hfalse => absurd hfalse (by decide)⟩
  · rintro j g₂ _ _ hi₂ - hj howns g₃ ⟨_, _, hi₃⟩ - g₄ _ _ hi₄ _
    refine ⟨Table.map_key_set (fun j => (j.finish_sameIdentity _ r).id) _, true, rfl, fun _ => ?_⟩
    exact ⟨g₁.clock, hg.trans hi₁.clock, j,
      (hi₃.trans hi₄).mem_of_locked hj List.mem_cons_self, howns⟩

/-- `JobRepository.review_retry` puts one dead-letter job back into the queue. -/
theorem reviewRetry_did (owner jobId : Uuid) (started : Time) (g : JobDb) :
    (queueDiscipline settings fingerprint).wp (reviewRetry settings owner jobId)
      (fun v => DidCommit settings fingerprint
        ⟨.reviewRetry owner jobId, started, .view v⟩) id [] g := by
  refine (wp_bind _ _ _ _ _ _ _).2 fun g₁ _ _ => ?_
  refine (wp_bind _ _ _ _ _ _ _).2 (wp_selectForUpdate (fun _ _ _ => trivial) ?_)
  intro j g₂ φ₂ new₂ _ _ hj hp
  rw [Bool.and_eq_true, beq_iff_eq, beq_iff_eq] at hp
  show (queueDiscipline settings fingerprint).wp (ite _ _ _) _ id _ g₂
  split
  · trivial
  · rename_i hretryable
    have hdead : j.status = .deadLetter := by
      by_contra hne
      exact hretryable (.inl hne)
    refine (wp_bind _ _ _ _ _ _ _).2
      (wp_checkCapacity (by simp) fun g₃ _ _ hi₃ _ _ => ?_)
    refine (wp_bind _ _ _ _ _ _ _).2 (wp_now (fun _ => rfl) fun g₄ _ _ hi₄ _ => ?_)
    rintro g₅ ⟨_, _, hi₅⟩ - g₆ _ _ hi₆ _
    have hmem := (((hi₃.trans hi₄).trans hi₅).trans hi₆).mem_of_locked hj List.mem_cons_self
    exact ⟨_, rfl, j, hmem, _, hp.1, hp.2, hdead, rfl⟩

/-- `JobRepository.cancel` cancels one waiting job, or changes nothing. -/
theorem cancel_did (owner jobId : Uuid) (started : Time) (g : JobDb) :
    (queueDiscipline settings fingerprint).wp (cancel owner jobId)
      (fun v => DidCommit settings fingerprint
        ⟨.cancel owner jobId, started, .view v⟩) id [] g := by
  refine (wp_bind _ _ _ _ _ _ _).2 (wp_selectForUpdate (fun _ _ _ => trivial) ?_)
  intro j g₁ φ₁ new₁ _ _ hj hp
  show (queueDiscipline settings fingerprint).wp (ite _ _ _) _ id _ g₁
  split
  · exact fun g₂ _ _ _ _ => ⟨j.view, rfl, .inl rfl⟩
  · split
    · trivial
    · rename_i hcancellable
      have hs : j.status = .queued ∨ j.status = .retryWait := by
        by_contra hne
        exact hcancellable (not_or.1 hne)
      refine (wp_bind _ _ _ _ _ _ _).2 (wp_now (fun _ => rfl) fun g₂ _ _ hi₂ _ => ?_)
      rintro g₃ ⟨_, _, hi₃⟩ - g₄ _ _ hi₄ _
      have hmem := ((hi₂.trans hi₃).trans hi₄).mem_of_locked hj List.mem_cons_self
      exact ⟨_, rfl, .inr ⟨j, hmem, _, hs, rfl⟩⟩

/-! ### Claim adds no row -/

theorem KeepsIds.comp {u w : JobDb → JobDb} (hu : KeepsIds u) (hw : KeepsIds w) :
    KeepsIds (u ∘ w) := fun g => (hu (w g)).trans (hw g)

theorem keepsIds_set (jobId : Uuid) {f : Job → Job} (hf : ∀ j, (f j).id = j.id) :
    KeepsIds fun g => g.set jobId f := fun g => Table.map_key_set hf g.jobs

theorem updateWhere_writes {p : Job → Bool} {f : Time → Job → Job} (hf : ∀ t j, (f t j).id = j.id) :
    (updateWhere p f).Writes KeepsIds := by
  refine Tx.writes_bind (fun _ => trivial) fun ids => Tx.writes_each (fun jobId => ?_) ids
  refine Tx.writes_bind trivial fun _ => Tx.writes_bind (fun _ => trivial) fun row => ?_
  refine Tx.writes_bind (fun _ => trivial) fun t => ?_
  cases row with
  | none => trivial
  | some j => exact ⟨keepsIds_set jobId (hf t), trivial⟩

theorem firstUnlocked_writes (p : Job → Bool) (ids : List Uuid) :
    (firstUnlocked p ids).Writes KeepsIds := by
  induction ids with
  | nil => trivial
  | cons jobId ids ih =>
    refine Tx.writes_bind (fun _ => trivial) fun taken => ?_
    cases taken with
    | false => exact ih
    | true =>
      refine Tx.writes_bind (fun _ => trivial) fun row => ?_
      cases row with
      | none => exact ih
      | some j => trivial

theorem claim_writes (settings : JobsSettings) (token : Uuid) (jitter : Uuid → Jitter) :
    (claim settings token jitter).Writes KeepsIds := by
  refine Tx.writes_bind trivial fun _ => Tx.writes_bind (fun _ => trivial) fun t => ?_
  refine Tx.writes_bind (updateWhere_writes fun _ _ => rfl) fun _ => ?_
  refine Tx.writes_bind (updateWhere_writes fun _ _ => rfl) fun _ => ?_
  refine Tx.writes_bind (fun _ => trivial) fun running => ?_
  split
  · trivial
  · refine Tx.writes_bind ?_ fun row => ?_
    · exact Tx.writes_bind (fun _ => trivial) fun ids => firstUnlocked_writes _ ids
    · cases row with
      | none => trivial
      | some j => exact ⟨keepsIds_set j.id fun _ => rfl, trivial⟩

theorem claim_did (token : Uuid) (jitter : Uuid → Jitter) (started : Time) (g : JobDb) :
    (queueDiscipline settings fingerprint).wp (claim settings token jitter)
      (fun lease => DidCommit settings fingerprint
        ⟨.claim token jitter, started, .claimed lease⟩) id [] g := by
  have hkeeps := (queueDiscipline settings fingerprint).wp_of_writes (P := KeepsIds)
    (fun _ _ hu hw => hu.comp hw) (claim_writes settings token jitter) id [] g fun _ => rfl
  refine wp_mono _ (fun lease w _ _ hw => ?_) _ _ _ _ hkeeps
  intro g' _ _ _ _
  exact ⟨hw g', lease, rfl⟩

/-! ### Every call -/

/-- A request commits as the discipline asks, and does what its call says. -/
theorem request_did (r : Request) (started : Time) (g : JobDb) (hg : started ≤ g.clock) :
    (queueDiscipline settings fingerprint).wp (r.program settings fingerprint)
      (fun outcome => DidCommit settings fingerprint ⟨r, started, outcome⟩) id [] g := by
  cases r with
  | enqueue jobId owner command =>
    exact (wp_bind _ _ _ _ _ _ _).2 (enqueue_did jobId owner command started g)
  | claim token jitter => exact (wp_bind _ _ _ _ _ _ _).2 (claim_did token jitter started g)
  | finish lease r => exact (wp_bind _ _ _ _ _ _ _).2 (finish_did lease r started g hg)
  | reviewRetry owner jobId =>
    exact (wp_bind _ _ _ _ _ _ _).2 (reviewRetry_did owner jobId started g)
  | cancel owner jobId => exact (wp_bind _ _ _ _ _ _ _).2 (cancel_did owner jobId started g)

theorem call_safe {log : List Call} {p : JobTx Call} (hp : AdmitsCall settings fingerprint log p)
    (g : JobDb) : (callDiscipline settings fingerprint).Safe p id [] g := by
  obtain ⟨r, rfl⟩ := hp
  have hcongr : ∀ Q, (callDiscipline settings fingerprint).wp (r.call settings fingerprint) Q
      id [] g ↔
      (queueDiscipline settings fingerprint).wp (r.call settings fingerprint) Q id [] g := by
    intro Q
    refine wp_congr ?_ ?_ _ Q _ _ _
    · rfl
    · rfl
  rw [Safe, hcongr]
  refine (wp_bind _ _ _ _ _ _ _).2 (wp_now (fun _ => rfl) fun g₁ _ _ _ _ => ?_)
  refine (wp_bind _ _ _ _ _ _ _).2 ?_
  have hsafe := @request_safe settings fingerprint [] _ ⟨r, rfl⟩ g₁
  have hdid := @request_did settings fingerprint r g₁.clock g₁ le_rfl
  refine wp_mono _ (fun outcome w h g' hcommit => ?_) _ _ _ _ (wp_and _ _ _ _ _ hsafe hdid)
  rintro g'' ⟨φ, new, hi⟩ hg''
  obtain ⟨hinv, hpost⟩ := hcommit.1 g'' ⟨φ, new, hi⟩ hg''
  exact ⟨hinv, hpost, hcommit.2 g'' φ new hi hg''⟩

end Expensea.Jobs
