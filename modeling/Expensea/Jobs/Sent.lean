import Expensea.Jobs.Idempotency

namespace Expensea.Jobs

open Txn Txn.Discipline
open Txn.Tx (reads modify acquire tryAcquire throw each)

/-!
# Durable jobs — the commands that were sent

`Jobs.Idempotency` lets any enqueue call come.  Here only commands of a given set come, each any
number of times: this is what the queue says to clients of which the commands are known.

* `Stems` — every job is of a command that was sent, by its owner, key, digest and payload;
* `sentDiscipline` — `callDiscipline` with `Stems` in the invariant, and with what an enqueue call
  answers;
* `enqueue_no_conflict` — a command that is alone under its key is never refused as a conflict.
-/

variable {settings : JobsSettings} {fingerprint : Fingerprint} {h : List JobLock}

/-- The commands that were sent, each with the owner the endpoint authenticated. -/
abbrev Sent := Set (Uuid × EnqueueJob)

variable {S : Sent}

/-- The transactions a session may open: every call of the queue, but of the enqueue calls only
    those of commands that were sent. -/
def AdmitsSent (settings : JobsSettings) (fingerprint : Fingerprint) (S : Sent) (_ : List Call)
    (p : JobTx Call) : Prop :=
  ∃ r : Request, p = r.call settings fingerprint ∧
    ∀ id owner command, r = .enqueue id owner command → (owner, command) ∈ S

/-- Every job is of a command that was sent. -/
def Stems (fingerprint : Fingerprint) (S : Sent) (g : JobDb) : Prop :=
  ∀ j ∈ g.jobs, ∃ command, (j.userId, command) ∈ S ∧
    j.idempotencyKey = command.idempotencyKey ∧ j.payloadHash = fingerprint command ∧
      j.Holds command.payload

/-- The job of a command. -/
structure Job.Of (fingerprint : Fingerprint) (owner : Uuid) (command : EnqueueJob) (j : Job) :
    Prop where
  userId : j.userId = owner
  idempotencyKey : j.idempotencyKey = command.idempotencyKey
  payloadHash : j.payloadHash = fingerprint command

/-- What an enqueue call returned is the identifier of a job of its command. -/
def Call.Answers (fingerprint : Fingerprint) (c : Call) (g : JobDb) : Prop :=
  ∀ id owner command, c.request = .enqueue id owner command →
    ∃ v, c.outcome = .view v ∧ ∃ j ∈ g.jobs, j.id = v.id ∧ j.Of fingerprint owner command

theorem Job.Of.same {owner : Uuid} {command : EnqueueJob} {j j' : Job}
    (hj : j.Of fingerprint owner command) (hsame : j.SameIdentity j') :
    j'.Of fingerprint owner command where
  userId := hsame.userId.trans hj.userId
  idempotencyKey := hsame.idempotencyKey.trans hj.idempotencyKey
  payloadHash := hsame.payloadHash.trans hj.payloadHash

/-- The jobs of an answer stay: a commit keeps every row's identity. -/
theorem Call.Answers.later {c : Call} {a : Outcome} {g g' : JobDb} {φ : Job → Job}
    {new : Option Job} (hanswers : c.Answers fingerprint g)
    (hc : Committed settings fingerprint h a g g' φ new) : c.Answers fingerprint g' := by
  intro id owner command hrequest
  obtain ⟨v, hv, j, hj, hid, hof⟩ := hanswers id owner command hrequest
  have hsame := (hc.effect j hj).sameIdentity
  refine ⟨v, hv, φ j, ?_, hsame.id.trans hid, hof.same hsame⟩
  rw [hc.jobs]
  exact List.mem_append_left _ (List.mem_map_of_mem hj)

/-! ### What a commit does -/

/-- The command of the row a call created is the one the call was made with. -/
theorem Call.request_of_creates {c : Call} {jobId owner : Uuid} {command : EnqueueJob}
    (hcreates : c.creates jobId = some (owner, command)) :
    c.request = .enqueue jobId owner command := by
  obtain ⟨request, started, outcome⟩ := c
  cases request with
  | enqueue id owner' command' =>
    cases outcome with
    | view v =>
      rw [Call.creates_enqueue] at hcreates
      split at hcreates
      · rename_i hids
        obtain ⟨rfl, rfl⟩ := Prod.mk.inj (Option.some.inj hcreates)
        rw [hids.1]
      · cases hcreates
    | claimed lease => cases hcreates
    | finished lease recorded => cases hcreates
  | claim token jitter => simp [Call.creates] at hcreates
  | finish lease r => simp [Call.creates] at hcreates
  | reviewRetry owner id => simp [Call.creates] at hcreates
  | cancel owner id => simp [Call.creates] at hcreates

/-- A commit keeps the origins: a row that was there keeps its identity and its payload, and a new
    row is the row of the call's own command. -/
theorem Call.Did.stems {c : Call} {g g' : JobDb} {φ : Job → Job} {new : Option Job}
    (hdid : c.Did settings fingerprint g g')
    (hc : Committed settings fingerprint h c.outcome g g' φ new)
    (hsent : ∀ id owner command, c.request = .enqueue id owner command → (owner, command) ∈ S)
    (hstems : Stems fingerprint S g) : Stems fingerprint S g' := by
  intro j' hj'
  have hmem := hj'
  rw [hc.jobs] at hmem
  rcases List.mem_append.1 hmem with hold | hnew
  · obtain ⟨j, hj, rfl⟩ := List.mem_map.1 hold
    obtain ⟨command, hin, hkey, hhash, hholds⟩ := hstems j hj
    have hsame := (hc.effect j hj).sameIdentity
    refine ⟨command, ?_, hsame.idempotencyKey.trans hkey, hsame.payloadHash.trans hhash,
      (hc.effect j hj).holds hholds⟩
    rw [hsame.userId]
    exact hin
  · have hids : (g.jobs.map φ).map Job.id = g.jobs.map Job.id := by
      rw [List.map_map]
      exact List.map_congr_left fun j hj => (hc.effect j hj).sameIdentity.id
    have hone : new = some j' := by simpa using hnew
    have hadded : g'.jobs.map Job.id = g.jobs.map Job.id ++ [j'.id] := by
      rw [hc.jobs, List.map_append, hids, hone]
      rfl
    obtain ⟨owner, command, createdAt, availableAt, hjobs, hcreates⟩ := hdid.added hadded
    have hrow : j' = command.row settings fingerprint j'.id owner createdAt availableAt := by
      have heq := hjobs.symm.trans hc.jobs
      rw [hone] at heq
      exact (List.head_eq_of_cons_eq (List.append_inj' heq rfl).2).symm
    have hin := hsent _ _ _ (Call.request_of_creates hcreates)
    rw [hrow]
    exact ⟨command, hin, rfl, rfl, .inl rfl⟩

/-- What an enqueue returns names a job of its command, whatever the table has become. -/
theorem enqueue_answers (jobId owner : Uuid) (command : EnqueueJob) (started : Time) (g : JobDb) :
    (queueDiscipline settings fingerprint).wp (enqueue settings fingerprint jobId owner command)
      (fun v w h g => ∀ g' φ new, Interference h g g' φ new → g'.Ok settings →
        Call.Answers fingerprint ⟨.enqueue jobId owner command, started, .view v⟩ (w g'))
      id [] g := by
  refine (wp_bind _ _ _ _ _ _ _).2 (wp_now (fun _ => rfl) fun g₁ _ _ _ _ => ?_)
  refine (wp_bind _ _ _ _ _ _ _).2 fun g₂ _ _ => ?_
  refine (wp_bind _ _ _ _ _ _ _).2 ((wp_reads _ _ _ _ _ _).2 fun g₃ _ _ => ?_)
  split
  · rename_i job hfound
    split
    · trivial
    · -- the row that was found has the owner, the key and the digest of the command
      rename_i hhash
      intro g₄ φ new hi _ id' owner' command' hrequest
      obtain ⟨hmem, hsame⟩ := hi.mem_same (List.mem_of_find?_eq_some hfound)
      have hkeys := List.find?_some hfound
      simp only [Bool.and_eq_true, beq_iff_eq] at hkeys
      have hof : job.Of fingerprint owner command := ⟨hkeys.1, hkeys.2, not_not.1 hhash⟩
      cases hrequest
      exact ⟨job.view, rfl, φ job, hmem, hsame.id, hof.same hsame⟩
  · refine (wp_bind _ _ _ _ _ _ _).2 (wp_checkCapacity (by simp) fun g₄ _ _ _ _ _ => ?_)
    refine (wp_bind _ _ _ _ _ _ _).2 (wp_now (fun _ => rfl) fun g₅ _ _ _ _ => ?_)
    refine (wp_bind _ _ _ _ _ _ _).2 (wp_insertJob (by simp) fun g₆ _ _ _ _ _ => ?_)
    intro g₇ _ _ _ _ id' owner' command' hrequest
    cases hrequest
    exact ⟨_, rfl, _, List.mem_append_right _ List.mem_cons_self, rfl, rfl, rfl, rfl⟩

/-! ### The discipline -/

/-- The locking discipline of the queue where the commands that come are known. -/
def sentDiscipline (settings : JobsSettings) (fingerprint : Fingerprint) (S : Sent) :
    Discipline JobDb JobLock JobError Call where
  inv g := g.Ok settings ∧ Stems fingerprint S g
  post h c g g' := (callDiscipline settings fingerprint).post h c g g' ∧ c.Answers fingerprint g'
  rely := (callDiscipline settings fingerprint).rely
  env := Passes
  rely_refl := (callDiscipline settings fingerprint).rely_refl
  rely_trans := (callDiscipline settings fingerprint).rely_trans
  post_rely h h' c g g' hg hg' hdisj hpost :=
    (callDiscipline settings fingerprint).post_rely h h' c g g' hg.1 hg'.1 hdisj hpost.1
  env_inv g g' hg hpass :=
    ⟨(callDiscipline settings fingerprint).env_inv g g' hg.1 hpass,
      fun j hj => hg.2 j (hpass.1 ▸ hj)⟩
  env_rely h g g' hg hpass := (callDiscipline settings fingerprint).env_rely h g g' hg.1 hpass

/-- A call returns what it was called with. -/
theorem Request.call_returns (r : Request) :
    (r.call settings fingerprint).Returns fun c => c.request = r :=
  Tx.returns_bind fun _ => Tx.returns_bind fun _ => Tx.returns_pure rfl

/-- A call answers as its request asks, whatever the table has become. -/
theorem call_answers (r : Request) (g : JobDb) :
    (callDiscipline settings fingerprint).wp (r.call settings fingerprint)
      (fun c w h g => ∀ g' φ new, Interference h g g' φ new → g'.Ok settings →
        c.Answers fingerprint (w g')) id [] g := by
  have hsafe := @call_safe settings fingerprint [] _ ⟨r, rfl⟩ g
  have hother : (∀ id owner command, r ≠ .enqueue id owner command) →
      (callDiscipline settings fingerprint).wp (r.call settings fingerprint)
        (fun c w h g => ∀ g' φ new, Interference h g g' φ new → g'.Ok settings →
          c.Answers fingerprint (w g')) id [] g := by
    intro hne
    refine wp_mono _ (fun c w h g' hc => ?_) _ _ _ _
      (wp_of_returns _ r.call_returns _ _ _ hsafe)
    intro g'' φ new _ _ id owner command hrequest
    exact absurd (hc.1.symm.trans hrequest) (hne id owner command)
  cases r with
  | enqueue id owner command =>
    have hinv : (queueDiscipline settings fingerprint).inv =
        (callDiscipline settings fingerprint).inv := rfl
    have hrely : (queueDiscipline settings fingerprint).rely =
        (callDiscipline settings fingerprint).rely := rfl
    refine (wp_congr hinv hrely _ _ _ _ _).1 ?_
    refine (wp_bind _ _ _ _ _ _ _).2 (wp_now (fun _ => rfl) fun g₁ _ _ _ _ => ?_)
    exact (wp_bind _ _ _ _ _ _ _).2 ((wp_bind _ _ _ _ _ _ _).2
      (enqueue_answers id owner command g₁.clock g₁))
  | claim token jitter => exact hother fun _ _ _ => nofun
  | finish lease r => exact hother fun _ _ _ => nofun
  | reviewRetry owner id => exact hother fun _ _ _ => nofun
  | cancel owner id => exact hother fun _ _ _ => nofun

/-- Every admitted transaction is safe where the commands that come are known. -/
theorem sent_safe {log : List Call} {p : JobTx Call}
    (hp : AdmitsSent settings fingerprint S log p) (g : JobDb) :
    (sentDiscipline settings fingerprint S).Safe p id [] g := by
  obtain ⟨r, rfl, hsent⟩ := hp
  have hsafe := @call_safe settings fingerprint [] _ ⟨r, rfl⟩ g
  have hboth := wp_and _ _ _ _ _ hsafe (call_answers r g)
  have hinv : ∀ g, (sentDiscipline settings fingerprint S).inv g →
      (callDiscipline settings fingerprint).inv g := fun _ hi => hi.1
  have hrely : ∀ h g g', (sentDiscipline settings fingerprint S).rely h g g' →
      (callDiscipline settings fingerprint).rely h g g' := fun _ _ _ hr => hr
  have hall := wp_weaken hinv hrely _ _ _ _ _ (wp_of_returns _ r.call_returns _ _ _ hboth)
  refine wp_mono _ (fun c w h g' hc => ?_) _ _ _ _ hall
  obtain ⟨hrequest, hcommit, hanswers⟩ := hc
  rintro g'' ⟨φ, new, hi⟩ ⟨hok, hstems⟩
  obtain ⟨hok', hpost⟩ := hcommit g'' ⟨φ, new, hi⟩ hok
  obtain ⟨⟨ψ, added, hcommitted⟩, hdid⟩ := hpost
  have hstems' := hdid.stems hcommitted
    (fun id owner command he => hsent id owner command (hrequest.symm.trans he)) hstems
  exact ⟨⟨hok', hstems'⟩, ⟨⟨ψ, added, hcommitted⟩, hdid⟩, hanswers g'' φ new hi hok⟩

theorem sent_safe_from (settings : JobsSettings) (fingerprint : Fingerprint) (S : Sent) :
    ∀ log (p : JobTx Call) g, AdmitsSent settings fingerprint S log p →
      (sentDiscipline settings fingerprint S).inv g →
      (sentDiscipline settings fingerprint S).Safe p id [] g :=
  fun _ _ g hp _ => sent_safe hp g

/-- An empty table needs no command. -/
theorem sent_inv_empty (clock : Time) :
    (sentDiscipline settings fingerprint S).inv ⟨[], clock⟩ :=
  ⟨JobDb.empty_ok clock, fun _ hj => absurd hj List.not_mem_nil⟩

/-- In every run, what the enqueue calls returned are jobs of their commands. -/
theorem answers_of_reachable {ι : Type} [DecidableEq ι] {clock : Time}
    {s : State JobDb JobLock JobError Call ι}
    (hs : Reachable (AdmitsSent settings fingerprint S) Passes ⟨[], clock⟩ s) :
    ∀ c ∈ s.log, c.Answers fingerprint s.db := by
  refine commit_induction (J := fun g log => ∀ c ∈ log, c.Answers fingerprint g)
    (sent_safe_from settings fingerprint S) (sent_inv_empty clock) (fun c hc => absurd hc List.not_mem_nil) ?_ ?_ hs
  · intro h a g g' log _ _ hpost hlog c hmem
    obtain ⟨hcall, hanswers⟩ : (callDiscipline settings fingerprint).post h a g g' ∧
      a.Answers fingerprint g' := hpost
    obtain ⟨φ, new, hc⟩ := hcall.1
    rcases List.mem_append.1 hmem with hold | hnew
    · exact (hlog c hold).later hc
    · rw [List.mem_singleton.1 hnew]
      exact hanswers
  · intro g g' log _ hpass hlog c hmem id owner command hrequest
    obtain ⟨v, hv, j, hj, hid, hof⟩ := hlog c hmem id owner command hrequest
    exact ⟨v, hv, j, hpass.1 ▸ hj, hid, hof⟩

/-! ### No conflict -/

/-- The capacity check and the insert refuse for other reasons. -/
theorem insert_throws (owner : Uuid) (job : Time → Job) :
    (do checkCapacity settings owner
        let availableAt ← now
        insertJob (job availableAt)
        pure (job availableAt).view : JobTx JobView).Throws (· ≠ conflict) := by
  refine Tx.throws_bind ?_ fun _ => Tx.throws_bind (Tx.throws_reads _) fun availableAt =>
    Tx.throws_bind ?_ fun _ => Tx.throws_pure _
  · refine Tx.throws_bind (Tx.throws_reads _) fun total => Tx.throws_bind (Tx.throws_reads _)
      fun owned => ?_
    split
    · exact Tx.throws_throw.2 (by decide)
    · split
      · exact Tx.throws_throw.2 (by decide)
      · exact Tx.throws_pure _
  · refine Tx.throws_bind (Tx.throws_acquire _) fun _ => Tx.throws_bind (Tx.throws_reads _)
      fun clash => ?_
    split
    · exact Tx.throws_throw.2 (by decide)
    · exact Tx.throws_modify _

/-- A command that is alone under its key is never refused as a conflict: the job of its key, if
    there is one, is its own. -/
theorem enqueue_no_conflict (jobId owner : Uuid) (command : EnqueueJob)
    (halone : ∀ m ∈ S, m.2.idempotencyKey = command.idempotencyKey → m.2 = command) (g : JobDb) :
    (sentDiscipline settings fingerprint S).wpe (· ≠ conflict)
      ((Request.enqueue jobId owner command).call settings fingerprint)
      (fun _ _ _ _ => True) id [] g := by
  refine (wpe_bind _ _ _ _ _ _).2 ?_
  intro g₁ _ _
  refine (wpe_bind _ _ _ _ _ _).2 ((wpe_bind _ _ _ _ _ _).2 ((wpe_bind _ _ _ _ _ _).2 ?_))
  intro g₂ _ _
  refine (wpe_bind _ _ _ _ _ _).2 ?_
  intro g₃ _ _
  refine (wpe_bind _ _ _ _ _ _).2 ((wpe_reads _ _ _ _ _).2 ?_)
  intro g₄ _ hinv
  split
  · rename_i job hfound
    obtain ⟨other, hin, hkey, hhash, -⟩ := hinv.2 job (List.mem_of_find?_eq_some hfound)
    have hkeys := List.find?_some hfound
    simp only [Bool.and_eq_true, beq_iff_eq] at hkeys
    have hsame : other = command := halone _ hin (hkey.symm.trans hkeys.2)
    rw [if_neg (not_not.2 (hsame ▸ hhash))]
    trivial
  · exact wpe_of_throws (insert_throws owner fun availableAt =>
      command.row settings fingerprint jobId owner g₂.clock availableAt) (fun _ _ _ _ => trivial)
      _ _ _

end Expensea.Jobs
