import Expensea.Jobs.Repository

namespace Expensea.Jobs

open Txn
open Txn.Tx (reads modify acquire tryAcquire throw each)

/-!
# Durable jobs — the locking discipline of the queue

What the queue transactions owe each other:

* `JobStep` — everything one transaction may do to one row;
* `JobDb.Ok` — the invariant of the committed table;
* `Committed` — what a commit does to the table, by its outcome;
* `Interference` — what may happen to the table while a transaction holds given locks:
  a locked row stays, and under the admission lock rows only leave the counts;
* `queueDiscipline` — the three together, for the rule of `Txn.Discipline`.
-/

/-! ### Row steps -/

/-- Everything a transaction may do to a row at clock time `c`. -/
inductive JobStep (c : Time) : Job → Job → Prop
  | expireDead {j : Job} (t : Time) : j.status = .running → j.expiredAt c = true →
      j.maxAttempts ≤ j.attempts → JobStep c j (j.expireDead t)
  | expireRetry {j : Job} (delay clock : Time) : j.status = .running → j.expiredAt c = true →
      j.attempts < j.maxAttempts → JobStep c j (j.expireRetry delay clock)
  | lease {j : Job} (token : Uuid) (expires : Time) :
      j.status = .queued ∨ j.status = .retryWait → j.attempts < j.maxAttempts →
      JobStep c j (j.lease token expires)
  | finish {j : Job} (t : Time) (r : FinishRequest) : j.status = .running →
      JobStep c j (j.finish t r)
  | requeue {j : Job} (t : Time) : j.status = .deadLetter → j.reviewRetries < 3 →
      JobStep c j (j.requeue t)
  | cancel {j : Job} (t : Time) : j.status = .queued ∨ j.status = .retryWait →
      JobStep c j (j.cancel t)

/-- The columns no transaction rewrites. -/
structure Job.SameIdentity (j j' : Job) : Prop where
  id : j'.id = j.id
  userId : j'.userId = j.userId
  idempotencyKey : j'.idempotencyKey = j.idempotencyKey
  kind : j'.kind = j.kind
  payloadHash : j'.payloadHash = j.payloadHash
  maxAttempts : j'.maxAttempts = j.maxAttempts
  createdAt : j'.createdAt = j.createdAt

theorem Job.SameIdentity.refl (j : Job) : j.SameIdentity j := ⟨rfl, rfl, rfl, rfl, rfl, rfl, rfl⟩

theorem Job.SameIdentity.trans {i j k : Job} (h₁ : i.SameIdentity j) (h₂ : j.SameIdentity k) :
    i.SameIdentity k where
  id := h₂.id.trans h₁.id
  userId := h₂.userId.trans h₁.userId
  idempotencyKey := h₂.idempotencyKey.trans h₁.idempotencyKey
  kind := h₂.kind.trans h₁.kind
  payloadHash := h₂.payloadHash.trans h₁.payloadHash
  maxAttempts := h₂.maxAttempts.trans h₁.maxAttempts
  createdAt := h₂.createdAt.trans h₁.createdAt

theorem Job.finish_sameIdentity (t : Time) (r : FinishRequest) (j : Job) :
    j.SameIdentity (j.finish t r) := by
  simp only [Job.finish]
  split
  · exact ⟨rfl, rfl, rfl, rfl, rfl, rfl, rfl⟩
  · split <;> exact ⟨rfl, rfl, rfl, rfl, rfl, rfl, rfl⟩

theorem JobStep.sameIdentity {c : Time} {j j' : Job} (h : JobStep c j j') :
    j.SameIdentity j' := by
  cases h with
  | finish t r => exact j.finish_sameIdentity t r
  | _ => exact ⟨rfl, rfl, rfl, rfl, rfl, rfl, rfl⟩

/-- Moves that only take a row out of the counts the admission lock guards. -/
structure Job.Drains (j j' : Job) : Prop where
  running : j'.status = .running → j.status = .running
  active : j'.active = true → j.active = true

theorem Job.Drains.refl (j : Job) : j.Drains j := ⟨fun h => h, fun h => h⟩

theorem Job.Drains.trans {i j k : Job} (h₁ : i.Drains j) (h₂ : j.Drains k) : i.Drains k :=
  ⟨h₁.running ∘ h₂.running, h₁.active ∘ h₂.active⟩

theorem Job.active_iff {j : Job} :
    j.active = true ↔ j.status = .queued ∨ j.status = .running ∨ j.status = .retryWait := by
  simp [Job.active, ACTIVE]

/-- A finished job leaves the running ones and does not become active. -/
theorem Job.finish_drains {t : Time} {r : FinishRequest} {j : Job} (h : j.status = .running) :
    j.Drains (j.finish t r) where
  running := fun _ => h
  active := fun _ => Job.active_iff.2 (.inr (.inl h))

theorem Job.cancel_drains {t : Time} {j : Job} : j.Drains (j.cancel t) where
  running := by simp [Job.cancel]
  active := by simp [Job.cancel, Job.active, ACTIVE]

/-! ### The invariant -/

/-- What holds of every row. -/
structure Job.Ok (settings : JobsSettings) (j : Job) : Prop where
  maxAttempts_eq : j.maxAttempts = settings.maxAttempts
  attempts_le : j.attempts ≤ j.maxAttempts
  reviewRetries_le : j.reviewRetries ≤ 3
  leaseToken_iff : j.leaseToken.isSome ↔ j.status = .running
  leaseExpiresAt_iff : j.leaseExpiresAt.isSome ↔ j.status = .running
  completedAt_iff : j.completedAt.isSome ↔
    j.status = .succeeded ∨ j.status = .deadLetter ∨ j.status = .cancelled
  succeeded : j.status = .succeeded → j.result.isSome ∧ j.payload = none

/-- What holds of the committed table. -/
structure JobDb.Ok (settings : JobsSettings) (g : JobDb) : Prop where
  ids : (g.jobs.map Job.id).Nodup
  keys : (g.jobs.map fun j => (j.userId, j.idempotencyKey)).Nodup
  rows : ∀ j ∈ g.jobs, j.Ok settings
  running_le : g.runningCount ≤ settings.concurrency
  pending_le : g.pendingCount ≤ settings.maxPending
  owned_le : ∀ owner, g.ownedCount owner ≤ settings.maxPendingPerOwner

variable {settings : JobsSettings}

/-- Every row step keeps the row invariant. -/
theorem JobStep.ok {c : Time} {j j' : Job} (h : JobStep c j j') (hj : j.Ok settings) :
    j'.Ok settings := by
  obtain ⟨hmax, hatt, hrev, htok, hexp, hdone, hsucc⟩ := hj
  cases h with
  | expireDead t hs he ha =>
    exact ⟨hmax, hatt, hrev, by simp [Job.expireDead], by simp [Job.expireDead],
      by simp [Job.expireDead], by simp [Job.expireDead]⟩
  | expireRetry delay clock hs he ha =>
    refine ⟨hmax, hatt, hrev, by simp [Job.expireRetry], by simp [Job.expireRetry], ?_,
      by simp [Job.expireRetry]⟩
    simpa [Job.expireRetry, hs] using hdone
  | lease token expires hs ha =>
    exact ⟨hmax, ha, hrev, by simp [Job.lease], by simp [Job.lease], by simp [Job.lease],
      by simp [Job.lease]⟩
  | requeue t hs hr =>
    refine ⟨hmax, Nat.zero_le _, hr, ?_, ?_, by simp [Job.requeue], by simp [Job.requeue]⟩
    · simpa [Job.requeue, hs] using htok
    · simpa [Job.requeue, hs] using hexp
  | cancel t hs =>
    have hne : ¬ j.status = .running := by rcases hs with hs | hs <;> simp [hs]
    refine ⟨hmax, hatt, hrev, ?_, ?_, by simp [Job.cancel], by simp [Job.cancel]⟩
    · simpa [Job.cancel, hne] using htok
    · simpa [Job.cancel, hne] using hexp
  | finish t r hs =>
    have hopen : j.completedAt.isSome = false := by simpa [hs] using hdone
    simp only [Job.finish]
    split
    · exact ⟨hmax, hatt, hrev, by simp, by simp, by simp, by simp⟩
    · split
      · exact ⟨hmax, hatt, hrev, by simp, by simp, by simp [hopen], by simp⟩
      · exact ⟨hmax, hatt, hrev, by simp, by simp, by simp, by simp⟩

/-- The row `enqueue` inserts satisfies the row invariant. -/
theorem EnqueueJob.row_ok (fingerprint : Fingerprint) (id owner : Uuid) (command : EnqueueJob)
    (createdAt availableAt : Time) :
    (command.row settings fingerprint id owner createdAt availableAt).Ok settings := by
  constructor <;> simp [EnqueueJob.row]

/-! ### Recovery and outcomes -/

/-- A row as `claim` leaves it before choosing one to lease: untouched, or recovered from
    an expired lease. -/
inductive Recovered (c : Time) (j : Job) : Job → Prop
  | same : Recovered c j j
  | dead (t : Time) : j.status = .running → j.expiredAt c = true → j.maxAttempts ≤ j.attempts →
      Recovered c j (j.expireDead t)
  | retry (delay clock : Time) : j.status = .running → j.expiredAt c = true →
      j.attempts < j.maxAttempts → Recovered c j (j.expireRetry delay clock)

/-- What a commit with this outcome, at clock time `c`, does to each row. -/
def Outcome.Effect (c : Time) : Outcome → Job → Job → Prop
  | .claimed none, j, j' => Recovered c j j'
  | .claimed (some l), j, j' =>
    if j.id = l.id then
      ∃ m expires, Recovered c j m ∧ (m.status = .queued ∨ m.status = .retryWait) ∧
        m.attempts < m.maxAttempts ∧ l = m.leaseFor l.token ∧ j' = m.lease l.token expires
    else Recovered c j j'
  | .finished l true, j, j' =>
    if j.id = l.id then ∃ t r, t ≤ c ∧ l.owns t j = true ∧ j' = j.finish t r else j' = j
  | .finished _ false, j, j' => j' = j
  | .view v, j, j' =>
    j' = j ∨ j.id = v.id ∧
      ((∃ t, j.status = .deadLetter ∧ j.reviewRetries < 3 ∧ j' = j.requeue t) ∨
        ∃ t, (j.status = .queued ∨ j.status = .retryWait) ∧ j' = j.cancel t)

/-- The row an outcome says it changed. -/
def Outcome.target : Outcome → Option Uuid
  | .claimed (some l) => some l.id
  | .finished l true => some l.id
  | _ => none

theorem Recovered.steps {c : Time} {j j' : Job} (h : Recovered c j j') :
    Relation.ReflTransGen (JobStep c) j j' := by
  cases h with
  | same => exact .refl
  | dead t hs he ha => exact .single (.expireDead t hs he ha)
  | retry delay clock hs he ha => exact .single (.expireRetry delay clock hs he ha)

theorem Lease.owns_running {l : Lease} {t : Time} {j : Job} (h : l.owns t j = true) :
    j.status = .running := by
  simp only [Lease.owns, Bool.and_eq_true, beq_iff_eq] at h
  exact h.1.1.1.2

/-- Every effect is made of row steps. -/
theorem Outcome.Effect.steps {c : Time} {a : Outcome} {j j' : Job} (h : a.Effect c j j') :
    Relation.ReflTransGen (JobStep c) j j' := by
  match a, h with
  | .claimed none, h => exact Recovered.steps h
  | .claimed (some l), h =>
    simp only [Outcome.Effect] at h
    split at h
    · obtain ⟨m, expires, hm, hs, ha, -, rfl⟩ := h
      exact hm.steps.tail (.lease _ _ hs ha)
    · exact Recovered.steps h
  | .finished l true, h =>
    simp only [Outcome.Effect] at h
    split at h
    · obtain ⟨t, r, -, ho, rfl⟩ := h
      exact .single (.finish t r (Lease.owns_running ho))
    · rw [h]
  | .finished l false, h => rw [show j' = j from h]
  | .view v, h =>
    rcases h with rfl | ⟨-, ⟨t, hs, hr, rfl⟩ | ⟨t, hs, rfl⟩⟩
    · exact .refl
    · exact .single (.requeue t hs hr)
    · exact .single (.cancel t hs)

theorem Outcome.Effect.sameIdentity {c : Time} {a : Outcome} {j j' : Job}
    (h : a.Effect c j j') : j.SameIdentity j' := by
  have hsteps := h.steps
  clear h
  induction hsteps with
  | refl => exact .refl j
  | tail _ hstep ih => exact ih.trans hstep.sameIdentity

theorem Outcome.Effect.ok {c : Time} {a : Outcome} {j j' : Job} (h : a.Effect c j j')
    (hj : j.Ok settings) : j'.Ok settings := by
  have hsteps := h.steps
  clear h
  induction hsteps with
  | refl => exact hj
  | tail _ hstep ih => exact hstep.ok ih

/-! ### The discipline -/

/-- What a commit does to the table: rows change in place as the outcome says, a row only
    under its lock and towards more work only under the admission lock; `enqueue` may add
    one row, under the admission lock and the lock of the new row. -/
structure Committed (settings : JobsSettings) (fingerprint : Fingerprint) (h : List JobLock)
    (a : Outcome) (g g' : JobDb) (φ : Job → Job) (new : Option Job) : Prop where
  jobs : g'.jobs = g.jobs.map φ ++ new.toList
  clock : g'.clock = g.clock
  effect : ∀ j ∈ g.jobs, a.Effect g.clock j (φ j)
  locked : ∀ j ∈ g.jobs, φ j = j ∨ .row j.id ∈ h ∧ (.admission ∈ h ∨ j.Drains (φ j))
  target : ∀ id, a.target = some id → ∃ j ∈ g.jobs, j.id = id
  added : ∀ j ∈ new, .admission ∈ h ∧ .row j.id ∈ h ∧
    (∀ k ∈ g.jobs, k.id ≠ j.id ∧ (k.userId, k.idempotencyKey) ≠ (j.userId, j.idempotencyKey)) ∧
    ∃ (command : EnqueueJob) (createdAt availableAt : Time),
      j = command.row settings fingerprint j.id j.userId createdAt availableAt

/-- How a row may change while a transaction holds the locks `h`. -/
structure Kept (h : List JobLock) (j j' : Job) : Prop where
  same : j.SameIdentity j'
  locked : .row j.id ∈ h → j' = j
  drains : .admission ∈ h → j.Drains j'

/-- How the table may change while a transaction holds the locks `h`. -/
structure Interference (h : List JobLock) (g g' : JobDb) (φ : Job → Job) (new : List Job) :
    Prop where
  jobs : g'.jobs = g.jobs.map φ ++ new
  kept : ∀ j ∈ g.jobs, Kept h j (φ j)
  added : ∀ j ∈ new, .admission ∉ h ∧ .row j.id ∉ h
  clock : g.clock ≤ g'.clock

/-- Time passes: the database clock moves on. -/
def Passes (g g' : JobDb) : Prop := g'.jobs = g.jobs ∧ g.clock ≤ g'.clock

theorem Interference.refl (h : List JobLock) (g : JobDb) : Interference h g g id [] where
  jobs := by simp
  kept := fun j _ => ⟨.refl j, fun _ => rfl, fun _ => .refl j⟩
  added := by simp
  clock := le_refl _

theorem Interference.trans {h : List JobLock} {g g' g'' : JobDb} {φ ψ : Job → Job}
    {new new' : List Job} (h₁ : Interference h g g' φ new) (h₂ : Interference h g' g'' ψ new') :
    Interference h g g'' (ψ ∘ φ) (new.map ψ ++ new') where
  jobs := by rw [h₂.jobs, h₁.jobs, List.map_append, List.map_map, List.append_assoc]
  kept := by
    intro j hj
    have hmem : φ j ∈ g'.jobs := h₁.jobs ▸ List.mem_append_left _ (List.mem_map_of_mem hj)
    obtain ⟨hs₁, hl₁, hd₁⟩ := h₁.kept j hj
    obtain ⟨hs₂, hl₂, hd₂⟩ := h₂.kept (φ j) hmem
    refine ⟨hs₁.trans hs₂, fun hlock => ?_, fun hadm => (hd₁ hadm).trans (hd₂ hadm)⟩
    rw [Function.comp_apply, hl₂ (hs₁.id ▸ hlock), hl₁ hlock]
  added := by
    intro j hj
    rcases List.mem_append.1 hj with hj | hj
    · obtain ⟨k, hk, rfl⟩ := List.mem_map.1 hj
      have hmem : k ∈ g'.jobs := h₁.jobs ▸ List.mem_append_right _ hk
      rw [(h₂.kept k hmem).same.id]
      exact h₁.added k hk
    · exact h₂.added j hj
  clock := h₁.clock.trans h₂.clock

/-- A commit is interference for every transaction whose locks are disjoint. -/
theorem Committed.interference {fingerprint : Fingerprint} {h h' : List JobLock} {a : Outcome}
    {g g' : JobDb} {φ : Job → Job} {new : Option Job} (hdisj : ∀ l ∈ h, l ∉ h')
    (hc : Committed settings fingerprint h a g g' φ new) :
    Interference h' g g' φ new.toList where
  jobs := hc.jobs
  kept := by
    intro j hj
    refine ⟨(hc.effect j hj).sameIdentity, fun hlock => ?_, fun hadm => ?_⟩
    · rcases hc.locked j hj with heq | ⟨hrow, -⟩
      · exact heq
      · exact absurd hlock (hdisj _ hrow)
    · rcases hc.locked j hj with heq | ⟨-, hadm' | hd⟩
      · rw [heq]; exact .refl j
      · exact absurd hadm (hdisj _ hadm')
      · exact hd
  added := by
    intro j hj
    obtain ⟨hadm, hrow, -⟩ := hc.added j (by simpa using hj)
    exact ⟨hdisj _ hadm, hdisj _ hrow⟩
  clock := hc.clock.ge

/-- The locking discipline of the queue. -/
def queueDiscipline (settings : JobsSettings) (fingerprint : Fingerprint) :
    Discipline JobDb JobLock JobError Outcome where
  inv := JobDb.Ok settings
  post h a g g' := ∃ φ new, Committed settings fingerprint h a g g' φ new
  rely h g g' := ∃ φ new, Interference h g g' φ new
  env := Passes
  rely_refl h g := ⟨id, [], Interference.refl h g⟩
  rely_trans := by
    rintro h g g' g'' ⟨φ, new, h₁⟩ ⟨ψ, new', h₂⟩
    exact ⟨_, _, h₁.trans h₂⟩
  post_rely := by
    rintro h h' a g g' - - hdisj ⟨φ, new, hc⟩
    exact ⟨φ, new.toList, hc.interference hdisj⟩
  env_inv := by
    rintro g g' ⟨hids, hkeys, hrows, hrun, hpend, hown⟩ ⟨hjobs, -⟩
    refine ⟨hjobs ▸ hids, hjobs ▸ hkeys, hjobs ▸ hrows, ?_, ?_, ?_⟩
    · simpa [JobDb.runningCount, hjobs] using hrun
    · simpa [JobDb.pendingCount, hjobs] using hpend
    · simpa [JobDb.ownedCount, hjobs] using hown
  env_rely := by
    rintro h g g' - ⟨hjobs, hclock⟩
    refine ⟨id, [], by simpa using hjobs, ?_, by simp, hclock⟩
    exact fun j _ => ⟨.refl j, fun _ => rfl, fun _ => .refl j⟩

end Expensea.Jobs
