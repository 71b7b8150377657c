import Expensea.Jobs.Schemas
import Expensea.Lib.Table
import Mathlib.Data.List.Sort

namespace Expensea.Jobs

open Txn
open Txn.Tx (reads modify acquire tryAcquire throw each)

/-!
# Durable jobs — the queue transactions

`app/jobs/repository.py`, statement by statement: bounded admission under one
advisory lock, recovery of expired leases, `SKIP LOCKED` claiming and fenced
completion.  Row statements follow PostgreSQL under READ COMMITTED:

* `UPDATE ... WHERE` and `SELECT ... FOR UPDATE` choose rows from what is committed
  when the statement starts, then lock each row and check it again;
* `SKIP LOCKED` passes over rows another transaction has locked.

Values the program draws (fresh identifiers, jitter) are arguments.
-/

variable (settings : JobsSettings)

/-! ### Row statements -/

/-- The job with this primary key. -/
def JobDb.get (g : JobDb) (id : Uuid) : Option Job := Table.get Job.id id g.jobs

/-- Update the job with this primary key. -/
def JobDb.set (g : JobDb) (id : Uuid) (f : Job → Job) : JobDb :=
  { g with jobs := Table.set Job.id id f g.jobs }

/-- `SELECT pg_advisory_xact_lock(ADMISSION_LOCK)` -/
def admissionLock : JobTx Unit := acquire .admission

/-- `SELECT clock_timestamp()` -/
def now : JobTx Time := reads JobDb.clock

/-- One row of an `UPDATE`: locked, checked again and written. -/
def updateRow (p : Job → Bool) (f : Time → Job → Job) (id : Uuid) : JobTx Unit := do
  acquire (.row id)
  let row ← reads fun g => (g.get id).filter p
  let t ← now
  match row with
  | some _ => modify fun g => g.set id (f t)
  | none => pure ()

/-- `UPDATE job SET f WHERE p` -/
def updateWhere (p : Job → Bool) (f : Time → Job → Job) : JobTx Unit := do
  let ids ← reads fun g => (g.jobs.filter p).map Job.id
  each ids (updateRow p f)

/-- `SELECT ... WHERE p FOR UPDATE` of at most one row. -/
def selectForUpdate (p : Job → Bool) : JobTx (Option Job) := do
  let found ← reads fun g => g.jobs.find? p
  match found with
  | none => pure none
  | some j => do
    acquire (.row j.id)
    reads fun g => (g.get j.id).filter p

/-- The first of these rows that is not locked and still satisfies `p`. -/
def firstUnlocked (p : Job → Bool) : List Uuid → JobTx (Option Job)
  | [] => pure none
  | id :: ids => do
    let taken ← tryAcquire (.row id)
    if taken then do
      let row ← reads fun g => (g.get id).filter p
      match row with
      | some j => pure (some j)
      | none => firstUnlocked p ids
    else firstUnlocked p ids

/-- `ORDER BY available_at, created_at, id` -/
def Job.readyBefore (a b : Job) : Bool :=
  a.availableAt < b.availableAt || (a.availableAt == b.availableAt &&
    (a.createdAt < b.createdAt || (a.createdAt == b.createdAt && a.id ≤ b.id)))

/-- `SELECT ... WHERE p ORDER BY ... LIMIT 1 FOR UPDATE SKIP LOCKED` -/
def selectSkipLocked (p : Job → Bool) : JobTx (Option Job) := do
  let ids ← reads fun g => ((g.jobs.filter p).insertionSort fun a b => a.readyBefore b).map Job.id
  firstUnlocked p ids

/-! ### Operations -/

/-- `lease_expires_at <= now`; a null expiry compares as unknown, hence not true. -/
def Job.expiredAt (j : Job) (t : Time) : Bool :=
  match j.leaseExpiresAt with
  | some e => e ≤ t
  | none => false

/-- A job counts against the admission limits. -/
def Job.active (j : Job) : Bool := j.status ∈ ACTIVE

/-- Number of jobs that count against the admission limits. -/
def JobDb.pendingCount (g : JobDb) : Nat := g.jobs.countP Job.active

/-- Number of an owner's jobs that count against the admission limits. -/
def JobDb.ownedCount (owner : Uuid) (g : JobDb) : Nat :=
  g.jobs.countP fun j => j.active && j.userId == owner

/-- Number of leased jobs. -/
def JobDb.runningCount (g : JobDb) : Nat := g.jobs.countP fun j => j.status == .running

/-- `check_capacity` -/
def checkCapacity (owner : Uuid) : JobTx Unit := do
  let total ← reads JobDb.pendingCount
  let owned ← reads (JobDb.ownedCount owner)
  if settings.maxPending ≤ total then throw ⟨"JOB_QUEUE_FULL", 429⟩
  else if settings.maxPendingPerOwner ≤ owned then throw ⟨"OWNER_JOB_LIMIT", 429⟩
  else pure ()

/-- Insert a row; the primary key and the unique (owner, idempotency key) pair are
    checked by the database. -/
def insertJob (j : Job) : JobTx Unit := do
  acquire (.row j.id)
  let clash ← reads fun g => g.jobs.any fun k =>
    k.id == j.id || (k.userId == j.userId && k.idempotencyKey == j.idempotencyKey)
  if clash then throw ⟨"INTEGRITY_ERROR", 500⟩
  else modify fun g => { g with jobs := g.jobs ++ [j] }

/-- `EnqueueJob.fingerprint`, a digest of the kind and the payload. -/
abbrev Fingerprint := EnqueueJob → String

/-- The row `enqueue` inserts. -/
def EnqueueJob.row (fingerprint : Fingerprint) (id owner : Uuid) (command : EnqueueJob)
    (createdAt availableAt : Time) : Job where
  id := id
  userId := owner
  idempotencyKey := command.idempotencyKey
  kind := command.kind
  payload := some command.payload
  payloadHash := fingerprint command
  status := .queued
  attempts := 0
  maxAttempts := settings.maxAttempts
  reviewRetries := 0
  createdAt := createdAt
  availableAt := availableAt
  leaseToken := none
  leaseExpiresAt := none
  completedAt := none
  errorCode := none
  result := none

/-- `JobRepository.enqueue`; `id` is the new row's generated key. -/
def enqueue (fingerprint : Fingerprint) (id owner : Uuid) (command : EnqueueJob) :
    JobTx JobView := do
  let started ← now
  admissionLock
  let existing ← reads fun g => g.jobs.find? fun j =>
    j.userId == owner && j.idempotencyKey == command.idempotencyKey
  match existing with
  | some job =>
    if job.payloadHash ≠ fingerprint command then throw ⟨"IDEMPOTENCY_CONFLICT", 409⟩
    else pure job.view
  | none => do
    checkCapacity settings owner
    let availableAt ← now
    let job := command.row settings fingerprint id owner started availableAt
    insertJob job
    pure job.view

/-- A value of `random()`. -/
abbrev Jitter := { q : ℚ // 0 ≤ q ∧ q < 1 }

/-- Recovery of an expired lease with no attempts left. -/
def Job.expireDead (t : Time) (j : Job) : Job :=
  { j with status := .deadLetter, errorCode := some "LEASE_EXPIRED", leaseToken := none,
           leaseExpiresAt := none, completedAt := some t }

/-- `LEAST(max_backoff, backoff * 2 ^ (attempts - 1)) * (0.5 + 0.5 * random())` -/
def recoveryDelay (jitter : Jitter) (attempts : Nat) : ℚ :=
  min settings.maxBackoffSeconds (settings.backoffSeconds * 2 ^ ((attempts : ℤ) - 1)) *
    (1 / 2 + 1 / 2 * jitter.1)

/-- Recovery of an expired lease with attempts left. -/
def Job.expireRetry (delay : ℚ) (clock : Time) (j : Job) : Job :=
  { j with status := .retryWait, errorCode := some "LEASE_EXPIRED", leaseToken := none,
           leaseExpiresAt := none, availableAt := clock + delay }

/-- Hand the job out under a new lease token. -/
def Job.lease (token : Uuid) (expires : Time) (j : Job) : Job :=
  { j with status := .running, attempts := j.attempts + 1, leaseToken := some token,
           leaseExpiresAt := some expires, completedAt := none }

/-- The lease `claim` returns for the row it read. -/
def Job.leaseFor (token : Uuid) (j : Job) : Lease :=
  { id := j.id, userId := j.userId, token := token, payload := j.payload,
    attempts := j.attempts + 1 }

/-- A job `claim` may hand out at time `t`. -/
def Job.ready (t : Time) (j : Job) : Bool :=
  (j.status == .queued || j.status == .retryWait) && j.availableAt ≤ t && j.attempts < j.maxAttempts

/-- `JobRepository.claim`; `token` is the new lease token and `jitter` the random
    factor drawn for each recovered row. -/
def claim (token : Uuid) (jitter : Uuid → Jitter) : JobTx (Option Lease) := do
  admissionLock
  let t ← now
  updateWhere (fun j => j.status == .running && j.expiredAt t && j.maxAttempts ≤ j.attempts)
    fun _ => Job.expireDead t
  updateWhere (fun j => j.status == .running && j.expiredAt t && j.attempts < j.maxAttempts)
    fun clock j => j.expireRetry (recoveryDelay settings (jitter j.id) j.attempts) clock
  let running ← reads JobDb.runningCount
  if settings.concurrency ≤ running then pure none
  else do
    let job ← selectSkipLocked (Job.ready t)
    match job with
    | none => pure none
    | some j => do
      modify fun g => g.set j.id (Job.lease token (t + settings.leaseSeconds))
      pure (some (j.leaseFor token))

/-- The outcome a worker reports with `finish`. -/
structure FinishRequest where
  result : Option JobResult
  errorCode : Option String
  retryable : Bool
  delaySeconds : ℚ

/-- What `finish` writes to the leased row. -/
def Job.finish (t : Time) (r : FinishRequest) (j : Job) : Job :=
  let j := { j with leaseToken := none, leaseExpiresAt := none, errorCode := r.errorCode }
  match r.result with
  | some result =>
    { j with status := .succeeded, result := some result, completedAt := some t, payload := none }
  | none =>
    if r.retryable && j.attempts < j.maxAttempts then
      { j with status := .retryWait, availableAt := t + r.delaySeconds }
    else { j with status := .deadLetter, completedAt := some t }

/-- The row a lease still owns at time `t`. -/
def Lease.owns (lease : Lease) (t : Time) (j : Job) : Bool :=
  j.id == lease.id && j.userId == lease.userId && j.status == .running &&
    j.leaseToken == some lease.token && !j.expiredAt t && j.leaseExpiresAt.isSome

/-- `JobRepository.finish` -/
def finish (lease : Lease) (r : FinishRequest) : JobTx Bool := do
  let t ← now
  let job ← selectForUpdate (lease.owns t)
  match job with
  | none => pure false
  | some j => do
    modify fun g => g.set j.id (Job.finish t r)
    pure true

/-- `JobRepository.get(owner, job_id, lock=True)` -/
def getLocked (owner id : Uuid) : JobTx (Option Job) :=
  selectForUpdate fun j => j.userId == owner && j.id == id

/-- What `review_retry` writes. -/
def Job.requeue (t : Time) (j : Job) : Job :=
  { j with status := .queued, attempts := 0, reviewRetries := j.reviewRetries + 1,
           availableAt := t, completedAt := none, errorCode := none }

/-- `JobRepository.review_retry` -/
def reviewRetry (owner id : Uuid) : JobTx JobView := do
  admissionLock
  let job ← getLocked owner id
  match job with
  | none => throw ⟨"JOB_NOT_FOUND", 404⟩
  | some j =>
    if j.status ≠ .deadLetter ∨ 3 ≤ j.reviewRetries then throw ⟨"JOB_NOT_RETRYABLE", 409⟩
    else do
      checkCapacity settings owner
      let t ← now
      modify fun g => g.set j.id (Job.requeue t)
      pure (j.requeue t).view

/-- What `cancel` writes. -/
def Job.cancel (t : Time) (j : Job) : Job :=
  { j with status := .cancelled, completedAt := some t, payload := none }

/-- `JobRepository.cancel` -/
def cancel (owner id : Uuid) : JobTx JobView := do
  let job ← getLocked owner id
  match job with
  | none => throw ⟨"JOB_NOT_FOUND", 404⟩
  | some j =>
    if j.status = .cancelled then pure j.view
    else if j.status ≠ .queued ∧ j.status ≠ .retryWait then throw ⟨"JOB_CANNOT_CANCEL", 409⟩
    else do
      let t ← now
      modify fun g => g.set j.id (Job.cancel t)
      pure (j.cancel t).view

/-! ### Requests -/

/-- The transactions sessions may run: each draws its own identifiers. -/
inductive Request where
  | enqueue (id owner : Uuid) (command : EnqueueJob)
  | claim (token : Uuid) (jitter : Uuid → Jitter)
  | finish (lease : Lease) (r : FinishRequest)
  | reviewRetry (owner id : Uuid)
  | cancel (owner id : Uuid)

/-- The transaction of a request. -/
def Request.program (fingerprint : Fingerprint) : Request → JobTx Outcome
  | .enqueue id owner command => do
    let v ← Jobs.enqueue settings fingerprint id owner command
    pure (.view v)
  | .claim token jitter => do
    let lease ← Jobs.claim settings token jitter
    pure (.claimed lease)
  | .finish lease r => do
    let recorded ← Jobs.finish lease r
    pure (.finished lease recorded)
  | .reviewRetry owner id => do
    let v ← Jobs.reviewRetry settings owner id
    pure (.view v)
  | .cancel owner id => do
    let v ← Jobs.cancel owner id
    pure (.view v)

end Expensea.Jobs
