import Expensea.Lib.Interleave
import Expensea.Domain.Enums
import Expensea.Domain.Text
import Mathlib.Data.Rat.Defs
import Mathlib.Algebra.Order.Ring.Rat
import Mathlib.Tactic.NormNum

namespace Expensea.Jobs

/-!
# Durable jobs — rows, settings and messages

The job table (`app/models/job.py`), the validated settings
(`app/jobs/config.py`), the command, the view and the errors of
`app/jobs/schemas.py`.  Times are seconds as exact rationals.
-/

/-- A point in time, in seconds. -/
abbrev Time := ℚ

/-- `JobsSettings`: API admission and worker limits, with the bounds its fields and
    its validator check. -/
structure JobsSettings where
  concurrency : Nat
  maxPending : Nat
  maxPendingPerOwner : Nat
  maxAttempts : Nat
  leaseSeconds : Nat
  timeoutSeconds : Nat
  pollSeconds : ℚ
  backoffSeconds : ℚ
  maxBackoffSeconds : ℚ
  concurrency_range : 1 ≤ concurrency ∧ concurrency ≤ 16
  maxPending_range : 1 ≤ maxPending ∧ maxPending ≤ 10000
  maxPendingPerOwner_range : 1 ≤ maxPendingPerOwner ∧ maxPendingPerOwner ≤ 1000
  maxAttempts_range : 1 ≤ maxAttempts ∧ maxAttempts ≤ 5
  leaseSeconds_range : 10 ≤ leaseSeconds ∧ leaseSeconds ≤ 1800
  timeoutSeconds_range : 1 ≤ timeoutSeconds ∧ timeoutSeconds ≤ 1200
  pollSeconds_range : 1 / 10 ≤ pollSeconds ∧ pollSeconds ≤ 30
  backoffSeconds_range : 1 / 10 ≤ backoffSeconds ∧ backoffSeconds ≤ 60
  maxBackoffSeconds_range : 1 ≤ maxBackoffSeconds ∧ maxBackoffSeconds ≤ 3600
  lease_exceeds_timeout : timeoutSeconds + 5 < leaseSeconds
  backoff_le_max : backoffSeconds ≤ maxBackoffSeconds

/-- The default settings. -/
def JobsSettings.default : JobsSettings where
  concurrency := 4
  maxPending := 1000
  maxPendingPerOwner := 50
  maxAttempts := 3
  leaseSeconds := 180
  timeoutSeconds := 120
  pollSeconds := 1
  backoffSeconds := 2
  maxBackoffSeconds := 300
  concurrency_range := by decide
  maxPending_range := by decide
  maxPendingPerOwner_range := by decide
  maxAttempts_range := by decide
  leaseSeconds_range := by decide
  timeoutSeconds_range := by decide
  pollSeconds_range := by norm_num
  backoffSeconds_range := by norm_num
  maxBackoffSeconds_range := by norm_num
  lease_exceeds_timeout := by decide
  backoff_le_max := by norm_num

/-- `JobStatus` -/
inductive JobStatus where
  | queued
  | running
  | retryWait
  | succeeded
  | deadLetter
  | cancelled
  deriving DecidableEq, Repr

/-- The statuses that count against the admission limits. -/
def ACTIVE : List JobStatus := [.queued, .running, .retryWait]

/-- The only job kind, `"financial_note_extract"`. -/
inductive JobKind where
  | financialNoteExtract
  deriving DecidableEq, Repr

/-- `FinancialNotePayload`, in the JSON form the queue stores. -/
structure FinancialNotePayload where
  note : PyStr
  sourceTimestamp : PyStr
  labels : List PyStr
  deriving DecidableEq, Repr

/-- `EnqueueJob` -/
structure EnqueueJob where
  kind : JobKind
  idempotencyKey : Uuid
  payload : FinancialNotePayload
  deriving DecidableEq, Repr

/-- `JobResult` -/
structure JobResult where
  proposalId : Uuid
  deriving DecidableEq, Repr

/-- One row of the job table.  `payload = none` is the erased payload `{}`. -/
structure Job where
  id : Uuid
  userId : Uuid
  idempotencyKey : Uuid
  kind : JobKind
  payload : Option FinancialNotePayload
  payloadHash : String
  status : JobStatus
  attempts : Nat
  maxAttempts : Nat
  reviewRetries : Nat
  createdAt : Time
  availableAt : Time
  leaseToken : Option Uuid
  leaseExpiresAt : Option Time
  completedAt : Option Time
  errorCode : Option String
  result : Option JobResult
  deriving DecidableEq, Repr

/-- `JobView`: what the owner sees of a job. -/
structure JobView where
  id : Uuid
  kind : JobKind
  status : JobStatus
  attempts : Nat
  maxAttempts : Nat
  reviewRetries : Nat
  createdAt : Time
  availableAt : Time
  completedAt : Option Time
  errorCode : Option String
  result : Option JobResult
  deriving DecidableEq, Repr

/-- `JobView.model_validate(job)` -/
def Job.view (j : Job) : JobView :=
  { id := j.id, kind := j.kind, status := j.status, attempts := j.attempts,
    maxAttempts := j.maxAttempts, reviewRetries := j.reviewRetries, createdAt := j.createdAt,
    availableAt := j.availableAt, completedAt := j.completedAt, errorCode := j.errorCode,
    result := j.result }

/-- `JobError`: a fixed public error code and HTTP status. -/
structure JobError where
  code : String
  statusCode : Nat
  deriving DecidableEq, Repr

/-- `Lease`: what a worker receives from `claim`. -/
structure Lease where
  id : Uuid
  userId : Uuid
  token : Uuid
  payload : Option FinancialNotePayload
  attempts : Nat
  deriving DecidableEq, Repr

/-- The job store: the table and the database clock. -/
structure JobDb where
  jobs : List Job
  clock : Time

/-- Locks of the queue: the advisory admission lock and the row locks. -/
inductive JobLock where
  | admission
  | row (id : Uuid)
  deriving DecidableEq, Repr

/-- What a queue transaction returns to its caller. -/
inductive Outcome where
  | view (v : JobView)
  | claimed (lease : Option Lease)
  | finished (lease : Lease) (recorded : Bool)
  deriving DecidableEq, Repr

/-- Queue transactions. -/
abbrev JobTx := Txn.Tx JobDb JobLock JobError

end Expensea.Jobs
