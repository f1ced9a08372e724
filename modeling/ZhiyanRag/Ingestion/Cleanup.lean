import Mathlib.Algebra.Group.Nat.Defs
import ZhiyanRag.Ingestion.IndexLifecycle

/-!
# Physical cleanup

`PersistentIndexCleanupWorker.run_once` as a program: claim a job, run its backend's cleaner (for
the runtime snapshot: look the PDF up, delete the file, purge the rows), and record the outcome
under the lease.
-/

namespace ZhiyanRag.Ingestion

open ZhiyanRag.Storage

structure CleanupExecutionResult where
  job : CleanupJobV1
  physicalObjectExisted : Option Bool
  deriving DecidableEq

/-- The worker's settings, with the checks of its constructor. -/
structure CleanupWorker where
  leaseSeconds : Int := 300
  baseRetrySeconds : Nat := 30
  maxRetrySeconds : Nat := 3600
  positive : 1 ≤ leaseSeconds ∧ 1 ≤ baseRetrySeconds := by decide
  covers : baseRetrySeconds ≤ maxRetrySeconds := by decide
  deriving DecidableEq

/-- `_retry_delay`. -/
def CleanupWorker.retryDelay (worker : CleanupWorker) (job : CleanupJobV1) : Nat :=
  min (worker.baseRetrySeconds * 2 ^ (job.attemptCount - 1).toNat) worker.maxRetrySeconds

/-- `cleanup_id` and `lease_token` of the claimed job, and what its cleaner is told. -/
structure LeasedJob where
  job : CleanupJobV1
  leaseToken : String
  deriving DecidableEq

inductive WorkerState
  | claim
  | deleteIndex (backend : IndexBackend) (leased : LeasedJob)
  | lookup (leased : LeasedJob)
  | deletePdf (leased : LeasedJob) (pdfObject : PdfObjectV1)
  | purge (leased : LeasedJob) (existed : Bool)
  | complete (leased : LeasedJob) (existed : Bool)
  | recordFailure (leased : LeasedJob) (retryAt : Datetime)
  | returned (result : Option CleanupExecutionResult)
  | raised (error : PyError)
  deriving DecidableEq

/-- The cleaner of the leased backend. -/
def LeasedJob.clean (leased : LeasedJob) : WorkerState :=
  match leased.job.backend with
  | .elasticsearchChunks => .deleteIndex .elasticsearch leased
  | .milvusVectors => .deleteIndex .milvus leased
  | .runtimeSnapshot => .lookup leased

/-- `f"{job.backend.upper()}_DELETE_FAILED"`. -/
def deleteFailureCode : CleanupBackend → String
  | .elasticsearchChunks => "ELASTICSEARCH_CHUNKS_DELETE_FAILED"
  | .milvusVectors => "MILVUS_VECTORS_DELETE_FAILED"
  | .runtimeSnapshot => "RUNTIME_SNAPSHOT_DELETE_FAILED"

/-- After `claim_cleanup`. -/
def claimed : Except PyError (Except PyError (Option CleanupJobV1)) → WorkerState
  | .error e => .raised e
  | .ok (.error e) => .raised e
  | .ok (.ok none) => .returned none
  | .ok (.ok (some job)) =>
    match job.leaseToken with
    | some leaseToken =>
      if job.status = .running then LeasedJob.clean ⟨job, leaseToken⟩
      else .raised ⟨.cleanupWorkerError, "cleanup repository returned an unleased job"⟩
    | none => .raised ⟨.cleanupWorkerError, "cleanup repository returned an unleased job"⟩

/-- `retry_at`, or the overflow of the date arithmetic. -/
def CleanupWorker.retryAt (worker : CleanupWorker) (clock : Datetime) (job : CleanupJobV1) :
    Except PyError Datetime := do
  let instant := clock.instant + 1000000 * (worker.retryDelay job : Int)
  ensure (decide (instant ≤ datetimeMax)) .overflowError "date value out of range"
  return ⟨instant, clock.hasOffset⟩

/-- The handler of a failed cleaner, up to its call. -/
def CleanupWorker.failed (worker : CleanupWorker) (clock : Datetime) (leased : LeasedJob) :
    WorkerState :=
  match worker.retryAt clock leased.job with
  | .ok retryAt => .recordFailure leased retryAt
  | .error e => .raised e

def WorkerState.next (worker : CleanupWorker) (choice : Choice) :
    WorkerState → Option (Pending WorkerState)
  | claim => some ⟨.repository (.claimCleanup choice.newId worker.leaseSeconds choice.now), claimed⟩
  | deleteIndex backend leased => some
    ⟨.deleteVersion backend leased.job.ownerId leased.job.documentVersionId, fun
      | .ok existed => .complete leased existed
      | .error _ => worker.failed choice.clock leased⟩
  | lookup leased => some
    ⟨.getInactivePdfObject leased.job.ownerId leased.job.documentVersionId, fun
      | .ok (some pdfObject) => .deletePdf leased pdfObject
      | .ok none => .complete leased false
      | .error _ => worker.failed choice.clock leased⟩
  | deletePdf leased pdfObject => some
    ⟨.deletePdf pdfObject, fun
      | .ok existed => .purge leased existed
      | .error _ => worker.failed choice.clock leased⟩
  | purge leased existed => some
    ⟨.repository (.purgeInactiveRuntimeSnapshot leased.job.ownerId leased.job.documentVersionId),
      fun
      | .ok () => .complete leased existed
      | .error _ => worker.failed choice.clock leased⟩
  | complete leased existed => some
    ⟨.repository (.completeCleanup leased.job.cleanupId leased.leaseToken choice.now), fun
      | .ok job => .returned (some ⟨job, some existed⟩)
      | .error _ => .raised ⟨.cleanupWorkerError,
          "physical cleanup succeeded but completion was not persisted"⟩⟩
  | recordFailure leased retryAt => some
    ⟨.repository (.recordCleanupFailure leased.job.cleanupId leased.leaseToken
      (deleteFailureCode leased.job.backend) retryAt choice.now), fun
      | .ok job => .returned (some ⟨job, none⟩)
      | .error _ => .raised ⟨.cleanupWorkerError,
          "physical cleanup failed and retry state was not persisted"⟩⟩
  | returned _ => none
  | raised _ => none

end ZhiyanRag.Ingestion
