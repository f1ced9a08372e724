import ZhiyanRag.Base

/-!
# The fact-source models

The Pydantic models of the PostgreSQL contract and their validators: document identities, document
versions with their lifecycle, ingestion jobs, PDF objects, snapshot receipts and cleanup jobs. A
validator is a function to `Except`: it returns the model unchanged or raises.
-/

namespace ZhiyanRag.Storage

inductive LifecycleStatus
  | registered
  | processing
  | review
  | ready
  | failed
  | inactive
  deriving DecidableEq

def LifecycleStatus.value : LifecycleStatus → String
  | .registered => "REGISTERED"
  | .processing => "PROCESSING"
  | .review => "REVIEW"
  | .ready => "READY"
  | .failed => "FAILED"
  | .inactive => "INACTIVE"

inductive IndexState
  | pending
  | ready
  | failed
  deriving DecidableEq

inductive IngestionJobStatus
  | pending
  | running
  | succeeded
  | failed
  deriving DecidableEq

inductive CleanupJobStatus
  | pending
  | running
  | retry
  | succeeded
  | failed
  deriving DecidableEq

inductive SourceType
  | uploaded
  | collected
  deriving DecidableEq

/-- `ALLOWED_LIFECYCLE_TRANSITIONS`. -/
def allowedLifecycleTransitions : LifecycleStatus → List LifecycleStatus
  | .registered => [.processing, .inactive]
  | .processing => [.review, .ready, .failed, .inactive]
  | .review => [.processing, .failed, .inactive]
  | .ready => [.inactive]
  | .failed => [.processing, .inactive]
  | .inactive => []

/-- `_require_timezone`. -/
def requireTimezone (value : Datetime) (fieldName : String) : Except PyError Timestamp :=
  if value.hasOffset then .ok value.instant
  else .error ⟨.validationError, fieldName ++ " must include a timezone"⟩

/-! ### Documents and versions -/

structure DocumentIdentityV1 where
  paperId : String
  documentId : String
  ownerId : String
  sourceType : SourceType
  mappingVersion : String
  sourceCreatedTime : Timestamp
  sourceUpdatedTime : Timestamp
  deriving DecidableEq

structure IndexStatesV1 where
  elasticsearchChunks : IndexState := .pending
  milvusVectors : IndexState := .pending
  deriving DecidableEq

structure DocumentVersionLifecycleV1 where
  paperId : String
  documentId : String
  ownerId : String
  documentVersionId : String
  contentSha256 : String
  sourceSnapshotSha256 : String
  parseVersion : String
  lifecycleRevision : Int
  lifecycleStatus : LifecycleStatus
  parseFinishTime : Option Timestamp := none
  chunkSplitterTime : Option Timestamp := none
  chunkCreateTime : Option Timestamp := none
  chunkGenTime : Option Timestamp := none
  vectorIndexTime : Option Timestamp := none
  indexStates : IndexStatesV1 := {}
  deleteTime : Option Timestamp := none
  chunkExpireTime : Option Timestamp := none
  lastAccessTime : Option Timestamp := none
  lastRefreshTime : Option Timestamp := none
  failureCode : Option String := none
  updatedAt : Timestamp
  deriving DecidableEq

namespace DocumentVersionLifecycleV1

/-- Both index states `READY`, as finalisation records them. -/
def bothReady : IndexStatesV1 := ⟨.ready, .ready⟩

/-- All parse, chunk and vector timestamps are present. -/
def timesPresent (v : DocumentVersionLifecycleV1) : Bool :=
  v.parseFinishTime.isSome && v.chunkSplitterTime.isSome && v.chunkCreateTime.isSome &&
    v.chunkGenTime.isSome && v.vectorIndexTime.isSome

/-- `lifecycle_fails_closed`. -/
def lifecycleFailsClosed (v : DocumentVersionLifecycleV1) : Except PyError Unit := do
  ensure (v.lifecycleStatus = .inactive || (v.deleteTime.isNone && v.chunkExpireTime.isNone))
    .validationError "only INACTIVE versions may have delete or expiry timestamps"
  ensure (v.lifecycleStatus ≠ .inactive || !(v.deleteTime.isNone && v.chunkExpireTime.isNone))
    .validationError "INACTIVE requires delete_time or chunk_expire_time"
  ensure (v.lifecycleStatus ≠ .failed || v.failureCode.isSome)
    .validationError "FAILED requires failure_code"
  ensure (v.lifecycleStatus ≠ .ready || v.timesPresent)
    .validationError "READY requires all parse, chunk and vector timestamps"
  ensure (v.lifecycleStatus ≠ .ready || v.indexStates = bothReady)
    .validationError "READY requires Elasticsearch and Milvus READY"
  ensure (v.lifecycleStatus ≠ .ready || v.failureCode.isNone)
    .validationError "READY must not retain a failure_code"

/-- The field constraints and `lifecycle_fails_closed`, on fields that are already stripped. -/
def validate (v : DocumentVersionLifecycleV1) : Except PyError DocumentVersionLifecycleV1 := do
  ensure (contractIdPattern v.paperId) .validationError "paper_id"
  ensure (contractIdPattern v.documentId) .validationError "document_id"
  ensure (contractIdPattern v.ownerId) .validationError "owner_id"
  ensure (contractIdPattern v.documentVersionId) .validationError "document_version_id"
  ensure (sha256Pattern v.contentSha256) .validationError "content_sha256"
  ensure (sha256Pattern v.sourceSnapshotSha256) .validationError "source_snapshot_sha256"
  ensure (contractIdPattern v.parseVersion) .validationError "parse_version"
  ensure (decide (1 ≤ v.lifecycleRevision)) .validationError "lifecycle_revision"
  ensure (v.failureCode.all contractIdPattern) .validationError "failure_code"
  v.lifecycleFailsClosed
  return v

/-- `is_active`, the property of the model and the generated column of the table. -/
def isActive (v : DocumentVersionLifecycleV1) : Bool :=
  decide (v.lifecycleStatus = .ready) && v.deleteTime.isNone && v.chunkExpireTime.isNone

/-- What `validate` asks of a row. -/
structure Valid (v : DocumentVersionLifecycleV1) : Prop where
  paperId : contractIdPattern v.paperId = true
  documentId : contractIdPattern v.documentId = true
  ownerId : contractIdPattern v.ownerId = true
  documentVersionId : contractIdPattern v.documentVersionId = true
  contentSha256 : sha256Pattern v.contentSha256 = true
  sourceSnapshotSha256 : sha256Pattern v.sourceSnapshotSha256 = true
  parseVersion : contractIdPattern v.parseVersion = true
  revision : 1 ≤ v.lifecycleRevision
  failureCode : v.failureCode.all contractIdPattern = true
  inactive : v.lifecycleStatus = .inactive ↔ ¬(v.deleteTime = none ∧ v.chunkExpireTime = none)
  failed : v.lifecycleStatus = .failed → v.failureCode.isSome
  ready : v.lifecycleStatus = .ready →
    v.timesPresent = true ∧ v.indexStates = bothReady ∧ v.failureCode = none

theorem lifecycleFailsClosed_eq_ok {v : DocumentVersionLifecycleV1} :
    v.lifecycleFailsClosed = .ok () ↔
      (v.lifecycleStatus = .inactive ↔ ¬(v.deleteTime = none ∧ v.chunkExpireTime = none)) ∧
        (v.lifecycleStatus = .failed → v.failureCode.isSome) ∧
        (v.lifecycleStatus = .ready →
          v.timesPresent = true ∧ v.indexStates = bothReady ∧ v.failureCode = none) := by
  unfold lifecycleFailsClosed
  simp only [ensure_bind, ensure_eq_ok]
  cases v.lifecycleStatus <;> cases v.deleteTime <;> simp [Option.isSome_iff_ne_none]

theorem validate_eq_ok {v validated : DocumentVersionLifecycleV1} :
    v.validate = .ok validated ↔ validated = v ∧ v.Valid := by
  unfold validate
  simp only [check_bind, ensure_eq_ok, lifecycleFailsClosed_eq_ok, pure_eq_ok, decide_eq_true_eq]
  constructor
  · rintro ⟨h1, h2, h3, h4, h5, h6, h7, h8, h9, ⟨h10, h11, h12⟩, rfl⟩
    exact ⟨rfl, h1, h2, h3, h4, h5, h6, h7, h8, h9, h10, h11, h12⟩
  · rintro ⟨rfl, h⟩
    exact ⟨h.paperId, h.documentId, h.ownerId, h.documentVersionId, h.contentSha256,
      h.sourceSnapshotSha256, h.parseVersion, h.revision, h.failureCode,
      ⟨h.inactive, h.failed, h.ready⟩, rfl⟩

end DocumentVersionLifecycleV1

/-! ### Jobs -/

structure IngestionJobV1 where
  jobId : String
  ownerId : String
  idempotencyKey : String
  documentId : String
  documentVersionId : String
  status : IngestionJobStatus
  attemptCount : Int
  failureCode : Option String := none
  createdAt : Timestamp
  updatedAt : Timestamp
  deriving DecidableEq

/-- The field constraints and `failed_job_requires_code`. -/
def IngestionJobV1.validate (job : IngestionJobV1) : Except PyError IngestionJobV1 := do
  ensure (contractIdPattern job.jobId) .validationError "job_id"
  ensure (contractIdPattern job.ownerId) .validationError "owner_id"
  ensure (contractIdPattern job.idempotencyKey) .validationError "idempotency_key"
  ensure (contractIdPattern job.documentId) .validationError "document_id"
  ensure (contractIdPattern job.documentVersionId) .validationError "document_version_id"
  ensure (decide (0 ≤ job.attemptCount)) .validationError "attempt_count"
  ensure (job.failureCode.all contractIdPattern) .validationError "failure_code"
  ensure (job.status ≠ .failed || job.failureCode.isSome)
    .validationError "FAILED ingestion job requires failure_code"
  return job

theorem IngestionJobV1.eq_of_validate {job validated : IngestionJobV1}
    (h : job.validate = .ok validated) : validated = job := by
  unfold validate at h
  simp only [check_bind, pure_eq_ok] at h
  obtain ⟨-, -, -, -, -, -, -, -, rfl⟩ := h
  rfl

inductive CleanupBackend
  | elasticsearchChunks
  | milvusVectors
  | runtimeSnapshot
  deriving DecidableEq

def CleanupBackend.value : CleanupBackend → String
  | .elasticsearchChunks => "elasticsearch_chunks"
  | .milvusVectors => "milvus_vectors"
  | .runtimeSnapshot => "runtime_snapshot"

structure CleanupJobV1 where
  cleanupId : String
  backend : CleanupBackend
  ownerId : String
  documentId : String
  documentVersionId : String
  status : CleanupJobStatus
  attemptCount : Int
  maxAttempts : Int
  nextAttemptAt : Timestamp
  leaseToken : Option String := none
  leaseExpiresAt : Option Timestamp := none
  failureCode : Option String := none
  createdAt : Timestamp
  updatedAt : Timestamp
  completedAt : Option Timestamp := none
  deriving DecidableEq

namespace CleanupJobV1

def isTerminal (job : CleanupJobV1) : Bool :=
  decide (job.status = .succeeded) || decide (job.status = .failed)

def isRetryOrFailed (job : CleanupJobV1) : Bool :=
  decide (job.status = .retry) || decide (job.status = .failed)

/-- `cleanup_state_is_replay_safe`. -/
def cleanupStateIsReplaySafe (job : CleanupJobV1) : Except PyError Unit := do
  ensure (decide (job.status = .running) == (job.leaseToken.isSome && job.leaseExpiresAt.isSome))
    .validationError "RUNNING cleanup requires an exclusive lease"
  ensure (!job.isRetryOrFailed || job.failureCode.isSome)
    .validationError "RETRY or FAILED cleanup requires failure_code"
  ensure (job.isRetryOrFailed || job.failureCode.isNone)
    .validationError "only RETRY or FAILED cleanup may retain failure_code"
  ensure (job.isTerminal == job.completedAt.isSome)
    .validationError "terminal cleanup state must match completed_at"
  ensure (decide (job.attemptCount ≤ job.maxAttempts))
    .validationError "cleanup attempt_count exceeds max_attempts"
  ensure (job.status ≠ .pending || decide (job.attemptCount = 0))
    .validationError "PENDING cleanup must not have attempts"
  ensure (job.status ≠ .running || decide (1 ≤ job.attemptCount))
    .validationError "RUNNING cleanup requires at least one attempt"

/-- The field constraints and `cleanup_state_is_replay_safe`, on fields that are already stripped.
-/
def validate (job : CleanupJobV1) : Except PyError CleanupJobV1 := do
  ensure (contractIdPattern job.cleanupId) .validationError "cleanup_id"
  ensure (contractIdPattern job.ownerId) .validationError "owner_id"
  ensure (contractIdPattern job.documentId) .validationError "document_id"
  ensure (contractIdPattern job.documentVersionId) .validationError "document_version_id"
  ensure (decide (0 ≤ job.attemptCount)) .validationError "attempt_count"
  ensure (decide (1 ≤ job.maxAttempts) && decide (job.maxAttempts ≤ 100)) .validationError
    "max_attempts"
  ensure (job.leaseToken.all contractIdPattern) .validationError "lease_token"
  ensure (job.failureCode.all contractIdPattern) .validationError "failure_code"
  job.cleanupStateIsReplaySafe
  return job

/-- What `validate` asks of a row: a lease exactly while `RUNNING`, a failure code exactly in
`RETRY` and `FAILED`, a completion time exactly in a terminal state, and attempts within the limit.
-/
structure Valid (job : CleanupJobV1) : Prop where
  cleanupId : contractIdPattern job.cleanupId = true
  ownerId : contractIdPattern job.ownerId = true
  documentId : contractIdPattern job.documentId = true
  documentVersionId : contractIdPattern job.documentVersionId = true
  attempts : 0 ≤ job.attemptCount ∧ job.attemptCount ≤ job.maxAttempts
  maxAttempts : 1 ≤ job.maxAttempts ∧ job.maxAttempts ≤ 100
  leaseToken : job.leaseToken.all contractIdPattern = true
  failureCode : job.failureCode.all contractIdPattern = true
  lease : job.status = .running ↔ job.leaseToken.isSome ∧ job.leaseExpiresAt.isSome
  failure : job.isRetryOrFailed = job.failureCode.isSome
  terminal : job.isTerminal = job.completedAt.isSome
  pending : job.status = .pending → job.attemptCount = 0
  running : job.status = .running → 1 ≤ job.attemptCount

theorem cleanupStateIsReplaySafe_eq_ok {job : CleanupJobV1} :
    job.cleanupStateIsReplaySafe = .ok () ↔
      (job.status = .running ↔ job.leaseToken.isSome ∧ job.leaseExpiresAt.isSome) ∧
        job.isRetryOrFailed = job.failureCode.isSome ∧ job.isTerminal = job.completedAt.isSome ∧
        job.attemptCount ≤ job.maxAttempts ∧ (job.status = .pending → job.attemptCount = 0) ∧
        (job.status = .running → 1 ≤ job.attemptCount) := by
  unfold cleanupStateIsReplaySafe
  simp only [ensure_bind, ensure_eq_ok, isRetryOrFailed, isTerminal]
  cases job.status <;> cases job.failureCode <;> cases job.leaseToken <;> simp

theorem validate_eq_ok {job validated : CleanupJobV1} :
    job.validate = .ok validated ↔ validated = job ∧ job.Valid := by
  unfold validate
  simp only [check_bind, ensure_eq_ok, cleanupStateIsReplaySafe_eq_ok, pure_eq_ok,
    decide_eq_true_eq, Bool.and_eq_true]
  constructor
  · rintro ⟨h1, h2, h3, h4, h5, h6, h7, h8, ⟨h9, h10, h11, h12, h13, h14⟩, rfl⟩
    exact ⟨rfl, h1, h2, h3, h4, ⟨h5, h12⟩, h6, h7, h8, h9, h10, h11, h13, h14⟩
  · rintro ⟨rfl, h⟩
    exact ⟨h.cleanupId, h.ownerId, h.documentId, h.documentVersionId, h.attempts.1, h.maxAttempts,
      h.leaseToken, h.failureCode,
      ⟨h.lease, h.failure, h.terminal, h.attempts.2, h.pending, h.running⟩, rfl⟩

end CleanupJobV1

/-! ### Runtime snapshots -/

structure PdfObjectV1 where
  ownerId : String
  documentId : String
  documentVersionId : String
  objectKey : String
  storageBackend : String
  contentSha256 : String
  sizeBytes : Int
  mediaType : String := "application/pdf"
  storedAt : Timestamp
  deriving DecidableEq

structure RuntimeSnapshotV1 where
  ownerId : String
  documentId : String
  documentVersionId : String
  pdfObjectKey : String
  pdfSha256 : String
  chunkCount : Nat
  chunkSnapshotSha256 : String
  deriving DecidableEq

end ZhiyanRag.Storage
