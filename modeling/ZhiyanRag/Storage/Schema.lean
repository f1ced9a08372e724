import ZhiyanRag.Lib.Table
import ZhiyanRag.Ingestion.Models
import ZhiyanRag.Storage.Models

/-!
# The PostgreSQL schema

The six tables of the fact source, the CHECK constraints of each as a Boolean on a row, and the
triggers: the lifecycle guard on document versions, and the guard that lets snapshot rows go only
once their version is `INACTIVE`. Primary keys are the keys of the tables; the other unique keys and
the foreign keys are checked where a statement inserts.
-/

namespace ZhiyanRag.Storage

open Relational ZhiyanRag.Ingestion

/-- A row of `rag_chunks`. -/
structure ChunkRow where
  chunkId : String
  ownerId : String
  documentId : String
  documentVersionId : String
  chunkOrdinal : Int
  text : String
  sectionPath : String
  pageStart : Int
  pageEnd : Int
  parentChunkId : Option String
  previousChunkId : Option String
  nextChunkId : Option String
  visibility : Visibility
  libraryScopeIds : List String
  parseVersion : String
  embeddingVersion : String
  deriving DecidableEq

structure Database where
  documents : Table DocumentIdentityV1.documentId
  versions : Table DocumentVersionLifecycleV1.documentVersionId
  ingestionJobs : Table IngestionJobV1.jobId
  pdfObjects : Table PdfObjectV1.documentVersionId
  chunks : Table ChunkRow.chunkId
  cleanupJobs : Table CleanupJobV1.cleanupId

/-- The migrated schema before the first row. -/
def Database.empty : Database :=
  ⟨Table.empty, Table.empty, Table.empty, Table.empty, Table.empty, Table.empty⟩

/-! ### CHECK constraints -/

def checkDocument (d : DocumentIdentityV1) : Bool :=
  contractIdPattern d.documentId && contractIdPattern d.ownerId && contractIdPattern d.paperId &&
    contractIdPattern d.mappingVersion && decide (d.sourceCreatedTime ≤ d.sourceUpdatedTime)

/-- `rag_document_versions_delete_state`. -/
def checkDeleteState (v : DocumentVersionLifecycleV1) : Bool :=
  (decide (v.lifecycleStatus = .inactive) && (v.deleteTime.isSome || v.chunkExpireTime.isSome)) ||
    (decide (v.lifecycleStatus ≠ .inactive) && v.deleteTime.isNone && v.chunkExpireTime.isNone)

/-- `rag_document_versions_failure_state`. -/
def checkFailureState (v : DocumentVersionLifecycleV1) : Bool :=
  decide (v.lifecycleStatus ≠ .failed) || v.failureCode.isSome

/-- `rag_document_versions_ready_state`. -/
def checkReadyState (v : DocumentVersionLifecycleV1) : Bool :=
  decide (v.lifecycleStatus ≠ .ready) ||
    (v.parseFinishTime.isSome && v.chunkSplitterTime.isSome && v.chunkCreateTime.isSome &&
      v.chunkGenTime.isSome && v.vectorIndexTime.isSome &&
      decide (v.indexStates.elasticsearchChunks = .ready) &&
      decide (v.indexStates.milvusVectors = .ready) && v.failureCode.isNone)

def checkDocumentVersion (v : DocumentVersionLifecycleV1) : Bool :=
  contractIdPattern v.documentVersionId && sha256Pattern v.contentSha256 &&
    sha256Pattern v.sourceSnapshotSha256 && contractIdPattern v.parseVersion &&
    decide (1 ≤ v.lifecycleRevision) && v.failureCode.all contractIdPattern &&
    checkDeleteState v && checkFailureState v && checkReadyState v

def checkIngestionJob (j : IngestionJobV1) : Bool :=
  contractIdPattern j.jobId && contractIdPattern j.ownerId && contractIdPattern j.idempotencyKey &&
    decide (0 ≤ j.attemptCount) && j.failureCode.all contractIdPattern &&
    (decide (j.status = .failed) == j.failureCode.isSome)

/-- The CHECKs of `rag_index_cleanup_jobs`; its foreign key is not among them. -/
def checkCleanupJob (j : CleanupJobV1) : Bool :=
  contractIdPattern j.cleanupId && contractIdPattern j.ownerId && contractIdPattern j.documentId &&
    contractIdPattern j.documentVersionId && decide (0 ≤ j.attemptCount) &&
    decide (1 ≤ j.maxAttempts) && decide (j.maxAttempts ≤ 100) &&
    j.leaseToken.all contractIdPattern && j.failureCode.all contractIdPattern &&
    (decide (j.status = .running) == (j.leaseToken.isSome && j.leaseExpiresAt.isSome)) &&
    (j.isRetryOrFailed == j.failureCode.isSome) && (j.isTerminal == j.completedAt.isSome) &&
    decide (j.attemptCount ≤ j.maxAttempts) &&
    (decide (j.status ≠ .pending) || decide (j.attemptCount = 0))

def checkPdfObject (p : PdfObjectV1) : Bool :=
  objectKeyPattern p.objectKey && decide (p.storageBackend = "filesystem_v1") &&
    sha256Pattern p.contentSha256 && decide (0 < p.sizeBytes) &&
    decide (p.mediaType = "application/pdf")

def checkChunk (c : ChunkRow) : Bool :=
  contractIdPattern c.chunkId && decide (0 ≤ c.chunkOrdinal) && decide (c.text ≠ "") &&
    decide (c.sectionPath ≠ "") && decide (1 ≤ c.pageStart) && decide (c.pageStart ≤ c.pageEnd) &&
    contractIdPattern c.parseVersion && contractIdPattern c.embeddingVersion

/-- What the column types of `rag_chunks` accept: `INTEGER` ranges, and text without NUL. -/
def storableChunk (c : ChunkRow) : Bool :=
  decide (c.chunkOrdinal ≤ integerMax) && decide (c.pageStart ≤ integerMax) &&
    decide (c.pageEnd ≤ integerMax) && storableText c.text && storableText c.sectionPath &&
    c.libraryScopeIds.all storableText

/-! ### Triggers -/

/-- The CASE of `rag_enforce_document_version_transition`. -/
def transitionAllowed (old new : LifecycleStatus) : Bool :=
  if new = old then decide (old = .processing)
  else match old with
    | .registered => decide (new = .processing) || decide (new = .inactive)
    | .processing => decide (new = .review) || decide (new = .ready) || decide (new = .failed) ||
        decide (new = .inactive)
    | .review => decide (new = .processing) || decide (new = .failed) || decide (new = .inactive)
    | .ready => decide (new = .inactive)
    | .failed => decide (new = .processing) || decide (new = .inactive)
    | .inactive => false

/-- The identity columns a version row may never change. -/
def sameVersionIdentity (new old : DocumentVersionLifecycleV1) : Bool :=
  decide (new.documentVersionId = old.documentVersionId) &&
    decide (new.documentId = old.documentId) &&
    decide (new.ownerId = old.ownerId) && decide (new.paperId = old.paperId) &&
    decide (new.contentSha256 = old.contentSha256) &&
    decide (new.sourceSnapshotSha256 = old.sourceSnapshotSha256) &&
    decide (new.parseVersion = old.parseVersion)

/-- `rag_enforce_document_version_transition`, run before every update of a version row. -/
def enforceDocumentVersionTransition (new old : DocumentVersionLifecycleV1) :
    Except PyError Unit := do
  ensure (sameVersionIdentity new old) .checkViolation
    "document version identity fields are immutable"
  ensure (decide (new.lifecycleRevision = old.lifecycleRevision + 1)) .serializationFailure
    "lifecycle_revision must increase by exactly one"
  ensure (transitionAllowed old.lifecycleStatus new.lifecycleStatus) .checkViolation
    ("invalid lifecycle transition: " ++ old.lifecycleStatus.value ++ " -> " ++
      new.lifecycleStatus.value)

/-- The version row of an owner. -/
def Database.ownedVersion? (db : Database) (ownerId documentVersionId : String) :
    Option DocumentVersionLifecycleV1 :=
  (db.versions.find? documentVersionId).filter fun v => decide (v.ownerId = ownerId)

/-- The version row that a foreign key `(document_version_id, owner_id, document_id)` refers to. -/
def Database.referencedVersion? (db : Database) (documentVersionId ownerId documentId : String) :
    Option DocumentVersionLifecycleV1 :=
  (db.ownedVersion? ownerId documentVersionId).filter fun v => decide (v.documentId = documentId)

/-- The condition of `rag_allow_only_inactive_snapshot_delete`. -/
def Database.snapshotDeletable (db : Database)
    (documentVersionId ownerId documentId : String) : Bool :=
  (db.referencedVersion? documentVersionId ownerId documentId).any fun v =>
    decide (v.lifecycleStatus = .inactive) && !v.isActive

theorem Database.ownedVersion?_eq_some {db : Database} {ownerId vid : String}
    {v : DocumentVersionLifecycleV1} :
    db.ownedVersion? ownerId vid = some v ↔ db.versions.find? vid = some v ∧
    v.ownerId = ownerId := by
  simp [Database.ownedVersion?, Option.filter_eq_some_iff]

theorem Database.referencedVersion?_eq_some {db : Database} {vid ownerId documentId : String}
    {v : DocumentVersionLifecycleV1} :
    db.referencedVersion? vid ownerId documentId = some v ↔
      db.versions.find? vid = some v ∧ v.ownerId = ownerId ∧ v.documentId = documentId := by
  simp [Database.referencedVersion?, Option.filter_eq_some_iff, Database.ownedVersion?_eq_some,
    and_assoc]

end ZhiyanRag.Storage
