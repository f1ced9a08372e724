import ZhiyanRag.Ingestion.Operations

/-!
# Preparing an ingestion

`prepare_persistent_pdf_ingestion` and `prepare_and_persist_pdf_ingestion` as one program: a state
for each place where the source waits for a call, holding the local variables that are live there.
`next` gives the call and where its outcome leads; a call that raises outside a handler ends the
program with that error.
-/

namespace ZhiyanRag.Ingestion

open ZhiyanRag.Storage

/-- The next call of a program, and the state its outcome leads to. -/
structure Pending (σ : Type) where
  operation : Operation
  resume : Except PyError operation.Result → σ

def Pending.map {σ τ : Type} (f : σ → τ) (p : Pending σ) : Pending τ := ⟨p.operation, f ∘ p.resume⟩

structure PersistentIngestionPreparation where
  identity : DocumentIdentityV1
  version : DocumentVersionLifecycleV1
  job : IngestionJobV1
  ingestion : IngestionResult
  deriving DecidableEq

/-- The arguments of a preparation; with `persist` it is `prepare_and_persist_pdf_ingestion`. -/
structure PreparationRequest where
  pdfBytes : List UInt8
  ownerId : String
  paperId : String
  sourceType : String
  sourceCreatedTime : Datetime
  sourceUpdatedTime : Datetime
  idempotencyKey : String
  strategy : String
  libraryScopeIds : List String
  expectedSha256 : Option String := none
  sourceSnapshotSha256 : Option String := none
  allowParseReview : Bool := false
  mappingVersion : String := "document_mapping_v1"
  persist : Bool
  deriving DecidableEq

inductive PreparationError
  | raised (error : PyError)
  | pdfIngestion (error : PdfIngestionError)
  | runtimeSnapshot (code message : String)
  deriving DecidableEq

inductive PreparerState
  | registerDocument
  | registerVersion (identity : DocumentIdentityV1)
  | startProcessing (identity : DocumentIdentityV1) (version : DocumentVersionLifecycleV1)
      (job : IngestionJobV1)
  | startJob (identity : DocumentIdentityV1) (version : DocumentVersionLifecycleV1)
      (job : IngestionJobV1)
  | recordProgress (identity : DocumentIdentityV1) (version : DocumentVersionLifecycleV1)
      (job : IngestionJobV1) (ingestion : IngestionResult)
  | requireReview (preparation : PersistentIngestionPreparation)
  | putPdf (preparation : PersistentIngestionPreparation)
  | persistSnapshot (preparation : PersistentIngestionPreparation) (pdfObject : PdfObjectV1)
  | failVersion (version : DocumentVersionLifecycleV1) (job : IngestionJobV1) (failureCode : String)
      (error : PreparationError)
  | failJob (job : IngestionJobV1) (failureCode : String) (error : PreparationError)
  | returned (preparation : PersistentIngestionPreparation)
      (snapshot : Option (PdfObjectV1 × RuntimeSnapshotV1))
  | raised (error : PreparationError)
  deriving DecidableEq

section

variable (services : Services)

namespace PreparationRequest

/-- `source_snapshot_sha256 or actual_sha256`. -/
def snapshotSha256 (request : PreparationRequest) : String :=
  (request.sourceSnapshotSha256.filter (· ≠ "")).getD (services.sha256 request.pdfBytes)

/-- The checks before the first call. -/
def start (request : PreparationRequest) : PreparerState :=
  if request.expectedSha256.any fun expected =>
    decide (services.sha256 request.pdfBytes ≠ expected) then
    .raised (.pdfIngestion
      ⟨"PDF_IDENTITY_MISMATCH", "PDF bytes do not match the expected SHA-256 identity."⟩)
  else if !sha256Pattern (request.snapshotSha256 services) then
    .raised (.raised ⟨.valueError, "source_snapshot_sha256 must be a lowercase SHA-256"⟩)
  else .registerDocument

/-- `_start_or_resume_processing`, up to its call. -/
def startOrResumeProcessing (identity : DocumentIdentityV1) (version : DocumentVersionLifecycleV1)
    (job : IngestionJobV1) : PreparerState :=
  match version.lifecycleStatus with
  | .processing => .startJob identity version job
  | .registered | .review | .failed => .startProcessing identity version job
  | .ready | .inactive => .raised (.raised ⟨.valueError,
      "document version in " ++ version.lifecycleStatus.value ++ " cannot be prepared again"⟩)

def ingestArguments (request : PreparationRequest) (identity : DocumentIdentityV1)
    (version : DocumentVersionLifecycleV1) : IngestArguments where
  documentId := identity.documentId
  tenantId := request.ownerId
  visibility := .isPrivate
  libraryScopeIds := request.libraryScopeIds
  strategy := request.strategy
  expectedSha256 := some (services.sha256 request.pdfBytes)
  allowParseReview := request.allowParseReview
  versionId := some version.documentVersionId
  isActive := false

/-- `ingest_pdf_bytes` and its handler. -/
def ingest (request : PreparationRequest) (identity : DocumentIdentityV1)
    (version : DocumentVersionLifecycleV1) (job : IngestionJobV1) : PreparerState :=
  match ingestPdfBytes services.toToolchain request.pdfBytes
    (request.ingestArguments services identity version) with
  | .ok ingestion => .recordProgress identity version job ingestion
  | .error e => .failVersion version job e.code (.pdfIngestion e)

/-- The caller's view of a preparation: done, or on to the PDF object. -/
def prepared (request : PreparationRequest) (preparation : PersistentIngestionPreparation) :
    PreparerState :=
  if !request.persist then .returned preparation none
  else if preparation.version.lifecycleStatus ≠ .processing ∨
    preparation.ingestion.parseStatus ≠ .pass then
    .raised (.runtimeSnapshot "RUNTIME_SNAPSHOT_NOT_PUBLISHABLE"
      "only a PASS ingestion in PROCESSING may be persisted")
  else .putPdf preparation

end PreparationRequest

/-- The `progress` map. -/
def progressUpdates (completedAt : Datetime) : List (UpdateKey × UpdateValue Empty) :=
  [(.time .parseFinishTime, .datetime completedAt),
    (.time .chunkSplitterTime, .datetime completedAt),
    (.time .chunkCreateTime, .datetime completedAt), (.time .chunkGenTime, .datetime completedAt),
    (.failureCode, .none)]

/-- The state after a call outside every handler. -/
def orRaise {α : Type} (f : α → PreparerState) : Except PyError α → PreparerState
  | .ok result => f result
  | .error e => .raised (.raised e)

def PreparerState.next (request : PreparationRequest) (choice : Choice) :
    PreparerState → Option (Pending PreparerState)
  | registerDocument => some
    ⟨.repository (.registerDocument choice.newId request.ownerId request.paperId request.sourceType
      request.mappingVersion request.sourceCreatedTime request.sourceUpdatedTime),
      orRaise fun identity => .registerVersion identity⟩
  | registerVersion identity => some
    ⟨.repository (.registerVersionAndIngestionJob choice.newId choice.newJobId request.ownerId
      identity.documentId (services.sha256 request.pdfBytes) (request.snapshotSha256 services)
        parseVersion request.idempotencyKey
      choice.now), orRaise fun (version, job) => PreparationRequest.startOrResumeProcessing identity
        version job⟩
  | startProcessing identity version job => some
    ⟨.repository (.transitionVersion version.ownerId version.documentVersionId
      version.lifecycleRevision .processing [(.failureCode, .none)] choice.now),
        orRaise fun version => .startJob identity version job⟩
  | startJob identity version job => some
    ⟨.repository (.updateIngestionJob request.ownerId job.jobId .running none choice.now),
      orRaise fun job => request.ingest services identity version job⟩
  | recordProgress identity version job ingestion =>
    if ingestion.parseStatus = .review then some
      ⟨.repository (.transitionVersion request.ownerId version.documentVersionId
        version.lifecycleRevision .review (progressUpdates choice.clock) choice.now),
          orRaise fun version => .requireReview ⟨identity, version, job, ingestion⟩⟩
    else some
      ⟨.repository (.transitionVersion request.ownerId version.documentVersionId
        version.lifecycleRevision .processing (progressUpdates choice.clock) choice.now),
          orRaise fun version => request.prepared ⟨identity, version, job, ingestion⟩⟩
  | requireReview preparation => some
    ⟨.repository (.updateIngestionJob request.ownerId preparation.job.jobId .failed
      (some "PARSE_REVIEW_REQUIRED") choice.now),
      orRaise fun job => request.prepared { preparation with job := job }⟩
  | putPdf preparation => some
    ⟨.putPdf request.pdfBytes preparation.version.ownerId preparation.version.documentId
      preparation.version.documentVersionId preparation.version.contentSha256 choice.now, fun
      | .ok pdfObject => .persistSnapshot preparation pdfObject
      | .error _ => .failVersion preparation.version preparation.job "PDF_OBJECT_PERSIST_FAILED"
          (.runtimeSnapshot "PDF_OBJECT_PERSIST_FAILED" "PDF object persistence failed closed")⟩
  | persistSnapshot preparation pdfObject => some
    ⟨.repository (.persistRuntimeSnapshot pdfObject preparation.ingestion.chunks), fun
      | .ok snapshot => .returned preparation (some (pdfObject, snapshot))
      | .error _ => .failVersion preparation.version preparation.job "CHUNK_SNAPSHOT_PERSIST_FAILED"
          (.runtimeSnapshot "CHUNK_SNAPSHOT_PERSIST_FAILED"
            "Chunk snapshot persistence failed closed")⟩
  | failVersion version job failureCode error => some
    ⟨.repository (.transitionVersion version.ownerId version.documentVersionId
      version.lifecycleRevision .failed [(.failureCode, .str failureCode)] choice.now),
        orRaise fun _ => .failJob job failureCode error⟩
  | failJob job failureCode error => some
    ⟨.repository (.updateIngestionJob job.ownerId job.jobId .failed (some failureCode) choice.now),
      orRaise fun _ => .raised error⟩
  | returned .. => none
  | raised .. => none

end

end ZhiyanRag.Ingestion
