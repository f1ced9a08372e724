import ZhiyanRag.Ingestion.Persistent

/-!
# Publication and inactivation

`publish_prepared_indexes` and `inactivate_and_schedule_cleanup` as programs: staging, activation
and finalisation with their compensating handlers, and `INACTIVE` first, then deactivation and
cleanup requests.
-/

namespace ZhiyanRag.Ingestion

open ZhiyanRag.Storage

/-! ### Publication -/

/-- `_updated_states`. -/
def updatedStates (current : IndexStatesV1) (backend : IndexBackend) (state : IndexState) :
    IndexStatesV1 :=
  match backend with
  | .elasticsearch => { current with elasticsearchChunks := state }
  | .milvus => { current with milvusVectors := state }

structure IndexPublicationResult where
  version : DocumentVersionLifecycleV1
  job : IngestionJobV1
  receipts : List IndexWriteReceipt
  deriving DecidableEq

/-- `IndexLifecycleError`, or any other error that leaves the function. -/
inductive PublicationError
  | indexLifecycle (code message : String) (compensationFailures : List String)
  | raised (error : PyError)
  deriving DecidableEq

/-- What a handler reports: the backend it marks `FAILED`, the code, and its two messages. -/
structure PublicationFailure where
  backend : IndexBackend
  code : String
  message : String
  unrecordedMessage : String
  deriving DecidableEq

def stageFailed (backend : IndexBackend) : PublicationFailure where
  backend := backend
  code := backend.upperValue ++ "_STAGE_FAILED"
  message := "dual-index staging failed"
  unrecordedMessage := "dual-index staging failed and fact-source failure recording failed"

def activationFailed (backend : IndexBackend) : PublicationFailure where
  backend := backend
  code := backend.upperValue ++ "_ACTIVATION_FAILED"
  message := "dual-index activation failed"
  unrecordedMessage := "activation failed and fact-source failure recording failed"

def finalizationFailed : PublicationFailure where
  backend := .elasticsearch
  code := "INDEX_FINALIZATION_FAILED"
  message := "atomic index finalization failed"
  unrecordedMessage := "atomic index finalization failed"

/-- `_validate_preparation`; the chunks and their fingerprint are read off the preparation. -/
def validatePreparation (preparation : PersistentIngestionPreparation) : Except PyError Unit := do
  let version := preparation.version
  let job := preparation.job
  ensure (decide (version.lifecycleStatus = .processing)) .valueError
    "index publication requires a PROCESSING document version"
  ensure (decide (job.status = .running)) .valueError
    "index publication requires a RUNNING ingestion job"
  ensure (decide (job.ownerId = version.ownerId) && decide (job.documentId = version.documentId) &&
      decide (job.documentVersionId = version.documentVersionId)) .valueError
    "ingestion job identity does not match the document version"
  ensure (decide (preparation.ingestion.parseStatus = .pass)) .valueError
    "only PASS ingestion output may enter dual-index publication"
  ensure (!preparation.ingestion.chunks.isEmpty) .valueError
    "index publication requires at least one chunk"
  ensure (preparation.ingestion.chunks.all fun chunk => decide (chunk.tenantId = version.ownerId) &&
      decide (chunk.documentId = version.documentId) &&
        decide (chunk.versionId = version.documentVersionId) &&
      !chunk.isActive) .valueError
        "staged chunks must match owner/document/version and remain inactive"

/-- `_verify_receipt`. -/
def verifyReceipt (receipt : IndexWriteReceipt) (backend : IndexBackend)
    (version : DocumentVersionLifecycleV1) (expectedCount : Nat) (expectedSha256 : String) : Bool :=
  decide (receipt.backend = backend) && decide (receipt.ownerId = version.ownerId) &&
    decide (receipt.documentVersionId = version.documentVersionId) &&
    decide (receipt.chunkCount = expectedCount) &&
      decide (receipt.sourceChunksSha256 = expectedSha256)

inductive PublisherState
  | stage (backend : IndexBackend) (version : DocumentVersionLifecycleV1)
      (receipts : List IndexWriteReceipt)
  | progress (backend : IndexBackend) (version : DocumentVersionLifecycleV1)
      (receipts : List IndexWriteReceipt)
  | activate (backend : IndexBackend) (version : DocumentVersionLifecycleV1)
      (receipts : List IndexWriteReceipt)
  | finalize (version : DocumentVersionLifecycleV1) (receipts : List IndexWriteReceipt)
  | compensate (backend : IndexBackend) (version : DocumentVersionLifecycleV1)
      (failure : PublicationFailure) (compensationFailures : List String)
  | recordFailure (version : DocumentVersionLifecycleV1) (failure : PublicationFailure)
      (compensationFailures : List String)
  | returned (result : IndexPublicationResult)
  | raised (error : PublicationError)
  deriving DecidableEq

/-- The validation before the first call. -/
def PersistentIngestionPreparation.publish (preparation : PersistentIngestionPreparation) :
    PublisherState :=
  match validatePreparation preparation with
  | .ok () => .stage .elasticsearch preparation.version []
  | .error e => .raised (.raised e)

section

variable (services : Services)

namespace PublisherState

/-- After `ensure_staged` and `_verify_receipt`, both inside the handler. -/
def staged (preparation : PersistentIngestionPreparation) (backend : IndexBackend)
    (version : DocumentVersionLifecycleV1) (receipts : List IndexWriteReceipt) :
    Except PyError IndexWriteReceipt → PublisherState
  | .ok receipt =>
    if verifyReceipt receipt backend version preparation.ingestion.chunks.length
        (services.chunksFingerprint preparation.ingestion.chunks) then
      .progress backend version (receipts ++ [receipt])
    else .recordFailure version (stageFailed backend) []
  | .error _ => .recordFailure version (stageFailed backend) []

def next (preparation : PersistentIngestionPreparation) (choice : Choice) :
    PublisherState → Option (Pending PublisherState)
  | stage backend version receipts => some
    ⟨.ensureStaged backend version.ownerId version.documentId version.documentVersionId
      preparation.ingestion.chunks, staged services preparation backend version receipts⟩
  | progress backend version receipts => some
    ⟨.repository (.transitionVersion version.ownerId version.documentVersionId
      version.lifecycleRevision .processing
        [(.indexStates, .states (updatedStates version.indexStates backend .ready)),
          (.failureCode, .none)] choice.now), fun
      | .ok version => match backend with
        | .elasticsearch => .stage .milvus version receipts
        | .milvus => .activate .elasticsearch version receipts
      | .error e => .raised (.raised e)⟩
  | activate backend version receipts => some
    ⟨.activateVersion backend version.ownerId version.documentVersionId, fun
      | .ok () => match backend with
        | .elasticsearch => .activate .milvus version receipts
        | .milvus => .finalize version receipts
      | .error _ => .compensate .elasticsearch version (activationFailed backend) []⟩
  | finalize version receipts => some
    ⟨.repository (.finalizeIndexingSuccess version.ownerId version.documentVersionId
      version.lifecycleRevision (.states DocumentVersionLifecycleV1.bothReady) choice.clock
        preparation.job.jobId choice.now), fun
      | .ok (version, job) => .returned ⟨version, job, receipts⟩
      | .error _ => .compensate .elasticsearch version finalizationFailed []⟩
  | compensate backend version failure compensationFailures => some
    ⟨.deactivateVersion backend version.ownerId version.documentVersionId, fun outcome =>
      let failures := match outcome with
        | .ok () => compensationFailures
        | .error _ => compensationFailures ++ [backend.value ++ ":deactivate"]
      match backend with
      | .elasticsearch => .compensate .milvus version failure failures
      | .milvus => .recordFailure version failure failures⟩
  | recordFailure version failure compensationFailures => some
    ⟨.repository (.recordIndexingFailure version.ownerId version.documentVersionId
      version.lifecycleRevision
      (.states (updatedStates version.indexStates failure.backend .failed)) preparation.job.jobId
        failure.code
      choice.now), fun
      | .ok _ => .raised (.indexLifecycle failure.code failure.message compensationFailures)
      | .error _ => .raised (.indexLifecycle failure.code failure.unrecordedMessage
          (compensationFailures ++ ["fact_source:record_failure"]))⟩
  | returned _ => none
  | raised _ => none

end PublisherState

end

/-! ### Inactivation -/

inductive InactivationReason
  | delete
  | revoke
  | expire
  deriving DecidableEq

structure CleanupRequest where
  backend : CleanupBackend
  ownerId : String
  documentId : String
  documentVersionId : String
  deriving DecidableEq

/-- `CleanupBackend(writer.backend.value)`. -/
def IndexBackend.cleanupBackend : IndexBackend → CleanupBackend
  | .elasticsearch => .elasticsearchChunks
  | .milvus => .milvusVectors

structure InactivationResult where
  version : DocumentVersionLifecycleV1
  reason : InactivationReason
  visibilityInvalidated : Bool
  deactivatedBackends : List IndexBackend
  cleanupRequests : List CleanupRequest
  failures : List String
  deriving DecidableEq

inductive InactivationError
  | inactivationCleanupPending (result : InactivationResult)
  | raised (error : PyError)
  deriving DecidableEq

/-- The arguments of an inactivation; `maxAttempts` is the cleanup scheduler's. -/
structure InactivationInput where
  version : DocumentVersionLifecycleV1
  reason : InactivationReason
  maxAttempts : Int
  deriving DecidableEq

/-- Between the calls, the result built so far. -/
inductive InactivatorState
  | transition
  | invalidate (result : InactivationResult)
  | deactivate (backend : IndexBackend) (result : InactivationResult)
  | enqueueIndex (backend : IndexBackend) (result : InactivationResult)
  | enqueueRuntime (result : InactivationResult)
  | returned (result : InactivationResult)
  | raised (error : InactivationError)
  deriving DecidableEq

namespace InactivationInput

def inactivated (input : InactivationInput) (version : DocumentVersionLifecycleV1) :
    InactivatorState :=
  .invalidate ⟨version, input.reason, false, [], [], []⟩

def start (input : InactivationInput) : InactivatorState :=
  if input.version.lifecycleStatus ≠ .inactive then .transition else input.inactivated input.version

/-- `timestamp_field`. -/
def timestampField (input : InactivationInput) : TimeField :=
  if input.reason = .expire then .chunkExpireTime else .deleteTime

end InactivationInput

namespace InactivationResult

def failed (result : InactivationResult) (failure : String) : InactivationResult :=
  { result with failures := result.failures ++ [failure] }

def request (result : InactivationResult) (backend : CleanupBackend) : CleanupRequest :=
  ⟨backend, result.version.ownerId, result.version.documentId, result.version.documentVersionId⟩

/-- `cleanup.enqueue` and its handler. -/
def enqueued {α : Type} (result : InactivationResult) (backend : CleanupBackend) :
    Except PyError α → InactivationResult
  | .ok _ => { result with cleanupRequests := result.cleanupRequests ++ [result.request backend] }
  | .error _ => result.failed (backend.value ++ ":enqueue_cleanup")

def finish (result : InactivationResult) : InactivatorState :=
  if result.failures.isEmpty then .returned result else .raised (.inactivationCleanupPending result)

end InactivationResult

/-- `PersistentIndexCleanupScheduler.enqueue`. -/
def enqueueOperation (input : InactivationInput) (choice : Choice) (request : CleanupRequest) :
    Operation :=
  .repository (.enqueueCleanup choice.newId request.backend.value request.ownerId request.documentId
    request.documentVersionId input.maxAttempts choice.now)

def InactivatorState.next (input : InactivationInput) (choice : Choice) :
    InactivatorState → Option (Pending InactivatorState)
  | transition => some
    ⟨.repository (.transitionVersion input.version.ownerId input.version.documentVersionId
      input.version.lifecycleRevision .inactive
        [(.time input.timestampField, .datetime choice.clock)]
      choice.now), fun
      | .ok version => input.inactivated version
      | .error e => .raised (.raised e)⟩
  | invalidate result => some
    ⟨.invalidateVersion result.version.ownerId result.version.documentId
      result.version.documentVersionId, fun
      | .ok () => .deactivate .elasticsearch { result with visibilityInvalidated := true }
      | .error _ => .deactivate .elasticsearch (result.failed "query_visibility:invalidate")⟩
  | deactivate backend result => some
    ⟨.deactivateVersion backend result.version.ownerId result.version.documentVersionId, fun
      | .ok () =>
        .enqueueIndex backend
          { result with deactivatedBackends := result.deactivatedBackends ++ [backend] }
      | .error _ => .enqueueIndex backend (result.failed (backend.value ++ ":deactivate"))⟩
  | enqueueIndex backend result => some
    ⟨enqueueOperation input choice (result.request backend.cleanupBackend),
      fun outcome => match backend with
      | .elasticsearch => .deactivate .milvus (result.enqueued backend.cleanupBackend outcome)
      | .milvus => .enqueueRuntime (result.enqueued backend.cleanupBackend outcome)⟩
  | enqueueRuntime result => some
    ⟨enqueueOperation input choice (result.request .runtimeSnapshot), fun outcome =>
      (result.enqueued .runtimeSnapshot outcome).finish⟩
  | returned _ => none
  | raised _ => none

end ZhiyanRag.Ingestion
