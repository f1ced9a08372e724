import ZhiyanRag.Ingestion.IndexWriter
import ZhiyanRag.Storage.Lifecycle
import ZhiyanRag.Storage.PdfObjects

/-!
# The stores and their atomic operations

`World` is what the ingestion and cleanup programs share: the fact source, the physical indexes (one
for each backend, owner and version), the PDF files, and the identifiers that have been generated.
An `Operation` is one call on one of the stores; it is atomic: `World.perform` either raises and
changes nothing, or returns the new world and a result. `World.attempt` adds what the environment
decides: whether the call fails although it could succeed, and that `id_factory` never yields an
identifier twice.
-/

namespace ZhiyanRag.Storage

open Relational ZhiyanRag.Ingestion

/-- What a repository call returns. -/
def Call.Result {α : Type} : Call α → Type
  | .registerDocument .. => DocumentIdentityV1
  | .registerVersion .. => DocumentVersionLifecycleV1
  | .registerIngestionJob .. => IngestionJobV1
  | .registerVersionAndIngestionJob .. => DocumentVersionLifecycleV1 × IngestionJobV1
  | .transitionVersion .. => DocumentVersionLifecycleV1
  | .updateIngestionJob .. => IngestionJobV1
  | .recordIndexingFailure .. => DocumentVersionLifecycleV1 × IngestionJobV1
  | .finalizeIndexingSuccess .. => DocumentVersionLifecycleV1 × IngestionJobV1
  | .persistRuntimeSnapshot .. => RuntimeSnapshotV1
  | .purgeInactiveRuntimeSnapshot .. => Unit
  | .enqueueCleanup .. => CleanupJobV1
  | .claimCleanup .. => Except PyError (Option CleanupJobV1)
  | .completeCleanup .. => CleanupJobV1
  | .recordCleanupFailure .. => CleanupJobV1

/-- The identifiers a call draws from `id_factory`. -/
def Call.newIds {α : Type} : Call α → List String
  | .registerDocument newId .. => [newId]
  | .registerVersion newId .. => [newId]
  | .registerIngestionJob newId .. => [newId]
  | .registerVersionAndIngestionJob newVersionId newJobId .. => [newVersionId, newJobId]
  | .enqueueCleanup newId .. => [newId]
  | .claimCleanup newToken .. => [newToken]
  | _ => []

section

variable {α : Type} (c : Coercion α) (chunksFingerprint : List ChunkRecordV1 → String)

/-- One call, with its result. -/
def Database.perform (db : Database) : (call : Call α) → Except PyError (Database × call.Result)
  | .registerDocument newId ownerId paperId sourceType mappingVersion created updated =>
    registerDocument db newId ownerId paperId sourceType mappingVersion created updated
  | .registerVersion newId ownerId documentId contentSha256 sourceSnapshotSha256 parseVersion now =>
    registerVersion db newId ownerId documentId contentSha256 sourceSnapshotSha256 parseVersion now
  | .registerIngestionJob newId ownerId documentId documentVersionId idempotencyKey now =>
    registerIngestionJob db newId ownerId documentId documentVersionId idempotencyKey now
  | .registerVersionAndIngestionJob newVersionId newJobId ownerId documentId contentSha256
      sourceSnapshotSha256 parseVersion idempotencyKey now =>
    registerVersionAndIngestionJob db newVersionId newJobId ownerId documentId contentSha256
      sourceSnapshotSha256 parseVersion idempotencyKey now
  | .transitionVersion ownerId documentVersionId expectedRevision targetStatus updates now =>
    transitionVersion c db ownerId documentVersionId expectedRevision targetStatus updates now
  | .updateIngestionJob ownerId jobId status failureCode now =>
    updateIngestionJob db ownerId jobId status failureCode now
  | .recordIndexingFailure ownerId documentVersionId expectedRevision indexStates jobId
      failureCode now =>
    recordIndexingFailure c db ownerId documentVersionId expectedRevision indexStates jobId
      failureCode now
  | .finalizeIndexingSuccess ownerId documentVersionId expectedRevision indexStates vectorIndexTime
      jobId now =>
    finalizeIndexingSuccess c db ownerId documentVersionId expectedRevision indexStates
      vectorIndexTime jobId now
  | .persistRuntimeSnapshot pdfObject chunks =>
    persistRuntimeSnapshot chunksFingerprint db pdfObject chunks
  | .purgeInactiveRuntimeSnapshot ownerId documentVersionId => do
    return (← purgeInactiveRuntimeSnapshot db ownerId documentVersionId, ())
  | .enqueueCleanup newId backend ownerId documentId documentVersionId maxAttempts now =>
    enqueueCleanup db newId backend ownerId documentId documentVersionId maxAttempts now
  | .claimCleanup newToken leaseSeconds now => claimCleanup db newToken leaseSeconds now
  | .completeCleanup cleanupId leaseToken now => completeCleanup db cleanupId leaseToken now
  | .recordCleanupFailure cleanupId leaseToken failureCode retryAt now =>
    recordCleanupFailure db cleanupId leaseToken failureCode retryAt now

variable {c chunksFingerprint}

/-- A call that returns is a call that commits. -/
theorem Database.perform_exec {db db' : Database} {call : Call α} {result : call.Result}
    (h : db.perform c chunksFingerprint call = .ok (db', result)) :
    ∃ log, db.exec c chunksFingerprint call = .ok (db', log) := by
  cases call with
  | purgeInactiveRuntimeSnapshot ownerId documentVersionId =>
    obtain ⟨db₁, hcall, hret⟩ := bind_eq_ok.mp h
    cases pure_eq_ok.mp hret
    exact ⟨_, bind_eq_ok.mpr ⟨db', hcall, rfl⟩⟩
  | _ => exact ⟨_, bind_eq_ok.mpr ⟨_, h, rfl⟩⟩

end

end ZhiyanRag.Storage

namespace ZhiyanRag.Ingestion

open Relational ZhiyanRag.Storage

/-- What the programs are run with: ingestion's toolchain and `chunks_fingerprint`. -/
structure Services extends Toolchain where
  chunksFingerprint : List ChunkRecordV1 → String

structure World where
  db : Database
  indexes : IndexBackend → String × String → Option PhysicalIndex
  objects : PdfObjects
  issued : List String

def World.empty : World where
  db := Database.empty
  indexes _ _ := none
  objects _ := none
  issued := []

/-- The world with another index under one backend, owner and version. -/
def World.setIndex (w : World) (backend : IndexBackend) (key : String × String)
    (index : Option PhysicalIndex) : World :=
  { w with
    indexes := Function.update w.indexes backend (Function.update (w.indexes backend) key index) }

inductive Operation
  | repository (call : Call Empty)
  | getInactivePdfObject (ownerId documentVersionId : String)
  | ensureStaged (backend : IndexBackend) (ownerId documentId documentVersionId : String)
      (chunks : List ChunkRecordV1)
  | activateVersion (backend : IndexBackend) (ownerId documentVersionId : String)
  | deactivateVersion (backend : IndexBackend) (ownerId documentVersionId : String)
  | deleteVersion (backend : IndexBackend) (ownerId documentVersionId : String)
  | putPdf (pdfBytes : List UInt8) (ownerId documentId documentVersionId contentSha256 : String)
      (now : Timestamp)
  | deletePdf (pdfObject : PdfObjectV1)
  | invalidateVersion (ownerId documentId documentVersionId : String)

namespace Operation

def Result : Operation → Type
  | repository call => call.Result
  | getInactivePdfObject .. => Option PdfObjectV1
  | ensureStaged .. => IndexWriteReceipt
  | activateVersion .. => Unit
  | deactivateVersion .. => Unit
  | deleteVersion .. => Bool
  | putPdf .. => PdfObjectV1
  | deletePdf .. => Bool
  | invalidateVersion .. => Unit

def newIds : Operation → List String
  | repository call => call.newIds
  | _ => []

end Operation

section

variable (services : Services)

namespace World

/-- One operation; the visibility cache is not among the modelled stores. -/
def perform (w : World) : (operation : Operation) → Except PyError (World × operation.Result)
  | .repository call => do
    let (db, result) ← w.db.perform noCoercion services.chunksFingerprint call
    return ({ w with db := db }, result)
  | .getInactivePdfObject ownerId documentVersionId =>
    .ok (w, Storage.getInactivePdfObject w.db ownerId documentVersionId)
  | .ensureStaged backend ownerId documentId documentVersionId chunks => do
    let (index, receipt) ← Ingestion.ensureStaged services.chunksFingerprint backend
      (w.indexes backend (ownerId, documentVersionId)) ownerId documentId documentVersionId chunks
    return (w.setIndex backend (ownerId, documentVersionId) (some index), receipt)
  | .activateVersion backend ownerId documentVersionId => do
    let index ← Ingestion.activateVersion backend
      (w.indexes backend (ownerId, documentVersionId)) ownerId documentVersionId
    return (w.setIndex backend (ownerId, documentVersionId) index, ())
  | .deactivateVersion backend ownerId documentVersionId => do
    let index ← Ingestion.deactivateVersion backend
      (w.indexes backend (ownerId, documentVersionId)) ownerId documentVersionId
    return (w.setIndex backend (ownerId, documentVersionId) index, ())
  | .deleteVersion backend ownerId documentVersionId => do
    let (index, existed) ← Ingestion.deleteVersion
      (w.indexes backend (ownerId, documentVersionId)) ownerId documentVersionId
    return (w.setIndex backend (ownerId, documentVersionId) index, existed)
  | .putPdf pdfBytes ownerId documentId documentVersionId contentSha256 now => do
    let (objects, pdf) ← Storage.putPdf services.sha256 w.objects pdfBytes ownerId documentId
      documentVersionId contentSha256 now
    return ({ w with objects := objects }, pdf)
  | .deletePdf pdfObject => do
    let (objects, existed) ← Storage.deletePdf services.sha256 w.objects pdfObject
    return ({ w with objects := objects }, existed)
  | .invalidateVersion .. => .ok (w, ())

end World

/-- What the environment decides about one step: whether its call fails, the repository's clock, the
caller's clock, and the identifiers `id_factory` would yield. -/
structure Choice where
  fails : Bool
  now : Timestamp
  clock : Datetime
  newId : ContractId
  newJobId : ContractId

/-- The error of a call that the environment makes fail. -/
def outage : PyError := ⟨.operationalError, "the call failed"⟩

/-- The outcome of an operation, a raised error leaving the stores alone; `none` if it would draw an
identifier a second time. -/
def World.attempt (w : World) (choice : Choice) (operation : Operation) :
    Option (World × Except PyError operation.Result) :=
  if operation.newIds.all (fun id => !w.issued.contains id) then
    let drawn := { w with issued := operation.newIds ++ w.issued }
    if choice.fails then some (drawn, .error outage)
    else match drawn.perform services operation with
      | .ok (w', result) => some (w', .ok result)
      | .error e => some (drawn, .error e)
  else none

end

end ZhiyanRag.Ingestion
