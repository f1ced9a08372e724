import ZhiyanRag.Base

/-!
# Parse output and the chunk record

What the parser hands to ingestion (`ParsedPdf`), what ingestion returns (`IngestionResult`), and
between them `ChunkRecordV1`, the frozen runtime model of one chunk: what the snapshot tables store
and what both indexes hold as payload.
-/

namespace ZhiyanRag.Ingestion

inductive Visibility
  | isPublic
  | tenant
  | isPrivate
  deriving DecidableEq

structure ChunkRecordV1 where
  chunkId : String
  documentId : String
  versionId : String
  text : String
  sectionPath : String
  pageStart : Int
  pageEnd : Int
  parentChunkId : Option String
  previousChunkId : Option String
  nextChunkId : Option String
  tenantId : String
  visibility : Visibility
  libraryScopeIds : List String
  parseVersion : String
  embeddingVersion : String
  isActive : Bool
  deriving DecidableEq

/-- The payload with the activity flag overwritten. -/
def ChunkRecordV1.withActive (chunk : ChunkRecordV1) (isActive : Bool) : ChunkRecordV1 :=
  { chunk with isActive := isActive }

@[simp] theorem ChunkRecordV1.withActive_chunkId (chunk : ChunkRecordV1) (b : Bool) :
    (chunk.withActive b).chunkId = chunk.chunkId := rfl

@[simp] theorem ChunkRecordV1.withActive_isActive (chunk : ChunkRecordV1) (b : Bool) :
    (chunk.withActive b).isActive = b := rfl

@[simp] theorem ChunkRecordV1.withActive_withActive (chunk : ChunkRecordV1) (a b : Bool) :
    (chunk.withActive a).withActive b = chunk.withActive b := rfl

/-! ### Parse output and ingestion result -/

inductive ParseStatus
  | pass
  | review
  | failed
  deriving DecidableEq

structure ParsedBlock where
  pageNumber : Int
  sectionPath : List String
  sourceStart : Nat
  sourceEnd : Nat
  text : String

structure ParsedPdf where
  pdfSha256 : String
  sourceTextSha256 : String
  cleanText : String
  parseStatus : ParseStatus
  warnings : List String
  blocks : List ParsedBlock

structure IngestionResult where
  documentId : String
  versionId : String
  pdfSha256 : String
  sourceTextSha256 : String
  parseStatus : ParseStatus
  warnings : List String
  strategy : String
  chunks : List ChunkRecordV1
  deriving DecidableEq

/-! ### Validation -/

/-- The field constraints of `ChunkRecordV1` and `ranges_and_scopes_are_valid`: identifiers come out
stripped. -/
def ChunkRecordV1.validate (chunk : ChunkRecordV1) : Except PyError ChunkRecordV1 := do
  let chunkId ← coerceContractId "chunk_id" chunk.chunkId
  let documentId ← coerceContractId "document_id" chunk.documentId
  let versionId ← coerceContractId "version_id" chunk.versionId
  ensure (decide (chunk.text ≠ "")) .validationError "text"
  ensure (decide (chunk.sectionPath ≠ "")) .validationError "section_path"
  ensure (decide (1 ≤ chunk.pageStart)) .validationError "page_start"
  ensure (decide (1 ≤ chunk.pageEnd)) .validationError "page_end"
  let parentChunkId ← chunk.parentChunkId.mapM (coerceContractId "parent_chunk_id")
  let previousChunkId ← chunk.previousChunkId.mapM (coerceContractId "previous_chunk_id")
  let nextChunkId ← chunk.nextChunkId.mapM (coerceContractId "next_chunk_id")
  let tenantId ← coerceContractId "tenant_id" chunk.tenantId
  let libraryScopeIds ← chunk.libraryScopeIds.mapM (coerceContractId "library_scope_ids")
  let parseVersion ← coerceContractId "parse_version" chunk.parseVersion
  let embeddingVersion ← coerceContractId "embedding_version" chunk.embeddingVersion
  ensure (decide (chunk.pageStart ≤ chunk.pageEnd)) .validationError
    "page_end must not be smaller than page_start"
  ensure (decide libraryScopeIds.Nodup) .validationError
    "library_scope_ids must contain unique values"
  return { chunk with
    chunkId, documentId, versionId, parentChunkId, previousChunkId, nextChunkId, tenantId,
    libraryScopeIds, parseVersion, embeddingVersion }

/-- The field constraints of `IngestionResult`. -/
def IngestionResult.validate (result : IngestionResult) : Except PyError IngestionResult := do
  let documentId ← coerceContractId "document_id" result.documentId
  let versionId ← coerceContractId "version_id" result.versionId
  ensure (sha256Pattern result.pdfSha256) .validationError "pdf_sha256"
  ensure (sha256Pattern result.sourceTextSha256) .validationError "source_text_sha256"
  ensure (decide (result.parseStatus ≠ .failed)) .validationError "parse_status"
  let warnings ← result.warnings.mapM (coerceContractId "warnings")
  let strategy ← coerceContractId "strategy" result.strategy
  ensure (!result.chunks.isEmpty) .validationError "chunks"
  return { result with documentId, versionId, warnings, strategy }

theorem coerceContractId_eq {field value id : String} (h : coerceContractId field value = .ok id) :
    id = stripWhitespace value := by
  unfold coerceContractId at h
  split at h
  · exact (Except.ok.inj h).symm
  · cases h

theorem mapM_coerceContractId {field : String} {value id : Option String}
    (h : value.mapM (coerceContractId field) = .ok id) : id = value.map stripWhitespace := by
  cases value with
  | none => exact (pure_eq_ok.mp h).symm
  | some value =>
    obtain ⟨coerced, hcoerced, hsome⟩ := bind_eq_ok.mp h
    rw [← pure_eq_ok.mp hsome, coerceContractId_eq hcoerced]
    rfl

/-- What validation keeps of a record: text and pages, and the stripped identifiers of the chunk and
its neighbours. -/
structure ChunkRecordV1.Validated (chunk validated : ChunkRecordV1) : Prop where
  text : validated.text = chunk.text
  pageStart : validated.pageStart = chunk.pageStart
  pageEnd : validated.pageEnd = chunk.pageEnd
  chunkId : validated.chunkId = stripWhitespace chunk.chunkId
  previousChunkId : validated.previousChunkId = chunk.previousChunkId.map stripWhitespace
  nextChunkId : validated.nextChunkId = chunk.nextChunkId.map stripWhitespace

theorem ChunkRecordV1.validate_spec {chunk validated : ChunkRecordV1}
    (h : chunk.validate = .ok validated) : chunk.Validated validated := by
  unfold ChunkRecordV1.validate at h
  obtain ⟨chunkId, hchunk, h⟩ := bind_eq_ok.mp h
  obtain ⟨documentId, -, h⟩ := bind_eq_ok.mp h
  obtain ⟨versionId, -, h⟩ := bind_eq_ok.mp h
  obtain ⟨-, h⟩ := ensure_bind.mp h
  obtain ⟨-, h⟩ := ensure_bind.mp h
  obtain ⟨-, h⟩ := ensure_bind.mp h
  obtain ⟨-, h⟩ := ensure_bind.mp h
  obtain ⟨parentChunkId, -, h⟩ := bind_eq_ok.mp h
  obtain ⟨previousChunkId, hprevious, h⟩ := bind_eq_ok.mp h
  obtain ⟨nextChunkId, hnext, h⟩ := bind_eq_ok.mp h
  obtain ⟨tenantId, -, h⟩ := bind_eq_ok.mp h
  obtain ⟨libraryScopeIds, -, h⟩ := bind_eq_ok.mp h
  obtain ⟨parseVersion, -, h⟩ := bind_eq_ok.mp h
  obtain ⟨embeddingVersion, -, h⟩ := bind_eq_ok.mp h
  obtain ⟨-, h⟩ := ensure_bind.mp h
  obtain ⟨-, h⟩ := ensure_bind.mp h
  cases pure_eq_ok.mp h
  exact ⟨rfl, rfl, rfl, coerceContractId_eq hchunk, mapM_coerceContractId hprevious,
    mapM_coerceContractId hnext⟩

theorem IngestionResult.validate_chunks {result validated : IngestionResult}
    (h : result.validate = .ok validated) :
    validated.chunks = result.chunks ∧ validated.chunks ≠ [] ∧
    validated.parseStatus = result.parseStatus := by
  unfold IngestionResult.validate at h
  obtain ⟨documentId, -, h⟩ := bind_eq_ok.mp h
  obtain ⟨versionId, -, h⟩ := bind_eq_ok.mp h
  obtain ⟨-, h⟩ := ensure_bind.mp h
  obtain ⟨-, h⟩ := ensure_bind.mp h
  obtain ⟨-, h⟩ := ensure_bind.mp h
  obtain ⟨warnings, -, h⟩ := bind_eq_ok.mp h
  obtain ⟨strategy, -, h⟩ := bind_eq_ok.mp h
  obtain ⟨hchunks, h⟩ := ensure_bind.mp h
  cases pure_eq_ok.mp h
  exact ⟨rfl, by simpa using hchunks, rfl⟩

end ZhiyanRag.Ingestion
