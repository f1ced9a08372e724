import Mathlib.Data.List.Perm.Subperm
import ZhiyanRag.Lib.Table
import ZhiyanRag.Base
import ZhiyanRag.Ingestion.Models

/-!
# The version index writers

`ElasticsearchVersionIndexWriter` and `MilvusVersionIndexWriter` keep one physical index for each
owner and version: its metadata, fixed when it is created, and one row per chunk identifier. Both
writers are one definition with the backend as a parameter; where they differ (which rows a partial
index is filled with, whether an incomplete index may be deactivated, the row limit) the definition
branches on it. Embedding vectors and transport responses are not modelled: a call that fails on
them is a call that raises.
-/

namespace ZhiyanRag.Ingestion

open Relational

inductive IndexBackend
  | elasticsearch
  | milvus
  deriving DecidableEq

def IndexBackend.value : IndexBackend → String
  | .elasticsearch => "elasticsearch_chunks"
  | .milvus => "milvus_vectors"

/-- `backend.value.upper()`. -/
def IndexBackend.upperValue : IndexBackend → String
  | .elasticsearch => "ELASTICSEARCH_CHUNKS"
  | .milvus => "MILVUS_VECTORS"

structure IndexMetadata where
  ownerId : String
  documentId : String
  documentVersionId : String
  sourceChunksSha256 : String
  chunkCount : Nat
  deriving DecidableEq

structure PhysicalIndex where
  metadata : IndexMetadata
  rows : Table ChunkRecordV1.chunkId

structure IndexWriteReceipt where
  backend : IndexBackend
  ownerId : String
  documentVersionId : String
  chunkCount : Nat
  sourceChunksSha256 : String
  deriving DecidableEq

/-- The row carries the identity in the metadata. -/
def IndexMetadata.owns (m : IndexMetadata) (row : ChunkRecordV1) : Bool :=
  decide (row.tenantId = m.ownerId) && decide (row.documentId = m.documentId) &&
    decide (row.versionId = m.documentVersionId)

namespace PhysicalIndex

/-- As many rows as the metadata promises, all of them the version's own. -/
def complete (index : PhysicalIndex) : Bool :=
  decide (index.rows.rows.length = index.metadata.chunkCount) &&
    index.rows.rows.all index.metadata.owns

def allActive (index : PhysicalIndex) : Bool := index.rows.rows.all (·.isActive)

def allInactive (index : PhysicalIndex) : Bool := index.rows.rows.all (!·.isActive)

/-- Complete, and every indexed chunk has `is_active = true`. -/
def fullyActive (index : PhysicalIndex) : Bool := index.complete && index.allActive

/-- The rows with their activity flag rewritten. -/
def withActive (index : PhysicalIndex) (isActive : Bool) : PhysicalIndex :=
  { index with rows := index.rows.mapRows (·.withActive isActive) fun _ => rfl }

end PhysicalIndex

/-! ### Staging -/

/-- `MAX_VERSION_LOGICAL_ROWS`. -/
def maxVersionRows : Nat := 16000

/-- `_validate_chunks` of the backend, on one chunk. -/
def validChunk (backend : IndexBackend) (chunk : ChunkRecordV1) : Bool :=
  decide (chunk.chunkId ≠ "") && decide (chunk.documentId ≠ "") && decide (chunk.tenantId ≠ "") &&
    decide (chunk.text ≠ "") && decide (chunk.sectionPath ≠ "") &&
      chunk.libraryScopeIds.all (· ≠ "") &&
    match backend with
    | .elasticsearch => decide (chunk.versionId ≠ "") && decide (chunk.parseVersion ≠ "") &&
        decide (chunk.embeddingVersion ≠ "") && decide (1 ≤ chunk.pageStart) &&
        decide (chunk.pageStart ≤ chunk.pageEnd)
    | .milvus => contractIdPattern chunk.chunkId

/-- `_validate_identity`. -/
def validIdentity (ownerId documentVersionId : String) : Bool :=
  contractIdPattern ownerId && contractIdPattern documentVersionId

/-- `_validate_stage`. -/
def validateStage (backend : IndexBackend) (ownerId documentId documentVersionId : String)
    (chunks : List ChunkRecordV1) : Except PyError Unit := do
  ensure (validIdentity ownerId documentVersionId) .valueError
    "owner_id and document_version_id must be valid contract IDs"
  ensure (contractIdPattern documentId && !chunks.isEmpty &&
      (decide (backend = .elasticsearch) || decide (chunks.length ≤ maxVersionRows))) .valueError
    "document_id and version chunk count are invalid"
  ensure (decide (chunks.map (·.chunkId)).Nodup && chunks.all (validChunk backend)) .valueError
    "version chunks are invalid"
  ensure (chunks.all fun chunk => decide (chunk.tenantId = ownerId) &&
      decide (chunk.documentId = documentId) && decide (chunk.versionId = documentVersionId) &&
      !chunk.isActive) .valueError
    "staged chunks must match identity and remain inactive"

/-- Write rows, replacing those with the same identifier. -/
def upsertRows (rows : Table ChunkRecordV1.chunkId) (chunks : List ChunkRecordV1) :
    Table ChunkRecordV1.chunkId :=
  chunks.foldl (fun rows chunk => rows.upsert chunk) rows

/-- The metadata a new index is created with. -/
def stagedMetadata (chunksFingerprint : List ChunkRecordV1 → String)
    (ownerId documentId documentVersionId : String) (chunks : List ChunkRecordV1) :
    IndexMetadata where
  ownerId := ownerId
  documentId := documentId
  documentVersionId := documentVersionId
  sourceChunksSha256 := chunksFingerprint chunks
  chunkCount := chunks.length

/-- The rows that are present carry the source payloads, up to their activity. -/
def payloadsMatch (rows : Table ChunkRecordV1.chunkId) (chunks : List ChunkRecordV1) : Bool :=
  chunks.all fun chunk => (rows.find? chunk.chunkId).all fun row =>
    decide (row.withActive false = chunk)

/-- Every chunk has its row. -/
def allPresent (rows : Table ChunkRecordV1.chunkId) (chunks : List ChunkRecordV1) : Bool :=
  chunks.all fun chunk => (rows.find? chunk.chunkId).isSome

/-- Every row belongs to one of the chunks. -/
def noForeignRows (rows : Table ChunkRecordV1.chunkId) (chunks : List ChunkRecordV1) : Bool :=
  rows.rows.all fun row => chunks.any fun chunk => decide (chunk.chunkId = row.chunkId)

/-- The Elasticsearch writer's `bulk`, needed only for a partial index: every chunk is written. -/
def bulkIndex (index : PhysicalIndex) (chunks : List ChunkRecordV1) :
    Except PyError (Table ChunkRecordV1.chunkId) :=
  if index.rows.rows.length < chunks.length then do
    ensure (payloadsMatch index.rows chunks) .indexNotReadyError "source payload drift"
    let rows := upsertRows index.rows chunks
    ensure (rows.rows.all index.metadata.owns && decide (rows.rows.length = chunks.length))
      .indexNotReadyError "chunk count does not match metadata"
    return rows
  else pure index.rows

/-- The rows after staging: Elasticsearch rewrites every row of a partial index, Milvus adds the
missing ones. -/
def stageRows (backend : IndexBackend) (index : PhysicalIndex) (chunks : List ChunkRecordV1) :
    Except PyError (Table ChunkRecordV1.chunkId) := do
  ensure (index.rows.rows.all index.metadata.owns &&
    decide (index.rows.rows.length ≤ chunks.length)) .indexNotReadyError
      "version index contains foreign or excess chunks"
  match backend with
  | .elasticsearch => do
    let rows ← bulkIndex index chunks
    ensure (payloadsMatch rows chunks && allPresent rows chunks) .indexNotReadyError
      "source payload drift"
    return rows
  | .milvus => do
    ensure (noForeignRows index.rows chunks && payloadsMatch index.rows chunks) .indexNotReadyError
      "version payload drift"
    let rows := upsertRows index.rows
      (chunks.filter fun chunk => (index.rows.find? chunk.chunkId).isNone)
    ensure (rows.rows.all index.metadata.owns && noForeignRows rows chunks &&
      payloadsMatch rows chunks && allPresent rows chunks &&
        decide (rows.rows.length ≤ chunks.length)) .indexNotReadyError
      "row count does not match metadata"
    return rows

/-- The index a writer creates when there is none; the Milvus writer fills it at once. -/
def createdIndex (chunksFingerprint : List ChunkRecordV1 → String) (backend : IndexBackend)
    (ownerId documentId documentVersionId : String) (chunks : List ChunkRecordV1) :
    PhysicalIndex where
  metadata := stagedMetadata chunksFingerprint ownerId documentId documentVersionId chunks
  rows := match backend with
    | .elasticsearch => Table.empty
    | .milvus => upsertRows Table.empty chunks

/-- `ensure_staged`: the index it leaves, and the receipt. -/
def ensureStaged (chunksFingerprint : List ChunkRecordV1 → String) (backend : IndexBackend)
    (current : Option PhysicalIndex) (ownerId documentId documentVersionId : String)
    (chunks : List ChunkRecordV1) : Except PyError (PhysicalIndex × IndexWriteReceipt) := do
  validateStage backend ownerId documentId documentVersionId chunks
  let index := current.getD
    (createdIndex chunksFingerprint backend ownerId documentId documentVersionId chunks)
  ensure (decide (index.metadata =
    stagedMetadata chunksFingerprint ownerId documentId documentVersionId chunks))
      .indexNotReadyError
    "version index identity drift"
  let rows ← stageRows backend index chunks
  return ({ index with rows := rows },
    ⟨backend, ownerId, documentVersionId, index.metadata.chunkCount,
      index.metadata.sourceChunksSha256⟩)

/-! ### Activation and deletion -/

/-- The metadata names this owner and version. -/
def IndexMetadata.named (m : IndexMetadata) (ownerId documentVersionId : String) : Bool :=
  decide (m.ownerId = ownerId) && decide (m.documentVersionId = documentVersionId)

/-- `_set_active` on an existing index. -/
def setActive (backend : IndexBackend) (index : PhysicalIndex) (ownerId documentVersionId : String)
    (isActive allowIncomplete : Bool) : Except PyError PhysicalIndex := do
  ensure (index.metadata.named ownerId documentVersionId) .indexNotReadyError
    "version index identity drift"
  match backend with
  | .elasticsearch => do
    let rows := index.rows.mapRows (fun row => if row.tenantId = ownerId ∧
      row.versionId = documentVersionId then row.withActive isActive else row)
        fun row => by split <;> rfl
    let matching := rows.rows.countP fun row => decide (row.tenantId = ownerId) &&
      decide (row.versionId = documentVersionId) && decide (row.isActive = isActive)
    ensure (decide (matching = index.metadata.chunkCount)) .indexNotReadyError
      "active-state count does not match metadata"
    return { index with rows := rows }
  | .milvus => do
    ensure (index.rows.rows.all index.metadata.owns &&
      decide (index.rows.rows.length ≤ index.metadata.chunkCount) &&
      (allowIncomplete || decide (index.rows.rows.length = index.metadata.chunkCount)))
        .indexNotReadyError
      "row count does not match metadata"
    return index.withActive isActive

def activateVersion (backend : IndexBackend) (current : Option PhysicalIndex)
    (ownerId documentVersionId : String) : Except PyError (Option PhysicalIndex) := do
  ensure (validIdentity ownerId documentVersionId) .valueError
    "owner_id and document_version_id must be valid contract IDs"
  match current with
  | none => .error ⟨.indexNotReadyError, "version index does not exist"⟩
  | some index => return some (← setActive backend index ownerId documentVersionId true false)

def deactivateVersion (backend : IndexBackend) (current : Option PhysicalIndex)
    (ownerId documentVersionId : String) : Except PyError (Option PhysicalIndex) := do
  ensure (validIdentity ownerId documentVersionId) .valueError
    "owner_id and document_version_id must be valid contract IDs"
  match current with
  | none => return none
  | some index =>
    return some (← setActive backend index ownerId documentVersionId false
      (decide (backend = .milvus)))

/-- `delete_version`: nothing is left, and whether there was an index. -/
def deleteVersion (current : Option PhysicalIndex) (ownerId documentVersionId : String) :
    Except PyError (Option PhysicalIndex × Bool) := do
  ensure (validIdentity ownerId documentVersionId) .valueError
    "owner_id and document_version_id must be valid contract IDs"
  match current with
  | none => return (none, false)
  | some index => do
    ensure (index.metadata.named ownerId documentVersionId) .indexNotReadyError
      "version index identity drift"
    return (none, true)

/-! ### What the calls leave behind -/

namespace PhysicalIndex

variable {index : PhysicalIndex}

theorem complete_iff : index.complete = true ↔
    index.rows.rows.length = index.metadata.chunkCount ∧ ∀ row ∈ index.rows.rows,
      index.metadata.owns row = true := by
  simp [complete]

theorem fullyActive_iff : index.fullyActive = true ↔ index.complete = true ∧
    index.allActive = true := by
  simp [fullyActive]

@[simp] theorem withActive_metadata (isActive : Bool) :
    (index.withActive isActive).metadata = index.metadata := rfl

theorem withActive_rows (isActive : Bool) :
    (index.withActive isActive).rows.rows = index.rows.rows.map (·.withActive isActive) := rfl

theorem withActive_complete (isActive : Bool) :
    (index.withActive isActive).complete = index.complete := by
  unfold complete
  rw [withActive_rows, List.length_map, List.all_map]
  rfl

theorem withActive_true_allActive : (index.withActive true).allActive = true := by
  unfold allActive
  rw [withActive_rows]
  simp

theorem withActive_false_allInactive : (index.withActive false).allInactive = true := by
  unfold allInactive
  rw [withActive_rows]
  simp

end PhysicalIndex

theorem mem_upsertRows {chunks : List ChunkRecordV1} {rows : Table ChunkRecordV1.chunkId}
    {row : ChunkRecordV1} (h : row ∈ (upsertRows rows chunks).rows) :
    row ∈ rows.rows ∨ row ∈ chunks := by
  induction chunks generalizing rows with
  | nil => exact .inl h
  | cons chunk chunks ih =>
    rcases ih h with hrow | hrow
    · rcases Table.mem_upsert hrow with rfl | hrow
      · exact .inr List.mem_cons_self
      · exact .inl hrow
    · exact .inr (List.mem_cons_of_mem _ hrow)

theorem validateStage_ok {backend : IndexBackend} {ownerId documentId documentVersionId : String}
    {chunks : List ChunkRecordV1}
    (h : validateStage backend ownerId documentId documentVersionId chunks = .ok ()) :
    (chunks.map (·.chunkId)).Nodup ∧ ∀ chunk ∈ chunks, chunk.isActive = false := by
  unfold validateStage at h
  simp only [ensure_bind, ensure_eq_ok, Bool.and_eq_true, decide_eq_true_eq, List.all_eq_true,
    Bool.not_eq_true'] at h
  exact ⟨h.2.2.1.1, fun chunk hchunk => (h.2.2.2 chunk hchunk).2⟩

/-- Staging leaves as many rows as chunks, all of them the version's own; a row is an old row or a
chunk. -/
theorem stageRows_ok {backend : IndexBackend} {index : PhysicalIndex} {chunks : List ChunkRecordV1}
    {rows : Table ChunkRecordV1.chunkId} (hnodup : (chunks.map (·.chunkId)).Nodup)
    (h : stageRows backend index chunks = .ok rows) :
    rows.rows.length = chunks.length ∧ (∀ row ∈ rows.rows, index.metadata.owns row = true) ∧
      ∀ row ∈ rows.rows, row ∈ index.rows.rows ∨ row ∈ chunks := by
  unfold stageRows at h
  obtain ⟨hfirst, h⟩ := ensure_bind.mp h
  simp only [Bool.and_eq_true, decide_eq_true_eq, List.all_eq_true] at hfirst
  cases backend with
  | elasticsearch =>
    obtain ⟨staged, hstaged, h⟩ := bind_eq_ok.mp h
    obtain ⟨-, h⟩ := ensure_bind.mp h
    cases pure_eq_ok.mp h
    unfold bulkIndex at hstaged
    split at hstaged
    · obtain ⟨-, hstaged⟩ := ensure_bind.mp hstaged
      obtain ⟨hcount, hstaged⟩ := ensure_bind.mp hstaged
      cases pure_eq_ok.mp hstaged
      simp only [Bool.and_eq_true, decide_eq_true_eq, List.all_eq_true] at hcount
      exact ⟨hcount.2, hcount.1, fun row hrow => mem_upsertRows hrow⟩
    · rename_i hfull
      cases pure_eq_ok.mp hstaged
      exact ⟨by omega, hfirst.1, fun row hrow => .inl hrow⟩
  | milvus =>
    obtain ⟨-, h⟩ := ensure_bind.mp h
    obtain ⟨hfinal, h⟩ := ensure_bind.mp h
    cases pure_eq_ok.mp h
    simp only [Bool.and_eq_true, decide_eq_true_eq, List.all_eq_true] at hfinal
    obtain ⟨⟨⟨⟨howned, -⟩, -⟩, hpresent⟩, hlength⟩ := hfinal
    refine ⟨Nat.le_antisymm hlength ?_, howned, fun row hrow => ?_⟩
    · -- the chunk identifiers are distinct and each has its row
      have hsub : (chunks.map (·.chunkId)) ⊆ (upsertRows index.rows
          (chunks.filter fun chunk => (index.rows.find? chunk.chunkId).isNone)).rows.map
            (·.chunkId) := by
        intro id hid
        obtain ⟨chunk, hchunk, rfl⟩ := List.mem_map.mp hid
        have := List.all_eq_true.mp hpresent chunk hchunk
        obtain ⟨row, hrow⟩ := Option.isSome_iff_exists.mp this
        obtain ⟨hmem, hkey⟩ := Table.find?_eq_some_iff.mp hrow
        exact List.mem_map.mpr ⟨row, hmem, hkey⟩
      have := (hnodup.subperm hsub).length_le
      simpa using this
    · rcases mem_upsertRows hrow with hrow | hrow
      · exact .inl hrow
      · exact .inr (List.mem_filter.mp hrow).1

/-- A complete index is not written again. -/
theorem stageRows_complete {backend : IndexBackend} {index : PhysicalIndex}
    {chunks : List ChunkRecordV1} {rows : Table ChunkRecordV1.chunkId}
    (hcount : index.rows.rows.length = chunks.length)
    (h : stageRows backend index chunks = .ok rows) : rows = index.rows := by
  unfold stageRows at h
  obtain ⟨-, h⟩ := ensure_bind.mp h
  cases backend with
  | elasticsearch =>
    obtain ⟨staged, hstaged, h⟩ := bind_eq_ok.mp h
    obtain ⟨-, h⟩ := ensure_bind.mp h
    cases pure_eq_ok.mp h
    unfold bulkIndex at hstaged
    rw [if_neg (by omega)] at hstaged
    exact (pure_eq_ok.mp hstaged).symm
  | milvus =>
    obtain ⟨hpresent, h⟩ := ensure_bind.mp h
    obtain ⟨-, h⟩ := ensure_bind.mp h
    cases pure_eq_ok.mp h
    simp only [Bool.and_eq_true] at hpresent
    -- as many distinct rows as chunks, each for one of the chunks: no chunk is missing
    have hsub : index.rows.rows.map (·.chunkId) ⊆ chunks.map (·.chunkId) := by
      intro id hid
      obtain ⟨row, hrow, rfl⟩ := List.mem_map.mp hid
      obtain ⟨chunk, hchunk, hkey⟩ := List.any_eq_true.mp (List.all_eq_true.mp hpresent.1 row hrow)
      exact List.mem_map.mpr ⟨chunk, hchunk, by simpa using hkey⟩
    have hperm := (index.rows.nodup.subperm hsub).perm_of_length_le (by simp [hcount])
    have hnone : chunks.filter (fun chunk => (index.rows.find? chunk.chunkId).isNone) = [] := by
      refine List.filter_eq_nil_iff.mpr fun chunk hchunk hmissing => ?_
      obtain ⟨row, hrow, hkey⟩ :=
        List.mem_map.mp (hperm.mem_iff.mpr (List.mem_map.mpr ⟨chunk, hchunk, rfl⟩))
      exact Table.find?_eq_none_iff.mp (Option.isNone_iff_eq_none.mp hmissing) row hrow hkey
    rw [hnone]
    rfl

section Staging

variable {fp : List ChunkRecordV1 → String} {backend : IndexBackend}
  {current : Option PhysicalIndex} {ownerId documentId documentVersionId : String}
  {chunks : List ChunkRecordV1} {index : PhysicalIndex} {receipt : IndexWriteReceipt}

theorem ensureStaged_ok
    (h : ensureStaged fp backend current ownerId documentId documentVersionId chunks =
      .ok (index, receipt)) :
    index.metadata = stagedMetadata fp ownerId documentId documentVersionId chunks ∧
      index.complete = true ∧
      receipt = ⟨backend, ownerId, documentVersionId, chunks.length, fp chunks⟩ ∧
      (∀ old, current = some old → old.complete = true → index = old) ∧
      ((∀ old, current = some old → old.allInactive = true) → index.allInactive = true) := by
  unfold ensureStaged at h
  obtain ⟨hvalid, h⟩ := check_bind.mp h
  obtain ⟨hnodup, hinactive⟩ := validateStage_ok hvalid
  obtain ⟨hmetadata, h⟩ := ensure_bind.mp h
  rw [decide_eq_true_eq] at hmetadata
  obtain ⟨rows, hrows, h⟩ := bind_eq_ok.mp h
  cases pure_eq_ok.mp h
  obtain ⟨hlength, howned, hmem⟩ := stageRows_ok hnodup hrows
  refine ⟨hmetadata, ?_, ?_, ?_, ?_⟩
  · rw [PhysicalIndex.complete_iff]
    refine ⟨?_, howned⟩
    rw [hlength, hmetadata]
    rfl
  · rw [hmetadata]
    rfl
  · rintro old rfl hcomplete
    have hcount := (PhysicalIndex.complete_iff.mp hcomplete).1
    rw [Option.getD_some] at hmetadata hrows ⊢
    rw [hmetadata] at hcount
    rw [stageRows_complete hcount hrows]
  · intro hold
    refine List.all_eq_true.mpr fun row hrow => ?_
    rcases hmem row hrow with hrow | hrow
    · cases current with
      | some old => exact List.all_eq_true.mp (hold old rfl) row hrow
      | none =>
        cases backend with
        | elasticsearch => cases hrow
        | milvus =>
          rcases mem_upsertRows hrow with hrow | hrow
          · cases hrow
          · simp [hinactive row hrow]
    · simp [hinactive row hrow]

end Staging

/-- On a complete index, a change of activity reaches every row. -/
theorem setActive_ok {backend : IndexBackend} {index index' : PhysicalIndex}
    {ownerId documentVersionId : String} {isActive allowIncomplete : Bool}
    (h : setActive backend index ownerId documentVersionId isActive allowIncomplete = .ok index')
    (hcomplete : index.complete = true) : index' = index.withActive isActive := by
  unfold setActive at h
  obtain ⟨hnamed, h⟩ := ensure_bind.mp h
  simp only [IndexMetadata.named, Bool.and_eq_true, decide_eq_true_eq] at hnamed
  cases backend with
  | elasticsearch =>
    obtain ⟨-, h⟩ := ensure_bind.mp h
    cases pure_eq_ok.mp h
    have howned := (PhysicalIndex.complete_iff.mp hcomplete).2
    unfold PhysicalIndex.withActive
    congr 1
    refine Table.ext (List.map_congr_left fun row hrow => if_pos ?_)
    have := howned row hrow
    simp only [IndexMetadata.owns, Bool.and_eq_true, decide_eq_true_eq] at this
    exact ⟨this.1.1.trans hnamed.1, this.2.trans hnamed.2⟩
  | milvus =>
    obtain ⟨-, h⟩ := ensure_bind.mp h
    exact (pure_eq_ok.mp h).symm

theorem activateVersion_ok {backend : IndexBackend} {current result : Option PhysicalIndex}
    {ownerId documentVersionId : String}
    (h : activateVersion backend current ownerId documentVersionId = .ok result) :
    ∃ index index', current = some index ∧ result = some index' ∧
      (index.complete = true → index' = index.withActive true) := by
  unfold activateVersion at h
  obtain ⟨-, h⟩ := ensure_bind.mp h
  cases current with
  | none => cases h
  | some index =>
    obtain ⟨index', hset, h⟩ := bind_eq_ok.mp h
    cases pure_eq_ok.mp h
    exact ⟨index, index', rfl, rfl, setActive_ok hset⟩

theorem deactivateVersion_ok {backend : IndexBackend} {current result : Option PhysicalIndex}
    {ownerId documentVersionId : String}
    (h : deactivateVersion backend current ownerId documentVersionId = .ok result) :
    (current = none ∧ result = none) ∨ ∃ index index', current = some index ∧ result = some index' ∧
      (index.complete = true → index' = index.withActive false) := by
  unfold deactivateVersion at h
  obtain ⟨-, h⟩ := ensure_bind.mp h
  cases current with
  | none =>
    cases pure_eq_ok.mp h
    exact .inl ⟨rfl, rfl⟩
  | some index =>
    obtain ⟨index', hset, h⟩ := bind_eq_ok.mp h
    cases pure_eq_ok.mp h
    exact .inr ⟨index, index', rfl, rfl, setActive_ok hset⟩

theorem deleteVersion_ok {current result : Option PhysicalIndex}
    {ownerId documentVersionId : String} {existed : Bool}
    (h : deleteVersion current ownerId documentVersionId = .ok (result, existed)) :
    result = none := by
  unfold deleteVersion at h
  obtain ⟨-, h⟩ := ensure_bind.mp h
  cases current with
  | none =>
    cases pure_eq_ok.mp h
    rfl
  | some index =>
    obtain ⟨-, h⟩ := ensure_bind.mp h
    cases pure_eq_ok.mp h
    rfl

/-- Staging keeps the metadata of an index that exists. -/
theorem ensureStaged_metadata {fp : List ChunkRecordV1 → String} {backend : IndexBackend}
    {old index : PhysicalIndex} {ownerId documentId documentVersionId : String}
    {chunks : List ChunkRecordV1} {receipt : IndexWriteReceipt}
    (h : ensureStaged fp backend (some old) ownerId documentId documentVersionId chunks =
      .ok (index, receipt)) :
    index.metadata = old.metadata := by
  obtain ⟨-, h⟩ := check_bind.mp h
  obtain ⟨-, h⟩ := ensure_bind.mp h
  obtain ⟨rows, -, h⟩ := bind_eq_ok.mp h
  cases pure_eq_ok.mp h
  rfl

theorem setActive_metadata {backend : IndexBackend} {index index' : PhysicalIndex}
    {ownerId documentVersionId : String} {isActive allowIncomplete : Bool}
    (h : setActive backend index ownerId documentVersionId isActive allowIncomplete = .ok index') :
    index'.metadata = index.metadata := by
  obtain ⟨-, h⟩ := ensure_bind.mp h
  cases backend with
  | elasticsearch =>
    obtain ⟨-, h⟩ := ensure_bind.mp h
    cases pure_eq_ok.mp h
    rfl
  | milvus =>
    obtain ⟨-, h⟩ := ensure_bind.mp h
    cases pure_eq_ok.mp h
    rfl

theorem activateVersion_metadata {backend : IndexBackend} {index : PhysicalIndex}
    {result : Option PhysicalIndex} {ownerId documentVersionId : String}
    (h : activateVersion backend (some index) ownerId documentVersionId = .ok result) :
    ∃ index', result = some index' ∧ index'.metadata = index.metadata := by
  obtain ⟨-, h⟩ := ensure_bind.mp h
  obtain ⟨index', hset, h⟩ := bind_eq_ok.mp h
  cases pure_eq_ok.mp h
  exact ⟨index', rfl, setActive_metadata hset⟩

theorem deactivateVersion_metadata {backend : IndexBackend} {index : PhysicalIndex}
    {result : Option PhysicalIndex} {ownerId documentVersionId : String}
    (h : deactivateVersion backend (some index) ownerId documentVersionId = .ok result) :
    ∃ index', result = some index' ∧ index'.metadata = index.metadata := by
  obtain ⟨-, h⟩ := ensure_bind.mp h
  obtain ⟨index', hset, h⟩ := bind_eq_ok.mp h
  cases pure_eq_ok.mp h
  exact ⟨index', rfl, setActive_metadata hset⟩

end ZhiyanRag.Ingestion
