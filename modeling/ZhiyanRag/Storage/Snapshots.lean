import Mathlib.Data.List.Sort
import ZhiyanRag.Storage.Versions

/-!
# Runtime snapshots

The repository calls on `rag_pdf_objects` and `rag_chunks`: one immutable PDF registration and its
exact chunk set, the READY-only reads, and the purge of an `INACTIVE` version. `chunks_fingerprint`
is a SHA-256 over canonical JSON; every result holds for whatever function of the chunk list it is.
-/

namespace ZhiyanRag.Storage

open Relational ZhiyanRag.Ingestion

/-! ### Rows and records -/

/-- The row `persist_chunk_snapshot_v1` inserts for a chunk at an ordinal. -/
def chunkRow (chunk : ChunkRecordV1) (ordinal : Nat) : ChunkRow where
  chunkId := chunk.chunkId
  ownerId := chunk.tenantId
  documentId := chunk.documentId
  documentVersionId := chunk.versionId
  chunkOrdinal := ordinal
  text := chunk.text
  sectionPath := chunk.sectionPath
  pageStart := chunk.pageStart
  pageEnd := chunk.pageEnd
  parentChunkId := chunk.parentChunkId
  previousChunkId := chunk.previousChunkId
  nextChunkId := chunk.nextChunkId
  visibility := chunk.visibility
  libraryScopeIds := chunk.libraryScopeIds
  parseVersion := chunk.parseVersion
  embeddingVersion := chunk.embeddingVersion

/-- `_chunk_from_row`. -/
def chunkFromRow (isActive : Bool) (row : ChunkRow) : ChunkRecordV1 where
  chunkId := row.chunkId
  documentId := row.documentId
  versionId := row.documentVersionId
  text := row.text
  sectionPath := row.sectionPath
  pageStart := row.pageStart
  pageEnd := row.pageEnd
  parentChunkId := row.parentChunkId
  previousChunkId := row.previousChunkId
  nextChunkId := row.nextChunkId
  tenantId := row.ownerId
  visibility := row.visibility
  libraryScopeIds := row.libraryScopeIds
  parseVersion := row.parseVersion
  embeddingVersion := row.embeddingVersion
  isActive := isActive

@[simp] theorem chunkFromRow_chunkRow (chunk : ChunkRecordV1) (ordinal : Nat) (isActive : Bool) :
    chunkFromRow isActive (chunkRow chunk ordinal) = chunk.withActive isActive := rfl

/-- The rows of a chunk list, numbered from `start`. -/
def chunkRows (chunks : List ChunkRecordV1) (start : Nat) : List ChunkRow :=
  (chunks.zipIdx start).map fun p => chunkRow p.1 p.2

/-- `ORDER BY chunk_ordinal`. -/
def ordinalLe (a b : ChunkRow) : Prop := a.chunkOrdinal ≤ b.chunkOrdinal

instance : DecidableRel ordinalLe := fun a b => inferInstanceAs
    (Decidable (a.chunkOrdinal ≤ b.chunkOrdinal))

/-- The rows of `get_chunk_snapshot_v1`: one owner's version, by ordinal. -/
def Database.snapshotRows (db : Database) (ownerId documentVersionId : String) : List ChunkRow :=
  (db.chunks.rows.filter fun r =>
    decide (r.ownerId = ownerId) && decide (r.documentVersionId = documentVersionId)).insertionSort
      ordinalLe

/-! ### Persisting a snapshot -/

/-- `persist_pdf_object_v1`: `ON CONFLICT (document_version_id) DO NOTHING`. -/
def insertPdfObject (db : Database) (pdf : PdfObjectV1) : Except PyError Database := do
  ensure (checkPdfObject pdf) .checkViolation "rag_pdf_objects"
  match db.pdfObjects.insert? pdf with
  | none => return db
  | some pdfObjects => do
    ensure (db.pdfObjects.rows.all fun p => decide (p.objectKey ≠ pdf.objectKey)) .uniqueViolation
      "rag_pdf_objects_object_key_key"
    ensure (db.referencedVersion? pdf.documentVersionId pdf.ownerId pdf.documentId).isSome
      .foreignKeyViolation "rag_pdf_objects_version_owner_fk"
    return { db with pdfObjects := pdfObjects }

/-- `persist_chunk_snapshot_v1`: `ON CONFLICT (chunk_id) DO NOTHING`; the other unique key,
`(document_version_id, chunk_ordinal)`, raises. -/
def insertChunk (db : Database) (row : ChunkRow) : Except PyError Database := do
  ensure (storableChunk row) .dataError "rag_chunks"
  ensure (checkChunk row) .checkViolation "rag_chunks"
  match db.chunks.insert? row with
  | none => return db
  | some chunks => do
    ensure (db.chunks.rows.all fun r => decide (r.documentVersionId ≠ row.documentVersionId) ||
      decide (r.chunkOrdinal ≠ row.chunkOrdinal)) .uniqueViolation
        "rag_chunks_version_ordinal_unique"
    ensure (db.referencedVersion? row.documentVersionId row.ownerId row.documentId).isSome
      .foreignKeyViolation "rag_chunks_version_owner_fk"
    return { db with chunks := chunks }

/-- The identity of a PDF object: everything but `stored_at`. -/
def PdfObjectV1.identity (p : PdfObjectV1) : PdfObjectV1 := { p with storedAt := 0 }

/-- The chunk belongs to the inactive PDF version. -/
def chunkMatchesPdf (pdf : PdfObjectV1) (chunk : ChunkRecordV1) : Bool :=
  decide (chunk.tenantId = pdf.ownerId) && decide (chunk.documentId = pdf.documentId) &&
    decide (chunk.versionId = pdf.documentVersionId) && !chunk.isActive

/-- The receipt of a committed snapshot. -/
def snapshotReceipt (chunksFingerprint : List ChunkRecordV1 → String) (pdf : PdfObjectV1)
    (chunks : List ChunkRecordV1) : RuntimeSnapshotV1 where
  ownerId := pdf.ownerId
  documentId := pdf.documentId
  documentVersionId := pdf.documentVersionId
  pdfObjectKey := pdf.objectKey
  pdfSha256 := pdf.contentSha256
  chunkCount := chunks.length
  chunkSnapshotSha256 := chunksFingerprint chunks

def persistRuntimeSnapshot (chunksFingerprint : List ChunkRecordV1 → String) (db : Database)
    (pdf : PdfObjectV1) (chunks : List ChunkRecordV1) :
    Except PyError (Database × RuntimeSnapshotV1) := do
  ensure (!chunks.isEmpty) .valueError "runtime snapshot requires at least one Chunk"
  ensure (decide (chunks.map (·.chunkId)).Nodup) .valueError
    "runtime snapshot contains duplicate Chunk IDs"
  ensure (chunks.all (chunkMatchesPdf pdf)) .valueError
    "runtime snapshot Chunk identity must match the inactive PDF version"
  let db ← insertPdfObject db pdf
  let storedPdf := (db.pdfObjects.find? pdf.documentVersionId).filter fun p =>
    decide (p.ownerId = pdf.ownerId)
  ensure (storedPdf.any fun p => decide (p.identity = pdf.identity)) .identityConflictError
    "persisted PDF object identity differs from the immutable request"
  let db ← (chunkRows chunks 0).foldlM insertChunk db
  let storedChunks := (db.snapshotRows pdf.ownerId pdf.documentVersionId).map (chunkFromRow false)
  ensure (decide (storedChunks = chunks)) .identityConflictError
    "persisted Chunk snapshot differs from the immutable request"
  return (db, snapshotReceipt chunksFingerprint pdf chunks)

/-! ### Loading and purging -/

/-- The version is visible online: READY, active, neither deleted nor expired. -/
def onlineVisible (v : DocumentVersionLifecycleV1) : Bool :=
  decide (v.lifecycleStatus = .ready) && v.isActive && v.deleteTime.isNone &&
    v.chunkExpireTime.isNone

/-- `ORDER BY document_id, document_version_id`. -/
def documentVersionLe (v w : DocumentVersionLifecycleV1) : Prop :=
  v.documentId < w.documentId ∨
    (v.documentId = w.documentId ∧ v.documentVersionId ≤ w.documentVersionId)

instance : DecidableRel documentVersionLe := fun v w => by unfold documentVersionLe; infer_instance

/-- The rows of `resolve_online_document_versions_v1`; no document identifiers select every
document. -/
def Database.onlineVersions (db : Database) (ownerId : String) (documentIds : List String) :
    List DocumentVersionLifecycleV1 :=
  (db.versions.rows.filter fun v =>
    decide (v.ownerId = ownerId) && onlineVisible v &&
      decide (v.indexStates = DocumentVersionLifecycleV1.bothReady) &&
        (documentIds.isEmpty || documentIds.contains v.documentId)).insertionSort documentVersionLe

def resolveOnlineVersions (db : Database) (ownerId : String) (documentIds : List String) :
    Except PyError (List DocumentVersionLifecycleV1) := do
  ensure (decide (documentIds.length ≤ 1000)) .valueError
    "online document scope exceeds the phase-1 limit"
  ensure (decide documentIds.Nodup) .valueError "online document scope contains duplicates"
  ensure (contractIdPattern ownerId && documentIds.all contractIdPattern) .valueError
    "online owner or document identity is invalid"
  let versions := db.onlineVersions ownerId documentIds
  ensure (decide (versions.map (·.documentId)).Nodup) .postgresFactSourceError
    "multiple active versions violate online visibility truth"
  return versions

/-- `ORDER BY document_version_id, chunk_ordinal`. -/
def versionOrdinalLe (a b : ChunkRow) : Prop :=
  a.documentVersionId < b.documentVersionId ∨
    (a.documentVersionId = b.documentVersionId ∧ a.chunkOrdinal ≤ b.chunkOrdinal)

instance : DecidableRel versionOrdinalLe := fun a b => by unfold versionOrdinalLe; infer_instance

/-- The rows of `load_online_chunk_snapshot_v1`. -/
def Database.onlineRows (db : Database) (ownerId : String) (documentVersionIds : List String) :
    List ChunkRow :=
  (db.chunks.rows.filter fun r =>
    decide (r.ownerId = ownerId) && documentVersionIds.contains r.documentVersionId &&
      (db.referencedVersion? r.documentVersionId r.ownerId r.documentId).any
        onlineVisible).insertionSort
    versionOrdinalLe

def loadOnlineChunks (db : Database) (ownerId : String) (documentVersionIds : List String) :
    Except PyError (List ChunkRecordV1) :=
  if documentVersionIds.isEmpty then .ok []
  else do
    ensure (decide (documentVersionIds.length ≤ 1000)) .valueError
      "online Chunk snapshot scope exceeds the phase-1 limit"
    ensure (decide documentVersionIds.Nodup && contractIdPattern ownerId &&
      documentVersionIds.all contractIdPattern) .valueError
        "online Chunk snapshot identity is invalid"
    let chunks := (db.onlineRows ownerId documentVersionIds).map (chunkFromRow true)
    ensure (documentVersionIds.all fun v => chunks.any fun chunk => decide (chunk.versionId = v))
      .identityConflictError "one or more READY versions have no exact persisted Chunk snapshot"
    ensure (decide (chunks.map (·.chunkId)).Nodup) .postgresFactSourceError
      "persisted online Chunk snapshot contains duplicate identities"
    return chunks

def getInactivePdfObject (db : Database) (ownerId documentVersionId : String) :
    Option PdfObjectV1 :=
  (db.pdfObjects.find? documentVersionId).filter fun p =>
    decide (p.ownerId = ownerId) &&
      (db.referencedVersion? p.documentVersionId p.ownerId p.documentId).any fun v =>
        decide (v.lifecycleStatus = .inactive) && !v.isActive

def purgeInactiveRuntimeSnapshot (db : Database) (ownerId documentVersionId : String) :
    Except PyError Database := do
  ensure ((db.ownedVersion? ownerId documentVersionId).any fun v =>
    decide (v.lifecycleStatus = .inactive) && !v.isActive) .identityConflictError
    "runtime snapshot purge requires an INACTIVE owner version"
  let doomedChunk (r : ChunkRow) :=
    decide (r.ownerId = ownerId) && decide (r.documentVersionId = documentVersionId)
  ensure (db.chunks.rows.all fun r =>
    !doomedChunk r || db.snapshotDeletable r.documentVersionId r.ownerId r.documentId)
    .checkViolation "runtime snapshot deletion requires an INACTIVE version"
  let doomedPdf (p : PdfObjectV1) :=
    decide (p.ownerId = ownerId) && decide (p.documentVersionId = documentVersionId)
  ensure (db.pdfObjects.rows.all fun p =>
    !doomedPdf p || db.snapshotDeletable p.documentVersionId p.ownerId p.documentId)
    .checkViolation "runtime snapshot deletion requires an INACTIVE version"
  return { db with
    chunks := db.chunks.filter fun r => !doomedChunk r
    pdfObjects := db.pdfObjects.filter fun p => !doomedPdf p }

/-! ### What each call commits -/

theorem insertPdfObject_ok {db db' : Database} {pdf : PdfObjectV1}
    (h : insertPdfObject db pdf = .ok db') :
    (db' = db ∧ db.pdfObjects.find? pdf.documentVersionId ≠ none) ∨ ∃ pdfObjects,
      db.pdfObjects.insert? pdf = some pdfObjects ∧ db' = { db with pdfObjects := pdfObjects } := by
  unfold insertPdfObject at h
  obtain ⟨-, h⟩ := ensure_bind.mp h
  split at h
  · rename_i hnone
    cases pure_eq_ok.mp h
    exact .inl ⟨rfl, Table.find?_ne_none_of_insert? hnone⟩
  · rename_i pdfObjects hinsert
    obtain ⟨-, h⟩ := ensure_bind.mp h
    obtain ⟨-, h⟩ := ensure_bind.mp h
    cases pure_eq_ok.mp h
    exact .inr ⟨pdfObjects, hinsert, rfl⟩

/-- The row has its version's ordinal to itself among the stored rows. -/
def Database.OrdinalFree (db : Database) (row : ChunkRow) : Prop :=
  ∀ r ∈ db.chunks.rows, r.documentVersionId = row.documentVersionId →
    r.chunkOrdinal ≠ row.chunkOrdinal

theorem insertChunk_ok {db db' : Database} {row : ChunkRow} (h : insertChunk db row = .ok db') :
    storableChunk row = true ∧ checkChunk row = true ∧
      ((db' = db ∧ db.chunks.find? row.chunkId ≠ none) ∨ ∃ chunks,
        db.chunks.insert? row = some chunks ∧ db' = { db with chunks := chunks } ∧
        db.OrdinalFree row) := by
  unfold insertChunk at h
  obtain ⟨hstorable, h⟩ := ensure_bind.mp h
  obtain ⟨hcheck, h⟩ := ensure_bind.mp h
  refine ⟨hstorable, hcheck, ?_⟩
  split at h
  · rename_i hnone
    cases pure_eq_ok.mp h
    exact .inl ⟨rfl, Table.find?_ne_none_of_insert? hnone⟩
  · rename_i chunks hinsert
    obtain ⟨hfree, h⟩ := ensure_bind.mp h
    obtain ⟨-, h⟩ := ensure_bind.mp h
    cases pure_eq_ok.mp h
    refine .inr ⟨chunks, hinsert, rfl, fun r hr hversion hordinal => ?_⟩
    have := List.all_eq_true.mp hfree r hr
    simp [hversion, hordinal] at this

/-- Inserting chunk rows appends some of them, in order, at free ordinals, and touches no other
table. -/
theorem foldlM_insertChunk_ok {rows : List ChunkRow} {db db' : Database}
    (h : rows.foldlM insertChunk db = .ok db') :
    (∀ row ∈ rows, storableChunk row = true ∧ checkChunk row = true) ∧
    ∃ chunks inserted, db' = { db with chunks := chunks } ∧ inserted.Sublist rows ∧
      chunks.rows = db.chunks.rows ++ inserted ∧ ∀ row ∈ inserted, db.OrdinalFree row := by
  induction rows generalizing db with
  | nil =>
    cases pure_eq_ok.mp h
    exact ⟨fun row hrow => absurd hrow List.not_mem_nil, _, [], rfl, List.Sublist.refl _,
      (List.append_nil _).symm, fun row hrow => absurd hrow List.not_mem_nil⟩
  | cons row rows ih =>
    rw [List.foldlM_cons] at h
    obtain ⟨db₁, hrow, h⟩ := bind_eq_ok.mp h
    obtain ⟨hchecks, chunks, inserted, rfl, hsub, hrows, hfree⟩ := ih h
    obtain ⟨hstorable, hcheck, hcase⟩ := insertChunk_ok hrow
    refine ⟨?_, ?_⟩
    · intro r hr
      rcases List.mem_cons.mp hr with rfl | hr
      · exact ⟨hstorable, hcheck⟩
      · exact hchecks r hr
    · rcases hcase with ⟨rfl, -⟩ | ⟨chunks₁, hinsert, rfl, hrowFree⟩
      · exact ⟨chunks, inserted, rfl, hsub.cons row, hrows, hfree⟩
      · have hrows₁ := Table.rows_insert? hinsert
        refine ⟨chunks, row :: inserted, rfl, hsub.cons_cons row, ?_, fun r hr => ?_⟩
        · rw [hrows, hrows₁, List.append_assoc, List.singleton_append]
        · rcases List.mem_cons.mp hr with rfl | hr
          · exact hrowFree
          · exact fun r' hr' => hfree r hr r' (by rw [hrows₁]; exact List.mem_append_left _ hr')

/-- A committed snapshot: the registration is the request's, rows of the version were appended, and
the stored list is the request's. -/
theorem persistRuntimeSnapshot_ok {fp : List ChunkRecordV1 → String} {db db' : Database}
    {pdf : PdfObjectV1} {chunks : List ChunkRecordV1} {receipt : RuntimeSnapshotV1}
    (h : persistRuntimeSnapshot fp db pdf chunks = .ok (db', receipt)) :
    chunks ≠ [] ∧ (chunks.map (·.chunkId)).Nodup ∧ chunks.all (chunkMatchesPdf pdf) = true ∧
      receipt = snapshotReceipt fp pdf chunks ∧
      (db'.snapshotRows pdf.ownerId pdf.documentVersionId).map (chunkFromRow false) = chunks ∧
      ∃ pdfDb storedPdf newChunks inserted, insertPdfObject db pdf = .ok pdfDb ∧
        pdfDb.pdfObjects.find? pdf.documentVersionId = some storedPdf ∧
        storedPdf.identity = pdf.identity ∧
        db' = { pdfDb with chunks := newChunks } ∧ inserted.Sublist (chunkRows chunks 0) ∧
        newChunks.rows = db.chunks.rows ++ inserted ∧ (∀ row ∈ inserted, db.OrdinalFree row) ∧
        ∀ row ∈ chunkRows chunks 0, storableChunk row = true ∧ checkChunk row = true := by
  unfold persistRuntimeSnapshot at h
  obtain ⟨hne, h⟩ := ensure_bind.mp h
  obtain ⟨hnodup, h⟩ := ensure_bind.mp h
  obtain ⟨hmatch, h⟩ := ensure_bind.mp h
  obtain ⟨pdfDb, hpdf, h⟩ := bind_eq_ok.mp h
  obtain ⟨hstored, h⟩ := ensure_bind.mp h
  obtain ⟨chunkDb, hchunks, h⟩ := bind_eq_ok.mp h
  obtain ⟨hequal, h⟩ := ensure_bind.mp h
  cases pure_eq_ok.mp h
  obtain ⟨storedPdf, hfilter, hidentity⟩ := (Option.any_eq_true _ _).mp hstored
  obtain ⟨hchecks, newChunks, inserted, rfl, hsub, hrows, hfree⟩ := foldlM_insertChunk_ok hchunks
  have hpdfChunks : pdfDb.chunks = db.chunks := by
    rcases insertPdfObject_ok hpdf with ⟨rfl, -⟩ | ⟨pdfObjects, -, rfl⟩
    · rfl
    · rfl
  refine ⟨by simpa using hne, by simpa using hnodup, hmatch, rfl, by simpa using hequal, pdfDb,
    storedPdf, newChunks, inserted, hpdf, (Option.filter_eq_some_iff.mp hfilter).1,
    by simpa using hidentity, rfl, hsub, ?_, fun row hrow => ?_, hchecks⟩
  · rw [hrows, hpdfChunks]
  · have := hfree row hrow
    unfold Database.OrdinalFree at this ⊢
    rwa [hpdfChunks] at this

theorem purgeInactiveRuntimeSnapshot_ok {db db' : Database} {ownerId documentVersionId : String}
    (h : purgeInactiveRuntimeSnapshot db ownerId documentVersionId = .ok db') :
    (∃ v, db.ownedVersion? ownerId documentVersionId = some v ∧ v.lifecycleStatus = .inactive) ∧
      db' = { db with
        chunks := db.chunks.filter fun r =>
          !(decide (r.ownerId = ownerId) && decide (r.documentVersionId = documentVersionId))
        pdfObjects := db.pdfObjects.filter fun p =>
          !(decide (p.ownerId = ownerId) && decide (p.documentVersionId = documentVersionId))
            } := by
  unfold purgeInactiveRuntimeSnapshot at h
  obtain ⟨hinactive, h⟩ := ensure_bind.mp h
  obtain ⟨-, h⟩ := ensure_bind.mp h
  obtain ⟨-, h⟩ := ensure_bind.mp h
  cases pure_eq_ok.mp h
  obtain ⟨v, hv, hstatus⟩ := (Option.any_eq_true _ _).mp hinactive
  simp only [Bool.and_eq_true, decide_eq_true_eq] at hstatus
  exact ⟨⟨v, hv, hstatus.1⟩, rfl⟩

/-- A resolved version is a stored `READY` version of the owner. -/
theorem resolveOnlineVersions_ready {db : Database} {ownerId : String} {documentIds : List String}
    {versions : List DocumentVersionLifecycleV1}
    (h : resolveOnlineVersions db ownerId documentIds = .ok versions)
    {v : DocumentVersionLifecycleV1} (hv : v ∈ versions) :
    v ∈ db.versions.rows ∧ v.ownerId = ownerId ∧ v.lifecycleStatus = .ready := by
  unfold resolveOnlineVersions at h
  obtain ⟨-, h⟩ := ensure_bind.mp h
  obtain ⟨-, h⟩ := ensure_bind.mp h
  obtain ⟨-, h⟩ := ensure_bind.mp h
  obtain ⟨-, h⟩ := ensure_bind.mp h
  cases pure_eq_ok.mp h
  unfold Database.onlineVersions at hv
  rw [(List.perm_insertionSort _ _).mem_iff, List.mem_filter] at hv
  obtain ⟨hmem, hv⟩ := hv
  simp only [onlineVisible, Bool.and_eq_true, decide_eq_true_eq] at hv
  exact ⟨hmem, hv.1.1.1, hv.1.1.2.1.1.1⟩

/-- What the online load finds for a version: a row of the owner, of a visible version. -/
def Database.HasOnlineRow (db : Database) (ownerId documentVersionId : String) : Prop :=
  ∃ row ∈ db.chunks.rows, row.ownerId = ownerId ∧ row.documentVersionId = documentVersionId ∧
    ∃ v, db.referencedVersion? row.documentVersionId row.ownerId row.documentId = some v ∧
    onlineVisible v = true

theorem mem_onlineRows {db : Database} {ownerId : String} {documentVersionIds : List String}
    {row : ChunkRow} : row ∈ db.onlineRows ownerId documentVersionIds ↔ row ∈ db.chunks.rows ∧
    row.ownerId = ownerId ∧
      row.documentVersionId ∈ documentVersionIds ∧
      ∃ v, db.referencedVersion? row.documentVersionId row.ownerId row.documentId = some v ∧
        onlineVisible v = true := by
  unfold Database.onlineRows
  rw [(List.perm_insertionSort _ _).mem_iff, List.mem_filter]
  simp [Option.any_eq_true, and_assoc]

/-- A chunk is loaded once. -/
theorem onlineRows_nodup (db : Database) (ownerId : String) (documentVersionIds : List String) :
    ((db.onlineRows ownerId documentVersionIds).map (·.chunkId)).Nodup := by
  unfold Database.onlineRows
  rw [((List.perm_insertionSort _ _).map _).nodup_iff]
  exact db.chunks.nodup.sublist (List.filter_sublist.map _)

/-- If every version has an online row, only the size limit can refuse the load. -/
theorem loadOnlineChunks_error {db : Database} {ownerId : String} {documentVersionIds : List String}
    {e : PyError} (hnodup : documentVersionIds.Nodup) (howner : contractIdPattern ownerId = true)
    (hids : ∀ id ∈ documentVersionIds, contractIdPattern id = true)
    (hrows : ∀ id ∈ documentVersionIds, db.HasOnlineRow ownerId id)
    (h : loadOnlineChunks db ownerId documentVersionIds = .error e) :
    1000 < documentVersionIds.length ∧ e.kind = .valueError := by
  unfold loadOnlineChunks at h
  split at h
  · cases h
  · by_cases hlimit : documentVersionIds.length ≤ 1000
    · have hloaded : ∀ id ∈ documentVersionIds,
          ((db.onlineRows ownerId documentVersionIds).map (chunkFromRow true)).any
            (fun chunk => decide (chunk.versionId = id)) = true := by
        intro id hid
        obtain ⟨row, hrow, hown, hvid, hvisible⟩ := hrows id hid
        refine List.any_eq_true.mpr ⟨chunkFromRow true row, List.mem_map_of_mem ?_,
          decide_eq_true hvid⟩
        exact mem_onlineRows.mpr ⟨hrow, hown, hvid ▸ hid, hvisible⟩
      have hchunkIds : (((db.onlineRows ownerId documentVersionIds).map (chunkFromRow true)).map
          (·.chunkId)).Nodup := by
        rw [List.map_map]
        exact onlineRows_nodup db ownerId documentVersionIds
      rw [ensure_true_bind (decide_eq_true hlimit),
        ensure_true_bind (by simp [hnodup, howner, List.all_eq_true.mpr hids]),
        ensure_true_bind (List.all_eq_true.mpr hloaded),
        ensure_true_bind (decide_eq_true hchunkIds)] at h
      cases h
    · rw [decide_eq_false hlimit] at h
      cases h
      exact ⟨Nat.lt_of_not_le hlimit, rfl⟩

end ZhiyanRag.Storage
