import ZhiyanRag.Lib.Steps
import ZhiyanRag.Storage.Repository

/-!
# Immutability of a runtime snapshot

`Database.versionRows` are the chunk rows of one version, in insertion order. The first committed
snapshot of a version stores exactly its list (`persist_first`); a later one can only extend the
stored list (`persist_later`), because a known chunk identifier is skipped, a taken ordinal raises,
and the stored list is compared with the request before the commit. The comparison lets a proper
extension through.
-/

namespace ZhiyanRag.Storage

open Relational ZhiyanRag.Ingestion

/-! ### The rows of a chunk list -/

theorem length_chunkRows (chunks : List ChunkRecordV1) (start : Nat) :
    (chunkRows chunks start).length = chunks.length := by
  simp [chunkRows]

theorem chunkRows_cons (chunk : ChunkRecordV1) (chunks : List ChunkRecordV1) (start : Nat) :
    chunkRows (chunk :: chunks) start = chunkRow chunk start :: chunkRows chunks (start + 1) := by
  simp [chunkRows, List.zipIdx_cons]

theorem mem_chunkRows {chunks : List ChunkRecordV1} {start : Nat} {row : ChunkRow}
    (h : row ∈ chunkRows chunks start) :
    ∃ chunk ∈ chunks, ∃ i, start ≤ i ∧ i < start + chunks.length ∧ row = chunkRow chunk i := by
  obtain ⟨⟨chunk, i⟩, hmem, rfl⟩ := List.mem_map.mp h
  exact ⟨chunk, List.fst_mem_of_mem_zipIdx hmem, i, List.le_snd_of_mem_zipIdx hmem,
    List.snd_lt_add_of_mem_zipIdx hmem, rfl⟩

/-- Every ordinal of the list is taken. -/
theorem ordinal_mem_chunkRows {chunks : List ChunkRecordV1} {start i : Nat} (h : start ≤ i)
    (hi : i < start + chunks.length) : ∃ row ∈ chunkRows chunks start, row.chunkOrdinal = i := by
  induction chunks generalizing start with
  | nil =>
    simp at hi
    omega
  | cons chunk chunks ih =>
    rw [chunkRows_cons]
    by_cases heq : start = i
    · exact ⟨_, List.mem_cons_self, by rw [heq]; rfl⟩
    · rw [List.length_cons] at hi
      have hnext : start + 1 ≤ i := by omega
      obtain ⟨row, hrow, hordinal⟩ := ih hnext (by omega)
      exact ⟨row, List.mem_cons_of_mem _ hrow, hordinal⟩

theorem pairwise_lt_chunkRows (chunks : List ChunkRecordV1) (start : Nat) :
    (chunkRows chunks start).Pairwise (·.chunkOrdinal < ·.chunkOrdinal) := by
  induction chunks generalizing start with
  | nil => exact List.Pairwise.nil
  | cons chunk chunks ih =>
    rw [chunkRows_cons]
    refine List.Pairwise.cons (fun row hrow => ?_) (ih (start + 1))
    obtain ⟨c, -, i, hi, -, rfl⟩ := mem_chunkRows hrow
    simp only [chunkRow]
    omega

theorem pairwise_chunkRows (chunks : List ChunkRecordV1) (start : Nat) :
    (chunkRows chunks start).Pairwise ordinalLe :=
  (pairwise_lt_chunkRows chunks start).imp Int.le_of_lt

/-- Inactive chunks come back unchanged. -/
theorem map_chunkFromRow_chunkRows {chunks : List ChunkRecordV1}
    (h : ∀ chunk ∈ chunks, chunk.isActive = false) (start : Nat) :
    (chunkRows chunks start).map (chunkFromRow false) = chunks := by
  induction chunks generalizing start with
  | nil => rfl
  | cons chunk chunks ih =>
    rw [chunkRows_cons, List.map_cons, chunkFromRow_chunkRow,
      ih (fun c hc => h c (List.mem_cons_of_mem _ hc))]
    have hchunk := h chunk List.mem_cons_self
    have hsame : chunk.withActive false = chunk := by
      cases chunk
      cases hchunk
      rfl
    rw [hsame]

theorem chunkMatchesPdf_iff {pdf : PdfObjectV1} {chunk : ChunkRecordV1} :
    chunkMatchesPdf pdf chunk = true ↔ chunk.tenantId = pdf.ownerId ∧
    chunk.documentId = pdf.documentId ∧
      chunk.versionId = pdf.documentVersionId ∧ chunk.isActive = false := by
  simp [chunkMatchesPdf, and_assoc]

/-! ### The rows of a version -/

/-- The chunk rows of a version. -/
def Database.versionRows (db : Database) (documentVersionId : String) : List ChunkRow :=
  db.chunks.rows.filter fun r => decide (r.documentVersionId = documentVersionId)

/-- A list that was accepted for a PDF object: `persist_runtime_snapshot` checks as much before SQL.
-/
structure AcceptedFor (pdf : PdfObjectV1) (chunks : List ChunkRecordV1) : Prop where
  nonempty : chunks ≠ []
  nodup : (chunks.map (·.chunkId)).Nodup
  matching : ∀ chunk ∈ chunks, chunkMatchesPdf pdf chunk = true

theorem AcceptedFor.row {pdf : PdfObjectV1} {chunks : List ChunkRecordV1}
    (h : AcceptedFor pdf chunks) {row : ChunkRow} (hrow : row ∈ chunkRows chunks 0) :
    row.documentVersionId = pdf.documentVersionId ∧ row.ownerId = pdf.ownerId := by
  obtain ⟨chunk, hchunk, i, -, -, rfl⟩ := mem_chunkRows hrow
  obtain ⟨howner, -, hversion, -⟩ := chunkMatchesPdf_iff.mp (h.matching chunk hchunk)
  exact ⟨hversion, howner⟩

theorem AcceptedFor.inactive {pdf : PdfObjectV1} {chunks : List ChunkRecordV1}
    (h : AcceptedFor pdf chunks) : ∀ chunk ∈ chunks, chunk.isActive = false :=
  fun chunk hchunk => (chunkMatchesPdf_iff.mp (h.matching chunk hchunk)).2.2.2

/-- Reading the snapshot back, when all rows of the version are the owner's. -/
theorem snapshotRows_eq {db : Database} {ownerId documentVersionId : String}
    (howner : ∀ row ∈ db.versionRows documentVersionId, row.ownerId = ownerId)
    (hsorted : (db.versionRows documentVersionId).Pairwise ordinalLe) :
    db.snapshotRows ownerId documentVersionId = db.versionRows documentVersionId := by
  have hfilter : db.chunks.rows.filter (fun r =>
      decide (r.ownerId = ownerId) && decide (r.documentVersionId = documentVersionId)) =
      db.versionRows documentVersionId := by
    rw [← List.filter_filter]
    exact List.filter_eq_self.mpr fun row hrow => by simpa using howner row hrow
  unfold Database.snapshotRows
  rw [hfilter]
  exact hsorted.insertionSort_eq

/-- What a committed snapshot does to the rows of each version. -/
theorem persist_versionRows {fp : List ChunkRecordV1 → String} {db db' : Database}
    {pdf : PdfObjectV1} {chunks : List ChunkRecordV1} {receipt : RuntimeSnapshotV1}
    (h : persistRuntimeSnapshot fp db pdf chunks = .ok (db', receipt)) :
    AcceptedFor pdf chunks ∧ (∃ inserted, inserted.Sublist (chunkRows chunks 0) ∧
      db'.chunks.rows = db.chunks.rows ++ inserted ∧
      db'.versionRows pdf.documentVersionId = db.versionRows pdf.documentVersionId ++ inserted ∧
      ∀ row ∈ inserted, db.OrdinalFree row) ∧
    ∀ vid, vid ≠ pdf.documentVersionId → db'.versionRows vid = db.versionRows vid := by
  obtain ⟨hne, hnodup, hmatch, -, -, pdfDb, storedPdf, newChunks, inserted, -, -, -, rfl, hsub,
      hrows, hfree,
    -⟩ := persistRuntimeSnapshot_ok h
  have haccepted : AcceptedFor pdf chunks := ⟨hne, hnodup, List.all_eq_true.mp hmatch⟩
  have hversion : ∀ row ∈ inserted, row.documentVersionId = pdf.documentVersionId :=
    fun row hrow => (haccepted.row (hsub.subset hrow)).1
  refine ⟨haccepted, ⟨inserted, hsub, hrows, ?_, hfree⟩, fun vid hvid => ?_⟩
  · unfold Database.versionRows
    rw [hrows, List.filter_append]
    congr 1
    exact List.filter_eq_self.mpr fun row hrow => by simpa using hversion row hrow
  · unfold Database.versionRows
    have hnil : inserted.filter (fun r => decide (r.documentVersionId = vid)) = [] :=
      List.filter_eq_nil_iff.mpr fun row hrow => by simpa [hversion row hrow] using Ne.symm hvid
    rw [hrows, List.filter_append, hnil, List.append_nil]

/-- The first snapshot of a version is stored as its list. -/
theorem persist_first {fp : List ChunkRecordV1 → String} {db db' : Database} {pdf : PdfObjectV1}
    {chunks : List ChunkRecordV1} {receipt : RuntimeSnapshotV1}
    (h : persistRuntimeSnapshot fp db pdf chunks = .ok (db', receipt))
    (hempty : db.versionRows pdf.documentVersionId = []) :
    db'.versionRows pdf.documentVersionId = chunkRows chunks 0 := by
  obtain ⟨haccepted, ⟨inserted, hsub, -, hrows, -⟩, -⟩ := persist_versionRows h
  obtain ⟨-, -, -, -, hstored, -⟩ := persistRuntimeSnapshot_ok h
  rw [hempty, List.nil_append] at hrows
  rw [hrows]
  refine hsub.eq_of_length ?_
  have howner : ∀ row ∈ db'.versionRows pdf.documentVersionId, row.ownerId = pdf.ownerId := by
    rw [hrows]
    exact fun row hrow => (haccepted.row (hsub.subset hrow)).2
  have hsorted : (db'.versionRows pdf.documentVersionId).Pairwise ordinalLe := by
    rw [hrows]
    exact (pairwise_chunkRows chunks 0).sublist hsub
  have hlength := congrArg List.length hstored
  rw [List.length_map, snapshotRows_eq howner hsorted, hrows] at hlength
  rw [hlength, length_chunkRows]

/-- A later snapshot extends the stored list. -/
theorem persist_later {fp : List ChunkRecordV1 → String} {db db' : Database} {pdf : PdfObjectV1}
    {stored chunks : List ChunkRecordV1} {receipt : RuntimeSnapshotV1}
    (h : persistRuntimeSnapshot fp db pdf chunks = .ok (db', receipt))
    (hrows : db.versionRows pdf.documentVersionId = chunkRows stored 0)
    (howner : ∀ chunk ∈ stored, chunk.tenantId = pdf.ownerId ∧ chunk.isActive = false) :
    stored <+: chunks ∧ (chunks = stored → db'.chunks = db.chunks) := by
  obtain ⟨haccepted, ⟨inserted, hsub, htable, hrows', hfree⟩, -⟩ := persist_versionRows h
  obtain ⟨-, -, -, -, hstored, -⟩ := persistRuntimeSnapshot_ok h
  rw [hrows] at hrows'
  have hordinal : ∀ row ∈ inserted, (stored.length : Int) ≤ row.chunkOrdinal := by
    intro row hrow
    obtain ⟨chunk, -, i, -, -, hi⟩ := mem_chunkRows (hsub.subset hrow)
    by_contra hlt
    have hlt' : i < 0 + stored.length := by
      rw [hi] at hlt
      simp only [chunkRow] at hlt
      omega
    -- ordinal `i` is taken by the stored list, so the insertion would have raised
    obtain ⟨taken, htaken, hsame⟩ := ordinal_mem_chunkRows (Nat.zero_le i) hlt'
    rw [← hrows] at htaken
    obtain ⟨hmem, hversion⟩ := List.mem_filter.mp htaken
    refine hfree row hrow taken hmem ?_ (by rw [hsame, hi]; rfl)
    rw [(haccepted.row (hsub.subset hrow)).1]
    simpa using hversion
  have hallOwner : ∀ row ∈ db'.versionRows pdf.documentVersionId, row.ownerId = pdf.ownerId := by
    rw [hrows']
    intro row hrow
    rcases List.mem_append.mp hrow with hrow | hrow
    · obtain ⟨chunk, hchunk, i, -, -, rfl⟩ := mem_chunkRows hrow
      exact (howner chunk hchunk).1
    · exact (haccepted.row (hsub.subset hrow)).2
  have hsorted : (db'.versionRows pdf.documentVersionId).Pairwise ordinalLe := by
    rw [hrows', List.pairwise_append]
    refine ⟨pairwise_chunkRows stored 0, (pairwise_chunkRows chunks 0).sublist hsub,
      fun a ha b hb => ?_⟩
    obtain ⟨chunk, -, i, -, hi, rfl⟩ := mem_chunkRows ha
    have := hordinal b hb
    simp only [ordinalLe, chunkRow]
    omega
  rw [snapshotRows_eq hallOwner hsorted, hrows', List.map_append,
    map_chunkFromRow_chunkRows fun chunk hchunk => (howner chunk hchunk).2] at hstored
  refine ⟨⟨_, hstored⟩, fun heq => ?_⟩
  rw [heq, List.append_right_eq_self, List.map_eq_nil_iff] at hstored
  rw [hstored, List.append_nil] at htable
  exact Table.ext htable

/-! ### Replaying a snapshot -/

/-- Rows that are already stored are skipped. -/
theorem foldlM_insertChunk_stored {rows : List ChunkRow} {db : Database}
    (hchecks : ∀ row ∈ rows, storableChunk row = true ∧ checkChunk row = true)
    (hstored : ∀ row ∈ rows, row ∈ db.chunks.rows) : rows.foldlM insertChunk db = .ok db := by
  induction rows with
  | nil => rfl
  | cons row rows ih =>
    obtain ⟨hstorable, hcheck⟩ := hchecks row List.mem_cons_self
    have hinsert : insertChunk db row = .ok db := by
      unfold insertChunk
      rw [ensure_true_bind hstorable, ensure_true_bind hcheck]
      cases hins : db.chunks.insert? row with
      | none => rfl
      | some chunks =>
        have hnone := (Table.insert?_eq_some_iff.mp hins).1
        rw [Table.find?_key_of_mem (hstored row List.mem_cons_self)] at hnone
        cases hnone
    rw [List.foldlM_cons, hinsert]
    exact ih (fun r hr => hchecks r (List.mem_cons_of_mem _ hr))
      (fun r hr => hstored r (List.mem_cons_of_mem _ hr))

theorem PdfObjectV1.identity_eq_iff {p q : PdfObjectV1} : p.identity = q.identity ↔
    p.ownerId = q.ownerId ∧ p.documentId = q.documentId ∧
      p.documentVersionId = q.documentVersionId ∧ p.objectKey = q.objectKey ∧
      p.storageBackend = q.storageBackend ∧ p.contentSha256 = q.contentSha256 ∧
      p.sizeBytes = q.sizeBytes ∧ p.mediaType = q.mediaType := by
  simp [PdfObjectV1.identity]

theorem checkPdfObject_congr {p q : PdfObjectV1} (h : p.identity = q.identity) :
    checkPdfObject p = checkPdfObject q := by
  obtain ⟨-, -, -, hkey, hbackend, hsha, hsize, hmedia⟩ := PdfObjectV1.identity_eq_iff.mp h
  simp only [checkPdfObject, hkey, hbackend, hsha, hsize, hmedia]

/-- What is stored for a version once a first snapshot was committed. -/
structure StoredSnapshot (db : Database) (pdf : PdfObjectV1) (chunks : List ChunkRecordV1) :
    Prop where
  accepted : AcceptedFor pdf chunks
  rows : db.versionRows pdf.documentVersionId = chunkRows chunks 0
  checks : ∀ row ∈ chunkRows chunks 0, storableChunk row = true ∧ checkChunk row = true
  pdfCheck : checkPdfObject pdf = true
  registration : ∃ stored, db.pdfObjects.find? pdf.documentVersionId = some stored ∧
    stored.identity = pdf.identity

/-- The same list for the same PDF returns the same receipt and changes nothing. -/
theorem StoredSnapshot.replay {fp : List ChunkRecordV1 → String} {db : Database}
    {pdf pdf' : PdfObjectV1} {chunks : List ChunkRecordV1} (h : StoredSnapshot db pdf chunks)
    (hpdf : pdf'.identity = pdf.identity) :
    persistRuntimeSnapshot fp db pdf' chunks = .ok (db, snapshotReceipt fp pdf chunks) := by
  obtain ⟨howner, hdoc, hversion, hkey, -, hsha, -, -⟩ := PdfObjectV1.identity_eq_iff.mp hpdf
  obtain ⟨stored, hstored, hidentity⟩ := h.registration
  have hmatch : chunks.all (chunkMatchesPdf pdf') = true := by
    refine List.all_eq_true.mpr fun chunk hchunk => ?_
    have := chunkMatchesPdf_iff.mp (h.accepted.matching chunk hchunk)
    exact chunkMatchesPdf_iff.mpr (by rwa [howner, hdoc, hversion])
  have hinsert : insertPdfObject db pdf' = .ok db := by
    unfold insertPdfObject
    rw [ensure_true_bind (by rw [checkPdfObject_congr hpdf]; exact h.pdfCheck)]
    cases hins : db.pdfObjects.insert? pdf' with
    | none => rfl
    | some pdfObjects =>
      have hnone := (Table.insert?_eq_some_iff.mp hins).1
      rw [hversion, hstored] at hnone
      cases hnone
  have hregistered : ((db.pdfObjects.find? pdf'.documentVersionId).filter fun p =>
      decide (p.ownerId = pdf'.ownerId)).any (fun p => decide (p.identity = pdf'.identity)) =
        true := by
    have hsame := (PdfObjectV1.identity_eq_iff.mp (hidentity.trans hpdf.symm)).1
    rw [hversion, hstored]
    simp [Option.filter, hsame, hidentity, hpdf]
  have hfold : (chunkRows chunks 0).foldlM insertChunk db = .ok db := by
    refine foldlM_insertChunk_stored h.checks fun row hrow => ?_
    rw [← h.rows] at hrow
    exact (List.mem_filter.mp hrow).1
  have hread : (db.snapshotRows pdf'.ownerId pdf'.documentVersionId).map (chunkFromRow false) =
      chunks := by
    rw [howner, hversion, snapshotRows_eq, h.rows]
    · exact map_chunkFromRow_chunkRows h.accepted.inactive 0
    · rw [h.rows]
      exact fun row hrow => (h.accepted.row hrow).2
    · rw [h.rows]
      exact pairwise_chunkRows chunks 0
  have hreceipt : snapshotReceipt fp pdf' chunks = snapshotReceipt fp pdf chunks := by
    simp only [snapshotReceipt, howner, hdoc, hversion, hkey, hsha]
  unfold persistRuntimeSnapshot
  rw [ensure_true_bind (by simpa using h.accepted.nonempty),
    ensure_true_bind (by simpa using h.accepted.nodup), ensure_true_bind hmatch, hinsert]
  simp only [bind, Except.bind] at hregistered ⊢
  rw [hregistered, hfold]
  simp only [ensure, if_true, hread, decide_true, hreceipt]
  rfl

/-- The first committed snapshot of a version is stored. -/
theorem StoredSnapshot.first {fp : List ChunkRecordV1 → String} {db db' : Database}
    {pdf : PdfObjectV1} {chunks : List ChunkRecordV1} {receipt : RuntimeSnapshotV1}
    (h : persistRuntimeSnapshot fp db pdf chunks = .ok (db', receipt))
    (hempty : db.versionRows pdf.documentVersionId = []) : StoredSnapshot db' pdf chunks := by
  obtain ⟨-, -, -, -, -, pdfDb, stored, newChunks, -, hpdf, hfind, hidentity, hdb, -, -, -,
      hchecks⟩ :=
    persistRuntimeSnapshot_ok h
  refine ⟨(persist_versionRows h).1, persist_first h hempty, hchecks, ?_, stored, ?_, hidentity⟩
  · unfold insertPdfObject at hpdf
    exact (ensure_bind.mp hpdf).1
  · rw [hdb]
    exact hfind

theorem StoredSnapshot.frame {db db' : Database} {pdf : PdfObjectV1} {chunks : List ChunkRecordV1}
    (h : StoredSnapshot db pdf chunks)
    (hrows : db'.versionRows pdf.documentVersionId = db.versionRows pdf.documentVersionId)
    (hpdf : ∀ stored, db.pdfObjects.find? pdf.documentVersionId = some stored →
      db'.pdfObjects.find? pdf.documentVersionId = some stored) : StoredSnapshot db' pdf
        chunks := by
  obtain ⟨stored, hstored, hidentity⟩ := h.registration
  exact ⟨h.accepted, hrows.trans h.rows, h.checks, h.pdfCheck, stored, hpdf stored hstored,
    hidentity⟩

/-- A registered PDF object stays registered through a later snapshot. -/
theorem persist_pdf_kept {fp : List ChunkRecordV1 → String} {db db' : Database}
    {pdf stored : PdfObjectV1} {chunks : List ChunkRecordV1} {receipt : RuntimeSnapshotV1}
    {vid : String} (h : persistRuntimeSnapshot fp db pdf chunks = .ok (db', receipt))
    (hstored : db.pdfObjects.find? vid = some stored) : db'.pdfObjects.find? vid = some stored := by
  obtain ⟨-, -, -, -, -, pdfDb, -, newChunks, -, hpdf, -, -, rfl, -⟩ := persistRuntimeSnapshot_ok h
  rcases insertPdfObject_ok hpdf with ⟨rfl, -⟩ | ⟨pdfObjects, hinsert, rfl⟩
  · exact hstored
  · exact Table.find?_insert?_of_some hinsert hstored

/-- A purge leaves the rows and the registration of every other version alone. -/
theorem purge_kept {db db' : Database} {ownerId purgedId vid : String}
    (h : purgeInactiveRuntimeSnapshot db ownerId purgedId = .ok db') (hvid : purgedId ≠ vid) :
    db'.versionRows vid = db.versionRows vid ∧
      ∀ stored, db.pdfObjects.find? vid = some stored → db'.pdfObjects.find? vid = some stored := by
  obtain ⟨-, rfl⟩ := purgeInactiveRuntimeSnapshot_ok h
  refine ⟨?_, fun stored hstored => ?_⟩
  · unfold Database.versionRows
    rw [Table.rows_filter, List.filter_filter]
    refine List.filter_congr fun row _ => ?_
    by_cases hrow : row.documentVersionId = vid
    · simp [hrow, Ne.symm hvid]
    · simp [hrow]
  · refine Table.find?_filter_of_pos hstored ?_
    have hkey := Table.key_of_find? hstored
    simp [hkey, Ne.symm hvid]

/-- A later snapshot of the version: it extends the stored list, under the registered PDF. -/
theorem StoredSnapshot.later {fp : List ChunkRecordV1 → String} {db db' : Database}
    {pdf pdf' : PdfObjectV1} {stored chunks : List ChunkRecordV1} {receipt : RuntimeSnapshotV1}
    (h : StoredSnapshot db pdf stored) (hversion : pdf'.documentVersionId = pdf.documentVersionId)
    (hcommit : persistRuntimeSnapshot fp db pdf' chunks = .ok (db', receipt)) :
    pdf'.identity = pdf.identity ∧ stored <+: chunks ∧
    (chunks = stored → StoredSnapshot db' pdf stored) := by
  obtain ⟨registered, hregistered, hidentity⟩ := h.registration
  have hkept := persist_pdf_kept hcommit hregistered
  obtain ⟨-, -, -, -, -, pdfDb, storedPdf, newChunks, -, -, hfind, hidentity', rfl, -⟩ :=
    persistRuntimeSnapshot_ok hcommit
  have hsame : pdf'.identity = pdf.identity := by
    rw [hversion] at hfind
    cases hkept.symm.trans hfind
    exact hidentity'.symm.trans hidentity
  have hrows : db.versionRows pdf'.documentVersionId = chunkRows stored 0 := by
    rw [hversion]
    exact h.rows
  obtain ⟨hextends, hunchanged⟩ := persist_later hcommit hrows
    fun chunk hchunk => by
      obtain ⟨howner, -, -, hactive⟩ := chunkMatchesPdf_iff.mp (h.accepted.matching chunk hchunk)
      exact ⟨howner.trans (PdfObjectV1.identity_eq_iff.mp hsame).1.symm, hactive⟩
  refine ⟨hsame, hextends, fun heq => h.frame ?_ fun p hp => persist_pdf_kept hcommit hp⟩
  unfold Database.versionRows
  rw [hunchanged heq]

/-! ### Runs -/

/-- A snapshot of this version. -/
def Commit.snapshotOf? (documentVersionId : String) :
    Commit → Option (PdfObjectV1 × List ChunkRecordV1 × RuntimeSnapshotV1)
  | .snapshot pdf chunks receipt =>
    if pdf.documentVersionId = documentVersionId then some (pdf, chunks, receipt) else none
  | _ => none

/-- The snapshots of a version that were committed, oldest first. -/
def History.snapshots (h : History) (documentVersionId : String) :
    List (PdfObjectV1 × List ChunkRecordV1 × RuntimeSnapshotV1) :=
  h.log.filterMap (Commit.snapshotOf? documentVersionId)

section Runs

variable {α : Type} (c : Coercion α) (chunksFingerprint : List ChunkRecordV1 → String)

/-- The version is not `INACTIVE`. -/
def NotInactive (documentVersionId : String) (h : History) : Prop :=
  ∀ v ∈ h.db.versions.find? documentVersionId, v.lifecycleStatus ≠ .inactive

instance (documentVersionId : String) (h : History) : Decidable (NotInactive documentVersionId h) :=
  inferInstanceAs
    (Decidable (∀ v ∈ h.db.versions.find? documentVersionId, v.lifecycleStatus ≠ .inactive))

/-- The PDF object and the chunk list of a `persist_runtime_snapshot` call. -/
def Call.snapshotRequest? : Call α → Option (PdfObjectV1 × List ChunkRecordV1)
  | .persistRuntimeSnapshot pdf chunks => some (pdf, chunks)
  | _ => none

/-- The call does not extend the version's first committed list by further chunks. -/
def NoExtension (documentVersionId : String) (h : History) (call : Call α) : Prop :=
  ∀ request ∈ call.snapshotRequest?, ∀ first ∈ (h.snapshots documentVersionId).head?,
    request.1.documentVersionId = documentVersionId → first.2.1 <+: request.2 →
    request.2 = first.2.1

instance (documentVersionId : String) (h : History) (call : Call α) :
    Decidable (NoExtension documentVersionId h call) :=
  inferInstanceAs (Decidable (∀ request ∈ call.snapshotRequest?,
    ∀ first ∈ (h.snapshots documentVersionId).head?,
      request.1.documentVersionId = documentVersionId → first.2.1 <+: request.2 →
      request.2 = first.2.1))

/-- The stored rows are the first committed list's, and every later commit repeated it. -/
structure SnapshotInvariant (documentVersionId : String) (h : History) : Prop where
  none : h.snapshots documentVersionId = [] → h.db.versionRows documentVersionId = []
  first : ∀ pdf chunks receipt rest,
    h.snapshots documentVersionId = (pdf, chunks, receipt) :: rest →
    pdf.documentVersionId = documentVersionId ∧ StoredSnapshot h.db pdf chunks ∧
      receipt = snapshotReceipt chunksFingerprint pdf chunks ∧
      ∀ s ∈ rest, s.2.1 = chunks ∧ s.2.2 = receipt

variable {c chunksFingerprint}

/-- A call that commits no snapshot of the version and leaves its rows alone. -/
theorem SnapshotInvariant.frame {vid : String} {h : History} {db' : Database} {log : List Commit}
    (hI : SnapshotInvariant chunksFingerprint vid h)
    (hlog : log.filterMap (Commit.snapshotOf? vid) = [])
    (hrows : db'.versionRows vid = h.db.versionRows vid)
    (hpdf : ∀ stored, h.db.pdfObjects.find? vid = some stored →
      db'.pdfObjects.find? vid = some stored) :
    SnapshotInvariant chunksFingerprint vid ⟨db', h.log ++ log⟩ := by
  have hsnapshots : History.snapshots ⟨db', h.log ++ log⟩ vid = h.snapshots vid := by
    unfold History.snapshots
    rw [List.filterMap_append, hlog, List.append_nil]
  refine ⟨fun hnone => ?_, fun pdf chunks receipt rest hfirst => ?_⟩
  · rw [hsnapshots] at hnone
    exact hrows.trans (hI.none hnone)
  · rw [hsnapshots] at hfirst
    obtain ⟨hvid, hstored, hrest⟩ := hI.first pdf chunks receipt rest hfirst
    subst hvid
    exact ⟨rfl, hstored.frame hrows hpdf, hrest⟩

/-- A committed snapshot of the version itself. -/
theorem SnapshotInvariant.snapshot {h : History} {db' : Database} {pdf : PdfObjectV1}
    {chunks : List ChunkRecordV1} {receipt : RuntimeSnapshotV1}
    (hI : SnapshotInvariant chunksFingerprint pdf.documentVersionId h)
    (hguard : ∀ first ∈ (h.snapshots pdf.documentVersionId).head?, first.2.1 <+: chunks →
      chunks = first.2.1)
    (hcommit : persistRuntimeSnapshot chunksFingerprint h.db pdf chunks = .ok (db', receipt)) :
    SnapshotInvariant chunksFingerprint pdf.documentVersionId
      ⟨db', h.log ++ [.snapshot pdf chunks receipt]⟩ := by
  have hsnapshots :
      History.snapshots ⟨db', h.log ++ [.snapshot pdf chunks receipt]⟩ pdf.documentVersionId =
        h.snapshots pdf.documentVersionId ++ [(pdf, chunks, receipt)] := by
    unfold History.snapshots
    rw [List.filterMap_append]
    simp [Commit.snapshotOf?]
  have hreceipt := (persistRuntimeSnapshot_ok hcommit).2.2.2.1
  refine ⟨fun hnone => ?_, fun pdf₀ chunks₀ receipt₀ rest₀ hfirst => ?_⟩
  · rw [hsnapshots] at hnone
    simp at hnone
  · rw [hsnapshots] at hfirst
    cases hold : h.snapshots pdf.documentVersionId with
    | nil =>
      rw [hold, List.nil_append] at hfirst
      cases hfirst
      exact ⟨rfl, .first hcommit (hI.none hold), hreceipt, fun s hs => absurd hs List.not_mem_nil⟩
    | cons first rest =>
      rw [hold, List.cons_append] at hfirst
      injection hfirst with hhead htail
      subst hhead htail
      obtain ⟨hvid, hstored, hreceipt₀, hrest⟩ := hI.first _ _ _ _ hold
      obtain ⟨hsame, hextends, hkeep⟩ := hstored.later hvid.symm hcommit
      have hequal : chunks = chunks₀ :=
        hguard (pdf₀, chunks₀, receipt₀) (by rw [hold]; rfl) hextends
      refine ⟨hvid, hkeep hequal, hreceipt₀, fun s hs => ?_⟩
      rcases List.mem_append.mp hs with hs | hs
      · exact hrest s hs
      · rw [List.mem_singleton.mp hs]
        refine ⟨hequal, ?_⟩
        obtain ⟨howner, hdoc, hversion, hkey, -, hsha, -, -⟩ := PdfObjectV1.identity_eq_iff.mp hsame
        simp only [hreceipt, hreceipt₀, hequal, snapshotReceipt, howner, hdoc, hversion, hkey, hsha]

theorem SnapshotInvariant.step {vid : String} {h : History} {call : Call α} {db' : Database}
    {log : List Commit} (hI : SnapshotInvariant chunksFingerprint vid h)
    (hactive : NotInactive vid h)
    (hguard : NoExtension vid h call)
    (hexec : h.db.exec c chunksFingerprint call = .ok (db', log)) :
    SnapshotInvariant chunksFingerprint vid ⟨db', h.log ++ log⟩ := by
  have hsameRows : h.db.SameRuntime db' → db'.versionRows vid = h.db.versionRows vid := by
    rintro ⟨-, hchunks, -⟩
    unfold Database.versionRows
    rw [hchunks]
  cases exec_committed hexec with
  | bookkeeping _ hsame =>
    refine hI.frame rfl (hsameRows hsame) fun p hp => ?_
    rw [hsame.1]
    exact hp
  | registered v _ _ _ _ hsame =>
    exact hI.frame rfl (hsameRows hsame) fun p hp => by rw [hsame.1]; exact hp
  | updated old new _ _ _ _ _ hsame =>
    exact hI.frame rfl (hsameRows hsame) fun p hp => by rw [hsame.1]; exact hp
  | snapshot pdf chunks receipt hcall hcommit =>
    by_cases hvid : pdf.documentVersionId = vid
    · subst hvid
      subst hcall
      exact hI.snapshot (fun first hfirst => hguard (pdf, chunks) rfl first hfirst rfl) hcommit
    · exact hI.frame (by simp [Commit.snapshotOf?, hvid])
        ((persist_versionRows hcommit).2.2 vid (Ne.symm hvid)) fun p hp =>
          persist_pdf_kept hcommit hp
  | purged ownerId purgedId _ hcommit =>
    obtain ⟨⟨v, hv, hinactive⟩, -⟩ := purgeInactiveRuntimeSnapshot_ok hcommit
    have hvid : purgedId ≠ vid := by
      rintro rfl
      exact hactive v (Database.ownedVersion?_eq_some.mp hv).1 hinactive
    obtain ⟨hrows, hpdf⟩ := purge_kept hcommit hvid
    exact hI.frame rfl hrows hpdf
  | enqueued job jobs _ _ _ _ hdb =>
    subst hdb
    exact hI.frame rfl rfl fun p hp => hp
  | claimed newToken leaseSeconds now result _ hclaim =>
    obtain ⟨jobs, rfl⟩ := claimCleanup_frame hclaim
    refine hI.frame ?_ rfl fun p hp => hp
    refine List.filterMap_eq_nil_iff.mpr fun commit hcommit => ?_
    rcases List.mem_append.mp hcommit with hcommit | hcommit
    · obtain ⟨job, -, hcommit⟩ := List.mem_filterMap.mp hcommit
      obtain ⟨t, -, rfl⟩ := Option.map_eq_some_iff.mp hcommit
      rfl
    · obtain ⟨job, -, rfl⟩ := Option.map_eq_some_iff.mp (Option.mem_toList.mp hcommit)
      rfl
  | succeeded job leaseToken now _ _ hdb =>
    subst hdb
    exact hI.frame rfl rfl fun p hp => hp
  | failed job leaseToken failureCode retryAt now _ _ hdb =>
    subst hdb
    exact hI.frame rfl rfl fun p hp => hp

theorem SnapshotInvariant.empty (vid : String) :
    SnapshotInvariant chunksFingerprint vid History.empty :=
  ⟨fun _ => rfl, fun _ _ _ _ hfirst => by cases hfirst⟩

/-- What a run leaves of the first snapshot of a version, as long as the version is not `INACTIVE`
and no later list extends the stored one: the stored rows and their ordinals stay, another list
raises and changes nothing, and the same list under the registered PDF returns the same receipt. -/
theorem snapshot_immutable {vid : String} {calls : List (Call α)} {h : History}
    (hrun : Steps.GuardedRun (fun h call => some (h.step c chunksFingerprint call))
      (fun h call => NotInactive vid h ∧ NoExtension vid h call) History.empty calls h)
    {pdf : PdfObjectV1} {chunks : List ChunkRecordV1} {receipt : RuntimeSnapshotV1}
    {rest : List (PdfObjectV1 × List ChunkRecordV1 × RuntimeSnapshotV1)}
    (hfirst : h.snapshots vid = (pdf, chunks, receipt) :: rest) :
    h.db.versionRows vid = chunkRows chunks 0 ∧ (∀ s ∈ rest, s.2.1 = chunks ∧ s.2.2 = receipt) ∧
    (∀ pdf' chunks', pdf'.documentVersionId = vid → chunks' ≠ chunks →
      NoExtension vid h (.persistRuntimeSnapshot (α := α) pdf' chunks') →
      ∃ e, persistRuntimeSnapshot chunksFingerprint h.db pdf' chunks' = .error e ∧
        h.step c chunksFingerprint (.persistRuntimeSnapshot pdf' chunks') = h) ∧
    (∀ pdf' chunks', pdf'.documentVersionId = vid → pdf'.identity ≠ pdf.identity →
      ∃ e, persistRuntimeSnapshot chunksFingerprint h.db pdf' chunks' = .error e ∧
        h.step c chunksFingerprint (.persistRuntimeSnapshot pdf' chunks') = h) ∧
    ∀ pdf', pdf'.identity = pdf.identity →
      persistRuntimeSnapshot chunksFingerprint h.db pdf' chunks = .ok (h.db, receipt) := by
  have hI : SnapshotInvariant chunksFingerprint vid h := by
    refine hrun.invariant (fun h call h' hI hguard hstep => ?_) (SnapshotInvariant.empty vid)
    cases Option.some.inj hstep
    unfold History.step
    split
    · rename_i db log hexec
      exact hI.step hguard.1 hguard.2 hexec
    · exact hI
  obtain ⟨hvid, hstored, hreceipt, hrest⟩ := hI.first pdf chunks receipt rest hfirst
  subst hvid
  have hrefused : ∀ pdf' chunks', (∀ db' receipt',
      persistRuntimeSnapshot chunksFingerprint h.db pdf' chunks' ≠ .ok (db', receipt')) →
      ∃ e, persistRuntimeSnapshot chunksFingerprint h.db pdf' chunks' = .error e ∧
        h.step c chunksFingerprint (.persistRuntimeSnapshot pdf' chunks') = h := by
    intro pdf' chunks' hnot
    cases hcommit : persistRuntimeSnapshot chunksFingerprint h.db pdf' chunks' with
    | ok r => exact absurd hcommit (hnot r.1 r.2)
    | error e => exact ⟨e, rfl, History.step_error (bind_eq_error.mpr (.inl hcommit))⟩
  refine ⟨hstored.rows, hrest, fun pdf' chunks' hversion hne hguard => ?_,
    fun pdf' chunks' hversion hne => ?_, fun pdf' hsame => ?_⟩
  · refine hrefused pdf' chunks' fun db' receipt' hcommit => hne ?_
    obtain ⟨-, hextends, -⟩ := hstored.later hversion hcommit
    exact hguard (pdf', chunks') rfl _ (by rw [hfirst]; rfl) hversion hextends
  · refine hrefused pdf' chunks' fun db' receipt' hcommit => hne ?_
    exact (hstored.later hversion hcommit).1
  · rw [hreceipt]
    exact hstored.replay hsame

end Runs

/-! ### One version, persisted twice -/

def sampleSha : String := String.ofList (List.replicate 64 'a')

def samplePdf : PdfObjectV1 where
  ownerId := "owner_1"
  documentId := "document_1"
  documentVersionId := "version_1"
  objectKey := "pdf/v1/aa/version_1.pdf"
  storageBackend := "filesystem_v1"
  contentSha256 := sampleSha
  sizeBytes := 4
  storedAt := 3

def sampleChunk (chunkId : String) : ChunkRecordV1 where
  chunkId := chunkId
  documentId := "document_1"
  versionId := "version_1"
  text := "text"
  sectionPath := "1"
  pageStart := 1
  pageEnd := 1
  parentChunkId := none
  previousChunkId := none
  nextChunkId := none
  tenantId := "owner_1"
  visibility := .isPrivate
  libraryScopeIds := []
  parseVersion := "parse_v1"
  embeddingVersion := "embedding_v1"
  isActive := false

/-- Register a version, then persist each of the lists for it. -/
def persistingCalls (lists : List (List ChunkRecordV1)) : List (Call Empty) :=
  .registerDocument (fixedId "document_1") "owner_1" "paper_1" "uploaded" "mapping_v1" ⟨0, true⟩
    ⟨0, true⟩ :: .registerVersion (fixedId "version_1") "owner_1" "document_1" sampleSha sampleSha
      "parse_v1" 1 :: lists.map (.persistRuntimeSnapshot samplePdf)

theorem snapshot_immutable_replay :
    ∃ h, Steps.GuardedRun (fun h call => some (h.step noCoercion (fun _ => sampleSha) call))
        (fun h call => NotInactive "version_1" h ∧ NoExtension "version_1" h call) History.empty
        (persistingCalls [[sampleChunk "chunk_1"], [sampleChunk "chunk_2"],
          [sampleChunk "chunk_1"]]) h ∧
      h.db.versionRows "version_1" = chunkRows [sampleChunk "chunk_1"] 0 ∧
      persistRuntimeSnapshot (fun _ => sampleSha) h.db samplePdf [sampleChunk "chunk_1"] =
        .ok (h.db, snapshotReceipt (fun _ => sampleSha) samplePdf [sampleChunk "chunk_1"]) := by
  have hrun : ∃ h,
      Steps.guardedRun? (fun h call => some (h.step noCoercion (fun _ => sampleSha) call))
        (fun h call => NotInactive "version_1" h ∧ NoExtension "version_1" h call) History.empty
      (persistingCalls [[sampleChunk "chunk_1"], [sampleChunk "chunk_2"],
        [sampleChunk "chunk_1"]]) = some h ∧
      ∃ rest, h.snapshots "version_1" = (samplePdf, [sampleChunk "chunk_1"],
        snapshotReceipt (fun _ => sampleSha) samplePdf [sampleChunk "chunk_1"]) :: rest :=
    ⟨_, rfl, _, rfl⟩
  obtain ⟨h, hrun, rest, hfirst⟩ := hrun
  have hguarded := Steps.GuardedRun.of_eval hrun
  obtain ⟨hrows, -, -, -, hreplay⟩ := snapshot_immutable hguarded hfirst
  exact ⟨h, hguarded, hrows, hreplay samplePdf rfl⟩

/-- A list that extends the stored one is committed: the version's rows are no longer the first
list's. -/
theorem snapshot_extended :
    let calls := persistingCalls [[sampleChunk "chunk_1"],
      [sampleChunk "chunk_1", sampleChunk "chunk_2"]]
    let h := History.empty.run noCoercion (fun _ => sampleSha) calls
    (∀ k ≤ 4, NotInactive "version_1" (History.empty.run noCoercion (fun _ => sampleSha)
      (calls.take k))) ∧
    (h.snapshots "version_1").map (·.2.1) =
      [[sampleChunk "chunk_1"], [sampleChunk "chunk_1", sampleChunk "chunk_2"]] ∧
    h.db.versionRows "version_1" ≠ chunkRows [sampleChunk "chunk_1"] 0 := by
  decide +kernel

end ZhiyanRag.Storage
