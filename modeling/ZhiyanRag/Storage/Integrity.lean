import ZhiyanRag.Storage.Lifecycle
import ZhiyanRag.Storage.QueueSafety
import ZhiyanRag.Storage.RegistrationSafety

/-!
# The integrity of the database

The CHECK, UNIQUE and FOREIGN KEY constraints of the migrations and the partial unique index on
active versions, on whole databases (`Database.Integrity`). A statement tests those that its own row
could break; that all of them hold after any calls (`integrity_run`) rests on what the updates leave
alone: no row changes its unique columns, and no row that others refer to goes away or changes the
columns they refer to.
-/

namespace ZhiyanRag.Storage

open Relational ZhiyanRag.Ingestion

/-! ### The constraints -/

/-- The columns `(document_id, owner_id, paper_id)`. -/
def DocumentIdentityV1.tuple (d : DocumentIdentityV1) : String × String × String :=
  (d.documentId, d.ownerId, d.paperId)

def DocumentVersionLifecycleV1.document (v : DocumentVersionLifecycleV1) :
    String × String × String := (v.documentId, v.ownerId, v.paperId)

/-- The columns `(document_version_id, owner_id, document_id)`. -/
def DocumentVersionLifecycleV1.lookup (v : DocumentVersionLifecycleV1) : String × String × String :=
  (v.documentVersionId, v.ownerId, v.documentId)

def IngestionJobV1.version (j : IngestionJobV1) : String × String × String :=
  (j.documentVersionId, j.ownerId, j.documentId)

def PdfObjectV1.version (p : PdfObjectV1) : String × String × String :=
  (p.documentVersionId, p.ownerId, p.documentId)

def ChunkRow.version (r : ChunkRow) : String × String × String :=
  (r.documentVersionId, r.ownerId, r.documentId)

def CleanupJobV1.version (j : CleanupJobV1) : String × String × String :=
  (j.documentVersionId, j.ownerId, j.documentId)

/-- The columns `(document_version_id, chunk_ordinal)`. -/
def ChunkRow.place (r : ChunkRow) : String × Int := (r.documentVersionId, r.chunkOrdinal)

/-- Every constraint of the schema. -/
structure Database.Integrity (db : Database) : Prop where
  documents : db.documents.Constrained (fun d => checkDocument d = true)
    DocumentIdentityV1.ownerPaper
  versions : db.versions.Constrained (fun v => checkDocumentVersion v = true)
    DocumentVersionLifecycleV1.source
  oneActive : ∀ v ∈ db.versions.rows, ∀ w ∈ db.versions.rows, v.isActive = true →
    w.isActive = true → v.ownerId = w.ownerId → v.documentId = w.documentId → v = w
  versionsDocument : Table.References DocumentVersionLifecycleV1.document DocumentIdentityV1.tuple
    db.versions db.documents
  ingestionJobs : db.ingestionJobs.Constrained (fun j => checkIngestionJob j = true)
    IngestionJobV1.ownerKey
  ingestionJobsVersion : Table.References IngestionJobV1.version DocumentVersionLifecycleV1.lookup
    db.ingestionJobs db.versions
  pdfObjects : db.pdfObjects.Constrained (fun p => checkPdfObject p = true) PdfObjectV1.objectKey
  pdfObjectsVersion : Table.References PdfObjectV1.version DocumentVersionLifecycleV1.lookup
    db.pdfObjects db.versions
  chunks : db.chunks.Constrained (fun r => checkChunk r = true) ChunkRow.place
  chunksVersion : Table.References ChunkRow.version DocumentVersionLifecycleV1.lookup db.chunks
    db.versions
  cleanupJobs : db.cleanupJobs.Constrained (fun j => checkCleanupJob j = true) CleanupJobV1.target
  cleanupJobsVersion : Table.References CleanupJobV1.version DocumentVersionLifecycleV1.lookup
    db.cleanupJobs db.versions

theorem integrity_empty : Database.empty.Integrity where
  documents := Table.constrained_empty ..
  versions := Table.constrained_empty ..
  oneActive := fun _ h => by cases h
  versionsDocument := fun _ h => by cases h
  ingestionJobs := Table.constrained_empty ..
  ingestionJobsVersion := fun _ h => by cases h
  pdfObjects := Table.constrained_empty ..
  pdfObjectsVersion := fun _ h => by cases h
  chunks := Table.constrained_empty ..
  chunksVersion := fun _ h => by cases h
  cleanupJobs := Table.constrained_empty ..
  cleanupJobsVersion := fun _ h => by cases h

section

variable {db db' : Database}

/-- The row that a foreign key finds. -/
theorem exists_of_referencedVersion? {documentVersionId ownerId documentId : String}
    (h : (db.referencedVersion? documentVersionId ownerId documentId).isSome = true) :
    ∃ v ∈ db.versions.rows, v.lookup = (documentVersionId, ownerId, documentId) := by
  obtain ⟨v, hv⟩ := Option.isSome_iff_exists.mp h
  obtain ⟨hfind, rfl, rfl⟩ := Database.referencedVersion?_eq_some.mp hv
  exact ⟨v, Table.mem_rows_of_find? hfind, by rw [← Table.key_of_find? hfind]; rfl⟩

/-! ### Documents -/

theorem checkDocument_remapped {stored candidate : DocumentIdentityV1}
    (hstored : checkDocument stored = true) (hcandidate : checkDocument candidate = true) :
    checkDocument { stored with
      mappingVersion := candidate.mappingVersion
      sourceUpdatedTime := max stored.sourceUpdatedTime candidate.sourceUpdatedTime } = true := by
  simp only [checkDocument, Bool.and_eq_true, decide_eq_true_eq] at hstored hcandidate ⊢
  obtain ⟨⟨⟨⟨hdocument, howner⟩, hpaper⟩, -⟩, htimes⟩ := hstored
  exact ⟨⟨⟨⟨hdocument, howner⟩, hpaper⟩, hcandidate.1.2⟩, Int.le_trans htimes (Int.le_max_left ..)⟩

theorem registerDocument_integrity {newId ownerId paperId sourceType mappingVersion : String}
    {created updated : Datetime} {row : DocumentIdentityV1}
    (h : registerDocument db newId ownerId paperId sourceType mappingVersion created updated =
      .ok (db', row)) (hdb : db.Integrity) : db'.Integrity := by
  unfold registerDocument at h
  obtain ⟨candidate, -, h⟩ := bind_eq_ok.mp h
  obtain ⟨hcheck, h⟩ := ensure_bind.mp h
  have hdocuments (documents : Table DocumentIdentityV1.documentId)
      (hconstrained : documents.Constrained (fun d => checkDocument d = true)
        DocumentIdentityV1.ownerPaper)
      (hkeeps : Table.Keeps DocumentIdentityV1.tuple db.documents documents) :
      ({ db with documents := documents } : Database).Integrity :=
    { hdb with
      documents := hconstrained
      versionsDocument := hdb.versionsDocument.parent hkeeps }
  split at h
  · rename_i stored hstored
    obtain ⟨-, h⟩ := ensure_bind.mp h
    cases pure_eq_ok.mp h
    have hmem := List.mem_of_find?_eq_some hstored
    exact hdocuments _
      (hdb.documents.set hmem rfl rfl
        (checkDocument_remapped (hdb.documents.check stored hmem) hcheck)) (.set hmem rfl rfl)
  · rename_i hnone
    split at h
    · cases h
    · rename_i documents hinsert
      cases h
      have hnew : ∀ d ∈ db.documents.rows, d.ownerPaper ≠ row.ownerPaper := by
        intro d hd heq
        have hfound := List.find?_eq_none.mp hnone d hd
        simp only [DocumentIdentityV1.ownerPaper, Prod.mk.injEq] at heq
        simp [heq] at hfound
      refine hdocuments documents (hdb.documents.insert hinsert hcheck hnew)
        (.insert hinsert fun d hd heq => hnew d hd ?_)
      simp only [DocumentIdentityV1.tuple, DocumentIdentityV1.ownerPaper, Prod.mk.injEq] at heq ⊢
      exact heq.2

/-! ### Versions -/

theorem insertVersion_integrity {newId ownerId documentId content source parse : String}
    {now : Timestamp} {v : DocumentVersionLifecycleV1}
    (h : insertVersion db newId ownerId documentId content source parse now = .ok (some (db', v)))
    (hdb : db.Integrity) : db'.Integrity := by
  unfold insertVersion at h
  split at h
  · cases h
  · rename_i document hdocument
    obtain ⟨hfind, -⟩ := Option.filter_eq_some_iff.mp hdocument
    obtain ⟨hcheck, h⟩ := ensure_bind.mp h
    split at h
    · cases h
    · rename_i hfree
      split at h
      · cases h
      · rename_i versions hinsert
        cases h
        have hnew : ∀ w ∈ db.versions.rows,
            w.source ≠ (registeredVersion document newId content source parse now).source := by
          intro w hw heq
          simp only [DocumentVersionLifecycleV1.source, registeredVersion, Prod.mk.injEq] at heq
          refine hfree (List.find?_isSome.mpr ⟨w, hw, ?_⟩)
          simp [heq, Table.key_of_find? hfind]
        have hlookup : Table.Keeps DocumentVersionLifecycleV1.lookup db.versions versions := by
          refine .insert hinsert fun w hw heq => ?_
          simp only [DocumentVersionLifecycleV1.lookup, registeredVersion, Prod.mk.injEq] at heq
          exact Table.find?_eq_none_iff.mp (Table.insert?_eq_some_iff.mp hinsert).1 w hw heq.1
        have hinactive : (registeredVersion document newId content source parse now).isActive =
            false := rfl
        have hold (w : DocumentVersionLifecycleV1) (hw : w ∈ versions.rows) (hactive : w.isActive =
            true) : w ∈ db.versions.rows := by
          rcases (Table.mem_insert? hinsert).mp hw with hw | rfl
          · exact hw
          · cases hinactive.symm.trans hactive
        exact { hdb with
          versions := hdb.versions.insert hinsert hcheck hnew
          oneActive := fun v hv w hw hactive hactive' => hdb.oneActive v (hold v hv hactive) w
            (hold w hw hactive') hactive hactive'
          versionsDocument :=
            hdb.versionsDocument.insert hinsert ⟨document, Table.mem_rows_of_find? hfind, rfl⟩
          ingestionJobsVersion := hdb.ingestionJobsVersion.parent hlookup
          pdfObjectsVersion := hdb.pdfObjectsVersion.parent hlookup
          chunksVersion := hdb.chunksVersion.parent hlookup
          cleanupJobsVersion := hdb.cleanupJobsVersion.parent hlookup }

theorem registerVersion_integrity {newId ownerId documentId content source parse : String}
    {now : Timestamp} {v : DocumentVersionLifecycleV1}
    (h : registerVersion db newId ownerId documentId content source parse now = .ok (db', v))
    (hdb : db.Integrity) : db'.Integrity := by
  unfold registerVersion at h
  obtain ⟨inserted, hinsert, h⟩ := bind_eq_ok.mp h
  cases inserted with
  | some inserted =>
    obtain ⟨version, -, h⟩ := bind_eq_ok.mp h
    cases pure_eq_ok.mp h
    exact insertVersion_integrity hinsert hdb
  | none =>
    simp only at h
    split at h
    · cases h
    · obtain ⟨version, -, h⟩ := bind_eq_ok.mp h
      cases pure_eq_ok.mp h
      exact hdb

/-- An update keeps every column that is unique or that others refer to. -/
theorem VersionUpdate.columns {old new : DocumentVersionLifecycleV1} (h : VersionUpdate old new) :
    old.source = new.source ∧ old.document = new.document ∧ old.lookup = new.lookup := by
  have hidentity := h.identity
  simp only [sameVersionIdentity, Bool.and_eq_true, decide_eq_true_eq] at hidentity
  simp [DocumentVersionLifecycleV1.source, DocumentVersionLifecycleV1.document,
    DocumentVersionLifecycleV1.lookup, hidentity]

theorem transitionVersion_integrity {α : Type} {c : Coercion α} {ownerId documentVersionId : String}
    {expectedRevision : Int}
    {targetStatus : LifecycleStatus} {updates : List (UpdateKey × UpdateValue α)} {now : Timestamp}
    {new : DocumentVersionLifecycleV1}
    (h : transitionVersion c db ownerId documentVersionId expectedRevision targetStatus updates
      now = .ok (db', new)) (hdb : db.Integrity) :
    db'.Integrity := by
  obtain ⟨old, howned, -, hupdate, hactive, rfl, -⟩ := transitionVersion_ok h
  have hmem := Table.mem_rows_of_find? (Database.ownedVersion?_eq_some.mp howned).1
  have hkey := hupdate.documentVersionId.symm
  obtain ⟨hsource, hdocument, hlookup⟩ := hupdate.columns
  have hkeeps : Table.Keeps DocumentVersionLifecycleV1.lookup db.versions (db.versions.set new) :=
    .set hmem hkey hlookup
  exact { hdb with
    versions := hdb.versions.set hmem hkey hsource (checkDocumentVersion_of_valid hupdate.valid)
    oneActive := fun v hv w hw hvActive hwActive howner hof => by
      have hone := oneActive_iff.mp hactive
      rcases Table.mem_set hv with rfl | ⟨hvOld, hne⟩ <;>
        rcases Table.mem_set hw with rfl | ⟨hwOld, hne'⟩
      · rfl
      · exact absurd (hone hvActive w hwOld hwActive howner.symm hof.symm) hne'
      · exact absurd (hone hwActive v hvOld hvActive howner hof) hne
      · exact hdb.oneActive v hvOld w hwOld hvActive hwActive howner hof
    versionsDocument := hdb.versionsDocument.set hmem hdocument
    ingestionJobsVersion := hdb.ingestionJobsVersion.parent hkeeps
    pdfObjectsVersion := hdb.pdfObjectsVersion.parent hkeeps
    chunksVersion := hdb.chunksVersion.parent hkeeps
    cleanupJobsVersion := hdb.cleanupJobsVersion.parent hkeeps }

/-! ### Ingestion jobs -/

theorem registerIngestionJob_integrity
    {newId ownerId documentId documentVersionId idempotencyKey : String} {now : Timestamp}
    {job : IngestionJobV1}
    (h : registerIngestionJob db newId ownerId documentId documentVersionId idempotencyKey now =
      .ok (db', job)) (hdb : db.Integrity) :
    db'.Integrity := by
  unfold registerIngestionJob at h
  obtain ⟨hcheck, h⟩ := ensure_bind.mp h
  split at h
  · obtain ⟨stored, -, h⟩ := bind_eq_ok.mp h
    obtain ⟨-, h⟩ := ensure_bind.mp h
    cases pure_eq_ok.mp h
    exact hdb
  · rename_i hnone
    split at h
    · cases h
    · rename_i jobs hinsert
      obtain ⟨hversion, h⟩ := ensure_bind.mp h
      obtain ⟨validated, -, h⟩ := bind_eq_ok.mp h
      cases pure_eq_ok.mp h
      exact { hdb with
        ingestionJobs := hdb.ingestionJobs.insert hinsert hcheck fun stored hstored heq => by
          have hfound := List.find?_eq_none.mp hnone stored hstored
          simp only [IngestionJobV1.ownerKey, Prod.mk.injEq] at heq
          simp [heq] at hfound
        ingestionJobsVersion :=
          hdb.ingestionJobsVersion.insert hinsert (exists_of_referencedVersion? hversion) }

theorem updateIngestionJob_integrity {ownerId jobId : String} {status : IngestionJobStatus}
    {failureCode : Option String} {now : Timestamp}
    {job : IngestionJobV1}
    (h : updateIngestionJob db ownerId jobId status failureCode now = .ok (db', job))
    (hdb : db.Integrity) : db'.Integrity := by
  unfold updateIngestionJob at h
  obtain ⟨-, h⟩ := ensure_bind.mp h
  obtain ⟨-, h⟩ := ensure_bind.mp h
  split at h
  · cases h
  · rename_i stored hstored
    obtain ⟨-, h⟩ := ensure_bind.mp h
    obtain ⟨hcheck, h⟩ := ensure_bind.mp h
    obtain ⟨validated, -, h⟩ := bind_eq_ok.mp h
    cases pure_eq_ok.mp h
    have hmem := Table.mem_rows_of_find? (Option.filter_eq_some_iff.mp hstored).1
    exact { hdb with
      ingestionJobs := hdb.ingestionJobs.set hmem rfl rfl hcheck
      ingestionJobsVersion := hdb.ingestionJobsVersion.set hmem rfl }

/-! ### Snapshots -/

theorem insertPdfObject_integrity {pdf : PdfObjectV1} (h : insertPdfObject db pdf = .ok db')
    (hdb : db.Integrity) : db'.Integrity := by
  unfold insertPdfObject at h
  obtain ⟨hcheck, h⟩ := ensure_bind.mp h
  split at h
  · cases pure_eq_ok.mp h
    exact hdb
  · rename_i pdfObjects hinsert
    obtain ⟨hnew, h⟩ := ensure_bind.mp h
    obtain ⟨hversion, h⟩ := ensure_bind.mp h
    cases pure_eq_ok.mp h
    exact { hdb with
      pdfObjects := hdb.pdfObjects.insert hinsert hcheck fun stored hstored =>
        of_decide_eq_true (List.all_eq_true.mp hnew stored hstored)
      pdfObjectsVersion :=
        hdb.pdfObjectsVersion.insert hinsert (exists_of_referencedVersion? hversion) }

theorem insertChunk_integrity {row : ChunkRow} (h : insertChunk db row = .ok db')
    (hdb : db.Integrity) : db'.Integrity := by
  unfold insertChunk at h
  obtain ⟨-, h⟩ := ensure_bind.mp h
  obtain ⟨hcheck, h⟩ := ensure_bind.mp h
  split at h
  · cases pure_eq_ok.mp h
    exact hdb
  · rename_i chunks hinsert
    obtain ⟨hnew, h⟩ := ensure_bind.mp h
    obtain ⟨hversion, h⟩ := ensure_bind.mp h
    cases pure_eq_ok.mp h
    exact { hdb with
      chunks := hdb.chunks.insert hinsert hcheck fun stored hstored heq => by
        have hfree := List.all_eq_true.mp hnew stored hstored
        simp only [ChunkRow.place, Prod.mk.injEq] at heq
        simp [heq] at hfree
      chunksVersion := hdb.chunksVersion.insert hinsert (exists_of_referencedVersion? hversion) }

theorem persistRuntimeSnapshot_integrity {fp : List ChunkRecordV1 → String} {pdf : PdfObjectV1}
    {chunks : List ChunkRecordV1}
    {receipt : RuntimeSnapshotV1} (h : persistRuntimeSnapshot fp db pdf chunks = .ok (db', receipt))
    (hdb : db.Integrity) : db'.Integrity := by
  unfold persistRuntimeSnapshot at h
  obtain ⟨-, h⟩ := ensure_bind.mp h
  obtain ⟨-, h⟩ := ensure_bind.mp h
  obtain ⟨-, h⟩ := ensure_bind.mp h
  obtain ⟨pdfDb, hpdf, h⟩ := bind_eq_ok.mp h
  obtain ⟨-, h⟩ := ensure_bind.mp h
  obtain ⟨chunkDb, hchunks, h⟩ := bind_eq_ok.mp h
  obtain ⟨-, h⟩ := ensure_bind.mp h
  cases pure_eq_ok.mp h
  exact foldlM_invariant (I := Database.Integrity)
    (fun _ _ _ _ hdb hrow => insertChunk_integrity hrow hdb)
      (insertPdfObject_integrity hpdf hdb) hchunks

theorem purgeInactiveRuntimeSnapshot_integrity {ownerId documentVersionId : String}
    (h : purgeInactiveRuntimeSnapshot db ownerId documentVersionId = .ok db') (hdb : db.Integrity) :
    db'.Integrity := by
  obtain ⟨-, rfl⟩ := purgeInactiveRuntimeSnapshot_ok h
  exact { hdb with
    pdfObjects := hdb.pdfObjects.filter _
    pdfObjectsVersion := hdb.pdfObjectsVersion.filter _
    chunks := hdb.chunks.filter _
    chunksVersion := hdb.chunksVersion.filter _ }

/-! ### The cleanup queue -/

theorem enqueueCleanup_integrity {newId backend ownerId documentId documentVersionId : String}
    {maxAttempts : Int} {now : Timestamp}
    {job : CleanupJobV1}
    (h : enqueueCleanup db newId backend ownerId documentId documentVersionId maxAttempts now =
      .ok (db', job))
    (hdb : db.Integrity) : db'.Integrity := by
  obtain ⟨⟨v, hversion, -⟩, ⟨rfl, -⟩ | ⟨jobs, hvalid, -, hnew, hinsert, rfl⟩⟩ := enqueueCleanup_ok h
  · exact hdb
  · exact { hdb with
      cleanupJobs := hdb.cleanupJobs.insert hinsert (checkCleanupJob_of_valid hvalid)
        fun stored hstored heq => by
        cases (hnew stored hstored).symm.trans (CleanupJobV1.sameTarget_iff_target.mpr heq.symm)
      cleanupJobsVersion :=
        hdb.cleanupJobsVersion.insert hinsert
          (exists_of_referencedVersion? (Option.isSome_of_mem hversion)) }

theorem claimCleanup_integrity {newToken : String} {leaseSeconds : Int} {now : Timestamp}
    {result : Except PyError (Option CleanupJobV1)}
    (h : claimCleanup db newToken leaseSeconds now = .ok (db', result)) (hdb : db.Integrity) :
    db'.Integrity := by
  unfold claimCleanup at h
  obtain ⟨-, h⟩ := ensure_bind.mp h
  obtain ⟨hchecks, h⟩ := ensure_bind.mp h
  obtain ⟨-, h⟩ := ensure_bind.mp h
  have htarget :
      Table.Keeps CleanupJobV1.target db.cleanupJobs (db.recoverLeases now).cleanupJobs :=
    .mapRows (CleanupJobV1.recoverLease_cleanupId now) (CleanupJobV1.recoverLease_target now)
  have hversion (job : CleanupJobV1) : (job.recoverLease now).version = job.version := by
    unfold CleanupJobV1.recoverLease
    split <;> rfl
  have hrecovered : (db.recoverLeases now).Integrity :=
    { hdb with
      cleanupJobs :=
        ⟨fun job hjob => List.all_eq_true.mp hchecks job hjob,
          htarget.unique hdb.cleanupJobs.unique⟩
      cleanupJobsVersion := hdb.cleanupJobsVersion.mapRows (CleanupJobV1.recoverLease_cleanupId now)
        hversion }
  split at h
  · cases pure_eq_ok.mp h
    exact hrecovered
  · rename_i job hjob
    obtain ⟨hcheck, h⟩ := ensure_bind.mp h
    cases pure_eq_ok.mp h
    have hmem := (dueCleanup?_some hjob).1
    exact { hrecovered with
      cleanupJobs := hrecovered.cleanupJobs.set hmem rfl rfl hcheck
      cleanupJobsVersion := hrecovered.cleanupJobsVersion.set hmem rfl }

theorem updateLeased_integrity {cleanupId leaseToken : String} {f : CleanupJobV1 → CleanupJobV1}
    {job : CleanupJobV1} (h : updateLeased db cleanupId leaseToken f = .ok (db', job))
    (hid : ∀ job, (f job).cleanupId = job.cleanupId) (htarget : ∀ job, (f job).target = job.target)
    (hdb : db.Integrity) : db'.Integrity := by
  obtain ⟨stored, hstored, -, hcheck, rfl⟩ := updateLeased_ok h
  have hmem := Table.mem_rows_of_find? (Database.leased?_eq_some.mp hstored).1
  have hversion : stored.version = (f stored).version := by
    have hsame := htarget stored
    simp only [CleanupJobV1.target, Prod.mk.injEq] at hsame
    simp only [CleanupJobV1.version, hsame]
  exact { hdb with
    cleanupJobs := hdb.cleanupJobs.set hmem (hid stored).symm (htarget stored).symm hcheck
    cleanupJobsVersion := hdb.cleanupJobsVersion.set hmem hversion }

/-! ### Every call -/

variable {α : Type} {c : Coercion α} {chunksFingerprint : List ChunkRecordV1 → String}

theorem exec_integrity {call : Call α} {log : List Commit}
    (h : db.exec c chunksFingerprint call = .ok (db', log)) (hdb : db.Integrity) :
    db'.Integrity := by
  cases call with
  | registerDocument =>
    obtain ⟨⟨db₁, d⟩, hcall, hret⟩ := bind_eq_ok.mp h
    cases pure_eq_ok.mp hret
    exact registerDocument_integrity hcall hdb
  | registerVersion =>
    obtain ⟨⟨db₁, v⟩, hcall, hret⟩ := bind_eq_ok.mp h
    cases pure_eq_ok.mp hret
    exact registerVersion_integrity hcall hdb
  | registerIngestionJob =>
    obtain ⟨⟨db₁, job⟩, hcall, hret⟩ := bind_eq_ok.mp h
    cases pure_eq_ok.mp hret
    exact registerIngestionJob_integrity hcall hdb
  | registerVersionAndIngestionJob =>
    obtain ⟨⟨db₁, v, job⟩, hcall, hret⟩ := bind_eq_ok.mp h
    cases pure_eq_ok.mp hret
    obtain ⟨⟨db₂, v₂⟩, hversion, hcall⟩ := bind_eq_ok.mp hcall
    obtain ⟨⟨db₃, job₃⟩, hjob, hret⟩ := bind_eq_ok.mp hcall
    cases pure_eq_ok.mp hret
    exact registerIngestionJob_integrity hjob (registerVersion_integrity hversion hdb)
  | transitionVersion =>
    obtain ⟨⟨db₁, v⟩, hcall, hret⟩ := bind_eq_ok.mp h
    cases pure_eq_ok.mp hret
    exact transitionVersion_integrity hcall hdb
  | updateIngestionJob =>
    obtain ⟨⟨db₁, job⟩, hcall, hret⟩ := bind_eq_ok.mp h
    cases pure_eq_ok.mp hret
    exact updateIngestionJob_integrity hcall hdb
  | recordIndexingFailure =>
    obtain ⟨⟨db₁, v, job⟩, hcall, hret⟩ := bind_eq_ok.mp h
    cases pure_eq_ok.mp hret
    obtain ⟨db₂, hversion, hjob, -⟩ := recordIndexingFailure_ok hcall
    exact updateIngestionJob_integrity hjob (transitionVersion_integrity hversion hdb)
  | finalizeIndexingSuccess =>
    obtain ⟨⟨db₁, v, job⟩, hcall, hret⟩ := bind_eq_ok.mp h
    cases pure_eq_ok.mp hret
    obtain ⟨db₂, hversion, hjob, -⟩ := finalizeIndexingSuccess_ok hcall
    exact updateIngestionJob_integrity hjob (transitionVersion_integrity hversion hdb)
  | persistRuntimeSnapshot =>
    obtain ⟨⟨db₁, receipt⟩, hcall, hret⟩ := bind_eq_ok.mp h
    cases pure_eq_ok.mp hret
    exact persistRuntimeSnapshot_integrity hcall hdb
  | purgeInactiveRuntimeSnapshot =>
    obtain ⟨db₁, hcall, hret⟩ := bind_eq_ok.mp h
    cases pure_eq_ok.mp hret
    exact purgeInactiveRuntimeSnapshot_integrity hcall hdb
  | enqueueCleanup =>
    obtain ⟨⟨db₁, job⟩, hcall, hret⟩ := bind_eq_ok.mp h
    cases pure_eq_ok.mp hret
    exact enqueueCleanup_integrity hcall hdb
  | claimCleanup =>
    obtain ⟨⟨db₁, result⟩, hcall, hret⟩ := bind_eq_ok.mp h
    cases pure_eq_ok.mp hret
    exact claimCleanup_integrity hcall hdb
  | completeCleanup =>
    obtain ⟨⟨db₁, job⟩, hcall, hret⟩ := bind_eq_ok.mp h
    cases pure_eq_ok.mp hret
    exact updateLeased_integrity hcall (fun _ => rfl) (fun _ => rfl) hdb
  | recordCleanupFailure =>
    obtain ⟨⟨db₁, job⟩, hcall, hret⟩ := bind_eq_ok.mp h
    cases pure_eq_ok.mp hret
    obtain ⟨-, hcall⟩ := ensure_bind.mp hcall
    obtain ⟨-, hcall⟩ := ensure_bind.mp hcall
    exact updateLeased_integrity hcall (fun _ => rfl) (fun _ => rfl) hdb

/-- Every constraint of the schema holds after every sequence of calls, failed ones among them. -/
theorem integrity_run (c : Coercion α) (chunksFingerprint : List ChunkRecordV1 → String)
    (calls : List (Call α)) : (History.empty.run c chunksFingerprint calls).db.Integrity :=
  History.run_invariant (I := fun h => h.db.Integrity)
    (fun _ _ _ _ hI hexec => exec_integrity hexec hI) integrity_empty calls

end

end ZhiyanRag.Storage
