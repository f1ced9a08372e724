import ZhiyanRag.Ingestion.Leases

/-!
# Writes to the files and the snapshot tables

What an operation can do to the PDF files (`ObjectWrite`) and to the registrations and chunk rows
(`SnapshotWrite`), and which thread asks for it. Files, registrations, rows and cleanup jobs belong
to stored versions (`World.SnapshotSound`), and without a new write a purged version stays purged.
-/

namespace ZhiyanRag.Ingestion

open Relational ZhiyanRag.Storage Steps

/-! ### What is stored for a version -/

section

variable (services : Services)

/-- The object key of a version's PDF. -/
def versionKey (v : DocumentVersionLifecycleV1) : String :=
  objectKey services.sha256 v.ownerId v.documentId v.documentVersionId v.contentSha256

/-- The PDF registration is the one of a stored version. -/
def World.Registered (w : World) (pdf : PdfObjectV1) : Prop :=
  ∃ v, w.db.versions.find? pdf.documentVersionId = some v ∧ pdf.ownerId = v.ownerId ∧
    pdf.documentId = v.documentId ∧ pdf.objectKey = versionKey services v

/-- Files, registrations, chunk rows and cleanup jobs belong to stored versions: a file sits at its
version's key, a chunk row has a registration, and a job's version is `INACTIVE`. -/
structure World.SnapshotSound (w : World) : Prop where
  queue : w.QueueSound
  file : ∀ key file, w.objects key = some file →
    ∃ v, w.db.versions.find? file.writtenFor = some v ∧ key = versionKey services v
  pdf : ∀ pdf ∈ w.db.pdfObjects.rows, w.Registered services pdf
  chunk : ∀ row ∈ w.db.chunks.rows,
    ∃ pdf, w.db.pdfObjects.find? row.documentVersionId = some pdf ∧ row.ownerId = pdf.ownerId
  job : ∀ job ∈ w.db.cleanupJobs.rows, ∃ v, w.db.versions.find? job.documentVersionId = some v ∧
    v.ownerId = job.ownerId ∧ v.lifecycleStatus = .inactive

end

/-- The store holds no file that was written for the version. -/
def World.NoFile (w : World) (documentVersionId : String) : Prop :=
  ∀ key file, w.objects key = some file → file.writtenFor ≠ documentVersionId

/-- The version has no file, no registration and no chunk row. -/
structure World.Purged (w : World) (documentVersionId : String) : Prop where
  file : w.NoFile documentVersionId
  pdf : w.db.pdfObjects.find? documentVersionId = none
  chunk : ∀ row ∈ w.db.chunks.rows, row.documentVersionId ≠ documentVersionId

/-! ### Writes to the files and the snapshot tables -/

section Writes

variable {services : Services} {w w' : World} {choice : Choice} {operation : Operation}
  {outcome : Except PyError operation.Result}

/-- All that an operation can do to the files. -/
inductive ObjectWrite (services : Services) (w w' : World) (choice : Choice)
    (operation : Operation) : Prop
  | same : w'.objects = w.objects → ObjectWrite services w w' choice operation
  | put (pdfBytes : List UInt8) (ownerId documentId documentVersionId contentSha256 : String)
      (now : Timestamp) (pdf : PdfObjectV1) : choice.fails = false →
      operation = .putPdf pdfBytes ownerId documentId documentVersionId contentSha256 now →
      putPdf services.sha256 w.objects pdfBytes ownerId documentId documentVersionId
        contentSha256 now = .ok (w'.objects, pdf) → ObjectWrite services w w' choice operation
  | deleted (pdf : PdfObjectV1) : w'.objects = Function.update w.objects pdf.objectKey none →
      ObjectWrite services w w' choice operation

/-- All that an operation can do to the snapshot tables. -/
inductive SnapshotWrite (services : Services) (w w' : World) (choice : Choice)
    (operation : Operation) : Prop
  | same : w'.db.pdfObjects = w.db.pdfObjects → w'.db.chunks = w.db.chunks →
      SnapshotWrite services w w' choice operation
  | persisted (pdf : PdfObjectV1) (chunks : List ChunkRecordV1) (receipt : RuntimeSnapshotV1) :
      choice.fails = false → operation = .repository (.persistRuntimeSnapshot pdf chunks) →
      persistRuntimeSnapshot services.chunksFingerprint w.db pdf chunks = .ok (w'.db, receipt) →
      SnapshotWrite services w w' choice operation
  | purged (ownerId documentVersionId : String) :
      purgeInactiveRuntimeSnapshot w.db ownerId documentVersionId = .ok w'.db →
      SnapshotWrite services w w' choice operation

theorem Outcome.objectWrite (h : Outcome services w w' choice operation outcome) :
    ObjectWrite services w w' choice operation := by
  obtain ⟨e, -, hsame⟩ | ⟨result, -, hfails, heffect⟩ := h.stores
  · exact .same hsame.objects
  · cases heffect with
    | putPdf pdfBytes o d u content now pdf hcall _ _ => exact .put _ _ _ _ _ _ pdf hfails rfl hcall
    | deletePdf pdf existed hobjects _ _ => exact .deleted pdf hobjects
    | repository call result _ _ hobjects => exact .same hobjects
    | getInactivePdfObject o u _ _ hobjects => exact .same hobjects
    | ensureStaged b o d u chunks index receipt _ _ _ hobjects => exact .same hobjects
    | activateVersion b o u index _ _ _ hobjects => exact .same hobjects
    | deactivateVersion b o u index _ _ _ hobjects => exact .same hobjects
    | deleteVersion b o u existed _ _ hobjects => exact .same hobjects
    | invalidateVersion o d u _ _ hobjects => exact .same hobjects

theorem Outcome.snapshotWrite (h : Outcome services w w' choice operation outcome) :
    SnapshotWrite services w w' choice operation := by
  obtain ⟨e, -, hsame⟩ | ⟨result, -, hfails, heffect⟩ := h.stores
  · exact .same (by rw [hsame.db]) (by rw [hsame.db])
  obtain hdb | ⟨call, log, rfl, hexec⟩ := heffect.db_cases
  · exact .same (by rw [hdb]) (by rw [hdb])
  cases exec_committed hexec with
  | bookkeeping _ hsame => exact .same hsame.1 hsame.2.1
  | registered v _ _ _ _ hsame => exact .same hsame.1 hsame.2.1
  | updated old new _ _ _ _ _ hsame => exact .same hsame.1 hsame.2.1
  | snapshot pdf chunks receipt hcall hcommit =>
    exact .persisted pdf chunks receipt hfails (congrArg Operation.repository hcall) hcommit
  | purged ownerId documentVersionId _ hcommit => exact .purged ownerId documentVersionId hcommit
  | enqueued job jobs _ _ _ _ hdb => exact .same (by rw [hdb]) (by rw [hdb])
  | claimed newToken leaseSeconds now result _ hclaim =>
    obtain ⟨jobs, hdb⟩ := claimCleanup_frame hclaim
    exact .same (by rw [hdb]) (by rw [hdb])
  | succeeded job leaseToken now _ _ hdb => exact .same (by rw [hdb]) (by rw [hdb])
  | failed job leaseToken failureCode retryAt now _ _ hdb => exact .same (by rw [hdb]) (by rw [hdb])

/-- What a committed snapshot adds. -/
theorem persist_adds {fp : List ChunkRecordV1 → String} {db db' : Database} {pdf : PdfObjectV1}
    {chunks : List ChunkRecordV1} {receipt : RuntimeSnapshotV1}
    (h : persistRuntimeSnapshot fp db pdf chunks = .ok (db', receipt)) :
    (∀ p ∈ db'.pdfObjects.rows, p ∈ db.pdfObjects.rows ∨ p = pdf) ∧
      (∃ stored, db'.pdfObjects.find? pdf.documentVersionId = some stored ∧
        stored.ownerId = pdf.ownerId) ∧
      ∀ row ∈ db'.chunks.rows, row ∈ db.chunks.rows ∨
        (row.documentVersionId = pdf.documentVersionId ∧ row.ownerId = pdf.ownerId) := by
  obtain ⟨haccepted, ⟨inserted, hsub, hrows, -, -⟩, -⟩ := persist_versionRows h
  obtain ⟨-, -, -, -, -, pdfDb, stored, newChunks, -, hpdf, hfind, hidentity, rfl, -⟩ :=
    persistRuntimeSnapshot_ok h
  refine ⟨fun p hp => ?_, ⟨stored, hfind, (PdfObjectV1.identity_eq_iff.mp hidentity).1⟩,
    fun row hrow => ?_⟩
  · rcases insertPdfObject_ok hpdf with ⟨rfl, -⟩ | ⟨pdfObjects, hinsert, rfl⟩
    · exact .inl hp
    · rw [Table.rows_insert? hinsert, List.mem_append, List.mem_singleton] at hp
      exact hp
  · rw [hrows, List.mem_append] at hrow
    exact hrow.imp_right fun hrow => haccepted.row (hsub.subset hrow)

theorem World.Registered.later {pdf : PdfObjectV1} (h : w.Registered services pdf)
    (hlater : w.db.Later w'.db) : w'.Registered services pdf := by
  obtain ⟨v, hv, howner, hdocument, hkey⟩ := h
  obtain ⟨v', hv', hsame⟩ := hlater _ _ hv
  obtain ⟨hvid, hdoc, hown, -, hcontent, -, -⟩ := sameVersionIdentity_iff.mp hsame.identity
  refine ⟨v', hv', howner.trans hown.symm, hdocument.trans hdoc.symm, ?_⟩
  rw [hkey]
  unfold versionKey
  rw [hvid, hdoc, hown, hcontent]

/-- Without a write for the version, its files stay gone. -/
theorem World.NoFile.step {vid : String} (h : w.NoFile vid)
    (hout : Outcome services w w' choice operation outcome)
    (hput : ∀ pdfBytes ownerId documentId contentSha256 now, choice.fails = false →
      operation ≠ .putPdf pdfBytes ownerId documentId vid contentSha256 now) : w'.NoFile vid := by
  intro key file hfile
  cases hout.objectWrite with
  | same hobjects =>
    rw [hobjects] at hfile
    exact h key file hfile
  | deleted pdf hobjects =>
    rw [hobjects] at hfile
    by_cases hkey : key = pdf.objectKey
    · subst hkey
      simp at hfile
    · rw [Function.update_of_ne hkey] at hfile
      exact h key file hfile
  | put pdfBytes o d u content now pdf hfails hop hcall =>
    obtain ⟨-, -, -, -, -, new, hobjects, hnew⟩ := putPdf_ok hcall
    rw [hobjects] at hfile
    by_cases hkey : key = pdf.objectKey
    · subst hkey
      rw [Function.update_self] at hfile
      cases hfile
      rcases hnew with hold | ⟨-, hwritten⟩
      · exact h _ _ hold
      · rw [hwritten]
        rintro rfl
        exact hput _ _ _ _ _ hfails hop
    · rw [Function.update_of_ne hkey] at hfile
      exact h key file hfile

/-- Without a write or a snapshot for the version, it stays purged. -/
theorem World.Purged.step {vid : String} (h : w.Purged vid)
    (hout : Outcome services w w' choice operation outcome)
    (hput : ∀ pdfBytes ownerId documentId contentSha256 now, choice.fails = false →
      operation ≠ .putPdf pdfBytes ownerId documentId vid contentSha256 now)
    (hpersist : ∀ pdf chunks, choice.fails = false →
      operation = .repository (.persistRuntimeSnapshot pdf chunks) →
      pdf.documentVersionId ≠ vid) : w'.Purged vid := by
  refine ⟨h.file.step hout hput, ?_, fun row hrow => ?_⟩
  · cases hout.snapshotWrite with
    | same hpdf _ => rw [hpdf]; exact h.pdf
    | persisted pdf chunks receipt hfails hop hcommit =>
      refine Table.find?_eq_none_iff.mpr fun p hp => ?_
      rcases (persist_adds hcommit).1 p hp with hp | rfl
      · exact Table.find?_eq_none_iff.mp h.pdf p hp
      · exact hpersist _ _ hfails hop
    | purged o u hcommit =>
      obtain ⟨-, hdb⟩ := purgeInactiveRuntimeSnapshot_ok hcommit
      refine Table.find?_eq_none_iff.mpr fun p hp => ?_
      rw [hdb] at hp
      exact Table.find?_eq_none_iff.mp h.pdf p (List.mem_of_mem_filter hp)
  · cases hout.snapshotWrite with
    | same _ hchunks =>
      rw [hchunks] at hrow
      exact h.chunk row hrow
    | persisted pdf chunks receipt hfails hop hcommit =>
      rcases (persist_adds hcommit).2.2 row hrow with hrow | ⟨hvid, -⟩
      · exact h.chunk row hrow
      · rw [hvid]
        exact hpersist _ _ hfails hop
    | purged o u hcommit =>
      obtain ⟨-, hdb⟩ := purgeInactiveRuntimeSnapshot_ok hcommit
      rw [hdb] at hrow
      exact h.chunk row (List.mem_of_mem_filter hrow)

theorem versionKey_later {v v' : DocumentVersionLifecycleV1} (h : LaterVersion v v') :
    versionKey services v' = versionKey services v := by
  obtain ⟨hvid, hdoc, hown, -, hcontent, -, -⟩ := sameVersionIdentity_iff.mp h.identity
  unfold versionKey
  rw [hvid, hdoc, hown, hcontent]

/-- A cleanup job's version stays `INACTIVE`. -/
theorem Outcome.jobs_inactive (hout : Outcome services w w' choice operation outcome)
    (hqueue : w.QueueSound)
    (hw : ∀ job ∈ w.db.cleanupJobs.rows, ∃ v, w.db.versions.find? job.documentVersionId = some v ∧
      v.ownerId = job.ownerId ∧ v.lifecycleStatus = .inactive)
    (job : CleanupJobV1) (hjob : job ∈ w'.db.cleanupJobs.rows) :
    ∃ v, w'.db.versions.find? job.documentVersionId = some v ∧ v.ownerId = job.ownerId ∧
      v.lifecycleStatus = .inactive := by
  have hlater := hout.later
  rcases hout.job_before hqueue (Table.find?_key_of_mem hjob)
    with ⟨job₁, hjob₁, hmove⟩ | ⟨-, v, hv, hinactive⟩
  · obtain ⟨v, hv, howner, hinactive⟩ := hw job₁ (Table.mem_rows_of_find? hjob₁)
    obtain ⟨v', hv', hsame⟩ := hlater _ _ hv
    obtain ⟨-, hown, -, hvid⟩ := CleanupJobV1.sameTarget_iff.mp hmove.target
    refine ⟨v', by rw [hvid]; exact hv', ?_, hsame.inactive hinactive⟩
    rw [hown, ← howner]
    exact (sameVersionIdentity_iff.mp hsame.identity).2.2.1
  · obtain ⟨hfind, howner, -⟩ := Database.referencedVersion?_eq_some.mp hv
    obtain ⟨v', hv', hsame⟩ := hlater _ _ hfind
    refine ⟨v', hv', ?_, hsame.inactive hinactive⟩
    rw [← howner]
    exact (sameVersionIdentity_iff.mp hsame.identity).2.2.1

/-- Every operation keeps the stores sound, if a file is put for a stored version and a snapshot
persisted for a registration of one. -/
theorem World.SnapshotSound.step (h : w.SnapshotSound services)
    (hout : Outcome services w w' choice operation outcome)
    (hput : ∀ pdfBytes ownerId documentId vid contentSha256 now,
      operation = .putPdf pdfBytes ownerId documentId vid contentSha256 now →
        ∃ v, w.db.versions.find? vid = some v ∧
          objectKey services.sha256 ownerId documentId vid contentSha256 = versionKey services v)
    (hpersist : ∀ pdf chunks, operation = .repository (.persistRuntimeSnapshot pdf chunks) →
      w.Registered services pdf) : w'.SnapshotSound services := by
  have hlater := hout.later
  have hfile : ∀ key file, w.objects key = some file →
      ∃ v, w'.db.versions.find? file.writtenFor = some v ∧ key = versionKey services v := by
    intro key file hobject
    obtain ⟨v, hv, hkey⟩ := h.file key file hobject
    obtain ⟨v', hv', hsame⟩ := hlater _ _ hv
    exact ⟨v', hv', hkey.trans (versionKey_later hsame).symm⟩
  refine ⟨hout.queueSound h.queue, fun key file hobject => ?_, fun pdf hpdf => ?_,
    fun row hrow => ?_, fun job hjob => ?_⟩
  · cases hout.objectWrite with
    | same hobjects =>
      rw [hobjects] at hobject
      exact hfile key file hobject
    | deleted pdf hobjects =>
      rw [hobjects] at hobject
      by_cases hkey : key = pdf.objectKey
      · subst hkey
        simp at hobject
      · rw [Function.update_of_ne hkey] at hobject
        exact hfile key file hobject
    | put pdfBytes o d u content now pdf _ hop hcall =>
      obtain ⟨-, -, -, -, hpdfKey, new, hobjects, hnew⟩ := putPdf_ok hcall
      rw [hobjects] at hobject
      by_cases hkey : key = pdf.objectKey
      · subst hkey
        rw [Function.update_self] at hobject
        cases hobject
        rcases hnew with hold | ⟨-, hwritten⟩
        · exact hfile _ _ hold
        · obtain ⟨v, hv, hversion⟩ := hput _ _ _ _ _ _ hop
          obtain ⟨v', hv', hsame⟩ := hlater _ _ hv
          refine ⟨v', by rw [hwritten]; exact hv', ?_⟩
          rw [hpdfKey, hversion, versionKey_later hsame]
      · rw [Function.update_of_ne hkey] at hobject
        exact hfile key file hobject
  · cases hout.snapshotWrite with
    | same hsame _ =>
      rw [hsame] at hpdf
      exact (h.pdf pdf hpdf).later hlater
    | persisted new chunks receipt _ hop hcommit =>
      rcases (persist_adds hcommit).1 pdf hpdf with hold | rfl
      · exact (h.pdf pdf hold).later hlater
      · exact (hpersist _ _ hop).later hlater
    | purged o u hcommit =>
      obtain ⟨-, hdb⟩ := purgeInactiveRuntimeSnapshot_ok hcommit
      rw [hdb] at hpdf
      exact (h.pdf pdf (List.mem_of_mem_filter hpdf)).later hlater
  · cases hout.snapshotWrite with
    | same hsame hchunks =>
      rw [hchunks] at hrow
      rw [hsame]
      exact h.chunk row hrow
    | persisted new chunks receipt _ hop hcommit =>
      obtain ⟨-, ⟨stored, hstored, howner⟩, hrows⟩ := persist_adds hcommit
      rcases hrows row hrow with hold | ⟨hvid, hown⟩
      · obtain ⟨pdf, hpdf, hown⟩ := h.chunk row hold
        exact ⟨pdf, persist_pdf_kept hcommit hpdf, hown⟩
      · exact ⟨stored, by rw [hvid]; exact hstored, hown.trans howner.symm⟩
    | purged o u hcommit =>
      obtain ⟨-, hdb⟩ := purgeInactiveRuntimeSnapshot_ok hcommit
      rw [hdb] at hrow ⊢
      obtain ⟨hold, hkept⟩ := List.mem_filter.mp hrow
      obtain ⟨pdf, hpdf, hown⟩ := h.chunk row hold
      have hkey := Table.key_of_find? hpdf
      -- the row is kept, so its registration, of the same owner and version, is kept
      refine ⟨pdf, Table.find?_filter_of_pos hpdf ?_, hown⟩
      rw [hown, ← hkey] at hkept
      exact hkept
  · exact hout.jobs_inactive h.queue h.job job hjob

theorem World.SnapshotSound.empty : World.empty.SnapshotSound services :=
  ⟨World.QueueSound.empty, fun _ _ h => (by cases h), fun _ h => (by cases h),
    fun _ h => (by cases h), fun _ h => (by cases h)⟩

end Writes

/-! ### Who writes -/

section Calls

variable {services : Services} {choice : Choice} {thread : Thread}

/-- Only a preparation puts a PDF, and it is its version's. -/
theorem next_puts {pending : Pending Thread} {pdfBytes : List UInt8}
    {ownerId documentId vid contentSha256 : String} {now : Timestamp}
    (hnext : thread.next services choice = some pending)
    (hput : pending.operation = .putPdf pdfBytes ownerId documentId vid contentSha256 now) :
    ∃ request preparation, thread = .preparer request (.putPdf preparation) ∧
      ownerId = preparation.version.ownerId ∧ documentId = preparation.version.documentId ∧
      vid = preparation.version.documentVersionId ∧
      contentSha256 = preparation.version.contentSha256 := by
  have hmade := next_madeBy hnext
  rwa [hput] at hmade

/-- Only a preparation persists a snapshot, and it is its own list. -/
theorem next_persists {pending : Pending Thread} {pdf : PdfObjectV1} {chunks : List ChunkRecordV1}
    (hnext : thread.next services choice = some pending)
    (hpersist : pending.operation = .repository (.persistRuntimeSnapshot pdf chunks)) :
    ∃ request preparation, thread = .preparer request (.persistSnapshot preparation pdf) ∧
      chunks = preparation.ingestion.chunks := by
  have hmade := next_madeBy hnext
  rwa [hpersist] at hmade

end Calls

end ZhiyanRag.Ingestion
