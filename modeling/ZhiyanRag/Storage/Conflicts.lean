import ZhiyanRag.Storage.Immutability
import ZhiyanRag.Storage.Integrity

/-!
# Constraint conflicts

Which constraints of the schema a call of the repository can run into, and through what
(`Conflict`). After any calls, a further call that PostgreSQL refuses for a constraint is one of
these (`conflicts_run`): the lifecycle trigger, the guard of snapshot deletion, the CHECKs on
documents and on updated versions, and every constraint of the cleanup queue but its primary key are
met by what the Python code checks before, and by the rows that are stored.
-/

namespace ZhiyanRag

/-- The exceptions of constraints and of the triggers that enforce some. -/
def ErrorKind.isConstraint : ErrorKind → Bool
  | .checkViolation | .uniqueViolation | .foreignKeyViolation | .serializationFailure => true
  | _ => false

namespace Storage

open Relational Ingestion

/-! ### The conflicts -/

/-- What registering a version runs into: an argument of no use, or the generated identifier. -/
inductive VersionConflict (db : Database)
    (newId contentSha256 sourceSnapshotSha256 parseVersion : String) : PyError → Prop
  | check : (sha256Pattern contentSha256 && sha256Pattern sourceSnapshotSha256 &&
      contractIdPattern parseVersion) = false →
      VersionConflict db newId contentSha256 sourceSnapshotSha256 parseVersion
        ⟨.checkViolation, "rag_document_versions"⟩
  | taken : db.versions.find? newId ≠ none →
      VersionConflict db newId contentSha256 sourceSnapshotSha256 parseVersion
        ⟨.uniqueViolation, "rag_document_versions_pkey"⟩

/-- What registering a job of a version that exists runs into. -/
inductive JobConflict (db : Database) (newId ownerId idempotencyKey : String) : PyError → Prop
  | check : (contractIdPattern ownerId && contractIdPattern idempotencyKey) = false →
      JobConflict db newId ownerId idempotencyKey ⟨.checkViolation, "rag_ingestion_jobs"⟩
  | taken : db.ingestionJobs.find? newId ≠ none →
      JobConflict db newId ownerId idempotencyKey ⟨.uniqueViolation, "rag_ingestion_jobs_pkey"⟩

/-- Another version of the document is active. -/
def Database.OtherActive (db : Database) (ownerId documentVersionId : String) : Prop :=
  ∃ v, db.ownedVersion? ownerId documentVersionId = some v ∧ ∃ w ∈ db.versions.rows,
    w.documentVersionId ≠ documentVersionId ∧ w.isActive = true ∧ w.ownerId = ownerId ∧
      w.documentId = v.documentId

/-- What storing a snapshot runs into: bad fields, an object key or a place that other rows have, or
no version. -/
inductive SnapshotConflict (db : Database) (pdf : PdfObjectV1) (chunks : List ChunkRecordV1) :
    PyError → Prop
  | pdf : checkPdfObject pdf = false →
      SnapshotConflict db pdf chunks ⟨.checkViolation, "rag_pdf_objects"⟩
  | objectKey : db.pdfObjects.find? pdf.documentVersionId = none →
      (∃ p ∈ db.pdfObjects.rows, p.objectKey = pdf.objectKey) →
      SnapshotConflict db pdf chunks ⟨.uniqueViolation, "rag_pdf_objects_object_key_key"⟩
  | version : db.referencedVersion? pdf.documentVersionId pdf.ownerId pdf.documentId = none →
      SnapshotConflict db pdf chunks ⟨.foreignKeyViolation, "rag_pdf_objects_version_owner_fk"⟩
  | chunk : (∃ row ∈ chunkRows chunks 0, checkChunk row = false) →
      SnapshotConflict db pdf chunks ⟨.checkViolation, "rag_chunks"⟩
  | ordinal : (∃ row ∈ chunkRows chunks 0, ∃ stored ∈ db.chunks.rows, stored.place = row.place ∧
      stored.chunkId ≠ row.chunkId) →
      SnapshotConflict db pdf chunks ⟨.uniqueViolation, "rag_chunks_version_ordinal_unique"⟩

/-- The constraints that a call can run into, and through what. -/
inductive Conflict {α : Type} (db : Database) : Call α → PyError → Prop
  | document {newId : ContractId} {ownerId paperId sourceType mappingVersion : String}
      {created updated : Datetime} : db.documents.find? newId ≠ none →
      Conflict db (.registerDocument newId ownerId paperId sourceType mappingVersion created
        updated) ⟨.uniqueViolation, "rag_documents_pkey"⟩
  | version {newId : ContractId} {ownerId documentId content source parse : String}
      {now : Timestamp} {e : PyError} : VersionConflict db newId content source parse e →
      Conflict db (.registerVersion newId ownerId documentId content source parse now) e
  | job {newId : ContractId} {ownerId documentId documentVersionId idempotencyKey : String}
      {now : Timestamp} {e : PyError} : JobConflict db newId ownerId idempotencyKey e →
      Conflict db (.registerIngestionJob newId ownerId documentId documentVersionId
        idempotencyKey now) e
  | jobVersion {newId : ContractId} {ownerId documentId documentVersionId idempotencyKey : String}
      {now : Timestamp} : db.referencedVersion? documentVersionId ownerId documentId = none →
      Conflict db (.registerIngestionJob newId ownerId documentId documentVersionId
        idempotencyKey now) ⟨.foreignKeyViolation, "rag_ingestion_jobs_version_owner_fk"⟩
  | versionAndJob {newVersionId newJobId : ContractId}
      {ownerId documentId content source parse idempotencyKey : String} {now : Timestamp}
      {e : PyError} :
      VersionConflict db newVersionId content source parse e ∨
        JobConflict db newJobId ownerId idempotencyKey e →
      Conflict db (.registerVersionAndIngestionJob newVersionId newJobId ownerId documentId
        content source parse idempotencyKey now) e
  | transition {ownerId documentVersionId : String} {expectedRevision : Int}
      {updates : List (UpdateKey × UpdateValue α)} {now : Timestamp} :
      db.OtherActive ownerId documentVersionId →
      Conflict db (.transitionVersion ownerId documentVersionId expectedRevision .ready updates now)
        ⟨.uniqueViolation, "rag_document_versions_one_active_per_document"⟩
  | finalize {ownerId documentVersionId jobId : String} {expectedRevision : Int}
      {indexStates : UpdateValue α} {vectorIndexTime : Datetime} {now : Timestamp} :
      db.OtherActive ownerId documentVersionId →
      Conflict db (.finalizeIndexingSuccess ownerId documentVersionId expectedRevision indexStates
        vectorIndexTime jobId now)
          ⟨.uniqueViolation, "rag_document_versions_one_active_per_document"⟩
  | failureCode {ownerId jobId failureCode : String} {now : Timestamp} :
      contractIdPattern failureCode = false →
      Conflict db (.updateIngestionJob ownerId jobId .failed (some failureCode) now)
        ⟨.checkViolation, "rag_ingestion_jobs"⟩
  | indexingFailure {ownerId documentVersionId jobId failureCode : String} {expectedRevision : Int}
      {indexStates : UpdateValue α} {now : Timestamp} : contractIdPattern failureCode = false →
      Conflict db (.recordIndexingFailure ownerId documentVersionId expectedRevision
        indexStates jobId failureCode now) ⟨.checkViolation, "rag_ingestion_jobs"⟩
  | snapshot {pdf : PdfObjectV1} {chunks : List ChunkRecordV1} {e : PyError} :
      SnapshotConflict db pdf chunks e → Conflict db (.persistRuntimeSnapshot pdf chunks) e
  | cleanup {newId : ContractId} {backend ownerId documentId documentVersionId : String}
      {maxAttempts : Int} {now : Timestamp} : db.cleanupJobs.find? newId ≠ none →
      Conflict db (.enqueueCleanup newId backend ownerId documentId documentVersionId
        maxAttempts now) ⟨.uniqueViolation, "rag_index_cleanup_jobs_pkey"⟩

/-! ### What a computation runs into -/

/-- Every constraint that a computation runs into is one of these conflicts. -/
def RunsInto {β : Type} (C : PyError → Prop) (x : Except PyError β) : Prop :=
  ∀ e, x = .error e → e.kind.isConstraint = true → C e

namespace RunsInto

variable {β γ : Type} {C D : PyError → Prop} {x : Except PyError β} {f : β → Except PyError γ}

theorem ok (b : β) : RunsInto C (.ok b : Except PyError β) := fun e h => by cases h

theorem raised {e : PyError} (h : e.kind.isConstraint = false) :
    RunsInto C (.error e : Except PyError β) := by
  intro e' herr hkind
  cases herr
  rw [h] at hkind
  cases hkind

theorem conflict {e : PyError} (h : C e) : RunsInto C (.error e : Except PyError β) := by
  intro e' herr _
  cases herr
  exact h

theorem bind (hx : RunsInto C x) (hf : ∀ b, x = .ok b → RunsInto C (f b)) :
    RunsInto C (x >>= f) := by
  intro e herr hkind
  rcases bind_eq_error.mp herr with herr | ⟨b, hb, herr⟩
  · exact hx e herr hkind
  · exact hf b hb e herr hkind

theorem mono (hx : RunsInto C x) (h : ∀ e, C e → D e) : RunsInto D x :=
  fun e herr hkind => h e (hx e herr hkind)

variable {condition : Bool} {kind : ErrorKind} {message : String} {g : Unit → Except PyError β}

/-- A check of the Python code, which raises no exception of the database. -/
theorem check (hkind : kind.isConstraint = false) (hg : condition = true → RunsInto C (g ())) :
    RunsInto C (ensure condition kind message >>= g) := by
  refine bind (fun e herr hconstraint => ?_) fun u hu => hg (ensure_eq_ok.mp hu)
  rw [(ensure_eq_error.mp herr).2, hkind] at hconstraint
  cases hconstraint

/-- A constraint of the database. -/
theorem constraint (hconflict : condition = false → C ⟨kind, message⟩)
    (hg : condition = true → RunsInto C (g ())) :
    RunsInto C (ensure condition kind message >>= g) := by
  refine bind (fun e herr _ => ?_) fun u hu => hg (ensure_eq_ok.mp hu)
  obtain ⟨hfalse, rfl⟩ := ensure_eq_error.mp herr
  exact hconflict hfalse

end RunsInto

section Records

variable {C : PyError → Prop}

theorem runsInto_ensure {condition : Bool} {kind : ErrorKind} {message : String}
    (hkind : kind.isConstraint = false) : RunsInto C (ensure condition kind message) := by
  intro e herr hconstraint
  rw [(ensure_eq_error.mp herr).2, hkind] at hconstraint
  cases hconstraint

theorem runsInto_coerceContractId (field value : String) :
    RunsInto C (coerceContractId field value) := by
  unfold coerceContractId
  split
  · exact .ok _
  · exact .raised rfl

theorem runsInto_requireTimezone (value : Datetime) (field : String) :
    RunsInto C (requireTimezone value field) := by
  unfold requireTimezone
  split
  · exact .ok _
  · exact .raised rfl

theorem DocumentVersionLifecycleV1.runsInto_validate (v : DocumentVersionLifecycleV1) :
    RunsInto C v.validate := by
  have hlifecycle : RunsInto C v.lifecycleFailsClosed := by
    unfold lifecycleFailsClosed
    exact .check rfl fun _ => .check rfl fun _ => .check rfl fun _ => .check rfl fun _ => .check rfl
      fun _ =>
      runsInto_ensure rfl
  unfold validate
  exact .check rfl fun _ => .check rfl fun _ => .check rfl fun _ => .check rfl fun _ => .check rfl
    fun _ =>
    .check rfl fun _ => .check rfl fun _ => .check rfl fun _ => .check rfl fun _ =>
      .bind hlifecycle fun _ _ => .ok _

theorem IngestionJobV1.runsInto_validate (job : IngestionJobV1) : RunsInto C job.validate := by
  unfold validate
  exact .check rfl fun _ => .check rfl fun _ => .check rfl fun _ => .check rfl fun _ => .check rfl
    fun _ =>
    .check rfl fun _ => .check rfl fun _ => .check rfl fun _ => .ok _

end Records

/-! ### Registrations -/

section Registrations

variable {db : Database}

theorem runsInto_documentCandidate {C : PyError → Prop}
    {newId ownerId paperId sourceType mappingVersion : String} {created updated : Datetime} :
    RunsInto C (documentCandidate newId ownerId paperId sourceType mappingVersion created
      updated) := by
  unfold documentCandidate
  refine .bind (runsInto_coerceContractId _ _) fun _ _ => .bind (runsInto_coerceContractId _ _)
    fun _ _ =>
    .bind (runsInto_coerceContractId _ _) fun _ _ => .bind (runsInto_coerceContractId _ _)
      fun _ _ =>
    .bind (runsInto_requireTimezone _ _) fun _ _ => .bind (runsInto_requireTimezone _ _)
      fun _ _ => ?_
  split
  · exact .raised rfl
  · exact .check rfl fun _ => .ok _

/-- The row that Pydantic accepts passes the CHECKs. -/
theorem documentCandidate_ok {newId : ContractId}
    {ownerId paperId sourceType mappingVersion : String} {created updated : Datetime}
    {d : DocumentIdentityV1}
    (h : documentCandidate newId ownerId paperId sourceType mappingVersion created updated =
      .ok d) :
    checkDocument d = true ∧ d.documentId = newId := by
  unfold documentCandidate at h
  obtain ⟨paper, hpaper, h⟩ := bind_eq_ok.mp h
  obtain ⟨document, hdocument, h⟩ := bind_eq_ok.mp h
  obtain ⟨owner, howner, h⟩ := bind_eq_ok.mp h
  obtain ⟨mapping, hmapping, h⟩ := bind_eq_ok.mp h
  obtain ⟨createdTime, -, h⟩ := bind_eq_ok.mp h
  obtain ⟨updatedTime, -, h⟩ := bind_eq_ok.mp h
  split at h
  · cases h
  obtain ⟨htimes, h⟩ := ensure_bind.mp h
  cases pure_eq_ok.mp h
  refine ⟨?_, ?_⟩
  · simp only [checkDocument, coerceContractId_pattern hpaper, coerceContractId_pattern hdocument,
      coerceContractId_pattern howner, coerceContractId_pattern hmapping, htimes, Bool.and_self]
  · rw [coerceContractId_of_identifier newId.2] at hdocument
    exact (Except.ok.inj hdocument).symm

theorem registerDocument_conflict {newId : ContractId}
    {ownerId paperId sourceType mappingVersion : String} {created updated : Datetime} :
    RunsInto (fun e => e = ⟨.uniqueViolation, "rag_documents_pkey"⟩ ∧
      db.documents.find? newId ≠ none)
    (registerDocument db newId ownerId paperId sourceType mappingVersion created updated) := by
  unfold registerDocument
  refine .bind runsInto_documentCandidate fun candidate hcandidate => ?_
  obtain ⟨hcheck, hid⟩ := documentCandidate_ok hcandidate
  rw [ensure_true_bind hcheck]
  split
  · exact .check rfl fun _ => .ok _
  · split
    · rename_i hinsert
      refine .conflict ⟨rfl, ?_⟩
      rw [← hid]
      exact Table.find?_ne_none_of_insert? hinsert
    · exact .ok _

theorem insertVersion_conflict {newId : ContractId}
    {ownerId documentId content source parse : String} {now : Timestamp} :
    RunsInto (VersionConflict db newId content source parse)
      (insertVersion db newId ownerId documentId content source parse now) := by
  unfold insertVersion
  split
  · exact .ok _
  · rename_i document _
    refine .constraint (fun hfalse => .check ?_) fun _ => ?_
    · have hrest :
          checkDocumentVersion (registeredVersion document newId content source parse now) =
            (sha256Pattern content && sha256Pattern source && contractIdPattern parse) := by
        simp [checkDocumentVersion, registeredVersion, newId.2, checkDeleteState, checkFailureState,
          checkReadyState]
      rw [← hrest]
      exact hfalse
    · split
      · exact .ok _
      · split
        · rename_i hinsert
          exact .conflict (.taken (Table.find?_ne_none_of_insert? hinsert))
        · exact .ok _

theorem registerVersion_conflict {newId : ContractId}
    {ownerId documentId content source parse : String} {now : Timestamp} :
    RunsInto (VersionConflict db newId content source parse)
      (registerVersion db newId ownerId documentId content source parse now) := by
  unfold registerVersion
  refine .bind insertVersion_conflict fun inserted _ => ?_
  split
  · exact .bind (DocumentVersionLifecycleV1.runsInto_validate _) fun _ _ => .ok _
  · split
    · exact .raised rfl
    · exact .bind (DocumentVersionLifecycleV1.runsInto_validate _) fun _ _ => .ok _

/-- The version that is registered is one that a job of the call can refer to. -/
theorem registerVersion_referenced {db' : Database}
    {newId ownerId documentId content source parse : String} {now : Timestamp}
    {v : DocumentVersionLifecycleV1}
    (h : registerVersion db newId ownerId documentId content source parse now = .ok (db', v)) :
    db'.referencedVersion? v.documentVersionId ownerId documentId = some v ∧
      db'.ingestionJobs = db.ingestionJobs := by
  unfold registerVersion at h
  obtain ⟨inserted, hinsert, h⟩ := bind_eq_ok.mp h
  cases inserted with
  | some inserted =>
    obtain ⟨db₁, row⟩ := inserted
    obtain ⟨version, hversion, h⟩ := bind_eq_ok.mp h
    obtain ⟨hv, -⟩ := DocumentVersionLifecycleV1.validate_eq_ok.mp hversion
    cases pure_eq_ok.mp h
    subst hv
    obtain ⟨document, versions, hdocument, howner, hrow', hrow, hdb⟩ := insertVersion_some hinsert
    subst hrow' hdb
    have hkey : document.documentId = documentId := Table.key_of_find? hdocument
    exact ⟨Database.referencedVersion?_eq_some.mpr ⟨Table.find?_insert?_self hrow, howner,
      hkey⟩, rfl⟩
  | none =>
    simp only at h
    split at h
    · cases h
    rename_i stored hstored
    obtain ⟨version, hversion, h⟩ := bind_eq_ok.mp h
    obtain ⟨hv, -⟩ := DocumentVersionLifecycleV1.validate_eq_ok.mp hversion
    cases pure_eq_ok.mp h
    subst hv
    obtain ⟨hsource, howner⟩ := Option.filter_eq_some_iff.mp hstored
    obtain ⟨hmem, hdocument, -⟩ := mem_of_sourceVersion? hsource
    exact ⟨Database.referencedVersion?_eq_some.mpr
      ⟨Table.find?_key_of_mem hmem, of_decide_eq_true howner, hdocument⟩, rfl⟩

theorem registerIngestionJob_conflict {newId : ContractId}
    {ownerId documentId documentVersionId idempotencyKey : String} {now : Timestamp} :
    RunsInto (fun e => JobConflict db newId ownerId idempotencyKey e ∨
      e = ⟨.foreignKeyViolation, "rag_ingestion_jobs_version_owner_fk"⟩ ∧
        db.referencedVersion? documentVersionId ownerId documentId = none)
    (registerIngestionJob db newId ownerId documentId documentVersionId idempotencyKey now) := by
  unfold registerIngestionJob
  refine .constraint (fun hfalse => .inl (.check ?_)) fun _ => ?_
  · simpa [checkIngestionJob, newId.2] using hfalse
  split
  · exact .bind (IngestionJobV1.runsInto_validate _) fun _ _ => .check rfl fun _ => .ok _
  · split
    · rename_i hinsert
      exact .conflict (.inl (.taken (Table.find?_ne_none_of_insert? hinsert)))
    · refine .constraint (fun hfalse => .inr ⟨rfl, ?_⟩) fun _ =>
        .bind (IngestionJobV1.runsInto_validate _) fun _ _ => .ok _
      rwa [Option.isSome_eq_false_iff, Option.isNone_iff_eq_none] at hfalse

theorem registerVersionAndIngestionJob_conflict {newVersionId newJobId : ContractId}
    {ownerId documentId content source parse idempotencyKey : String} {now : Timestamp} :
    RunsInto (fun e => VersionConflict db newVersionId content source parse e ∨
      JobConflict db newJobId ownerId idempotencyKey e)
    (registerVersionAndIngestionJob db newVersionId newJobId ownerId documentId content source parse
      idempotencyKey now) := by
  unfold registerVersionAndIngestionJob
  refine .bind (registerVersion_conflict.mono fun _ => .inl) fun ⟨db', v⟩ hversion => ?_
  obtain ⟨hreferenced, hjobs⟩ := registerVersion_referenced hversion
  refine .bind (registerIngestionJob_conflict.mono fun e he => ?_) fun _ _ => .ok _
  rcases he with (hcheck | htaken) | ⟨-, hnone⟩
  · exact .inr (.check hcheck)
  · rw [hjobs] at htaken
    exact .inr (.taken htaken)
  · rw [hreferenced] at hnone
    cases hnone

end Registrations

/-! ### Transitions -/

section Transitions

variable {α : Type} {c : Coercion α} {db : Database}

/-- Pydantic raises no exception of the database. -/
structure Coercion.Quiet (c : Coercion α) : Prop where
  datetime : ∀ value, RunsInto (fun _ => False) (c.datetime value)
  string : ∀ value, RunsInto (fun _ => False) (c.string value)
  indexStates : ∀ value, RunsInto (fun _ => False) (c.indexStates value)

theorem runsInto_validateTime {C : PyError → Prop} (hc : c.Quiet) (field : TimeField)
    (value : UpdateValue α) : RunsInto C (validateTime c field value) := by
  unfold validateTime
  split
  · exact .ok _
  · exact .bind (runsInto_requireTimezone _ _) fun _ _ => .ok _
  · refine .bind ((hc.datetime _).mono fun _ => False.elim) fun found _ => ?_
    split
    · exact .ok _
    · exact .bind (runsInto_requireTimezone _ _) fun _ _ => .ok _

theorem runsInto_validateFailureCode {C : PyError → Prop} (hc : c.Quiet) (value : UpdateValue α) :
    RunsInto C (validateFailureCode c value) := by
  unfold validateFailureCode
  split
  · exact .ok _
  · exact .bind (runsInto_coerceContractId _ _) fun _ _ => .ok _
  · exact .bind ((hc.string _).mono fun _ => False.elim) fun _ _ =>
      .bind (runsInto_coerceContractId _ _) fun _ _ => .ok _

theorem runsInto_validateIndexStates {C : PyError → Prop} (hc : c.Quiet) (value : UpdateValue α) :
    RunsInto C (validateIndexStates c value) := by
  unfold validateIndexStates
  split
  · exact .ok _
  · exact (hc.indexStates _).mono fun _ => False.elim

theorem runsInto_applyUpdate {C : PyError → Prop} (hc : c.Quiet) (v : DocumentVersionLifecycleV1)
    (update : UpdateKey × UpdateValue α) : RunsInto C (applyUpdate c v update) := by
  obtain ⟨key, value⟩ := update
  cases key with
  | time field => exact .bind (runsInto_validateTime hc field value) fun _ _ => .ok _
  | indexStates => exact .bind (runsInto_validateIndexStates hc value) fun _ _ => .ok _
  | failureCode => exact .bind (runsInto_validateFailureCode hc value) fun _ _ => .ok _
  | unsupported name => exact .raised rfl

theorem runsInto_transitionCandidate {C : PyError → Prop} (hc : c.Quiet)
    {current : DocumentVersionLifecycleV1} {expectedRevision : Int} {targetStatus : LifecycleStatus}
    {updates : List (UpdateKey × UpdateValue α)} {now : Timestamp} :
    RunsInto C (transitionCandidate c current expectedRevision targetStatus updates now) := by
  have hpatched : ∀ v, RunsInto C (updates.foldlM (applyUpdate c) v) := by
    induction updates with
    | nil => exact fun v => .ok v
    | cons update rest ih =>
      intro v
      rw [List.foldlM_cons]
      exact .bind (runsInto_applyUpdate hc v update) fun v' _ => ih v'
  unfold transitionCandidate
  exact .check rfl fun _ => .check rfl fun _ =>
    .bind (hpatched current) fun _ _ => DocumentVersionLifecycleV1.runsInto_validate _

/-- An update of a version runs into another active version, and only on the way to `READY`. -/
theorem transitionVersion_conflict (hc : c.Quiet) {ownerId documentVersionId : String}
    {expectedRevision : Int} {targetStatus : LifecycleStatus}
    {updates : List (UpdateKey × UpdateValue α)} {now : Timestamp} :
    RunsInto (fun e => targetStatus = .ready ∧ db.OtherActive ownerId documentVersionId ∧
      e = ⟨.uniqueViolation, "rag_document_versions_one_active_per_document"⟩)
    (transitionVersion c db ownerId documentVersionId expectedRevision targetStatus updates
      now) := by
  unfold transitionVersion
  refine .check rfl fun _ => ?_
  split
  · exact .raised rfl
  rename_i row hrow
  refine .bind (DocumentVersionLifecycleV1.runsInto_validate _) fun current hcurrent => ?_
  obtain ⟨rfl, -⟩ := DocumentVersionLifecycleV1.validate_eq_ok.mp hcurrent
  refine .bind (runsInto_transitionCandidate hc) fun candidate hcandidate => ?_
  obtain ⟨-, hupdate, patched, -, hstamped⟩ := transitionCandidate_ok hcandidate
  refine .bind ?_ fun _ _ => .bind (DocumentVersionLifecycleV1.runsInto_validate _) fun _ _ => .ok _
  unfold updateDocumentVersionLifecycle
  refine .check rfl fun _ => ?_
  rw [enforceDocumentVersionTransition_of_update hupdate]
  refine .bind (.ok ()) fun _ _ => ?_
  rw [ensure_true_bind (checkDocumentVersion_of_valid hupdate.valid)]
  refine .constraint (fun hfalse => ?_) fun _ => .ok _
  have hother : ¬(candidate.isActive = true → ∀ w ∈ db.versions.rows, w.isActive = true →
      w.ownerId = candidate.ownerId → w.documentId = candidate.documentId →
        w.documentVersionId = candidate.documentVersionId) := by
    rw [← oneActive_iff, hfalse]
    exact Bool.false_ne_true
  push Not at hother
  obtain ⟨hactive, w, hw, hwActive, howner, hdocument, hne⟩ := hother
  obtain ⟨hfind, hrowOwner⟩ := Database.ownedVersion?_eq_some.mp hrow
  refine ⟨?_, ⟨_, hrow, w, hw, ?_, hwActive, ?_, ?_⟩, rfl⟩
  · unfold DocumentVersionLifecycleV1.isActive at hactive
    rw [Bool.and_eq_true, Bool.and_eq_true, decide_eq_true_eq, hstamped] at hactive
    exact hactive.1.1
  · rw [← Table.key_of_find? hfind, ← hupdate.documentVersionId]
    exact hne
  · rw [howner, hupdate.ownerId, hrowOwner]
  · rw [hdocument, hupdate.documentId]

/-- An update of a job runs into nothing but a failure code that is no contract identifier. -/
theorem updateIngestionJob_conflict (hdb : db.Integrity) {ownerId jobId : String}
    {status : IngestionJobStatus} {failureCode : Option String} {now : Timestamp} :
    RunsInto (fun e => e = ⟨.checkViolation, "rag_ingestion_jobs"⟩ ∧ status = .failed ∧
      ∃ code, failureCode = some code ∧ contractIdPattern code = false)
    (updateIngestionJob db ownerId jobId status failureCode now) := by
  unfold updateIngestionJob
  refine .check rfl fun hsome => .check rfl fun hnone => ?_
  split
  · exact .raised rfl
  rename_i stored hstored
  refine .check rfl fun _ => .constraint (fun hfalse => ⟨rfl, ?_⟩) fun _ =>
    .bind (IngestionJobV1.runsInto_validate _) fun _ _ => .ok _
  have hmem := Table.mem_rows_of_find? (Option.filter_eq_some_iff.mp hstored).1
  have hchecks := hdb.ingestionJobs.check stored hmem
  simp only [checkIngestionJob, Bool.and_eq_true, decide_eq_true_eq] at hchecks
  obtain ⟨⟨⟨⟨⟨hjob, howner⟩, hkey⟩, hattempts⟩, -⟩, -⟩ := hchecks
  have hattempt : 0 ≤ stored.attemptCount + (if status = .running then 1 else 0) := by
    split <;> omega
  simp only [checkIngestionJob, hjob, howner, hkey, hattempt, decide_true, Bool.true_and] at hfalse
  cases failureCode with
  | none =>
    have hstatus : status ≠ .failed := by simpa using hsome
    simp [hstatus] at hfalse
  | some code =>
    have hstatus : status = .failed := by simpa using hnone
    subst hstatus
    exact ⟨rfl, code, rfl, by simpa using hfalse⟩

theorem recordIndexingFailure_conflict (hc : c.Quiet) (hdb : db.Integrity)
    {ownerId documentVersionId jobId failureCode : String} {expectedRevision : Int}
    {indexStates : UpdateValue α} {now : Timestamp} :
    RunsInto (fun e => e = ⟨.checkViolation, "rag_ingestion_jobs"⟩ ∧
      contractIdPattern failureCode = false)
    (recordIndexingFailure c db ownerId documentVersionId expectedRevision indexStates jobId
      failureCode now) := by
  unfold recordIndexingFailure
  refine .bind ((transitionVersion_conflict hc).mono fun e he => by cases he.1)
    fun ⟨db', v⟩ hversion => ?_
  have hdb' := transitionVersion_integrity hversion hdb
  refine .bind ((updateIngestionJob_conflict hdb').mono fun e he => ?_) fun _ _ => .check rfl
    fun _ => .ok _
  obtain ⟨rfl, -, code, hcode, hpattern⟩ := he
  cases hcode
  exact ⟨rfl, hpattern⟩

theorem finalizeIndexingSuccess_conflict (hc : c.Quiet) (hdb : db.Integrity)
    {ownerId documentVersionId jobId : String} {expectedRevision : Int}
    {indexStates : UpdateValue α}
    {vectorIndexTime : Datetime} {now : Timestamp} :
    RunsInto (fun e => db.OtherActive ownerId documentVersionId ∧
      e = ⟨.uniqueViolation, "rag_document_versions_one_active_per_document"⟩)
    (finalizeIndexingSuccess c db ownerId documentVersionId expectedRevision indexStates
      vectorIndexTime jobId now) := by
  unfold finalizeIndexingSuccess
  refine .bind ((transitionVersion_conflict hc).mono fun e he => he.2) fun ⟨db', v⟩ hversion => ?_
  have hdb' := transitionVersion_integrity hversion hdb
  exact .bind ((updateIngestionJob_conflict hdb').mono fun e he => by cases he.2.1) fun _ _ =>
    .check rfl fun _ => .ok _

end Transitions

/-! ### Snapshots -/

section Snapshots

variable {db : Database}

/-- The row that a foreign key asks for is found. -/
theorem referencedVersion?_of_lookup {v : DocumentVersionLifecycleV1} (hv : v ∈ db.versions.rows)
    {documentVersionId ownerId documentId : String}
    (hlookup : v.lookup = (documentVersionId, ownerId, documentId)) :
    db.referencedVersion? documentVersionId ownerId documentId = some v := by
  simp only [DocumentVersionLifecycleV1.lookup, Prod.mk.injEq] at hlookup
  obtain ⟨rfl, howner, hdocument⟩ := hlookup
  exact Database.referencedVersion?_eq_some.mpr ⟨Table.find?_key_of_mem hv, howner, hdocument⟩

theorem insertPdfObject_conflict {pdf : PdfObjectV1} (chunks : List ChunkRecordV1) :
    RunsInto (SnapshotConflict db pdf chunks) (insertPdfObject db pdf) := by
  unfold insertPdfObject
  refine .constraint .pdf fun _ => ?_
  split
  · exact .ok _
  · rename_i hinsert
    have hnew := (Table.insert?_eq_some_iff.mp hinsert).1
    refine .constraint (fun hfalse => .objectKey hnew ?_) fun _ =>
      .constraint (fun hfalse => .version ?_) fun _ => .ok _
    · simpa using hfalse
    · rwa [Option.isSome_eq_false_iff, Option.isNone_iff_eq_none] at hfalse

/-- After the PDF object has been stored, its version is there: the new row refers to it, and so did
the row that was there. -/
theorem insertPdfObject_referenced (hdb : db.Integrity) {pdf : PdfObjectV1} {db' : Database}
    (h : insertPdfObject db pdf = .ok db')
    (hstored : ((db'.pdfObjects.find? pdf.documentVersionId).filter
      fun p => decide (p.ownerId = pdf.ownerId)).any (fun p => decide (p.identity = pdf.identity)) =
        true) :
    (db'.referencedVersion? pdf.documentVersionId pdf.ownerId pdf.documentId).isSome = true := by
  have hdb' := insertPdfObject_integrity h hdb
  obtain ⟨p, hp, hidentity⟩ := (Option.any_eq_true _ _).mp hstored
  obtain ⟨hfind, -⟩ := Option.filter_eq_some_iff.mp hp
  obtain ⟨v, hv, hlookup⟩ := hdb'.pdfObjectsVersion p (Table.mem_rows_of_find? hfind)
  have hsame : p.identity = pdf.identity := of_decide_eq_true hidentity
  have hversion : p.identity.version = pdf.identity.version := congrArg PdfObjectV1.version hsame
  exact Option.isSome_iff_exists.mpr ⟨v, referencedVersion?_of_lookup hv (hlookup.trans hversion)⟩

/-- Rows at distinct places of versions that are there run into their own fields, or into a row that
was stored before. -/
theorem foldlM_insertChunk_conflict {rows : List ChunkRow}
    (hversion : ∀ row ∈ rows,
      (db.referencedVersion? row.documentVersionId row.ownerId row.documentId).isSome = true)
    (hplaces : rows.Pairwise (·.place ≠ ·.place)) :
    RunsInto (fun e => (e = ⟨.checkViolation, "rag_chunks"⟩ ∧ ∃ row ∈ rows,
      checkChunk row = false) ∨ e = ⟨.uniqueViolation, "rag_chunks_version_ordinal_unique"⟩ ∧
      ∃ row ∈ rows,
        ∃ stored ∈ db.chunks.rows, stored.place = row.place ∧ stored.chunkId ≠ row.chunkId)
    (rows.foldlM insertChunk db) := by
  induction rows generalizing db with
  | nil => exact .ok _
  | cons row rows ih =>
    rw [List.foldlM_cons]
    refine .bind ?_ fun db₁ hrow => ?_
    · unfold insertChunk
      refine .check rfl fun _ =>
        .constraint (fun hfalse => .inl ⟨rfl, row, List.mem_cons_self, hfalse⟩) fun _ => ?_
      split
      · exact .ok _
      · rename_i hinsert
        have hnew := Table.find?_eq_none_iff.mp (Table.insert?_eq_some_iff.mp hinsert).1
        refine .constraint (fun hfalse => .inr ⟨rfl, row, List.mem_cons_self, ?_⟩) fun _ => ?_
        · obtain ⟨stored, hmem, hsame⟩ := List.all_eq_false.mp hfalse
          refine ⟨stored, hmem, ?_, hnew stored hmem⟩
          simpa [ChunkRow.place] using hsame
        · rw [ensure_true_bind (hversion row List.mem_cons_self)]
          exact .ok _
    · obtain ⟨hhead, htail⟩ := List.pairwise_cons.mp hplaces
      obtain ⟨-, -, hcase⟩ := insertChunk_ok hrow
      have hstored : (∀ v o d, db₁.referencedVersion? v o d = db.referencedVersion? v o d) ∧
          ∀ stored ∈ db₁.chunks.rows, stored ∈ db.chunks.rows ∨ stored = row := by
        rcases hcase with ⟨rfl, -⟩ | ⟨chunks, hinsert, rfl, -⟩
        · exact ⟨fun _ _ _ => rfl, fun _ hmem => .inl hmem⟩
        · exact ⟨fun _ _ _ => rfl, fun _ hmem => (Table.mem_insert? hinsert).mp hmem⟩
      obtain ⟨hreferenced, hchunks⟩ := hstored
      refine (ih (fun r hr => ?_) htail).mono fun e he => ?_
      · rw [hreferenced]
        exact hversion r (List.mem_cons_of_mem _ hr)
      · rcases he with ⟨rfl, r, hr, hcheck⟩ | ⟨rfl, r, hr, stored, hmem, hplace, hne⟩
        · exact .inl ⟨rfl, r, List.mem_cons_of_mem _ hr, hcheck⟩
        · rcases hchunks stored hmem with hmem | rfl
          · exact .inr ⟨rfl, r, List.mem_cons_of_mem _ hr, stored, hmem, hplace, hne⟩
          · exact absurd hplace (hhead r hr)

theorem persistRuntimeSnapshot_conflict (hdb : db.Integrity)
    {chunksFingerprint : List ChunkRecordV1 → String} {pdf : PdfObjectV1}
    {chunks : List ChunkRecordV1} :
    RunsInto (SnapshotConflict db pdf chunks)
      (persistRuntimeSnapshot chunksFingerprint db pdf chunks) := by
  unfold persistRuntimeSnapshot
  refine .check rfl fun _ => .check rfl fun _ => .check rfl fun hmatching =>
    .bind (insertPdfObject_conflict chunks) fun pdfDb hpdf => .check rfl fun hstored => ?_
  have hreferenced := insertPdfObject_referenced hdb hpdf hstored
  have hchunks : pdfDb.chunks = db.chunks := by
    rcases insertPdfObject_ok hpdf with ⟨rfl, -⟩ | ⟨pdfObjects, -, rfl⟩
    · rfl
    · rfl
  refine .bind ((foldlM_insertChunk_conflict (fun row hrow => ?_) ?_).mono fun e he => ?_)
    fun _ _ =>
    .check rfl fun _ => .ok _
  · obtain ⟨chunk, hchunk, i, -, -, rfl⟩ := mem_chunkRows hrow
    obtain ⟨howner, hdocument, hversion, -⟩ :=
      chunkMatchesPdf_iff.mp (List.all_eq_true.mp hmatching chunk hchunk)
    simpa only [chunkRow, howner, hdocument, hversion] using hreferenced
  · refine (pairwise_lt_chunkRows chunks 0).imp fun {a b} hlt heq => ?_
    exact absurd (congrArg Prod.snd heq) (Int.ne_of_lt hlt)
  · rw [hchunks] at he
    rcases he with ⟨rfl, hcheck⟩ | ⟨rfl, htaken⟩
    · exact .chunk hcheck
    · exact .ordinal htaken

/-- A purge that the Python code lets through deletes rows of an `INACTIVE` version only, which the
guard of snapshot deletion lets through too. -/
theorem purgeInactiveRuntimeSnapshot_conflict (hdb : db.Integrity)
    {ownerId documentVersionId : String} :
    RunsInto (fun _ => False) (purgeInactiveRuntimeSnapshot db ownerId documentVersionId) := by
  unfold purgeInactiveRuntimeSnapshot
  refine .check rfl fun hinactive => ?_
  obtain ⟨v, hv, hstatus⟩ := (Option.any_eq_true _ _).mp hinactive
  obtain ⟨hfind, -⟩ := Database.ownedVersion?_eq_some.mp hv
  have hdeletable {documentId : String} (hreferenced : ∃ w ∈ db.versions.rows,
      w.lookup = (documentVersionId, ownerId, documentId)) :
      db.snapshotDeletable documentVersionId ownerId documentId = true := by
    obtain ⟨w, hw, hlookup⟩ := hreferenced
    have hreferenced := referencedVersion?_of_lookup hw hlookup
    have hsame := (Database.referencedVersion?_eq_some.mp hreferenced).1
    rw [hfind] at hsame
    cases hsame
    rw [Database.snapshotDeletable, hreferenced]
    exact hstatus
  have hchunks : (db.chunks.rows.all fun r =>
      !(decide (r.ownerId = ownerId) && decide (r.documentVersionId = documentVersionId)) ||
        db.snapshotDeletable r.documentVersionId r.ownerId r.documentId) = true := by
    refine List.all_eq_true.mpr fun r hr => ?_
    by_cases hdoomed : r.ownerId = ownerId ∧ r.documentVersionId = documentVersionId
    · obtain ⟨rfl, rfl⟩ := hdoomed
      rw [hdeletable (hdb.chunksVersion r hr), Bool.or_true]
    · simp only [Bool.or_eq_true, Bool.not_eq_true', Bool.and_eq_false_iff, decide_eq_false_iff_not]
      exact .inl (not_and_or.mp hdoomed)
  have hpdfs : (db.pdfObjects.rows.all fun p =>
      !(decide (p.ownerId = ownerId) && decide (p.documentVersionId = documentVersionId)) ||
        db.snapshotDeletable p.documentVersionId p.ownerId p.documentId) = true := by
    refine List.all_eq_true.mpr fun p hp => ?_
    by_cases hdoomed : p.ownerId = ownerId ∧ p.documentVersionId = documentVersionId
    · obtain ⟨rfl, rfl⟩ := hdoomed
      rw [hdeletable (hdb.pdfObjectsVersion p hp), Bool.or_true]
    · simp only [Bool.or_eq_true, Bool.not_eq_true', Bool.and_eq_false_iff, decide_eq_false_iff_not]
      exact .inl (not_and_or.mp hdoomed)
  rw [ensure_true_bind hchunks, ensure_true_bind hpdfs]
  exact .ok _

end Snapshots

/-! ### The cleanup queue -/

section Queue

theorem CleanupJobV1.runsInto_validate {C : PyError → Prop} (job : CleanupJobV1) :
    RunsInto C job.validate := by
  have hstate : RunsInto C job.cleanupStateIsReplaySafe := by
    unfold cleanupStateIsReplaySafe
    exact .check rfl fun _ => .check rfl fun _ => .check rfl fun _ => .check rfl fun _ => .check rfl
      fun _ =>
      .check rfl fun _ => runsInto_ensure rfl
  unfold validate
  exact .check rfl fun _ => .check rfl fun _ => .check rfl fun _ => .check rfl fun _ => .check rfl
    fun _ =>
    .check rfl fun _ => .check rfl fun _ => .check rfl fun _ => .bind hstate fun _ _ => .ok _

theorem runsInto_cleanupCandidate {C : PyError → Prop}
    {newId backend ownerId documentId documentVersionId : String} {maxAttempts : Int}
    {now : Timestamp} :
    RunsInto C (cleanupCandidate newId backend ownerId documentId documentVersionId maxAttempts
      now) := by
  unfold cleanupCandidate
  refine .bind (runsInto_coerceContractId _ _) fun _ _ => ?_
  split
  · exact .raised rfl
  · exact .bind (runsInto_coerceContractId _ _) fun _ _ => .bind (runsInto_coerceContractId _ _)
      fun _ _ =>
      .bind (runsInto_coerceContractId _ _) fun _ _ => CleanupJobV1.runsInto_validate _

theorem cleanupCandidate_cleanupId {newId : ContractId}
    {backend ownerId documentId documentVersionId : String} {maxAttempts : Int} {now : Timestamp}
    {candidate : CleanupJobV1}
    (h : cleanupCandidate newId backend ownerId documentId documentVersionId maxAttempts now =
      .ok candidate) : candidate.cleanupId = newId := by
  unfold cleanupCandidate at h
  obtain ⟨cleanupId, hid, h⟩ := bind_eq_ok.mp h
  rw [coerceContractId_of_identifier newId.2] at hid
  cases hid
  split at h
  · cases h
  obtain ⟨ownerId', -, h⟩ := bind_eq_ok.mp h
  obtain ⟨documentId', -, h⟩ := bind_eq_ok.mp h
  obtain ⟨documentVersionId', -, h⟩ := bind_eq_ok.mp h
  rw [(CleanupJobV1.validate_eq_ok.mp h).1]

/-- An enqueued job runs into nothing but the primary key: the target of the row is looked up first.
-/
theorem enqueueCleanup_conflict {db : Database} {newId : ContractId}
    {backend ownerId documentId documentVersionId : String} {maxAttempts : Int} {now : Timestamp} :
    RunsInto (fun e => e = ⟨.uniqueViolation, "rag_index_cleanup_jobs_pkey"⟩ ∧
      db.cleanupJobs.find? newId ≠ none)
    (enqueueCleanup db newId backend ownerId documentId documentVersionId maxAttempts now) := by
  unfold enqueueCleanup
  refine .bind runsInto_cleanupCandidate fun candidate hcandidate => .bind ?_ fun inserted _ => ?_
  · unfold insertCleanup
    split
    · exact .ok _
    rw [ensure_true_bind (checkCleanupJob_of_valid (cleanupCandidate_ok hcandidate).1)]
    split
    · exact .ok _
    · split
      · rename_i hinsert
        refine .conflict ⟨rfl, ?_⟩
        rw [← cleanupCandidate_cleanupId hcandidate]
        exact Table.find?_ne_none_of_insert? hinsert
      · exact .ok _
  · split
    · exact .raised rfl
    · exact .bind (CleanupJobV1.runsInto_validate _) fun _ _ => .check rfl fun _ => .ok _

theorem claimCleanup_conflict {h : History} (hI : QueueInvariant h) {newToken : ContractId}
    {leaseSeconds : Int} {now : Timestamp} :
    RunsInto (fun _ => False) (claimCleanup h.db newToken leaseSeconds now) := by
  intro e herr hkind
  rcases claimCleanup_error hI herr with hvalue | hvalue
  · rw [hvalue] at hkind
    cases hkind
  · rw [hvalue] at hkind
    cases hkind

theorem completeCleanup_conflict {db : Database} (hvalid : ∀ job ∈ db.cleanupJobs.rows, job.Valid)
    {cleanupId leaseToken : String} {now : Timestamp} :
    RunsInto (fun _ => False) (completeCleanup db cleanupId leaseToken now) := by
  intro e herr hkind
  rw [completeCleanup_error hvalid herr] at hkind
  cases hkind

theorem recordCleanupFailure_conflict {db : Database}
    (hvalid : ∀ job ∈ db.cleanupJobs.rows, job.Valid) {cleanupId leaseToken failureCode : String}
    {retryAt : Datetime} {now : Timestamp} :
    RunsInto (fun _ => False)
      (recordCleanupFailure db cleanupId leaseToken failureCode retryAt now) := by
  intro e herr hkind
  rcases recordCleanupFailure_error hvalid herr with hvalue | hvalue
  · rw [hvalue] at hkind
    cases hkind
  · rw [hvalue] at hkind
    cases hkind

end Queue

/-! ### Runs -/

section Runs

variable {α : Type} {c : Coercion α} {chunksFingerprint : List ChunkRecordV1 → String}

/-- One call on tables that satisfy the schema and hold a queue that has been used properly. -/
theorem exec_conflict (hc : c.Quiet) {h : History} (hdb : h.db.Integrity)
    (hqueue : QueueInvariant h) (call : Call α) :
    RunsInto (Conflict h.db call) (h.db.exec c chunksFingerprint call) := by
  cases call with
  | registerDocument newId ownerId paperId sourceType mappingVersion created updated =>
    exact .bind (registerDocument_conflict.mono fun e he => he.1 ▸ .document he.2) fun _ _ => .ok _
  | registerVersion newId ownerId documentId content source parse now =>
    exact .bind (registerVersion_conflict.mono fun _ => .version) fun _ _ => .ok _
  | registerIngestionJob newId ownerId documentId documentVersionId idempotencyKey now =>
    refine .bind (registerIngestionJob_conflict.mono fun e he => ?_) fun _ _ => .ok _
    rcases he with he | ⟨rfl, hnone⟩
    · exact .job he
    · exact .jobVersion hnone
  | registerVersionAndIngestionJob newVersionId newJobId ownerId documentId content source parse
      idempotencyKey now =>
    exact .bind (registerVersionAndIngestionJob_conflict.mono fun _ => .versionAndJob)
      fun _ _ => .ok _
  | transitionVersion ownerId documentVersionId expectedRevision targetStatus updates now =>
    refine .bind ((transitionVersion_conflict hc).mono fun e he => ?_) fun _ _ => .ok _
    obtain ⟨rfl, hother, rfl⟩ := he
    exact .transition hother
  | updateIngestionJob ownerId jobId status failureCode now =>
    refine .bind ((updateIngestionJob_conflict hdb).mono fun e he => ?_) fun _ _ => .ok _
    obtain ⟨rfl, rfl, code, rfl, hcode⟩ := he
    exact .failureCode hcode
  | recordIndexingFailure ownerId documentVersionId expectedRevision indexStates jobId
      failureCode now =>
    exact .bind ((recordIndexingFailure_conflict hc hdb).mono
      fun e he => he.1 ▸ .indexingFailure he.2) fun _ _ => .ok _
  | finalizeIndexingSuccess ownerId documentVersionId expectedRevision indexStates
      vectorIndexTime jobId now =>
    exact .bind ((finalizeIndexingSuccess_conflict hc hdb).mono fun e he => he.2 ▸ .finalize he.1)
      fun _ _ => .ok _
  | persistRuntimeSnapshot pdf chunks =>
    exact .bind ((persistRuntimeSnapshot_conflict hdb).mono fun _ => .snapshot) fun _ _ => .ok _
  | purgeInactiveRuntimeSnapshot ownerId documentVersionId =>
    exact .bind ((purgeInactiveRuntimeSnapshot_conflict hdb).mono fun _ => False.elim)
      fun _ _ => .ok _
  | enqueueCleanup newId backend ownerId documentId documentVersionId maxAttempts now =>
    exact .bind (enqueueCleanup_conflict.mono fun e he => he.1 ▸ .cleanup he.2) fun _ _ => .ok _
  | claimCleanup newToken leaseSeconds now =>
    exact .bind ((claimCleanup_conflict hqueue).mono fun _ => False.elim) fun _ _ => .ok _
  | completeCleanup cleanupId leaseToken now =>
    exact .bind ((completeCleanup_conflict hqueue.valid).mono fun _ => False.elim) fun _ _ => .ok _
  | recordCleanupFailure cleanupId leaseToken failureCode retryAt now =>
    exact .bind ((recordCleanupFailure_conflict hqueue.valid).mono fun _ => False.elim)
      fun _ _ => .ok _

/-- After any calls, what a further call is refused for by a constraint or a trigger is one of its
conflicts. -/
theorem conflicts_run (c : Coercion α) (hc : c.Quiet)
    (chunksFingerprint : List ChunkRecordV1 → String) (calls : List (Call α)) (call : Call α)
    {e : PyError} (herr : (History.empty.run c chunksFingerprint calls).db.exec c chunksFingerprint
      call = .error e)
    (hkind : e.kind.isConstraint = true) :
    Conflict (History.empty.run c chunksFingerprint calls).db call e :=
  exec_conflict hc (integrity_run c chunksFingerprint calls)
    (queueInvariant_run .empty calls) call e herr hkind

end Runs

/-- The exception of a call, if it raises one. -/
def raised? {β : Type} : Except PyError β → Option PyError
  | .ok _ => none
  | .error e => some e

theorem raised?_eq_some {β : Type} {x : Except PyError β} {e : PyError} :
    raised? x = some e ↔ x = .error e := by
  cases x with
  | ok b => simp [raised?]
  | error e' => simp [raised?]

theorem noCoercion_quiet : noCoercion.Quiet :=
  ⟨fun _ => .raised rfl, fun _ => .raised rfl, fun _ => .raised rfl⟩

/-- The identifier of the job that cleaned one backend, generated again for another. -/
theorem conflicts_run_taken_over :
    Conflict (History.empty.run noCoercion (fun _ => "") takenOverCalls).db
      (.enqueueCleanup (fixedId "cleanup_1") "elasticsearch_chunks" "owner_1" "document_1"
        "version_1" 5 2000003 : Call Empty) ⟨.uniqueViolation, "rag_index_cleanup_jobs_pkey"⟩ :=
  conflicts_run noCoercion noCoercion_quiet (fun _ => "") takenOverCalls _
    (raised?_eq_some.mp (by decide +kernel)) rfl

end Storage

end ZhiyanRag
