import ZhiyanRag.Storage.Schema

/-!
# Registration, lifecycle and ingestion jobs

The repository calls on documents, versions and ingestion jobs. A call takes the stored tables to
the tables it commits and its result, or raises; a raised error is a rollback, so the tables stay as
they were. Generated identifiers and clock readings are arguments.

`_transition_version` is split where the source hands over to SQL: `transitionCandidate` is the
Python half (revision compare, transition table, update map, Pydantic validation) and
`updateDocumentVersionLifecycle` is the UPDATE with its trigger, CHECKs and unique index.
-/

namespace ZhiyanRag.Storage

open Relational

/-! ### Registration -/

def SourceType.ofString? : String → Option SourceType
  | "uploaded" => some .uploaded
  | "collected" => some .collected
  | _ => none

/-- The `DocumentIdentityV1` built from a registration request. -/
def documentCandidate (documentId ownerId paperId sourceType mappingVersion : String)
    (sourceCreatedTime sourceUpdatedTime : Datetime) : Except PyError DocumentIdentityV1 := do
  let paperId ← coerceContractId "paper_id" paperId
  let documentId ← coerceContractId "document_id" documentId
  let ownerId ← coerceContractId "owner_id" ownerId
  let mappingVersion ← coerceContractId "mapping_version" mappingVersion
  let created ← requireTimezone sourceCreatedTime "source_created_time"
  let updated ← requireTimezone sourceUpdatedTime "source_updated_time"
  match SourceType.ofString? sourceType with
  | none => .error ⟨.validationError, "source_type"⟩
  | some sourceType => do
    ensure (decide (created ≤ updated)) .validationError
      "source_updated_time must not precede source_created_time"
    return ⟨paperId, documentId, ownerId, sourceType, mappingVersion, created, updated⟩

def registerDocument (db : Database) (newId ownerId paperId sourceType mappingVersion : String)
    (sourceCreatedTime sourceUpdatedTime : Datetime) :
    Except PyError (Database × DocumentIdentityV1) := do
  let candidate ← documentCandidate newId ownerId paperId sourceType mappingVersion
    sourceCreatedTime sourceUpdatedTime
  ensure (checkDocument candidate) .checkViolation "rag_documents"
  match db.documents.rows.find? fun d =>
      decide (d.ownerId = candidate.ownerId) && decide (d.paperId = candidate.paperId) with
  | some stored => do
    let row := { stored with
      mappingVersion := candidate.mappingVersion
      sourceUpdatedTime := max stored.sourceUpdatedTime candidate.sourceUpdatedTime }
    ensure (decide (row.sourceType = candidate.sourceType)) .identityConflictError
      "owner/paper mapping already exists with a different immutable source_type"
    return ({ db with documents := db.documents.set row }, row)
  | none =>
    match db.documents.insert? candidate with
    | none => .error ⟨.uniqueViolation, "rag_documents_pkey"⟩
    | some documents => .ok ({ db with documents := documents }, candidate)

/-- The fresh row of `register_document_version_v1`. -/
def registeredVersion (document : DocumentIdentityV1) (newId contentSha256 sourceSnapshotSha256
    parseVersion : String) (now : Timestamp) : DocumentVersionLifecycleV1 :=
  { paperId := document.paperId
    documentId := document.documentId
    ownerId := document.ownerId
    documentVersionId := newId
    contentSha256 := contentSha256
    sourceSnapshotSha256 := sourceSnapshotSha256
    parseVersion := parseVersion
    lifecycleRevision := 1
    lifecycleStatus := .registered
    updatedAt := now }

/-- The row with the source identity `(document_id, content, snapshot, parse_version)`. -/
def Database.sourceVersion? (db : Database) (documentId contentSha256 sourceSnapshotSha256
    parseVersion : String) : Option DocumentVersionLifecycleV1 :=
  db.versions.rows.find? fun v =>
    decide (v.documentId = documentId) && decide (v.contentSha256 = contentSha256) &&
      decide (v.sourceSnapshotSha256 = sourceSnapshotSha256) &&
        decide (v.parseVersion = parseVersion)

/-- The `inserted` part of `register_document_version_v1`: the tables with the new row, or nothing
when the owner has no such document or the source identity is taken. -/
def insertVersion (db : Database) (newId ownerId documentId contentSha256 sourceSnapshotSha256
    parseVersion : String) (now : Timestamp) :
    Except PyError (Option (Database × DocumentVersionLifecycleV1)) :=
  match (db.documents.find? documentId).filter fun d => decide (d.ownerId = ownerId) with
  | none => .ok none
  | some document => do
    let row := registeredVersion document newId contentSha256 sourceSnapshotSha256 parseVersion now
    ensure (checkDocumentVersion row) .checkViolation "rag_document_versions"
    if (db.sourceVersion? documentId contentSha256 sourceSnapshotSha256 parseVersion).isSome then
      return none
    else match db.versions.insert? row with
      | none => .error ⟨.uniqueViolation, "rag_document_versions_pkey"⟩
      | some versions => return some ({ db with versions := versions }, row)

def registerVersion (db : Database) (newId ownerId documentId contentSha256 sourceSnapshotSha256
    parseVersion : String) (now : Timestamp) :
    Except PyError (Database × DocumentVersionLifecycleV1) := do
  match ← insertVersion db newId ownerId documentId contentSha256 sourceSnapshotSha256 parseVersion
    now with
  | some (db, row) => do
    let version ← row.validate
    return (db, version)
  | none =>
    match (db.sourceVersion? documentId contentSha256 sourceSnapshotSha256 parseVersion).filter
        fun v => decide (v.ownerId = ownerId) with
    | none =>
      .error ⟨.identityConflictError, "document does not exist in the authenticated owner scope"⟩
    | some stored => do
      let version ← stored.validate
      return (db, version)

def registerIngestionJob (db : Database) (newId ownerId documentId documentVersionId
    idempotencyKey : String) (now : Timestamp) : Except PyError (Database × IngestionJobV1) := do
  let row : IngestionJobV1 :=
    { jobId := newId
      ownerId := ownerId
      idempotencyKey := idempotencyKey
      documentId := documentId
      documentVersionId := documentVersionId
      status := .pending
      attemptCount := 0
      createdAt := now
      updatedAt := now }
  ensure (checkIngestionJob row) .checkViolation "rag_ingestion_jobs"
  match db.ingestionJobs.rows.find? fun j =>
      decide (j.ownerId = ownerId) && decide (j.idempotencyKey = idempotencyKey) with
  | some stored => do
    let job ← stored.validate
    ensure (decide (job.documentId = documentId) &&
      decide (job.documentVersionId = documentVersionId)) .identityConflictError
        "idempotency key is already bound to a different document version"
    return (db, job)
  | none =>
    match db.ingestionJobs.insert? row with
    | none => .error ⟨.uniqueViolation, "rag_ingestion_jobs_pkey"⟩
    | some jobs => do
      ensure (db.referencedVersion? documentVersionId ownerId documentId).isSome
        .foreignKeyViolation "rag_ingestion_jobs_version_owner_fk"
      let job ← row.validate
      return ({ db with ingestionJobs := jobs }, job)

def registerVersionAndIngestionJob (db : Database) (newVersionId newJobId ownerId documentId
    contentSha256 sourceSnapshotSha256 parseVersion idempotencyKey : String) (now : Timestamp) :
    Except PyError (Database × DocumentVersionLifecycleV1 × IngestionJobV1) := do
  let (db, version) ← registerVersion db newVersionId ownerId documentId contentSha256
    sourceSnapshotSha256 parseVersion now
  let (db, job) ← registerIngestionJob db newJobId ownerId documentId version.documentVersionId
    idempotencyKey now
  return (db, version, job)

/-! ### The update map -/

inductive TimeField
  | parseFinishTime
  | chunkSplitterTime
  | chunkCreateTime
  | chunkGenTime
  | vectorIndexTime
  | deleteTime
  | chunkExpireTime
  | lastAccessTime
  | lastRefreshTime
  deriving DecidableEq

def TimeField.name : TimeField → String
  | .parseFinishTime => "parse_finish_time"
  | .chunkSplitterTime => "chunk_splitter_time"
  | .chunkCreateTime => "chunk_create_time"
  | .chunkGenTime => "chunk_gen_time"
  | .vectorIndexTime => "vector_index_time"
  | .deleteTime => "delete_time"
  | .chunkExpireTime => "chunk_expire_time"
  | .lastAccessTime => "last_access_time"
  | .lastRefreshTime => "last_refresh_time"

/-- A key of an update map: one of `LIFECYCLE_MUTABLE_FIELDS`, or some other string. -/
inductive UpdateKey
  | time (field : TimeField)
  | indexStates
  | failureCode
  | unsupported (name : String)
  deriving DecidableEq

/-- A value of an update map; `object` is any Python object outside the expected types. -/
inductive UpdateValue (α : Type)
  | none
  | datetime (value : Datetime)
  | str (value : String)
  | states (value : IndexStatesV1)
  | object (value : α)

/-- What Pydantic makes of a value that is not already of the field's type. -/
structure Coercion (α : Type) where
  datetime : UpdateValue α → Except PyError (Option Datetime)
  string : UpdateValue α → Except PyError String
  indexStates : UpdateValue α → Except PyError IndexStatesV1

/-- The coercion of a caller that passes only values of the expected types. -/
def noCoercion : Coercion Empty where
  datetime _ := .error ⟨.validationError, "datetime"⟩
  string _ := .error ⟨.validationError, "string"⟩
  indexStates _ := .error ⟨.validationError, "index_states"⟩

section Updates

variable {α : Type} (c : Coercion α)

def validateTime (field : TimeField) : UpdateValue α → Except PyError (Option Timestamp)
  | .none => .ok none
  | .datetime value => do return some (← requireTimezone value field.name)
  | value => do
    match ← c.datetime value with
    | none => return none
    | some value => return some (← requireTimezone value field.name)

def validateFailureCode : UpdateValue α → Except PyError (Option String)
  | .none => .ok none
  | .str value => do return some (← coerceContractId "failure_code" value)
  | value => do return some (← coerceContractId "failure_code" (← c.string value))

def validateIndexStates : UpdateValue α → Except PyError IndexStatesV1
  | .states value => .ok value
  | value => c.indexStates value

end Updates

def DocumentVersionLifecycleV1.setTime (v : DocumentVersionLifecycleV1) (value : Option Timestamp) :
    TimeField → DocumentVersionLifecycleV1
  | .parseFinishTime => { v with parseFinishTime := value }
  | .chunkSplitterTime => { v with chunkSplitterTime := value }
  | .chunkCreateTime => { v with chunkCreateTime := value }
  | .chunkGenTime => { v with chunkGenTime := value }
  | .vectorIndexTime => { v with vectorIndexTime := value }
  | .deleteTime => { v with deleteTime := value }
  | .chunkExpireTime => { v with chunkExpireTime := value }
  | .lastAccessTime => { v with lastAccessTime := value }
  | .lastRefreshTime => { v with lastRefreshTime := value }

/-- One entry of the update map laid over the current fields. -/
def applyUpdate {α : Type} (c : Coercion α) (v : DocumentVersionLifecycleV1) :
    UpdateKey × UpdateValue α → Except PyError DocumentVersionLifecycleV1
  | (.time field, value) => do return v.setTime (← validateTime c field value) field
  | (.indexStates, value) => do return { v with indexStates := ← validateIndexStates c value }
  | (.failureCode, value) => do return { v with failureCode := ← validateFailureCode c value }
  | (.unsupported name, _) => .error ⟨.valueError, name⟩

def unsupportedFields {α : Type} (updates : List (UpdateKey × UpdateValue α)) : List String :=
  updates.filterMap fun update => match update.1 with
    | .unsupported name => some name
    | _ => none

/-! ### Transitions -/

/-- The fields outside the patch and the ones every update rewrites. -/
def DocumentVersionLifecycleV1.stamped (v : DocumentVersionLifecycleV1) (revision : Int)
    (status : LifecycleStatus) (now : Timestamp) : DocumentVersionLifecycleV1 :=
  { v with lifecycleRevision := revision, lifecycleStatus := status, updatedAt := now }

/-- The Python checks of `_transition_version` on the locked row. -/
def transitionCandidate {α : Type} (c : Coercion α) (current : DocumentVersionLifecycleV1)
    (expectedRevision : Int) (targetStatus : LifecycleStatus)
    (updates : List (UpdateKey × UpdateValue α)) (now : Timestamp) :
    Except PyError DocumentVersionLifecycleV1 := do
  ensure (decide (current.lifecycleRevision = expectedRevision)) .concurrentLifecycleUpdateError
    "document lifecycle revision changed before update"
  let isProcessingProgress := decide (current.lifecycleStatus = .processing) &&
    decide (targetStatus = .processing) && !updates.isEmpty
  ensure ((allowedLifecycleTransitions current.lifecycleStatus).contains targetStatus ||
      isProcessingProgress) .lifecycleTransitionError
    ("transition " ++ current.lifecycleStatus.value ++ " -> " ++ targetStatus.value ++
      " is not allowed")
  let patched ← updates.foldlM (applyUpdate c) current
  (patched.stamped (current.lifecycleRevision + 1) targetStatus now).validate

/-- `rag_document_versions_one_active_per_document`: no other active row of the owner's document. -/
def Database.oneActive (db : Database) (v : DocumentVersionLifecycleV1) : Bool :=
  !v.isActive || db.versions.rows.all fun w =>
    decide (w.documentVersionId = v.documentVersionId) || !w.isActive ||
      decide (w.ownerId ≠ v.ownerId) || decide (w.documentId ≠ v.documentId)

/-- `update_document_version_lifecycle_v1` on the locked row: the column type, the trigger, the
CHECKs and the unique index. -/
def updateDocumentVersionLifecycle (db : Database) (new old : DocumentVersionLifecycleV1) :
    Except PyError Database := do
  ensure (decide (new.lifecycleRevision ≤ integerMax)) .numericValueOutOfRange
    "integer out of range"
  enforceDocumentVersionTransition new old
  ensure (checkDocumentVersion new) .checkViolation "rag_document_versions"
  ensure (db.oneActive new) .uniqueViolation "rag_document_versions_one_active_per_document"
  return { db with versions := db.versions.set new }

def transitionVersion {α : Type} (c : Coercion α) (db : Database)
    (ownerId documentVersionId : String) (expectedRevision : Int) (targetStatus : LifecycleStatus)
    (updates : List (UpdateKey × UpdateValue α)) (now : Timestamp) :
    Except PyError (Database × DocumentVersionLifecycleV1) := do
  ensure (unsupportedFields updates).isEmpty .valueError
    ("unsupported lifecycle update fields: " ++ String.intercalate ", " (unsupportedFields updates))
  match db.ownedVersion? ownerId documentVersionId with
  | none =>
    .error ⟨.identityConflictError,
      "document version does not exist in the authenticated owner scope"⟩
  | some row => do
    let current ← row.validate
    let candidate ← transitionCandidate c current expectedRevision targetStatus updates now
    let db ← updateDocumentVersionLifecycle db candidate current
    let updated ← candidate.validate
    return (db, updated)

/-! ### Ingestion jobs -/

def updateIngestionJob (db : Database) (ownerId jobId : String) (status : IngestionJobStatus)
    (failureCode : Option String) (now : Timestamp) :
    Except PyError (Database × IngestionJobV1) := do
  ensure (status ≠ .failed || failureCode.isSome) .valueError
    "FAILED ingestion job requires failure_code"
  ensure (status = .failed || failureCode.isNone) .valueError
    "only FAILED ingestion jobs may retain failure_code"
  match (db.ingestionJobs.find? jobId).filter fun j => decide (j.ownerId = ownerId) with
  | none =>
    .error ⟨.identityConflictError, "ingestion job does not exist in the authenticated owner scope"⟩
  | some stored => do
    let row := { stored with
      status := status
      attemptCount := stored.attemptCount + (if status = .running then 1 else 0)
      failureCode := failureCode
      updatedAt := now }
    ensure (decide (row.attemptCount ≤ integerMax)) .numericValueOutOfRange "integer out of range"
    ensure (checkIngestionJob row) .checkViolation "rag_ingestion_jobs"
    let job ← row.validate
    return ({ db with ingestionJobs := db.ingestionJobs.set row }, job)

def recordIndexingFailure {α : Type} (c : Coercion α) (db : Database)
    (ownerId documentVersionId : String) (expectedRevision : Int) (indexStates : UpdateValue α)
    (jobId failureCode : String) (now : Timestamp) :
    Except PyError (Database × DocumentVersionLifecycleV1 × IngestionJobV1) := do
  let (db, version) ← transitionVersion c db ownerId documentVersionId expectedRevision .processing
    [(.indexStates, indexStates), (.failureCode, .str failureCode)] now
  let (db, job) ← updateIngestionJob db ownerId jobId .failed (some failureCode) now
  ensure (decide (job.documentVersionId = version.documentVersionId)) .identityConflictError
    "ingestion job is not bound to the indexed document version"
  return (db, version, job)

def finalizeIndexingSuccess {α : Type} (c : Coercion α) (db : Database)
    (ownerId documentVersionId : String) (expectedRevision : Int) (indexStates : UpdateValue α)
    (vectorIndexTime : Datetime) (jobId : String) (now : Timestamp) :
    Except PyError (Database × DocumentVersionLifecycleV1 × IngestionJobV1) := do
  let (db, version) ← transitionVersion c db ownerId documentVersionId expectedRevision .ready
    [(.indexStates, indexStates), (.time .vectorIndexTime, .datetime vectorIndexTime),
      (.failureCode, .none)] now
  let (db, job) ← updateIngestionJob db ownerId jobId .succeeded none now
  ensure (decide (job.documentVersionId = version.documentVersionId)) .identityConflictError
    "ingestion job is not bound to the indexed document version"
  return (db, version, job)

/-! ### What each call commits -/

/-- What one committed update makes of a version row. -/
structure VersionUpdate (old new : DocumentVersionLifecycleV1) : Prop where
  identity : sameVersionIdentity new old = true
  revision : new.lifecycleRevision = old.lifecycleRevision + 1
  transition : transitionAllowed old.lifecycleStatus new.lifecycleStatus = true
  valid : new.Valid

namespace VersionUpdate

variable {old new : DocumentVersionLifecycleV1}

theorem documentVersionId (h : VersionUpdate old new) :
    new.documentVersionId = old.documentVersionId := by
  have := h.identity
  simp only [sameVersionIdentity, Bool.and_eq_true, decide_eq_true_eq] at this
  tauto

theorem ownerId (h : VersionUpdate old new) : new.ownerId = old.ownerId := by
  have := h.identity
  simp only [sameVersionIdentity, Bool.and_eq_true, decide_eq_true_eq] at this
  tauto

theorem documentId (h : VersionUpdate old new) : new.documentId = old.documentId := by
  have := h.identity
  simp only [sameVersionIdentity, Bool.and_eq_true, decide_eq_true_eq] at this
  tauto

end VersionUpdate

section Patches

variable {α : Type} {c : Coercion α}

theorem applyUpdate_frame {v v' : DocumentVersionLifecycleV1} {update : UpdateKey × UpdateValue α}
    (h : applyUpdate c v update = .ok v') :
    sameVersionIdentity v' v = true ∧ v'.lifecycleRevision = v.lifecycleRevision ∧
      v'.lifecycleStatus = v.lifecycleStatus := by
  obtain ⟨key, value⟩ := update
  cases key with
  | time field =>
    obtain ⟨t, -, h⟩ := bind_eq_ok.mp h
    cases pure_eq_ok.mp h
    cases field <;> simp [sameVersionIdentity, DocumentVersionLifecycleV1.setTime]
  | indexStates =>
    obtain ⟨s, -, h⟩ := bind_eq_ok.mp h
    cases pure_eq_ok.mp h
    simp [sameVersionIdentity]
  | failureCode =>
    obtain ⟨f, -, h⟩ := bind_eq_ok.mp h
    cases pure_eq_ok.mp h
    simp [sameVersionIdentity]
  | unsupported name => cases h

/-- No patch touches the identity, the revision or the status. -/
theorem foldlM_applyUpdate_frame {updates : List (UpdateKey × UpdateValue α)}
    {v v' : DocumentVersionLifecycleV1} (h : updates.foldlM (applyUpdate c) v = .ok v') :
    sameVersionIdentity v' v = true ∧ v'.lifecycleRevision = v.lifecycleRevision ∧
      v'.lifecycleStatus = v.lifecycleStatus := by
  induction updates generalizing v with
  | nil =>
    cases pure_eq_ok.mp h
    simp [sameVersionIdentity]
  | cons update updates ih =>
    rw [List.foldlM_cons] at h
    obtain ⟨u, hu, h⟩ := bind_eq_ok.mp h
    obtain ⟨hid, hrev, hstatus⟩ := applyUpdate_frame hu
    obtain ⟨hid', hrev', hstatus'⟩ := ih h
    refine ⟨?_, hrev'.trans hrev, hstatus'.trans hstatus⟩
    simp only [sameVersionIdentity, Bool.and_eq_true, decide_eq_true_eq] at hid hid' ⊢
    grind

/-- The Python transition table, `PROCESSING` progress included, is the trigger's. -/
theorem transitionAllowed_of_python {old new : LifecycleStatus} {patched : Bool}
    (h : ((allowedLifecycleTransitions old).contains new ||
      (decide (old = .processing) && decide (new = .processing) && patched)) = true) :
    transitionAllowed old new = true := by
  cases old <;> cases new <;> simp_all [allowedLifecycleTransitions, transitionAllowed]

theorem transitionCandidate_ok {current candidate : DocumentVersionLifecycleV1}
    {expectedRevision : Int} {targetStatus : LifecycleStatus}
    {updates : List (UpdateKey × UpdateValue α)} {now : Timestamp}
    (h : transitionCandidate c current expectedRevision targetStatus updates now = .ok candidate) :
    current.lifecycleRevision = expectedRevision ∧ VersionUpdate current candidate ∧
      ∃ patched, updates.foldlM (applyUpdate c) current = .ok patched ∧
        candidate = patched.stamped (current.lifecycleRevision + 1) targetStatus now := by
  unfold transitionCandidate at h
  simp only [ensure_bind, decide_eq_true_eq] at h
  obtain ⟨hrev, hallowed, h⟩ := h
  obtain ⟨patched, hpatched, h⟩ := bind_eq_ok.mp h
  obtain ⟨rfl, hvalid⟩ := DocumentVersionLifecycleV1.validate_eq_ok.mp h
  obtain ⟨hid, -, -⟩ := foldlM_applyUpdate_frame hpatched
  exact ⟨hrev, ⟨hid, rfl, transitionAllowed_of_python hallowed, hvalid⟩, patched, hpatched, rfl⟩

theorem transitionVersion_ok {db db' : Database} {ownerId documentVersionId : String}
    {expectedRevision : Int} {targetStatus : LifecycleStatus}
    {updates : List (UpdateKey × UpdateValue α)} {now : Timestamp}
    {new : DocumentVersionLifecycleV1}
    (h : transitionVersion c db ownerId documentVersionId expectedRevision targetStatus
      updates now = .ok (db', new)) :
    ∃ old, db.ownedVersion? ownerId documentVersionId = some old ∧
      old.lifecycleRevision = expectedRevision ∧ VersionUpdate old new ∧ db.oneActive new = true ∧
      db' = { db with versions := db.versions.set new } ∧
      ∃ patched, updates.foldlM (applyUpdate c) old = .ok patched ∧
        new = patched.stamped (expectedRevision + 1) targetStatus now := by
  unfold transitionVersion at h
  obtain ⟨-, h⟩ := ensure_bind.mp h
  split at h
  · cases h
  rename_i row hrow
  obtain ⟨current, hcurrent, hcommit⟩ := bind_eq_ok.mp h
  obtain ⟨rfl, -⟩ := DocumentVersionLifecycleV1.validate_eq_ok.mp hcurrent
  obtain ⟨candidate, hcandidate, hsql⟩ := bind_eq_ok.mp hcommit
  obtain ⟨rfl, hupdate, hpatched⟩ := transitionCandidate_ok hcandidate
  obtain ⟨db₁, hdb, hreturn⟩ := bind_eq_ok.mp hsql
  obtain ⟨updated, hupdated, hpair⟩ := bind_eq_ok.mp hreturn
  obtain ⟨rfl, -⟩ := DocumentVersionLifecycleV1.validate_eq_ok.mp hupdated
  cases pure_eq_ok.mp hpair
  unfold updateDocumentVersionLifecycle at hdb
  simp only [check_bind, ensure_eq_ok, pure_eq_ok] at hdb
  obtain ⟨-, -, -, hactive, rfl⟩ := hdb
  exact ⟨_, hrow, rfl, hupdate, hactive, rfl, hpatched⟩

end Patches

theorem updateIngestionJob_ok {db db' : Database} {ownerId jobId : String}
    {status : IngestionJobStatus} {failureCode : Option String} {now : Timestamp}
    {job : IngestionJobV1}
    (h : updateIngestionJob db ownerId jobId status failureCode now = .ok (db', job)) :
    db' = { db with ingestionJobs := db.ingestionJobs.set job } ∧
      ∃ stored, db.ingestionJobs.find? jobId = some stored ∧ stored.ownerId = ownerId ∧
        job = { stored with
          status := status
          attemptCount := stored.attemptCount + (if status = .running then 1 else 0)
          failureCode := failureCode
          updatedAt := now } := by
  unfold updateIngestionJob at h
  obtain ⟨-, h⟩ := ensure_bind.mp h
  obtain ⟨-, h⟩ := ensure_bind.mp h
  split at h
  · cases h
  rename_i stored hstored
  obtain ⟨-, h⟩ := ensure_bind.mp h
  obtain ⟨-, h⟩ := ensure_bind.mp h
  obtain ⟨job', hjob, h⟩ := bind_eq_ok.mp h
  cases IngestionJobV1.eq_of_validate hjob
  cases pure_eq_ok.mp h
  obtain ⟨hfind, howner⟩ := Option.filter_eq_some_iff.mp hstored
  exact ⟨rfl, stored, hfind, by simpa using howner, rfl⟩

theorem registerDocument_ok {db db' : Database}
    {newId ownerId paperId sourceType mappingVersion : String} {created updated : Datetime}
    {d : DocumentIdentityV1}
    (h : registerDocument db newId ownerId paperId sourceType mappingVersion created updated =
      .ok (db', d)) :
    ∃ documents, db' = { db with documents := documents } := by
  unfold registerDocument at h
  obtain ⟨candidate, -, h⟩ := bind_eq_ok.mp h
  obtain ⟨-, h⟩ := ensure_bind.mp h
  split at h
  · obtain ⟨-, h⟩ := ensure_bind.mp h
    cases pure_eq_ok.mp h
    exact ⟨_, rfl⟩
  · split at h
    · cases h
    · cases h
      exact ⟨_, rfl⟩

theorem mem_of_sourceVersion? {db : Database} {documentId content source parse : String}
    {v : DocumentVersionLifecycleV1}
    (h : db.sourceVersion? documentId content source parse = some v) :
    v ∈ db.versions.rows ∧ v.documentId = documentId ∧ v.contentSha256 = content ∧
      v.sourceSnapshotSha256 = source ∧ v.parseVersion = parse := by
  refine ⟨List.mem_of_find?_eq_some h, ?_⟩
  have := List.find?_some h
  simp only [Bool.and_eq_true, decide_eq_true_eq] at this
  tauto

theorem insertVersion_some {db db' : Database}
    {newId ownerId documentId content source parse : String} {now : Timestamp}
    {v : DocumentVersionLifecycleV1}
    (h : insertVersion db newId ownerId documentId content source parse now = .ok (some (db', v))) :
    ∃ document versions, db.documents.find? documentId = some document ∧
      document.ownerId = ownerId ∧ v = registeredVersion document newId content source parse now ∧
      db.versions.insert? v = some versions ∧ db' = { db with versions := versions } := by
  unfold insertVersion at h
  split at h
  · cases h
  rename_i document hdocument
  obtain ⟨hfind, howner⟩ := Option.filter_eq_some_iff.mp hdocument
  obtain ⟨-, h⟩ := ensure_bind.mp h
  split at h
  · cases h
  split at h
  · cases h
  rename_i versions hinsert
  cases h
  exact ⟨document, versions, hfind, by simpa using howner, rfl, hinsert, rfl⟩

/-- A registered version is a stored row of its owner: a fresh one, or the one that was there. -/
theorem registerVersion_ok {db db' : Database}
    {newId ownerId documentId content source parse : String} {now : Timestamp}
    {v : DocumentVersionLifecycleV1}
    (h : registerVersion db newId ownerId documentId content source parse now = .ok (db', v)) :
    v.Valid ∧ v.ownerId = ownerId ∧ v.contentSha256 = content ∧ v ∈ db'.versions.rows ∧
      (db' = db ∨ ∃ document versions,
        v = registeredVersion document newId content source parse now ∧
        db.versions.insert? v = some versions ∧ db' = { db with versions := versions }) := by
  unfold registerVersion at h
  obtain ⟨r, hinsert, h⟩ := bind_eq_ok.mp h
  cases r with
  | some r =>
    obtain ⟨version, hversion, h⟩ := bind_eq_ok.mp h
    obtain ⟨hv, hvalid⟩ := DocumentVersionLifecycleV1.validate_eq_ok.mp hversion
    cases pure_eq_ok.mp h
    subst hv
    obtain ⟨document, versions, -, howner, hv, hins, hdb⟩ := insertVersion_some hinsert
    refine ⟨hvalid, ?_, ?_, ?_, .inr ⟨document, versions, hv, hins, hdb⟩⟩
    · rw [hv]
      exact howner
    · rw [hv]
      rfl
    · rw [hdb]
      exact Table.mem_rows_of_find? (Table.find?_insert?_self hins)
  | none =>
    simp only at h
    split at h
    · cases h
    rename_i stored hstored
    obtain ⟨version, hversion, h⟩ := bind_eq_ok.mp h
    obtain ⟨hv, hvalid⟩ := DocumentVersionLifecycleV1.validate_eq_ok.mp hversion
    cases pure_eq_ok.mp h
    subst hv
    obtain ⟨hsource, howner⟩ := Option.filter_eq_some_iff.mp hstored
    obtain ⟨hmem, -, hcontent, -, -⟩ := mem_of_sourceVersion? hsource
    exact ⟨hvalid, by simpa using howner, hcontent, hmem, .inl rfl⟩

theorem registerIngestionJob_ok {db db' : Database}
    {newId ownerId documentId documentVersionId idempotencyKey : String} {now : Timestamp}
    {job : IngestionJobV1}
    (h : registerIngestionJob db newId ownerId documentId documentVersionId idempotencyKey now =
      .ok (db', job)) :
    ∃ jobs, db' = { db with ingestionJobs := jobs } := by
  unfold registerIngestionJob at h
  obtain ⟨-, h⟩ := ensure_bind.mp h
  split at h
  · obtain ⟨job', -, h⟩ := bind_eq_ok.mp h
    obtain ⟨-, h⟩ := ensure_bind.mp h
    cases pure_eq_ok.mp h
    exact ⟨_, rfl⟩
  · split at h
    · cases h
    · obtain ⟨-, h⟩ := ensure_bind.mp h
      obtain ⟨job', -, h⟩ := bind_eq_ok.mp h
      cases pure_eq_ok.mp h
      exact ⟨_, rfl⟩

theorem registerVersionAndIngestionJob_ok {db db' : Database}
    {newVersionId newJobId ownerId documentId content source parse idempotencyKey : String}
    {now : Timestamp} {v : DocumentVersionLifecycleV1} {job : IngestionJobV1}
    (h : registerVersionAndIngestionJob db newVersionId newJobId ownerId documentId content
      source parse idempotencyKey now = .ok (db', v, job)) :
    ∃ db₁ jobs,
      registerVersion db newVersionId ownerId documentId content source parse now = .ok (db₁, v) ∧
      db' = { db₁ with ingestionJobs := jobs } := by
  unfold registerVersionAndIngestionJob at h
  obtain ⟨⟨db₁, v₁⟩, hversion, h⟩ := bind_eq_ok.mp h
  obtain ⟨⟨db₂, job₂⟩, hjob, h⟩ := bind_eq_ok.mp h
  cases pure_eq_ok.mp h
  obtain ⟨jobs, hdb⟩ := registerIngestionJob_ok hjob
  exact ⟨db₁, jobs, hversion, hdb⟩

/-- Both outcome calls of indexing: a version update and a job update of that version in one
transaction. -/
theorem transition_with_job_ok {α : Type} {c : Coercion α} {db db' : Database}
    {ownerId documentVersionId jobId : String} {expectedRevision : Int}
    {targetStatus : LifecycleStatus}
    {updates : List (UpdateKey × UpdateValue α)} {jobStatus : IngestionJobStatus}
    {failureCode : Option String} {now : Timestamp} {v : DocumentVersionLifecycleV1}
    {job : IngestionJobV1}
    (h : (do
      let (db, version) ← transitionVersion c db ownerId documentVersionId expectedRevision
        targetStatus updates now
      let (db, job) ← updateIngestionJob db ownerId jobId jobStatus failureCode now
      ensure (decide (job.documentVersionId = version.documentVersionId)) .identityConflictError
        "ingestion job is not bound to the indexed document version"
      return (db, version, job)) = .ok (db', v, job)) :
    ∃ db₁, transitionVersion c db ownerId documentVersionId expectedRevision targetStatus
        updates now = .ok (db₁, v) ∧
        updateIngestionJob db₁ ownerId jobId jobStatus failureCode now = .ok (db', job) ∧
      job.documentVersionId = v.documentVersionId := by
  obtain ⟨⟨db₁, v₁⟩, hversion, h⟩ := bind_eq_ok.mp h
  obtain ⟨⟨db₂, job₂⟩, hjob, h⟩ := bind_eq_ok.mp h
  obtain ⟨hbound, h⟩ := ensure_bind.mp h
  cases pure_eq_ok.mp h
  exact ⟨db₁, hversion, hjob, by simpa using hbound⟩

theorem recordIndexingFailure_ok {α : Type} {c : Coercion α} {db db' : Database}
    {ownerId documentVersionId jobId failureCode : String} {expectedRevision : Int}
    {states : UpdateValue α} {now : Timestamp} {v : DocumentVersionLifecycleV1}
    {job : IngestionJobV1}
    (h : recordIndexingFailure c db ownerId documentVersionId expectedRevision states jobId
      failureCode now = .ok (db', v, job)) :
    ∃ db₁, transitionVersion c db ownerId documentVersionId expectedRevision .processing
        [(.indexStates, states), (.failureCode, .str failureCode)] now = .ok (db₁, v) ∧
      updateIngestionJob db₁ ownerId jobId .failed (some failureCode) now = .ok (db', job) ∧
      job.documentVersionId = v.documentVersionId :=
  transition_with_job_ok h

theorem finalizeIndexingSuccess_ok {α : Type} {c : Coercion α} {db db' : Database}
    {ownerId documentVersionId jobId : String} {expectedRevision : Int} {states : UpdateValue α}
    {vectorIndexTime : Datetime} {now : Timestamp} {v : DocumentVersionLifecycleV1}
    {job : IngestionJobV1}
    (h : finalizeIndexingSuccess c db ownerId documentVersionId expectedRevision states
      vectorIndexTime jobId now = .ok (db', v, job)) :
    ∃ db₁, transitionVersion c db ownerId documentVersionId expectedRevision .ready
        [(.indexStates, states), (.time .vectorIndexTime, .datetime vectorIndexTime),
          (.failureCode, .none)] now = .ok (db₁, v) ∧
      updateIngestionJob db₁ ownerId jobId .succeeded none now = .ok (db', job) ∧
      job.documentVersionId = v.documentVersionId :=
  transition_with_job_ok h

end ZhiyanRag.Storage
