import ZhiyanRag.Lib.Steps
import ZhiyanRag.Storage.Versions

/-!
# Concurrent registration

The registration calls of any number of connections, statement by statement, as PostgreSQL
interleaves them under READ COMMITTED. A transaction keeps its writes to itself until it commits,
and a rollback drops them. An `INSERT … ON CONFLICT` waits while another transaction holds one of
its unique keys, and then sees what that transaction committed; a query sees the rows that were
committed before its statement.

A `Session` is one call: `Session.step` is its next statement, the commit, or an error that the
connection raises there (an error of the commit means that the database did not commit). The
statements of one call after another are the call of `Versions.lean` (`registerDocument_eq`,
`registerVersion_eq`, `registerIngestionJob_eq`).
-/

namespace ZhiyanRag.Storage

open Relational Steps

/-! ### Transactions -/

/-- A unique key of a row. -/
inductive LockKey
  | ownerPaper (ownerId paperId : String)
  | documentId (documentId : String)
  | sourceIdentity (documentId contentSha256 sourceSnapshotSha256 parseVersion : String)
  | versionId (documentVersionId : String)
  | ownerKey (ownerId idempotencyKey : String)
  | jobId (jobId : String)
  deriving DecidableEq

/-- What a statement wrote in its transaction. -/
inductive Write
  | insertDocument (row : DocumentIdentityV1)
  | updateDocument (row : DocumentIdentityV1)
  | insertVersion (row : DocumentVersionLifecycleV1)
  | insertJob (row : IngestionJobV1)
  deriving DecidableEq

/-- The keys that are held until the transaction ends. -/
def Write.keys : Write → List LockKey
  | insertDocument row => [.ownerPaper row.ownerId row.paperId, .documentId row.documentId]
  | updateDocument row => [.ownerPaper row.ownerId row.paperId]
  | insertVersion row =>
    [.sourceIdentity row.documentId row.contentSha256 row.sourceSnapshotSha256 row.parseVersion,
      .versionId row.documentVersionId]
  | insertJob row => [.ownerKey row.ownerId row.idempotencyKey, .jobId row.jobId]

def Database.write (db : Database) : Write → Database
  | .insertDocument row => { db with documents := db.documents.upsert row }
  | .updateDocument row => { db with documents := db.documents.set row }
  | .insertVersion row => { db with versions := db.versions.upsert row }
  | .insertJob row => { db with ingestionJobs := db.ingestionJobs.upsert row }

def Database.writes (db : Database) (writes : List Write) : Database :=
  writes.foldl Database.write db

/-- The committed rows, and the keys that open transactions hold. -/
structure Store where
  db : Database
  held : List LockKey

/-- A statement waits for one of the keys. -/
def Store.blocked (s : Store) (keys : List LockKey) : Bool :=
  keys.any fun key => decide (key ∈ s.held)

def Store.acquire (s : Store) (writes : List Write) : Store :=
  { s with held := s.held ++ writes.flatMap Write.keys }

def Store.release (s : Store) (writes : List Write) : Store :=
  { s with held := s.held.filter fun key => decide (key ∉ writes.flatMap Write.keys) }

def Store.commit (s : Store) (writes : List Write) : Store :=
  ({ s with db := s.db.writes writes } : Store).release writes

/-! ### Statements -/

structure DocumentRequest where
  newId : String
  ownerId : String
  paperId : String
  sourceType : String
  mappingVersion : String
  sourceCreatedTime : Datetime
  sourceUpdatedTime : Datetime
  deriving DecidableEq

/-- The `candidate` of `register_document`. -/
def DocumentRequest.candidate (r : DocumentRequest) : Except PyError DocumentIdentityV1 :=
  documentCandidate r.newId r.ownerId r.paperId r.sourceType r.mappingVersion r.sourceCreatedTime
    r.sourceUpdatedTime

/-- The parameters of `_register_version`. -/
structure VersionRequest where
  newId : String
  ownerId : String
  documentId : String
  contentSha256 : String
  sourceSnapshotSha256 : String
  parseVersion : String
  now : Timestamp
  deriving DecidableEq

/-- The parameters of `_register_ingestion_job`, but for the version. -/
structure JobRequest where
  newId : String
  ownerId : String
  documentId : String
  idempotencyKey : String
  now : Timestamp
  deriving DecidableEq

/-- `register_document_v1` and the check of the row that it returns. -/
def registerDocumentV1 (db : Database) (candidate : DocumentIdentityV1) :
    Except PyError (Write × DocumentIdentityV1) := do
  ensure (checkDocument candidate) .checkViolation "rag_documents"
  match db.documents.rows.find? fun d =>
      decide (d.ownerId = candidate.ownerId) && decide (d.paperId = candidate.paperId) with
  | some stored => do
    let row := { stored with
      mappingVersion := candidate.mappingVersion
      sourceUpdatedTime := max stored.sourceUpdatedTime candidate.sourceUpdatedTime }
    ensure (decide (row.sourceType = candidate.sourceType)) .identityConflictError
      "owner/paper mapping already exists with a different immutable source_type"
    return (.updateDocument row, row)
  | none =>
    if (db.documents.find? candidate.documentId).isSome
      then .error ⟨.uniqueViolation, "rag_documents_pkey"⟩
    else return (.insertDocument candidate, candidate)

/-- The row that `register_document_version_v1` would insert, for the document in the snapshot of
the statement. -/
def VersionRequest.row? (r : VersionRequest) (snapshot : Database) :
    Option DocumentVersionLifecycleV1 :=
  ((snapshot.documents.find? r.documentId).filter fun d => decide (d.ownerId = r.ownerId)).map
    fun document =>
    registeredVersion document r.newId r.contentSha256 r.sourceSnapshotSha256 r.parseVersion r.now

/-- The `inserted` part of `register_document_version_v1`; a conflict is found in the rows committed
by now. -/
def insertedVersion (snapshot db : Database) (r : VersionRequest) :
    Except PyError (Option DocumentVersionLifecycleV1) :=
  match r.row? snapshot with
  | none => .ok none
  | some row => do
    ensure (checkDocumentVersion row) .checkViolation "rag_document_versions"
    if (db.sourceVersion? r.documentId r.contentSha256 r.sourceSnapshotSha256 r.parseVersion).isSome
      then return none
    else if (db.versions.find? r.newId).isSome
      then .error ⟨.uniqueViolation, "rag_document_versions_pkey"⟩
    else return some row

/-- The version of the owner with the source identity, as a query selects it. -/
def Database.requestedVersion? (db : Database) (r : VersionRequest) :
    Option DocumentVersionLifecycleV1 :=
  (db.sourceVersion? r.documentId r.contentSha256 r.sourceSnapshotSha256 r.parseVersion).filter
    fun v => decide (v.ownerId = r.ownerId)

/-- `register_document_version_v1`: the row that it inserts or finds in its snapshot. -/
def registerDocumentVersionV1 (snapshot db : Database) (r : VersionRequest) :
    Except PyError (List Write × Option DocumentVersionLifecycleV1) := do
  match ← insertedVersion snapshot db r with
  | some row => do
    let version ← row.validate
    return ([.insertVersion row], some version)
  | none =>
    match snapshot.requestedVersion? r with
    | none => return ([], none)
    | some stored => do
      let version ← stored.validate
      return ([], some version)

def getIdempotentDocumentVersionV1 (db : Database) (r : VersionRequest) :
    Except PyError DocumentVersionLifecycleV1 :=
  match db.requestedVersion? r with
  | none =>
    .error ⟨.identityConflictError, "document does not exist in the authenticated owner scope"⟩
  | some stored => stored.validate

/-- The fresh row of `register_ingestion_job_v1`. -/
def JobRequest.row (r : JobRequest) (documentVersionId : String) : IngestionJobV1 :=
  { jobId := r.newId
    ownerId := r.ownerId
    idempotencyKey := r.idempotencyKey
    documentId := r.documentId
    documentVersionId := documentVersionId
    status := .pending
    attemptCount := 0
    createdAt := r.now
    updatedAt := r.now }

/-- `register_ingestion_job_v1` in a transaction with the writes `own`, and the check of the row
that it returns. -/
def registerIngestionJobV1 (db : Database) (own : List Write) (r : JobRequest)
    (documentVersionId : String) : Except PyError (List Write × IngestionJobV1) := do
  let row := r.row documentVersionId
  ensure (checkIngestionJob row) .checkViolation "rag_ingestion_jobs"
  match db.ingestionJobs.rows.find? fun j =>
      decide (j.ownerId = r.ownerId) && decide (j.idempotencyKey = r.idempotencyKey) with
  | some stored => do
    let job ← stored.validate
    ensure (decide (job.documentId = r.documentId) &&
      decide (job.documentVersionId = documentVersionId)) .identityConflictError
        "idempotency key is already bound to a different document version"
    return ([], job)
  | none =>
    if (db.ingestionJobs.find? r.newId).isSome
      then .error ⟨.uniqueViolation, "rag_ingestion_jobs_pkey"⟩
    else do
      ensure ((db.writes own).referencedVersion? documentVersionId r.ownerId r.documentId).isSome
        .foreignKeyViolation "rag_ingestion_jobs_version_owner_fk"
      let job ← row.validate
      return ([.insertJob row], job)

/-! ### Calls -/

inductive RegistrationCall
  | registerDocument (request : DocumentRequest)
  | registerVersion (request : VersionRequest)
  | registerIngestionJob (request : JobRequest) (documentVersionId : String)
  | registerVersionAndIngestionJob (request : VersionRequest) (newJobId idempotencyKey : String)
      (now : Timestamp)
  deriving DecidableEq

namespace RegistrationCall

def document? : RegistrationCall → Option DocumentRequest
  | registerDocument request => some request
  | _ => none

def version? : RegistrationCall → Option VersionRequest
  | registerVersion request | registerVersionAndIngestionJob request _ _ _ => some request
  | _ => none

/-- The job that the call registers in the end. -/
def job? : RegistrationCall → Option JobRequest
  | registerIngestionJob request _ => some request
  | registerVersionAndIngestionJob request newJobId idempotencyKey now =>
    some ⟨newJobId, request.ownerId, request.documentId, idempotencyKey, now⟩
  | _ => none

end RegistrationCall

/-- What a call returns. -/
inductive RegistrationResult
  | document (identity : DocumentIdentityV1)
  | version (version : DocumentVersionLifecycleV1)
  | job (job : IngestionJobV1)
  | versionAndJob (version : DocumentVersionLifecycleV1) (job : IngestionJobV1)
  deriving DecidableEq

namespace RegistrationResult

def document? : RegistrationResult → Option DocumentIdentityV1
  | document identity => some identity
  | _ => none

def version? : RegistrationResult → Option DocumentVersionLifecycleV1
  | version v | versionAndJob v _ => some v
  | _ => none

def job? : RegistrationResult → Option IngestionJobV1
  | job j | versionAndJob _ j => some j
  | _ => none

end RegistrationResult

/-- Where a call is: the statement that comes next, with what the call knows by then. -/
inductive SessionState
  | start
  | registerDocument (candidate : DocumentIdentityV1)
  | registerVersion (request : VersionRequest) (snapshot : Database)
  | getVersion (request : VersionRequest)
  | registerJob (request : JobRequest) (documentVersionId : String)
      (version : Option DocumentVersionLifecycleV1) (writes : List Write)
  | commit (writes : List Write) (result : RegistrationResult)
  | returned (result : RegistrationResult)
  | raised (error : PyError)

namespace SessionState

/-- The writes of the open transaction. -/
def writes : SessionState → List Write
  | registerJob _ _ _ writes | commit writes _ => writes
  | _ => []

def result? : SessionState → Option RegistrationResult
  | returned result => some result
  | _ => none

end SessionState

structure Session where
  call : RegistrationCall
  state : SessionState

namespace Session

/-- `_register_version` returns; with `commit_transaction` the call ends. -/
def versionRegistered (t : Session) (writes : List Write) (version : DocumentVersionLifecycleV1) :
    Session :=
  match t.call.job? with
  | some request =>
    { t with state := .registerJob request version.documentVersionId (some version) writes }
  | none => { t with state := .commit writes (.version version) }

/-- The call raises, and rolls the transaction back. -/
def raise (t : Session) (s : Store) (error : PyError) : Store × Session :=
  (s.release t.state.writes, { t with state := .raised error })

/-- The rows whose unique keys the next statement needs: it inserts a row that passes its CHECKs. -/
def inserts (t : Session) : List Write :=
  match t.state with
  | .registerDocument candidate => if checkDocument candidate
      then [.insertDocument candidate] else []
  | .registerVersion request snapshot =>
    ((request.row? snapshot).filter checkDocumentVersion).toList.map .insertVersion
  | .registerJob request documentVersionId _ _ =>
    if checkIngestionJob (request.row documentVersionId)
      then [.insertJob (request.row documentVersionId)] else []
  | _ => []

/-- The next statement of a call. -/
def proceed (s : Store) (t : Session) : Option (Store × Session) :=
  match t.state with
  | .start =>
    match t.call with
    | .registerDocument request =>
      match request.candidate with
      | .error error => some (t.raise s error)
      | .ok candidate => some (s, { t with state := .registerDocument candidate })
    | .registerVersion request | .registerVersionAndIngestionJob request _ _ _ =>
      some (s, { t with state := .registerVersion request s.db })
    | .registerIngestionJob request documentVersionId =>
      some (s, { t with state := .registerJob request documentVersionId none [] })
  | .registerDocument candidate =>
    match registerDocumentV1 s.db candidate with
    | .error error => some (t.raise s error)
    | .ok (write, row) =>
      some (s.acquire [write], { t with state := .commit [write] (.document row) })
  | .registerVersion request snapshot =>
    match registerDocumentVersionV1 snapshot s.db request with
    | .error error => some (t.raise s error)
    | .ok (writes, some version) => some (s.acquire writes, t.versionRegistered writes version)
    | .ok (_, none) => some (s, { t with state := .getVersion request })
  | .getVersion request =>
    match getIdempotentDocumentVersionV1 s.db request with
    | .error error => some (t.raise s error)
    | .ok version => some (s, t.versionRegistered [] version)
  | .registerJob request documentVersionId version own =>
    match registerIngestionJobV1 s.db own request documentVersionId with
    | .error error => some (t.raise s error)
    | .ok (writes, job) =>
      some (s.acquire writes,
        { t with
          state := .commit (own ++ writes)
            ((version.map (.versionAndJob · job)).getD (.job job)) })
  | .commit writes result => some (s.commit writes, { t with state := .returned result })
  | .returned _ | .raised _ => none

/-- One step of a call: its next statement, unless it has to wait, or an error there. -/
def step (s : Store) (t : Session) : Option PyError → Option (Store × Session)
  | none => if s.blocked (t.inserts.flatMap Write.keys) then none else t.proceed s
  | some error =>
    match t.state with
    | .returned _ | .raised _ => none
    | _ => some (t.raise s error)

def canStart (_ : Pool Store Session) (t : Session) : Bool :=
  match t.state with
  | .start => true
  | _ => false

end Session

/-- The calls of all connections over one database. -/
abbrev registrationStep : Pool Store Session → PoolLabel Session (Option PyError) → Option
    (Pool Store Session) :=
  Pool.step Session.canStart Session.step

/-! ### A call that runs alone -/

variable (db : Database)

theorem registerDocument_eq (r : DocumentRequest) :
    registerDocument db r.newId r.ownerId r.paperId r.sourceType r.mappingVersion
      r.sourceCreatedTime r.sourceUpdatedTime = (do
      let candidate ← r.candidate
      let (write, row) ← registerDocumentV1 db candidate
      return (db.write write, row)) := by
  unfold registerDocument registerDocumentV1 DocumentRequest.candidate
  refine congrArg _ (funext fun candidate => ?_)
  rw [bind_assoc]
  refine congrArg _ (funext fun _ => ?_)
  cases db.documents.rows.find? fun d => decide (d.ownerId = candidate.ownerId) &&
    decide (d.paperId = candidate.paperId) with
  | some stored =>
    dsimp only
    rw [bind_assoc]
    rfl
  | none =>
    dsimp only
    rw [Table.insert?_eq_ite]
    cases (db.documents.find? candidate.documentId).isSome <;> rfl

theorem insertVersion_eq (r : VersionRequest) :
    insertVersion db r.newId r.ownerId r.documentId r.contentSha256 r.sourceSnapshotSha256
      r.parseVersion r.now =
      (do
        return (← insertedVersion db db r).map
          fun row => (db.write (.insertVersion row), row)) := by
  unfold insertVersion insertedVersion VersionRequest.row?
  cases (db.documents.find? r.documentId).filter fun d => decide (d.ownerId = r.ownerId) with
  | none => rfl
  | some document =>
    dsimp only [Option.map_some]
    rw [bind_assoc]
    refine congrArg _ (funext fun _ => ?_)
    have hid : (registeredVersion document r.newId r.contentSha256 r.sourceSnapshotSha256
        r.parseVersion r.now).documentVersionId = r.newId := rfl
    rw [Table.insert?_eq_ite, hid]
    cases (db.sourceVersion? r.documentId r.contentSha256 r.sourceSnapshotSha256
      r.parseVersion).isSome with
    | true => rfl
    | false => cases (db.versions.find? r.newId).isSome <;> rfl

theorem registerVersion_eq (r : VersionRequest) :
    registerVersion db r.newId r.ownerId r.documentId r.contentSha256 r.sourceSnapshotSha256
      r.parseVersion r.now = (do
      match ← registerDocumentVersionV1 db db r with
      | (writes, some version) => return (db.writes writes, version)
      | (_, none) => do
        let version ← getIdempotentDocumentVersionV1 db r
        return (db, version)) := by
  unfold registerVersion registerDocumentVersionV1
  rw [insertVersion_eq, bind_assoc, bind_assoc]
  refine congrArg _ (funext fun inserted => ?_)
  cases inserted with
  | some row =>
    show (row.validate >>= _) = (row.validate >>= _) >>= _
    rw [bind_assoc]
    rfl
  | none =>
    unfold getIdempotentDocumentVersionV1
    show (match db.requestedVersion? r with | none => _ | some stored => _) = _
    cases db.requestedVersion? r with
    | none => rfl
    | some stored =>
      dsimp only
      rw [bind_assoc]
      rfl

theorem registerIngestionJob_eq (r : JobRequest) (documentVersionId : String) :
    registerIngestionJob db r.newId r.ownerId r.documentId documentVersionId r.idempotencyKey
      r.now = (do
      let (writes, job) ← registerIngestionJobV1 db [] r documentVersionId
      return (db.writes writes, job)) := by
  unfold registerIngestionJob registerIngestionJobV1 JobRequest.row
  dsimp only
  rw [bind_assoc]
  refine congrArg _ (funext fun _ => ?_)
  cases db.ingestionJobs.rows.find? fun j => decide (j.ownerId = r.ownerId) &&
    decide (j.idempotencyKey = r.idempotencyKey) with
  | some stored =>
    dsimp only
    rw [bind_assoc]
    refine congrArg _ (funext fun job => ?_)
    rw [bind_assoc]
    rfl
  | none =>
    dsimp only
    rw [Table.insert?_eq_ite]
    cases (db.ingestionJobs.find? r.newId).isSome with
    | true => rfl
    | false =>
      simp only [Bool.false_eq_true, if_false, bind_assoc]
      rfl

end ZhiyanRag.Storage
