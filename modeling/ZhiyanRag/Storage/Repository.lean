import ZhiyanRag.Storage.CleanupQueue
import ZhiyanRag.Storage.Snapshots

/-!
# Runs of the fact repository

`Call` is one call of a writing method of `PostgresFactRepository` with its arguments, its generated
identifiers (`id_factory` yields contract identifiers) and its clock reading. `Database.exec` runs
it as one transaction: it raises, or it returns the committed tables and the list of what was
committed. A `History` is the tables together with everything committed so far; a raised error is a
rollback and leaves it as it was.

`exec_committed` is the inversion lemma: all that one call can do, by the tables it writes.
-/

namespace ZhiyanRag.Storage

open Relational ZhiyanRag.Ingestion

/-- The writing calls. -/
inductive Call (α : Type)
  | registerDocument (newId : ContractId) (ownerId paperId sourceType mappingVersion : String)
      (sourceCreatedTime sourceUpdatedTime : Datetime)
  | registerVersion (newId : ContractId)
      (ownerId documentId contentSha256 sourceSnapshotSha256 parseVersion : String)
      (now : Timestamp)
  | registerIngestionJob (newId : ContractId)
      (ownerId documentId documentVersionId idempotencyKey : String) (now : Timestamp)
  | registerVersionAndIngestionJob (newVersionId newJobId : ContractId)
      (ownerId documentId contentSha256 sourceSnapshotSha256 parseVersion idempotencyKey : String)
      (now : Timestamp)
  | transitionVersion (ownerId documentVersionId : String) (expectedRevision : Int)
      (targetStatus : LifecycleStatus) (updates : List (UpdateKey × UpdateValue α))
      (now : Timestamp)
  | updateIngestionJob (ownerId jobId : String) (status : IngestionJobStatus)
      (failureCode : Option String) (now : Timestamp)
  | recordIndexingFailure (ownerId documentVersionId : String) (expectedRevision : Int)
      (indexStates : UpdateValue α) (jobId failureCode : String) (now : Timestamp)
  | finalizeIndexingSuccess (ownerId documentVersionId : String) (expectedRevision : Int)
      (indexStates : UpdateValue α) (vectorIndexTime : Datetime) (jobId : String) (now : Timestamp)
  | persistRuntimeSnapshot (pdfObject : PdfObjectV1) (chunks : List ChunkRecordV1)
  | purgeInactiveRuntimeSnapshot (ownerId documentVersionId : String)
  | enqueueCleanup (newId : ContractId) (backend ownerId documentId documentVersionId : String)
      (maxAttempts : Int) (now : Timestamp)
  | claimCleanup (newToken : ContractId) (leaseSeconds : Int) (now : Timestamp)
  | completeCleanup (cleanupId leaseToken : String) (now : Timestamp)
  | recordCleanupFailure (cleanupId leaseToken failureCode : String) (retryAt : Datetime)
      (now : Timestamp)

/-- What a transaction committed, as far as a later statement refers to it. -/
inductive Commit
  | registered (version : DocumentVersionLifecycleV1)
  | updated (version : DocumentVersionLifecycleV1)
  | snapshot (pdfObject : PdfObjectV1) (chunks : List ChunkRecordV1) (receipt : RuntimeSnapshotV1)
  | claimed (cleanupId leaseToken : String)
  | succeeded (cleanupId leaseToken : String)
  | failed (cleanupId leaseToken : String)
  | expired (cleanupId leaseToken : String)
  deriving DecidableEq

/-- The leases that a claim at `now` finds expired. -/
def Database.expiredLeases (db : Database) (now : Timestamp) : List Commit :=
  (db.cleanupJobs.rows.filter fun job => job.leaseExpired now).filterMap fun job =>
    job.leaseToken.map fun token => .expired job.cleanupId token

/-- The registration committed by a call that returned `version`: nothing if the row was there. -/
def Database.registration (db : Database) (version : DocumentVersionLifecycleV1) : List Commit :=
  if (db.versions.find? version.documentVersionId).isSome then [] else [.registered version]

section Execution

variable {α : Type} (c : Coercion α) (chunksFingerprint : List ChunkRecordV1 → String)

/-- One call as one transaction. -/
def Database.exec (db : Database) : Call α → Except PyError (Database × List Commit)
  | .registerDocument newId ownerId paperId sourceType mappingVersion created updated => do
    let (db, _) ← registerDocument db newId ownerId paperId sourceType mappingVersion
      created updated
    return (db, [])
  | .registerVersion newId ownerId documentId contentSha256 sourceSnapshotSha256 parseVersion
      now => do
    let (db', version) ← registerVersion db newId ownerId documentId contentSha256
      sourceSnapshotSha256 parseVersion now
    return (db', db.registration version)
  | .registerIngestionJob newId ownerId documentId documentVersionId idempotencyKey now => do
    let (db, _) ← registerIngestionJob db newId ownerId documentId documentVersionId
      idempotencyKey now
    return (db, [])
  | .registerVersionAndIngestionJob newVersionId newJobId ownerId documentId contentSha256
      sourceSnapshotSha256 parseVersion idempotencyKey now => do
    let (db', version, _) ← registerVersionAndIngestionJob db newVersionId newJobId ownerId
      documentId contentSha256 sourceSnapshotSha256 parseVersion idempotencyKey now
    return (db', db.registration version)
  | .transitionVersion ownerId documentVersionId expectedRevision targetStatus updates now => do
    let (db, version) ← transitionVersion c db ownerId documentVersionId expectedRevision
      targetStatus updates now
    return (db, [.updated version])
  | .updateIngestionJob ownerId jobId status failureCode now => do
    let (db, _) ← updateIngestionJob db ownerId jobId status failureCode now
    return (db, [])
  | .recordIndexingFailure ownerId documentVersionId expectedRevision indexStates jobId failureCode
      now => do
    let (db, version, _) ← recordIndexingFailure c db ownerId documentVersionId expectedRevision
      indexStates jobId failureCode now
    return (db, [.updated version])
  | .finalizeIndexingSuccess ownerId documentVersionId expectedRevision indexStates vectorIndexTime
      jobId now => do
    let (db, version, _) ← finalizeIndexingSuccess c db ownerId documentVersionId expectedRevision
      indexStates vectorIndexTime jobId now
    return (db, [.updated version])
  | .persistRuntimeSnapshot pdfObject chunks => do
    let (db, receipt) ← persistRuntimeSnapshot chunksFingerprint db pdfObject chunks
    return (db, [.snapshot pdfObject chunks receipt])
  | .purgeInactiveRuntimeSnapshot ownerId documentVersionId => do
    let db ← purgeInactiveRuntimeSnapshot db ownerId documentVersionId
    return (db, [])
  | .enqueueCleanup newId backend ownerId documentId documentVersionId maxAttempts now => do
    let (db, _) ← enqueueCleanup db newId backend ownerId documentId documentVersionId
      maxAttempts now
    return (db, [])
  | .claimCleanup newToken leaseSeconds now => do
    let (db', _) ← claimCleanup db newToken leaseSeconds now
    return (db', db.expiredLeases now ++
      (((db.recoverLeases now).dueCleanup? now).map fun job => .claimed job.cleanupId
        newToken).toList)
  | .completeCleanup cleanupId leaseToken now => do
    let (db, _) ← completeCleanup db cleanupId leaseToken now
    return (db, [.succeeded cleanupId leaseToken])
  | .recordCleanupFailure cleanupId leaseToken failureCode retryAt now => do
    let (db, _) ← recordCleanupFailure db cleanupId leaseToken failureCode retryAt now
    return (db, [.failed cleanupId leaseToken])

/-- The tables, and everything committed so far. -/
structure History where
  db : Database
  log : List Commit

def History.empty : History := ⟨Database.empty, []⟩

/-- A call commits, or raises and leaves every row unchanged. -/
def History.step (h : History) (call : Call α) : History :=
  match h.db.exec c chunksFingerprint call with
  | .ok (db, log) => ⟨db, h.log ++ log⟩
  | .error _ => h

def History.run (h : History) (calls : List (Call α)) : History :=
  calls.foldl (History.step c chunksFingerprint) h

variable {c chunksFingerprint}

@[simp] theorem History.run_nil (h : History) : h.run c chunksFingerprint [] = h := rfl

theorem History.run_append (h : History) (calls later : List (Call α)) :
    h.run c chunksFingerprint (calls ++ later) =
      (h.run c chunksFingerprint calls).run c chunksFingerprint later :=
  List.foldl_append

theorem History.run_concat (h : History) (calls : List (Call α)) (call : Call α) :
    h.run c chunksFingerprint (calls ++ [call]) =
      (h.run c chunksFingerprint calls).step c chunksFingerprint call :=
  History.run_append h calls [call]

theorem History.step_error {h : History} {call : Call α} {e : PyError}
    (herr : h.db.exec c chunksFingerprint call = .error e) :
    h.step c chunksFingerprint call = h := by
  unfold History.step
  rw [herr]

/-- A predicate that every committed call preserves holds after a run if it held before. -/
theorem History.run_invariant {I : History → Prop}
    (hstep : ∀ (h : History) (call : Call α) (db : Database) (log : List Commit), I h →
      h.db.exec c chunksFingerprint call = .ok (db, log) → I ⟨db, h.log ++ log⟩)
    {h : History} (hI : I h) (calls : List (Call α)) : I (h.run c chunksFingerprint calls) := by
  refine List.foldlRecOn calls _ hI fun h' hI' call _ => ?_
  unfold History.step
  split
  · rename_i db log hexec
    exact hstep h' call db log hI' hexec
  · exact hI'

end Execution

/-! ### All that a call can do -/

/-- The status a call asks for, if it updates a version. -/
def Call.target? {α : Type} : Call α → Option LifecycleStatus
  | .transitionVersion _ _ _ targetStatus _ _ => some targetStatus
  | .recordIndexingFailure .. => some .processing
  | .finalizeIndexingSuccess .. => some .ready
  | _ => none

/-- The call left the snapshot tables and the queue alone. -/
def Database.SameRuntime (db db' : Database) : Prop :=
  db'.pdfObjects = db.pdfObjects ∧ db'.chunks = db.chunks ∧ db'.cleanupJobs = db.cleanupJobs

/-- What a committed call did, by the tables it wrote. -/
inductive Committed {α : Type} (chunksFingerprint : List ChunkRecordV1 → String) (call : Call α)
    (db db' : Database) : List Commit → Prop
  | bookkeeping : db'.versions = db.versions → db.SameRuntime db' →
      Committed chunksFingerprint call db db' []
  | registered (v : DocumentVersionLifecycleV1) : v.Valid → v.lifecycleRevision = 1 →
      v.lifecycleStatus = .registered → db.versions.insert? v = some db'.versions →
      db.SameRuntime db' →
      Committed chunksFingerprint call db db' [.registered v]
  | updated (old new : DocumentVersionLifecycleV1) : call.target? = some new.lifecycleStatus →
      old ∈ db.versions.rows → VersionUpdate old new → db.oneActive new = true →
      db'.versions = db.versions.set new → db.SameRuntime db' →
      Committed chunksFingerprint call db db' [.updated new]
  | snapshot (pdf : PdfObjectV1) (chunks : List ChunkRecordV1) (receipt : RuntimeSnapshotV1) :
      call = .persistRuntimeSnapshot pdf chunks →
      persistRuntimeSnapshot chunksFingerprint db pdf chunks = .ok (db', receipt) →
      Committed chunksFingerprint call db db' [.snapshot pdf chunks receipt]
  | purged (ownerId documentVersionId : String) :
      call = .purgeInactiveRuntimeSnapshot ownerId documentVersionId →
      purgeInactiveRuntimeSnapshot db ownerId documentVersionId = .ok db' →
      Committed chunksFingerprint call db db' []
  | enqueued (job : CleanupJobV1) (cleanupJobs : Table CleanupJobV1.cleanupId) :
      (∃ v, db.referencedVersion? job.documentVersionId job.ownerId job.documentId = some v ∧
        v.lifecycleStatus = .inactive) → job.Valid →
      job.status = .pending → db.cleanupJobs.insert? job = some cleanupJobs →
      db' = { db with cleanupJobs := cleanupJobs } → Committed chunksFingerprint call db db' []
  | claimed (newToken : ContractId) (leaseSeconds : Int) (now : Timestamp)
      (result : Except PyError (Option CleanupJobV1)) :
      call = .claimCleanup newToken leaseSeconds now →
      claimCleanup db newToken leaseSeconds now = .ok (db', result) →
      Committed chunksFingerprint call db db' (db.expiredLeases now ++
        (((db.recoverLeases now).dueCleanup? now).map fun job => .claimed job.cleanupId
          newToken).toList)
  | succeeded (job : CleanupJobV1) (leaseToken : String) (now : Timestamp) :
      call = .completeCleanup job.cleanupId leaseToken now →
      db.leased? job.cleanupId leaseToken = some job →
      db' = { db with cleanupJobs := db.cleanupJobs.set (job.succeededAt now) } →
      Committed chunksFingerprint call db db' [.succeeded job.cleanupId leaseToken]
  | failed (job : CleanupJobV1) (leaseToken failureCode : String) (retryAt now : Timestamp) :
      contractIdPattern failureCode = true → db.leased? job.cleanupId leaseToken = some job →
      db' = { db with
        cleanupJobs := db.cleanupJobs.set (job.attemptFailed failureCode retryAt now) } →
      Committed chunksFingerprint call db db' [.failed job.cleanupId leaseToken]

section Inversion

variable {α : Type} {c : Coercion α} {chunksFingerprint : List ChunkRecordV1 → String}

theorem registerVersion_committed {call : Call α} {db db₁ db' : Database}
    {newId ownerId documentId content source parse : String} {now : Timestamp}
    {v : DocumentVersionLifecycleV1}
    (h : registerVersion db newId ownerId documentId content source parse now = .ok (db₁, v))
    (hversions : db'.versions = db₁.versions) (hsame : db₁.SameRuntime db') :
    Committed chunksFingerprint call db db' (db.registration v) := by
  obtain ⟨hvalid, -, -, hmem, rfl | ⟨document, versions, rfl, hinsert, rfl⟩⟩ := registerVersion_ok h
  · have hlog : db₁.registration v = [] := by
      unfold Database.registration
      rw [Table.find?_key_of_mem hmem]
      rfl
    rw [hlog]
    exact .bookkeeping hversions hsame
  · have hlog : db.registration (registeredVersion document newId content source parse now) =
        [.registered (registeredVersion document newId content source parse now)] := by
      unfold Database.registration
      rw [(Table.insert?_eq_some_iff.mp hinsert).1]
      rfl
    rw [hlog]
    exact .registered _ hvalid rfl rfl (by rw [hversions]; exact hinsert) hsame

theorem transitionVersion_committed {call : Call α} {db db₁ db' : Database}
    {ownerId documentVersionId : String} {expectedRevision : Int} {targetStatus : LifecycleStatus}
    {updates : List (UpdateKey × UpdateValue α)} {now : Timestamp}
    {new : DocumentVersionLifecycleV1}
    (h : transitionVersion c db ownerId documentVersionId expectedRevision targetStatus
      updates now = .ok (db₁, new)) (htarget : call.target? = some targetStatus)
    (hversions : db'.versions = db₁.versions) (hsame : db₁.SameRuntime db') :
    Committed chunksFingerprint call db db' [.updated new] := by
  obtain ⟨old, hold, -, hupdate, hactive, rfl, patched, -, rfl⟩ := transitionVersion_ok h
  have hmem := Table.mem_rows_of_find? (Database.ownedVersion?_eq_some.mp hold).1
  exact .updated old _ htarget hmem hupdate hactive hversions hsame

theorem exec_committed {db db' : Database} {call : Call α} {log : List Commit}
    (h : db.exec c chunksFingerprint call = .ok (db', log)) :
    Committed chunksFingerprint call db db' log := by
  cases call with
  | registerDocument =>
    obtain ⟨⟨db₁, d⟩, hcall, hret⟩ := bind_eq_ok.mp h
    cases pure_eq_ok.mp hret
    obtain ⟨documents, rfl⟩ := registerDocument_ok hcall
    exact .bookkeeping rfl ⟨rfl, rfl, rfl⟩
  | registerVersion =>
    obtain ⟨⟨db₁, v⟩, hcall, hret⟩ := bind_eq_ok.mp h
    cases pure_eq_ok.mp hret
    exact registerVersion_committed hcall rfl ⟨rfl, rfl, rfl⟩
  | registerIngestionJob =>
    obtain ⟨⟨db₁, job⟩, hcall, hret⟩ := bind_eq_ok.mp h
    cases pure_eq_ok.mp hret
    obtain ⟨jobs, rfl⟩ := registerIngestionJob_ok hcall
    exact .bookkeeping rfl ⟨rfl, rfl, rfl⟩
  | registerVersionAndIngestionJob =>
    obtain ⟨⟨db₁, v, job⟩, hcall, hret⟩ := bind_eq_ok.mp h
    cases pure_eq_ok.mp hret
    obtain ⟨db₂, jobs, hversion, rfl⟩ := registerVersionAndIngestionJob_ok hcall
    exact registerVersion_committed hversion rfl ⟨rfl, rfl, rfl⟩
  | transitionVersion =>
    obtain ⟨⟨db₁, v⟩, hcall, hret⟩ := bind_eq_ok.mp h
    cases pure_eq_ok.mp hret
    exact transitionVersion_committed hcall rfl rfl ⟨rfl, rfl, rfl⟩
  | updateIngestionJob =>
    obtain ⟨⟨db₁, job⟩, hcall, hret⟩ := bind_eq_ok.mp h
    cases pure_eq_ok.mp hret
    obtain ⟨rfl, -⟩ := updateIngestionJob_ok hcall
    exact .bookkeeping rfl ⟨rfl, rfl, rfl⟩
  | recordIndexingFailure =>
    obtain ⟨⟨db₁, v, job⟩, hcall, hret⟩ := bind_eq_ok.mp h
    cases pure_eq_ok.mp hret
    obtain ⟨db₂, hversion, hjob, -⟩ := recordIndexingFailure_ok hcall
    obtain ⟨rfl, -⟩ := updateIngestionJob_ok hjob
    exact transitionVersion_committed hversion rfl rfl ⟨rfl, rfl, rfl⟩
  | finalizeIndexingSuccess =>
    obtain ⟨⟨db₁, v, job⟩, hcall, hret⟩ := bind_eq_ok.mp h
    cases pure_eq_ok.mp hret
    obtain ⟨db₂, hversion, hjob, -⟩ := finalizeIndexingSuccess_ok hcall
    obtain ⟨rfl, -⟩ := updateIngestionJob_ok hjob
    exact transitionVersion_committed hversion rfl rfl ⟨rfl, rfl, rfl⟩
  | persistRuntimeSnapshot pdf chunks =>
    obtain ⟨⟨db₁, receipt⟩, hcall, hret⟩ := bind_eq_ok.mp h
    cases pure_eq_ok.mp hret
    exact .snapshot pdf chunks receipt rfl hcall
  | purgeInactiveRuntimeSnapshot ownerId documentVersionId =>
    obtain ⟨db₁, hcall, hret⟩ := bind_eq_ok.mp h
    cases pure_eq_ok.mp hret
    exact .purged ownerId documentVersionId rfl hcall
  | enqueueCleanup =>
    obtain ⟨⟨db₁, job⟩, hcall, hret⟩ := bind_eq_ok.mp h
    cases pure_eq_ok.mp hret
    obtain ⟨hinactive, ⟨rfl, -⟩ | ⟨jobs, hvalid, hpending, -, hinsert, hdb⟩⟩ :=
      enqueueCleanup_ok hcall
    · exact .bookkeeping rfl ⟨rfl, rfl, rfl⟩
    · exact .enqueued job jobs hinactive hvalid hpending hinsert hdb
  | claimCleanup newToken leaseSeconds now =>
    obtain ⟨⟨db₁, result⟩, hcall, hret⟩ := bind_eq_ok.mp h
    cases pure_eq_ok.mp hret
    exact .claimed newToken leaseSeconds now result rfl hcall
  | completeCleanup cleanupId leaseToken now =>
    obtain ⟨⟨db₁, job⟩, hcall, hret⟩ := bind_eq_ok.mp h
    cases pure_eq_ok.mp hret
    obtain ⟨stored, hstored, -, -, hdb⟩ := updateLeased_ok hcall
    cases Table.key_of_find? (Database.leased?_eq_some.mp hstored).1
    exact .succeeded stored leaseToken now rfl hstored hdb
  | recordCleanupFailure cleanupId leaseToken failureCode retryAt now =>
    obtain ⟨⟨db₁, job⟩, hcall, hret⟩ := bind_eq_ok.mp h
    cases pure_eq_ok.mp hret
    obtain ⟨hcode, hcall⟩ := ensure_bind.mp hcall
    obtain ⟨-, hcall⟩ := ensure_bind.mp hcall
    obtain ⟨stored, hstored, -, -, hdb⟩ := updateLeased_ok hcall
    cases Table.key_of_find? (Database.leased?_eq_some.mp hstored).1
    exact .failed stored leaseToken failureCode _ now hcode hstored hdb

/-- A committed snapshot leaves every table but its own alone. -/
theorem persistRuntimeSnapshot_frame {db db' : Database} {pdf : PdfObjectV1}
    {chunks : List ChunkRecordV1} {receipt : RuntimeSnapshotV1}
    (h : persistRuntimeSnapshot chunksFingerprint db pdf chunks = .ok (db', receipt)) :
    db'.versions = db.versions ∧ db'.cleanupJobs = db.cleanupJobs := by
  obtain ⟨-, -, -, -, -, pdfDb, -, newChunks, -, hpdf, -, -, rfl, -⟩ := persistRuntimeSnapshot_ok h
  rcases insertPdfObject_ok hpdf with ⟨rfl, -⟩ | ⟨pdfObjects, -, rfl⟩
  · exact ⟨rfl, rfl⟩
  · exact ⟨rfl, rfl⟩

/-- A claim writes the queue only. -/
theorem claimCleanup_frame {db db' : Database} {newToken : String} {leaseSeconds : Int}
    {now : Timestamp} {result : Except PyError (Option CleanupJobV1)}
    (h : claimCleanup db newToken leaseSeconds now = .ok (db', result)) :
    ∃ cleanupJobs, db' = { db with cleanupJobs := cleanupJobs } := by
  obtain ⟨-, -, ⟨-, rfl, -⟩ | ⟨job, -, rfl, -⟩⟩ := claimCleanup_ok h
  · exact ⟨_, rfl⟩
  · exact ⟨_, rfl⟩

/-- The version rows stay, or a fresh row is inserted, or one row is updated. -/
inductive VersionEffect (db db' : Database) (log : List Commit) : Prop
  | same : db'.versions = db.versions → (∀ v, .registered v ∉ log ∧ .updated v ∉ log) →
      VersionEffect db db' log
  | registered (v : DocumentVersionLifecycleV1) : v.Valid → v.lifecycleRevision = 1 →
      v.lifecycleStatus = .registered → db.versions.insert? v = some db'.versions →
      log = [.registered v] → VersionEffect db db' log
  | updated (old new : DocumentVersionLifecycleV1) : old ∈ db.versions.rows →
      VersionUpdate old new → db.oneActive new = true → db'.versions = db.versions.set new →
      log = [.updated new] → VersionEffect db db' log

/-- All that one call can do to the version rows. -/
theorem exec_versions {db db' : Database} {call : Call α} {log : List Commit}
    (h : db.exec c chunksFingerprint call = .ok (db', log)) : VersionEffect db db' log := by
  cases exec_committed h with
  | bookkeeping hversions _ => exact .same hversions fun v => ⟨by simp, by simp⟩
  | registered v hvalid hrev hstatus hinsert _ =>
    exact .registered v hvalid hrev hstatus hinsert rfl
  | updated old new _ hmem hupdate hactive hset _ =>
    exact .updated old new hmem hupdate hactive hset rfl
  | snapshot pdf chunks receipt _ hcall =>
    exact .same (persistRuntimeSnapshot_frame hcall).1 fun v => ⟨by simp, by simp⟩
  | purged ownerId documentVersionId _ hcall =>
    obtain ⟨-, rfl⟩ := purgeInactiveRuntimeSnapshot_ok hcall
    exact .same rfl fun v => ⟨by simp, by simp⟩
  | enqueued job jobs _ _ _ _ hdb =>
    subst hdb
    exact .same rfl fun v => ⟨by simp, by simp⟩
  | claimed newToken leaseSeconds now result _ hcall =>
    obtain ⟨jobs, rfl⟩ := claimCleanup_frame hcall
    exact .same rfl fun v => by simp [Database.expiredLeases]
  | succeeded job leaseToken now _ _ hdb =>
    subst hdb
    exact .same rfl fun v => ⟨by simp, by simp⟩
  | failed job leaseToken failureCode retryAt now _ _ hdb =>
    subst hdb
    exact .same rfl fun v => ⟨by simp, by simp⟩

end Inversion

end ZhiyanRag.Storage
