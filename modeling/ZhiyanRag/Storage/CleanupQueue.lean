import Mathlib.Data.List.Sort
import ZhiyanRag.Identifiers
import ZhiyanRag.Storage.Schema

/-!
# The cleanup queue

The four repository calls on `rag_index_cleanup_jobs`: idempotent enqueueing for an `INACTIVE`
version, claiming a due job under a lease (after recovering every expired lease), and the two
outcomes of a leased attempt. The queue has no memory but its rows; clock readings and generated
identifiers are arguments.
-/

namespace ZhiyanRag.Storage

open Relational

def CleanupBackend.ofString? : String → Option CleanupBackend
  | "elasticsearch_chunks" => some .elasticsearchChunks
  | "milvus_vectors" => some .milvusVectors
  | "runtime_snapshot" => some .runtimeSnapshot
  | _ => none

/-- The two rows are for the same physical target. -/
def CleanupJobV1.sameTarget (a b : CleanupJobV1) : Bool :=
  decide (a.backend = b.backend) && decide (a.ownerId = b.ownerId) &&
    decide (a.documentId = b.documentId) && decide (a.documentVersionId = b.documentVersionId)

/-! ### Enqueueing -/

/-- The `PENDING` candidate of `enqueue_cleanup`. -/
def cleanupCandidate (newId backend ownerId documentId documentVersionId : String)
    (maxAttempts : Int) (now : Timestamp) : Except PyError CleanupJobV1 := do
  let cleanupId ← coerceContractId "cleanup_id" newId
  match CleanupBackend.ofString? backend with
  | none => .error ⟨.validationError, "backend"⟩
  | some backend => do
    let ownerId ← coerceContractId "owner_id" ownerId
    let documentId ← coerceContractId "document_id" documentId
    let documentVersionId ← coerceContractId "document_version_id" documentVersionId
    CleanupJobV1.validate
      { cleanupId, backend, ownerId, documentId, documentVersionId, maxAttempts
        status := .pending
        attemptCount := 0
        nextAttemptAt := now
        createdAt := now
        updatedAt := now }

/-- `enqueue_index_cleanup_v1`: insert for an `INACTIVE` version, or return the row of the target.
-/
def insertCleanup (db : Database) (candidate : CleanupJobV1) :
    Except PyError (Option (Database × CleanupJobV1)) :=
  match (db.referencedVersion? candidate.documentVersionId candidate.ownerId
    candidate.documentId).filter
      fun v => decide (v.lifecycleStatus = .inactive) with
  | none => .ok none
  | some _ => do
    ensure (checkCleanupJob candidate) .checkViolation "rag_index_cleanup_jobs"
    match db.cleanupJobs.rows.find? candidate.sameTarget with
    | some stored => return some (db, stored)
    | none =>
      match db.cleanupJobs.insert? candidate with
      | none => .error ⟨.uniqueViolation, "rag_index_cleanup_jobs_pkey"⟩
      | some cleanupJobs => return some ({ db with cleanupJobs := cleanupJobs }, candidate)

def enqueueCleanup (db : Database) (newId backend ownerId documentId documentVersionId : String)
    (maxAttempts : Int) (now : Timestamp) : Except PyError (Database × CleanupJobV1) := do
  let candidate ← cleanupCandidate newId backend ownerId documentId documentVersionId
    maxAttempts now
  match ← insertCleanup db candidate with
  | none => .error ⟨.identityConflictError,
      "cleanup requires an INACTIVE version in the authenticated owner scope"⟩
  | some (db, row) => do
    let job ← row.validate
    ensure (job.sameTarget candidate && decide (job.maxAttempts = candidate.maxAttempts))
      .identityConflictError "cleanup identity or retry policy does not match the request"
    return (db, job)

/-! ### Claiming -/

namespace CleanupJobV1

/-- What an attempt that did not succeed leaves behind: another try, or failure for good. -/
def attemptFailed (job : CleanupJobV1) (failureCode : String) (nextAttemptAt now : Timestamp) :
    CleanupJobV1 :=
  { job with
    status := if job.maxAttempts ≤ job.attemptCount then .failed else .retry
    nextAttemptAt := nextAttemptAt
    leaseToken := none
    leaseExpiresAt := none
    failureCode := some failureCode
    updatedAt := now
    completedAt := if job.maxAttempts ≤ job.attemptCount then some now else none }

/-- The job is leased and its lease has run out. -/
def leaseExpired (job : CleanupJobV1) (now : Timestamp) : Bool :=
  decide (job.status = .running) && job.leaseExpiresAt.any fun t => decide (t ≤ now)

/-- One row of `recover_expired_index_cleanup_leases_v1`. -/
def recoverLease (now : Timestamp) (job : CleanupJobV1) : CleanupJobV1 :=
  if job.leaseExpired now then job.attemptFailed "CLEANUP_LEASE_EXPIRED" now now else job

theorem recoverLease_cleanupId (now : Timestamp) (job : CleanupJobV1) :
    (job.recoverLease now).cleanupId = job.cleanupId := by
  unfold recoverLease
  split <;> rfl

def due (now : Timestamp) (job : CleanupJobV1) : Bool :=
  (decide (job.status = .pending) || decide (job.status = .retry)) &&
    decide (job.nextAttemptAt ≤ now)

/-- `ORDER BY next_attempt_at, created_at, cleanup_id`. -/
def claimLe (a b : CleanupJobV1) : Prop :=
  a.nextAttemptAt < b.nextAttemptAt ∨ (a.nextAttemptAt = b.nextAttemptAt ∧
    (a.createdAt < b.createdAt ∨ (a.createdAt = b.createdAt ∧ a.cleanupId ≤ b.cleanupId)))

instance : DecidableRel claimLe := fun a b => by unfold claimLe; infer_instance

/-- The row of `claim_due_index_cleanup_v1`. -/
def claimed (job : CleanupJobV1) (leaseToken : String) (leaseExpiresAt now : Timestamp) :
    CleanupJobV1 :=
  { job with
    status := .running
    attemptCount := job.attemptCount + 1
    leaseToken := some leaseToken
    leaseExpiresAt := some leaseExpiresAt
    failureCode := none
    updatedAt := now
    completedAt := none }

/-- The row of `complete_index_cleanup_v1`. -/
def succeededAt (job : CleanupJobV1) (now : Timestamp) : CleanupJobV1 :=
  { job with
    status := .succeeded
    leaseToken := none
    leaseExpiresAt := none
    failureCode := none
    updatedAt := now
    completedAt := some now }

end CleanupJobV1

/-- The queue after every expired lease has been recovered. -/
def Database.recoverLeases (db : Database) (now : Timestamp) : Database :=
  { db with
    cleanupJobs := db.cleanupJobs.mapRows (CleanupJobV1.recoverLease now)
      (CleanupJobV1.recoverLease_cleanupId now) }

/-- The first due job. -/
def Database.dueCleanup? (db : Database) (now : Timestamp) : Option CleanupJobV1 :=
  ((db.cleanupJobs.rows.filter (CleanupJobV1.due now)).insertionSort CleanupJobV1.claimLe).head?

/-- The inner result is `_cleanup_from_row` on the claimed row: unlike the other calls, this one
commits before it validates. -/
def claimCleanup (db : Database) (newToken : String) (leaseSeconds : Int) (now : Timestamp) :
    Except PyError (Database × Except PyError (Option CleanupJobV1)) := do
  ensure (decide (1 ≤ leaseSeconds)) .valueError "cleanup lease_seconds must be positive"
  let recovered := db.recoverLeases now
  ensure (recovered.cleanupJobs.rows.all checkCleanupJob) .checkViolation "rag_index_cleanup_jobs"
  let leaseExpiresAt := now + 1000000 * leaseSeconds
  ensure (decide (leaseExpiresAt ≤ datetimeMax)) .overflowError "date value out of range"
  match recovered.dueCleanup? now with
  | none => return (recovered, .ok none)
  | some job => do
    let row := job.claimed newToken leaseExpiresAt now
    ensure (checkCleanupJob row) .checkViolation "rag_index_cleanup_jobs"
    return ({ recovered with cleanupJobs := recovered.cleanupJobs.set row }, row.validate.map some)

/-! ### Outcomes -/

/-- The row an outcome may update: `RUNNING` under exactly this token. -/
def Database.leased? (db : Database) (cleanupId leaseToken : String) : Option CleanupJobV1 :=
  (db.cleanupJobs.find? cleanupId).filter fun j =>
    decide (j.status = .running) && decide (j.leaseToken = some leaseToken)

/-- Both outcome statements: update the leased row, or report the lease as stale. -/
def updateLeased (db : Database) (cleanupId leaseToken : String) (f : CleanupJobV1 → CleanupJobV1) :
    Except PyError (Database × CleanupJobV1) :=
  match db.leased? cleanupId leaseToken with
  | none => .error ⟨.identityConflictError, "cleanup lease is stale or does not exist"⟩
  | some stored => do
    ensure (checkCleanupJob (f stored)) .checkViolation "rag_index_cleanup_jobs"
    let job ← (f stored).validate
    return ({ db with cleanupJobs := db.cleanupJobs.set (f stored) }, job)

def completeCleanup (db : Database) (cleanupId leaseToken : String) (now : Timestamp) :
    Except PyError (Database × CleanupJobV1) :=
  updateLeased db cleanupId leaseToken fun job => job.succeededAt now

def recordCleanupFailure (db : Database) (cleanupId leaseToken failureCode : String)
    (retryAt : Datetime) (now : Timestamp) : Except PyError (Database × CleanupJobV1) := do
  ensure (contractIdPattern failureCode) .valueError
    "cleanup failure_code must be a stable contract ID"
  ensure retryAt.hasOffset .valueError "cleanup retry_at must include a timezone"
  updateLeased db cleanupId leaseToken fun job => job.attemptFailed failureCode retryAt.instant now

/-! ### What each call does to the queue -/

theorem Database.leased?_eq_some {db : Database} {cleanupId leaseToken : String}
    {job : CleanupJobV1} :
    db.leased? cleanupId leaseToken = some job ↔ db.cleanupJobs.find? cleanupId = some job ∧
      job.status = .running ∧ job.leaseToken = some leaseToken := by
  simp [Database.leased?, Option.filter_eq_some_iff]

theorem updateLeased_ok {db db' : Database} {cleanupId leaseToken : String}
    {f : CleanupJobV1 → CleanupJobV1} {job : CleanupJobV1}
    (h : updateLeased db cleanupId leaseToken f = .ok (db', job)) :
    ∃ stored, db.leased? cleanupId leaseToken = some stored ∧ job = f stored ∧
      checkCleanupJob (f stored) = true ∧
        db' = { db with cleanupJobs := db.cleanupJobs.set (f stored) } := by
  unfold updateLeased at h
  split at h
  · cases h
  · rename_i stored hstored
    obtain ⟨hcheck, h⟩ := ensure_bind.mp h
    obtain ⟨job', hjob, h⟩ := bind_eq_ok.mp h
    cases pure_eq_ok.mp h
    exact ⟨stored, hstored, (CleanupJobV1.validate_eq_ok.mp hjob).1, hcheck, rfl⟩

theorem cleanupCandidate_ok {newId backend ownerId documentId documentVersionId : String}
    {maxAttempts : Int} {now : Timestamp} {candidate : CleanupJobV1}
    (h : cleanupCandidate newId backend ownerId documentId documentVersionId maxAttempts now =
      .ok candidate) : candidate.Valid ∧ candidate.status = .pending := by
  unfold cleanupCandidate at h
  obtain ⟨cleanupId, -, h⟩ := bind_eq_ok.mp h
  split at h
  · cases h
  obtain ⟨ownerId', -, h⟩ := bind_eq_ok.mp h
  obtain ⟨documentId', -, h⟩ := bind_eq_ok.mp h
  obtain ⟨documentVersionId', -, h⟩ := bind_eq_ok.mp h
  obtain ⟨hc, hvalid⟩ := CleanupJobV1.validate_eq_ok.mp h
  rw [hc]
  exact ⟨hvalid, rfl⟩

theorem CleanupJobV1.sameTarget_iff {a b : CleanupJobV1} : a.sameTarget b = true ↔
    a.backend = b.backend ∧ a.ownerId = b.ownerId ∧ a.documentId = b.documentId ∧
      a.documentVersionId = b.documentVersionId := by
  simp [CleanupJobV1.sameTarget, and_assoc]

theorem insertCleanup_some {db db' : Database} {candidate row : CleanupJobV1}
    (h : insertCleanup db candidate = .ok (some (db', row))) :
    (∃ v, db.referencedVersion? candidate.documentVersionId candidate.ownerId candidate.documentId =
      some v ∧ v.lifecycleStatus = .inactive) ∧
    ((db' = db ∧ row ∈ db.cleanupJobs.rows ∧ candidate.sameTarget row = true) ∨
      ∃ jobs, row = candidate ∧ (∀ r ∈ db.cleanupJobs.rows, candidate.sameTarget r = false) ∧
      db.cleanupJobs.insert? candidate = some jobs ∧ db' = { db with cleanupJobs := jobs }) := by
  unfold insertCleanup at h
  split at h
  · cases h
  rename_i v hv
  obtain ⟨href, hinactive⟩ := Option.filter_eq_some_iff.mp hv
  refine ⟨⟨v, href, by simpa using hinactive⟩, ?_⟩
  obtain ⟨-, h⟩ := ensure_bind.mp h
  split at h
  · rename_i stored hstored
    cases pure_eq_ok.mp h
    exact .inl ⟨rfl, List.mem_of_find?_eq_some hstored, List.find?_some hstored⟩
  · rename_i hnone
    split at h
    · cases h
    rename_i jobs hjobs
    cases pure_eq_ok.mp h
    refine .inr ⟨jobs, rfl, fun r hr => ?_, hjobs, rfl⟩
    simpa using List.find?_eq_none.mp hnone r hr

/-- An enqueued job is a stored row of an `INACTIVE` version: the row of its target, or a fresh one.
-/
theorem enqueueCleanup_ok {db db' : Database}
    {newId backend ownerId documentId documentVersionId : String} {maxAttempts : Int}
    {now : Timestamp} {job : CleanupJobV1}
    (h : enqueueCleanup db newId backend ownerId documentId documentVersionId maxAttempts now =
      .ok (db', job)) :
    (∃ v, db.referencedVersion? job.documentVersionId job.ownerId job.documentId = some v ∧
      v.lifecycleStatus = .inactive) ∧
    ((db' = db ∧ job ∈ db.cleanupJobs.rows) ∨ ∃ jobs, job.Valid ∧ job.status = .pending ∧
      (∀ r ∈ db.cleanupJobs.rows, job.sameTarget r = false) ∧
      db.cleanupJobs.insert? job = some jobs ∧ db' = { db with cleanupJobs := jobs }) := by
  unfold enqueueCleanup at h
  obtain ⟨candidate, hcandidate, h⟩ := bind_eq_ok.mp h
  obtain ⟨r, hinsert, h⟩ := bind_eq_ok.mp h
  cases r with
  | none => cases h
  | some r =>
    obtain ⟨db₁, row⟩ := r
    obtain ⟨row', hrow, h⟩ := bind_eq_ok.mp h
    obtain ⟨hrow', -⟩ := CleanupJobV1.validate_eq_ok.mp hrow
    obtain ⟨-, h⟩ := ensure_bind.mp h
    cases pure_eq_ok.mp h
    subst hrow'
    obtain ⟨hinactive, hcase⟩ := insertCleanup_some hinsert
    rcases hcase with ⟨rfl, hmem, htarget⟩ | ⟨jobs, rfl, hnone, hjobs, rfl⟩
    · obtain ⟨-, howner, hdoc, hversion⟩ := CleanupJobV1.sameTarget_iff.mp htarget
      rw [howner, hdoc, hversion] at hinactive
      exact ⟨hinactive, .inl ⟨rfl, hmem⟩⟩
    · obtain ⟨hvalid, hpending⟩ := cleanupCandidate_ok hcandidate
      exact ⟨hinactive, .inr ⟨jobs, hvalid, hpending, hnone, hjobs, rfl⟩⟩

theorem claimCleanup_ok {db db' : Database} {newToken : String} {leaseSeconds : Int}
    {now : Timestamp} {result : Except PyError (Option CleanupJobV1)}
    (h : claimCleanup db newToken leaseSeconds now = .ok (db', result)) :
    1 ≤ leaseSeconds ∧ now + 1000000 * leaseSeconds ≤ datetimeMax ∧
    ((db.recoverLeases now).dueCleanup? now = none ∧ db' = db.recoverLeases now ∧
      result = .ok none ∨ ∃ job, (db.recoverLeases now).dueCleanup? now = some job ∧
        db' = { db.recoverLeases now with
          cleanupJobs := (db.recoverLeases now).cleanupJobs.set
            (job.claimed newToken (now + 1000000 * leaseSeconds) now) } ∧
        result = (job.claimed newToken (now + 1000000 * leaseSeconds) now).validate.map some) := by
  unfold claimCleanup at h
  obtain ⟨hlease, h⟩ := ensure_bind.mp h
  obtain ⟨-, h⟩ := ensure_bind.mp h
  obtain ⟨hexp, h⟩ := ensure_bind.mp h
  refine ⟨by simpa using hlease, by simpa using hexp, ?_⟩
  split at h
  · rename_i hnone
    cases pure_eq_ok.mp h
    exact .inl ⟨hnone, rfl, rfl⟩
  · rename_i job hjob
    obtain ⟨-, h⟩ := ensure_bind.mp h
    cases pure_eq_ok.mp h
    exact .inr ⟨job, hjob, rfl, rfl⟩

theorem dueCleanup?_some {db : Database} {now : Timestamp} {job : CleanupJobV1}
    (h : db.dueCleanup? now = some job) : job ∈ db.cleanupJobs.rows ∧ job.due now = true := by
  have hmem := List.mem_of_mem_head? h
  rw [List.mem_insertionSort, List.mem_filter] at hmem
  exact hmem

/-! ### Targets -/

/-- The columns of `rag_index_cleanup_jobs_identity_unique`. -/
def CleanupJobV1.target (job : CleanupJobV1) : CleanupBackend × String × String × String :=
  (job.backend, job.ownerId, job.documentId, job.documentVersionId)

theorem CleanupJobV1.sameTarget_iff_target {a b : CleanupJobV1} :
    a.sameTarget b = true ↔ a.target = b.target := by
  rw [sameTarget_iff]
  simp only [target, Prod.mk.injEq]

theorem CleanupJobV1.recoverLease_target (now : Timestamp) (job : CleanupJobV1) :
    (job.recoverLease now).target = job.target := by
  unfold recoverLease
  split <;> rfl

theorem CleanupBackend.ofString?_value (backend : CleanupBackend) :
    CleanupBackend.ofString? backend.value = some backend := by
  cases backend <;> rfl

theorem cleanupCandidate_target {newId ownerId documentId documentVersionId : String}
    {backend : CleanupBackend} {maxAttempts : Int} {now : Timestamp} {candidate : CleanupJobV1}
    (howner : contractIdPattern ownerId = true) (hdocument : contractIdPattern documentId = true)
    (hversion : contractIdPattern documentVersionId = true)
    (h : cleanupCandidate newId backend.value ownerId documentId documentVersionId maxAttempts now =
      .ok candidate) :
    candidate.target = (backend, ownerId, documentId, documentVersionId) := by
  unfold cleanupCandidate at h
  obtain ⟨cleanupId, -, h⟩ := bind_eq_ok.mp h
  rw [CleanupBackend.ofString?_value] at h
  obtain ⟨owner, hcoerce, h⟩ := bind_eq_ok.mp h
  cases (coerceContractId_of_identifier howner).symm.trans hcoerce
  obtain ⟨document, hcoerce, h⟩ := bind_eq_ok.mp h
  cases (coerceContractId_of_identifier hdocument).symm.trans hcoerce
  obtain ⟨version, hcoerce, h⟩ := bind_eq_ok.mp h
  cases (coerceContractId_of_identifier hversion).symm.trans hcoerce
  rw [(CleanupJobV1.validate_eq_ok.mp h).1]
  rfl

/-- The queue has a job of the requested target after the call. -/
theorem enqueueCleanup_target {db db' : Database}
    {newId ownerId documentId documentVersionId : String} {backend : CleanupBackend}
    {maxAttempts : Int} {now : Timestamp} {job : CleanupJobV1}
    (howner : contractIdPattern ownerId = true) (hdocument : contractIdPattern documentId = true)
    (hversion : contractIdPattern documentVersionId = true)
    (h : enqueueCleanup db newId backend.value ownerId documentId documentVersionId maxAttempts
      now = .ok (db', job)) :
    job ∈ db'.cleanupJobs.rows ∧
    job.target = (backend, ownerId, documentId, documentVersionId) := by
  have hmem : job ∈ db'.cleanupJobs.rows := by
    obtain ⟨-, ⟨rfl, hmem⟩ | ⟨jobs, -, -, -, hinsert, rfl⟩⟩ := enqueueCleanup_ok h
    · exact hmem
    · exact Table.mem_rows_of_find? (Table.find?_insert?_self hinsert)
  refine ⟨hmem, ?_⟩
  unfold enqueueCleanup at h
  obtain ⟨candidate, hcandidate, h⟩ := bind_eq_ok.mp h
  obtain ⟨inserted, -, h⟩ := bind_eq_ok.mp h
  cases inserted with
  | none => cases h
  | some inserted =>
    obtain ⟨row, -, h⟩ := bind_eq_ok.mp h
    obtain ⟨hsame, h⟩ := ensure_bind.mp h
    cases pure_eq_ok.mp h
    rw [CleanupJobV1.sameTarget_iff_target.mp ((Bool.and_eq_true _ _).mp hsame).1]
    exact cleanupCandidate_target howner hdocument hversion hcandidate

theorem enqueueCleanup_keeps {db db' : Database}
    {newId backend ownerId documentId documentVersionId : String} {maxAttempts : Int}
    {now : Timestamp}
    {job : CleanupJobV1}
    (h : enqueueCleanup db newId backend ownerId documentId documentVersionId maxAttempts now =
      .ok (db', job)) :
    Table.Keeps CleanupJobV1.target db.cleanupJobs db'.cleanupJobs := by
  obtain ⟨-, ⟨rfl, -⟩ | ⟨jobs, -, -, hnew, hinsert, rfl⟩⟩ := enqueueCleanup_ok h
  · exact .refl _
  · refine .insert hinsert fun r hr heq => ?_
    cases (hnew r hr).symm.trans (CleanupJobV1.sameTarget_iff_target.mpr heq.symm)

theorem claimCleanup_keeps {db db' : Database} {newToken : String} {leaseSeconds : Int}
    {now : Timestamp} {result : Except PyError (Option CleanupJobV1)}
    (h : claimCleanup db newToken leaseSeconds now = .ok (db', result)) :
    Table.Keeps CleanupJobV1.target db.cleanupJobs db'.cleanupJobs := by
  have hrecover :
      Table.Keeps CleanupJobV1.target db.cleanupJobs (db.recoverLeases now).cleanupJobs :=
    .mapRows (CleanupJobV1.recoverLease_cleanupId now) (CleanupJobV1.recoverLease_target now)
  obtain ⟨-, -, ⟨-, rfl, -⟩ | ⟨job, hdue, rfl, -⟩⟩ := claimCleanup_ok h
  · exact hrecover
  · exact hrecover.trans (.set (dueCleanup?_some hdue).1 rfl rfl)

theorem updateLeased_keeps {db db' : Database} {cleanupId leaseToken : String}
    {f : CleanupJobV1 → CleanupJobV1} {job : CleanupJobV1}
    (h : updateLeased db cleanupId leaseToken f = .ok (db', job))
    (hid : ∀ job, (f job).cleanupId = job.cleanupId)
    (htarget : ∀ job, (f job).target = job.target) :
    Table.Keeps CleanupJobV1.target db.cleanupJobs db'.cleanupJobs := by
  obtain ⟨stored, hstored, -, -, rfl⟩ := updateLeased_ok h
  exact .set (Table.mem_rows_of_find? (Database.leased?_eq_some.mp hstored).1) (hid stored).symm
    (htarget stored).symm

end ZhiyanRag.Storage
