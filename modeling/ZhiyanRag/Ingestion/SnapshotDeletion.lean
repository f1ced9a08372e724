import ZhiyanRag.Ingestion.SnapshotEffects

/-!
# Deletion of the runtime snapshot

A `SUCCEEDED` cleanup job of the runtime snapshot promises that the version's PDF file and its rows
are gone. The file is found through its row, so the cleaner misses a file that has no row yet, or
never gets one because the snapshot could not be persisted. `SnapshotsBeforeDeletion` excludes this,
and the writes of a preparation that goes on after the deletion.
-/

namespace ZhiyanRag.Ingestion

open Relational ZhiyanRag.Storage Steps

/-! ### The guard -/

/-- The job purges the version's runtime snapshot. -/
def CleanupJobV1.purges (job : CleanupJobV1) (documentVersionId : String) : Bool :=
  decide (job.backend = .runtimeSnapshot) && decide (job.documentVersionId = documentVersionId)

/-- The worker has deleted the version's file and holds the lease. -/
def Thread.unlinked (w : World) (documentVersionId : String) : Thread → Bool
  | worker _ (.purge leased _) | worker _ (.complete leased _) =>
    CleanupJobV1.purges leased.job documentVersionId && w.holds leased
  | _ => false

/-- The worker has purged the version's rows as well. -/
def Thread.purged (w : World) (documentVersionId : String) : Thread → Bool
  | worker _ (.complete leased _) => CleanupJobV1.purges leased.job documentVersionId &&
      w.holds leased
  | _ => false

/-- A cleanup job has `SUCCEEDED` for the version's runtime snapshot. -/
def World.reportsPurged (w : World) (documentVersionId : String) : Bool :=
  w.db.cleanupJobs.rows.any fun job => decide (job.status = .succeeded) &&
    CleanupJobV1.purges job documentVersionId

/-- No file was written for the version, as far as its key tells. -/
def World.unwritten (services : Services) (w : World) (documentVersionId : String) : Bool :=
  (w.db.versions.find? documentVersionId).all fun v =>
    (w.objects (versionKey services v)).all fun file => decide (file.writtenFor ≠ documentVersionId)

/-- A PDF is written for a version only before a cleaner unlinks its file, a snapshot is persisted
only before a cleaner purges its rows, and a cleaner that finds no registration finds no file
either. -/
def SnapshotsBeforeDeletion (services : Services) (p : Pool World Thread) :
    PoolLabel Thread Choice → Bool
  | .spawn _ => true
  | .act i choice => choice.fails || match p.threads[i]? with
    | some (.preparer _ (.putPdf preparation)) =>
      !p.world.reportsPurged preparation.version.documentVersionId &&
        p.threads.all fun t => !t.unlinked p.world preparation.version.documentVersionId
    | some (.preparer _ (.persistSnapshot _ pdf)) => !p.world.reportsPurged pdf.documentVersionId &&
        p.threads.all fun t => !t.purged p.world pdf.documentVersionId
    | some (.worker _ (.lookup leased)) => !p.world.holds leased ||
        (getInactivePdfObject p.world.db leased.job.ownerId leased.job.documentVersionId).isSome ||
        p.world.unwritten services leased.job.documentVersionId
    | _ => true

/-! ### What the threads know -/

section Steps

variable {services : Services} {w w' : World} {choice : Choice} {thread thread' : Thread}

/-- What a worker knows of the snapshot it deletes: the registration is the version's; while the
lease is current, the file is gone, and in the end the rows are. -/
def WorkerState.Handles (services : Services) (w : World) : WorkerState → Prop
  | deletePdf leased pdf => w.Registered services pdf ∧
      pdf.documentVersionId = leased.job.documentVersionId
  | purge leased _ => w.holds leased = true → w.NoFile leased.job.documentVersionId
  | complete leased _ => leased.job.backend = .runtimeSnapshot → w.holds leased = true →
      w.Purged leased.job.documentVersionId
  | _ => True

/-- A preparation persists the registration of its version. -/
def PreparerState.Handles (services : Services) (w : World) : PreparerState → Prop
  | persistSnapshot _ pdf => w.Registered services pdf
  | _ => True

def Thread.Handles (services : Services) (w : World) : Thread → Prop
  | preparer _ state => state.Handles services w
  | worker _ state => state.Handles services w
  | _ => True

/-- The stores are sound, and the snapshot of a `SUCCEEDED` job is purged. -/
structure PurgedSnapshots (services : Services) (w : World) : Prop where
  sound : w.SnapshotSound services
  purged : ∀ vid, w.reportsPurged vid = true → w.Purged vid

/-- What a thread knows of the version it prepares, or of the snapshot it deletes. -/
structure HandlesSnapshot (services : Services) (w : World) (t : Thread) : Prop where
  sees : ∀ v, t.version? = some v → w.Sees v
  leased : ∀ leased, t.leased? = some leased → w.Leased leased
  agrees : t.Matches
  handles : t.Handles services w

def snapshotAssertions (services : Services) : Assertions World Thread where
  world := PurgedSnapshots services
  thread := HandlesSnapshot services
  pair _ _ _ := True

theorem purges_iff {job : CleanupJobV1} {vid : String} : CleanupJobV1.purges job vid = true ↔
    job.backend = .runtimeSnapshot ∧ job.documentVersionId = vid := by
  simp [CleanupJobV1.purges]

theorem purged_iff {t : Thread} {vid : String} : t.purged w vid = true ↔ ∃ settings leased existed,
    t = .worker settings (.complete leased existed) ∧ leased.job.backend = .runtimeSnapshot ∧
      leased.job.documentVersionId = vid ∧ w.holds leased = true := by
  constructor
  · intro h
    unfold Thread.purged at h
    split at h
    · rename_i settings leased existed
      obtain ⟨hpurges, hholds⟩ := (Bool.and_eq_true _ _).mp h
      obtain ⟨hbackend, hvid⟩ := purges_iff.mp hpurges
      exact ⟨settings, leased, existed, rfl, hbackend, hvid, hholds⟩
    · cases h
  · rintro ⟨settings, leased, existed, rfl, hbackend, hvid, hholds⟩
    exact (Bool.and_eq_true _ _).mpr ⟨purges_iff.mpr ⟨hbackend, hvid⟩, hholds⟩

theorem unlinked_cases {t : Thread} {vid : String} (h : t.unlinked w vid = true) :
    t.purged w vid = true ∨ ∃ settings leased existed,
      t = .worker settings (.purge leased existed) ∧ leased.job.documentVersionId = vid ∧
      w.holds leased = true := by
  unfold Thread.unlinked at h
  split at h
  · rename_i settings leased existed
    obtain ⟨hpurges, hholds⟩ := (Bool.and_eq_true _ _).mp h
    exact .inr ⟨settings, leased, existed, rfl, (purges_iff.mp hpurges).2, hholds⟩
  · exact .inl h
  · cases h

theorem unlinked_of_purged {t : Thread} {vid : String} (h : t.purged w vid = true) :
    t.unlinked w vid = true := by
  obtain ⟨settings, leased, existed, rfl, -, -, -⟩ := purged_iff.mp h
  exact h

namespace HandlesSnapshot

variable {t : Thread} {vid : String}

theorem purged (h : HandlesSnapshot services w t) (hpurged : t.purged w vid = true) :
    w.Purged vid := by
  obtain ⟨settings, leased, existed, rfl, hbackend, rfl, hholds⟩ := purged_iff.mp hpurged
  exact h.handles hbackend hholds

theorem unlinked (h : HandlesSnapshot services w t) (hunlinked : t.unlinked w vid = true) :
    w.NoFile vid := by
  rcases unlinked_cases hunlinked with hpurged | ⟨settings, leased, existed, rfl, rfl, hholds⟩
  · exact (h.purged hpurged).file
  · exact h.handles hholds

end HandlesSnapshot

/-! ### The guard at work -/

section Guarded

variable {p : Pool World Thread} {i : Nat} {pending : Pending Thread}
  {outcome : Except PyError pending.operation.Result} {vid : String}

/-- No file is put for a version that a cleaner has unlinked or a job reports as purged. -/
theorem guard_put (hguard : SnapshotsBeforeDeletion services p (.act i choice) = true)
    (hi : p.threads[i]? = some thread) (hnext : thread.next services choice = some pending)
    (hdone : p.world.reportsPurged vid = true ∨
      ∃ (j : Nat) (t : Thread), p.threads[j]? = some t ∧ t.unlinked p.world vid = true)
    (pdfBytes : List UInt8) (ownerId documentId contentSha256 : String) (now : Timestamp)
    (hfails : choice.fails = false) :
    pending.operation ≠ .putPdf pdfBytes ownerId documentId vid contentSha256 now := by
  intro hput
  obtain ⟨request, preparation, rfl, -, -, rfl, -⟩ := next_puts hnext hput
  simp only [SnapshotsBeforeDeletion, hi, hfails, Bool.false_or, Bool.and_eq_true, List.all_eq_true,
    Bool.not_eq_true'] at hguard
  rcases hdone with hreported | ⟨j, t, hj, hunlinked⟩
  · rw [hguard.1] at hreported
    cases hreported
  · rw [hguard.2 t (List.mem_of_getElem? hj)] at hunlinked
    cases hunlinked

/-- No snapshot is persisted for a version that a cleaner or a job reports as purged. -/
theorem guard_persist (hguard : SnapshotsBeforeDeletion services p (.act i choice) = true)
    (hi : p.threads[i]? = some thread) (hnext : thread.next services choice = some pending)
    (hdone : p.world.reportsPurged vid = true ∨
      ∃ (j : Nat) (t : Thread), p.threads[j]? = some t ∧ t.purged p.world vid = true)
    (pdf : PdfObjectV1) (chunks : List ChunkRecordV1) (hfails : choice.fails = false)
    (hpersist : pending.operation = .repository (.persistRuntimeSnapshot pdf chunks)) :
    pdf.documentVersionId ≠ vid := by
  rintro rfl
  obtain ⟨request, preparation, rfl, -⟩ := next_persists hnext hpersist
  simp only [SnapshotsBeforeDeletion, hi, hfails, Bool.false_or, Bool.and_eq_true, List.all_eq_true,
    Bool.not_eq_true'] at hguard
  rcases hdone with hreported | ⟨j, t, hj, hpurged⟩
  · rw [hguard.1] at hreported
    cases hreported
  · rw [hguard.2 t (List.mem_of_getElem? hj)] at hpurged
    cases hpurged

theorem stays_purged (hguard : SnapshotsBeforeDeletion services p (.act i choice) = true)
    (hi : p.threads[i]? = some thread) (hnext : thread.next services choice = some pending)
    (hout : Outcome services p.world w' choice pending.operation outcome)
    (hpurged : p.world.Purged vid)
    (hdone : p.world.reportsPurged vid = true ∨
      ∃ (j : Nat) (t : Thread), p.threads[j]? = some t ∧ t.purged p.world vid = true) : w'.Purged
        vid := by
  refine hpurged.step hout (guard_put hguard hi hnext ?_) (guard_persist hguard hi hnext hdone)
  exact hdone.imp_right fun ⟨j, t, hj, h⟩ => ⟨j, t, hj, unlinked_of_purged h⟩

theorem reportsPurged_iff : w.reportsPurged vid = true ↔ ∃ job ∈ w.db.cleanupJobs.rows,
    job.status = .succeeded ∧ job.backend = .runtimeSnapshot ∧ job.documentVersionId = vid := by
  simp [World.reportsPurged, CleanupJobV1.purges]

/-- A step keeps the snapshots of `SUCCEEDED` jobs purged. -/
theorem step_purged (hp : PurgedSnapshots services p.world)
    (ht : HandlesSnapshot services p.world thread)
    (hguard : SnapshotsBeforeDeletion services p (.act i choice) = true)
    (hi : p.threads[i]? = some thread)
    (hnext : thread.next services choice = some pending)
    (hout : Outcome services p.world w' choice pending.operation outcome)
    (hreported : w'.reportsPurged vid = true) :
    w'.Purged vid := by
  obtain ⟨job', hjob', hs, hbackend, hvid⟩ := reportsPurged_iff.mp hreported
  rcases hout.job_before hp.sound.queue (Table.find?_key_of_mem hjob')
    with ⟨job, hjob, hmove⟩ | ⟨hpending, -⟩
  · have hmem := Table.mem_rows_of_find? hjob
    obtain ⟨htarget, -, -, hsameVid⟩ := CleanupJobV1.sameTarget_iff.mp hmove.target
    rw [htarget] at hbackend
    rw [hsameVid] at hvid
    rcases hmove.succeeded hs with hsucceeded | ⟨token, now, hcall, hlease⟩
    · have hbefore := reportsPurged_iff.mpr ⟨job, hmem, hsucceeded, hbackend, hvid⟩
      exact stays_purged hguard hi hnext hout (hp.purged vid hbefore) (.inl hbefore)
    · -- the completing worker holds the lease, so it has purged the snapshot
      obtain ⟨settings, leased, existed, rfl, hid, rfl⟩ := next_completes hnext hcall
      have hfind : p.world.db.cleanupJobs.find? leased.job.cleanupId = some job := by
        rw [← hid, ← hmove.cleanupId]
        exact hjob
      obtain ⟨stored, hstored, hsame⟩ := (ht.leased leased rfl).stored
      cases hfind.symm.trans hstored
      obtain ⟨hb, -, -, hv⟩ := CleanupJobV1.sameTarget_iff.mp hsame
      have hpurged :
          (Thread.worker settings (.complete leased existed)).purged p.world vid = true :=
        purged_iff.mpr ⟨settings, leased, existed, rfl, hb.symm.trans hbackend, hv.symm.trans hvid,
          World.holds_iff.mpr ⟨job, hfind, hlease⟩⟩
      exact stays_purged hguard hi hnext hout (ht.purged hpurged) (.inr ⟨i, _, hi, hpurged⟩)
  · rw [hpending] at hs
    cases hs

end Guarded

/-- The writes of a thread are for stored versions. -/
theorem step_sound (hw : w.SnapshotSound services) (ht : HandlesSnapshot services w thread)
    {pending : Pending Thread} {outcome : Except PyError pending.operation.Result}
    (hnext : thread.next services choice = some pending)
    (hout : Outcome services w w' choice pending.operation outcome) :
    w'.SnapshotSound services := by
  refine hw.step hout (fun pdfBytes ownerId documentId vid contentSha256 now hput => ?_)
    fun pdf chunks hpersist => ?_
  · obtain ⟨request, preparation, rfl, rfl, rfl, rfl, rfl⟩ := next_puts hnext hput
    obtain ⟨v, hv, hsame⟩ := ht.sees preparation.version rfl
    exact ⟨v, hv, (versionKey_later hsame).symm⟩
  · obtain ⟨request, preparation, rfl, -⟩ := next_persists hnext hpersist
    exact ht.handles

/-- A preparation hands the registration of its version on to the fact source. -/
theorem preparer_handles {request : PreparationRequest} {state : PreparerState}
    {pending : Pending PreparerState} {outcome : Except PyError pending.operation.Result}
    (hnext : state.next services request choice = some pending)
    (hsees : ∀ v, state.version? = some v → w.Sees v)
    (hout : Outcome services w w' choice pending.operation outcome) :
    (pending.resume outcome).Handles services w' := by
  have hraise : ∀ {α : Type} (f : α → PreparerState) (x : Except PyError α),
      (∀ a, (f a).Handles services w') → (orRaise f x).Handles services w' := by
    intro α f x hf
    cases x with
    | ok a => exact hf a
    | error e => trivial
  have hprepared : ∀ preparation, (request.prepared preparation).Handles services w' := by
    intro preparation
    unfold PreparationRequest.prepared
    split
    · trivial
    · split <;> trivial
  have hstart : ∀ identity version job,
      (PreparationRequest.startOrResumeProcessing identity version job).Handles services w' := by
    intro identity version job
    unfold PreparationRequest.startOrResumeProcessing
    split <;> trivial
  cases state with
  | returned => cases hnext
  | raised => cases hnext
  | registerDocument =>
    cases hnext
    exact hraise _ _ fun _ => trivial
  | registerVersion identity =>
    cases hnext
    refine hraise _ _ fun (version, job) => ?_
    exact hstart identity version job
  | startProcessing identity version job =>
    cases hnext
    exact hraise _ _ fun _ => trivial
  | startJob identity version job =>
    cases hnext
    refine hraise _ _ fun result => ?_
    unfold PreparationRequest.ingest
    split <;> trivial
  | recordProgress identity version job ingestion =>
    simp only [PreparerState.next] at hnext
    split at hnext
    · cases hnext
      exact hraise _ _ fun _ => trivial
    · cases hnext
      exact hraise _ _ fun _ => hprepared _
  | requireReview preparation =>
    cases hnext
    exact hraise _ _ fun _ => hprepared _
  | putPdf preparation =>
    cases hnext
    cases outcome with
    | error e => trivial
    | ok result =>
      cases hout.result_effect with
      | putPdf _ _ _ _ _ _ pdf hcall hdb _ =>
        obtain ⟨howner, hdocument, hvid, -, hkey, -⟩ := putPdf_ok hcall
        obtain ⟨v, hv, hsame⟩ := hsees preparation.version rfl
        obtain ⟨-, hdoc, hown, -, -, -, -⟩ := sameVersionIdentity_iff.mp hsame.identity
        refine ⟨v, by rw [hvid, hdb]; exact hv, howner.trans hown.symm,
          hdocument.trans hdoc.symm, ?_⟩
        rw [hkey, versionKey_later hsame]
        rfl
  | persistSnapshot preparation pdf =>
    cases hnext
    cases outcome <;> trivial
  | failVersion version job failureCode error =>
    cases hnext
    exact hraise _ _ fun _ => trivial
  | failJob job failureCode error =>
    cases hnext
    exact hraise _ _ fun _ => trivial

/-- No registration is found for a job's version: there is none. -/
theorem noRegistration (hw : w.SnapshotSound services) {leased : LeasedJob}
    (hleased : w.Leased leased)
    (hnone : getInactivePdfObject w.db leased.job.ownerId leased.job.documentVersionId = none) :
    w.db.pdfObjects.find? leased.job.documentVersionId = none := by
  cases hfind : w.db.pdfObjects.find? leased.job.documentVersionId with
  | none => rfl
  | some pdf =>
    obtain ⟨job, hjob, hsame⟩ := hleased.stored
    obtain ⟨-, howner, -, hvid⟩ := CleanupJobV1.sameTarget_iff.mp hsame
    obtain ⟨v, hv, hown, hinactive⟩ := hw.job job (Table.mem_rows_of_find? hjob)
    obtain ⟨v', hv', hpdfOwner, hpdfDocument, -⟩ := hw.pdf pdf (Table.mem_rows_of_find? hfind)
    have hkey := Table.key_of_find? hfind
    rw [hkey] at hv'
    rw [hvid] at hv
    cases hv.symm.trans hv'
    have href : w.db.referencedVersion? pdf.documentVersionId pdf.ownerId pdf.documentId = some v :=
      Database.referencedVersion?_eq_some.mpr ⟨by rw [hkey]; exact hv, hpdfOwner.symm,
        hpdfDocument.symm⟩
    have hfound : getInactivePdfObject w.db leased.job.ownerId leased.job.documentVersionId =
        some pdf := by
      refine Option.filter_eq_some_iff.mpr ⟨hfind, ?_⟩
      have hinactive' : v.isActive = false := by
        simp [DocumentVersionLifecycleV1.isActive, hinactive]
      rw [href]
      simp [hinactive, hinactive', hpdfOwner, hown, howner]
    rw [hnone] at hfound
    cases hfound

/-- Without files and without a registration, the version is purged. -/
theorem purged_of_noRegistration {vid : String} (hw : w.SnapshotSound services)
    (hfile : w.NoFile vid) (hpdf : w.db.pdfObjects.find? vid = none) : w.Purged vid := by
  refine ⟨hfile, hpdf, fun row hrow => ?_⟩
  rintro rfl
  obtain ⟨pdf, hfind, -⟩ := hw.chunk row hrow
  rw [hpdf] at hfind
  cases hfind

/-- A version whose key holds no file of its own has no file. -/
theorem noFile_of_unwritten {vid : String} (hw : w.SnapshotSound services)
    (h : w.unwritten services vid = true) : w.NoFile vid := by
  rintro key file hfile rfl
  obtain ⟨v, hv, rfl⟩ := hw.file key file hfile
  unfold World.unwritten at h
  rw [hv, Option.all_some, hfile, Option.all_some] at h
  simp at h

/-- Deleting the registered file leaves no file of the version. -/
theorem noFile_of_deleted {pdf : PdfObjectV1} (hw : w.SnapshotSound services)
    (hpdf : w.Registered services pdf)
    (hobjects : w'.objects = Function.update w.objects pdf.objectKey none) :
    w'.NoFile pdf.documentVersionId := by
  intro key file hfile hwritten
  rw [hobjects] at hfile
  by_cases hkey : key = pdf.objectKey
  · subst hkey
    simp at hfile
  · rw [Function.update_of_ne hkey] at hfile
    obtain ⟨v, hv, hversion⟩ := hw.file key file hfile
    obtain ⟨v', hv', -, -, hpdfKey⟩ := hpdf
    rw [hwritten] at hv
    cases hv.symm.trans hv'
    exact hkey (hversion.trans hpdfKey.symm)

/-- Purging an owner's version leaves no row of it. -/
theorem purged_of_purge {ownerId vid : String} (hw : w.SnapshotSound services)
    (howner : ∀ v, w.db.versions.find? vid = some v → v.ownerId = ownerId)
    (hcall : purgeInactiveRuntimeSnapshot w.db ownerId vid = .ok w'.db) (hfile : w'.NoFile vid) :
    w'.Purged vid := by
  obtain ⟨-, hdb⟩ := purgeInactiveRuntimeSnapshot_ok hcall
  have hpdfOwner : ∀ pdf ∈ w.db.pdfObjects.rows, pdf.documentVersionId = vid →
      pdf.ownerId = ownerId := by
    rintro pdf hpdf rfl
    obtain ⟨v, hv, hown, -⟩ := hw.pdf pdf hpdf
    rw [hown]
    exact howner v hv
  refine ⟨hfile, Table.find?_eq_none_iff.mpr fun pdf hpdf hvid => ?_, fun row hrow hvid => ?_⟩
  · rw [hdb] at hpdf
    obtain ⟨hold, hkept⟩ := List.mem_filter.mp hpdf
    simp [hvid, hpdfOwner pdf hold hvid] at hkept
  · rw [hdb] at hrow
    obtain ⟨hold, hkept⟩ := List.mem_filter.mp hrow
    obtain ⟨pdf, hfind, hown⟩ := hw.chunk row hold
    have hkey := Table.key_of_find? hfind
    simp [hvid, hown, hpdfOwner pdf (Table.mem_rows_of_find? hfind) (hkey.trans hvid)] at hkept

/-- The owner of a leased job's version. -/
theorem leased_owner (hw : w.SnapshotSound services) {leased : LeasedJob}
    (hleased : w.Leased leased) {v : DocumentVersionLifecycleV1}
    (hv : w.db.versions.find? leased.job.documentVersionId = some v) :
    v.ownerId = leased.job.ownerId := by
  obtain ⟨job, hjob, hsame⟩ := hleased.stored
  obtain ⟨-, howner, -, hvid⟩ := CleanupJobV1.sameTarget_iff.mp hsame
  obtain ⟨v', hv', hown, -⟩ := hw.job job (Table.mem_rows_of_find? hjob)
  rw [hvid] at hv'
  cases hv.symm.trans hv'
  exact hown.trans howner

/-- A worker that has just claimed has nothing to rely on. -/
theorem claimed_handles (result : Except PyError (Except PyError (Option CleanupJobV1))) :
    (claimed result).Handles services w := by
  rcases claimed_cases result with ⟨hnone, -⟩ | ⟨job, leaseToken, -, -, hclean⟩
  · cases hstate : claimed result with
    | deletePdf _ _ | purge _ _ | complete _ _ =>
      rw [hstate] at hnone
      cases hnone
    | _ => trivial
  · rw [hclean]
    unfold LeasedJob.clean
    split <;> trivial

/-- The lookup finds nothing: an unwritten version has neither file nor rows. -/
theorem purged_of_noRow (hw : w.SnapshotSound services) {leased : LeasedJob}
    (hleased : w.Leased leased)
    (hunwritten : w.unwritten services leased.job.documentVersionId = true)
    (hpdf : getInactivePdfObject w.db leased.job.ownerId leased.job.documentVersionId = none)
    (hdb : w'.db = w.db) (hobjects : w'.objects = w.objects) :
    w'.Purged leased.job.documentVersionId := by
  have hpurged := purged_of_noRegistration hw (noFile_of_unwritten hw hunwritten)
    (noRegistration hw hleased hpdf)
  refine ⟨?_, by rw [hdb]; exact hpurged.pdf, by rw [hdb]; exact hpurged.chunk⟩
  unfold World.NoFile
  rw [hobjects]
  exact hpurged.file

theorem failed_handles (settings : CleanupWorker) (clock : Datetime) (leased : LeasedJob) :
    (settings.failed clock leased).Handles services w := by
  unfold CleanupWorker.failed
  split <;> trivial

/-- A lookup finds the row of the file, or else nothing of an unwritten version is left. -/
theorem lookup_handles {settings : CleanupWorker} {leased : LeasedJob}
    {pending : Pending WorkerState} {outcome : Except PyError pending.operation.Result}
    (hw : w.SnapshotSound services)
    (ht : HandlesSnapshot services w (.worker settings (.lookup leased)))
    (hlookup : choice.fails = true ∨ w.holds leased = false ∨
      (getInactivePdfObject w.db leased.job.ownerId leased.job.documentVersionId).isSome = true ∨
        w.unwritten services leased.job.documentVersionId = true)
    (hnext : (WorkerState.lookup leased).next settings choice = some pending)
    (hout : Outcome services w w' choice pending.operation outcome) :
    (pending.resume outcome).Handles services w' := by
  have hleased := ht.leased leased rfl
  cases hnext
  cases outcome with
  | error e => exact failed_handles _ _ _
  | ok result =>
    obtain ⟨e, he, -⟩ | ⟨found, hfound, hfails, heffect⟩ := hout.stores
    · cases he
    · cases hfound
      cases heffect with
      | getInactivePdfObject _ _ hdb _ hobjects =>
        cases hpdf : getInactivePdfObject w.db leased.job.ownerId leased.job.documentVersionId with
        | some pdf =>
          obtain ⟨hfind, -⟩ := Option.filter_eq_some_iff.mp hpdf
          have hregistered := (hw.pdf pdf (Table.mem_rows_of_find? hfind)).later hout.later
          exact ⟨hregistered, Table.key_of_find? hfind⟩
        | none =>
          intro _ hholds
          have hunwritten : w.unwritten services leased.job.documentVersionId = true := by
            rcases hlookup with h | h | h | h
            · rw [hfails] at h
              cases h
            · rw [hleased.current_before hw.queue hout hholds] at h
              cases h
            · rw [hpdf] at h
              cases h
            · exact h
          exact purged_of_noRow hw hleased hunwritten hpdf hdb hobjects

/-- A worker deletes the file, then the rows, each as the next call relies on it. -/
theorem worker_handles {settings : CleanupWorker} {state : WorkerState}
    {pending : Pending WorkerState} {outcome : Except PyError pending.operation.Result}
    (hw : w.SnapshotSound services) (ht : HandlesSnapshot services w (.worker settings state))
    (hlookup : ∀ leased, state = .lookup leased → choice.fails = true ∨ w.holds leased = false ∨
      (getInactivePdfObject w.db leased.job.ownerId leased.job.documentVersionId).isSome = true ∨
        w.unwritten services leased.job.documentVersionId = true)
    (hnext : state.next settings choice = some pending)
    (hout : Outcome services w w' choice pending.operation outcome) :
    (pending.resume outcome).Handles services w' := by
  have hbefore : ∀ leased, state.leased? = some leased → w'.holds leased = true →
      w.holds leased = true :=
    fun leased h => (ht.leased leased h).current_before hw.queue hout
  have hagrees : state.Matches := ht.agrees
  have hhandles : state.Handles services w := ht.handles
  cases state with
  | returned result => cases hnext
  | raised error => cases hnext
  | claim =>
    cases hnext
    exact claimed_handles outcome
  | deleteIndex backend leased =>
    cases hnext
    cases outcome with
    | error e => exact failed_handles _ _ _
    | ok existed =>
      intro hbackend _
      have hother : leased.job.backend = backend.cleanupBackend := hagrees
      rw [hother] at hbackend
      cases backend <;> cases hbackend
  | lookup leased => exact lookup_handles hw ht (hlookup leased rfl) hnext hout
  | deletePdf leased pdf =>
    cases hnext
    cases outcome with
    | error e => exact failed_handles _ _ _
    | ok existed =>
      intro _
      cases hout.result_effect with
      | deletePdf _ _ hobjects _ _ =>
        rw [← hhandles.2]
        exact noFile_of_deleted hw hhandles.1 hobjects
  | purge leased existed =>
    cases hnext
    cases outcome with
    | error e => exact failed_handles _ _ _
    | ok result =>
      intro _ hholds
      obtain ⟨hcall, -, hobjects⟩ := hout.repository
      obtain ⟨db, hpurge, hret⟩ := bind_eq_ok.mp hcall
      cases pure_eq_ok.mp hret
      refine purged_of_purge hw (fun v hv => leased_owner hw (ht.leased leased rfl) hv) hpurge ?_
      unfold World.NoFile
      rw [hobjects]
      exact hhandles (hbefore leased rfl hholds)
  | complete leased existed =>
    cases hnext
    cases outcome <;> trivial
  | recordFailure leased retryAt =>
    cases hnext
    cases outcome <;> trivial

/-- A thread's own step establishes what its next state relies on. -/
theorem step_handles {p : Pool World Thread} {i : Nat} (hp : PurgedSnapshots services p.world)
    (ht : HandlesSnapshot services p.world thread)
    (hguard : SnapshotsBeforeDeletion services p (.act i choice) = true)
    (hi : p.threads[i]? = some thread)
    (hstep : thread.step services p.world choice = some (w', thread')) :
    HandlesSnapshot services w' thread' := by
  obtain ⟨hleased, hmatches⟩ := step_leased hp.sound.queue hstep ht.leased ht.agrees
  refine ⟨step_sees hstep ht.sees, hleased, hmatches, ?_⟩
  cases thread with
  | preparer request state =>
    obtain ⟨pending, outcome, hnext, rfl, hout⟩ := preparer_step hstep
    exact preparer_handles hnext ht.sees hout
  | publisher preparation state =>
    obtain ⟨pending, outcome, -, rfl, -⟩ := publisher_step hstep
    trivial
  | inactivator input state =>
    obtain ⟨pending, outcome, -, rfl, -⟩ := inactivator_step hstep
    trivial
  | worker settings state =>
    obtain ⟨pending, outcome, hnext, rfl, hout⟩ := worker_step hstep
    refine worker_handles hp.sound ht (fun leased hstate => ?_) hnext hout
    subst hstate
    simp only [SnapshotsBeforeDeletion, hi, Bool.or_eq_true, Bool.not_eq_true'] at hguard
    tauto

theorem snapshot_outline : Outline (Thread.canStart services) (Thread.step services)
    (fun p l => SnapshotsBeforeDeletion services p l = true) (snapshotAssertions services) where
  spawn p t hp _ hs := by
    refine ⟨⟨fun v hv => canStart_sees (fun i u hu => (hp.thread i u hu).sees) hs hv, ?_, ?_, ?_⟩,
      fun _ _ _ => ⟨trivial, trivial⟩⟩
    · intro leased h
      cases t with
      | worker settings state =>
        cases of_decide_eq_true hs
        cases h
      | _ => cases h
    · cases t with
      | worker settings state =>
        cases of_decide_eq_true hs
        trivial
      | _ => trivial
    · cases t with
      | worker settings state =>
        cases of_decide_eq_true hs
        trivial
      | preparer request state =>
        cases of_decide_eq_true hs
        change (request.start services).Handles services p.world
        unfold PreparationRequest.start
        split
        · trivial
        · split <;> trivial
      | _ => trivial
  own p i choice t w' t' hp hguard hi hstep := by
    have hthread := hp.thread i t hi
    refine ⟨?_, step_handles hp.world hthread hguard hi hstep⟩
    obtain ⟨pending, outcome, hnext, -, hout⟩ := step_outcome hstep
    exact ⟨step_sound hp.world.sound hthread hnext hout,
      fun vid hreported => step_purged hp.world hthread hguard hi hnext hout hreported⟩
  other p i choice t w' t' j u hp hguard hi hstep hij hu := by
    refine ⟨?_, trivial, trivial⟩
    have hother := hp.thread j u hu
    obtain ⟨pending, outcome, hnext, -, hout⟩ := step_outcome hstep
    refine ⟨fun v hv => (hother.sees v hv).later hout.later,
      fun leased h => (hother.leased leased h).later hp.world.sound.queue hout, hother.agrees, ?_⟩
    have hbefore : ∀ leased, u.leased? = some leased → w'.holds leased = true →
        p.world.holds leased = true :=
      fun leased h => (hother.leased leased h).current_before hp.world.sound.queue hout
    cases u with
    | publisher preparation state => trivial
    | inactivator input state => trivial
    | preparer request state =>
      cases state with
      | persistSnapshot preparation pdf => exact World.Registered.later hother.handles hout.later
      | _ => trivial
    | worker settings state =>
      cases state with
      | deletePdf leased pdf =>
        obtain ⟨hregistered, hvid⟩ := hother.handles
        exact ⟨hregistered.later hout.later, hvid⟩
      | purge leased existed =>
        intro hholds
        have hcurrent := hbefore leased rfl hholds
        have hunlinked : (Thread.worker settings (.purge leased existed)).unlinked p.world
            leased.job.documentVersionId = true :=
          (Bool.and_eq_true _ _).mpr ⟨purges_iff.mpr ⟨hother.agrees, rfl⟩, hcurrent⟩
        exact (hother.unlinked hunlinked).step hout
          (guard_put hguard hi hnext (.inr ⟨j, _, hu, hunlinked⟩))
      | complete leased existed =>
        intro hbackend hholds
        have hpurged : (Thread.worker settings (.complete leased existed)).purged p.world
            leased.job.documentVersionId = true :=
          purged_iff.mpr ⟨settings, leased, existed, rfl, hbackend, rfl, hbefore leased rfl hholds⟩
        exact stays_purged hguard hi hnext hout (hother.purged hpurged) (.inr ⟨j, _, hu, hpurged⟩)
      | _ => trivial
  rest _ _ _ _ _ _ _ _ _ _ _ _ _ _ _ _ _ _ _ := trivial

/-- In every state of a run in which nothing is written for a version after its deletion, and no
cleaner misses a file for want of a registration, a version whose snapshot cleanup has `SUCCEEDED`
has no file and no row. -/
theorem snapshot_deletion {labels : List (PoolLabel Thread Choice)} {p : Pool World Thread}
    (hrun : GuardedRun (poolStep services) (fun p l => SnapshotsBeforeDeletion services p l = true)
      Pool.empty labels p) {job : CleanupJobV1} (hjob : job ∈ p.world.db.cleanupJobs.rows)
    (hsucceeded : job.status = .succeeded) (hbackend : job.backend = .runtimeSnapshot) :
    p.world.Purged job.documentVersionId := by
  have hempty : PurgedSnapshots services World.empty :=
    ⟨World.SnapshotSound.empty, fun vid h => (by cases h)⟩
  exact (snapshot_outline.holds_of_run hrun (Assertions.holds_nil hempty)).world.purged _
    (reportsPurged_iff.mpr ⟨job, hjob, hsucceeded, hbackend, rfl⟩)

end Steps

/-- A preparation that persists its snapshot, then its version's deletion and all three cleanups. -/
def deletedSnapshot : List ScriptStep :=
  samplePreparation true ++ calmActs 0 2 ++ sampleInactivation 1 ++
    sampleCleanup 2 2 (fixedId "lease_1") ++ sampleCleanup 3 2 (fixedId "lease_2") ++
    sampleCleanup 4 4 (fixedId "lease_3")

theorem snapshot_deletion_persisted :
    ∃ p, GuardedRun (poolStep sampleServices)
        (fun p l => SnapshotsBeforeDeletion sampleServices p l = true) Pool.empty
          (scriptLabels sampleServices Pool.empty deletedSnapshot) p ∧
      ∃ job ∈ p.world.db.cleanupJobs.rows, job.status = .succeeded ∧
      p.world.Purged job.documentVersionId := by
  have hrun : ((guardedRun? (poolStep sampleServices)
      (fun p l => SnapshotsBeforeDeletion sampleServices p l = true) Pool.empty
      (scriptLabels sampleServices Pool.empty deletedSnapshot)).any
        fun p => p.world.db.cleanupJobs.rows.any fun job => decide (job.status = .succeeded) &&
          decide (job.backend = .runtimeSnapshot)) = true := by
    decide +kernel
  obtain ⟨p, hp, hany⟩ := (Option.any_eq_true _ _).mp hrun
  obtain ⟨job, hjob, hall⟩ := List.any_eq_true.mp hany
  simp only [Bool.and_eq_true, decide_eq_true_eq] at hall
  have hguarded := GuardedRun.of_eval hp
  exact ⟨p, hguarded, job, hjob, hall.1, snapshot_deletion hguarded hjob hall.1 hall.2⟩

/-- A preparation writes its file, fails to persist its snapshot and records the failure; then the
version is deleted and cleaned up. -/
def unpersistedSnapshot : List ScriptStep :=
  samplePreparation true ++ calmActs 0 1 ++ .act 0 { calm with fails := true } :: calmActs 0 2 ++
    sampleInactivation 1 ++ sampleCleanup 2 2 (fixedId "lease_1") ++
      sampleCleanup 3 2 (fixedId "lease_2") ++
    sampleCleanup 4 2 (fixedId "lease_3")

/-- Every thread is finished, the version is `INACTIVE`, the cleanup job of its snapshot is
`SUCCEEDED`, and the file written for it is still there. -/
theorem file_after_deletion :
    ∃ p, run (poolStep sampleServices) Pool.empty
        (scriptLabels sampleServices Pool.empty unpersistedSnapshot) = some p ∧
      p.threads.length = 5 ∧ p.threads.all Thread.finished = true ∧
      ∃ v ∈ p.world.db.versions.rows, v.lifecycleStatus = .inactive ∧
        (∃ job ∈ p.world.db.cleanupJobs.rows, job.status = .succeeded ∧
          CleanupJobV1.purges job v.documentVersionId = true) ∧
        ∃ file, p.world.objects (versionKey sampleServices v) = some file ∧
          file.writtenFor = v.documentVersionId := by
  have hrun : ((run (poolStep sampleServices) Pool.empty
      (scriptLabels sampleServices Pool.empty unpersistedSnapshot)).any fun p =>
        decide (p.threads.length = 5) && p.threads.all Thread.finished &&
          p.world.db.versions.rows.any fun v => decide (v.lifecycleStatus = .inactive) &&
            (p.world.db.cleanupJobs.rows.any fun job =>
              decide (job.status = .succeeded) && CleanupJobV1.purges job v.documentVersionId) &&
            (p.world.objects (versionKey sampleServices v)).any fun file =>
              decide (file.writtenFor = v.documentVersionId)) = true := by
    decide +kernel
  obtain ⟨p, hp, hall⟩ := (Option.any_eq_true _ _).mp hrun
  simp only [Bool.and_eq_true, decide_eq_true_eq, List.any_eq_true, Option.any_eq_true] at hall
  obtain ⟨⟨hlength, hthreads⟩, v, hv, ⟨hinactive, hjobs⟩, hfile⟩ := hall
  exact ⟨p, hp, hlength, hthreads, v, hv, hinactive, hjobs, hfile⟩

end ZhiyanRag.Ingestion
