import ZhiyanRag.Ingestion.IndexEffects
import ZhiyanRag.Ingestion.Leases

/-!
# Deletion of the physical indexes

A `SUCCEEDED` cleanup job promises that the version's physical index is gone. The worker that
completes the job has deleted the index, and holds the lease until it completes; deactivations and
activations create nothing. What can break the promise is a publication whose staging comes after
the deletion: the writer creates the index anew, and no later job removes it. `StagesBeforeDeletion`
excludes just these stagings.
-/

namespace ZhiyanRag.Ingestion

open Relational ZhiyanRag.Storage Steps

/-- The job deletes this backend's index of the version. -/
def CleanupJobV1.isFor (job : CleanupJobV1) (backend : IndexBackend)
    (ownerId documentVersionId : String) : Bool :=
  decide (job.backend = backend.cleanupBackend) && decide (job.ownerId = ownerId) &&
    decide (job.documentVersionId = documentVersionId)

/-- The worker has deleted this index and holds the lease under which it will say so. -/
def Thread.completes (w : World) (backend : IndexBackend) (ownerId documentVersionId : String) :
    Thread → Bool
  | worker _ (.complete leased _) =>
    CleanupJobV1.isFor leased.job backend ownerId documentVersionId && w.holds leased
  | _ => false

/-- A staging that goes through takes place while no cleanup job of the index has `SUCCEEDED` and no
worker is about to complete one. -/
def StagesBeforeDeletion (p : Pool World Thread) : PoolLabel Thread Choice → Bool
  | .spawn _ => true
  | .act i choice => match p.threads[i]? with
    | some (.publisher _ (.stage backend version _)) => choice.fails ||
        ((p.world.db.cleanupJobs.rows.all fun job => !(decide (job.status = .succeeded) &&
            CleanupJobV1.isFor job backend version.ownerId version.documentVersionId)) &&
          p.threads.all fun t => !t.completes p.world backend version.ownerId
            version.documentVersionId)
    | _ => true

/-- The queue is sound, and the index of a `SUCCEEDED` job does not exist. -/
structure DeletedIndexes (w : World) : Prop where
  queue : w.QueueSound
  deleted : ∀ job ∈ w.db.cleanupJobs.rows, job.status = .succeeded → ∀ backend,
    job.backend = backend.cleanupBackend →
    w.indexes backend (job.ownerId, job.documentVersionId) = none

/-- The worker's job is stored, and the index it is about to report as deleted does not exist. -/
structure DeletesIndex (w : World) (t : Thread) : Prop where
  leased : ∀ leased, t.leased? = some leased → w.Leased leased
  agrees : t.Matches
  deleted : ∀ backend ownerId vid, t.completes w backend ownerId vid = true →
    w.indexes backend (ownerId, vid) = none

def deletionAssertions : Assertions World Thread where
  world := DeletedIndexes
  thread := DeletesIndex
  pair _ _ _ := True

theorem cleanupBackend_injective {a b : IndexBackend} (h : a.cleanupBackend = b.cleanupBackend) :
    a = b := by
  cases a <;> cases b <;> first | rfl | cases h

theorem isFor_iff {job : CleanupJobV1} {backend : IndexBackend} {ownerId vid : String} :
    CleanupJobV1.isFor job backend ownerId vid = true ↔
      job.backend = backend.cleanupBackend ∧ job.ownerId = ownerId ∧
      job.documentVersionId = vid := by
  simp [CleanupJobV1.isFor, and_assoc]

theorem completes_iff {w : World} {t : Thread} {backend : IndexBackend} {ownerId vid : String} :
    t.completes w backend ownerId vid = true ↔ ∃ settings leased existed,
      t = .worker settings (.complete leased existed) ∧
        CleanupJobV1.isFor leased.job backend ownerId vid = true ∧ w.holds leased = true := by
  constructor
  · intro h
    unfold Thread.completes at h
    split at h
    · rename_i settings leased existed
      obtain ⟨hfor, hholds⟩ := (Bool.and_eq_true _ _).mp h
      exact ⟨settings, leased, existed, rfl, hfor, hholds⟩
    · cases h
  · rintro ⟨settings, leased, existed, rfl, hfor, hholds⟩
    exact (Bool.and_eq_true _ _).mpr ⟨hfor, hholds⟩

section Steps

variable {services : Services} {w w' : World} {choice : Choice} {thread thread' : Thread}

/-- Only a publication's staging creates an index. -/
theorem next_creates {pending : Pending Thread} {backend : IndexBackend} {ownerId vid : String}
    (hnext : thread.next services choice = some pending)
    (hcreates : pending.operation.creates = some (backend, ownerId, vid)) :
    ∃ preparation version receipts,
      thread = .publisher preparation (.stage backend version receipts) ∧
      ownerId = version.ownerId ∧ vid = version.documentVersionId := by
  have hmade := next_madeBy hnext
  unfold Operation.creates at hcreates
  split at hcreates
  · rename_i hop
    rw [hop] at hmade
    cases hcreates
    exact hmade
  · cases hcreates

/-- A worker reaches its completing call by deleting the index, or with no index to delete. -/
theorem step_completes {settings : CleanupWorker} {state : WorkerState}
    {pending : Pending WorkerState} {outcome : Except PyError pending.operation.Result}
    (hnext : state.next settings choice = some pending) (hmatches : state.Matches)
    (hout : Outcome services w w' choice pending.operation outcome) {leased : LeasedJob}
    {existed : Bool}
    (hstate : pending.resume outcome = .complete leased existed) {backend : IndexBackend}
    {ownerId vid : String}
    (hfor : CleanupJobV1.isFor leased.job backend ownerId vid = true) :
    w'.indexes backend (ownerId, vid) = none := by
  obtain ⟨hbackend, rfl, rfl⟩ := isFor_iff.mp hfor
  have hfailed : ∀ clock leased', settings.failed clock leased' ≠ .complete leased existed := by
    intro clock leased' h
    unfold CleanupWorker.failed at h
    split at h <;> cases h
  have hindex : leased.job.backend ≠ .runtimeSnapshot := by
    rw [hbackend]
    cases backend <;> decide
  cases state with
  | returned result => cases hnext
  | raised error => cases hnext
  | claim =>
    cases hnext
    have hstate' : claimed outcome = .complete leased existed := hstate
    rcases claimed_cases outcome with ⟨hnone, -⟩ | ⟨job, leaseToken, -, -, hclean⟩
    · rw [hstate'] at hnone
      cases hnone
    · rw [hclean] at hstate'
      unfold LeasedJob.clean at hstate'
      split at hstate' <;> cases hstate'
  | deleteIndex b leased' =>
    cases hnext
    cases outcome with
    | error e => exact absurd hstate (hfailed _ _)
    | ok result =>
      cases hstate
      cases cleanupBackend_injective (hmatches.symm.trans hbackend)
      cases hout.result_effect with
      | deleteVersion _ _ _ _ _ hset _ =>
        rw [hset, World.setIndex_indexes, if_pos ⟨rfl, rfl⟩]
  | lookup leased' =>
    cases hnext
    cases outcome with
    | error e => exact absurd hstate (hfailed _ _)
    | ok pdf => cases pdf with
      | some pdf => cases hstate
      | none =>
        cases hstate
        exact absurd hmatches hindex
  | deletePdf leased' pdf =>
    cases hnext
    cases outcome with
    | error e => exact absurd hstate (hfailed _ _)
    | ok result => cases hstate
  | purge leased' existed' =>
    cases hnext
    cases outcome with
    | error e => exact absurd hstate (hfailed _ _)
    | ok result =>
      cases hstate
      exact absurd hmatches hindex
  | complete leased' existed' =>
    cases hnext
    cases outcome <;> cases hstate
  | recordFailure leased' retryAt =>
    cases hnext
    cases outcome <;> cases hstate

/-- The guard of a staging that goes through. -/
theorem stagesBeforeDeletion_act {p : Pool World Thread} {i : Nat}
    {preparation : PersistentIngestionPreparation} {backend : IndexBackend}
    {version : DocumentVersionLifecycleV1} {receipts : List IndexWriteReceipt}
    (hguard : StagesBeforeDeletion p (.act i choice) = true)
    (hi : p.threads[i]? = some (.publisher preparation (.stage backend version receipts))) :
    choice.fails = true ∨
      (∀ job ∈ p.world.db.cleanupJobs.rows, job.status = .succeeded →
        CleanupJobV1.isFor job backend version.ownerId version.documentVersionId = false) ∧
      ∀ (j : Nat) (t : Thread), p.threads[j]? = some t →
        t.completes p.world backend version.ownerId version.documentVersionId = false := by
  simp only [StagesBeforeDeletion, hi, Bool.or_eq_true, Bool.and_eq_true, List.all_eq_true]
    at hguard
  refine hguard.imp_right fun ⟨hjobs, hthreads⟩ => ⟨fun job hjob hs => ?_, fun j t hj => ?_⟩
  · have := hjobs job hjob
    simpa [hs] using this
  · have := hthreads t (List.mem_of_getElem? hj)
    simpa using this

/-- An index that a step may not create stays absent. -/
theorem stays_absent {p : Pool World Thread} {i : Nat} {pending : Pending Thread}
    {outcome : Except PyError pending.operation.Result}
    (hguard : StagesBeforeDeletion p (.act i choice) = true)
    (hi : p.threads[i]? = some thread) (hnext : thread.next services choice = some pending)
    (hout : Outcome services p.world w' choice pending.operation outcome) {backend : IndexBackend}
    {ownerId vid : String} (hnone : p.world.indexes backend (ownerId, vid) = none)
    (hreported : (∃ job ∈ p.world.db.cleanupJobs.rows, job.status = .succeeded ∧
        CleanupJobV1.isFor job backend ownerId vid = true) ∨
      ∃ (j : Nat) (t : Thread), p.threads[j]? = some t ∧
      t.completes p.world backend ownerId vid = true) :
    w'.indexes backend (ownerId, vid) = none := by
  refine hout.absent ?_ hnone
  by_cases hcreates : pending.operation.creates = some (backend, ownerId, vid)
  · obtain ⟨preparation, version, receipts, rfl, rfl, rfl⟩ := next_creates hnext hcreates
    rcases stagesBeforeDeletion_act hguard hi with hfails | ⟨hjobs, hthreads⟩
    · exact .inl hfails
    · rcases hreported with ⟨job, hjob, hs, hfor⟩ | ⟨j, t, hj, hcompletes⟩
      · rw [hjobs job hjob hs] at hfor
        cases hfor
      · rw [hthreads j t hj] at hcompletes
        cases hcompletes
  · exact .inr hcreates

/-- A step keeps the indexes of `SUCCEEDED` jobs deleted. -/
theorem step_deleted {p : Pool World Thread} {i : Nat} {pending : Pending Thread}
    {outcome : Except PyError pending.operation.Result} (hp : DeletedIndexes p.world)
    (ht : DeletesIndex p.world thread) (hguard : StagesBeforeDeletion p (.act i choice) = true)
    (hi : p.threads[i]? = some thread) (hnext : thread.next services choice = some pending)
    (hout : Outcome services p.world w' choice pending.operation outcome) : DeletedIndexes w' := by
  refine ⟨hout.queueSound hp.queue, fun job' hjob' hs backend hbackend => ?_⟩
  rcases hout.job_before hp.queue (Table.find?_key_of_mem hjob')
    with ⟨job, hjob, hmove⟩ | ⟨hpending, -⟩
  · have hmem := Table.mem_rows_of_find? hjob
    obtain ⟨htarget, howner, -, hvid⟩ := CleanupJobV1.sameTarget_iff.mp hmove.target
    rw [htarget] at hbackend
    rw [howner, hvid]
    have hfor : CleanupJobV1.isFor job backend job.ownerId job.documentVersionId = true :=
      isFor_iff.mpr ⟨hbackend, rfl, rfl⟩
    rcases hmove.succeeded hs with hsucceeded | ⟨token, now, hcall, hlease⟩
    · exact stays_absent hguard hi hnext hout (hp.deleted job hmem hsucceeded backend hbackend)
        (.inl ⟨job, hmem, hsucceeded, hfor⟩)
    · -- the completing worker holds the lease, so its index is gone
      obtain ⟨settings, leased, existed, rfl, hid, rfl⟩ := next_completes hnext hcall
      obtain ⟨stored, hstored, hsame⟩ := (ht.leased leased rfl).stored
      rw [← hid, show job.cleanupId = job'.cleanupId from hmove.cleanupId.symm, hjob] at hstored
      cases hstored
      obtain ⟨hb, ho, -, hv⟩ := CleanupJobV1.sameTarget_iff.mp hsame
      have hfind : p.world.db.cleanupJobs.find? leased.job.cleanupId = some job := by
        rw [← hid, ← hmove.cleanupId]
        exact hjob
      have hcompletes : (Thread.worker settings (.complete leased existed)).completes p.world
          backend job.ownerId job.documentVersionId = true :=
        completes_iff.mpr ⟨settings, leased, existed, rfl,
          isFor_iff.mpr ⟨hb.symm.trans hbackend, ho.symm, hv.symm⟩,
          World.holds_iff.mpr ⟨job, hfind, hlease⟩⟩
      exact stays_absent hguard hi hnext hout (ht.deleted _ _ _ hcompletes)
        (.inr ⟨i, _, hi, hcompletes⟩)
  · rw [hpending] at hs
    cases hs

theorem step_deletes (hw : w.QueueSound) (ht : DeletesIndex w thread)
    (hstep : thread.step services w choice = some (w', thread')) : DeletesIndex w' thread' := by
  obtain ⟨hleased, hmatches⟩ := step_leased hw hstep ht.leased ht.agrees
  refine ⟨hleased, hmatches, fun backend ownerId vid h => ?_⟩
  obtain ⟨settings, leased, existed, rfl, hfor, -⟩ := completes_iff.mp h
  obtain ⟨state, pending, outcome, rfl, hnext, hstate, hout⟩ := worker_of_step hstep
  exact step_completes hnext ht.agrees hout hstate hfor

theorem deletion_outline : Outline (Thread.canStart services) (Thread.step services)
    (fun p l => StagesBeforeDeletion p l = true) deletionAssertions where
  spawn p t hp _ hs := by
    refine ⟨?_, fun _ _ _ => ⟨trivial, trivial⟩⟩
    cases t with
    | worker settings state =>
      cases of_decide_eq_true hs
      exact ⟨fun _ h => (by cases h), trivial, fun _ _ _ h => by cases h⟩
    | _ => exact ⟨fun _ h => (by cases h), trivial, fun _ _ _ h => by cases h⟩
  own p i choice t w' t' hp hguard ht hstep := by
    have hthread := hp.thread i t ht
    refine ⟨?_, step_deletes hp.world.queue hthread hstep⟩
    obtain ⟨pending, outcome, hnext, -, hout⟩ := step_outcome hstep
    exact step_deleted hp.world hthread hguard ht hnext hout
  other p i choice t w' t' j u hp hguard ht hstep hij hu := by
    refine ⟨?_, trivial, trivial⟩
    obtain ⟨pending, outcome, hnext, -, hout⟩ := step_outcome hstep
    have hother := hp.thread j u hu
    refine ⟨fun leased h => (hother.leased leased h).later hp.world.queue hout, hother.agrees,
      fun backend ownerId vid h => ?_⟩
    obtain ⟨settings, leased, existed, rfl, hfor, hholds⟩ := completes_iff.mp h
    have hbefore := (hother.leased leased rfl).current_before hp.world.queue hout hholds
    have hcompletes := completes_iff.mpr ⟨settings, leased, existed, rfl, hfor, hbefore⟩
    exact stays_absent hguard ht hnext hout (hother.deleted _ _ _ hcompletes)
      (.inr ⟨j, _, hu, hcompletes⟩)
  rest _ _ _ _ _ _ _ _ _ _ _ _ _ _ _ _ _ _ _ := trivial

/-- In every state of a run in which no index is staged after its deletion, the index of a
`SUCCEEDED` cleanup job does not exist. -/
theorem index_deletion {labels : List (PoolLabel Thread Choice)} {p : Pool World Thread}
    (hrun : GuardedRun (poolStep services) (fun p l => StagesBeforeDeletion p l = true) Pool.empty
      labels p)
    {job : CleanupJobV1} (hjob : job ∈ p.world.db.cleanupJobs.rows)
    (hsucceeded : job.status = .succeeded)
    {backend : IndexBackend} (hbackend : job.backend = backend.cleanupBackend) :
    p.world.indexes backend (job.ownerId, job.documentVersionId) = none := by
  have hempty : DeletedIndexes World.empty :=
    ⟨World.QueueSound.empty, fun _ hjob => (by cases hjob)⟩
  exact (deletion_outline.holds_of_run hrun (Assertions.holds_nil hempty)).world.deleted job hjob
    hsucceeded backend hbackend

end Steps

/-- A publication, then its version's deletion and the cleanup of both indexes. -/
def deletedPublication : List ScriptStep :=
  samplePreparation false ++ .publish 0 :: calmActs 1 7 ++ sampleInactivation 2 ++
    sampleCleanup 3 2 (fixedId "lease_1") ++ sampleCleanup 4 2 (fixedId "lease_2")

theorem index_deletion_published :
    ∃ p, GuardedRun (poolStep sampleServices) (fun p l => StagesBeforeDeletion p l = true)
        Pool.empty (scriptLabels sampleServices Pool.empty deletedPublication) p ∧
      ∃ job ∈ p.world.db.cleanupJobs.rows, job.status = .succeeded ∧
        p.world.indexes .milvus (job.ownerId, job.documentVersionId) = none := by
  have hrun : ((guardedRun? (poolStep sampleServices) (fun p l => StagesBeforeDeletion p l = true)
      Pool.empty (scriptLabels sampleServices Pool.empty deletedPublication)).any
        fun p => p.world.db.cleanupJobs.rows.any fun job => decide (job.status = .succeeded) &&
          decide (job.backend = .milvusVectors)) = true := by
    decide +kernel
  obtain ⟨p, hp, hany⟩ := (Option.any_eq_true _ _).mp hrun
  obtain ⟨job, hjob, hall⟩ := List.any_eq_true.mp hany
  simp only [Bool.and_eq_true, decide_eq_true_eq] at hall
  have hguarded := GuardedRun.of_eval hp
  exact ⟨p, hguarded, job, hjob, hall.1,
    index_deletion hguarded hjob hall.1 (show _ = IndexBackend.milvus.cleanupBackend from hall.2)⟩

/-- A publication stalls before it stages; the version is deleted and both indexes are cleaned up;
then the publication stages. -/
def lateStaging : List ScriptStep :=
  samplePreparation false ++ .publish 0 :: sampleInactivation 2 ++
    sampleCleanup 3 2 (fixedId "lease_1") ++ sampleCleanup 4 2 (fixedId "lease_2") ++ calmActs 1 2

/-- Every thread is finished, the version is `INACTIVE`, both cleanup jobs of its indexes are
`SUCCEEDED`, and its Elasticsearch index exists. -/
theorem staged_after_deletion :
    ∃ p, run (poolStep sampleServices) Pool.empty (scriptLabels sampleServices Pool.empty
      lateStaging) = some p ∧ p.threads.length = 5 ∧ p.threads.all Thread.finished = true ∧
      ∃ v ∈ p.world.db.versions.rows, v.lifecycleStatus = .inactive ∧
        (∀ backend : IndexBackend, ∃ job ∈ p.world.db.cleanupJobs.rows, job.status = .succeeded ∧
          CleanupJobV1.isFor job backend v.ownerId v.documentVersionId = true) ∧
        (p.world.indexes .elasticsearch (v.ownerId, v.documentVersionId)).isSome = true := by
  have hrun : ((run (poolStep sampleServices) Pool.empty
      (scriptLabels sampleServices Pool.empty lateStaging)).any fun p =>
        decide (p.threads.length = 5) && p.threads.all Thread.finished &&
          p.world.db.versions.rows.any fun v => decide (v.lifecycleStatus = .inactive) &&
            ([IndexBackend.elasticsearch, .milvus].all
              fun backend => p.world.db.cleanupJobs.rows.any fun job =>
              decide (job.status = .succeeded) &&
                CleanupJobV1.isFor job backend v.ownerId v.documentVersionId) &&
            (p.world.indexes .elasticsearch (v.ownerId, v.documentVersionId)).isSome) = true := by
    decide +kernel
  obtain ⟨p, hp, hall⟩ := (Option.any_eq_true _ _).mp hrun
  simp only [Bool.and_eq_true, decide_eq_true_eq, List.any_eq_true] at hall
  obtain ⟨⟨hlength, hthreads⟩, v, hv, ⟨hinactive, hjobs⟩, hindex⟩ := hall
  refine ⟨p, hp, hlength, hthreads, v, hv, hinactive, fun backend => ?_, hindex⟩
  have hbackend : backend ∈ [IndexBackend.elasticsearch, .milvus] := by cases backend <;> decide
  simpa using List.all_eq_true.mp hjobs backend hbackend

end ZhiyanRag.Ingestion
