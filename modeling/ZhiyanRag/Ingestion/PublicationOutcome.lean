import ZhiyanRag.Ingestion.IndexEffects
import ZhiyanRag.Ingestion.Views

/-!
# The outcome of one publication

A publication that runs on its own, with any pattern of failing calls. From the first activation on
every call sits inside a handler, and the three stores end up consistent (`late_outcome`); a failed
staging call is handled too. The progress update between the stagings is not: when it is reached and
raises, the function leaves by that error with the job `RUNNING`. So the outcome is consistent
exactly when every progress update that is reached succeeds.
-/

namespace ZhiyanRag.Ingestion

open Relational ZhiyanRag.Storage Steps

/-- The thread runs on its own, one choice for each call, until it is finished. -/
def runAlone (services : Services) : World → Thread → List Choice → World × Thread
  | w, t, [] => (w, t)
  | w, t, choice :: choices =>
    match t.step services w choice with
    | some (w', t') => runAlone services w' t' choices
    | none => (w, t)

/-- Absent, or without an active row. -/
def World.inactive (w : World) (backend : IndexBackend) (key : String × String) : Bool :=
  (w.indexes backend key).all PhysicalIndex.allInactive

namespace PublicationError

def code? : PublicationError → Option String
  | indexLifecycle code _ _ => some code
  | raised _ => none

def compensationFailures : PublicationError → List String
  | indexLifecycle _ _ failures => failures
  | raised _ => []

end PublicationError

/-- The owner and version of a preparation. -/
def PersistentIngestionPreparation.key (preparation : PersistentIngestionPreparation) :
    String × String :=
  (preparation.version.ownerId, preparation.version.documentVersionId)

/-- The version is `READY`, the job `SUCCEEDED` and both indexes are fully active. -/
structure Published (preparation : PersistentIngestionPreparation) (w : World) : Prop where
  version : ∃ v, w.db.versions.find? preparation.version.documentVersionId = some v ∧
    v.lifecycleStatus = .ready
  job : ∃ job, w.db.ingestionJobs.find? preparation.job.jobId = some job ∧ job.status = .succeeded
  indexes : ∀ backend, w.fullyActive backend preparation.key = true

/-- The version is not `READY`, each index is inactive or its deactivation is reported, and the
failure is recorded under the error's code or that is reported. -/
structure FailedClosed (preparation : PersistentIngestionPreparation) (w : World)
    (error : PublicationError) : Prop where
  version : ∃ v, w.db.versions.find? preparation.version.documentVersionId = some v ∧
    v.lifecycleStatus ≠ .ready
  indexes : ∀ backend, backend.value ++ ":deactivate" ∈ error.compensationFailures ∨
    w.inactive backend preparation.key = true
  recorded : "fact_source:record_failure" ∈ error.compensationFailures ∨ ∃ v job code,
    w.db.versions.find? preparation.version.documentVersionId = some v ∧
    w.db.ingestionJobs.find? preparation.job.jobId = some job ∧ error.code? = some code ∧
    job.status = .failed ∧ v.lifecycleStatus = .processing ∧ job.failureCode = some code ∧
    v.failureCode = some code

/-- The publication returned with everything published, or raised with everything closed. -/
def ConsistentOutcome (preparation : PersistentIngestionPreparation) (w : World) : Thread → Prop
  | .publisher _ (.returned _) => Published preparation w
  | .publisher _ (.raised error) => FailedClosed preparation w error
  | _ => False

/-! ### What the calls leave in the fact source -/

section Calls

variable {db db' : Database} {v : DocumentVersionLifecycleV1} {now : Timestamp}

/-- The row after a progress update. -/
def progressed (v : DocumentVersionLifecycleV1) (states : IndexStatesV1) (now : Timestamp) :
    DocumentVersionLifecycleV1 :=
  { v with
    indexStates := states, failureCode := none, lifecycleRevision := v.lifecycleRevision + 1,
    updatedAt := now }

theorem progressed_valid {states : IndexStatesV1} (hvalid : v.Valid)
    (hstatus : v.lifecycleStatus = .processing) : (progressed v states now).Valid := by
  refine ⟨hvalid.paperId, hvalid.documentId, hvalid.ownerId, hvalid.documentVersionId,
    hvalid.contentSha256, hvalid.sourceSnapshotSha256, hvalid.parseVersion, ?_, rfl,
    hvalid.inactive, fun hfailed => ?_, fun hready => ?_⟩
  · have := hvalid.revision
    simp only [progressed]
    omega
  · simp [progressed, hstatus] at hfailed
  · simp [progressed, hstatus] at hready

/-- A progress update of the stored row succeeds as long as the revision fits its column. -/
theorem progress_ok (states : IndexStatesV1) (now : Timestamp)
    (hstored : db.versions.find? v.documentVersionId = some v) (hvalid : v.Valid)
    (hstatus : v.lifecycleStatus = .processing) (hrange : v.lifecycleRevision + 1 ≤ integerMax) :
    transitionVersion noCoercion db v.ownerId v.documentVersionId v.lifecycleRevision .processing
        [(.indexStates, .states states), (.failureCode, .none)] now =
      .ok ({ db with versions := db.versions.set (progressed v states now) },
        progressed v states now) := by
  have howned : db.ownedVersion? v.ownerId v.documentVersionId = some v :=
    Database.ownedVersion?_eq_some.mpr ⟨hstored, rfl⟩
  have hrow : v.validate = .ok v := DocumentVersionLifecycleV1.validate_eq_ok.mpr ⟨rfl, hvalid⟩
  have hnew : (progressed v states now).validate = .ok (progressed v states now) :=
    DocumentVersionLifecycleV1.validate_eq_ok.mpr ⟨rfl, progressed_valid hvalid hstatus⟩
  have hcandidate : transitionCandidate noCoercion v v.lifecycleRevision .processing
      [(.indexStates, .states states), (.failureCode, .none)] now =
        .ok (progressed v states now) := by
    unfold transitionCandidate
    rw [ensure_true_bind (by simp), ensure_true_bind (by simp [hstatus])]
    refine bind_eq_ok.mpr ⟨{ v with indexStates := states, failureCode := none }, rfl, ?_⟩
    have hstamp :
        DocumentVersionLifecycleV1.stamped { v with indexStates := states, failureCode := none }
          (v.lifecycleRevision + 1) .processing now = progressed v states now := by
      simp [DocumentVersionLifecycleV1.stamped, progressed, hstatus]
    rw [hstamp]
    exact hnew
  obtain ⟨-, hupdate, -⟩ := transitionCandidate_ok hcandidate
  have hactive : db.oneActive (progressed v states now) = true := by
    simp [Database.oneActive, DocumentVersionLifecycleV1.isActive, progressed, hstatus]
  unfold transitionVersion
  refine ensure_bind.mpr ⟨rfl, ?_⟩
  rw [howned]
  refine bind_eq_ok.mpr ⟨v, hrow, bind_eq_ok.mpr ⟨_, hcandidate, bind_eq_ok.mpr ⟨_, ?_,
    bind_eq_ok.mpr ⟨_, hnew, rfl⟩⟩⟩⟩
  rw [updateDocumentVersionLifecycle_of_update hupdate hrange, if_pos hactive]

/-- A committed transition fits the revision column. -/
theorem transitionVersion_range {ownerId documentVersionId : String} {expectedRevision : Int}
    {targetStatus : LifecycleStatus} {updates : List (UpdateKey × UpdateValue Empty)}
    {new : DocumentVersionLifecycleV1}
    (h : transitionVersion noCoercion db ownerId documentVersionId expectedRevision targetStatus
      updates now = .ok (db', new)) : expectedRevision + 1 ≤ integerMax := by
  have hcommit := h
  unfold transitionVersion at h
  obtain ⟨-, h⟩ := ensure_bind.mp h
  split at h
  · cases h
  obtain ⟨current, -, h⟩ := bind_eq_ok.mp h
  obtain ⟨candidate, hcandidate, h⟩ := bind_eq_ok.mp h
  obtain ⟨db₁, hdb, h⟩ := bind_eq_ok.mp h
  obtain ⟨hrange, -⟩ := ensure_bind.mp hdb
  obtain ⟨hrevision, hupdate, -⟩ := transitionCandidate_ok hcandidate
  rw [decide_eq_true_eq, hupdate.revision, hrevision] at hrange
  exact hrange

/-- The row that a job update leaves behind. -/
theorem updateIngestionJob_stored {ownerId jobId : String} {status : IngestionJobStatus}
    {failureCode : Option String} {job : IngestionJobV1}
    (h : updateIngestionJob db ownerId jobId status failureCode now = .ok (db', job)) :
    db'.versions = db.versions ∧ db'.ingestionJobs.find? jobId = some job ∧ job.status = status ∧
      job.failureCode = failureCode := by
  obtain ⟨rfl, stored, hstored, -, hrow⟩ := updateIngestionJob_ok h
  have hkey : job.jobId = jobId := by
    rw [hrow, ← Table.key_of_find? hstored]
  refine ⟨rfl, ?_, by rw [hrow], by rw [hrow]⟩
  have hset : (db.ingestionJobs.set job).find? job.jobId = some job :=
    Table.find?_set_self (hkey ▸ hstored)
  rwa [hkey] at hset

theorem validateFailureCode_str {code : String} {stored : Option String}
    (h : validateFailureCode noCoercion (.str code) = .ok stored) :
    stored = some (stripWhitespace code) := by
  obtain ⟨coerced, hcoerced, hpure⟩ := bind_eq_ok.mp h
  cases pure_eq_ok.mp hpure
  unfold coerceContractId at hcoerced
  split at hcoerced
  · cases hcoerced
    rfl
  · cases hcoerced

/-- A committed transition of the version with this identifier stores its row there. -/
theorem transitionVersion_key {ownerId documentVersionId : String} {expectedRevision : Int}
    {targetStatus : LifecycleStatus} {updates : List (UpdateKey × UpdateValue Empty)}
    {new : DocumentVersionLifecycleV1}
    (h : transitionVersion noCoercion db ownerId documentVersionId expectedRevision targetStatus
      updates now = .ok (db', new)) :
    db'.versions.find? documentVersionId = some new ∧ new.lifecycleStatus = targetStatus := by
  have hstored := transitionVersion_stored h
  obtain ⟨old, hold, -, hupdate, -, -, patched, -, hnew⟩ := transitionVersion_ok h
  have hkey : new.documentVersionId = documentVersionId := by
    rw [hupdate.documentVersionId]
    exact Table.key_of_find? (Database.ownedVersion?_eq_some.mp hold).1
  rw [hkey] at hstored
  refine ⟨hstored, ?_⟩
  rw [hnew]
  rfl

end Calls

/-! ### Calls without generated identifiers -/

section

variable (services : Services)

/-- The outcome of a call that draws no identifier. -/
def World.call (w : World) (choice : Choice) (operation : Operation) :
    World × Except PyError operation.Result :=
  if choice.fails then (w, .error outage)
  else match w.perform services operation with
    | .ok (w', result) => (w', .ok result)
    | .error e => (w, .error e)

variable {services} {w : World} {choice : Choice} {operation : Operation}

theorem World.attempt_eq_call (hids : operation.newIds = []) :
    w.attempt services choice operation = some (w.call services choice operation) := by
  unfold World.attempt World.call
  rw [hids]
  simp only [List.all_nil, if_true, List.nil_append]
  split
  · rfl
  · split <;> simp_all

theorem World.call_outcome (hids : operation.newIds = []) :
    Outcome services w (w.call services choice operation).1 choice operation
      (w.call services choice operation).2 :=
  attempt_outcome (World.attempt_eq_call hids)

theorem World.call_ok {w' : World} {result : operation.Result} (hfails : choice.fails = false)
    (h : w.perform services operation = .ok (w', result)) :
    w.call services choice operation = (w', .ok result) := by
  unfold World.call
  rw [hfails, h]
  rfl

/-- A call that cannot return leaves the stores alone. -/
theorem World.call_error
    (h : choice.fails = true ∨ ∀ w' result, w.perform services operation ≠ .ok (w', result)) :
    ∃ e, w.call services choice operation = (w, .error e) := by
  unfold World.call
  split
  · exact ⟨outage, rfl⟩
  · rename_i hfails
    split
    · rename_i w' result hperform
      exact absurd hperform (h.resolve_left hfails w' result)
    · rename_i e _
      exact ⟨e, rfl⟩

variable {preparation : PersistentIngestionPreparation} {state : PublisherState}
  {pending : Pending PublisherState} {choices : List Choice}

theorem publisher_newIds (hnext : state.next services preparation choice = some pending) :
    pending.operation.newIds = [] := by
  cases state <;> cases hnext <;> rfl

theorem runAlone_call (hnext : state.next services preparation choice = some pending) :
    runAlone services w (.publisher preparation state) (choice :: choices) =
      runAlone services (w.call services choice pending.operation).1
        (.publisher preparation (pending.resume (w.call services choice pending.operation).2))
          choices := by
  have hstep : (Thread.publisher preparation state).step services w choice =
      some ((w.call services choice pending.operation).1,
        .publisher preparation (pending.resume (w.call services choice pending.operation).2)) := by
    have hthread : (Thread.publisher preparation state).next services choice =
        some (pending.map (.publisher preparation)) := congrArg (Option.map _) hnext
    have hattempt := @World.attempt_eq_call services w choice _ (publisher_newIds hnext)
    unfold Thread.step
    rw [hthread, Option.bind_some]
    exact Option.map_eq_some_iff.mpr ⟨_, hattempt, rfl⟩
  simp only [runAlone, hstep]

theorem runAlone_finished (hnext : ∀ choice, state.next services preparation choice = none) :
    runAlone services w (.publisher preparation state) choices =
      (w, .publisher preparation state) := by
  cases choices with
  | nil => rfl
  | cons choice choices =>
    have hthread : (Thread.publisher preparation state).next services choice = none :=
      congrArg (Option.map _) (hnext choice)
    have hstep : (Thread.publisher preparation state).step services w choice = none := by
      unfold Thread.step
      rw [hthread]
      rfl
    simp only [runAlone, hstep]

end

/-! ### From the first activation on -/

/-- The index exists and is complete. -/
def World.staged (w : World) (backend : IndexBackend) (key : String × String) : Bool :=
  (w.indexes backend key).any PhysicalIndex.complete

/-- The index is inactive, or its failed deactivation is on the list. -/
def World.Closed (w : World) (key : String × String) (failures : List String)
    (backend : IndexBackend) : Prop :=
  backend.value ++ ":deactivate" ∈ failures ∨ w.inactive backend key = true

/-- The copy `v` is the stored row of the prepared version, and `PROCESSING`. -/
structure PersistentIngestionPreparation.Held (preparation : PersistentIngestionPreparation)
    (w : World) (v : DocumentVersionLifecycleV1) : Prop where
  stored : w.db.versions.find? preparation.version.documentVersionId = some v
  status : v.lifecycleStatus = .processing
  ownerId : v.ownerId = preparation.version.ownerId

/-- What holds at each point of the activation and of its handlers. -/
def PersistentIngestionPreparation.Late (preparation : PersistentIngestionPreparation) (w : World) :
    PublisherState → Prop
  | .activate backend version _ => preparation.Held w version ∧
      (∀ b, w.staged b preparation.key = true) ∧
      (backend = .milvus → w.fullyActive .elasticsearch preparation.key = true)
  | .finalize version _ => preparation.Held w version ∧ ∀ b, w.fullyActive b preparation.key = true
  | .compensate backend version failure failures => preparation.Held w version ∧
      stripWhitespace failure.code = failure.code ∧ (∀ b, w.staged b preparation.key = true) ∧
      (backend = .milvus → w.Closed preparation.key failures .elasticsearch)
  | .recordFailure version failure failures => preparation.Held w version ∧
      stripWhitespace failure.code = failure.code ∧ ∀ b, w.Closed preparation.key failures b
  | .returned result => ConsistentOutcome preparation w (.publisher preparation (.returned result))
  | .raised error => ConsistentOutcome preparation w (.publisher preparation (.raised error))
  | .stage .. | .progress .. => False

/-- The calls that are left at most. -/
def PublisherState.remaining : PublisherState → Nat
  | activate .elasticsearch _ _ => 6
  | activate .milvus _ _ => 5
  | finalize _ _ => 4
  | compensate .elasticsearch _ _ _ => 3
  | compensate .milvus _ _ _ => 2
  | recordFailure _ _ _ => 1
  | _ => 0

theorem stageFailed_code (backend : IndexBackend) :
    stripWhitespace (stageFailed backend).code = (stageFailed backend).code := by
  cases backend <;> decide +kernel

theorem activationFailed_code (backend : IndexBackend) :
    stripWhitespace (activationFailed backend).code = (activationFailed backend).code := by
  cases backend <;> decide +kernel

theorem finalizationFailed_code :
    stripWhitespace finalizationFailed.code = finalizationFailed.code := by
  decide +kernel

section Late

variable {services : Services} {w w' : World} {choice : Choice} {operation : Operation}
  {outcome : Except PyError operation.Result} {preparation : PersistentIngestionPreparation}
  {version : DocumentVersionLifecycleV1}

theorem World.staged_iff {backend : IndexBackend} {key : String × String} :
    w.staged backend key = true ↔ ∃ index, w.indexes backend key = some index ∧
    index.complete = true := by
  simp [World.staged, Option.any_eq_true]

theorem World.staged_of_fullyActive {backend : IndexBackend} {key : String × String}
    (h : w.fullyActive backend key = true) : w.staged backend key = true := by
  obtain ⟨index, hindex, hfully⟩ := World.fullyActive_iff.mp h
  exact World.staged_iff.mpr ⟨index, hindex, (PhysicalIndex.fullyActive_iff.mp hfully).1⟩

namespace PersistentIngestionPreparation.Held

theorem documentVersionId (h : preparation.Held w version) :
    version.documentVersionId = preparation.version.documentVersionId :=
  Table.key_of_find? h.stored

theorem key (h : preparation.Held w version) :
    (version.ownerId, version.documentVersionId) = preparation.key := by
  rw [h.ownerId, h.documentVersionId]
  rfl

theorem of_db (h : preparation.Held w version) (hdb : w'.db = w.db) : preparation.Held w' version :=
  ⟨by rw [hdb]; exact h.stored, h.status, h.ownerId⟩

end PersistentIngestionPreparation.Held

/-- A change of activity keeps a complete index complete. -/
theorem staged_setIndex {backend b : IndexBackend} {key k : String × String}
    {old new : PhysicalIndex} {isActive : Bool} (hstaged : w.staged b k = true)
    (hold : w.indexes backend key = some old)
    (hnew : old.complete = true → new = old.withActive isActive)
    (hset : w'.indexes = (w.setIndex backend key (some new)).indexes) : w'.staged b k = true := by
  obtain ⟨index, hindex, hcomplete⟩ := World.staged_iff.mp hstaged
  rw [World.staged_iff, hset, World.setIndex_indexes]
  by_cases hkey : b = backend ∧ k = key
  · obtain ⟨rfl, rfl⟩ := hkey
    rw [if_pos ⟨rfl, rfl⟩]
    cases hold.symm.trans hindex
    refine ⟨new, rfl, ?_⟩
    rw [hnew hcomplete, PhysicalIndex.withActive_complete]
    exact hcomplete
  · rw [if_neg hkey]
    exact ⟨index, hindex, hcomplete⟩

/-- An activation or a deactivation, whatever its outcome, keeps the indexes complete and the rows
as they are. -/
theorem Outcome.staged {backend b : IndexBackend} {ownerId vid : String} {k : String × String}
    (hop : operation = .activateVersion backend ownerId vid ∨
      operation = .deactivateVersion backend ownerId vid)
    (h : Outcome services w w' choice operation outcome) (hstaged : w.staged b k = true) :
    w'.db = w.db ∧ w'.staged b k = true := by
  obtain ⟨e, -, hsame⟩ | ⟨result, -, -, heffect⟩ := h.stores
  · refine ⟨hsame.db, ?_⟩
    unfold World.staged
    rw [hsame.indexes]
    exact hstaged
  · rcases hop with rfl | rfl
    · cases heffect with
      | activateVersion _ _ _ index hcall hdb hset _ =>
        obtain ⟨old, new, hold, rfl, hnew⟩ := activateVersion_ok hcall
        exact ⟨hdb, staged_setIndex hstaged hold hnew hset⟩
    · cases heffect with
      | deactivateVersion _ _ _ index hcall hdb hset _ =>
        refine ⟨hdb, ?_⟩
        obtain ⟨hnone, rfl⟩ | ⟨old, new, hold, rfl, hnew⟩ := deactivateVersion_ok hcall
        · unfold World.staged at hstaged ⊢
          rw [hset, World.setIndex_indexes]
          split
          · rename_i hkey
            rw [hkey.1, hkey.2, hnone] at hstaged
            exact hstaged
          · exact hstaged
        · exact staged_setIndex hstaged hold hnew hset

/-- After a deactivation that returns, a complete index is inactive; one that raises is put on the
list. -/
theorem Outcome.closed {backend : IndexBackend} {ownerId vid : String} (failures : List String)
    {outcome : Except PyError (Operation.deactivateVersion backend ownerId vid).Result}
    (hstaged : w.staged backend (ownerId, vid) = true) :
    Outcome services w w' choice (.deactivateVersion backend ownerId vid) outcome →
    w'.Closed (ownerId, vid) (match outcome with
      | .ok () => failures
      | .error _ => failures ++ [backend.value ++ ":deactivate"]) backend := by
  intro h
  cases outcome with
  | error e => exact .inl (by simp)
  | ok result =>
    cases h.result_effect with
    | deactivateVersion _ _ _ index hcall _ hset _ =>
      obtain ⟨i, hi, hcomplete⟩ := World.staged_iff.mp hstaged
      obtain ⟨hnone, -⟩ | ⟨old, new, hold, rfl, hnew⟩ := deactivateVersion_ok hcall
      · cases hnone.symm.trans hi
      · cases hold.symm.trans hi
        refine .inr ?_
        unfold World.inactive
        rw [hset, World.setIndex_indexes, if_pos ⟨rfl, rfl⟩, Option.all_some, hnew hcomplete]
        exact PhysicalIndex.withActive_false_allInactive

/-- Deactivating the other backend's index keeps an index closed. -/
theorem Outcome.closed_other {b backend : IndexBackend} {ownerId vid : String} {k : String × String}
    {failures : List String}
    {outcome : Except PyError (Operation.deactivateVersion backend ownerId vid).Result}
    (hne : b ≠ backend) (hclosed : w.Closed k failures b) :
    Outcome services w w' choice (.deactivateVersion backend ownerId vid) outcome →
    w'.Closed k (match outcome with
      | .ok () => failures
      | .error _ => failures ++ [backend.value ++ ":deactivate"]) b := by
  intro h
  rcases hclosed with hlisted | hinactive
  · refine .inl ?_
    cases outcome with
    | ok result => exact hlisted
    | error e => exact List.mem_append_left _ hlisted
  · refine .inr ?_
    unfold World.inactive at hinactive ⊢
    obtain ⟨e, -, hsame⟩ | ⟨result, -, -, heffect⟩ := h.stores
    · rw [hsame.indexes]
      exact hinactive
    · cases heffect with
      | deactivateVersion _ _ _ index _ _ hset _ =>
        rw [hset, World.setIndex_indexes, if_neg fun hkey => hne hkey.1]
        exact hinactive

/-! ### One step of the late phase -/

theorem finalized_late {receipts : List IndexWriteReceipt} {new : DocumentVersionLifecycleV1}
    {job : IngestionJobV1} {vectorIndexTime : Datetime} {now : Timestamp}
    (hheld : preparation.Held w version) (hactive : ∀ b, w'.fullyActive b preparation.key = true)
    (h : finalizeIndexingSuccess noCoercion w.db version.ownerId version.documentVersionId
      version.lifecycleRevision (.states DocumentVersionLifecycleV1.bothReady) vectorIndexTime
        preparation.job.jobId now = .ok (w'.db, new, job)) :
    preparation.Late w' (.returned ⟨new, job, receipts⟩) := by
  obtain ⟨db₁, hversion, hjob, -⟩ := finalizeIndexingSuccess_ok h
  obtain ⟨hstored, hstatus⟩ := transitionVersion_key hversion
  obtain ⟨hversions, hjobStored, hjobStatus, -⟩ := updateIngestionJob_stored hjob
  refine ⟨⟨new, ?_, hstatus⟩, ⟨job, hjobStored, hjobStatus⟩, hactive⟩
  rw [hversions, ← hheld.documentVersionId]
  exact hstored

/-- A failure that was recorded, or could not be, leaves everything closed. -/
theorem recorded_late {failure : PublicationFailure} {failures : List String}
    {new : DocumentVersionLifecycleV1} {job : IngestionJobV1} {states : IndexStatesV1}
    {now : Timestamp} (hheld : preparation.Held w version)
    (hcode : stripWhitespace failure.code = failure.code)
    (hclosed : ∀ b, w'.Closed preparation.key failures b)
    (h : recordIndexingFailure noCoercion w.db version.ownerId version.documentVersionId
      version.lifecycleRevision (.states states) preparation.job.jobId failure.code now =
        .ok (w'.db, new, job)) :
    preparation.Late w' (.raised (.indexLifecycle failure.code failure.message failures)) := by
  obtain ⟨db₁, hversion, hjob, -⟩ := recordIndexingFailure_ok h
  obtain ⟨hstored, hstatus⟩ := transitionVersion_key hversion
  obtain ⟨old, -, -, -, -, -, patched, hpatched, hnew⟩ := transitionVersion_ok hversion
  obtain ⟨hversions, hjobStored, hjobStatus, hjobFailure⟩ := updateIngestionJob_stored hjob
  have hfailure : new.failureCode = some failure.code := by
    obtain ⟨patched₁, hstates, hrest⟩ := bind_eq_ok.mp hpatched
    obtain ⟨patched₂, hcoerced, hnil⟩ := bind_eq_ok.mp hrest
    cases pure_eq_ok.mp hnil
    obtain ⟨code, hvalue, hpure⟩ := bind_eq_ok.mp hcoerced
    cases pure_eq_ok.mp hpure
    rw [validateFailureCode_str hvalue, hcode] at hnew
    rw [hnew]
    rfl
  rw [← hversions, hheld.documentVersionId] at hstored
  refine ⟨⟨new, hstored, by rw [hstatus]; decide⟩, hclosed,
    .inr ⟨new, job, failure.code, hstored, hjobStored, rfl, hjobStatus, hstatus, hjobFailure,
      hfailure⟩⟩

/-- A staged index is fully active once `activate_version` returns. -/
theorem fullyActive_of_activated {backend : IndexBackend} {ownerId vid : String} {u : Unit}
    (hstaged : w.staged backend (ownerId, vid) = true)
    (h : Outcome services w w' choice (.activateVersion backend ownerId vid) (.ok u)) :
    w'.fullyActive backend (ownerId, vid) = true := by
  cases h.result_effect with
  | activateVersion _ _ _ index hcall _ hset _ =>
    refine activated_fullyActive (fun i hi => ?_) hcall hset
    obtain ⟨j, hj, hcomplete⟩ := World.staged_iff.mp hstaged
    cases hj.symm.trans hi
    exact hcomplete

theorem activate_late {b : IndexBackend} {v : DocumentVersionLifecycleV1}
    {receipts : List IndexWriteReceipt} {pending : Pending PublisherState}
    {outcome : Except PyError pending.operation.Result}
    (hlate : preparation.Late w (.activate b v receipts))
    (hnext : (.activate b v receipts : PublisherState).next services preparation choice =
      some pending)
    (h : Outcome services w w' choice pending.operation outcome) :
    preparation.Late w' (pending.resume outcome) := by
  obtain ⟨hheld, hstaged, hfirst⟩ := hlate
  cases hnext
  have hkept := fun b' => h.staged (.inl rfl) (hstaged b')
  have hheld' := hheld.of_db (hkept b).1
  cases outcome with
  | error e =>
    exact ⟨hheld', activationFailed_code b, fun b' => (hkept b').2,
      fun hmilvus => by cases hmilvus⟩
  | ok result =>
    have hactive : w'.fullyActive b preparation.key = true := by
      rw [← hheld.key]
      exact fullyActive_of_activated (by rw [hheld.key]; exact hstaged b) h
    cases b with
    | elasticsearch => exact ⟨hheld', fun b' => (hkept b').2, fun _ => hactive⟩
    | milvus =>
      refine ⟨hheld', fun b' => ?_⟩
      cases b' with
      | elasticsearch => exact h.fullyActive (.inr (by simp [Operation.clears])) (hfirst rfl)
      | milvus => exact hactive

theorem finalize_late {v : DocumentVersionLifecycleV1} {receipts : List IndexWriteReceipt}
    {pending : Pending PublisherState} {outcome : Except PyError pending.operation.Result}
    (hlate : preparation.Late w (.finalize v receipts))
    (hnext : (.finalize v receipts : PublisherState).next services preparation choice =
      some pending)
    (h : Outcome services w w' choice pending.operation outcome) :
    preparation.Late w' (pending.resume outcome) := by
  obtain ⟨hheld, hactive⟩ := hlate
  cases hnext
  cases outcome with
  | error e =>
    obtain ⟨e', -, hsame⟩ | ⟨result, hresult, -⟩ := h.stores
    · refine ⟨hheld.of_db hsame.db, finalizationFailed_code, fun b => ?_,
        fun hmilvus => by cases hmilvus⟩
      have hstaged := World.staged_of_fullyActive (hactive b)
      unfold World.staged at hstaged ⊢
      rwa [hsame.indexes]
    · cases hresult
  | ok result =>
    obtain ⟨hcall, hindexes, -⟩ := h.repository
    refine finalized_late hheld (fun b => ?_) hcall
    unfold World.fullyActive
    rw [hindexes]
    exact hactive b

theorem compensate_late {b : IndexBackend} {v : DocumentVersionLifecycleV1}
    {failure : PublicationFailure} {failures : List String} {pending : Pending PublisherState}
    {outcome : Except PyError pending.operation.Result}
    (hlate : preparation.Late w (.compensate b v failure failures))
    (hnext : (.compensate b v failure failures : PublisherState).next services preparation choice =
      some pending)
    (h : Outcome services w w' choice pending.operation outcome) :
    preparation.Late w' (pending.resume outcome) := by
  obtain ⟨hheld, hcode, hstaged, hfirst⟩ := hlate
  cases hnext
  have hkept := fun b' => h.staged (.inr rfl) (hstaged b')
  have hheld' := hheld.of_db (hkept b).1
  have hstagedHere := hstaged b
  rw [← hheld.key] at hstagedHere
  have hclosed := Outcome.closed failures hstagedHere h
  rw [hheld.key] at hclosed
  cases b with
  | elasticsearch =>
    cases outcome <;> exact ⟨hheld', hcode, fun b' => (hkept b').2, fun _ => hclosed⟩
  | milvus =>
    have hother := Outcome.closed_other (by decide) (hfirst rfl) h
    cases outcome <;> exact ⟨hheld', hcode, fun
      | .elasticsearch => hother
      | .milvus => hclosed⟩

theorem recordFailure_late {v : DocumentVersionLifecycleV1} {failure : PublicationFailure}
    {failures : List String} {pending : Pending PublisherState}
    {outcome : Except PyError pending.operation.Result}
    (hlate : preparation.Late w (.recordFailure v failure failures))
    (hnext : (.recordFailure v failure failures : PublisherState).next services preparation choice =
      some pending)
    (h : Outcome services w w' choice pending.operation outcome) :
    preparation.Late w' (pending.resume outcome) := by
  obtain ⟨hheld, hcode, hclosed⟩ := hlate
  cases hnext
  cases outcome with
  | error e =>
    obtain ⟨e', -, hsame⟩ | ⟨result, hresult, -⟩ := h.stores
    · refine ⟨⟨v, (hheld.of_db hsame.db).stored, by rw [hheld.status]; decide⟩, fun b => ?_,
        .inl ?_⟩
      · unfold World.Closed World.inactive at hclosed
        unfold World.inactive
        rw [hsame.indexes]
        exact (hclosed b).imp_left (List.mem_append_left _)
      · exact List.mem_append_right _ (List.mem_singleton_self _)
    · cases hresult
  | ok result =>
    obtain ⟨hcall, hindexes, -⟩ := h.repository
    refine recorded_late hheld hcode (fun b => ?_) hcall
    unfold World.Closed World.inactive
    rw [hindexes]
    exact hclosed b

/-- Each call of the late phase leads to the next point of it. -/
theorem late_step {state : PublisherState} {pending : Pending PublisherState}
    {outcome : Except PyError pending.operation.Result} (hlate : preparation.Late w state)
    (hnext : state.next services preparation choice = some pending)
    (h : Outcome services w w' choice pending.operation outcome) :
    preparation.Late w' (pending.resume outcome) := by
  cases state with
  | stage b v receipts => cases hlate
  | progress b v receipts => cases hlate
  | activate b v receipts => exact activate_late hlate hnext h
  | finalize v receipts => exact finalize_late hlate hnext h
  | compensate b v failure failures => exact compensate_late hlate hnext h
  | recordFailure v failure failures => exact recordFailure_late hlate hnext h
  | returned result => cases hnext
  | raised error => cases hnext

/-- Every call brings the end of the late phase nearer. -/
theorem remaining_decreases {state : PublisherState} {pending : Pending PublisherState}
    (hlate : preparation.Late w state)
    (hnext : state.next services preparation choice = some pending)
    (outcome : Except PyError pending.operation.Result) :
    (pending.resume outcome).remaining < state.remaining := by
  cases state with
  | stage b v receipts => cases hlate
  | progress b v receipts => cases hlate
  | returned result => cases hnext
  | raised error => cases hnext
  | activate b v receipts =>
    cases hnext
    cases b with
    | elasticsearch => cases outcome with
      | ok result => exact (by decide : 5 < 6)
      | error e => exact (by decide : 3 < 6)
    | milvus => cases outcome with
      | ok result => exact (by decide : 4 < 5)
      | error e => exact (by decide : 3 < 5)
  | finalize v receipts =>
    cases hnext
    cases outcome with
    | ok result => exact (by decide : 0 < 4)
    | error e => exact (by decide : 3 < 4)
  | compensate b v failure failures =>
    cases hnext
    cases b with
    | elasticsearch => exact (by decide : 2 < 3)
    | milvus => exact (by decide : 1 < 2)
  | recordFailure v failure failures =>
    cases hnext
    cases outcome <;> exact (by decide : 0 < 1)

/-- From any point of the late phase, enough calls lead to a consistent outcome. -/
theorem late_outcome {state : PublisherState} {choices : List Choice}
    (hlate : preparation.Late w state) (hfuel : state.remaining ≤ choices.length) :
    ConsistentOutcome preparation (runAlone services w (.publisher preparation state) choices).1
      (runAlone services w (.publisher preparation state) choices).2 := by
  induction choices generalizing w state with
  | nil =>
    cases state with
    | stage b v receipts => cases hlate
    | progress b v receipts => cases hlate
    | activate b v receipts => cases b <;> simp [PublisherState.remaining] at hfuel
    | compensate b v failure failures => cases b <;> simp [PublisherState.remaining] at hfuel
    | finalize v receipts => simp [PublisherState.remaining] at hfuel
    | recordFailure v failure failures => simp [PublisherState.remaining] at hfuel
    | returned result => exact hlate
    | raised error => exact hlate
  | cons choice choices ih =>
    cases hnext : state.next services preparation choice with
    | some pending =>
      rw [runAlone_call hnext]
      have hdecreases :=
        remaining_decreases hlate hnext (w.call services choice pending.operation).2
      refine ih (late_step hlate hnext (World.call_outcome (publisher_newIds hnext))) ?_
      rw [List.length_cons] at hfuel
      omega
    | none =>
      cases state with
      | returned result =>
        rw [runAlone_finished fun _ => rfl]
        exact hlate
      | raised error =>
        rw [runAlone_finished fun _ => rfl]
        exact hlate
      | _ => cases hnext

end Late

/-! ### The stagings and their progress updates -/

theorem isOk_iff {α ε : Type} {x : Except ε α} : x.isOk = true ↔ ∃ a, x = .ok a := by
  cases x <;> simp [Except.isOk, Except.toBool]

namespace PersistentIngestionPreparation

variable (services : Services) (preparation : PersistentIngestionPreparation) (w : World)

/-- The staging call of a backend goes through: it does not fail, and the index accepts the chunks.
-/
def stages (backend : IndexBackend) (choice : Choice) : Bool :=
  !choice.fails &&
    (ensureStaged services.chunksFingerprint backend (w.indexes backend preparation.key)
    preparation.version.ownerId preparation.version.documentId preparation.version.documentVersionId
    preparation.ingestion.chunks).isOk

/-- The `count`-th progress update goes through: it does not fail, and the revision fits its column.
-/
def progresses (count : Int) (choice : Choice) : Bool :=
  !choice.fails && decide (preparation.version.lifecycleRevision + count ≤ integerMax)

/-- Every progress update that is reached goes through. -/
def ProgressHolds (choices : Nat → Choice) : Prop :=
  preparation.stages services w .elasticsearch (choices 0) = true →
    preparation.progresses 1 (choices 1) = true ∧
      (preparation.stages services w .milvus (choices 2) = true →
        preparation.progresses 2 (choices 3) = true)

end PersistentIngestionPreparation

section First

variable {services : Services} {w : World} {choice : Choice} {choices : List Choice}
  {preparation : PersistentIngestionPreparation} {version : DocumentVersionLifecycleV1}
  {backend : IndexBackend}
  {receipts : List IndexWriteReceipt}

theorem PersistentIngestionPreparation.Held.ensureStaged_eq (hheld : preparation.Held w version)
    (hdocument : version.documentId = preparation.version.documentId) :
    ensureStaged services.chunksFingerprint backend
        (w.indexes backend (version.ownerId, version.documentVersionId)) version.ownerId
          version.documentId version.documentVersionId preparation.ingestion.chunks =
      ensureStaged services.chunksFingerprint backend (w.indexes backend preparation.key)
        preparation.version.ownerId preparation.version.documentId
          preparation.version.documentVersionId
        preparation.ingestion.chunks := by
  rw [hheld.key, hdocument, hheld.ownerId, hheld.documentVersionId]

/-- A staging that goes through: its index is complete, and inactive if it was so before. -/
theorem stage_ok (receipts : List IndexWriteReceipt) (hheld : preparation.Held w version)
    (hdocument : version.documentId = preparation.version.documentId)
    (hstages : preparation.stages services w backend choice = true) :
    ∃ index receipts', (∀ choices,
        runAlone services w (.publisher preparation (.stage backend version receipts)) (choice ::
          choices) = runAlone services (w.setIndex backend preparation.key (some index))
            (.publisher preparation (.progress backend version receipts')) choices) ∧
      index.complete = true ∧
      (w.inactive backend preparation.key = true → index.allInactive = true) := by
  obtain ⟨hfails, hok⟩ := (Bool.and_eq_true _ _).mp hstages
  have hfails : choice.fails = false := by simpa using hfails
  cases hcall : ensureStaged services.chunksFingerprint backend (w.indexes backend preparation.key)
      preparation.version.ownerId preparation.version.documentId
        preparation.version.documentVersionId
      preparation.ingestion.chunks with
  | error e =>
    rw [hcall] at hok
    cases hok
  | ok result =>
    obtain ⟨index, receipt⟩ := result
    obtain ⟨-, hcomplete, hreceipt, -, hinactive⟩ := ensureStaged_ok hcall
    rw [← hheld.ensureStaged_eq hdocument] at hcall
    refine ⟨index, receipts ++ [receipt], fun choices => ?_, hcomplete, fun h => hinactive
      fun old hold => ?_⟩
    · have hnext :
          (PublisherState.stage backend version receipts).next services preparation choice =
            some ⟨.ensureStaged backend version.ownerId version.documentId version.documentVersionId
            preparation.ingestion.chunks, .staged services preparation backend version receipts⟩ :=
              rfl
      rw [runAlone_call hnext]
      have hperform : w.perform services (.ensureStaged backend version.ownerId version.documentId
          version.documentVersionId preparation.ingestion.chunks) =
            .ok (w.setIndex backend preparation.key (some index), receipt) := by
        refine bind_eq_ok.mpr ⟨(index, receipt), hcall, ?_⟩
        rw [hheld.key]
        rfl
      rw [World.call_ok hfails hperform]
      have hverify : verifyReceipt receipt backend version preparation.ingestion.chunks.length
          (services.chunksFingerprint preparation.ingestion.chunks) = true := by
        simp [verifyReceipt, hreceipt, hheld.ownerId, hheld.documentVersionId]
      simp only [PublisherState.staged]
      rw [if_pos hverify]
    · unfold World.inactive at h
      rw [hold] at h
      exact h

theorem stage_error (hheld : preparation.Held w version)
    (hdocument : version.documentId = preparation.version.documentId)
    (hstages : preparation.stages services w backend choice = false) :
    runAlone services w (.publisher preparation (.stage backend version receipts)) (choice ::
      choices) = runAlone services w
        (.publisher preparation (.recordFailure version (stageFailed backend) [])) choices := by
  have hnext : (PublisherState.stage backend version receipts).next services preparation
      choice = some ⟨.ensureStaged backend version.ownerId version.documentId
        version.documentVersionId preparation.ingestion.chunks,
        .staged services preparation backend version receipts⟩ := rfl
  rw [runAlone_call hnext]
  have hfailed : choice.fails = true ∨ ∀ w' result,
      w.perform services (.ensureStaged backend version.ownerId version.documentId
        version.documentVersionId preparation.ingestion.chunks) ≠ .ok (w', result) := by
    by_cases hfails : choice.fails = true
    · exact .inl hfails
    · refine .inr fun w' result hperform => ?_
      obtain ⟨r, hcall, -⟩ := bind_eq_ok.mp hperform
      rw [hheld.ensureStaged_eq hdocument] at hcall
      simp [PersistentIngestionPreparation.stages, hfails, hcall, Except.isOk, Except.toBool]
        at hstages
  obtain ⟨e, he⟩ := World.call_error hfailed
  rw [he]
  rfl

/-- Where a publication goes after a progress update. -/
def afterProgress (version : DocumentVersionLifecycleV1) (receipts : List IndexWriteReceipt) :
    IndexBackend → PublisherState
  | .elasticsearch => .stage .milvus version receipts
  | .milvus => .activate .elasticsearch version receipts

/-- A progress update that goes through: the next copy is stored, and the indexes are as they were.
-/
theorem progress_goes (backend : IndexBackend) (receipts : List IndexWriteReceipt)
    (hheld : preparation.Held w version) (hvalid : version.Valid) (hfails : choice.fails = false)
    (hrange : version.lifecycleRevision + 1 ≤ integerMax) :
    ∃ w' v', (∀ choices,
        runAlone services w (.publisher preparation (.progress backend version receipts)) (choice ::
          choices) = runAlone services w'
            (.publisher preparation (afterProgress v' receipts backend)) choices) ∧
      preparation.Held w' v' ∧ v'.Valid ∧ v'.documentId = version.documentId ∧
      v'.lifecycleRevision = version.lifecycleRevision + 1 ∧ w'.indexes = w.indexes := by
  have hstored := hheld.stored
  rw [← hheld.documentVersionId] at hstored
  let states := updatedStates version.indexStates backend .ready
  let new := progressed version states choice.now
  have hcall := progress_ok states choice.now hstored hvalid hheld.status hrange
  have hperform :
      w.perform services (.repository (.transitionVersion version.ownerId version.documentVersionId
      version.lifecycleRevision .processing [(.indexStates, .states states), (.failureCode, .none)]
        choice.now)) =
          .ok ({ w with db := { w.db with versions := w.db.versions.set new } }, new) :=
    bind_eq_ok.mpr ⟨_, hcall, rfl⟩
  refine ⟨{ w with db := { w.db with versions := w.db.versions.set new } }, new, fun choices => ?_,
    ⟨?_, hheld.status, hheld.ownerId⟩, progressed_valid hvalid hheld.status, rfl, rfl, rfl⟩
  · rw [runAlone_call rfl, World.call_ok hfails hperform]
    cases backend <;> rfl
  · rw [← hheld.documentVersionId]
    exact Table.find?_set_self hstored

/-- A progress update that fails leaves the function by an error that no handler sees. -/
theorem progress_stops
    (hfailed : choice.fails = true ∨ integerMax < version.lifecycleRevision + 1) :
    ∃ e, runAlone services w (.publisher preparation (.progress backend version receipts))
      (choice :: choices) = (w, .publisher preparation (.raised (.raised e))) := by
  let operation : Operation :=
    .repository (.transitionVersion version.ownerId version.documentVersionId
    version.lifecycleRevision .processing
      [(.indexStates, .states (updatedStates version.indexStates backend .ready)),
        (.failureCode, .none)] choice.now)
  have hnone : choice.fails = true ∨ ∀ w' result,
      w.perform services operation ≠ .ok (w', result) := by
    refine hfailed.imp_right fun hrange w' result hperform => ?_
    obtain ⟨⟨db, new⟩, hcall, -⟩ := bind_eq_ok.mp hperform
    have := transitionVersion_range hcall
    omega
  obtain ⟨e, he⟩ := World.call_error hnone
  refine ⟨e, ?_⟩
  rw [runAlone_call rfl, he]
  exact runAlone_finished fun _ => rfl

/-- An error that no handler sees records nothing. -/
theorem not_consistent_raised {e : PyError} :
    ¬ ConsistentOutcome preparation w (.publisher preparation (.raised (.raised e))) := by
  intro hclosed
  obtain hlisted | ⟨v, job, code, -, -, hcode, -⟩ := FailedClosed.recorded hclosed
  · cases hlisted
  · cases hcode

theorem progresses_true {count : Int} (h : preparation.progresses count choice = true) :
    choice.fails = false ∧ preparation.version.lifecycleRevision + count ≤ integerMax := by
  simpa [PersistentIngestionPreparation.progresses] using h

theorem progresses_false {count : Int} (h : preparation.progresses count choice = false) :
    choice.fails = true ∨ integerMax < preparation.version.lifecycleRevision + count := by
  by_cases hfails : choice.fails = true
  · exact .inl hfails
  · refine .inr ?_
    simpa [PersistentIngestionPreparation.progresses, hfails] using h

/-- A failed staging call leaves inactive indexes behind, and its failure is recorded. -/
theorem stageFailed_late (hheld : preparation.Held w version)
    (hinactive : ∀ b, w.inactive b preparation.key = true) :
    preparation.Late w (.recordFailure version (stageFailed backend) []) :=
  ⟨hheld, stageFailed_code backend, fun b => .inr (hinactive b)⟩

theorem setIndex_inactive (backend : IndexBackend) {index : PhysicalIndex}
    (hindex : index.allInactive = true) (hinactive : ∀ b, w.inactive b preparation.key = true) :
    ∀ b, (w.setIndex backend preparation.key (some index)).inactive b preparation.key = true := by
  intro b
  unfold World.inactive
  rw [World.setIndex_indexes]
  split
  · exact hindex
  · exact hinactive b

/-- Whether a staging goes through depends on its own index. -/
theorem stages_congr {w' : World}
    (h : w'.indexes backend preparation.key = w.indexes backend preparation.key) :
    preparation.stages services w' backend choice =
      preparation.stages services w backend choice := by
  unfold PersistentIngestionPreparation.stages
  rw [h]

/-- From the staging in Milvus on, the outcome is decided by the second progress update. -/
theorem milvus_outcome (hheld : preparation.Held w version) (hvalid : version.Valid)
    (hdocument : version.documentId = preparation.version.documentId)
    (hrevision : version.lifecycleRevision = preparation.version.lifecycleRevision + 1)
    (hinactive : ∀ b, w.inactive b preparation.key = true)
    (hstaged : w.staged .elasticsearch preparation.key = true) (receipts : List IndexWriteReceipt)
    {staging progress : Choice} (hchoices : 6 ≤ choices.length) :
    ConsistentOutcome preparation
        (runAlone services w (.publisher preparation (.stage .milvus version receipts))
          (staging :: progress :: choices)).1
        (runAlone services w (.publisher preparation (.stage .milvus version receipts))
          (staging :: progress :: choices)).2 ↔
      (preparation.stages services w .milvus staging = true →
        preparation.progresses 2 progress = true) := by
  cases hmilvus : preparation.stages services w .milvus staging with
  | false =>
    rw [stage_error hheld hdocument hmilvus]
    refine iff_of_true (late_outcome (stageFailed_late hheld hinactive) ?_) fun h => by cases h
    simp [PublisherState.remaining]
  | true =>
    obtain ⟨index, receipts', hrun, hcomplete, -⟩ := stage_ok receipts hheld hdocument hmilvus
    have hheld' : preparation.Held (w.setIndex .milvus preparation.key (some index)) version :=
      hheld.of_db rfl
    rw [hrun]
    cases hsecond : preparation.progresses 2 progress with
    | false =>
      have hstops : progress.fails = true ∨ integerMax < version.lifecycleRevision + 1 :=
        (progresses_false hsecond).imp_right fun hfull => by omega
      obtain ⟨e, he⟩ := progress_stops hstops
      rw [he]
      exact iff_of_false not_consistent_raised fun h => by cases h rfl
    | true =>
      obtain ⟨hfails, hrange⟩ := progresses_true hsecond
      obtain ⟨w', v', hrun', hheld'', -, -, -, hindexes⟩ :=
        progress_goes .milvus receipts' hheld' hvalid hfails (by omega)
      have hboth : ∀ b, w'.staged b preparation.key = true := by
        intro b
        unfold World.staged at hstaged ⊢
        rw [hindexes, World.setIndex_indexes]
        cases b with
        | elasticsearch => simpa using hstaged
        | milvus => simp [hcomplete]
      rw [hrun']
      refine iff_of_true (late_outcome ⟨hheld'', hboth, fun h => by cases h⟩ ?_) fun _ => rfl
      simpa [afterProgress, PublisherState.remaining] using hchoices

/-- From the first progress update on, the outcome is decided by the progress updates. -/
theorem progress_outcome (hheld : preparation.Held w preparation.version)
    (hvalid : preparation.version.Valid) (hinactive : ∀ b, w.inactive b preparation.key = true)
    (hstaged : w.staged .elasticsearch preparation.key = true) (receipts : List IndexWriteReceipt)
    {first staging second : Choice} (hchoices : 6 ≤ choices.length) :
    ConsistentOutcome preparation
        (runAlone services w
          (.publisher preparation (.progress .elasticsearch preparation.version receipts))
          (first :: staging :: second :: choices)).1
        (runAlone services w
          (.publisher preparation (.progress .elasticsearch preparation.version receipts))
          (first :: staging :: second :: choices)).2 ↔
      preparation.progresses 1 first = true ∧
        (preparation.stages services w .milvus staging = true →
          preparation.progresses 2 second = true) := by
  cases hfirst : preparation.progresses 1 first with
  | false =>
    obtain ⟨e, he⟩ := progress_stops (progresses_false hfirst)
    rw [he]
    exact iff_of_false not_consistent_raised fun h => by cases h.1
  | true =>
    obtain ⟨hfails, hrange⟩ := progresses_true hfirst
    obtain ⟨w', v', hrun, hheld', hvalid', hdocument, hrevision, hindexes⟩ :=
      progress_goes .elasticsearch receipts hheld hvalid hfails hrange
    have hinactive' : ∀ b, w'.inactive b preparation.key = true := by
      intro b
      unfold World.inactive
      rw [hindexes]
      exact hinactive b
    have hstaged' : w'.staged .elasticsearch preparation.key = true := by
      unfold World.staged
      rw [hindexes]
      exact hstaged
    rw [hrun, eq_self, true_and, ← stages_congr (congrFun (congrFun hindexes _) _)]
    exact milvus_outcome hheld' hvalid' hdocument hrevision hinactive' hstaged' receipts hchoices

end First

/-- A publication that runs on its own ends consistently, whatever calls fail, exactly when every
progress update between the stagings that it reaches goes through. -/
theorem publication_outcome {services : Services} {w : World}
    {preparation : PersistentIngestionPreparation}
    (haccepted : validatePreparation preparation = .ok ()) (hvalid : preparation.version.Valid)
    (hstored : w.db.versions.find? preparation.version.documentVersionId = some preparation.version)
    (hinactive : ∀ backend, w.inactive backend preparation.key = true) (choices : Nat → Choice) :
    ConsistentOutcome preparation
        (runAlone services w (.publisher preparation preparation.publish)
          ((List.range 10).map choices)).1
        (runAlone services w (.publisher preparation preparation.publish)
          ((List.range 10).map choices)).2 ↔
      preparation.ProgressHolds services w choices := by
  have hstatus : preparation.version.lifecycleStatus = .processing :=
    of_decide_eq_true (ensure_bind.mp haccepted).1
  have hheld : preparation.Held w preparation.version := ⟨hstored, hstatus, rfl⟩
  have hpublish : preparation.publish = .stage .elasticsearch preparation.version [] := by
    unfold PersistentIngestionPreparation.publish
    rw [haccepted]
  rw [hpublish]
  simp only [show List.range 10 = [0, 1, 2, 3, 4, 5, 6, 7, 8, 9] from rfl, List.map_cons,
    List.map_nil]
  unfold PersistentIngestionPreparation.ProgressHolds
  cases hes : preparation.stages services w .elasticsearch (choices 0) with
  | false =>
    rw [stage_error hheld rfl hes]
    refine iff_of_true (late_outcome (stageFailed_late hheld hinactive) ?_) fun h => by cases h
    simp [PublisherState.remaining]
  | true =>
    obtain ⟨index, receipts, hrun, hcomplete, hkept⟩ := stage_ok [] hheld rfl hes
    have hheld' : preparation.Held (w.setIndex .elasticsearch preparation.key (some index))
        preparation.version := hheld.of_db rfl
    have hinactive' := setIndex_inactive .elasticsearch (hkept (hinactive _)) hinactive
    have hstaged : (w.setIndex .elasticsearch preparation.key (some index)).staged .elasticsearch
        preparation.key = true := by
      unfold World.staged
      rw [World.setIndex_indexes]
      simp [hcomplete]
    -- the staging of one index leaves the other as it was
    have hother : (w.setIndex .elasticsearch preparation.key (some index)).indexes .milvus
        preparation.key = w.indexes .milvus preparation.key := by
      rw [World.setIndex_indexes, if_neg (by simp)]
    rw [hrun, progress_outcome hheld' hvalid hinactive' hstaged receipts (by simp),
      stages_congr hother]
    exact ⟨fun h _ => h, fun h => h rfl⟩

/-- A preparation that `_validate_preparation` accepts, its version and its job as stored, its
indexes inactive. -/
def Publishable (w : World) (preparation : PersistentIngestionPreparation) : Bool :=
  (validatePreparation preparation).isOk && preparation.version.validate.isOk &&
    decide (w.db.versions.find? preparation.version.documentVersionId = some preparation.version) &&
    decide (w.db.ingestionJobs.find? preparation.job.jobId = some preparation.job) &&
    w.inactive .elasticsearch preparation.key && w.inactive .milvus preparation.key

/-- The stores after the sample preparation, with what it returned. -/
def preparedSample : Option (World × PersistentIngestionPreparation) := do
  let p ← run (poolStep sampleServices) Pool.empty
    (scriptLabels sampleServices Pool.empty (samplePreparation false))
  let thread ← p.threads[0]?
  let preparation ← thread.returnedPreparation?
  return (p.world, preparation)

theorem publication_outcome_calm :
    ∃ r, preparedSample = some r ∧ Publishable r.1 r.2 = true ∧
      ConsistentOutcome r.2
        (runAlone sampleServices r.1 (.publisher r.2 r.2.publish)
          ((List.range 10).map fun _ => calm)).1
        (runAlone sampleServices r.1 (.publisher r.2 r.2.publish)
          ((List.range 10).map fun _ => calm)).2 := by
  have hsample :
      (preparedSample.any fun r => Publishable r.1 r.2 && r.2.progresses 1 calm &&
        r.2.progresses 2 calm) =
      true := by decide +kernel
  obtain ⟨⟨w, preparation⟩, hr, hall⟩ := (Option.any_eq_true _ _).mp hsample
  simp only [Bool.and_eq_true] at hall
  obtain ⟨⟨hpublishable, hfirst⟩, hsecond⟩ := hall
  refine ⟨(w, preparation), hr, hpublishable, ?_⟩
  simp only [Publishable, Bool.and_eq_true, decide_eq_true_eq] at hpublishable
  obtain ⟨⟨⟨⟨⟨haccepted, hvalid⟩, hstored⟩, -⟩, hes⟩, hmilvus⟩ := hpublishable
  refine (publication_outcome (isOk_iff.mp haccepted).choose_spec ?_ hstored ?_ fun _ => calm).mpr
    fun _ => ⟨hfirst, fun _ => hsecond⟩
  · obtain ⟨v, hv⟩ := isOk_iff.mp hvalid
    exact (DocumentVersionLifecycleV1.validate_eq_ok.mp hv).2
  · intro b
    cases b with
    | elasticsearch => exact hes
    | milvus => exact hmilvus

/-- The choices under which only the second call, the first progress update, fails. -/
def progressOutage (i : Nat) : Choice := { calm with fails := decide (i = 1) }

/-- The publication of the sample preparation raises an error that is no `IndexLifecycleError`, and
the job stays `RUNNING`. -/
theorem progress_unhandled :
    ∃ r, preparedSample = some r ∧ Publishable r.1 r.2 = true ∧ ∃ w' e,
      runAlone sampleServices r.1 (.publisher r.2 r.2.publish)
        ((List.range 10).map progressOutage) = (w', .publisher r.2 (.raised (.raised e))) ∧
      ∃ job, w'.db.ingestionJobs.find? r.2.job.jobId = some job ∧ job.status = .running := by
  have hsample : (preparedSample.any fun r => Publishable r.1 r.2 &&
      let ended := runAlone sampleServices r.1 (.publisher r.2 r.2.publish)
        ((List.range 10).map progressOutage)
      decide (ended.2 = .publisher r.2 (.raised (.raised outage))) &&
        (ended.1.db.ingestionJobs.find? r.2.job.jobId).any fun job =>
          decide (job.status = .running)) = true := by
    decide +kernel
  obtain ⟨r, hr, hall⟩ := (Option.any_eq_true _ _).mp hsample
  simp only [Bool.and_eq_true, decide_eq_true_eq, Option.any_eq_true] at hall
  obtain ⟨hpublishable, hended, job, hjob, hrunning⟩ := hall
  exact ⟨r, hr, hpublishable, _, outage, Prod.ext rfl hended, job, hjob, hrunning⟩

end ZhiyanRag.Ingestion
