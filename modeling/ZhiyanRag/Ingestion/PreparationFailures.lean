import ZhiyanRag.Ingestion.PublicationOutcome

/-!
# What a failed preparation leaves behind

One preparation from its start to its end, where everything around it may raise: each store call,
`ingest_pdf_bytes` with any exception, and the clock. The version and the job are written by
separate commits, and only `PdfIngestionError` is caught. `preparation_recorded_iff` says which
runs end with the two rows in agreement: those in which none of four steps goes wrong.
-/

namespace ZhiyanRag.Ingestion

open Relational ZhiyanRag.Storage Steps

/-- What `ingest_pdf_bytes` raises. -/
inductive IngestException
  | pdfIngestion (error : PdfIngestionError)
  | other (error : PyError)

/-- What surrounds one step: how its call comes out, and what `ingest_pdf_bytes` and the clock raise
in it. -/
structure Surroundings extends Choice where
  ingestRaises : Option IngestException := none
  clockRaises : Option PyError := none

/-- Where a preparation is: at a state of its program, or about to enter `ingest_pdf_bytes`. -/
inductive PreparationPoint
  | calling (state : PreparerState)
  | ingesting (identity : DocumentIdentityV1) (version : DocumentVersionLifecycleV1)
      (job : IngestionJobV1)

/-- A preparation that runs alone: the version and the job once the job is set `RUNNING`, and
whether a repository call has raised. A failing `persist_runtime_snapshot` does not count. -/
structure PreparationRun where
  world : World
  point : PreparationPoint
  started : Option (String × String)
  callRaised : Bool

namespace PreparationRun

section

variable (services : Services) (request : PreparationRequest)

def initial (w : World) : PreparationRun := ⟨w, .calling (request.start services), none, false⟩

/-- `ingest_pdf_bytes` and its handler. -/
def ingested (raises : Option IngestException) (identity : DocumentIdentityV1)
    (version : DocumentVersionLifecycleV1) (job : IngestionJobV1) : PreparerState :=
  match raises with
  | none => request.ingest services identity version job
  | some (.pdfIngestion e) => .failVersion version job e.code (.pdfIngestion e)
  | some (.other e) => .raised (.raised e)

/-- The repository calls, `persist_runtime_snapshot` aside. -/
def counts : Operation → Bool
  | .repository (.persistRuntimeSnapshot ..) => false
  | .repository _ => true
  | _ => false

/-- The call at a state of the program. -/
def call (r : PreparationRun) (s : Surroundings) (state : PreparerState) : Option PreparationRun :=
  (state.next services request s.toChoice).bind fun pending =>
    (r.world.attempt services s.toChoice pending.operation).map fun result =>
      ⟨result.1, .calling (pending.resume result.2), r.started,
        r.callRaised || (counts pending.operation && !result.2.isOk)⟩

/-- The job update that starts the run. -/
def startJob (r : PreparationRun) (s : Surroundings) (identity : DocumentIdentityV1)
    (version : DocumentVersionLifecycleV1) (job : IngestionJobV1) : Option PreparationRun :=
  (r.world.attempt services s.toChoice
    (.repository (.updateIngestionJob request.ownerId job.jobId .running none s.now))).map
      fun result =>
      match result.2 with
      | .ok (job : IngestionJobV1) =>
        ⟨result.1, .ingesting identity version job, some (version.documentVersionId, job.jobId),
          r.callRaised⟩
      | .error e => ⟨result.1, .calling (.raised (.raised e)), r.started, true⟩

/-- One step. The clock is read before the progress update. -/
def step (r : PreparationRun) (s : Surroundings) : Option PreparationRun :=
  match r.point with
  | .ingesting identity version job =>
    some { r with
      point := .calling (ingested services request s.ingestRaises identity version job) }
  | .calling (.startJob identity version job) => r.startJob services request s identity version job
  | .calling (.recordProgress identity version job ingestion) =>
    match s.clockRaises with
    | some e => some { r with point := .calling (.raised (.raised e)) }
    | none => r.call services request s (.recordProgress identity version job ingestion)
  | .calling state => r.call services request s state

end

/-- The run has ended with an exception. -/
def endedRaising (r : PreparationRun) : Bool :=
  match r.point with
  | .calling (.raised _) => true
  | _ => false

def ended (r : PreparationRun) : Bool :=
  match r.point with
  | .calling (.returned ..) | .calling (.raised _) => true
  | _ => false

/-- The two rows agree. -/
structure Agrees (r : PreparationRun) (version : DocumentVersionLifecycleV1)
    (job : IngestionJobV1) : Prop where
  failed : version.lifecycleStatus = .failed ↔ job.status = .failed ∧
    job.failureCode = version.failureCode
  review : version.lifecycleStatus = .review → job.status = .failed ∧
    job.failureCode = some "PARSE_REVIEW_REQUIRED"
  notRunning : r.endedRaising = true → r.callRaised = false → job.status ≠ .running

/-- The stored rows of a started run agree. -/
def Recorded (r : PreparationRun) : Prop :=
  ∀ ids ∈ r.started, ∃ version job, r.world.db.versions.find? ids.1 = some version ∧
    r.world.db.ingestionJobs.find? ids.2 = some job ∧ r.Agrees version job

/-- The four steps that leave the rows in disagreement: `ingest_pdf_bytes` raises what is not
caught, the clock raises, and one of the two job updates that follow a commit on the version fails,
or takes a code that the version could only store stripped. -/
def losesTrack (r : PreparationRun) (s : Surroundings) : Bool :=
  match r.point with
  | .ingesting .. =>
    match s.ingestRaises with
    | some (.other _) => true
    | _ => false
  | .calling (.recordProgress ..) => s.clockRaises.isSome
  | .calling (.requireReview _) => s.fails
  | .calling (.failJob _ failureCode _) =>
    s.fails || decide (stripWhitespace failureCode ≠ failureCode)
  | _ => false

end PreparationRun

/-- Surroundings in which only the call may raise. -/
def Choice.surroundings (choice : Choice) : Surroundings := { toChoice := choice }

/-- Where neither `ingest_pdf_bytes` nor the clock raises, a run takes the steps of the
preparation's thread. -/
theorem Thread.step_run {services : Services} {request : PreparationRequest} {state : PreparerState}
    {w w' : World} {choice : Choice} {thread : Thread}
    (h : Thread.step services w (.preparer request state) choice = some (w', thread))
    (started : Option (String × String)) (callRaised : Bool) :
    ∃ ls state' started' callRaised', thread = .preparer request state' ∧
      (∀ s ∈ ls, s = choice.surroundings) ∧
      run (PreparationRun.step services request) ⟨w, .calling state, started, callRaised⟩ ls =
        some ⟨w', .calling state', started', callRaised'⟩ := by
  obtain ⟨pending, hnext, hstep⟩ := Option.bind_eq_some_iff.mp h
  obtain ⟨inner, hinner, rfl⟩ := Option.map_eq_some_iff.mp hnext
  obtain ⟨⟨w₁, outcome⟩, hattempt, hpair⟩ := Option.map_eq_some_iff.mp hstep
  cases hpair
  have hone : ∀ s ∈ [choice.surroundings], s = choice.surroundings := fun s hs =>
    List.mem_singleton.mp hs
  have hcall : PreparationRun.call services request ⟨w, .calling state, started, callRaised⟩
      choice.surroundings state = some ⟨w₁, .calling (inner.resume outcome), started,
        callRaised || (PreparationRun.counts inner.operation && !outcome.isOk)⟩ := by
    unfold PreparationRun.call
    have hstate : state.next services request choice.surroundings.toChoice = some inner := hinner
    rw [hstate, Option.bind_some]
    exact Option.map_eq_some_iff.mpr ⟨_, hattempt, rfl⟩
  cases state with
  | startJob identity version job =>
    cases hinner
    cases outcome with
    | error e =>
      refine ⟨[choice.surroundings], _, started, true, rfl, hone, ?_⟩
      refine Option.bind_eq_some_iff.mpr ⟨_, Option.map_eq_some_iff.mpr ⟨_, hattempt, rfl⟩, rfl⟩
    | ok job' =>
      refine ⟨[choice.surroundings, choice.surroundings], _,
        some (version.documentVersionId, IngestionJobV1.jobId job'), callRaised, rfl, ?_, ?_⟩
      · intro s hs
        rcases List.mem_cons.mp hs with rfl | hs
        · rfl
        · exact List.mem_singleton.mp hs
      · exact Option.bind_eq_some_iff.mpr ⟨_, Option.map_eq_some_iff.mpr ⟨_, hattempt, rfl⟩, rfl⟩
  | returned => cases hinner
  | raised => cases hinner
  | _ =>
    exact ⟨[choice.surroundings], _, started, _, rfl, hone,
      Option.bind_eq_some_iff.mpr ⟨_, hcall, rfl⟩⟩

/-! ### Jobs that may fail -/

/-- What a stored job needs to be set `FAILED`. -/
structure Failable (job : IngestionJobV1) : Prop where
  valid : job.validate = .ok job
  check : checkIngestionJob job = true
  attempts : job.attemptCount ≤ integerMax

/-- A job that was set `RUNNING` is stored, and may be set `FAILED`. -/
theorem updateIngestionJob_running {db db' : Database} {ownerId jobId : String} {now : Timestamp}
    {job : IngestionJobV1}
    (h : updateIngestionJob db ownerId jobId .running none now = .ok (db', job)) :
    db'.versions = db.versions ∧ db'.ingestionJobs.find? job.jobId = some job ∧ job.jobId = jobId ∧
      job.ownerId = ownerId ∧ job.status = .running ∧ Failable job := by
  obtain ⟨hversions, hfind, hrunning, -⟩ := updateIngestionJob_stored h
  have hkey : job.jobId = jobId := Table.key_of_find? hfind
  obtain ⟨-, stored, hstored, howner, hjob⟩ := updateIngestionJob_ok h
  refine ⟨hversions, hkey.symm ▸ hfind, hkey, by rw [hjob]; exact howner, hrunning, ?_⟩
  unfold updateIngestionJob at h
  obtain ⟨-, h⟩ := ensure_bind.mp h
  obtain ⟨-, h⟩ := ensure_bind.mp h
  rw [hstored, Option.filter_some, if_pos (decide_eq_true howner)] at h
  obtain ⟨hattempts, h⟩ := ensure_bind.mp h
  obtain ⟨hcheck, h⟩ := ensure_bind.mp h
  obtain ⟨job', hvalid, h⟩ := bind_eq_ok.mp h
  obtain ⟨-, rfl⟩ := Prod.mk.inj (pure_eq_ok.mp h)
  have heq := IngestionJobV1.eq_of_validate hvalid
  rw [← heq] at hvalid hcheck hattempts
  exact ⟨hvalid, hcheck, of_decide_eq_true hattempts⟩

/-- Such a job takes every code that is a contract identifier. -/
theorem Failable.updateIngestionJob {db : Database} {job : IngestionJobV1} (h : Failable job)
    (hstored : db.ingestionJobs.find? job.jobId = some job) {code : String}
    (hcode : contractIdPattern code = true)
    (now : Timestamp) :
    ∃ db' job', updateIngestionJob db job.ownerId job.jobId .failed (some code) now =
      .ok (db', job') := by
  have hcheck := h.check
  have hvalid := h.valid
  unfold checkIngestionJob at hcheck
  unfold IngestionJobV1.validate at hvalid
  simp only [check_bind, ensure_eq_ok, Bool.and_eq_true, decide_eq_true_eq] at hcheck hvalid
  obtain ⟨⟨⟨⟨⟨hid, howner⟩, hkey⟩, hattempt⟩, -⟩, -⟩ := hcheck
  obtain ⟨-, -, -, hdocument, hversion, -⟩ := hvalid
  let failed : IngestionJobV1 :=
    { job with
      status := .failed, attemptCount := job.attemptCount + 0, failureCode := some code,
      updatedAt := now }
  have hchecked : checkIngestionJob failed = true := by
    simp [checkIngestionJob, failed, hid, howner, hkey, hattempt, hcode]
  have hvalidated : failed.validate = .ok failed := by
    simp only [IngestionJobV1.validate, check_bind, ensure_eq_ok, pure_eq_ok]
    simp [failed, hid, howner, hkey, hattempt, hcode, hdocument, hversion]
  have hattempts : decide (failed.attemptCount ≤ integerMax) = true := decide_eq_true (by
    show job.attemptCount + 0 ≤ integerMax
    rw [Int.add_zero]
    exact h.attempts)
  refine ⟨{ db with ingestionJobs := db.ingestionJobs.set failed }, failed, ?_⟩
  unfold Storage.updateIngestionJob
  rw [hstored, Option.filter_some, if_pos (decide_eq_true rfl)]
  refine bind_eq_ok.mpr ⟨(), rfl, bind_eq_ok.mpr ⟨(), rfl, ?_⟩⟩
  refine ensure_bind.mpr ⟨hattempts, ensure_bind.mpr ⟨hchecked, ?_⟩⟩
  exact bind_eq_ok.mpr ⟨failed, hvalidated, rfl⟩

/-! ### The version's commits -/

/-- A transition stores its row under the identifier it was called for, and writes no job. -/
theorem transitionVersion_row {db db' : Database} {ownerId vid : String} {expectedRevision : Int}
    {target : LifecycleStatus} {updates : List (UpdateKey × UpdateValue Empty)} {now : Timestamp}
    {new : DocumentVersionLifecycleV1}
    (h : transitionVersion noCoercion db ownerId vid expectedRevision target updates now =
      .ok (db', new)) :
    db'.versions.find? new.documentVersionId = some new ∧ new.documentVersionId = vid ∧
      new.lifecycleStatus = target ∧ db'.ingestionJobs = db.ingestionJobs := by
  obtain ⟨hstored, hstatus⟩ := transitionVersion_key h
  have hid : new.documentVersionId = vid := Table.key_of_find? hstored
  obtain ⟨old, -, -, -, -, rfl, -⟩ := transitionVersion_ok h
  exact ⟨hid.symm ▸ hstored, hid, hstatus, rfl⟩

/-- `FAILED` keeps its code stripped. -/
theorem transitionVersion_failed {db db' : Database} {ownerId vid code : String}
    {expectedRevision : Int} {now : Timestamp} {new : DocumentVersionLifecycleV1}
    (h : transitionVersion noCoercion db ownerId vid expectedRevision .failed
      [(.failureCode, .str code)] now = .ok (db', new)) :
    new.failureCode = some (stripWhitespace code) ∧
      contractIdPattern (stripWhitespace code) = true := by
  obtain ⟨old, -, -, -, -, -, patched, hpatched, hnew⟩ := transitionVersion_ok h
  rw [List.foldlM_cons] at hpatched
  obtain ⟨v, hv, hrest⟩ := bind_eq_ok.mp hpatched
  cases pure_eq_ok.mp hrest
  obtain ⟨failureCode, hcode, hv⟩ := bind_eq_ok.mp hv
  cases pure_eq_ok.mp hv
  obtain ⟨id, hid, hsome⟩ := bind_eq_ok.mp hcode
  cases pure_eq_ok.mp hsome
  rw [hnew]
  exact ⟨congrArg some (coerceContractId_eq hid),
    coerceContractId_eq hid ▸ coerceContractId_pattern hid⟩

/-- Recorded progress clears the failure code. -/
theorem transitionVersion_progress {db db' : Database} {ownerId vid : String}
    {expectedRevision : Int} {target : LifecycleStatus} {completedAt : Datetime} {now : Timestamp}
    {new : DocumentVersionLifecycleV1}
    (h : transitionVersion noCoercion db ownerId vid expectedRevision target
      (progressUpdates completedAt) now = .ok (db', new)) : new.failureCode = none := by
  obtain ⟨old, -, -, -, -, -, patched, hpatched, hnew⟩ := transitionVersion_ok h
  have hsplit : progressUpdates completedAt = (progressUpdates completedAt).take 4 ++
      [(.failureCode, .none)] := rfl
  rw [hsplit, List.foldlM_append] at hpatched
  obtain ⟨v, -, hlast⟩ := bind_eq_ok.mp hpatched
  cases hlast
  rw [hnew]
  rfl

/-- A snapshot writes no job. -/
theorem persistRuntimeSnapshot_jobs {fingerprint : List ChunkRecordV1 → String} {db db' : Database}
    {pdf : PdfObjectV1} {chunks : List ChunkRecordV1} {receipt : RuntimeSnapshotV1}
    (h : persistRuntimeSnapshot fingerprint db pdf chunks = .ok (db', receipt)) :
    db'.ingestionJobs = db.ingestionJobs := by
  obtain ⟨-, -, -, -, -, pdfDb, -, newChunks, -, hpdf, -, -, rfl, -⟩ := persistRuntimeSnapshot_ok h
  rcases insertPdfObject_ok hpdf with ⟨rfl, -⟩ | ⟨pdfObjects, -, rfl⟩
  · rfl
  · rfl

/-- `ingest_pdf_bytes` never returns a parse that failed. -/
theorem ingestPdfBytes_parseStatus {tools : Toolchain} {pdfBytes : List UInt8}
    {args : IngestArguments} {result : IngestionResult}
    (h : ingestPdfBytes tools pdfBytes args = .ok result) : result.parseStatus ≠ .failed := by
  unfold ingestPdfBytes at h
  obtain ⟨-, h⟩ := check_bind.mp h
  obtain ⟨parsed, -, h⟩ := bind_eq_ok.mp h
  obtain ⟨hparsed, h⟩ := check_bind.mp h
  obtain ⟨rawChunks, -, h⟩ := bind_eq_ok.mp h
  obtain ⟨blocks, -, h⟩ := bind_eq_ok.mp h
  obtain ⟨chunks, -, h⟩ := bind_eq_ok.mp (mapError_eq_ok.mp h)
  have hstatus : result.parseStatus = parsed.parseStatus := (IngestionResult.validate_chunks h).2.2
  intro hfailed
  unfold checkParsed at hparsed
  rw [if_pos (hstatus.symm.trans hfailed)] at hparsed
  cases hparsed

/-! ### The rows along a run -/

/-- The version and the job of a started run as they are stored, the job `RUNNING`. -/
structure UnderWay (db : Database) (started : Option (String × String))
    (version : DocumentVersionLifecycleV1) (job : IngestionJobV1) : Prop where
  names : started = some (version.documentVersionId, job.jobId)
  versionStored : db.versions.find? version.documentVersionId = some version
  jobStored : db.ingestionJobs.find? job.jobId = some job
  running : job.status = .running
  failable : Failable job

namespace UnderWay

variable {db db' : Database} {started : Option (String × String)}
  {version new : DocumentVersionLifecycleV1} {job : IngestionJobV1}

/-- A commit on the version keeps the job as it is. -/
theorem transition (h : UnderWay db started version job) {ownerId : String} {expectedRevision : Int}
    {target : LifecycleStatus} {updates : List (UpdateKey × UpdateValue Empty)} {now : Timestamp}
    (hcall : transitionVersion noCoercion db ownerId version.documentVersionId expectedRevision
      target updates now = .ok (db', new)) : UnderWay db' started new job ∧
      new.lifecycleStatus = target := by
  obtain ⟨hstored, hid, hstatus, hjobs⟩ := transitionVersion_row hcall
  refine ⟨⟨?_, hstored, ?_, h.running, h.failable⟩, hstatus⟩
  · rw [hid]
    exact h.names
  · rw [hjobs]
    exact h.jobStored

/-- A commit on other tables keeps both. -/
theorem frame (h : UnderWay db started version job) (hversions : db'.versions = db.versions)
    (hjobs : db'.ingestionJobs = db.ingestionJobs) : UnderWay db' started version job where
  names := h.names
  versionStored := hversions ▸ h.versionStored
  jobStored := hjobs ▸ h.jobStored
  running := h.running
  failable := h.failable

/-- The job takes its code, the version stays. -/
theorem failJob (h : UnderWay db started version job) {ownerId code : String} {now : Timestamp}
    {failed : IngestionJobV1}
    (hcall : updateIngestionJob db ownerId job.jobId .failed (some code) now = .ok (db', failed)) :
    db'.versions.find? version.documentVersionId = some version ∧
      db'.ingestionJobs.find? job.jobId = some failed ∧ failed.status = .failed ∧
      failed.failureCode = some code := by
  obtain ⟨hversions, hstored, hstatus, hcode⟩ := updateIngestionJob_stored hcall
  exact ⟨hversions ▸ h.versionStored, hstored, hstatus, hcode⟩

end UnderWay

/-- What is known at a point of a run. -/
def PreparationPoint.Holds (request : PreparationRequest) (db : Database)
    (started : Option (String × String)) : PreparationPoint → Prop
  | .ingesting _ version job =>
    UnderWay db started version job ∧ version.lifecycleStatus = .processing ∧
      job.ownerId = request.ownerId
  | .calling (.startJob _ version _) =>
    started = none ∧ db.versions.find? version.documentVersionId = some version ∧
      version.lifecycleStatus = .processing
  | .calling (.recordProgress _ version job ingestion) =>
    UnderWay db started version job ∧ version.lifecycleStatus = .processing ∧
      job.ownerId = request.ownerId ∧ ingestion.parseStatus ≠ .failed
  | .calling (.requireReview preparation) =>
    UnderWay db started preparation.version preparation.job ∧
      preparation.version.lifecycleStatus = .review ∧ preparation.version.failureCode = none ∧
      preparation.job.ownerId = request.ownerId
  | .calling (.putPdf preparation) | .calling (.persistSnapshot preparation _) =>
    UnderWay db started preparation.version preparation.job ∧
      preparation.version.lifecycleStatus = .processing
  | .calling (.failVersion version job _ _) =>
    UnderWay db started version job ∧ version.lifecycleStatus = .processing
  | .calling (.failJob job failureCode _) => ∃ version, UnderWay db started version job ∧
      version.lifecycleStatus = .failed ∧ version.failureCode = some (stripWhitespace failureCode) ∧
      contractIdPattern (stripWhitespace failureCode) = true
  | .calling .registerDocument | .calling (.registerVersion _) | .calling (.startProcessing ..) =>
    started = none
  | .calling (.returned ..) | .calling (.raised _) => True

namespace PreparationRun

variable {services : Services} {request : PreparationRequest} {r r' : PreparationRun}
  {s : Surroundings}

/-- No call has raised in a run that goes on, and what has ended is recorded. -/
structure Consistent (request : PreparationRequest) (r : PreparationRun) : Prop where
  quiet : r.ended = false → r.callRaised = false
  point : r.point.Holds request r.world.db r.started
  recorded : r.ended = true → r.Recorded

/-- A run that goes on. -/
theorem Consistent.goesOn (hended : r.ended = false) (hquiet : r.callRaised = false)
    (hpoint : r.point.Holds request r.world.db r.started) : Consistent request r where
  quiet _ := hquiet
  point := hpoint
  recorded h := absurd (hended.symm.trans h) Bool.false_ne_true

/-- A run that has ended with its version in `PROCESSING` and its job `RUNNING`. -/
theorem recorded_of_underWay {version : DocumentVersionLifecycleV1} {job : IngestionJobV1}
    (h : UnderWay r.world.db r.started version job)
    (hprocessing : version.lifecycleStatus = .processing)
    (hraised : r.endedRaising = true → r.callRaised = true) : r.Recorded := by
  intro ids hids
  cases Option.some.inj (h.names.symm.trans hids)
  refine ⟨version, job, h.versionStored, h.jobStored, ?_, ?_, ?_⟩
  · refine iff_of_false (fun hfailed => ?_) fun hfailed => ?_
    · rw [hprocessing] at hfailed
      cases hfailed
    · rw [h.running] at hfailed
      cases hfailed.1
  · intro hreview
    rw [hprocessing] at hreview
    cases hreview
  · intro hended hquiet
    exact absurd ((hraised hended).symm.trans hquiet) Bool.true_eq_false.mp

/-- A run that has not started. -/
theorem recorded_of_not_started (h : r.started = none) : r.Recorded := by
  intro ids hids
  rw [h] at hids
  cases hids

/-- A call at a state: its operation, how it came out, and what became of the stores. -/
theorem call_outcome {state : PreparerState} {pending : Pending PreparerState}
    (hnext : state.next services request s.toChoice = some pending)
    (h : r.call services request s state = some r') :
    ∃ w' outcome, Outcome services r.world w' s.toChoice pending.operation outcome ∧
      r' = ⟨w', .calling (pending.resume outcome), r.started,
        r.callRaised || (counts pending.operation && !outcome.isOk)⟩ := by
  unfold call at h
  rw [hnext, Option.bind_some] at h
  obtain ⟨⟨w', outcome⟩, hattempt, rfl⟩ := Option.map_eq_some_iff.mp h
  exact ⟨w', outcome, attempt_outcome hattempt, rfl⟩

/-- A counted repository call outside the handlers: it raises and the run ends, or it commits and
the run goes on. -/
theorem call_repository {state : PreparerState} {operation : Call Empty}
    {f : operation.Result → PreparerState}
    (hnext : state.next services request s.toChoice = some ⟨.repository operation, orRaise f⟩)
    (hcounts : counts (.repository operation) = true)
    (h : r.call services request s state = some r') :
    (∃ e w', w'.db = r.world.db ∧ r' = ⟨w', .calling (.raised (.raised e)), r.started, true⟩) ∨
      ∃ w' result, s.fails = false ∧
        r.world.db.perform noCoercion services.chunksFingerprint operation = .ok (w'.db, result) ∧
        r' = ⟨w', .calling (f result), r.started, r.callRaised⟩ := by
  obtain ⟨w', outcome, houtcome, rfl⟩ := call_outcome hnext h
  rcases houtcome.stores with ⟨e, rfl, hstores⟩ | ⟨result, rfl, hfails, -⟩
  · refine .inl ⟨e, w', hstores.db, ?_⟩
    show PreparationRun.mk _ _ _ (r.callRaised || (counts (.repository operation) && true)) = _
    rw [hcounts, Bool.and_true, Bool.or_true]
    rfl
  · refine .inr ⟨w', result, hfails, houtcome.repository.1, ?_⟩
    show PreparationRun.mk _ _ _ (r.callRaised || (counts (.repository operation) && false)) = _
    rw [Bool.and_false, Bool.or_false]
    rfl

/-- A job update that can commit does so, unless it is made to fail. -/
theorem call_updateIngestionJob {state : PreparerState} {ownerId jobId code : String}
    {db' : Database} {failed : IngestionJobV1} {f : IngestionJobV1 → PreparerState}
    (hnext : state.next services request s.toChoice = some
      ⟨.repository (.updateIngestionJob ownerId jobId .failed (some code) s.now), orRaise f⟩)
    (hcalm : s.fails = false)
    (hupdate : updateIngestionJob r.world.db ownerId jobId .failed (some code) s.now =
      .ok (db', failed))
    (h : r.call services request s state = some r') :
    ∃ w', w'.db = db' ∧ r' = ⟨w', .calling (f failed), r.started, r.callRaised⟩ := by
  have hperform : World.perform services r.world
      (.repository (.updateIngestionJob ownerId jobId .failed (some code) s.now)) =
        .ok ({ r.world with db := db' }, failed) :=
    bind_eq_ok.mpr ⟨(db', failed), hupdate, rfl⟩
  unfold call at h
  rw [hnext, Option.bind_some, World.attempt_eq_call rfl, World.call_ok hcalm hperform] at h
  refine ⟨{ r.world with db := db' }, rfl, (Option.some.inj h).symm.trans ?_⟩
  show PreparationRun.mk _ _ _ (r.callRaised || (true && false)) = _
  rw [Bool.and_false, Bool.or_false]
  rfl

/-- A run that ends by a raised repository call, its rows still under way. -/
theorem consistent_of_raised {w' : World} {e : PyError} {version : DocumentVersionLifecycleV1}
    {job : IngestionJobV1} (h : UnderWay r.world.db r.started version job)
    (hprocessing : version.lifecycleStatus = .processing) (hdb : w'.db = r.world.db) :
    Consistent request ⟨w', .calling (.raised (.raised e)), r.started, true⟩ where
  quiet hended := by cases hended
  point := trivial
  recorded _ := recorded_of_underWay (hdb ▸ h) hprocessing fun _ => rfl

/-- A run that returns. -/
theorem consistent_of_returned {w' : World} {started : Option (String × String)} {raised : Bool}
    {preparation : PersistentIngestionPreparation}
    {snapshot : Option (PdfObjectV1 × RuntimeSnapshotV1)}
    {version : DocumentVersionLifecycleV1} {job : IngestionJobV1}
    (h : UnderWay w'.db started version job)
    (hprocessing : version.lifecycleStatus = .processing) :
    Consistent request ⟨w', .calling (.returned preparation snapshot), started, raised⟩ where
  quiet hended := by cases hended
  point := trivial
  recorded _ := recorded_of_underWay h hprocessing fun hraised => by cases hraised

/-- A run that ends before it has started. -/
theorem consistent_of_not_started {w' : World} {state : PreparerState} {raised : Bool}
    (hpoint : (PreparationPoint.calling state).Holds request w'.db none)
    (hquiet : ended ⟨w', .calling state, none, raised⟩ = false → raised = false) :
    Consistent request ⟨w', .calling state, none, raised⟩ where
  quiet := hquiet
  point := hpoint
  recorded _ := recorded_of_not_started rfl

/-! ### One step -/

/-- What `_start_or_resume_processing` finds. -/
theorem startOrResume_consistent {w : World} {identity : DocumentIdentityV1}
    {version : DocumentVersionLifecycleV1} {job : IngestionJobV1}
    (hstored : w.db.versions.find? version.documentVersionId = some version) : Consistent request
      ⟨w, .calling (PreparationRequest.startOrResumeProcessing identity version job), none,
        false⟩ := by
  refine consistent_of_not_started ?_ fun _ => rfl
  unfold PreparationRequest.startOrResumeProcessing
  split
  · rename_i hprocessing
    exact ⟨rfl, hstored, hprocessing⟩
  all_goals trivial

/-- The steps up to the job update. -/
theorem step_beforeStart {state : PreparerState} (hpoint : r.point = .calling state)
    (hr : Consistent request r)
    (hstate : state = .registerDocument ∨ (∃ identity, state = .registerVersion identity) ∨
      ∃ identity version job, state = .startProcessing identity version job)
    (h : r.call services request s state = some r') : Consistent request r' := by
  have hholds := hr.point
  rw [hpoint] at hholds
  rcases hstate with rfl | ⟨identity, rfl⟩ | ⟨identity, version, job, rfl⟩
  · have hnone : r.started = none := hholds
    have hquiet : r.callRaised = false := hr.quiet (by rw [ended, hpoint])
    rcases call_repository rfl rfl h with ⟨e, w', hdb, rfl⟩ | ⟨w', identity, -, -, rfl⟩
    · rw [hnone]
      exact consistent_of_not_started trivial fun hended => by cases hended
    · rw [hnone, hquiet]
      exact consistent_of_not_started rfl fun _ => rfl
  · have hnone : r.started = none := hholds
    have hquiet : r.callRaised = false := hr.quiet (by rw [ended, hpoint])
    rcases call_repository rfl rfl h with ⟨e, w', hdb, rfl⟩ | ⟨w', result, -, hcall, rfl⟩
    · rw [hnone]
      exact consistent_of_not_started trivial fun hended => by cases hended
    · obtain ⟨version, job⟩ := result
      rw [hnone, hquiet]
      exact startOrResume_consistent (registerVersionAndIngestionJob_stored hcall)
  · have hnone : r.started = none := hholds
    have hquiet : r.callRaised = false := hr.quiet (by rw [ended, hpoint])
    rcases call_repository rfl rfl h with ⟨e, w', hdb, rfl⟩ | ⟨w', new, -, hcall, rfl⟩
    · rw [hnone]
      exact consistent_of_not_started trivial fun hended => by cases hended
    · obtain ⟨hstored, -, hstatus, -⟩ := transitionVersion_row hcall
      rw [hnone, hquiet]
      exact consistent_of_not_started ⟨rfl, hstored, hstatus⟩ fun _ => rfl

/-- The job update starts the run, or raises. -/
theorem step_startJob {identity : DocumentIdentityV1} {version : DocumentVersionLifecycleV1}
    {job : IngestionJobV1} (hpoint : r.point = .calling (.startJob identity version job))
    (hr : Consistent request r) (h : r.startJob services request s identity version job = some r') :
    Consistent request r' := by
  have hholds := hr.point
  rw [hpoint] at hholds
  obtain ⟨hnone, hstored, hprocessing⟩ := hholds
  have hquiet : r.callRaised = false := hr.quiet (by rw [ended, hpoint])
  obtain ⟨⟨w', outcome⟩, hattempt, rfl⟩ := Option.map_eq_some_iff.mp h
  have houtcome := attempt_outcome hattempt
  rcases houtcome.stores with ⟨e, rfl, hstores⟩ | ⟨started, rfl, -, -⟩
  · rw [hnone]
    exact consistent_of_not_started trivial fun hended => by cases hended
  · have hcall := houtcome.repository.1
    obtain ⟨hversions, hfind, -, howner, hrunning, hfailable⟩ := updateIngestionJob_running hcall
    have hunder : UnderWay w'.db (some (version.documentVersionId, IngestionJobV1.jobId started))
        version started :=
      ⟨rfl, hversions ▸ hstored, hfind, hrunning, hfailable⟩
    exact .goesOn rfl hquiet ⟨hunder, hprocessing, howner⟩

/-- Out of `ingest_pdf_bytes`. -/
theorem step_ingesting {identity : DocumentIdentityV1} {version : DocumentVersionLifecycleV1}
    {job : IngestionJobV1} (hpoint : r.point = .ingesting identity version job)
    (hr : Consistent request r) (hsafe : r.losesTrack s = false) :
    Consistent request
      { r with
        point := .calling (ingested services request s.ingestRaises identity version job) } := by
  have hholds := hr.point
  rw [hpoint] at hholds
  obtain ⟨hunder, hprocessing, howner⟩ := hholds
  have hquiet : r.callRaised = false := hr.quiet (by rw [ended, hpoint])
  unfold losesTrack at hsafe
  rw [hpoint] at hsafe
  unfold ingested
  cases hraises : s.ingestRaises with
  | none =>
    unfold PreparationRequest.ingest
    cases hingest : ingestPdfBytes services.toToolchain request.pdfBytes
        (request.ingestArguments services identity version) with
    | ok ingestion =>
      exact .goesOn rfl hquiet ⟨hunder, hprocessing, howner, ingestPdfBytes_parseStatus hingest⟩
    | error e => exact .goesOn rfl hquiet ⟨hunder, hprocessing⟩
  | some exception =>
    cases exception with
    | pdfIngestion e => exact .goesOn rfl hquiet ⟨hunder, hprocessing⟩
    | other e =>
      rw [hraises] at hsafe
      cases hsafe

/-- The progress update, after the clock was read. -/
theorem step_recordProgress {identity : DocumentIdentityV1} {version : DocumentVersionLifecycleV1}
    {job : IngestionJobV1} {ingestion : IngestionResult}
    (hpoint : r.point = .calling (.recordProgress identity version job ingestion))
    (hr : Consistent request r)
    (h : r.call services request s (.recordProgress identity version job ingestion) = some r') :
    Consistent request r' := by
  have hholds := hr.point
  rw [hpoint] at hholds
  obtain ⟨hunder, hprocessing, howner, hparse⟩ := hholds
  have hquiet : r.callRaised = false := hr.quiet (by rw [ended, hpoint])
  by_cases hreview : ingestion.parseStatus = .review
  · have hnext :
        PreparerState.next services request s.toChoice (.recordProgress identity version job
          ingestion) = some
        ⟨.repository (.transitionVersion request.ownerId version.documentVersionId
          version.lifecycleRevision .review (progressUpdates s.clock) s.now),
            orRaise fun version => .requireReview ⟨identity, version, job, ingestion⟩⟩ :=
      if_pos hreview
    rcases call_repository hnext rfl h with ⟨e, w', hdb, rfl⟩ | ⟨w', new, -, hcall, rfl⟩
    · exact consistent_of_raised hunder hprocessing hdb
    · obtain ⟨hunder', hstatus⟩ := hunder.transition hcall
      exact .goesOn rfl hquiet ⟨hunder', hstatus, transitionVersion_progress hcall, howner⟩
  · have hnext :
        PreparerState.next services request s.toChoice (.recordProgress identity version job
          ingestion) = some
        ⟨.repository (.transitionVersion request.ownerId version.documentVersionId
          version.lifecycleRevision .processing (progressUpdates s.clock) s.now),
            orRaise fun version => request.prepared ⟨identity, version, job, ingestion⟩⟩ :=
      if_neg hreview
    rcases call_repository hnext rfl h with ⟨e, w', hdb, rfl⟩ | ⟨w', new, -, hcall, rfl⟩
    · exact consistent_of_raised hunder hprocessing hdb
    · obtain ⟨hunder', hstatus⟩ := hunder.transition hcall
      have hstatus : DocumentVersionLifecycleV1.lifecycleStatus new = .processing := hstatus
      have hpass : ingestion.parseStatus = .pass := by
        cases hp : ingestion.parseStatus with
        | pass => rfl
        | review => exact absurd hp hreview
        | failed => exact absurd hp hparse
      unfold PreparationRequest.prepared
      split
      · exact consistent_of_returned hunder' hstatus
      · rw [if_neg (not_or.mpr ⟨not_not.mpr hstatus, not_not.mpr hpass⟩)]
        exact .goesOn rfl hquiet ⟨hunder', hstatus⟩

/-- The job of a version in `REVIEW` fails too. -/
theorem step_requireReview {preparation : PersistentIngestionPreparation}
    (hpoint : r.point = .calling (.requireReview preparation)) (hr : Consistent request r)
    (hsafe : r.losesTrack s = false)
    (h : r.call services request s (.requireReview preparation) = some r') :
    Consistent request r' := by
  have hholds := hr.point
  rw [hpoint] at hholds
  obtain ⟨hunder, hreview, hcode, howner⟩ := hholds
  have hquiet : r.callRaised = false := hr.quiet (by rw [ended, hpoint])
  have hcalm : s.fails = false := by
    unfold losesTrack at hsafe
    rw [hpoint] at hsafe
    exact hsafe
  have hreviewCode : contractIdPattern "PARSE_REVIEW_REQUIRED" = true := by decide
  obtain ⟨db', failed, hupdate⟩ :=
    hunder.failable.updateIngestionJob hunder.jobStored hreviewCode s.now
  rw [howner] at hupdate
  obtain ⟨hversion, hjob, hstatus, hfailed⟩ := hunder.failJob hupdate
  obtain ⟨w', rfl, rfl⟩ := call_updateIngestionJob rfl hcalm hupdate h
  -- both exits leave the two rows as they are now
  have hrecorded {state : PreparerState} {raised : Bool} :
      Recorded ⟨w', .calling state, r.started, raised⟩ := by
    intro ids hids
    cases Option.some.inj (hunder.names.symm.trans hids)
    refine ⟨preparation.version, failed, hversion, hjob, ?_, fun _ => ⟨hstatus, hfailed⟩, ?_⟩
    · refine iff_of_false (fun hversionFailed => ?_) fun hagree => ?_
      · rw [hreview] at hversionFailed
        cases hversionFailed
      · have hsame := hagree.2
        rw [hfailed, hcode] at hsame
        cases hsame
    · intro _ _
      rw [hstatus]
      exact IngestionJobStatus.noConfusion
  have hended : (PreparationRun.mk w'
      (.calling (request.prepared { preparation with job := failed })) r.started
        r.callRaised).ended = true := by
    unfold PreparationRequest.prepared
    split
    · rfl
    · rw [if_pos (.inl (by rw [hreview]; exact LifecycleStatus.noConfusion))]
      rfl
  refine ⟨fun hgoes => absurd (hended.symm.trans hgoes) Bool.true_eq_false.mp, ?_,
    fun _ => hrecorded⟩
  show PreparationPoint.Holds request w'.db r.started (.calling (request.prepared _))
  unfold PreparationRequest.prepared
  split
  · trivial
  · rw [if_pos (.inl (by rw [hreview]; exact LifecycleStatus.noConfusion))]
    trivial

/-- The two stores of a runtime snapshot. -/
theorem step_putPdf {preparation : PersistentIngestionPreparation}
    (hpoint : r.point = .calling (.putPdf preparation)) (hr : Consistent request r)
    (h : r.call services request s (.putPdf preparation) = some r') : Consistent request r' := by
  have hholds := hr.point
  rw [hpoint] at hholds
  obtain ⟨hunder, hprocessing⟩ := hholds
  have hquiet : r.callRaised = false := hr.quiet (by rw [ended, hpoint])
  obtain ⟨w', outcome, houtcome, rfl⟩ := call_outcome rfl h
  have hquiet' : ∀ b, (r.callRaised || (false && b)) = false := fun b => by
    rw [hquiet, Bool.false_and, Bool.or_self]
  rcases houtcome.stores with ⟨e, rfl, hstores⟩ | ⟨pdf, rfl, -, heffect⟩
  · exact .goesOn rfl (hquiet' _) ⟨hstores.db ▸ hunder, hprocessing⟩
  · cases heffect with
    | putPdf _ _ _ _ _ _ _ _ hdb _ => exact .goesOn rfl (hquiet' _) ⟨hdb ▸ hunder, hprocessing⟩

theorem step_persistSnapshot {preparation : PersistentIngestionPreparation} {pdf : PdfObjectV1}
    (hpoint : r.point = .calling (.persistSnapshot preparation pdf)) (hr : Consistent request r)
    (h : r.call services request s (.persistSnapshot preparation pdf) = some r') :
    Consistent request r' := by
  have hholds := hr.point
  rw [hpoint] at hholds
  obtain ⟨hunder, hprocessing⟩ := hholds
  have hquiet : r.callRaised = false := hr.quiet (by rw [ended, hpoint])
  obtain ⟨w', outcome, houtcome, rfl⟩ := call_outcome rfl h
  have hquiet' : ∀ b, (r.callRaised || (false && b)) = false := fun b => by
    rw [hquiet, Bool.false_and, Bool.or_self]
  rcases houtcome.stores with ⟨e, rfl, hstores⟩ | ⟨snapshot, rfl, -, heffect⟩
  · exact .goesOn rfl (hquiet' _) ⟨hstores.db ▸ hunder, hprocessing⟩
  · cases heffect with
    | repository _ _ hcall _ _ =>
      obtain ⟨hversions, -⟩ := persistRuntimeSnapshot_frame hcall
      exact consistent_of_returned (hunder.frame hversions (persistRuntimeSnapshot_jobs hcall))
        hprocessing

/-- The version of a failed preparation. -/
theorem step_failVersion {version : DocumentVersionLifecycleV1} {job : IngestionJobV1}
    {failureCode : String} {error : PreparationError}
    (hpoint : r.point = .calling (.failVersion version job failureCode error))
    (hr : Consistent request r)
    (h : r.call services request s (.failVersion version job failureCode error) = some r') :
    Consistent request r' := by
  have hholds := hr.point
  rw [hpoint] at hholds
  obtain ⟨hunder, hprocessing⟩ := hholds
  have hquiet : r.callRaised = false := hr.quiet (by rw [ended, hpoint])
  rcases call_repository rfl rfl h with ⟨e, w', hdb, rfl⟩ | ⟨w', new, -, hcall, rfl⟩
  · exact consistent_of_raised hunder hprocessing hdb
  · obtain ⟨hunder', hstatus⟩ := hunder.transition hcall
    obtain ⟨hcode, hpattern⟩ := transitionVersion_failed hcall
    exact .goesOn rfl hquiet ⟨new, hunder', hstatus, hcode, hpattern⟩

/-- Its job. -/
theorem step_failJob {job : IngestionJobV1} {failureCode : String} {error : PreparationError}
    (hpoint : r.point = .calling (.failJob job failureCode error)) (hr : Consistent request r)
    (hsafe : r.losesTrack s = false)
    (h : r.call services request s (.failJob job failureCode error) = some r') :
    Consistent request r' := by
  have hholds := hr.point
  rw [hpoint] at hholds
  obtain ⟨version, hunder, hfailed, hcode, hpattern⟩ := hholds
  unfold losesTrack at hsafe
  rw [hpoint] at hsafe
  obtain ⟨hcalm, hstripped⟩ := Bool.or_eq_false_iff.mp hsafe
  have hstripped : stripWhitespace failureCode = failureCode :=
    not_not.mp (of_decide_eq_false hstripped)
  rw [hstripped] at hcode hpattern
  obtain ⟨db', failed, hupdate⟩ :=
    hunder.failable.updateIngestionJob hunder.jobStored hpattern s.now
  obtain ⟨hversion, hjob, hstatus, hjobCode⟩ := hunder.failJob hupdate
  obtain ⟨w', rfl, rfl⟩ := call_updateIngestionJob rfl hcalm hupdate h
  refine ⟨fun hended => (by cases hended), trivial, fun _ ids hids => ?_⟩
  cases Option.some.inj (hunder.names.symm.trans hids)
  refine ⟨version, failed, hversion, hjob,
    iff_of_true hfailed ⟨hstatus, hjobCode.trans hcode.symm⟩, ?_, ?_⟩
  · intro hreview
    rw [hfailed] at hreview
    cases hreview
  · intro _ _
    rw [hstatus]
    exact IngestionJobStatus.noConfusion

/-- A step that keeps track keeps the run consistent. -/
theorem step_consistent (hr : Consistent request r) (hsafe : r.losesTrack s = false)
    (h : r.step services request s = some r') : Consistent request r' := by
  unfold step at h
  split at h
  · rename_i identity version job hpoint
    cases h
    exact step_ingesting hpoint hr hsafe
  · rename_i identity version job hpoint
    exact step_startJob hpoint hr h
  · rename_i identity version job ingestion hpoint
    have hclock : s.clockRaises.isSome = false := by
      unfold losesTrack at hsafe
      rw [hpoint] at hsafe
      exact hsafe
    rw [Option.isNone_iff_eq_none.mp (Option.isSome_eq_false_iff.mp hclock)] at h
    exact step_recordProgress hpoint hr h
  · rename_i state hstart hprogress hpoint
    cases state with
    | registerDocument => exact step_beforeStart hpoint hr (.inl rfl) h
    | registerVersion identity => exact step_beforeStart hpoint hr (.inr (.inl ⟨identity, rfl⟩)) h
    | startProcessing identity version job =>
      exact step_beforeStart hpoint hr (.inr (.inr ⟨identity, version, job, rfl⟩)) h
    | startJob identity version job => exact absurd rfl (hstart identity version job)
    | recordProgress identity version job ingestion =>
      exact absurd rfl (hprogress identity version job ingestion)
    | requireReview preparation => exact step_requireReview hpoint hr hsafe h
    | putPdf preparation => exact step_putPdf hpoint hr h
    | persistSnapshot preparation pdf => exact step_persistSnapshot hpoint hr h
    | failVersion version job failureCode error => exact step_failVersion hpoint hr h
    | failJob job failureCode error => exact step_failJob hpoint hr hsafe h
    | returned => cases h
    | raised => cases h

/-- A run that ends raising while its job is `RUNNING` and no call has raised is not recorded. -/
theorem not_recorded_of_running {version : DocumentVersionLifecycleV1} {job : IngestionJobV1}
    (h : UnderWay r.world.db r.started version job) (hraising : r.endedRaising = true)
    (hquiet : r.callRaised = false) :
    ¬r.Recorded := by
  intro hrecorded
  obtain ⟨version', job', -, hjob, hagrees⟩ := hrecorded _ h.names
  cases hjob.symm.trans h.jobStored
  exact hagrees.notRunning hraising hquiet h.running

/-- `ingest_pdf_bytes` raises what is not caught. -/
theorem lost_ingesting {identity : DocumentIdentityV1} {version : DocumentVersionLifecycleV1}
    {job : IngestionJobV1} (hpoint : r.point = .ingesting identity version job)
    (hr : Consistent request r) (hlost : r.losesTrack s = true) :
    ∃ e, ingested services request s.ingestRaises identity version job = .raised (.raised e) ∧
      ∀ e, ¬Recorded { r with point := .calling (.raised (.raised e)) } := by
  have hholds := hr.point
  rw [hpoint] at hholds
  obtain ⟨hunder, -, -⟩ := hholds
  have hquiet : r.callRaised = false := hr.quiet (by rw [ended, hpoint])
  unfold losesTrack at hlost
  rw [hpoint] at hlost
  unfold ingested
  cases hraises : s.ingestRaises with
  | none =>
    rw [hraises] at hlost
    cases hlost
  | some exception =>
    rw [hraises] at hlost
    cases exception with
    | pdfIngestion e => cases hlost
    | other e => exact ⟨e, rfl, fun e => not_recorded_of_running hunder rfl hquiet⟩

/-- The job of a version in `REVIEW` is not written. -/
theorem lost_requireReview {preparation : PersistentIngestionPreparation}
    (hpoint : r.point = .calling (.requireReview preparation)) (hr : Consistent request r)
    (hfails : s.fails = true)
    (h : r.call services request s (.requireReview preparation) = some r') :
    r'.ended = true ∧ ¬r'.Recorded := by
  have hholds := hr.point
  rw [hpoint] at hholds
  obtain ⟨hunder, hreview, -, -⟩ := hholds
  rcases call_repository rfl rfl h with ⟨e, w', hdb, rfl⟩ | ⟨w', result, hcalm, -, -⟩
  · refine ⟨rfl, fun hrecorded => ?_⟩
    obtain ⟨version', job', hversion, hjob, hagrees⟩ := hrecorded _ hunder.names
    rw [hdb] at hversion hjob
    cases hversion.symm.trans hunder.versionStored
    cases hjob.symm.trans hunder.jobStored
    have hfailed := (hagrees.review hreview).1
    rw [hunder.running] at hfailed
    cases hfailed
  · rw [hfails] at hcalm
    cases hcalm

/-- The job of a version in `FAILED` is not written, or with another code. -/
theorem lost_failJob {job : IngestionJobV1} {failureCode : String} {error : PreparationError}
    (hpoint : r.point = .calling (.failJob job failureCode error)) (hr : Consistent request r)
    (hlost : s.fails = true ∨ stripWhitespace failureCode ≠ failureCode)
    (h : r.call services request s (.failJob job failureCode error) = some r') :
    r'.ended = true ∧ ¬r'.Recorded := by
  have hholds := hr.point
  rw [hpoint] at hholds
  obtain ⟨version, hunder, hfailed, hcode, -⟩ := hholds
  rcases call_repository rfl rfl h with ⟨e, w', hdb, rfl⟩ | ⟨w', failed, hcalm, hcall, rfl⟩
  · refine ⟨rfl, fun hrecorded => ?_⟩
    obtain ⟨version', job', hversion, hjob, hagrees⟩ := hrecorded _ hunder.names
    rw [hdb] at hversion hjob
    cases hversion.symm.trans hunder.versionStored
    cases hjob.symm.trans hunder.jobStored
    have hjobFailed := (hagrees.failed.mp hfailed).1
    rw [hunder.running] at hjobFailed
    cases hjobFailed
  · refine ⟨rfl, fun hrecorded => ?_⟩
    obtain ⟨hversion, hjob, -, hjobCode⟩ := hunder.failJob hcall
    obtain ⟨version', job', hversion', hjob', hagrees⟩ := hrecorded _ hunder.names
    cases hversion'.symm.trans hversion
    cases hjob'.symm.trans hjob
    have hsame := (hagrees.failed.mp hfailed).2
    rw [hjobCode, hcode] at hsame
    rcases hlost with hfails | hstripped
    · rw [hfails] at hcalm
      cases hcalm
    · exact hstripped (Option.some.inj hsame).symm

/-- A step that loses track ends the run, and the rows disagree. -/
theorem step_losesTrack (hr : Consistent request r) (hlost : r.losesTrack s = true)
    (h : r.step services request s = some r') : r'.ended = true ∧ ¬r'.Recorded := by
  unfold step at h
  split at h
  · rename_i identity version job hpoint
    obtain ⟨e, hraised, hnot⟩ := lost_ingesting hpoint hr hlost
    rw [hraised] at h
    cases h
    exact ⟨rfl, hnot e⟩
  · rename_i identity version job hpoint
    rw [losesTrack, hpoint] at hlost
    cases hlost
  · rename_i identity version job ingestion hpoint
    rw [losesTrack, hpoint] at hlost
    obtain ⟨e, hraises⟩ := Option.isSome_iff_exists.mp hlost
    rw [hraises] at h
    cases h
    have hholds := hr.point
    rw [hpoint] at hholds
    obtain ⟨hunder, -⟩ := hholds
    have hquiet : r.callRaised = false := hr.quiet (by rw [ended, hpoint])
    exact ⟨rfl, not_recorded_of_running hunder rfl hquiet⟩
  · rename_i state hstart hprogress hpoint
    rw [losesTrack, hpoint] at hlost
    cases state with
    | requireReview preparation => exact lost_requireReview hpoint hr hlost h
    | failJob job failureCode error =>
      refine lost_failJob hpoint hr ?_ h
      exact (Bool.or_eq_true _ _).mp hlost |>.imp_right of_decide_eq_true
    | recordProgress identity version job ingestion =>
      exact absurd rfl (hprogress identity version job ingestion)
    | _ => cases hlost

theorem step_of_ended (hended : r.ended = true) : r.step services request s = none := by
  unfold ended at hended
  unfold step
  split at hended
  · rename_i hpoint
    rw [hpoint]
    rfl
  · rename_i hpoint
    rw [hpoint]
    rfl
  · cases hended

theorem initial_consistent (w : World) : Consistent request (initial services request w) := by
  refine consistent_of_not_started ?_ fun _ => rfl
  unfold PreparationRequest.start
  split
  · trivial
  · split
    · trivial
    · rfl

/-- Of a run that goes to its end: the stored version and job agree at the end exactly if no step
lost track of them. -/
theorem recorded_iff {ls : List Surroundings} (hr : Consistent request r)
    (hrun : run (step services request) r ls = some r') (hended : r'.ended = true) :
    r'.Recorded ↔ GuardedRun (step services request) (fun r s => r.losesTrack s = false) r ls
      r' := by
  constructor
  · intro hrecorded
    induction ls generalizing r with
    | nil =>
      cases hrun
      exact .nil _
    | cons s ls ih =>
      obtain ⟨t, hstep, hrest⟩ := run_cons_some _ hrun
      cases hlost : r.losesTrack s with
      | false => exact .cons hlost hstep (ih (step_consistent hr hlost hstep) hrest)
      | true =>
        -- no step follows one that lost track
        obtain ⟨htended, hnot⟩ := step_losesTrack hr hlost hstep
        cases ls with
        | nil =>
          cases hrest
          exact absurd hrecorded hnot
        | cons s' ls =>
          obtain ⟨u, hnext, -⟩ := run_cons_some _ hrest
          rw [step_of_ended htended] at hnext
          cases hnext
  · intro hguarded
    have hconsistent : Consistent request r' :=
      hguarded.invariant (fun _ _ _ hs hsafe hstep => step_consistent hs hsafe hstep) hr
    exact hconsistent.recorded hended

end PreparationRun

/-- Whatever raises around a preparation, it ends with its version and its job in agreement exactly
if no step lost track of them. -/
theorem preparation_recorded_iff (services : Services) (request : PreparationRequest) (w : World)
    (ls : List Surroundings) (r : PreparationRun)
    (hrun : run (PreparationRun.step services request) (.initial services request w) ls = some r)
    (hended : r.ended = true) :
    r.Recorded ↔ GuardedRun (PreparationRun.step services request)
      (fun r s => r.losesTrack s = false) (.initial services request w) ls r :=
  PreparationRun.recorded_iff (PreparationRun.initial_consistent w) hrun hended

/-- The first steps of the sample preparation, up to `ingest_pdf_bytes`. -/
def startingSurroundings : List Surroundings :=
  [(drawingCalm (fixedId "document_1")).surroundings,
    (drawing (fixedId "version_1") (fixedId "job_1")).surroundings, calm.surroundings,
    calm.surroundings]

/-- `ingest_pdf_bytes` finds no text, and both updates commit. -/
def unparsedSurroundings : List Surroundings :=
  startingSurroundings ++
    [{ calm.surroundings with
        ingestRaises := some (.pdfIngestion ⟨"PARSE_QUALITY_GATE_BLOCKED", "no text"⟩) },
      calm.surroundings, calm.surroundings]

theorem preparation_recorded_unparsed : ∃ r,
    run (PreparationRun.step sampleServices (sampleRequest true))
      (.initial sampleServices (sampleRequest true) World.empty) unparsedSurroundings = some r ∧
      r.Recorded ∧
      r.callRaised = false := by
  have hrun : ((guardedRun? (PreparationRun.step sampleServices (sampleRequest true))
      (fun r s => r.losesTrack s = false) (.initial sampleServices (sampleRequest true) World.empty)
        unparsedSurroundings).any fun r =>
        r.ended && !r.callRaised) = true := by decide +kernel
  obtain ⟨r, hr, hends⟩ := (Option.any_eq_true _ _).mp hrun
  obtain ⟨hended, hquiet⟩ := Bool.and_eq_true_iff.mp hends
  have hguarded := GuardedRun.of_eval hr
  refine ⟨r, hguarded.run_eq, ?_, (Bool.not_eq_true' _).mp hquiet⟩
  exact (preparation_recorded_iff sampleServices (sampleRequest true) World.empty
    unparsedSurroundings r hguarded.run_eq hended).mpr hguarded

/-- A parse that needs review. -/
def reviewServices : Services :=
  { sampleServices with
    parse := fun _ => .ok
      { pdfSha256 := sampleSha
        sourceTextSha256 := sampleSha
        cleanText := "text"
        parseStatus := .review
        warnings := []
        blocks := [⟨1, ["1"], 0, 4, "text"⟩] } }

def reviewRequest : PreparationRequest := { sampleRequest false with allowParseReview := true }

/-- The job update after the version's move to `REVIEW` fails. -/
def reviewOutage : List Surroundings :=
  startingSurroundings ++
    [calm.surroundings, calm.surroundings, { calm.surroundings with fails := true }]

/-- The version is in `REVIEW`, and its job stays `RUNNING`. -/
theorem preparation_review_unrecorded : ¬∀ (services : Services) (request : PreparationRequest)
    (w : World) (ls : List Surroundings) (r : PreparationRun),
    run (PreparationRun.step services request) (.initial services request w) ls = some r →
      r.ended = true →
      r.Recorded := by
  intro h
  have hrun : ((run (PreparationRun.step reviewServices reviewRequest)
      (.initial reviewServices reviewRequest World.empty) reviewOutage).any fun r =>
        r.ended && decide (r.started = some ("version_1", "job_1")) &&
          ((r.world.db.versions.find? "version_1").any
            fun version => decide (version.lifecycleStatus = .review)) &&
          (r.world.db.ingestionJobs.find? "job_1").any fun job => decide (job.status = .running)) =
            true := by
    decide +kernel
  obtain ⟨r, hr, hends⟩ := (Option.any_eq_true _ _).mp hrun
  simp only [Bool.and_eq_true, decide_eq_true_eq, Option.any_eq_true] at hends
  obtain ⟨⟨⟨hended, hstarted⟩, version, hversion, hreview⟩, job, hjob, hrunning⟩ := hends
  obtain ⟨version', job', hversion', hjob', hagrees⟩ := h _ _ _ _ r hr hended _ hstarted
  cases hversion'.symm.trans hversion
  cases hjob'.symm.trans hjob
  have hfailed := (hagrees.review hreview).1
  rw [hrunning] at hfailed
  cases hfailed

end ZhiyanRag.Ingestion
