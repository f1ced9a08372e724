import ZhiyanRag.Ingestion.IndexEffects
import ZhiyanRag.Ingestion.Views

/-!
# Replayed inactivations

Inactivations of one version, each given the row that is stored when it starts, between cleanup
attempts. A run keeps a report of every call's downstream steps, with whether the step raised
(`inactivationStep`).

An `INACTIVE` row is final, no step of these programs activates an index, and the queue keeps a row
for each target (`Table.Keeps`). So what a step of a call brought about stays
(`DownstreamStep.Effective`), whoever runs later.
-/

namespace ZhiyanRag.Ingestion

open Relational ZhiyanRag.Storage Steps

/-! ### Downstream steps -/

inductive DownstreamStep
  | invalidate
  | deactivate (backend : IndexBackend)
  | enqueue (backend : CleanupBackend)
  deriving DecidableEq

namespace DownstreamStep

/-- What `failures` calls the step. -/
def failure : DownstreamStep → String
  | invalidate => "query_visibility:invalidate"
  | deactivate backend => backend.value ++ ":deactivate"
  | enqueue backend => backend.value ++ ":enqueue_cleanup"

/-- The six steps in their order. -/
def all : List DownstreamStep :=
  [.invalidate, .deactivate .elasticsearch, .enqueue .elasticsearchChunks, .deactivate .milvus,
    .enqueue .milvusVectors, .enqueue .runtimeSnapshot]

end DownstreamStep

namespace InactivatorState

/-- The step that a state waits for. -/
def downstream? : InactivatorState → Option DownstreamStep
  | invalidate _ => some .invalidate
  | deactivate backend _ => some (.deactivate backend)
  | enqueueIndex backend _ => some (.enqueue backend.cleanupBackend)
  | enqueueRuntime _ => some (.enqueue .runtimeSnapshot)
  | transition | returned _ | raised _ => none

/-- The steps still to be made. -/
def remaining : InactivatorState → List DownstreamStep
  | transition | invalidate _ => DownstreamStep.all
  | deactivate .elasticsearch _ => DownstreamStep.all.drop 1
  | enqueueIndex .elasticsearch _ => DownstreamStep.all.drop 2
  | deactivate .milvus _ => DownstreamStep.all.drop 3
  | enqueueIndex .milvus _ => DownstreamStep.all.drop 4
  | enqueueRuntime _ => DownstreamStep.all.drop 5
  | returned _ | raised _ => []

/-- The result so far, from the transition on. -/
def result? : InactivatorState → Option InactivationResult
  | invalidate result | deactivate _ result | enqueueIndex _ result | enqueueRuntime result
  | returned result
  | raised (.inactivationCleanupPending result) => some result
  | transition | raised (.raised _) => none

end InactivatorState

/-- A step that was made, and whether it returned. -/
abbrev DownstreamReport := DownstreamStep × Bool

/-- What the next call of a thread adds to its reports. -/
def Thread.report (services : Services) (w : World) (choice : Choice) :
    Thread → List DownstreamReport
  | inactivator input state =>
    match state.downstream?, state.next input choice with
    | some step, some pending => (w.attempt services choice pending.operation).toList.map fun r =>
      (step, r.2.isOk)
    | _, _ => []
  | _ => []

/-- The threads of a run, and the reports of each. -/
structure InactivationRun where
  pool : Pool World Thread
  reports : Nat → List DownstreamReport

/-- Only inactivations of the stored version start, and workers. -/
def Thread.cleans (w : World) (documentVersionId : String) : Thread → Bool
  | inactivator input _ => decide (w.db.versions.find? documentVersionId = some input.version)
  | worker .. => true
  | preparer .. | publisher .. => false

def inactivationStep (services : Services) (documentVersionId : String) (h : InactivationRun) :
    PoolLabel Thread Choice → Option InactivationRun
  | .spawn thread =>
    if thread.cleans h.pool.world documentVersionId
      then (poolStep services h.pool (.spawn thread)).map fun pool => ⟨pool, h.reports⟩
    else none
  | .act index choice => (poolStep services h.pool (.act index choice)).map fun pool =>
    ⟨pool, Function.update h.reports index
      (h.reports index ++ (h.pool.threads[index]?).toList.flatMap
        (Thread.report services h.pool.world choice))⟩

/-! ### What a step brings about -/

/-- No row of the version is active in its index, if it has one. -/
def World.Inactive (w : World) (backend : IndexBackend) (key : String × String) : Prop :=
  ∀ index, w.indexes backend key = some index → ∀ row ∈ index.rows.rows, row.tenantId = key.1 →
    row.versionId = key.2 → row.isActive = false

/-- The cleanup jobs of a version for one backend. -/
def World.jobsOf (w : World) (v : DocumentVersionLifecycleV1) (backend : CleanupBackend) :
    List CleanupJobV1 :=
  w.db.cleanupJobs.rows.filter fun job =>
    decide (job.target = (backend, v.ownerId, v.documentId, v.documentVersionId))

def DownstreamStep.Effective (w : World) (v : DocumentVersionLifecycleV1) : DownstreamStep → Prop
  | invalidate => True
  | deactivate backend => w.Inactive backend (v.ownerId, v.documentVersionId)
  | enqueue backend => ∃ job ∈ w.db.cleanupJobs.rows,
      job.target = (backend, v.ownerId, v.documentId, v.documentVersionId)

theorem deactivateVersion_inactive {backend : IndexBackend} {current : Option PhysicalIndex}
    {index : PhysicalIndex} {ownerId documentVersionId : String}
    (h : deactivateVersion backend current ownerId documentVersionId = .ok (some index))
    {row : ChunkRecordV1} (hrow : row ∈ index.rows.rows)
    (howner : row.tenantId = ownerId) (hversion : row.versionId = documentVersionId) :
    row.isActive = false := by
  unfold deactivateVersion at h
  obtain ⟨-, h⟩ := ensure_bind.mp h
  cases current with
  | none => cases pure_eq_ok.mp h
  | some old =>
    obtain ⟨new, hset, h⟩ := bind_eq_ok.mp h
    cases pure_eq_ok.mp h
    unfold setActive at hset
    obtain ⟨-, hset⟩ := ensure_bind.mp hset
    cases backend with
    | elasticsearch =>
      obtain ⟨-, hset⟩ := ensure_bind.mp hset
      cases pure_eq_ok.mp hset
      obtain ⟨r, -, rfl⟩ := List.mem_map.mp hrow
      split at howner <;> rename_i hr
      · rw [if_pos hr]
        rfl
      · rw [if_neg hr] at hversion
        exact absurd ⟨howner, hversion⟩ hr
    | milvus =>
      obtain ⟨-, hset⟩ := ensure_bind.mp hset
      cases pure_eq_ok.mp hset
      obtain ⟨r, -, rfl⟩ := List.mem_map.mp hrow
      rfl

/-- The operations of inactivations and workers. -/
def Operation.Cleans : Operation → Prop
  | repository (.transitionVersion ..) | repository (.enqueueCleanup ..)
  | repository (.claimCleanup ..) | repository (.completeCleanup ..)
  | repository (.recordCleanupFailure ..) | repository (.purgeInactiveRuntimeSnapshot ..) => True
  | getInactivePdfObject .. | deactivateVersion .. | deleteVersion .. | deletePdf ..
  | invalidateVersion .. => True
  | _ => False

section Operations

variable {services : Services} {w w' : World} {choice : Choice} {operation : Operation}
  {outcome : Except PyError operation.Result}

theorem Outcome.queue_keeps (h : Outcome services w w' choice operation outcome)
    (hcleans : operation.Cleans) :
    Table.Keeps CleanupJobV1.target w.db.cleanupJobs w'.db.cleanupJobs := by
  obtain ⟨e, -, hsame⟩ | ⟨result, -, -, heffect⟩ := h.stores
  · rw [hsame.db]
    exact .refl _
  · cases heffect with
    | repository call result hcall _ _ =>
      cases call with
      | transitionVersion ownerId vid expectedRevision targetStatus updates now =>
        obtain ⟨old, -, -, -, -, hdb, -⟩ := transitionVersion_ok hcall
        rw [hdb]
        exact .refl _
      | enqueueCleanup newId backend ownerId documentId vid maxAttempts now =>
        exact enqueueCleanup_keeps hcall
      | claimCleanup newToken leaseSeconds now => exact claimCleanup_keeps hcall
      | completeCleanup cleanupId leaseToken now =>
        exact updateLeased_keeps hcall (fun _ => rfl) fun _ => rfl
      | recordCleanupFailure cleanupId leaseToken failureCode retryAt now =>
        obtain ⟨-, hcall⟩ := ensure_bind.mp hcall
        obtain ⟨-, hcall⟩ := ensure_bind.mp hcall
        exact updateLeased_keeps hcall (fun _ => rfl) fun _ => rfl
      | purgeInactiveRuntimeSnapshot ownerId vid =>
        obtain ⟨db, hpurge, hreturn⟩ := bind_eq_ok.mp hcall
        cases pure_eq_ok.mp hreturn
        rw [(purgeInactiveRuntimeSnapshot_ok hpurge).2]
        exact .refl _
      | _ => cases hcleans
    | getInactivePdfObject _ _ hdb | deactivateVersion _ _ _ _ _ hdb | deleteVersion _ _ _ _ hdb
    | deletePdf _ _ _ hdb
    | invalidateVersion _ _ _ hdb | ensureStaged _ _ _ _ _ _ _ _ hdb | activateVersion _ _ _ _ _ hdb
    | putPdf _ _ _ _ _ _ _ _ hdb =>
      rw [hdb]
      exact .refl _

theorem World.Inactive.set {backend : IndexBackend} {key key' : String × String}
    {backend' : IndexBackend} {index : Option PhysicalIndex} (h : w.Inactive backend key)
    (hindexes : w'.indexes = (w.setIndex backend' key' index).indexes)
    (hindex : ∀ new, index = some new → ∀ row ∈ new.rows.rows, row.tenantId = key'.1 →
      row.versionId = key'.2 → row.isActive = false) :
    w'.Inactive backend key := by
  intro new hnew
  rw [hindexes, World.setIndex_indexes] at hnew
  split at hnew
  · rename_i hsame
    rw [hsame.2]
    exact hindex new hnew
  · exact h new hnew

/-- None of these operations activates a row. -/
theorem Outcome.inactive_keeps (h : Outcome services w w' choice operation outcome)
    (hcleans : operation.Cleans) {backend : IndexBackend} {key : String × String}
    (hinactive : w.Inactive backend key) : w'.Inactive backend key := by
  have hframe : w'.indexes = w.indexes → w'.Inactive backend key := by
    intro heq index hindex
    rw [heq] at hindex
    exact hinactive index hindex
  obtain ⟨e, -, hsame⟩ | ⟨result, -, -, heffect⟩ := h.stores
  · exact hframe hsame.indexes
  · cases heffect with
    | repository call result _ hindexes _ => exact hframe hindexes
    | getInactivePdfObject _ _ _ hindexes _ => exact hframe hindexes
    | deletePdf _ _ _ _ hindexes => exact hframe hindexes
    | invalidateVersion _ _ _ _ hindexes _ => exact hframe hindexes
    | deactivateVersion b ownerId vid index hcall _ hindexes _ =>
      refine hinactive.set hindexes fun new hnew row hrow howner hversion => ?_
      rw [hnew] at hcall
      exact deactivateVersion_inactive hcall hrow howner hversion
    | deleteVersion b ownerId vid existed _ hindexes _ =>
      exact hinactive.set hindexes fun new hnew => by cases hnew
    | _ => cases hcleans

/-- A row of a version stays a valid row of it, and stays as it is once it is `INACTIVE`. -/
theorem Outcome.version_after (h : Outcome services w w' choice operation outcome) {vid : String}
    {v : DocumentVersionLifecycleV1} (hrow : w.db.versions.find? vid = some v) (hvalid : v.Valid) :
    ∃ v', w'.db.versions.find? vid = some v' ∧ v'.Valid ∧
    (v.lifecycleStatus = .inactive → v' = v) := by
  cases h.versionWrite with
  | same hversions => exact ⟨v, by rw [hversions]; exact hrow, hvalid, fun _ => rfl⟩
  | registered new _ _ hinsert =>
    exact ⟨v, Table.find?_insert?_of_some hinsert hrow, hvalid, fun _ => rfl⟩
  | updated call old new _ _ hmem hupdate _ hset =>
    by_cases hid : new.documentVersionId = vid
    · subst hid
      have hold : old = v := by
        have hfind := Table.find?_key_of_mem hmem
        rw [← hupdate.documentVersionId, hrow] at hfind
        exact (Option.some.inj hfind).symm
      subst hold
      refine ⟨new, by rw [hset]; exact Table.find?_set_self hrow, hupdate.valid,
        fun hinactive => ?_⟩
      have hallowed := hupdate.transition
      rw [hinactive] at hallowed
      unfold transitionAllowed at hallowed
      split at hallowed <;> cases hallowed
    · exact ⟨v, by rw [hset, Table.find?_set_ne _ hid]; exact hrow, hvalid, fun _ => rfl⟩

theorem DownstreamStep.Effective.later {step : DownstreamStep} {v : DocumentVersionLifecycleV1}
    (heffective : step.Effective w v) (h : Outcome services w w' choice operation outcome)
    (hcleans : operation.Cleans) : step.Effective w' v := by
  cases step with
  | invalidate => trivial
  | deactivate backend => exact h.inactive_keeps hcleans heffective
  | enqueue backend =>
    obtain ⟨job, hjob, htarget⟩ := heffective
    obtain ⟨job', hjob', htarget'⟩ := (h.queue_keeps hcleans).value job hjob
    exact ⟨job', hjob', htarget'.trans htarget⟩

end Operations

/-! ### What a call knows -/

/-- The result says what the reports say, and what they report is still so. -/
structure InactivationResult.Reflects (vid : String) (w : World) (reports : List DownstreamReport)
    (result : InactivationResult) : Prop where
  current : w.db.versions.find? vid = some result.version
  inactive : result.version.lifecycleStatus = .inactive
  valid : result.version.Valid
  failures : result.failures = (reports.filter fun r => !r.2).map fun r => r.1.failure
  invalidated : (DownstreamStep.invalidate, true) ∈ reports → result.visibilityInvalidated = true
  effective : ∀ step : DownstreamStep, (step, true) ∈ reports → step.Effective w result.version

structure InactivatorState.Sound (vid : String) (w : World) (input : InactivationInput)
    (reports : List DownstreamReport) (state : InactivatorState) : Prop where
  early : state.result? = none → reports = []
  transition : state = .transition → input.version.documentVersionId = vid
  reflects : ∀ result, state.result? = some result → result.Reflects vid w reports ∧
    reports.map (·.1) ++ state.remaining = DownstreamStep.all
  returned : ∀ result, state = .returned result → result.failures = []
  pending : ∀ result, state = .raised (.inactivationCleanupPending result) → result.failures ≠ []

def Thread.Sound (vid : String) (w : World) (reports : List DownstreamReport) : Thread → Prop
  | inactivator input state => state.Sound vid w input reports
  | worker .. => True
  | preparer .. | publisher .. => False

section Steps

variable {services : Services} {vid : String} {w w' : World} {choice : Choice}
  {operation : Operation} {outcome : Except PyError operation.Result}
  {reports : List DownstreamReport} {result result' : InactivationResult}
  {input : InactivationInput} {state state' : InactivatorState}

theorem InactivationResult.Reflects.later (h : result.Reflects vid w reports)
    (hout : Outcome services w w' choice operation outcome) (hcleans : operation.Cleans) :
    result.Reflects vid w' reports where
  current := by
    obtain ⟨v', hrow, -, hsame⟩ := hout.version_after h.current h.valid
    rw [hrow, hsame h.inactive]
  inactive := h.inactive
  valid := h.valid
  failures := h.failures
  invalidated := h.invalidated
  effective step hstep := (h.effective step hstep).later hout hcleans

/-- One more report. -/
theorem InactivationResult.Reflects.report {step : DownstreamStep} {ok : Bool}
    (h : result.Reflects vid w reports) (hversion : result'.version = result.version)
    (hfailures : result'.failures = result.failures ++ if ok then [] else [step.failure])
    (hinvalidated : result.visibilityInvalidated = true ∨ (step = .invalidate ∧ ok = true) →
      result'.visibilityInvalidated = true)
    (heffective : ok = true → step.Effective w result.version) :
    result'.Reflects vid w (reports ++ [(step, ok)]) where
  current := by
    rw [hversion]
    exact h.current
  inactive := by
    rw [hversion]
    exact h.inactive
  valid := by
    rw [hversion]
    exact h.valid
  failures := by
    rw [hfailures, h.failures, List.filter_append, List.map_append]
    cases ok <;> rfl
  invalidated hmem := by
    rcases List.mem_append.mp hmem with hmem | hmem
    · exact hinvalidated (.inl (h.invalidated hmem))
    · cases List.mem_singleton.mp hmem
      exact hinvalidated (.inr ⟨rfl, rfl⟩)
  effective s hmem := by
    rw [hversion]
    rcases List.mem_append.mp hmem with hmem | hmem
    · exact h.effective s hmem
    · cases List.mem_singleton.mp hmem
      exact heffective rfl

theorem InactivatorState.Sound.later (h : state.Sound vid w input reports)
    (hout : Outcome services w w' choice operation outcome) (hcleans : operation.Cleans) :
    state.Sound vid w' input reports :=
  { h with
    reflects := fun result hresult =>
      ⟨(h.reflects result hresult).1.later hout hcleans, (h.reflects result hresult).2⟩ }

/-- The state after a downstream step that leads on to the next one. -/
theorem InactivatorState.Sound.report {step : DownstreamStep} {ok : Bool}
    (h : state.Sound vid w input reports) (hresult : state.result? = some result)
    (hremaining : state.remaining = step :: state'.remaining)
    (hresult' : state'.result? = some result')
    (hreflects : result'.Reflects vid w' (reports ++ [(step, ok)]))
    (hreturned : ∀ r, state' = .returned r → r.failures = [])
    (hpending : ∀ r, state' = .raised (.inactivationCleanupPending r) → r.failures ≠ []) :
    state'.Sound vid w' input (reports ++ [(step, ok)]) where
  early hnone := by
    rw [hresult'] at hnone
    cases hnone
  transition htransition := by
    rw [htransition] at hresult'
    cases hresult'
  reflects r hr := by
    obtain rfl := Option.some.inj (hresult'.symm.trans hr)
    have hsteps := (h.reflects result hresult).2
    rw [hremaining] at hsteps
    rw [List.map_append, List.append_assoc]
    exact ⟨hreflects, hsteps⟩
  returned := hreturned
  pending := hpending

theorem finish_cases (result : InactivationResult) :
    (result.failures = [] ∧ result.finish = .returned result) ∨
      (result.failures ≠ [] ∧ result.finish = .raised (.inactivationCleanupPending result)) := by
  unfold InactivationResult.finish
  by_cases hfailures : result.failures = []
  · exact .inl ⟨hfailures, if_pos (List.isEmpty_iff.mpr hfailures)⟩
  · exact .inr ⟨hfailures, if_neg fun hempty => hfailures (List.isEmpty_iff.mp hempty)⟩

theorem enqueued_reflects {backend : CleanupBackend} {α : Type} {job : Except PyError α}
    (h : result.Reflects vid w reports)
    (heffective : job.isOk = true → (DownstreamStep.enqueue backend).Effective w result.version) :
    (result.enqueued backend job).Reflects vid w (reports ++ [(.enqueue backend, job.isOk)]) := by
  cases job with
  | ok j =>
    refine h.report rfl (List.append_nil _).symm (fun hinvalidated => ?_) heffective
    rcases hinvalidated with hinvalidated | ⟨hstep, -⟩
    · exact hinvalidated
    · cases hstep
  | error e =>
    refine h.report rfl rfl (fun hinvalidated => ?_) heffective
    rcases hinvalidated with hinvalidated | ⟨hstep, -⟩
    · exact hinvalidated
    · cases hstep

theorem inactivator_attempt {thread' : Thread}
    (h : (Thread.inactivator input state).step services w choice = some (w', thread')) :
    ∃ pending outcome, state.next input choice = some pending ∧
      w.attempt services choice pending.operation = some (w', outcome) ∧
      thread' = .inactivator input (pending.resume outcome) := by
  obtain ⟨pending, hnext, h⟩ := Option.bind_eq_some_iff.mp h
  obtain ⟨⟨w₁, outcome⟩, hattempt, hr⟩ := Option.map_eq_some_iff.mp h
  obtain ⟨inner, hinner, rfl⟩ := Option.map_eq_some_iff.mp hnext
  cases hr
  exact ⟨inner, outcome, hinner, hattempt, rfl⟩

theorem report_eq {pending : Pending InactivatorState}
    {outcome : Except PyError pending.operation.Result} {step : DownstreamStep}
    (hstep : state.downstream? = some step) (hnext : state.next input choice = some pending)
    (hattempt : w.attempt services choice pending.operation = some (w', outcome)) :
    (Thread.inactivator input state).report services w choice = [(step, outcome.isOk)] := by
  simp only [Thread.report, hstep, hnext, hattempt, Option.toList_some, List.map_cons, List.map_nil]

theorem report_eq_nil (hstep : state.downstream? = none) :
    (Thread.inactivator input state).report services w choice = [] := by
  simp only [Thread.report, hstep]

theorem next_cleans {pending : Pending InactivatorState}
    (hnext : state.next input choice = some pending) : pending.operation.Cleans := by
  cases state <;> cases hnext <;> trivial

theorem inactivator_transition {db' : Database} {updates : List (UpdateKey × UpdateValue Empty)}
    {now : Timestamp} {version new : DocumentVersionLifecycleV1} {expectedRevision : Int}
    (hversion : version.documentVersionId = vid)
    (h : transitionVersion noCoercion w.db version.ownerId version.documentVersionId
      expectedRevision .inactive updates now = .ok (db', new)) :
    db'.versions.find? vid = some new ∧ new.lifecycleStatus = .inactive ∧ new.Valid := by
  have hstored := transitionVersion_stored h
  obtain ⟨old, hold, -, hupdate, -, -, patched, -, hnew⟩ := transitionVersion_ok h
  have hid : new.documentVersionId = vid := by
    rw [hupdate.documentVersionId, ← hversion]
    exact Table.key_of_find? (Database.ownedVersion?_eq_some.mp hold).1
  rw [hid] at hstored
  exact ⟨hstored, by rw [hnew]; rfl, hupdate.valid⟩

theorem enqueue_effective {backend : CleanupBackend}
    {job : Except PyError (enqueueOperation input choice (result.request backend)).Result}
    (hvalid : result.version.Valid)
    (hout : Outcome services w w' choice
      (enqueueOperation input choice (result.request backend)) job)
    (hok : job.isOk = true) : (DownstreamStep.enqueue backend).Effective w' result.version := by
  cases job with
  | error e => cases hok
  | ok job =>
    obtain ⟨hmem, htarget⟩ := enqueueCleanup_target hvalid.ownerId hvalid.documentId
      hvalid.documentVersionId hout.repository.1
    exact ⟨job, hmem, htarget⟩

/-- A step that failed is reported under its name. -/
theorem InactivationResult.Reflects.failed {step : DownstreamStep}
    (h : result.Reflects vid w reports) :
    (result.failed step.failure).Reflects vid w (reports ++ [(step, false)]) := by
  refine h.report rfl rfl (fun hinvalidated => ?_) fun hok => by cases hok
  rcases hinvalidated with hinvalidated | ⟨-, hok⟩
  · exact hinvalidated
  · cases hok

theorem deactivated_inactive {backend : IndexBackend} {ownerId documentVersionId : String}
    {u : Unit} (hout : Outcome services w w' choice
      (.deactivateVersion backend ownerId documentVersionId) (.ok u)) : w'.Inactive backend
        (ownerId, documentVersionId) := by
  cases hout.result_effect with
  | deactivateVersion _ _ _ index hcall _ hindexes _ =>
    intro new hnew row hrow howner hversion
    rw [hindexes, World.setIndex_indexes, if_pos ⟨rfl, rfl⟩] at hnew
    rw [hnew] at hcall
    exact deactivateVersion_inactive hcall hrow howner hversion

theorem inactivator_sound {thread' : Thread} (h : state.Sound vid w input reports)
    (hstep : (Thread.inactivator input state).step services w choice = some (w', thread')) :
    thread'.Sound vid w'
      (reports ++ (Thread.inactivator input state).report services w choice) := by
  obtain ⟨pending, outcome, hnext, hattempt, rfl⟩ := inactivator_attempt hstep
  have hout := attempt_outcome hattempt
  have hcleans := next_cleans hnext
  have hlater := h.later hout hcleans
  cases state with
  | returned result => cases hnext
  | raised error => cases hnext
  | transition =>
    rw [report_eq_nil rfl, List.append_nil, h.early rfl]
    cases hnext
    cases outcome with
    | error e =>
      exact ⟨fun _ => rfl, fun htransition => (by cases htransition), fun r hr => (by cases hr),
        fun r hr => (by cases hr), fun r hr => (by cases hr)⟩
    | ok version =>
      obtain ⟨hcurrent, hinactive, hvalid⟩ :=
        inactivator_transition (h.transition rfl) hout.repository.1
      refine ⟨fun hnone => (by cases hnone), fun htransition => (by cases htransition),
        fun r hr => ?_, fun r hr => (by cases hr), fun r hr => (by cases hr)⟩
      cases hr
      exact ⟨⟨hcurrent, hinactive, hvalid, rfl, fun hmem => (by cases hmem),
        fun step hmem => (by cases hmem)⟩, rfl⟩
  | invalidate result =>
    rw [report_eq rfl hnext hattempt]
    have hreflects := (hlater.reflects result rfl).1
    cases hnext
    cases outcome with
    | ok u =>
      exact hlater.report rfl rfl rfl (hreflects.report rfl (List.append_nil _).symm (fun _ => rfl)
        fun _ => trivial) (fun r hr => by cases hr) fun r hr => by cases hr
    | error e =>
      exact hlater.report rfl rfl rfl hreflects.failed (fun r hr => by cases hr)
        fun r hr => by cases hr
  | deactivate backend result =>
    rw [report_eq rfl hnext hattempt]
    have hreflects := (hlater.reflects result rfl).1
    cases hnext
    cases outcome with
    | ok u =>
      have hinactive := deactivated_inactive hout
      refine hlater.report rfl (by cases backend <;> rfl) rfl
        (hreflects.report rfl (List.append_nil _).symm (fun hinvalidated => ?_) fun _ => hinactive)
          (fun r hr => by cases hr) fun r hr => by cases hr
      rcases hinvalidated with hinvalidated | ⟨hstep, -⟩
      · exact hinvalidated
      · cases hstep
    | error e =>
      exact hlater.report rfl (by cases backend <;> rfl) rfl hreflects.failed
        (fun r hr => by cases hr) fun r hr => by cases hr
  | enqueueIndex backend result =>
    rw [report_eq rfl hnext hattempt]
    have hreflects := (hlater.reflects result rfl).1
    cases hnext
    have hqueued : (result.enqueued backend.cleanupBackend outcome).Reflects vid w' _ :=
      enqueued_reflects hreflects fun hok => enqueue_effective hreflects.valid hout hok
    cases backend with
    | elasticsearch | milvus =>
      exact hlater.report rfl rfl rfl hqueued (fun r hr => by cases hr) fun r hr => by cases hr
  | enqueueRuntime result =>
    rw [report_eq rfl hnext hattempt]
    have hreflects := (hlater.reflects result rfl).1
    cases hnext
    have hqueued : (result.enqueued .runtimeSnapshot outcome).Reflects vid w' _ :=
      enqueued_reflects hreflects fun hok => enqueue_effective hreflects.valid hout hok
    rcases finish_cases (result.enqueued .runtimeSnapshot outcome)
      with ⟨hnil, hfinish⟩ | ⟨hne, hfinish⟩
    · show InactivatorState.Sound vid w' input _ (result.enqueued .runtimeSnapshot outcome).finish
      rw [hfinish]
      refine hlater.report rfl rfl rfl hqueued (fun r hr => ?_) fun r hr => by cases hr
      cases hr
      exact hnil
    · show InactivatorState.Sound vid w' input _ (result.enqueued .runtimeSnapshot outcome).finish
      rw [hfinish]
      refine hlater.report rfl rfl rfl hqueued (fun r hr => by cases hr) fun r hr => ?_
      cases hr
      exact hne

theorem worker_cleans {settings : CleanupWorker} {state : WorkerState}
    {pending : Pending WorkerState} (hnext : state.next settings choice = some pending) :
    pending.operation.Cleans := by
  cases state <;> cases hnext <;> trivial

theorem Thread.Sound.later {t : Thread} (h : t.Sound vid w reports)
    (hout : Outcome services w w' choice operation outcome) (hcleans : operation.Cleans) :
    t.Sound vid w' reports := by
  cases t with
  | inactivator input state => exact InactivatorState.Sound.later h hout hcleans
  | worker settings state => trivial
  | preparer request state => cases h
  | publisher preparation state => cases h

/-- A step makes one of the operations, and the thread's reports stay true. -/
theorem Thread.Sound.step {t t' : Thread} (h : t.Sound vid w reports)
    (hstep : t.step services w choice = some (w', t')) :
    (∃ (operation : Operation) (outcome : Except PyError operation.Result),
      Outcome services w w' choice operation outcome ∧ operation.Cleans) ∧
      t'.Sound vid w' (reports ++ t.report services w choice) := by
  cases t with
  | inactivator input state =>
    obtain ⟨pending, outcome, hnext, -, hout⟩ := inactivator_step hstep
    exact ⟨⟨pending.operation, outcome, hout, next_cleans hnext⟩, inactivator_sound h hstep⟩
  | worker settings state =>
    obtain ⟨pending, outcome, hnext, rfl, hout⟩ := worker_step hstep
    exact ⟨⟨pending.operation, outcome, hout, worker_cleans hnext⟩, trivial⟩
  | preparer request state => cases h
  | publisher preparation state => cases h

theorem start_sound (hrow : w.db.versions.find? vid = some input.version)
    (hvalid : input.version.Valid) : input.start.Sound vid w input [] := by
  unfold InactivationInput.start
  split
  · exact ⟨fun _ => rfl, fun _ => Table.key_of_find? hrow, fun r hr => (by cases hr),
      fun r hr => (by cases hr), fun r hr => (by cases hr)⟩
  · rename_i hinactive
    refine ⟨fun _ => rfl, fun htransition => (by cases htransition), fun r hr => ?_,
      fun r hr => (by cases hr), fun r hr => (by cases hr)⟩
    cases hr
    exact ⟨⟨hrow, not_not.mp hinactive, hvalid, rfl, fun hmem => (by cases hmem),
      fun step hmem => (by cases hmem)⟩, rfl⟩

end Steps

/-! ### Runs -/

structure InactivationRun.Sound (vid : String) (h : InactivationRun) : Prop where
  unique : h.pool.world.db.cleanupJobs.UniqueBy CleanupJobV1.target
  row : ∃ v, h.pool.world.db.versions.find? vid = some v ∧ v.Valid
  thread : ∀ (i : Nat) (t : Thread), h.pool.threads[i]? = some t →
    t.Sound vid h.pool.world (h.reports i)
  unstarted : ∀ i : Nat, h.pool.threads[i]? = none → h.reports i = []

section Runs

variable {services : Services} {vid : String} {h h' : InactivationRun}
  {label : PoolLabel Thread Choice} {labels : List (PoolLabel Thread Choice)}

theorem inactivationStep_sound (hh : h.Sound vid)
    (hstep : inactivationStep services vid h label = some h') : h'.Sound vid := by
  cases label with
  | spawn thread =>
    simp only [inactivationStep] at hstep
    split at hstep
    · rename_i hcleans
      obtain ⟨pool, hpool, rfl⟩ := Option.map_eq_some_iff.mp hstep
      obtain ⟨hstart, rfl⟩ := Pool.step_spawn hpool
      have hsound : thread.Sound vid h.pool.world [] := by
        cases thread with
        | inactivator input state =>
          obtain rfl : state = input.start := of_decide_eq_true hstart
          have hrow := of_decide_eq_true hcleans
          obtain ⟨v, hv, hvalid⟩ := hh.row
          rw [hrow] at hv
          exact start_sound hrow (Option.some.inj hv ▸ hvalid)
        | worker settings state => trivial
        | preparer request state => cases hcleans
        | publisher preparation state => cases hcleans
      refine ⟨hh.unique, hh.row, fun i t ht => ?_, fun i hi => hh.unstarted i ?_⟩
      · rcases Nat.lt_or_ge i h.pool.threads.length with hlt | hge
        · exact hh.thread i t ((List.getElem?_append_left hlt).symm.trans ht)
        · have hnone : h.pool.threads[i]? = none := List.getElem?_eq_none hge
          obtain rfl : thread = t := by
            rw [List.getElem?_append_right hge] at ht
            exact List.mem_singleton.mp (List.mem_of_getElem? ht) |>.symm
          show thread.Sound vid h.pool.world (h.reports i)
          rw [hh.unstarted i hnone]
          exact hsound
      · rw [List.getElem?_eq_none_iff] at hi ⊢
        rw [List.length_append] at hi
        exact Nat.le_trans (Nat.le_add_right _ _) hi
    · cases hstep
  | act index choice =>
    obtain ⟨pool, hpool, rfl⟩ := Option.map_eq_some_iff.mp hstep
    obtain ⟨t, w', t', ht, hact, rfl⟩ := Pool.step_act hpool
    obtain ⟨⟨operation, outcome, hout, hcleans⟩, hsound⟩ := (hh.thread index t ht).step hact
    obtain ⟨v, hv, hvalid⟩ := hh.row
    obtain ⟨v', hv', hvalid', -⟩ := hout.version_after hv hvalid
    refine ⟨(hout.queue_keeps hcleans).unique hh.unique, ⟨v', hv', hvalid'⟩, fun i u hu => ?_,
      fun i hi => ?_⟩
    · by_cases hi : i = index
      · subst hi
        have hlt : i < h.pool.threads.length := (List.getElem?_eq_some_iff.mp ht).1
        obtain rfl : t' = u := Option.some.inj ((List.getElem?_set_self hlt).symm.trans hu)
        show t'.Sound vid w' (Function.update h.reports i _ i)
        rw [Function.update_self, ht, Option.toList_some, List.flatMap_cons, List.flatMap_nil,
          List.append_nil]
        exact hsound
      · show u.Sound vid w' (Function.update h.reports index _ i)
        rw [Function.update_of_ne hi]
        exact (hh.thread i u ((List.getElem?_set_ne (Ne.symm hi)).symm.trans hu)).later hout hcleans
    · have hnone : h.pool.threads[i]? = none := by
        rw [List.getElem?_eq_none_iff] at hi ⊢
        rwa [List.length_set] at hi
      have hi : i ≠ index := by
        rintro rfl
        rw [ht] at hnone
        cases hnone
      show Function.update h.reports index _ i = []
      rw [Function.update_of_ne hi]
      exact hh.unstarted i hnone

theorem inactivations_sound (hh : h.Sound vid)
    (hrun : run (inactivationStep services vid) h labels = some h') : h'.Sound vid :=
  run_invariant (inactivationStep services vid)
    (fun _ _ _ hs hstep => inactivationStep_sound hs hstep) hh hrun

/-- A final row and what downstream steps brought about are still there. -/
structure World.Lasts (vid : String) (w w' : World) : Prop where
  row : ∀ v, w.db.versions.find? vid = some v → v.lifecycleStatus = .inactive →
    w'.db.versions.find? vid = some v
  effective : ∀ (step : DownstreamStep) (v : DocumentVersionLifecycleV1), step.Effective w v →
    step.Effective w' v

theorem inactivationStep_lasts (hh : h.Sound vid)
    (hstep : inactivationStep services vid h label = some h') :
    h.pool.world.Lasts vid h'.pool.world := by
  cases label with
  | spawn thread =>
    simp only [inactivationStep] at hstep
    split at hstep
    · obtain ⟨pool, hpool, rfl⟩ := Option.map_eq_some_iff.mp hstep
      obtain ⟨-, rfl⟩ := Pool.step_spawn hpool
      exact ⟨fun v hv _ => hv, fun _ _ heffective => heffective⟩
    · cases hstep
  | act index choice =>
    obtain ⟨pool, hpool, rfl⟩ := Option.map_eq_some_iff.mp hstep
    obtain ⟨t, w', t', ht, hact, rfl⟩ := Pool.step_act hpool
    obtain ⟨⟨operation, outcome, hout, hcleans⟩, -⟩ := (hh.thread index t ht).step hact
    refine ⟨fun v hv hinactive => ?_, fun step v heffective => heffective.later hout hcleans⟩
    obtain ⟨u, hu, hvalid⟩ := hh.row
    rw [hv] at hu
    obtain ⟨v', hv', -, hsame⟩ := hout.version_after hv (Option.some.inj hu ▸ hvalid)
    rw [hv', hsame hinactive]

theorem inactivations_last (hh : h.Sound vid)
    (hrun : run (inactivationStep services vid) h labels = some h') :
    h.pool.world.Lasts vid h'.pool.world := by
  have hall : h'.Sound vid ∧ h.pool.world.Lasts vid h'.pool.world := by
    refine run_invariant (inactivationStep services vid) (I := fun k => k.Sound vid ∧
      h.pool.world.Lasts vid k.pool.world) (fun k label k' hk hstep => ?_)
        ⟨hh, fun v hv _ => hv, fun _ _ heffective => heffective⟩ hrun
    have hlasts := inactivationStep_lasts hk.1 hstep
    exact ⟨inactivationStep_sound hk.1 hstep,
      fun v hv hinactive => hlasts.row v (hk.2.row v hv hinactive) hinactive,
      fun step v heffective => hlasts.effective step v (hk.2.effective step v heffective)⟩
  exact hall.2

/-- Where nothing failed, every report is of a step that returned. -/
theorem reports_of_no_failures {reports : List DownstreamReport}
    (hfailures : (reports.filter fun r => !r.2).map (fun r => r.1.failure) = []) :
    reports = (reports.map (·.1)).map fun step => (step, true) := by
  rw [List.map_map]
  refine (List.map_id reports).symm.trans (List.map_congr_left fun r hr => ?_)
  have hok := List.filter_eq_nil_iff.mp (List.map_eq_nil_iff.mp hfailures) r hr
  rw [Bool.not_eq_true, Bool.not_eq_false'] at hok
  exact Prod.ext rfl hok

/-- Inactivation is safe to replay: whatever raised before, and whatever the workers did in between
and do later. -/
theorem inactivation_replay_safe {w : World} {v : DocumentVersionLifecycleV1}
    (hrow : w.db.versions.find? vid = some v) (hvalid : v.Valid)
    (hunique : w.db.cleanupJobs.UniqueBy CleanupJobV1.target)
    {further : List (PoolLabel Thread Choice)}
    (hrun : run (inactivationStep services vid) ⟨⟨w, []⟩, fun _ => []⟩ labels = some h)
    (hfurther : run (inactivationStep services vid) h further = some h')
    {i : Nat} {input : InactivationInput} {state : InactivatorState}
    (hthread : h.pool.threads[i]? = some (.inactivator input state)) :
    -- from its transition on, the version is as the transition left it
    (∀ result, state.result? = some result → result.version.lifecycleStatus = .inactive ∧
      h'.pool.world.db.versions.find? vid = some result.version) ∧
    -- a call that leaves work pending lists the steps that raised, and the others took effect
    (∀ result, state = .raised (.inactivationCleanupPending result) →
      (h.reports i).map (·.1) = DownstreamStep.all ∧
      result.failures = ((h.reports i).filter fun r => !r.2).map (fun r => r.1.failure) ∧
      result.failures ≠ [] ∧
      ∀ step : DownstreamStep, (step, true) ∈ h.reports i →
      step.Effective h'.pool.world result.version) ∧
    -- a call that returns leaves nothing active, and one job for each backend
    (∀ result, state = .returned result →
      h.reports i = DownstreamStep.all.map (fun step => (step, true)) ∧
      result.visibilityInvalidated = true ∧
      (∀ backend, h'.pool.world.Inactive backend (result.version.ownerId, vid)) ∧ ∀ backend,
        (h'.pool.world.jobsOf result.version backend).length = 1) ∧
    -- a call whose transition raises makes no downstream step
    ∀ error, state = .raised (.raised error) → h.reports i = [] := by
  have hstart : InactivationRun.Sound vid ⟨⟨w, []⟩, fun _ => []⟩ :=
    ⟨hunique, ⟨v, hrow, hvalid⟩, fun i t ht => by simp at ht, fun _ _ => rfl⟩
  have hsound := inactivations_sound hstart hrun
  have hsound' := inactivations_sound hsound hfurther
  have hlasts := inactivations_last hsound hfurther
  have hstate : state.Sound vid h.pool.world input (h.reports i) := hsound.thread i _ hthread
  refine ⟨fun result hresult => ?_, fun result hresult => ?_, fun result hresult => ?_,
    fun error hraised => hstate.early (by rw [hraised]; rfl)⟩
  · obtain ⟨hreflects, -⟩ := hstate.reflects result hresult
    exact ⟨hreflects.inactive, hlasts.row _ hreflects.current hreflects.inactive⟩
  · obtain ⟨hreflects, hsteps⟩ := hstate.reflects result (by rw [hresult]; rfl)
    rw [hresult, InactivatorState.remaining, List.append_nil] at hsteps
    exact ⟨hsteps, hreflects.failures, hstate.pending result hresult,
      fun step hstep => hlasts.effective step _ (hreflects.effective step hstep)⟩
  · obtain ⟨hreflects, hsteps⟩ := hstate.reflects result (by rw [hresult]; rfl)
    rw [hresult, InactivatorState.remaining, List.append_nil] at hsteps
    have hreports :=
      reports_of_no_failures (hreflects.failures.symm.trans (hstate.returned result hresult))
    rw [hsteps] at hreports
    have heffective : ∀ step ∈ DownstreamStep.all, step.Effective h'.pool.world result.version :=
      fun step hstep =>
      hlasts.effective step _ (hreflects.effective step (hreports ▸ List.mem_map_of_mem hstep))
    have hid : result.version.documentVersionId = vid := Table.key_of_find? hreflects.current
    refine ⟨hreports, hreflects.invalidated (hreports ▸ List.mem_map_of_mem (by decide)),
      fun backend => ?_, fun backend => ?_⟩
    · rw [← hid]
      exact heffective (.deactivate backend) (by cases backend <;> decide)
    · obtain ⟨job, hjob, htarget⟩ := heffective (.enqueue backend) (by cases backend <;> decide)
      unfold World.jobsOf
      rw [← htarget, hsound'.unique.filter_eq hjob]
      rfl

end Runs

/-! ### A call that leaves work pending, and its replay -/

def replayedVersion (status : LifecycleStatus) (revision : Int) (deleteTime : Option Timestamp) :
    DocumentVersionLifecycleV1 where
  paperId := "paper_1"
  documentId := "document_1"
  ownerId := "owner_1"
  documentVersionId := "version_1"
  contentSha256 := sampleSha
  sourceSnapshotSha256 := sampleSha
  parseVersion := "parse_v1"
  lifecycleRevision := revision
  lifecycleStatus := status
  deleteTime := deleteTime
  updatedAt := 1

def replayWorld : World :=
  { World.empty with
    db := { Database.empty with
      versions := ⟨[replayedVersion .registered 1 none], List.nodup_singleton _⟩ } }

/-- In the first call the Milvus writer and its enqueueing fail; a worker claims a job; the second
call returns. -/
def sampleReplay : List (PoolLabel Thread Choice) :=
  let call (version : DocumentVersionLifecycleV1) : Thread :=
    .inactivator ⟨version, .delete, 5⟩ (InactivationInput.start ⟨version, .delete, 5⟩)
  let fail : Choice := { calm with fails := true }
  let draw (n : String) : Choice := drawingCalm (fixedId ("cleanup_" ++ n))
  [.spawn (call (replayedVersion .registered 1 none)), .act 0 calm, .act 0 calm, .act 0 calm,
    .act 0 (draw "1"), .act 0 fail, .act 0 { draw "2" with fails := true }, .act 0 (draw "3"),
    .spawn (.worker sampleWorker .claim), .act 1 (drawingCalm (fixedId "lease_1")),
    .spawn (call (replayedVersion .inactive 2 (some 1))), .act 2 calm, .act 2 calm,
    .act 2 (draw "4"), .act 2 calm, .act 2 (draw "5"), .act 2 (draw "6")]

theorem inactivation_replay_safe_sample :
    ∃ h input result, run (inactivationStep sampleServices "version_1") ⟨⟨replayWorld, []⟩,
      fun _ => []⟩ sampleReplay = some h ∧
      h.reports 0 = DownstreamStep.all.map
        (fun step => (step, decide (step ≠ .deactivate .milvus ∧ step ≠ .enqueue .milvusVectors))) ∧
      h.pool.threads[2]? = some (.inactivator input (.returned result)) ∧ ∀ backend,
        (h.pool.world.jobsOf result.version backend).length = 1 := by
  have hvalid : (replayedVersion .registered 1 none).Valid :=
    (DocumentVersionLifecycleV1.validate_eq_ok.mp rfl).2
  have hruns : ∃ h input result,
      run (inactivationStep sampleServices "version_1") ⟨⟨replayWorld, []⟩, fun _ => []⟩
        sampleReplay = some h ∧
      h.reports 0 = DownstreamStep.all.map
        (fun step => (step, decide (step ≠ .deactivate .milvus ∧ step ≠ .enqueue .milvusVectors))) ∧
      h.pool.threads[2]? = some (.inactivator input (.returned result)) := ⟨_, _, _, rfl, rfl, rfl⟩
  obtain ⟨h, input, result, hrun, hreports, hthread⟩ := hruns
  have hsafe := inactivation_replay_safe rfl hvalid (Table.uniqueBy_empty _) hrun
    (run_nil _ _) hthread
  exact ⟨h, input, result, hrun, hreports, hthread, (hsafe.2.2.1 result rfl).2.2.2⟩

end ZhiyanRag.Ingestion
