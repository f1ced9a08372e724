import ZhiyanRag.Ingestion.Threads

/-!
# What a thread knows of the stored version

A preparation or a publication carries a copy of the version row that its last committed call
returned. The stored row is that copy or a later one (`World.Sees`), whatever the other threads do;
it is the copy itself (`World.IsCurrent`) exactly when the revisions agree, and this is what a
compare-and-swap tests.
-/

namespace ZhiyanRag.Ingestion

open Relational ZhiyanRag.Storage Steps

/-- The stored row is the copy `v`, at the same or a later time. -/
def World.Sees (w : World) (v : DocumentVersionLifecycleV1) : Prop :=
  ∃ row, w.db.versions.find? v.documentVersionId = some row ∧ LaterVersion v row

/-- The stored row is the copy `v`. -/
def World.IsCurrent (w : World) (v : DocumentVersionLifecycleV1) : Prop :=
  w.db.versions.find? v.documentVersionId = some v

instance (w : World) (v : DocumentVersionLifecycleV1) : Decidable (w.IsCurrent v) :=
  inferInstanceAs (Decidable (_ = _))

/-- The copy of the version row that is live in a state. -/
def PreparerState.version? : PreparerState → Option DocumentVersionLifecycleV1
  | startProcessing _ version _ | startJob _ version _ | recordProgress _ version _ _ =>
    some version
  | requireReview preparation | putPdf preparation | persistSnapshot preparation _
  | returned preparation _ =>
    some preparation.version
  | failVersion version .. => some version
  | registerDocument | registerVersion _ | failJob .. | raised _ => none

def PublisherState.version? : PublisherState → Option DocumentVersionLifecycleV1
  | stage _ version _ | progress _ version _ | activate _ version _ | finalize version _ =>
    some version
  | compensate _ version _ _ | recordFailure version _ _ => some version
  | returned result => some result.version
  | raised _ => none

def Thread.version? : Thread → Option DocumentVersionLifecycleV1
  | preparer _ state => state.version?
  | publisher _ state => state.version?
  | inactivator .. | worker .. => none

/-! ### Writes to the version rows -/

/-- All that an operation can do to the version rows. -/
inductive VersionWrite (w w' : World) (operation : Operation) : Prop
  | same : w'.db.versions = w.db.versions → VersionWrite w w' operation
  | registered (v : DocumentVersionLifecycleV1) : v.Valid → v.lifecycleStatus = .registered →
      w.db.versions.insert? v = some w'.db.versions → VersionWrite w w' operation
  | updated (call : Call Empty) (old new : DocumentVersionLifecycleV1) :
      operation = .repository call → call.target? = some new.lifecycleStatus →
      old ∈ w.db.versions.rows → VersionUpdate old new → w.db.oneActive new = true →
      w'.db.versions = w.db.versions.set new → VersionWrite w w' operation

section

variable {services : Services} {w w' : World} {operation : Operation}

theorem Effect.db_cases {result : operation.Result} (h : Effect services w w' operation result) :
    w'.db = w.db ∨ ∃ call log, operation = .repository call ∧
      w.db.exec noCoercion services.chunksFingerprint call = .ok (w'.db, log) := by
  cases h with
  | repository call result hcall =>
    obtain ⟨log, hexec⟩ := Database.perform_exec hcall
    exact .inr ⟨call, log, rfl, hexec⟩
  | _ => exact .inl (by assumption)

theorem Effect.versionWrite {result : operation.Result}
    (h : Effect services w w' operation result) : VersionWrite w w' operation := by
  obtain hsame | ⟨call, log, rfl, hexec⟩ := h.db_cases
  · exact .same (by rw [hsame])
  · cases exec_committed hexec with
    | bookkeeping hversions _ => exact .same hversions
    | registered v hvalid _ hstatus hinsert _ => exact .registered v hvalid hstatus hinsert
    | updated old new htarget hmem hupdate hactive hset _ =>
      exact .updated call old new rfl htarget hmem hupdate hactive hset
    | snapshot pdf chunks receipt _ hcommit => exact .same (persistRuntimeSnapshot_frame hcommit).1
    | purged ownerId documentVersionId _ hcommit =>
      obtain ⟨-, hdb⟩ := purgeInactiveRuntimeSnapshot_ok hcommit
      exact .same (by rw [hdb])
    | enqueued job jobs _ _ _ _ hdb => exact .same (by rw [hdb])
    | claimed newToken leaseSeconds now result _ hclaim =>
      obtain ⟨jobs, hdb⟩ := claimCleanup_frame hclaim
      exact .same (by rw [hdb])
    | succeeded job leaseToken now _ _ hdb => exact .same (by rw [hdb])
    | failed job leaseToken failureCode retryAt now _ _ hdb => exact .same (by rw [hdb])

variable {choice : Choice} {outcome : Except PyError operation.Result}

theorem Outcome.versionWrite (h : Outcome services w w' choice operation outcome) :
    VersionWrite w w' operation := by
  obtain ⟨e, -, hsame⟩ | ⟨result, -, -, heffect⟩ := h.stores
  · exact .same (by rw [hsame.db])
  · exact heffect.versionWrite

theorem VersionWrite.later (h : VersionWrite w w' operation) : w.db.Later w'.db := by
  cases h with
  | same heq =>
    have heffect : VersionEffect w.db w'.db [] := .same heq fun v => ⟨by simp, by simp⟩
    exact heffect.later
  | registered v hvalid hstatus hinsert =>
    intro id u hu
    exact ⟨u, Table.find?_insert?_of_some hinsert hu, LaterVersion.refl u⟩
  | updated call old new _ _ hmem hupdate hactive hset =>
    exact VersionEffect.later (.updated old new hmem hupdate hactive hset rfl)

theorem Outcome.later (h : Outcome services w w' choice operation outcome) : w.db.Later w'.db :=
  h.versionWrite.later

/-! ### Copies -/

namespace World

variable {v row : DocumentVersionLifecycleV1}

theorem Sees.later (h : w.Sees v) (hlater : w.db.Later w'.db) : w'.Sees v := by
  obtain ⟨row, hrow, hv⟩ := h
  obtain ⟨row', hrow', hrow''⟩ := hlater _ _ hrow
  exact ⟨row', hrow', hv.trans hrow''⟩

theorem IsCurrent.sees (h : w.IsCurrent v) : w.Sees v := ⟨v, h, LaterVersion.refl v⟩

/-- A compare-and-swap that finds the expected revision finds the copy. -/
theorem Sees.eq_of_revision (h : w.Sees v)
    (hrow : w.db.versions.find? v.documentVersionId = some row)
    (hrev : row.lifecycleRevision = v.lifecycleRevision) : row = v := by
  obtain ⟨row', hrow', hlater⟩ := h
  cases hrow.symm.trans hrow'
  exact hlater.unchanged hrev.symm

/-- After an update of its version, a copy that was seen before is no longer the stored row. -/
theorem Sees.not_current_of_updated {old new : DocumentVersionLifecycleV1} (h : w.Sees v)
    (hmem : old ∈ w.db.versions.rows) (hupdate : VersionUpdate old new)
    (hset : w'.db.versions = w.db.versions.set new)
    (hid : v.documentVersionId = new.documentVersionId) :
    ¬ w'.IsCurrent v := by
  intro hcurrent
  obtain ⟨row, hrow, hlater⟩ := h
  have hfind : w.db.versions.find? new.documentVersionId = some old := by
    rw [hupdate.documentVersionId]
    exact Table.find?_key_of_mem hmem
  unfold IsCurrent at hcurrent
  rw [hset, hid, Table.find?_set_self hfind] at hcurrent
  cases hcurrent
  rw [hfind] at hrow
  cases hrow
  have := hlater.revision
  have := hupdate.revision
  omega

/-- A copy that is current after a step was current before it, or the step wrote it. -/
theorem Sees.current_before (h : w.Sees v) (hwrite : VersionWrite w w' operation)
    (hcurrent : w'.IsCurrent v) : w.IsCurrent v := by
  cases hwrite with
  | same heq =>
    unfold IsCurrent at hcurrent ⊢
    rwa [heq] at hcurrent
  | registered u _ _ hinsert =>
    obtain ⟨row, hrow, hlater⟩ := h
    unfold IsCurrent at hcurrent ⊢
    rw [Table.find?_insert?_of_some hinsert hrow] at hcurrent
    rw [hrow, hcurrent]
  | updated call old new _ _ hmem hupdate _ hset =>
    by_cases hid : v.documentVersionId = new.documentVersionId
    · exact absurd hcurrent (h.not_current_of_updated hmem hupdate hset hid)
    · unfold IsCurrent at hcurrent ⊢
      rwa [hset, Table.find?_set_ne _ (Ne.symm hid)] at hcurrent

end World

/-! ### Results that are stored -/

theorem transitionVersion_stored {db db' : Database} {ownerId documentVersionId : String}
    {expectedRevision : Int} {targetStatus : LifecycleStatus}
    {updates : List (UpdateKey × UpdateValue Empty)}
    {now : Timestamp} {new : DocumentVersionLifecycleV1}
    (h : transitionVersion noCoercion db ownerId documentVersionId expectedRevision targetStatus
      updates now = .ok (db', new)) : db'.versions.find? new.documentVersionId = some new := by
  obtain ⟨old, hold, -, hupdate, -, rfl, -⟩ := transitionVersion_ok h
  obtain ⟨hfind, -⟩ := Database.ownedVersion?_eq_some.mp hold
  have hkey := Table.key_of_find? hfind
  have hstored : db.versions.find? new.documentVersionId = some old := by
    rw [hupdate.documentVersionId, hkey]
    exact hfind
  exact Table.find?_set_self hstored

/-- The version a call returns is the stored row. -/
theorem registerVersionAndIngestionJob_stored {db db' : Database}
    {newVersionId newJobId ownerId documentId content source parse idempotencyKey : String}
    {now : Timestamp} {v : DocumentVersionLifecycleV1} {job : IngestionJobV1}
    (h : registerVersionAndIngestionJob db newVersionId newJobId ownerId documentId content
      source parse idempotencyKey now = .ok (db', v, job)) : db'.versions.find?
        v.documentVersionId = some v := by
  obtain ⟨db₁, jobs, hversion, rfl⟩ := registerVersionAndIngestionJob_ok h
  obtain ⟨-, -, -, hmem, -⟩ := registerVersion_ok hversion
  exact Table.find?_key_of_mem hmem

theorem finalizeIndexingSuccess_stored {db db' : Database}
    {ownerId documentVersionId jobId : String} {expectedRevision : Int} {states : UpdateValue Empty}
    {vectorIndexTime : Datetime} {now : Timestamp} {v : DocumentVersionLifecycleV1}
    {job : IngestionJobV1}
    (h : finalizeIndexingSuccess noCoercion db ownerId documentVersionId expectedRevision states
      vectorIndexTime jobId now = .ok (db', v, job)) : db'.versions.find? v.documentVersionId =
        some v := by
  obtain ⟨db₁, hversion, hjob, -⟩ := finalizeIndexingSuccess_ok h
  obtain ⟨rfl, -⟩ := updateIngestionJob_ok hjob
  have hstored := transitionVersion_stored hversion
  exact hstored

theorem startOrResumeProcessing_version {identity : DocumentIdentityV1}
    {version v : DocumentVersionLifecycleV1} {job : IngestionJobV1}
    (h : (PreparationRequest.startOrResumeProcessing identity version job).version? = some v) :
    version = v := by
  unfold PreparationRequest.startOrResumeProcessing at h
  split at h <;> cases h <;> rfl

theorem ingest_version {request : PreparationRequest} {identity : DocumentIdentityV1}
    {version v : DocumentVersionLifecycleV1} {job : IngestionJobV1}
    (h : (request.ingest services identity version job).version? = some v) : version = v := by
  unfold PreparationRequest.ingest at h
  split at h <;> cases h <;> rfl

theorem prepared_version {request : PreparationRequest}
    {preparation : PersistentIngestionPreparation} {v : DocumentVersionLifecycleV1}
    (h : (request.prepared preparation).version? = some v) : preparation.version = v := by
  unfold PreparationRequest.prepared at h
  split at h
  · cases h
    rfl
  · split at h <;> cases h
    rfl

/-- A call outside every handler leads to a copy that its result carries, if to any. -/
theorem orRaise_version {α : Type} {f : α → PreparerState} {x : Except PyError α}
    {v : DocumentVersionLifecycleV1} (h : (orRaise f x).version? = some v) :
    ∃ result, x = .ok result ∧ (f result).version? = some v := by
  cases x with
  | ok result => exact ⟨result, rfl, h⟩
  | error e => cases h

theorem Outcome.result_effect {result : operation.Result}
    (h : Outcome services w w' choice operation (.ok result)) :
    Effect services w w' operation result := by
  rcases h.stores with ⟨e, he, -⟩ | ⟨r, hr, -, heffect⟩
  · cases he
  · cases hr
    exact heffect

/-- The repository call behind a result. -/
theorem Outcome.repository {call : Call Empty} {result : call.Result}
    (h : Outcome services w w' choice (.repository call) (.ok result)) :
    w.db.perform noCoercion services.chunksFingerprint call = .ok (w'.db, result) ∧
      w'.indexes = w.indexes ∧ w'.objects = w.objects := by
  cases h.result_effect with
  | repository _ _ hcall hindexes hobjects => exact ⟨hcall, hindexes, hobjects⟩

/-- A version in a preparation's next state is the copy it had, or the stored row. -/
theorem preparer_version {request : PreparationRequest} {state : PreparerState}
    {pending : Pending PreparerState} {outcome : Except PyError pending.operation.Result}
    (hnext : state.next services request choice = some pending)
    (h : Outcome services w w' choice pending.operation outcome) {v : DocumentVersionLifecycleV1}
    (hv : (pending.resume outcome).version? = some v) :
    state.version? = some v ∨ w'.IsCurrent v := by
  cases state with
  | returned => cases hnext
  | raised => cases hnext
  | registerDocument =>
    cases hnext
    obtain ⟨identity, -, hstate⟩ := orRaise_version hv
    cases hstate
  | registerVersion identity =>
    cases hnext
    obtain ⟨⟨version, job⟩, rfl, hstate⟩ := orRaise_version hv
    cases startOrResumeProcessing_version hstate
    exact .inr (registerVersionAndIngestionJob_stored h.repository.1)
  | startProcessing identity version job =>
    cases hnext
    obtain ⟨version', rfl, hstate⟩ := orRaise_version hv
    cases hstate
    exact .inr (transitionVersion_stored h.repository.1)
  | startJob identity version job =>
    cases hnext
    obtain ⟨job', rfl, hstate⟩ := orRaise_version hv
    cases ingest_version hstate
    exact .inl rfl
  | recordProgress identity version job ingestion =>
    simp only [PreparerState.next] at hnext
    split at hnext
    · cases hnext
      obtain ⟨version', rfl, hstate⟩ := orRaise_version hv
      cases hstate
      exact .inr (transitionVersion_stored h.repository.1)
    · cases hnext
      obtain ⟨version', rfl, hstate⟩ := orRaise_version hv
      cases prepared_version hstate
      exact .inr (transitionVersion_stored h.repository.1)
  | requireReview preparation =>
    cases hnext
    obtain ⟨job', rfl, hstate⟩ := orRaise_version hv
    cases prepared_version hstate
    exact .inl rfl
  | putPdf preparation =>
    cases hnext
    cases outcome <;> cases hv <;> exact .inl rfl
  | persistSnapshot preparation pdf =>
    cases hnext
    cases outcome <;> cases hv <;> exact .inl rfl
  | failVersion version job failureCode error =>
    cases hnext
    obtain ⟨version', rfl, hstate⟩ := orRaise_version hv
    cases hstate
  | failJob job failureCode error =>
    cases hnext
    obtain ⟨job', rfl, hstate⟩ := orRaise_version hv
    cases hstate

/-- A version in a publication's next state is the copy it had, or the stored row. -/
theorem publisher_version {preparation : PersistentIngestionPreparation} {state : PublisherState}
    {pending : Pending PublisherState} {outcome : Except PyError pending.operation.Result}
    (hnext : state.next services preparation choice = some pending)
    (h : Outcome services w w' choice pending.operation outcome) {v : DocumentVersionLifecycleV1}
    (hv : (pending.resume outcome).version? = some v) :
    state.version? = some v ∨ w'.IsCurrent v := by
  cases state with
  | returned => cases hnext
  | raised => cases hnext
  | stage backend version receipts =>
    cases hnext
    refine .inl ?_
    cases outcome with
    | error e => exact hv
    | ok receipt =>
      simp only [PublisherState.staged] at hv
      split at hv <;> exact hv
  | progress backend version receipts =>
    cases hnext
    cases outcome with
    | error e => cases hv
    | ok version' =>
      have hstored := transitionVersion_stored h.repository.1
      cases backend <;> cases hv <;> exact .inr hstored
  | activate backend version receipts =>
    cases hnext
    cases outcome <;> cases backend <;> exact .inl hv
  | finalize version receipts =>
    cases hnext
    cases outcome with
    | error e => exact .inl hv
    | ok result =>
      cases hv
      exact .inr (finalizeIndexingSuccess_stored h.repository.1)
  | compensate backend version failure failures =>
    cases hnext
    cases backend <;> exact .inl hv
  | recordFailure version failure failures =>
    cases hnext
    cases outcome <;> cases hv

/-- A thread keeps seeing its copy, and sees the copies it takes. -/
theorem step_sees {thread thread' : Thread} (h : thread.step services w choice = some (w', thread'))
    (hsees : ∀ v, thread.version? = some v → w.Sees v) :
    ∀ v, thread'.version? = some v → w'.Sees v := by
  intro v hv
  cases thread with
  | preparer request state =>
    obtain ⟨pending, outcome, hnext, rfl, houtcome⟩ := preparer_step h
    rcases preparer_version hnext houtcome hv with hold | hcurrent
    · exact (hsees v hold).later houtcome.later
    · exact hcurrent.sees
  | publisher preparation state =>
    obtain ⟨pending, outcome, hnext, rfl, houtcome⟩ := publisher_step h
    rcases publisher_version hnext houtcome hv with hold | hcurrent
    · exact (hsees v hold).later houtcome.later
    · exact hcurrent.sees
  | inactivator input state =>
    obtain ⟨pending, outcome, -, rfl, -⟩ := inactivator_step h
    cases hv
  | worker settings state =>
    obtain ⟨pending, outcome, -, rfl, -⟩ := worker_step h
    cases hv

/-- The version a transition returns is later than any copy of it. -/
theorem World.Sees.transition_later {version new : DocumentVersionLifecycleV1}
    {expectedRevision : Int} {targetStatus : LifecycleStatus}
    {updates : List (UpdateKey × UpdateValue Empty)} {now : Timestamp} {db' : Database}
    (hsees : w.Sees version)
    (h : transitionVersion noCoercion w.db version.ownerId version.documentVersionId
      expectedRevision targetStatus updates now = .ok (db', new)) : LaterVersion version new := by
  obtain ⟨old, hold, -, hupdate, -⟩ := transitionVersion_ok h
  obtain ⟨row, hrow, hlater⟩ := hsees
  cases (Database.ownedVersion?_eq_some.mp hold).1.symm.trans hrow
  exact hlater.trans hupdate.later

/-- A finalisation that commits finds its copy in the row. -/
theorem finalize_current {version : DocumentVersionLifecycleV1} {states : UpdateValue Empty}
    {vectorIndexTime : Datetime} {jobId : String} {now : Timestamp} {db' : Database}
    {new : DocumentVersionLifecycleV1} {job : IngestionJobV1} (hsees : w.Sees version)
    (h : finalizeIndexingSuccess noCoercion w.db version.ownerId version.documentVersionId
      version.lifecycleRevision states vectorIndexTime jobId now = .ok (db', new, job)) :
    w.IsCurrent version ∧ VersionUpdate version new ∧ db'.versions = w.db.versions.set new := by
  obtain ⟨db₁, hversion, hjob, -⟩ := finalizeIndexingSuccess_ok h
  obtain ⟨rfl, -⟩ := updateIngestionJob_ok hjob
  obtain ⟨old, hold, hrev, hupdate, -, rfl, -⟩ := transitionVersion_ok hversion
  obtain ⟨hfind, -⟩ := Database.ownedVersion?_eq_some.mp hold
  cases hsees.eq_of_revision hfind hrev
  exact ⟨hfind, hupdate, rfl⟩

theorem publish_version {preparation : PersistentIngestionPreparation}
    {v : DocumentVersionLifecycleV1} (h : preparation.publish.version? = some v) :
    preparation.version = v := by
  unfold PersistentIngestionPreparation.publish at h
  split at h <;> cases h
  rfl

theorem start_version (request : PreparationRequest) :
    (request.start services).version? = none := by
  unfold PreparationRequest.start
  split
  · rfl
  · split <;> rfl

/-- A thread that starts sees its copy: a publication, the one its preparation returned with. -/
theorem canStart_sees {p : Pool World Thread}
    (hsees : ∀ (i : Nat) (t : Thread), p.threads[i]? = some t → ∀ v, t.version? = some v →
      p.world.Sees v)
    (hs : Thread.canStart services p thread = true) {v : DocumentVersionLifecycleV1}
    (hv : thread.version? = some v) : p.world.Sees v := by
  cases thread with
  | inactivator input state => cases hv
  | worker settings state => cases hv
  | preparer request state =>
    cases of_decide_eq_true hs
    cases (start_version request).symm.trans hv
  | publisher preparation state =>
    obtain ⟨hstate, hany⟩ := (Bool.and_eq_true _ _).mp hs
    cases of_decide_eq_true hstate
    cases publish_version hv
    obtain ⟨t, ht, hreturned⟩ := List.any_eq_true.mp hany
    obtain ⟨i, hi⟩ := List.mem_iff_getElem?.mp ht
    refine hsees i t hi _ ?_
    have hreturned := of_decide_eq_true hreturned
    unfold Thread.returnedPreparation? at hreturned
    split at hreturned
    · cases hreturned
      rfl
    · cases hreturned

end

end ZhiyanRag.Ingestion
