import ZhiyanRag.Ingestion.SnapshotEffects

/-!
# What is published can be served

Publication takes its chunks from the preparation in memory, the online load takes them from
`rag_chunks`, and nothing in `publish_prepared_indexes` ties the two: a preparation that was never
persisted is published all the same (`ready_unserved`). If every publication starts from a
preparation that `prepare_and_persist_pdf_ingestion` returned (`PublishesPersisted`), the stored
list is the published one until the version is `INACTIVE`. A later preparation of the version may
persist another list, but only a chained one, and no chained list extends another.
-/

namespace ZhiyanRag.Ingestion

open Relational ZhiyanRag.Storage Steps

/-! ### What is stored for a version -/

/-- The version is not `INACTIVE`, if it is stored. -/
def World.Live (w : World) (documentVersionId : String) : Prop :=
  ∀ v, w.db.versions.find? documentVersionId = some v → v.lifecycleStatus ≠ .inactive

/-- The chained list is the stored snapshot of the version. -/
def World.Serves (w : World) (v : DocumentVersionLifecycleV1)
    (chunks : List ChunkRecordV1) : Prop :=
  Chained chunks ∧ ∃ pdf, pdf.ownerId = v.ownerId ∧ pdf.documentId = v.documentId ∧
    pdf.documentVersionId = v.documentVersionId ∧ StoredSnapshot w.db pdf chunks

/-- The rows of a version that is not `INACTIVE` are none or those of one chained list. -/
def World.ChainedSnapshots (w : World) : Prop :=
  ∀ vid, w.Live vid → w.db.versionRows vid = [] ∨
    ∃ pdf chunks, pdf.documentVersionId = vid ∧ Chained chunks ∧ StoredSnapshot w.db pdf chunks

/-- The rows of a version that is not `INACTIVE` are none or those of one chained list, and every
`READY` version has its list. -/
structure ServesReady (w : World) : Prop where
  valid : ∀ v ∈ w.db.versions.rows, v.Valid
  chained : w.ChainedSnapshots
  ready : ∀ v ∈ w.db.versions.rows, v.lifecycleStatus = .ready → ∃ chunks, w.Serves v chunks

theorem ServesReady.empty : ServesReady World.empty :=
  ⟨fun _ h => (by cases h), fun _ _ => .inl rfl, fun _ h => (by cases h)⟩

section Stored

variable {services : Services} {w w' : World} {choice : Choice} {operation : Operation}
  {outcome : Except PyError operation.Result}

theorem World.Live.before {vid : String} (h : w'.Live vid) (hlater : w.db.Later w'.db) :
    w.Live vid := by
  intro v hv hinactive
  obtain ⟨v', hv', hsame⟩ := hlater _ _ hv
  exact h v' hv' (hsame.inactive hinactive)

theorem World.Serves.later {v v' : DocumentVersionLifecycleV1} {chunks : List ChunkRecordV1}
    (h : w.Serves v chunks) (hsame : LaterVersion v v') : w.Serves v' chunks := by
  obtain ⟨hchained, pdf, howner, hdocument, hvid, hstored⟩ := h
  obtain ⟨hvid', hdoc, hown, -, -, -, -⟩ := sameVersionIdentity_iff.mp hsame.identity
  exact ⟨hchained, pdf, howner.trans hown.symm, hdocument.trans hdoc.symm, hvid.trans hvid'.symm,
    hstored⟩

/-- The stored list stays as long as chained lists are persisted and the version is not `INACTIVE`.
-/
theorem stored_kept {pdf : PdfObjectV1} {chunks : List ChunkRecordV1}
    (hstored : StoredSnapshot w.db pdf chunks) (hchained : Chained chunks)
    (hlive : w.Live pdf.documentVersionId) (hout : Outcome services w w' choice operation outcome)
    (hpersist : ∀ pdf' chunks', operation = .repository (.persistRuntimeSnapshot pdf' chunks') →
      Chained chunks') :
    StoredSnapshot w'.db pdf chunks := by
  cases hout.snapshotWrite with
  | same hpdf hchunks =>
    refine hstored.frame ?_ fun stored h => by rwa [hpdf]
    unfold Database.versionRows
    rw [hchunks]
  | persisted pdf' chunks' receipt _ hop hcommit =>
    by_cases hvid : pdf'.documentVersionId = pdf.documentVersionId
    · obtain ⟨-, hextends, hkeep⟩ := hstored.later hvid hcommit
      exact hkeep (chunks_eq_of_isPrefix hchained (hpersist _ _ hop) hstored.accepted.nonempty
        hextends).symm
    · exact hstored.frame ((persist_versionRows hcommit).2.2 _ (Ne.symm hvid)) fun _ h =>
        persist_pdf_kept hcommit h
  | purged ownerId purgedId hcommit =>
    obtain ⟨⟨v, hv, hinactive⟩, -⟩ := purgeInactiveRuntimeSnapshot_ok hcommit
    have hvid : purgedId ≠ pdf.documentVersionId := by
      rintro rfl
      exact hlive v (Database.ownedVersion?_eq_some.mp hv).1 hinactive
    obtain ⟨hrows, hpdf⟩ := purge_kept hcommit hvid
    exact hstored.frame hrows hpdf

theorem World.Serves.step {v : DocumentVersionLifecycleV1} {chunks : List ChunkRecordV1}
    (h : w.Serves v chunks) (hlive : w.Live v.documentVersionId)
    (hout : Outcome services w w' choice operation outcome)
    (hpersist : ∀ pdf' chunks', operation = .repository (.persistRuntimeSnapshot pdf' chunks') →
      Chained chunks') :
    w'.Serves v chunks := by
  obtain ⟨hchained, pdf, howner, hdocument, hvid, hstored⟩ := h
  exact ⟨hchained, pdf, howner, hdocument, hvid, stored_kept hstored hchained (hvid ▸ hlive) hout
    hpersist⟩

/-- No rows stay no rows, or become those of a persisted list. -/
theorem chained_step (hw : w.ChainedSnapshots)
    (hout : Outcome services w w' choice operation outcome)
    (hpersist : ∀ pdf' chunks', operation = .repository (.persistRuntimeSnapshot pdf' chunks') →
      Chained chunks')
    : w'.ChainedSnapshots := by
  intro vid hlive
  have hbefore := hlive.before hout.later
  rcases hw vid hbefore with hempty | ⟨pdf, chunks, rfl, hchained, hstored⟩
  · cases hout.snapshotWrite with
    | same _ hchunks =>
      left
      unfold Database.versionRows
      rw [hchunks]
      exact hempty
    | persisted pdf chunks receipt _ hop hcommit =>
      by_cases hvid : pdf.documentVersionId = vid
      · subst hvid
        exact .inr ⟨pdf, chunks, rfl, hpersist _ _ hop, .first hcommit hempty⟩
      · exact .inl (((persist_versionRows hcommit).2.2 _ (Ne.symm hvid)).trans hempty)
    | purged ownerId purgedId hcommit =>
      obtain ⟨⟨v, hv, hinactive⟩, -⟩ := purgeInactiveRuntimeSnapshot_ok hcommit
      have hvid : purgedId ≠ vid := by
        rintro rfl
        exact hbefore v (Database.ownedVersion?_eq_some.mp hv).1 hinactive
      exact .inl ((purge_kept hcommit hvid).1.trans hempty)
  · exact .inr ⟨pdf, chunks, rfl, hchained, stored_kept hstored hchained hbefore hout hpersist⟩

/-- A committed chained list is the version's list. -/
theorem serves_persisted (hw : w.ChainedSnapshots) {v : DocumentVersionLifecycleV1}
    {pdf : PdfObjectV1} {chunks : List ChunkRecordV1} {receipt : RuntimeSnapshotV1}
    (howner : pdf.ownerId = v.ownerId) (hdocument : pdf.documentId = v.documentId)
    (hvid : pdf.documentVersionId = v.documentVersionId) (hlive : w.Live v.documentVersionId)
    (hchained : Chained chunks)
    (hcommit : persistRuntimeSnapshot services.chunksFingerprint w.db pdf chunks =
      .ok (w'.db, receipt)) :
    w'.Serves v chunks := by
  rcases hw _ hlive with hempty | ⟨pdf₀, stored, hvid₀, hchained₀, hstored⟩
  · rw [← hvid] at hempty
    exact ⟨hchained, pdf, howner, hdocument, hvid, .first hcommit hempty⟩
  · obtain ⟨hsame, hextends, hkeep⟩ := hstored.later (hvid.trans hvid₀.symm) hcommit
    have heq := chunks_eq_of_isPrefix hchained₀ hchained hstored.accepted.nonempty hextends
    obtain ⟨hown, hdoc, -⟩ := PdfObjectV1.identity_eq_iff.mp hsame
    exact ⟨hchained, pdf₀, hown.symm.trans howner, hdoc.symm.trans hdocument, hvid₀,
      heq ▸ hkeep heq.symm⟩

end Stored

/-! ### What the threads know -/

/-- The preparation that the thread returned with its committed snapshot. -/
def Thread.persistedPreparation? : Thread → Option PersistentIngestionPreparation
  | preparer _ (.returned preparation (some _)) => some preparation
  | _ => none

/-- A publication starts from a preparation that was returned with its committed snapshot. -/
def PublishesPersisted (p : Pool World Thread) : PoolLabel Thread Choice → Bool
  | .spawn (.publisher preparation _) =>
    p.threads.any fun t => decide (t.persistedPreparation? = some preparation)
  | _ => true

/-- The result of the parse that is live in a state, before it is persisted. -/
def PreparerState.ingestion? : PreparerState → Option IngestionResult
  | recordProgress _ _ _ ingestion => some ingestion
  | requireReview preparation | putPdf preparation | persistSnapshot preparation _ =>
    some preparation.ingestion
  | _ => none

/-- What a preparation knows of its list: it is chained, it is persisted for its version, and once
persisted it stays until the version is `INACTIVE`. -/
structure PreparerState.Persists (w : World) (state : PreparerState) : Prop where
  chained : ∀ ingestion, state.ingestion? = some ingestion → Chained ingestion.chunks
  registration : ∀ preparation pdf, state = persistSnapshot preparation pdf →
    pdf.ownerId = preparation.version.ownerId ∧ pdf.documentId = preparation.version.documentId ∧
      pdf.documentVersionId = preparation.version.documentVersionId
  stored : ∀ preparation snapshot, state = returned preparation (some snapshot) →
    w.Live preparation.version.documentVersionId →
    w.Serves preparation.version preparation.ingestion.chunks

/-- The receipt reports the list for the backend. -/
def IndexWriteReceipt.Reports (chunksFingerprint : List ChunkRecordV1 → String)
    (chunks : List ChunkRecordV1) (backend : IndexBackend) (receipt : IndexWriteReceipt) : Prop :=
  receipt.backend = backend ∧ receipt.sourceChunksSha256 = chunksFingerprint chunks

/-- The backends that a publication has staged, with their receipts. -/
def PublisherState.staged? : PublisherState → Option (List IndexBackend × List IndexWriteReceipt)
  | stage .elasticsearch _ receipts => some ([], receipts)
  | progress .elasticsearch _ receipts | stage .milvus _ receipts =>
    some ([.elasticsearch], receipts)
  | progress .milvus _ receipts | activate _ _ receipts | finalize _ receipts =>
    some ([.elasticsearch, .milvus], receipts)
  | returned result => some ([.elasticsearch, .milvus], result.receipts)
  | compensate .. | recordFailure .. | raised _ => none

/-- What a publication knows of its preparation: the list is stored until the version is `INACTIVE`,
the copy it holds is a later one, and the receipts report the list. -/
structure PublisherState.Publishes (services : Services) (w : World)
    (preparation : PersistentIngestionPreparation) (state : PublisherState) : Prop where
  stored : w.Live preparation.version.documentVersionId →
    w.Serves preparation.version preparation.ingestion.chunks
  copy : ∀ v, state.version? = some v → LaterVersion preparation.version v
  receipts : ∀ backends receipts, state.staged? = some (backends, receipts) →
    List.Forall₂ (IndexWriteReceipt.Reports services.chunksFingerprint preparation.ingestion.chunks)
      backends receipts

def Thread.Keeps (services : Services) (w : World) : Thread → Prop
  | preparer _ state => state.Persists w
  | publisher preparation state => state.Publishes services w preparation
  | _ => True

structure KeepsSnapshot (services : Services) (w : World) (t : Thread) : Prop where
  sees : ∀ v, t.version? = some v → w.Sees v
  keeps : t.Keeps services w

def servableAssertions (services : Services) : Assertions World Thread where
  world := ServesReady
  thread := KeepsSnapshot services
  pair _ _ _ := True

section Steps

variable {services : Services} {w w' : World} {choice : Choice} {thread thread' : Thread}

/-- Whatever a thread persists is chained. -/
theorem persists_chained {pending : Pending Thread}
    (ht : ∀ request state, thread = .preparer request state → state.Persists w)
    (hnext : thread.next services choice = some pending) (pdf : PdfObjectV1)
    (chunks : List ChunkRecordV1)
    (hpersist : pending.operation = .repository (.persistRuntimeSnapshot pdf chunks)) :
    Chained chunks := by
  obtain ⟨request, preparation, rfl, rfl⟩ := next_persists hnext hpersist
  exact (ht _ _ rfl).chained _ rfl

theorem KeepsSnapshot.persists (ht : KeepsSnapshot services w thread) (request : PreparationRequest)
    (state : PreparerState) (h : thread = .preparer request state) : state.Persists w := by
  subst h
  exact ht.keeps

namespace PreparerState.Persists

/-- A state without a list has nothing to keep. -/
theorem idle {state : PreparerState} (hnone : state.ingestion? = none)
    (hreturned : ∀ preparation snapshot, state ≠ returned preparation (some snapshot)) :
    state.Persists w := by
  refine ⟨fun ingestion h => ?_, fun preparation pdf h => ?_,
    fun preparation snapshot h => absurd h (hreturned _ _)⟩
  · rw [hnone] at h
    cases h
  · subst h
    cases hnone

/-- A state before the PDF is put keeps its list chained. -/
theorem carrying {state : PreparerState} {ingestion : IngestionResult}
    (hsome : state.ingestion? = some ingestion) (hchained : Chained ingestion.chunks)
    (hpdf : ∀ preparation pdf, state ≠ persistSnapshot preparation pdf) : state.Persists w := by
  refine ⟨fun ingestion' h => ?_, fun preparation pdf h => absurd h (hpdf _ _),
    fun preparation snapshot h _ => ?_⟩
  · rw [hsome] at h
    cases h
    exact hchained
  · subst h
    cases hsome

theorem of_orRaise {α : Type} {f : α → PreparerState} {x : Except PyError α}
    (h : ∀ result, x = .ok result → (f result).Persists w) : (orRaise f x).Persists w := by
  cases x with
  | ok result => exact h result rfl
  | error e => exact idle rfl fun _ _ h => (by cases h)

theorem prepared {request : PreparationRequest} {preparation : PersistentIngestionPreparation}
    (hchained : Chained preparation.ingestion.chunks) :
    (request.prepared preparation).Persists w := by
  unfold PreparationRequest.prepared
  split
  · exact idle rfl fun _ _ h => (by cases h)
  · split
    · exact idle rfl fun _ _ h => (by cases h)
    · exact carrying rfl hchained fun _ _ h => (by cases h)

end PreparerState.Persists

open PreparerState.Persists in
/-- A preparation's step establishes what its next state knows. -/
theorem preparer_persists {request : PreparationRequest} {state : PreparerState}
    {pending : Pending PreparerState} {outcome : Except PyError pending.operation.Result}
    (hw : w.ChainedSnapshots) (ht : state.Persists w)
    (hnext : state.next services request choice = some pending)
    (hout : Outcome services w w' choice pending.operation outcome) :
    (pending.resume outcome).Persists w' := by
  have hfailed : ∀ version job code error,
      (PreparerState.failVersion version job code error).Persists w' :=
    fun _ _ _ _ => idle rfl fun _ _ h => (by cases h)
  cases state with
  | returned preparation snapshot => cases hnext
  | raised error => cases hnext
  | registerDocument =>
    cases hnext
    exact of_orRaise fun identity _ => idle rfl fun _ _ h => (by cases h)
  | registerVersion identity =>
    cases hnext
    refine of_orRaise fun (version, job) _ => ?_
    change (PreparationRequest.startOrResumeProcessing identity version job).Persists w'
    unfold PreparationRequest.startOrResumeProcessing
    split <;> exact idle rfl fun _ _ h => (by cases h)
  | startProcessing identity version job =>
    cases hnext
    exact of_orRaise fun version _ => idle rfl fun _ _ h => (by cases h)
  | startJob identity version job =>
    cases hnext
    refine of_orRaise fun job _ => ?_
    unfold PreparationRequest.ingest
    split
    · rename_i ingestion hingest
      exact carrying rfl (ingestPdfBytes_ok hingest).1 fun _ _ h => (by cases h)
    · exact hfailed _ _ _ _
  | recordProgress identity version job ingestion =>
    have hchained := ht.chained ingestion rfl
    simp only [PreparerState.next] at hnext
    split at hnext
    · cases hnext
      exact of_orRaise fun version _ => carrying rfl hchained fun _ _ h => (by cases h)
    · cases hnext
      exact of_orRaise fun version _ => prepared hchained
  | requireReview preparation =>
    cases hnext
    exact of_orRaise fun job _ => prepared (ht.chained _ rfl)
  | putPdf preparation =>
    cases hnext
    cases outcome with
    | error e => exact hfailed _ _ _ _
    | ok pdf =>
      cases hout.result_effect with
      | putPdf _ _ _ _ _ _ _ hcall _ _ =>
        obtain ⟨howner, hdocument, hvid, -⟩ := putPdf_ok hcall
        refine ⟨fun ingestion h => ?_, fun preparation' pdf' h => ?_, fun _ _ h => (by cases h)⟩
        · cases h
          exact ht.chained _ rfl
        · cases h
          exact ⟨howner, hdocument, hvid⟩
  | persistSnapshot preparation pdf =>
    cases hnext
    cases outcome with
    | error e => exact hfailed _ _ _ _
    | ok receipt =>
      obtain ⟨howner, hdocument, hvid⟩ := ht.registration _ _ rfl
      refine ⟨fun _ h => (by cases h), fun _ _ h => (by cases h),
        fun preparation' snapshot h hlive => ?_⟩
      cases h
      exact serves_persisted hw howner hdocument hvid (hlive.before hout.later) (ht.chained _ rfl)
        hout.repository.1
  | failVersion version job failureCode error =>
    cases hnext
    exact of_orRaise fun _ _ => idle rfl fun _ _ h => (by cases h)
  | failJob job failureCode error =>
    cases hnext
    exact of_orRaise fun _ _ => idle rfl fun _ _ h => (by cases h)

/-- A version in a publication's next state is at least as late as the copy it had. -/
theorem publisher_copy {preparation : PersistentIngestionPreparation} {state : PublisherState}
    {pending : Pending PublisherState} {outcome : Except PyError pending.operation.Result}
    (hsees : ∀ v, state.version? = some v → w.Sees v)
    (hnext : state.next services preparation choice = some pending)
    (hout : Outcome services w w' choice pending.operation outcome) {v : DocumentVersionLifecycleV1}
    (hv : (pending.resume outcome).version? = some v) :
    ∃ old, state.version? = some old ∧ LaterVersion old v := by
  have hsame : state.version? = some v → ∃ old, state.version? = some old ∧ LaterVersion old v :=
    fun h => ⟨v, h, LaterVersion.refl v⟩
  cases state with
  | returned result => cases hnext
  | raised error => cases hnext
  | stage backend version receipts =>
    cases hnext
    cases outcome with
    | error e => exact hsame hv
    | ok receipt =>
      simp only [PublisherState.staged] at hv
      split at hv <;> exact hsame hv
  | progress backend version receipts =>
    cases hnext
    cases outcome with
    | error e => cases hv
    | ok new =>
      have hlater := (hsees version rfl).transition_later hout.repository.1
      cases backend <;> cases hv <;> exact ⟨version, rfl, hlater⟩
  | activate backend version receipts =>
    cases hnext
    cases outcome <;> cases backend <;> exact hsame hv
  | finalize version receipts =>
    cases hnext
    cases outcome with
    | error e => exact hsame hv
    | ok result =>
      obtain ⟨new, job⟩ := result
      cases hv
      exact ⟨version, rfl, (finalize_current (hsees version rfl) hout.repository.1).2.1.later⟩
  | compensate backend version failure failures =>
    cases hnext
    cases backend <;> exact hsame hv
  | recordFailure version failure failures =>
    cases hnext
    cases outcome <;> cases hv

/-- Every receipt that a publication collects was verified against its list. -/
theorem publisher_receipts {preparation : PersistentIngestionPreparation} {state : PublisherState}
    {pending : Pending PublisherState} {outcome : Except PyError pending.operation.Result}
    (ht : ∀ backends receipts, state.staged? = some (backends, receipts) → List.Forall₂
      (IndexWriteReceipt.Reports services.chunksFingerprint preparation.ingestion.chunks) backends
        receipts)
    (hnext : state.next services preparation choice = some pending) {backends : List IndexBackend}
    {receipts : List IndexWriteReceipt}
    (h : (pending.resume outcome).staged? = some (backends, receipts)) :
    List.Forall₂ (IndexWriteReceipt.Reports services.chunksFingerprint preparation.ingestion.chunks)
      backends
      receipts := by
  cases state with
  | returned result => cases hnext
  | raised error => cases hnext
  | stage backend version collected =>
    cases hnext
    cases outcome with
    | error e => cases h
    | ok receipt =>
      simp only [PublisherState.staged] at h
      split at h
      · rename_i hverified
        simp only [verifyReceipt, Bool.and_eq_true, decide_eq_true_eq] at hverified
        obtain ⟨⟨⟨⟨hbackend, -⟩, -⟩, -⟩, hfingerprint⟩ := hverified
        cases backend <;> cases h <;>
          exact List.rel_append (ht _ _ rfl) (.cons ⟨hbackend, hfingerprint⟩ .nil)
      · cases h
  | progress backend version collected =>
    cases hnext
    cases outcome with
    | error e => cases h
    | ok new => cases backend <;> cases h <;> exact ht _ _ rfl
  | activate backend version collected =>
    cases hnext
    cases outcome <;> cases backend <;> cases h <;> exact ht _ _ rfl
  | finalize version collected =>
    cases hnext
    cases outcome <;> cases h
    exact ht _ _ rfl
  | compensate backend version failure failures =>
    cases hnext
    cases backend <;> cases h
  | recordFailure version failure failures =>
    cases hnext
    cases outcome <;> cases h

/-- A finalisation makes its own version `READY`, and that version has its list. -/
theorem finalize_serves {preparation : PersistentIngestionPreparation}
    {version : DocumentVersionLifecycleV1} {receipts : List IndexWriteReceipt}
    (ht : KeepsSnapshot services w (.publisher preparation (.finalize version receipts)))
    {pending : Pending Thread} {outcome : Except PyError pending.operation.Result}
    (hnext : (Thread.publisher preparation (.finalize version receipts)).next services choice =
      some pending)
    (hout : Outcome services w w' choice pending.operation outcome) {v : DocumentVersionLifecycleV1}
    (hv : v ∈ w'.db.versions.rows) (hready : v.lifecycleStatus = .ready) :
    v ∈ w.db.versions.rows ∨ ∃ chunks, w.Serves v chunks := by
  cases hnext
  cases outcome with
  | error e =>
    obtain ⟨e', -, hsame⟩ | ⟨result, hresult, -⟩ := hout.stores
    · rw [hsame.db] at hv
      exact .inl hv
    · cases hresult
  | ok result =>
    obtain ⟨new, job⟩ := result
    obtain ⟨hcurrent, hupdate, hset⟩ := finalize_current (ht.sees version rfl) hout.repository.1
    rw [hset] at hv
    rcases Table.mem_set hv with rfl | ⟨hv, -⟩
    · have hpublishes :
          PublisherState.Publishes services w preparation (.finalize version receipts) := ht.keeps
      have hcopy := hpublishes.copy version rfl
      refine .inr ⟨_, (hpublishes.stored ?_).later (hcopy.trans hupdate.later)⟩
      rw [← hcopy.documentVersionId]
      intro row hrow hinactive
      cases hrow.symm.trans hcurrent
      rw [hupdate.later.inactive hinactive] at hready
      cases hready
    · exact .inl hv

/-- The stored versions stay valid. -/
theorem valid_step (hw : ∀ v ∈ w.db.versions.rows, v.Valid) {operation : Operation}
    {outcome : Except PyError operation.Result}
    (hout : Outcome services w w' choice operation outcome) :
    ∀ v ∈ w'.db.versions.rows, v.Valid := by
  intro v hv
  cases hout.versionWrite with
  | same heq =>
    rw [heq] at hv
    exact hw v hv
  | registered u hvalid _ hinsert =>
    rw [Table.rows_insert? hinsert, List.mem_append, List.mem_singleton] at hv
    rcases hv with hv | rfl
    · exact hw v hv
    · exact hvalid
  | updated call old new _ _ _ hupdate _ hset =>
    rw [hset] at hv
    rcases Table.mem_set hv with rfl | ⟨hv, -⟩
    · exact hupdate.valid
    · exact hw v hv

/-- A step keeps the versions valid, the snapshots chained, and the `READY` versions served. -/
theorem step_serves (hw : ServesReady w) (ht : KeepsSnapshot services w thread)
    {pending : Pending Thread} {outcome : Except PyError pending.operation.Result}
    (hnext : thread.next services choice = some pending)
    (hout : Outcome services w w' choice pending.operation outcome) : ServesReady w' := by
  have hpersist := persists_chained ht.persists hnext
  refine ⟨valid_step hw.valid hout, chained_step hw.chained hout hpersist, fun v hv hready => ?_⟩
  have hlive : w.Live v.documentVersionId := by
    refine World.Live.before (fun row hrow => ?_) hout.later
    rw [Table.find?_key_of_mem hv] at hrow
    cases hrow
    rw [hready]
    exact LifecycleStatus.noConfusion
  have hserved : v ∈ w.db.versions.rows ∨ ∃ chunks, w.Serves v chunks := by
    have hrows := hv
    cases hout.versionWrite with
    | same heq =>
      rw [heq] at hrows
      exact .inl hrows
    | registered u _ hstatus hinsert =>
      rw [Table.rows_insert? hinsert, List.mem_append, List.mem_singleton] at hrows
      rcases hrows with hrows | rfl
      · exact .inl hrows
      · rw [hstatus] at hready
        cases hready
    | updated call old new hcall htarget _ _ _ hset =>
      rw [hset] at hrows
      rcases Table.mem_set hrows with rfl | ⟨hrows, -⟩
      · rw [hready] at htarget
        obtain ⟨preparation, version, receipts, rfl⟩ := next_target_ready hnext hcall htarget
        exact finalize_serves ht hnext hout hv hready
      · exact .inl hrows
  rcases hserved with hmem | ⟨chunks, hserves⟩
  · obtain ⟨chunks, hserves⟩ := hw.ready v hmem hready
    exact ⟨chunks, hserves.step hlive hout hpersist⟩
  · exact ⟨chunks, hserves.step hlive hout hpersist⟩

/-- What a thread knows of its list survives the steps of others. -/
theorem keeps_other {operation : Operation} {outcome : Except PyError operation.Result}
    (ht : KeepsSnapshot services w thread) (hout : Outcome services w w' choice operation outcome)
    (hpersist : ∀ pdf chunks, operation = .repository (.persistRuntimeSnapshot pdf chunks) →
      Chained chunks) :
    KeepsSnapshot services w' thread := by
  refine ⟨fun v hv => (ht.sees v hv).later hout.later, ?_⟩
  cases thread with
  | inactivator input state => trivial
  | worker settings state => trivial
  | preparer request state =>
    obtain ⟨hchained, hregistration, hstored⟩ : state.Persists w := ht.keeps
    refine ⟨hchained, hregistration, fun preparation snapshot h hlive => ?_⟩
    have hbefore := hlive.before hout.later
    exact (hstored preparation snapshot h hbefore).step hbefore hout hpersist
  | publisher preparation state =>
    obtain ⟨hstored, hcopy, hreceipts⟩ : state.Publishes services w preparation := ht.keeps
    refine ⟨fun hlive => ?_, hcopy, hreceipts⟩
    have hbefore := hlive.before hout.later
    exact (hstored hbefore).step hbefore hout hpersist

/-- A thread's own step establishes what its next state knows. -/
theorem keeps_own (hw : ServesReady w) (ht : KeepsSnapshot services w thread)
    (hstep : thread.step services w choice = some (w', thread')) :
    KeepsSnapshot services w' thread' := by
  refine ⟨step_sees hstep ht.sees, ?_⟩
  cases thread with
  | inactivator input state =>
    obtain ⟨pending, outcome, -, rfl, -⟩ := inactivator_step hstep
    trivial
  | worker settings state =>
    obtain ⟨pending, outcome, -, rfl, -⟩ := worker_step hstep
    trivial
  | preparer request state =>
    obtain ⟨pending, outcome, hnext, rfl, hout⟩ := preparer_step hstep
    exact preparer_persists hw.chained ht.keeps hnext hout
  | publisher preparation state =>
    obtain ⟨pending, outcome, hnext, rfl, hout⟩ := publisher_step hstep
    have hpublishes : state.Publishes services w preparation := ht.keeps
    refine ⟨fun hlive => ?_, fun v hv => ?_, fun backends receipts h =>
      publisher_receipts hpublishes.receipts hnext h⟩
    · have hbefore := hlive.before hout.later
      obtain ⟨pending', outcome', hnext', -, hout'⟩ := step_outcome hstep
      exact (hpublishes.stored hbefore).step hbefore hout' (persists_chained ht.persists hnext')
    · obtain ⟨old, hold, hlater⟩ := publisher_copy ht.sees hnext hout hv
      exact (hpublishes.copy old hold).trans hlater

theorem servable_outline : Outline (Thread.canStart services) (Thread.step services)
    (fun p l => PublishesPersisted p l = true) (servableAssertions services) where
  spawn p t hp hguard hs := by
    refine ⟨⟨fun v hv => canStart_sees (fun i u hu => (hp.thread i u hu).sees) hs hv, ?_⟩,
      fun _ _ _ => ⟨trivial, trivial⟩⟩
    cases t with
    | inactivator input state => trivial
    | worker settings state => trivial
    | preparer request state =>
      cases of_decide_eq_true hs
      change (request.start services).Persists p.world
      unfold PreparationRequest.start
      split
      · exact .idle rfl fun _ _ h => (by cases h)
      · split <;> exact .idle rfl fun _ _ h => (by cases h)
    | publisher preparation state =>
      obtain ⟨hstate, -⟩ := (Bool.and_eq_true _ _).mp hs
      cases of_decide_eq_true hstate
      obtain ⟨t, ht, hpersisted⟩ := List.any_eq_true.mp hguard
      obtain ⟨i, hi⟩ := List.mem_iff_getElem?.mp ht
      have hsome := of_decide_eq_true hpersisted
      unfold Thread.persistedPreparation? at hsome
      split at hsome
      · rename_i thread request returned snapshot
        cases hsome
        have hreturned : PreparerState.Persists p.world (.returned preparation (some snapshot)) :=
          (hp.thread i _ hi).keeps
        refine ⟨hreturned.stored _ _ rfl, fun v hv => ?_, fun backends receipts h => ?_⟩
        · rw [publish_version hv]
          exact LaterVersion.refl v
        · unfold PersistentIngestionPreparation.publish at h
          split at h <;> cases h
          exact .nil
      · cases hsome
  own p i choice t w' t' hp _ hi hstep := by
    have hthread := hp.thread i t hi
    refine ⟨?_, keeps_own hp.world hthread hstep⟩
    obtain ⟨pending, outcome, hnext, -, hout⟩ := step_outcome hstep
    exact step_serves hp.world hthread hnext hout
  other p i choice t w' t' j u hp _ hi hstep _ hu := by
    refine ⟨?_, trivial, trivial⟩
    obtain ⟨pending, outcome, hnext, -, hout⟩ := step_outcome hstep
    exact keeps_other (hp.thread j u hu) hout (persists_chained (hp.thread i t hi).persists hnext)
  rest _ _ _ _ _ _ _ _ _ _ _ _ _ _ _ _ _ _ _ := trivial

/-! ### Reading the snapshot -/

/-- The stored list is what the snapshot query reads. -/
theorem World.Serves.read {v : DocumentVersionLifecycleV1} {chunks : List ChunkRecordV1}
    (h : w.Serves v chunks) :
    (w.db.snapshotRows v.ownerId v.documentVersionId).map (chunkFromRow false) = chunks := by
  obtain ⟨-, pdf, howner, -, hvid, hstored⟩ := h
  rw [← howner, ← hvid, snapshotRows_eq, hstored.rows]
  · exact map_chunkFromRow_chunkRows hstored.accepted.inactive 0
  · rw [hstored.rows]
    exact fun row hrow => (hstored.accepted.row hrow).2
  · rw [hstored.rows]
    exact pairwise_chunkRows chunks 0

theorem World.Serves.ne_nil {v : DocumentVersionLifecycleV1} {chunks : List ChunkRecordV1}
    (h : w.Serves v chunks) : chunks ≠ [] := by
  obtain ⟨-, pdf, -, -, -, hstored⟩ := h
  exact hstored.accepted.nonempty

theorem onlineVisible_of_ready {v : DocumentVersionLifecycleV1} (hvalid : v.Valid)
    (hready : v.lifecycleStatus = .ready) : onlineVisible v = true := by
  have htimes : v.deleteTime = none ∧ v.chunkExpireTime = none := by
    by_contra hnot
    have hinactive := hvalid.inactive.mpr hnot
    rw [hready] at hinactive
    cases hinactive
  simp [onlineVisible, DocumentVersionLifecycleV1.isActive, hready, htimes]

/-- The online load finds a row of every served `READY` version. -/
theorem World.Serves.hasOnlineRow {v : DocumentVersionLifecycleV1} {chunks : List ChunkRecordV1}
    (h : w.Serves v chunks) (hv : v ∈ w.db.versions.rows) (hvalid : v.Valid)
    (hready : v.lifecycleStatus = .ready) :
    w.db.HasOnlineRow v.ownerId v.documentVersionId := by
  obtain ⟨chunk, hchunk⟩ := List.exists_mem_of_ne_nil _ h.ne_nil
  obtain ⟨-, pdf, howner, hdocument, hvid, hstored⟩ := h
  obtain ⟨hrowOwner, hrowDocument, hrowVersion, -⟩ :=
    chunkMatchesPdf_iff.mp (hstored.accepted.matching chunk hchunk)
  obtain ⟨i, hi⟩ := List.mem_iff_getElem?.mp hchunk
  have hrow : chunkRow chunk i ∈ w.db.versionRows pdf.documentVersionId := by
    rw [hstored.rows]
    exact List.mem_map.mpr ⟨(chunk, i), List.mem_zipIdx_iff_getElem?.mpr hi, rfl⟩
  refine ⟨chunkRow chunk i, (List.mem_filter.mp hrow).1, hrowOwner.trans howner,
    hrowVersion.trans hvid, v, Database.referencedVersion?_eq_some.mpr ⟨?_, ?_, ?_⟩,
    onlineVisible_of_ready hvalid hready⟩
  · rw [show (chunkRow chunk i).documentVersionId = v.documentVersionId from hrowVersion.trans hvid]
    exact Table.find?_key_of_mem hv
  · exact (hrowOwner.trans howner).symm
  · exact (hrowDocument.trans hdocument).symm

/-- In every state of a run whose publications start from persisted preparations: a version that a
publication made `READY` and that still is has a stored snapshot, with the fingerprint that both
receipts report; and the online load of `READY` versions of one owner fails for the size of its
request only. -/
theorem ready_servable {labels : List (PoolLabel Thread Choice)} {p : Pool World Thread}
    (hrun : GuardedRun (poolStep services) (fun p l => PublishesPersisted p l = true) Pool.empty
      labels p) :
    (∀ preparation result, .publisher preparation (.returned result) ∈ p.threads →
      ∀ v, p.world.db.versions.find? result.version.documentVersionId = some v →
      v.lifecycleStatus = .ready →
        let snapshot := (p.world.db.snapshotRows v.ownerId v.documentVersionId).map
          (chunkFromRow false)
        snapshot ≠ [] ∧ result.receipts.map (·.backend) = [.elasticsearch, .milvus] ∧
          ∀ receipt ∈ result.receipts,
            receipt.sourceChunksSha256 = services.chunksFingerprint snapshot) ∧
    ∀ (ownerId : String) (documentVersionIds : List String), documentVersionIds.Nodup →
      (∀ id ∈ documentVersionIds, ∃ v ∈ p.world.db.versions.rows, v.documentVersionId = id ∧
        v.ownerId = ownerId ∧ v.lifecycleStatus = .ready) →
      ∀ e, loadOnlineChunks p.world.db ownerId documentVersionIds = .error e →
        1000 < documentVersionIds.length ∧ e.kind = .valueError := by
  have hp := servable_outline.holds_of_run hrun (Assertions.holds_nil ServesReady.empty)
  refine ⟨fun preparation result hmem v hv hready => ?_, fun ownerId ids hnodup hids e he => ?_⟩
  · obtain ⟨i, hi⟩ := List.mem_iff_getElem?.mp hmem
    have hthread := hp.thread i _ hi
    have hpublishes : PublisherState.Publishes services p.world preparation (.returned result) :=
      hthread.keeps
    have hcopy := hpublishes.copy _ rfl
    obtain ⟨row, hrow, hlater⟩ := hthread.sees _ rfl
    cases hrow.symm.trans hv
    have hserves : p.world.Serves v preparation.ingestion.chunks := by
      refine (hpublishes.stored fun row' hrow' => ?_).later (hcopy.trans hlater)
      rw [← hcopy.documentVersionId] at hrow'
      cases hrow'.symm.trans hrow
      rw [hready]
      exact LifecycleStatus.noConfusion
    simp only [hserves.read]
    obtain ⟨elasticsearch, rest, hes, hrest, hlist⟩ :=
      List.forall₂_cons_left_iff.mp (hpublishes.receipts _ _ rfl)
    obtain ⟨milvus, rest, hmilvus, hnil, rfl⟩ := List.forall₂_cons_left_iff.mp hrest
    cases List.forall₂_nil_left_iff.mp hnil
    rw [hlist]
    exact ⟨hserves.ne_nil, by simp [hes.1, hmilvus.1], by simp [hes.2, hmilvus.2]⟩
  · have hready : ∀ id ∈ ids, p.world.db.HasOnlineRow ownerId id ∧ contractIdPattern id = true ∧
        contractIdPattern ownerId = true := by
      intro id hid
      obtain ⟨v, hv, rfl, rfl, hready⟩ := hids id hid
      obtain ⟨chunks, hserves⟩ := hp.world.ready v hv hready
      have hvalid := hp.world.valid v hv
      exact ⟨hserves.hasOnlineRow hv hvalid hready, hvalid.documentVersionId, hvalid.ownerId⟩
    cases ids with
    | nil => cases he
    | cons id rest =>
      exact loadOnlineChunks_error hnodup (hready id List.mem_cons_self).2.2
        (fun i hi => (hready i hi).2.1) (fun i hi => (hready i hi).1) he

end Steps

/-- One preparation with its snapshot, and its publication. -/
def servedPublication : List ScriptStep :=
  samplePreparation true ++ calmActs 0 2 ++ .publish 0 :: calmActs 1 7

theorem ready_servable_published :
    ∃ p, GuardedRun (poolStep sampleServices) (fun p l => PublishesPersisted p l = true) Pool.empty
        (scriptLabels sampleServices Pool.empty servedPublication) p ∧
      ∃ v ∈ p.world.db.versions.rows, v.lifecycleStatus = .ready ∧
        (p.world.db.snapshotRows v.ownerId v.documentVersionId).map (chunkFromRow false) ≠ [] ∧
        ∃ chunks, loadOnlineChunks p.world.db v.ownerId [v.documentVersionId] = .ok chunks := by
  have hrun : ((guardedRun? (poolStep sampleServices) (fun p l => PublishesPersisted p l = true)
      Pool.empty (scriptLabels sampleServices Pool.empty servedPublication)).any fun p =>
        p.threads.any fun t => t.publishedVersion?.any fun published => p.world.db.versions.rows.any
          fun v =>
          decide (v.lifecycleStatus = .ready) &&
            decide (v.documentVersionId = published.documentVersionId)) =
            true := by
    decide +kernel
  obtain ⟨p, hp, hany⟩ := (Option.any_eq_true _ _).mp hrun
  obtain ⟨t, ht, hreturned⟩ := List.any_eq_true.mp hany
  obtain ⟨published, hpublished, hstored⟩ := (Option.any_eq_true _ _).mp hreturned
  obtain ⟨preparation, result, rfl, rfl⟩ := Thread.publishedVersion?_eq_some hpublished
  obtain ⟨v, hv, hall⟩ := List.any_eq_true.mp hstored
  simp only [Bool.and_eq_true, decide_eq_true_eq] at hall
  have hguarded := GuardedRun.of_eval hp
  obtain ⟨hserved, hloads⟩ := ready_servable hguarded
  have hfind := Table.find?_key_of_mem hv
  rw [hall.2] at hfind
  refine ⟨p, hguarded, v, hv, hall.1, (hserved preparation result ht v hfind hall.1).1, ?_⟩
  cases hload : loadOnlineChunks p.world.db v.ownerId [v.documentVersionId] with
  | ok chunks => exact ⟨chunks, rfl⟩
  | error e =>
    have hlimit := (hloads v.ownerId [v.documentVersionId] (List.nodup_singleton _) (fun id hid =>
      ⟨v, hv, (List.mem_singleton.mp hid).symm, rfl, hall.1⟩) e hload).1
    simp at hlimit

/-- A preparation without a snapshot is published: its version is `READY`, has no chunk row, and the
online load of it raises `IdentityConflictError`. -/
theorem ready_unserved :
    ∃ p, run (poolStep sampleServices) Pool.empty
        (scriptLabels sampleServices Pool.empty singlePublication) = some p ∧
      p.threads.length = 2 ∧ p.threads.all (fun t => t.finished) = true ∧
      ∃ v ∈ p.world.db.versions.rows, v.lifecycleStatus = .ready ∧
        p.world.db.snapshotRows v.ownerId v.documentVersionId = [] ∧
        loadOnlineChunks p.world.db v.ownerId [v.documentVersionId] = .error
          ⟨.identityConflictError,
            "one or more READY versions have no exact persisted Chunk snapshot"⟩ := by
  have hrun : ((run (poolStep sampleServices) Pool.empty
      (scriptLabels sampleServices Pool.empty singlePublication)).any fun p =>
        decide (p.threads.length = 2) && p.threads.all (fun t => t.finished) &&
          p.world.db.versions.rows.any fun v => decide (v.lifecycleStatus = .ready) &&
            (p.world.db.snapshotRows v.ownerId v.documentVersionId).isEmpty &&
            decide (loadOnlineChunks p.world.db v.ownerId [v.documentVersionId] = .error
              ⟨.identityConflictError,
                "one or more READY versions have no exact persisted Chunk snapshot"⟩)) =
                true := by
    decide +kernel
  obtain ⟨p, hp, hall⟩ := (Option.any_eq_true _ _).mp hrun
  simp only [Bool.and_eq_true, decide_eq_true_eq, List.any_eq_true, List.isEmpty_iff] at hall
  obtain ⟨⟨hlength, hthreads⟩, v, hv, ⟨hready, hrows⟩, hload⟩ := hall
  exact ⟨p, hp, hlength, hthreads, v, hv, hready, hrows, hload⟩

end ZhiyanRag.Ingestion
