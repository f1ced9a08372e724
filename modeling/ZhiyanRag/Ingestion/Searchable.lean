import ZhiyanRag.Ingestion.IndexEffects
import ZhiyanRag.Ingestion.Servable
import ZhiyanRag.Retrieval.Milvus
import ZhiyanRag.Retrieval.Online

/-!
# What is published can be searched

A search compares the metadata of both physical indexes with the fingerprint of the chunks that it
loaded from PostgreSQL for the route. The metadata was written by the publication, from the
preparation in memory; the rows by the preparation. For a version that is persisted and published
from the same preparation, both are the same list until the version is `INACTIVE`: no operation
changes the metadata of an index, only a cleanup deletes it, and a cleanup job's version is
`INACTIVE`.
-/

namespace ZhiyanRag.Ingestion

open Relational ZhiyanRag.Storage ZhiyanRag.Retrieval Steps

/-! ### What the threads know -/

/-- The members of `_meta`, or of the collection's description, that tell the version. -/
def IndexMetadata.entries (metadata : IndexMetadata) : List (String × String) :=
  [("owner_id", metadata.ownerId), ("document_id", metadata.documentId),
    ("document_version_id", metadata.documentVersionId),
    ("source_chunks_sha256", metadata.sourceChunksSha256),
    ("chunk_count", toString metadata.chunkCount)]

/-- The backend has an index of the preparation's version, made from the preparation's list. -/
def World.Indexed (services : Services) (w : World) (preparation : PersistentIngestionPreparation)
    (backend : IndexBackend) : Prop :=
  let version := preparation.version
  ∃ index, w.indexes backend (version.ownerId, version.documentVersionId) = some index ∧
    index.metadata = stagedMetadata services.chunksFingerprint version.ownerId version.documentId
      version.documentVersionId preparation.ingestion.chunks

/-- The stored versions are valid, the snapshots chained, and cleanup jobs are for `INACTIVE`
versions. -/
structure StagedWorld (w : World) : Prop where
  queue : w.QueueSound
  valid : ∀ v ∈ w.db.versions.rows, v.Valid
  chained : w.ChainedSnapshots
  job : ∀ job ∈ w.db.cleanupJobs.rows, ∃ v, w.db.versions.find? job.documentVersionId = some v ∧
    v.ownerId = job.ownerId ∧ v.lifecycleStatus = .inactive

/-- What a publication knows of its indexes: its copy of the version is a later one, and until the
version is `INACTIVE` every backend that it has staged has the index. -/
structure PublisherState.Stages (services : Services) (w : World)
    (preparation : PersistentIngestionPreparation) (state : PublisherState) : Prop where
  copy : ∀ v, state.version? = some v → LaterVersion preparation.version v
  indexed : ∀ backends receipts, state.staged? = some (backends, receipts) → ∀ backend ∈ backends,
    w.Live preparation.version.documentVersionId → w.Indexed services preparation backend

def Thread.Stages (services : Services) (w : World) : Thread → Prop
  | preparer _ state => state.Persists w
  | publisher preparation state => state.Stages services w preparation
  | _ => True

structure KeepsIndex (services : Services) (w : World) (t : Thread) : Prop where
  sees : ∀ v, t.version? = some v → w.Sees v
  leased : ∀ leased, t.leased? = some leased → w.Leased leased
  agrees : t.Matches
  stages : t.Stages services w

def searchableAssertions (services : Services) : Assertions World Thread where
  world := StagedWorld
  thread := KeepsIndex services
  pair _ _ _ := True

section Steps

variable {services : Services} {w w' : World} {choice : Choice} {thread thread' : Thread}

theorem KeepsIndex.persists (ht : KeepsIndex services w thread) (request : PreparationRequest)
    (state : PreparerState) (h : thread = .preparer request state) : state.Persists w := by
  subst h
  exact ht.stages

/-- A deletion is for an `INACTIVE` version. -/
theorem deletes_inactive (hw : StagedWorld w) (ht : KeepsIndex services w thread)
    {pending : Pending Thread} (hnext : thread.next services choice = some pending)
    {backend : IndexBackend} {ownerId vid : String}
    (hdelete : pending.operation = .deleteVersion backend ownerId vid) : ¬w.Live vid := by
  intro hlive
  have hmade := next_madeBy hnext
  rw [hdelete] at hmade
  obtain ⟨settings, leased, rfl⟩ := hmade
  cases hnext
  cases hdelete
  obtain ⟨job, hjob, htarget⟩ := (ht.leased leased rfl).stored
  obtain ⟨-, -, -, hvid⟩ := CleanupJobV1.sameTarget_iff.mp htarget
  obtain ⟨v, hv, -, hinactive⟩ := hw.job job (Table.mem_rows_of_find? hjob)
  rw [hvid] at hv
  exact hlive v hv hinactive

/-- An index stays until its version is `INACTIVE`. -/
theorem World.Indexed.step {preparation : PersistentIngestionPreparation} {backend : IndexBackend}
    (h : w.Indexed services preparation backend) (hw : StagedWorld w)
    (ht : KeepsIndex services w thread)
    {pending : Pending Thread} {outcome : Except PyError pending.operation.Result}
    (hnext : thread.next services choice = some pending)
    (hout : Outcome services w w' choice pending.operation outcome)
    (hlive : w.Live preparation.version.documentVersionId) :
    w'.Indexed services preparation backend := by
  obtain ⟨index, hindex, hmetadata⟩ := h
  have hkeep : pending.operation ≠ .deleteVersion backend preparation.version.ownerId
      preparation.version.documentVersionId := fun hdelete => deletes_inactive hw ht hnext
        hdelete hlive
  obtain ⟨index', hindex', hsame⟩ := hout.metadata hkeep hindex
  exact ⟨index', hindex', hsame.trans hmetadata⟩

/-- A staging that returned has made the index, or found it. -/
theorem staged_indexed {preparation : PersistentIngestionPreparation}
    {version : DocumentVersionLifecycleV1} {backend : IndexBackend}
    (hcopy : LaterVersion preparation.version version) {receipt : IndexWriteReceipt}
    (hout : Outcome services w w' choice (.ensureStaged backend version.ownerId version.documentId
      version.documentVersionId preparation.ingestion.chunks) (.ok receipt)) : w'.Indexed services
        preparation backend := by
  obtain ⟨hvid, hdocument, howner, -⟩ := sameVersionIdentity_iff.mp hcopy.identity
  cases hout.result_effect with
  | ensureStaged _ _ _ _ _ index _ hcall _ hset _ =>
    refine ⟨index, ?_, ?_⟩
    · rw [hset, World.setIndex_indexes, ← howner, ← hvid, if_pos ⟨rfl, rfl⟩]
    · rw [(ensureStaged_ok hcall).1, howner, hdocument, hvid]

/-- A publication's step establishes what its next state knows. -/
theorem publisher_stages {preparation : PersistentIngestionPreparation} {state : PublisherState}
    (hw : StagedWorld w) (ht : KeepsIndex services w (.publisher preparation state))
    {pending : Pending PublisherState}
    {outcome : Except PyError pending.operation.Result}
    (hnext : state.next services preparation choice = some pending)
    (hout : Outcome services w w' choice pending.operation outcome) :
    (pending.resume outcome).Stages services w' preparation := by
  have hstages : state.Stages services w preparation := ht.stages
  have hthread : (Thread.publisher preparation state).next services choice =
      some (pending.map (.publisher preparation)) := by
    simp only [Thread.next, hnext, Option.map_some]
  refine ⟨fun v hv => ?_, fun backends receipts h backend hbackend hlive => ?_⟩
  · obtain ⟨old, hold, hlater⟩ := publisher_copy ht.sees hnext hout hv
    exact (hstages.copy old hold).trans hlater
  · have hbefore := hlive.before hout.later
    -- what was staged before the step stays
    have hkeep : ∀ receipts', state.staged? = some (backends, receipts') →
        w'.Indexed services preparation backend :=
      fun receipts' hstaged => (hstages.indexed _ _ hstaged backend hbackend hbefore).step hw ht
        hthread hout hbefore
    cases state with
    | returned result => cases hnext
    | raised error => cases hnext
    | stage staging version collected =>
      cases hnext
      cases outcome with
      | error e => cases h
      | ok receipt =>
        simp only [PublisherState.staged] at h
        split at h
        · have hnew := staged_indexed (hstages.copy version rfl) hout
          cases staging with
          | elasticsearch =>
            cases h
            rw [List.mem_singleton] at hbackend
            subst hbackend
            exact hnew
          | milvus =>
            cases h
            rcases List.mem_cons.mp hbackend with rfl | hmilvus
            · exact (hstages.indexed _ _ rfl _ (List.mem_singleton_self _) hbefore).step hw ht
                hthread hout hbefore
            · rw [List.mem_singleton] at hmilvus
              subst hmilvus
              exact hnew
        · cases h
    | progress staging version collected =>
      cases hnext
      cases outcome with
      | error e => cases h
      | ok new => cases staging <;> cases h <;> exact hkeep _ rfl
    | activate staging version collected =>
      cases hnext
      cases outcome <;> cases staging <;> cases h <;> exact hkeep _ rfl
    | finalize version collected =>
      cases hnext
      cases outcome <;> cases h
      exact hkeep _ rfl
    | compensate staging version failure failures =>
      cases hnext
      cases staging <;> cases h
    | recordFailure version failure failures =>
      cases hnext
      cases outcome <;> cases h

/-- A thread's own step establishes what its next state knows. -/
theorem keeps_index_own (hw : StagedWorld w) (ht : KeepsIndex services w thread)
    (hstep : thread.step services w choice = some (w', thread')) :
    KeepsIndex services w' thread' := by
  obtain ⟨hleased, hmatches⟩ := step_leased hw.queue hstep ht.leased ht.agrees
  refine ⟨step_sees hstep ht.sees, hleased, hmatches, ?_⟩
  cases thread with
  | inactivator input state =>
    obtain ⟨pending, outcome, -, rfl, -⟩ := inactivator_step hstep
    trivial
  | worker settings state =>
    obtain ⟨pending, outcome, -, rfl, -⟩ := worker_step hstep
    trivial
  | preparer request state =>
    obtain ⟨pending, outcome, hnext, rfl, hout⟩ := preparer_step hstep
    exact preparer_persists hw.chained ht.stages hnext hout
  | publisher preparation state =>
    obtain ⟨pending, outcome, hnext, rfl, hout⟩ := publisher_step hstep
    exact publisher_stages hw ht hnext hout

/-- What a thread knows survives the steps of others. -/
theorem keeps_index_other (hw : StagedWorld w) {other : Thread}
    (hother : KeepsIndex services w other) (ht : KeepsIndex services w thread)
    {pending : Pending Thread} {outcome : Except PyError pending.operation.Result}
    (hnext : thread.next services choice = some pending)
    (hout : Outcome services w w' choice pending.operation outcome) :
    KeepsIndex services w' other := by
  refine ⟨fun v hv => (hother.sees v hv).later hout.later,
    fun leased h => (hother.leased leased h).later hw.queue hout, hother.agrees, ?_⟩
  cases other with
  | inactivator input state => trivial
  | worker settings state => trivial
  | preparer request state =>
    obtain ⟨hchained, hregistration, hstored⟩ : state.Persists w := hother.stages
    refine ⟨hchained, hregistration, fun preparation snapshot h hlive => ?_⟩
    have hbefore := hlive.before hout.later
    exact (hstored preparation snapshot h hbefore).step hbefore hout
      (persists_chained ht.persists hnext)
  | publisher preparation state =>
    obtain ⟨hcopy, hindexed⟩ : state.Stages services w preparation := hother.stages
    refine ⟨hcopy, fun backends receipts h backend hbackend hlive => ?_⟩
    have hbefore := hlive.before hout.later
    exact (hindexed _ _ h backend hbackend hbefore).step hw ht hnext hout hbefore

theorem searchable_outline : Outline (Thread.canStart services) (Thread.step services)
    (fun _ _ => True) (searchableAssertions services) where
  spawn p t hp _ hs := by
    refine ⟨⟨fun v hv => canStart_sees (fun i u hu => (hp.thread i u hu).sees) hs hv, ?_, ?_, ?_⟩,
      fun _ _ _ => ⟨trivial, trivial⟩⟩
    · intro leased h
      cases t with
      | worker settings state =>
        cases of_decide_eq_true hs
        cases h
      | _ => cases h
    · cases t with
      | worker settings state =>
        cases of_decide_eq_true hs
        trivial
      | _ => trivial
    · cases t with
      | inactivator input state => trivial
      | worker settings state => trivial
      | preparer request state =>
        cases of_decide_eq_true hs
        change (request.start services).Persists p.world
        unfold PreparationRequest.start
        split
        · exact .idle rfl fun _ _ h => (by cases h)
        · split <;> exact .idle rfl fun _ _ h => (by cases h)
      | publisher preparation state =>
        obtain ⟨hstate, -⟩ := (Bool.and_eq_true _ _).mp hs
        cases of_decide_eq_true hstate
        refine ⟨fun v hv => ?_, fun backends receipts h backend hbackend => ?_⟩
        · rw [publish_version hv]
          exact LaterVersion.refl v
        · unfold PersistentIngestionPreparation.publish at h
          split at h <;> cases h
          cases hbackend
  own p i choice t w' t' hp _ hi hstep := by
    have hthread := hp.thread i t hi
    refine ⟨?_, keeps_index_own hp.world hthread hstep⟩
    obtain ⟨pending, outcome, hnext, -, hout⟩ := step_outcome hstep
    exact ⟨hout.queueSound hp.world.queue, valid_step hp.world.valid hout,
      chained_step hp.world.chained hout (persists_chained hthread.persists hnext),
      hout.jobs_inactive hp.world.queue hp.world.job⟩
  other p i choice t w' t' j u hp _ hi hstep _ hu := by
    refine ⟨?_, trivial, trivial⟩
    obtain ⟨pending, outcome, hnext, -, hout⟩ := step_outcome hstep
    exact keeps_index_other hp.world (hp.thread j u hu) (hp.thread i t hi) hnext hout
  rest _ _ _ _ _ _ _ _ _ _ _ _ _ _ _ _ _ _ _ := trivial

theorem StagedWorld.empty : StagedWorld World.empty :=
  ⟨World.QueueSound.empty, fun _ h => (by cases h), fun _ _ => .inl rfl, fun _ h => (by cases h)⟩

end Steps

/-! ### Reading the snapshot for a route -/

section Loading

variable {w : World} {v : DocumentVersionLifecycleV1} {chunks : List ChunkRecordV1}
  {ids : List String}

/-- The rows of a served version are among the rows of an online load, in order. -/
theorem World.Serves.onlineRows (h : w.Serves v chunks) (hv : v ∈ w.db.versions.rows)
    (hvalid : v.Valid) (hready : v.lifecycleStatus = .ready) (hid : v.documentVersionId ∈ ids) :
    (w.db.onlineRows v.ownerId ids).filter (fun row => decide (row.ownerId = v.ownerId) &&
      decide (row.documentId = v.documentId) &&
        decide (row.documentVersionId = v.documentVersionId)) = chunkRows chunks 0 := by
  obtain ⟨-, pdf, howner, hdocument, hvid, hstored⟩ := h
  have hrows := hstored.rows
  rw [hvid] at hrows
  have hvisible := onlineVisible_of_ready hvalid hready
  have hrow : ∀ row ∈ chunkRows chunks 0, row.ownerId = v.ownerId ∧ row.documentId = v.documentId ∧
      row.documentVersionId = v.documentVersionId := by
    intro row hmem
    obtain ⟨chunk, hchunk, i, -, -, rfl⟩ := mem_chunkRows hmem
    obtain ⟨hchunkOwner, hchunkDocument, hchunkVersion, -⟩ :=
      chunkMatchesPdf_iff.mp (hstored.accepted.matching chunk hchunk)
    exact ⟨hchunkOwner.trans howner, hchunkDocument.trans hdocument, hchunkVersion.trans hvid⟩
  let onRoute (row : ChunkRow) : Bool := decide (row.ownerId = v.ownerId) &&
    decide (row.documentId = v.documentId) &&
    decide (row.documentVersionId = v.documentVersionId)
  let online (row : ChunkRow) : Bool := decide (row.ownerId = v.ownerId) &&
    ids.contains row.documentVersionId &&
      (w.db.referencedVersion? row.documentVersionId row.ownerId row.documentId).any onlineVisible
  have honRoute : ∀ row ∈ chunkRows chunks 0, onRoute row = true := fun row hmem => by
    simp [onRoute, hrow row hmem]
  have honline : ∀ row ∈ chunkRows chunks 0, online row = true := fun row hmem => by
    obtain ⟨hrowOwner, hrowDocument, hrowVersion⟩ := hrow row hmem
    have hreferenced : w.db.referencedVersion? row.documentVersionId row.ownerId row.documentId =
        some v := by
      rw [hrowOwner, hrowDocument, hrowVersion]
      exact Database.referencedVersion?_eq_some.mpr ⟨Table.find?_key_of_mem hv, rfl, rfl⟩
    simp only [online, hreferenced]
    simp only [hrowOwner, hrowVersion, Option.any_some, hvisible]
    simp [hid]
  -- the rows on the route are the version's rows, up to their order
  have hfilter : (w.db.chunks.rows.filter online).filter onRoute = chunkRows chunks 0 := by
    rw [List.filter_filter, ← hrows]
    refine List.filter_congr fun row hmem => ?_
    by_cases hversion : row.documentVersionId = v.documentVersionId
    · have hmem' : row ∈ chunkRows chunks 0 := by
        rw [← hrows]
        exact List.mem_filter.mpr ⟨hmem, decide_eq_true hversion⟩
      rw [honRoute row hmem', honline row hmem', decide_eq_true hversion]
      rfl
    · simp [onRoute, hversion]
  have hsorted : (chunkRows chunks 0).Pairwise versionOrdinalLe := by
    refine (pairwise_chunkRows chunks 0).imp_of_mem fun {a b} ha hb hle => ?_
    exact .inr ⟨(hrow a ha).2.2.trans (hrow b hb).2.2.symm, hle⟩
  have hsub : (chunkRows chunks 0).Sublist ((w.db.onlineRows v.ownerId ids).filter onRoute) := by
    have hfirst : (chunkRows chunks 0).Sublist (w.db.chunks.rows.filter online) := by
      rw [← hfilter]
      exact List.filter_sublist
    have := (List.sublist_insertionSort hsorted hfirst).filter onRoute
    rwa [List.filter_eq_self.mpr honRoute] at this
  refine (hsub.eq_of_length ?_).symm
  have hperm := (List.perm_insertionSort versionOrdinalLe (w.db.chunks.rows.filter online)).filter
    onRoute
  rw [hfilter] at hperm
  exact hperm.length_eq.symm

/-- What a search loads for a route, with the activity flag reset, is the published list. -/
theorem World.Serves.routeChunks (h : w.Serves v chunks) (hv : v ∈ w.db.versions.rows)
    (hvalid : v.Valid) (hready : v.lifecycleStatus = .ready) (hid : v.documentVersionId ∈ ids)
    {loaded : List ChunkRecordV1} (hload : loadOnlineChunks w.db v.ownerId ids = .ok loaded)
    {route : OnlineVersionRoute} (howner : route.ownerId = v.ownerId)
    (hdocument : route.documentId = v.documentId)
    (hversion : route.documentVersionId = v.documentVersionId) :
    (Retrieval.routeChunks route loaded).map (·.withActive false) = chunks := by
  have hloaded : loaded = (w.db.onlineRows v.ownerId ids).map (chunkFromRow true) := by
    unfold loadOnlineChunks at hload
    rw [if_neg (by simpa using List.ne_nil_of_mem hid)] at hload
    obtain ⟨-, hload⟩ := ensure_bind.mp hload
    obtain ⟨-, hload⟩ := ensure_bind.mp hload
    obtain ⟨-, hload⟩ := ensure_bind.mp hload
    obtain ⟨-, hload⟩ := ensure_bind.mp hload
    exact (pure_eq_ok.mp hload).symm
  obtain ⟨-, pdf, -, -, -, hstored⟩ := id h
  unfold Retrieval.routeChunks
  rw [howner, hdocument, hversion, hloaded, List.filter_map, List.map_map]
  have hrows := h.onlineRows hv hvalid hready hid
  exact (congrArg (List.map (chunkFromRow false)) hrows).trans
    (map_chunkFromRow_chunkRows hstored.accepted.inactive 0)

end Loading

/-- A member of a mapping is what `get` finds. -/
theorem metadataGet_of_mem {metadata : List (String × String)} {key value : String}
    (hnodup : (metadata.map Prod.fst).Nodup) (hmem : (key, value) ∈ metadata) :
    metadataGet metadata key = some value := by
  unfold metadataGet
  obtain ⟨front, back, heq⟩ := List.append_of_mem (List.mem_reverse.mpr hmem)
  refine List.lookup_eq_some_iff.mpr ⟨front, back, heq, fun p hp => ?_⟩
  have hkeys : (metadata.reverse.map Prod.fst).Nodup := by
    rw [List.map_reverse]
    exact List.nodup_reverse.mpr hnodup
  rw [heq, List.map_append, List.map_cons] at hkeys
  have hne := (List.nodup_append.mp hkeys).2.2 p.1 (List.mem_map.mpr ⟨p, hp, rfl⟩) key
    List.mem_cons_self
  simpa using Ne.symm hne

/-- The metadata of an index, sorted as a route carries it, says its fingerprint and its count. -/
theorem metadataGet_entries (metadata : IndexMetadata) :
    metadataGet (metadata.entries.insertionSort pairLe) "source_chunks_sha256" =
      some metadata.sourceChunksSha256 ∧
      metadataGet (metadata.entries.insertionSort pairLe) "chunk_count" =
        some (toString metadata.chunkCount) := by
  have hnodup : ((metadata.entries.insertionSort pairLe).map Prod.fst).Nodup := by
    rw [((List.perm_insertionSort pairLe metadata.entries).map Prod.fst).nodup_iff]
    simp [IndexMetadata.entries]
  have hmem : ∀ entry ∈ metadata.entries, entry ∈ metadata.entries.insertionSort pairLe :=
    fun entry h => (List.mem_insertionSort pairLe).mpr h
  exact ⟨metadataGet_of_mem hnodup (hmem _ (by simp [IndexMetadata.entries])),
    metadataGet_of_mem hnodup (hmem _ (by simp [IndexMetadata.entries]))⟩

section Search

variable {services : Services}

/-- The backend's index says the fingerprint and the count of the list, and the route's check of it
passes. -/
structure SourceVerified (services : Services) (w : World) (v : DocumentVersionLifecycleV1)
    (staged : List ChunkRecordV1) (backend : IndexBackend)
    (verify : List (String × String) → List ChunkRecordV1 → Except PyError Unit)
    (index : PhysicalIndex) : Prop where
  stored : w.indexes backend (v.ownerId, v.documentVersionId) = some index
  fingerprint : index.metadata.sourceChunksSha256 = services.chunksFingerprint staged
  count : index.metadata.chunkCount = staged.length
  verified : verify (index.metadata.entries.insertionSort pairLe) staged = .ok ()

/-- In every state of a run: for a version that was persisted and published from one preparation and
is `READY`, the chunks that a search loads for its route, together with those of any other versions
and with the activity flag reset, have the fingerprint and the count that both physical indexes
carry, and both indexes' check of the route passes. -/
theorem ready_searchable {labels : List (PoolLabel Thread Choice)} {p : Pool World Thread}
    (hrun : run (poolStep services) Pool.empty labels = some p)
    {preparation : PersistentIngestionPreparation}
    {result : IndexPublicationResult}
    (hpersisted : ∃ t ∈ p.threads, t.persistedPreparation? = some preparation)
    (hpublished : .publisher preparation (.returned result) ∈ p.threads)
    {v : DocumentVersionLifecycleV1}
    (hv : p.world.db.versions.find? result.version.documentVersionId = some v)
    (hready : v.lifecycleStatus = .ready)
    {ids : List String} (hid : v.documentVersionId ∈ ids) {loaded : List ChunkRecordV1}
    (hload : loadOnlineChunks p.world.db v.ownerId ids = .ok loaded) {route : OnlineVersionRoute}
    (howner : route.ownerId = v.ownerId) (hdocument : route.documentId = v.documentId)
    (hversion : route.documentVersionId = v.documentVersionId) :
    let staged := (routeChunks route loaded).map (·.withActive false)
    (∃ index, SourceVerified services p.world v staged .elasticsearch
      (Elasticsearch.verifySourceMetadata services.chunksFingerprint) index) ∧
    ∃ index, SourceVerified services p.world v staged .milvus
      (Milvus.verifySourceMetadata services.chunksFingerprint) index := by
  have hp := searchable_outline.holds_of_run (.of_run (fun _ _ => trivial) hrun)
    (Assertions.holds_nil StagedWorld.empty)
  obtain ⟨i, hi⟩ := List.mem_iff_getElem?.mp hpublished
  have hthread := hp.thread i _ hi
  obtain ⟨hcopy, hindexed⟩ :
      PublisherState.Stages services p.world preparation (.returned result) := hthread.stages
  obtain ⟨row, hrow, hlater⟩ := hthread.sees _ rfl
  cases hrow.symm.trans hv
  have hsame := (hcopy _ rfl).trans hlater
  obtain ⟨hvid, hdoc, hown, -⟩ := sameVersionIdentity_iff.mp hsame.identity
  have hlive : p.world.Live preparation.version.documentVersionId := by
    intro row' hrow'
    rw [← (hcopy _ rfl).documentVersionId] at hrow'
    cases hrow'.symm.trans hrow
    rw [hready]
    exact LifecycleStatus.noConfusion
  obtain ⟨t, ht, hreturned⟩ := hpersisted
  have hserves : p.world.Serves v preparation.ingestion.chunks := by
    obtain ⟨j, hj⟩ := List.mem_iff_getElem?.mp ht
    unfold Thread.persistedPreparation? at hreturned
    split at hreturned
    · rename_i thread request stored snapshot
      cases hreturned
      have hpersists : PreparerState.Persists p.world (.returned preparation (some snapshot)) :=
        (hp.thread j _ hj).stages
      exact (hpersists.stored _ _ rfl hlive).later hsame
    · cases hreturned
  have hmem := Table.mem_rows_of_find? hv
  have hstaged := hserves.routeChunks hmem (hp.world.valid v hmem) hready hid hload howner hdocument
    hversion
  have hbackend : ∀ backend ∈ [IndexBackend.elasticsearch, .milvus], ∃ index,
      p.world.indexes backend (v.ownerId, v.documentVersionId) = some index ∧ index.metadata =
        stagedMetadata services.chunksFingerprint preparation.version.ownerId
          preparation.version.documentId preparation.version.documentVersionId
            preparation.ingestion.chunks := by
    intro backend hmember
    obtain ⟨index, hindex, hmetadata⟩ := hindexed _ _ rfl backend hmember hlive
    rw [← hown, ← hvid] at hindex
    exact ⟨index, hindex, hmetadata⟩
  simp only [hstaged]
  obtain ⟨elasticsearch, hes, hesMetadata⟩ := hbackend .elasticsearch (by simp)
  obtain ⟨milvus, hmilvus, hmilvusMetadata⟩ := hbackend .milvus (by simp)
  obtain ⟨hesFingerprint, hesCount⟩ := metadataGet_entries elasticsearch.metadata
  obtain ⟨hmilvusFingerprint, hmilvusCount⟩ := metadataGet_entries milvus.metadata
  refine ⟨⟨elasticsearch, hes, by rw [hesMetadata]; rfl, by rw [hesMetadata]; rfl, ?_⟩,
    milvus, hmilvus, by rw [hmilvusMetadata]; rfl, by rw [hmilvusMetadata]; rfl, ?_⟩
  · unfold Elasticsearch.verifySourceMetadata
    rw [hesFingerprint, hesCount, hesMetadata]
    simp [stagedMetadata, ensure_bind]
  · unfold Milvus.verifySourceMetadata
    rw [hmilvusFingerprint, hmilvusCount, hmilvusMetadata]
    simp [stagedMetadata, ensure_bind]

end Search

/-- The preparation and the version of a publication that returned. -/
def Thread.published? :
    Thread → Option (PersistentIngestionPreparation × DocumentVersionLifecycleV1)
  | publisher preparation (.returned result) => some (preparation, result.version)
  | _ => none

/-- A list is persisted and published, its version is `READY`, its chunks are loaded and both
indexes verify them. -/
theorem ready_searchable_published :
    ∃ p, run (poolStep sampleServices) Pool.empty (scriptLabels sampleServices Pool.empty
      servedPublication) = some p ∧ ∃ v ∈ p.world.db.versions.rows, v.lifecycleStatus = .ready ∧
        ∃ loaded, loadOnlineChunks p.world.db v.ownerId [v.documentVersionId] = .ok loaded ∧
          loaded ≠ [] ∧ (∃ index, SourceVerified sampleServices p.world v
            ((routeChunks ⟨v.ownerId, v.documentId, v.documentVersionId, "", "", [], []⟩ loaded).map
              (·.withActive false))
            .elasticsearch (Elasticsearch.verifySourceMetadata sampleServices.chunksFingerprint)
              index) ∧
          ∃ index, SourceVerified sampleServices p.world v
            ((routeChunks ⟨v.ownerId, v.documentId, v.documentVersionId, "", "", [], []⟩ loaded).map
              (·.withActive false))
            .milvus (Milvus.verifySourceMetadata sampleServices.chunksFingerprint) index := by
  have hrun : ((run (poolStep sampleServices) Pool.empty
      (scriptLabels sampleServices Pool.empty servedPublication)).any fun p => p.threads.any
        fun t =>
        t.published?.any fun published =>
          (p.threads.any fun t' => decide (t'.persistedPreparation? = some published.1)) &&
            p.world.db.versions.rows.any fun v => decide (v.lifecycleStatus = .ready) &&
            decide (v.documentVersionId = published.2.documentVersionId) &&
            (loadOnlineChunks p.world.db v.ownerId [v.documentVersionId]).toOption.any fun loaded =>
              !loaded.isEmpty) =
              true := by
    decide +kernel
  obtain ⟨p, hp, hany⟩ := (Option.any_eq_true _ _).mp hrun
  obtain ⟨t, ht, hreturned⟩ := List.any_eq_true.mp hany
  obtain ⟨published, hpublished, hall⟩ := (Option.any_eq_true _ _).mp hreturned
  obtain ⟨hpersisted, hstored⟩ := (Bool.and_eq_true _ _).mp hall
  obtain ⟨t', ht', hpreparation⟩ := List.any_eq_true.mp hpersisted
  obtain ⟨v, hv, hversion⟩ := List.any_eq_true.mp hstored
  simp only [Bool.and_eq_true, decide_eq_true_eq] at hversion
  obtain ⟨⟨hready, hid⟩, hload⟩ := hversion
  obtain ⟨loaded, hloaded, hne⟩ := (Option.any_eq_true _ _).mp hload
  have hok : loadOnlineChunks p.world.db v.ownerId [v.documentVersionId] = .ok loaded := by
    cases hresult : loadOnlineChunks p.world.db v.ownerId [v.documentVersionId] with
    | ok chunks =>
      rw [hresult] at hloaded
      exact congrArg Except.ok (Option.some.inj hloaded)
    | error e =>
      rw [hresult] at hloaded
      cases hloaded
  unfold Thread.published? at hpublished
  split at hpublished
  · cases hpublished
    have hfind := Table.find?_key_of_mem hv
    rw [hid] at hfind
    let route : OnlineVersionRoute := ⟨v.ownerId, v.documentId, v.documentVersionId, "", "", [], []⟩
    have howner : route.ownerId = v.ownerId := rfl
    have hsearchable := ready_searchable hp ⟨t', ht', of_decide_eq_true hpreparation⟩ ht
      hfind hready (List.mem_singleton_self _) hok howner rfl rfl
    exact ⟨p, hp, v, hv, hready, loaded, hok, by simpa using hne, hsearchable⟩
  · cases hpublished

end ZhiyanRag.Ingestion
