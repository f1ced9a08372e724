import ZhiyanRag.Storage.Immutability

/-!
# The rows of one owner

What a call of another owner leaves alone: the versions and chunks of this one. Cleanup calls name
no owner and touch neither table. The queries of a search read only the owner's rows, so two
databases with the same ones answer them alike; that they come out in one order rests on
`rag_chunks_version_ordinal_unique`.
-/

namespace ZhiyanRag.Storage

open Relational ZhiyanRag.Ingestion

/-! ### Queries in order -/

/-- Rows that the order tells apart are sorted into one list, however they are stored. -/
theorem insertionSort_eq_of_perm {α : Type} {le : α → α → Prop} [DecidableRel le] [Std.Total le]
    [IsTrans α le] {xs ys : List α} (hperm : xs.Perm ys)
    (hanti : ∀ a ∈ xs, ∀ b ∈ xs, le a b → le b a → a = b) :
    xs.insertionSort le = ys.insertionSort le := by
  refine List.Perm.eq_of_pairwise (fun a b ha hb hab hba => ?_) (List.pairwise_insertionSort le xs)
    (List.pairwise_insertionSort le ys)
      ((List.perm_insertionSort le xs).trans (hperm.trans (List.perm_insertionSort le ys).symm))
  exact hanti a ((List.mem_insertionSort le).mp ha) b
    (hperm.mem_iff.mpr ((List.mem_insertionSort le).mp hb)) hab hba

instance : Std.Total documentVersionLe := ⟨fun v w => by unfold documentVersionLe; grind⟩

instance : IsTrans DocumentVersionLifecycleV1 documentVersionLe :=
  ⟨fun u v w => by unfold documentVersionLe; grind⟩

instance : Std.Total versionOrdinalLe := ⟨fun r s => by unfold versionOrdinalLe; grind⟩

instance : IsTrans ChunkRow versionOrdinalLe := ⟨fun r s t => by unfold versionOrdinalLe; grind⟩

/-- `rag_chunks_version_ordinal_unique`. -/
def Database.OrdinalsUnique (db : Database) : Prop :=
  ∀ r ∈ db.chunks.rows, ∀ s ∈ db.chunks.rows, r.documentVersionId = s.documentVersionId →
    r.chunkOrdinal = s.chunkOrdinal → r = s

section

variable {α : Type} {c : Coercion α} {chunksFingerprint : List ChunkRecordV1 → String}
  {db db' : Database}

theorem insertChunk_ordinals {row : ChunkRow} (h : insertChunk db row = .ok db')
    (hdb : db.OrdinalsUnique) : db'.OrdinalsUnique := by
  obtain ⟨-, -, ⟨rfl, -⟩ | ⟨chunks, hinsert, rfl, hfree⟩⟩ := insertChunk_ok h
  · exact hdb
  · intro r hr s hs hversion hordinal
    rw [show ({ db with chunks := chunks } : Database).chunks = chunks from rfl,
      Table.rows_insert? hinsert] at hr hs
    rcases List.mem_append.mp hr with hr | hr <;> rcases List.mem_append.mp hs with hs | hs
    · exact hdb r hr s hs hversion hordinal
    · rw [List.mem_singleton.mp hs] at hversion hordinal
      exact absurd hordinal (hfree r hr hversion)
    · rw [List.mem_singleton.mp hr] at hversion hordinal
      exact absurd hordinal.symm (hfree s hs hversion.symm)
    · rw [List.mem_singleton.mp hr, List.mem_singleton.mp hs]

theorem Database.SameRuntime.ordinals (h : db.SameRuntime db') (hdb : db.OrdinalsUnique) :
    db'.OrdinalsUnique := by
  unfold Database.OrdinalsUnique
  rw [h.2.1]
  exact hdb

theorem committed_ordinals {call : Call α} {log : List Commit}
    (h : Committed chunksFingerprint call db db' log) (hdb : db.OrdinalsUnique) :
    db'.OrdinalsUnique := by
  cases h with
  | bookkeeping _ hsame => exact hsame.ordinals hdb
  | registered _ _ _ _ _ hsame => exact hsame.ordinals hdb
  | updated _ _ _ _ _ _ _ hsame => exact hsame.ordinals hdb
  | snapshot pdf chunks receipt _ hcall =>
    unfold persistRuntimeSnapshot at hcall
    obtain ⟨-, hcall⟩ := ensure_bind.mp hcall
    obtain ⟨-, hcall⟩ := ensure_bind.mp hcall
    obtain ⟨-, hcall⟩ := ensure_bind.mp hcall
    obtain ⟨pdfDb, hpdf, hcall⟩ := bind_eq_ok.mp hcall
    obtain ⟨-, hcall⟩ := ensure_bind.mp hcall
    obtain ⟨chunkDb, hchunks, hcall⟩ := bind_eq_ok.mp hcall
    obtain ⟨-, hcall⟩ := ensure_bind.mp hcall
    cases pure_eq_ok.mp hcall
    have hpdfDb : pdfDb.OrdinalsUnique := by
      rcases insertPdfObject_ok hpdf with ⟨rfl, -⟩ | ⟨pdfObjects, -, rfl⟩
      · exact hdb
      · exact hdb
    exact foldlM_invariant (I := Database.OrdinalsUnique)
      (fun _ _ _ _ hunique hrow => insertChunk_ordinals hrow hunique) hpdfDb hchunks
  | purged ownerId documentVersionId _ hcall =>
    obtain ⟨-, rfl⟩ := purgeInactiveRuntimeSnapshot_ok hcall
    exact fun r hr s hs => hdb r (List.mem_filter.mp hr).1 s (List.mem_filter.mp hs).1
  | enqueued _ _ _ _ _ _ hdb' => exact hdb' ▸ hdb
  | claimed _ _ _ _ _ hcall =>
    obtain ⟨cleanupJobs, rfl⟩ := claimCleanup_frame hcall
    exact hdb
  | succeeded _ _ _ _ _ hdb' => exact hdb' ▸ hdb
  | failed _ _ _ _ _ _ _ hdb' => exact hdb' ▸ hdb

/-- The ordinals of a version are unique after every sequence of calls. -/
theorem ordinalsUnique_of_run (calls : List (Call α)) :
    (History.empty.run c chunksFingerprint calls).db.OrdinalsUnique :=
  History.run_invariant (I := fun h => h.db.OrdinalsUnique)
    (fun _ _ _ _ hI hexec => committed_ordinals (exec_committed hexec) hI)
      (fun r hr => by cases hr) calls

end

/-! ### One owner's rows -/

/-- Both databases have the same versions and chunks of the owner. -/
structure SameOwned (ownerId : String) (db db' : Database) : Prop where
  versions : ∀ v : DocumentVersionLifecycleV1, v.ownerId = ownerId →
    (v ∈ db.versions.rows ↔ v ∈ db'.versions.rows)
  chunks : ∀ r : ChunkRow, r.ownerId = ownerId → (r ∈ db.chunks.rows ↔ r ∈ db'.chunks.rows)

namespace SameOwned

variable {ownerId : String} {db db' : Database}

theorem of_filter
    (hversions : (db.versions.rows.filter fun v => v.ownerId = ownerId) = db'.versions.rows.filter
      fun v => v.ownerId = ownerId)
    (hchunks : (db.chunks.rows.filter fun r => r.ownerId = ownerId) = db'.chunks.rows.filter
      fun r => r.ownerId = ownerId) :
    SameOwned ownerId db db' where
  versions v howner := by simpa [howner] using congrArg (v ∈ ·) hversions
  chunks r howner := by simpa [howner] using congrArg (r ∈ ·) hchunks

/-- The owner's rows of a table that a query selects, in whichever order they are stored. -/
theorem filter_perm {ρ κ : Type} [DecidableEq κ] {key : ρ → κ} {t t' : Table key}
    {owner : ρ → String} (hrows : ∀ r, owner r = ownerId → (r ∈ t.rows ↔ r ∈ t'.rows))
    {p p' : ρ → Bool} (hp : ∀ r, p r = true → owner r = ownerId)
    (hsame : ∀ r, owner r = ownerId → p r = p' r) (hp' : ∀ r, p' r = true → owner r = ownerId) :
    (t.rows.filter p).Perm (t'.rows.filter p') := by
  refine (List.perm_ext_iff_of_nodup ((List.Nodup.of_map key t.nodup).filter p)
    ((List.Nodup.of_map key t'.nodup).filter p')).mpr fun r => ?_
  rw [List.mem_filter, List.mem_filter]
  constructor
  · intro ⟨hr, hpr⟩
    have howner := hp r hpr
    exact ⟨(hrows r howner).mp hr, hsame r howner ▸ hpr⟩
  · intro ⟨hr, hpr⟩
    have howner := hp' r hpr
    exact ⟨(hrows r howner).mpr hr, (hsame r howner).symm ▸ hpr⟩

theorem ownedVersion? (h : SameOwned ownerId db db') (documentVersionId : String) :
    db.ownedVersion? ownerId documentVersionId = db'.ownedVersion? ownerId documentVersionId := by
  have hfound : ∀ (d : Database) v, d.ownedVersion? ownerId documentVersionId = some v ↔
      v ∈ d.versions.rows ∧ v.documentVersionId = documentVersionId ∧
      v.ownerId = ownerId := fun d v => by
    rw [Database.ownedVersion?_eq_some, Table.find?_eq_some_iff, and_assoc]
  refine Option.ext fun v => ?_
  rw [hfound, hfound]
  exact ⟨fun ⟨hv, hid, howner⟩ => ⟨(h.versions v howner).mp hv, hid, howner⟩,
    fun ⟨hv, hid, howner⟩ => ⟨(h.versions v howner).mpr hv, hid, howner⟩⟩

theorem resolveOnlineVersions (h : SameOwned ownerId db db') (documentIds : List String) :
    Storage.resolveOnlineVersions db ownerId documentIds =
      Storage.resolveOnlineVersions db' ownerId documentIds := by
  have honline : db.onlineVersions ownerId documentIds =
      db'.onlineVersions ownerId documentIds := by
    unfold Database.onlineVersions
    refine insertionSort_eq_of_perm (filter_perm h.versions (fun v hv => ?_) (fun _ _ => rfl)
      fun v hv => ?_) fun v hv w hw hvw hwv => ?_
    · simp only [Bool.and_eq_true, decide_eq_true_eq] at hv
      exact hv.1.1.1
    · simp only [Bool.and_eq_true, decide_eq_true_eq] at hv
      exact hv.1.1.1
    · refine List.inj_on_of_nodup_map db.versions.nodup (List.mem_filter.mp hv).1
        (List.mem_filter.mp hw).1 ?_
      unfold documentVersionLe at hvw hwv
      grind
  unfold Storage.resolveOnlineVersions
  rw [honline]

theorem loadOnlineChunks (h : SameOwned ownerId db db') (hunique : db.OrdinalsUnique)
    (documentVersionIds : List String) :
    Storage.loadOnlineChunks db ownerId documentVersionIds =
      Storage.loadOnlineChunks db' ownerId documentVersionIds := by
  have honline : db.onlineRows ownerId documentVersionIds =
      db'.onlineRows ownerId documentVersionIds := by
    unfold Database.onlineRows
    refine insertionSort_eq_of_perm (filter_perm h.chunks (fun r hr => ?_) (fun r howner => ?_)
      fun r hr => ?_) fun r hr s hs hrs hsr => ?_
    · simp only [Bool.and_eq_true, decide_eq_true_eq] at hr
      exact hr.1.1
    · unfold Database.referencedVersion?
      rw [howner, h.ownedVersion?]
    · simp only [Bool.and_eq_true, decide_eq_true_eq] at hr
      exact hr.1.1
    · unfold versionOrdinalLe at hrs hsr
      refine hunique r (List.mem_filter.mp hr).1 s (List.mem_filter.mp hs).1 ?_ ?_ <;> grind
  unfold Storage.loadOnlineChunks
  rw [honline]

/-! ### Calls of other owners -/

theorem of_eq (hversions : db'.versions = db.versions) (hchunks : db'.chunks = db.chunks) :
    SameOwned ownerId db db' where
  versions v _ := by rw [hversions]
  chunks r _ := by rw [hchunks]

theorem trans {db'' : Database} (h : SameOwned ownerId db db') (h' : SameOwned ownerId db' db'') :
    SameOwned ownerId db db'' where
  versions v howner := (h.versions v howner).trans (h'.versions v howner)
  chunks r howner := (h.chunks r howner).trans (h'.chunks r howner)

theorem of_insert {v : DocumentVersionLifecycleV1} (hforeign : v.ownerId ≠ ownerId)
    (hinsert : db.versions.insert? v = some db'.versions) (hchunks : db'.chunks = db.chunks) :
    SameOwned ownerId db db' where
  versions w howner := by
    rw [Table.rows_insert? hinsert, List.mem_append, List.mem_singleton]
    exact ⟨.inl, fun h => h.resolve_right fun heq => hforeign (heq ▸ howner)⟩
  chunks r _ := by rw [hchunks]

theorem of_set {old new : DocumentVersionLifecycleV1} (hold : old ∈ db.versions.rows)
    (hupdate : VersionUpdate old new) (hforeign : old.ownerId ≠ ownerId)
    (hset : db'.versions = db.versions.set new) (hchunks : db'.chunks = db.chunks) :
    SameOwned ownerId db db' where
  versions w howner := by
    rw [hset]
    constructor
    · intro hw
      refine Table.mem_set_of_mem hw fun hkey => hforeign ?_
      rw [db.versions.eq_of_key hold hw (hupdate.documentVersionId.symm.trans hkey), howner]
    · intro hw
      refine ((Table.mem_set hw).resolve_left fun heq => hforeign ?_).1
      rw [← hupdate.ownerId, ← heq, howner]
  chunks r _ := by rw [hchunks]

end SameOwned

section

variable {α : Type} {c : Coercion α} {chunksFingerprint : List ChunkRecordV1 → String}
  {db db' : Database} {ownerId : String}

/-- The authenticated owner of a call; those of the cleanup worker have none. -/
def Call.ownerId? : Call α → Option String
  | .registerDocument _ ownerId .. | .registerVersion _ ownerId ..
  | .registerIngestionJob _ ownerId .. | .registerVersionAndIngestionJob _ _ ownerId ..
  | .transitionVersion ownerId .. | .updateIngestionJob ownerId ..
  | .recordIndexingFailure ownerId .. | .finalizeIndexingSuccess ownerId ..
  | .purgeInactiveRuntimeSnapshot ownerId _ | .enqueueCleanup _ _ ownerId .. => some ownerId
  | .persistRuntimeSnapshot pdf _ => some pdf.ownerId
  | .claimCleanup .. | .completeCleanup .. | .recordCleanupFailure .. => none

theorem registerVersion_sameOwned {newId caller documentId content source parse : String}
    {now : Timestamp} {v : DocumentVersionLifecycleV1}
    (h : registerVersion db newId caller documentId content source parse now = .ok (db', v))
    (hforeign : caller ≠ ownerId) :
    SameOwned ownerId db db' := by
  obtain ⟨-, howner, -, -, rfl | ⟨document, versions, -, hinsert, rfl⟩⟩ := registerVersion_ok h
  · exact .of_eq rfl rfl
  · exact .of_insert (howner ▸ hforeign) hinsert rfl

theorem transitionVersion_sameOwned {caller documentVersionId : String} {expectedRevision : Int}
    {targetStatus : LifecycleStatus} {updates : List (UpdateKey × UpdateValue α)} {now : Timestamp}
    {v : DocumentVersionLifecycleV1}
    (h : transitionVersion c db caller documentVersionId expectedRevision targetStatus updates now =
      .ok (db', v)) (hforeign : caller ≠ ownerId) :
    SameOwned ownerId db db' := by
  obtain ⟨old, hold, -, hupdate, -, rfl, -⟩ := transitionVersion_ok h
  obtain ⟨hfound, howner⟩ := Database.ownedVersion?_eq_some.mp hold
  exact .of_set (Table.mem_rows_of_find? hfound) hupdate (howner ▸ hforeign) rfl rfl

theorem persistRuntimeSnapshot_sameOwned {pdf : PdfObjectV1} {chunks : List ChunkRecordV1}
    {receipt : RuntimeSnapshotV1}
    (h : persistRuntimeSnapshot chunksFingerprint db pdf chunks = .ok (db', receipt))
    (hforeign : pdf.ownerId ≠ ownerId) :
    SameOwned ownerId db db' := by
  have hversions := (persistRuntimeSnapshot_frame h).1
  obtain ⟨-, -, hmatch, -, -, pdfDb, storedPdf, newChunks, inserted, -, -, -, rfl, hsub, hrows,
      -⟩ := persistRuntimeSnapshot_ok h
  refine ⟨fun v _ => by rw [hversions], fun r howner => ?_⟩
  rw [show ({ pdfDb with chunks := newChunks } : Database).chunks.rows = _ from hrows,
    List.mem_append]
  refine ⟨.inl, fun hr => hr.resolve_right fun hinserted => hforeign ?_⟩
  obtain ⟨⟨chunk, n⟩, hchunk, rfl⟩ := List.mem_map.mp (hsub.subset hinserted)
  have hmatches := List.all_eq_true.mp hmatch chunk (List.fst_mem_of_mem_zipIdx hchunk)
  unfold chunkMatchesPdf at hmatches
  simp only [Bool.and_eq_true, decide_eq_true_eq] at hmatches
  rw [← hmatches.1.1.1]
  exact howner

/-- A call of another owner, or of the cleanup worker, leaves the owner's versions and chunks as
they are. -/
theorem exec_sameOwned {call : Call α} {log : List Commit}
    (h : db.exec c chunksFingerprint call = .ok (db', log))
    (hforeign : call.ownerId? ≠ some ownerId) : SameOwned ownerId db db' := by
  cases call with
  | registerDocument =>
    obtain ⟨⟨db₁, d⟩, hcall, hret⟩ := bind_eq_ok.mp h
    cases pure_eq_ok.mp hret
    obtain ⟨documents, rfl⟩ := registerDocument_ok hcall
    exact .of_eq rfl rfl
  | registerVersion =>
    obtain ⟨⟨db₁, v⟩, hcall, hret⟩ := bind_eq_ok.mp h
    cases pure_eq_ok.mp hret
    exact registerVersion_sameOwned hcall fun heq => hforeign (congrArg some heq)
  | registerIngestionJob =>
    obtain ⟨⟨db₁, job⟩, hcall, hret⟩ := bind_eq_ok.mp h
    cases pure_eq_ok.mp hret
    obtain ⟨jobs, rfl⟩ := registerIngestionJob_ok hcall
    exact .of_eq rfl rfl
  | registerVersionAndIngestionJob =>
    obtain ⟨⟨db₁, v, job⟩, hcall, hret⟩ := bind_eq_ok.mp h
    cases pure_eq_ok.mp hret
    obtain ⟨db₂, jobs, hversion, rfl⟩ := registerVersionAndIngestionJob_ok hcall
    exact (registerVersion_sameOwned hversion fun heq => hforeign (congrArg some heq)).trans
      (.of_eq rfl rfl)
  | transitionVersion =>
    obtain ⟨⟨db₁, v⟩, hcall, hret⟩ := bind_eq_ok.mp h
    cases pure_eq_ok.mp hret
    exact transitionVersion_sameOwned hcall fun heq => hforeign (congrArg some heq)
  | updateIngestionJob =>
    obtain ⟨⟨db₁, job⟩, hcall, hret⟩ := bind_eq_ok.mp h
    cases pure_eq_ok.mp hret
    obtain ⟨rfl, -⟩ := updateIngestionJob_ok hcall
    exact .of_eq rfl rfl
  | recordIndexingFailure =>
    obtain ⟨⟨db₁, v, job⟩, hcall, hret⟩ := bind_eq_ok.mp h
    cases pure_eq_ok.mp hret
    obtain ⟨db₂, hversion, hjob, -⟩ := recordIndexingFailure_ok hcall
    obtain ⟨rfl, -⟩ := updateIngestionJob_ok hjob
    exact (transitionVersion_sameOwned hversion fun heq => hforeign (congrArg some heq)).trans
      (.of_eq rfl rfl)
  | finalizeIndexingSuccess =>
    obtain ⟨⟨db₁, v, job⟩, hcall, hret⟩ := bind_eq_ok.mp h
    cases pure_eq_ok.mp hret
    obtain ⟨db₂, hversion, hjob, -⟩ := finalizeIndexingSuccess_ok hcall
    obtain ⟨rfl, -⟩ := updateIngestionJob_ok hjob
    exact (transitionVersion_sameOwned hversion fun heq => hforeign (congrArg some heq)).trans
      (.of_eq rfl rfl)
  | persistRuntimeSnapshot pdf chunks =>
    obtain ⟨⟨db₁, receipt⟩, hcall, hret⟩ := bind_eq_ok.mp h
    cases pure_eq_ok.mp hret
    exact persistRuntimeSnapshot_sameOwned hcall fun heq => hforeign (congrArg some heq)
  | purgeInactiveRuntimeSnapshot caller documentVersionId =>
    obtain ⟨db₁, hcall, hret⟩ := bind_eq_ok.mp h
    cases pure_eq_ok.mp hret
    obtain ⟨-, rfl⟩ := purgeInactiveRuntimeSnapshot_ok hcall
    refine ⟨fun v _ => Iff.rfl, fun r howner => ?_⟩
    have hkept : r.ownerId ≠ caller := fun heq => hforeign (congrArg some (heq.symm.trans howner))
    rw [Table.rows_filter, List.mem_filter]
    simp [hkept]
  | enqueueCleanup =>
    obtain ⟨⟨db₁, job⟩, hcall, hret⟩ := bind_eq_ok.mp h
    cases pure_eq_ok.mp hret
    obtain ⟨-, ⟨rfl, -⟩ | ⟨jobs, -, -, -, -, rfl⟩⟩ := enqueueCleanup_ok hcall
    · exact .of_eq rfl rfl
    · exact .of_eq rfl rfl
  | claimCleanup =>
    obtain ⟨⟨db₁, result⟩, hcall, hret⟩ := bind_eq_ok.mp h
    cases pure_eq_ok.mp hret
    obtain ⟨cleanupJobs, rfl⟩ := claimCleanup_frame hcall
    exact .of_eq rfl rfl
  | completeCleanup =>
    obtain ⟨⟨db₁, job⟩, hcall, hret⟩ := bind_eq_ok.mp h
    cases pure_eq_ok.mp hret
    obtain ⟨stored, -, -, -, rfl⟩ := updateLeased_ok hcall
    exact .of_eq rfl rfl
  | recordCleanupFailure =>
    obtain ⟨⟨db₁, job⟩, hcall, hret⟩ := bind_eq_ok.mp h
    cases pure_eq_ok.mp hret
    obtain ⟨-, hcall⟩ := ensure_bind.mp hcall
    obtain ⟨-, hcall⟩ := ensure_bind.mp hcall
    obtain ⟨stored, -, -, -, rfl⟩ := updateLeased_ok hcall
    exact .of_eq rfl rfl

theorem step_sameOwned {call : Call α} (hforeign : call.ownerId? ≠ some ownerId) (h : History) :
    SameOwned ownerId h.db (h.step c chunksFingerprint call).db := by
  unfold History.step
  split
  · rename_i db log hexec
    exact exec_sameOwned hexec hforeign
  · exact .of_eq rfl rfl

end

end ZhiyanRag.Storage
