import ZhiyanRag.Ingestion.Searchable
import ZhiyanRag.Retrieval.SnapshotFidelity

/-!
# What the writers have written

The stores are changed by the requests of the two version writers only: a request creates an index,
writes some of the chunks, sets some rows active or inactive, or deletes the index, and writers may
stop and be overtaken anywhere between two requests. Whatever they leave, the rows under the name of
a version are chunks that were staged for it. A search that gets through has counted them and has
compared the fingerprint of its snapshot with theirs, so both indexes hold the snapshot, and what is
served is the snapshot's.
-/

namespace ZhiyanRag.Ingestion

open Relational Retrieval

/-! ### The payload of a chunk -/

theorem ChunkRecordV1.rows_modelDump (chunk : ChunkRecordV1) :
    chunk.modelDump.members.rows = chunk.dumpMembers := by
  refine rows_ofMembers ?_
  show (["chunk_id", "document_id", "version_id", "text", "section_path", "page_start", "page_end",
    "parent_chunk_id", "previous_chunk_id", "next_chunk_id", "tenant_id", "visibility",
    "library_scope_ids", "parse_version", "embedding_version", "is_active"] : List String).Nodup
  decide +kernel

theorem ChunkRecordV1.get_modelDump {chunk : ChunkRecordV1} {field : String} {value : JsonValue}
    (h : (field, value) ∈ chunk.dumpMembers) : chunk.modelDump.get field = value := by
  rw [← chunk.rows_modelDump] at h
  unfold JsonObject.get
  rw [Table.find?_eq_some_iff.mpr ⟨h, rfl⟩]
  rfl

theorem chunkIdOf_modelDump (chunk : ChunkRecordV1) :
    chunkIdOf chunk.modelDump = chunk.chunkId := by
  have hmem : ("chunk_id", JsonValue.str chunk.chunkId) ∈ chunk.dumpMembers :=
    List.mem_cons_self ..
  unfold chunkIdOf
  rw [ChunkRecordV1.get_modelDump hmem]
  rfl

theorem withActive_modelDump (chunk : ChunkRecordV1) (isActive : Bool) :
    withActive chunk.modelDump isActive = (chunk.withActive isActive).modelDump := by
  have hrows : (withActive chunk.modelDump isActive).members.rows =
      (chunk.withActive isActive).dumpMembers := by
    have hmem : ("is_active", JsonValue.bool isActive).1 ∈
        chunk.modelDump.members.rows.map Prod.fst := by
      rw [chunk.rows_modelDump]
      simp [ChunkRecordV1.dumpMembers]
    unfold withActive JsonObject.put
    dsimp only
    rw [Table.upsert_of_mem hmem, Table.set, Table.rows_mapRows, chunk.rows_modelDump]
    simp [ChunkRecordV1.dumpMembers, ChunkRecordV1.withActive]
  exact congrArg JsonObject.mk (Table.ext (hrows.trans (ChunkRecordV1.rows_modelDump _).symm))

/-! ### The requests of the Elasticsearch writer -/

namespace ElasticsearchWriter

open Elasticsearch

/-- `_update_by_query`, as far as it got. -/
def updated (index : Index) (reached : Document → Bool) (isActive : Bool) : Index :=
  { index with
    documents := index.documents.mapRows (fun document =>
      if reached document then { document with source := withActive document.source isActive }
        else document) fun document => by split <;> rfl }

/-- A request for a version of these chunks, from what there was under its name to what there is. -/
inductive Request (chunksFingerprint : List JsonObject → Sha256) (chunks : List ChunkRecordV1) :
    Option Index → Option Index → Prop
  | create (identity : VersionIdentity) :
      Request chunksFingerprint chunks
        none (some (createdIndex chunksFingerprint identity (chunks.map (·.modelDump))))
  | bulk (index : Index) (written : List ChunkRecordV1) (h : written ⊆ chunks) :
      Request chunksFingerprint chunks (some index)
        (some (bulkIndex index (written.map (·.modelDump))))
  -- the index has been deleted since it was inspected: it comes back without settings or metadata
  | bulkAbsent (index : Index) (hmetadata : index.metadata = [])
      (hdocuments : index.documents = Table.empty) (written : List ChunkRecordV1)
      (h : written ⊆ chunks) :
      Request chunksFingerprint chunks none (some (bulkIndex index (written.map (·.modelDump))))
  | updateByQuery (index : Index) (reached : Document → Bool) (isActive : Bool) :
      Request chunksFingerprint chunks (some index) (some (updated index reached isActive))
  | delete (index : Index) : Request chunksFingerprint chunks (some index) none

/-- Each document is a staged chunk, active or not, and the metadata is that of the chunks unless
there is none. -/
structure Written (chunksFingerprint : List JsonObject → Sha256) (chunks : List ChunkRecordV1)
    (index : Index) : Prop where
  metadata : index.metadata = [] ∨
    ∃ identity, index.metadata =
      (createdIndex chunksFingerprint identity (chunks.map (·.modelDump))).metadata
  documents : ∀ document ∈ index.documents.rows, ∃ chunk ∈ chunks, ∃ active,
    document = ⟨chunk.chunkId, (chunk.withActive active).modelDump⟩

section

variable {unicode : UnicodeTables} {chunksFingerprint : List JsonObject → Sha256}
  {chunks : List ChunkRecordV1} {index : Index}

theorem mem_bulkIndex {written : List JsonObject} {document : Document}
    (h : document ∈ (bulkIndex index written).documents.rows) :
    document ∈ index.documents.rows ∨ ∃ chunk ∈ written, document = ⟨chunkIdOf chunk, chunk⟩ := by
  unfold bulkIndex at h
  dsimp only at h
  generalize index.documents = documents at h ⊢
  induction written generalizing documents with
  | nil => exact .inl h
  | cons chunk written ih =>
    rcases ih _ h with hmem | ⟨other, hother, heq⟩
    · rcases Table.mem_upsert hmem with rfl | hmem
      · exact .inr ⟨chunk, List.mem_cons_self .., rfl⟩
      · exact .inl hmem
    · exact .inr ⟨other, List.mem_cons_of_mem _ hother, heq⟩

theorem Written.bulk (h : Written chunksFingerprint chunks index) {written : List ChunkRecordV1}
    (hwritten : written ⊆ chunks) :
    Written chunksFingerprint chunks (bulkIndex index (written.map (·.modelDump))) := by
  refine ⟨h.metadata, fun document hdocument => ?_⟩
  rcases mem_bulkIndex hdocument with hmem | ⟨payload, hpayload, rfl⟩
  · exact h.documents document hmem
  · obtain ⟨chunk, hchunk, rfl⟩ := List.mem_map.mp hpayload
    exact ⟨chunk, hwritten hchunk, chunk.isActive, by rw [chunkIdOf_modelDump]; rfl⟩

/-- No request writes anything but staged chunks. -/
theorem Request.written {before after : Option Index}
    (h : Request chunksFingerprint chunks before after)
    (hbefore : ∀ index ∈ before, Written chunksFingerprint chunks index) :
    ∀ index ∈ after, Written chunksFingerprint chunks index := by
  cases h with
  | create identity =>
    intro index hindex
    cases hindex
    exact ⟨.inr ⟨identity, rfl⟩, fun document hdocument => absurd hdocument List.not_mem_nil⟩
  | bulk index written hwritten =>
    intro index hindex
    cases hindex
    exact (hbefore _ rfl).bulk hwritten
  | bulkAbsent index hmetadata hdocuments written hwritten =>
    intro index hindex
    cases hindex
    exact Written.bulk ⟨.inl hmetadata, fun document hdocument => absurd hdocument
      (by rw [hdocuments]; exact List.not_mem_nil)⟩ hwritten
  | updateByQuery index reached isActive =>
    intro index hindex
    cases hindex
    refine ⟨(hbefore _ rfl).metadata, fun document hdocument => ?_⟩
    obtain ⟨stored, hstored, rfl⟩ := List.mem_map.mp hdocument
    obtain ⟨chunk, hchunk, active, rfl⟩ := (hbefore _ rfl).documents stored hstored
    refine ⟨chunk, hchunk, if reached ⟨chunk.chunkId, (chunk.withActive active).modelDump⟩
      then isActive else active, ?_⟩
    split
    · rw [withActive_modelDump, ChunkRecordV1.withActive_withActive]
    · rfl
  | delete index => exact fun index hindex => nomatch hindex

theorem written_of_requests {current : Option Index}
    (h : Relation.ReflTransGen (Request chunksFingerprint chunks) none current) :
    ∀ index ∈ current, Written chunksFingerprint chunks index := by
  induction h with
  | refl => exact fun index hindex => nomatch hindex
  | tail _ hrequest ih => exact hrequest.written ih

/-- `delete_version`: what is left, and whether there was an index. -/
def deleteVersion (unicode : UnicodeTables) (current : Option Index)
    (ownerId documentVersionId : String) : Except PyError (Option Index × Bool) := do
  ensure (validIdentity ownerId documentVersionId) .valueError
    "owner_id and document_version_id must be valid contract IDs"
  match current with
  | none => return (none, false)
  | some index => do
    let _ ← inspectIdentity unicode index (identityMetadata ownerId documentVersionId)
    return (none, true)

variable {current after : Option Index} {identity : VersionIdentity}
  {ownerId documentVersionId : String}

/-- A staging is made of requests. -/
theorem ensureStaged_requests {staged : Index} {receipt : IndexWriteReceipt}
    (h : ensureStaged unicode chunksFingerprint current identity (chunks.map (·.modelDump)) =
      .ok (staged, receipt)) :
    Relation.ReflTransGen (Request chunksFingerprint chunks) current (some staged) := by
  unfold ensureStaged at h
  obtain ⟨-, h⟩ := check_bind.mp h
  obtain ⟨metadata, -, h⟩ := bind_eq_ok.mp h
  obtain ⟨total, -, h⟩ := bind_eq_ok.mp h
  obtain ⟨filled, hfill, h⟩ := bind_eq_ok.mp h
  obtain ⟨-, h⟩ := check_bind.mp h
  cases pure_eq_ok.mp h
  have hcreated : Relation.ReflTransGen (Request chunksFingerprint chunks) current
      (some (current.getD
        (createdIndex chunksFingerprint identity (chunks.map (·.modelDump))))) := by
    cases current with
    | none => exact .single (.create identity)
    | some index => exact .refl
  refine hcreated.trans ?_
  unfold fillIndex at hfill
  split at hfill
  · obtain ⟨-, hfill⟩ := check_bind.mp hfill
    obtain ⟨count, -, hfill⟩ := bind_eq_ok.mp hfill
    cases pure_eq_ok.mp hfill
    exact .single (.bulk _ chunks fun _ hchunk => hchunk)
  · cases hfill
    exact .refl

theorem setActive_requests {isActive : Bool} {updatedIndex : Index}
    (h : setActive unicode index ownerId documentVersionId isActive = .ok updatedIndex) :
    Request chunksFingerprint chunks (some index) (some updatedIndex) := by
  unfold setActive at h
  obtain ⟨metadata, -, h⟩ := bind_eq_ok.mp h
  obtain ⟨-, h⟩ := ensure_bind.mp h
  cases pure_eq_ok.mp h
  exact .updateByQuery index
    (fun document => (identityQuery ownerId documentVersionId).holds document.source) isActive

/-- So are the other three calls of the writer. -/
theorem calls_requests
    (h : activateVersion unicode current ownerId documentVersionId = .ok after ∨
      deactivateVersion unicode current ownerId documentVersionId = .ok after ∨ ∃ existed,
        deleteVersion unicode current ownerId documentVersionId = .ok (after, existed)) :
    Relation.ReflTransGen (Request chunksFingerprint chunks) current after := by
  rcases h with h | h | ⟨existed, h⟩
  · unfold activateVersion at h
    obtain ⟨-, h⟩ := ensure_bind.mp h
    cases current with
    | none => cases h
    | some index =>
      obtain ⟨updatedIndex, hset, h⟩ := bind_eq_ok.mp h
      cases pure_eq_ok.mp h
      exact .single (setActive_requests hset)
  · unfold deactivateVersion at h
    obtain ⟨-, h⟩ := ensure_bind.mp h
    cases current with
    | none =>
      cases pure_eq_ok.mp h
      exact .refl
    | some index =>
      obtain ⟨updatedIndex, hset, h⟩ := bind_eq_ok.mp h
      cases pure_eq_ok.mp h
      exact .single (setActive_requests hset)
  · unfold deleteVersion at h
    obtain ⟨-, h⟩ := ensure_bind.mp h
    cases current with
    | none =>
      cases pure_eq_ok.mp h
      exact .refl
    | some index =>
      obtain ⟨metadata, -, h⟩ := bind_eq_ok.mp h
      cases pure_eq_ok.mp h
      exact .single (.delete index)

end

end ElasticsearchWriter

/-! ### The requests of the Milvus writer -/

namespace MilvusWriter

open Milvus

section

variable {Score : Type}

/-- The description of a new collection. -/
def createdMetadata (env : Surroundings Score) (identity : VersionIdentity)
    (chunks : List JsonObject) (model : ModelIdentity) (dimension : Nat) (fingerprint : String) :
    List (String × String) :=
  expectedConfiguration ++ providerMetadata model ++
    [("source_chunks_sha256", (env.chunksFingerprint chunks).val),
      ("chunk_count", toString chunks.length), ("embedding_dimension", toString dimension),
      ("owner_id", identity.ownerId), ("document_id", identity.documentId),
      ("document_version_id", identity.documentVersionId),
      ("embeddings_sha256", fingerprint)]

/-- What there is under the name of a version, and the rows that queries have returned so far. -/
structure StoreState (Score : Type) where
  collection : Option (Collection Score)
  read : List (Row Score)

/-- A request for a version of these chunks. -/
inductive Request (env : Surroundings Score) (chunks : List ChunkRecordV1) :
    StoreState Score → StoreState Score → Prop
  | create (read : List (Row Score)) (identity : VersionIdentity) (model : ModelIdentity)
      (dimension : Nat) (fingerprint : String) : Request env chunks ⟨none, read⟩
        ⟨some ⟨createdMetadata env identity (chunks.map (·.modelDump)) model dimension fingerprint,
          expectedFields, Table.empty⟩, read⟩
  | upsert (collection : Collection Score) (read : List (Row Score)) (written : List ChunkRecordV1)
      (vectors : List (String × List Score))
      (h : written ⊆ chunks) :
      Request env chunks ⟨some collection, read⟩
        ⟨some (upsertRows collection (written.map (·.modelDump)) vectors), read⟩
  | query (collection : Collection Score) (read rows : List (Row Score))
      (h : rows ⊆ collection.rows.rows) :
      Request env chunks ⟨some collection, read⟩ ⟨some collection, read ++ rows⟩
  -- the rows may have been read before others changed or deleted them
  | setActive (collection : Collection Score) (read rows : List (Row Score)) (isActive : Bool)
      (h : rows ⊆ read) :
      Request env chunks ⟨some collection, read⟩
        ⟨some (upsertActive collection rows isActive), read⟩
  | drop (collection : Collection Score) (read : List (Row Score)) :
      Request env chunks ⟨some collection, read⟩ ⟨none, read⟩

/-- The row is a staged chunk, active or not. -/
def StagedRow (chunks : List ChunkRecordV1) (row : Row Score) : Prop :=
  ∃ chunk ∈ chunks, ∃ active, row.chunkId = chunk.chunkId ∧
    row.payload = (chunk.withActive active).modelDump

structure Written (env : Surroundings Score) (chunks : List ChunkRecordV1)
    (state : StoreState Score) : Prop where
  metadata : ∀ collection ∈ state.collection, ∃ identity model dimension fingerprint,
    collection.metadata = createdMetadata env identity (chunks.map (·.modelDump)) model dimension
      fingerprint
  rows : ∀ collection ∈ state.collection, ∀ row ∈ collection.rows.rows, StagedRow chunks row
  read : ∀ row ∈ state.read, StagedRow chunks row

variable {env : Surroundings Score} {chunks : List ChunkRecordV1}

theorem mem_foldl_upsert {β : Type} {f : β → Row Score} {items : List β}
    {table : Table (@Row.chunkId Score)} {row : Row Score}
    (h : row ∈ (items.foldl (fun table item => table.upsert (f item)) table).rows) :
    row ∈ table.rows ∨ ∃ item ∈ items, row = f item := by
  induction items generalizing table with
  | nil => exact .inl h
  | cons item items ih =>
    rcases ih h with hmem | ⟨other, hother, heq⟩
    · rcases Table.mem_upsert hmem with rfl | hmem
      · exact .inr ⟨item, List.mem_cons_self .., rfl⟩
      · exact .inl hmem
    · exact .inr ⟨other, List.mem_cons_of_mem _ hother, heq⟩

theorem stagedRow_ofChunk {chunk : ChunkRecordV1} (hchunk : chunk ∈ chunks) (vector : List Score) :
    StagedRow chunks (Row.ofChunk chunk.modelDump vector) := by
  have hrow : ∀ payload : JsonObject, (Row.ofChunk payload vector).chunkId = chunkIdOf payload ∧
      (Row.ofChunk payload vector).payload = payload :=
    fun _ => ⟨rfl, rfl⟩
  have hsame : chunk.withActive chunk.isActive = chunk := rfl
  refine ⟨chunk, hchunk, chunk.isActive, (hrow _).1.trans (chunkIdOf_modelDump chunk), ?_⟩
  rw [(hrow _).2, hsame]

theorem StagedRow.setActive {row : Row Score} (h : StagedRow chunks row) (isActive : Bool) :
    StagedRow chunks (setRowActive isActive row) := by
  obtain ⟨chunk, hchunk, active, hid, hpayload⟩ := h
  refine ⟨chunk, hchunk, isActive, hid, ?_⟩
  show withActive row.payload isActive = _
  rw [hpayload, withActive_modelDump, ChunkRecordV1.withActive_withActive]

/-- No request writes anything but staged chunks. -/
theorem Request.written {before after : StoreState Score} (h : Request env chunks before after)
    (hbefore : Written env chunks before) : Written env chunks after := by
  cases h with
  | create read identity model dimension fingerprint =>
    refine ⟨fun collection hcollection => ?_, fun collection hcollection row hrow => ?_,
      hbefore.read⟩ <;> cases hcollection
    · exact ⟨identity, model, dimension, fingerprint, rfl⟩
    · cases hrow
  | upsert collection read written vectors hwritten =>
    refine ⟨fun after hafter => ?_, fun after hafter row hrow => ?_, hbefore.read⟩ <;> cases hafter
    · exact hbefore.metadata collection rfl
    · rcases mem_foldl_upsert hrow with hmem | ⟨payload, hpayload, rfl⟩
      · exact hbefore.rows collection rfl row hmem
      · obtain ⟨chunk, hchunk, rfl⟩ := List.mem_map.mp hpayload
        exact stagedRow_ofChunk (hwritten hchunk) _
  | query collection read rows hrows =>
    refine ⟨hbefore.metadata, hbefore.rows, fun row hrow => ?_⟩
    rcases List.mem_append.mp hrow with hmem | hmem
    · exact hbefore.read row hmem
    · exact hbefore.rows collection rfl row (hrows hmem)
  | setActive collection read rows isActive hrows =>
    refine ⟨fun after hafter => ?_, fun after hafter row hrow => ?_, hbefore.read⟩ <;> cases hafter
    · exact hbefore.metadata collection rfl
    · rcases mem_foldl_upsert hrow with hmem | ⟨stored, hstored, rfl⟩
      · exact hbefore.rows collection rfl row hmem
      · exact (hbefore.read stored (hrows hstored)).setActive isActive
  | drop collection read => exact ⟨fun _ h => (nomatch h), fun _ h => (nomatch h), hbefore.read⟩

theorem written_of_requests {state : StoreState Score}
    (h : Relation.ReflTransGen (Request env chunks) ⟨none, []⟩ state) :
    Written env chunks state := by
  induction h with
  | refl =>
    exact ⟨fun _ h => (nomatch h), fun _ h => (nomatch h),
      fun row hrow => absurd hrow List.not_mem_nil⟩
  | tail _ hrequest ih => exact hrequest.written ih

/-- `delete_version`: what is left, and whether there was a collection. -/
def deleteVersion (env : Surroundings Score) (current : Option (Collection Score))
    (ownerId documentVersionId : String) : Except PyError (Option (Collection Score) × Bool) := do
  ensure (validIdentity ownerId documentVersionId) .valueError
    "owner_id and document_version_id must be valid contract IDs"
  match current with
  | none => return (none, false)
  | some collection => do
    let _ ← inspectIdentity env collection (identityMetadata ownerId documentVersionId)
    return (none, true)

variable {limited : Limited Score} {current after : Option (Collection Score)}
  {collection : Collection Score} {identity : VersionIdentity} {ownerId documentVersionId : String}
  {read : List (Row Score)}

/-- A staging is made of requests. -/
theorem ensureStaged_requests {staged : Collection Score} {receipt : IndexWriteReceipt}
    (h : ensureStaged env limited current identity (chunks.map (·.modelDump)) =
      .ok (staged, receipt)) :
    Relation.ReflTransGen (Request env chunks) ⟨current, read⟩ ⟨some staged, read⟩ := by
  unfold ensureStaged at h
  obtain ⟨-, h⟩ := check_bind.mp h
  obtain ⟨collection, hcollection, h⟩ := bind_eq_ok.mp h
  obtain ⟨model, -, h⟩ := bind_eq_ok.mp h
  obtain ⟨metadata, -, h⟩ := bind_eq_ok.mp h
  obtain ⟨seen, -, h⟩ := bind_eq_ok.mp h
  obtain ⟨⟨filled, rows⟩, hfill, h⟩ := bind_eq_ok.mp h
  obtain ⟨verified, -, h⟩ := bind_eq_ok.mp h
  cases pure_eq_ok.mp h
  have hcreated : Relation.ReflTransGen (Request env chunks) ⟨current, read⟩
      ⟨some collection, read⟩ := by
    cases current with
    | none =>
      change createdCollection env identity (chunks.map (·.modelDump)) = .ok collection
        at hcollection
      unfold createdCollection at hcollection
      obtain ⟨vectors, -, hcollection⟩ := bind_eq_ok.mp hcollection
      obtain ⟨model, -, hcollection⟩ := bind_eq_ok.mp hcollection
      obtain ⟨fingerprint, -, hcollection⟩ := bind_eq_ok.mp hcollection
      cases pure_eq_ok.mp hcollection
      exact .tail (.single (.create read identity model _ fingerprint))
        (.upsert _ read chunks vectors fun _ hchunk => hchunk)
    | some stored =>
      cases hcollection
      exact .refl
  refine hcreated.trans ?_
  unfold fillCollection at hfill
  dsimp only at hfill
  split at hfill
  · cases hfill
    exact .refl
  · obtain ⟨vectors, -, hfill⟩ := bind_eq_ok.mp hfill
    obtain ⟨fingerprint, -, hfill⟩ := bind_eq_ok.mp hfill
    obtain ⟨-, hfill⟩ := ensure_bind.mp hfill
    obtain ⟨checked, -, hfill⟩ := bind_eq_ok.mp hfill
    cases pure_eq_ok.mp hfill
    rw [List.filter_map]
    exact .single (.upsert _ read _ vectors List.filter_sublist.subset)

theorem setActive_requests (hfaithful : Faithful limited) {isActive allowIncomplete : Bool}
    {updatedCollection : Collection Score}
    (h : setActive env limited collection ownerId documentVersionId isActive allowIncomplete =
      .ok updatedCollection) :
    ∃ read', Relation.ReflTransGen (Request env chunks) ⟨some collection, read⟩
      ⟨some updatedCollection, read'⟩ := by
  unfold setActive at h
  obtain ⟨metadata, -, h⟩ := bind_eq_ok.mp h
  obtain ⟨-, h⟩ := check_bind.mp h
  obtain ⟨-, h⟩ := check_bind.mp h
  cases pure_eq_ok.mp h
  exact ⟨_, .tail
    (.single (.query collection read _ (hfaithful 0 collection maxVersionRows).1.subset))
      (.setActive collection _ _ isActive (List.subset_append_right _ _))⟩

/-- So are the other three calls of the writer. -/
theorem calls_requests (hfaithful : Faithful limited)
    (h : activateVersion env limited current ownerId documentVersionId = .ok after ∨
      deactivateVersion env limited current ownerId documentVersionId = .ok after ∨
      ∃ existed, deleteVersion env current ownerId documentVersionId = .ok (after, existed)) :
    ∃ read', Relation.ReflTransGen (Request env chunks) ⟨current, read⟩ ⟨after, read'⟩ := by
  rcases h with h | h | ⟨existed, h⟩
  · unfold activateVersion at h
    obtain ⟨-, h⟩ := ensure_bind.mp h
    cases current with
    | none => cases h
    | some collection =>
      obtain ⟨updatedCollection, hset, h⟩ := bind_eq_ok.mp h
      cases pure_eq_ok.mp h
      exact setActive_requests hfaithful hset
  · unfold deactivateVersion at h
    obtain ⟨-, h⟩ := ensure_bind.mp h
    cases current with
    | none =>
      cases pure_eq_ok.mp h
      exact ⟨read, .refl⟩
    | some collection =>
      obtain ⟨updatedCollection, hset, h⟩ := bind_eq_ok.mp h
      cases pure_eq_ok.mp h
      exact setActive_requests hfaithful hset
  · unfold deleteVersion at h
    obtain ⟨-, h⟩ := ensure_bind.mp h
    cases current with
    | none =>
      cases pure_eq_ok.mp h
      exact ⟨read, .refl⟩
    | some collection =>
      obtain ⟨metadata, -, h⟩ := bind_eq_ok.mp h
      cases pure_eq_ok.mp h
      exact ⟨read, .single (.drop collection read)⟩

end

end MilvusWriter

end ZhiyanRag.Ingestion

/-! ### Verified indexes hold what was staged -/

namespace ZhiyanRag.Ingestion

open Relational Retrieval

/-- What the metadata says, sorted or not. -/
theorem metadataGet_sorted {metadata : List (String × String)}
    (hnodup : (metadata.map Prod.fst).Nodup) {key value : String} (hmem : (key, value) ∈ metadata) :
    metadataGet metadata key = some value ∧
    metadataGet (metadata.insertionSort pairLe) key = some value := by
  have hperm := List.perm_insertionSort pairLe metadata
  exact ⟨metadataGet_of_mem hnodup hmem,
    metadataGet_of_mem ((hperm.map Prod.fst).nodup_iff.mpr hnodup) (hperm.mem_iff.mpr hmem)⟩

/-- Distinct rows, each an active payload of a chunk, as many as the chunks. -/
theorem payloads_perm {ρ : Type} {key : ρ → String} {payload : ρ → JsonObject} {rows : List ρ}
    {chunks : List ChunkRecordV1}
    (hnodup : (rows.map key).Nodup)
    (hstaged : ∀ row ∈ rows, ∃ chunk ∈ chunks, key row = chunk.chunkId ∧
      payload row = (chunk.withActive true).modelDump)
    (hlength : rows.length = chunks.length) :
    (rows.map payload).Perm (chunks.map fun chunk => (chunk.withActive true).modelDump) := by
  have hsubset : (rows.map fun row => (key row, payload row)) ⊆ chunks.map fun chunk =>
      (chunk.chunkId, (chunk.withActive true).modelDump) := by
    intro pair hpair
    obtain ⟨row, hrow, rfl⟩ := List.mem_map.mp hpair
    obtain ⟨chunk, hchunk, hkey, hpayload⟩ := hstaged row hrow
    exact List.mem_map.mpr ⟨chunk, hchunk, by rw [hkey, hpayload]⟩
  have hpairs : (rows.map fun row => (key row, payload row)).Nodup :=
    List.Nodup.of_map Prod.fst (by rw [List.map_map]; exact hnodup)
  have hperm := (List.subperm_of_subset hpairs hsubset).perm_of_length_le
    (by rw [List.length_map, List.length_map, hlength])
  have hpayloads := hperm.map Prod.snd
  rw [List.map_map, List.map_map] at hpayloads
  exact hpayloads

namespace ElasticsearchWriter

open Elasticsearch

variable {unicode : UnicodeTables} {chunksFingerprint : List JsonObject → Sha256}
  {chunks : List ChunkRecordV1} {index : Index}

theorem metadataGet_createdIndex (identity : VersionIdentity) (payloads : List JsonObject)
    {key value : String}
    (h : (key, value) ∈ [("source_chunks_sha256", (chunksFingerprint payloads).val),
      ("chunk_count", toString payloads.length)]) :
    metadataGet (createdIndex chunksFingerprint identity payloads).metadata key = some value ∧
      metadataGet ((createdIndex chunksFingerprint identity payloads).metadata.insertionSort pairLe)
        key = some value := by
  refine metadataGet_sorted ?_
    (List.mem_append_right _ (List.mem_append_left [("version_writer_schema", versionWriterSchema),
    ("owner_id", identity.ownerId), ("document_id", identity.documentId),
    ("document_version_id", identity.documentVersionId),
    ("online_entrypoint", "HIDDEN_PHYSICAL_INDEX")] h))
  show (["schema_version", "retrieval_backend", "text_analyzer", "query_mode", "section_path_boost",
    "source_chunks_sha256", "chunk_count", "version_writer_schema", "owner_id", "document_id",
    "document_version_id", "online_entrypoint"] : List String).Nodup
  decide +kernel

/-- An index that is verified for a search is active, has the metadata of the staged chunks and
holds just them. -/
theorem Written.exact (hascii : ReadsAsciiDigits unicode)
    (h : Written chunksFingerprint chunks index) {identity : VersionIdentity}
    {metadata : List (String × String)}
    (hverified : verifyOnlineVersion unicode (some index) identity = .ok metadata) :
    (∃ created, metadata =
      (createdIndex chunksFingerprint created (chunks.map (·.modelDump))).metadata) ∧
      (index.documents.rows.map (·.source)).Perm
        (chunks.map fun chunk => (chunk.withActive true).modelDump) := by
  unfold verifyOnlineVersion at hverified
  obtain ⟨found, hfound, hverified⟩ := bind_eq_ok.mp hverified
  cases hfound
  obtain ⟨inspected, hinspected, hverified⟩ := bind_eq_ok.mp hverified
  obtain ⟨-, hverified⟩ := ensure_bind.mp hverified
  obtain ⟨htotal, hverified⟩ := ensure_bind.mp hverified
  obtain ⟨hactive, hverified⟩ := ensure_bind.mp hverified
  cases pure_eq_ok.mp hverified
  have hmetadata := metadata_of_inspectIdentity hinspected
  obtain rfl : metadata = index.metadata := by
    unfold inspectIdentity at hinspected
    simp only [bind_eq_ok, pure_eq_ok] at hinspected
    obtain ⟨-, -, -, -, -, -, -, -, -, -, -, -, rfl⟩ := hinspected
    rfl
  obtain hnone | ⟨created, hcreated⟩ := h.metadata
  · have hschema := hmetadata ("owner_id", identity.ownerId) (by simp [identityMetadata])
    rw [hnone] at hschema
    cases hschema
  refine ⟨⟨created, hcreated⟩, ?_⟩
  have hcount : chunkCount? unicode index.metadata = some (chunks.length : Int) := by
    have hget : metadataGet (createdIndex chunksFingerprint created
        (chunks.map (·.modelDump))).metadata "chunk_count" =
        some (toString (chunks.map (·.modelDump)).length) :=
          (metadataGet_createdIndex created _ (List.mem_cons_of_mem _ (List.mem_cons_self ..))).1
    unfold chunkCount?
    rw [hcreated, hget, Option.bind_some, pyInt?_toString hascii, List.length_map]
  simp only [hcount, Option.getD_some, Bool.and_eq_true, decide_eq_true_eq] at htotal hactive
  have hlength : index.documents.rows.length = chunks.length := by omega
  refine payloads_perm index.documents.nodup (fun document hdocument => ?_) hlength
  obtain ⟨chunk, hchunk, active, rfl⟩ := h.documents document hdocument
  have hall : count index (activeQuery identity) = index.documents.rows.length := by omega
  have hholds := List.countP_eq_length.mp hall _ hdocument
  refine ⟨chunk, hchunk, rfl, ?_⟩
  have hget : (chunk.withActive active).modelDump.get "is_active" = .bool active :=
    ChunkRecordV1.get_modelDump (by simp [ChunkRecordV1.dumpMembers])
  simp only [activeQuery, Query.filtered, Query.holds, Query.allHold, hget, JsonValue.indexed,
    TermValue.holds, Bool.and_eq_true, List.any_cons, List.any_nil, Bool.or_false,
    decide_eq_true_eq] at hholds
  rw [hholds.1.1.2.2.2.1]

end ElasticsearchWriter

namespace MilvusWriter

open Milvus

section

variable {Score : Type} {env : Surroundings Score} {limited : Limited Score}
  {chunks : List ChunkRecordV1} {state : StoreState Score} {collection : Collection Score}

theorem metadataGet_createdMetadata (identity : VersionIdentity) (payloads : List JsonObject)
    (model : ModelIdentity) (dimension : Nat) (fingerprint : String) {key value : String}
    (h : (key, value) ∈ [("source_chunks_sha256", (env.chunksFingerprint payloads).val),
      ("chunk_count", toString payloads.length)]) :
    metadataGet (createdMetadata env identity payloads model dimension fingerprint) key =
      some value ∧
      metadataGet ((createdMetadata env identity payloads model dimension fingerprint).insertionSort
        pairLe) key = some value := by
  refine metadataGet_sorted ?_
    (List.mem_append_right _ (List.mem_append_left [("embedding_dimension", toString dimension),
    ("owner_id", identity.ownerId), ("document_id", identity.documentId),
    ("document_version_id", identity.documentVersionId),
    ("embeddings_sha256", fingerprint)] h))
  show (["schema_version", "retrieval_backend", "passage_template", "query_template",
    "vector_normalization", "metric_type", "index_type", "hnsw_m",
    "hnsw_ef_construction", "hnsw_search_ef", "input_truncation", "version_writer_schema",
    "online_entrypoint", "embedding_provider", "embedding_model",
    "embedding_model_digest", "source_chunks_sha256", "chunk_count", "embedding_dimension",
    "owner_id", "document_id", "document_version_id",
    "embeddings_sha256"] : List String).Nodup
  decide +kernel

/-- Rows that pass as complete and active are as many as the metadata says, and active. -/
theorem verifyLifecycleRows_complete {metadata : List (String × String)} {rows : List (Row Score)}
    (h : verifyLifecycleRows env metadata rows false (some true) = .ok ()) :
    (rows.length : Int) = (metadataInt? env metadata "chunk_count").getD 0 ∧ ∀ row ∈ rows,
    (row.payload.get "is_active").isTrue = true := by
  unfold verifyLifecycleRows at h
  obtain ⟨hlength, h⟩ := ensure_bind.mp h
  obtain ⟨seen, hrows, -⟩ := bind_eq_ok.mp h
  rw [Bool.and_eq_true, Bool.false_or, decide_eq_true_eq, decide_eq_true_eq] at hlength
  refine ⟨hlength.2, fun row hrow => ?_⟩
  have hactive :=
    (((foldlM_distinct fun _ _ _ => verifyLifecycleRow_eq_ok).mp hrows).2.2.2 row hrow).2
  simpa using hactive

/-- A collection that is verified for a search is active, has the metadata of the staged chunks and
holds just them. -/
theorem Written.exact (hascii : ReadsAsciiDigits env.unicode) (hfaithful : Faithful limited)
    (h : Written env chunks state) (hcollection : state.collection = some collection)
    {identity : VersionIdentity} {metadata : List (String × String)}
    (hverified : verifyOnlineVersion env limited (some collection) identity = .ok metadata) :
    (∃ created model dimension fingerprint, metadata =
      createdMetadata env created (chunks.map (·.modelDump)) model dimension fingerprint) ∧
      (collection.rows.rows.map (·.payload)).Perm
        (chunks.map fun chunk => (chunk.withActive true).modelDump) := by
  obtain ⟨created, model, dimension, fingerprint, hcreated⟩ := h.metadata collection hcollection
  have hrows := mapError_eq_ok.mp hverified
  unfold verifyOnlineRows at hrows
  obtain ⟨found, hfound, hrows⟩ := bind_eq_ok.mp hrows
  cases hfound
  obtain ⟨current, -, hrows⟩ := bind_eq_ok.mp hrows
  obtain ⟨inspected, hinspected, hrows⟩ := bind_eq_ok.mp hrows
  obtain ⟨hlifecycle, hrows⟩ := check_bind.mp hrows
  cases pure_eq_ok.mp hrows
  obtain rfl := inspectIdentity_eq_ok hinspected
  refine ⟨⟨created, model, dimension, fingerprint, hcreated⟩, ?_⟩
  have hcount : metadataInt? env collection.metadata "chunk_count" =
      some (chunks.length : Int) := by
    have hget : metadataGet (createdMetadata env created (chunks.map (·.modelDump)) model dimension
        fingerprint) "chunk_count" = some (toString (chunks.map (·.modelDump)).length) :=
      (metadataGet_createdMetadata created _ model dimension fingerprint
        (List.mem_cons_of_mem _ (List.mem_cons_self ..))).1
    unfold metadataInt?
    rw [hcreated, hget, Option.bind_some, pyInt?_toString hascii, List.length_map]
  obtain ⟨hlength, hactive⟩ := verifyLifecycleRows_complete hlifecycle
  rw [hcount, Option.getD_some] at hlength hactive
  -- the query could have returned one row more than the chunks
  have hread := (hfaithful 0 collection ((chunks.length : Int).toNat + 1)).2
  have htotal : collection.rows.rows.length = chunks.length := by omega
  have hall : (limited 0 collection ((chunks.length : Int).toNat + 1)).Perm collection.rows.rows :=
    hfaithful.perm 0 (by omega)
  refine payloads_perm collection.rows.nodup (fun row hrow => ?_) htotal
  obtain ⟨chunk, hchunk, active, hid, hpayload⟩ := h.rows collection hcollection row hrow
  refine ⟨chunk, hchunk, hid, ?_⟩
  have htrue := hactive row (hall.mem_iff.mpr hrow)
  rw [hpayload, show (chunk.withActive active).modelDump.get "is_active" = .bool active from
    ChunkRecordV1.get_modelDump (by simp [ChunkRecordV1.dumpMembers])] at htrue
  rw [hpayload, show active = true from htrue]

end

end MilvusWriter

end ZhiyanRag.Ingestion

/-! ### What is served is what was written -/

namespace ZhiyanRag.Retrieval

open Relational ZhiyanRag.Ingestion ZhiyanRag.Storage

section

open MilvusWriter (Surroundings)

variable {Score ν : Type} {env : Surroundings Score} {services : SearchServices env ν}
  {retriever : OnlineVersionRrfRetriever env.toFloatArithmetic}
  {world : SearchWorld Score} {request : SearchRequest} {routes : List OnlineVersionRoute}
  {route : OnlineVersionRoute} {chunks : List ChunkRecordV1}

theorem verifyPhysicalRoute_metadata {physical : PhysicalRoute} {name : String}
    {sorted : List (String × String)} {metadata : List (String × String)}
    (hmetadata : physical.metadata = [metadata])
    (h : verifyPhysicalRoute (.ok physical) = .ok (name, sorted)) :
    name = physical.route ∧ sorted = metadata.insertionSort pairLe := by
  unfold verifyPhysicalRoute at h
  obtain ⟨found, hfound, h⟩ := bind_eq_ok.mp h
  cases hfound
  obtain ⟨-, h⟩ := ensure_bind.mp h
  cases pure_eq_ok.mp h
  rw [hmetadata]
  exact ⟨rfl, rfl⟩

theorem inspectElasticsearch_verified {identity : VersionIdentity} {name : String}
    {sorted : List (String × String)}
    (h : verifyPhysicalRoute (inspectElasticsearch services world identity) = .ok (name, sorted)) :
    ∃ metadata, ElasticsearchWriter.verifyOnlineVersion env.unicode (world.indexes name) identity =
      .ok metadata ∧ sorted = metadata.insertionSort pairLe := by
  cases hinspected : inspectElasticsearch services world identity with
  | error e =>
    rw [hinspected] at h
    cases h
  | ok physical =>
    rw [hinspected] at h
    unfold inspectElasticsearch at hinspected
    obtain ⟨found, -, hinspected⟩ := bind_eq_ok.mp hinspected
    obtain ⟨metadata, hverified, hinspected⟩ := bind_eq_ok.mp hinspected
    cases pure_eq_ok.mp hinspected
    obtain ⟨rfl, hsorted⟩ := verifyPhysicalRoute_metadata rfl h
    exact ⟨metadata, hverified, hsorted⟩

theorem inspectMilvus_verified {identity : VersionIdentity} {name : String}
    {sorted : List (String × String)}
    (h : verifyPhysicalRoute (inspectMilvus services world identity) = .ok (name, sorted)) :
    ∃ metadata, MilvusWriter.verifyOnlineVersion env services.limited (world.collections name)
      identity = .ok metadata ∧ sorted = metadata.insertionSort pairLe := by
  cases hinspected : inspectMilvus services world identity with
  | error e =>
    rw [hinspected] at h
    cases h
  | ok physical =>
    rw [hinspected] at h
    unfold inspectMilvus at hinspected
    obtain ⟨found, -, hinspected⟩ := bind_eq_ok.mp hinspected
    obtain ⟨metadata, hverified, hinspected⟩ := bind_eq_ok.mp hinspected
    cases pure_eq_ok.mp hinspected
    obtain ⟨rfl, hsorted⟩ := verifyPhysicalRoute_metadata rfl h
    exact ⟨metadata, hverified, hsorted⟩

/-- A resolved route was verified in both stores. -/
theorem resolveRoutes_verified {ownerId : String} {documentIds : List String}
    (h : resolveRoutes services world ownerId documentIds = .ok routes) (hroute : route ∈ routes) :
    ∃ identity,
      (∃ metadata, ElasticsearchWriter.verifyOnlineVersion env.unicode
        (world.indexes route.elasticsearchIndex) identity = .ok metadata ∧
        route.elasticsearchVerificationMetadata = metadata.insertionSort pairLe) ∧
      ∃ metadata, MilvusWriter.verifyOnlineVersion env services.limited
        (world.collections route.milvusCollection) identity = .ok metadata ∧
        route.milvusVerificationMetadata = metadata.insertionSort pairLe := by
  unfold resolveRoutes at h
  obtain ⟨versions, -, h⟩ := bind_eq_ok.mp h
  obtain ⟨version, -, hinspected⟩ := exists_of_mapM_ok h hroute
  unfold inspectRoute verifyRoute at hinspected
  obtain ⟨⟨index, indexSorted⟩, hindex, hinspected⟩ := bind_eq_ok.mp (mapError_eq_ok.mp hinspected)
  obtain ⟨⟨collection, collectionSorted⟩, hcollection, hinspected⟩ := bind_eq_ok.mp hinspected
  cases pure_eq_ok.mp hinspected
  exact ⟨_, inspectElasticsearch_verified hindex, inspectMilvus_verified hcollection⟩

/-- A lexical search that gets through has compared the fingerprint of the source chunks. -/
theorem source_of_lexical {question : String} {ranking : List (RankedChunk env.toFloatArithmetic)}
    (h : searchLexicalRoute services retriever world request chunks route question = .ok ranking)
    {metadata : List (String × String)}
    (hmetadata : verifiedMetadata route.elasticsearchVerificationMetadata = some metadata) :
    metadataGet metadata "source_chunks_sha256" =
      some (sourceFingerprint env (stagedSourceChunks route chunks)) := by
  unfold searchLexicalRoute Elasticsearch.search at h
  obtain ⟨-, h⟩ := ensure_bind.mp h
  obtain ⟨-, h⟩ := ensure_bind.mp h
  obtain ⟨hsource, -⟩ := check_bind.mp h
  rw [hmetadata] at hsource
  obtain ⟨found, hfound, hsource⟩ := bind_eq_ok.mp hsource
  cases hfound
  unfold Elasticsearch.verifySourceMetadata at hsource
  obtain ⟨hsame, -⟩ := ensure_bind.mp hsource
  exact of_decide_eq_true hsame

theorem source_of_vector {question : String} {embeddings : List (String × QueryVector)}
    {ranking : List (RankedChunk env.toFloatArithmetic)}
    (h : searchVectorRoute services retriever world request chunks embeddings route question =
      .ok ranking) {metadata : List (String × String)}
    (hmetadata : verifiedMetadata route.milvusVerificationMetadata = some metadata) :
    metadataGet metadata "source_chunks_sha256" =
      some (sourceFingerprint env (stagedSourceChunks route chunks)) := by
  unfold searchVectorRoute Milvus.search at h
  obtain ⟨vector, -, h⟩ := bind_eq_ok.mp h
  obtain ⟨numbers, -, h⟩ := bind_eq_ok.mp h
  obtain ⟨-, h⟩ := ensure_bind.mp h
  obtain ⟨-, h⟩ := ensure_bind.mp h
  obtain ⟨checked, hchecked, -⟩ := bind_eq_ok.mp h
  have hchecked := mapError_eq_ok.mp hchecked
  unfold Milvus.searchMetadata at hchecked
  rw [hmetadata] at hchecked
  obtain ⟨-, hchecked⟩ := ensure_bind.mp hchecked
  obtain ⟨hsource, -⟩ := check_bind.mp hchecked
  unfold Option.elim Milvus.verifySourceMetadata at hsource
  obtain ⟨hsame, -⟩ := ensure_bind.mp hsource
  exact of_decide_eq_true hsame

/-- What is under the physical names was put there by requests of the writers, for the chunks that
were staged for the version of the name. -/
structure WrittenWorld (services : SearchServices env ν) (world : SearchWorld Score)
    (staged : IndexBackend → IdentityDigest → List ChunkRecordV1) : Prop where
  indexes : ∀ digest,
    Relation.ReflTransGen
      (ElasticsearchWriter.Request env.chunksFingerprint (staged .elasticsearch digest)) none
    (world.indexes (services.elasticsearch.indexName digest))
  collections : ∀ digest, ∃ read,
    Relation.ReflTransGen (MilvusWriter.Request env (staged .milvus digest)) ⟨none, []⟩
      ⟨world.collections (services.milvus.collectionName digest), read⟩

/-- The snapshot of a route has the fingerprint of staged chunks only if it is these chunks. -/
def CollisionFree (services : SearchServices env ν)
    (retriever : OnlineVersionRrfRetriever env.toFloatArithmetic) (world : SearchWorld Score)
    (request : SearchRequest)
    (staged : IndexBackend → IdentityDigest → List ChunkRecordV1) : Prop :=
  ∀ routes chunks, Passes services retriever world request routes chunks → ∀ route ∈ routes,
    ∀ backend digest, sourceFingerprint env (stagedSourceChunks route chunks) = sourceFingerprint
      env (staged backend digest) →
    stagedSourceChunks route chunks = staged backend digest

/-- Both indexes of the route hold the chunks, and nothing else. -/
def HoldsSnapshot (world : SearchWorld Score) (route : OnlineVersionRoute)
    (snapshot : List ChunkRecordV1) : Prop :=
  ∃ index collection, world.indexes route.elasticsearchIndex = some index ∧
    world.collections route.milvusCollection = some collection ∧
    (index.documents.rows.map (·.source)).Perm (snapshot.map (·.modelDump)) ∧
    (collection.rows.rows.map (·.payload)).Perm (snapshot.map (·.modelDump))

theorem verifiedMetadata_sorted {metadata : List (String × String)} (hne : metadata ≠ []) :
    verifiedMetadata (metadata.insertionSort pairLe) = some (metadata.insertionSort pairLe) := by
  refine if_neg fun hempty => hne ?_
  have hperm := List.perm_insertionSort pairLe metadata
  rw [List.isEmpty_iff.mp hempty] at hperm
  exact hperm.symm.eq_nil

theorem active_of_loaded {db : Database} {ownerId : String} {ids : List String}
    (h : loadOnlineChunks db ownerId ids = .ok chunks) :
    ∀ chunk ∈ chunks, chunk.isActive = true := by
  unfold loadOnlineChunks at h
  split at h
  · cases h
    exact fun chunk hchunk => absurd hchunk List.not_mem_nil
  · obtain ⟨-, h⟩ := ensure_bind.mp h
    obtain ⟨-, h⟩ := ensure_bind.mp h
    obtain ⟨-, h⟩ := ensure_bind.mp h
    obtain ⟨-, h⟩ := ensure_bind.mp h
    cases pure_eq_ok.mp h
    intro chunk hchunk
    obtain ⟨row, -, rfl⟩ := List.mem_map.mp hchunk
    rfl

/-- The staged chunks, active, are the snapshot's. -/
theorem map_active_staged (hactive : ∀ chunk ∈ chunks, chunk.isActive = true) :
    (stagedSourceChunks route chunks).map (fun chunk => (chunk.withActive true).modelDump) =
      (routeChunks route chunks).map (·.modelDump) := by
  unfold stagedSourceChunks
  rw [List.map_map]
  refine List.map_congr_left fun chunk hchunk => ?_
  have hsame : chunk.withActive true = chunk := by
    have htrue := hactive chunk (List.mem_of_mem_filter hchunk)
    cases chunk
    cases htrue
    rfl
  rw [Function.comp_apply, ChunkRecordV1.withActive_withActive, hsame]

/-- What gets through the checks of a search holds the snapshot, in both stores. -/
theorem holdsSnapshot_of_written (hascii : ReadsAsciiDigits env.unicode)
    (hfaithful : MilvusWriter.Faithful services.limited)
    {staged : IndexBackend → IdentityDigest → List ChunkRecordV1}
    (hwritten : WrittenWorld services world staged)
    (hcollisions : CollisionFree services retriever world request staged)
    (hpasses : Passes services retriever world request routes chunks)
    (hroute : route ∈ routes) : HoldsSnapshot world route (routeChunks route chunks) := by
  obtain ⟨-, hindexName, hcollectionName⟩ := resolveRoutes_routeOf hpasses.resolved route hroute
  obtain ⟨identity, ⟨indexMetadata, hindex, hindexSorted⟩, collectionMetadata, hcollection,
      hcollectionSorted⟩ :=
    resolveRoutes_verified hpasses.resolved hroute
  obtain ⟨embeddings, -, hsearchable⟩ := hpasses.searchable (List.ne_nil_of_mem hroute)
  obtain ⟨question, -, bm25, nearest, lexical, vector, hlexical, hvector⟩ :=
    hsearchable route hroute
  generalize services.identityDigest request.ownerId route.documentVersionId =
    digest at hindexName hcollectionName
  have hsnapshot (backend : IndexBackend)
      (h : some (sourceFingerprint env (staged backend digest)) =
        some (sourceFingerprint env (stagedSourceChunks route chunks))) :
      ((staged backend digest).map fun chunk => (chunk.withActive true).modelDump) =
        (routeChunks route chunks).map (·.modelDump) := by
    rw [← hcollisions routes chunks hpasses route hroute backend digest (Option.some.inj h).symm]
    exact map_active_staged (active_of_loaded (repositoryCall_ok hpasses.loaded))
  have hrequests := hwritten.indexes digest
  rw [← hindexName] at hrequests
  obtain ⟨read, hreads⟩ := hwritten.collections digest
  rw [← hcollectionName] at hreads
  cases hstored : world.indexes route.elasticsearchIndex with
  | none =>
    rw [hstored] at hindex
    cases hindex
  | some index =>
    cases hstoredCollection : world.collections route.milvusCollection with
    | none =>
      rw [hstoredCollection] at hcollection
      cases hcollection
    | some collection =>
      rw [hstored] at hindex hrequests
      rw [hstoredCollection] at hcollection hreads
      obtain ⟨⟨created, rfl⟩, hindexExact⟩ :=
        (ElasticsearchWriter.written_of_requests hrequests index rfl).exact hascii hindex
      obtain ⟨⟨created', model, dimension, fingerprint, rfl⟩, hcollectionExact⟩ :=
        (MilvusWriter.written_of_requests hreads).exact hascii hfaithful rfl hcollection
      have hlexicalVerified : verifiedMetadata route.elasticsearchVerificationMetadata =
          some route.elasticsearchVerificationMetadata := by
        rw [hindexSorted]
        exact verifiedMetadata_sorted (by simp [ElasticsearchWriter.createdIndex])
      have hvectorVerified : verifiedMetadata route.milvusVerificationMetadata =
          some route.milvusVerificationMetadata := by
        rw [hcollectionSorted]
        exact verifiedMetadata_sorted (by simp [MilvusWriter.createdMetadata])
      have hlexicalSource := source_of_lexical hlexical hlexicalVerified
      have hvectorSource := source_of_vector hvector hvectorVerified
      rw [hindexSorted,
        (ElasticsearchWriter.metadataGet_createdIndex created _ (List.mem_cons_self ..)).2]
          at hlexicalSource
      rw [hcollectionSorted,
        (MilvusWriter.metadataGet_createdMetadata created' _ model dimension fingerprint
          (List.mem_cons_self ..)).2] at hvectorSource
      refine ⟨index, collection, hstored, hstoredCollection, ?_, ?_⟩
      · exact hsnapshot .elasticsearch hlexicalSource ▸ hindexExact
      · exact hsnapshot .milvus hvectorSource ▸ hcollectionExact

/-- What such indexes offer is a chunk as it stands in the snapshot. -/
theorem HoldsSnapshot.offered {snapshot : List ChunkRecordV1}
    (h : HoldsSnapshot world route snapshot) {payload : JsonObject}
    (hoffered : Offered world request route payload) :
    ∃ chunk ∈ snapshot, chunk.modelDump = payload := by
  obtain ⟨index, collection, hindex, hcollection, hdocuments, hrows⟩ := h
  refine List.mem_map.mp ?_
  rcases hoffered.stored with ⟨stored, hstored, document, hdocument, -, rfl⟩ | ⟨stored, hstored,
    row, hrow, -, rfl⟩
  · cases hindex.symm.trans hstored
    exact hdocuments.mem_iff.mp (List.mem_map_of_mem hdocument)
  · cases hcollection.symm.trans hstored
    exact hrows.mem_iff.mp (List.mem_map_of_mem hrow)

/-- If the stores are written by the two writers alone, whatever interrupted them and in whatever
order, then a search that gets through has searched the snapshot, all of it, and serves nothing
else. -/
theorem written_indexes_exact (services : SearchServices env ν)
    (retriever : OnlineVersionRrfRetriever env.toFloatArithmetic) (world : SearchWorld Score)
    (request : SearchRequest) (staged : IndexBackend → IdentityDigest → List ChunkRecordV1)
    (hascii : ReadsAsciiDigits env.unicode)
    (hfaithful : MilvusWriter.Faithful services.limited)
    (hwritten : WrittenWorld services world staged)
    (hcollisions : CollisionFree services retriever world request staged) :
    ServesSnapshot services retriever world request ∧
      ∀ routes chunks, Passes services retriever world request routes chunks → ∀ route ∈ routes,
        HoldsSnapshot world route (routeChunks route chunks) := by
  refine ⟨StoresSnapshot.serves fun routes chunks hpasses route hroute payload hoffered => ?_,
    fun routes chunks hpasses route hroute =>
    holdsSnapshot_of_written hascii hfaithful hwritten hcollisions hpasses hroute⟩
  obtain ⟨chunk, hchunk, rfl⟩ :=
    (holdsSnapshot_of_written hascii hfaithful hwritten hcollisions hpasses hroute).offered hoffered
  exact ⟨chunk, hchunk, chunk.modelDump.equals_self⟩

end

/-! ### A version that was staged and activated -/

/-- The index of the version after its chunk was staged and activated. -/
def writtenIndex : Elasticsearch.Index :=
  ElasticsearchWriter.updated
    (ElasticsearchWriter.bulkIndex
      (ElasticsearchWriter.createdIndex exactSurroundings.chunksFingerprint
        ⟨"owner_1", "doc_1", "version_1"⟩
      ([sampleRecord].map (·.modelDump))) ([sampleRecord].map (·.modelDump)))
    (fun _ => true) true

/-- The collection before its activation. -/
def stagedCollection : Milvus.Collection Rat :=
  MilvusWriter.upsertRows
    ⟨MilvusWriter.createdMetadata exactSurroundings ⟨"owner_1", "doc_1", "version_1"⟩
      ([sampleRecord].map (·.modelDump)) ⟨"local", "m3", "d1"⟩ 1 fixedSha.val,
      Milvus.expectedFields, Table.empty⟩
    ([sampleRecord].map (·.modelDump)) [("chunk_1", [1])]

def writtenWorld : SearchWorld Rat where
  db := (History.empty.run noCoercion (fun _ => sampleSha) publishingCalls).db
  indexes name := if name = "es--v-000000000000000000000000" then some writtenIndex else none
  collections name :=
    if name = "milvus_v_000000000000000000000000"
      then some (MilvusWriter.upsertActive stagedCollection stagedCollection.rows.rows true)
        else none

theorem writtenWorld_written :
    WrittenWorld exactServices writtenWorld fun _ _ => [sampleRecord] where
  indexes digest := by
    show Relation.ReflTransGen _ none (if _ then some writtenIndex else none)
    split
    · exact .tail (.tail (.single (.create _)) (.bulk _ [sampleRecord] fun _ h => h))
        (.updateByQuery _ _ true)
    · exact .refl
  collections digest := by
    unfold writtenWorld
    dsimp only
    split
    · exact ⟨_, .tail
        (.tail (.tail (.single (.create [] _ _ 1 _)) (.upsert _ [] [sampleRecord] [("chunk_1", [1])]
          fun _ h => h))
        (.query stagedCollection [] _ fun _ h => h))
          (.setActive stagedCollection _ _ true fun _ h => h)⟩
    · exact ⟨[], .refl⟩

theorem written_indexes_exact_activated :
    ServesSnapshot exactServices sampleRetriever writtenWorld servedRequest ∧
      (∀ routes chunks, Passes exactServices sampleRetriever writtenWorld servedRequest routes
        chunks → ∀ route ∈ routes, HoldsSnapshot writtenWorld route (routeChunks route chunks)) ∧
      foundTexts (sampleRetriever.search exactServices writtenWorld servedRequest) =
        some [some "text"] := by
  have hascii : ReadsAsciiDigits exactSurroundings.unicode := asciiTables_readsAsciiDigits
  have hfaithful : MilvusWriter.Faithful exactServices.limited := fun _ _ _ =>
    ⟨(List.take_sublist _ _).subperm, List.length_take⟩
  have hcollisions : CollisionFree exactServices sampleRetriever writtenWorld servedRequest
      fun _ _ => [sampleRecord] := by
    intro routes chunks hpasses route hroute backend digest _
    have hkeys : routeKeys writtenWorld = some [("owner_1", "doc_1", "version_1")] := by
      decide +kernel
    unfold stagedSourceChunks
    rw [(published_snapshot rfl hkeys hpasses.resolved hpasses.loaded).2 route hroute]
    rfl
  obtain ⟨hserves, hholds⟩ := written_indexes_exact exactServices sampleRetriever writtenWorld
    servedRequest (fun _ _ => [sampleRecord]) hascii hfaithful writtenWorld_written hcollisions
  exact ⟨hserves, hholds, by decide +kernel⟩

end ZhiyanRag.Retrieval
