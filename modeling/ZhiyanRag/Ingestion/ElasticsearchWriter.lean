import ZhiyanRag.Ingestion.StagedRows
import ZhiyanRag.Retrieval.Milvus

/-!
# The Elasticsearch version writer

`ElasticsearchVersionIndexWriter` on the physical index of one version: `ensure_staged` with its
counts and multi-gets, and the two changes of activity. The store answers faithfully, and what it
holds beforehand is arbitrary. A receipt of this writer is sound (`ensureStaged_sound`).
-/

namespace ZhiyanRag.Ingestion.ElasticsearchWriter

open Relational Retrieval Elasticsearch

/-! ### The writer -/

/-- `VERSION_WRITER_SCHEMA`. -/
def versionWriterSchema : String := "elasticsearch_version_writer_v1"

/-- `_EXPECTED_PROPERTY_TYPES`. -/
def expectedPropertyTypes : List (String × String) :=
  [("chunk_id", "keyword"), ("document_id", "keyword"), ("version_id", "keyword"), ("text", "text"),
    ("section_path", "text"), ("tenant_id", "keyword"), ("visibility", "keyword"),
    ("library_scope_ids", "keyword"),
    ("is_active", "boolean")]

/-- The properties of `_mapping`. -/
def mappingProperties : List (String × String) :=
  [("chunk_id", "keyword"), ("document_id", "keyword"), ("version_id", "keyword"), ("text", "text"),
    ("section_path", "text"), ("page_start", "integer"), ("page_end", "integer"),
    ("parent_chunk_id", "keyword"),
    ("previous_chunk_id", "keyword"), ("next_chunk_id", "keyword"), ("tenant_id", "keyword"),
    ("visibility", "keyword"),
    ("library_scope_ids", "keyword"), ("parse_version", "keyword"),
    ("embedding_version", "keyword"),
    ("is_active", "boolean")]

/-- `_validate_stage`. -/
def validateStage (identity : VersionIdentity) (chunks : List JsonObject) :
    Except PyError Unit := do
  ensure (validIdentity identity.ownerId identity.documentVersionId) .valueError
    "owner_id and document_version_id must be valid contract IDs"
  ensure (contractIdPattern identity.documentId && !chunks.isEmpty) .valueError
    "document_id must be valid and chunks must not be empty"
  validateChunks chunks
  ensure (chunks.all identity.stages) .valueError
    "Elasticsearch staged chunks must match identity and remain inactive"

/-- What the metadata says of every index of the version. -/
def identityMetadata (ownerId documentVersionId : String) : List (String × String) :=
  indexConfiguration ++ [("version_writer_schema", versionWriterSchema), ("owner_id", ownerId),
    ("document_version_id", documentVersionId), ("online_entrypoint", "HIDDEN_PHYSICAL_INDEX")]

section

variable (unicode : UnicodeTables)

/-- `int(metadata["chunk_count"])`. -/
def chunkCount? (metadata : List (String × String)) : Option Int :=
  (metadataGet metadata "chunk_count").bind (pyInt? unicode)

/-- `_inspect_identity`, with everything that is expected of the metadata. -/
def inspectIdentity (index : Index) (expected : List (String × String)) :
    Except PyError (List (String × String)) := do
  ensure index.hidden .indexNotReadyError "Elasticsearch version index hidden setting drift"
  expected.forM fun member =>
    ensure (decide (metadataGet index.metadata member.1 = some member.2)) .indexNotReadyError
      s!"Elasticsearch version index {member.1} identity drift"
  ensure (decide (index.dynamic = "strict")) .indexNotReadyError
    "Elasticsearch version index strict mapping drift"
  expectedPropertyTypes.forM fun member =>
    ensure (decide (index.properties.lookup member.1 = some member.2)) .indexNotReadyError
      s!"Elasticsearch version index {member.1} mapping drift"
  let count ← (chunkCount? unicode index.metadata).elim
    (.error (notReady "Elasticsearch version index chunk_count is invalid")) .ok
  ensure (decide (1 ≤ count) &&
    (metadataGet index.metadata "source_chunks_sha256").any sha256Pattern) .indexNotReadyError
      "Elasticsearch version index source identity is invalid"
  return index.metadata

end

/-- `_count`. -/
def count (index : Index) (query : Query) : Nat :=
  index.documents.rows.countP fun document => query.holds document.source

/-- `_identity_query`. -/
def identityQuery (ownerId documentVersionId : String) : Query :=
  .filtered [.term "tenant_id" (.str ownerId), .term "version_id" (.str documentVersionId)]

/-- The query of `_verify_owned_count`. -/
def ownedQuery (identity : VersionIdentity) : Query :=
  .filtered [.term "tenant_id" (.str identity.ownerId),
    .term "document_id" (.str identity.documentId),
    .term "version_id" (.str identity.documentVersionId)]

/-- The `active_query` of `_verify_online_counts`. -/
def activeQuery (identity : VersionIdentity) : Query :=
  .filtered [.term "tenant_id" (.str identity.ownerId),
    .term "document_id" (.str identity.documentId),
    .term "version_id" (.str identity.documentVersionId), .term "is_active" (.bool true)]

/-- `_verify_owned_count`. -/
def verifyOwnedCount (index : Index) (identity : VersionIdentity) (expectedCount : Nat)
    (allowIncomplete : Bool) : Except PyError Nat := do
  let total := index.documents.rows.length
  ensure (decide (total = count index (ownedQuery identity)) && decide (total ≤ expectedCount))
    .indexNotReadyError "Elasticsearch version index contains foreign or excess chunks"
  ensure (allowIncomplete || decide (total = expectedCount)) .indexNotReadyError
    "Elasticsearch version index chunk count does not match metadata"
  return total

/-- One document of `_mget`, against its chunk. -/
def verifySourcePayload (allowMissing : Bool) (chunk : JsonObject) :
    Option Document → Except PyError Unit
  | none =>
    ensure allowMissing .indexNotReadyError
      "Elasticsearch version index source payload identity drift"
  | some document => do
    ensure (document.source.get "is_active").isBool .indexNotReadyError
      "Elasticsearch version index active state is invalid"
    ensure ((withActive document.source false).equals chunk) .indexNotReadyError
      "Elasticsearch version index source payload drift"

/-- `_verify_source_payloads`. -/
def verifySourcePayloads (index : Index) (chunks : List JsonObject) (allowMissing : Bool) :
    Except PyError Unit :=
  chunks.forM fun chunk => verifySourcePayload allowMissing chunk
    (index.documents.find? (chunkIdOf chunk))

/-- `_bulk_index`. -/
def bulkIndex (index : Index) (chunks : List JsonObject) : Index :=
  { index with
    documents := chunks.foldl (fun documents chunk => documents.upsert ⟨chunkIdOf chunk, chunk⟩)
      index.documents }

/-- A partial index is filled, after its rows were verified. -/
def fillIndex (index : Index) (identity : VersionIdentity) (chunks : List JsonObject)
    (currentCount : Nat) : Except PyError Index :=
  if currentCount < chunks.length then do
    verifySourcePayloads index chunks true
    let filled := bulkIndex index chunks
    let _ ← verifyOwnedCount filled identity chunks.length false
    return filled
  else .ok index

/-- The hidden index that is created for the chunks. -/
def createdIndex (chunksFingerprint : List JsonObject → Sha256) (identity : VersionIdentity)
    (chunks : List JsonObject) : Index where
  hidden := true
  dynamic := "strict"
  properties := mappingProperties
  metadata := indexConfiguration ++ [("source_chunks_sha256", (chunksFingerprint chunks).val),
    ("chunk_count", toString chunks.length), ("version_writer_schema", versionWriterSchema),
    ("owner_id", identity.ownerId), ("document_id", identity.documentId),
    ("document_version_id", identity.documentVersionId),
    ("online_entrypoint", "HIDDEN_PHYSICAL_INDEX")]
  documents := Table.empty

/-- What `ensure_staged` expects of the metadata. -/
def stagedMetadata (chunksFingerprint : List JsonObject → Sha256) (identity : VersionIdentity)
    (chunks : List JsonObject) :
    List (String × String) :=
  identityMetadata identity.ownerId identity.documentVersionId ++
    [("document_id", identity.documentId), ("source_chunks_sha256", (chunksFingerprint chunks).val),
      ("chunk_count", toString chunks.length)]

section

variable (unicode : UnicodeTables) (chunksFingerprint : List JsonObject → Sha256)

/-- `ensure_staged`: the index it leaves, and the receipt. -/
def ensureStaged (current : Option Index) (identity : VersionIdentity) (chunks : List JsonObject) :
    Except PyError (Index × IndexWriteReceipt) := do
  validateStage identity chunks
  let index := current.getD (createdIndex chunksFingerprint identity chunks)
  let metadata ← inspectIdentity unicode index (stagedMetadata chunksFingerprint identity chunks)
  let currentCount ← verifyOwnedCount index identity chunks.length true
  let staged ← fillIndex index identity chunks currentCount
  verifySourcePayloads staged chunks false
  return (staged, ⟨.elasticsearch, identity.ownerId, identity.documentVersionId,
    ((chunkCount? unicode metadata).getD 0).toNat,
    (metadataGet metadata "source_chunks_sha256").getD ""⟩)

/-- `_set_active` on an existing index: `_update_by_query`, and the count of what now has the state.
-/
def setActive (index : Index) (ownerId documentVersionId : String) (isActive : Bool) :
    Except PyError Index := do
  let metadata ← inspectIdentity unicode index (identityMetadata ownerId documentVersionId)
  let updated := { index with
    documents := index.documents.mapRows (fun document =>
      if (identityQuery ownerId documentVersionId).holds document.source then
        { document with source := withActive document.source isActive }
      else document) fun document => by split <;> rfl }
  let matching :=
    count updated (.filtered [identityQuery ownerId documentVersionId,
      .term "is_active" (.bool isActive)])
  ensure (decide ((matching : Int) = (chunkCount? unicode metadata).getD 0)) .indexNotReadyError
    "Elasticsearch version active-state count does not match metadata"
  return updated

/-- `activate_version`. -/
def activateVersion (current : Option Index) (ownerId documentVersionId : String) :
    Except PyError (Option Index) := do
  ensure (validIdentity ownerId documentVersionId) .valueError
    "owner_id and document_version_id must be valid contract IDs"
  match current with
  | none => .error (notReady "Elasticsearch version index does not exist")
  | some index => return some (← setActive unicode index ownerId documentVersionId true)

/-- `deactivate_version`. -/
def deactivateVersion (current : Option Index) (ownerId documentVersionId : String) :
    Except PyError (Option Index) := do
  ensure (validIdentity ownerId documentVersionId) .valueError
    "owner_id and document_version_id must be valid contract IDs"
  match current with
  | none => return none
  | some index => return some (← setActive unicode index ownerId documentVersionId false)

/-- `verify_online_version`, on the index of the name if there is one: the metadata for the sink.
The counts are those of `_verify_online_counts`. -/
def verifyOnlineVersion (current : Option Index) (identity : VersionIdentity) :
    Except PyError (List (String × String)) := do
  let index ← current.elim (.error (notReady "Elasticsearch request failed")) .ok
  let metadata ← inspectIdentity unicode index
    (identityMetadata identity.ownerId identity.documentVersionId ++
      [("document_id", identity.documentId)])
  let expectedCount := (chunkCount? unicode metadata).getD 0
  let total : Int := index.documents.rows.length
  let owned : Int := count index (ownedQuery identity)
  let active : Int := count index (activeQuery identity)
  ensure (decide (total ≤ expectedCount) && decide (owned ≤ expectedCount)) .indexNotReadyError
    "Elasticsearch version index online counts exceed metadata"
  ensure (decide (total = owned) && decide (total = expectedCount)) .indexNotReadyError
    "Elasticsearch version index contains foreign or excess chunks"
  ensure (decide (active = expectedCount)) .indexNotReadyError
    "Elasticsearch online version is not fully active"
  return metadata

end

/-! ### What staging leaves -/

/-- The rows of an index, none of an absent one. -/
def documentRows (current : Option Index) : List (String × JsonObject) :=
  (current.elim [] (·.documents.rows)).map fun document => (document.id, document.source)

theorem distinct_of_validateChunksFrom {chunks : List JsonObject} {position : Nat}
    {seen : List String} (h : validateChunksFrom position seen chunks = .ok ()) :
    (chunks.map chunkIdOf).Nodup ∧ ∀ id ∈ chunks.map chunkIdOf, id ∉ seen := by
  induction chunks generalizing position seen with
  | nil => simp
  | cons chunk chunks ih =>
    unfold validateChunksFrom at h
    simp only [check_bind, ensure_eq_ok] at h
    obtain ⟨-, hseen, -, hrest⟩ := h
    obtain ⟨hdistinct, hfresh⟩ := ih hrest
    have hnew : chunkIdOf chunk ∉ seen := by simpa [chunkIdOf] using hseen
    rw [List.map_cons, List.nodup_cons]
    refine ⟨⟨fun hmem => hfresh _ hmem List.mem_cons_self, hdistinct⟩, ?_⟩
    intro id hid
    rcases List.mem_cons.mp hid with rfl | hid
    · exact hnew
    · exact fun hmem => hfresh id hid (List.mem_cons_of_mem _ hmem)

theorem distinct_of_validateStage {identity : VersionIdentity} {chunks : List JsonObject}
    (h : validateStage identity chunks = .ok ()) : (chunks.map chunkIdOf).Nodup := by
  unfold validateStage at h
  simp only [check_bind] at h
  obtain ⟨-, -, hchunks, -⟩ := h
  exact (distinct_of_validateChunksFrom hchunks).1

theorem verifySourcePayload_eq_ok {allowMissing : Bool} {chunk : JsonObject}
    {found : Option Document} : verifySourcePayload allowMissing chunk found = .ok () ↔
      (found = none → allowMissing = true) ∧ ∀ document, found = some document →
      matchesChunk document.source chunk = true := by
  cases found with
  | none => simp [verifySourcePayload]
  | some document => simp [verifySourcePayload, matchesChunk, ensure_bind]

theorem verifyOwnedCount_eq_ok {index : Index} {identity : VersionIdentity}
    {expectedCount total : Nat} {allowIncomplete : Bool}
    (h : verifyOwnedCount index identity expectedCount allowIncomplete = .ok total) :
    total = index.documents.rows.length ∧ total ≤ expectedCount ∧
    (allowIncomplete = false → total = expectedCount) := by
  unfold verifyOwnedCount at h
  simp only [ensure_bind, pure_eq_ok] at h
  obtain ⟨howned, hcomplete, rfl⟩ := h
  rw [Bool.and_eq_true, decide_eq_true_eq, decide_eq_true_eq] at howned
  refine ⟨rfl, howned.2, fun hallow => ?_⟩
  simpa [hallow] using hcomplete

/-- An index with one document per chunk that passes the final multi-get holds exactly the chunks.
-/
theorem holdsExactly_of_verified {index : Index} {chunks : List JsonObject}
    (hdistinct : (chunks.map chunkIdOf).Nodup)
    (hlength : index.documents.rows.length = chunks.length)
    (h : verifySourcePayloads index chunks false = .ok ()) :
    HoldsExactly (documentRows (some index)) chunks := by
  have hverified := forM_eq_ok.mp h
  apply HoldsExactly.of_length hdistinct
  · simpa [documentRows] using hlength
  · intro chunk hchunk
    obtain ⟨hfound, hmatches⟩ := verifySourcePayload_eq_ok.mp (hverified chunk hchunk)
    obtain ⟨document, hdocument⟩ : ∃ document, index.documents.find? (chunkIdOf chunk) =
        some document := by
      by_contra hnone
      exact absurd (hfound (Option.eq_none_iff_forall_ne_some.mpr fun d hd => hnone ⟨d, hd⟩))
        (by decide)
    obtain ⟨hmem, hid⟩ := Table.find?_eq_some_iff.mp hdocument
    refine ⟨document.source, ?_, hmatches document hdocument⟩
    rw [← hid]
    exact List.mem_map_of_mem (f := fun d : Document => (d.id, d.source)) hmem
  · have hkeys := index.documents.nodup
    unfold documentRows
    rwa [List.map_map]

/-- Filling a partial index keeps its identifiers and adds those of the chunks. -/
theorem mem_identifiers_bulkIndex {index : Index} {chunks : List JsonObject} {id : String} :
    id ∈ (bulkIndex index chunks).documents.rows.map Document.id ↔
      (∃ chunk ∈ chunks, chunkIdOf chunk = id) ∨ id ∈ index.documents.rows.map Document.id :=
  Table.mem_keys_upserts

/-- After a verified staging every row of the index belonged to a chunk before, and the index holds
exactly the chunks. -/
theorem fillIndex_sound {index staged : Index} {identity : VersionIdentity}
    {chunks : List JsonObject} {total : Nat} (hdistinct : (chunks.map chunkIdOf).Nodup)
    (hcount : verifyOwnedCount index identity chunks.length true = .ok total)
    (hfill : fillIndex index identity chunks total = .ok staged)
    (hverify : verifySourcePayloads staged chunks false = .ok ()) :
    HoldsExactly (documentRows (some staged)) chunks ∧ ∀ row ∈ documentRows (some index),
      Intact chunks row := by
  obtain ⟨htotal, hle, -⟩ := verifyOwnedCount_eq_ok hcount
  unfold fillIndex at hfill
  split at hfill
  · simp only [bind_eq_ok, pure_eq_ok] at hfill
    obtain ⟨⟨⟩, hpartial, n, hfull, rfl⟩ := hfill
    obtain ⟨hn, -, hcomplete⟩ := verifyOwnedCount_eq_ok hfull
    have hexact := holdsExactly_of_verified hdistinct (hn.symm.trans (hcomplete rfl)) hverify
    refine ⟨hexact, fun row hrow => ?_⟩
    obtain ⟨document, hdocument, rfl⟩ := List.mem_map.mp hrow
    -- the identifier is still there after the bulk request, so it is that of a chunk
    have hstaged : document.id ∈ (documentRows (some (bulkIndex index chunks))).map Prod.fst := by
      unfold documentRows
      rw [List.map_map]
      exact mem_identifiers_bulkIndex.mpr (.inr (List.mem_map_of_mem hdocument))
    obtain ⟨chunk, hchunk, hid⟩ := List.mem_map.mp (hexact.identifiers.mem_iff.mp hstaged)
    have hfound : index.documents.find? (chunkIdOf chunk) = some document :=
      Table.find?_eq_some_iff.mpr ⟨hdocument, hid.symm⟩
    exact ⟨chunk, hchunk, hid.symm,
      (verifySourcePayload_eq_ok.mp (forM_eq_ok.mp hpartial chunk hchunk)).2 document hfound⟩
  · cases hfill
    have hexact := holdsExactly_of_verified hdistinct (by omega) hverify
    exact ⟨hexact, hexact.intact⟩

/-- A receipt of the Elasticsearch writer is sound. -/
theorem ensureStaged_sound (unicode : UnicodeTables) (chunksFingerprint : List JsonObject → Sha256)
    (current : Option Index) (identity : VersionIdentity) (chunks : List JsonObject) :
    ReceiptSound (documentRows current) chunks
      ((ensureStaged unicode chunksFingerprint current identity chunks).map
        fun staged => (documentRows (some staged.1), staged.2)) := by
  refine ReceiptSound.of_ok (fun index => documentRows (some index)) fun staged receipt h => ?_
  unfold ensureStaged at h
  simp only [bind_eq_ok, pure_eq_ok] at h
  obtain ⟨⟨⟩, hstage, metadata, -, total, hcount, filled, hfill, ⟨⟩, hverify, hresult⟩ := h
  cases hresult
  obtain ⟨hexact, hprior⟩ := fillIndex_sound (distinct_of_validateStage hstage) hcount hfill hverify
  refine ⟨hexact, fun row hrow => ?_⟩
  cases current with
  | none => simp [documentRows] at hrow
  | some index => exact hprior row hrow

/-! ### Deactivation -/

/-- What an interrupted staging or activation leaves: the metadata is as `ensure_staged` expects it,
and each document is one of the chunks, active or not. -/
structure PartlyStaged (unicode : UnicodeTables) (chunksFingerprint : List JsonObject → Sha256)
    (identity : VersionIdentity) (chunks : List JsonObject) (index : Index) : Prop where
  valid : validateStage identity chunks = .ok ()
  metadata : inspectIdentity unicode index (stagedMetadata chunksFingerprint identity chunks) =
    .ok index.metadata
  documents : ∀ document ∈ index.documents.rows, ∃ chunk ∈ chunks, ∃ active,
    document = ⟨chunkIdOf chunk, withActive chunk active⟩

/-- The index with every document inactive. -/
def deactivated (index : Index) : Index :=
  { index with
    documents := index.documents.mapRows
      (fun document => { document with source := withActive document.source false }) fun _ => rfl }

section

variable {unicode : UnicodeTables} {chunksFingerprint : List JsonObject → Sha256}
  {identity : VersionIdentity} {chunks : List JsonObject} {index : Index}

theorem metadata_of_inspectIdentity {expected metadata : List (String × String)}
    (h : inspectIdentity unicode index expected = .ok metadata) :
    ∀ member ∈ expected, metadataGet index.metadata member.1 = some member.2 := by
  unfold inspectIdentity at h
  simp only [bind_eq_ok] at h
  obtain ⟨⟨⟩, -, ⟨⟩, hexpected, -⟩ := h
  intro member hmember
  simpa using forM_eq_ok.mp hexpected member hmember

/-- An index that meets some expectations meets fewer. -/
theorem inspectIdentity_subset {expected fewer metadata : List (String × String)}
    (hsub : fewer ⊆ expected) (h : inspectIdentity unicode index expected = .ok metadata) :
    inspectIdentity unicode index fewer = .ok metadata := by
  have hmetadata := metadata_of_inspectIdentity h
  unfold inspectIdentity at h ⊢
  simp only [bind_eq_ok] at h ⊢
  obtain ⟨⟨⟩, hhidden, ⟨⟩, -, hrest⟩ := h
  refine ⟨(), hhidden, (), forM_eq_ok.mpr fun member hmember => ?_, hrest⟩
  simpa using hmetadata member (hsub hmember)

/-- The metadata counts the chunks. -/
theorem PartlyStaged.chunkCount (hascii : ReadsAsciiDigits unicode)
    (h : PartlyStaged unicode chunksFingerprint identity chunks index) :
    chunkCount? unicode index.metadata = some (chunks.length : Int) := by
  have hcount := metadata_of_inspectIdentity h.metadata ("chunk_count", toString chunks.length)
    (by simp [stagedMetadata])
  unfold chunkCount?
  rw [hcount, Option.bind_some, pyInt?_toString hascii]

theorem stages_of_validateStage (h : validateStage identity chunks = .ok ()) :
    ∀ chunk ∈ chunks, identity.stages chunk = true := by
  unfold validateStage at h
  simp only [check_bind, ensure_eq_ok] at h
  obtain ⟨-, -, -, hstages⟩ := h
  exact List.all_eq_true.mp hstages

/-- A payload of the owner and the version is found by the identity query. -/
theorem identityQuery_holds {payload : JsonObject}
    (howner : payload.get "tenant_id" = .str identity.ownerId)
    (hversion : payload.get "version_id" = .str identity.documentVersionId) :
    (identityQuery identity.ownerId identity.documentVersionId).holds payload = true := by
  simp [identityQuery, Query.filtered, Query.holds, Query.allHold, Query.noneHolds,
    Query.countHolds, howner, hversion, JsonValue.indexed, TermValue.holds, JsonValue.str?]

/-- The documents of a partly staged index are the owner's and the version's. -/
theorem PartlyStaged.identified (h : PartlyStaged unicode chunksFingerprint identity chunks index)
    {document : Document} (hdocument : document ∈ index.documents.rows) :
    document.source.get "tenant_id" = .str identity.ownerId ∧
      document.source.get "version_id" = .str identity.documentVersionId := by
  obtain ⟨chunk, hchunk, active, rfl⟩ := h.documents document hdocument
  have hstages := stages_of_validateStage h.valid chunk hchunk
  unfold VersionIdentity.stages at hstages
  simp only [Bool.and_eq_true, decide_eq_true_eq, JsonValue.str?_eq_some] at hstages
  obtain ⟨⟨⟨⟨howner, -⟩, hversion⟩, -⟩, -⟩ := hstages
  exact ⟨(get_withActive _ _ (by decide)).trans howner,
    (get_withActive _ _ (by decide)).trans hversion⟩

/-- Every document of a partly staged index is counted once it is inactive. -/
theorem PartlyStaged.count_deactivated
    (h : PartlyStaged unicode chunksFingerprint identity chunks index) :
    count (deactivated index) (.filtered [identityQuery identity.ownerId identity.documentVersionId,
      .term "is_active" (.bool false)]) = index.documents.rows.length := by
  unfold count deactivated
  rw [Table.rows_mapRows, List.countP_map, List.countP_eq_length]
  intro document hdocument
  obtain ⟨howner, hversion⟩ := h.identified hdocument
  have hidentity :
      (identityQuery identity.ownerId identity.documentVersionId).holds
        (withActive document.source false) =
      true :=
    identityQuery_holds ((get_withActive _ _ (by decide)).trans howner)
      ((get_withActive _ _ (by decide)).trans hversion)
  simp [Query.filtered, Query.holds, Query.allHold, Query.noneHolds, Query.countHolds, hidentity,
    JsonValue.indexed, TermValue.holds]

/-- On a partly staged index the update reaches every document, and the count has to be that of the
chunks. -/
theorem setActive_partlyStaged (hascii : ReadsAsciiDigits unicode)
    (h : PartlyStaged unicode chunksFingerprint identity chunks index) :
    setActive unicode index identity.ownerId identity.documentVersionId false =
      if index.documents.rows.length = chunks.length then .ok (deactivated index)
      else .error (notReady
        "Elasticsearch version active-state count does not match metadata") := by
  have hinspect :
      inspectIdentity unicode index (identityMetadata identity.ownerId identity.documentVersionId) =
        .ok index.metadata := inspectIdentity_subset (List.subset_append_left _ _) h.metadata
  have hupdated : ({ index with
      documents := index.documents.mapRows (fun document =>
        if (identityQuery identity.ownerId identity.documentVersionId).holds document.source then
          { document with source := withActive document.source false }
        else document) fun document => by split <;> rfl } : Index) = deactivated index := by
    unfold deactivated
    congr 1
    apply Table.ext
    exact List.map_congr_left fun document hdocument =>
      if_pos (identityQuery_holds (h.identified hdocument).1 (h.identified hdocument).2)
  unfold setActive
  rw [hinspect]
  show (ensure (decide ((count _ _ : Int) = (chunkCount? unicode index.metadata).getD 0)) _ _ >>=
    fun _ => _) = _
  rw [hupdated, h.count_deactivated, h.chunkCount hascii, Option.getD_some]
  by_cases hlength : index.documents.rows.length = chunks.length
  · rw [if_pos hlength, ensure_true_bind (decide_eq_true (by omega))]
    rfl
  · rw [if_neg hlength, decide_eq_false (by omega)]
    rfl

end

end ZhiyanRag.Ingestion.ElasticsearchWriter
