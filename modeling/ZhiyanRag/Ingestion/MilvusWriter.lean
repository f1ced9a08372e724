import ZhiyanRag.Ingestion.StagedRows
import ZhiyanRag.Retrieval.Milvus

/-!
# The Milvus version writer

`MilvusVersionIndexWriter` on the collection of one version. What is there is read by one query with
the limit `MAX_VERSION_ROWS`, which is also the largest number of chunks a version may have, so a
collection of more rows can show exactly the chunks of a version of that size and hide the others
(`Overfull`). Where that is not so, a receipt is sound.
-/

namespace ZhiyanRag.Ingestion.MilvusWriter

open Relational Retrieval Milvus

/-! ### The writer -/

def versionWriterSchema : String := "milvus_version_writer_v1"

/-- The members of `expected` in `_inspect_identity` that are the same for every version. -/
def expectedConfiguration : List (String × String) :=
  collectionConfiguration ++
    [("input_truncation", "provider_enabled_v1"), ("version_writer_schema", versionWriterSchema),
      ("online_entrypoint", "DETACHED_VERSION_COLLECTION")]

/-- What the writer is built over: the embedding provider, whose calls are numbered, and the number
formats. -/
structure Surroundings (Score : Type) extends VectorArithmetic Score where
  unicode : UnicodeTables
  identity : Nat → Except PyError ModelIdentity
  embed : Nat → List String → Except PyError (List (List Score))
  toFloat32 : Score → Except PyError Score
  chunksFingerprint : List JsonObject → Sha256
  embeddingsSha256 : List (String × List Score) → Sha256

/-- What the store answers: the rows of its n-th query with a limit. -/
abbrev Limited (Score : Type) := Nat → Collection Score → Nat → List (Row Score)

/-- A limited query returns some of the rows, as many as there are up to the limit. -/
def Faithful {Score : Type} (limited : Limited Score) : Prop :=
  ∀ call collection limit, (limited call collection limit).Subperm collection.rows.rows ∧
    (limited call collection limit).length = min limit collection.rows.rows.length

/-- `_validate_stage`. -/
def validateStage (identity : VersionIdentity) (chunks : List JsonObject) :
    Except PyError Unit := do
  ensure (validIdentity identity.ownerId identity.documentVersionId) .valueError
    "owner_id and document_version_id must be valid contract IDs"
  ensure (contractIdPattern identity.documentId && !chunks.isEmpty &&
    decide (chunks.length ≤ maxVersionRows)) .valueError
      "document_id and Milvus version chunk count are invalid"
  validateChunks chunks
  ensure (chunks.all fun chunk => contractIdPattern (chunkIdOf chunk) && identity.stages chunk)
    .valueError "Milvus staged chunks must match identity and remain inactive"

section

variable {Score : Type} (env : Surroundings Score)

/-- `int(metadata[key])`. -/
def metadataInt? (metadata : List (String × String)) (key : String) : Option Int :=
  (metadataGet metadata key).bind (pyInt? env.unicode)

/-- What is expected of the provider's members in the metadata. -/
def providerMetadata (identity : ModelIdentity) : List (String × String) :=
  [("embedding_provider", identity.provider), ("embedding_model", identity.model),
    ("embedding_model_digest", identity.digest)]

/-- What is expected of the owner's and the version's members. -/
def identityMetadata (ownerId documentVersionId : String) : List (String × String) :=
  expectedConfiguration ++ [("owner_id", ownerId), ("document_version_id", documentVersionId)]

/-- `_inspect_identity`, with everything that is expected of the metadata. -/
def inspectIdentity (collection : Collection Score) (expected : List (String × String)) :
    Except PyError (List (String × String)) := do
  let metadata := collection.metadata
  expected.forM fun member =>
    ensure (decide (metadataGet metadata member.1 = some member.2)) .indexNotReadyError
      s!"Milvus version collection {member.1} identity drift"
  ensure (decide (collection.fields.dedup.Perm expectedFields)) .indexNotReadyError
    "Milvus version collection schema drift"
  ensure ((metadataInt? env metadata "chunk_count").any fun count =>
      (metadataInt? env metadata "embedding_dimension").any fun dimension =>
        decide (1 ≤ count) && decide (count ≤ (maxVersionRows : Int)) && decide (1 ≤ dimension))
          .indexNotReadyError
    "Milvus version collection count or dimension is invalid"
  ensure ((metadataGet metadata "document_id").any contractIdPattern) .indexNotReadyError
    "Milvus version collection document_id is invalid"
  ["embedding_provider", "embedding_model", "embedding_model_digest"].forM fun key =>
    ensure ((metadataGet metadata key).any (· ≠ "")) .indexNotReadyError
      s!"Milvus version collection {key} is missing"
  ["source_chunks_sha256", "embeddings_sha256"].forM fun key =>
    ensure ((metadataGet metadata key).any sha256Pattern) .indexNotReadyError
      s!"Milvus version collection {key} is invalid"
  return metadata

/-! ### Embeddings -/

/-- `_passage_text`. -/
def passageText (chunk : JsonObject) : String :=
  ((chunk.get "section_path").str?.getD "") ++ "\n" ++ ((chunk.get "text").str?.getD "")

/-- `_float32_vector`. -/
def float32Vector (vector : List Score) : Except PyError (List Score) := do
  let normalized ← normalize env.toVectorArithmetic vector
  normalized.mapM env.toFloat32

/-- `_embed_chunks`, by the provider's n-th call. -/
def embedChunks (call : Nat) (chunks : List JsonObject) :
    Except PyError (List (String × List Score)) := do
  let vectors ← env.embed call (chunks.map passageText)
  ensure (decide (vectors.length = chunks.length)) .valueError
    "embedding count does not match chunk count"
  let normalized ← vectors.mapM (float32Vector env)
  ensure (decide ((normalized.map List.length).dedup.length = 1)) .valueError
    "embedding dimensions are inconsistent"
  return (chunks.map chunkIdOf).zip normalized

/-- `_embeddings_fingerprint`, of vectors under distinct identifiers. -/
def embeddingsFingerprint (vectors : List (String × List Score)) : Except PyError String := do
  let canonical := vectors.insertionSort fun a b => a.1 ≤ b.1
  ensure (canonical.all fun member => !member.2.isEmpty && member.2.all env.isFinite)
    .indexNotReadyError "Milvus version embedding is invalid"
  return (env.embeddingsSha256 canonical).val

/-- `list(a) == list(b)` of finite vectors. -/
def sameVector (a b : List Score) : Bool :=
  decide (a.length = b.length) && (a.zip b).all fun pair => env.le pair.1 pair.2 &&
    env.le pair.2 pair.1

/-! ### Rows -/

/-- `_validated_row`. A row has a field for each column of the schema, each of its column's type. -/
def validatedRow (metadata : List (String × String)) (row : Row Score) : Except PyError Unit := do
  ensure (decide (metadataInt? env metadata "embedding_dimension" =
    some (row.embedding.length : Int)) &&
      row.embedding.all env.isFinite) .indexNotReadyError "Milvus version row payload is invalid"
  ensure (decide ((row.payload.get "chunk_id").str? = some row.chunkId) &&
      decide ((row.payload.get "tenant_id").str? = metadataGet metadata "owner_id") &&
      decide ((row.payload.get "document_id").str? = metadataGet metadata "document_id") &&
      decide ((row.payload.get "version_id").str? = metadataGet metadata "document_version_id") &&
      decide ((row.payload.get "document_id").str? = some row.documentId) &&
      decide ((row.payload.get "tenant_id").str? = some row.tenantId) &&
      decide ((row.payload.get "visibility").str? = some row.visibility) &&
      (row.payload.get "library_scope_ids").equals (.array (row.libraryScopeIds.map .str)) &&
      (row.payload.get "is_active").isBool &&
        decide ((row.payload.get "is_active").isTrue = row.isActive))
    .indexNotReadyError "Milvus version row identity drift"

/-- `_upsert_rows`. -/
def upsertRows (collection : Collection Score) (chunks : List JsonObject)
    (vectors : List (String × List Score)) : Collection Score :=
  { collection with
    rows := chunks.foldl
      (fun rows chunk => rows.upsert
        (Row.ofChunk chunk ((vectors.lookup (chunkIdOf chunk)).getD []))) collection.rows }

/-- One row of `_verify_expected_rows`, after the identifiers seen before it. -/
def verifyExpectedRow (metadata : List (String × String)) (chunks : List JsonObject)
    (expectedVectors : Option (List (String × List Score))) (seen : List String) (row : Row Score) :
    Except PyError (List String) := do
  validatedRow env metadata row
  let chunk ← (if seen.contains row.chunkId then none else chunks.find?
    fun chunk => chunkIdOf chunk = row.chunkId).elim
      (.error (notReady "Milvus version collection contains foreign or duplicate rows")) .ok
  ensure ((withActive row.payload false).equals chunk) .indexNotReadyError
    "Milvus version payload drift"
  ensure (expectedVectors.all fun vectors =>
      (vectors.lookup row.chunkId).any fun vector => sameVector env row.embedding vector)
        .indexNotReadyError
    "Milvus version embedding drift"
  return row.chunkId :: seen

/-- The vectors of rows under their identifiers. -/
def rowVectors (rows : List (Row Score)) : List (String × List Score) :=
  rows.map fun row => (row.chunkId, row.embedding)

/-- The vectors have the fingerprint of the metadata. -/
def verifyEmbeddings (metadata : List (String × String)) (rows : List (Row Score)) :
    Except PyError Unit := do
  let fingerprint ← embeddingsFingerprint env (rowVectors rows)
  ensure (decide (metadataGet metadata "embeddings_sha256" = some fingerprint)) .indexNotReadyError
    "Milvus version embedding identity drift"

/-- `_verify_expected_rows`: the identifiers that were seen. -/
def verifyExpectedRows (metadata : List (String × String)) (chunks : List JsonObject)
    (rows : List (Row Score)) (allowMissing : Bool)
    (expectedVectors : Option (List (String × List Score))) : Except PyError (List String) := do
  let seen ← rows.foldlM (verifyExpectedRow env metadata chunks expectedVectors) []
  ensure (decide (rows.length ≤ chunks.length) &&
    (allowMissing || chunks.all fun chunk => seen.contains (chunkIdOf chunk))) .indexNotReadyError
      "Milvus version collection row count does not match metadata"
  if allowMissing then return seen
  else
    verifyEmbeddings env metadata rows
    return seen

/-! ### Staging -/

/-- The collection that is created for the chunks, filled. -/
def createdCollection (identity : VersionIdentity) (chunks : List JsonObject) :
    Except PyError (Collection Score) := do
  let vectors ← embedChunks env 0 chunks
  let dimension := (vectors.head?.map fun member => member.2.length).getD 0
  let model ← env.identity 0
  let fingerprint ← embeddingsFingerprint env vectors
  return upsertRows
    { metadata := expectedConfiguration ++ providerMetadata model ++
        [("source_chunks_sha256", (env.chunksFingerprint chunks).val),
          ("chunk_count", toString chunks.length), ("embedding_dimension", toString dimension),
          ("owner_id", identity.ownerId), ("document_id", identity.documentId),
          ("document_version_id", identity.documentVersionId), ("embeddings_sha256", fingerprint)]
      fields := expectedFields
      rows := Table.empty } chunks vectors

/-- The missing rows are added, with vectors that have the fingerprint of the metadata. -/
def fillCollection (limited : Limited Score) (collection : Collection Score)
    (metadata : List (String × String)) (chunks : List JsonObject) (rows : List (Row Score))
    (seen : List String) : Except PyError (Collection Score × List (Row Score)) :=
  let missing := chunks.filter fun chunk => !seen.contains (chunkIdOf chunk)
  if missing.isEmpty then .ok (collection, rows)
  else do
    let vectors ← embedChunks env 1 chunks
    let fingerprint ← embeddingsFingerprint env vectors
    ensure (decide (metadataGet metadata "embeddings_sha256" = some fingerprint))
      .indexNotReadyError "Milvus version embedding identity drift"
    let _ ← verifyExpectedRows env metadata chunks rows true (some vectors)
    let filled := upsertRows collection missing vectors
    return (filled, limited 1 filled maxVersionRows)

/-- What `ensure_staged` expects of the metadata. -/
def stagedMetadata (model : ModelIdentity) (identity : VersionIdentity) (chunks : List JsonObject) :
    List (String × String) :=
  identityMetadata identity.ownerId identity.documentVersionId ++
    [("document_id", identity.documentId),
      ("source_chunks_sha256", (env.chunksFingerprint chunks).val),
      ("chunk_count", toString chunks.length)] ++ providerMetadata model

/-- `ensure_staged`: the collection it leaves, and the receipt. -/
def ensureStaged (limited : Limited Score) (current : Option (Collection Score))
    (identity : VersionIdentity) (chunks : List JsonObject) :
    Except PyError (Collection Score × IndexWriteReceipt) := do
  validateStage identity chunks
  let collection ← current.elim (createdCollection env identity chunks) .ok
  let model ← env.identity 1
  let metadata ← inspectIdentity env collection (stagedMetadata env model identity chunks)
  let rows := limited 0 collection maxVersionRows
  let seen ← verifyExpectedRows env metadata chunks rows true none
  let (staged, rows) ← fillCollection env limited collection metadata chunks rows seen
  let _ ← verifyExpectedRows env metadata chunks rows false none
  return (staged, ⟨.milvus, identity.ownerId, identity.documentVersionId,
    ((metadataInt? env metadata "chunk_count").getD 0).toNat,
    (metadataGet metadata "source_chunks_sha256").getD ""⟩)

/-! ### Activity -/

/-- One row of `_verify_lifecycle_rows`, after the identifiers seen before it. -/
def verifyLifecycleRow (metadata : List (String × String)) (expectedActive : Option Bool)
    (seen : List String) (row : Row Score) : Except PyError (List String) := do
  validatedRow env metadata row
  ensure (!seen.contains row.chunkId) .indexNotReadyError
    "Milvus version collection contains duplicate rows"
  ensure (expectedActive.all fun active => decide ((row.payload.get "is_active").isTrue = active))
    .indexNotReadyError "Milvus version active-state verification failed"
  return row.chunkId :: seen

/-- `_verify_lifecycle_rows`. -/
def verifyLifecycleRows (metadata : List (String × String)) (rows : List (Row Score))
    (allowIncomplete : Bool) (expectedActive : Option Bool) : Except PyError Unit := do
  let expectedCount := (metadataInt? env metadata "chunk_count").getD 0
  ensure (decide ((rows.length : Int) ≤ expectedCount) &&
    (allowIncomplete || decide ((rows.length : Int) = expectedCount))) .indexNotReadyError
      "Milvus version collection row count does not match metadata"
  let _ ← rows.foldlM (verifyLifecycleRow env metadata expectedActive) []
  let fingerprint ← embeddingsFingerprint env (rowVectors rows)
  ensure (allowIncomplete || decide (metadataGet metadata "embeddings_sha256" = some fingerprint))
    .indexNotReadyError "Milvus version embedding identity drift"

/-- A row with its activity set, in its column and in its payload. -/
def setRowActive (isActive : Bool) (row : Row Score) : Row Score :=
  { row with isActive := isActive, payload := withActive row.payload isActive }

theorem chunkId_setRowActive (isActive : Bool) (row : Row Score) :
    (setRowActive isActive row).chunkId = row.chunkId := rfl

/-- The rows that a query returned are written back with the activity set. -/
def upsertActive (collection : Collection Score) (rows : List (Row Score)) (isActive : Bool) :
    Collection Score :=
  { collection with
    rows := rows.foldl (fun table row => table.upsert (setRowActive isActive row)) collection.rows }

/-- `_set_active` on an existing collection. -/
def setActive (limited : Limited Score) (collection : Collection Score)
    (ownerId documentVersionId : String) (isActive allowIncomplete : Bool) :
    Except PyError (Collection Score) := do
  let metadata ← inspectIdentity env collection (identityMetadata ownerId documentVersionId)
  let rows := limited 0 collection maxVersionRows
  verifyLifecycleRows env metadata rows allowIncomplete none
  let updated := upsertActive collection rows isActive
  verifyLifecycleRows env metadata (limited 1 updated maxVersionRows) allowIncomplete
    (some isActive)
  return updated

/-- `deactivate_version`. -/
def deactivateVersion (limited : Limited Score) (current : Option (Collection Score))
    (ownerId documentVersionId : String) : Except PyError (Option (Collection Score)) := do
  ensure (validIdentity ownerId documentVersionId) .valueError
    "owner_id and document_version_id must be valid contract IDs"
  match current with
  | none => return none
  | some collection =>
    return some (← setActive env limited collection ownerId documentVersionId false true)

/-- `activate_version`. -/
def activateVersion (limited : Limited Score) (current : Option (Collection Score))
    (ownerId documentVersionId : String) : Except PyError (Option (Collection Score)) := do
  ensure (validIdentity ownerId documentVersionId) .valueError
    "owner_id and document_version_id must be valid contract IDs"
  match current with
  | none => .error (notReady "Milvus version collection does not exist")
  | some collection =>
    return some (← setActive env limited collection ownerId documentVersionId true false)

/-- The body of `verify_online_version`, on the collection of the name if there is one. -/
def verifyOnlineRows (limited : Limited Score) (current : Option (Collection Score))
    (identity : VersionIdentity) : Except PyError (List (String × String)) := do
  let collection ← current.elim
    (.error (notReady "Milvus online version collection does not exist or is unavailable")) .ok
  let model ← env.identity 0
  let metadata ← inspectIdentity env collection
    (identityMetadata identity.ownerId identity.documentVersionId ++
      [("document_id", identity.documentId)] ++ providerMetadata model)
  let rows := limited 0 collection (((metadataInt? env metadata "chunk_count").getD 0).toNat + 1)
  verifyLifecycleRows env metadata rows false (some true)
  return metadata

/-- `verify_online_version`: the metadata for the sink. -/
def verifyOnlineVersion (limited : Limited Score) (current : Option (Collection Score))
    (identity : VersionIdentity) : Except PyError (List (String × String)) :=
  (verifyOnlineRows env limited current identity).mapError fun e =>
    if e.kind = .indexNotReadyError then e
    else notReady "Milvus online version collection does not exist or is unavailable"

end

/-! ### What the verification of rows says -/

section

variable {Score : Type} {env : Surroundings Score} {metadata : List (String × String)}
  {chunks : List JsonObject} {expectedVectors : Option (List (String × List Score))}

/-- The row passes `_verify_expected_rows` on its own. -/
structure Accepted (env : Surroundings Score) (metadata : List (String × String))
    (chunks : List JsonObject) (expectedVectors : Option (List (String × List Score)))
    (row : Row Score) : Prop where
  validated : validatedRow env metadata row = .ok ()
  source : ∃ chunk, chunks.find? (fun chunk => chunkIdOf chunk = row.chunkId) = some chunk ∧
    (withActive row.payload false).equals chunk = true
  vector : expectedVectors.all (fun vectors =>
    (vectors.lookup row.chunkId).any fun vector => sameVector env row.embedding vector) = true

theorem isBool_of_validatedRow {row : Row Score} (h : validatedRow env metadata row = .ok ()) :
    (row.payload.get "is_active").isBool = true := by
  unfold validatedRow at h
  rw [ensure_bind, ensure_eq_ok, Bool.and_eq_true, Bool.and_eq_true, Bool.and_eq_true] at h
  exact h.2.1.2

/-- An accepted row is the row of a chunk. -/
theorem Accepted.intact {row : Row Score} (h : Accepted env metadata chunks expectedVectors row) :
    Intact chunks (row.chunkId, row.payload) := by
  obtain ⟨chunk, hfind, hequals⟩ := h.source
  have hid : chunkIdOf chunk = row.chunkId := by simpa using List.find?_some hfind
  refine ⟨chunk, List.mem_of_find?_eq_some hfind, hid.symm, ?_⟩
  unfold matchesChunk
  rw [isBool_of_validatedRow h.validated, hequals]
  rfl

theorem Accepted.mem_identifiers {row : Row Score}
    (h : Accepted env metadata chunks expectedVectors row) :
    row.chunkId ∈ chunks.map chunkIdOf := by
  obtain ⟨chunk, hchunk, hid, -⟩ := h.intact
  exact List.mem_map.mpr ⟨chunk, hchunk, hid.symm⟩

theorem verifyExpectedRow_eq_ok {seen seen' : List String} {row : Row Score} :
    verifyExpectedRow env metadata chunks expectedVectors seen row = .ok seen' ↔
      seen' = row.chunkId :: seen ∧ row.chunkId ∉ seen ∧
      Accepted env metadata chunks expectedVectors row := by
  unfold verifyExpectedRow
  simp only [bind_eq_ok, ensure_eq_ok, pure_eq_ok]
  constructor
  · rintro ⟨⟨⟩, hrow, chunk, hchunk, ⟨⟩, hequals, ⟨⟩, hvector, rfl⟩
    by_cases hseen : row.chunkId ∈ seen
    · simp [hseen] at hchunk
    · refine ⟨rfl, hseen, hrow, ⟨chunk, ?_, hequals⟩, hvector⟩
      cases hfind : chunks.find? fun chunk => chunkIdOf chunk = row.chunkId with
      | none => simp [hseen, hfind] at hchunk
      | some found => simpa [hseen, hfind] using hchunk
  · rintro ⟨rfl, hseen, hrow, ⟨chunk, hfind, hequals⟩, hvector⟩
    exact ⟨(), hrow, chunk, by simp [hseen, hfind], (), hequals, (), hvector, rfl⟩

theorem verifyExpected_eq_ok {rows : List (Row Score)} {seen seen' : List String} :
    rows.foldlM (verifyExpectedRow env metadata chunks expectedVectors) seen = .ok seen' ↔
      seen' = (rows.map Row.chunkId).reverse ++ seen ∧ (rows.map Row.chunkId).Nodup ∧
        (∀ row ∈ rows, row.chunkId ∉ seen) ∧ ∀ row ∈ rows,
          Accepted env metadata chunks expectedVectors row :=
  foldlM_distinct fun _ _ _ => verifyExpectedRow_eq_ok

/-- What `_verify_expected_rows` accepts: distinct rows of the chunks, all of them unless some may
be missing. -/
theorem verifyExpectedRows_eq_ok {rows : List (Row Score)} {allowMissing : Bool}
    {seen : List String} :
    verifyExpectedRows env metadata chunks rows allowMissing expectedVectors = .ok seen ↔
      seen = (rows.map (·.chunkId)).reverse ∧ (rows.map (·.chunkId)).Nodup ∧
        (∀ row ∈ rows, Accepted env metadata chunks expectedVectors row) ∧
        rows.length ≤ chunks.length ∧
        (allowMissing = true ∨ ((∀ chunk ∈ chunks, chunkIdOf chunk ∈ rows.map (·.chunkId)) ∧
          verifyEmbeddings env metadata rows = .ok ())) := by
  unfold verifyExpectedRows
  simp only [bind_eq_ok, ensure_eq_ok, verifyExpected_eq_ok, List.append_nil]
  cases allowMissing with
  | true =>
    constructor
    · rintro ⟨_, ⟨rfl, hnodup, -, hrows⟩, ⟨⟩, hlength, hresult⟩
      cases pure_eq_ok.mp hresult
      exact ⟨rfl, hnodup, hrows, by simpa using hlength, .inl rfl⟩
    · rintro ⟨rfl, hnodup, hrows, hlength, -⟩
      exact ⟨_, ⟨rfl, hnodup, by simp, hrows⟩, (), by simpa using hlength, rfl⟩
  | false =>
    have hall : ∀ ids :
        List String, (chunks.all fun chunk => ids.reverse.contains (chunkIdOf chunk)) = true ↔
        ∀ chunk ∈ chunks, chunkIdOf chunk ∈ ids := by
      intro ids
      simp
    simp only [Bool.false_or, Bool.false_eq_true, if_false, false_or, Bool.and_eq_true,
      decide_eq_true_eq, bind_eq_ok, pure_eq_ok]
    constructor
    · rintro ⟨_, ⟨rfl, hnodup, -, hrows⟩, ⟨⟩, ⟨hlength, hpresent⟩, ⟨⟩, hembeddings, rfl⟩
      exact ⟨rfl, hnodup, hrows, hlength, (hall _).mp hpresent, hembeddings⟩
    · rintro ⟨rfl, hnodup, hrows, hlength, hpresent, hembeddings⟩
      exact ⟨_, ⟨rfl, hnodup, by simp, hrows⟩, (), ⟨hlength, (hall _).mpr hpresent⟩, (),
        hembeddings, rfl⟩

end

/-! ### What staging leaves -/

section

variable {Score : Type} {env : Surroundings Score} {limited : Limited Score}
  {metadata : List (String × String)} {identity : VersionIdentity} {chunks : List JsonObject}

/-- The rows of a collection, none of an absent one. -/
def collectionRows (current : Option (Collection Score)) : List (String × JsonObject) :=
  (current.elim [] (·.rows.rows)).map fun row => (row.chunkId, row.payload)

/-- The collection hides rows: the version has as many chunks as a query may return, the collection
has more rows than that, and some of them pass for the whole version. -/
def Overfull (env : Surroundings Score) (current : Option (Collection Score))
    (identity : VersionIdentity) (chunks : List JsonObject) : Prop :=
  chunks.length = maxVersionRows ∧ validateStage identity chunks = .ok () ∧
    ∃ collection model, current = some collection ∧ maxVersionRows < collection.rows.rows.length ∧
      env.identity 1 = .ok model ∧
      inspectIdentity env collection (stagedMetadata env model identity chunks) =
        .ok collection.metadata ∧
      ∃ rows seen, rows.Subperm collection.rows.rows ∧ rows.length = maxVersionRows ∧
        verifyExpectedRows env collection.metadata chunks rows false none = .ok seen

/-- A query whose limit is not reached returns every row. -/
theorem Faithful.perm (hfaithful : Faithful limited) (call : Nat) {collection : Collection Score}
    {limit : Nat} (h : collection.rows.rows.length ≤ limit) :
    (limited call collection limit).Perm collection.rows.rows := by
  obtain ⟨hsome, hlength⟩ := hfaithful call collection limit
  exact hsome.perm_of_length_le (by omega)

theorem validateChunksFrom_spec {seen : List String} (h : validateChunksFrom seen chunks = .ok ()) :
    (chunks.map chunkIdOf).Nodup ∧ (∀ id ∈ chunks.map chunkIdOf, id ∉ seen) ∧
      ∀ chunk ∈ chunks, (chunk.get "chunk_id").isNonemptyStr = true ∧
      validateChunk (chunkIdOf chunk) chunk = .ok () := by
  induction chunks generalizing seen with
  | nil => simp
  | cons chunk chunks ih =>
    unfold validateChunksFrom at h
    simp only [check_bind, ensure_eq_ok, Bool.and_eq_true] at h
    obtain ⟨⟨hid, hseen⟩, hchunk, hrest⟩ := h
    obtain ⟨hdistinct, hfresh, hchunks⟩ := ih hrest
    have hnew : chunkIdOf chunk ∉ seen := by simpa [chunkIdOf] using hseen
    rw [List.map_cons, List.nodup_cons, List.forall_mem_cons, List.forall_mem_cons]
    refine ⟨⟨fun hmem => hfresh _ hmem List.mem_cons_self, hdistinct⟩,
      ⟨hnew, fun id hid hmem => ?_⟩, ⟨hid, hchunk⟩, hchunks⟩
    exact hfresh id hid (List.mem_cons_of_mem _ hmem)

theorem validateStage_spec (h : validateStage identity chunks = .ok ()) :
    (chunks.map chunkIdOf).Nodup ∧ chunks.length ≤ maxVersionRows := by
  unfold validateStage validateChunks at h
  simp only [check_bind, ensure_eq_ok] at h
  obtain ⟨-, hcount, ⟨-, hchunks⟩, -⟩ := h
  exact ⟨(validateChunksFrom_spec hchunks).1, by simpa using ((Bool.and_eq_true _ _).mp hcount).2⟩

theorem inspectIdentity_eq_ok {collection : Collection Score} {expected : List (String × String)}
    (h : inspectIdentity env collection expected = .ok metadata) :
    metadata = collection.metadata := by
  unfold inspectIdentity at h
  simp only [check_bind, pure_eq_ok] at h
  obtain ⟨-, -, -, -, -, -, rfl⟩ := h
  rfl

/-- The identifiers after rows were added. -/
theorem mem_identifiers_upsertRows {collection : Collection Score}
    {vectors : List (String × List Score)} {id : String} :
    id ∈ (upsertRows collection chunks vectors).rows.rows.map Row.chunkId ↔
      (∃ chunk ∈ chunks, chunkIdOf chunk = id) ∨ id ∈ collection.rows.rows.map Row.chunkId :=
  Table.mem_keys_upserts

/-- A table whose identifiers are those of chunks has no more rows than there are chunks. -/
theorem length_le_of_identifiers {collection : Collection Score}
    (h : ∀ id ∈ collection.rows.rows.map Row.chunkId, id ∈ chunks.map chunkIdOf) :
    collection.rows.rows.length ≤ chunks.length := by
  simpa using (List.subperm_of_subset collection.rows.nodup h).length_le

theorem createdCollection_length {collection : Collection Score}
    (h : createdCollection env identity chunks = .ok collection) :
    collection.rows.rows.length ≤ chunks.length := by
  unfold createdCollection at h
  simp only [bind_eq_ok, pure_eq_ok] at h
  obtain ⟨vectors, -, model, -, fingerprint, -, rfl⟩ := h
  apply length_le_of_identifiers
  intro id hid
  rcases mem_identifiers_upsertRows.mp hid with ⟨chunk, hchunk, rfl⟩ | hid
  · exact List.mem_map_of_mem hchunk
  · cases hid

/-- Either no chunk was missing, or the missing ones are added and the rows are read again. -/
theorem fillCollection_eq_ok {collection staged : Collection Score} {rows rows' : List (Row Score)}
    {seen : List String}
    (h : fillCollection env limited collection metadata chunks rows seen = .ok (staged, rows')) :
    (staged = collection ∧ rows' = rows ∧ ∀ chunk ∈ chunks, chunkIdOf chunk ∈ seen) ∨
      ((∃ chunk ∈ chunks, chunkIdOf chunk ∉ seen) ∧ rows' = limited 1 staged maxVersionRows ∧
        ∀ id ∈ staged.rows.rows.map Row.chunkId, id ∈ chunks.map chunkIdOf ∨
        id ∈ collection.rows.rows.map Row.chunkId) := by
  unfold fillCollection at h
  simp only at h
  split at h
  · rename_i hnone
    cases h
    refine .inl ⟨rfl, rfl, fun chunk hchunk => ?_⟩
    simpa using List.filter_eq_nil_iff.mp (List.isEmpty_iff.mp hnone) chunk hchunk
  · rename_i hsome
    simp only [bind_eq_ok, pure_eq_ok] at h
    obtain ⟨vectors, -, fingerprint, -, -, -, -, -, hresult⟩ := h
    cases hresult
    refine .inr ⟨by simpa using hsome, rfl, fun id hid => ?_⟩
    rcases mem_identifiers_upsertRows.mp hid with ⟨chunk, hchunk, rfl⟩ | hid
    · exact .inl (List.mem_map_of_mem (List.mem_of_mem_filter hchunk))
    · exact .inr hid

/-- Rows that were all read and all accepted are the rows of the chunks. -/
theorem holdsExactly_of_verified {collection : Collection Score} {rows : List (Row Score)}
    {seen : List String} (hdistinct : (chunks.map chunkIdOf).Nodup)
    (hperm : rows.Perm collection.rows.rows)
    (h : verifyExpectedRows env metadata chunks rows false none = .ok seen) :
    HoldsExactly (collectionRows (some collection)) chunks := by
  obtain ⟨-, hnodup, haccepted, -, hstrict⟩ := verifyExpectedRows_eq_ok.mp h
  obtain ⟨hpresent, -⟩ := hstrict.resolve_left (by decide)
  have hids : ((collectionRows (some collection)).map Prod.fst) =
      collection.rows.rows.map Row.chunkId := by
    unfold collectionRows
    rw [List.map_map]
    rfl
  refine ⟨?_, fun row hrow => ?_⟩
  · rw [hids]
    apply (hperm.map Row.chunkId).symm.trans
    refine (List.perm_ext_iff_of_nodup hnodup hdistinct).mpr fun id =>
      ⟨fun hid => ?_, fun hid => ?_⟩
    · obtain ⟨row, hrow, rfl⟩ := List.mem_map.mp hid
      exact (haccepted row hrow).mem_identifiers
    · obtain ⟨chunk, hchunk, rfl⟩ := List.mem_map.mp hid
      exact hpresent chunk hchunk
  · obtain ⟨stored, hstored, rfl⟩ := List.mem_map.mp hrow
    exact (haccepted stored (hperm.mem_iff.mpr hstored)).intact

/-- Accepted rows with distinct identifiers, as many as there are chunks, leave no chunk out. -/
theorem present_of_length {rows : List (Row Score)} (hnodup : (rows.map Row.chunkId).Nodup)
    (haccepted : ∀ row ∈ rows, Accepted env metadata chunks none row)
    (hlength : chunks.length ≤ rows.length) :
    ∀ chunk ∈ chunks, chunkIdOf chunk ∈ rows.map Row.chunkId := by
  have hsubset : rows.map Row.chunkId ⊆ chunks.map chunkIdOf := by
    intro id hid
    obtain ⟨row, hrow, rfl⟩ := List.mem_map.mp hid
    exact (haccepted row hrow).mem_identifiers
  have hperm := (List.subperm_of_subset hnodup hsubset).perm_of_length_le (by simpa using hlength)
  exact fun chunk hchunk => hperm.mem_iff.mpr (List.mem_map_of_mem hchunk)

/-- What a staging that gives a receipt went through. -/
theorem ensureStaged_eq_ok {current : Option (Collection Score)} {staged : Collection Score}
    {receipt : IndexWriteReceipt}
    (h : ensureStaged env limited current identity chunks = .ok (staged, receipt)) :
    validateStage identity chunks = .ok () ∧ ∃ collection model rows seen seen',
      current.elim (createdCollection env identity chunks) .ok = .ok collection ∧
      env.identity 1 = .ok model ∧
      inspectIdentity env collection (stagedMetadata env model identity chunks) =
        .ok collection.metadata ∧
      verifyExpectedRows env collection.metadata chunks (limited 0 collection maxVersionRows) true
        none = .ok seen ∧
      fillCollection env limited collection collection.metadata chunks
        (limited 0 collection maxVersionRows) seen = .ok (staged, rows) ∧
      verifyExpectedRows env collection.metadata chunks rows false none = .ok seen' := by
  unfold ensureStaged at h
  simp only [bind_eq_ok, pure_eq_ok] at h
  obtain ⟨⟨⟩, hstage, collection, hcollection, model, hmodel, metadata, hinspect, seen, hseen,
      ⟨filled, rows⟩, hfill, seen',
    hseen', hresult⟩ := h
  cases hresult
  obtain rfl := inspectIdentity_eq_ok hinspect
  exact ⟨hstage, collection, model, rows, seen, seen', hcollection, hmodel, hinspect, hseen,
    hfill, hseen'⟩

/-- A collection that was read for a receipt fits into one query, unless it is overfull. -/
theorem length_le_of_staged (hfaithful : Faithful limited) {current : Option (Collection Score)}
    (hfull : ¬Overfull env current identity chunks) {collection staged : Collection Score}
    {model : ModelIdentity}
    {rows : List (Row Score)} {seen seen' : List String}
    (hstage : validateStage identity chunks = .ok ())
    (hcollection : current.elim (createdCollection env identity chunks) .ok = .ok collection)
    (hmodel : env.identity 1 = .ok model)
    (hinspect : inspectIdentity env collection (stagedMetadata env model identity chunks) =
      .ok collection.metadata)
    (hseen : verifyExpectedRows env collection.metadata chunks (limited 0 collection maxVersionRows)
      true none = .ok seen)
    (hfill : fillCollection env limited collection collection.metadata chunks
      (limited 0 collection maxVersionRows) seen = .ok (staged, rows))
    (hseen' : verifyExpectedRows env collection.metadata chunks rows false none = .ok seen') :
    collection.rows.rows.length ≤ maxVersionRows := by
  by_contra hmore
  obtain ⟨hdistinct, hcount⟩ := validateStage_spec hstage
  obtain ⟨hsome, hlength⟩ := hfaithful 0 collection maxVersionRows
  obtain ⟨rfl, hnodup, haccepted, hle, -⟩ := verifyExpectedRows_eq_ok.mp hseen
  have hlimit : (limited 0 collection maxVersionRows).length = maxVersionRows := by omega
  -- the query returned as many rows as it may, so every chunk was among them
  have hpresent := present_of_length hnodup haccepted (by omega)
  rcases fillCollection_eq_ok hfill with ⟨rfl, rfl, -⟩ | ⟨⟨chunk, hchunk, hmissing⟩, -, -⟩
  · cases current with
    | none =>
      have := createdCollection_length hcollection
      omega
    | some prior =>
      cases hcollection
      exact hfull ⟨by omega, hstage, _, model, rfl, by omega, hmodel, hinspect, _, _, hsome,
        hlimit, hseen'⟩
  · exact absurd (hpresent chunk hchunk) (by simpa using hmissing)

/-- A receipt for a collection that is not overfull: the collection holds exactly the chunks, and
each of its rows before was that of a chunk. -/
theorem ensureStaged_sound (hfaithful : Faithful limited) {current : Option (Collection Score)}
    (hfull : ¬Overfull env current identity chunks) {staged : Collection Score}
    {receipt : IndexWriteReceipt}
    (h : ensureStaged env limited current identity chunks = .ok (staged, receipt)) :
    HoldsExactly (collectionRows (some staged)) chunks ∧ ∀ row ∈ collectionRows current,
      Intact chunks row := by
  obtain ⟨hstage, collection, model, rows, seen, seen', hcollection, hmodel, hinspect, hseen, hfill,
      hseen'⟩ :=
    ensureStaged_eq_ok h
  have hfits := length_le_of_staged hfaithful hfull hstage hcollection hmodel hinspect hseen
    hfill hseen'
  obtain ⟨hdistinct, hcount⟩ := validateStage_spec hstage
  have hperm := hfaithful.perm 0 hfits
  obtain ⟨-, -, haccepted, -, -⟩ := verifyExpectedRows_eq_ok.mp hseen
  refine ⟨?_, fun row hrow => ?_⟩
  · rcases fillCollection_eq_ok hfill with ⟨rfl, rfl, -⟩ | ⟨-, rfl, hids⟩
    · exact holdsExactly_of_verified hdistinct hperm hseen'
    · -- every identifier is that of a chunk, so the second query returns every row too
      have hstaged : staged.rows.rows.length ≤ chunks.length := by
        apply length_le_of_identifiers
        intro id hid
        rcases hids id hid with hid | hid
        · exact hid
        · obtain ⟨row, hrow, rfl⟩ := List.mem_map.mp hid
          exact (haccepted row (hperm.mem_iff.mpr hrow)).mem_identifiers
      exact holdsExactly_of_verified hdistinct (hfaithful.perm 1 (by omega)) hseen'
  · cases current with
    | none => simp [collectionRows] at hrow
    | some prior =>
      cases hcollection
      obtain ⟨stored, hstored, rfl⟩ := List.mem_map.mp hrow
      exact (haccepted stored (hperm.mem_iff.mpr hstored)).intact

/-- An overfull collection gets a receipt from a store that returns the rows of the chunks. -/
theorem ensureStaged_of_overfull {collection : Collection Score} {model : ModelIdentity}
    {rows : List (Row Score)} {seen : List String} (hstage : validateStage identity chunks = .ok ())
    (hmodel : env.identity 1 = .ok model)
    (hinspect : inspectIdentity env collection (stagedMetadata env model identity chunks) =
      .ok collection.metadata)
    (hverify : verifyExpectedRows env collection.metadata chunks rows false none = .ok seen)
    (hlimited : limited 0 collection maxVersionRows = rows) :
    ∃ receipt, ensureStaged env limited (some collection) identity chunks =
      .ok (collection, receipt) := by
  obtain ⟨hseen, hnodup, haccepted, hlength, hstrict⟩ := verifyExpectedRows_eq_ok.mp hverify
  obtain ⟨hpresent, -⟩ := hstrict.resolve_left (by decide)
  have hlenient : verifyExpectedRows env collection.metadata chunks rows true none = .ok seen :=
    verifyExpectedRows_eq_ok.mpr ⟨hseen, hnodup, haccepted, hlength, .inl rfl⟩
  have hfill : fillCollection env limited collection collection.metadata chunks rows seen =
      .ok (collection, rows) := by
    have hnone : (chunks.filter fun chunk => !seen.contains (chunkIdOf chunk)) = [] := by
      refine List.filter_eq_nil_iff.mpr fun chunk hchunk => ?_
      have := hpresent chunk hchunk
      simpa [hseen] using this
    unfold fillCollection
    rw [hnone]
    rfl
  subst hlimited
  unfold ensureStaged
  simp only [bind_eq_ok, pure_eq_ok]
  exact ⟨_, (), hstage, collection, rfl, model, hmodel, _, hinspect, seen, hlenient,
    (collection, _), hfill, seen, hverify, rfl⟩

end

/-! ### Deactivation -/

section

variable {Score : Type} {env : Surroundings Score} {limited : Limited Score}
  {metadata : List (String × String)} {identity : VersionIdentity} {chunks : List JsonObject}
  {collection : Collection Score}

/-- What an interrupted staging or activation leaves: the metadata is as `ensure_staged` expects it,
and each row is that of a chunk, active or not, with a vector of the collection's dimension. -/
structure PartlyStaged (env : Surroundings Score) (identity : VersionIdentity)
    (chunks : List JsonObject) (collection : Collection Score) : Prop where
  valid : validateStage identity chunks = .ok ()
  metadata : ∃ model,
    inspectIdentity env collection (stagedMetadata env model identity chunks) =
      .ok collection.metadata
  rows : ∀ row ∈ collection.rows.rows, ∃ chunk ∈ chunks, ∃ active vector,
    row = setRowActive active (.ofChunk chunk vector) ∧
      metadataInt? env collection.metadata "embedding_dimension" = some (vector.length : Int) ∧
      vector.all env.isFinite = true

/-- The collection with every row inactive. -/
def deactivated (collection : Collection Score) : Collection Score :=
  { collection with
    rows := collection.rows.mapRows (setRowActive false) (chunkId_setRowActive false) }

theorem metadata_of_inspectIdentity {expected : List (String × String)}
    (h : inspectIdentity env collection expected = .ok metadata) :
    ∀ member ∈ expected, metadataGet collection.metadata member.1 = some member.2 := by
  unfold inspectIdentity at h
  simp only [bind_eq_ok] at h
  obtain ⟨⟨⟩, hexpected, -⟩ := h
  intro member hmember
  simpa using forM_eq_ok.mp hexpected member hmember

/-- A collection that meets some expectations meets fewer. -/
theorem inspectIdentity_subset {expected fewer : List (String × String)} (hsub : fewer ⊆ expected)
    (h : inspectIdentity env collection expected = .ok metadata) :
    inspectIdentity env collection fewer = .ok metadata := by
  have hmetadata := metadata_of_inspectIdentity h
  unfold inspectIdentity at h ⊢
  simp only [bind_eq_ok] at h ⊢
  obtain ⟨⟨⟩, -, hrest⟩ := h
  refine ⟨(), forM_eq_ok.mpr fun member hmember => ?_, hrest⟩
  simpa using hmetadata member (hsub hmember)

/-- The dimension that the metadata of an inspected collection states is positive. -/
theorem dimension_pos_of_inspectIdentity {expected : List (String × String)}
    (h : inspectIdentity env collection expected = .ok metadata) {dimension : Int}
    (hdimension : metadataInt? env collection.metadata "embedding_dimension" = some dimension) :
    1 ≤ dimension := by
  unfold inspectIdentity at h
  simp only [check_bind, ensure_eq_ok, hdimension] at h
  obtain ⟨-, -, hcount, -⟩ := h
  obtain ⟨count, -, hcount⟩ := (Option.any_eq_true _ _).mp hcount
  simp only [Option.any_some, Bool.and_eq_true, decide_eq_true_eq] at hcount
  exact hcount.2

/-- A row that is valid stays so when its activity is set. -/
theorem validatedRow_setRowActive {row : Row Score} (h : validatedRow env metadata row = .ok ())
    (isActive : Bool) : validatedRow env metadata (setRowActive isActive row) = .ok () := by
  unfold validatedRow setRowActive at *
  simp only [check_bind, ensure_eq_ok, Bool.and_eq_true] at h ⊢
  obtain ⟨hvector,
      ⟨⟨⟨⟨⟨⟨⟨⟨⟨hid, howner⟩, hdocument⟩, hversion⟩, hdocumentId⟩, htenantId⟩, hvisibility⟩,
        hlibraries⟩, -⟩, -⟩⟩ := h
  refine ⟨hvector, ?_⟩
  simp only [get_withActive _ _ (show "is_active" ≠ "chunk_id" by decide),
    get_withActive _ _ (show "is_active" ≠ "tenant_id" by decide),
    get_withActive _ _ (show "is_active" ≠ "document_id" by decide),
    get_withActive _ _ (show "is_active" ≠ "version_id" by decide),
    get_withActive _ _ (show "is_active" ≠ "visibility" by decide),
    get_withActive _ _ (show "is_active" ≠ "library_scope_ids" by decide), get_withActive_isActive]
  exact ⟨⟨⟨⟨⟨⟨⟨⟨⟨hid, howner⟩, hdocument⟩, hversion⟩, hdocumentId⟩, htenantId⟩, hvisibility⟩,
    hlibraries⟩, rfl⟩, by
    cases isActive <;> rfl⟩

theorem stages_of_validateStage (h : validateStage identity chunks = .ok ()) : ∀ chunk ∈ chunks,
    identity.stages chunk = true ∧ (chunk.get "chunk_id").isNonemptyStr = true ∧
      validateChunk (chunkIdOf chunk) chunk = .ok () := by
  unfold validateStage validateChunks at h
  simp only [check_bind, ensure_eq_ok] at h
  obtain ⟨-, -, ⟨-, hchunks⟩, hstages⟩ := h
  intro chunk hchunk
  have hstaged := List.all_eq_true.mp hstages chunk hchunk
  exact ⟨((Bool.and_eq_true _ _).mp hstaged).2, (validateChunksFrom_spec hchunks).2.2 chunk hchunk⟩

/-- A list of non-empty strings is what its strings make. -/
theorem equals_stringSet {items : List JsonValue} (h : items.all JsonValue.isNonemptyStr = true) :
    (JsonValue.array items).equals (.array ((JsonValue.array items).stringSet.map .str)) =
      true := by
  show JsonValue.equalItems items _ = true
  induction items with
  | nil => rfl
  | cons item items ih =>
    rw [List.all_cons, Bool.and_eq_true] at h
    obtain ⟨text, htext, hne⟩ := (Option.any_eq_true _ _).mp h.1
    obtain rfl := JsonValue.str?_eq_some.mp htext
    have hset : (JsonValue.array (.str text :: items)).stringSet = text ::
        (JsonValue.array items).stringSet := by
      simp only [JsonValue.stringSet, List.filterMap_cons, JsonValue.str?, Option.filter_some, hne,
        if_true]
    rw [hset, List.map_cons, JsonValue.equalItems_cons, ih h.2, JsonValue.same_self]
    rfl

/-- The row of a staged chunk is valid. -/
theorem validatedRow_ofChunk {chunk : JsonObject} {vector : List Score}
    (hstages : identity.stages chunk = true) (hid : (chunk.get "chunk_id").isNonemptyStr = true)
    (hchunk : validateChunk (chunkIdOf chunk) chunk = .ok ())
    (howner : metadataGet metadata "owner_id" = some identity.ownerId)
    (hdocument : metadataGet metadata "document_id" = some identity.documentId)
    (hversion : metadataGet metadata "document_version_id" = some identity.documentVersionId)
    (hdimension : metadataInt? env metadata "embedding_dimension" = some (vector.length : Int))
    (hfinite : vector.all env.isFinite = true) :
    validatedRow env metadata (.ofChunk chunk vector) = .ok () := by
  unfold VersionIdentity.stages at hstages
  simp only [Bool.and_eq_true, decide_eq_true_eq] at hstages
  obtain ⟨⟨⟨⟨hchunkOwner, hchunkDocument⟩, hchunkVersion⟩, hbool⟩, -⟩ := hstages
  obtain ⟨id, hidText, -⟩ := (Option.any_eq_true _ _).mp hid
  unfold validateChunk at hchunk
  simp only [bind_eq_ok, ensure_eq_ok] at hchunk
  obtain ⟨⟨⟩, hstrings, ⟨⟩, hlibraries, -⟩ := hchunk
  have hvisible : (chunk.get "visibility").isNonemptyStr = true := by
    simpa using forM_eq_ok.mp hstrings "visibility" (by simp)
  obtain ⟨visibility, hvisibility, -⟩ := (Option.any_eq_true _ _).mp hvisible
  have hsame : (chunk.get "library_scope_ids").equals
      (.array ((chunk.get "library_scope_ids").stringSet.map .str)) = true := by
    split at hlibraries
    · rename_i items hitems
      rw [hitems]
      exact equals_stringSet hlibraries
    · cases hlibraries
  unfold validatedRow Row.ofChunk
  simp only [check_bind, ensure_eq_ok]
  simp [hdimension, howner, hdocument, hversion, hchunkOwner, hchunkDocument, hchunkVersion,
    hidText, hvisibility, hsame, hbool, chunkIdOf]
  exact List.all_eq_true.mp hfinite

theorem verifyLifecycleRow_eq_ok {expectedActive : Option Bool} {seen seen' : List String}
    {row : Row Score} : verifyLifecycleRow env metadata expectedActive seen row = .ok seen' ↔
      seen' = row.chunkId :: seen ∧ row.chunkId ∉ seen ∧ (validatedRow env metadata row = .ok () ∧
        expectedActive.all (fun active => decide ((row.payload.get "is_active").isTrue = active)) =
          true) := by
  unfold verifyLifecycleRow
  simp only [bind_eq_ok, ensure_eq_ok, pure_eq_ok]
  constructor
  · rintro ⟨⟨⟩, hrow, ⟨⟩, hseen, ⟨⟩, hactive, rfl⟩
    exact ⟨rfl, by simpa using hseen, hrow, hactive⟩
  · rintro ⟨rfl, hseen, hrow, hactive⟩
    exact ⟨(), hrow, (), by simpa using hseen, (), hactive, rfl⟩

/-- Valid rows under distinct identifiers, no more than the metadata counts and each as active as
expected, pass where the collection may be incomplete. -/
theorem verifyLifecycleRows_eq_ok {rows : List (Row Score)} {expectedActive : Option Bool}
    {count : Int} (hcount : metadataInt? env metadata "chunk_count" = some count)
    (hlength : (rows.length : Int) ≤ count) (hnodup : (rows.map Row.chunkId).Nodup)
    (hvalid : ∀ row ∈ rows, validatedRow env metadata row = .ok ()) (hactive : ∀ row ∈ rows,
      expectedActive.all (fun active => decide ((row.payload.get "is_active").isTrue = active)) =
        true)
    (hvector : ∀ row ∈ rows, (!row.embedding.isEmpty && row.embedding.all env.isFinite) = true) :
    verifyLifecycleRows env metadata rows true expectedActive = .ok () := by
  have hcanonical : ((rowVectors rows).insertionSort fun a b => a.1 ≤ b.1).all
      (fun member => !member.2.isEmpty && member.2.all env.isFinite) = true := by
    refine List.all_eq_true.mpr fun member hmember => ?_
    obtain ⟨row, hrow, rfl⟩ := List.mem_map.mp ((List.mem_insertionSort _).mp hmember)
    exact hvector row hrow
  have hloop : rows.foldlM (verifyLifecycleRow env metadata expectedActive) [] =
      .ok ((rows.map Row.chunkId).reverse ++ []) :=
    (foldlM_distinct fun _ _ _ => verifyLifecycleRow_eq_ok).mpr
      ⟨rfl, hnodup, by simp, fun row hrow => ⟨hvalid row hrow, hactive row hrow⟩⟩
  unfold verifyLifecycleRows embeddingsFingerprint
  simp only [bind_eq_ok, ensure_eq_ok, pure_eq_ok]
  exact ⟨(), by simpa [hcount] using hlength, _, hloop, _, ⟨(), hcanonical, rfl⟩, rfl⟩

/-- Rows that were all read are written back in place. -/
theorem upsertActive_eq_deactivated {rows : List (Row Score)}
    (hperm : rows.Perm collection.rows.rows) :
    upsertActive collection rows false = deactivated collection := by
  unfold upsertActive deactivated
  congr 1
  apply Table.ext
  have hnodup : (rows.map Row.chunkId).Nodup := (hperm.map _).nodup_iff.mpr collection.rows.nodup
  rw [Table.rows_upserts_of_mem (f := setRowActive false) (chunkId_setRowActive false)
    (fun row hrow => hperm.mem_iff.mp hrow) hnodup]
  exact List.map_congr_left fun row hrow => if_pos (List.mem_map_of_mem (hperm.mem_iff.mpr hrow))

namespace PartlyStaged

/-- The metadata counts the chunks. -/
theorem chunkCount (hascii : ReadsAsciiDigits env.unicode)
    (h : PartlyStaged env identity chunks collection) :
    metadataInt? env collection.metadata "chunk_count" = some (chunks.length : Int) := by
  obtain ⟨model, hmodel⟩ := h.metadata
  have hcount := metadata_of_inspectIdentity hmodel ("chunk_count", toString chunks.length)
    (by simp [stagedMetadata])
  unfold metadataInt?
  rw [hcount, Option.bind_some, pyInt?_toString hascii]

/-- The rows of a partly staged collection are valid, and so are their vectors. -/
theorem validated (h : PartlyStaged env identity chunks collection) {row : Row Score}
    (hrow : row ∈ collection.rows.rows) :
    validatedRow env collection.metadata row = .ok () ∧
      (!row.embedding.isEmpty && row.embedding.all env.isFinite) = true := by
  obtain ⟨model, hmodel⟩ := h.metadata
  have hexpected := metadata_of_inspectIdentity hmodel
  obtain ⟨chunk, hchunk, active, vector, rfl, hdimension, hfinite⟩ := h.rows row hrow
  obtain ⟨hstages, hid, hvalid⟩ := stages_of_validateStage h.valid chunk hchunk
  refine ⟨validatedRow_setRowActive
    (validatedRow_ofChunk hstages hid hvalid ?_ ?_ ?_ hdimension hfinite) active, ?_⟩
  · exact hexpected ("owner_id", identity.ownerId) (by simp [stagedMetadata, identityMetadata])
  · exact hexpected ("document_id", identity.documentId) (by simp [stagedMetadata])
  · exact hexpected ("document_version_id", identity.documentVersionId)
      (by simp [stagedMetadata, identityMetadata])
  · have hpos := dimension_pos_of_inspectIdentity hmodel hdimension
    have hne : vector ≠ [] := by
      rintro rfl
      simp at hpos
    show (!vector.isEmpty && vector.all env.isFinite) = true
    rw [hfinite, Bool.and_true, Bool.not_eq_true', List.isEmpty_eq_false_iff]
    exact hne

/-- The rows of a partly staged collection are no more than the chunks. -/
theorem length_le (h : PartlyStaged env identity chunks collection) :
    collection.rows.rows.length ≤ chunks.length := by
  apply length_le_of_identifiers
  intro id hid
  obtain ⟨row, hrow, rfl⟩ := List.mem_map.mp hid
  obtain ⟨chunk, hchunk, active, vector, rfl, -⟩ := h.rows row hrow
  exact List.mem_map_of_mem hchunk

end PartlyStaged

/-- A partly staged collection is deactivated, however many of its rows are there. -/
theorem setActive_partlyStaged (hascii : ReadsAsciiDigits env.unicode)
    (hfaithful : Faithful limited) (h : PartlyStaged env identity chunks collection) :
    setActive env limited collection identity.ownerId identity.documentVersionId false true =
      .ok (deactivated collection) := by
  obtain ⟨model, hmodel⟩ := h.metadata
  obtain ⟨-, hcount⟩ := validateStage_spec h.valid
  have hlength := h.length_le
  have hinspect :
      inspectIdentity env collection (identityMetadata identity.ownerId
        identity.documentVersionId) =
      .ok collection.metadata :=
    inspectIdentity_subset
      (fun _ hmember => List.mem_append_left _ (List.mem_append_left _ hmember)) hmodel
  have hbefore : (limited 0 collection maxVersionRows).Perm collection.rows.rows :=
    hfaithful.perm 0 (by omega)
  have hafter : (limited 1 (deactivated collection) maxVersionRows).Perm
      (deactivated collection).rows.rows := by
    apply hfaithful.perm
    show (collection.rows.rows.map _).length ≤ _
    rw [List.length_map]
    omega
  -- the rows after the update are those before it, with their activity set
  have hset : ∀ row ∈ limited 1 (deactivated collection) maxVersionRows,
      ∃ stored ∈ collection.rows.rows, row = setRowActive false stored := by
    intro row hrow
    obtain ⟨stored, hstored, rfl⟩ := List.mem_map.mp (hafter.mem_iff.mp hrow)
    exact ⟨stored, hstored, rfl⟩
  have hverifyBefore :
      verifyLifecycleRows env collection.metadata (limited 0 collection maxVersionRows) true none =
        .ok () := by
    refine verifyLifecycleRows_eq_ok (h.chunkCount hascii) ?_
      ((hbefore.map _).nodup_iff.mpr collection.rows.nodup)
        (fun row hrow => (h.validated (hbefore.mem_iff.mp hrow)).1) (fun _ _ => rfl)
      (fun row hrow => (h.validated (hbefore.mem_iff.mp hrow)).2)
    rw [hbefore.length_eq]
    omega
  have hverifyAfter : verifyLifecycleRows env collection.metadata
      (limited 1 (deactivated collection) maxVersionRows) true (some false) = .ok () := by
    refine verifyLifecycleRows_eq_ok (h.chunkCount hascii) ?_
      ((hafter.map _).nodup_iff.mpr (deactivated collection).rows.nodup) ?_ ?_ ?_
    · rw [hafter.length_eq]
      show ((collection.rows.rows.map _).length : Int) ≤ _
      rw [List.length_map]
      omega
    · intro row hrow
      obtain ⟨stored, hstored, rfl⟩ := hset row hrow
      exact validatedRow_setRowActive (h.validated hstored).1 false
    · intro row hrow
      obtain ⟨stored, -, rfl⟩ := hset row hrow
      simp [setRowActive, JsonValue.isTrue]
    · intro row hrow
      obtain ⟨stored, hstored, rfl⟩ := hset row hrow
      exact (h.validated hstored).2
  unfold setActive
  simp only [bind_eq_ok, pure_eq_ok, upsertActive_eq_deactivated hbefore]
  exact ⟨_, hinspect, (), hverifyBefore, (), hverifyAfter, trivial⟩

end

end ZhiyanRag.Ingestion.MilvusWriter
