import Mathlib.Algebra.Order.Field.Rat
import ZhiyanRag.Ingestion.ElasticsearchWriter
import ZhiyanRag.Ingestion.MilvusWriter
import ZhiyanRag.Retrieval.OnlineSafety
import ZhiyanRag.Retrieval.RequestEmbeddings

/-!
# One online search

`OnlineVersionRrfRetriever.search` from its arguments to its result, with nothing else going on: the
route inspectors are the two version writers, the backends are the two indexes over what is stored
under the physical names, and the query embeddings are made as the request makes them. In
`Online.lean` the same search takes its steps between those of everybody else, and what the
inspectors and backends answer is an argument of a step.
-/

namespace ZhiyanRag.Ingestion

open Retrieval

def Visibility.text : Visibility → String
  | isPublic => "public"
  | tenant => "tenant"
  | isPrivate => "private"

/-- The members of `model_dump(mode="json")`. -/
def ChunkRecordV1.dumpMembers (chunk : ChunkRecordV1) : List (String × JsonValue) :=
  let optional (id : Option String) : JsonValue := id.elim .null .str
  [("chunk_id", .str chunk.chunkId), ("document_id", .str chunk.documentId),
    ("version_id", .str chunk.versionId), ("text", .str chunk.text),
    ("section_path", .str chunk.sectionPath), ("page_start", .int chunk.pageStart),
    ("page_end", .int chunk.pageEnd), ("parent_chunk_id", optional chunk.parentChunkId),
    ("previous_chunk_id", optional chunk.previousChunkId),
    ("next_chunk_id", optional chunk.nextChunkId),
    ("tenant_id", .str chunk.tenantId), ("visibility", .str chunk.visibility.text),
    ("library_scope_ids", .array (chunk.libraryScopeIds.map .str)),
    ("parse_version", .str chunk.parseVersion),
    ("embedding_version", .str chunk.embeddingVersion), ("is_active", .bool chunk.isActive)]

/-- `model_dump(mode="json")`. -/
def ChunkRecordV1.modelDump (chunk : ChunkRecordV1) : JsonObject := .ofMembers chunk.dumpMembers

end ZhiyanRag.Ingestion

namespace ZhiyanRag.Retrieval

open Relational ZhiyanRag.Ingestion ZhiyanRag.Storage

/-! ### Physical names -/

/-- `^[a-z0-9][a-z0-9._-]*$`. -/
def indexNamePattern (s : String) : Bool :=
  match utf8Bytes s with
  | [] => false
  | b :: bs => isKeyStart b && bs.all fun c => isKeyStart c || c == 46 || c == 95 || c == 45

/-- `^[A-Za-z_][A-Za-z0-9_]{0,254}$`. -/
def collectionNamePattern (s : String) : Bool :=
  match utf8Bytes s with
  | [] => false
  | b :: bs => (isLower b || isUpper b || b == 95) && decide (bs.length ≤ 254) && bs.all fun c =>
    isIdStart c || c == 95

/-- `_identity_digest`: the front of a SHA-256 in hexadecimal. -/
abbrev IdentityDigest :=
  { s : String // decide ((utf8Bytes s).length = 24) && (utf8Bytes s).all isLowerHex }

/-- The checks of `ElasticsearchVersionIndexWriter.__init__`. -/
structure ElasticsearchVersionIndexWriter where
  indexPrefix : String
  validPrefix : indexNamePattern indexPrefix = true
  fits : (utf8Bytes (indexPrefix ++ "--v-")).length + 24 ≤ 255

/-- The checks of `MilvusVersionIndexWriter.__init__`. -/
structure MilvusVersionIndexWriter where
  collectionPrefix : String
  validPrefix : collectionNamePattern collectionPrefix = true
  fits : (utf8Bytes (collectionPrefix ++ "_v_")).length + 24 ≤ 255

/-- The two physical names of a version, after `_validate_identity`. -/
def physicalName (name : IdentityDigest → String)
    (identityDigest : String → String → IdentityDigest) (ownerId documentVersionId : String) :
    Except PyError String := do
  ensure (validIdentity ownerId documentVersionId) .valueError
    "owner_id and document_version_id must be valid contract IDs"
  return name (identityDigest ownerId documentVersionId)

/-- `physical_index_name`. -/
def ElasticsearchVersionIndexWriter.indexName (writer : ElasticsearchVersionIndexWriter)
    (digest : IdentityDigest) : String :=
  writer.indexPrefix ++ "--v-" ++ digest.val

/-- `physical_collection_name`. -/
def MilvusVersionIndexWriter.collectionName (writer : MilvusVersionIndexWriter)
    (digest : IdentityDigest) : String :=
  writer.collectionPrefix ++ "_v_" ++ digest.val

theorem utf8Bytes_append (s t : String) : utf8Bytes (s ++ t) = utf8Bytes s ++ utf8Bytes t := by
  unfold utf8Bytes
  rw [String.toByteArray_append, ByteArray.data_append, Array.toList_append, List.map_append]

theorem IdentityDigest.bytes (digest : IdentityDigest) :
    (utf8Bytes digest.val).length = 24 ∧ ∀ b ∈ utf8Bytes digest.val, isLowerHex b = true := by
  have h := digest.property
  rw [Bool.and_eq_true, decide_eq_true_eq, List.all_eq_true] at h
  exact h

theorem isKeyStart_of_isLowerHex {b : Nat} (h : isLowerHex b = true) : isKeyStart b = true := by
  simp only [isLowerHex, isKeyStart, isDigit, isLower, Bool.or_eq_true, Bool.and_eq_true,
    decide_eq_true_eq] at h ⊢
  omega

/-- `ElasticsearchBm25Index` takes every name of the writer. -/
theorem indexNamePattern_indexName (writer : ElasticsearchVersionIndexWriter)
    (digest : IdentityDigest) :
    indexNamePattern (writer.indexName digest) = true := by
  have hname := writer.validPrefix
  have hseparator : utf8Bytes "--v-" = [45, 45, 118, 45] := by decide +kernel
  unfold indexNamePattern ElasticsearchVersionIndexWriter.indexName at *
  rw [utf8Bytes_append, utf8Bytes_append, hseparator]
  cases hbytes : utf8Bytes writer.indexPrefix with
  | nil => rw [hbytes] at hname; cases hname
  | cons b bs =>
    rw [hbytes] at hname
    simp only [Bool.and_eq_true, List.cons_append, List.all_append] at hname ⊢
    refine ⟨hname.1, ⟨hname.2, by decide⟩, List.all_eq_true.mpr fun c hc => ?_⟩
    rw [isKeyStart_of_isLowerHex (digest.bytes.2 c hc)]
    rfl

/-- `MilvusVectorIndex` takes every name of the writer. -/
theorem collectionNamePattern_collectionName (writer : MilvusVersionIndexWriter)
    (digest : IdentityDigest) :
    collectionNamePattern (writer.collectionName digest) = true := by
  have hname := writer.validPrefix
  have hfits := writer.fits
  have hseparator : utf8Bytes "_v_" = [95, 118, 95] := by decide +kernel
  unfold collectionNamePattern MilvusVersionIndexWriter.collectionName at *
  rw [utf8Bytes_append, hseparator] at hfits
  rw [utf8Bytes_append, utf8Bytes_append, hseparator]
  cases hbytes : utf8Bytes writer.collectionPrefix with
  | nil => rw [hbytes] at hname; cases hname
  | cons b bs =>
    rw [hbytes] at hname hfits
    simp only [Bool.and_eq_true, List.cons_append, List.all_append, decide_eq_true_eq] at hname ⊢
    refine ⟨⟨hname.1.1, ?_⟩, ⟨hname.2, by decide⟩, List.all_eq_true.mpr fun c hc => ?_⟩
    · have := digest.bytes.1
      simp only [List.length_append, List.length_cons, List.length_nil] at hfits ⊢
      omega
    · have hstart := isKeyStart_of_isLowerHex (digest.bytes.2 c hc)
      unfold isKeyStart at hstart
      unfold isIdStart
      rw [hstart]
      rfl

/-! ### What a search runs over -/

section

open MilvusWriter (Surroundings Limited)

variable {Score ν : Type} {env : Surroundings Score}

/-- The three reads of the repository. -/
inductive RepositoryRead
  | resolve
  | loadChunks
  | revalidate

/-- What the resolver and the retriever are built over; `bm25` and `nearest` are what the indexes
answer to a search, and `failure` is what a read raises on its own account. -/
structure SearchServices (env : Surroundings Score) (ν : Type) where
  elasticsearch : ElasticsearchVersionIndexWriter
  milvus : MilvusVersionIndexWriter
  identityDigest : String → String → IdentityDigest
  limited : Limited Score
  provider : EmbedFunction ν
  toFloat : ν → Except PyError PyFloat
  bm25 : Elasticsearch.Index → Elasticsearch.SearchBody → Except PyError JsonObject
  nearest : Milvus.Collection Score → Milvus.SearchBody Score → Except PyError JsonValue
  failure : RepositoryRead → Option PyError

/-- The tables, and what is stored under each physical name. -/
structure SearchWorld (Score : Type) where
  db : Database
  indexes : String → Option Elasticsearch.Index
  collections : String → Option (Milvus.Collection Score)

/-- `chunks_fingerprint` of the dumped chunks. -/
def sourceFingerprint (env : Surroundings Score) (chunks : List ChunkRecordV1) : String :=
  (env.chunksFingerprint (chunks.map (·.modelDump))).val

/-! ### The routes -/

/-- `verify_online_version` of the Elasticsearch writer. -/
def inspectElasticsearch (services : SearchServices env ν) (world : SearchWorld Score)
    (identity : VersionIdentity) : Except PyError PhysicalRoute := do
  let name ← physicalName services.elasticsearch.indexName services.identityDigest identity.ownerId
    identity.documentVersionId
  let metadata ← ElasticsearchWriter.verifyOnlineVersion env.unicode (world.indexes name) identity
  return ⟨name, [metadata]⟩

/-- `verify_online_version` of the Milvus writer. -/
def inspectMilvus (services : SearchServices env ν) (world : SearchWorld Score)
    (identity : VersionIdentity) : Except PyError PhysicalRoute := do
  let name ← physicalName services.milvus.collectionName services.identityDigest identity.ownerId
    identity.documentVersionId
  let metadata ← MilvusWriter.verifyOnlineVersion env services.limited (world.collections name)
    identity
  return ⟨name, [metadata]⟩

/-- The route of a resolved version. -/
def inspectRoute (services : SearchServices env ν) (world : SearchWorld Score) (ownerId : String)
    (version : DocumentVersionLifecycleV1) : Except PyError OnlineVersionRoute :=
  let identity : VersionIdentity := ⟨ownerId, version.documentId, version.documentVersionId⟩
  verifyRoute ownerId version (inspectElasticsearch services world identity)
    (inspectMilvus services world identity)

/-- `resolve`. -/
def resolveRoutes (services : SearchServices env ν) (world : SearchWorld Score) (ownerId : String)
    (documentIds : List String) : Except PyError (List OnlineVersionRoute) := do
  let versions ← resolveReadyVersions world.db ownerId documentIds (services.failure .resolve)
  versions.mapM (inspectRoute services world ownerId)

/-! ### Questions and embeddings -/

/-- The plan asks something of each document. -/
def RouteQueryPlan.applies (plan : RouteQueryPlan) (documentIds : List String) : Bool :=
  decide (plan.status = "APPLIED") &&
    decide ((plan.queries.map Prod.fst).toFinset = documentIds.toFinset) && plan.queries.all
      fun query => query.2.toList.any fun c => !isPySpace c

/-- `route_queries`: those of a plan that applies, or the question for each document. -/
def routeQueries (planner : Option (String → List String → Except PyError RouteQueryPlan))
    (question : String) (documentIds : List String) :
    List (String × String) :=
  let original := documentIds.map (·, question)
  match planner with
  | none => original
  | some plan =>
    match plan question documentIds with
    | .ok queryPlan => if queryPlan.applies documentIds then queryPlan.queries else original
    | .error _ => original

/-- `_embed_single_query`. -/
def embedSingleQuery (toFloat : ν → Except PyError PyFloat) (provider : EmbedFunction ν)
    (question : String) : Except PyError QueryVector := do
  let vectors ← (embed toFloat provider [] [question]).result
  match vectors with
  | [vector] => return vector
  | _ => .error ⟨.valueError, "embedding provider must return exactly one query vector"⟩

/-- The vector of each query: that of the question is made beforehand where there is no planner. -/
def queryEmbeddings (services : SearchServices env ν) (prewarmed : Bool) (question : String)
    (queries : List (String × String)) : Except PyError (List (String × QueryVector)) :=
  if prewarmed && queries.all fun query => decide (query.2 = question) then do
    let vector ← embedSingleQuery services.toFloat services.provider question
    return [(question, vector)]
  else (embedRouteQueries services.toFloat services.provider [] queries).2

/-! ### The searches of a route -/

/-- `route_scope`. -/
def routeScope (scope : JsonObject) (route : OnlineVersionRoute) : JsonObject :=
  ((scope.put "document_ids" (.array [.str route.documentId])).put "library_ids" (.array [])).put
    "folder_ids" (.array [])

/-- `staged_source_chunks`. -/
def stagedSourceChunks (route : OnlineVersionRoute) (chunks : List ChunkRecordV1) :
    List ChunkRecordV1 :=
  (routeChunks route chunks).map (·.withActive false)

/-- `verified_metadata`, which is passed where there is some. -/
def verifiedMetadata (metadata : List (String × String)) :
    Option (List (String × String)) := if metadata.isEmpty then none else some metadata

section

variable (services : SearchServices env ν)
  (retriever : OnlineVersionRrfRetriever env.toFloatArithmetic) (world : SearchWorld Score)
  (request : SearchRequest) (chunks : List ChunkRecordV1)

def searchLexicalRoute (route : OnlineVersionRoute) (question : String) :
    Except PyError (List (RankedChunk env.toFloatArithmetic)) :=
  Elasticsearch.search env.toNumberArithmetic (sourceFingerprint env)
    (world.indexes route.elasticsearchIndex) services.bm25 question (routeScope request.scope route)
      retriever.candidateK (some (stagedSourceChunks route chunks))
    (verifiedMetadata route.elasticsearchVerificationMetadata)

/-- `_search_vector_route`. -/
def searchVectorRoute (embeddings : List (String × QueryVector)) (route : OnlineVersionRoute)
    (question : String) : Except PyError (List (RankedChunk env.toFloatArithmetic)) := do
  let vector ← (embeddings.lookup question).elim
    (.error ⟨.valueError, "online route query embedding is missing"⟩) .ok
  let vector ← vector.mapM env.ofNumber
  Milvus.search env.toVectorArithmetic
    { unicode := env.unicode
      chunksFingerprint := sourceFingerprint env
      identity := env.identity 0
      limited := fun collection limit => services.limited 0 collection limit.toNat
      respond := services.nearest }
    (world.collections route.milvusCollection) question (routeScope request.scope route)
      retriever.candidateK retriever.vectorMinScore
    (some (stagedSourceChunks route chunks)) vector
      (verifiedMetadata route.milvusVerificationMetadata)

/-- What the routes' searches have delivered: their rankings, and what they told the timing sinks.
-/
structure RouteResults (env : Surroundings Score) where
  rankings : List (List (RankedChunk env.toFloatArithmetic))
  elasticsearchTimings : Nat
  milvusTimings : Nat

/-- The two searches of a route. -/
def searchRoute (embeddings : List (String × QueryVector)) (queries : List (String × String))
    (results : RouteResults env) (route : OnlineVersionRoute) :
    Except PyError (RouteResults env) := do
  let question ← (queries.lookup route.documentId).elim
    (.error ⟨.lookupError, route.documentId⟩) .ok
  let both ← routeRankings route
    (searchLexicalRoute services retriever world request chunks route question)
      (searchVectorRoute services retriever world request chunks embeddings route question)
  -- a search tells its sink the time once, when it returns
  return ⟨results.rankings ++ both, results.elasticsearchTimings + 1, results.milvusTimings + 1⟩

/-- The searches of all routes; without routes no query is embedded. -/
def searchRoutes (routes : List OnlineVersionRoute) : Except PyError (RouteResults env) :=
  if routes.isEmpty then .ok ⟨[], 0, 0⟩
  else do
    let queries :=
      routeQueries retriever.routeQueryPlanner request.question (routes.map (·.documentId))
    let embeddings ← queryEmbeddings services retriever.routeQueryPlanner.isNone
      request.question queries
    routes.foldlM (searchRoute services retriever world request chunks embeddings queries)
      ⟨[], 0, 0⟩

end

/-! ### The search -/

variable (services : SearchServices env ν)
  (retriever : OnlineVersionRrfRetriever env.toFloatArithmetic) (world : SearchWorld Score)
  (request : SearchRequest)

/-- `search` from the snapshot to `revalidate`, on resolved routes. -/
def retrieveRoutes (routes : List OnlineVersionRoute) : Except PyError (RouteResults env) := do
  let chunks ← repositoryCall (services.failure .loadChunks)
    (loadOnlineChunks world.db request.ownerId (routes.map (·.documentVersionId)))
  checkSnapshot routes chunks
  let results ← searchRoutes services retriever world request chunks routes
  revalidate world.db routes request.ownerId request.documentIds (services.failure .revalidate)
  return results

/-- `search`. -/
def OnlineVersionRrfRetriever.search :
    Except PyError (List (RankedChunk env.toFloatArithmetic)) := do
  checkSearch request
  let routes ← resolveRoutes services world request.ownerId request.documentIds
  let results ← (retrieveRoutes services retriever world request routes).mapError failedClosed
  finish retriever request routes results.rankings results.elasticsearchTimings
    results.milvusTimings

end

/-! ### A search of one document -/

def fixedSha : Sha256 :=
  ⟨"ffffffffffffffffffffffffffffffffffffffffffffffffffffffffffffffff", by decide +kernel⟩

/-- Exact arithmetic, and a provider that embeds every text alike. -/
def exactSurroundings : MilvusWriter.Surroundings Rat where
  toFloatArithmetic := rationalScores
  ofNumber x := x.casesOn .ok (fun _ => .error ⟨.valueError, "not a rational number"⟩)
    (.error ⟨.valueError, "not a rational number"⟩)
  mul := (· * ·)
  div := (· / ·)
  sqrt x := x
  fsum values := .ok values.sum
  unicode := asciiTables
  identity _ := .ok ⟨"local", "m3", "d1"⟩
  embed _ texts := .ok (texts.map fun _ => [1])
  toFloat32 := .ok
  chunksFingerprint _ := fixedSha
  embeddingsSha256 _ := fixedSha

/-- The chunk of `sampleRecord`, active and with this text. -/
def servedRecord (text : String) : ChunkRecordV1 :=
  { sampleRecord with text := text, isActive := true }

/-- An index with one document. -/
def servedIndex (payload : JsonObject) : Elasticsearch.Index :=
  { ElasticsearchWriter.createdIndex (fun _ => fixedSha) ⟨"owner_1", "doc_1", "version_1"⟩
    [payload] with
    documents := ⟨[⟨"chunk_1", payload⟩], List.nodup_singleton _⟩ }

/-- A collection with one row. -/
def servedCollection (payload : JsonObject) : Milvus.Collection Rat where
  metadata := MilvusWriter.expectedConfiguration ++ MilvusWriter.providerMetadata
    ⟨"local", "m3", "d1"⟩ ++ [("source_chunks_sha256", fixedSha.val), ("chunk_count", "1"),
      ("embedding_dimension", "1"), ("owner_id", "owner_1"), ("document_id", "doc_1"),
      ("document_version_id", "version_1"), ("embeddings_sha256", fixedSha.val)]
  fields := Milvus.expectedFields
  rows := ⟨[.ofChunk payload [1]], List.nodup_singleton _⟩

/-- The version with its chunk, whose indexes hold the payload. -/
def servedWorld (payload : JsonObject) : SearchWorld Rat where
  db := sampleHistory.db
  indexes name := if name = "es--v-000000000000000000000000" then some (servedIndex payload)
    else none
  collections name := if name = "milvus_v_000000000000000000000000"
    then some (servedCollection payload) else none

/-- Backends that score all they may return alike. -/
def exactServices : SearchServices exactSurroundings Rat where
  elasticsearch := ⟨"es", by decide +kernel, by decide +kernel⟩
  milvus := ⟨"milvus", by decide +kernel, by decide +kernel⟩
  identityDigest _ _ := ⟨"000000000000000000000000", by decide +kernel⟩
  limited _ collection limit := collection.rows.rows.take limit
  provider texts := .ok (texts.map fun _ => [1])
  toFloat x := .ok (.finite x)
  bm25 index body :=
    let hits := (index.documents.rows.filter fun document => body.filter.holds document.source).map
      fun document =>
      JsonValue.object [("_source", .object document.source.members.rows), ("_score", .int 1)]
    .ok (.ofMembers [("hits", .object [("hits", .array hits)])])
  nearest collection body :=
    let hits := (collection.rows.rows.filter fun row => body.filter.holds row).map fun row =>
      JsonValue.object [("entity", .object [("payload", .object row.payload.members.rows)]),
        ("distance", .int 1)]
    .ok (.array [.array hits])
  failure _ := none

def servedRequest : SearchRequest := { sampleRequest with
  scope := .ofMembers [("user_id", .str "owner_1"), ("tenant_id", .str "owner_1"),
    ("acl_version", .str "acl_1"), ("include_public", .bool false), ("document_ids", .array []),
    ("library_ids", .array []), ("folder_ids", .array [])] }

/-- The texts that a search returns. -/
def foundTexts (found : Except PyError (List (RankedChunk rationalScores))) :
    Option (List (Option String)) :=
  found.toOption.map fun ranking => ranking.map fun candidate => (candidate.chunk.get "text").str?

example : foundTexts
    (sampleRetriever.search exactServices (servedWorld (servedRecord "text").modelDump)
      servedRequest) =
    some [some "text"] := by decide +kernel

end ZhiyanRag.Retrieval
