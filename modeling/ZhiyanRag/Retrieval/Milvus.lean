import ZhiyanRag.Ingestion.Text
import ZhiyanRag.Retrieval.Elasticsearch

/-!
# The Milvus collection

`MilvusVectorIndex` on one physical collection: the filter of a scope as a boolean expression with
its meaning on a row, the check of a chunk before it is inserted, the checks of the collection
metadata, and `search`. The nearest neighbours are Milvus's own, so the response to a search is a
parameter, and so is the arithmetic of the vectors.
-/

namespace ZhiyanRag.Retrieval

open Relational ZhiyanRag.Ingestion

/-- The arithmetic of scores and vectors. -/
structure VectorArithmetic (Score : Type) extends NumberArithmetic Score where
  mul : Score → Score → Score
  div : Score → Score → Score
  sqrt : Score → Score
  fsum : List Score → Except PyError Score

/-! ### Python text -/

/-- Digits with single underscores between them, after a value read so far. -/
def readDigits (unicode : UnicodeTables) (value : Nat) : List Char → Option Nat
  | [] => some value
  | '_' :: c :: rest => (unicode.decimal c).bind fun digit =>
    readDigits unicode (10 * value + digit) rest
  | c :: rest => (unicode.decimal c).bind fun digit => readDigits unicode (10 * value + digit) rest

/-- `int(text)`, if it does not raise. -/
def pyInt? (unicode : UnicodeTables) (text : String) : Option Int :=
  let unsigned (digits : List Char) : Option Nat := match digits with
    | [] => none
    | c :: rest => (unicode.decimal c).bind fun digit => readDigits unicode digit rest
  match strip text.toList with
  | '+' :: rest => (unsigned rest).map fun n => n
  | '-' :: rest => (unsigned rest).map fun n => -n
  | digits => (unsigned digits).map fun n => n

namespace Milvus

def retrievalBackend : String := "milvus_dense_bge_m3"

def notReady (message : String) : PyError := ⟨.indexNotReadyError, message⟩

/-! ### Rows and expressions -/

/-- A stored row, one field for each column of the schema. -/
structure Row (Score : Type) where
  chunkId : String
  embedding : List Score
  documentId : String
  tenantId : String
  visibility : String
  libraryScopeIds : List String
  isActive : Bool
  payload : JsonObject

/-- The row of a chunk. -/
def Row.ofChunk {Score : Type} (chunk : JsonObject) (vector : List Score) : Row Score where
  chunkId := chunkIdOf chunk
  embedding := vector
  documentId := ((chunk.get "document_id").str?).getD ""
  tenantId := ((chunk.get "tenant_id").str?).getD ""
  visibility := ((chunk.get "visibility").str?).getD ""
  libraryScopeIds := (chunk.get "library_scope_ids").stringSet
  isActive := (chunk.get "is_active").isTrue
  payload := chunk

/-- The string columns that expressions name. -/
inductive Column
  | documentId
  | tenantId
  | visibility

def Column.name : Column → String
  | documentId => "document_id"
  | tenantId => "tenant_id"
  | visibility => "visibility"

def Column.read {Score : Type} (row : Row Score) : Column → String
  | documentId => row.documentId
  | tenantId => row.tenantId
  | visibility => row.visibility

/-- A boolean expression; `group` is a pair of parentheses. -/
inductive Expression
  | isActive (value : Bool)
  | equals (column : Column) (value : String)
  | isIn (column : Column) (values : List String)
  | containsAny (values : List String)
  | all (operands : List Expression)
  | any (operands : List Expression)
  | group (operand : Expression)

namespace Expression

mutual

/-- The row satisfies the expression. -/
def holds {Score : Type} (row : Row Score) : Expression → Bool
  | isActive value => decide (row.isActive = value)
  | equals column value => decide (column.read row = value)
  | isIn column values => values.contains (column.read row)
  | containsAny values => row.libraryScopeIds.any values.contains
  | all operands => allHold row operands
  | any operands => anyHolds row operands
  | group operand => holds row operand

def allHold {Score : Type} (row : Row Score) : List Expression → Bool
  | [] => true
  | operand :: operands => holds row operand && allHold row operands

def anyHolds {Score : Type} (row : Row Score) : List Expression → Bool
  | [] => false
  | operand :: operands => holds row operand || anyHolds row operands

end

end Expression

/-! ### The filter of a scope -/

/-- `is_active == true and is_active == false`. -/
def matchNone : Expression := .all [.isActive true, .isActive false]

def selectors (documentIds libraryIds : List String) : List Expression :=
  (if documentIds.isEmpty then [] else [.isIn .documentId documentIds]) ++
    if libraryIds.isEmpty then [] else [.containsAny libraryIds]

/-- The rules of `_authorization_filter` for a well-formed scope. -/
def visibilityRules (scope : FilterScope) : List Expression :=
  let selectors := selectors scope.documentIds scope.libraryIds
  let selector : List Expression := if selectors.isEmpty then [] else [.group (.any selectors)]
  (if scope.includePublic then [.group (.all (.equals .visibility "public" :: selector))]
    else []) ++
  [.group (.all ([.equals .visibility "tenant", .equals .tenantId scope.tenantId] ++ selector))] ++
  if selectors.isEmpty then []
  else [.group (.all ([.equals .visibility "private", .equals .tenantId scope.tenantId] ++
    selector))]

/-- `_authorization_filter`. -/
def authorizationFilter (scope : JsonObject) : Expression :=
  match readScope scope with
  | none => matchNone
  | some scope =>
    if !scope.folderIds.isEmpty && (selectors scope.documentIds scope.libraryIds).isEmpty
      then matchNone
    else .all [.isActive true, .group (.any (visibilityRules scope))]

/-! ### Checking chunks and metadata -/

/-- The checks of `_validate_chunks` on one chunk, after its identifier. -/
def validateChunk (chunkId : String) (chunk : JsonObject) : Except PyError Unit := do
  ["document_id", "tenant_id", "visibility", "section_path", "text"].forM fun field =>
    ensure (chunk.get field).isNonemptyStr .valueError s!"chunk {chunkId} has invalid {field}"
  ensure (match chunk.get "library_scope_ids" with
    | .array items => items.all JsonValue.isNonemptyStr
    | _ => false) .valueError s!"chunk {chunkId} has invalid library_scope_ids"
  ensure (chunk.get "is_active").isBool .valueError s!"chunk {chunkId} has invalid is_active"

/-- The loop of `_validate_chunks`, with the identifiers seen before. -/
def validateChunksFrom (seen : List String) : List JsonObject → Except PyError Unit
  | [] => .ok ()
  | chunk :: chunks => do
    let chunkId := (chunk.get "chunk_id").str?.getD ""
    ensure ((chunk.get "chunk_id").isNonemptyStr && !seen.contains chunkId) .valueError
      "Milvus chunks require unique non-empty chunk_id values"
    validateChunk chunkId chunk
    validateChunksFrom (chunkId :: seen) chunks

/-- `_validate_chunks`. -/
def validateChunks (chunks : List JsonObject) : Except PyError Unit := do
  ensure (!chunks.isEmpty) .valueError "cannot build an empty Milvus collection"
  validateChunksFrom [] chunks

/-- `_verify_source_metadata`; its callers have checked that both members are there. -/
def verifySourceMetadata (chunksFingerprint : List ChunkRecordV1 → String)
    (metadata : List (String × String)) (chunks : List ChunkRecordV1) : Except PyError Unit := do
  ensure (decide (metadataGet metadata "source_chunks_sha256" = some (chunksFingerprint chunks)))
    .indexNotReadyError "Milvus collection source fingerprint does not match chunks"
  ensure (decide (metadataGet metadata "chunk_count" = some (toString chunks.length)))
    .indexNotReadyError "Milvus collection chunk count does not match chunks"

/-! ### The physical collection -/

def expectedFields : List String :=
  ["chunk_id", "embedding", "document_id", "tenant_id", "visibility", "library_scope_ids",
    "is_active", "payload"]

/-- What the description of every collection says. -/
def collectionConfiguration : List (String × String) :=
  [("schema_version", "milvus_vector_collection_v1"), ("retrieval_backend", retrievalBackend),
    ("passage_template", "section_path_newline_text_v1"), ("query_template", "raw_question_v1"),
    ("vector_normalization", "l2_float32_v1"), ("metric_type", "COSINE"), ("index_type", "HNSW"),
    ("hnsw_m", "16"),
    ("hnsw_ef_construction", "200"), ("hnsw_search_ef", "64")]

/-- `identity()` of the embedding provider. -/
structure ModelIdentity where
  provider : String
  model : String
  digest : String
  deriving DecidableEq

/-- A physical collection: the metadata of its description, its schema's fields, and its rows. -/
structure Collection (Score : Type) where
  metadata : List (String × String)
  fields : List String
  rows : Table (@Row.chunkId Score)

section

variable {Score : Type} (unicode : UnicodeTables)

/-- `_verify_version_logical_rows`; `limited` is what a query with a limit returns. -/
def verifyVersionLogicalRows (collection : Collection Score) (expectedCount : Int)
    (limited : Int → List (Row Score)) : Except PyError Unit := do
  ensure (decide (expectedCount ≤ 16000) &&
      decide (metadataGet collection.metadata "online_entrypoint" =
        some "DETACHED_VERSION_COLLECTION") &&
      ["owner_id", "document_id", "document_version_id"].all fun key =>
        (metadataGet collection.metadata key).any contractIdPattern) .indexNotReadyError
    "Milvus version collection route identity is invalid"
  let chunkIds := (limited (expectedCount + 1)).map (·.chunkId)
  ensure (decide ((chunkIds.length : Int) = expectedCount) && chunkIds.all (· ≠ "") &&
    decide chunkIds.Nodup) .indexNotReadyError
      "Milvus version collection logical row count does not match metadata"

/-- `inspect`, on the collection of the name if there is one. -/
def inspect (collection : Option (Collection Score))
    (limited : Collection Score → Int → List (Row Score)) :
    Except PyError (List (String × String)) := do
  let collection ← collection.elim (.error (notReady "Milvus collection does not exist")) .ok
  let metadata := collection.metadata
  collectionConfiguration.forM fun member =>
    ensure (decide (metadataGet metadata member.1 = some member.2)) .indexNotReadyError
      s!"Milvus collection {member.1} is invalid"
  ensure (decide (collection.fields.dedup.Perm expectedFields)) .indexNotReadyError
    "Milvus collection schema fields are invalid"
  let (dimension, expectedCount) ←
    match (metadataGet metadata "embedding_dimension").bind (pyInt? unicode),
      (metadataGet metadata "chunk_count").bind (pyInt? unicode) with
    | some dimension, some expectedCount => .ok (dimension, expectedCount)
    | _, _ => .error (notReady "Milvus collection count or dimension is invalid")
  ensure (decide (1 ≤ dimension) && decide (1 ≤ expectedCount)) .indexNotReadyError
    "Milvus collection count or dimension is invalid"
  match metadataGet metadata "version_writer_schema" with
  | none =>
    ensure (decide ((collection.rows.rows.length : Int) = expectedCount)) .indexNotReadyError
      "Milvus collection row count does not match metadata"
  | some schema =>
    ensure (decide (schema = "milvus_version_writer_v1")) .indexNotReadyError
      "Milvus collection version writer schema is invalid"
    verifyVersionLogicalRows collection expectedCount (limited collection)
  ["source_chunks_sha256", "embedding_provider", "embedding_model", "embedding_model_digest"].forM
    fun key =>
    ensure ((metadataGet metadata key).any (· ≠ "")) .indexNotReadyError
      s!"Milvus collection {key} is missing"
  return metadata

/-- `verify_provider`. -/
def verifyProvider (collection : Option (Collection Score))
    (limited : Collection Score → Int → List (Row Score))
    (identity : Except PyError ModelIdentity) : Except PyError (List (String × String)) := do
  let metadata ← inspect unicode collection limited
  let identity ← identity
  ensure (decide (metadataGet metadata "embedding_provider" = some identity.provider) &&
      decide (metadataGet metadata "embedding_model" = some identity.model) &&
      decide (metadataGet metadata "embedding_model_digest" = some identity.digest))
        .indexNotReadyError
    "Milvus collection embedding model identity does not match"
  return metadata

end

/-! ### Searching -/

/-- `MilvusSearchStageError`. -/
def stageError (stage : String) : PyError :=
  notReady s!"Milvus search failed at stable stage {stage}"

/-- The arguments of a search, the filter as its expression. -/
structure SearchBody (Score : Type) where
  vector : List Score
  filter : Expression
  limit : Int

section

variable {Score : Type} (float : VectorArithmetic Score)

/-- `_normalize`. -/
def normalize (vector : List Score) : Except PyError (List Score) := do
  ensure (!vector.isEmpty && vector.all float.isFinite) .valueError
    "embedding vector must be non-empty and finite"
  let norm := float.sqrt (← float.fsum (vector.map fun value => float.mul value value))
  ensure (!float.le norm (float.ofInt 0)) .valueError "embedding vector norm must be positive"
  return vector.map fun value => float.div value norm

/-- One hit: its score and payload, or the error it raises. -/
def readHit (hit : JsonValue) : Except PyError (Score × JsonObject) :=
  match (hit.member "entity").member "payload", (hit.member "distance").number? with
  | .object members, some number => do
    let score ← float.ofNumber number
    ensure (float.isFinite score) .indexNotReadyError "Milvus search score must be finite"
    return (score, JsonObject.ofMembers members)
  | _, _ => .error (notReady "Milvus search hit violates ranked candidate interface")

/-- The hits of a response, which has one list for the one vector. -/
def readHits : JsonValue → Except PyError (List (Score × JsonObject))
  | .array [.array hits] => hits.mapM (readHit float)
  | _ => .error (notReady "Milvus search response is invalid")

/-- What `search` is called with besides the question and the scope; `limited` and `respond` are
what the collection answers to a query and to a search. -/
structure SearchOptions (Score : Type) where
  unicode : UnicodeTables
  chunksFingerprint : List ChunkRecordV1 → String
  identity : Except PyError ModelIdentity
  limited : Collection Score → Int → List (Row Score)
  respond : Collection Score → SearchBody Score → Except PyError JsonValue

variable {float}

/-- The metadata that a search relies on, checked against the source chunks. -/
def searchMetadata (options : SearchOptions Score) (collection : Option (Collection Score))
    (fingerprintChunks : Option (List ChunkRecordV1))
    (verifiedMetadata : Option (List (String × String))) :
    Except PyError (List (String × String)) := do
  let metadata ← match verifiedMetadata with
    | none => verifyProvider options.unicode collection options.limited options.identity
    | some metadata => do
      ensure (["source_chunks_sha256", "chunk_count", "embedding_dimension"].all fun key =>
        (metadataGet metadata key).any (· ≠ "")) .indexNotReadyError
          "verified Milvus route metadata is incomplete"
      pure metadata
  fingerprintChunks.elim (.ok ()) (verifySourceMetadata options.chunksFingerprint metadata)
  return metadata

variable (float)

/-- `search` with a query vector. -/
def search (options : SearchOptions Score) (collection : Option (Collection Score))
    (question : String) (scope : JsonObject) (topK : Int) (minScore : Score)
    (fingerprintChunks : Option (List ChunkRecordV1)) (queryVector : List Score)
    (verifiedMetadata : Option (List (String × String))) :
    Except PyError (List (RankedChunk float.toFloatArithmetic)) := do
  ensure (question.toList.any fun c => !isPySpace c) .valueError "question must not be blank"
  ensure (decide (1 ≤ topK) && float.le (float.ofInt (-1)) minScore &&
    float.le minScore (float.ofInt 1)) .valueError "top_k or min_score is invalid"
  let metadata ← (searchMetadata options collection fingerprintChunks verifiedMetadata).mapError
    fun _ =>
    stageError "ROUTE_IDENTITY"
  let vector ← (normalize float queryVector).mapError fun _ => stageError "QUERY_EMBEDDING"
  let dimension ← ((metadataGet metadata "embedding_dimension").bind (pyInt? options.unicode)).elim
    (.error ⟨.valueError, "invalid literal for int()"⟩) .ok
  ensure (decide ((vector.length : Int) = dimension)) .indexNotReadyError
    (stageError "QUERY_EMBEDDING").message
  let response ← (collection.elim (.error (notReady "Milvus collection does not exist"))
    fun collection =>
    options.respond collection ⟨vector, authorizationFilter scope, topK⟩).mapError
      fun _ => stageError "ANN_SEARCH"
  (do
    let hits ← readHits float response
    rankByScore float.toFloatArithmetic retrievalBackend
      (hits.filter fun hit => float.le minScore hit.1 && isChunkAuthorized hit.2 scope)
        topK).mapError fun _ =>
        stageError "RESPONSE_CONTRACT"

end

end Milvus

end ZhiyanRag.Retrieval
