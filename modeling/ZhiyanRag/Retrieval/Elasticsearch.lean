import Mathlib.Data.List.Sort
import ZhiyanRag.Ingestion.Models
import ZhiyanRag.Retrieval.Fixture
import ZhiyanRag.Retrieval.Results

/-!
# The Elasticsearch index

`ElasticsearchBm25Index` on one physical index: the filter of a scope as a query of the
`bool`/`term`/`terms` DSL with its meaning on a stored document, the check of a chunk before it is
indexed, the check of the index metadata against the source chunks, and `search`. The ranking by
BM25 is Elasticsearch's own, so the response to a search is a parameter.
-/

namespace ZhiyanRag.Retrieval

open Relational ZhiyanRag.Ingestion

/-! ### Values -/

/-- A value of a `term` query. -/
inductive TermValue
  | str (value : String)
  | bool (value : Bool)

def TermValue.holds : TermValue → JsonValue → Bool
  | str s, value => decide (value.str? = some s)
  | bool b, .bool value => decide (value = b)
  | bool _, _ => false

namespace JsonValue

/-- What a field is indexed under: nothing for `null`, each item of an array. -/
def indexed : JsonValue → List JsonValue
  | null => []
  | array items => items
  | value => [value]

/-- The value as an `int`, which a `bool` is. -/
def int? : JsonValue → Option Int
  | int value => some value
  | bool value => some value.toNat
  | _ => none

/-- `value.get(field) if isinstance(value, dict) else None`. -/
def member : JsonValue → String → JsonValue
  | object members, field => (members.lookup field).getD null
  | _, _ => null

end JsonValue

/-- `_string_list`: the strings of a list of non-empty strings, sorted and without repeats. -/
def stringList (scope : JsonObject) (field : String) : Option (List String) :=
  match scope.get field with
  | .array items =>
    if items.all JsonValue.isNonemptyStr then
      some ((items.filterMap JsonValue.str?).dedup.insertionSort fun s t => s ≤ t)
    else none
  | _ => none

/-- What a filter is made of. -/
structure FilterScope where
  tenantId : String
  includePublic : Bool
  documentIds : List String
  libraryIds : List String
  folderIds : List String

/-- The checks that `_authorization_filter` of either index begins with. -/
def readScope (scope : JsonObject) : Option FilterScope := do
  let tenantId ← (scope.get "tenant_id").str?
  let documentIds ← stringList scope "document_ids"
  let libraryIds ← stringList scope "library_ids"
  let folderIds ← stringList scope "folder_ids"
  if (scope.get "user_id").isNonemptyStr && decide (tenantId ≠ "") &&
    (scope.get "acl_version").isNonemptyStr &&
      (scope.get "include_public").isBool then
    some ⟨tenantId, (scope.get "include_public").isTrue, documentIds, libraryIds, folderIds⟩
  else none

/-- `metadata.get(key)`, for the pairs that `dict` was made of. -/
def metadataGet (metadata : List (String × String)) (key : String) : Option String :=
  metadata.reverse.lookup key

/-- The arithmetic of scores with `float(value)` of a JSON number. -/
structure NumberArithmetic (Score : Type) extends FloatArithmetic Score where
  ofNumber : PyFloat → Except PyError Score

namespace Elasticsearch

def retrievalBackend : String := "elasticsearch_bm25"

def indexConfiguration : List (String × String) :=
  [("schema_version", "elasticsearch_bm25_index_v1"), ("retrieval_backend", retrievalBackend),
    ("text_analyzer", "standard"), ("query_mode", "multi_match_or"), ("section_path_boost", "2.0")]

def notReady (message : String) : PyError := ⟨.indexNotReadyError, message⟩

/-! ### The query language -/

/-- The queries the filters are made of. -/
inductive Query
  | matchAll
  | term (field : String) (value : TermValue)
  | terms (field : String) (values : List String)
  | bool (filter should mustNot : List Query) (minimumShouldMatch : Option Nat)

namespace Query

mutual

/-- The document matches the query. Without `minimum_should_match` one `should` clause has to match,
or none if there are `filter` clauses or no `should` clauses. -/
def holds (document : JsonObject) : Query → Bool
  | matchAll => true
  | term field value => (document.get field).indexed.any value.holds
  | terms field values => (document.get field).indexed.any fun value =>
    value.str?.any values.contains
  | bool filter should mustNot minimumShouldMatch =>
    allHold document filter && noneHolds document mustNot &&
      decide (minimumShouldMatch.getD (if should.isEmpty || !filter.isEmpty then 0 else 1) ≤
        countHolds document should)

def allHold (document : JsonObject) : List Query → Bool
  | [] => true
  | query :: queries => holds document query && allHold document queries

def noneHolds (document : JsonObject) : List Query → Bool
  | [] => true
  | query :: queries => !holds document query && noneHolds document queries

def countHolds (document : JsonObject) : List Query → Nat
  | [] => 0
  | query :: queries => (holds document query).toNat + countHolds document queries

end

/-- `{"bool": {"must_not": [{"match_all": {}}]}}`. -/
def matchNone : Query := bool [] [] [matchAll] none

/-- `{"bool": {"filter": clauses}}`. -/
def filtered (clauses : List Query) : Query := bool clauses [] [] none

/-- `{"bool": {"should": clauses, "minimum_should_match": 1}}`. -/
def anyOf (clauses : List Query) : Query := bool [] clauses [] (some 1)

end Query

/-! ### The filter of a scope -/

/-- The selectors that chunks can be matched against; chunks carry no folder. -/
def selectors (documentIds libraryIds : List String) : List Query :=
  (if documentIds.isEmpty then [] else [.terms "document_id" documentIds]) ++
    if libraryIds.isEmpty then [] else [.terms "library_scope_ids" libraryIds]

/-- The rules of `_authorization_filter` for a well-formed scope. -/
def visibilityRules (scope : FilterScope) : List Query :=
  let selectors := selectors scope.documentIds scope.libraryIds
  let selection := Query.anyOf selectors
  let hasResolvableSelector := !selectors.isEmpty
  let hasAnySelector := hasResolvableSelector || !scope.folderIds.isEmpty
  (if scope.includePublic && (!hasAnySelector || hasResolvableSelector) then
    [.filtered (.term "visibility" (.str "public") :: if hasAnySelector then [selection] else [])]
      else []) ++
  [.filtered ([.term "visibility" (.str "tenant"), .term "tenant_id" (.str scope.tenantId)] ++
    if hasAnySelector then [if hasResolvableSelector then selection else .matchNone] else [])] ++
  if hasResolvableSelector then
    [.filtered [.term "visibility" (.str "private"), .term "tenant_id" (.str scope.tenantId),
      selection]] else []

/-- `_authorization_filter`. -/
def authorizationFilter (scope : JsonObject) : Query :=
  match readScope scope with
  | none => .matchNone
  | some scope => .bool [.term "is_active" (.bool true)] (visibilityRules scope) [] (some 1)

/-! ### Checking chunks and metadata -/

/-- The checks of `_validate_chunks` on one chunk, after its identifier. -/
def validateChunk (chunkId : String) (chunk : JsonObject) : Except PyError Unit := do
  ensure (["document_id", "version_id", "text", "section_path", "tenant_id", "visibility",
    "parse_version",
      "embedding_version"].all fun field => (chunk.get field).isNonemptyStr) .valueError
    s!"chunk {chunkId} is missing required string fields"
  ensure (match chunk.get "library_scope_ids" with
    | .array items => items.all JsonValue.isNonemptyStr
    | _ => false) .valueError s!"chunk {chunkId} has invalid library_scope_ids"
  ensure (chunk.get "is_active").isBool .valueError s!"chunk {chunkId} has invalid is_active"
  ensure (match (chunk.get "page_start").int?, (chunk.get "page_end").int? with
    | some pageStart, some pageEnd => decide (1 ≤ pageStart) && decide (pageStart ≤ pageEnd)
    | _, _ => false) .valueError s!"chunk {chunkId} has an invalid page range"

/-- The rest of `_validate_chunks`, from a position on and with the identifiers seen before it. -/
def validateChunksFrom (position : Nat) (seen : List String) : List JsonObject → Except PyError Unit
  | [] => .ok ()
  | chunk :: chunks => do
    let chunkId := (chunk.get "chunk_id").str?.getD ""
    ensure (chunk.get "chunk_id").isNonemptyStr .valueError
      s!"chunk at position {position} has no valid chunk_id"
    ensure (!seen.contains chunkId) .valueError s!"duplicate chunk_id: {chunkId}"
    validateChunk chunkId chunk
    validateChunksFrom (position + 1) (chunkId :: seen) chunks

/-- `_validate_chunks`. -/
def validateChunks (chunks : List JsonObject) : Except PyError Unit :=
  validateChunksFrom 0 [] chunks

/-- `_verify_source_metadata`. -/
def verifySourceMetadata (chunksFingerprint : List ChunkRecordV1 → String)
    (metadata : List (String × String)) (chunks : List ChunkRecordV1) : Except PyError Unit := do
  ensure (decide (metadataGet metadata "source_chunks_sha256" = some (chunksFingerprint chunks)))
    .indexNotReadyError "Elasticsearch index source fingerprint does not match chunks"
  ensure (decide (metadataGet metadata "chunk_count" = some (toString chunks.length)))
    .indexNotReadyError "Elasticsearch index chunk count does not match chunks"

/-! ### The physical index -/

/-- A stored document and its `_id`. -/
structure Document where
  id : String
  source : JsonObject

/-- A physical index: its settings, its mapping with the normalized `_meta`, and its documents. -/
structure Index where
  hidden : Bool
  dynamic : String
  properties : List (String × String)
  metadata : List (String × String)
  documents : Table Document.id

/-- `inspect`, on the index of the name if there is one. -/
def inspect : Option Index → Except PyError (List (String × String))
  | none => .error (notReady "Elasticsearch request failed")
  | some index => do
    indexConfiguration.forM fun member =>
      ensure (decide (metadataGet index.metadata member.1 = some member.2)) .indexNotReadyError
        s!"Elasticsearch index {member.1} metadata is invalid"
    return index.metadata

/-! ### Searching -/

/-- The body of a search. -/
structure SearchBody where
  size : Int
  question : String
  filter : Query

section

variable {Score : Type} (float : NumberArithmetic Score)

/-- One hit: its score and source, or the error it raises. -/
def readHit (hit : JsonValue) : Except PyError (Score × JsonObject) :=
  match hit.member "_source", (hit.member "_score").number? with
  | .object members, some number => do
    let score ← float.ofNumber number
    ensure (float.isFinite score) .indexNotReadyError "Elasticsearch search score must be finite"
    return (score, JsonObject.ofMembers members)
  | _, _ => .error (notReady "Elasticsearch search hit violates ranked candidate interface")

/-- The hits of a response. -/
def readHits (response : JsonObject) : Except PyError (List (Score × JsonObject)) :=
  match (response.get "hits").member "hits" with
  | .array hits => hits.mapM (readHit float)
  | _ => .error (notReady "Elasticsearch search response is invalid")

end

end Elasticsearch

section

variable {Score : Type} (float : FloatArithmetic Score)

/-- The order of `(-score, chunk_id)`. -/
def scoredLe (a b : Score × JsonObject) : Prop :=
  float.lt b.1 a.1 = true ∨ (float.lt a.1 b.1 = false ∧ chunkIdOf a.2 ≤ chunkIdOf b.2)

instance : DecidableRel (scoredLe float) := fun a b => by unfold scoredLe; infer_instance

/-- The first candidates by score, as a ranking. -/
def rankByScore (backend : String) (scored : List (Score × JsonObject)) (topK : Int) :
    Except PyError (List (RankedChunk float)) :=
  rankInOrder float backend ((scored.insertionSort (scoredLe float)).take topK.toNat)

end

namespace Elasticsearch

variable {Score : Type} (float : NumberArithmetic Score)

/-- `search`; `respond` is what the index answers to the body. -/
def search (chunksFingerprint : List ChunkRecordV1 → String) (index : Option Index)
    (respond : Index → SearchBody → Except PyError JsonObject) (question : String)
    (scope : JsonObject) (topK : Int)
    (fingerprintChunks : Option (List ChunkRecordV1))
    (verifiedMetadata : Option (List (String × String))) :
    Except PyError (List (RankedChunk float.toFloatArithmetic)) := do
  ensure (question.toList.any fun c => !isPySpace c) .valueError "question must not be blank"
  ensure (decide (1 ≤ topK)) .valueError "top_k must be at least 1"
  fingerprintChunks.elim (.ok ()) fun chunks => do
    let metadata ← verifiedMetadata.elim (inspect index) .ok
    verifySourceMetadata chunksFingerprint metadata chunks
  let response ← index.elim (.error (notReady "Elasticsearch request failed")) fun index =>
    respond index ⟨topK, question, authorizationFilter scope⟩
  let hits ← readHits float response
  rankByScore float.toFloatArithmetic retrievalBackend
    (hits.filter fun hit => isChunkAuthorized hit.2 scope) topK

end Elasticsearch

end ZhiyanRag.Retrieval
