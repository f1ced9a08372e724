import Mathlib.Data.Finset.Card
import ZhiyanRag.Retrieval.Results
import ZhiyanRag.Storage.Repository

/-!
# Online search

`OnlineVersionRrfRetriever.search` over one `PostgresReadyRouteResolver`, as a machine that takes
its steps between the calls of everybody else. Two steps read the version table: `resolve` and
`revalidate`; `loadSnapshot` reads the chunk table at any moment after the first. What comes from
outside PostgreSQL is the step's argument: the results of both route inspectors and the rankings of
both backends. Query planning and embedding decide what the backends are asked, so in the machine
embedding is only a failure.
-/

namespace ZhiyanRag.Retrieval

open Relational ZhiyanRag.Ingestion ZhiyanRag.Storage

def onlineRetrievalBackend : String := "online_ready_es_milvus_rrf_v1"

structure OnlineVersionRoute where
  ownerId : String
  documentId : String
  documentVersionId : String
  elasticsearchIndex : String
  milvusCollection : String
  elasticsearchVerificationMetadata : List (String × String)
  milvusVerificationMetadata : List (String × String)

/-- `(route.document_id, route.document_version_id)`. -/
def OnlineVersionRoute.key (route : OnlineVersionRoute) : String × String :=
  (route.documentId, route.documentVersionId)

/-- `(version.document_id, version.document_version_id)`. -/
def versionKey (v : DocumentVersionLifecycleV1) : String × String :=
  (v.documentId, v.documentVersionId)

/-- The arguments of `search`. -/
structure SearchRequest where
  question : String
  scope : JsonObject
  ownerId : String
  documentIds : List String
  topK : Int

def unavailable (message : String) : PyError := ⟨.onlineVisibilityUnavailableError, message⟩

/-- A call on the repository, which can fail on its own account. -/
def repositoryCall {α : Type} (failure : Option PyError) (call : Except PyError α) :
    Except PyError α :=
  failure.elim call .error

/-! ### The route resolver -/

/-- `by_document[version.document_id] = version`. -/
def indexVersion (ownerId : String)
    (byDocument : Table DocumentVersionLifecycleV1.documentId)
    (version : DocumentVersionLifecycleV1) :
    Except PyError (Table DocumentVersionLifecycleV1.documentId) := do
  ensure (decide (version.ownerId = ownerId) && decide (version.lifecycleStatus = .ready) &&
    version.isActive) .onlineVisibilityUnavailableError
      "PostgreSQL returned inconsistent online version truth"
  match byDocument.insert? version with
  | some byDocument => return byDocument
  | none => throw (unavailable "PostgreSQL returned inconsistent online version truth")

/-- `resolve` up to the verification of the routes: the versions by document. -/
def resolveReadyVersions (db : Database) (ownerId : String) (documentIds : List String)
    (failure : Option PyError) : Except PyError (List DocumentVersionLifecycleV1) := do
  ensure (contractIdPattern ownerId) .onlineScopeForbiddenError
    "authenticated owner identity is invalid"
  ensure (decide documentIds.Nodup && documentIds.all contractIdPattern) .onlineScopeForbiddenError
    "requested document scope is invalid"
  let versions ← (repositoryCall failure (resolveOnlineVersions db ownerId documentIds)).mapError
    fun _ =>
    unavailable "PostgreSQL READY visibility could not be resolved"
  let byDocument ← versions.foldlM (indexVersion ownerId) Table.empty
  ensure (documentIds.isEmpty ||
      decide (documentIds.toFinset =
        (byDocument.rows.map DocumentVersionLifecycleV1.documentId).toFinset))
    .onlineScopeForbiddenError "one or more requested documents are not online for this owner"
  return byDocument.rows.insertionSort fun v w => v.documentId ≤ w.documentId

/-- The route of an inspector, and the metadata it handed to its sink. -/
structure PhysicalRoute where
  route : String
  metadata : List (List (String × String))

/-- `ORDER BY` of `sorted` on pairs of strings. -/
def pairLe (a b : String × String) : Prop := a.1 < b.1 ∨ (a.1 = b.1 ∧ a.2 ≤ b.2)

instance : DecidableRel pairLe := fun a b => by unfold pairLe; infer_instance

/-- `_verify_physical_route`. -/
def verifyPhysicalRoute (inspected : Except PyError PhysicalRoute) :
    Except PyError (String × List (String × String)) := do
  let physical ← inspected
  ensure (decide (physical.metadata.length ≤ 1)) .valueError
    "online physical route verification metadata is duplicated"
  return (physical.route, (physical.metadata.headD []).insertionSort pairLe)

/-- The route of a version, from what the two inspectors returned. -/
def verifyRoute (ownerId : String) (version : DocumentVersionLifecycleV1)
    (elasticsearch milvus : Except PyError PhysicalRoute) : Except PyError OnlineVersionRoute :=
  (do
    let (elasticsearchIndex, elasticsearchMetadata) ← verifyPhysicalRoute elasticsearch
    let (milvusCollection, milvusMetadata) ← verifyPhysicalRoute milvus
    let route : OnlineVersionRoute := {
      ownerId := ownerId
      documentId := version.documentId
      documentVersionId := version.documentVersionId
      elasticsearchIndex := elasticsearchIndex
      milvusCollection := milvusCollection
      elasticsearchVerificationMetadata := elasticsearchMetadata
      milvusVerificationMetadata := milvusMetadata }
    return route).mapError
      fun _ => unavailable "READY version physical index route could not be verified"

/-- PostgreSQL truth is read again after retrieval. -/
def revalidate (db : Database) (routes : List OnlineVersionRoute) (ownerId : String)
    (documentIds : List String) (failure : Option PyError) : Except PyError Unit := do
  let versions ← (repositoryCall failure (resolveOnlineVersions db ownerId documentIds)).mapError
    fun _ =>
    unavailable "PostgreSQL READY visibility could not be revalidated"
  let expected := (routes.map OnlineVersionRoute.key).toFinset
  let current := ((versions.filter fun v =>
    decide (v.ownerId = ownerId) && decide (v.lifecycleStatus = .ready) && v.isActive).map
      versionKey).toFinset
  ensure (decide (current = expected) && decide (current.card = versions.length))
    .onlineVisibilityUnavailableError "PostgreSQL READY visibility changed during retrieval"

/-! ### The routes' snapshot and rankings -/

/-- The checks of `search` before the first read. -/
def checkSearch (request : SearchRequest) : Except PyError Unit := do
  ensure (request.question.toList.any (fun c => !isPySpace c) && decide (1 ≤ request.topK))
    .valueError "online question or top_k is invalid"
  ensure (decide ((request.scope.get "tenant_id").str? = some request.ownerId) &&
      decide ((request.scope.get "user_id").str? = some request.ownerId)) .onlineScopeForbiddenError
    "server authorization scope does not match authenticated owner"

/-- `_route_chunks`. -/
def routeChunks (route : OnlineVersionRoute) (chunks : List ChunkRecordV1) : List ChunkRecordV1 :=
  chunks.filter fun chunk => decide (chunk.tenantId = route.ownerId) &&
    decide (chunk.documentId = route.documentId) &&
    decide (chunk.versionId = route.documentVersionId)

/-- The loaded chunks are those of the routes, and every route has some. -/
def checkSnapshot (routes : List OnlineVersionRoute) (chunks : List ChunkRecordV1) :
    Except PyError Unit := do
  ensure (decide ((chunks.map (·.versionId)).toFinset =
    (routes.map (·.documentVersionId)).toFinset) &&
      decide (chunks.map (·.chunkId)).Nodup) .onlineVisibilityUnavailableError
    "persisted Chunk snapshot does not match READY routes"
  ensure (routes.all fun route => !(routeChunks route chunks).isEmpty)
    .onlineVisibilityUnavailableError "READY route has no matching source Chunk snapshot"

/-- The candidate's chunk is an active chunk of the route's version. -/
def onRoute (route : OnlineVersionRoute) (chunk : JsonObject) : Bool :=
  decide ((chunk.get "tenant_id").str? = some route.ownerId) &&
    decide ((chunk.get "document_id").str? = some route.documentId) &&
    decide ((chunk.get "version_id").str? = some route.documentVersionId) &&
      (chunk.get "is_active").isTrue

/-- An error between the first read and fusion: only a visibility error passes as it is. -/
def failedClosed (e : PyError) : PyError :=
  if e.kind = .onlineScopeForbiddenError ∨ e.kind = .onlineVisibilityUnavailableError then e
  else unavailable "online version retrieval route failed closed"

section

variable {Score : Type} (float : FloatArithmetic Score)

/-- `_validate_route_ranking`. -/
def validateRouteRanking {float : FloatArithmetic Score} (route : OnlineVersionRoute)
    (ranking : List (RankedChunk float)) : Except PyError Unit := do
  ranking.head?.elim (.ok ()) fun candidate => validateRanking ranking candidate.backend
  ensure (ranking.all fun candidate => onRoute route candidate.chunk)
    .onlineVisibilityUnavailableError "online candidate violates READY route identity"

/-- Both rankings of a route, validated. -/
def routeRankings {float : FloatArithmetic Score} (route : OnlineVersionRoute)
    (lexical vector : Except PyError (List (RankedChunk float))) :
    Except PyError (List (List (RankedChunk float))) := do
  let lexical ← lexical
  let vector ← vector
  validateRouteRanking route lexical
  validateRouteRanking route vector
  return [lexical, vector]

/-! ### The retriever -/

/-- What the planner returns: a question for each document. -/
structure RouteQueryPlan where
  status : String
  queries : List (String × String)
  failureCode : Option String
  deriving DecidableEq

/-- What the selector returns. -/
structure RouteCoveragePlan where
  status : String
  selectedChunkIds : List String
  failureCode : Option String

/-- What the ladder observer is shown. -/
structure CandidateLadderObservation where
  routes : List OnlineVersionRoute
  rankings : List (List (RankedChunk float))
  fusedCandidates : List (RankedChunk float)
  finalCandidates : List (RankedChunk float)
  finalTopK : Int

/-- The retriever with its optional components, each as what it answers. The latency observer is
told timings, so it is the outcome of its one call. -/
structure OnlineVersionRrfRetriever where
  candidateK : Int
  rrfK : Int
  vectorMinScore : Score
  routeQueryPlanner : Option (String → List String → Except PyError RouteQueryPlan)
  finalCandidateSelector :
    Option (String → List (RankedChunk float) → List String → Int →
      Except PyError RouteCoveragePlan)
  latencyObserver : Option (Except PyError Unit)
  candidateLadderObserver : Option (CandidateLadderObservation float → Except PyError Unit)
  positive : 1 ≤ candidateK ∧ 1 ≤ rrfK
  scoreRange : float.le (float.ofInt (-1)) vectorMinScore = true ∧
    float.le vectorMinScore (float.ofInt 1) = true

/-! ### Fusion and selection -/

/-- `payloads`, `scores` and `best_rank` of one chunk. -/
structure FusedEntry (Score : Type) where
  chunkId : String
  payload : JsonObject
  score : Score
  bestRank : Int

/-- One candidate of one ranking. -/
def fuseCandidate (rrfK : Int) (entries : Table (@FusedEntry.chunkId Score))
    (candidate : RankedChunk float) : Except PyError (Table (@FusedEntry.chunkId Score)) := do
  let existing := entries.find? candidate.chunkId
  ensure (existing.all fun entry => entry.payload.equals candidate.chunk)
    .onlineVisibilityUnavailableError "online backends disagree on candidate payload"
  return entries.upsert {
    chunkId := candidate.chunkId
    payload := candidate.chunk
    score := float.add (existing.elim (float.ofInt 0) (·.score))
      (float.reciprocal (rrfK + candidate.rank))
    bestRank := existing.elim candidate.rank fun entry => min entry.bestRank candidate.rank }

/-- The order of `(-score, best_rank, chunk_id)`. -/
def fusedLe (a b : FusedEntry Score) : Prop :=
  float.lt b.score a.score = true ∨ (float.lt a.score b.score = false ∧
    (a.bestRank < b.bestRank ∨ (a.bestRank = b.bestRank ∧ a.chunkId ≤ b.chunkId)))

instance : DecidableRel (fusedLe float) := fun a b => by unfold fusedLe; infer_instance

/-- `_fuse`. -/
def fuse (rrfK : Int) (rankings : List (List (RankedChunk float))) (topK : Option Int) :
    Except PyError (List (RankedChunk float)) := do
  let entries ← rankings.flatten.foldlM (fuseCandidate float rrfK) Table.empty
  let ordered := entries.rows.insertionSort (fusedLe float)
  let ordered := topK.elim ordered fun k => ordered.take k.toNat
  rankInOrder float onlineRetrievalBackend (ordered.map fun entry => (entry.score, entry.payload))

variable {float}

/-- `by_id[chunk_id]`: a later candidate of an identifier replaces an earlier one. -/
def candidateById (candidates : List (RankedChunk float)) (chunkId : String) :
    Except PyError (RankedChunk float) :=
  match candidates.reverse.find? fun candidate => decide (candidate.chunkId = chunkId) with
  | some candidate => .ok candidate
  | none => .error ⟨.valueError, "final candidate selection expands the RRF candidates"⟩

/-- `_apply_selection`. -/
def applySelection (candidates : List (RankedChunk float)) (selectedChunkIds : List String)
    (topK : Int) : Except PyError (List (RankedChunk float)) := do
  ensure (decide ((selectedChunkIds.length : Int) = topK) && decide selectedChunkIds.Nodup)
    .valueError "final candidate selection cardinality is invalid"
  let selected ← selectedChunkIds.mapM (candidateById candidates)
  rankInOrder float onlineRetrievalBackend
    (selected.map fun candidate => (candidate.score, candidate.chunk))

/-- The first fused candidates, or the selection of a plan that is applied and valid. -/
def finalCandidates (candidates : List (RankedChunk float)) (topK : Int)
    (selection : Option (Except PyError RouteCoveragePlan)) : List (RankedChunk float) :=
  let fused := candidates.take topK.toNat
  match selection with
  | some (.ok plan) =>
    if plan.status = "APPLIED" then
      match applySelection candidates plan.selectedChunkIds topK with
      | .ok selected => selected
      | .error _ => fused
    else fused
  | some (.error _) | none => fused

/-- `search` after fusion; the backends delivered this many timings. -/
def conclude (retriever : OnlineVersionRrfRetriever float) (request : SearchRequest)
    (routes : List OnlineVersionRoute) (rankings : List (List (RankedChunk float)))
    (elasticsearchTimings milvusTimings : Nat) (candidates : List (RankedChunk float)) :
    Except PyError (List (RankedChunk float)) := do
  let fused := finalCandidates candidates request.topK
    (retriever.finalCandidateSelector.map fun plan =>
    plan request.question candidates (routes.map (·.documentId)) request.topK)
  retriever.candidateLadderObserver.elim (.ok ()) fun observe =>
    (observe ⟨routes, rankings, candidates, fused, request.topK⟩).mapError fun _ =>
      unavailable "online candidate ladder diagnostic capture failed closed"
  retriever.latencyObserver.elim (.ok ()) fun observed => do
    ensure (decide (elasticsearchTimings = routes.length) && decide (milvusTimings = routes.length))
      .onlineVisibilityUnavailableError "online retrieval latency breakdown is incomplete"
    observed
  return fused

/-- `search` after `revalidate`. -/
def finish (retriever : OnlineVersionRrfRetriever float) (request : SearchRequest)
    (routes : List OnlineVersionRoute) (rankings : List (List (RankedChunk float)))
    (elasticsearchTimings milvusTimings : Nat) : Except PyError (List (RankedChunk float)) := do
  let candidates ← fuse float retriever.rrfK rankings
    (if retriever.finalCandidateSelector.isSome || retriever.candidateLadderObserver.isSome
      then none
      else some request.topK)
  conclude retriever request routes rankings elasticsearchTimings milvusTimings candidates

/-! ### The machine -/

variable (float)

/-- Where a search is, and what it holds. -/
inductive SearchState
  | start
  | resolving (versions : List DocumentVersionLifecycleV1) (routes : List OnlineVersionRoute)
      (snapshot : Option (Except PyError (List ChunkRecordV1)))
  | searching (routes remaining : List OnlineVersionRoute)
      (rankings : List (List (RankedChunk float)))
  | fusing (routes : List OnlineVersionRoute) (rankings : List (List (RankedChunk float)))
  | returned (routes : List OnlineVersionRoute) (ranking : List (RankedChunk float))
  | raised (error : PyError)

/-- The next step, with what comes from outside. -/
inductive SearchAction
  | resolve (failure : Option PyError)
  | loadSnapshot (failure : Option PyError)
  | verifyRoute (elasticsearch milvus : Except PyError PhysicalRoute)
  | startRetrieval (embedding : Option PyError)
  | searchRoute (lexical vector : Except PyError (List (RankedChunk float)))
  | revalidate (failure : Option PyError)
  | finish (elasticsearchTimings milvusTimings : Nat)

variable {float}

namespace SearchState

/-- The documents and versions that the search resolved. -/
def routed : SearchState float → List (String × String)
  | resolving versions routes _ => routes.map OnlineVersionRoute.key ++ versions.map versionKey
  | searching routes _ _ | fusing routes _ | returned routes _ => routes.map OnlineVersionRoute.key
  | start | raised _ => []

/-- The search is between its two reads of the version table. -/
def betweenReads : SearchState float → Bool
  | resolving .. | searching .. => true
  | _ => false

/-- Go on with the result, or raise. -/
def orRaise {α : Type} (next : α → SearchState float) : Except PyError α → SearchState float
  | .ok result => next result
  | .error e => raised e

def next (retriever : OnlineVersionRrfRetriever float) (request : SearchRequest) (db : Database) :
    SearchState float → SearchAction float → Option (SearchState float)
  | start, .resolve failure =>
    some (orRaise (fun versions => resolving versions [] none) (do
      checkSearch request
      resolveReadyVersions db request.ownerId request.documentIds failure))
  | resolving versions routes none, .loadSnapshot failure =>
    let versionIds := (resolving versions routes none : SearchState float).routed.map Prod.snd
    some (resolving versions routes
      (some (repositoryCall failure (loadOnlineChunks db request.ownerId versionIds))))
  | resolving (version :: versions) routes snapshot, .verifyRoute elasticsearch milvus =>
    some (orRaise (fun route => resolving versions (routes ++ [route]) snapshot)
      (verifyRoute request.ownerId version elasticsearch milvus))
  | resolving [] routes (some snapshot), .startRetrieval embedding =>
    some (orRaise (fun _ => searching routes routes []) ((do
      let chunks ← snapshot
      checkSnapshot routes chunks
      -- without routes no query is embedded
      if routes.isEmpty then pure () else repositoryCall embedding (pure ())).mapError
        failedClosed))
  | searching routes (route :: remaining) rankings, .searchRoute lexical vector =>
    some (orRaise (fun both => searching routes remaining (rankings ++ both))
      ((routeRankings route lexical vector).mapError failedClosed))
  | searching routes [] rankings, .revalidate failure =>
    some (orRaise (fun _ => fusing routes rankings)
      ((Retrieval.revalidate db routes request.ownerId request.documentIds failure).mapError
        failedClosed))
  | fusing routes rankings, .finish elasticsearchTimings milvusTimings =>
    some (orRaise (fun ranking => returned routes ranking)
      (Retrieval.finish retriever request routes rankings elasticsearchTimings milvusTimings))
  | _, _ => none

end SearchState

/-! ### Interleaving -/

variable (float)

/-- The fact source and one search. -/
structure OnlineState where
  history : History
  search : SearchState float

/-- Anybody's repository call, or the next step of the search. -/
inductive OnlineLabel (α : Type)
  | call (call : Call α)
  | act (action : SearchAction float)

variable {float}

def OnlineState.step {α : Type} (c : Coercion α) (chunksFingerprint : List ChunkRecordV1 → String)
    (retriever : OnlineVersionRrfRetriever float) (request : SearchRequest)
    (s : OnlineState float) :
    OnlineLabel float α → Option (OnlineState float)
  | .call call => some { s with history := s.history.step c chunksFingerprint call }
  | .act action => (s.search.next retriever request s.history.db action).map fun search =>
    { s with search := search }

end

end ZhiyanRag.Retrieval
