import Mathlib.Logic.Relation
import ZhiyanRag.Retrieval.OptionalComponents
import ZhiyanRag.Retrieval.OwnerIsolation

/-!
# The runs of one search

The machine of `Online.lean`, told at each step what the world of `OnlineSearch.lean` answers. From
every state there is one thing left to compute (`SearchState.rest`), and no step changes what it is:
the machine ends, and it ends as `search` does. The same goes between the calls of other owners,
which change nothing that the rest of the search reads.
-/

namespace ZhiyanRag.Retrieval

open Relational ZhiyanRag.Ingestion ZhiyanRag.Storage

section

open MilvusWriter (Surroundings)

variable {Score ν : Type} {env : Surroundings Score}

/-- How a search ended. -/
def SearchState.outcome : SearchState env.toFloatArithmetic → Option
    (Except PyError (List (RankedChunk env.toFloatArithmetic)))
  | returned _ ranking => some (.ok ranking)
  | raised e => some (.error e)
  | _ => none

section

variable (services : SearchServices env ν)
  (retriever : OnlineVersionRrfRetriever env.toFloatArithmetic) (world : SearchWorld Score)
  (request : SearchRequest)

/-! ### What the world answers -/

/-- The snapshot of the routes' versions. -/
def loadedChunks (routes : List OnlineVersionRoute) : Except PyError (List ChunkRecordV1) :=
  repositoryCall (services.failure .loadChunks)
    (loadOnlineChunks world.db request.ownerId (routes.map (·.documentVersionId)))

def plannedQueries (routes : List OnlineVersionRoute) : List (String × String) :=
  routeQueries retriever.routeQueryPlanner request.question (routes.map (·.documentId))

def plannedEmbeddings (routes : List OnlineVersionRoute) :
    Except PyError (List (String × QueryVector)) :=
  queryEmbeddings services retriever.routeQueryPlanner.isNone request.question
    (plannedQueries retriever request routes)

def embeddingFailure (routes : List OnlineVersionRoute) : Option PyError :=
  match plannedEmbeddings services retriever request routes with
  | .ok _ => none
  | .error e => some e

/-- The question for a route's document. -/
def routeQuestion (queries : List (String × String)) (route : OnlineVersionRoute) :
    Except PyError String :=
  (queries.lookup route.documentId).elim (.error ⟨.lookupError, route.documentId⟩) .ok

/-- What the two backends answer for a route, and whether that can be used. -/
def answeredRankings (chunks : List ChunkRecordV1) (embeddings : List (String × QueryVector))
    (queries : List (String × String)) (route : OnlineVersionRoute) :
    Except PyError (List (List (RankedChunk env.toFloatArithmetic))) :=
  routeRankings route (routeQuestion queries route >>=
    searchLexicalRoute services retriever world request chunks route)
    (routeQuestion queries route >>=
      searchVectorRoute services retriever world request chunks embeddings route)

/-- The snapshot of a search that has come to its routes. -/
def heldChunks (routes : List OnlineVersionRoute) : List ChunkRecordV1 :=
  (loadedChunks services world request routes).toOption.getD []

/-- The embeddings of a search that has come to its routes. -/
def heldEmbeddings (routes : List OnlineVersionRoute) : List (String × QueryVector) :=
  (plannedEmbeddings services retriever request routes).toOption.getD []

/-- The rankings so far and those of the next route. -/
def addRankings (routes : List OnlineVersionRoute)
    (rankings : List (List (RankedChunk env.toFloatArithmetic))) (route : OnlineVersionRoute) :
    Except PyError (List (List (RankedChunk env.toFloatArithmetic))) := do
  let both ← answeredRankings services retriever world request
    (heldChunks services world request routes) (heldEmbeddings services retriever request routes)
      (plannedQueries retriever request routes) route
  return rankings ++ both

/-- The next step of a search for which nothing fails but what fails in this world. -/
def answer : SearchState env.toFloatArithmetic → Option (SearchAction env.toFloatArithmetic)
  | .start => some (.resolve (services.failure .resolve))
  | .resolving (version :: _) _ _ =>
    let identity : VersionIdentity :=
      ⟨request.ownerId, version.documentId, version.documentVersionId⟩
    some (.verifyRoute (inspectElasticsearch services world identity)
      (inspectMilvus services world identity))
  | .resolving [] _ none => some (.loadSnapshot (services.failure .loadChunks))
  | .resolving [] routes (some _) =>
    some (.startRetrieval (embeddingFailure services retriever request routes))
  | .searching routes (route :: _) _ =>
    let question := routeQuestion (plannedQueries retriever request routes) route
    some (.searchRoute
      (question >>= searchLexicalRoute services retriever world request
        (heldChunks services world request routes) route)
      (question >>= searchVectorRoute services retriever world request
        (heldChunks services world request routes)
          (heldEmbeddings services retriever request routes) route))
  | .searching _ [] _ => some (.revalidate (services.failure .revalidate))
  | .fusing routes _ => some (.finish routes.length routes.length)
  | .returned .. | .raised _ => none

/-- The machine takes the step that the world answers. -/
def Answered (s s' : SearchState env.toFloatArithmetic) : Prop :=
  ∃ action, answer services retriever world request s = some action ∧
    s.next retriever request world.db action = some s'

/-! ### What is left of a search -/

/-- What a search in this state still computes. -/
def SearchState.rest : SearchState env.toFloatArithmetic → Except PyError
    (List (RankedChunk env.toFloatArithmetic))
  | start => retriever.search services world request
  | resolving versions routes _ => do
    let more ← versions.mapM (inspectRoute services world request.ownerId)
    let results ← (retrieveRoutes services retriever world request (routes ++ more)).mapError
      failedClosed
    finish retriever request (routes ++ more) results.rankings (routes ++ more).length
      (routes ++ more).length
  | searching routes remaining rankings => do
    let rankings ← (do
      let rankings ← remaining.foldlM (addRankings services retriever world request routes) rankings
      revalidate world.db routes request.ownerId request.documentIds (services.failure .revalidate)
      return rankings).mapError failedClosed
    finish retriever request routes rankings routes.length routes.length
  | fusing routes rankings => finish retriever request routes rankings routes.length routes.length
  | returned _ ranking => .ok ranking
  | raised e => .error e

end

variable {services : SearchServices env ν}
  {retriever : OnlineVersionRrfRetriever env.toFloatArithmetic} {world : SearchWorld Score}
  {request : SearchRequest} {routes : List OnlineVersionRoute}

theorem searchRoute_eq (chunks : List ChunkRecordV1) (embeddings : List (String × QueryVector))
    (queries : List (String × String)) (results : RouteResults env) (route : OnlineVersionRoute) :
    searchRoute services retriever world request chunks embeddings queries results route =
      (answeredRankings services retriever world request chunks embeddings queries route).map
        fun both =>
        ⟨results.rankings ++ both, results.elasticsearchTimings + 1,
          results.milvusTimings + 1⟩ := by
  have hmap (answered : Except PyError (List (List (RankedChunk env.toFloatArithmetic)))) :
      (answered >>= fun both =>
        pure (⟨results.rankings ++ both, results.elasticsearchTimings + 1,
          results.milvusTimings + 1⟩ : RouteResults env)) =
        answered.map fun both => ⟨results.rankings ++ both, results.elasticsearchTimings + 1,
          results.milvusTimings + 1⟩ := by
    cases answered <;> rfl
  unfold searchRoute answeredRankings routeQuestion
  cases queries.lookup route.documentId with
  | none => rfl
  | some question => exact hmap _

/-- The rankings that a search of all routes delivers. -/
theorem foldlM_searchRoute_rankings (remaining : List OnlineVersionRoute)
    {chunks : List ChunkRecordV1} {embeddings : List (String × QueryVector)}
    (hchunks : loadedChunks services world request routes = .ok chunks)
    (hembeddings : plannedEmbeddings services retriever request routes = .ok embeddings)
    (results : RouteResults env) :
    (remaining.foldlM (searchRoute services retriever world request chunks embeddings
        (plannedQueries retriever request routes)) results).map
        (·.rankings) = remaining.foldlM (addRankings services retriever world request routes)
          results.rankings := by
  induction remaining generalizing results with
  | nil => rfl
  | cons route remaining ih =>
    have hadd : addRankings services retriever world request routes results.rankings route =
        (answeredRankings services retriever world request chunks
        embeddings (plannedQueries retriever request routes) route >>= fun both =>
          return results.rankings ++ both) := by
      unfold addRankings heldChunks heldEmbeddings
      rw [hchunks, hembeddings]
      rfl
    rw [List.foldlM_cons, List.foldlM_cons, searchRoute_eq, hadd]
    cases answeredRankings services retriever world request chunks embeddings
      (plannedQueries retriever request routes) route with
    | error e => rfl
    | ok both =>
      exact ih ⟨results.rankings ++ both, results.elasticsearchTimings + 1,
        results.milvusTimings + 1⟩

theorem searchRoutes_rankings {chunks : List ChunkRecordV1}
    (hchunks : loadedChunks services world request routes = .ok chunks)
    {embeddings : List (String × QueryVector)}
    (hembeddings : routes ≠ [] →
      plannedEmbeddings services retriever request routes = .ok embeddings) :
    (searchRoutes services retriever world request chunks routes).map (·.rankings) =
      routes.foldlM (addRankings services retriever world request routes) [] := by
  unfold searchRoutes
  by_cases hempty : routes.isEmpty = true
  · rw [if_pos hempty, List.isEmpty_iff.mp hempty]
    rfl
  · have hembeddings := hembeddings fun hnil => hempty (hnil ▸ rfl)
    rw [if_neg hempty, ← foldlM_searchRoute_rankings routes hchunks hembeddings ⟨[], 0, 0⟩]
    show (plannedEmbeddings services retriever request routes >>= _).map _ = _
    rw [hembeddings]
    rfl

/-- `search` with the timings that a search of all routes is known to deliver. -/
theorem retrieve_finish (routes : List OnlineVersionRoute) :
    ((retrieveRoutes services retriever world request routes).mapError failedClosed >>=
      fun results =>
      finish retriever request routes results.rankings results.elasticsearchTimings
        results.milvusTimings) =
    ((retrieveRoutes services retriever world request routes).mapError failedClosed >>=
      fun results =>
      finish retriever request routes results.rankings routes.length routes.length) := by
  cases hresults : retrieveRoutes services retriever world request routes with
  | error e => rfl
  | ok results =>
    obtain ⟨helasticsearch, hmilvus⟩ := retrieveRoutes_timings hresults
    show finish retriever request routes results.rankings results.elasticsearchTimings
      results.milvusTimings = finish retriever request routes results.rankings routes.length
        routes.length
    rw [helasticsearch, hmilvus]

/-! ### One step -/

/-- The snapshot of a search is that of its routes, and it has one only when they are all verified.
-/
def SearchState.Loaded (services : SearchServices env ν) (world : SearchWorld Score)
    (request : SearchRequest) : SearchState env.toFloatArithmetic → Prop
  | resolving versions routes snapshot => ∀ loaded ∈ snapshot, versions = [] ∧
      loaded = loadedChunks services world request routes
  | _ => True

/-- The end of `retrieveRoutes` after its snapshot has been checked. -/
theorem rest_searching {chunks : List ChunkRecordV1}
    (hchunks : loadedChunks services world request routes = .ok chunks)
    (embeddings : List (String × QueryVector))
    (hembeddings : routes ≠ [] →
      plannedEmbeddings services retriever request routes = .ok embeddings) :
    (SearchState.searching routes routes []).rest services retriever world request =
      ((do
        let results ← searchRoutes services retriever world request chunks routes
        revalidate world.db routes request.ownerId request.documentIds
          (services.failure .revalidate)
        return results).mapError failedClosed >>= fun results =>
          finish retriever request routes results.rankings routes.length routes.length) := by
  simp only [SearchState.rest]
  rw [← searchRoutes_rankings hchunks hembeddings]
  cases searchRoutes services retriever world request chunks routes with
  | error e => rfl
  | ok results =>
    show (Except.mapError failedClosed
      (revalidate world.db routes request.ownerId request.documentIds
        (services.failure .revalidate) >>= _) >>= _) =
      (Except.mapError failedClosed (revalidate world.db routes request.ownerId request.documentIds
        (services.failure .revalidate) >>= _) >>= _)
    cases revalidate world.db routes request.ownerId request.documentIds
      (services.failure .revalidate) <;> rfl

theorem rest_orRaise {β : Type} (next : β → SearchState env.toFloatArithmetic)
    (result : Except PyError β) :
    (SearchState.orRaise next result).rest services retriever world request = result >>= fun a =>
      (next a).rest services retriever world request := by
  cases result <;> rfl

theorem loaded_orRaise {β : Type} {next : β → SearchState env.toFloatArithmetic}
    (hnext : ∀ a, (next a).Loaded services world request) (result : Except PyError β) :
    (SearchState.orRaise next result).Loaded services world request := by
  cases result with
  | error e => trivial
  | ok a => exact hnext a

/-- The searches of the routes start, unless the snapshot or the embeddings are missing. -/
theorem rest_startRetrieval :
    ((SearchState.orRaise (fun _ => SearchState.searching routes routes []) ((do
        let chunks ← loadedChunks services world request routes
        checkSnapshot routes chunks
        if routes.isEmpty then pure ()
        else
          repositoryCall (embeddingFailure services retriever request routes)
            (pure ())).mapError failedClosed)).rest services retriever world request) =
      ((retrieveRoutes services retriever world request routes).mapError failedClosed >>=
        fun results =>
          finish retriever request routes results.rankings routes.length routes.length) := by
  rw [rest_orRaise]
  unfold retrieveRoutes
  show _ = (Except.mapError failedClosed (loadedChunks services world request routes >>= _) >>= _)
  cases hchunks : loadedChunks services world request routes with
  | error e => rfl
  | ok chunks =>
    show (Except.mapError failedClosed (checkSnapshot routes chunks >>= _) >>= _) =
      (Except.mapError failedClosed (checkSnapshot routes chunks >>= _) >>= _)
    cases checkSnapshot routes chunks with
    | error e => rfl
    | ok _ =>
      by_cases hempty : routes.isEmpty = true
      · rw [if_pos hempty]
        exact rest_searching hchunks [] fun hne => absurd (List.isEmpty_iff.mp hempty) hne
      · rw [if_neg hempty]
        unfold embeddingFailure
        cases hembeddings : plannedEmbeddings services retriever request routes with
        | error e =>
          unfold searchRoutes
          rw [if_neg hempty]
          show _ = (Except.mapError failedClosed
            ((plannedEmbeddings services retriever request routes >>= _) >>= _) >>= _)
          rw [hembeddings]
          rfl
        | ok embeddings => exact rest_searching hchunks embeddings fun _ => hembeddings

theorem Answered.rest_resolving {versions : List DocumentVersionLifecycleV1}
    {routes : List OnlineVersionRoute} {snapshot : Option (Except PyError (List ChunkRecordV1))}
    {s' : SearchState env.toFloatArithmetic}
    (h : Answered services retriever world request (.resolving versions routes snapshot) s')
    (hloaded : (SearchState.resolving versions routes snapshot :
      SearchState env.toFloatArithmetic).Loaded services world request) :
    s'.rest services retriever world request =
        (SearchState.resolving versions routes snapshot :
          SearchState env.toFloatArithmetic).rest services retriever world request ∧
      s'.Loaded services world request := by
  obtain ⟨action, haction, hnext⟩ := h
  cases versions with
  | cons version versions =>
    cases snapshot with
    | some loaded => cases (hloaded loaded rfl).1
    | none =>
      cases haction
      cases hnext
      constructor
      · rw [rest_orRaise]
        simp only [SearchState.rest, List.mapM_cons, bind_assoc, pure_bind, List.append_assoc,
          List.cons_append, List.nil_append]
        rfl
      · apply loaded_orRaise
        intro route loaded hsnapshot
        cases hsnapshot
  | nil =>
    cases snapshot with
    | none =>
      cases haction
      cases hnext
      refine ⟨rfl, fun loaded hsnapshot => ⟨rfl, ?_⟩⟩
      cases hsnapshot
      simp [loadedChunks, SearchState.routed, OnlineVersionRoute.key, Function.comp_def]
    | some loaded =>
      cases (hloaded loaded rfl).2
      cases haction
      cases hnext
      constructor
      · simp only [SearchState.rest, List.mapM_nil, pure_bind, List.append_nil]
        exact rest_startRetrieval
      · apply loaded_orRaise
        intro _
        trivial

theorem Answered.rest_searching {routes remaining : List OnlineVersionRoute}
    {rankings : List (List (RankedChunk env.toFloatArithmetic))}
    {s' : SearchState env.toFloatArithmetic}
    (h : Answered services retriever world request (.searching routes remaining rankings) s') :
    s'.rest services retriever world request =
        (SearchState.searching routes remaining rankings).rest services retriever world request ∧
      s'.Loaded services world request := by
  obtain ⟨action, haction, hnext⟩ := h
  cases remaining with
  | nil =>
    cases haction
    cases hnext
    constructor
    · rw [rest_orRaise]
      simp only [SearchState.rest, List.foldlM_nil, pure_bind]
      cases revalidate world.db routes request.ownerId request.documentIds
        (services.failure .revalidate) <;> rfl
    · apply loaded_orRaise
      intro _
      trivial
  | cons route remaining =>
    cases haction
    cases hnext
    constructor
    · rw [rest_orRaise]
      simp only [SearchState.rest, List.foldlM_cons, addRankings, bind_assoc]
      show (Except.mapError failedClosed (answeredRankings services retriever world request _ _ _
        route) >>= _) =
        (Except.mapError failedClosed
          (answeredRankings services retriever world request _ _ _ route >>= _) >>= _)
      cases answeredRankings services retriever world request
        (heldChunks services world request routes) (heldEmbeddings services retriever request
          routes) (plannedQueries retriever request routes) route <;> rfl
    · apply loaded_orRaise
      intro _
      trivial

/-- No step changes what is left to compute. -/
theorem Answered.rest_eq {s s' : SearchState env.toFloatArithmetic}
    (h : Answered services retriever world request s s')
    (hloaded : s.Loaded services world request) :
    s'.rest services retriever world request = s.rest services retriever world request ∧
    s'.Loaded services world request := by
  cases s with
  | start =>
    obtain ⟨action, haction, hnext⟩ := h
    cases haction
    cases hnext
    constructor
    · rw [rest_orRaise]
      simp only [SearchState.rest, OnlineVersionRrfRetriever.search, retrieve_finish, resolveRoutes,
        bind_assoc, List.nil_append]
    · apply loaded_orRaise
      intro versions loaded hsnapshot
      cases hsnapshot
  | resolving versions routes snapshot => exact h.rest_resolving hloaded
  | searching routes remaining rankings => exact h.rest_searching
  | fusing routes rankings =>
    obtain ⟨action, haction, hnext⟩ := h
    cases haction
    cases hnext
    constructor
    · rw [rest_orRaise]
      simp only [SearchState.rest]
      cases finish retriever request routes rankings routes.length routes.length <;> rfl
    · apply loaded_orRaise
      intro _
      trivial
  | returned routes ranking =>
    obtain ⟨action, haction, -⟩ := h
    cases haction
  | raised e =>
    obtain ⟨action, haction, -⟩ := h
    cases haction

theorem rest_of_outcome {s : SearchState env.toFloatArithmetic}
    {result : Except PyError (List (RankedChunk env.toFloatArithmetic))}
    (h : s.outcome = some result) : s.rest services retriever world request = result := by
  cases s <;> cases h <;> rfl

/-! ### The whole run -/

/-- The machine ends in this world. -/
def Ends (services : SearchServices env ν)
    (retriever : OnlineVersionRrfRetriever env.toFloatArithmetic) (world : SearchWorld Score)
    (request : SearchRequest) (s : SearchState env.toFloatArithmetic) : Prop :=
  ∃ s', Relation.ReflTransGen (Answered services retriever world request) s s' ∧ s'.outcome.isSome

namespace Ends

theorem step {s s' : SearchState env.toFloatArithmetic}
    (h : Answered services retriever world request s s')
    (hs' : Ends services retriever world request s') : Ends services retriever world request s := by
  obtain ⟨last, hrun, houtcome⟩ := hs'
  exact ⟨last, .head h hrun, houtcome⟩

theorem orRaise {β : Type} {next : β → SearchState env.toFloatArithmetic}
    (h : ∀ a, Ends services retriever world request (next a)) (result : Except PyError β) :
    Ends services retriever world request (SearchState.orRaise next result) := by
  cases result with
  | error e => exact ⟨.raised e, .refl, rfl⟩
  | ok a => exact h a

theorem fusing (rankings : List (List (RankedChunk env.toFloatArithmetic))) :
    Ends services retriever world request (.fusing routes rankings) := by
  refine .step ⟨_, rfl, rfl⟩ ?_
  apply orRaise
  exact fun ranking => ⟨.returned routes ranking, .refl, rfl⟩

theorem searching (remaining : List OnlineVersionRoute)
    (rankings : List (List (RankedChunk env.toFloatArithmetic))) :
    Ends services retriever world request (.searching routes remaining rankings) := by
  induction remaining generalizing rankings with
  | nil =>
    refine .step ⟨_, rfl, rfl⟩ ?_
    apply orRaise
    exact fun _ => fusing rankings
  | cons route remaining ih =>
    refine .step ⟨_, rfl, rfl⟩ ?_
    apply orRaise
    exact fun both => ih _

theorem resolving (versions : List DocumentVersionLifecycleV1)
    (snapshot : Option (Except PyError (List ChunkRecordV1))) :
    Ends services retriever world request (.resolving versions routes snapshot) := by
  induction versions generalizing routes with
  | nil =>
    have hloaded (loaded : Except PyError (List ChunkRecordV1)) :
        Ends services retriever world request (.resolving [] routes (some loaded)) := by
      refine .step ⟨_, rfl, rfl⟩ ?_
      apply orRaise
      exact fun _ => searching routes []
    cases snapshot with
    | none => exact .step ⟨_, rfl, rfl⟩ (hloaded _)
    | some loaded => exact hloaded loaded
  | cons version versions ih =>
    cases snapshot with
    | none =>
      refine .step ⟨_, rfl, rfl⟩ ?_
      apply orRaise
      exact fun route => ih
    | some loaded =>
      refine .step ⟨_, rfl, rfl⟩ ?_
      apply orRaise
      exact fun route => ih

/-- From every state the machine can go on to an end. -/
theorem all (s : SearchState env.toFloatArithmetic) : Ends services retriever world request s := by
  cases s with
  | start =>
    refine .step ⟨_, rfl, rfl⟩ ?_
    apply orRaise
    exact fun versions => resolving versions none
  | resolving versions routes snapshot => exact resolving versions snapshot
  | searching routes remaining rankings => exact searching remaining rankings
  | fusing routes rankings => exact fusing rankings
  | returned routes ranking => exact ⟨_, .refl, rfl⟩
  | raised e => exact ⟨_, .refl, rfl⟩

end Ends

theorem rest_of_run {s s' : SearchState env.toFloatArithmetic}
    (h : Relation.ReflTransGen (Answered services retriever world request) s s')
    (hloaded : s.Loaded services world request) :
    s'.rest services retriever world request = s.rest services retriever world request ∧
    s'.Loaded services world request := by
  induction h with
  | refl => exact ⟨rfl, hloaded⟩
  | tail _ hstep ih =>
    obtain ⟨hrest, hloaded'⟩ := hstep.rest_eq ih.2
    exact ⟨hrest.trans ih.1, hloaded'⟩

/-- The machine ends in every world, and every end of it is that of the search. -/
theorem search_run (services : SearchServices env ν)
    (retriever : OnlineVersionRrfRetriever env.toFloatArithmetic) (world : SearchWorld Score)
    (request : SearchRequest) (result : Except PyError (List (RankedChunk env.toFloatArithmetic))) :
    retriever.search services world request = result ↔
      ∃ s, Relation.ReflTransGen (Answered services retriever world request) .start s ∧
      s.outcome = some result := by
  have hsound {s : SearchState env.toFloatArithmetic}
      {result : Except PyError (List (RankedChunk env.toFloatArithmetic))}
      (hrun : Relation.ReflTransGen (Answered services retriever world request) .start s)
      (houtcome : s.outcome = some result) :
      retriever.search services world request = result :=
    (rest_of_run hrun trivial).1.symm.trans (rest_of_outcome houtcome)
  constructor
  · rintro rfl
    have hends : Ends services retriever world request .start := .all .start
    obtain ⟨s, hrun, houtcome⟩ := hends
    obtain ⟨result, hresult⟩ := Option.isSome_iff_exists.mp houtcome
    exact ⟨s, hrun, hresult.trans (congrArg some (hsound hrun hresult).symm)⟩
  · rintro ⟨s, hrun, houtcome⟩
    exact hsound hrun houtcome

/-! ### Among other owners' calls -/

/-- A repository call is another owner's or the cleanup worker's, and the search is told what the
world answers it. -/
def Undisturbed {α : Type} (services : SearchServices env ν)
    (retriever : OnlineVersionRrfRetriever env.toFloatArithmetic) (request : SearchRequest)
    (indexes : String → Option Elasticsearch.Index)
    (collections : String → Option (Milvus.Collection Score))
    (s : OnlineState env.toFloatArithmetic) :
    OnlineLabel env.toFloatArithmetic α → Prop
  | .call call => call.ownerId? ≠ some request.ownerId
  | .act action => answer services retriever ⟨s.history.db, indexes, collections⟩ request s.search =
      some action

/-- What the search holds is of versions of its owner. -/
def SearchState.Owned (services : SearchServices env ν) (world : SearchWorld Score)
    (ownerId : String) : SearchState env.toFloatArithmetic → Prop
  | resolving versions routes _ => (∀ v ∈ versions, world.Owns ownerId v.documentVersionId) ∧
      ∀ route ∈ routes, RouteOf services world ownerId route
  | searching routes remaining _ => (∀ route ∈ routes, RouteOf services world ownerId route) ∧
      ∀ route ∈ remaining, RouteOf services world ownerId route
  | _ => True

theorem owned_orRaise {β : Type} {next : β → SearchState env.toFloatArithmetic}
    {result : Except PyError β} {ownerId : String}
    (hnext : ∀ a, result = .ok a → (next a).Owned services world ownerId) :
    (SearchState.orRaise next result).Owned services world ownerId := by
  cases result with
  | error e => trivial
  | ok a => exact hnext a rfl

theorem Answered.owned {s s' : SearchState env.toFloatArithmetic}
    (h : Answered services retriever world request s s')
    (howned : s.Owned services world request.ownerId) :
    s'.Owned services world request.ownerId := by
  obtain ⟨action, haction, hnext⟩ := h
  cases s with
  | start =>
    cases haction
    cases hnext
    apply owned_orRaise
    intro versions hversions
    obtain ⟨-, hversions⟩ := check_bind.mp hversions
    exact ⟨fun v hv => owns_of_resolved hversions hv, fun route hroute => by cases hroute⟩
  | resolving versions routes snapshot =>
    cases versions with
    | cons version versions =>
      have hverified (snapshot : Option (Except PyError (List ChunkRecordV1))) :
          (SearchState.orRaise
            (fun route => SearchState.resolving versions (routes ++ [route]) snapshot)
            (inspectRoute services world request.ownerId version)).Owned services world
              request.ownerId := by
        apply owned_orRaise
        intro route hroute
        refine ⟨fun v hv => howned.1 v (List.mem_cons_of_mem _ hv), fun other hother => ?_⟩
        rcases List.mem_append.mp hother with hother | hother
        · exact howned.2 other hother
        · rw [List.mem_singleton.mp hother]
          exact inspectRoute_routeOf (howned.1 version (List.mem_cons_self ..)) hroute
      cases snapshot with
      | none =>
        cases haction
        cases hnext
        exact hverified none
      | some loaded =>
        cases haction
        cases hnext
        exact hverified (some loaded)
    | nil =>
      cases snapshot with
      | none =>
        cases haction
        cases hnext
        exact howned
      | some loaded =>
        cases haction
        cases hnext
        apply owned_orRaise
        exact fun _ _ => ⟨howned.2, howned.2⟩
  | searching routes remaining rankings =>
    cases remaining with
    | nil =>
      cases haction
      cases hnext
      apply owned_orRaise
      exact fun _ _ => trivial
    | cons route remaining =>
      cases haction
      cases hnext
      apply owned_orRaise
      exact fun _ _ =>
        ⟨howned.1, fun other hother => howned.2 other (List.mem_cons_of_mem _ hother)⟩
  | fusing routes rankings =>
    cases haction
    cases hnext
    apply owned_orRaise
    exact fun _ _ => trivial
  | returned routes ranking => cases haction
  | raised e => cases haction

/-- What differs only for others makes no difference to the search's next step. -/
theorem SameForOwner.answered {world' : SearchWorld Score}
    (h : SameForOwner services request.ownerId world world') (hunique : world.db.OrdinalsUnique)
    {s s' : SearchState env.toFloatArithmetic} (howned : s.Owned services world request.ownerId)
    (hstep : Answered services retriever world' request s s') :
    Answered services retriever world request s s' := by
  obtain ⟨action, haction, hnext⟩ := hstep
  cases s with
  | start =>
    cases haction
    cases hnext
    refine ⟨_, rfl, ?_⟩
    simp only [SearchState.next, resolveReadyVersions, h.rows.resolveOnlineVersions]
  | resolving versions routes snapshot =>
    cases versions with
    | cons version versions =>
      have hroute := h.inspectRoute (howned.1 version (List.mem_cons_self ..))
      cases snapshot with
      | none =>
        cases haction
        cases hnext
        refine ⟨_, rfl, congrArg (fun verified => some (SearchState.orRaise _ verified)) hroute⟩
      | some loaded =>
        cases haction
        cases hnext
        refine ⟨_, rfl, congrArg (fun verified => some (SearchState.orRaise _ verified)) hroute⟩
    | nil =>
      cases snapshot with
      | none =>
        cases haction
        cases hnext
        refine ⟨_, rfl, ?_⟩
        simp only [SearchState.next, h.rows.loadOnlineChunks hunique]
      | some loaded =>
        cases haction
        exact ⟨_, rfl, hnext⟩
  | searching routes remaining rankings =>
    cases remaining with
    | nil =>
      cases haction
      cases hnext
      refine ⟨_, rfl, ?_⟩
      simp only [SearchState.next, revalidate, h.rows.resolveOnlineVersions]
    | cons route remaining =>
      cases haction
      cases hnext
      refine ⟨_, rfl, ?_⟩
      have hroute := howned.2 route (List.mem_cons_self ..)
      simp only [SearchState.next, heldChunks, loadedChunks, h.rows.loadOnlineChunks hunique]
      unfold searchLexicalRoute searchVectorRoute
      rw [h.sameIndex hroute, h.sameCollection hroute]
  | fusing routes rankings =>
    cases haction
    exact ⟨_, rfl, hnext⟩
  | returned routes ranking => cases haction
  | raised e => cases haction

theorem owned_of_run {s : SearchState env.toFloatArithmetic}
    (h : Relation.ReflTransGen (Answered services retriever world request) .start s) :
    s.Owned services world request.ownerId := by
  induction h with
  | refl => trivial
  | tail _ hstep ih => exact hstep.owned ih

variable {α : Type} {c : Coercion α} {chunksFingerprint : List ChunkRecordV1 → String}
  {indexes : String → Option Elasticsearch.Index}
  {collections : String → Option (Milvus.Collection Score)}

/-- The steps of the search by itself are steps of the machine. -/
theorem guardedRun_of_answered {h : History} {s s' : SearchState env.toFloatArithmetic}
    (hrun : Relation.ReflTransGen
      (Answered services retriever ⟨h.db, indexes, collections⟩ request) s s') :
    ∃ labels : List (OnlineLabel env.toFloatArithmetic α),
      Steps.GuardedRun (OnlineState.step c chunksFingerprint retriever request)
        (Undisturbed services retriever request indexes collections) ⟨h, s⟩ labels ⟨h, s'⟩ := by
  induction hrun using Relation.ReflTransGen.head_induction_on with
  | refl => exact ⟨[], .nil _⟩
  | head hstep _ ih =>
    obtain ⟨action, haction, hnext⟩ := hstep
    obtain ⟨labels, hlabels⟩ := ih
    refine ⟨.act action :: labels, .cons haction ?_ hlabels⟩
    show (SearchState.next retriever request h.db _ action).map _ = _
    rw [hnext]
    rfl

/-- Between the calls of others the search takes steps that it could take without them. -/
theorem answered_of_guardedRun (calls : List (Call α))
    {labels : List (OnlineLabel env.toFloatArithmetic α)} {s : OnlineState env.toFloatArithmetic}
    (hrun : Steps.GuardedRun (OnlineState.step c chunksFingerprint retriever request)
      (Undisturbed services retriever request indexes collections)
        ⟨History.empty.run c chunksFingerprint calls, .start⟩ labels s) :
    SameOwned request.ownerId (History.empty.run c chunksFingerprint calls).db s.history.db ∧
      Relation.ReflTransGen
        (Answered services retriever ⟨(History.empty.run c chunksFingerprint calls).db, indexes,
          collections⟩ request) .start s.search := by
  refine hrun.invariant
    (I := fun s => SameOwned request.ownerId (History.empty.run c chunksFingerprint calls).db
      s.history.db ∧
    Relation.ReflTransGen
      (Answered services retriever ⟨(History.empty.run c chunksFingerprint calls).db, indexes,
        collections⟩ request) .start s.search)
    (fun s label s' hI hguard hstep => ?_) ⟨.of_eq rfl rfl, .refl⟩
  cases label with
  | call call =>
    cases hstep
    exact ⟨hI.1.trans (step_sameOwned hguard s.history), hI.2⟩
  | act action =>
    obtain ⟨search, hsearch, rfl⟩ := Option.map_eq_some_iff.mp hstep
    have hsame : SameForOwner services request.ownerId
        ⟨(History.empty.run c chunksFingerprint calls).db, indexes, collections⟩
          ⟨s.history.db, indexes, collections⟩ := ⟨hI.1, fun _ _ => rfl, fun _ _ => rfl⟩
    exact ⟨hI.1, hI.2.tail
      (hsame.answered (ordinalsUnique_of_run calls) (owned_of_run hI.2) ⟨action, hguard, hsearch⟩)⟩

/-- However the calls of other owners come between its steps, a search ends as it does without them,
and it can always go on to its end. -/
theorem search_among_foreign_calls (c : Coercion α)
    (chunksFingerprint : List ChunkRecordV1 → String) (calls : List (Call α))
    (services : SearchServices env ν) (retriever : OnlineVersionRrfRetriever env.toFloatArithmetic)
    (request : SearchRequest)
    (indexes : String → Option Elasticsearch.Index)
    (collections : String → Option (Milvus.Collection Score))
    (labels : List (OnlineLabel env.toFloatArithmetic α)) (s : OnlineState env.toFloatArithmetic)
    (hrun : Steps.GuardedRun (OnlineState.step c chunksFingerprint retriever request)
      (Undisturbed services retriever request indexes collections)
        ⟨History.empty.run c chunksFingerprint calls, .start⟩ labels s) :
    (∀ result, s.search.outcome = some result →
      result = retriever.search services ⟨(History.empty.run c chunksFingerprint calls).db, indexes,
        collections⟩ request) ∧
    (s.search.outcome = none → ∃ action,
      Undisturbed (α := α) services retriever request indexes collections s (.act action) ∧
      (OnlineState.step c chunksFingerprint retriever request s (.act action)).isSome) := by
  refine ⟨fun result houtcome => ?_, fun hnone => ?_⟩
  · exact ((search_run _ _ _ _ result).mpr ⟨s.search, (answered_of_guardedRun calls hrun).2,
      houtcome⟩).symm
  · have hends : Ends services retriever ⟨s.history.db, indexes, collections⟩ request s.search :=
      .all s.search
    obtain ⟨last, hlast, houtcome⟩ := hends
    rcases hlast.cases_head with rfl | ⟨next, ⟨action, haction, hnext⟩, -⟩
    · rw [hnone] at houtcome
      cases houtcome
    · refine ⟨action, haction, ?_⟩
      show ((SearchState.next retriever request s.history.db s.search action).map _).isSome
      rw [hnext]
      rfl

end

/-- Another owner registers between the first step of a search and the others. -/
theorem search_among_foreign_calls_registration :
    let served := servedWorld (servedRecord "text").modelDump
    let history := History.empty.run noCoercion (fun _ => sampleSha) publishingCalls
    ∃ rest s result,
        Steps.GuardedRun
          (OnlineState.step noCoercion (fun _ => sampleSha) sampleRetriever servedRequest)
        (Undisturbed exactServices sampleRetriever servedRequest served.indexes served.collections)
          ⟨history, .start⟩
        (.act (.resolve none) :: foreignCalls.map .call ++ rest) s ∧
      s.search.outcome = some result ∧ result = sampleRetriever.search exactServices ⟨history.db,
        served.indexes, served.collections⟩ servedRequest := by
  intro served history
  obtain ⟨resolved, hresolved⟩ :
      ∃ resolved, SearchState.next sampleRetriever servedRequest history.db .start (.resolve none) =
        some resolved := ⟨_, rfl⟩
  let later := history.run noCoercion (fun _ => sampleSha) foreignCalls
  have hends : Ends exactServices sampleRetriever ⟨later.db, served.indexes, served.collections⟩
      servedRequest resolved :=
    @Ends.all _ _ exactSurroundings _ _ _ _ resolved
  obtain ⟨last, hlast, houtcome⟩ := hends
  obtain ⟨result, hresult⟩ := Option.isSome_iff_exists.mp houtcome
  obtain ⟨rest, hrest⟩ : ∃ labels : List (OnlineLabel rationalScores Empty), Steps.GuardedRun
      (OnlineState.step noCoercion (fun _ => sampleSha) sampleRetriever servedRequest)
      (Undisturbed exactServices sampleRetriever servedRequest served.indexes served.collections)
        ⟨later, resolved⟩ labels ⟨later, last⟩ :=
    guardedRun_of_answered hlast
  have hforeign : ∀ call ∈ foreignCalls, call.ownerId? ≠ some servedRequest.ownerId := by decide
  have hcalls : Steps.GuardedRun
      (OnlineState.step noCoercion (fun _ => sampleSha) sampleRetriever servedRequest)
      (Undisturbed exactServices sampleRetriever servedRequest served.indexes served.collections)
        ⟨history, resolved⟩
      (foreignCalls.map .call ++ rest) ⟨later, last⟩ :=
    .cons (hforeign _ (.head _)) rfl (.cons (hforeign _ (.tail _ (.head _))) rfl hrest)
  have hrun : Steps.GuardedRun
      (OnlineState.step noCoercion (fun _ => sampleSha) sampleRetriever servedRequest)
      (Undisturbed exactServices sampleRetriever servedRequest served.indexes served.collections)
        ⟨history, .start⟩
      (.act (.resolve none) :: foreignCalls.map .call ++ rest) ⟨later, last⟩ := by
    refine .cons rfl ?_ hcalls
    show (SearchState.next sampleRetriever servedRequest history.db .start (.resolve none)).map _ =
      _
    rw [hresolved]
    rfl
  exact ⟨rest, _, result, hrun, hresult,
    (search_among_foreign_calls noCoercion (fun _ => sampleSha) publishingCalls exactServices
      sampleRetriever
    servedRequest served.indexes served.collections _ _ hrun).1 result hresult⟩

end ZhiyanRag.Retrieval
