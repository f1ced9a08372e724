import ZhiyanRag.Retrieval.JsonText
import ZhiyanRag.Retrieval.OnlineRuns
import ZhiyanRag.Storage.Lifecycle

/-!
# What is served and what is in PostgreSQL

A search compares the snapshot of a route with the metadata of its indexes, and the payload of a hit
with the route and with the other backend: nothing compares it with the snapshot. So what is served
is what is stored under the physical names, and it is the snapshot's when all that is stored there
and can be returned is.
-/

namespace ZhiyanRag.Retrieval

open Relational ZhiyanRag.Ingestion ZhiyanRag.Storage

/-! ### From a search to its response -/

section

variable {Score : Type}

theorem mem_of_rankByScore {float : FloatArithmetic Score} {backend : String}
    {scored : List (Score × JsonObject)} {topK : Int} {ranking : List (RankedChunk float)}
    (h : rankByScore float backend scored topK = .ok ranking) {candidate : RankedChunk float}
    (hcandidate : candidate ∈ ranking) : (candidate.score, candidate.chunk) ∈ scored := by
  have hmem := List.mem_map_of_mem (f := fun c : RankedChunk float => (c.score, c.chunk)) hcandidate
  rw [rankInOrder_scored h] at hmem
  exact (List.mem_insertionSort _).mp (List.mem_of_mem_take hmem)

/-- A search that returns has passed its checks; from there only the response counts. -/
theorem Elasticsearch.search_ok {float : NumberArithmetic Score}
    {chunksFingerprint : List ChunkRecordV1 → String} {index : Option Index}
    {respond : Index → SearchBody → Except PyError JsonObject} {question : String}
    {scope : JsonObject} {topK : Int}
    {fingerprintChunks : Option (List ChunkRecordV1)}
    {verifiedMetadata : Option (List (String × String))}
    {ranking : List (RankedChunk float.toFloatArithmetic)}
    (h : search float chunksFingerprint index respond question scope topK fingerprintChunks
      verifiedMetadata = .ok ranking) :
    ∃ stored, index = some stored ∧ ∀ respond',
      search float chunksFingerprint index respond' question scope topK fingerprintChunks
        verifiedMetadata = (do
      let response ← respond' stored ⟨topK, question, authorizationFilter scope⟩
      let hits ← readHits float response
      rankByScore float.toFloatArithmetic retrievalBackend
        (hits.filter fun hit => isChunkAuthorized hit.2 scope) topK) := by
  unfold search at h
  obtain ⟨hquestion, h⟩ := ensure_bind.mp h
  obtain ⟨htop, h⟩ := ensure_bind.mp h
  obtain ⟨hsource, h⟩ := check_bind.mp h
  cases index with
  | none => cases h
  | some stored =>
    refine ⟨stored, rfl, fun respond' => ?_⟩
    unfold search
    rw [ensure_true_bind hquestion, ensure_true_bind htop, hsource]
    rfl

theorem Milvus.search_ok {float : VectorArithmetic Score} {options : SearchOptions Score}
    {collection : Option (Collection Score)} {question : String} {scope : JsonObject} {topK : Int}
    {minScore : Score} {fingerprintChunks : Option (List ChunkRecordV1)} {queryVector : List Score}
    {verifiedMetadata : Option (List (String × String))}
    {ranking : List (RankedChunk float.toFloatArithmetic)}
    (h : search float options collection question scope topK minScore fingerprintChunks queryVector
      verifiedMetadata = .ok ranking) :
    ∃ stored vector, collection = some stored ∧ ∀ respond',
      search float { options with respond := respond' } collection question scope topK minScore
        fingerprintChunks queryVector verifiedMetadata = (do
        let response ← (respond' stored ⟨vector, authorizationFilter scope, topK⟩).mapError fun _ =>
          stageError "ANN_SEARCH"
        (do
          let hits ← readHits float response
          rankByScore float.toFloatArithmetic retrievalBackend
            (hits.filter fun hit => float.le minScore hit.1 && isChunkAuthorized hit.2 scope)
              topK).mapError fun _ => stageError "RESPONSE_CONTRACT") := by
  unfold search at h
  obtain ⟨hquestion, h⟩ := ensure_bind.mp h
  obtain ⟨htop, h⟩ := ensure_bind.mp h
  obtain ⟨metadata, hmetadata, h⟩ := bind_eq_ok.mp h
  obtain ⟨vector, hvector, h⟩ := bind_eq_ok.mp h
  obtain ⟨dimension, hdimension, h⟩ := bind_eq_ok.mp h
  obtain ⟨hlength, h⟩ := ensure_bind.mp h
  cases collection with
  | none => cases h
  | some stored =>
    refine ⟨stored, vector, rfl, fun respond' => ?_⟩
    have hsame : searchMetadata { options with respond := respond' } (some stored) fingerprintChunks
        verifiedMetadata =
          searchMetadata options (some stored) fingerprintChunks verifiedMetadata := rfl
    unfold search
    rw [ensure_true_bind hquestion, ensure_true_bind htop, hsame, hmetadata]
    show ((normalize float queryVector).mapError _ >>= _) = _
    rw [hvector]
    show ((((metadataGet metadata "embedding_dimension").bind (pyInt? options.unicode)).elim _
      _ : Except PyError Int) >>= _) = _
    rw [hdimension]
    show (ensure (decide ((vector.length : Int) = dimension)) .indexNotReadyError
      (stageError "QUERY_EMBEDDING").message >>= _) = _
    rw [ensure_true_bind hlength]
    rfl

end

section

open MilvusWriter (Surroundings)

variable {Score ν : Type} {env : Surroundings Score}

/-! ### Backends -/

/-- Every hit is a document of the index that the filter admits. -/
def HonestLexical (env : Surroundings Score)
    (bm25 : Elasticsearch.Index → Elasticsearch.SearchBody → Except PyError JsonObject) : Prop :=
  ∀ index body response hits, bm25 index body = .ok response →
    Elasticsearch.readHits env.toNumberArithmetic response = .ok hits →
    ∀ hit ∈ hits, ∃ document ∈ index.documents.rows, body.filter.holds document.source = true ∧
    document.source = hit.2

/-- Every hit is a row of the collection that the filter admits. -/
def HonestVector (env : Surroundings Score)
    (nearest : Milvus.Collection Score → Milvus.SearchBody Score → Except PyError JsonValue) :
    Prop :=
  ∀ collection body response hits, nearest collection body = .ok response →
    Milvus.readHits env.toVectorArithmetic response = .ok hits → ∀ hit ∈ hits,
      ∃ row ∈ collection.rows.rows, body.filter.holds row = true ∧ row.payload = hit.2

def SearchServices.withBackends (services : SearchServices env ν)
    (bm25 : Elasticsearch.Index → Elasticsearch.SearchBody → Except PyError JsonObject)
    (nearest : Milvus.Collection Score → Milvus.SearchBody Score → Except PyError JsonValue) :
    SearchServices env ν :=
  { services with bm25 := bm25, nearest := nearest }

def lexicalResponse (hits : List JsonObject) : JsonObject :=
  .ofMembers [("hits",
    .object [("hits",
      .array (hits.map fun hit => .object [("_source", .object hit.members.rows),
        ("_score", .int 1)]))])]

def vectorResponse (hits : List JsonObject) : JsonValue :=
  .array [.array
    (hits.map fun hit => .object [("entity", .object [("payload", .object hit.members.rows)]),
      ("distance", .int 1)])]

/-- Python's floats, as far as a search relies on them: `float(1)` is 1.0, and sums of reciprocals
do not overflow. -/
structure StandardFloats (env : Surroundings Score) : Prop where
  one : env.ofNumber (.finite 1) = .ok (env.ofInt 1)
  oneFinite : env.isFinite (env.ofInt 1) = true
  sums : SumsFinite env.toFloatArithmetic

theorem ofMembers_rows (payload : JsonObject) :
    JsonObject.ofMembers payload.members.rows = payload := by
  have hrows := rows_ofMembers payload.members.nodup
  cases hmembers : JsonObject.ofMembers payload.members.rows with
  | mk members =>
    rw [hmembers] at hrows
    exact congrArg JsonObject.mk (Table.ext hrows)

/-- A hit of either backend is read as its payload, at score 1. -/
theorem mapM_readHit (hfloats : StandardFloats env)
    {readHit : JsonValue → Except PyError (Score × JsonObject)} {wrap : JsonObject → JsonValue}
    {kind : ErrorKind} {message : String}
    (hread : ∀ hit, readHit (wrap hit) = (env.ofNumber (.finite ((1 : Int) : Rat)) >>= fun score =>
      ensure (env.isFinite score) kind message >>= fun _ =>
        pure (score, JsonObject.ofMembers hit.members.rows))) (hits : List JsonObject) :
    (hits.map wrap).mapM readHit = .ok (hits.map fun hit => (env.ofInt 1, hit)) := by
  rw [mapM_eq_ok, List.forall₂_map_left_iff, List.forall₂_map_right_iff]
  refine List.forall₂_same.mpr fun hit _ => ?_
  rw [hread, Int.cast_one, hfloats.one, ofMembers_rows]
  show (ensure (env.isFinite (env.ofInt 1)) _ _ >>= _) = _
  rw [ensure_true_bind hfloats.oneFinite]
  rfl

theorem readHits_lexicalResponse (hfloats : StandardFloats env) (hits : List JsonObject) :
    Elasticsearch.readHits env.toNumberArithmetic (lexicalResponse hits) =
      .ok (hits.map fun hit => (env.ofInt 1, hit)) :=
  mapM_readHit hfloats (fun _ => rfl) hits

theorem readHits_vectorResponse (hfloats : StandardFloats env) (hits : List JsonObject) :
    Milvus.readHits env.toVectorArithmetic (vectorResponse hits) =
      .ok (hits.map fun hit => (env.ofInt 1, hit)) :=
  mapM_readHit hfloats (fun _ => rfl) hits

/-! ### One payload -/

/-- A payload that may be there is ranked by itself. -/
theorem rankByScore_toList {float : FloatArithmetic Score} {backend : String}
    (hbackend : backendPattern backend = true) {topK : Int} (htop : 1 ≤ topK)
    (offer : Option JsonObject) {score : Score}
    (hrankable : ∀ payload ∈ offer, Rankable float (score, payload)) :
    ∃ ranking, rankByScore float backend (offer.toList.map fun payload => (score, payload)) topK =
      .ok ranking ∧ ranking.map (·.chunk) = offer.toList := by
  have hcut : ((offer.toList.map fun payload => (score, payload)).insertionSort
      (scoredLe float)).take topK.toNat = offer.toList.map fun payload => (score, payload) := by
    cases offer with
    | none => simp
    | some payload =>
      refine List.take_of_length_le ?_
      simp only [Option.toList_some, List.map_cons, List.map_nil, List.length_insertionSort,
        List.length_cons, List.length_nil]
      omega
  unfold rankByScore
  rw [hcut]
  obtain ⟨ranking, hranking⟩ :
      ∃ ranking, rankInOrder float backend (offer.toList.map fun payload => (score, payload)) =
        .ok ranking := by
    refine exists_rankInOrder hbackend (fun p hp => ?_) (by cases offer <;> simp)
    obtain ⟨payload, hpayload, rfl⟩ := List.mem_map.mp hp
    exact hrankable payload (Option.mem_toList.mp hpayload)
  refine ⟨ranking, hranking, ?_⟩
  rw [(rankInOrder_ok hranking).2, List.map_map]
  simp [Function.comp_def]

theorem rankable_of_authorized (hfloats : StandardFloats env) {payload scope : JsonObject}
    (h : isChunkAuthorized payload scope = true) :
    Rankable env.toFloatArithmetic (env.ofInt 1, payload) := by
  obtain ⟨hservable, -⟩ := isChunkAuthorized_iff.mp h
  unfold isServable hasRequiredChunkFields at hservable
  simp only [List.all_cons, List.all_nil, Bool.and_eq_true, Bool.and_true] at hservable
  obtain ⟨⟨⟨⟨⟨hchunk, hdocument, -⟩, -⟩, -⟩, -⟩, -⟩ := hservable
  exact ⟨hfloats.oneFinite, hchunk, hdocument⟩

theorem validateRouteRanking_of_rank {float : FloatArithmetic Score} {backend : String}
    {scored : List (Score × JsonObject)} {topK : Int} {ranking : List (RankedChunk float)}
    (h : rankByScore float backend scored topK = .ok ranking) {route : OnlineVersionRoute}
    (honRoute : ∀ chunk ∈ ranking.map (·.chunk), onRoute route chunk = true) :
    validateRouteRanking route ranking = .ok () := by
  unfold rankByScore rankInOrder at h
  obtain ⟨made, -, h⟩ := bind_eq_ok.mp h
  obtain ⟨hvalidate, h⟩ := check_bind.mp h
  cases pure_eq_ok.mp h
  obtain ⟨hvalid, hbackend⟩ := validateRanking_ok_iff.mp hvalidate
  unfold validateRouteRanking
  refine check_bind.mpr ⟨?_, ?_⟩
  · cases ranking with
    | nil => rfl
    | cons candidate rest =>
      show validateRanking (candidate :: rest) candidate.backend = .ok ()
      rw [hbackend candidate (List.mem_cons_self ..)]
      exact hvalidate
  · rw [ensure_eq_ok, List.all_eq_true]
    exact fun candidate hcandidate => honRoute _ (List.mem_map_of_mem hcandidate)

variable {services : SearchServices env ν}
  {retriever : OnlineVersionRrfRetriever env.toFloatArithmetic} {world : SearchWorld Score}
  {request : SearchRequest} {route : OnlineVersionRoute} {chunks : List ChunkRecordV1}

/-- The route's index stores the payload, and the filter of a search admits it. -/
def LexicallyStored (world : SearchWorld Score) (request : SearchRequest)
    (route : OnlineVersionRoute) (payload : JsonObject) : Prop :=
  ∃ index, world.indexes route.elasticsearchIndex = some index ∧ ∃ document ∈ index.documents.rows,
    (Elasticsearch.authorizationFilter (routeScope request.scope route)).holds document.source =
      true ∧ document.source = payload

/-- The route's collection stores the payload, and the filter of a search admits it. -/
def VectorStored (world : SearchWorld Score) (request : SearchRequest) (route : OnlineVersionRoute)
    (payload : JsonObject) : Prop :=
  ∃ collection, world.collections route.milvusCollection = some collection ∧
    ∃ row ∈ collection.rows.rows,
    (Milvus.authorizationFilter (routeScope request.scope route)).holds row = true ∧
    row.payload = payload

open Classical in
/-- The payload, if there is one and it is of this kind. -/
noncomputable def pick (p : JsonObject → Prop) (offer : Option JsonObject) : Option JsonObject :=
  offer.filter fun payload => decide (p payload)

open Classical in
theorem pick_eq_some {p : JsonObject → Prop} {offer : Option JsonObject} {payload : JsonObject} :
    pick p offer = some payload ↔ offer = some payload ∧ p payload := by
  unfold pick
  rw [Option.filter_eq_some_iff, decide_eq_true_eq]

theorem pick_congr {p q : JsonObject → Prop} {offer : Option JsonObject}
    (h : ∀ payload, p payload ↔ q payload) : pick p offer = pick q offer := by
  rw [funext fun payload => propext (h payload)]

theorem filter_pick {p : JsonObject → Prop} (offer : Option JsonObject) (score : Score)
    (scope : JsonObject) :
    (((pick p offer).toList.map fun payload => (score, payload)).filter fun hit => isChunkAuthorized
      hit.2 scope) =
      (pick (fun payload => p payload ∧ isChunkAuthorized payload scope = true) offer).toList.map
        fun payload => (score, payload) := by
  cases offer with
  | none => rfl
  | some payload =>
    by_cases hp : p payload <;> by_cases hauthorized : isChunkAuthorized payload scope = true <;>
      simp [pick, Option.filter, hp, hauthorized]

/-- An index that finds nothing but this payload. -/
noncomputable def offerLexical (offer : Option JsonObject) (index : Elasticsearch.Index)
    (body : Elasticsearch.SearchBody) : Except PyError JsonObject :=
  .ok (lexicalResponse (pick (fun payload =>
    ∃ document ∈ index.documents.rows, body.filter.holds document.source = true ∧
      document.source = payload) offer).toList)

noncomputable def offerVector (offer : Option JsonObject) (collection : Milvus.Collection Score)
    (body : Milvus.SearchBody Score) : Except PyError JsonValue :=
  .ok (vectorResponse
    (pick (fun payload => ∃ row ∈ collection.rows.rows, body.filter.holds row = true ∧
      row.payload = payload) offer).toList)

theorem honest_lexicalResponse (hfloats : StandardFloats env)
    {choose : Elasticsearch.Index → Elasticsearch.SearchBody → List JsonObject}
    (h : ∀ index body, ∀ payload ∈ choose index body,
      ∃ document ∈ index.documents.rows, body.filter.holds document.source = true ∧
      document.source = payload) :
    HonestLexical env fun index body => .ok (lexicalResponse (choose index body)) := by
  intro index body response hits hresponse hhits hit hhit
  cases hresponse
  rw [readHits_lexicalResponse hfloats] at hhits
  cases hhits
  obtain ⟨payload, hpayload, rfl⟩ := List.mem_map.mp hhit
  exact h index body payload hpayload

theorem honest_vectorResponse (hfloats : StandardFloats env)
    {choose : Milvus.Collection Score → Milvus.SearchBody Score → List JsonObject}
    (h : ∀ collection body, ∀ payload ∈ choose collection body,
      ∃ row ∈ collection.rows.rows, body.filter.holds row = true ∧ row.payload = payload) :
    HonestVector env fun collection body => .ok (vectorResponse (choose collection body)) := by
  intro collection body response hits hresponse hhits hit hhit
  cases hresponse
  rw [readHits_vectorResponse hfloats] at hhits
  cases hhits
  obtain ⟨payload, hpayload, rfl⟩ := List.mem_map.mp hhit
  exact h collection body payload hpayload

theorem honest_offerLexical (hfloats : StandardFloats env) (offer : Option JsonObject) :
    HonestLexical env (offerLexical offer) :=
  honest_lexicalResponse hfloats fun _ _ _ hpayload =>
    (pick_eq_some.mp (Option.mem_toList.mp hpayload)).2

theorem honest_offerVector (hfloats : StandardFloats env) (offer : Option JsonObject) :
    HonestVector env (offerVector offer) :=
  honest_vectorResponse hfloats fun _ _ _ hpayload =>
    (pick_eq_some.mp (Option.mem_toList.mp hpayload)).2

/-- What a search of a route finds of an offered payload. -/
noncomputable def found (stored : SearchWorld Score → SearchRequest → OnlineVersionRoute →
    JsonObject → Prop) (world : SearchWorld Score) (request : SearchRequest)
      (offer : Option JsonObject) (route : OnlineVersionRoute) : Option JsonObject :=
  pick (fun payload => stored world request route payload ∧
    isChunkAuthorized payload (routeScope request.scope route) = true) offer

/-- The ranking is valid and has these chunks. -/
def RanksOnly (route : OnlineVersionRoute) (payload : Option JsonObject)
    (ranking : List (RankedChunk env.toFloatArithmetic)) : Prop :=
  ranking.map (·.chunk) = payload.toList ∧
    ((∀ chunk ∈ payload, onRoute route chunk = true) → validateRouteRanking route ranking = .ok ())

theorem exists_ranksOnly (hfloats : StandardFloats env) {backend : String}
    (hbackend : backendPattern backend = true) {topK : Int} (htop : 1 ≤ topK)
    (stored : SearchWorld Score → SearchRequest → OnlineVersionRoute → JsonObject → Prop)
    (world : SearchWorld Score) (request : SearchRequest)
    (offer : Option JsonObject) (route : OnlineVersionRoute) :
    ∃ ranking, rankByScore env.toFloatArithmetic backend
      ((found stored world request offer route).toList.map
        fun payload => (env.ofInt 1, payload)) topK =
      .ok ranking ∧ RanksOnly route (found stored world request offer route) ranking := by
  obtain ⟨ranking, hranking, hchunks⟩ :=
    rankByScore_toList hbackend htop (found stored world request offer route)
      fun payload hpayload =>
    rankable_of_authorized hfloats (pick_eq_some.mp hpayload).2.2
  refine ⟨ranking, hranking, hchunks, fun honRoute => validateRouteRanking_of_rank hranking
    fun chunk hchunk => honRoute chunk ?_⟩
  rw [hchunks, Option.mem_toList] at hchunk
  exact hchunk

/-- A lexical search that gets through finds what it is offered. -/
theorem searchLexicalRoute_offer (hfloats : StandardFloats env) {question : String}
    {ranking : List (RankedChunk env.toFloatArithmetic)}
    (h : searchLexicalRoute services retriever world request chunks route question = .ok ranking)
    (nearest : Milvus.Collection Score → Milvus.SearchBody Score → Except PyError JsonValue)
    (offer : Option JsonObject) :
    ∃ ranking, searchLexicalRoute (services.withBackends (offerLexical offer) nearest) retriever
      world request chunks route question = .ok ranking ∧
      RanksOnly route (found LexicallyStored world request offer route) ranking := by
  obtain ⟨stored, hindex, hsearch⟩ := Elasticsearch.search_ok h
  have hstored (payload : JsonObject) : LexicallyStored world request route payload ↔
      ∃ document ∈ stored.documents.rows,
      (Elasticsearch.authorizationFilter (routeScope request.scope route)).holds document.source =
        true ∧ document.source = payload := by
    unfold LexicallyStored
    rw [hindex]
    simp
  obtain ⟨ranked, hranked, honly⟩ :=
    exists_ranksOnly hfloats (show backendPattern Elasticsearch.retrievalBackend =
      true by decide +kernel)
    retriever.positive.1 LexicallyStored world request offer route
  refine ⟨ranked, (hsearch (offerLexical offer)).trans ?_, honly⟩
  show (Elasticsearch.readHits env.toNumberArithmetic (lexicalResponse _) >>= _) = _
  rw [readHits_lexicalResponse hfloats]
  show rankByScore env.toFloatArithmetic Elasticsearch.retrievalBackend (List.filter _ _)
    retriever.candidateK = _
  rw [filter_pick offer, ← hranked]
  unfold found
  rw [pick_congr fun payload => and_congr_left fun _ => (hstored payload).symm]

/-- A vector search that gets through finds what it is offered. -/
theorem searchVectorRoute_offer (hfloats : StandardFloats env) {question : String}
    {embeddings : List (String × QueryVector)} {ranking : List (RankedChunk env.toFloatArithmetic)}
    (h : searchVectorRoute services retriever world request chunks embeddings route question =
      .ok ranking)
    (bm25 : Elasticsearch.Index → Elasticsearch.SearchBody → Except PyError JsonObject)
    (offer : Option JsonObject) :
    ∃ ranking, searchVectorRoute (services.withBackends bm25 (offerVector offer)) retriever world
      request chunks embeddings route question = .ok ranking ∧
      RanksOnly route (found VectorStored world request offer route) ranking := by
  unfold searchVectorRoute at h
  obtain ⟨vector, hvector, h⟩ := bind_eq_ok.mp h
  obtain ⟨numbers, hnumbers, h⟩ := bind_eq_ok.mp h
  obtain ⟨stored, normalized, hcollection, hsearch⟩ := Milvus.search_ok h
  have hstored (payload : JsonObject) : VectorStored world request route payload ↔
      ∃ row ∈ stored.rows.rows, (Milvus.authorizationFilter (routeScope request.scope route)).holds
        row = true ∧ row.payload = payload := by
    unfold VectorStored
    rw [hcollection]
    simp
  obtain ⟨ranked, hranked, honly⟩ :=
    exists_ranksOnly hfloats (show backendPattern Milvus.retrievalBackend = true by decide +kernel)
    retriever.positive.1 VectorStored world request offer route
  refine ⟨ranked, ?_, honly⟩
  unfold searchVectorRoute
  rw [hvector]
  show (vector.mapM env.ofNumber >>= _) = _
  rw [hnumbers]
  refine (hsearch (offerVector offer)).trans ?_
  show ((Milvus.readHits env.toVectorArithmetic (vectorResponse _) >>= _).mapError _) = _
  rw [readHits_vectorResponse hfloats]
  show (rankByScore env.toFloatArithmetic Milvus.retrievalBackend (List.filter _ _)
    retriever.candidateK).mapError _ = _
  have hscore (hits : List JsonObject) :
      (hits.map fun payload => (env.ofInt 1, payload)).filter (fun hit : Score × JsonObject =>
      env.le retriever.vectorMinScore hit.1 &&
        isChunkAuthorized hit.2 (routeScope request.scope route)) =
      (hits.map fun payload => (env.ofInt 1, payload)).filter fun hit : Score × JsonObject =>
        isChunkAuthorized hit.2 (routeScope request.scope route) := by
    refine List.filter_congr fun hit hhit => ?_
    obtain ⟨payload, -, rfl⟩ := List.mem_map.mp hhit
    rw [retriever.scoreRange.2, Bool.true_and]
  rw [hscore, filter_pick offer, pick_congr fun payload => and_congr_left
    fun _ => (hstored payload).symm]
  show (rankByScore env.toFloatArithmetic Milvus.retrievalBackend
    ((found VectorStored world request offer route).toList.map _) _).mapError _ = _
  rw [hranked]
  rfl

/-! ### What comes out of a search -/

/-- A lexical hit is stored under the route's name, if the index is honest. -/
theorem stored_of_lexical {bm25 : Elasticsearch.Index → Elasticsearch.SearchBody →
    Except PyError JsonObject} (hhonest : HonestLexical env bm25)
    {nearest : Milvus.Collection Score → Milvus.SearchBody Score → Except PyError JsonValue}
    {question : String}
    {ranking : List (RankedChunk env.toFloatArithmetic)}
    (h : searchLexicalRoute (services.withBackends bm25 nearest) retriever world request chunks
      route question = .ok ranking)
    {candidate : RankedChunk env.toFloatArithmetic} (hcandidate : candidate ∈ ranking) :
    LexicallyStored world request route candidate.chunk ∧
    isChunkAuthorized candidate.chunk (routeScope request.scope route) = true := by
  obtain ⟨stored, hindex, hsearch⟩ := Elasticsearch.search_ok h
  obtain ⟨response, hresponse, hrest⟩ := bind_eq_ok.mp ((hsearch bm25).symm.trans h)
  obtain ⟨hits, hhits, hranked⟩ := bind_eq_ok.mp hrest
  obtain ⟨hhit, hauthorized⟩ := List.mem_filter.mp (mem_of_rankByScore hranked hcandidate)
  exact ⟨⟨stored, hindex, hhonest _ _ _ _ hresponse hhits _ hhit⟩, hauthorized⟩

theorem stored_of_vector
    {bm25 : Elasticsearch.Index → Elasticsearch.SearchBody → Except PyError JsonObject}
    {nearest : Milvus.Collection Score → Milvus.SearchBody Score → Except PyError JsonValue}
    (hhonest : HonestVector env nearest) {question : String}
    {embeddings : List (String × QueryVector)} {ranking : List (RankedChunk env.toFloatArithmetic)}
    (h : searchVectorRoute (services.withBackends bm25 nearest) retriever world request chunks
      embeddings route question = .ok ranking)
    {candidate : RankedChunk env.toFloatArithmetic} (hcandidate : candidate ∈ ranking) :
    VectorStored world request route candidate.chunk ∧
    isChunkAuthorized candidate.chunk (routeScope request.scope route) = true := by
  unfold searchVectorRoute at h
  obtain ⟨vector, -, h⟩ := bind_eq_ok.mp h
  obtain ⟨numbers, -, h⟩ := bind_eq_ok.mp h
  obtain ⟨stored, normalized, hcollection, hsearch⟩ := Milvus.search_ok h
  obtain ⟨response, hresponse, hrest⟩ := bind_eq_ok.mp ((hsearch nearest).symm.trans h)
  obtain ⟨hits, hhits, hranked⟩ := bind_eq_ok.mp (mapError_eq_ok.mp hrest)
  obtain ⟨hhit, hadmitted⟩ := List.mem_filter.mp (mem_of_rankByScore hranked hcandidate)
  rw [Bool.and_eq_true] at hadmitted
  exact ⟨⟨stored, hcollection, hhonest _ _ _ _ (mapError_eq_ok.mp hresponse) hhits _ hhit⟩,
    hadmitted.2⟩

/-- The payload is stored where a search of the route reads, and passes what the search checks of a
hit. -/
structure Offered (world : SearchWorld Score) (request : SearchRequest) (route : OnlineVersionRoute)
    (payload : JsonObject) : Prop where
  stored : LexicallyStored world request route payload ∨ VectorStored world request route payload
  authorized : isChunkAuthorized payload (routeScope request.scope route) = true
  onRoute : onRoute route payload = true

/-- Some answer of the backends gets through a search of the route. -/
def Searchable (services : SearchServices env ν)
    (retriever : OnlineVersionRrfRetriever env.toFloatArithmetic) (world : SearchWorld Score)
    (request : SearchRequest) (chunks : List ChunkRecordV1)
    (embeddings : List (String × QueryVector)) (queries : List (String × String))
    (route : OnlineVersionRoute) : Prop :=
  ∃ question, routeQuestion queries route = .ok question ∧
    ∃ bm25 nearest lexical vector, searchLexicalRoute (services.withBackends bm25 nearest) retriever
      world request chunks route question = .ok lexical ∧
      searchVectorRoute (services.withBackends bm25 nearest) retriever world request chunks
        embeddings route question = .ok vector

/-- What a search passes whatever the backends find. -/
structure Passes (services : SearchServices env ν)
    (retriever : OnlineVersionRrfRetriever env.toFloatArithmetic) (world : SearchWorld Score)
    (request : SearchRequest) (routes : List OnlineVersionRoute) (chunks : List ChunkRecordV1) :
    Prop where
  checked : checkSearch request = .ok ()
  resolved : resolveRoutes services world request.ownerId request.documentIds = .ok routes
  loaded : loadedChunks services world request routes = .ok chunks
  snapshot : checkSnapshot routes chunks = .ok ()
  searchable : routes ≠ [] → ∃ embeddings,
    plannedEmbeddings services retriever request routes = .ok embeddings ∧
    ∀ route ∈ routes, Searchable services retriever world request chunks embeddings
      (plannedQueries retriever request routes) route
  revalidated : revalidate world.db routes request.ownerId request.documentIds
    (services.failure .revalidate) = .ok ()

/-- The searches of the routes that return: each got through, and what they found is offered. -/
theorem foldlM_searchRoute_ok
    {bm25 : Elasticsearch.Index → Elasticsearch.SearchBody → Except PyError JsonObject}
    {nearest : Milvus.Collection Score → Milvus.SearchBody Score → Except PyError JsonValue}
    {embeddings : List (String × QueryVector)}
    {queries : List (String × String)} {routes : List OnlineVersionRoute}
    {before after : RouteResults env}
    (h : routes.foldlM (searchRoute (services.withBackends bm25 nearest) retriever world request
      chunks embeddings queries) before = .ok after) :
    (∀ route ∈ routes,
      Searchable services retriever world request chunks embeddings queries route) ∧
      (HonestLexical env bm25 → HonestVector env nearest → ∀ candidate ∈ after.rankings.flatten,
        candidate ∈ before.rankings.flatten ∨ ∃ route ∈ routes,
          Offered world request route candidate.chunk) := by
  induction routes generalizing before with
  | nil =>
    cases pure_eq_ok.mp h
    exact ⟨fun route hroute => absurd hroute List.not_mem_nil,
      fun _ _ candidate hcandidate => .inl hcandidate⟩
  | cons route routes ih =>
    rw [List.foldlM_cons] at h
    obtain ⟨next, hnext, h⟩ := bind_eq_ok.mp h
    obtain ⟨hothers, hfound⟩ := ih h
    unfold searchRoute at hnext
    obtain ⟨question, hquestion, hnext⟩ := bind_eq_ok.mp hnext
    obtain ⟨both, hboth, hnext⟩ := bind_eq_ok.mp hnext
    cases pure_eq_ok.mp hnext
    unfold routeRankings at hboth
    obtain ⟨lexical, hlexical, hboth⟩ := bind_eq_ok.mp hboth
    obtain ⟨vector, hvector, hboth⟩ := bind_eq_ok.mp hboth
    obtain ⟨hlexicalValid, hboth⟩ := check_bind.mp hboth
    obtain ⟨hvectorValid, hboth⟩ := check_bind.mp hboth
    cases pure_eq_ok.mp hboth
    refine ⟨List.forall_mem_cons.mpr
      ⟨⟨question, hquestion, bm25, nearest, lexical, vector, hlexical, hvector⟩, hothers⟩,
      fun hlexicalHonest hvectorHonest candidate hcandidate => ?_⟩
    rcases hfound hlexicalHonest hvectorHonest candidate hcandidate
      with hcandidate | ⟨other, hother, hoffered⟩
    · rw [List.flatten_append, List.mem_append, List.flatten_cons, List.flatten_singleton,
        List.mem_append] at hcandidate
      rcases hcandidate with hcandidate | hcandidate | hcandidate
      · exact .inl hcandidate
      · obtain ⟨hstored, hauthorized⟩ := stored_of_lexical hlexicalHonest hlexical hcandidate
        obtain ⟨on, hon, honRoute⟩ :=
          validateRouteRanking_ok hlexicalValid (List.mem_singleton.mpr rfl) candidate hcandidate
        exact .inr ⟨route, List.mem_cons_self .., .inl hstored, hauthorized,
          List.mem_singleton.mp hon ▸ honRoute⟩
      · obtain ⟨hstored, hauthorized⟩ := stored_of_vector hvectorHonest hvector hcandidate
        obtain ⟨on, hon, honRoute⟩ :=
          validateRouteRanking_ok hvectorValid (List.mem_singleton.mpr rfl) candidate hcandidate
        exact .inr ⟨route, List.mem_cons_self .., .inr hstored, hauthorized,
          List.mem_singleton.mp hon ▸ honRoute⟩
    · exact .inr ⟨other, List.mem_cons_of_mem _ hother, hoffered⟩

def OnlineVersionRrfRetriever.withObservers
    (retriever : OnlineVersionRrfRetriever env.toFloatArithmetic)
    (latency : Option (Except PyError Unit))
    (ladder : Option (CandidateLadderObservation env.toFloatArithmetic → Except PyError Unit)) :
    OnlineVersionRrfRetriever env.toFloatArithmetic :=
  { retriever with latencyObserver := latency, candidateLadderObserver := ladder }

/-- A search that returns has passed all this, and returns what the routes offer. -/
theorem search_offered
    {bm25 : Elasticsearch.Index → Elasticsearch.SearchBody → Except PyError JsonObject}
    {nearest : Milvus.Collection Score → Milvus.SearchBody Score → Except PyError JsonValue}
    {latency : Option (Except PyError Unit)}
    {ladder : Option (CandidateLadderObservation env.toFloatArithmetic → Except PyError Unit)}
    {ranking : List (RankedChunk env.toFloatArithmetic)}
    (h : (retriever.withObservers latency ladder).search (services.withBackends bm25 nearest) world
      request = .ok ranking) :
    ∃ routes chunks, Passes services retriever world request routes chunks ∧
      (HonestLexical env bm25 → HonestVector env nearest → ∀ candidate ∈ ranking, ∃ route ∈ routes,
        Offered world request route candidate.chunk) := by
  unfold OnlineVersionRrfRetriever.search at h
  obtain ⟨hchecked, h⟩ := check_bind.mp h
  obtain ⟨routes, hresolved, h⟩ := bind_eq_ok.mp h
  obtain ⟨results, hresults, hfinish⟩ := bind_eq_ok.mp h
  unfold retrieveRoutes at hresults
  obtain ⟨chunks, hloaded, hresults⟩ := bind_eq_ok.mp (mapError_eq_ok.mp hresults)
  obtain ⟨hsnapshot, hresults⟩ := check_bind.mp hresults
  obtain ⟨delivered, hfound, hresults⟩ := bind_eq_ok.mp hresults
  obtain ⟨hrevalidated, hresults⟩ := check_bind.mp hresults
  obtain rfl := pure_eq_ok.mp hresults
  obtain ⟨hsearchable, hoffered⟩ :
      (routes ≠ [] → ∃ embeddings,
        plannedEmbeddings services retriever request routes = .ok embeddings ∧
      ∀ route ∈ routes, Searchable services retriever world request chunks embeddings
        (plannedQueries retriever request routes) route) ∧
      (HonestLexical env bm25 → HonestVector env nearest → ∀ candidate ∈ delivered.rankings.flatten,
        ∃ route ∈ routes, Offered world request route candidate.chunk) := by
    unfold searchRoutes at hfound
    split at hfound
    · rename_i hempty
      cases hfound
      exact ⟨fun hne => absurd (List.isEmpty_iff.mp hempty) hne,
        fun _ _ candidate hcandidate => absurd hcandidate List.not_mem_nil⟩
    · obtain ⟨embeddings, hembeddings, hfound⟩ := bind_eq_ok.mp hfound
      obtain ⟨hsearchable, hoffered⟩ := foldlM_searchRoute_ok hfound
      exact ⟨fun _ => ⟨embeddings, hembeddings, hsearchable⟩,
        fun hlexical hvector candidate hcandidate =>
        (hoffered hlexical hvector candidate hcandidate).resolve_left (by simp)⟩
  refine ⟨routes, chunks, ⟨hchecked, hresolved, hloaded, hsnapshot, hsearchable, hrevalidated⟩,
    fun hlexical hvector candidate hcandidate => ?_⟩
  unfold finish at hfinish
  obtain ⟨candidates, hfused, hfinish⟩ := bind_eq_ok.mp hfinish
  obtain rfl := conclude_ok hfinish
  obtain ⟨hvalid, hchunks⟩ := fuse_ok hfused
  obtain ⟨source, hsource, hsame, -⟩ := (finalCandidates_source hvalid _ _).2 candidate hcandidate
  obtain ⟨origin, horigin, hchunk⟩ :=
    List.mem_map.mp (hchunks source.chunk (List.mem_map_of_mem hsource))
  rw [← hsame, ← hchunk]
  exact hoffered hlexical hvector origin horigin

/-! ### A payload that comes out -/

theorem indexVersions_nodup {ownerId : String} {versions : List DocumentVersionLifecycleV1}
    {documentIds : List String} {failure : Option PyError}
    (h : resolveReadyVersions world.db ownerId documentIds failure = .ok versions) :
    (versions.map (·.documentId)).Nodup := by
  unfold resolveReadyVersions at h
  obtain ⟨-, h⟩ := ensure_bind.mp h
  obtain ⟨-, h⟩ := ensure_bind.mp h
  obtain ⟨online, -, h⟩ := bind_eq_ok.mp h
  obtain ⟨byDocument, -, h⟩ := bind_eq_ok.mp h
  obtain ⟨-, h⟩ := ensure_bind.mp h
  cases pure_eq_ok.mp h
  exact ((List.perm_insertionSort _ _).map _).nodup_iff.mpr byDocument.nodup

/-- The routes are of different documents, with the identifiers of stored versions. -/
theorem resolveRoutes_documents {ownerId : String} {documentIds : List String}
    {routes : List OnlineVersionRoute}
    (h : resolveRoutes services world ownerId documentIds = .ok routes) :
    (routes.map (·.documentId)).Nodup ∧ ∀ route ∈ routes, ∃ v ∈ world.db.versions.rows,
      v.documentId = route.documentId := by
  unfold resolveRoutes at h
  obtain ⟨versions, hversions, h⟩ := bind_eq_ok.mp h
  have hdocuments : routes.map (·.documentId) = versions.map (·.documentId) := by
    rw [← List.forall₂_eq_eq_eq, List.forall₂_map_left_iff, List.forall₂_map_right_iff]
    exact (mapM_eq_ok.mp h).flip.imp fun route version hroute =>
      congrArg Prod.fst (verifyRoute_ok hroute).2
  refine ⟨hdocuments ▸ indexVersions_nodup hversions, fun route hroute => ?_⟩
  obtain ⟨version, hversion, hinspected⟩ := exists_of_mapM_ok h hroute
  obtain ⟨v, hv, -, hdocument, -⟩ := (resolveReadyVersions_ok hversions).1 (versionKey version)
    (List.mem_map_of_mem hversion)
  exact ⟨v, Table.mem_rows_of_find? hv,
    hdocument.trans (congrArg Prod.fst (verifyRoute_ok hinspected).2).symm⟩

/-- Within a route's scope only chunks of its document are authorized. -/
theorem document_of_authorized {scope payload : JsonObject} (hdocument : route.documentId ≠ "")
    (h : isChunkAuthorized payload (routeScope scope route) = true) :
    (payload.get "document_id").str? = some route.documentId := by
  have hdocuments : ((routeScope scope route).get "document_ids").stringSet =
      [route.documentId] := by
    unfold routeScope
    rw [JsonObject.get_put_ne _ _ (by decide), JsonObject.get_put_ne _ _ (by decide),
      JsonObject.get_put_self]
    simp [JsonValue.stringSet, JsonValue.str?, Option.filter, hdocument]
  have hlibraries : ((routeScope scope route).get "library_ids").stringSet = [] := by
    unfold routeScope
    rw [JsonObject.get_put_ne _ _ (by decide), JsonObject.get_put_self]
    rfl
  obtain ⟨-, -, -, hselected | ⟨hnone, -⟩⟩ := isChunkAuthorized_iff.mp h
  · rcases matchesSelectedScope_iff.mp hselected with ⟨d, hd, hpayload⟩ | ⟨l, -, hl⟩
    · rw [hdocuments, List.mem_singleton] at hd
      rw [hpayload, hd]
    · rw [hlibraries] at hl
      cases hl
  · rw [(hasSelectors_eq_false.mp hnone).1] at hdocuments
    cases hdocuments

theorem fuse_single (hsums : SumsFinite env.toFloatArithmetic) {rrfK : Int} (hk : 1 ≤ rrfK)
    {rankings : List (List (RankedChunk env.toFloatArithmetic))} {payload : JsonObject}
    (h : rankings.flatten.map (·.chunk) = [payload]) :
    ∃ fused, fuse env.toFloatArithmetic rrfK rankings none = .ok fused ∧
    fused.map (·.chunk) = [payload] := by
  obtain ⟨candidate, hcandidate, hchunk⟩ := List.map_eq_singleton_iff.mp h
  cases hchunk
  have hentries : rankings.flatten.foldlM (fuseCandidate env.toFloatArithmetic rrfK) Table.empty =
      .ok (Table.empty.upsert
        { chunkId := candidate.chunkId
          payload := candidate.chunk
          score := env.add (env.ofInt 0) (env.reciprocal (rrfK + candidate.rank))
          bestRank := candidate.rank }) := by
    rw [hcandidate]
    rfl
  obtain ⟨fused, hfused⟩ := exists_fused hsums hk hentries
  refine ⟨fused, ?_, (rankInOrder_ok hfused).2⟩
  unfold fuse
  rw [hentries]
  exact hfused

/-- Of a single candidate every selection keeps its chunk. -/
theorem finalCandidates_single {candidates : List (RankedChunk env.toFloatArithmetic)}
    {payload : JsonObject} (h : candidates.map (·.chunk) = [payload]) {topK : Int} (htop : 1 ≤ topK)
    (selection : Option (Except PyError RouteCoveragePlan)) :
    ∃ candidate ∈ finalCandidates candidates topK selection, candidate.chunk = payload := by
  obtain ⟨single, rfl, hchunk⟩ := List.map_eq_singleton_iff.mp h
  cases hchunk
  have hfirst : ∃ candidate ∈ [single].take topK.toNat, candidate.chunk = single.chunk := by
    rw [List.take_of_length_le (by simp; omega)]
    exact ⟨single, List.mem_singleton.mpr rfl, rfl⟩
  unfold finalCandidates
  match selection with
  | none => exact hfirst
  | some (.error e) => exact hfirst
  | some (.ok plan) =>
    dsimp only
    split
    · split
      · rename_i selected hselected
        obtain ⟨hlength, -, chosen, hsubset, hids, hsame⟩ := applySelection_chosen hselected
        cases chosen with
        | nil =>
          rw [← hids] at hlength
          simp at hlength
          omega
        | cons first rest =>
          cases selected with
          | nil => cases hsame
          | cons candidate others =>
            have hchunk : candidate.chunk = first.chunk :=
              congrArg (fun p => p.2) (List.cons.inj hsame).1
            refine ⟨candidate, List.mem_cons_self .., hchunk.trans ?_⟩
            rw [List.mem_singleton.mp (hsubset (List.mem_cons_self ..))]
      · exact hfirst
    · exact hfirst

/-- What both backends find of their offers on a route. -/
noncomputable def offeredChunks (world : SearchWorld Score) (request : SearchRequest)
    (lexical vector : Option JsonObject) (route : OnlineVersionRoute) : List JsonObject :=
  (found LexicallyStored world request lexical route).toList ++
    (found VectorStored world request vector route).toList

theorem searchRoute_offer (hfloats : StandardFloats env) {embeddings : List (String × QueryVector)}
    {queries : List (String × String)}
    (hsearchable : Searchable services retriever world request chunks embeddings queries route)
    (lexical vector : Option JsonObject)
    (honRoute : ∀ chunk ∈ offeredChunks world request lexical vector route,
      onRoute route chunk = true) (before : RouteResults env) :
    ∃ after,
      searchRoute (services.withBackends (offerLexical lexical) (offerVector vector)) retriever
        world request chunks embeddings queries before route = .ok after ∧
      after.rankings.flatten.map (·.chunk) = before.rankings.flatten.map (·.chunk) ++
        offeredChunks world request lexical vector route := by
  obtain ⟨question, hquestion, bm25, nearest, lexicalFound, vectorFound, hlexical, hvector⟩ :=
    hsearchable
  obtain ⟨lexicalRanking, hlexical, hlexicalChunks, hlexicalValid⟩ :=
    searchLexicalRoute_offer hfloats hlexical (offerVector vector) lexical
  obtain ⟨vectorRanking, hvector, hvectorChunks, hvectorValid⟩ :=
    searchVectorRoute_offer hfloats hvector (offerLexical lexical) vector
  have hlexicalValid := hlexicalValid fun chunk hchunk =>
    honRoute chunk (List.mem_append_left _ (Option.mem_toList.mpr hchunk))
  have hvectorValid := hvectorValid fun chunk hchunk =>
    honRoute chunk (List.mem_append_right _ (Option.mem_toList.mpr hchunk))
  refine ⟨⟨before.rankings ++ [lexicalRanking, vectorRanking], before.elasticsearchTimings + 1,
    before.milvusTimings + 1⟩, ?_, ?_⟩
  · unfold searchRoute
    refine bind_eq_ok.mpr
      ⟨question, hquestion, bind_eq_ok.mpr ⟨[lexicalRanking, vectorRanking], ?_, rfl⟩⟩
    exact bind_eq_ok.mpr ⟨lexicalRanking, hlexical, bind_eq_ok.mpr ⟨vectorRanking, hvector,
      check_bind.mpr ⟨hlexicalValid, check_bind.mpr ⟨hvectorValid, rfl⟩⟩⟩⟩
  · unfold offeredChunks
    rw [← hlexicalChunks, ← hvectorChunks]
    simp

theorem foldlM_searchRoute_offer (hfloats : StandardFloats env)
    {embeddings : List (String × QueryVector)} {queries : List (String × String)}
    (lexical vector : Option JsonObject) {routes : List OnlineVersionRoute}
    (h : ∀ route ∈ routes,
      Searchable services retriever world request chunks embeddings queries route ∧
      ∀ chunk ∈ offeredChunks world request lexical vector route, onRoute route chunk = true)
        (before : RouteResults env) :
    ∃ after, routes.foldlM
      (searchRoute (services.withBackends (offerLexical lexical) (offerVector vector)) retriever
        world request chunks embeddings queries)
      before = .ok after ∧
      after.rankings.flatten.map (·.chunk) = before.rankings.flatten.map (·.chunk) ++
        routes.flatMap (offeredChunks world request lexical vector) := by
  induction routes generalizing before with
  | nil => exact ⟨before, rfl, by simp⟩
  | cons route routes ih =>
    obtain ⟨next, hnext, hchunks⟩ := searchRoute_offer hfloats (h route (List.mem_cons_self ..)).1
      lexical vector (h route (List.mem_cons_self ..)).2 before
    obtain ⟨after, hafter, hrest⟩ :=
      ih (fun other hother => h other (List.mem_cons_of_mem _ hother)) next
    refine ⟨after, ?_, ?_⟩
    · rw [List.foldlM_cons]
      exact bind_eq_ok.mpr ⟨next, hnext, hafter⟩
    · rw [hrest, hchunks, List.append_assoc, List.flatMap_cons]

/-- An offer of the payload that the route finds, and that no other route finds where the payload is
not authorized. -/
theorem exists_offers {payload : JsonObject} (h : Offered world request route payload) :
    ∃ lexical vector, (∀ other, ∀ chunk ∈ offeredChunks world request lexical vector other,
      chunk = payload ∧ isChunkAuthorized payload (routeScope request.scope other) = true) ∧
    offeredChunks world request lexical vector route = [payload] := by
  have hfound {stored : SearchWorld Score → SearchRequest → OnlineVersionRoute → JsonObject → Prop}
      (other : OnlineVersionRoute) {chunk : JsonObject}
      (hchunk : chunk ∈ (found stored world request (some payload) other).toList) :
      chunk = payload ∧ isChunkAuthorized payload (routeScope request.scope other) = true := by
    obtain ⟨hsome, -, hauthorized⟩ := pick_eq_some.mp (Option.mem_toList.mp hchunk)
    cases hsome
    exact ⟨rfl, hauthorized⟩
  have hnothing (stored : SearchWorld Score → SearchRequest → OnlineVersionRoute → JsonObject →
      Prop) (other : OnlineVersionRoute) : found stored world request none other = none := rfl
  rcases h.stored with hstored | hstored
  · refine ⟨some payload, none, fun other chunk hchunk => ?_, ?_⟩
    · unfold offeredChunks at hchunk
      rw [hnothing, Option.toList_none, List.append_nil] at hchunk
      exact hfound other hchunk
    · unfold offeredChunks
      rw [hnothing, show found LexicallyStored world request (some payload) route = some payload
        from pick_eq_some.mpr ⟨rfl, hstored, h.authorized⟩]
      rfl
  · refine ⟨none, some payload, fun other chunk hchunk => ?_, ?_⟩
    · unfold offeredChunks at hchunk
      rw [hnothing, Option.toList_none, List.nil_append] at hchunk
      exact hfound other hchunk
    · unfold offeredChunks
      rw [hnothing, show found VectorStored world request (some payload) route = some payload
        from pick_eq_some.mpr ⟨rfl, hstored, h.authorized⟩]
      rfl

theorem flatMap_eq_of_mem {α β : Type} {f : α → List β} {a : α} {items : List α} (hmem : a ∈ items)
    (hnodup : items.Nodup) (hothers : ∀ b ∈ items, b ≠ a → f b = []) : items.flatMap f = f a := by
  induction items with
  | nil => cases hmem
  | cons b items ih =>
    obtain ⟨hfresh, hnodup⟩ := List.nodup_cons.mp hnodup
    rw [List.flatMap_cons]
    rcases List.mem_cons.mp hmem with rfl | hmem
    · rw [List.flatMap_eq_nil_iff.mpr fun b hb => hothers b (List.mem_cons_of_mem _ hb)
        fun heq => hfresh (heq ▸ hb), List.append_nil]
    · rw [hothers b (List.mem_cons_self ..) fun heq => hfresh (heq ▸ hmem), List.nil_append]
      exact ih hmem hnodup fun b hb => hothers b (List.mem_cons_of_mem _ hb)

theorem topK_of_checkSearch (h : checkSearch request = .ok ()) : 1 ≤ request.topK := by
  unfold checkSearch at h
  obtain ⟨hquestion, -⟩ := ensure_bind.mp h
  rw [Bool.and_eq_true, decide_eq_true_eq] at hquestion
  exact hquestion.2

/-- What a route offers comes out, if the backends find it and nothing else. -/
theorem search_offer (hfloats : StandardFloats env) {routes : List OnlineVersionRoute}
    (hpasses : Passes services retriever world request routes chunks)
    (hnodup : (routes.map (·.documentId)).Nodup)
    (hdocuments : ∀ route ∈ routes, route.documentId ≠ "") (hroute : route ∈ routes)
    {payload : JsonObject}
    (hoffered : Offered world request route payload) :
    ∃ bm25 nearest ranking, HonestLexical env bm25 ∧ HonestVector env nearest ∧
      (retriever.withObservers none none).search (services.withBackends bm25 nearest) world
        request = .ok ranking ∧
      ∃ candidate ∈ ranking, candidate.chunk = payload := by
  obtain ⟨lexical, vector, honly, hhere⟩ := exists_offers hoffered
  have hsame : ∀ other ∈ routes, ∀ chunk ∈ offeredChunks world request lexical vector other,
      chunk = payload ∧ other = route := by
    intro other hother chunk hchunk
    obtain ⟨rfl, hauthorized⟩ := honly other chunk hchunk
    have hdocument := document_of_authorized (hdocuments other hother) hauthorized
    rw [document_of_authorized (hdocuments route hroute) hoffered.authorized, Option.some.injEq]
      at hdocument
    exact ⟨rfl, List.inj_on_of_nodup_map hnodup hother hroute hdocument.symm⟩
  have hoffers : routes.flatMap (offeredChunks world request lexical vector) = [payload] := by
    refine (flatMap_eq_of_mem hroute hnodup.of_map
      fun other hother hne => List.eq_nil_iff_forall_not_mem.mpr fun chunk hchunk => ?_).trans hhere
    exact hne (hsame other hother chunk hchunk).2
  have hne : routes ≠ [] := List.ne_nil_of_mem hroute
  obtain ⟨embeddings, hembeddings, hsearchable⟩ := hpasses.searchable hne
  obtain ⟨results, hresults, hchunks⟩ :=
    foldlM_searchRoute_offer hfloats lexical vector (fun other hother =>
    ⟨hsearchable other hother, fun chunk hchunk => by
      obtain ⟨rfl, rfl⟩ := hsame other hother chunk hchunk
      exact hoffered.onRoute⟩) ⟨[], 0, 0⟩
  rw [hoffers] at hchunks
  obtain ⟨fused, hfused, hpayload⟩ := fuse_single hfloats.sums retriever.positive.2 hchunks
  obtain ⟨candidate, hcandidate, hchunk⟩ :=
    finalCandidates_single hpayload (topK_of_checkSearch hpasses.checked)
      (retriever.finalCandidateSelector.map fun plan =>
    plan request.question fused (routes.map (·.documentId)) request.topK)
  refine ⟨offerLexical lexical, offerVector vector, _, honest_offerLexical hfloats lexical,
    honest_offerVector hfloats vector, ?_, candidate, hcandidate, hchunk⟩
  have hretrieved :
      retrieveRoutes (services.withBackends (offerLexical lexical) (offerVector vector))
        (retriever.withObservers none none) world request routes =
      .ok results := by
    unfold retrieveRoutes searchRoutes
    refine bind_eq_ok.mpr
      ⟨chunks, hpasses.loaded,
        check_bind.mpr ⟨hpasses.snapshot,
          bind_eq_ok.mpr ⟨results, ?_, check_bind.mpr ⟨hpasses.revalidated, rfl⟩⟩⟩⟩
    rw [if_neg (by simpa using hne)]
    exact bind_eq_ok.mpr ⟨embeddings, hembeddings, hresults⟩
  unfold OnlineVersionRrfRetriever.search
  refine check_bind.mpr
    ⟨hpasses.checked, bind_eq_ok.mpr ⟨routes, hpasses.resolved, bind_eq_ok.mpr ⟨results, ?_, ?_⟩⟩⟩
  · rw [hretrieved]
    rfl
  · rw [finish_eq hfloats.sums]
    exact bind_eq_ok.mpr ⟨fused, hfused, rfl⟩

/-! ### The snapshot -/

theorem onRoute_document {payload : JsonObject} (h : onRoute route payload = true) :
    (payload.get "document_id").str? = some route.documentId := by
  unfold onRoute at h
  simp only [Bool.and_eq_true, decide_eq_true_eq] at h
  exact h.1.1.2

section

variable (services : SearchServices env ν)
  (retriever : OnlineVersionRrfRetriever env.toFloatArithmetic) (world : SearchWorld Score)
  (request : SearchRequest)

/-- Whatever the backends find of what is stored, and whoever observes, every chunk returned is a
chunk of its route's snapshot. -/
def ServesSnapshot : Prop :=
  ∀ bm25 nearest latency ladder, HonestLexical env bm25 → HonestVector env nearest → ∀ ranking,
    (retriever.withObservers latency ladder).search (services.withBackends bm25 nearest) world
      request = .ok ranking →
    ∃ routes chunks, resolveRoutes services world request.ownerId request.documentIds = .ok routes ∧
      loadedChunks services world request routes = .ok chunks ∧
      ∀ candidate ∈ ranking, ∃ route ∈ routes, onRoute route candidate.chunk = true ∧
        ∃ chunk ∈ routeChunks route chunks, candidate.chunk.equals chunk.modelDump = true

/-- All that a search can find under the physical names of its routes is in the snapshot. -/
def StoresSnapshot : Prop :=
  ∀ routes chunks, Passes services retriever world request routes chunks → ∀ route ∈ routes,
    ∀ payload, Offered world request route payload → ∃ chunk ∈ routeChunks route chunks,
      payload.equals chunk.modelDump = true

end

theorem StoresSnapshot.serves (h : StoresSnapshot services retriever world request) :
    ServesSnapshot services retriever world request := by
  intro bm25 nearest latency ladder hlexical hvector ranking hsearch
  obtain ⟨routes, chunks, hpasses, hserved⟩ := search_offered hsearch
  refine ⟨routes, chunks, hpasses.resolved, hpasses.loaded, fun candidate hcandidate => ?_⟩
  obtain ⟨route, hroute, hoffered⟩ := hserved hlexical hvector candidate hcandidate
  exact ⟨route, hroute, hoffered.onRoute, h routes chunks hpasses route hroute candidate.chunk
    hoffered⟩

/-- Nothing that a search checks ties what it serves to the snapshot: it is the snapshot's exactly
when all that is stored there is. -/
theorem servesSnapshot_iff (hfloats : StandardFloats env) {α : Type} (c : Coercion α)
    (chunksFingerprint : List ChunkRecordV1 → String)
    (calls : List (Call α)) (indexes : String → Option Elasticsearch.Index)
    (collections : String → Option (Milvus.Collection Score))
    (services : SearchServices env ν) (retriever : OnlineVersionRrfRetriever env.toFloatArithmetic)
    (request : SearchRequest) :
    ServesSnapshot services retriever ⟨(History.empty.run c chunksFingerprint calls).db, indexes,
      collections⟩ request ↔
      StoresSnapshot services retriever ⟨(History.empty.run c chunksFingerprint calls).db, indexes,
        collections⟩ request := by
  constructor
  · intro h routes chunks hpasses route hroute payload hoffered
    obtain ⟨hnodup, hstored⟩ := resolveRoutes_documents hpasses.resolved
    have hdocuments : ∀ route ∈ routes, route.documentId ≠ "" := by
      intro other hother hempty
      obtain ⟨v, hv, hdocument⟩ := hstored other hother
      have hvalid := ((lifecycleInvariant_run calls).valid v hv).documentId
      rw [hdocument, hempty] at hvalid
      cases hvalid
    obtain ⟨bm25, nearest, ranking, hlexical, hvector, hsearch, candidate, hcandidate, rfl⟩ :=
      search_offer hfloats hpasses hnodup hdocuments hroute hoffered
    obtain ⟨routes', chunks', hresolved, hloaded, hsnapshot⟩ :=
      h bm25 nearest none none hlexical hvector ranking hsearch
    cases hpasses.resolved.symm.trans hresolved
    cases hpasses.loaded.symm.trans hloaded
    obtain ⟨other, hother, honRoute, chunk, hchunk, hequals⟩ := hsnapshot candidate hcandidate
    have hdocument := (onRoute_document hoffered.onRoute).symm.trans (onRoute_document honRoute)
    rw [Option.some.injEq] at hdocument
    cases List.inj_on_of_nodup_map hnodup hroute hother hdocument
    exact ⟨chunk, hchunk, hequals⟩
  · exact StoresSnapshot.serves

end

/-! ### Drift -/

/-- The published version, whose indexes hold the payload. -/
def publishedWorld (payload : JsonObject) : SearchWorld Rat :=
  ⟨(History.empty.run noCoercion (fun _ => sampleSha) publishingCalls).db,
    (servedWorld payload).indexes, (servedWorld payload).collections⟩

theorem standardFloats_exact : StandardFloats exactSurroundings := ⟨rfl, rfl, fun _ _ => rfl⟩

theorem honest_exactServices : HonestLexical exactSurroundings exactServices.bm25 ∧
    HonestVector exactSurroundings exactServices.nearest := by
  constructor
  · have hbm25 : exactServices.bm25 = fun index body =>
        .ok (lexicalResponse
          ((index.documents.rows.filter fun document => body.filter.holds document.source).map
            (·.source))) := by
      funext index body
      unfold lexicalResponse
      rw [List.map_map]
      rfl
    rw [hbm25]
    refine honest_lexicalResponse standardFloats_exact fun index body payload hpayload => ?_
    obtain ⟨document, hdocument, hsource⟩ := List.mem_map.mp hpayload
    exact ⟨document, (List.mem_filter.mp hdocument).1, (List.mem_filter.mp hdocument).2, hsource⟩
  · have hnearest : exactServices.nearest = fun collection body =>
        .ok (vectorResponse ((collection.rows.rows.filter fun row => body.filter.holds row).map
          (·.payload))) := by
      funext collection body
      unfold vectorResponse
      rw [List.map_map]
      rfl
    rw [hnearest]
    refine honest_vectorResponse standardFloats_exact fun collection body payload hpayload => ?_
    obtain ⟨row, hrow, hsource⟩ := List.mem_map.mp hpayload
    exact ⟨row, (List.mem_filter.mp hrow).1, (List.mem_filter.mp hrow).2, hsource⟩

/-- What the routes are of. -/
def routeKeys (world : SearchWorld Rat) : Option (List (String × String × String)) :=
  (resolveRoutes exactServices world servedRequest.ownerId servedRequest.documentIds).toOption.map
    fun routes =>
    routes.map fun route => (route.ownerId, route.documentId, route.documentVersionId)

/-- Whatever the indexes hold, if the published version resolves, then its snapshot is its chunk. -/
theorem published_snapshot {world : SearchWorld Rat}
    (hdb : world.db = (History.empty.run noCoercion (fun _ => sampleSha) publishingCalls).db)
    (hkeys : routeKeys world = some [("owner_1", "doc_1", "version_1")])
    {routes : List OnlineVersionRoute} {chunks : List ChunkRecordV1}
    (hresolved : resolveRoutes exactServices world servedRequest.ownerId servedRequest.documentIds =
      .ok routes)
    (hloaded : loadedChunks exactServices world servedRequest routes = .ok chunks) :
    chunks = [servedRecord "text"] ∧ ∀ route ∈ routes,
      routeChunks route chunks = [servedRecord "text"] := by
  unfold routeKeys at hkeys
  rw [hresolved] at hkeys
  have hkeys : routes.map (fun route => (route.ownerId, route.documentId,
      route.documentVersionId)) = [("owner_1", "doc_1", "version_1")] :=
    Option.some.inj hkeys
  have hversions : routes.map (·.documentVersionId) = ["version_1"] := by
    have h := congrArg (List.map fun key : String × String × String => key.2.2) hkeys
    rw [List.map_map] at h
    exact h
  have hsnapshot :
      (loadOnlineChunks (History.empty.run noCoercion (fun _ => sampleSha) publishingCalls).db
        "owner_1" ["version_1"]).toOption =
      some [servedRecord "text"] := by decide +kernel
  have hread : loadOnlineChunks world.db "owner_1" (routes.map (·.documentVersionId)) =
      .ok chunks := hloaded
  rw [hversions, hdb] at hread
  have hchunks : chunks = [servedRecord "text"] := by
    rw [hread] at hsnapshot
    exact Option.some.inj hsnapshot
  refine ⟨hchunks, fun route hroute => ?_⟩
  have hkey := List.mem_map_of_mem
    (f := fun route : OnlineVersionRoute => (route.ownerId, route.documentId,
      route.documentVersionId)) hroute
  rw [hkeys, List.mem_singleton] at hkey
  obtain ⟨howner, hdocument, hversion⟩ : route.ownerId = "owner_1" ∧ route.documentId = "doc_1" ∧
      route.documentVersionId = "version_1" := by
    simpa only [Prod.mk.injEq] using hkey
  unfold routeChunks
  rw [hchunks, howner, hdocument, hversion]
  decide +kernel

/-- A version whose two indexes hold its chunk is served as it is in the snapshot. -/
theorem servesSnapshot_same :
    ServesSnapshot exactServices sampleRetriever (publishedWorld (servedRecord "text").modelDump)
      servedRequest := by
  refine (servesSnapshot_iff standardFloats_exact noCoercion (fun _ => sampleSha) publishingCalls
    (servedWorld (servedRecord "text").modelDump).indexes
    (servedWorld (servedRecord "text").modelDump).collections exactServices sampleRetriever
      servedRequest).mpr ?_
  intro routes chunks hpasses route hroute payload hoffered
  have hkeys : routeKeys (publishedWorld (servedRecord "text").modelDump) =
      some [("owner_1", "doc_1", "version_1")] := by decide +kernel
  have hsnapshot := (published_snapshot rfl hkeys hpasses.resolved hpasses.loaded).2 route hroute
  refine ⟨servedRecord "text", by rw [hsnapshot]; exact List.mem_singleton.mpr rfl, ?_⟩
  have hpayload : payload = (servedRecord "text").modelDump := by
    rcases hoffered.stored with ⟨index, hindex, document, hdocument, -, rfl⟩ | ⟨collection,
      hcollection, row, hrow, -, rfl⟩
    · change (if _ then some (servedIndex (servedRecord "text").modelDump) else none) = some index
        at hindex
      split at hindex
      · cases hindex
        rw [List.mem_singleton.mp hdocument]
      · cases hindex
    · change (if _ then some (servedCollection (servedRecord "text").modelDump) else none) =
        some collection at hcollection
      split at hcollection
      · cases hcollection
        rw [List.mem_singleton.mp hrow]
        rfl
      · cases hcollection
  rw [hpayload]
  decide +kernel

/-- The same wrong text in both indexes is served. -/
theorem not_servesSnapshot_drifted :
    ¬ ServesSnapshot exactServices sampleRetriever
      (publishedWorld (servedRecord "drifted").modelDump) servedRequest := by
  intro h
  have hserved :
      ((sampleRetriever.search exactServices (publishedWorld (servedRecord "drifted").modelDump)
        servedRequest).toOption.map fun ranking =>
      ranking.map fun candidate => candidate.chunk.equals (servedRecord "text").modelDump) =
        some [false] := by decide +kernel
  cases hsearch :
    sampleRetriever.search exactServices (publishedWorld (servedRecord "drifted").modelDump)
      servedRequest with
  | error e =>
    rw [hsearch] at hserved
    cases hserved
  | ok ranking =>
    rw [hsearch] at hserved
    have hkeys : routeKeys (publishedWorld (servedRecord "drifted").modelDump) =
        some [("owner_1", "doc_1", "version_1")] := by decide +kernel
    obtain ⟨routes, chunks, hresolved, hloaded, hsnapshot⟩ :=
      h exactServices.bm25 exactServices.nearest none none
      honest_exactServices.1 honest_exactServices.2 ranking hsearch
    obtain ⟨candidate, rfl, hdiffers⟩ := List.map_eq_singleton_iff.mp (Option.some.inj hserved)
    obtain ⟨route, hroute, -, chunk, hchunk, hequals⟩ :=
      hsnapshot candidate (List.mem_singleton.mpr rfl)
    rw [(published_snapshot rfl hkeys hresolved hloaded).2 route hroute, List.mem_singleton]
      at hchunk
    rw [hchunk, hdiffers] at hequals
    cases hequals

end ZhiyanRag.Retrieval
