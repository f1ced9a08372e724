import ZhiyanRag.Retrieval.OnlineSearch
import ZhiyanRag.Storage.Owners

/-!
# What a search can tell of other owners

Two worlds with the same rows and the same indexes of one owner, and whatever else: every stage of
this owner's search reads the same in both, so the search ends the same way.
-/

namespace ZhiyanRag.Retrieval

open Relational ZhiyanRag.Ingestion ZhiyanRag.Storage

/-- Calls that answer alike on every element of a list. -/
theorem mapM_congr {ε α β : Type} {f g : α → Except ε β} {xs : List α} (h : ∀ x ∈ xs, f x = g x) :
    xs.mapM f = xs.mapM g := by
  induction xs with
  | nil => rfl
  | cons x xs ih =>
    rw [List.mapM_cons, List.mapM_cons, h x (List.mem_cons_self ..),
      ih fun y hy => h y (List.mem_cons_of_mem _ hy)]

theorem foldlM_congr {ε α β : Type} {f g : β → α → Except ε β} {xs : List α}
    (h : ∀ x ∈ xs, ∀ b, f b x = g b x) (b : β) : xs.foldlM f b = xs.foldlM g b := by
  induction xs generalizing b with
  | nil => rfl
  | cons x xs ih =>
    rw [List.foldlM_cons, List.foldlM_cons, h x (List.mem_cons_self ..)]
    exact congrArg _ (funext fun b => ih (fun y hy => h y (List.mem_cons_of_mem _ hy)) b)

section

open MilvusWriter (Surroundings)

variable {Score ν : Type} {env : Surroundings Score} {services : SearchServices env ν}
  {retriever : OnlineVersionRrfRetriever env.toFloatArithmetic} {world world' : SearchWorld Score}
  {request : SearchRequest} {ownerId : String}

/-! ### One owner's part of a world -/

/-- The version is stored as one of the owner. -/
def SearchWorld.Owns (world : SearchWorld Score) (ownerId documentVersionId : String) : Prop :=
  ∃ v ∈ world.db.versions.rows, v.ownerId = ownerId ∧ v.documentVersionId = documentVersionId

/-- Both worlds have the same rows of the owner, and the same under the physical names of its
versions. -/
structure SameForOwner (services : SearchServices env ν) (ownerId : String)
    (world world' : SearchWorld Score) : Prop where
  rows : SameOwned ownerId world.db world'.db
  indexes : ∀ documentVersionId, world.Owns ownerId documentVersionId →
    world.indexes (services.elasticsearch.indexName
      (services.identityDigest ownerId documentVersionId)) =
      world'.indexes
        (services.elasticsearch.indexName (services.identityDigest ownerId documentVersionId))
  collections : ∀ documentVersionId, world.Owns ownerId documentVersionId →
    world.collections
      (services.milvus.collectionName (services.identityDigest ownerId documentVersionId)) =
      world'.collections
        (services.milvus.collectionName (services.identityDigest ownerId documentVersionId))

/-- The route searches the indexes under the physical names of a version of the owner. -/
structure RouteOf (services : SearchServices env ν) (world : SearchWorld Score) (ownerId : String)
    (route : OnlineVersionRoute) : Prop where
  version : world.Owns ownerId route.documentVersionId
  elasticsearchIndex : route.elasticsearchIndex =
    services.elasticsearch.indexName (services.identityDigest ownerId route.documentVersionId)
  milvusCollection : route.milvusCollection =
    services.milvus.collectionName (services.identityDigest ownerId route.documentVersionId)

/-! ### Resolution -/

theorem physicalName_ok {name : IdentityDigest → String}
    {identityDigest : String → String → IdentityDigest} {documentVersionId s : String}
    (h : physicalName name identityDigest ownerId documentVersionId = .ok s) :
    s = name (identityDigest ownerId documentVersionId) := by
  unfold physicalName at h
  obtain ⟨-, h⟩ := ensure_bind.mp h
  exact (pure_eq_ok.mp h).symm

theorem verifyPhysicalRoute_ok {inspected : Except PyError PhysicalRoute} {name : String}
    {metadata : List (String × String)} (h : verifyPhysicalRoute inspected = .ok (name, metadata)) :
    ∃ physical, inspected = .ok physical ∧ physical.route = name := by
  unfold verifyPhysicalRoute at h
  obtain ⟨physical, hphysical, h⟩ := bind_eq_ok.mp h
  obtain ⟨-, h⟩ := ensure_bind.mp h
  exact ⟨physical, hphysical, congrArg Prod.fst (pure_eq_ok.mp h)⟩

theorem inspectElasticsearch_name {identity : VersionIdentity} {physical : PhysicalRoute}
    (h : inspectElasticsearch services world identity = .ok physical) :
    physical.route =
      services.elasticsearch.indexName
        (services.identityDigest identity.ownerId identity.documentVersionId) := by
  unfold inspectElasticsearch at h
  obtain ⟨name, hname, h⟩ := bind_eq_ok.mp h
  obtain ⟨metadata, -, h⟩ := bind_eq_ok.mp h
  cases pure_eq_ok.mp h
  exact physicalName_ok hname

theorem inspectMilvus_name {identity : VersionIdentity} {physical : PhysicalRoute}
    (h : inspectMilvus services world identity = .ok physical) :
    physical.route =
      services.milvus.collectionName
        (services.identityDigest identity.ownerId identity.documentVersionId) := by
  unfold inspectMilvus at h
  obtain ⟨name, hname, h⟩ := bind_eq_ok.mp h
  obtain ⟨metadata, -, h⟩ := bind_eq_ok.mp h
  cases pure_eq_ok.mp h
  exact physicalName_ok hname

/-- A verified route names the indexes of its version. -/
theorem inspectRoute_routeOf {version : DocumentVersionLifecycleV1} {route : OnlineVersionRoute}
    (howns : world.Owns ownerId version.documentVersionId)
    (h : inspectRoute services world ownerId version = .ok route) :
    RouteOf services world ownerId route := by
  unfold inspectRoute verifyRoute at h
  obtain ⟨⟨index, indexMetadata⟩, hindex, h⟩ := bind_eq_ok.mp (mapError_eq_ok.mp h)
  obtain ⟨⟨collection, collectionMetadata⟩, hcollection, h⟩ := bind_eq_ok.mp h
  cases pure_eq_ok.mp h
  obtain ⟨physicalIndex, hinspected, rfl⟩ := verifyPhysicalRoute_ok hindex
  obtain ⟨physicalCollection, hinspected', rfl⟩ := verifyPhysicalRoute_ok hcollection
  exact ⟨howns, inspectElasticsearch_name hinspected, inspectMilvus_name hinspected'⟩

/-- The resolved versions are stored as the owner's. -/
theorem owns_of_resolved {documentIds : List String} {failure : Option PyError}
    {versions : List DocumentVersionLifecycleV1}
    (h : resolveReadyVersions world.db ownerId documentIds failure = .ok versions)
    {version : DocumentVersionLifecycleV1} (hversion : version ∈ versions) :
    world.Owns ownerId version.documentVersionId := by
  obtain ⟨v, hv, howner, -⟩ :=
    (resolveReadyVersions_ok h).1 (versionKey version) (List.mem_map_of_mem hversion)
  obtain ⟨hmem, hid⟩ := Table.find?_eq_some_iff.mp hv
  exact ⟨v, hmem, howner, hid⟩

theorem resolveRoutes_routeOf {documentIds : List String} {routes : List OnlineVersionRoute}
    (h : resolveRoutes services world ownerId documentIds = .ok routes) :
    ∀ route ∈ routes, RouteOf services world ownerId route := by
  unfold resolveRoutes at h
  obtain ⟨versions, hversions, h⟩ := bind_eq_ok.mp h
  intro route hroute
  obtain ⟨version, hversion, hinspected⟩ := exists_of_mapM_ok h hroute
  exact inspectRoute_routeOf (owns_of_resolved hversions hversion) hinspected

namespace SameForOwner

theorem inspectRoute (h : SameForOwner services ownerId world world')
    {version : DocumentVersionLifecycleV1} (howns : world.Owns ownerId version.documentVersionId) :
    Retrieval.inspectRoute services world ownerId version =
      Retrieval.inspectRoute services world' ownerId version := by
  have hindex : inspectElasticsearch services world ⟨ownerId, version.documentId,
      version.documentVersionId⟩ = inspectElasticsearch services world' ⟨ownerId,
      version.documentId, version.documentVersionId⟩ := by
    unfold inspectElasticsearch
    cases hname : physicalName services.elasticsearch.indexName services.identityDigest ownerId
      version.documentVersionId with
    | error e => rfl
    | ok name =>
      show (ElasticsearchWriter.verifyOnlineVersion env.unicode (world.indexes name) _ >>= _) =
        (_ >>= _)
      rw [physicalName_ok hname, h.indexes version.documentVersionId howns]
      rfl
  have hcollection :
      inspectMilvus services world ⟨ownerId, version.documentId, version.documentVersionId⟩ =
        inspectMilvus services world' ⟨ownerId, version.documentId, version.documentVersionId⟩ := by
    unfold inspectMilvus
    cases hname : physicalName services.milvus.collectionName services.identityDigest ownerId
      version.documentVersionId with
    | error e => rfl
    | ok name =>
      show (MilvusWriter.verifyOnlineVersion env services.limited (world.collections name) _ >>=
        _) = (_ >>= _)
      rw [physicalName_ok hname, h.collections version.documentVersionId howns]
      rfl
  unfold Retrieval.inspectRoute
  dsimp only
  rw [hindex, hcollection]

theorem resolveRoutes (h : SameForOwner services ownerId world world') (documentIds : List String) :
    Retrieval.resolveRoutes services world ownerId documentIds =
      Retrieval.resolveRoutes services world' ownerId documentIds := by
  have hversions : resolveReadyVersions world.db ownerId documentIds (services.failure .resolve) =
      resolveReadyVersions world'.db ownerId documentIds (services.failure .resolve) := by
    unfold resolveReadyVersions
    rw [h.rows.resolveOnlineVersions]
  unfold Retrieval.resolveRoutes
  rw [← hversions]
  cases hresolved :
    resolveReadyVersions world.db ownerId documentIds (services.failure .resolve) with
  | error e => rfl
  | ok versions =>
    exact mapM_congr fun version hversion => h.inspectRoute (owns_of_resolved hresolved hversion)

/-! ### Retrieval -/

theorem sameIndex (h : SameForOwner services ownerId world world') {route : OnlineVersionRoute}
    (hroute : RouteOf services world ownerId route) :
    world.indexes route.elasticsearchIndex = world'.indexes route.elasticsearchIndex := by
  rw [hroute.elasticsearchIndex]
  exact h.indexes _ hroute.version

theorem sameCollection (h : SameForOwner services ownerId world world') {route : OnlineVersionRoute}
    (hroute : RouteOf services world ownerId route) :
    world.collections route.milvusCollection = world'.collections route.milvusCollection := by
  rw [hroute.milvusCollection]
  exact h.collections _ hroute.version

theorem searchRoutes (h : SameForOwner services ownerId world world')
    {routes : List OnlineVersionRoute}
    (hroutes : ∀ route ∈ routes, RouteOf services world ownerId route)
    (chunks : List ChunkRecordV1) :
    Retrieval.searchRoutes services retriever world request chunks routes =
      Retrieval.searchRoutes services retriever world' request chunks routes := by
  unfold Retrieval.searchRoutes
  refine if_congr Iff.rfl rfl
    (congrArg (_ >>= ·) (funext fun embeddings => foldlM_congr (fun route hroute results => ?_) _))
  unfold searchRoute searchLexicalRoute searchVectorRoute
  rw [h.sameIndex (hroutes route hroute), h.sameCollection (hroutes route hroute)]

theorem retrieveRoutes (h : SameForOwner services request.ownerId world world')
    (hunique : world.db.OrdinalsUnique) {routes : List OnlineVersionRoute}
    (hroutes : ∀ route ∈ routes, RouteOf services world request.ownerId route) :
    Retrieval.retrieveRoutes services retriever world request routes =
      Retrieval.retrieveRoutes services retriever world' request routes := by
  have hrevalidate :
      revalidate world.db routes request.ownerId request.documentIds
        (services.failure .revalidate) =
      revalidate world'.db routes request.ownerId request.documentIds
        (services.failure .revalidate) := by
    unfold revalidate
    rw [h.rows.resolveOnlineVersions]
  unfold Retrieval.retrieveRoutes
  rw [h.rows.loadOnlineChunks hunique, hrevalidate]
  refine congrArg (_ >>= ·) (funext fun chunks => congrArg (_ >>= ·) (funext fun _ => ?_))
  rw [h.searchRoutes hroutes chunks]

theorem search (h : SameForOwner services request.ownerId world world')
    (hunique : world.db.OrdinalsUnique) :
    retriever.search services world request = retriever.search services world' request := by
  unfold OnlineVersionRrfRetriever.search
  rw [← h.resolveRoutes]
  cases hroutes : Retrieval.resolveRoutes services world request.ownerId request.documentIds with
  | error e => rfl
  | ok routes =>
    show (checkSearch request >>=
      fun _ => (Retrieval.retrieveRoutes services retriever world request routes).mapError
        failedClosed >>= _) =
      (checkSearch request >>=
        fun _ => (Retrieval.retrieveRoutes services retriever world' request routes).mapError
          failedClosed >>= _)
    rw [h.retrieveRoutes hunique (resolveRoutes_routeOf hroutes)]

end SameForOwner

/-! ### The search -/

/-- Whatever the other owners have done and have indexed, an owner's search ends the same way. -/
theorem owner_noninterference {α : Type} (c : Coercion α)
    (chunksFingerprint : List ChunkRecordV1 → String) (calls calls' : List (Call α))
    (indexes indexes' : String → Option Elasticsearch.Index)
    (collections collections' : String → Option (Milvus.Collection Score))
    (services : SearchServices env ν) (retriever : OnlineVersionRrfRetriever env.toFloatArithmetic)
    (request : SearchRequest)
    (h : SameForOwner services request.ownerId ⟨(History.empty.run c chunksFingerprint calls).db,
      indexes, collections⟩ ⟨(History.empty.run c chunksFingerprint calls').db, indexes',
      collections'⟩) :
    retriever.search services ⟨(History.empty.run c chunksFingerprint calls).db, indexes,
      collections⟩ request =
      retriever.search services ⟨(History.empty.run c chunksFingerprint calls').db, indexes',
        collections'⟩ request :=
  h.search (ordinalsUnique_of_run calls)

end

/-- The life of the version of `sampleHistory`, up to its publication. -/
def publishingCalls : List (Call Empty) :=
  let at' (t : Timestamp) : Datetime := ⟨t, true⟩
  [.registerDocument (fixedId "doc_1") "owner_1" "paper_1" "uploaded" "mapping_v1" (at' 0) (at' 0),
    .registerVersion (fixedId "version_1") "owner_1" "doc_1" sampleSha sampleSha "parse_v1" 1,
    .persistRuntimeSnapshot { samplePdf with documentId := "doc_1" } [sampleRecord],
    .transitionVersion "owner_1" "version_1" 1 .processing
      ([TimeField.parseFinishTime, .chunkSplitterTime, .chunkCreateTime, .chunkGenTime,
        .vectorIndexTime].map fun field =>
        (.time field, .datetime (at' 3))) 4,
    .transitionVersion "owner_1" "version_1" 2 .ready
      [(.indexStates, .states DocumentVersionLifecycleV1.bothReady)] 5]

/-- What another owner did before. -/
def foreignCalls : List (Call Empty) :=
  [.registerDocument (fixedId "doc_2") "owner_2" "paper_1" "uploaded" "mapping_v1" ⟨0, true⟩
    ⟨0, true⟩, .registerVersion (fixedId "version_2") "owner_2" "doc_2" sampleSha sampleSha
      "parse_v1" 1]

theorem owner_noninterference_foreign :
    let run (calls : List (Call Empty)) :=
      (History.empty.run noCoercion (fun _ => sampleSha) calls).db
    let served := servedWorld (servedRecord "text").modelDump
    let foreign (name : String) :=
      (served.indexes name).or (some (servedIndex (servedRecord "foreign").modelDump))
    sampleRetriever.search exactServices ⟨run publishingCalls, served.indexes, served.collections⟩
        servedRequest = sampleRetriever.search exactServices ⟨run (foreignCalls ++ publishingCalls),
          foreign, served.collections⟩ servedRequest ∧
      foundTexts (sampleRetriever.search exactServices ⟨run publishingCalls, served.indexes,
        served.collections⟩ servedRequest) = some [some "text"] := by
  refine ⟨?_, by decide +kernel⟩
  refine owner_noninterference noCoercion (fun _ => sampleSha) publishingCalls
    (foreignCalls ++ publishingCalls) _ _ _ _ exactServices sampleRetriever
    servedRequest ⟨SameOwned.of_filter (by decide +kernel) (by decide +kernel),
      fun documentVersionId _ => ?_, fun documentVersionId _ => rfl⟩
  have hname : exactServices.elasticsearch.indexName
      (exactServices.identityDigest servedRequest.ownerId documentVersionId) =
        "es--v-000000000000000000000000" := by
    change "es" ++ "--v-" ++ "000000000000000000000000" = _
    decide +kernel
  rw [hname]
  rfl

end ZhiyanRag.Retrieval
