import ZhiyanRag.Retrieval.OnlineSearch

/-!
# The optional components of a search

A planner or a selector whose answer cannot be used leaves the search as it is without them,
failures included: the query vector is the same whether it is made beforehand or with the route
queries (`embedRouteQueries_question`), and to fuse everything and then cut is to fuse for the cut
(`fuse_some`). An observer that returns changes nothing either, since every search of a route tells
its time exactly once.
-/

namespace ZhiyanRag.Retrieval

open Relational ZhiyanRag.Ingestion ZhiyanRag.Storage

/-! ### Cutting a fusion -/

section

variable {Score : Type} {float : FloatArithmetic Score} {rrfK : Int}
  {rankings : List (List (RankedChunk float))}

/-- `0.0 + 1.0 / n + …`, from left to right. -/
def reciprocalSum (float : FloatArithmetic Score) (ns : List Int) : Score :=
  ns.foldl (fun sum n => float.add sum (float.reciprocal n)) (float.ofInt 0)

/-- Sums of such fractions do not overflow, as those of doubles do not: they stop growing long
before. -/
def SumsFinite (float : FloatArithmetic Score) : Prop :=
  ∀ ns : List Int, (∀ n ∈ ns, 1 ≤ n) → float.isFinite (reciprocalSum float ns) = true

theorem RankedChunk.one_le_rank (candidate : RankedChunk float) : 1 ≤ candidate.rank := by
  have h := candidate.valid
  unfold checkRankedChunk at h
  obtain ⟨-, h⟩ := ensure_bind.mp h
  obtain ⟨hrank, -⟩ := ensure_bind.mp h
  exact of_decide_eq_true hrank

/-- What fusion keeps of every entry of its table. -/
structure FusedEntry.Sound (float : FloatArithmetic Score) (entry : FusedEntry Score) : Prop where
  score : ∃ ns : List Int, (∀ n ∈ ns, 1 ≤ n) ∧ entry.score = reciprocalSum float ns
  chunkId : chunkIdOf entry.payload = entry.chunkId
  source : ∃ candidate : RankedChunk float, candidate.chunk = entry.payload

theorem fuseCandidate_sound (hk : 1 ≤ rrfK) {entries entries' : Table (@FusedEntry.chunkId Score)}
    {candidate : RankedChunk float} (h : fuseCandidate float rrfK entries candidate = .ok entries')
    (hentries : ∀ entry ∈ entries.rows, entry.Sound float) :
    ∀ entry ∈ entries'.rows, entry.Sound float := by
  unfold fuseCandidate at h
  obtain ⟨-, h⟩ := ensure_bind.mp h
  cases pure_eq_ok.mp h
  intro entry hentry
  rcases Table.mem_upsert hentry with rfl | hentry
  · have hrank := candidate.one_le_rank
    refine ⟨?_, rfl, candidate, rfl⟩
    cases hexisting : entries.find? candidate.chunkId with
    | none => exact ⟨[rrfK + candidate.rank], List.forall_mem_singleton.mpr (by omega), rfl⟩
    | some old =>
      obtain ⟨ns, hpos, hscore⟩ := (hentries old (Table.mem_rows_of_find? hexisting)).score
      refine ⟨ns ++ [rrfK + candidate.rank], fun n hn => ?_, ?_⟩
      · rcases List.mem_append.mp hn with hn | hn
        · exact hpos n hn
        · rw [List.mem_singleton.mp hn]
          omega
      · unfold reciprocalSum
        rw [List.foldl_append]
        exact congrArg (float.add · _) hscore
  · exact hentries entry hentry

/-- Whatever was fused can be ranked. -/
theorem exists_fused (hfinite : SumsFinite float) (hk : 1 ≤ rrfK)
    {entries : Table (@FusedEntry.chunkId Score)}
    (h : rankings.flatten.foldlM (fuseCandidate float rrfK) Table.empty = .ok entries) :
    ∃ fused, rankInOrder float onlineRetrievalBackend
      ((entries.rows.insertionSort (fusedLe float)).map fun entry => (entry.score, entry.payload)) =
        .ok fused := by
  have hsound : ∀ entry ∈ entries.rows, entry.Sound float :=
    foldlM_invariant (I := fun t : Table (@FusedEntry.chunkId Score) => ∀ entry ∈ t.rows,
      entry.Sound float) (fun _ _ _ _ ht hfused => fuseCandidate_sound hk hfused ht)
        (fun entry hentry => absurd hentry List.not_mem_nil) h
  have hordered : ∀ entry ∈ entries.rows.insertionSort (fusedLe float),
      entry.Sound float := fun entry hentry =>
    hsound entry ((List.mem_insertionSort _).mp hentry)
  refine exists_rankInOrder (by decide +kernel) (fun p hp => ?_) ?_
  · obtain ⟨entry, hentry, rfl⟩ := List.mem_map.mp hp
    obtain ⟨ns, hpos, hscore⟩ := (hordered entry hentry).score
    obtain ⟨candidate, hchunk⟩ := (hordered entry hentry).source
    have hrankable := candidate.rankable
    rw [hchunk] at hrankable
    exact ⟨hscore ▸ hfinite ns hpos, hrankable.chunkId, hrankable.documentId⟩
  · have hids : (entries.rows.insertionSort (fusedLe float)).map
        (fun entry => chunkIdOf entry.payload) =
          (entries.rows.insertionSort (fusedLe float)).map (·.chunkId) :=
      List.map_congr_left fun entry hentry => (hordered entry hentry).chunkId
    rw [List.map_map]
    exact hids ▸ ((List.perm_insertionSort _ _).map _).nodup_iff.mpr entries.nodup

/-- To fuse for a cut is to fuse everything and then cut. -/
theorem fuse_some (hfinite : SumsFinite float) (hk : 1 ≤ rrfK) (k : Int) :
    fuse float rrfK rankings (some k) = (fuse float rrfK rankings none).map fun fused =>
      fused.take k.toNat := by
  unfold fuse
  cases hentries : rankings.flatten.foldlM (fuseCandidate float rrfK) Table.empty with
  | error e => rfl
  | ok entries =>
    obtain ⟨fused, hfused⟩ := exists_fused hfinite hk hentries
    have hfront := rankInOrder_take hfused k.toNat
    rw [← List.map_take] at hfront
    exact hfront.trans (congrArg (Except.map _) hfused).symm

/-! ### What cannot be used -/

/-- What a planner does that cannot be used for these documents. -/
def PlanRejected (documentIds : List String) : Except PyError RouteQueryPlan → Prop
  | .error _ => True
  | .ok plan => plan.status ≠ "APPLIED" ∨
      (plan.queries.map Prod.fst).toFinset ≠ documentIds.toFinset ∨ ∃ query ∈ plan.queries,
        query.2.toList.all isPySpace = true

/-- What a selector does that cannot be used for these candidates. -/
def SelectionRejected (candidates : List (RankedChunk float)) (topK : Int) :
    Except PyError RouteCoveragePlan → Prop
  | .error _ => True
  | .ok plan => plan.status ≠ "APPLIED" ∨ (plan.selectedChunkIds.length : Int) ≠ topK ∨
      ¬plan.selectedChunkIds.Nodup ∨ ∃ id ∈ plan.selectedChunkIds, ∀ candidate ∈ candidates,
        candidate.chunkId ≠ id

theorem routeQueries_of_rejected {planner : String → List String → Except PyError RouteQueryPlan}
    {question : String} {documentIds : List String}
    (h : PlanRejected documentIds (planner question documentIds)) :
    routeQueries (some planner) question documentIds = routeQueries none question documentIds := by
  unfold routeQueries
  dsimp only
  cases hplan : planner question documentIds with
  | error e => rfl
  | ok plan =>
    rw [hplan] at h
    refine if_neg fun happlies => ?_
    simp only [RouteQueryPlan.applies, Bool.and_eq_true, decide_eq_true_eq, List.all_eq_true]
      at happlies
    obtain ⟨⟨hstatus, hkeys⟩, hqueries⟩ := happlies
    rcases h with h | h | ⟨query, hquery, hblank⟩
    · exact h hstatus
    · exact h hkeys
    · obtain ⟨c, hc, hvisible⟩ := List.any_eq_true.mp (hqueries query hquery)
      rw [List.all_eq_true.mp hblank c hc] at hvisible
      cases hvisible

/-- A selection that is applied is of distinct candidates, with their scores. -/
theorem applySelection_chosen {candidates selected : List (RankedChunk float)} {ids : List String}
    {topK : Int} (h : applySelection candidates ids topK = .ok selected) :
    (ids.length : Int) = topK ∧ ids.Nodup ∧ ∃ chosen :
      List (RankedChunk float), chosen ⊆ candidates ∧ chosen.map (·.chunkId) = ids ∧
      selected.map (fun candidate => (candidate.score, candidate.chunk)) = chosen.map
        fun candidate => (candidate.score, candidate.chunk) := by
  unfold applySelection at h
  obtain ⟨hids, h⟩ := ensure_bind.mp h
  rw [Bool.and_eq_true, decide_eq_true_eq, decide_eq_true_eq] at hids
  obtain ⟨chosen, hchosen, h⟩ := bind_eq_ok.mp h
  refine ⟨hids.1, hids.2, chosen, fun candidate hcandidate => ?_, ?_, rankInOrder_scored h⟩
  · obtain ⟨id, -, hfound⟩ := exists_of_mapM_ok hchosen hcandidate
    exact (candidateById_ok hfound).1
  · rw [← List.forall₂_eq_eq_eq, List.forall₂_map_left_iff]
    exact (mapM_eq_ok.mp hchosen).flip.imp fun candidate id hfound => (candidateById_ok hfound).2

theorem finalCandidates_of_rejected {candidates : List (RankedChunk float)} {topK : Int}
    {selection : Except PyError RouteCoveragePlan}
    (h : SelectionRejected candidates topK selection) :
    finalCandidates candidates topK (some selection) = candidates.take topK.toNat := by
  cases selection with
  | error e => rfl
  | ok plan =>
    unfold finalCandidates
    dsimp only
    by_cases hstatus : plan.status = "APPLIED"
    · rw [if_pos hstatus]
      cases hselected : applySelection candidates plan.selectedChunkIds topK with
      | error e => rfl
      | ok selected =>
        obtain ⟨hlength, hnodup, chosen, hsubset, hids, -⟩ := applySelection_chosen hselected
        rcases h with h | h | h | ⟨id, hid, hunknown⟩
        · exact absurd hstatus h
        · exact absurd hlength h
        · exact absurd hnodup h
        · rw [← hids] at hid
          obtain ⟨candidate, hcandidate, hchunkId⟩ := List.mem_map.mp hid
          exact absurd hchunkId (hunknown candidate (hsubset hcandidate))
    · rw [if_neg hstatus]

end

section

open MilvusWriter (Surroundings)

variable {Score ν : Type} {env : Surroundings Score}

/-! ### The query vector -/

theorem embed_length {toFloat : ν → Except PyError PyFloat} {provider : EmbedFunction ν}
    {vectors : CachedVectors} {requested : List String}
    {result : List QueryVector}
    (h : (embed toFloat provider vectors requested).result = .ok result) :
    result.length = requested.length := by
  unfold embed at h
  split at h
  · rename_i hempty
    cases h
    rw [List.isEmpty_iff.mp hempty]
    rfl
  · dsimp only at h
    split at h
    · exact (readVectors_eq_ok h).length_eq.symm
    · split at h
      · cases h
      · split at h
        · cases h
        · split at h
          · cases h
          · exact (readVectors_eq_ok h).length_eq.symm

theorem eraseDups_map_const (question : String) {documentIds : List String}
    (hne : documentIds ≠ []) : (documentIds.map fun _ => question).eraseDups = [question] := by
  obtain ⟨documentId, rest, rfl⟩ := List.exists_cons_of_ne_nil hne
  rw [List.map_cons, List.eraseDups_cons, List.filter_eq_nil_iff.mpr, List.eraseDups_nil]
  intro text htext
  obtain ⟨_, -, rfl⟩ := List.mem_map.mp htext
  simp

/-- The question asked of every document is embedded as the question by itself. -/
theorem embedRouteQueries_question (toFloat : ν → Except PyError PyFloat)
    (provider : EmbedFunction ν) (question : String) {documentIds : List String}
    (hne : documentIds ≠ []) :
      (embedRouteQueries toFloat provider [] (documentIds.map (·, question))).2 =
        (embedSingleQuery toFloat provider question).map fun vector => [(question, vector)] := by
  unfold embedRouteQueries embedSingleQuery
  rw [List.map_map, show (Prod.snd ∘ fun documentId : String => (documentId, question)) =
    fun _ => question from rfl, eraseDups_map_const question hne]
  dsimp only
  cases hresult : (embed toFloat provider [] [question]).result with
  | error e => rfl
  | ok vectors =>
    obtain ⟨vector, rfl⟩ := List.length_eq_one_iff.mp (embed_length hresult)
    rfl

variable {services : SearchServices env ν}
  {retriever : OnlineVersionRrfRetriever env.toFloatArithmetic} {world : SearchWorld Score}
  {request : SearchRequest} {routes : List OnlineVersionRoute} {chunks : List ChunkRecordV1}

theorem queryEmbeddings_prewarmed (question : String) {documentIds : List String}
    (hne : documentIds ≠ []) :
    queryEmbeddings services false question (documentIds.map (·, question)) =
      queryEmbeddings services true question (documentIds.map (·, question)) := by
  unfold queryEmbeddings
  rw [if_neg (by simp), if_pos (by simp), embedRouteQueries_question _ _ _ hne]
  cases embedSingleQuery services.toFloat services.provider question <;> rfl

theorem searchRoutes_of_rejected {planner : String → List String → Except PyError RouteQueryPlan}
    (h : PlanRejected (routes.map (·.documentId))
      (planner request.question (routes.map (·.documentId)))) :
    searchRoutes services { retriever with routeQueryPlanner := some planner } world request chunks
      routes = searchRoutes services { retriever with routeQueryPlanner := none } world request
        chunks routes := by
  unfold searchRoutes
  by_cases hempty : routes.isEmpty = true
  · rw [if_pos hempty, if_pos hempty]
  · have hne : routes.map (·.documentId) ≠ [] := fun hnil =>
      hempty (by rw [List.map_eq_nil_iff.mp hnil]; rfl)
    rw [if_neg hempty, if_neg hempty]
    dsimp only [Option.isNone]
    rw [routeQueries_of_rejected h]
    exact congrArg (· >>= _) (queryEmbeddings_prewarmed request.question hne)

theorem retrieveRoutes_of_rejected {planner : String → List String → Except PyError RouteQueryPlan}
    (h : PlanRejected (routes.map (·.documentId))
      (planner request.question (routes.map (·.documentId)))) :
    retrieveRoutes services { retriever with routeQueryPlanner := some planner } world request
      routes = retrieveRoutes services { retriever with routeQueryPlanner := none } world request
        routes := by
  unfold retrieveRoutes
  simp only [searchRoutes_of_rejected h]

/-! ### The timings -/

theorem foldlM_searchRoute_timings {embeddings : List (String × QueryVector)}
    {queries : List (String × String)} {before after : RouteResults env}
    (h : routes.foldlM (searchRoute services retriever world request chunks embeddings queries)
      before = .ok after) :
    after.elasticsearchTimings = before.elasticsearchTimings + routes.length ∧
    after.milvusTimings = before.milvusTimings + routes.length := by
  induction routes generalizing before with
  | nil =>
    cases pure_eq_ok.mp h
    exact ⟨rfl, rfl⟩
  | cons route routes ih =>
    rw [List.foldlM_cons] at h
    obtain ⟨next, hnext, h⟩ := bind_eq_ok.mp h
    unfold searchRoute at hnext
    obtain ⟨question, -, hnext⟩ := bind_eq_ok.mp hnext
    obtain ⟨both, -, hnext⟩ := bind_eq_ok.mp hnext
    cases pure_eq_ok.mp hnext
    obtain ⟨helasticsearch, hmilvus⟩ := ih h
    rw [helasticsearch, hmilvus, List.length_cons]
    dsimp only
    omega

/-- Every route's searches tell their time once. -/
theorem retrieveRoutes_timings {results : RouteResults env}
    (h : retrieveRoutes services retriever world request routes = .ok results) :
    results.elasticsearchTimings = routes.length ∧ results.milvusTimings = routes.length := by
  unfold retrieveRoutes at h
  obtain ⟨chunks, -, h⟩ := bind_eq_ok.mp h
  obtain ⟨-, h⟩ := check_bind.mp h
  obtain ⟨found, hfound, h⟩ := bind_eq_ok.mp h
  obtain ⟨-, h⟩ := check_bind.mp h
  cases pure_eq_ok.mp h
  unfold searchRoutes at hfound
  split at hfound
  · rename_i hempty
    cases hfound
    rw [List.isEmpty_iff.mp hempty]
    exact ⟨rfl, rfl⟩
  · obtain ⟨embeddings, -, hfold⟩ := bind_eq_ok.mp hfound
    obtain ⟨helasticsearch, hmilvus⟩ := foldlM_searchRoute_timings hfold
    rw [helasticsearch, hmilvus]
    exact ⟨Nat.zero_add _, Nat.zero_add _⟩

/-! ### After fusion -/

/-- Whichever components there are, the search is one that fuses everything. -/
theorem finish_eq (hfinite : SumsFinite env.toFloatArithmetic)
    (rankings : List (List (RankedChunk env.toFloatArithmetic)))
    (elasticsearchTimings milvusTimings : Nat) :
    finish retriever request routes rankings elasticsearchTimings milvusTimings =
      fuse env.toFloatArithmetic retriever.rrfK rankings none >>=
        conclude retriever request routes rankings elasticsearchTimings milvusTimings := by
  unfold finish
  split
  · rfl
  · rename_i hplain
    rw [Bool.or_eq_true, not_or] at hplain
    have hselector := Option.not_isSome_iff_eq_none.mp hplain.1
    have hladder := Option.not_isSome_iff_eq_none.mp hplain.2
    rw [fuse_some hfinite retriever.positive.2]
    cases fuse env.toFloatArithmetic retriever.rrfK rankings none with
    | error e => rfl
    | ok candidates =>
      have hcut : finalCandidates (candidates.take request.topK.toNat) request.topK none =
          finalCandidates candidates request.topK none := by
        unfold finalCandidates
        dsimp only
        rw [List.take_take, min_self]
      show conclude retriever request routes rankings elasticsearchTimings milvusTimings
        (candidates.take request.topK.toNat) =
          conclude retriever request routes rankings elasticsearchTimings milvusTimings candidates
      unfold conclude
      rw [hselector, hladder]
      dsimp only [Option.map, Option.elim]
      rw [hcut]

/-- Fusion's candidates with another selection, if any, of which nothing is known. -/
theorem finalCandidates_source {candidates : List (RankedChunk env.toFloatArithmetic)}
    (hvalid : ValidRanking candidates) (topK : Int)
    (selection : Option (Except PyError RouteCoveragePlan)) :
    ((finalCandidates candidates topK selection).map (·.chunkId)).Nodup ∧
      ∀ candidate ∈ finalCandidates candidates topK selection, ∃ source ∈ candidates,
        source.chunk = candidate.chunk ∧ source.score = candidate.score := by
  have hcut : ((candidates.take topK.toNat).map (·.chunkId)).Nodup ∧
      ∀ candidate ∈ candidates.take topK.toNat, ∃ source ∈ candidates,
        source.chunk = candidate.chunk ∧ source.score = candidate.score :=
    ⟨(hvalid.take _).distinct,
      fun candidate hcandidate => ⟨candidate, List.mem_of_mem_take hcandidate, rfl, rfl⟩⟩
  unfold finalCandidates
  match selection with
  | none => exact hcut
  | some (.error e) => exact hcut
  | some (.ok plan) =>
    dsimp only
    split
    · split
      · rename_i selected hselected
        refine ⟨(applySelection_ok hselected).1.distinct, fun candidate hcandidate => ?_⟩
        obtain ⟨-, -, chosen, hsubset, -, hsame⟩ := applySelection_chosen hselected
        have hmem := List.mem_map_of_mem
          (f := fun c : RankedChunk env.toFloatArithmetic => (c.score, c.chunk)) hcandidate
        rw [hsame] at hmem
        obtain ⟨source, hsource, heq⟩ := List.mem_map.mp hmem
        exact ⟨source, hsubset hsource, congrArg Prod.snd heq, congrArg Prod.fst heq⟩
      · exact hcut
    · exact hcut

/-! ### The search -/

/-- Two retrievers that retrieve alike, and conclude alike from what this search fuses. -/
theorem search_congr (hfinite : SumsFinite env.toFloatArithmetic)
    {retriever' : OnlineVersionRrfRetriever env.toFloatArithmetic}
    (hk : retriever.rrfK = retriever'.rrfK)
    (hretrieve : ∀ routes,
      resolveRoutes services world request.ownerId request.documentIds = .ok routes →
      retrieveRoutes services retriever world request routes =
        retrieveRoutes services retriever' world request routes)
    (hconclude : ∀ routes results candidates,
      resolveRoutes services world request.ownerId request.documentIds = .ok routes →
      retrieveRoutes services retriever world request routes = .ok results →
      fuse env.toFloatArithmetic retriever.rrfK results.rankings none = .ok candidates →
      conclude retriever request routes results.rankings results.elasticsearchTimings
          results.milvusTimings candidates =
        conclude retriever' request routes results.rankings results.elasticsearchTimings
          results.milvusTimings candidates) :
    retriever.search services world request = retriever'.search services world request := by
  unfold OnlineVersionRrfRetriever.search
  cases hroutes : resolveRoutes services world request.ownerId request.documentIds with
  | error e => rfl
  | ok routes =>
    show (checkSearch request >>= fun _ =>
      (retrieveRoutes services retriever world request routes).mapError failedClosed >>= _) =
      (checkSearch request >>= fun _ =>
        (retrieveRoutes services retriever' world request routes).mapError failedClosed >>= _)
    rw [← hretrieve routes hroutes]
    cases hresults : retrieveRoutes services retriever world request routes with
    | error e => rfl
    | ok results =>
      have hfinish : finish retriever request routes results.rankings results.elasticsearchTimings
          results.milvusTimings = finish retriever' request routes results.rankings
            results.elasticsearchTimings results.milvusTimings := by
        rw [finish_eq hfinite, finish_eq hfinite, ← hk]
        cases hfused : fuse env.toFloatArithmetic retriever.rrfK results.rankings none with
        | error e => rfl
        | ok candidates => exact hconclude routes results candidates hroutes hresults hfused
      exact congrArg (checkSearch request >>= fun _ => ·) hfinish

/-- The optional components are conservative. -/
theorem optional_components_conservative (hfinite : SumsFinite env.toFloatArithmetic)
    (services : SearchServices env ν) (retriever : OnlineVersionRrfRetriever env.toFloatArithmetic)
    (world : SearchWorld Score) (request : SearchRequest) :
    -- without what this search cannot use, it is the same
    (∀ (planner : Option (String → List String → Except PyError RouteQueryPlan))
        (selector : Option (String → List (RankedChunk env.toFloatArithmetic) → List String → Int →
          Except PyError RouteCoveragePlan)),
      (∀ plan ∈ planner, ∀ routes,
        resolveRoutes services world request.ownerId request.documentIds = .ok routes →
        PlanRejected (routes.map (·.documentId))
          (plan request.question (routes.map (·.documentId)))) →
      (∀ select ∈ selector, ∀ routes results candidates,
        resolveRoutes services world request.ownerId request.documentIds = .ok routes →
        retrieveRoutes services { retriever with routeQueryPlanner := planner } world request
          routes = .ok results →
        fuse env.toFloatArithmetic retriever.rrfK results.rankings none = .ok candidates →
        SelectionRejected candidates request.topK
          (select request.question candidates (routes.map (·.documentId)) request.topK)) →
      { retriever with routeQueryPlanner := planner, finalCandidateSelector := selector }.search
          services world request =
        { retriever with routeQueryPlanner := none, finalCandidateSelector := none }.search
          services world request) ∧
    -- what is returned is fused candidates with their scores, whatever the selector does
    (∀ ranking, retriever.search services world request = .ok ranking → ∃ routes results candidates,
      resolveRoutes services world request.ownerId request.documentIds = .ok routes ∧
      retrieveRoutes services retriever world request routes = .ok results ∧
      fuse env.toFloatArithmetic retriever.rrfK results.rankings none = .ok candidates ∧
      (ranking.map (·.chunkId)).Nodup ∧
      ∀ candidate ∈ ranking, ∃ source ∈ candidates,
        source.chunk = candidate.chunk ∧ source.score = candidate.score) ∧
    -- observers that return change nothing
    ∀ (latency : Option (Except PyError Unit))
      (ladder : Option (CandidateLadderObservation env.toFloatArithmetic → Except PyError Unit)),
      (∀ observed ∈ latency, observed = .ok ()) →
      (∀ observe ∈ ladder, ∀ observation, observe observation = .ok ()) →
      { retriever with latencyObserver := latency, candidateLadderObserver := ladder }.search
          services world request =
        { retriever with latencyObserver := none, candidateLadderObserver := none }.search
          services world request := by
  refine ⟨fun planner selector hplanner hselector => ?_, fun ranking h => ?_,
    fun latency ladder hlatency hladder => ?_⟩
  · refine search_congr hfinite rfl (fun routes hroutes => ?_) fun routes results candidates hroutes
      hresults hfused => ?_
    · cases planner with
      | none => rfl
      | some plan => exact retrieveRoutes_of_rejected (hplanner plan rfl routes hroutes)
    · cases selector with
      | none => rfl
      | some select =>
        unfold conclude
        dsimp only [Option.map]
        rw [finalCandidates_of_rejected
          (hselector select rfl routes results candidates hroutes hresults hfused)]
        rfl
  · unfold OnlineVersionRrfRetriever.search at h
    obtain ⟨-, h⟩ := check_bind.mp h
    obtain ⟨routes, hroutes, h⟩ := bind_eq_ok.mp h
    obtain ⟨results, hresults, h⟩ := bind_eq_ok.mp h
    rw [finish_eq hfinite] at h
    obtain ⟨candidates, hcandidates, h⟩ := bind_eq_ok.mp h
    obtain rfl := conclude_ok h
    exact ⟨routes, results, candidates, hroutes, mapError_eq_ok.mp hresults, hcandidates,
      finalCandidates_source (fuse_ok hcandidates).1 _ _⟩
  · refine search_congr hfinite rfl (fun _ _ => rfl) fun routes results candidates _
      hresults _ => ?_
    obtain ⟨helasticsearch, hmilvus⟩ := retrieveRoutes_timings hresults
    have hcounted : (latency.elim (.ok ()) fun observed => do
        ensure (decide (results.elasticsearchTimings = routes.length) &&
          decide (results.milvusTimings = routes.length)) .onlineVisibilityUnavailableError
            "online retrieval latency breakdown is incomplete"
        observed) = .ok () := by
      cases latency with
      | none => rfl
      | some observed =>
        exact check_bind.mpr ⟨ensure_eq_ok.mpr (by simp [helasticsearch, hmilvus]),
          hlatency observed rfl⟩
    have hshown : ∀ observation,
        (ladder.elim (.ok ()) fun observe => (observe observation).mapError fun _ =>
        unavailable "online candidate ladder diagnostic capture failed closed") = .ok () := by
      intro observation
      cases ladder with
      | none => rfl
      | some observe => exact mapError_eq_ok.mpr (hladder observe rfl observation)
    unfold conclude
    dsimp only
    rw [hcounted, hshown]
    rfl

end

/-- One result is asked for. -/
def singleRequest : SearchRequest := { servedRequest with topK := 1 }

/-- It names as many chunks as are asked for. -/
def selectUnknown (_ : String) (_ : List (RankedChunk rationalScores)) (_ : List String) (_ : Int) :
    Except PyError RouteCoveragePlan :=
  .ok ⟨"APPLIED", ["unknown"], none⟩

/-- Neither is of use: a planner that raises, and a selector that names one chunk, as it should, but
none of the fused. -/
def brokenRetriever : OnlineVersionRrfRetriever rationalScores :=
  { sampleRetriever with
    routeQueryPlanner := some fun _ _ => .error ⟨.valueError, "no plan"⟩
    finalCandidateSelector := some selectUnknown }

theorem optional_components_conservative_broken :
    brokenRetriever.search exactServices (servedWorld (servedRecord "text").modelDump)
        singleRequest = sampleRetriever.search exactServices
          (servedWorld (servedRecord "text").modelDump) singleRequest ∧
      foundTexts (brokenRetriever.search exactServices (servedWorld (servedRecord "text").modelDump)
        singleRequest) = some [some "text"] := by
  have hfinite : SumsFinite rationalScores := fun _ _ => rfl
  refine ⟨?_, by decide +kernel⟩
  refine (optional_components_conservative hfinite exactServices sampleRetriever
    (servedWorld (servedRecord "text").modelDump)
    singleRequest).1 (some fun _ _ => .error ⟨.valueError, "no plan"⟩) (some selectUnknown)
      (fun plan hplan routes _ => ?_)
    fun select hselect routes results candidates hroutes hresults hfused => ?_
  · cases hplan
    exact trivial
  · cases hselect
    have hids : (resolveRoutes exactServices (servedWorld (servedRecord "text").modelDump)
        singleRequest.ownerId singleRequest.documentIds >>= fun routes =>
      retrieveRoutes exactServices brokenRetriever (servedWorld (servedRecord "text").modelDump)
        singleRequest routes >>= fun results =>
          (fuse rationalScores sampleRetriever.rrfK results.rankings none).map
          fun candidates : List (RankedChunk rationalScores) =>
            candidates.map (·.chunkId)).toOption = some ["chunk_1"] := by
      decide +kernel
    rw [hroutes] at hids
    change (retrieveRoutes exactServices brokenRetriever _ singleRequest routes >>= _).toOption =
      _ at hids
    rw [show retrieveRoutes exactServices brokenRetriever _ singleRequest routes = .ok results
      from hresults] at hids
    change ((fuse rationalScores sampleRetriever.rrfK results.rankings none).map _).toOption =
      _ at hids
    rw [show fuse rationalScores sampleRetriever.rrfK results.rankings none = .ok candidates
      from hfused] at hids
    refine .inr (.inr (.inr ⟨"unknown", .head _, fun candidate hcandidate heq => ?_⟩))
    have hmap : candidates.map RankedChunk.chunkId = ["chunk_1"] := Option.some.inj hids
    have hmem := List.mem_map_of_mem (f := RankedChunk.chunkId) hcandidate
    rw [hmap, List.mem_singleton] at hmem
    exact absurd (hmem.symm.trans heq) (by decide)

end ZhiyanRag.Retrieval
