import ZhiyanRag.Lib.Steps
import ZhiyanRag.Retrieval.Online
import ZhiyanRag.Storage.Lifecycle

/-!
# The invalidation race

A search takes its steps between the repository calls of everybody else. Only the two reads look at
the version table; that a routed version was `READY` all the way between them follows from the order
of the version rows (`LaterVersion.ready_between`): a version leaves `READY` once. `SearchMove` is
all that a step does to the routed versions, `Sound` what the search holds about them, and
`online_search_safety` is the result.
-/

namespace ZhiyanRag.Retrieval

open Relational ZhiyanRag.Ingestion ZhiyanRag.Storage

/-- Every key is a stored `READY` version of the owner. -/
def ReadyFor (db : Database) (ownerId : String) (keys : List (String × String)) : Prop :=
  ∀ key ∈ keys, ∃ v, db.versions.find? key.2 = some v ∧ v.ownerId = ownerId ∧ v.documentId = key.1 ∧
    v.lifecycleStatus = .ready

/-- If documents are requested, the keys are theirs. -/
def RequestedDocuments (documentIds : List String) (keys : List (String × String)) : Prop :=
  documentIds ≠ [] → ∀ d, (∃ key ∈ keys, key.1 = d) ↔ d ∈ documentIds

/-! ### What the functions of the search return -/

section

variable {db : Database} {ownerId : String} {documentIds : List String} {failure : Option PyError}

theorem repositoryCall_ok {α : Type} {call : Except PyError α} {result : α}
    (h : repositoryCall failure call = .ok result) : call = .ok result := by
  cases failure with
  | none => exact h
  | some e => cases h

theorem readyFor_of_rows {versions : List DocumentVersionLifecycleV1}
    (h : ∀ v ∈ versions, v ∈ db.versions.rows ∧ v.ownerId = ownerId ∧ v.lifecycleStatus = .ready) :
    ReadyFor db ownerId (versions.map versionKey) := by
  intro key hkey
  obtain ⟨v, hv, rfl⟩ := List.mem_map.mp hkey
  obtain ⟨hmem, howner, hready⟩ := h v hv
  exact ⟨v, Table.find?_key_of_mem hmem, howner, rfl, hready⟩

theorem indexVersion_ok {byDocument byDocument' : Table DocumentVersionLifecycleV1.documentId}
    {version : DocumentVersionLifecycleV1}
    (h : indexVersion ownerId byDocument version = .ok byDocument') :
    byDocument'.rows = byDocument.rows ++ [version] := by
  unfold indexVersion at h
  obtain ⟨-, h⟩ := ensure_bind.mp h
  split at h
  · rename_i hinsert
    cases pure_eq_ok.mp h
    exact Table.rows_insert? hinsert
  · cases h

/-- The resolved versions are stored `READY` versions of the owner, and those of the requested
documents. -/
theorem resolveReadyVersions_ok {versions : List DocumentVersionLifecycleV1}
    (h : resolveReadyVersions db ownerId documentIds failure = .ok versions) :
    ReadyFor db ownerId (versions.map versionKey) ∧
    RequestedDocuments documentIds (versions.map versionKey) := by
  unfold resolveReadyVersions at h
  obtain ⟨-, h⟩ := ensure_bind.mp h
  obtain ⟨-, h⟩ := ensure_bind.mp h
  obtain ⟨online, honline, h⟩ := bind_eq_ok.mp h
  obtain ⟨byDocument, hindexed, h⟩ := bind_eq_ok.mp h
  obtain ⟨hrequested, h⟩ := ensure_bind.mp h
  cases pure_eq_ok.mp h
  have hresolved := repositoryCall_ok (mapError_eq_ok.mp honline)
  have hsubset : ∀ v ∈ byDocument.rows, v ∈ online := by
    refine foldlM_invariant (I := fun t => ∀ v ∈ t.rows, v ∈ online) (fun t v t' hv ht hindex => ?_)
      (fun v hv => absurd hv List.not_mem_nil) hindexed
    rw [indexVersion_ok hindex]
    intro w hw
    rcases List.mem_append.mp hw with hw | hw
    · exact ht w hw
    · rwa [List.mem_singleton.mp hw]
  refine ⟨readyFor_of_rows fun v hv => ?_, fun hne d => ?_⟩
  · exact resolveOnlineVersions_ready hresolved (hsubset v ((List.mem_insertionSort _).mp hv))
  · have hdocuments : documentIds.toFinset =
        (byDocument.rows.map DocumentVersionLifecycleV1.documentId).toFinset := by
      simpa [hne] using hrequested
    have hmem := congrArg (d ∈ ·) hdocuments
    simp only [List.mem_toFinset, List.mem_map, eq_iff_iff] at hmem
    simp [hmem, versionKey]

theorem verifyRoute_ok {version : DocumentVersionLifecycleV1}
    {elasticsearch milvus : Except PyError PhysicalRoute} {route : OnlineVersionRoute}
    (h : verifyRoute ownerId version elasticsearch milvus = .ok route) :
    route.ownerId = ownerId ∧ route.key = versionKey version := by
  have h := mapError_eq_ok.mp h
  obtain ⟨lexical, -, h⟩ := bind_eq_ok.mp h
  obtain ⟨vector, -, h⟩ := bind_eq_ok.mp h
  cases pure_eq_ok.mp h
  exact ⟨rfl, rfl⟩

/-- After a revalidation the routes are stored `READY` versions. -/
theorem revalidate_ok {routes : List OnlineVersionRoute}
    (h : revalidate db routes ownerId documentIds failure = .ok ()) :
    ReadyFor db ownerId (routes.map OnlineVersionRoute.key) := by
  unfold revalidate at h
  obtain ⟨online, honline, h⟩ := bind_eq_ok.mp h
  have hresolved := repositoryCall_ok (mapError_eq_ok.mp honline)
  rw [ensure_eq_ok, Bool.and_eq_true, decide_eq_true_eq] at h
  intro key hkey
  have hcurrent := (congrArg (key ∈ ·) h.1).mpr (List.mem_toFinset.mpr hkey)
  obtain ⟨v, hv, rfl⟩ := List.mem_map.mp (List.mem_toFinset.mp hcurrent)
  have hready := readyFor_of_rows fun v => resolveOnlineVersions_ready hresolved
  exact hready _ (List.mem_map_of_mem (List.mem_filter.mp hv).1)

end

section

variable {Score : Type} {float : FloatArithmetic Score} {routes : List OnlineVersionRoute}

/-- Every candidate is an active chunk of one of the routes. -/
def OnRoutes (routes : List OnlineVersionRoute) (ranking : List (RankedChunk float)) : Prop :=
  ∀ candidate ∈ ranking, ∃ route ∈ routes, onRoute route candidate.chunk = true

theorem validateRouteRanking_ok {route : OnlineVersionRoute} {ranking : List (RankedChunk float)}
    (h : validateRouteRanking route ranking = .ok ()) (hroute : route ∈ routes) :
    OnRoutes routes ranking := by
  unfold validateRouteRanking at h
  obtain ⟨-, h⟩ := check_bind.mp h
  rw [ensure_eq_ok] at h
  exact fun candidate hcandidate => ⟨route, hroute, List.all_eq_true.mp h candidate hcandidate⟩

theorem routeRankings_ok {route : OnlineVersionRoute}
    {lexical vector : Except PyError (List (RankedChunk float))}
    {both : List (List (RankedChunk float))} (h : routeRankings route lexical vector = .ok both)
    (hroute : route ∈ routes) : OnRoutes routes both.flatten := by
  unfold routeRankings at h
  obtain ⟨lexicalRanking, -, h⟩ := bind_eq_ok.mp h
  obtain ⟨vectorRanking, -, h⟩ := bind_eq_ok.mp h
  obtain ⟨hlexical, h⟩ := check_bind.mp h
  obtain ⟨hvector, h⟩ := check_bind.mp h
  cases pure_eq_ok.mp h
  intro candidate hcandidate
  rw [List.flatten_cons, List.flatten_singleton, List.mem_append] at hcandidate
  rcases hcandidate with hcandidate | hcandidate
  · exact validateRouteRanking_ok hlexical hroute candidate hcandidate
  · exact validateRouteRanking_ok hvector hroute candidate hcandidate

/-- The chunks of a ranking built from others are among theirs. -/
theorem onRoutes_of_chunks {ranking ranking' : List (RankedChunk float)}
    (h : ∀ chunk ∈ ranking'.map (·.chunk), chunk ∈ ranking.map (·.chunk))
    (hranking : OnRoutes routes ranking) :
    OnRoutes routes ranking' := by
  intro candidate hcandidate
  obtain ⟨source, hsource, hchunk⟩ :=
    List.mem_map.mp (h candidate.chunk (List.mem_map_of_mem hcandidate))
  rw [← hchunk]
  exact hranking source hsource

theorem fuseCandidate_ok {rrfK : Int} {entries entries' : Table (@FusedEntry.chunkId Score)}
    {candidate : RankedChunk float}
    (h : fuseCandidate float rrfK entries candidate = .ok entries') :
    ∃ entry, entry.payload = candidate.chunk ∧ entry.chunkId = candidate.chunkId ∧
      entries' = entries.upsert entry := by
  unfold fuseCandidate at h
  obtain ⟨-, h⟩ := ensure_bind.mp h
  cases pure_eq_ok.mp h
  exact ⟨_, rfl, rfl, rfl⟩

/-- Fusion is a valid ranking of candidates' chunks. -/
theorem fuse_ok {rrfK : Int} {rankings : List (List (RankedChunk float))} {topK : Option Int}
    {fused : List (RankedChunk float)} (h : fuse float rrfK rankings topK = .ok fused) :
    ValidRanking fused ∧ ∀ chunk ∈ fused.map (·.chunk), chunk ∈ rankings.flatten.map (·.chunk) := by
  unfold fuse at h
  obtain ⟨entries, hentries, h⟩ := bind_eq_ok.mp h
  obtain ⟨hvalid, hchunks⟩ := rankInOrder_ok h
  refine ⟨hvalid, fun chunk hchunk => ?_⟩
  have hpayloads : ∀ entry ∈ entries.rows, entry.payload ∈ rankings.flatten.map (·.chunk) := by
    refine foldlM_invariant
      (I := fun t : Table (@FusedEntry.chunkId Score) =>
        ∀ entry ∈ t.rows, entry.payload ∈ rankings.flatten.map (·.chunk))
      (fun t candidate t' hcandidate ht hfused => ?_)
        (fun entry hentry => absurd hentry List.not_mem_nil) hentries
    obtain ⟨entry, hpayload, -, rfl⟩ := fuseCandidate_ok hfused
    intro other hother
    rcases Table.mem_upsert hother with rfl | hother
    · rw [hpayload]
      exact List.mem_map_of_mem hcandidate
    · exact ht other hother
  rw [hchunks, List.map_map] at hchunk
  obtain ⟨entry, hentry, rfl⟩ := List.mem_map.mp hchunk
  refine hpayloads entry ((List.mem_insertionSort (fusedLe float)).mp ?_)
  cases topK with
  | none => exact hentry
  | some k => exact List.mem_of_mem_take hentry

theorem candidateById_ok {candidates : List (RankedChunk float)} {chunkId : String}
    {candidate : RankedChunk float} (h : candidateById candidates chunkId = .ok candidate) :
    candidate ∈ candidates ∧ candidate.chunkId = chunkId := by
  unfold candidateById at h
  split at h
  · rename_i hfound
    cases h
    exact ⟨List.mem_reverse.mp (List.mem_of_find?_eq_some hfound),
      of_decide_eq_true
        (List.find?_some (p := fun c : RankedChunk float => decide (c.chunkId = chunkId)) hfound)⟩
  · cases h

/-- A selection is a valid ranking of as many of the candidates' chunks as were asked for. -/
theorem applySelection_ok {candidates selected : List (RankedChunk float)}
    {selectedChunkIds : List String} {topK : Int}
    (h : applySelection candidates selectedChunkIds topK = .ok selected) :
    ValidRanking selected ∧ (selected.length : Int) = topK ∧
      ∀ chunk ∈ selected.map (·.chunk), chunk ∈ candidates.map (·.chunk) := by
  unfold applySelection at h
  obtain ⟨hcardinality, h⟩ := ensure_bind.mp h
  rw [Bool.and_eq_true, decide_eq_true_eq] at hcardinality
  obtain ⟨chosen, hchosen, h⟩ := bind_eq_ok.mp h
  obtain ⟨hvalid, hchunks⟩ := rankInOrder_ok h
  rw [List.map_map] at hchunks
  have hforall := mapM_eq_ok.mp hchosen
  refine ⟨hvalid, ?_, fun chunk hchunk => ?_⟩
  · have hlength := congrArg List.length hchunks
    rw [List.length_map, List.length_map] at hlength
    rw [hlength, ← hforall.length_eq]
    exact hcardinality.1
  · rw [hchunks] at hchunk
    obtain ⟨candidate, hcandidate, rfl⟩ := List.mem_map.mp hchunk
    obtain ⟨id, -, hfound⟩ := exists_of_mapM_ok hchosen hcandidate
    exact List.mem_map_of_mem (candidateById_ok hfound).1

/-- What `search` promises of a ranking it returns. -/
structure FinalRanking (routes : List OnlineVersionRoute) (topK : Int)
    (ranking : List (RankedChunk float)) : Prop extends ValidRanking ranking where
  onRoutes : OnRoutes routes ranking
  length : (ranking.length : Int) ≤ topK

theorem finalCandidates_ok {candidates : List (RankedChunk float)} {topK : Int}
    {selection : Option (Except PyError RouteCoveragePlan)} (htop : 1 ≤ topK)
    (hvalid : ValidRanking candidates)
    (hroutes : OnRoutes routes candidates) :
    FinalRanking routes topK (finalCandidates candidates topK selection) := by
  have hfirst : FinalRanking routes topK (candidates.take topK.toNat) := by
    refine ⟨hvalid.take _, fun candidate hcandidate => hroutes candidate
      (List.mem_of_mem_take hcandidate), ?_⟩
    have := List.length_take_le topK.toNat candidates
    omega
  unfold finalCandidates
  match selection with
  | none => exact hfirst
  | some (.error e) => exact hfirst
  | some (.ok plan) =>
    dsimp only
    split
    · split
      · rename_i selected hselected
        obtain ⟨hselectedValid, hlength, hchunks⟩ := applySelection_ok hselected
        exact ⟨hselectedValid, onRoutes_of_chunks hchunks hroutes, le_of_eq hlength⟩
      · exact hfirst
    · exact hfirst

/-- What a search concludes with is the selection; the observers only get the chance to raise. -/
theorem conclude_ok {retriever : OnlineVersionRrfRetriever float} {request : SearchRequest}
    {rankings : List (List (RankedChunk float))} {elasticsearchTimings milvusTimings : Nat}
    {candidates ranking : List (RankedChunk float)}
    (h : conclude retriever request routes rankings elasticsearchTimings milvusTimings candidates =
      .ok ranking) :
    ranking = finalCandidates candidates request.topK (retriever.finalCandidateSelector.map
      fun plan =>
      plan request.question candidates (routes.map (·.documentId)) request.topK) := by
  unfold conclude at h
  obtain ⟨-, h⟩ := check_bind.mp h
  obtain ⟨-, h⟩ := check_bind.mp h
  exact (pure_eq_ok.mp h).symm

theorem finish_ok {retriever : OnlineVersionRrfRetriever float} {request : SearchRequest}
    {rankings : List (List (RankedChunk float))} {elasticsearchTimings milvusTimings : Nat}
    {ranking : List (RankedChunk float)} (htop : 1 ≤ request.topK)
    (hroutes : OnRoutes routes rankings.flatten)
    (h : finish retriever request routes rankings elasticsearchTimings milvusTimings =
      .ok ranking) :
    FinalRanking routes request.topK ranking := by
  unfold finish at h
  obtain ⟨candidates, hfused, h⟩ := bind_eq_ok.mp h
  obtain rfl := conclude_ok h
  obtain ⟨hvalid, hchunks⟩ := fuse_ok hfused
  exact finalCandidates_ok htop hvalid (onRoutes_of_chunks hchunks hroutes)

/-! ### All that a step does -/

namespace SearchState

/-- The search has done its second read and has not failed. -/
def afterReads : SearchState float → Bool
  | fusing .. | returned .. => true
  | _ => false

theorem betweenReads_of_afterReads {s : SearchState float} (h : s.afterReads = true) :
    s.betweenReads = false := by
  cases s <;> first | rfl | cases h

/-- What a step does to the routed versions, with the table it read. -/
inductive Move (db : Database) (request : SearchRequest) (s s' : SearchState float) : Prop
  | resolved : s = start → s'.betweenReads = true → ReadyFor db request.ownerId s'.routed →
      RequestedDocuments request.documentIds s'.routed → 1 ≤ request.topK → Move db request s s'
  | between : s.betweenReads = true → s'.betweenReads = true → s'.routed = s.routed →
      Move db request s s'
  | revalidated : s.betweenReads = true → s'.afterReads = true → s'.routed = s.routed →
      ReadyFor db request.ownerId s.routed → Move db request s s'
  | finished : s.afterReads = true → s'.afterReads = true → s'.routed = s.routed →
      Move db request s s'
  | failed (e : PyError) : s' = raised e → Move db request s s'

/-- A step that goes on or raises. -/
theorem Move.of_orRaise {α : Type} {db : Database} {request : SearchRequest} {s : SearchState float}
    {next : α → SearchState float} {outcome : Except PyError α}
    (h : ∀ result, outcome = .ok result → Move db request s (next result)) :
    Move db request s (orRaise next outcome) := by
  cases outcome with
  | ok result => exact h result rfl
  | error e => exact .failed e rfl

theorem next_move {retriever : OnlineVersionRrfRetriever float} {request : SearchRequest}
    {db : Database} {s s' : SearchState float} {action : SearchAction float}
    (h : s.next retriever request db action = some s') : Move db request s s' := by
  unfold next at h
  split at h
  · cases h
    refine .of_orRaise fun versions hversions => ?_
    obtain ⟨hcheck, hresolved⟩ := check_bind.mp hversions
    obtain ⟨hquestion, -⟩ := ensure_bind.mp hcheck
    rw [Bool.and_eq_true, decide_eq_true_eq] at hquestion
    obtain ⟨hready, hrequested⟩ := resolveReadyVersions_ok hresolved
    exact .resolved rfl rfl hready hrequested hquestion.2
  · cases h
    exact .between rfl rfl rfl
  · cases h
    refine .of_orRaise fun route hroute => .between rfl rfl ?_
    simp [routed, (verifyRoute_ok hroute).2]
  · cases h
    exact .of_orRaise fun _ _ => .between rfl rfl (by simp [routed])
  · cases h
    exact .of_orRaise fun _ _ => .between rfl rfl rfl
  · cases h
    exact .of_orRaise fun _ hvalid =>
      .revalidated rfl rfl rfl (revalidate_ok (mapError_eq_ok.mp hvalid))
  · cases h
    exact .of_orRaise fun _ _ => .finished rfl rfl rfl
  · cases h

end SearchState

/-! ### What the search holds -/

/-- The candidates at hand lie on the routes, whose versions are the owner's and those asked for. -/
def SearchState.Sound (request : SearchRequest) : SearchState float → Prop
  | .start | .raised _ => True
  | .resolving versions routes _ => 1 ≤ request.topK ∧
      (∀ route ∈ routes, route.ownerId = request.ownerId) ∧
      RequestedDocuments request.documentIds
        (routes.map OnlineVersionRoute.key ++ versions.map versionKey)
  | .searching routes remaining rankings => 1 ≤ request.topK ∧
      (∀ route ∈ routes, route.ownerId = request.ownerId) ∧
      RequestedDocuments request.documentIds (routes.map OnlineVersionRoute.key) ∧
      remaining ⊆ routes ∧
      OnRoutes routes rankings.flatten
  | .fusing routes rankings => 1 ≤ request.topK ∧
      (∀ route ∈ routes, route.ownerId = request.ownerId) ∧
      RequestedDocuments request.documentIds (routes.map OnlineVersionRoute.key) ∧
      OnRoutes routes rankings.flatten
  | .returned routes ranking => (∀ route ∈ routes, route.ownerId = request.ownerId) ∧
      RequestedDocuments request.documentIds (routes.map OnlineVersionRoute.key) ∧
      FinalRanking routes request.topK ranking

theorem SearchState.sound_of_orRaise {α : Type} {request : SearchRequest}
    {next : α → SearchState float} {outcome : Except PyError α}
    (h : ∀ result, outcome = .ok result → (next result).Sound request) :
    (orRaise next outcome).Sound request := by
  cases outcome with
  | ok result => exact h result rfl
  | error e => trivial

theorem SearchState.next_sound {retriever : OnlineVersionRrfRetriever float}
    {request : SearchRequest} {db : Database} {s s' : SearchState float}
    {action : SearchAction float} (hs : s.Sound request)
    (h : s.next retriever request db action = some s') : s'.Sound request := by
  unfold next at h
  split at h
  · cases h
    refine sound_of_orRaise fun versions hversions => ?_
    obtain ⟨hcheck, hresolved⟩ := check_bind.mp hversions
    obtain ⟨hquestion, -⟩ := ensure_bind.mp hcheck
    rw [Bool.and_eq_true, decide_eq_true_eq] at hquestion
    exact ⟨hquestion.2, fun route hroute => absurd hroute List.not_mem_nil,
      (resolveReadyVersions_ok hresolved).2⟩
  · cases h
    exact hs
  · cases h
    obtain ⟨htop, howner, hrequested⟩ := hs
    refine sound_of_orRaise fun route hroute => ⟨htop, fun other hother => ?_, ?_⟩
    · rcases List.mem_append.mp hother with hother | hother
      · exact howner other hother
      · rw [List.mem_singleton.mp hother]
        exact (verifyRoute_ok hroute).1
    · simpa [(verifyRoute_ok hroute).2] using hrequested
  · cases h
    obtain ⟨htop, howner, hrequested⟩ := hs
    refine sound_of_orRaise fun _ _ =>
      ⟨htop, howner, ?_, List.Subset.refl _, fun c hc => absurd hc List.not_mem_nil⟩
    simpa using hrequested
  · cases h
    obtain ⟨htop, howner, hrequested, hsubset, hroutes⟩ := hs
    refine sound_of_orRaise fun both hboth =>
      ⟨htop, howner, hrequested, List.subset_of_cons_subset hsubset, ?_⟩
    have hboth := routeRankings_ok (mapError_eq_ok.mp hboth) (hsubset List.mem_cons_self)
    intro candidate hcandidate
    rw [List.flatten_append, List.mem_append] at hcandidate
    exact hcandidate.elim (hroutes candidate) (hboth candidate)
  · cases h
    obtain ⟨htop, howner, hrequested, -, hroutes⟩ := hs
    exact sound_of_orRaise fun _ _ => ⟨htop, howner, hrequested, hroutes⟩
  · cases h
    obtain ⟨htop, howner, hrequested, hroutes⟩ := hs
    exact sound_of_orRaise fun ranking hranking =>
      ⟨howner, hrequested, finish_ok htop hroutes hranking⟩
  · cases h

/-! ### Between the reads -/

/-- Every key was a `READY` version of the owner, of which the stored row is a later one. -/
def WasReady (db : Database) (ownerId : String) (keys : List (String × String)) : Prop :=
  ∀ key ∈ keys, ∃ u v, u.ownerId = ownerId ∧ u.documentId = key.1 ∧ u.lifecycleStatus = .ready ∧
    db.versions.find? key.2 = some v ∧ LaterVersion u v

theorem ReadyFor.wasReady {db : Database} {ownerId : String} {keys : List (String × String)}
    (h : ReadyFor db ownerId keys) : WasReady db ownerId keys := by
  intro key hkey
  obtain ⟨v, hv, howner, hdocument, hready⟩ := h key hkey
  exact ⟨v, v, howner, hdocument, hready, hv, LaterVersion.refl v⟩

theorem WasReady.later {db db' : Database} {ownerId : String} {keys : List (String × String)}
    (h : WasReady db ownerId keys) (hlater : db.Later db') : WasReady db' ownerId keys := by
  intro key hkey
  obtain ⟨u, v, howner, hdocument, hready, hv, huv⟩ := h key hkey
  obtain ⟨w, hw, hvw⟩ := hlater key.2 v hv
  exact ⟨u, w, howner, hdocument, hready, hw, huv.trans hvw⟩

/-- What was `READY` before and is `READY` later is `READY` now. -/
theorem WasReady.ready_between {db db' : Database} {ownerId : String}
    {keys : List (String × String)} (h : WasReady db ownerId keys) (hlater : db.Later db')
    (hnow : ReadyFor db' ownerId keys) : ReadyFor db ownerId keys := by
  intro key hkey
  obtain ⟨u, v, howner, hdocument, hready, hv, huv⟩ := h key hkey
  obtain ⟨w, hw, hvw⟩ := hlater key.2 v hv
  obtain ⟨w', hw', -, -, hready'⟩ := hnow key hkey
  cases hw.symm.trans hw'
  obtain ⟨-, hvdocument, hvowner, -⟩ := sameVersionIdentity_iff.mp huv.identity
  exact ⟨v, hv, hvowner.trans howner, hvdocument.trans hdocument,
    huv.ready_between hvw hready hready'⟩

namespace OnlineState

variable {α : Type} {c : Coercion α} {chunksFingerprint : List ChunkRecordV1 → String}
  {retriever : OnlineVersionRrfRetriever float} {request : SearchRequest}

/-- Between the reads, the routed versions were `READY` at the first. -/
structure Invariant (request : SearchRequest) (s : OnlineState float) : Prop where
  sound : s.search.Sound request
  wasReady : s.search.betweenReads = true → WasReady s.history.db request.ownerId s.search.routed

/-- `s'` is a later state of a run through `s`, where the search was between its reads. -/
structure Since (request : SearchRequest) (s s' : OnlineState float) : Prop where
  later : s.history.db.Later s'.history.db
  phase : s'.search.betweenReads = true ∨ s'.search.afterReads = true ∨ ∃ e, s'.search = .raised e
  routed : s'.search.betweenReads = true ∨ s'.search.afterReads = true →
    s'.search.routed = s.search.routed
  ready : s'.search.afterReads = true → ReadyFor s.history.db request.ownerId s.search.routed

theorem step_invariant {s s' : OnlineState float} {label : OnlineLabel float α}
    (hs : s.Invariant request) (h : s.step c chunksFingerprint retriever request label = some s') :
    s'.Invariant request := by
  cases label with
  | call call =>
    cases h
    exact ⟨hs.sound, fun hbetween => (hs.wasReady hbetween).later (s.history.step_later call)⟩
  | act action =>
    obtain ⟨search, hnext, rfl⟩ := Option.map_eq_some_iff.mp h
    refine ⟨SearchState.next_sound hs.sound hnext, fun hbetween => ?_⟩
    cases SearchState.next_move hnext with
    | resolved _ _ hready _ _ => exact hready.wasReady
    | between hbefore _ hrouted =>
      change WasReady _ _ search.routed
      rw [hrouted]
      exact hs.wasReady hbefore
    | revalidated _ hafter _ _ => simp [SearchState.betweenReads_of_afterReads hafter] at hbetween
    | finished _ hafter _ => simp [SearchState.betweenReads_of_afterReads hafter] at hbetween
    | failed e hraised =>
      subst hraised
      cases hbetween

/-- Between the reads nothing has happened yet; afterwards every routed version was `READY` in `s`.
-/
theorem step_since {s m m' : OnlineState float} {label : OnlineLabel float α}
    (hs : s.Invariant request) (hbetween : s.search.betweenReads = true) (hm : s.Since request m)
    (h : m.step c chunksFingerprint retriever request label = some m') : s.Since request m' := by
  cases label with
  | call call =>
    cases h
    exact ⟨hm.later.trans (m.history.step_later call), hm.phase, hm.routed, hm.ready⟩
  | act action =>
    obtain ⟨search, hnext, rfl⟩ := Option.map_eq_some_iff.mp h
    cases SearchState.next_move hnext with
    | resolved hstart _ _ _ _ =>
      have hphase := hm.phase
      rw [hstart] at hphase
      rcases hphase with hphase | hphase | ⟨e, hphase⟩ <;> cases hphase
    | between hbefore hafter hrouted =>
      have hnot : search.afterReads = false := by
        cases hreads : search.afterReads with
        | false => rfl
        | true => simp [SearchState.betweenReads_of_afterReads hreads] at hafter
      refine ⟨hm.later, .inl hafter, fun _ => hrouted.trans (hm.routed (.inl hbefore)),
        fun hreads => ?_⟩
      simp [hnot] at hreads
    | revalidated hbefore hafter hrouted hready =>
      have hsame := hm.routed (.inl hbefore)
      rw [hsame] at hready hrouted
      exact ⟨hm.later, .inr (.inl hafter), fun _ => hrouted,
        fun _ => (hs.wasReady hbetween).ready_between hm.later hready⟩
    | finished hbefore hafter hrouted =>
      exact ⟨hm.later, .inr (.inl hafter), fun _ => hrouted.trans (hm.routed (.inr hbefore)),
        fun _ => hm.ready hbefore⟩
    | failed e hraised =>
      subst hraised
      refine ⟨hm.later, .inr (.inr ⟨e, rfl⟩), fun hreads => ?_, fun hreads => by cases hreads⟩
      rcases hreads with hreads | hreads <;> cases hreads

/-- A run from a state between the reads. -/
theorem run_since {s m : OnlineState float} {labels : List (OnlineLabel float α)}
    (hs : s.Invariant request) (hbetween : s.search.betweenReads = true)
    (h : Steps.run (step c chunksFingerprint retriever request) s labels = some m) :
    s.Since request m :=
  Steps.run_invariant _ (fun _ _ _ hm hstep => step_since hs hbetween hm hstep)
    ⟨Database.Later.refl _, .inl hbetween, fun _ => rfl, fun hreads => by
      simp [SearchState.betweenReads_of_afterReads hreads] at hbetween⟩ h

theorem run_invariant {history : History} {s : OnlineState float}
    {labels : List (OnlineLabel float α)}
    (h : Steps.run (step c chunksFingerprint retriever request) ⟨history, .start⟩ labels = some s) :
    s.Invariant request := by
  refine Steps.run_invariant (I := Invariant request) _
    (fun _ _ _ hs hstep => step_invariant hs hstep) ?_ h
  exact ⟨trivial, fun hreads => by cases hreads⟩

end OnlineState

/-- A search that returns has routed only to versions of its owner that were `READY` between its two
reads, to those of the requested documents, and its ranking consists of their active chunks; if a
routed version was not `READY` at some moment between the reads, a search that gets past them
raises. -/
theorem online_search_safety {α : Type} (c : Coercion α)
    (chunksFingerprint : List ChunkRecordV1 → String) (retriever : OnlineVersionRrfRetriever float)
    (request : SearchRequest) (history : History) (labels : List (OnlineLabel float α))
    (s : OnlineState float)
    (hrun : Steps.run (OnlineState.step c chunksFingerprint retriever request) ⟨history,
      .start⟩ labels = some s) :
    (∀ routes ranking, s.search = .returned routes ranking →
      (∀ route ∈ routes, route.ownerId = request.ownerId) ∧
      (request.documentIds ≠ [] → ∀ d, (∃ route ∈ routes, route.documentId = d) ↔
        d ∈ request.documentIds) ∧
      (∀ candidate ∈ ranking, candidate.chunk.get "tenant_id" = .str request.ownerId ∧
        candidate.chunk.get "is_active" = .bool true ∧ ∃ route ∈ routes,
          candidate.chunk.get "document_id" = .str route.documentId ∧
          candidate.chunk.get "version_id" = .str route.documentVersionId) ∧
      (ranking.map (·.chunkId)).Nodup ∧
      ranking.map (·.rank) = (List.range' 1 ranking.length).map (fun n : Nat => (n : Int)) ∧
      (ranking.length : Int) ≤ request.topK) ∧
    ∀ before after m, labels = before ++ after →
      Steps.run (OnlineState.step c chunksFingerprint retriever request) ⟨history, .start⟩ before =
        some m →
      m.search.betweenReads = true →
      (∀ routes ranking, s.search = .returned routes ranking → ∀ route ∈ routes, ∃ v,
        m.history.db.versions.find? route.documentVersionId = some v ∧ v.ownerId = request.ownerId ∧
        v.documentId = route.documentId ∧ v.lifecycleStatus = .ready) ∧
      (∀ key ∈ m.search.routed,
        (∀ v, m.history.db.versions.find? key.2 = some v → v.lifecycleStatus ≠ .ready) →
        s.search.betweenReads = false → ∃ e, s.search = .raised e) := by
  refine ⟨fun routes ranking hreturned => ?_, fun before after m hlabels hm hbetween => ?_⟩
  · have hsound := (OnlineState.run_invariant hrun).sound
    rw [hreturned] at hsound
    obtain ⟨howner, hrequested, hranking⟩ := hsound
    refine ⟨howner, fun hne d => ?_, fun candidate hcandidate => ?_, hranking.distinct,
      hranking.ranks, hranking.length⟩
    · rw [← hrequested hne d]
      simp [OnlineVersionRoute.key]
    · obtain ⟨route, hroute, hon⟩ := hranking.onRoutes candidate hcandidate
      simp only [onRoute, Bool.and_eq_true, decide_eq_true_eq, JsonValue.str?_eq_some,
        JsonValue.isTrue_iff] at hon
      obtain ⟨⟨⟨htenant, hdocument⟩, hversion⟩, hactive⟩ := hon
      exact ⟨howner route hroute ▸ htenant, hactive, route, hroute, hdocument, hversion⟩
  · rw [hlabels, Steps.run_append, hm] at hrun
    have hsince := OnlineState.run_since (OnlineState.run_invariant hm) hbetween hrun
    refine ⟨fun routes ranking hreturned route hroute => ?_, fun key hkey hnot hdone => ?_⟩
    · have hafter : s.search.afterReads = true := by rw [hreturned]; rfl
      have hrouted := hsince.routed (.inr hafter)
      rw [hreturned] at hrouted
      exact hsince.ready hafter route.key (hrouted ▸ List.mem_map_of_mem hroute)
    · rcases hsince.phase with hphase | hafter | hraised
      · rw [hphase] at hdone
        cases hdone
      · obtain ⟨v, hv, -, -, hready⟩ := hsince.ready hafter key hkey
        exact absurd hready (hnot v hv)
      · exact hraised

end

/-! ### A search of one document -/

def sampleVersion : DocumentVersionLifecycleV1 where
  paperId := "paper_1"
  documentId := "doc_1"
  ownerId := "owner_1"
  documentVersionId := "version_1"
  contentSha256 := "0000000000000000000000000000000000000000000000000000000000000000"
  sourceSnapshotSha256 := "0000000000000000000000000000000000000000000000000000000000000000"
  parseVersion := "parse_v1"
  lifecycleRevision := 4
  lifecycleStatus := .ready
  parseFinishTime := some 0
  chunkSplitterTime := some 0
  chunkCreateTime := some 0
  chunkGenTime := some 0
  vectorIndexTime := some 0
  indexStates := DocumentVersionLifecycleV1.bothReady
  updatedAt := 0

def sampleRecord : ChunkRecordV1 where
  chunkId := "chunk_1"
  documentId := "doc_1"
  versionId := "version_1"
  text := "text"
  sectionPath := "1"
  pageStart := 1
  pageEnd := 1
  parentChunkId := none
  previousChunkId := none
  nextChunkId := none
  tenantId := "owner_1"
  visibility := .isPrivate
  libraryScopeIds := []
  parseVersion := "parse_v1"
  embeddingVersion := "embedding_v1"
  isActive := false

/-- One version with one chunk. -/
def sampleHistory : History where
  db := { Database.empty with
    versions := ⟨[sampleVersion], List.nodup_singleton _⟩
    chunks := ⟨[chunkRow sampleRecord 0], List.nodup_singleton _⟩ }
  log := []

def sampleRetriever : OnlineVersionRrfRetriever rationalScores where
  candidateK := 20
  rrfK := 60
  vectorMinScore := 0
  routeQueryPlanner := none
  finalCandidateSelector := none
  latencyObserver := none
  candidateLadderObserver := none
  positive := by decide
  scoreRange := by decide

def sampleRequest : SearchRequest where
  question := "question"
  scope := .ofMembers [("user_id", .str "owner_1"), ("tenant_id", .str "owner_1")]
  ownerId := "owner_1"
  documentIds := ["doc_1"]
  topK := 3

/-- The indexed payload of the chunk. -/
def samplePayload : JsonObject :=
  .ofMembers [("chunk_id", .str "chunk_1"), ("document_id", .str "doc_1"),
    ("version_id", .str "version_1"), ("text", .str "text"), ("tenant_id", .str "owner_1"),
    ("is_active", .bool true)]

def sampleHit (backend : String) : Except PyError (List (RankedChunk rationalScores)) :=
  (RankedChunk.make rationalScores backend 1 1 samplePayload).map fun candidate => [candidate]

/-- The whole search, with a repository call of somebody else between its reads. -/
def sampleLabels : List (OnlineLabel rationalScores Empty) :=
  [.act (.resolve none), .act (.verifyRoute (.ok ⟨"es_1", []⟩) (.ok ⟨"milvus_1", []⟩)),
    .call (.updateIngestionJob "owner_2" "job_1" .running none 0), .act (.loadSnapshot none),
    .act (.startRetrieval none),
    .act (.searchRoute (sampleHit "elasticsearch_bm25") (sampleHit "milvus_dense_bge_m3")),
    .act (.revalidate none), .act (.finish 0 0)]

theorem online_search_safety_single :
    ∃ s routes ranking,
        Steps.run (OnlineState.step noCoercion (fun _ => "") sampleRetriever sampleRequest)
        ⟨sampleHistory, .start⟩ sampleLabels = some s ∧ s.search = .returned routes ranking ∧
        ranking ≠ [] ∧
      ∀ candidate ∈ ranking, candidate.chunk.get "tenant_id" = .str "owner_1" := by
  have hrun : (Steps.run (OnlineState.step noCoercion (fun _ => "") sampleRetriever sampleRequest)
      ⟨sampleHistory, .start⟩ sampleLabels).any (fun s => match s.search with
        | .returned _ ranking => !ranking.isEmpty
        | _ => false) = true := by decide +kernel
  obtain ⟨s, hs, hreturned⟩ := (Option.any_eq_true _ _).mp hrun
  split at hreturned
  · rename_i routes ranking hsearch
    have hsafe := (online_search_safety noCoercion (fun _ => "") sampleRetriever sampleRequest
      sampleHistory sampleLabels s hs).1 routes ranking hsearch
    exact ⟨s, routes, ranking, hs, hsearch, by simpa using hreturned,
      fun candidate hcandidate => (hsafe.2.2.1 candidate hcandidate).1⟩
  · cases hreturned

end ZhiyanRag.Retrieval
