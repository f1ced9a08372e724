import ZhiyanRag.Rag.Generation
import ZhiyanRag.Retrieval.OnlineReranker
import ZhiyanRag.Retrieval.WrittenIndexes

/-!
# Online answers

`answer_online_ready_question` of `online_consumer.py`: a search, the reranker if there is one, and
`build_answer`, which numbers the chunks and copies their texts, pages and identifiers. If only the
writers wrote the indexes, the answer quotes chunks of the PostgreSQL snapshots word for word
(`online_answer_quotes_snapshot`).
-/

namespace ZhiyanRag.Rag

open Relational Ingestion Retrieval

/-! ### Building an answer -/

/-- `chunk[field]`; a `KeyError` is a `LookupError`. -/
def item (chunk : JsonObject) (field : String) : Except PyError JsonValue :=
  (chunk.members.find? field).elim (.error ⟨.lookupError, field⟩) fun member => .ok member.2

/-- `f"{value}"`: a string is its own text, and `format` makes the others. -/
def formatted (format : JsonValue → Except PyError String) (value : JsonValue) :
    Except PyError String :=
  value.str?.elim (format value) .ok

/-- `f"{position:03d}"`. -/
def threeDigits (position : Nat) : String :=
  let digits := Nat.toDigits 10 position
  String.ofList (List.replicate (3 - digits.length) '0' ++ digits)

/-- What one chunk adds to an answer. -/
structure AnswerEntry where
  evidence : JsonValue
  citation : JsonValue
  part : String

/-- One turn of the loop of `build_answer`. -/
def answerEntry (format : JsonValue → Except PyError String) (position : Nat) (chunk : JsonObject) :
    Except PyError AnswerEntry := do
  let evidenceId := "evidence_" ++ threeDigits position
  let chunkId ← item chunk "chunk_id"
  let documentId ← item chunk "document_id"
  let versionId ← item chunk "version_id"
  let sectionPath ← item chunk "section_path"
  let pageStart ← item chunk "page_start"
  let pageEnd ← item chunk "page_end"
  let quote ← item chunk "text"
  let text ← formatted format quote
  return {
    evidence := .object [("evidence_id", .str evidenceId), ("chunk_id", chunkId),
      ("document_id", documentId), ("version_id", versionId), ("section_path", sectionPath),
      ("page_start", pageStart), ("page_end", pageEnd), ("quote", quote)]
    citation := .object [("citation_id", .str ("citation_" ++ threeDigits position)),
      ("evidence_id", .str evidenceId), ("document_id", documentId), ("page_start", pageStart),
      ("page_end", pageEnd)]
    part := s!"{text} [{position}]" }

/-- What a consumer puts into its answers. -/
structure AnswerTexts where
  executionBoundary : String
  completedWarning : String
  noEvidenceWarning : String
  answerPrefix : String

/-- The members of an answer, which are those of `RagAnswerV1`. -/
def answerMembers (identity : String × String) (status answer : String)
    (evidence citations : List JsonValue) (warning : String) :
    List (String × JsonValue) :=
  [("request_id", .str identity.1), ("trace_id", .str identity.2), ("status", .str status),
    ("answer", .str answer), ("evidence", .array evidence), ("citations", .array citations),
    ("warnings", .array [.str warning])]

/-- `build_answer`. -/
def buildAnswer (digest : String → String → JsonObject → String)
    (format : JsonValue → Except PyError String) (texts : AnswerTexts) (question : String)
    (scope : JsonObject) (chunks : List JsonObject) : Except PyError JsonObject := do
  let identity := requestIdentity digest question scope texts.executionBoundary
  if chunks.isEmpty then
    return .ofMembers (answerMembers identity "NO_EVIDENCE" "当前授权文献范围内没有足够证据回答该问题。" [] []
      texts.noEvidenceWarning)
  let entries ← (chunks.zipIdx 1).mapM fun numbered => answerEntry format numbered.2 numbered.1
  return .ofMembers
    (answerMembers identity "COMPLETED"
      (texts.answerPrefix ++ " ".intercalate (entries.map (·.part)))
    (entries.map (·.evidence)) (entries.map (·.citation)) texts.completedWarning)

/-! ### The consumer -/

/-- The latencies are timings and left out. -/
structure OnlineRetrievalObservation where
  rerankerStatus : String
  rerankerFailureCode : Option String
  candidateCount : Nat
  outputCount : Nat

/-- The texts of an answer after this reranker status: boundary and warning are one. -/
def onlineTexts (rerankerStatus : String) : AnswerTexts :=
  let boundary :=
    if rerankerStatus = "APPLIED"
      then "ONLINE_POSTGRES_READY_ES_MILVUS_RRF_BGE_RERANKER_V2_M3_FAKE_LLM"
    else if rerankerStatus = "FALLBACK"
      then "ONLINE_POSTGRES_READY_ES_MILVUS_RRF_RERANKER_FALLBACK_FAKE_LLM"
    else "ONLINE_POSTGRES_READY_ES_MILVUS_RRF_FAKE_LLM"
  { executionBoundary := boundary
    completedWarning := boundary
    noEvidenceWarning := "ONLINE_POSTGRES_READY_NO_EVIDENCE"
    answerPrefix := "依据 PostgreSQL READY 门禁下的 ES/Milvus 证据：" }

/-- The search asks for as many chunks as the reranker takes. -/
def consumerRequest (reranker : Option OnlineFixedCrossEncoderReranker) (request : SearchRequest) :
    SearchRequest :=
  { request with topK := reranker.elim request.topK fun reranker => reranker.config.candidateTopK }

/-- The chunks as the reranker leaves them. -/
def rerankRetrieved (reranker : Option OnlineFixedCrossEncoderReranker) (fuel : Nat)
    (request : SearchRequest) (retrieved : List JsonObject) :
    Option (Except PyError OnlineRerankOutcome) :=
  reranker.elim (some (.ok ⟨retrieved, "NOT_CONFIGURED", none, retrieved.length, retrieved.length⟩))
    fun reranker =>
    reranker.rerank fuel request.question retrieved request.ownerId request.documentIds request.topK

/-- What the observation sink, if there is one, makes of an outcome. -/
def observed (observationSink : Option (OnlineRetrievalObservation → Except PyError Unit))
    (outcome : OnlineRerankOutcome) : Except PyError Unit :=
  observationSink.elim (.ok ()) fun sink =>
    sink ⟨outcome.status, outcome.failureCode, outcome.candidateCount, outcome.chunks.length⟩

section

open MilvusWriter (Surroundings)

variable {Score ν : Type} {env : Surroundings Score}
  (digest : String → String → JsonObject → String) (format : JsonValue → Except PyError String)
  (services : SearchServices env ν) (retriever : OnlineVersionRrfRetriever env.toFloatArithmetic)
  (world : SearchWorld Score)
  (reranker : Option OnlineFixedCrossEncoderReranker) (fuel : Nat)
  (observationSink : Option (OnlineRetrievalObservation → Except PyError Unit))
  (request : SearchRequest)

/-- `answer_online_ready_question`, or nothing while the reranker still iterates over its scores. -/
def answerOnlineReadyQuestion : Option (Except PyError JsonObject) :=
  match retriever.search services world (consumerRequest reranker request) with
  | .error e => some (.error e)
  | .ok ranking => (rerankRetrieved reranker fuel request (ranking.map (·.chunk))).map
      fun outcome => do
    let outcome ← outcome
    observed observationSink outcome
    buildAnswer digest format (onlineTexts outcome.status) request.question request.scope
      outcome.chunks

end

/-! ### An answer of snapshot chunks -/

/-- The evidence that quotes a chunk. -/
def evidenceOf (position : Nat) (chunk : ChunkRecordV1) : JsonValue :=
  .object [("evidence_id", .str ("evidence_" ++ threeDigits position)),
    ("chunk_id", .str chunk.chunkId), ("document_id", .str chunk.documentId),
    ("version_id", .str chunk.versionId), ("section_path", .str chunk.sectionPath),
    ("page_start", .int chunk.pageStart),
    ("page_end", .int chunk.pageEnd), ("quote", .str chunk.text)]

/-- The citation of this evidence. -/
def citationOf (position : Nat) (chunk : ChunkRecordV1) : JsonValue :=
  .object [("citation_id", .str ("citation_" ++ threeDigits position)),
    ("evidence_id", .str ("evidence_" ++ threeDigits position)),
    ("document_id", .str chunk.documentId), ("page_start", .int chunk.pageStart),
    ("page_end", .int chunk.pageEnd)]

/-- The answer is made of these chunks: each is quoted once, under its position, in the evidence and
in the text. -/
structure Quotes (texts : AnswerTexts) (quoted : List ChunkRecordV1) (answer : JsonObject) :
    Prop where
  status : answer.get "status" = .str (if quoted.isEmpty then "NO_EVIDENCE" else "COMPLETED")
  warnings : answer.get "warnings" =
    .array [.str (if quoted.isEmpty then texts.noEvidenceWarning else texts.completedWarning)]
  evidence : answer.get "evidence" =
    .array ((quoted.zipIdx 1).map fun numbered => evidenceOf numbered.2 numbered.1)
  citations : answer.get "citations" =
    .array ((quoted.zipIdx 1).map fun numbered => citationOf numbered.2 numbered.1)
  text : quoted ≠ [] → answer.get "answer" =
    .str (texts.answerPrefix ++
      " ".intercalate ((quoted.zipIdx 1).map fun numbered => s!"{numbered.1.text} [{numbered.2}]"))

/-- An answer read back. -/
theorem get_answerMembers (identity : String × String) (status answer : String)
    (evidence citations : List JsonValue) (warning : String) :
    let built := JsonObject.ofMembers
      (answerMembers identity status answer evidence citations warning)
    built.get "status" = .str status ∧ built.get "warnings" = .array [.str warning] ∧
      built.get "evidence" = .array evidence ∧ built.get "citations" = .array citations ∧
      built.get "answer" = .str answer := by
  intro built
  have hnodup : ((answerMembers identity status answer evidence citations warning).map
      Prod.fst).Nodup := by
    show (["request_id", "trace_id", "status", "answer", "evidence", "citations", "warnings"] : List
      String).Nodup
    decide +kernel
  have hget {field : String} {value : JsonValue}
      (hmem : (field, value) ∈ answerMembers identity status answer evidence citations warning) :
      built.get field = value := by
    rw [← rows_ofMembers hnodup] at hmem
    unfold JsonObject.get
    rw [Table.find?_eq_some_iff.mpr ⟨hmem, rfl⟩]
    rfl
  refine ⟨hget ?_, hget ?_, hget ?_, hget ?_, hget ?_⟩ <;> simp [answerMembers]

theorem item_modelDump {chunk : ChunkRecordV1} (position : Nat) {member : String × JsonValue}
    (h : chunk.dumpMembers[position]? = some member) :
    item chunk.modelDump member.1 = .ok member.2 := by
  have hmem := List.mem_of_getElem? h
  rw [← chunk.rows_modelDump] at hmem
  unfold item
  rw [Table.find?_eq_some_iff.mpr ⟨hmem, rfl⟩]
  rfl

variable {digest : String → String → JsonObject → String}
  {format : JsonValue → Except PyError String}

theorem answerEntry_modelDump (position : Nat) (chunk : ChunkRecordV1) :
    answerEntry format position chunk.modelDump =
      .ok ⟨evidenceOf position chunk, citationOf position chunk,
        s!"{chunk.text} [{position}]"⟩ := by
  unfold answerEntry
  rw [item_modelDump 0 rfl, item_modelDump 1 rfl, item_modelDump 2 rfl, item_modelDump 4 rfl,
    item_modelDump 5 rfl, item_modelDump 6 rfl, item_modelDump 3 rfl]
  rfl

theorem buildAnswer_of_entries {texts : AnswerTexts} {question : String} {scope : JsonObject}
    {chunks : List JsonObject} {entries : List AnswerEntry}
    (hne : chunks.isEmpty = false)
    (h : (chunks.zipIdx 1).mapM (fun numbered => answerEntry format numbered.2 numbered.1) =
      .ok entries) :
    buildAnswer digest format texts question scope chunks =
      .ok (.ofMembers (answerMembers (requestIdentity digest question scope texts.executionBoundary)
        "COMPLETED" (texts.answerPrefix ++ " ".intercalate (entries.map (·.part)))
          (entries.map (·.evidence)) (entries.map (·.citation)) texts.completedWarning)) := by
  unfold buildAnswer
  rw [hne, h]
  rfl

theorem entries_modelDump (quoted : List ChunkRecordV1) :
    ((quoted.map (·.modelDump)).zipIdx 1).mapM (fun numbered => answerEntry format numbered.2
      numbered.1) = .ok ((quoted.zipIdx 1).map fun numbered =>
        ⟨evidenceOf numbered.2 numbered.1, citationOf numbered.2 numbered.1,
          s!"{numbered.1.text} [{numbered.2}]"⟩) := by
  rw [mapM_eq_ok, List.zipIdx_map, List.forall₂_map_left_iff, List.forall₂_map_right_iff,
    List.forall₂_same]
  exact fun numbered _ => answerEntry_modelDump numbered.2 numbered.1

/-- The chunks of a snapshot always make an answer, and it quotes them. -/
theorem buildAnswer_modelDump (digest : String → String → JsonObject → String)
    (format : JsonValue → Except PyError String) (texts : AnswerTexts) (question : String)
    (scope : JsonObject) (quoted : List ChunkRecordV1) :
    ∃ answer,
      buildAnswer digest format texts question scope (quoted.map (·.modelDump)) = .ok answer ∧
      Quotes texts quoted answer := by
  by_cases hempty : quoted = []
  · subst hempty
    obtain ⟨hstatus, hwarnings, hevidence, hcitations, -⟩ :=
      get_answerMembers (requestIdentity digest question scope texts.executionBoundary)
      "NO_EVIDENCE" "当前授权文献范围内没有足够证据回答该问题。" [] [] texts.noEvidenceWarning
    exact ⟨_, rfl, hstatus, hwarnings, hevidence, hcitations, fun hne => absurd rfl hne⟩
  · have hne : quoted.isEmpty = false := by
      cases quoted with
      | nil => exact absurd rfl hempty
      | cons chunk rest => rfl
    refine ⟨_, buildAnswer_of_entries (List.isEmpty_map.trans hne) (entries_modelDump quoted), ?_⟩
    obtain ⟨hstatus, hwarnings, hevidence, hcitations, htext⟩ := get_answerMembers
      (requestIdentity digest question scope texts.executionBoundary) "COMPLETED" _ _ _
        texts.completedWarning
    refine ⟨hstatus.trans ?_, hwarnings.trans ?_, hevidence.trans ?_, hcitations.trans ?_,
      fun _ => htext.trans ?_⟩
    iterate 2
      · rw [hne]
        rfl
    all_goals
      rw [List.map_map]
      rfl

/-! ### The reranker keeps to its candidates -/

theorem rankByScores_subset {scores : ScoresValue} {candidates : List JsonObject} {topK : Int}
    {outcome : OnlineRerankOutcome} (hdistinct : (candidates.map chunkIdOf).Nodup)
    (h : rankByScores scores candidates topK = .ok outcome) :
    outcome.chunks ⊆ candidates ∧ (outcome.chunks.map chunkIdOf).Nodup ∧
    outcome.chunks.length ≤ topK.toNat := by
  unfold rankByScores at h
  obtain ⟨keys, -, h⟩ := bind_eq_ok.mp h
  obtain ⟨-, h⟩ := ensure_bind.mp h
  cases pure_eq_ok.mp h
  dsimp only
  have hperm := List.perm_insertionSort (keyLe keys) (List.range candidates.length)
  have hrange : ∀ p ∈ ((List.range candidates.length).insertionSort (keyLe keys)).take topK.toNat,
      p < candidates.length := fun p hp =>
    List.mem_range.mp (hperm.mem_iff.mp (List.mem_of_mem_take hp))
  refine ⟨fun chunk hchunk => ?_, ?_, ?_⟩
  · obtain ⟨p, -, hget⟩ := List.mem_filterMap.mp hchunk
    exact List.mem_of_getElem? hget
  · refine nodup_at_positions hdistinct
      ((hperm.nodup_iff.mpr List.nodup_range).sublist (List.take_sublist _ _)) hrange ?_
    exact map_some_filterMap fun p hp => by simpa using hrange p hp
  · exact (List.length_filterMap_le _ _).trans (List.length_take_le _ _)

/-- Whatever the titles and the scores are. -/
theorem rerank_subset {reranker : OnlineFixedCrossEncoderReranker} {fuel : Nat}
    {question ownerId : String} {candidates : List JsonObject} {documentIds : List String}
    {topK : Int} {outcome : OnlineRerankOutcome} (hdistinct : (candidates.map chunkIdOf).Nodup)
    (h : reranker.rerank fuel question candidates ownerId documentIds topK = some (.ok outcome)) :
    outcome.chunks ⊆ candidates ∧ (outcome.chunks.map chunkIdOf).Nodup ∧
    outcome.chunks.length ≤ topK.toNat := by
  have hfallback (failureCode : String) : let chunks :=
    (OnlineFixedCrossEncoderReranker.fallback candidates topK failureCode).chunks
      chunks ⊆ candidates ∧ (chunks.map chunkIdOf).Nodup ∧ chunks.length ≤ topK.toNat := by
    refine ⟨List.take_subset _ _, ?_, List.length_take_le _ _⟩
    exact hdistinct.sublist ((List.take_sublist _ _).map _)
  unfold OnlineFixedCrossEncoderReranker.rerank at h
  split at h
  · cases h
  · split at h
    · cases h
    · split at h
      · cases h
        exact ⟨List.nil_subset _, List.nodup_nil, Nat.zero_le _⟩
      · split at h
        · cases h
          exact hfallback _
        · split at h
          · cases h
            exact hfallback _
          · unfold applyScores at h
            split at h
            · cases h
            · cases h
            · cases h
              exact hfallback _
            · exact rankByScores_subset hdistinct (Option.some.inj h)

/-! ### Only the snapshot is quoted -/

section

open MilvusWriter (Surroundings)

variable {Score ν : Type} {env : Surroundings Score} {services : SearchServices env ν}
  {retriever : OnlineVersionRrfRetriever env.toFloatArithmetic} {world : SearchWorld Score}
  {request : SearchRequest} {staged : IndexBackend → IdentityDigest → List ChunkRecordV1}
  {ranking : List (RankedChunk env.toFloatArithmetic)}

theorem exists_map_eq {α β : Type} {f : α → β} {P : α → Prop} {ys : List β}
    (h : ∀ y ∈ ys, ∃ x, P x ∧ f x = y) : ∃ xs : List α, (∀ x ∈ xs, P x) ∧ xs.map f = ys := by
  induction ys with
  | nil => exact ⟨[], fun _ h => absurd h List.not_mem_nil, rfl⟩
  | cons y ys ih =>
    obtain ⟨x, hx, rfl⟩ := h y (List.mem_cons_self ..)
    obtain ⟨xs, hxs, rfl⟩ := ih fun y hy => h y (List.mem_cons_of_mem _ hy)
    exact ⟨x :: xs, List.forall_mem_cons.mpr ⟨hx, hxs⟩, rfl⟩

theorem length_finalCandidates (candidates : List (RankedChunk env.toFloatArithmetic)) (topK : Int)
    (selection : Option (Except PyError RouteCoveragePlan)) :
    (finalCandidates candidates topK selection).length ≤ topK.toNat := by
  have hfirst : (candidates.take topK.toNat).length ≤ topK.toNat := List.length_take_le _ _
  unfold finalCandidates
  match selection with
  | none => exact hfirst
  | some (.error e) => exact hfirst
  | some (.ok plan) =>
    dsimp only
    split
    · split
      · rename_i selected hselected
        obtain ⟨-, hlength, -⟩ := applySelection_ok hselected
        omega
      · exact hfirst
    · exact hfirst

/-- What a search returns are distinct chunks, and not more than it was asked for. -/
theorem search_distinct (h : retriever.search services world request = .ok ranking) :
    ((ranking.map (·.chunk)).map chunkIdOf).Nodup ∧ ranking.length ≤ request.topK.toNat := by
  unfold OnlineVersionRrfRetriever.search at h
  obtain ⟨-, h⟩ := check_bind.mp h
  obtain ⟨routes, -, h⟩ := bind_eq_ok.mp h
  obtain ⟨results, -, h⟩ := bind_eq_ok.mp h
  unfold finish at h
  obtain ⟨candidates, hfused, h⟩ := bind_eq_ok.mp h
  obtain rfl := conclude_ok h
  rw [List.map_map]
  exact ⟨(finalCandidates_source (fuse_ok hfused).1 _ _).1, length_finalCandidates _ _ _⟩

theorem resolveRoutes_requested {ownerId : String} {documentIds : List String}
    {routes : List OnlineVersionRoute}
    (h : resolveRoutes services world ownerId documentIds = .ok routes) :
    ReadyFor world.db ownerId (routes.map OnlineVersionRoute.key) ∧
    RequestedDocuments documentIds (routes.map OnlineVersionRoute.key) := by
  unfold resolveRoutes at h
  obtain ⟨versions, hversions, h⟩ := bind_eq_ok.mp h
  have hkeys : routes.map OnlineVersionRoute.key = versions.map Retrieval.versionKey := by
    rw [← List.forall₂_eq_eq_eq, List.forall₂_map_left_iff, List.forall₂_map_right_iff]
    exact (mapM_eq_ok.mp h).flip.imp fun route version hroute => (verifyRoute_ok hroute).2
  rw [hkeys]
  exact resolveReadyVersions_ok hversions

/-- What a search of written indexes returns are chunks as they stand in the snapshots of its
routes. -/
theorem search_snapshot (hascii : ReadsAsciiDigits env.unicode)
    (hfaithful : MilvusWriter.Faithful services.limited)
    (hwritten : WrittenWorld services world staged)
    (hcollisions : CollisionFree services retriever world request staged)
    (hlexical : HonestLexical env services.bm25) (hvector : HonestVector env services.nearest)
    (h : retriever.search services world request = .ok ranking) :
    ∃ routes chunks, Passes services retriever world request routes chunks ∧
      ∀ payload ∈ ranking.map (·.chunk), ∃ chunk,
        (∃ route ∈ routes, chunk ∈ routeChunks route chunks) ∧ chunk.modelDump = payload := by
  have hobserved :
      (retriever.withObservers retriever.latencyObserver retriever.candidateLadderObserver).search
        (services.withBackends services.bm25 services.nearest) world request = .ok ranking := h
  obtain ⟨routes, chunks, hpasses, hoffered⟩ := search_offered hobserved
  refine ⟨routes, chunks, hpasses, fun payload hpayload => ?_⟩
  obtain ⟨candidate, hcandidate, rfl⟩ := List.mem_map.mp hpayload
  obtain ⟨route, hroute, hoffered⟩ := hoffered hlexical hvector candidate hcandidate
  obtain ⟨chunk, hchunk, hsame⟩ :=
    (holdsSnapshot_of_written hascii hfaithful hwritten hcollisions hpasses hroute).offered hoffered
  exact ⟨chunk, ⟨route, hroute, hchunk⟩, hsame⟩

variable {reranker : Option OnlineFixedCrossEncoderReranker} {fuel : Nat}

theorem rerankRetrieved_subset {retrieved : List JsonObject} {outcome : OnlineRerankOutcome}
    (hdistinct : (retrieved.map chunkIdOf).Nodup)
    (hlength : retrieved.length ≤ (consumerRequest reranker request).topK.toNat)
    (h : rerankRetrieved reranker fuel request retrieved = some (.ok outcome)) :
    outcome.chunks ⊆ retrieved ∧ (outcome.chunks.map chunkIdOf).Nodup ∧
    outcome.chunks.length ≤ request.topK.toNat := by
  cases reranker with
  | none =>
    cases h
    exact ⟨List.Subset.refl _, hdistinct, hlength⟩
  | some reranker => exact rerank_subset hdistinct h

theorem map_chunkIdOf_modelDump (quoted : List ChunkRecordV1) :
    (quoted.map (·.modelDump)).map chunkIdOf = quoted.map (·.chunkId) := by
  rw [List.map_map]
  refine List.map_congr_left fun chunk _ => ?_
  rw [Function.comp_apply]
  exact chunkIdOf_modelDump chunk

/-- The answer quotes what was selected, and that is chunks of the snapshots of `READY` versions of
the owner, those of the documents if some are requested, each once, and no more of them than asked
for. -/
def QuotesSnapshot (db : Storage.Database) (request : SearchRequest) (texts : AnswerTexts)
    (selected : List JsonObject) (answer : JsonObject) : Prop :=
  ∃ (routes : List OnlineVersionRoute) (chunks quoted : List ChunkRecordV1),
    ReadyFor db request.ownerId (routes.map OnlineVersionRoute.key) ∧
    RequestedDocuments request.documentIds (routes.map OnlineVersionRoute.key) ∧
    Storage.loadOnlineChunks db request.ownerId (routes.map (·.documentVersionId)) = .ok chunks ∧
    (∀ chunk ∈ quoted, ∃ route ∈ routes, chunk ∈ routeChunks route chunks) ∧
    (quoted.map (·.chunkId)).Nodup ∧
    quoted.length ≤ request.topK.toNat ∧ quoted.map (·.modelDump) = selected ∧
    Quotes texts quoted answer

/-- The search, the reranker or the sink raised it. -/
def RaisedBefore (services : SearchServices env ν)
    (retriever : OnlineVersionRrfRetriever env.toFloatArithmetic) (world : SearchWorld Score)
    (reranker : Option OnlineFixedCrossEncoderReranker) (fuel : Nat)
    (observationSink : Option (OnlineRetrievalObservation → Except PyError Unit))
    (request : SearchRequest) (e : PyError) : Prop :=
  retriever.search services world (consumerRequest reranker request) = .error e ∨
    ∃ ranking, retriever.search services world (consumerRequest reranker request) = .ok ranking ∧
      (rerankRetrieved reranker fuel request (ranking.map (·.chunk)) = some (.error e) ∨
        ∃ outcome,
          rerankRetrieved reranker fuel request (ranking.map (·.chunk)) = some (.ok outcome) ∧
          observed observationSink outcome = .error e)

theorem answerOnlineReadyQuestion_cases
    {observationSink : Option (OnlineRetrievalObservation → Except PyError Unit)}
    {answered : Except PyError JsonObject}
    (h : answerOnlineReadyQuestion digest format services retriever world reranker fuel
      observationSink request = some answered) :
    (∃ e, answered = .error e ∧
      RaisedBefore services retriever world reranker fuel observationSink request e) ∨
      ∃ ranking outcome,
        retriever.search services world (consumerRequest reranker request) = .ok ranking ∧
        rerankRetrieved reranker fuel request (ranking.map (·.chunk)) = some (.ok outcome) ∧
        answered = buildAnswer digest format (onlineTexts outcome.status) request.question
          request.scope outcome.chunks := by
  unfold answerOnlineReadyQuestion at h
  split at h
  · rename_i e hsearch
    cases h
    exact .inl ⟨e, rfl, .inl hsearch⟩
  · rename_i ranking hsearch
    obtain ⟨reranked, hreranked, rfl⟩ := Option.map_eq_some_iff.mp h
    cases reranked with
    | error e => exact .inl ⟨e, rfl, .inr ⟨ranking, hsearch, .inl hreranked⟩⟩
    | ok outcome =>
      cases hsink : observed observationSink outcome with
      | error e =>
        exact .inl ⟨e, bind_eq_error.mpr (.inr ⟨outcome, rfl, bind_eq_error.mpr (.inl hsink)⟩),
          .inr ⟨ranking, hsearch, .inr ⟨outcome, hreranked, hsink⟩⟩⟩
      | ok seen =>
        refine .inr ⟨ranking, outcome, hsearch, hreranked, ?_⟩
        show (observed observationSink outcome >>= fun _ => _) = _
        rw [hsink]
        rfl

/-- If only the writers wrote the indexes, then an answer quotes the snapshots word for word, and
building it raises nothing: what is raised comes from the search, the reranker or the sink. -/
theorem online_answer_quotes_snapshot (digest : String → String → JsonObject → String)
    (format : JsonValue → Except PyError String) (services : SearchServices env ν)
    (retriever : OnlineVersionRrfRetriever env.toFloatArithmetic) (world : SearchWorld Score)
    (reranker : Option OnlineFixedCrossEncoderReranker) (fuel : Nat)
    (observationSink : Option (OnlineRetrievalObservation → Except PyError Unit))
    (request : SearchRequest) (staged : IndexBackend → IdentityDigest → List ChunkRecordV1)
    (hascii : ReadsAsciiDigits env.unicode)
    (hfaithful : MilvusWriter.Faithful services.limited)
    (hwritten : WrittenWorld services world staged)
    (hcollisions : CollisionFree services retriever world (consumerRequest reranker request) staged)
    (hlexical : HonestLexical env services.bm25) (hvector : HonestVector env services.nearest) :
    (∀ answer, answerOnlineReadyQuestion digest format services retriever world reranker fuel
      observationSink request = some (.ok answer) → ∃ ranking outcome,
        retriever.search services world (consumerRequest reranker request) = .ok ranking ∧
        rerankRetrieved reranker fuel request (ranking.map (·.chunk)) = some (.ok outcome) ∧
        QuotesSnapshot world.db request (onlineTexts outcome.status) outcome.chunks answer) ∧
    ∀ e, answerOnlineReadyQuestion digest format services retriever world reranker fuel
      observationSink request = some (.error e) →
      RaisedBefore services retriever world reranker fuel observationSink request e := by
  have hbuilt {ranking : List (RankedChunk env.toFloatArithmetic)} {outcome : OnlineRerankOutcome}
      (hsearch : retriever.search services world (consumerRequest reranker request) = .ok ranking)
      (hreranked : rerankRetrieved reranker fuel request (ranking.map (·.chunk)) =
        some (.ok outcome)) :
      ∃ answer, buildAnswer digest format (onlineTexts outcome.status) request.question
        request.scope outcome.chunks = .ok answer ∧
        QuotesSnapshot world.db request (onlineTexts outcome.status) outcome.chunks answer := by
    obtain ⟨hdistinct, hlength⟩ := search_distinct hsearch
    obtain ⟨hsubset, hnodup, hbound⟩ := rerankRetrieved_subset hdistinct (by rwa [List.length_map])
      hreranked
    obtain ⟨routes, chunks, hpasses, hsnapshot⟩ :=
      search_snapshot hascii hfaithful hwritten hcollisions hlexical hvector hsearch
    obtain ⟨quoted, hquoted, hchunks⟩ := exists_map_eq fun payload hpayload =>
      hsnapshot payload (hsubset hpayload)
    obtain ⟨answer, hanswer, hquotes⟩ :=
      buildAnswer_modelDump digest format (onlineTexts outcome.status) request.question
        request.scope quoted
    obtain ⟨hready, hrequested⟩ := resolveRoutes_requested hpasses.resolved
    rw [hchunks] at hanswer
    rw [← hchunks, map_chunkIdOf_modelDump] at hnodup
    rw [← hchunks, List.length_map] at hbound
    exact ⟨answer, hanswer, routes, chunks, quoted, hready, hrequested,
      repositoryCall_ok hpasses.loaded, hquoted, hnodup, hbound, hchunks, hquotes⟩
  refine ⟨fun answer h => ?_, fun e h => ?_⟩
  · rcases answerOnlineReadyQuestion_cases h with ⟨e, he, -⟩ | ⟨ranking, outcome, hsearch,
      hreranked, hanswer⟩
    · cases he
    · obtain ⟨built, heq, hquotes⟩ := hbuilt hsearch hreranked
      cases hanswer.trans heq
      exact ⟨ranking, outcome, hsearch, hreranked, hquotes⟩
  · rcases answerOnlineReadyQuestion_cases h with ⟨e', he, hraised⟩ | ⟨ranking, outcome, hsearch,
      hreranked, hanswer⟩
    · cases he
      exact hraised
    · obtain ⟨built, heq, -⟩ := hbuilt hsearch hreranked
      cases hanswer.trans heq

end

/-! ### A reranked answer -/

/-- A reranker that likes the chunk. -/
def sampleReranker : OnlineFixedCrossEncoderReranker := rerankerOf (listScores [1 / 4])

/-- The first twenty digits of the SHA-256 of the request below. -/
def sampleRequestDigest (_ _ : String) (_ : JsonObject) : String := "27693493deb5cbcd6642"

def sampleAnswered : Option (Except PyError JsonObject) :=
  answerOnlineReadyQuestion sampleRequestDigest (fun _ => .error ⟨.typeError, "not a string"⟩)
    exactServices sampleRetriever writtenWorld (some sampleReranker) 2 none servedRequest

/-- The text and the number of quotes of an answer. -/
def answerText (answered : Option (Except PyError JsonObject)) : Option (String × Nat) := do
  let answer ← answered.bind Except.toOption
  let text ← (answer.get "answer").str?
  return (text, (answer.get "evidence").items.length)

theorem online_answer_quotes_snapshot_reranked : ∃ answer, sampleAnswered = some (.ok answer) ∧
    answerText sampleAnswered = some ("依据 PostgreSQL READY 门禁下的 ES/Milvus 证据：text [1]", 1) ∧
    ∃ status selected, QuotesSnapshot writtenWorld.db servedRequest (onlineTexts status) selected
      answer := by
  have hascii : ReadsAsciiDigits exactSurroundings.unicode := asciiTables_readsAsciiDigits
  have hfaithful : MilvusWriter.Faithful exactServices.limited := fun _ _ _ =>
    ⟨(List.take_sublist _ _).subperm, List.length_take⟩
  have hcollisions : CollisionFree exactServices sampleRetriever writtenWorld
      (consumerRequest (some sampleReranker) servedRequest) fun _ _ => [sampleRecord] := by
    intro routes chunks hpasses route hroute backend digest _
    have hkeys : routeKeys writtenWorld = some [("owner_1", "doc_1", "version_1")] := by
      decide +kernel
    unfold stagedSourceChunks
    rw [(published_snapshot rfl hkeys hpasses.resolved hpasses.loaded).2 route hroute]
    rfl
  have htext : answerText sampleAnswered = some ("依据 PostgreSQL READY 门禁下的 ES/Milvus 证据：text [1]",
      1) := by decide +kernel
  obtain ⟨answer, hanswered⟩ : ∃ answer, sampleAnswered = some (.ok answer) := by
    cases h : sampleAnswered with
    | none => rw [h] at htext; cases htext
    | some answered =>
      cases answered with
      | ok answer => exact ⟨answer, rfl⟩
      | error e => rw [h] at htext; cases htext
  obtain ⟨ranking, outcome, -, -, hquotes⟩ :=
    (online_answer_quotes_snapshot sampleRequestDigest
      (fun _ => .error ⟨.typeError, "not a string"⟩)
    exactServices sampleRetriever writtenWorld (some sampleReranker) 2 none servedRequest
      (fun _ _ => [sampleRecord]) hascii hfaithful writtenWorld_written
    hcollisions honest_exactServices.1 honest_exactServices.2).1 answer hanswered
  exact ⟨answer, hanswered, htext, outcome.status, outcome.chunks, hquotes⟩

end ZhiyanRag.Rag
