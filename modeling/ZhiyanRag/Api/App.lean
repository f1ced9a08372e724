import ZhiyanRag.Base
import ZhiyanRag.Retrieval.Fixture

/-!
# Narrowing a scope to a request

`create_rag_answer` accepts a request if every requested document has a chunk authorized under the
base scope, and answers under `_narrow_scope`: the requested documents become the only selectors.
The check is per document and authorization is per chunk, so a document that mixes libraries,
or private chunks with others, is widened (`narrowing_widens`). `NarrowsWithin` is when it is not.
-/

namespace ZhiyanRag.Api

open Relational ZhiyanRag.Retrieval

structure RagAnswerRequestV1 where
  question : String
  documentIds : List ContractId
  stripped : stripWhitespace question = question
  length : 1 ≤ question.length ∧ question.length ≤ 4000
  unique : documentIds.Nodup

namespace RagAnswerRequestV1

/-- `payload.document_ids` as plain strings. -/
def requested (payload : RagAnswerRequestV1) : List String := payload.documentIds.map (·.val)

theorem requested_ne_empty {payload : RagAnswerRequestV1} {d : String} (h : d ∈ payload.requested) :
    d ≠ "" := by
  obtain ⟨⟨id, hid⟩, -, rfl⟩ := List.mem_map.mp h
  rintro rfl
  cases hid

end RagAnswerRequestV1

/-- The status and the body of `_error_response`, less the random request identifier. -/
structure ErrorResponse where
  statusCode : Nat
  code : String
  message : String
  retryable : Bool
  deriving DecidableEq

/-- `_narrow_scope`. -/
def narrowScope (baseScope : JsonObject) (documentIds : List String) : JsonObject :=
  if documentIds.isEmpty then baseScope
  else ((baseScope.put "document_ids" (.array (documentIds.map .str))).put "library_ids"
    (.array [])).put "folder_ids" (.array [])

/-- `create_rag_answer` on a backend other than `online_remote_rrf`; `answer` is the backend's
answer function, with `apply_real_generation` if a provider is configured. -/
def createRagAnswer {α : Type} (answer : String → JsonObject → List JsonObject → α)
    (chunks : List JsonObject) (baseScope : JsonObject) (payload : RagAnswerRequestV1) :
    Except ErrorResponse α :=
  let authorizedDocumentIds :=
    (filterAuthorizedChunks chunks baseScope).filterMap fun chunk => (chunk.get "document_id").str?
  if payload.requested.all authorizedDocumentIds.contains then
    .ok (answer payload.question (narrowScope baseScope payload.requested) chunks)
  else .error ⟨403, "RAG_FORBIDDEN_SCOPE", "请求包含未授权文档。", false⟩

/-- Of the documents that are requested and that the base scope does not name: every admitted chunk
carries a library of the base scope, if that has any; and none is private, if the base scope has no
selectors. -/
def NarrowsWithin (chunks : List JsonObject) (baseScope : JsonObject)
    (documentIds : List String) : Prop :=
  ∀ chunk ∈ chunks, isServable chunk = true → admits chunk baseScope = true → ∀ d ∈ documentIds,
    (chunk.get "document_id").str? = some d → d ∉ (baseScope.get "document_ids").stringSet →
      ((baseScope.get "library_ids").stringSet ≠ [] →
        ∃ l ∈ (chunk.get "library_scope_ids").stringSet,
          l ∈ (baseScope.get "library_ids").stringSet) ∧
      (hasSelectors baseScope = false → isPrivate chunk = false)

/-! ### The narrowed scope -/

section

variable {chunk baseScope : JsonObject} {documentIds : List String}

theorem narrowScope_other (hne : documentIds ≠ []) {field : String}
    (hdocument : "document_ids" ≠ field) (hlibrary : "library_ids" ≠ field)
    (hfolder : "folder_ids" ≠ field) :
    (narrowScope baseScope documentIds).get field = baseScope.get field := by
  unfold narrowScope
  rw [if_neg (by simpa using hne), JsonObject.get_put_ne _ _ hfolder,
    JsonObject.get_put_ne _ _ hlibrary, JsonObject.get_put_ne _ _ hdocument]

theorem narrowScope_documents (hne : documentIds ≠ []) (hids : ∀ d ∈ documentIds, d ≠ "") :
    ((narrowScope baseScope documentIds).get "document_ids").stringSet = documentIds := by
  unfold narrowScope
  rw [if_neg (by simpa using hne), JsonObject.get_put_ne _ _ (by decide),
    JsonObject.get_put_ne _ _ (by decide), JsonObject.get_put_self]
  simp only [JsonValue.stringSet, List.filterMap_map, Function.comp_def, JsonValue.str?]
  refine (List.filterMap_congr fun d hd => ?_).trans List.filterMap_some
  simp [Option.filter, hids d hd]

theorem narrowScope_libraries (hne : documentIds ≠ []) :
    ((narrowScope baseScope documentIds).get "library_ids").stringSet = [] := by
  unfold narrowScope
  rw [if_neg (by simpa using hne), JsonObject.get_put_ne _ _ (by decide), JsonObject.get_put_self]
  rfl

theorem admits_narrow (hne : documentIds ≠ []) :
    admits chunk (narrowScope baseScope documentIds) = admits chunk baseScope := by
  unfold admits sameTenant
  rw [narrowScope_other hne (by decide) (by decide) (by decide),
    narrowScope_other hne (by decide) (by decide) (by decide)]

/-- Narrowing replaces lists by lists. -/
theorem hasRequiredScopeFields_narrow (h : hasRequiredScopeFields baseScope = true) :
    hasRequiredScopeFields (narrowScope baseScope documentIds) = true := by
  by_cases hne : documentIds = []
  · subst hne
    exact h
  · unfold hasRequiredScopeFields at h ⊢
    simp only [List.all_cons, List.all_nil, Bool.and_true, Bool.and_eq_true] at h ⊢
    obtain ⟨⟨huser, -⟩, hpublic⟩ := h
    refine ⟨⟨?_, ?_⟩, ?_⟩
    · rw [narrowScope_other hne (by decide) (by decide) (by decide),
        narrowScope_other hne (by decide) (by decide) (by decide),
        narrowScope_other hne (by decide) (by decide) (by decide)]
      exact huser
    · unfold narrowScope
      rw [if_neg (by simpa using hne)]
      simp [JsonObject.get_put_ne, JsonValue.isList]
    · rw [narrowScope_other hne (by decide) (by decide) (by decide)]
      exact hpublic

/-- Under the narrowed scope, the admitted chunks of the requested documents are authorized. -/
theorem isChunkAuthorized_narrow (hne : documentIds ≠ []) (hids : ∀ d ∈ documentIds, d ≠ "")
    (hbase : hasRequiredScopeFields baseScope = true) :
    isChunkAuthorized chunk (narrowScope baseScope documentIds) = true ↔
      isServable chunk = true ∧ admits chunk baseScope = true ∧
        ∃ d ∈ documentIds, (chunk.get "document_id").str? = some d := by
  have hselectors : hasSelectors (narrowScope baseScope documentIds) ≠ false := by
    intro hnone
    have hdocuments := (hasSelectors_eq_false.mp hnone).1
    rw [narrowScope_documents hne hids] at hdocuments
    exact hne hdocuments
  rw [isChunkAuthorized_iff, matchesSelectedScope_iff, narrowScope_documents hne hids,
    narrowScope_libraries hne, admits_narrow hne]
  simp [hasRequiredScopeFields_narrow hbase, hselectors]

end

/-! ### Narrowing and the base scope -/

theorem createRagAnswer_ok {α : Type} {answer : String → JsonObject → List JsonObject → α}
    {chunks : List JsonObject} {baseScope : JsonObject} {payload : RagAnswerRequestV1} {result : α}
    (h : createRagAnswer answer chunks baseScope payload = .ok result) {d : String}
    (hd : d ∈ payload.requested) :
    ∃ chunk ∈ chunks, isChunkAuthorized chunk baseScope = true ∧
    (chunk.get "document_id").str? = some d := by
  unfold createRagAnswer at h
  simp only at h
  split at h
  · rename_i haccepted
    have hmem := List.all_eq_true.mp haccepted d hd
    rw [List.contains_iff_mem, List.mem_filterMap] at hmem
    obtain ⟨chunk, hchunk, hdocument⟩ := hmem
    obtain ⟨hchunk, hauthorized⟩ := List.mem_filter.mp hchunk
    exact ⟨chunk, hchunk, hauthorized, hdocument⟩
  · cases h

/-- For an accepted request, narrowing authorizes only what the base scope authorizes exactly if the
requested documents that the base scope does not name are within its libraries, and not private
where it has no selectors. -/
theorem narrowing_iff {α : Type} {answer : String → JsonObject → List JsonObject → α}
    {chunks : List JsonObject} {baseScope : JsonObject} {payload : RagAnswerRequestV1} {result : α}
    (h : createRagAnswer answer chunks baseScope payload = .ok result) :
    (∀ chunk ∈ chunks, isChunkAuthorized chunk (narrowScope baseScope payload.requested) = true →
      isChunkAuthorized chunk baseScope = true) ↔
      NarrowsWithin chunks baseScope payload.requested := by
  by_cases hne : payload.requested = []
  · -- nothing is requested: the scope stays as it is
    rw [hne]
    exact ⟨fun _ _ _ _ _ _ hd => absurd hd List.not_mem_nil, fun _ _ _ h => h⟩
  have hids : ∀ d ∈ payload.requested, d ≠ "" := fun d hd =>
    RagAnswerRequestV1.requested_ne_empty hd
  have hbase : hasRequiredScopeFields baseScope = true := by
    obtain ⟨d, hd⟩ := List.exists_mem_of_ne_nil _ hne
    obtain ⟨chunk, -, hauthorized, -⟩ := createRagAnswer_ok h hd
    exact (isChunkAuthorized_iff.mp hauthorized).2.1
  constructor
  · intro hwithin chunk hchunk hservable hadmits d hd hdocument hunnamed
    have hauthorized := hwithin chunk hchunk
      ((isChunkAuthorized_narrow hne hids hbase).mpr ⟨hservable, hadmits, d, hd, hdocument⟩)
    obtain ⟨-, -, -, hmatches | ⟨hselectors, hprivate⟩⟩ := isChunkAuthorized_iff.mp hauthorized
    · rcases matchesSelectedScope_iff.mp hmatches with ⟨d', hd', hdocument'⟩ | ⟨l, hl, hlibrary⟩
      · cases hdocument.symm.trans hdocument'
        exact absurd hd' hunnamed
      · refine ⟨fun _ => ⟨l, hl, hlibrary⟩, fun hselectors => ?_⟩
        rw [(hasSelectors_eq_false.mp hselectors).2.1] at hlibrary
        cases hlibrary
    · exact ⟨fun hlibraries => absurd (hasSelectors_eq_false.mp hselectors).2.1 hlibraries,
        fun _ => hprivate⟩
  · intro hwithin chunk hchunk hnarrow
    obtain ⟨hservable, hadmits, d, hd, hdocument⟩ :=
      (isChunkAuthorized_narrow hne hids hbase).mp hnarrow
    refine isChunkAuthorized_iff.mpr ⟨hservable, hbase, hadmits, ?_⟩
    by_cases hnamed : d ∈ (baseScope.get "document_ids").stringSet
    · exact .inl (matchesSelectedScope_iff.mpr (.inl ⟨d, hnamed, hdocument⟩))
    · obtain ⟨hlibraries, hprivate⟩ := hwithin chunk hchunk hservable hadmits d hd hdocument hnamed
      -- the request was accepted for another chunk of the document, by a library or without
      -- selectors
      obtain ⟨other, -, hother, hotherDocument⟩ := createRagAnswer_ok h hd
      obtain ⟨-, -, -, hmatches | ⟨hselectors, -⟩⟩ := isChunkAuthorized_iff.mp hother
      · rcases matchesSelectedScope_iff.mp hmatches
          with ⟨d', hd', hotherDocument'⟩ | ⟨l, -, hlibrary⟩
        · cases hotherDocument.symm.trans hotherDocument'
          exact absurd hd' hnamed
        · exact .inl (matchesSelectedScope_iff.mpr
            (.inr (hlibraries (List.ne_nil_of_mem hlibrary))))
      · exact .inr ⟨hselectors, hprivate hselectors⟩

/-! ### One document, two libraries -/

/-- The scope of the checked-in fixture. -/
def sampleScope : JsonObject :=
  .ofMembers [("user_id", .str "user_fixture"), ("tenant_id", .str "tenant_fixture"),
    ("library_ids", .array [.str "lib_fixture"]), ("folder_ids", .array []),
    ("document_ids", .array []),
    ("include_public", .bool false), ("acl_version", .str "acl_fixture_v1")]

/-- A chunk of one document, in the given library. -/
def sampleChunk (chunkId libraryId : String) : JsonObject :=
  .ofMembers [("chunk_id", .str chunkId), ("document_id", .str "doc_1"),
    ("version_id", .str "version_1"), ("text", .str "text"), ("section_path", .str "1"),
    ("page_start", .int 1), ("page_end", .int 1), ("tenant_id", .str "tenant_fixture"),
    ("visibility", .str "private"), ("library_scope_ids", .array [.str libraryId]),
    ("is_active", .bool true)]

/-- A request for the document. -/
def samplePayload : RagAnswerRequestV1 where
  question := "question"
  documentIds := [fixedId "doc_1"]
  stripped := by decide
  length := by decide
  unique := by decide

theorem narrowing_iff_one_library :
    [sampleChunk "chunk_1" "lib_fixture", sampleChunk "chunk_2" "lib_fixture"].Forall fun chunk =>
      (!isChunkAuthorized chunk (narrowScope sampleScope samplePayload.requested) ||
        isChunkAuthorized chunk sampleScope) = true := by
  have haccepted : createRagAnswer (fun _ _ _ => ())
      [sampleChunk "chunk_1" "lib_fixture", sampleChunk "chunk_2" "lib_fixture"] sampleScope
        samplePayload = .ok () := by decide +kernel
  rw [List.forall_iff_forall_mem]
  intro chunk hchunk
  rw [Bool.or_eq_true, Bool.not_eq_true', ← Bool.not_eq_true, ← imp_iff_not_or]
  refine (narrowing_iff haccepted).mpr (fun chunk hchunk _ _ d _ _ _ => ?_) chunk hchunk
  have hlibraries : (sampleScope.get "library_ids").stringSet = ["lib_fixture"] := by decide +kernel
  have hcarries : (chunk.get "library_scope_ids").stringSet = ["lib_fixture"] := by
    simp only [List.mem_cons, List.not_mem_nil, or_false] at hchunk
    rcases hchunk with rfl | rfl <;> decide +kernel
  refine ⟨fun _ => ?_, fun hselectors => ?_⟩
  · rw [hlibraries, hcarries]
    exact ⟨"lib_fixture", List.mem_singleton_self _, List.mem_singleton_self _⟩
  · rw [(hasSelectors_eq_false.mp hselectors).2.1] at hlibraries
    cases hlibraries

/-- The document has a chunk in the scope's library and another one outside: the request is
accepted, and the chunk outside is authorized under the narrowed scope. -/
theorem narrowing_widens :
    let chunks := [sampleChunk "chunk_1" "lib_fixture", sampleChunk "chunk_2" "lib_other"]
    createRagAnswer (fun _ _ _ => ()) chunks sampleScope samplePayload = .ok () ∧
      hasRequiredScopeFields sampleScope = true ∧
      ∃ chunk ∈ chunks,
        isChunkAuthorized chunk (narrowScope sampleScope samplePayload.requested) = true ∧
        isChunkAuthorized chunk sampleScope = false := by
  refine ⟨by decide +kernel, by decide +kernel, sampleChunk "chunk_2" "lib_other", ?_,
    by decide +kernel, by decide +kernel⟩
  exact List.mem_cons_of_mem _ (List.mem_singleton_self _)

end ZhiyanRag.Api
