import Mathlib.Data.List.Dedup
import Mathlib.Tactic.Tauto
import ZhiyanRag.Retrieval.Milvus

/-!
# The three authorizations

A scope is turned into an Elasticsearch query and into a Milvus expression, and every hit is checked
again by `is_chunk_authorized`. On a well-formed scope both filters say what visibility, tenant and
selectors say (`Allows`); `is_chunk_authorized` asks in addition for the required fields of the
chunk. Elasticsearch checks them before it indexes a chunk, Milvus does not check `version_id` and
the pages.
-/

namespace ZhiyanRag.Retrieval

open ZhiyanRag.Ingestion

/-! ### Policy -/

/-- The lists of the scope hold non-empty strings only. -/
def IdsWellFormed (scope : JsonObject) : Prop :=
  ∀ field ∈ ["document_ids", "library_ids", "folder_ids"], ∀ items, scope.get field = .array items →
    ∀ item ∈ items, item.isNonemptyStr = true

/-- The policy, apart from the required fields of the chunk. -/
def Allows (chunk scope : JsonObject) : Prop :=
  hasRequiredScopeFields scope = true ∧ (chunk.get "is_active").isTrue = true ∧
    admits chunk scope = true ∧
    (matchesSelectedScope chunk scope = true ∨
      (hasSelectors scope = false ∧ isPrivate chunk = false))

theorem isChunkAuthorized_iff_allows {chunk scope : JsonObject} :
    isChunkAuthorized chunk scope = true ↔ hasRequiredChunkFields chunk = true ∧
    Allows chunk scope := by
  rw [isChunkAuthorized_iff]
  unfold isServable Allows
  rw [Bool.and_eq_true]
  tauto

section Scope

variable {scope : JsonObject} {filter : FilterScope} {field : String} {values : List String}

theorem stringList_ok (h : stringList scope field = some values) :
    (scope.get field).isList = true ∧ (∀ items, scope.get field = .array items →
      ∀ item ∈ items, item.isNonemptyStr = true) ∧ ∀ id, id ∈ values ↔
      id ∈ (scope.get field).stringSet := by
  unfold stringList at h
  split at h
  · rename_i items hitems
    split at h
    · rename_i hall
      cases h
      rw [hitems]
      have hnonempty := List.all_eq_true.mp hall
      refine ⟨rfl, fun _ h => JsonValue.array.inj h ▸ hnonempty, fun id => ?_⟩
      rw [List.mem_insertionSort, List.mem_dedup]
      have hfilter : items.filterMap JsonValue.str? =
          items.filterMap fun item => item.str?.filter fun s => decide (s ≠ "") := by
        refine List.filterMap_congr fun item hitem => ?_
        obtain ⟨s, hs, hne⟩ := (Option.any_eq_true _ _).mp (hnonempty item hitem)
        simp only [hs, Option.filter, hne, if_true]
      rw [hfilter]
      rfl
    · cases h
  · cases h

/-- A list of a well-formed scope is read. -/
theorem stringList_wellFormed (hids : IdsWellFormed scope)
    (hfield : field ∈ ["document_ids", "library_ids", "folder_ids"])
    (hlist : (scope.get field).isList = true) :
    ∃ values, stringList scope field = some values := by
  cases hvalue : scope.get field with
  | array items =>
    have hall : items.all JsonValue.isNonemptyStr = true :=
      List.all_eq_true.mpr (hids field hfield items hvalue)
    unfold stringList
    rw [hvalue]
    exact ⟨_, if_pos hall⟩
  | _ =>
    rw [hvalue] at hlist
    cases hlist

/-- A filter compares with the identifiers of a well-formed scope. -/
structure Reads (scope : JsonObject) (filter : FilterScope) : Prop where
  required : hasRequiredScopeFields scope = true
  wellFormed : IdsWellFormed scope
  tenant : (scope.get "tenant_id").str? = some filter.tenantId
  isPublic : filter.includePublic = (scope.get "include_public").isTrue
  documents : ∀ id, id ∈ filter.documentIds ↔ id ∈ (scope.get "document_ids").stringSet
  libraries : ∀ id, id ∈ filter.libraryIds ↔ id ∈ (scope.get "library_ids").stringSet
  folders : ∀ id, id ∈ filter.folderIds ↔ id ∈ (scope.get "folder_ids").stringSet

theorem readScope_ok (h : readScope scope = some filter) : Reads scope filter := by
  obtain ⟨tenantId, htenant, h⟩ := Option.bind_eq_some_iff.mp h
  obtain ⟨documentIds, hdocuments, h⟩ := Option.bind_eq_some_iff.mp h
  obtain ⟨libraryIds, hlibraries, h⟩ := Option.bind_eq_some_iff.mp h
  obtain ⟨folderIds, hfolders, h⟩ := Option.bind_eq_some_iff.mp h
  obtain ⟨hdocumentList, hdocumentIds, hdocumentMem⟩ := stringList_ok hdocuments
  obtain ⟨hlibraryList, hlibraryIds, hlibraryMem⟩ := stringList_ok hlibraries
  obtain ⟨hfolderList, hfolderIds, hfolderMem⟩ := stringList_ok hfolders
  split at h
  · rename_i hrest
    cases h
    simp only [Bool.and_eq_true] at hrest
    obtain ⟨⟨⟨huser, hne⟩, hacl⟩, hpublic⟩ := hrest
    have hnonempty : (scope.get "tenant_id").isNonemptyStr = true := by
      unfold JsonValue.isNonemptyStr
      rw [htenant]
      exact hne
    refine ⟨?_, ?_, htenant, rfl, hdocumentMem, hlibraryMem, hfolderMem⟩
    · simp [hasRequiredScopeFields, huser, hnonempty, hacl, hdocumentList, hlibraryList,
        hfolderList, hpublic]
    · unfold IdsWellFormed
      simp only [List.mem_cons, List.not_mem_nil, or_false, forall_eq_or_imp, forall_eq]
      exact ⟨hdocumentIds, hlibraryIds, hfolderIds⟩
  · cases h

theorem readScope_none (h : readScope scope = none) :
    ¬(hasRequiredScopeFields scope = true ∧ IdsWellFormed scope) := by
  rintro ⟨hrequired, hids⟩
  simp only [hasRequiredScopeFields, List.all_cons, List.all_nil, Bool.and_true, Bool.and_eq_true]
    at hrequired
  obtain ⟨⟨⟨huser, htenant, hacl⟩, hlibraryList, hfolderList, hdocumentList⟩, hpublic⟩ := hrequired
  obtain ⟨tenantId, hsome, hne⟩ := (Option.any_eq_true _ _).mp htenant
  obtain ⟨documentIds, hdocuments⟩ := stringList_wellFormed hids (by simp) hdocumentList
  obtain ⟨libraryIds, hlibraries⟩ := stringList_wellFormed hids (by simp) hlibraryList
  obtain ⟨folderIds, hfolders⟩ := stringList_wellFormed hids (by simp) hfolderList
  unfold readScope at h
  simp only [hsome, hdocuments, hlibraries, hfolders, huser, hne, hacl, hpublic,
    Option.bind_eq_bind, Option.bind_some, Bool.and_true, if_true] at h
  cases h

namespace Reads

theorem noSelectors_iff (h : Reads scope filter) : hasSelectors scope = false ↔
    filter.documentIds = [] ∧ filter.libraryIds = [] ∧ filter.folderIds = [] := by
  rw [hasSelectors_eq_false]
  simp only [List.eq_nil_iff_forall_not_mem, h.documents, h.libraries, h.folders]

theorem matches_iff (h : Reads scope filter) {chunk : JsonObject} :
    matchesSelectedScope chunk scope = true ↔
    (∃ d ∈ filter.documentIds, (chunk.get "document_id").str? = some d) ∨
      ∃ l ∈ (chunk.get "library_scope_ids").stringSet, l ∈ filter.libraryIds := by
  rw [matchesSelectedScope_iff]
  simp only [h.documents, h.libraries]

end Reads

end Scope

/-! ### What the filters say -/

/-- What both `_validate_chunks` check. -/
structure Indexable (chunk : JsonObject) : Prop where
  strings : ∀ field ∈ ["chunk_id", "document_id", "tenant_id", "visibility", "section_path",
    "text"], (chunk.get field).isNonemptyStr = true
  libraries : ∃ items, chunk.get "library_scope_ids" = .array items ∧ ∀ item ∈ items,
    item.isNonemptyStr = true
  active : (chunk.get "is_active").isBool = true

section Filters

variable {chunk scope : JsonObject} {filter : FilterScope}

theorem isNonemptyStr_iff {value : JsonValue} : value.isNonemptyStr = true ↔ ∃ s, value = .str s ∧
    s ≠ "" := by
  unfold JsonValue.isNonemptyStr
  rw [Option.any_eq_true]
  simp only [JsonValue.str?_eq_some, decide_eq_true_eq]

theorem Indexable.str (h : Indexable chunk) (field : String)
    (hfield : field ∈ ["chunk_id", "document_id", "tenant_id", "visibility", "section_path",
      "text"]) :
    ∃ s, chunk.get field = .str s := by
  obtain ⟨s, hs, -⟩ := isNonemptyStr_iff.mp (h.strings field hfield)
  exact ⟨s, hs⟩

/-- An admitted chunk is chosen by the selectors, or it is not private and there are none. -/
theorem allows_iff (hrequired : hasRequiredScopeFields scope = true) : Allows chunk scope ↔
    (chunk.get "is_active").isTrue = true ∧
      (((chunk.get "visibility").str? = some "public" ∧ (scope.get "include_public").isTrue = true ∧
          (hasSelectors scope = false ∨ matchesSelectedScope chunk scope = true)) ∨
        ((chunk.get "visibility").str? = some "tenant" ∧ sameTenant chunk scope = true ∧
          (hasSelectors scope = false ∨ matchesSelectedScope chunk scope = true)) ∨
        ((chunk.get "visibility").str? = some "private" ∧ sameTenant chunk scope = true ∧
          matchesSelectedScope chunk scope = true)) := by
  unfold Allows admits isPrivate
  rw [hrequired]
  split <;> simp_all <;> tauto

end Filters

namespace Elasticsearch

namespace Query

variable {document : JsonObject}

theorem allHold_iff {queries : List Query} :
    allHold document queries = true ↔ ∀ query ∈ queries, holds document query = true := by
  induction queries with
  | nil => simp [allHold]
  | cons query queries ih => simp [allHold, ih]

theorem countHolds_pos {queries : List Query} :
    1 ≤ countHolds document queries ↔ ∃ query ∈ queries, holds document query = true := by
  induction queries with
  | nil => simp [countHolds]
  | cons query queries ih =>
    rw [countHolds, List.exists_mem_cons_iff, ← ih]
    cases holds document query <;> simp

@[simp] theorem holds_filtered {clauses : List Query} :
    holds document (filtered clauses) = true ↔ ∀ clause ∈ clauses,
      holds document clause = true := by
  simp [filtered, holds, noneHolds, countHolds, allHold_iff]

@[simp] theorem holds_anyOf {clauses : List Query} :
    holds document (anyOf clauses) = true ↔ ∃ clause ∈ clauses, holds document clause = true := by
  simp [anyOf, holds, noneHolds, allHold, countHolds_pos]

theorem holds_guarded {guard : Query} {clauses : List Query} :
    holds document (bool [guard] clauses [] (some 1)) = true ↔ holds document guard = true ∧
    ∃ clause ∈ clauses, holds document clause = true := by
  simp [holds, noneHolds, allHold, countHolds_pos]

@[simp] theorem holds_matchNone : holds document matchNone = false := by
  simp [matchNone, holds, noneHolds, allHold]

end Query

variable {chunk scope : JsonObject} {filter : FilterScope}

theorem holds_term (h : Indexable chunk) {field value : String}
    (hfield : field ∈ ["chunk_id", "document_id", "tenant_id", "visibility", "section_path",
      "text"]) :
    (Query.term field (.str value)).holds chunk = true ↔ (chunk.get field).str? = some value := by
  obtain ⟨s, hs⟩ := h.str field hfield
  simp [Query.holds, hs, JsonValue.indexed, TermValue.holds]

theorem holds_active (h : Indexable chunk) :
    (Query.term "is_active" (.bool true)).holds chunk = true ↔
    (chunk.get "is_active").isTrue = true := by
  obtain ⟨b, hb⟩ : ∃ b, chunk.get "is_active" = .bool b := by
    have hactive := h.active
    unfold JsonValue.isBool at hactive
    split at hactive
    · rename_i b hb
      exact ⟨b, hb⟩
    · cases hactive
  simp [Query.holds, hb, JsonValue.indexed, TermValue.holds, JsonValue.isTrue]

/-- The selectors choose what the scope selects. -/
theorem holds_selectors (h : Indexable chunk) (hreads : Reads scope filter) :
    (∃ clause ∈ selectors filter.documentIds filter.libraryIds, clause.holds chunk = true) ↔
      matchesSelectedScope chunk scope = true := by
  obtain ⟨d, hd⟩ := h.str "document_id" (by simp)
  obtain ⟨items, hitems, hnonempty⟩ := h.libraries
  have hdocument : (Query.terms "document_id" filter.documentIds).holds chunk = true ↔
      d ∈ filter.documentIds := by
    simp [Query.holds, hd, JsonValue.indexed, JsonValue.str?]
  have hlibrary : (Query.terms "library_scope_ids" filter.libraryIds).holds chunk = true ↔
      ∃ l ∈ (chunk.get "library_scope_ids").stringSet, l ∈ filter.libraryIds := by
    simp only [Query.holds, hitems, JsonValue.indexed, JsonValue.stringSet, List.any_eq_true,
      List.mem_filterMap, Option.any_eq_true, List.contains_iff_mem, Option.filter_eq_some_iff]
    constructor
    · rintro ⟨item, hitem, l, hl, hmem⟩
      obtain ⟨s, rfl, hne⟩ := isNonemptyStr_iff.mp (hnonempty item hitem)
      cases hl
      exact ⟨l, ⟨_, hitem, rfl, decide_eq_true hne⟩, hmem⟩
    · rintro ⟨l, ⟨item, hitem, hl, -⟩, hmem⟩
      exact ⟨item, hitem, l, hl, hmem⟩
  rw [hreads.matches_iff]
  simp only [selectors, List.mem_append, List.mem_ite_nil_left, List.mem_singleton, or_and_right,
    exists_or, and_assoc, exists_and_left, exists_eq_left, hdocument, hlibrary]
  simp only [hd, JsonValue.str?, Option.some.injEq, exists_eq_right', List.isEmpty_iff]
  constructor
  · rintro (⟨-, hmem⟩ | ⟨-, hmem⟩)
    · exact .inl hmem
    · exact .inr hmem
  · rintro (hmem | ⟨l, hl, hmem⟩)
    · exact .inl ⟨List.ne_nil_of_mem hmem, hmem⟩
    · exact .inr ⟨List.ne_nil_of_mem hmem, l, hl, hmem⟩

/-- The query of a scope matches what the policy allows, unless a list of the scope is malformed. -/
theorem filter_iff (h : Indexable chunk) :
    (authorizationFilter scope).holds chunk = true ↔ IdsWellFormed scope ∧ Allows chunk scope := by
  unfold authorizationFilter
  cases hscope : readScope scope with
  | none =>
    have hnot := readScope_none hscope
    simp only [Query.holds_matchNone, Bool.false_eq_true, false_iff]
    exact fun ⟨hids, hallows⟩ => hnot ⟨hallows.1, hids⟩
  | some filter =>
    have hreads := readScope_ok hscope
    have hselected := holds_selectors h hreads
    have hresolvable : (selectors filter.documentIds filter.libraryIds).isEmpty = true →
        matchesSelectedScope chunk scope = false := by
      intro hempty
      rw [List.isEmpty_iff.mp hempty] at hselected
      simpa using hselected
    have hselectors : hasSelectors scope = false ↔
        (selectors filter.documentIds filter.libraryIds).isEmpty = true ∧
        filter.folderIds.isEmpty = true := by
      rw [hreads.noSelectors_iff]
      simp [selectors, and_assoc]
    have htenant : (chunk.get "tenant_id").str? = some filter.tenantId ↔
        sameTenant chunk scope = true := by
      unfold sameTenant
      rw [hreads.tenant, decide_eq_true_eq]
    rw [allows_iff hreads.required, and_iff_right hreads.wellFormed, ← hreads.isPublic]
    rw [Query.holds_guarded, holds_active h]
    refine and_congr_right fun _ => ?_
    have hany : ∀ value, (Query.term "visibility" (.str value)).holds chunk = true ↔
        (chunk.get "visibility").str? = some value := fun value => holds_term h (by simp)
    have hsame : (Query.term "tenant_id" (.str filter.tenantId)).holds chunk = true ↔
        sameTenant chunk scope = true :=
      (holds_term h (by simp)).trans htenant
    rw [hselectors]
    unfold visibilityRules
    by_cases hempty : selectors filter.documentIds filter.libraryIds = []
    · have hnone := hresolvable (List.isEmpty_iff.mpr hempty)
      by_cases hfolders : filter.folderIds = [] <;> cases filter.includePublic <;>
        simp [hempty, hfolders, hany, hsame, hnone]
    · cases filter.includePublic <;> simp [hempty, hany, hsame, hselected]

/-! ### What the checks admit -/

/-- The chunk is among chunks that `_validate_chunks` accepts. -/
def Accepts (chunk : JsonObject) : Prop := ∃ chunks, chunk ∈ chunks ∧ validateChunks chunks = .ok ()

theorem validateChunksFrom_ok {position : Nat} {seen : List String} {chunks : List JsonObject}
    (h : validateChunksFrom position seen chunks = .ok ()) (hmem : chunk ∈ chunks) :
    (chunk.get "chunk_id").isNonemptyStr = true ∧ ∃ chunkId,
      validateChunk chunkId chunk = .ok () := by
  induction chunks generalizing position seen with
  | nil => cases hmem
  | cons first chunks ih =>
    obtain ⟨hid, h⟩ := ensure_bind.mp h
    obtain ⟨-, h⟩ := ensure_bind.mp h
    obtain ⟨hchunk, h⟩ := check_bind.mp h
    rcases List.mem_cons.mp hmem with rfl | hmem
    · exact ⟨hid, _, hchunk⟩
    · exact ih h hmem

theorem Accepts.indexable (h : Accepts chunk) :
    Indexable chunk ∧ hasRequiredChunkFields chunk = true := by
  obtain ⟨chunks, hmem, hvalid⟩ := h
  obtain ⟨hid, chunkId, hchunk⟩ := validateChunksFrom_ok hvalid hmem
  obtain ⟨hstrings, hchunk⟩ := ensure_bind.mp hchunk
  obtain ⟨hlibraries, hchunk⟩ := ensure_bind.mp hchunk
  obtain ⟨hactive, hpages⟩ := ensure_bind.mp hchunk
  rw [ensure_eq_ok] at hpages
  simp only [List.all_cons, List.all_nil, Bool.and_true, Bool.and_eq_true] at hstrings
  have hlist : ∃ items, chunk.get "library_scope_ids" = .array items ∧ ∀ item ∈ items,
      item.isNonemptyStr = true := by
    split at hlibraries
    · rename_i items hitems
      exact ⟨items, hitems, List.all_eq_true.mp hlibraries⟩
    · cases hlibraries
  refine ⟨⟨?_, hlist, hactive⟩, ?_⟩
  · simp only [List.forall_mem_cons, List.not_mem_nil, false_imp_iff, implies_true, and_true]
    tauto
  · obtain ⟨items, hitems, -⟩ := hlist
    have hint : ∀ value : JsonValue, value.int?.isSome = true → value.isInt = true := by
      intro value hvalue
      cases value <;> first | rfl | cases hvalue
    split at hpages
    · rename_i start stop hstart hstop
      simp [hasRequiredChunkFields, hid, hstrings, hitems, JsonValue.isList,
        hint _ (Option.isSome_of_eq_some hstart), hint _ (Option.isSome_of_eq_some hstop)]
    · cases hpages

end Elasticsearch

namespace Milvus

section Holds

variable {Score : Type} {row : Row Score}

@[simp] theorem holds_all {operands : List Expression} :
    (Expression.all operands).holds row = true ↔ ∀ operand ∈ operands,
      operand.holds row = true := by
  rw [Expression.holds]
  induction operands with
  | nil => simp [Expression.allHold]
  | cons operand operands ih => simp [Expression.allHold, ih]

@[simp] theorem holds_any {operands : List Expression} :
    (Expression.any operands).holds row = true ↔ ∃ operand ∈ operands,
      operand.holds row = true := by
  rw [Expression.holds]
  induction operands with
  | nil => simp [Expression.anyHolds]
  | cons operand operands ih => simp [Expression.anyHolds, ih]

@[simp] theorem holds_group {operand : Expression} :
    (Expression.group operand).holds row = operand.holds row := by
  rw [Expression.holds]

@[simp] theorem holds_matchNone : matchNone.holds row = false := by
  cases h : row.isActive <;> simp [matchNone, Expression.holds, Expression.allHold, h]

end Holds

variable {Score : Type} {chunk scope : JsonObject} {vector : List Score} {filter : FilterScope}

/-- A string column of a chunk's row is the chunk's field. -/
theorem holds_equals (h : Indexable chunk) (column : Column) {value : String} :
    (Expression.equals column value).holds (Row.ofChunk chunk vector) = true ↔
      (chunk.get column.name).str? = some value := by
  obtain ⟨s, hs⟩ := h.str column.name (by cases column <;> simp [Column.name])
  cases column <;>
    simp_all [Expression.holds, Column.read, Column.name, Row.ofChunk, JsonValue.str?]

/-- The selectors choose what the scope selects. -/
theorem holds_selectors (h : Indexable chunk) (hreads : Reads scope filter) :
    (∃ clause ∈ selectors filter.documentIds filter.libraryIds,
      clause.holds (Row.ofChunk chunk vector) = true) ↔
      matchesSelectedScope chunk scope = true := by
  obtain ⟨d, hd⟩ := h.str "document_id" (by simp)
  have hdocument :
      (Expression.isIn .documentId filter.documentIds).holds (Row.ofChunk chunk vector) = true ↔
      d ∈ filter.documentIds := by
    simp [Expression.holds, Column.read, Row.ofChunk, hd, JsonValue.str?]
  have hlibrary :
      (Expression.containsAny filter.libraryIds).holds (Row.ofChunk chunk vector) = true ↔
      ∃ l ∈ (chunk.get "library_scope_ids").stringSet, l ∈ filter.libraryIds := by
    simp [Expression.holds, Row.ofChunk]
  rw [hreads.matches_iff]
  simp only [selectors, List.mem_append, List.mem_ite_nil_left, List.mem_singleton, or_and_right,
    exists_or, and_assoc, exists_and_left, exists_eq_left, hdocument, hlibrary]
  simp only [hd, JsonValue.str?, Option.some.injEq, exists_eq_right', List.isEmpty_iff]
  constructor
  · rintro (⟨-, hmem⟩ | ⟨-, hmem⟩)
    · exact .inl hmem
    · exact .inr hmem
  · rintro (hmem | ⟨l, hl, hmem⟩)
    · exact .inl ⟨List.ne_nil_of_mem hmem, hmem⟩
    · exact .inr ⟨List.ne_nil_of_mem hmem, l, hl, hmem⟩

/-- The expression of a scope holds for what the policy allows, unless a list of the scope is
malformed. -/
theorem filter_iff (h : Indexable chunk) :
    (authorizationFilter scope).holds (Row.ofChunk chunk vector) = true ↔
      IdsWellFormed scope ∧ Allows chunk scope := by
  unfold authorizationFilter
  cases hscope : readScope scope with
  | none =>
    have hnot := readScope_none hscope
    simp only [holds_matchNone, Bool.false_eq_true, false_iff]
    exact fun ⟨hids, hallows⟩ => hnot ⟨hallows.1, hids⟩
  | some filter =>
    have hreads := readScope_ok hscope
    have hselected : (∃ clause ∈ selectors filter.documentIds filter.libraryIds,
        clause.holds (Row.ofChunk chunk vector) = true) ↔ matchesSelectedScope chunk scope = true :=
      holds_selectors h hreads
    have hselectors : hasSelectors scope = false ↔
        selectors filter.documentIds filter.libraryIds = [] ∧ filter.folderIds = [] := by
      rw [hreads.noSelectors_iff]
      simp [selectors, and_assoc]
    have hany : ∀ value,
        (Expression.equals .visibility value).holds (Row.ofChunk chunk vector) = true ↔
        (chunk.get "visibility").str? = some value := fun value => holds_equals h .visibility
    have hsame : (Expression.equals .tenantId filter.tenantId).holds
        (Row.ofChunk chunk vector) = true ↔ sameTenant chunk scope = true := by
      rw [holds_equals h, sameTenant, hreads.tenant, decide_eq_true_eq]
      rfl
    have hactive : (Expression.isActive true).holds (Row.ofChunk chunk vector) = true ↔
        (chunk.get "is_active").isTrue = true := by
      rw [Expression.holds, decide_eq_true_eq]
      rfl
    rw [allows_iff hreads.required, and_iff_right hreads.wellFormed, ← hreads.isPublic, hselectors]
    by_cases hempty : selectors filter.documentIds filter.libraryIds = []
    · have hnone : matchesSelectedScope chunk scope = false := by
        rw [hempty] at hselected
        simpa using hselected
      by_cases hfolders : filter.folderIds = []
      · cases hpublic : filter.includePublic <;>
          simp [hempty, hfolders, hpublic, hnone, visibilityRules, hany, hsame, hactive]
      · simp [hempty, hfolders, hnone]
    · cases hpublic : filter.includePublic <;>
        simp [hempty, hpublic, visibilityRules, hany, hsame, hactive, hselected]

/-! ### What the checks admit -/

/-- The chunk is among chunks that `_validate_chunks` accepts. -/
def Accepts (chunk : JsonObject) : Prop := ∃ chunks, chunk ∈ chunks ∧ validateChunks chunks = .ok ()

theorem validateChunksFrom_ok {seen : List String} {chunks : List JsonObject}
    (h : validateChunksFrom seen chunks = .ok ()) (hmem : chunk ∈ chunks) :
    (chunk.get "chunk_id").isNonemptyStr = true ∧ ∃ chunkId,
      validateChunk chunkId chunk = .ok () := by
  induction chunks generalizing seen with
  | nil => cases hmem
  | cons first chunks ih =>
    obtain ⟨hid, h⟩ := ensure_bind.mp h
    obtain ⟨hchunk, h⟩ := check_bind.mp h
    rcases List.mem_cons.mp hmem with rfl | hmem
    · exact ⟨((Bool.and_eq_true _ _).mp hid).1, _, hchunk⟩
    · exact ih h hmem

theorem Accepts.indexable (h : Accepts chunk) : Indexable chunk := by
  obtain ⟨chunks, hmem, hvalid⟩ := h
  obtain ⟨-, hvalid⟩ := ensure_bind.mp hvalid
  obtain ⟨hid, chunkId, hchunk⟩ := validateChunksFrom_ok hvalid hmem
  obtain ⟨hstrings, hchunk⟩ := check_bind.mp hchunk
  obtain ⟨hlibraries, hactive⟩ := ensure_bind.mp hchunk
  rw [ensure_eq_ok] at hactive
  simp only [forM_eq_ok, ensure_eq_ok, List.forall_mem_cons, List.not_mem_nil, false_imp_iff,
    implies_true, and_true] at hstrings
  refine ⟨?_, ?_, hactive⟩
  · simp only [List.forall_mem_cons, List.not_mem_nil, false_imp_iff, implies_true, and_true]
    tauto
  · split at hlibraries
    · rename_i items hitems
      exact ⟨items, hitems, List.all_eq_true.mp hlibraries⟩
    · cases hlibraries

end Milvus

/-! ### Agreement -/

/-- A filter admits only what `is_chunk_authorized` does, and on scopes with well-formed lists just
that. -/
def Agrees (filter : Bool) (chunk scope : JsonObject) : Prop :=
  (filter = true → isChunkAuthorized chunk scope = true) ∧
    (IdsWellFormed scope → (filter = true ↔ isChunkAuthorized chunk scope = true))

/-- The required fields that the Milvus check leaves out. -/
def hasVersionAndPages (chunk : JsonObject) : Bool :=
  (chunk.get "version_id").isNonemptyStr && (chunk.get "page_start").isInt &&
    (chunk.get "page_end").isInt

/-- No scope admits the chunk. -/
def isHidden (chunk : JsonObject) : Bool :=
  !(chunk.get "is_active").isTrue ||
    !(["public", "tenant", "private"].any
      fun value => decide ((chunk.get "visibility").str? = some value))

section Agreement

variable {chunk scope : JsonObject} {filter : Bool}

theorem Indexable.hasRequired_iff (h : Indexable chunk) :
    hasRequiredChunkFields chunk = true ↔ hasVersionAndPages chunk = true := by
  have hid := h.strings "chunk_id" (by simp)
  have hdocument := h.strings "document_id" (by simp)
  have htenant := h.strings "tenant_id" (by simp)
  have hvisibility := h.strings "visibility" (by simp)
  have hsection := h.strings "section_path" (by simp)
  have htext := h.strings "text" (by simp)
  obtain ⟨items, hitems, -⟩ := h.libraries
  simp [hasRequiredChunkFields, hasVersionAndPages, hid, hdocument, htenant, hvisibility, hsection,
    htext, hitems, JsonValue.isList, and_assoc]

/-- A filter that says what the policy allows agrees, if the chunk has the required fields. -/
theorem agrees_of_required (hfilter : filter = true ↔ IdsWellFormed scope ∧ Allows chunk scope)
    (hrequired : hasRequiredChunkFields chunk = true) : Agrees filter chunk scope := by
  have hauthorized : isChunkAuthorized chunk scope = true ↔ Allows chunk scope := by
    rw [isChunkAuthorized_iff_allows, and_iff_right hrequired]
  refine ⟨fun h => hauthorized.mpr (hfilter.mp h).2, fun hids => ?_⟩
  rw [hfilter, hauthorized, and_iff_right hids]

theorem not_allows_of_hidden (h : isHidden chunk = true) : ¬Allows chunk scope := by
  rintro ⟨-, hactive, hadmits, -⟩
  unfold isHidden at h
  rw [hactive] at h
  unfold admits at hadmits
  split at hadmits <;> simp_all

/-- A filter that admits nothing agrees. -/
theorem agrees_of_hidden (hfilter : filter = true ↔ IdsWellFormed scope ∧ Allows chunk scope)
    (h : isHidden chunk = true) : Agrees filter chunk scope := by
  have hnot : ¬Allows chunk scope := not_allows_of_hidden h
  have hauthorized : ¬isChunkAuthorized chunk scope = true := fun h =>
    hnot (isChunkAuthorized_iff_allows.mp h).2
  have hfalse : ¬filter = true := fun h => hnot (hfilter.mp h).2
  exact ⟨fun h => absurd h hfalse, fun _ => iff_of_false hfalse hauthorized⟩

/-- The scope of a tenant that has selected one document. -/
def documentScope (tenantId documentId : String) : JsonObject :=
  .ofMembers [("user_id", .str "user"), ("tenant_id", .str tenantId), ("acl_version", .str "acl"),
    ("library_ids", .array []), ("folder_ids", .array []),
    ("document_ids", .array [.str documentId]),
    ("include_public", .bool true)]

/-- A chunk that is not hidden is allowed to its own tenant when its document is selected. -/
theorem allows_documentScope (h : Indexable chunk) (hvisible : isHidden chunk = false)
    {tenantId documentId : String} (htenant : chunk.get "tenant_id" = .str tenantId)
    (hdocument : chunk.get "document_id" = .str documentId) :
    IdsWellFormed (documentScope tenantId documentId) ∧
    Allows chunk (documentScope tenantId documentId) := by
  have htenantId : tenantId ≠ "" := by
    obtain ⟨s, hs, hne⟩ := isNonemptyStr_iff.mp (h.strings "tenant_id" (by simp))
    cases htenant.symm.trans hs
    exact hne
  have hdocumentId : documentId ≠ "" := by
    obtain ⟨s, hs, hne⟩ := isNonemptyStr_iff.mp (h.strings "document_id" (by simp))
    cases hdocument.symm.trans hs
    exact hne
  have hget : (documentScope tenantId documentId).get "tenant_id" = .str tenantId ∧
      (documentScope tenantId documentId).get "document_ids" = .array [.str documentId] ∧
      (documentScope tenantId documentId).get "library_ids" = .array [] ∧
      (documentScope tenantId documentId).get "folder_ids" = .array [] ∧
      (documentScope tenantId documentId).get "user_id" = .str "user" ∧
      (documentScope tenantId documentId).get "acl_version" = .str "acl" ∧
      (documentScope tenantId documentId).get "include_public" = .bool true := by
    simp [documentScope, JsonObject.ofMembers, JsonObject.get_put_ne]
  obtain ⟨hgetTenant, hgetDocuments, hgetLibraries, hgetFolders, hgetUser, hgetAcl, hgetPublic⟩ :=
    hget
  unfold isHidden at hvisible
  simp only [Bool.or_eq_false_iff, Bool.not_eq_false', List.any_eq_true, decide_eq_true_eq,
    List.mem_cons, List.not_mem_nil, or_false] at hvisible
  obtain ⟨hactive, value, hvalue, hvisibility⟩ := hvisible
  refine ⟨?_, ?_, hactive, ?_, .inl ?_⟩
  · unfold IdsWellFormed
    simp [hgetDocuments, hgetLibraries, hgetFolders, isNonemptyStr_iff, hdocumentId]
  · simp [hasRequiredScopeFields, hgetTenant, hgetDocuments, hgetLibraries, hgetFolders, hgetUser,
      hgetAcl, hgetPublic, JsonValue.isNonemptyStr, JsonValue.str?, JsonValue.isList,
      JsonValue.isBool, htenantId]
  · rcases hvalue with rfl | rfl | rfl <;>
      simp [admits, hvisibility, sameTenant, htenant, hgetTenant, hgetPublic, JsonValue.isTrue]
  · rw [matchesSelectedScope_iff]
    exact .inl ⟨documentId,
      by simp [hgetDocuments, JsonValue.stringSet, JsonValue.str?, Option.filter, hdocumentId],
      by rw [hdocument]; rfl⟩

/-- For every chunk: both filters agree with `is_chunk_authorized` on it under every scope exactly
if, when Milvus accepts the chunk, it has a version and pages or is admitted by no scope. -/
theorem authorization_agreement {Score : Type} (chunk : JsonObject) :
    (∀ scope, (Elasticsearch.Accepts chunk →
      Agrees ((Elasticsearch.authorizationFilter scope).holds chunk) chunk scope) ∧
      (Milvus.Accepts chunk → ∀ vector : List Score,
        Agrees ((Milvus.authorizationFilter scope).holds (Milvus.Row.ofChunk chunk vector)) chunk
          scope)) ↔
    (Milvus.Accepts chunk → hasVersionAndPages chunk = true ∨ isHidden chunk = true) := by
  constructor
  · intro h haccepts
    have hindexable := haccepts.indexable
    by_contra hnot
    rw [not_or, Bool.not_eq_true, Bool.not_eq_true] at hnot
    obtain ⟨tenantId, htenant⟩ := hindexable.str "tenant_id" (by simp)
    obtain ⟨documentId, hdocument⟩ := hindexable.str "document_id" (by simp)
    have hallows := allows_documentScope hindexable hnot.2 htenant hdocument
    have hauthorized := ((h (documentScope tenantId documentId)).2 haccepts []).1
      ((Milvus.filter_iff hindexable).mpr hallows)
    have hrequired := hindexable.hasRequired_iff.mp (isChunkAuthorized_iff_allows.mp hauthorized).1
    rw [hnot.1] at hrequired
    cases hrequired
  · intro h scope
    refine ⟨fun haccepts => ?_, fun haccepts vector => ?_⟩
    · obtain ⟨hindexable, hrequired⟩ := haccepts.indexable
      exact agrees_of_required (Elasticsearch.filter_iff hindexable) hrequired
    · have hindexable := haccepts.indexable
      rcases h haccepts with hfields | hhidden
      · exact agrees_of_required (Milvus.filter_iff hindexable)
          (hindexable.hasRequired_iff.mpr hfields)
      · exact agrees_of_hidden (Milvus.filter_iff hindexable) hhidden

end Agreement

/-- A chunk as Milvus accepts it, without a version. -/
def unversionedChunk : JsonObject :=
  .ofMembers [("chunk_id", .str "chunk_1"), ("document_id", .str "doc_1"),
    ("tenant_id", .str "owner_1"), ("visibility", .str "tenant"), ("section_path", .str "Document"),
    ("text", .str "text"), ("page_start", .int 1), ("page_end", .int 1),
    ("library_scope_ids", .array []), ("is_active", .bool true)]

/-- Milvus accepts the chunk and its filter admits it, `is_chunk_authorized` does not. -/
theorem milvus_filter_admits_unversioned :
    Milvus.validateChunks [unversionedChunk] = .ok () ∧
      (Milvus.authorizationFilter (documentScope "owner_1" "doc_1")).holds
        (Milvus.Row.ofChunk unversionedChunk ([] : List Rat)) = true ∧
      isChunkAuthorized unversionedChunk (documentScope "owner_1" "doc_1") = false := by
  decide +kernel

end ZhiyanRag.Retrieval
