import ZhiyanRag.Retrieval.Json

/-!
# Authorization of a chunk

`is_chunk_authorized` decides on JSON objects: a chunk of the fixture and an `AuthorizedScopeV1`.
Visibility and tenant admit a chunk (`admits`); among the admitted ones, the document and library
selectors of the scope choose, and without selectors everything but the private chunks is chosen
(`isChunkAuthorized_iff`).
-/

namespace ZhiyanRag.Retrieval

/-! ### The decision -/

def hasRequiredChunkFields (chunk : JsonObject) : Bool :=
  (["chunk_id", "document_id", "version_id", "text", "section_path", "tenant_id", "visibility"].all
    fun field =>
    (chunk.get field).isNonemptyStr) &&
    (chunk.get "page_start").isInt && (chunk.get "page_end").isInt &&
      (chunk.get "library_scope_ids").isList

def hasRequiredScopeFields (scope : JsonObject) : Bool :=
  (["user_id", "tenant_id", "acl_version"].all fun field => (scope.get field).isNonemptyStr) &&
    (["library_ids", "folder_ids", "document_ids"].all fun field => (scope.get field).isList) &&
    (scope.get "include_public").isBool

/-- `_matches_selected_scope`. -/
def matchesSelectedScope (chunk scope : JsonObject) : Bool :=
  let documentIds := (scope.get "document_ids").stringSet
  let libraryIds := (scope.get "library_ids").stringSet
  let folderIds := (scope.get "folder_ids").stringSet
  let chunkLibraries := (chunk.get "library_scope_ids").stringSet
  let selectedByDocument := (chunk.get "document_id").str?.any documentIds.contains
  let selectedByLibrary := chunkLibraries.any libraryIds.contains
  if !documentIds.isEmpty || !libraryIds.isEmpty then selectedByDocument || selectedByLibrary
  -- chunks have no folder field: folders are to be expanded to documents before this point
  else if !folderIds.isEmpty then false
  else false

/-- `has_selectors`. -/
def hasSelectors (scope : JsonObject) : Bool :=
  !(scope.get "document_ids").stringSet.isEmpty || !(scope.get "library_ids").stringSet.isEmpty ||
    !(scope.get "folder_ids").stringSet.isEmpty

def sameTenant (chunk scope : JsonObject) : Bool :=
  decide ((chunk.get "tenant_id").str? = (scope.get "tenant_id").str?)

def isChunkAuthorized (chunk scope : JsonObject) : Bool :=
  if !hasRequiredChunkFields chunk || !hasRequiredScopeFields scope ||
    !(chunk.get "is_active").isTrue then false
  else
    let selected := matchesSelectedScope chunk scope
    match (chunk.get "visibility").str? with
    | some "public" => (scope.get "include_public").isTrue && (!hasSelectors scope || selected)
    | some "tenant" => sameTenant chunk scope && (!hasSelectors scope || selected)
    | some "private" => sameTenant chunk scope && selected
    | _ => false

def filterAuthorizedChunks (chunks : List JsonObject) (scope : JsonObject) : List JsonObject :=
  chunks.filter fun chunk => isChunkAuthorized chunk scope

/-! ### Admission and selection -/

/-- The chunk is well formed and active. -/
def isServable (chunk : JsonObject) : Bool :=
  hasRequiredChunkFields chunk && (chunk.get "is_active").isTrue

/-- Visibility and tenant admit the chunk. -/
def admits (chunk scope : JsonObject) : Bool :=
  match (chunk.get "visibility").str? with
  | some "public" => (scope.get "include_public").isTrue
  | some "tenant" | some "private" => sameTenant chunk scope
  | _ => false

def isPrivate (chunk : JsonObject) : Bool := decide ((chunk.get "visibility").str? = some "private")

/-- An admitted chunk is authorized if the selectors choose it, or if there are none and it is
not private. -/
theorem isChunkAuthorized_iff {chunk scope : JsonObject} : isChunkAuthorized chunk scope = true ↔
    isServable chunk = true ∧ hasRequiredScopeFields scope = true ∧ admits chunk scope = true ∧
      (matchesSelectedScope chunk scope = true ∨
        (hasSelectors scope = false ∧ isPrivate chunk = false)) := by
  unfold isChunkAuthorized isServable admits isPrivate
  cases hasRequiredChunkFields chunk <;> cases hasRequiredScopeFields scope <;>
    cases (chunk.get "is_active").isTrue <;> simp
  split <;> simp_all <;> cases hasSelectors scope <;> simp [or_comm]

/-- A chunk is selected by its document or by one of its libraries. -/
theorem matchesSelectedScope_iff {chunk scope : JsonObject} :
    matchesSelectedScope chunk scope = true ↔
    (∃ d ∈ (scope.get "document_ids").stringSet, (chunk.get "document_id").str? = some d) ∨
      ∃ l ∈ (chunk.get "library_scope_ids").stringSet, l ∈ (scope.get "library_ids").stringSet := by
  unfold matchesSelectedScope
  simp only [Bool.or_eq_true, Bool.not_eq_true', List.isEmpty_eq_false_iff, ite_self]
  constructor
  · intro h
    split at h
    · rcases (Bool.or_eq_true _ _).mp h with hdocument | hlibrary
      · obtain ⟨d, hd, hmem⟩ := (Option.any_eq_true _ _).mp hdocument
        exact .inl ⟨d, by simpa using hmem, hd⟩
      · obtain ⟨l, hl, hmem⟩ := List.any_eq_true.mp hlibrary
        exact .inr ⟨l, hl, by simpa using hmem⟩
    · cases h
  · rintro (⟨d, hmem, hd⟩ | ⟨l, hl, hmem⟩)
    · rw [if_pos (.inl (List.ne_nil_of_mem hmem))]
      simp [hd, hmem]
    · rw [if_pos (.inr (List.ne_nil_of_mem hmem))]
      exact (Bool.or_eq_true _ _).mpr (.inr (List.any_eq_true.mpr ⟨l, hl, by simpa using hmem⟩))

theorem hasSelectors_eq_false {scope : JsonObject} : hasSelectors scope = false ↔
    (scope.get "document_ids").stringSet = [] ∧ (scope.get "library_ids").stringSet = [] ∧
      (scope.get "folder_ids").stringSet = [] := by
  simp [hasSelectors, and_assoc]

end ZhiyanRag.Retrieval
