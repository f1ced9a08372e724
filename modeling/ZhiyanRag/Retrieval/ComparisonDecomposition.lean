import ZhiyanRag.Lib.Occurrences
import ZhiyanRag.Rag.ClaimEvidence
import ZhiyanRag.Retrieval.Online

/-!
# Comparison decomposition

`BilateralComparisonQueryDecomposer` of `comparison_decomposition.py`: a question about two
documents becomes one query for each. Its clauses are assigned to the documents they name, one that
names both is cut in two (`decompose_eq`). `plan_order_independent`: the order of the two routes
does not matter.
-/

namespace ZhiyanRag.Retrieval

open Regex Spans Ingestion Rag

/-! ### Configuration -/

/-- The aliases of a document. -/
structure DocumentQueryIdentity where
  documentId : String
  aliases : List (List Char)
  deriving DecidableEq

structure BilateralComparisonConfig where
  defaultEnabled : Bool
  failurePolicy : String
  comparisonMarkers : List (List Char)
  transitionMarkers : List (List Char)
  documentIdentities : List DocumentQueryIdentity
  deriving DecidableEq

def comparisonConfigKeys : List String :=
  ["schema_version", "variable_id", "default_enabled", "failure_policy", "comparison_markers",
    "transition_markers", "document_identities"]

section

variable (tables : TextTables)

/-- `_validated_markers`. -/
def validatedMarkers (field : String) (value : JsonValue) : Except PyError (List (List Char)) := do
  let normalized := value.items.filterMap fun item =>
    (item.str?.map fun text => strip text.toList).filter fun text => !text.isEmpty
  ensure (value.isList && !value.items.isEmpty && decide (normalized.length = value.items.length))
    .valueError s!"comparison decomposition {field} are invalid"
  ensure (decide (normalized.map (casefold tables)).Nodup) .valueError
    s!"comparison decomposition {field} are duplicated"
  return normalized

/-- Aliases that another document owns already. -/
def claimAliases (message : String) (owners : List (List Char × String))
    (identity : DocumentQueryIdentity) : Except PyError (List (List Char × String)) :=
  identity.aliases.foldlM (fun owners name => do
    let normalized := casefold tables name
    ensure ((owners.lookup normalized).all fun owner => decide (owner = identity.documentId))
      .valueError message
    return owners ++ [(normalized, identity.documentId)]) owners

/-- One entry of `document_identities`, after those before it. -/
def loadIdentity (loaded : List DocumentQueryIdentity × List (List Char × String)) :
    JsonValue → Except PyError (List DocumentQueryIdentity × List (List Char × String))
  | .object members => do
    let get := fun field => (members.lookup field).getD .null
    ensure (hasKeys members ["document_id", "aliases"]) .valueError
      "comparison decomposition document identity fields are invalid"
    let documentId := ((get "document_id").str?).getD ""
    ensure ((get "document_id").isNonemptyStr &&
      !(loaded.1.map (·.documentId)).contains documentId && (get "aliases").isList &&
        !(get "aliases").items.isEmpty) .valueError
      "comparison decomposition document identity is invalid"
    let aliases ← validatedMarkers tables "aliases" (get "aliases")
    let identity : DocumentQueryIdentity := ⟨documentId, (documentId.toList :: aliases).eraseDups⟩
    let owners ← claimAliases tables "comparison decomposition aliases are ambiguous" loaded.2
      identity
    return (loaded.1 ++ [identity], owners)
  | _ => .error ⟨.valueError, "comparison decomposition document identity fields are invalid"⟩

/-- `load_bilateral_comparison_config`, of the JSON in the file. -/
def loadBilateralComparisonConfig : JsonValue → Except PyError BilateralComparisonConfig
  | .object members => do
    let get := fun field => (members.lookup field).getD .null
    ensure (hasKeys members comparisonConfigKeys) .valueError
      "comparison decomposition config fields are invalid"
    ensure ((get "schema_version").equals
      (.str "bilateral_comparison_query_decomposition_config_v1")) .valueError
        "comparison decomposition config schema is unsupported"
    ensure ((get "variable_id").equals (.str "BILATERAL_COMPARISON_QUERY_DECOMPOSITION_V1"))
      .valueError "comparison decomposition variable identity is invalid"
    ensure (get "default_enabled").isFalse .valueError
      "comparison decomposition must default to disabled"
    ensure ((get "failure_policy").equals (.str "FALLBACK_TO_ORIGINAL_QUERY")) .valueError
      "comparison decomposition failure policy is invalid"
    let comparisonMarkers ← validatedMarkers tables "comparison_markers" (get "comparison_markers")
    let transitionMarkers ← validatedMarkers tables "transition_markers" (get "transition_markers")
    ensure ((get "document_identities").isList &&
      decide (2 ≤ (get "document_identities").items.length)) .valueError
        "comparison decomposition document identities are invalid"
    let loaded ← (get "document_identities").items.foldlM (loadIdentity tables) ([], [])
    return {
      defaultEnabled := false
      failurePolicy := "FALLBACK_TO_ORIGINAL_QUERY"
      comparisonMarkers
      transitionMarkers
      documentIdentities := loaded.1 }
  | _ => .error ⟨.valueError, "comparison decomposition config fields are invalid"⟩

/-- `remap_document_identities`. -/
def remapDocumentIdentities (config : BilateralComparisonConfig)
    (documentIdMap : Relational.Table (Prod.fst : String × String → String)) :
    Except PyError BilateralComparisonConfig := do
  ensure (decide ((documentIdMap.rows.map Prod.fst).toFinset =
    (config.documentIdentities.map (·.documentId)).toFinset) &&
    (documentIdMap.rows.all fun entry => decide (entry.2 ≠ "")) &&
      decide (documentIdMap.rows.map Prod.snd).Nodup) .valueError
    "comparison decomposition runtime identity map is invalid"
  let remappedIdentities := config.documentIdentities.map fun identity =>
    let runtimeId := ((documentIdMap.find? identity.documentId).map Prod.snd).getD ""
    (⟨runtimeId, (runtimeId.toList :: identity.aliases).eraseDups⟩ : DocumentQueryIdentity)
  let _ ← remappedIdentities.foldlM
    (claimAliases tables "comparison decomposition runtime identity map is ambiguous") []
  return { config with documentIdentities := remappedIdentities }

end

/-! ### Texts -/

/-- `value.strip(" ，,")`. -/
def stripCommas (text : List Char) : List Char := stripChars " ，," text

/-- `_SPACE.sub(" ", value)`. -/
def collapseSpaces : List Char → List Char
  | [] => []
  | c :: rest =>
    if isPySpace c then
      if rest.head?.any isPySpace then collapseSpaces rest else ' ' :: collapseSpaces rest
    else c :: collapseSpaces rest

/-- `_normalize_query`. -/
def normalizeQuery (value : List Char) : List Char := stripCommas (collapseSpaces value)

/-- `" ".join(parts)`. -/
def joinSpaced (parts : List (List Char)) : List Char := [' '].intercalate parts

/-- `_CLAUSE_BOUNDARY`. -/
def clauseBoundary : Pattern Char := .plus (.char fun c => "。！？!?；;".toList.contains c)

/-- `clauses`. -/
def clausesOf (question : List Char) : List (List Char) :=
  ((splitTexts clauseBoundary question).map stripCommas).filter fun clause => !clause.isEmpty

/-- `min(spans)` of two spans. -/
def earlierSpan (a b : Span) : Span := if a.start < b.start ∨ (a.start = b.start ∧ a.stop ≤ b.stop)
    then a else b

/-- `min(spans, default=None)`. -/
def leastSpan : List Span → Option Span
  | [] => none
  | span :: rest => some ((leastSpan rest).elim span (earlierSpan span))

section

variable (tables : TextTables)

/-- `_contains_marker`. -/
def containsMarker (text : List Char) (markers : List (List Char)) : Bool :=
  markers.any fun marker => decide (casefold tables marker <:+: casefold tables text)

/-- `_first_marker_anchor`. -/
def firstMarkerAnchor (text : List Char) (markers : List (List Char)) : Option Nat :=
  (markers.filterMap fun marker => Occurrences.find (casefold tables marker)
    (casefold tables text)).min?

/-- `_first_alias_span`. -/
def firstAliasSpan (text : List Char) (aliases : List (List Char)) : Option Span :=
  leastSpan (aliases.filterMap fun name =>
    (Occurrences.find (casefold tables name) (casefold tables text)).map fun start =>
      ⟨start, start + name.length⟩)

/-- `_first_document_anchor`. -/
def firstDocumentAnchor (text : List Char) (aliases : List (List Char)) : Nat :=
  (firstAliasSpan tables text aliases).elim text.length (·.start)

/-! ### A clause that names both documents -/

/-- `(?:与|和|以及|及|vs\.?|versus)` with `re.IGNORECASE`. -/
def connectorPattern : Pattern Char :=
  .oneOf [literal "与", literal "和", literal "以及", literal "及",
    .seq (caseless "vs") (.optional (exactly '.')), caseless "versus"]

/-- `_last_connector_span`. -/
def lastConnectorSpan (text : List Char) : Option Span :=
  (connectorPattern.findAll text 0 text.length).getLast?.map fun found => ⟨found.start, found.stop⟩

/-- `_shared_tail_start`. -/
def sharedTailStart (text : List Char) (after : Nat) : Option Nat :=
  ((["在", "有何", "如何", "分别", "之间"].filterMap fun word => Occurrences.find word.toList
    (text.drop after)).min?).map fun start => after + start

/-- The two queries of a clause, of the identifiers and spans of its left and its right document. -/
def cutClause (clause : List Char) (leftId : String) (leftSpan : Span) (rightId : String)
    (rightSpan : Span) : Option (List (String × List Char)) := do
  let connector ← lastConnectorSpan (slice clause leftSpan.stop rightSpan.start)
  let leftEnd := leftSpan.stop + connector.start
  let rightTailStart ← sharedTailStart clause rightSpan.stop
  let commonPrefix := stripCommas (clause.take leftSpan.start)
  let commonTail := stripCommas (clause.drop rightTailStart)
  let leftSide := stripCommas (slice clause leftSpan.start leftEnd)
  let rightSide := stripCommas (slice clause rightSpan.start rightTailStart)
  if leftSide.isEmpty || rightSide.isEmpty || commonTail.isEmpty then none
  else
    let common := joinSpaced ([commonPrefix, commonTail].filter fun part => !part.isEmpty)
    some [(leftId, normalizeQuery (leftSide ++ ' ' :: common)),
      (rightId, normalizeQuery (rightSide ++ ' ' :: common))]

/-- `_split_bilateral_clause`; the sort by the starts of the spans is stable. -/
def splitBilateralClause (clause : List Char) (first second : DocumentQueryIdentity) :
    Option (List (String × List Char)) := do
  let firstSpan ← firstAliasSpan tables clause first.aliases
  let secondSpan ← firstAliasSpan tables clause second.aliases
  if firstSpan.start ≤ secondSpan.start
    then cutClause clause first.documentId firstSpan second.documentId secondSpan
  else cutClause clause second.documentId secondSpan first.documentId firstSpan

/-! ### Decomposition -/

/-- `pieces`, `unanchored` and `anchored_clause_indexes`. -/
structure GatheredClauses where
  pieces : List (String × List (List Char))
  unanchored : List (Nat × List Char)
  anchoredClauseIndexes : List (String × List Nat)

/-- `entries[key].append(value)`. -/
def appendTo {α : Type} (entries : List (String × List α)) (key : String) (value : α) :
    List (String × List α) :=
  entries.map fun entry => if entry.1 = key then (entry.1, entry.2 ++ [value]) else entry

/-- A clause for a document. -/
def GatheredClauses.anchor (gathered : GatheredClauses) (index : Nat) (piece : String × List Char) :
    GatheredClauses where
  pieces := appendTo gathered.pieces piece.1 piece.2
  unanchored := gathered.unanchored
  anchoredClauseIndexes := appendTo gathered.anchoredClauseIndexes piece.1 index

/-- One clause, at an index. -/
def gatherClause (first second : DocumentQueryIdentity) (gathered : GatheredClauses)
    (p : List Char × Nat) : Option GatheredClauses :=
  match [first, second].filter fun identity =>
    (firstAliasSpan tables p.1 identity.aliases).isSome with
  | [_, _] => (splitBilateralClause tables p.1 first second).map fun bilateral =>
    bilateral.foldl (·.anchor p.2) gathered
  | [identity] => some (gathered.anchor p.2 (identity.documentId, p.1))
  | _ => some { gathered with unanchored := gathered.unanchored ++ [(p.2, p.1)] }

/-- The clauses before the only document that is named go to the other one, if a transition marker
leads over to it. -/
def assignLeading (config : BilateralComparisonConfig) (question : List Char)
    (first second : DocumentQueryIdentity) (gathered : GatheredClauses) (anchoredId : String) :
    Option (List (String × List (List Char)) × List (Nat × List Char)) := do
  let anchored ← [first, second].find? fun identity => decide (identity.documentId = anchoredId)
  let other ← [first, second].find? fun identity => decide (identity.documentId ≠ anchoredId)
  let firstAnchor := (((gathered.anchoredClauseIndexes.lookup anchoredId).getD []).min?).getD 0
  let leading := gathered.unanchored.filter fun p => decide (p.1 < firstAnchor)
  let transitionAnchor ← firstMarkerAnchor tables question config.transitionMarkers
  if leading.isEmpty ||
    decide (firstDocumentAnchor tables question anchored.aliases ≤ transitionAnchor) then none
  else some (leading.foldl (fun pieces p => appendTo pieces other.documentId p.2) gathered.pieces,
    gathered.unanchored.filter fun p => decide (firstAnchor ≤ p.1))

/-- The pieces, and the clauses that are left for both documents. -/
def assignUnanchored (config : BilateralComparisonConfig) (question : List Char)
    (first second : DocumentQueryIdentity) (gathered : GatheredClauses) :
    Option (List (String × List (List Char)) × List (Nat × List Char)) :=
  match (gathered.anchoredClauseIndexes.filter fun entry => !entry.2.isEmpty).map Prod.fst with
  | [anchoredId] => assignLeading tables config question first second gathered anchoredId
  | [_, _] => some (gathered.pieces, gathered.unanchored)
  | _ => none

/-- `for _, clause in unanchored`. -/
def appendUnanchored (first second : DocumentQueryIdentity)
    (pieces : List (String × List (List Char))) (unanchored : List (Nat × List Char)) :
    List (String × List (List Char)) :=
  unanchored.foldl
    (fun pieces p => appendTo (appendTo pieces first.documentId p.2) second.documentId p.2) pieces

/-- `_decompose`. -/
def decompose (config : BilateralComparisonConfig) (question : List Char)
    (first second : DocumentQueryIdentity) : Option (List (String × List Char)) := do
  let clauses := clausesOf question
  if clauses.isEmpty then none
  else
    let gathered ← clauses.zipIdx.foldlM (gatherClause tables first second)
      ⟨[(first.documentId, []), (second.documentId, [])], [],
        [(first.documentId, []), (second.documentId, [])]⟩
    let assigned ← assignUnanchored tables config question first second gathered
    let queries := (appendUnanchored first second assigned.1 assigned.2).map fun entry =>
      (entry.1, normalizeQuery (joinSpaced entry.2))
    if queries.any fun entry => entry.2.isEmpty then none else some queries

/-! ### The plan -/

/-- What the observer is shown; the latency is a timing and left out. -/
structure ComparisonDecompositionObservation where
  status : String
  failureCode : Option String
  routeCount : Nat

structure BilateralComparisonQueryDecomposer where
  config : BilateralComparisonConfig
  enabled : Bool
  observer : Option (ComparisonDecompositionObservation → Except PyError Unit)

/-- `_identity_by_id.get(document_id)`: a later identity replaces an earlier one. -/
def identityById (config : BilateralComparisonConfig) (documentId : String) :
    Option DocumentQueryIdentity :=
  config.documentIdentities.reverse.find? fun identity => decide (identity.documentId = documentId)

/-- `{document_id: question for document_id in route_ids}`. -/
def unchangedQueries (routeIds : List String) (question : String) : List (String × String) :=
  routeIds.eraseDups.map fun documentId => (documentId, question)

/-- `_fallback`. -/
def fallbackPlan (routeIds : List String) (question : String) (failureCode : String) :
    RouteQueryPlan :=
  ⟨"FALLBACK", unchangedQueries routeIds question, some failureCode⟩

/-- The end of `plan`, of what `_decompose` returns. -/
def concludePlan (question a b : String) : Option (List (String × List Char)) → RouteQueryPlan
  | none => fallbackPlan [a, b] question "BILATERAL_DECOMPOSITION_UNPROVEN"
  | some queries =>
    if (queries.map Prod.fst).toFinset ≠ [a, b].toFinset ∨
      queries.any fun entry => isBlank entry.2 then
      fallbackPlan [a, b] question "BILATERAL_DECOMPOSITION_UNPROVEN"
    else ⟨"APPLIED", queries.map fun entry => (entry.1, String.ofList entry.2), none⟩

/-- `plan`, without the observer. -/
def chooseQueries (config : BilateralComparisonConfig) (enabled : Bool) (question : String)
    (routeIds : List String) :
    RouteQueryPlan :=
  if !enabled then ⟨"DISABLED", unchangedQueries routeIds question, some "SWITCH_DISABLED"⟩
  else
    match routeIds with
    | [a, b] =>
      if a = b then fallbackPlan routeIds question "ROUTE_COUNT_NOT_TWO"
      else if isBlank question.toList then fallbackPlan routeIds question "QUESTION_BLANK"
      else
        match identityById config a, identityById config b with
        | some first, some second =>
          if !containsMarker tables question.toList config.comparisonMarkers then
            fallbackPlan routeIds question "COMPARISON_NOT_PROVEN"
          else concludePlan question a b (decompose tables config question.toList first second)
        | _, _ => fallbackPlan routeIds question "DOCUMENT_IDENTITY_UNAVAILABLE"
    | _ => fallbackPlan routeIds question "ROUTE_COUNT_NOT_TWO"

/-- `plan`. -/
def BilateralComparisonQueryDecomposer.plan (decomposer : BilateralComparisonQueryDecomposer)
    (question : String) (documentIds : List String) : Except PyError RouteQueryPlan := do
  let plan := chooseQueries tables decomposer.config decomposer.enabled question documentIds
  decomposer.observer.elim (.ok ()) fun observe => observe {
    status := plan.status
    failureCode := plan.failureCode
    routeCount := documentIds.length }
  return plan

end

/-! ### What a clause is to a document -/

section

variable (tables : TextTables)

/-- The clause has an alias of the document. -/
def names (clause : List Char) (identity : DocumentQueryIdentity) : Bool :=
  (firstAliasSpan tables clause identity.aliases).isSome

/-- If the clause names both documents, it can be cut. -/
def Splits (first second : DocumentQueryIdentity) (clause : List Char) : Prop :=
  names tables clause first = true → names tables clause second = true →
    (splitBilateralClause tables clause first second).isSome = true

/-- What a clause hands to a document that it names. -/
def anchoredText (own other : DocumentQueryIdentity) (clause : List Char) : Option (List Char) :=
  if names tables clause own then
    if names tables clause other then
      (splitBilateralClause tables clause own other).bind fun bilateral =>
        bilateral.lookup own.documentId
    else some clause
  else none

/-- The indices of the clauses that name a document. -/
def anchorIndexes (own : DocumentQueryIdentity) (clauses : List (List Char)) : List Nat :=
  (clauses.zipIdx.filter fun p => names tables p.1 own).map Prod.snd

/-- The clauses that name neither document, with their indices. -/
def unanchoredClauses (first second : DocumentQueryIdentity) (clauses : List (List Char)) :
    List (Nat × List Char) :=
  (clauses.zipIdx.filter fun p => !names tables p.1 first && !names tables p.1 second).map Prod.swap

/-- What is gathered from clauses that can all be cut. -/
def gathered (first second : DocumentQueryIdentity) (clauses : List (List Char)) :
    GatheredClauses where
  pieces := [(first.documentId, clauses.filterMap (anchoredText tables first second)),
    (second.documentId, clauses.filterMap (anchoredText tables second first))]
  unanchored := unanchoredClauses tables first second clauses
  anchoredClauseIndexes := [(first.documentId, anchorIndexes tables first clauses),
    (second.documentId, anchorIndexes tables second clauses)]

end

variable {tables : TextTables} {config : BilateralComparisonConfig}
  {first second : DocumentQueryIdentity}

theorem leastSpan_spec {spans : List Span} {span : Span} (h : leastSpan spans = some span) :
    span ∈ spans ∧ ∀ other ∈ spans, span.start < other.start ∨
    (span.start = other.start ∧ span.stop ≤ other.stop) := by
  induction spans generalizing span with
  | nil => cases h
  | cons head rest ih =>
    unfold leastSpan at h
    cases hrest : leastSpan rest with
    | none =>
      rw [hrest] at h
      cases h
      have hnil : rest = [] := by
        cases rest with
        | nil => rfl
        | cons a rest => cases hrest
      subst hnil
      refine ⟨List.mem_cons_self, fun other hother => ?_⟩
      rw [List.mem_singleton.mp hother]
      exact .inr ⟨rfl, Nat.le_refl _⟩
    | some least =>
      obtain ⟨hmem, hleast⟩ := ih hrest
      rw [hrest, Option.elim_some, Option.some.injEq] at h
      unfold earlierSpan at h
      split at h
      · rename_i hle
        subst h
        refine ⟨List.mem_cons_self,
          List.forall_mem_cons.mpr ⟨.inr ⟨rfl, Nat.le_refl _⟩, fun other hother => ?_⟩⟩
        have := hleast other hother
        omega
      · rename_i hlt
        subst h
        refine ⟨List.mem_cons_of_mem _ hmem, List.forall_mem_cons.mpr ⟨by omega, hleast⟩⟩

theorem leastSpan_eq_none {spans : List Span} : leastSpan spans = none ↔ spans = [] := by
  cases spans <;> simp [leastSpan]

theorem firstAliasSpan_le {text : List Char} {aliases : List (List Char)} {span : Span}
    (h : firstAliasSpan tables text aliases = some span) : span.start ≤ span.stop := by
  obtain ⟨name, -, hname⟩ := List.mem_filterMap.mp (leastSpan_spec h).1
  obtain ⟨start, -, rfl⟩ := Option.map_eq_some_iff.mp hname
  exact Nat.le_add_right _ _

/-- Where the second document is named no later than the first one ends, nothing connects them. -/
theorem cutClause_eq_none {clause : List Char} {leftId rightId : String} {leftSpan rightSpan : Span}
    (h : rightSpan.start ≤ leftSpan.stop) :
    cutClause clause leftId leftSpan rightId rightSpan = none := by
  have hempty : slice clause leftSpan.stop rightSpan.start = [] := by
    unfold slice
    rw [List.drop_eq_nil_iff, List.length_take]
    omega
  unfold cutClause
  rw [hempty]
  rfl

theorem splitBilateralClause_comm (clause : List Char) :
    splitBilateralClause tables clause first second =
      splitBilateralClause tables clause second first := by
  unfold splitBilateralClause
  cases ha : firstAliasSpan tables clause first.aliases with
  | none => cases firstAliasSpan tables clause second.aliases <;> rfl
  | some a =>
    cases hb : firstAliasSpan tables clause second.aliases with
    | none => rfl
    | some b =>
      change (if a.start ≤ b.start then _ else _) = (if b.start ≤ a.start then _ else _)
      have hstop := firstAliasSpan_le ha
      have hstop' := firstAliasSpan_le hb
      rcases Nat.lt_trichotomy a.start b.start with hlt | heq | hlt
      · rw [if_pos hlt.le, if_neg (by omega)]
      · rw [if_pos heq.le, if_pos heq.ge, cutClause_eq_none (by omega),
          cutClause_eq_none (by omega)]
      · rw [if_neg (by omega), if_pos hlt.le]

theorem cutClause_some {clause : List Char} {leftId rightId : String} {leftSpan rightSpan : Span}
    {queries : List (String × List Char)}
    (h : cutClause clause leftId leftSpan rightId rightSpan = some queries) :
    ∃ left right, queries = [(leftId, left), (rightId, right)] := by
  unfold cutClause at h
  obtain ⟨connector, -, h⟩ := Option.bind_eq_some_iff.mp h
  obtain ⟨rightTailStart, -, h⟩ := Option.bind_eq_some_iff.mp h
  dsimp only at h
  split at h
  · cases h
  · cases h
    exact ⟨_, _, rfl⟩

theorem splitBilateralClause_some {clause : List Char} {queries : List (String × List Char)}
    (h : splitBilateralClause tables clause first second = some queries) :
    ∃ a b, queries = [(first.documentId, a), (second.documentId, b)] ∨
      queries = [(second.documentId, b), (first.documentId, a)] := by
  unfold splitBilateralClause at h
  obtain ⟨firstSpan, -, h⟩ := Option.bind_eq_some_iff.mp h
  obtain ⟨secondSpan, -, h⟩ := Option.bind_eq_some_iff.mp h
  split at h
  · obtain ⟨a, b, rfl⟩ := cutClause_some h
    exact ⟨a, b, .inl rfl⟩
  · obtain ⟨b, a, rfl⟩ := cutClause_some h
    exact ⟨a, b, .inr rfl⟩

/-! ### What is gathered -/

theorem appendTo_first {α : Type} (hne : first.documentId ≠ second.documentId) (xs ys : List α)
    (value : α) : appendTo [(first.documentId, xs), (second.documentId, ys)]
      first.documentId value = [(first.documentId, xs ++ [value]), (second.documentId, ys)] := by
  simp [appendTo, hne.symm]

theorem appendTo_second {α : Type} (hne : first.documentId ≠ second.documentId) (xs ys : List α)
    (value : α) : appendTo [(first.documentId, xs), (second.documentId, ys)]
      second.documentId value = [(first.documentId, xs), (second.documentId, ys ++ [value])] := by
  simp [appendTo, hne]

variable {own other : DocumentQueryIdentity} {clause : List Char}

theorem anchoredText_of_not (h : names tables clause own = false) :
    anchoredText tables own other clause = none := by
  unfold anchoredText
  rw [h]
  rfl

theorem anchoredText_alone (h : names tables clause own = true)
    (h' : names tables clause other = false) :
    anchoredText tables own other clause = some clause := by
  unfold anchoredText
  rw [h, h']
  rfl

theorem anchoredText_both (h : names tables clause own = true)
    (h' : names tables clause other = true) : anchoredText tables own other clause =
      (splitBilateralClause tables clause own other).bind fun bilateral =>
        bilateral.lookup own.documentId := by
  unfold anchoredText
  rw [h, h']
  rfl

theorem gathered_append (clauses : List (List Char)) (clause : List Char) :
    gathered tables first second (clauses ++ [clause]) = {
      pieces := [(first.documentId, clauses.filterMap (anchoredText tables first second) ++
          (anchoredText tables first second clause).toList),
        (second.documentId, clauses.filterMap (anchoredText tables second first) ++
          (anchoredText tables second first clause).toList)]
      unanchored := unanchoredClauses tables first second clauses ++
        if names tables clause first || names tables clause second then []
          else [(clauses.length, clause)]
      anchoredClauseIndexes := [(first.documentId, anchorIndexes tables first clauses ++
          if names tables clause first then [clauses.length] else []),
        (second.documentId, anchorIndexes tables second clauses ++
          if names tables clause second then [clauses.length] else [])] } := by
  have hzip : (clauses ++ [clause]).zipIdx = clauses.zipIdx ++ [(clause, clauses.length)] := by
    rw [List.zipIdx_append, Nat.zero_add]
    rfl
  have hone : ∀ f : List Char → Option (List Char), [clause].filterMap f = (f clause).toList := by
    intro f
    cases h : f clause <;> simp [h]
  unfold gathered unanchoredClauses anchorIndexes
  simp only [hzip, List.filterMap_append, List.filter_append, List.map_append, hone]
  cases hfirst : names tables clause first <;> cases hsecond : names tables clause second <;>
    simp [hfirst, hsecond]

/-- One clause more is gathered as it should be, if it can be cut. -/
theorem gatherClause_gathered (tables : TextTables) (hne : first.documentId ≠ second.documentId)
    (clauses : List (List Char)) (clause : List Char) :
    (Splits tables first second clause →
      gatherClause tables first second (gathered tables first second clauses) (clause,
        clauses.length) = some (gathered tables first second (clauses ++ [clause]))) ∧
    (¬Splits tables first second clause →
      gatherClause tables first second (gathered tables first second clauses) (clause,
        clauses.length) = none) := by
  rw [gathered_append]
  unfold gatherClause Splits
  have hnames : ∀ identity, (firstAliasSpan tables clause identity.aliases).isSome =
      names tables clause identity :=
    fun _ => rfl
  simp only [hnames]
  cases hfirst : names tables clause first with
  | false =>
    refine ⟨fun _ => ?_, fun h => absurd (fun h => by cases h) h⟩
    cases hsecond : names tables clause second with
    | false =>
      rw [anchoredText_of_not hfirst, anchoredText_of_not hsecond]
      simp [hfirst, hsecond, gathered]
    | true =>
      rw [anchoredText_of_not hfirst, anchoredText_alone hsecond hfirst]
      simp [hfirst, hsecond, gathered, GatheredClauses.anchor, appendTo_second hne]
  | true =>
    cases hsecond : names tables clause second with
    | false =>
      refine ⟨fun _ => ?_, fun h => absurd (fun _ h => by cases h) h⟩
      rw [anchoredText_alone hfirst hsecond, anchoredText_of_not hsecond]
      simp [hfirst, hsecond, gathered, GatheredClauses.anchor, appendTo_first hne]
    | true =>
      cases hsplit : splitBilateralClause tables clause first second with
      | none => simp [hfirst, hsecond]
      | some bilateral =>
        refine ⟨fun _ => ?_, fun h => absurd (fun _ _ => rfl) h⟩
        rw [anchoredText_both hfirst hsecond, anchoredText_both hsecond hfirst,
          ← (splitBilateralClause_comm clause : splitBilateralClause tables clause first second =
            _), hsplit]
        -- either document may be the left one
        rcases splitBilateralClause_some hsplit with ⟨a, b, rfl | rfl⟩
        · simp [hfirst, hsecond, gathered, GatheredClauses.anchor, appendTo_first hne,
            appendTo_second hne, List.lookup_cons, beq_false_of_ne hne.symm]
        · simp [hfirst, hsecond, gathered, GatheredClauses.anchor, appendTo_first hne,
            appendTo_second hne, List.lookup_cons, beq_false_of_ne hne]

theorem foldlM_gatherClause (tables : TextTables) (hne : first.documentId ≠ second.documentId)
    (clauses : List (List Char)) : ((∀ clause ∈ clauses, Splits tables first second clause) →
      clauses.zipIdx.foldlM (gatherClause tables first second) (gathered tables first second []) =
        some (gathered tables first second clauses)) ∧
    ((¬∀ clause ∈ clauses, Splits tables first second clause) →
      clauses.zipIdx.foldlM (gatherClause tables first second) (gathered tables first second []) =
        none) := by
  induction clauses using List.reverseRecOn with
  | nil => exact ⟨fun _ => rfl, fun h => absurd (fun _ h => absurd h List.not_mem_nil) h⟩
  | append_singleton clauses clause ih =>
    have hzip : (clauses ++ [clause]).zipIdx = clauses.zipIdx ++ [(clause, clauses.length)] := by
      rw [List.zipIdx_append, Nat.zero_add]
      rfl
    have hall : (∀ c ∈ clauses ++ [clause], Splits tables first second c) ↔
        (∀ c ∈ clauses, Splits tables first second c) ∧ Splits tables first second clause := by
      simp [or_imp, forall_and]
    obtain ⟨hsplits, hcut⟩ := gatherClause_gathered tables hne clauses clause
    rw [hzip, List.foldlM_append, hall]
    by_cases hbefore : ∀ c ∈ clauses, Splits tables first second c
    · rw [ih.1 hbefore]
      change (_ → (gatherClause tables first second (gathered tables first second clauses) (clause,
        clauses.length) >>= fun s => some s) = _) ∧
        (_ → (gatherClause tables first second (gathered tables first second clauses)
          (clause, clauses.length) >>= fun s => some s) = _)
      refine ⟨fun h => ?_, fun h => ?_⟩
      · rw [hsplits h.2]
        rfl
      · rw [hcut fun hclause => h ⟨hbefore, hclause⟩]
        rfl
    · rw [ih.2 hbefore]
      exact ⟨fun h => absurd h.1 hbefore, fun _ => rfl⟩

/-! ### What a document gets -/

section

variable (tables : TextTables)

/-- The first clause that names a document. -/
def firstAnchor (own : DocumentQueryIdentity) (clauses : List (List Char)) : Nat :=
  ((anchorIndexes tables own clauses).min?).getD 0

/-- A clause without a document comes before the first one that names the document. -/
def leadingClauses (own other : DocumentQueryIdentity) (clauses : List (List Char)) :
    List (Nat × List Char) :=
  (unanchoredClauses tables own other clauses).filter fun p =>
    decide (p.1 < firstAnchor tables own clauses)

def laterClauses (own other : DocumentQueryIdentity) (clauses : List (List Char)) :
    List (Nat × List Char) :=
  (unanchoredClauses tables own other clauses).filter fun p =>
    decide (firstAnchor tables own clauses ≤ p.1)

/-- The texts that a document gets. If only one document is named, the clauses before it go to the
other one. -/
def handed (own other : DocumentQueryIdentity) (clauses : List (List Char)) : List (List Char) :=
  clauses.filterMap (anchoredText tables own other) ++
    (if (anchorIndexes tables own clauses).isEmpty then
      leadingClauses tables other own clauses ++ laterClauses tables other own clauses
    else if (anchorIndexes tables other clauses).isEmpty then laterClauses tables own other clauses
    else unanchoredClauses tables own other clauses).map Prod.snd

/-- The query of a document. -/
def sideQuery (own other : DocumentQueryIdentity) (question : List Char) : List Char :=
  normalizeQuery (joinSpaced (handed tables own other (clausesOf question)))

/-- A transition marker leads from clauses about neither document over to the only one that is
named. -/
def LeadsOver (config : BilateralComparisonConfig) (question : List Char)
    (own other : DocumentQueryIdentity) : Prop :=
  leadingClauses tables own other (clausesOf question) ≠ [] ∧
    ∃ anchor, firstMarkerAnchor tables question config.transitionMarkers = some anchor ∧
      anchor < firstDocumentAnchor tables question own.aliases

/-- Both documents are named, or one is and the question leads over to it. -/
def AnchorsProven (config : BilateralComparisonConfig) (question : List Char)
    (first second : DocumentQueryIdentity) : Prop :=
  let named := fun identity => anchorIndexes tables identity (clausesOf question) ≠ []
  (named first ∧ named second) ∨
    (named first ∧ ¬named second ∧ LeadsOver tables config question first second) ∨
    (¬named first ∧ named second ∧ LeadsOver tables config question second first)

/-- When a question is decomposed. -/
structure Decomposes (config : BilateralComparisonConfig) (question : List Char)
    (first second : DocumentQueryIdentity) : Prop where
  clauses : clausesOf question ≠ []
  splits : ∀ clause ∈ clausesOf question, Splits tables first second clause
  anchored : AnchorsProven tables config question first second
  queries : sideQuery tables first second question ≠ [] ∧
    sideQuery tables second first question ≠ []

end

/-! ### The two queries -/

variable {question : List Char}

theorem unanchoredClauses_comm (clauses : List (List Char)) :
    unanchoredClauses tables first second clauses =
      unanchoredClauses tables second first clauses := by
  unfold unanchoredClauses
  congr 1
  exact List.filter_congr fun p _ => Bool.and_comm _ _

theorem appendUnanchored_eq (hne : first.documentId ≠ second.documentId) (xs ys : List (List Char))
    (unanchored : List (Nat × List Char)) :
    appendUnanchored first second [(first.documentId, xs), (second.documentId, ys)] unanchored =
      [(first.documentId, xs ++ unanchored.map Prod.snd),
        (second.documentId, ys ++ unanchored.map Prod.snd)] := by
  unfold appendUnanchored
  induction unanchored generalizing xs ys with
  | nil => simp
  | cons p rest ih =>
    rw [List.foldl_cons, appendTo_first hne, appendTo_second hne, ih]
    simp

theorem foldl_appendTo_first (hne : first.documentId ≠ second.documentId) (xs ys : List (List Char))
    (leading : List (Nat × List Char)) :
    leading.foldl (fun pieces p => appendTo pieces first.documentId p.2) [(first.documentId, xs),
      (second.documentId, ys)] =
        [(first.documentId, xs ++ leading.map Prod.snd), (second.documentId, ys)] := by
  induction leading generalizing xs with
  | nil => simp
  | cons p rest ih =>
    rw [List.foldl_cons, appendTo_first hne, ih]
    simp

theorem foldl_appendTo_second (hne : first.documentId ≠ second.documentId)
    (xs ys : List (List Char)) (leading : List (Nat × List Char)) :
    leading.foldl (fun pieces p => appendTo pieces second.documentId p.2) [(first.documentId, xs),
      (second.documentId, ys)] =
        [(first.documentId, xs), (second.documentId, ys ++ leading.map Prod.snd)] := by
  induction leading generalizing ys with
  | nil => simp
  | cons p rest ih =>
    rw [List.foldl_cons, appendTo_second hne, ih]
    simp

theorem assignLeading_eq (tables : TextTables) (config : BilateralComparisonConfig)
    (question : List Char) (first second own other : DocumentQueryIdentity)
    (gathered : GatheredClauses)
    (hown : ([first, second].find? fun identity => decide (identity.documentId = own.documentId)) =
      some own)
    (hother : ([first, second].find?
      fun identity => decide (identity.documentId ≠ own.documentId)) = some other)
    (hindexes : gathered.anchoredClauseIndexes.lookup own.documentId =
      some (anchorIndexes tables own (clausesOf question)))
    (hunanchored : gathered.unanchored = unanchoredClauses tables own other (clausesOf question)) :
    (LeadsOver tables config question own other →
      assignLeading tables config question first second gathered own.documentId =
        some ((leadingClauses tables own other (clausesOf question)).foldl
          (fun pieces p => appendTo pieces other.documentId p.2) gathered.pieces,
          laterClauses tables own other (clausesOf question))) ∧
    (¬LeadsOver tables config question own other →
      assignLeading tables config question first second gathered own.documentId = none) := by
  unfold assignLeading
  rw [hown, hother, hindexes, hunanchored]
  change (_ → ((firstMarkerAnchor tables question config.transitionMarkers).bind
    fun transitionAnchor =>
      if (leadingClauses tables own other (clausesOf question)).isEmpty ||
        decide (firstDocumentAnchor tables question own.aliases ≤ transitionAnchor)
          then none else _) = _) ∧
    (_ → ((firstMarkerAnchor tables question config.transitionMarkers).bind fun transitionAnchor =>
      if (leadingClauses tables own other (clausesOf question)).isEmpty ||
        decide (firstDocumentAnchor tables question own.aliases ≤ transitionAnchor)
          then none else _) = _)
  unfold LeadsOver
  cases firstMarkerAnchor tables question config.transitionMarkers with
  | none =>
    refine ⟨?_, fun _ => rfl⟩
    rintro ⟨-, anchor, hanchor, -⟩
    cases hanchor
  | some anchor =>
    rw [Option.bind_some]
    constructor
    · rintro ⟨hleading, _, ⟨⟩, hlt⟩
      rw [if_neg]
      · rfl
      · simp [hleading, hlt]
    · intro h
      rw [if_pos]
      rw [Bool.or_eq_true, decide_eq_true_iff, List.isEmpty_iff]
      by_contra hnot
      rw [not_or] at hnot
      exact h ⟨hnot.1, anchor, rfl, by omega⟩

/-- The pieces are complete if the documents that are named are enough. -/
theorem assign_gathered (tables : TextTables) (config : BilateralComparisonConfig)
    (question : List Char) (hne : first.documentId ≠ second.documentId) :
    (AnchorsProven tables config question first second → ∃ assigned,
      assignUnanchored tables config question first second
        (gathered tables first second (clausesOf question)) = some assigned ∧
      appendUnanchored first second assigned.1 assigned.2 =
        [(first.documentId, handed tables first second (clausesOf question)),
          (second.documentId, handed tables second first (clausesOf question))]) ∧
    (¬AnchorsProven tables config question first second →
      assignUnanchored tables config question first second
        (gathered tables first second (clausesOf question)) = none) := by
  unfold assignUnanchored AnchorsProven
  have hindexes : (gathered tables first second (clausesOf question)).anchoredClauseIndexes =
      [(first.documentId, anchorIndexes tables first (clausesOf question)),
        (second.documentId, anchorIndexes tables second (clausesOf question))] := rfl
  have hpieces : (gathered tables first second (clausesOf question)).pieces =
      [(first.documentId, (clausesOf question).filterMap (anchoredText tables first second)),
        (second.documentId, (clausesOf question).filterMap (anchoredText tables second first))] :=
          rfl
  by_cases hfirst : anchorIndexes tables first (clausesOf question) = [] <;>
    by_cases hsecond : anchorIndexes tables second (clausesOf question) = []
  · simp [hindexes, hfirst, hsecond]
  · have hkeys : ((gathered tables first second (clausesOf question)).anchoredClauseIndexes.filter
        fun entry => !entry.2.isEmpty).map Prod.fst = [second.documentId] := by
      simp [hindexes, hfirst, hsecond]
    obtain ⟨hleads, hnot⟩ := assignLeading_eq tables config question first second second first
      (gathered tables first second (clausesOf question)) (by simp [hne]) (by simp [hne])
      (by simp [hindexes, List.lookup_cons, beq_false_of_ne hne.symm]) (unanchoredClauses_comm _)
    rw [hkeys]
    dsimp only
    constructor
    · intro h
      obtain ⟨h, -⟩ | ⟨h, -⟩ | ⟨-, -, h⟩ := h
      · exact absurd hfirst h
      · exact absurd hfirst h
      · refine ⟨_, hleads h, ?_⟩
        rw [hpieces, foldl_appendTo_first hne, appendUnanchored_eq hne]
        unfold handed
        simp [hfirst, hsecond]
    · intro h
      exact hnot fun hleads => h (.inr (.inr ⟨not_not_intro hfirst, hsecond, hleads⟩))
  · have hkeys : ((gathered tables first second (clausesOf question)).anchoredClauseIndexes.filter
        fun entry => !entry.2.isEmpty).map Prod.fst = [first.documentId] := by
      simp [hindexes, hfirst, hsecond]
    obtain ⟨hleads, hnot⟩ := assignLeading_eq tables config question first second first second
      (gathered tables first second (clausesOf question)) (by simp) (by simp [hne.symm])
      (by simp [hindexes]) rfl
    rw [hkeys]
    dsimp only
    constructor
    · intro h
      obtain ⟨-, h⟩ | ⟨-, -, h⟩ | ⟨h, -⟩ := h
      · exact absurd hsecond h
      · refine ⟨_, hleads h, ?_⟩
        rw [hpieces, foldl_appendTo_second hne, appendUnanchored_eq hne]
        unfold handed
        simp [hfirst, hsecond]
      · exact absurd hfirst h
    · intro h
      exact hnot fun hleads => h (.inr (.inl ⟨hfirst, not_not_intro hsecond, hleads⟩))
  · have hkeys : ((gathered tables first second (clausesOf question)).anchoredClauseIndexes.filter
        fun entry => !entry.2.isEmpty).map Prod.fst = [first.documentId, second.documentId] := by
      simp [hindexes, hfirst, hsecond]
    rw [hkeys]
    refine ⟨fun _ => ⟨_, rfl, ?_⟩, fun h => absurd (.inl ⟨hfirst, hsecond⟩) h⟩
    rw [hpieces, appendUnanchored_eq hne]
    unfold handed
    have hcomm : unanchoredClauses tables second first (clausesOf question) =
        unanchoredClauses tables first second _ :=
      unanchoredClauses_comm _
    simp [hfirst, hsecond, hcomm, gathered]

theorem decompose_eq (hne : first.documentId ≠ second.documentId) :
    (Decomposes tables config question first second →
      decompose tables config question first second =
      some [(first.documentId, sideQuery tables first second question),
        (second.documentId, sideQuery tables second first question)]) ∧
    (¬Decomposes tables config question first second →
      decompose tables config question first second = none) := by
  unfold decompose
  obtain ⟨hgather, hcut⟩ := foldlM_gatherClause tables hne (clausesOf question)
  obtain ⟨hassign, hunproven⟩ := assign_gathered tables config question hne
  have hstart : (⟨[(first.documentId, []), (second.documentId, [])], [],
      [(first.documentId, []), (second.documentId, [])]⟩ : GatheredClauses) =
        gathered tables first second [] := rfl
  dsimp only
  rw [hstart]
  by_cases hclauses : clausesOf question = []
  · rw [if_pos (List.isEmpty_iff.mpr hclauses)]
    exact ⟨fun h => absurd hclauses h.clauses, fun _ => rfl⟩
  rw [if_neg fun h => hclauses (List.isEmpty_iff.mp h)]
  by_cases hsplits : ∀ clause ∈ clausesOf question, Splits tables first second clause
  · rw [hgather hsplits]
    by_cases hanchored : AnchorsProven tables config question first second
    · obtain ⟨assigned, hassigned, hpieces⟩ := hassign hanchored
      change (_ → ((assignUnanchored tables config question first second
          (gathered tables first second (clausesOf question))).bind fun assigned => _) = _) ∧
        (_ → ((assignUnanchored tables config question first second
          (gathered tables first second (clausesOf question))).bind fun assigned => _) = _)
      rw [hassigned]
      change (_ → (if ((appendUnanchored first second assigned.1 assigned.2).map _).any _
        then none else _) = _) ∧
        (_ → (if ((appendUnanchored first second assigned.1 assigned.2).map _).any _
          then none else _) = _)
      rw [hpieces]
      constructor
      · intro h
        obtain ⟨hown, hother⟩ := h.queries
        rw [if_neg]
        · rfl
        · simpa using ⟨hown, hother⟩
      · intro h
        rw [if_pos]
        by_contra hany
        refine h ⟨hclauses, hsplits, hanchored, ?_⟩
        unfold sideQuery
        simpa using hany
    · change (_ → ((assignUnanchored tables config question first second
          (gathered tables first second (clausesOf question))).bind fun assigned => _) = _) ∧
        (_ → ((assignUnanchored tables config question first second
          (gathered tables first second (clausesOf question))).bind fun assigned => _) = _)
      rw [hunproven hanchored]
      exact ⟨fun h => absurd h.anchored hanchored, fun _ => rfl⟩
  · rw [hcut hsplits]
    exact ⟨fun h => absurd h.splits hsplits, fun _ => rfl⟩

theorem Splits.symm {clause : List Char} (h : Splits tables first second clause) :
    Splits tables second first clause := by
  intro hsecond hfirst
  rw [splitBilateralClause_comm]
  exact h hfirst hsecond

theorem AnchorsProven.symm (h : AnchorsProven tables config question first second) :
    AnchorsProven tables config question second first := by
  obtain ⟨hfirst, hsecond⟩ | h | h := h
  · exact .inl ⟨hsecond, hfirst⟩
  · exact .inr (.inr ⟨h.2.1, h.1, h.2.2⟩)
  · exact .inr (.inl ⟨h.2.1, h.1, h.2.2⟩)

theorem Decomposes.symm (h : Decomposes tables config question first second) :
    Decomposes tables config question second first where
  clauses := h.clauses
  splits := fun clause hclause => (h.splits clause hclause).symm
  anchored := h.anchored.symm
  queries := h.queries.symm

/-! ### Route order -/

variable {enabled : Bool} {text : String} {routeIds : List String}

theorem identityById_documentId {documentId : String} {identity : DocumentQueryIdentity}
    (h : identityById config documentId = some identity) : identity.documentId = documentId := by
  simpa using List.find?_some h

theorem lookup_unchangedQueries (documentId : String) :
    (unchangedQueries routeIds text).lookup documentId = if documentId ∈ routeIds then some text
      else none := by
  have hlookup : ∀ ids : List String, (ids.map fun id => (id, text)).lookup documentId =
      if documentId ∈ ids then some text else none := by
    intro ids
    induction ids with
    | nil => rfl
    | cons id rest ih =>
      rw [List.map_cons, List.lookup_cons]
      by_cases heq : documentId = id
      · simp [heq]
      · rw [beq_false_of_ne heq, ih]
        simp [heq]
  unfold unchangedQueries
  rw [hlookup]
  simp only [List.mem_eraseDups]

theorem keys_unchangedQueries :
    ((unchangedQueries routeIds text).map Prod.fst).toFinset = routeIds.toFinset := by
  unfold unchangedQueries
  ext documentId
  simp [List.mem_eraseDups]

/-- What a plan says, whatever the order of its routes. -/
structure RouteQueryPlan.SameFor (plan other : RouteQueryPlan) : Prop where
  status : plan.status = other.status
  failureCode : plan.failureCode = other.failureCode
  queries : ∀ documentId, plan.queries.lookup documentId = other.queries.lookup documentId

/-- A plan has a query for every route, and the question itself if it is not decomposed. -/
structure RouteQueryPlan.Covers (plan : RouteQueryPlan) (question : String)
    (routeIds : List String) : Prop where
  keys : (plan.queries.map Prod.fst).toFinset = routeIds.toFinset
  unchanged : plan.status ≠ "APPLIED" → ∀ documentId ∈ routeIds,
    plan.queries.lookup documentId = some question

theorem covers_unchangedQueries (status : String) (code : Option String) :
    (⟨status, unchangedQueries routeIds text, code⟩ : RouteQueryPlan).Covers text routeIds where
  keys := keys_unchangedQueries
  unchanged _ documentId hmem := by rw [lookup_unchangedQueries, if_pos hmem]

theorem concludePlan_covers (question a b : String) (queries : Option (List (String × List Char))) :
    (concludePlan question a b queries).Covers question [a, b] := by
  cases queries with
  | none => exact covers_unchangedQueries _ _
  | some queries =>
    change RouteQueryPlan.Covers (if _ then _ else _) _ _
    split
    · exact covers_unchangedQueries _ _
    · rename_i hproven
      rw [not_or, not_not] at hproven
      refine ⟨?_, fun h => absurd rfl h⟩
      rw [List.map_map]
      exact hproven.1

theorem chooseQueries_covers (config : BilateralComparisonConfig) (enabled : Bool)
    (question : String) (routeIds : List String) :
    (chooseQueries tables config enabled question routeIds).Covers question routeIds := by
  unfold chooseQueries
  split
  · exact covers_unchangedQueries _ _
  · split
    · split
      · exact covers_unchangedQueries _ _
      · split
        · exact covers_unchangedQueries _ _
        · split
          · split
            · exact covers_unchangedQueries _ _
            · exact concludePlan_covers question _ _ _
          · exact covers_unchangedQueries _ _
    · exact covers_unchangedQueries _ _

theorem sameFor_unchangedQueries {a b : String} (status : String) (code : Option String) :
    (⟨status, unchangedQueries [a, b] text, code⟩ : RouteQueryPlan).SameFor
    ⟨status, unchangedQueries [b, a] text, code⟩ where
  status := rfl
  failureCode := rfl
  queries documentId := by
    change (unchangedQueries [a, b] text).lookup documentId =
      (unchangedQueries [b, a] text).lookup documentId
    rw [lookup_unchangedQueries, lookup_unchangedQueries]
    simp only [List.mem_pair, or_comm]

theorem lookup_swap {a b : String} (hne : a ≠ b) (x y : String) (documentId : String) :
    [(a, x), (b, y)].lookup documentId = [(b, y), (a, x)].lookup documentId := by
  rw [List.lookup_cons, List.lookup_cons, List.lookup_cons, List.lookup_cons]
  by_cases ha : documentId = a
  · rw [ha, beq_self_eq_true, beq_false_of_ne hne]
  · rw [beq_false_of_ne ha]

theorem concludePlan_some (question a b : String) (x y : List Char) :
    concludePlan question a b (some [(a, x), (b, y)]) =
      if isBlank x = true ∨ isBlank y = true
        then fallbackPlan [a, b] question "BILATERAL_DECOMPOSITION_UNPROVEN"
      else ⟨"APPLIED", [(a, String.ofList x), (b, String.ofList y)], none⟩ := by
  unfold concludePlan
  refine if_congr ?_ rfl rfl
  simp

theorem concludePlan_swap {a b : String} (hne : a ≠ b) (question : String) (x y : List Char) :
    (concludePlan question a b (some [(a, x), (b, y)])).SameFor
      (concludePlan question b a (some [(b, y), (a, x)])) := by
  rw [concludePlan_some, concludePlan_some]
  by_cases hblank : isBlank x = true ∨ isBlank y = true
  · rw [if_pos hblank, if_pos hblank.symm]
    exact sameFor_unchangedQueries _ _
  · rw [if_neg hblank, if_neg fun h => hblank h.symm]
    exact ⟨rfl, rfl, lookup_swap hne _ _⟩

theorem chooseQueries_swap (config : BilateralComparisonConfig) (enabled : Bool) (question : String)
    (a b : String) :
    (chooseQueries tables config enabled question [a, b]).SameFor
      (chooseQueries tables config enabled question [b, a]) := by
  unfold chooseQueries
  by_cases henabled : (!enabled) = true
  · rw [if_pos henabled, if_pos henabled]
    exact sameFor_unchangedQueries _ _
  rw [if_neg henabled, if_neg henabled]
  dsimp only
  by_cases hab : a = b
  · rw [if_pos hab, if_pos hab.symm]
    exact sameFor_unchangedQueries _ _
  rw [if_neg hab, if_neg (Ne.symm hab)]
  by_cases hblank : isBlank question.toList = true
  · rw [if_pos hblank, if_pos hblank]
    exact sameFor_unchangedQueries _ _
  rw [if_neg hblank, if_neg hblank]
  cases hfirst : identityById config a with
  | none => cases identityById config b <;> exact sameFor_unchangedQueries _ _
  | some first =>
    cases hsecond : identityById config b with
    | none => exact sameFor_unchangedQueries _ _
    | some second =>
      dsimp only
      by_cases hmarker : (!containsMarker tables question.toList config.comparisonMarkers) = true
      · rw [if_pos hmarker, if_pos hmarker]
        exact sameFor_unchangedQueries _ _
      rw [if_neg hmarker, if_neg hmarker]
      obtain rfl := identityById_documentId hfirst
      obtain rfl := identityById_documentId hsecond
      by_cases hdecomposes : Decomposes tables config question.toList first second
      · rw [(decompose_eq hab).1 hdecomposes, (decompose_eq (Ne.symm hab)).1 hdecomposes.symm]
        exact concludePlan_swap hab question _ _
      · rw [(decompose_eq hab).2 hdecomposes, (decompose_eq (Ne.symm hab)).2
          fun h => hdecomposes h.symm]
        exact sameFor_unchangedQueries _ _

/-- Who is shown the plan can stop it but not change it. -/
theorem plan_eq_ok {decomposer : BilateralComparisonQueryDecomposer} {question : String}
    {plan : RouteQueryPlan} (h : decomposer.plan tables question routeIds = .ok plan) :
    plan = chooseQueries tables decomposer.config decomposer.enabled question routeIds := by
  unfold BilateralComparisonQueryDecomposer.plan at h
  obtain ⟨-, -, ⟨⟩⟩ := bind_eq_ok.mp h
  rfl

/-- The order of the two routes does not matter; every plan has a query for each of its routes, the
question itself if it is not decomposed. -/
theorem plan_order_independent (tables : TextTables)
    (decomposer : BilateralComparisonQueryDecomposer) (question : String) :
    ((∀ observe ∈ decomposer.observer, ∀ observation, observe observation = .ok ()) →
      ∀ a b, ∃ plan swapped, decomposer.plan tables question [a, b] = .ok plan ∧
      decomposer.plan tables question [b, a] = .ok swapped ∧
        plan.SameFor swapped) ∧
    ∀ documentIds plan, decomposer.plan tables question documentIds = .ok plan →
    plan.Covers question documentIds := by
  constructor
  · intro hquiet a b
    have hplan : ∀ documentIds, decomposer.plan tables question documentIds =
        .ok (chooseQueries tables decomposer.config decomposer.enabled question documentIds) := by
      intro documentIds
      unfold BilateralComparisonQueryDecomposer.plan
      cases hobserver : decomposer.observer with
      | none => rfl
      | some observe =>
        dsimp only
        rw [Option.elim_some, hquiet observe hobserver]
        rfl
    exact ⟨_, _, hplan _, hplan _, chooseQueries_swap decomposer.config decomposer.enabled
      question a b⟩
  · intro documentIds plan hplan
    rw [plan_eq_ok hplan]
    exact chooseQueries_covers decomposer.config decomposer.enabled question documentIds

/-- Two documents of two aliases. -/
def pairConfig : BilateralComparisonConfig where
  defaultEnabled := false
  failurePolicy := "FALLBACK_TO_ORIGINAL_QUERY"
  comparisonMarkers := ["不同".toList]
  transitionMarkers := ["同时".toList]
  documentIdentities := [⟨"document_alpha", ["document_alpha".toList, "AlphaStudy".toList]⟩,
    ⟨"document_beta", ["document_beta".toList, "BetaBench".toList]⟩]

theorem plan_order_independent_pair : ∃ plan swapped,
    (⟨pairConfig, true, some fun _ => .ok ()⟩ : BilateralComparisonQueryDecomposer).plan asciiText
      "AlphaStudy与BetaBench在X有何不同" ["document_alpha", "document_beta"] = .ok plan ∧
    (⟨pairConfig, true, some fun _ => .ok ()⟩ : BilateralComparisonQueryDecomposer).plan asciiText
      "AlphaStudy与BetaBench在X有何不同" ["document_beta", "document_alpha"] = .ok swapped ∧
    plan.SameFor swapped :=
  (plan_order_independent asciiText ⟨pairConfig, true, some fun _ => .ok ()⟩
    "AlphaStudy与BetaBench在X有何不同").1 (by rintro _ ⟨⟩ _; rfl) "document_alpha" "document_beta"

end ZhiyanRag.Retrieval
