import ZhiyanRag.Rag.ClaimEvidence
import ZhiyanRag.Retrieval.Online

/-!
# Route coverage

`BilateralComparisonRouteCoverageSelector` of `comparison_route_coverage.py`: of the fused
candidates of two documents it takes the first of each and fills up to three in their order.
`plan_optimal` says that no three candidates that cover both documents are ranked better.
-/

namespace ZhiyanRag.Retrieval

open Ingestion Rag

/-! ### Configuration -/

structure BilateralRouteCoverageConfig where
  defaultEnabled : Bool
  failurePolicy : String
  eligibleRouteCount : Int
  finalTopK : Int
  minimumPerRoute : Int
  comparisonMarkers : List (List Char)
  deriving DecidableEq

def configKeys : List String :=
  ["schema_version", "variable_id", "default_enabled", "failure_policy", "eligible_route_count",
    "final_top_k", "minimum_per_route", "comparison_markers"]

section

variable (tables : TextTables)

/-- The markers of a configuration, stripped. -/
def loadMarkers : JsonValue → Except PyError (List (List Char))
  | .array items => do
    let texts := items.filterMap fun item => (item.str?.map fun text => strip text.toList).filter
      fun text => !text.isEmpty
    ensure (!items.isEmpty && decide (texts.length = items.length)) .valueError
      "comparison route coverage markers are invalid"
    ensure (decide (texts.map (casefold tables)).Nodup) .valueError
      "comparison route coverage markers are duplicated"
    return texts
  | _ => .error ⟨.valueError, "comparison route coverage markers are invalid"⟩

/-- `load_bilateral_route_coverage_config`, of the JSON in the file. -/
def loadBilateralRouteCoverageConfig : JsonValue → Except PyError BilateralRouteCoverageConfig
  | .object members => do
    let get := fun field => (members.lookup field).getD .null
    ensure (hasKeys members configKeys) .valueError
      "comparison route coverage config fields are invalid"
    ensure ((get "schema_version").equals
      (.str "bilateral_comparison_route_coverage_top3_config_v1")) .valueError
        "comparison route coverage config schema is unsupported"
    ensure ((get "variable_id").equals (.str "BILATERAL_COMPARISON_ROUTE_COVERAGE_TOP3_V1"))
      .valueError "comparison route coverage variable identity is invalid"
    ensure ((get "default_enabled").isFalse) .valueError
      "comparison route coverage must default to disabled"
    ensure ((get "failure_policy").equals (.str "FALLBACK_TO_ORIGINAL_RRF_TOP3")) .valueError
      "comparison route coverage failure policy is invalid"
    ensure ((get "eligible_route_count").equals (.int 2) && (get "final_top_k").equals (.int 3) &&
      (get "minimum_per_route").equals (.int 1)) .valueError
        "comparison route coverage bounds are invalid"
    let comparisonMarkers ← loadMarkers tables (get "comparison_markers")
    return {
      defaultEnabled := false
      failurePolicy := "FALLBACK_TO_ORIGINAL_RRF_TOP3"
      eligibleRouteCount := 2
      finalTopK := 3
      minimumPerRoute := 1
      comparisonMarkers }
  | _ => .error ⟨.valueError, "comparison route coverage config fields are invalid"⟩

/-! ### The plan -/

/-- What the observer is shown; the latency is a timing and left out. -/
structure RouteCoverageObservation where
  status : String
  failureCode : Option String
  routeCount : Nat
  candidateCount : Nat
  selectionChanged : Bool

structure BilateralComparisonRouteCoverageSelector where
  config : BilateralRouteCoverageConfig
  enabled : Bool
  observer : Option (RouteCoverageObservation → Except PyError Unit)

/-- `_has_comparison_marker`. -/
def hasComparisonMarker (config : BilateralRouteCoverageConfig) (question : String) : Bool :=
  config.comparisonMarkers.any fun marker =>
    decide (casefold tables marker <:+: casefold tables question.toList)

/-- `xs[:k]`. -/
def firstK {α : Type} (xs : List α) (k : Int) : List α :=
  xs.take (if k < 0 then (xs.length + k).toNat else k.toNat)

variable {Score : Type} {float : FloatArithmetic Score}

/-- `str(candidate.chunk["document_id"])`. -/
def RankedChunk.documentId (candidate : RankedChunk float) : String :=
  ((candidate.chunk.get "document_id").str?).getD ""

/-- `first_by_route`: the first candidate of each document. -/
def firstByRoute (candidates : List (RankedChunk float)) : List (String × String) :=
  candidates.foldl (fun first candidate =>
    if (first.lookup candidate.documentId).isSome then first
      else first ++ [(candidate.documentId, candidate.chunkId)]) []

/-- The selection, filled up to `topK` identifiers. -/
def fillSelection (topK : Int) : Finset String → List (RankedChunk float) → Finset String
  | selected, [] => selected
  | selected, candidate :: rest =>
    if topK ≤ (selected.card : Int) then selected
      else fillSelection topK (insert candidate.chunkId selected) rest

/-- The identifiers of the selection, in the order of the candidates. -/
def selectedIds (candidates : List (RankedChunk float)) (topK : Int) : List String :=
  let selected := fillSelection topK ((firstByRoute candidates).map Prod.snd).toFinset candidates
  (candidates.map (·.chunkId)).filter fun chunkId => decide (chunkId ∈ selected)

/-- `plan`, without the observer. -/
def choosePlan (config : BilateralRouteCoverageConfig) (enabled : Bool) (question : String)
    (candidates : List (RankedChunk float)) (routeIds : List String) (topK : Int) :
    RouteCoveragePlan :=
  let originalIds := (firstK candidates topK).map (·.chunkId)
  let fallback := fun code => (⟨"FALLBACK", originalIds, some code⟩ : RouteCoveragePlan)
  if !enabled then ⟨"DISABLED", originalIds, some "SWITCH_DISABLED"⟩
  else if (routeIds.length : Int) ≠ config.eligibleRouteCount ∨ ¬routeIds.Nodup
    then fallback "ROUTE_COUNT_NOT_TWO"
  else if topK ≠ config.finalTopK then fallback "FINAL_TOP_K_NOT_THREE"
  else if isBlank question.toList || !hasComparisonMarker tables config question
    then fallback "COMPARISON_NOT_PROVEN"
  else if (candidates.length : Int) < topK then fallback "CANDIDATE_COUNT_INSUFFICIENT"
  else if !candidates.all fun candidate => routeIds.contains candidate.documentId then
    fallback "CANDIDATE_ROUTE_OUTSIDE_SCOPE"
  else if ((firstByRoute candidates).map Prod.fst).toFinset ≠ routeIds.toFinset
    then fallback "ROUTE_CANDIDATE_UNAVAILABLE"
  else if ((selectedIds candidates topK).length : Int) ≠ topK
    then fallback "SELECTION_CARDINALITY_INVALID"
  else ⟨"APPLIED", selectedIds candidates topK, none⟩

/-- `plan`. -/
def BilateralComparisonRouteCoverageSelector.plan
    (selector : BilateralComparisonRouteCoverageSelector) (question : String)
    (candidates : List (RankedChunk float)) (documentIds : List String) (topK : Int) :
    Except PyError RouteCoveragePlan := do
  let plan := choosePlan tables selector.config selector.enabled question candidates
    documentIds topK
  selector.observer.elim (.ok ()) fun observe => observe {
    status := plan.status
    failureCode := plan.failureCode
    routeCount := documentIds.length
    candidateCount := candidates.length
    selectionChanged := decide (plan.selectedChunkIds ≠ (firstK candidates topK).map (·.chunkId)) }
  return plan

end

/-! ### The best covering -/

variable {Score : Type} {float : FloatArithmetic Score}

/-- Both documents are found at these positions. -/
def CoversAt (candidates : List (RankedChunk float)) (left right : String)
    (positions : List Nat) : Prop :=
  ∀ route ∈ [left, right], ∃ p ∈ positions, ∃ candidate, candidates[p]? = some candidate ∧
    candidate.documentId = route

/-- The identifiers are those of three positions that cover both documents, and every other such
three come no earlier. -/
structure BestCovering (candidates : List (RankedChunk float)) (left right : String)
    (ids : List String) (i j k : Nat) : Prop where
  increasing : i < j ∧ j < k ∧ k < candidates.length
  selected : ids.map some = [i, j, k].map fun p => candidates[p]?.map (·.chunkId)
  covers : CoversAt candidates left right [i, j, k]
  best : ∀ i' j' k', i' < j' → j' < k' → k' < candidates.length →
    CoversAt candidates left right [i', j', k'] → i ≤ i' ∧ j ≤ j' ∧ k ≤ k'

/-! ### The first candidate of a document -/

theorem lookup_isSome_iff {entries : List (String × String)} {key : String} :
    (entries.lookup key).isSome = true ↔ ∃ value, (key, value) ∈ entries := by
  rw [← not_iff_not, Bool.not_eq_true, Option.isSome_eq_false_iff, Option.isNone_iff_eq_none,
    List.lookup_eq_none_iff]
  constructor
  · rintro h ⟨value, hmem⟩
    have := h _ hmem
    simp at this
  · intro h p hp
    rw [bne_iff_ne]
    rintro rfl
    exact h ⟨p.2, hp⟩

theorem mem_firstByRoute {candidates : List (RankedChunk float)} {documentId chunkId : String} :
    (documentId, chunkId) ∈ firstByRoute candidates ↔
      (candidates.find? fun candidate => decide (candidate.documentId = documentId)).map
        (·.chunkId) = some chunkId := by
  induction candidates using List.reverseRecOn generalizing documentId chunkId with
  | nil => simp [firstByRoute]
  | append_singleton candidates candidate ih =>
    have hstep : firstByRoute (candidates ++ [candidate]) =
        if ((firstByRoute candidates).lookup candidate.documentId).isSome
          then firstByRoute candidates
        else firstByRoute candidates ++ [(candidate.documentId, candidate.chunkId)] := by
      unfold firstByRoute
      rw [List.foldl_append]
      rfl
    rw [hstep, List.find?_append]
    by_cases hknown : ((firstByRoute candidates).lookup candidate.documentId).isSome = true
    · rw [if_pos hknown, ih]
      obtain ⟨known, hmem⟩ := lookup_isSome_iff.mp hknown
      cases hfind : candidates.find? fun candidate =>
        decide (candidate.documentId = documentId) with
      | some first => rfl
      | none =>
        have hne : candidate.documentId ≠ documentId := by
          rintro rfl
          rw [ih, hfind] at hmem
          cases hmem
        simp [hne]
    · rw [if_neg hknown, List.mem_append, List.mem_singleton, ih, Prod.mk.injEq]
      cases hfind : candidates.find? fun candidate =>
        decide (candidate.documentId = documentId) with
      | some first =>
        have hne : documentId ≠ candidate.documentId := by
          rintro rfl
          exact hknown (lookup_isSome_iff.mpr ⟨first.chunkId, ih.mpr (by rw [hfind]; rfl)⟩)
        simp [hne]
      | none =>
        by_cases heq : candidate.documentId = documentId
        · simp [heq, eq_comm]
        · simp [heq, Ne.symm heq]

/-! ### Three candidates -/

/-- The candidates, with the first two and the first one of the other document, or the third if the
second is of it. -/
structure Shape (candidates : List (RankedChunk float)) (first second : RankedChunk float)
    (front : List (RankedChunk float)) (third : RankedChunk float)
    (back : List (RankedChunk float)) : Prop where
  split : candidates = first :: second :: (front ++ third :: back)
  other : (second.documentId ≠ first.documentId ∧ front = []) ∨
    (second.documentId = first.documentId ∧
      (∀ candidate ∈ front, candidate.documentId = first.documentId) ∧
      third.documentId ≠ first.documentId)

theorem exists_shape {candidates : List (RankedChunk float)} (hlength : 3 ≤ candidates.length)
    (htwo : ∃ a ∈ candidates, ∃ b ∈ candidates, a.documentId ≠ b.documentId) :
    ∃ first second front third back, Shape candidates first second front third back := by
  match candidates, hlength with
  | first :: second :: third :: back, _ =>
    by_cases hsecond : second.documentId = first.documentId
    · obtain ⟨other, hother, hne⟩ : ∃ other ∈ third :: back, other.documentId ≠
          first.documentId := by
        by_contra hnone
        simp only [not_exists, not_and, not_not] at hnone
        have hall : ∀ candidate ∈ first :: second :: third :: back, candidate.documentId =
            first.documentId :=
          List.forall_mem_cons.mpr ⟨rfl, List.forall_mem_cons.mpr ⟨hsecond, hnone⟩⟩
        obtain ⟨a, ha, b, hb, hne⟩ := htwo
        exact hne ((hall a ha).trans (hall b hb).symm)
      have hsome : ((third :: back).find?
          fun candidate => decide (candidate.documentId ≠ first.documentId)).isSome = true :=
        List.find?_isSome.mpr ⟨other, hother, decide_eq_true hne⟩
      obtain ⟨found, hfound⟩ := Option.isSome_iff_exists.mp hsome
      obtain ⟨hfoundNe, front, rest, hsplit, hfront⟩ := List.find?_eq_some_iff_append.mp hfound
      refine ⟨first, second, front, found, rest, by rw [hsplit],
        .inr ⟨hsecond, fun candidate hmem => ?_, ?_⟩⟩
      · simpa using hfront candidate hmem
      · simpa using hfoundNe
    · exact ⟨first, second, [], third, back, rfl, .inl ⟨hsecond, rfl⟩⟩

/-- The position of the third one. -/
theorem Shape.best {candidates : List (RankedChunk float)} {first second third : RankedChunk float}
    {front back : List (RankedChunk float)} (h : Shape candidates first second front third back)
    {left right : String}
    (hne : left ≠ right) {i j k : Nat} (hij : i < j) (hjk : j < k)
    (hcovers : CoversAt candidates left right [i, j, k]) : front.length + 2 ≤ k := by
  rcases h.other with ⟨-, rfl⟩ | ⟨hsecond, hfront, -⟩
  · rw [List.length_nil]
    omega
  · by_contra hlt
    have hearly : ∀ (p : Nat) candidate, p ≤ k → candidates[p]? = some candidate →
        candidate.documentId = first.documentId := by
      intro p candidate hp hget
      have hget : (first :: second :: front)[p]? = some candidate := by
        rw [← hget, h.split, ← List.cons_append, ← List.cons_append, List.getElem?_append_left]
        simp only [List.length_cons]
        omega
      rcases List.mem_cons.mp (List.mem_of_getElem? hget) with rfl | hmem
      · rfl
      rcases List.mem_cons.mp hmem with rfl | hmem
      · exact hsecond
      · exact hfront candidate hmem
    have hall : ∀ route ∈ [left, right], route = first.documentId := by
      intro route hroute
      obtain ⟨p, hp, candidate, hget, rfl⟩ := hcovers route hroute
      refine hearly p candidate ?_ hget
      simp only [List.mem_cons, List.not_mem_nil, or_false] at hp
      omega
    exact hne ((hall left (by simp)).trans (hall right (by simp)).symm)

theorem fillSelection_of_le {topK : Int} {selected : Finset String}
    (h : topK ≤ (selected.card : Int)) (candidates : List (RankedChunk float)) :
    fillSelection topK selected candidates = selected := by
  cases candidates with
  | nil => rfl
  | cons candidate rest => exact if_pos h

theorem fillSelection_cons {topK : Int} {selected : Finset String}
    (h : (selected.card : Int) < topK) (candidate : RankedChunk float)
    (rest : List (RankedChunk float)) :
    fillSelection topK selected (candidate :: rest) =
      fillSelection topK (insert candidate.chunkId selected) rest :=
  if_neg (by omega)

/-- The first candidates of two documents. -/
theorem firsts_eq {candidates : List (RankedChunk float)} {first other : RankedChunk float}
    (hfirst : candidates.find? (fun candidate => decide (candidate.documentId = first.documentId)) =
      some first)
    (hother : candidates.find? (fun candidate => decide (candidate.documentId = other.documentId)) =
      some other)
    (htwo : ∀ candidate ∈ candidates, candidate.documentId = first.documentId ∨
      candidate.documentId = other.documentId) :
    ((firstByRoute candidates).map Prod.snd).toFinset = {first.chunkId, other.chunkId} := by
  ext chunkId
  rw [List.mem_toFinset, List.mem_map, Finset.mem_insert, Finset.mem_singleton]
  constructor
  · rintro ⟨⟨documentId, _⟩, hmem, rfl⟩
    have hfind := mem_firstByRoute.mp hmem
    obtain ⟨candidate, hcandidate, hid⟩ := Option.map_eq_some_iff.mp hfind
    obtain rfl : candidate.documentId = documentId :=
      of_decide_eq_true (List.find?_some hcandidate :)
    rcases htwo candidate (List.mem_of_find?_eq_some hcandidate) with heq | heq
    · rw [heq, hfirst] at hcandidate
      cases hcandidate
      exact .inl hid.symm
    · rw [heq, hother] at hcandidate
      cases hcandidate
      exact .inr hid.symm
  · rintro (rfl | rfl)
    · exact ⟨_, mem_firstByRoute.mpr (by rw [hfirst]; rfl), rfl⟩
    · exact ⟨_, mem_firstByRoute.mpr (by rw [hother]; rfl), rfl⟩

/-- The set that the selection is filled up to. -/
theorem fill_eq {candidates : List (RankedChunk float)} {first second third : RankedChunk float}
    {front back : List (RankedChunk float)} (h : Shape candidates first second front third back)
    (hdistinct : (candidates.map (·.chunkId)).Nodup) {left right : String}
    (hroutes : ∀ candidate ∈ candidates, candidate.documentId = left ∨
      candidate.documentId = right) :
    fillSelection 3 ((firstByRoute candidates).map Prod.snd).toFinset candidates =
      {first.chunkId, second.chunkId, third.chunkId} := by
  have hids : first.chunkId ≠ second.chunkId ∧ first.chunkId ≠ third.chunkId ∧
      second.chunkId ≠ third.chunkId := by
    have hmem : third ∈ front ++ third :: back := by simp
    rw [h.split, List.map_cons, List.map_cons, List.nodup_cons, List.nodup_cons] at hdistinct
    obtain ⟨hfirst, hsecond, -⟩ := hdistinct
    refine ⟨fun heq => hfirst (heq ▸ List.mem_cons_self), fun heq => ?_, fun heq => ?_⟩
    · exact hfirst (List.mem_cons_of_mem _ (heq ▸ List.mem_map_of_mem hmem))
    · exact hsecond (heq ▸ List.mem_map_of_mem hmem)
  obtain ⟨hne₁, hne₂, hne₃⟩ := hids
  have htwo : ∀ {a b : String}, a ≠ b → ((({a, b} : Finset String).card : Nat) : Int) < 3 := by
    intro a b hab
    rw [Finset.card_pair hab]
    decide
  have hthree : ∀ {a b c : String}, c ≠ a → c ≠ b → a ≠ b →
      (3 : Int) ≤ ((insert c {a, b} : Finset String).card : Nat) := by
    intro a b c hca hcb hab
    rw [Finset.card_insert_of_notMem (by simp [hca, hcb]), Finset.card_pair hab]
    decide
  have hfirst : candidates.find?
      (fun candidate => decide (candidate.documentId = first.documentId)) = some first := by
    rw [h.split]
    exact List.find?_cons_of_pos (decide_eq_true rfl)
  have hfirstMem : first ∈ candidates := by
    rw [h.split]
    exact List.mem_cons_self
  -- the other document is the one of the second or of the third
  have hother : ∀ other ∈ candidates, other.documentId ≠ first.documentId →
      ∀ candidate ∈ candidates, candidate.documentId = first.documentId ∨
      candidate.documentId = other.documentId := by
    intro other hmem hdiffer candidate hcandidate
    rcases hroutes first hfirstMem with h₁ | h₁ <;> rcases hroutes other hmem with h₂ | h₂ <;>
      rcases hroutes candidate hcandidate with h₃ | h₃ <;> simp_all
  rcases h.other with ⟨hsecond, rfl⟩ | ⟨hsecond, hfront, hthird⟩
  · have hfind :
        candidates.find? (fun candidate => decide (candidate.documentId = second.documentId)) =
          some second := by
      rw [h.split, List.find?_cons_of_neg (by simpa using Ne.symm hsecond)]
      exact List.find?_cons_of_pos (decide_eq_true rfl)
    have hmem : second ∈ candidates := by
      rw [h.split]
      simp
    rw [firsts_eq hfirst hfind (hother second hmem hsecond), h.split, List.nil_append]
    rw [fillSelection_cons (htwo hne₁), Finset.insert_eq_of_mem (by simp),
      fillSelection_cons (htwo hne₁),
      Finset.insert_eq_of_mem (by simp), fillSelection_cons (htwo hne₁),
      fillSelection_of_le (hthree (Ne.symm hne₂) (Ne.symm hne₃) hne₁)]
    ext chunkId
    simp only [Finset.mem_insert, Finset.mem_singleton]
    tauto
  · have hfind :
        candidates.find? (fun candidate => decide (candidate.documentId = third.documentId)) =
          some third := by
      have hnone : front.find? (fun candidate => decide (candidate.documentId = third.documentId)) =
          none := by
        rw [List.find?_eq_none]
        intro candidate hcandidate
        rw [hfront candidate hcandidate]
        simpa using Ne.symm hthird
      rw [h.split, List.find?_cons_of_neg (by simpa using Ne.symm hthird),
        List.find?_cons_of_neg (by rw [hsecond]; simpa using Ne.symm hthird), List.find?_append,
        hnone, Option.none_or]
      exact List.find?_cons_of_pos (decide_eq_true rfl)
    have hmem : third ∈ candidates := by
      rw [h.split]
      simp
    rw [firsts_eq hfirst hfind (hother third hmem hthird), h.split]
    rw [fillSelection_cons (htwo hne₂), Finset.insert_eq_of_mem (by simp),
      fillSelection_cons (htwo hne₂),
      fillSelection_of_le (hthree (Ne.symm hne₁) hne₃ hne₂)]
    ext chunkId
    simp only [Finset.mem_insert, Finset.mem_singleton]
    tauto

/-- Three candidates are selected, the first two and the third of the shape. -/
theorem selectedIds_eq {candidates : List (RankedChunk float)}
    {first second third : RankedChunk float} {front back : List (RankedChunk float)}
    (h : Shape candidates first second front third back)
    (hdistinct : (candidates.map (·.chunkId)).Nodup) {left right : String}
    (hroutes : ∀ candidate ∈ candidates, candidate.documentId = left ∨
      candidate.documentId = right) :
    selectedIds candidates 3 = [first.chunkId, second.chunkId, third.chunkId] := by
  unfold selectedIds
  simp only [fill_eq h hdistinct hroutes]
  rw [h.split] at hdistinct ⊢
  simp only [List.map_cons, List.map_append, List.nodup_cons, List.mem_cons, List.mem_append,
    not_or, List.nodup_append] at hdistinct
  obtain ⟨⟨hne₁, hfrontFirst, hne₂, hbackFirst⟩, ⟨hfrontSecond, hne₃, hbackSecond⟩, -,
      ⟨hbackThird, -⟩, hapart⟩ := hdistinct
  have hnone : ∀ {ids : List String}, first.chunkId ∉ ids → second.chunkId ∉ ids →
      third.chunkId ∉ ids →
      (ids.filter fun chunkId => decide
        (chunkId ∈ ({first.chunkId, second.chunkId, third.chunkId} : Finset String))) = [] := by
    intro ids h₁ h₂ h₃
    rw [List.filter_eq_nil_iff]
    intro chunkId hmem
    simp only [Finset.mem_insert, Finset.mem_singleton, decide_eq_true_eq]
    rintro (rfl | rfl | rfl)
    · exact h₁ hmem
    · exact h₂ hmem
    · exact h₃ hmem
  have hfrontThird : third.chunkId ∉ front.map (·.chunkId) := fun hmem =>
    hapart _ hmem _ (.inl rfl) rfl
  rw [List.map_cons, List.map_cons, List.filter_cons_of_pos (by simp),
    List.filter_cons_of_pos (by simp), List.map_append, List.filter_append,
    hnone hfrontFirst hfrontSecond hfrontThird, List.map_cons, List.filter_cons_of_pos (by simp),
    hnone hbackFirst hbackSecond hbackThird]
  rfl

theorem Shape.bestCovering {candidates : List (RankedChunk float)}
    {first second third : RankedChunk float} {front back : List (RankedChunk float)}
    (h : Shape candidates first second front third back) {left right : String}
    (hne : left ≠ right) (hroutes : ∀ candidate ∈ candidates, candidate.documentId = left ∨
      candidate.documentId = right) :
    BestCovering candidates left right [first.chunkId, second.chunkId, third.chunkId] 0 1
      (front.length + 2) := by
  have hget : candidates[0]? = some first ∧ candidates[1]? = some second ∧
      candidates[front.length + 2]? = some third := by
    rw [h.split]
    simp
  obtain ⟨hfirst, hsecond, hthird⟩ := hget
  have hmem : ∀ {p : Nat} {candidate}, candidates[p]? = some candidate →
      candidate.documentId = left ∨ candidate.documentId = right := fun hget =>
        hroutes _ (List.mem_of_getElem? hget)
  refine ⟨⟨by omega, by omega, ?_⟩, ?_, ?_,
    fun i j k hij hjk hk hcovers => ⟨Nat.zero_le i, by omega, ?_⟩⟩
  · rw [h.split]
    simp only [List.length_cons, List.length_append]
    omega
  · simp [hfirst, hsecond, hthird]
  · -- of the first and another one each document has one
    obtain ⟨p, hp, other, hother, hdiffer⟩ : ∃ p ∈ [1, front.length + 2], ∃ other,
        candidates[p]? = some other ∧ other.documentId ≠ first.documentId := by
      rcases h.other with ⟨hdiffer, -⟩ | ⟨-, -, hdiffer⟩
      · exact ⟨1, by simp, second, hsecond, hdiffer⟩
      · exact ⟨front.length + 2, by simp, third, hthird, hdiffer⟩
    have hboth : ∀ route ∈ [left, right], route = first.documentId ∨ route = other.documentId := by
      intro route hroute
      simp only [List.mem_cons, List.not_mem_nil, or_false] at hroute
      rcases hmem hfirst with h₁ | h₁ <;> rcases hmem hother with h₂ | h₂ <;>
        rcases hroute with rfl | rfl <;>
        simp_all
    intro route hroute
    rcases hboth route hroute with heq | heq
    · exact ⟨0, by simp, first, hfirst, heq.symm⟩
    · exact ⟨p, List.mem_cons_of_mem _ hp, other, hother, heq.symm⟩
  · exact h.best hne hij hjk hcovers

/-! ### The plan -/

variable {tables : TextTables} {config : BilateralRouteCoverageConfig} {enabled : Bool}
  {question : String} {candidates : List (RankedChunk float)} {routeIds : List String} {topK : Int}

/-- The conditions of an applied plan. -/
structure Applies (tables : TextTables) (config : BilateralRouteCoverageConfig) (enabled : Bool)
    (question : String) (candidates : List (RankedChunk float)) (routeIds : List String)
    (topK : Int) : Prop where
  switched : enabled = true
  routes : (routeIds.length : Int) = config.eligibleRouteCount ∧ routeIds.Nodup
  finalTopK : topK = config.finalTopK
  visible : isBlank question.toList = false
  marked : hasComparisonMarker tables config question = true
  enough : topK ≤ (candidates.length : Int)
  onRoutes : ∀ candidate ∈ candidates, candidate.documentId ∈ routeIds
  represented : ((firstByRoute candidates).map Prod.fst).toFinset = routeIds.toFinset
  cardinality : ((selectedIds candidates topK).length : Int) = topK

theorem choosePlan_cases : (Applies tables config enabled question candidates routeIds topK ∧
      choosePlan tables config enabled question candidates routeIds topK = ⟨"APPLIED",
        selectedIds candidates topK, none⟩) ∨
    (¬Applies tables config enabled question candidates routeIds topK ∧
      (choosePlan tables config enabled question candidates routeIds topK).status ≠ "APPLIED" ∧
      (choosePlan tables config enabled question candidates routeIds topK).selectedChunkIds =
        (firstK candidates topK).map (·.chunkId)) := by
  unfold choosePlan
  simp only
  by_cases hswitch : (!enabled) = true
  · rw [if_pos hswitch]
    exact .inr ⟨fun h => by simp [h.switched] at hswitch, by simp, rfl⟩
  rw [if_neg hswitch]
  by_cases hroutes : (routeIds.length : Int) ≠ config.eligibleRouteCount ∨ ¬routeIds.Nodup
  · rw [if_pos hroutes]
    exact .inr ⟨fun h => hroutes.elim (fun hne => hne h.routes.1) fun hdup => hdup h.routes.2,
      by simp, rfl⟩
  rw [if_neg hroutes]
  by_cases htop : topK ≠ config.finalTopK
  · rw [if_pos htop]
    exact .inr ⟨fun h => htop h.finalTopK, by simp, rfl⟩
  rw [if_neg htop]
  by_cases hmarked : (isBlank question.toList || !hasComparisonMarker tables config question) = true
  · rw [if_pos hmarked]
    exact .inr ⟨fun h => by simp [h.visible, h.marked] at hmarked, by simp, rfl⟩
  rw [if_neg hmarked]
  by_cases henough : (candidates.length : Int) < topK
  · rw [if_pos henough]
    exact .inr ⟨fun h => absurd h.enough (by omega), by simp, rfl⟩
  rw [if_neg henough]
  by_cases honRoutes :
    (!candidates.all fun candidate => routeIds.contains candidate.documentId) = true
  · rw [if_pos honRoutes]
    refine .inr ⟨fun h => ?_, by simp, rfl⟩
    rw [List.all_eq_true.mpr fun candidate hmem => List.contains_iff_mem.mpr
      (h.onRoutes candidate hmem)] at honRoutes
    cases honRoutes
  rw [if_neg honRoutes]
  by_cases hrepresented : ((firstByRoute candidates).map Prod.fst).toFinset ≠ routeIds.toFinset
  · rw [if_pos hrepresented]
    exact .inr ⟨fun h => hrepresented h.represented, by simp, rfl⟩
  rw [if_neg hrepresented]
  by_cases hcardinality : ((selectedIds candidates topK).length : Int) ≠ topK
  · rw [if_pos hcardinality]
    exact .inr ⟨fun h => hcardinality h.cardinality, by simp, rfl⟩
  rw [if_neg hcardinality]
  rw [Bool.or_eq_true, not_or, Bool.not_eq_true, Bool.not_eq_true', Bool.not_eq_false] at hmarked
  rw [Bool.not_eq_true', Bool.not_eq_false] at hswitch honRoutes
  rw [not_or, not_not, not_not] at hroutes
  rw [not_not] at htop hrepresented hcardinality
  refine .inl ⟨⟨hswitch, hroutes, htop, hmarked.1, hmarked.2, by omega, fun candidate hmem => ?_,
    hrepresented, hcardinality⟩, rfl⟩
  exact List.contains_iff_mem.mp (List.all_eq_true.mp honRoutes candidate hmem)

/-! ### Markers -/

/-- Case folding keeps white space, and something visible of what is visible. -/
structure FoldsSpaces (tables : TextTables) : Prop where
  space : ∀ c, isPySpace c = true → ∀ d ∈ tables.casefold c, isPySpace d = true
  visible : ∀ c, isPySpace c = false → ∃ d ∈ tables.casefold c, isPySpace d = false

theorem exists_visible_of_strip {text : List Char} (h : strip text ≠ []) :
    ∃ c ∈ strip text, isPySpace c = false := by
  have hne : ((text.dropWhile fun c => isPySpace c).reverse.dropWhile fun c => isPySpace c) ≠ [] :=
    fun hnil => h (congrArg List.reverse hnil)
  exact ⟨_, List.mem_reverse.mpr (List.head_mem hne),
    Bool.eq_false_iff.mpr (by simpa using List.head_dropWhile_not _ hne)⟩

/-- What a configuration is after it was loaded. -/
theorem loadConfig_ok {value : JsonValue}
    (h : loadBilateralRouteCoverageConfig tables value = .ok config) :
    config.eligibleRouteCount = 2 ∧ config.finalTopK = 3 ∧
      ∀ marker ∈ config.comparisonMarkers, ∃ c ∈ marker, isPySpace c = false := by
  unfold loadBilateralRouteCoverageConfig at h
  split at h
  · obtain ⟨-, h⟩ := ensure_bind.mp h
    obtain ⟨-, h⟩ := ensure_bind.mp h
    obtain ⟨-, h⟩ := ensure_bind.mp h
    obtain ⟨-, h⟩ := ensure_bind.mp h
    obtain ⟨-, h⟩ := ensure_bind.mp h
    obtain ⟨-, h⟩ := ensure_bind.mp h
    obtain ⟨markers, hmarkers, h⟩ := bind_eq_ok.mp h
    cases pure_eq_ok.mp h
    refine ⟨rfl, rfl, fun marker hmarker => ?_⟩
    unfold loadMarkers at hmarkers
    split at hmarkers
    · obtain ⟨-, hmarkers⟩ := ensure_bind.mp hmarkers
      obtain ⟨-, hmarkers⟩ := ensure_bind.mp hmarkers
      cases pure_eq_ok.mp hmarkers
      obtain ⟨item, -, hitem⟩ := List.mem_filterMap.mp hmarker
      obtain ⟨htext, hvisible⟩ := Option.filter_eq_some_iff.mp hitem
      obtain ⟨text, -, rfl⟩ := Option.map_eq_some_iff.mp htext
      exact exists_visible_of_strip (by simpa using hvisible)
    · cases hmarkers
  · cases h

/-- A question with a marker in it is not blank. -/
theorem visible_of_marked (hspaces : FoldsSpaces tables)
    (hmarkers : ∀ marker ∈ config.comparisonMarkers, ∃ c ∈ marker, isPySpace c = false)
    (h : hasComparisonMarker tables config question = true) : isBlank question.toList = false := by
  obtain ⟨marker, hmarker, hinfix⟩ := List.any_eq_true.mp h
  obtain ⟨c, hc, hvisible⟩ := hmarkers marker hmarker
  obtain ⟨d, hd, hfolded⟩ := hspaces.visible c hvisible
  have hmem : d ∈ casefold tables question.toList :=
    (of_decide_eq_true hinfix).subset (List.mem_flatMap.mpr ⟨c, hc, hd⟩)
  rw [Bool.eq_false_iff]
  intro hblank
  obtain ⟨e, he, hd⟩ := List.mem_flatMap.mp hmem
  rw [hspaces.space e (List.all_eq_true.mp hblank e he) d hd] at hfolded
  cases hfolded

theorem isPySpace_toLower (c : Char) : isPySpace c.toLower = isPySpace c := by
  by_cases hupper : c.val ≥ 'A'.val ∧ c.val ≤ 'Z'.val
  · have hletters : ∀ n ∈ List.range' 65 26, isPySpace (Char.ofNat n).toLower =
        isPySpace (Char.ofNat n) := by
      decide +kernel
    have hletter : c.toNat ∈ List.range' 65 26 := by
      have hlow : 65 ≤ c.toNat := hupper.1
      have hhigh : c.toNat ≤ 90 := hupper.2
      rw [List.mem_range'_1]
      omega
    have := hletters c.toNat hletter
    rwa [Char.ofNat_toNat] at this
  · unfold Char.toLower
    rw [dif_neg hupper]

theorem asciiText_foldsSpaces : FoldsSpaces asciiText where
  space c hc d hd := by
    rw [List.mem_singleton.mp hd, isPySpace_toLower]
    exact hc
  visible c hc := ⟨c.toLower, List.mem_singleton_self _, by rw [isPySpace_toLower]; exact hc⟩

/-! ### The selection that is applied -/

theorem candidateById_of_mem (hdistinct : (candidates.map (·.chunkId)).Nodup)
    {candidate : RankedChunk float} (hmem : candidate ∈ candidates) :
    candidateById candidates candidate.chunkId = .ok candidate := by
  unfold candidateById
  split
  · rename_i found hfound
    have hfoundMem := List.mem_reverse.mp (List.mem_of_find?_eq_some hfound)
    have hid : found.chunkId = candidate.chunkId :=
      of_decide_eq_true (List.find?_some hfound :)
    rw [List.inj_on_of_nodup_map hdistinct hfoundMem hmem hid]
  · rename_i hnone
    have := List.find?_eq_none.mp hnone candidate (List.mem_reverse.mpr hmem)
    simp at this

/-- Candidates in their order can be selected, and keep their scores. -/
theorem exists_applySelection (hdistinct : (candidates.map (·.chunkId)).Nodup)
    {chosen : List (RankedChunk float)} (hchosen : chosen.Sublist candidates)
    (hlength : (chosen.length : Int) = topK) :
    ∃ selected, applySelection candidates (chosen.map (·.chunkId)) topK = .ok selected ∧
      selected.map (fun candidate => (candidate.score, candidate.chunk)) =
        chosen.map fun candidate => (candidate.score, candidate.chunk) := by
  have hnodup : (chosen.map (·.chunkId)).Nodup := hdistinct.sublist (hchosen.map _)
  have hfound : (chosen.map (·.chunkId)).mapM (candidateById candidates) = .ok chosen := by
    rw [mapM_eq_ok, List.forall₂_map_left_iff, List.forall₂_same]
    exact fun candidate hmem => candidateById_of_mem hdistinct (hchosen.subset hmem)
  obtain ⟨selected, hselected⟩ : ∃ selected, rankInOrder float onlineRetrievalBackend
      (chosen.map fun candidate => (candidate.score, candidate.chunk)) = .ok selected := by
    refine exists_rankInOrder (by decide +kernel) (fun p hp => ?_) ?_
    · obtain ⟨candidate, -, rfl⟩ := List.mem_map.mp hp
      exact candidate.rankable
    · rw [List.map_map]
      exact hnodup
  refine ⟨selected, ?_, rankInOrder_scored hselected⟩
  unfold applySelection
  simp only [List.length_map, hlength, hnodup, decide_true, Bool.and_self, ensure_true_bind, hfound]
  exact hselected

/-- `_apply_selection` takes the identifiers, and the scores of what it takes do not rise. -/
def KeepsOrder (candidates : List (RankedChunk float)) (ids : List String) (topK : Int) : Prop :=
  ∃ selected, applySelection candidates ids topK = .ok selected ∧ selected.map (·.chunkId) = ids ∧
    selected.Pairwise fun a b => float.le b.score a.score = true

theorem keepsOrder_of_sublist (hdistinct : (candidates.map (·.chunkId)).Nodup)
    (hordered : candidates.Pairwise fun a b => float.le b.score a.score = true)
    {chosen : List (RankedChunk float)}
    (hchosen : chosen.Sublist candidates) (hlength : (chosen.length : Int) = topK) :
    KeepsOrder candidates (chosen.map (·.chunkId)) topK := by
  obtain ⟨selected, happly, hsame⟩ := exists_applySelection hdistinct hchosen hlength
  refine ⟨selected, happly, ?_, ?_⟩
  · have hids := congrArg (List.map fun p => chunkIdOf p.2) hsame
    rw [List.map_map, List.map_map] at hids
    exact hids
  · have hscores : selected.map (·.score) = chosen.map (·.score) := by
      have := congrArg (List.map Prod.fst) hsame
      rw [List.map_map, List.map_map] at this
      exact this
    have hpairwise : (chosen.map (·.score)).Pairwise fun a b => float.le b a = true :=
      List.pairwise_map.mpr (hordered.sublist hchosen)
    rw [← hscores] at hpairwise
    exact List.pairwise_map.mp hpairwise

/-- Every selection is made of candidates in their order. -/
theorem selectedIds_sublist (candidates : List (RankedChunk float)) (topK : Int) :
    ∃ chosen : List (RankedChunk float), chosen.Sublist candidates ∧
    selectedIds candidates topK = chosen.map (·.chunkId) := by
  unfold selectedIds
  exact ⟨_, List.filter_sublist, List.filter_map⟩

/-- Both documents have a candidate. -/
theorem Applies.represents {left right : String}
    (h : Applies tables config enabled question candidates [left, right] topK) :
    ∀ route ∈ [left, right], ∃ candidate ∈ candidates, candidate.documentId = route := by
  intro route hroute
  have hmem : route ∈ ((firstByRoute candidates).map Prod.fst).toFinset := by
    rw [h.represented]
    exact List.mem_toFinset.mpr hroute
  obtain ⟨⟨documentId, chunkId⟩, hentry, rfl⟩ := List.mem_map.mp (List.mem_toFinset.mp hmem)
  obtain ⟨candidate, hfind, -⟩ := Option.map_eq_some_iff.mp (mem_firstByRoute.mp hentry)
  exact ⟨candidate, List.mem_of_find?_eq_some hfind, of_decide_eq_true (List.find?_some hfind :)⟩

theorem exists_bestCovering {left right : String} (hne : left ≠ right)
    (hdistinct : (candidates.map (·.chunkId)).Nodup) (henough : 3 ≤ candidates.length)
    (honRoutes : ∀ candidate ∈ candidates, candidate.documentId ∈ [left, right])
    (hrepresented : ∀ route ∈ [left, right], ∃ candidate ∈ candidates, candidate.documentId =
      route) :
    ∃ i j k, BestCovering candidates left right (selectedIds candidates 3) i j k := by
  have hroutes : ∀ candidate ∈ candidates, candidate.documentId = left ∨
      candidate.documentId = right := by
    intro candidate hmem
    simpa using honRoutes candidate hmem
  obtain ⟨a, ha, hleft⟩ := hrepresented left (by simp)
  obtain ⟨b, hb, hright⟩ := hrepresented right (by simp)
  obtain ⟨first, second, front, third, back, hshape⟩ :=
    exists_shape henough ⟨a, ha, b, hb, by rw [hleft, hright]; exact hne⟩
  rw [selectedIds_eq hshape hdistinct hroutes]
  exact ⟨_, _, _, hshape.bestCovering hne hroutes⟩

/-- The first three candidates, if they cover both documents. -/
theorem BestCovering.eq_top {left right : String} {ids : List String} {i j k : Nat}
    (h : BestCovering candidates left right ids i j k)
    (hcovers : CoversAt candidates left right [0, 1, 2]) :
    ids = (candidates.take 3).map (·.chunkId) := by
  have hincreasing := h.increasing
  obtain ⟨hi, hj, hk⟩ := h.best 0 1 2 (by omega) (by omega) (by omega) hcovers
  obtain ⟨rfl, rfl, rfl⟩ : i = 0 ∧ j = 1 ∧ k = 2 := by omega
  apply List.map_injective_iff.mpr (Option.some_injective String)
  rw [h.selected]
  match candidates, hincreasing.2.2 with
  | _ :: _ :: _ :: _, _ => rfl

/-- The selection covers both documents at the best positions there are, and its scores do not rise.
Any other plan takes the first candidates; and with a marker, three candidates and both documents
found there is no other plan. -/
theorem plan_optimal (hspaces : FoldsSpaces tables) {value : JsonValue}
    (hload : loadBilateralRouteCoverageConfig tables value = .ok config) (enabled : Bool)
    (question : String) (topK : Int)
    (observer : Option (RouteCoverageObservation → Except PyError Unit))
    (hdistinct : (candidates.map (·.chunkId)).Nodup)
    (hordered : candidates.Pairwise fun a b => float.le b.score a.score = true)
    {left right : String} (hne : left ≠ right) :
    (∀ plan, BilateralComparisonRouteCoverageSelector.plan tables ⟨config, enabled, observer⟩
        question candidates [left, right] topK = .ok plan →
      (plan.status = "APPLIED" →
        (∃ i j k, BestCovering candidates left right plan.selectedChunkIds i j k) ∧
        (CoversAt candidates left right [0, 1, 2] →
          plan.selectedChunkIds = (candidates.take 3).map (·.chunkId)) ∧
        KeepsOrder candidates plan.selectedChunkIds topK) ∧
      (plan.status ≠ "APPLIED" → plan.selectedChunkIds = (firstK candidates topK).map (·.chunkId)) ∧
      (enabled = true → topK = 3 → hasComparisonMarker tables config question = true →
        3 ≤ candidates.length → (∀ candidate ∈ candidates, candidate.documentId ∈ [left, right]) →
        (∀ route ∈ [left, right], ∃ candidate ∈ candidates, candidate.documentId = route) →
        plan.status = "APPLIED")) ∧
    ((∀ observe ∈ observer, ∀ observation, observe observation = .ok ()) →
      ∃ plan, BilateralComparisonRouteCoverageSelector.plan tables ⟨config, enabled, observer⟩
        question candidates [left, right] topK = .ok plan) := by
  obtain ⟨hcount, hfinal, hmarkers⟩ := loadConfig_ok hload
  refine ⟨fun plan hplan => ?_, fun hobserver => ?_⟩
  · obtain ⟨-, -, hplan⟩ := bind_eq_ok.mp hplan
    cases pure_eq_ok.mp hplan
    rcases (choosePlan_cases : (Applies tables config enabled question candidates [left,
      right] topK ∧ _) ∨ _) with
      ⟨happlies, hchosen⟩ | ⟨hnot, hstatus, hfirst⟩
    · have htop : topK = 3 := happlies.finalTopK.trans hfinal
      rw [hchosen]
      refine ⟨fun _ => ?_, fun h => absurd rfl h, fun _ _ _ _ _ _ => rfl⟩
      have henough : 3 ≤ candidates.length := by
        have := happlies.enough
        omega
      obtain ⟨i, j, k, hbest⟩ := exists_bestCovering hne hdistinct henough happlies.onRoutes
        happlies.represents
      obtain ⟨chosen, hsublist, hids⟩ := selectedIds_sublist candidates topK
      have hlength := happlies.cardinality
      refine ⟨⟨i, j, k, ?_⟩, fun hcovers => ?_, ?_⟩
      · rw [htop]
        exact hbest
      · rw [htop]
        exact hbest.eq_top hcovers
      · rw [hids, List.length_map] at hlength
        rw [hids]
        exact keepsOrder_of_sublist hdistinct hordered hsublist hlength
    · refine ⟨fun h => absurd h hstatus, fun _ => hfirst,
        fun hon htop hmarked henough honRoutes hrepresented => ?_⟩
      refine absurd ⟨hon, ⟨by rw [hcount]; rfl, by simpa using hne⟩, htop.trans hfinal.symm,
        visible_of_marked hspaces hmarkers hmarked, hmarked, by omega, honRoutes, ?_, ?_⟩ hnot
      · ext route
        rw [List.mem_toFinset, List.mem_toFinset]
        constructor
        · intro hmem
          obtain ⟨⟨documentId, chunkId⟩, hentry, rfl⟩ := List.mem_map.mp hmem
          obtain ⟨candidate, hfind, -⟩ := Option.map_eq_some_iff.mp (mem_firstByRoute.mp hentry)
          have hdocument : candidate.documentId = documentId :=
            of_decide_eq_true (List.find?_some hfind :)
          rw [← hdocument]
          exact honRoutes candidate (List.mem_of_find?_eq_some hfind)
        · intro hroute
          obtain ⟨candidate, hmem, hdocument⟩ := hrepresented route hroute
          have hsome : (candidates.find?
              fun candidate => decide (candidate.documentId = route)).isSome = true :=
            List.find?_isSome.mpr ⟨candidate, hmem, decide_eq_true hdocument⟩
          obtain ⟨first, hfind⟩ := Option.isSome_iff_exists.mp hsome
          exact List.mem_map.mpr
            ⟨(route, first.chunkId), mem_firstByRoute.mpr (by rw [hfind]; rfl), rfl⟩
      · obtain ⟨i, j, k, hbest⟩ := exists_bestCovering hne hdistinct henough honRoutes hrepresented
        have hlength := congrArg List.length hbest.selected
        simp only [List.length_map, List.length_cons, List.length_nil] at hlength
        rw [htop, hlength]
        rfl
  · unfold BilateralComparisonRouteCoverageSelector.plan
    cases observer with
    | none => exact ⟨_, rfl⟩
    | some observe =>
      simp only [Option.elim_some, hobserver observe rfl]
      exact ⟨_, rfl⟩

/-- A configuration with two of the markers. -/
def coverageConfigJson : JsonValue :=
  .object [("schema_version", .str "bilateral_comparison_route_coverage_top3_config_v1"),
    ("variable_id", .str "BILATERAL_COMPARISON_ROUTE_COVERAGE_TOP3_V1"),
    ("default_enabled", .bool false),
    ("failure_policy", .str "FALLBACK_TO_ORIGINAL_RRF_TOP3"), ("eligible_route_count", .int 2),
    ("final_top_k", .int 3),
    ("minimum_per_route", .int 1), ("comparison_markers", .array [.str "compare", .str "contrast"])]

/-- A candidate of a document, at this rank. -/
def rankedCandidate (documentId chunkId : String) (rank : Int)
    (h : checkRankedChunk rationalScores onlineRetrievalBackend rank (1 / (60 + rank))
      (.ofMembers [("chunk_id", .str chunkId), ("document_id", .str documentId)]) = .ok ()) :
    RankedChunk rationalScores :=
  ⟨onlineRetrievalBackend, rank, 1 / (60 + rank),
    .ofMembers [("chunk_id", .str chunkId), ("document_id", .str documentId)], h⟩

/-- Three of one document before the first of the other. -/
def fourCandidates : List (RankedChunk rationalScores) :=
  [rankedCandidate "alpha" "alpha_1" 1 (by decide +kernel),
    rankedCandidate "alpha" "alpha_2" 2 (by decide +kernel), rankedCandidate "alpha" "alpha_3" 3
      (by decide +kernel), rankedCandidate "beta" "beta_1" 4 (by decide +kernel)]

/-- The markers of the configuration as they are loaded. -/
def sampleCoverageConfig : BilateralRouteCoverageConfig where
  defaultEnabled := false
  failurePolicy := "FALLBACK_TO_ORIGINAL_RRF_TOP3"
  eligibleRouteCount := 2
  finalTopK := 3
  minimumPerRoute := 1
  comparisonMarkers := ["compare".toList, "contrast".toList]

theorem plan_optimal_compare : ∃ plan, BilateralComparisonRouteCoverageSelector.plan asciiText
      ⟨sampleCoverageConfig, true, none⟩ "Compare alpha with beta" fourCandidates ["alpha",
        "beta"] 3 = .ok plan ∧
    plan.status = "APPLIED" ∧ ∃ i j k,
      BestCovering fourCandidates "alpha" "beta" plan.selectedChunkIds i j k := by
  obtain ⟨hplans, hplanned⟩ := plan_optimal asciiText_foldsSpaces
    (by decide +kernel : loadBilateralRouteCoverageConfig asciiText coverageConfigJson =
      .ok sampleCoverageConfig) true
    "Compare alpha with beta" 3 none (by decide +kernel : (fourCandidates.map (·.chunkId)).Nodup)
      (by decide +kernel)
    (by decide : "alpha" ≠ "beta")
  obtain ⟨plan, hplan⟩ := hplanned fun _ h => by cases h
  obtain ⟨happlied, -, hchosen⟩ := hplans plan hplan
  have hstatus := hchosen rfl rfl (by decide +kernel) (by decide) (by decide +kernel)
    (by decide +kernel)
  exact ⟨plan, hplan, hstatus, (happlied hstatus).1⟩

end ZhiyanRag.Retrieval
