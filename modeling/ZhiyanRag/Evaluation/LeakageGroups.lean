import Mathlib.Data.Fintype.Basic
import Mathlib.Data.List.FinRange
import Mathlib.Data.List.GetD
import Mathlib.Data.List.Sort
import Mathlib.Data.Rat.Defs
import Mathlib.Data.String.Basic
import ZhiyanRag.Base
import ZhiyanRag.Lib.UnionFind

/-!
# Leakage groups

`group_candidates` of `build_assisted_formal_corpus.py`: a union-find over all pairs of candidates
that a rule matches. The groups are the connected components of the matching pairs
(`groupCandidates_spec`), and which candidates they join does not depend on the order of the rows
(`slotClasses_perm`).
-/

namespace ZhiyanRag.Evaluation

open Relation UnionFind

/-- The float operations of `_cosine` and of the comparisons with the thresholds. -/
structure VectorArithmetic (F : Type) where
  mul : F → F → F
  mul_comm : ∀ a b, mul a b = mul b a
  sum : List F → F
  /-- `value >= threshold`. -/
  atLeast : F → Rat → Bool
  /-- `round(value, 6)`. -/
  round6 : F → F

/-- The slot of a candidate, as far as groups and splits depend on it. -/
structure CandidateSlot where
  slotId : String
  split : String
  answerability : String
  sourceDocumentIds : List String
  sourceChunkIds : List String
  deriving DecidableEq

/-- Why a pair of candidates matches. -/
inductive MatchReason
  | questionSemantic
  | answerTemplate
  | questionSemanticSharedChunk
  | jointQuestionAnswer
  deriving DecidableEq

def MatchReason.text : MatchReason → String
  | questionSemantic => "QUESTION_SEMANTIC_0_88"
  | answerTemplate => "ANSWER_TEMPLATE_0_92_SAME_DOCUMENT"
  | questionSemanticSharedChunk => "QUESTION_SEMANTIC_0_82_SHARED_CHUNK"
  | jointQuestionAnswer => "JOINT_QUESTION_ANSWER_SHARED_CHUNK"

def questionSimilarityThreshold : Rat := 88 / 100

def answerSimilarityThreshold : Rat := 92 / 100

def sharedChunkQuestionThreshold : Rat := 82 / 100

def jointQuestionThreshold : Rat := 76 / 100

def jointAnswerThreshold : Rat := 88 / 100

section

variable {F : Type} (ar : VectorArithmetic F)

/-- `_cosine`, of normalized vectors. -/
def cosine (left right : List F) : F := ar.sum (List.zipWith ar.mul left right)

/-- `bool(set(left) & set(right))`. -/
def shares (left right : List String) : Bool := left.any fun id => decide (id ∈ right)

/-- The first rule that the pair meets. -/
def matchReason (left right : CandidateSlot) (questionSimilarity answerSimilarity : F) :
    Option MatchReason :=
  let sharedChunk := shares left.sourceChunkIds right.sourceChunkIds
  let sharedDocument := shares left.sourceDocumentIds right.sourceDocumentIds
  let sameAnswerability := decide (left.answerability = right.answerability)
  if ar.atLeast questionSimilarity questionSimilarityThreshold then some .questionSemantic
  else if sameAnswerability && sharedDocument &&
    ar.atLeast answerSimilarity answerSimilarityThreshold then some .answerTemplate
  else if sharedChunk && ar.atLeast questionSimilarity sharedChunkQuestionThreshold
    then some .questionSemanticSharedChunk
  else if sameAnswerability && sharedChunk &&
    ar.atLeast questionSimilarity jointQuestionThreshold &&
      ar.atLeast answerSimilarity jointAnswerThreshold then some .jointQuestionAnswer
  else none

/-- A pair in the report. -/
structure MatchedPair (F : Type) where
  leftSlotId : String
  rightSlotId : String
  leftSplit : String
  rightSplit : String
  questionSimilarity : F
  answerSimilarity : F
  sharedDocument : Bool
  sharedChunk : Bool
  reason : MatchReason

/-- `counts[key] += 1` of a `Counter`. -/
def increment (key : String) : List (String × Nat) → List (String × Nat)
  | [] => [(key, 1)]
  | (other, count) :: rest => if other = key then (other, count + 1) :: rest else (other, count) ::
      increment key rest

/-- What the loop over the pairs changes. -/
structure PairState (F : Type) where
  parent : List Nat
  pairs : List (MatchedPair F)
  reasonCounts : List (String × Nat)
  similarities : List F

/-- What `group_candidates` returns. -/
structure Grouping (F : Type) (count : Nat) where
  groups : List (List (Fin count))
  pairs : List (MatchedPair F)
  reasonCounts : List (String × Nat)
  similarities : List F

variable (rows : List CandidateSlot) (questionVectors answerVectors : List (List F))

def questionSimilarity (left right : Fin rows.length) : F :=
  cosine ar (questionVectors.getD left []) (questionVectors.getD right [])

def answerSimilarity (left right : Fin rows.length) : F :=
  cosine ar (answerVectors.getD left []) (answerVectors.getD right [])

/-- The rule for two rows; there are as many vectors as rows. -/
def pairReason (left right : Fin rows.length) : Option MatchReason :=
  matchReason ar (rows.get left) (rows.get right)
    (questionSimilarity ar rows questionVectors left right)
      (answerSimilarity ar rows answerVectors left right)

/-- The pairs of the two nested loops. -/
def indexPairs (count : Nat) : List (Fin count × Fin count) :=
  (List.finRange count).flatMap fun left =>
    ((List.finRange count).filter fun right => decide (left < right)).map fun right => (left, right)

def matchedPair (left right : Fin rows.length) (reason : MatchReason) : MatchedPair F where
  leftSlotId := (rows.get left).slotId
  rightSlotId := (rows.get right).slotId
  leftSplit := (rows.get left).split
  rightSplit := (rows.get right).split
  questionSimilarity := ar.round6 (questionSimilarity ar rows questionVectors left right)
  answerSimilarity := ar.round6 (answerSimilarity ar rows answerVectors left right)
  sharedDocument := shares (rows.get left).sourceDocumentIds (rows.get right).sourceDocumentIds
  sharedChunk := shares (rows.get left).sourceChunkIds (rows.get right).sourceChunkIds
  reason := reason

/-- One turn of the inner loop; `none` when the fuel of a walk does not suffice. -/
def visitPair (fuel : Nat) (state : PairState F) (pair : Fin rows.length × Fin rows.length) :
    Option (PairState F) :=
  let similarities :=
    state.similarities ++ [questionSimilarity ar rows questionVectors pair.1 pair.2]
  match pairReason ar rows questionVectors answerVectors pair.1 pair.2 with
  | none => some { state with similarities := similarities }
  | some reason => do
    let parent ← union fuel state.parent pair.1 pair.2
    some {
      parent := parent
      pairs := state.pairs ++
        [matchedPair ar rows questionVectors answerVectors pair.1 pair.2 reason]
      reasonCounts := increment reason.text state.reasonCounts
      similarities := similarities }

/-- `components[find(index)].append(index)`. -/
def collectIndex {count : Nat} (fuel : Nat) (state : List Nat × List (Nat × List (Fin count)))
    (index : Fin count) : Option (List Nat × List (Nat × List (Fin count))) := do
  let (root, parent) ← find fuel state.1 index
  some (parent, addTo root index state.2)

/-- `min(rows[index]["slot"]["slot_id"] for index in group)`; no group is empty. -/
def minSlotId (group : List (Fin rows.length)) : String :=
  ((group.map fun index => (rows.get index).slotId).min?).getD ""

/-- `sorted(components.values(), key=...)`. -/
def sortedGroups (components : List (Nat × List (Fin rows.length))) :
    List (List (Fin rows.length)) :=
  (components.map (·.2)).insertionSort fun group other => minSlotId rows group ≤
    minSlotId rows other

def groupCandidates (fuel : Nat) : Option (Except PyError (Grouping F rows.length)) :=
  if rows.length ≠ questionVectors.length ∨ rows.length ≠ answerVectors.length then
    some (.error ⟨.valueError, "candidate and embedding counts do not match"⟩)
  else do
    let state ← (indexPairs rows.length).foldlM
      (visitPair ar rows questionVectors answerVectors fuel)
      { parent := List.range rows.length, pairs := [], reasonCounts := [], similarities := [] }
    let (_, components) ← (List.finRange rows.length).foldlM (collectIndex fuel) (state.parent, [])
    some (.ok {
      groups := sortedGroups rows components
      pairs := state.pairs
      reasonCounts := state.reasonCounts.insertionSort fun entry other => entry.1 ≤ other.1
      similarities := state.similarities })

end

section

variable {F : Type} {ar : VectorArithmetic F} {rows : List CandidateSlot}
  {questionVectors answerVectors : List (List F)}

/-! ### Matching is symmetric -/

/-- A rule holds for the pair. -/
def Matches (ar : VectorArithmetic F) (rows : List CandidateSlot)
    (questionVectors answerVectors : List (List F)) (left right : Fin rows.length) : Prop :=
  (pairReason ar rows questionVectors answerVectors left right).isSome = true

theorem cosine_comm (ar : VectorArithmetic F) (left right : List F) :
    cosine ar left right = cosine ar right left := by
  unfold cosine
  rw [List.zipWith_comm_of_comm ar.mul_comm]

theorem shares_comm (left right : List String) : shares left right = shares right left := by
  rw [Bool.eq_iff_iff]
  unfold shares
  simp only [List.any_eq_true, decide_eq_true_eq]
  exact ⟨fun ⟨id, h, h'⟩ => ⟨id, h', h⟩, fun ⟨id, h, h'⟩ => ⟨id, h', h⟩⟩

theorem matchReason_comm (left right : CandidateSlot) (question answer : F) :
    matchReason ar left right question answer = matchReason ar right left question answer := by
  unfold matchReason
  rw [shares_comm left.sourceChunkIds, shares_comm left.sourceDocumentIds,
    decide_eq_decide.mpr (eq_comm (a := left.answerability))]

theorem pairReason_comm (left right : Fin rows.length) :
    pairReason ar rows questionVectors answerVectors left right =
      pairReason ar rows questionVectors answerVectors right left := by
  unfold pairReason questionSimilarity answerSimilarity
  rw [matchReason_comm, cosine_comm ar (questionVectors.getD left []),
    cosine_comm ar (answerVectors.getD left [])]

theorem Matches.symm {left right : Fin rows.length}
    (h : Matches ar rows questionVectors answerVectors left right) :
    Matches ar rows questionVectors answerVectors right left := by
  unfold Matches
  rw [pairReason_comm]
  exact h

/-! ### The loops -/

/-- The unions of these pairs. -/
def matchedEdges (ar : VectorArithmetic F) (rows : List CandidateSlot)
    (questionVectors answerVectors : List (List F))
    (pairs : List (Fin rows.length × Fin rows.length)) : List (Nat × Nat) :=
  (pairs.filter fun pair =>
    (pairReason ar rows questionVectors answerVectors pair.1 pair.2).isSome).map fun pair =>
    ((pair.1 : Nat), (pair.2 : Nat))

/-- The forest after these unions. -/
structure Visited (count : Nat) (edges : List (Nat × Nat)) (state : PairState F) : Prop where
  length : state.parent.length = count
  roots : Roots state.parent (merges edges)

theorem visitPair_spec (ar : VectorArithmetic F) (questionVectors answerVectors : List (List F))
    {edges : List (Nat × Nat)} {state : PairState F} (h : Visited rows.length edges state)
    (pair : Fin rows.length × Fin rows.length) :
    ∃ state', (∀ fuel, rows.length ≤ fuel →
      visitPair ar rows questionVectors answerVectors fuel state pair = some state') ∧
      Visited rows.length (edges ++ matchedEdges ar rows questionVectors answerVectors [pair])
        state' := by
  cases hreason : pairReason ar rows questionVectors answerVectors pair.1 pair.2 with
  | none =>
    have hedges : matchedEdges ar rows questionVectors answerVectors [pair] = [] := by
      simp [matchedEdges, hreason]
    rw [hedges, List.append_nil]
    exact ⟨
      { state with
        similarities := state.similarities ++
          [questionSimilarity ar rows questionVectors pair.1 pair.2] },
      fun fuel _ => by simp only [visitPair, hreason], h.length, h.roots⟩
  | some reason =>
    have hedges : matchedEdges ar rows questionVectors answerVectors [pair] =
        [((pair.1 : Nat), (pair.2 : Nat))] := by
      simp [matchedEdges, hreason]
    obtain ⟨parent, hunion, hlength, hroots⟩ :=
      union_spec h.roots (h.length.ge.trans_lt' pair.1.isLt) (h.length.ge.trans_lt' pair.2.isLt)
    refine ⟨{ parent := parent
              pairs := state.pairs ++
                [matchedPair ar rows questionVectors answerVectors pair.1 pair.2 reason]
              reasonCounts := increment reason.text state.reasonCounts
              similarities :=
                state.similarities ++ [questionSimilarity ar rows questionVectors pair.1 pair.2] },
      fun fuel hfuel => ?_, ?_⟩
    · simp only [visitPair, hreason, hunion fuel (h.length.le.trans hfuel), Option.bind_eq_bind,
        Option.bind_some]
    · rw [hedges]
      exact ⟨hlength.trans h.length, by rw [merges_append]; exact hroots⟩

theorem visitPairs_spec (ar : VectorArithmetic F) (questionVectors answerVectors : List (List F))
    (pairs : List (Fin rows.length × Fin rows.length)) {edges : List (Nat × Nat)}
    {state : PairState F} (h : Visited rows.length edges state) :
    ∃ state', (∀ fuel, rows.length ≤ fuel →
        pairs.foldlM (visitPair ar rows questionVectors answerVectors fuel) state = some state') ∧
      Visited rows.length (edges ++ matchedEdges ar rows questionVectors answerVectors pairs)
        state' := by
  induction pairs generalizing edges state with
  | nil => exact ⟨state, fun _ _ => rfl, by simpa [matchedEdges] using h⟩
  | cons pair rest ih =>
    obtain ⟨next, hnext, hvisited⟩ := visitPair_spec ar questionVectors answerVectors h pair
    obtain ⟨state', hrest, hvisited'⟩ := ih hvisited
    refine ⟨state', fun fuel hfuel => ?_, ?_⟩
    · rw [List.foldlM_cons, hnext fuel hfuel]
      exact hrest fuel hfuel
    · have hcons : matchedEdges ar rows questionVectors answerVectors (pair :: rest) =
          matchedEdges ar rows questionVectors answerVectors [pair] ++
            matchedEdges ar rows questionVectors answerVectors rest := by
        unfold matchedEdges
        rw [← List.map_append, ← List.filter_append, List.singleton_append]
      rw [hcons, ← List.append_assoc]
      exact hvisited'

/-- The walks of the last loop change no root. -/
theorem collect_spec {count : Nat} {root : Nat → Nat} (indices : List (Fin count))
    {parent : List Nat} (hlength : parent.length = count) (hroots : Roots parent root)
    (components : List (Nat × List (Fin count))) :
    ∃ parent', ∀ fuel, count ≤ fuel → indices.foldlM (collectIndex fuel) (parent, components) =
      some (parent', indices.foldl (fun state (index : Fin count) => addTo (root index) index state)
        components) := by
  induction indices generalizing parent components with
  | nil => exact ⟨parent, fun _ _ => rfl⟩
  | cons index rest ih =>
    obtain ⟨next, hfind, hlength', hroots'⟩ := find_spec hroots (hlength.ge.trans_lt' index.isLt)
    obtain ⟨parent', hrest⟩ :=
      ih (hlength'.trans hlength) hroots' (addTo (root index) index components)
    refine ⟨parent', fun fuel hfuel => ?_⟩
    rw [List.foldlM_cons, List.foldl_cons, ← hrest fuel hfuel]
    simp only [collectIndex, hfind fuel (hlength.le.trans hfuel), Option.bind_eq_bind,
      Option.bind_some]

theorem mem_indexPairs {count : Nat} {left right : Fin count} :
    (left, right) ∈ indexPairs count ↔ left < right := by
  simp [indexPairs]

/-- The unions are the matching pairs, as far as the classes go. -/
theorem merges_matched_iff (left right : Fin rows.length) :
    merges (matchedEdges ar rows questionVectors answerVectors (indexPairs rows.length)) left =
        merges (matchedEdges ar rows questionVectors answerVectors (indexPairs rows.length)) right ↔
      EqvGen (Matches ar rows questionVectors answerVectors) left right := by
  have hedges : (fun a b => (a, b) ∈
      matchedEdges ar rows questionVectors answerVectors (indexPairs rows.length)) =
      Relation.Map (fun left right => left < right ∧
        Matches ar rows questionVectors answerVectors left right) Fin.val Fin.val := by
    funext a b
    refine propext ⟨fun h => ?_, fun ⟨left, right, ⟨hlt, hmatch⟩, hleft, hright⟩ => ?_⟩
    · obtain ⟨⟨left, right⟩, hmem, heq⟩ := List.mem_map.mp h
      obtain ⟨hpair, hmatch⟩ := List.mem_filter.mp hmem
      obtain ⟨hleft, hright⟩ := Prod.mk.inj heq
      exact ⟨left, right, ⟨mem_indexPairs.mp hpair, hmatch⟩, hleft, hright⟩
    · exact List.mem_map.mpr ⟨(left, right), List.mem_filter.mpr ⟨mem_indexPairs.mpr hlt, hmatch⟩,
        by rw [hleft, hright]⟩
  rw [merges_eq_iff, hedges, eqvGen_map_iff Fin.val_injective]
  refine ⟨fun h => h.mono fun _ _ hpair => hpair.2, fun h => ?_⟩
  induction h with
  | rel i j hmatch =>
    rcases lt_trichotomy i j with hlt | rfl | hgt
    · exact .rel _ _ ⟨hlt, hmatch⟩
    · exact .refl i
    · exact .symm _ _ (.rel _ _ ⟨hgt, hmatch.symm⟩)
  | refl => exact .refl _
  | symm _ _ _ ih => exact ih.symm
  | trans _ _ _ _ _ ih ih' => exact .trans _ _ _ ih ih'

/-! ### Groups -/

/-- A partition of the rows into the connected components of the matching pairs. -/
structure IsGrouping (ar : VectorArithmetic F) (rows : List CandidateSlot)
    (questionVectors answerVectors : List (List F)) (groups : List (List (Fin rows.length))) :
    Prop where
  partition : groups.flatten.Perm (List.finRange rows.length)
  nonempty : ∀ group ∈ groups, group ≠ []
  components : ∀ group ∈ groups, ∀ i ∈ group, ∀ j, j ∈ group ↔
    EqvGen (Matches ar rows questionVectors answerVectors) i j

theorem groupCandidates_spec (ar : VectorArithmetic F)
    (hquestions : rows.length = questionVectors.length)
    (hanswers : rows.length = answerVectors.length) :
    ∃ grouping, (∀ fuel, rows.length ≤ fuel →
      groupCandidates ar rows questionVectors answerVectors fuel = some (.ok grouping)) ∧
      IsGrouping ar rows questionVectors answerVectors grouping.groups := by
  have hstart : Visited rows.length [] (F := F)
      { parent := List.range rows.length, pairs := [], reasonCounts := [], similarities := [] } :=
    ⟨List.length_range, roots_range rows.length⟩
  obtain ⟨state, hvisit, hvisited⟩ :=
    visitPairs_spec ar questionVectors answerVectors (indexPairs rows.length) hstart
  rw [List.nil_append] at hvisited
  obtain ⟨parent, hcollect⟩ :=
    collect_spec (List.finRange rows.length) hvisited.length hvisited.roots []
  have hcomponents : ∀ group, group ∈ sortedGroups rows (buckets (fun index : Fin rows.length =>
      merges (matchedEdges ar rows questionVectors answerVectors (indexPairs rows.length)) index)
        (List.finRange rows.length)) → group ≠ [] ∧ ∃ root, ∀ i, i ∈ group ↔
          merges (matchedEdges ar rows questionVectors answerVectors (indexPairs rows.length)) i =
            root := by
    intro group hgroup
    obtain ⟨entry, hentry, rfl⟩ := List.mem_map.mp ((List.mem_insertionSort _).mp hgroup)
    obtain ⟨hfilter, hne⟩ := mem_buckets hentry
    refine ⟨hne, entry.1, fun i => ?_⟩
    rw [hfilter, List.mem_filter, decide_eq_true_eq]
    exact and_iff_right (List.mem_finRange i)
  refine ⟨{ groups := sortedGroups rows (buckets (fun index : Fin rows.length =>
              merges (matchedEdges ar rows questionVectors answerVectors (indexPairs rows.length))
                index) (List.finRange rows.length))
            pairs := state.pairs
            reasonCounts := state.reasonCounts.insertionSort fun entry other => entry.1 ≤ other.1
            similarities := state.similarities }, fun fuel hfuel => ?_, ?_⟩
  · unfold groupCandidates
    rw [if_neg (by omega), hvisit fuel hfuel]
    simp only [Option.bind_eq_bind, Option.bind_some, hcollect fuel hfuel]
    rfl
  refine ⟨?_, fun group hgroup => (hcomponents group hgroup).1, fun group hgroup i hi j => ?_⟩
  · exact (List.perm_insertionSort _ _).flatten.trans (flatten_buckets_perm _ _)
  · obtain ⟨root, hroot⟩ := (hcomponents group hgroup).2
    rw [hroot j, ← merges_matched_iff, (hroot i).mp hi]
    exact eq_comm

/-! ### The order of the rows -/

/-- A row with its vectors. -/
abbrev Candidate (F : Type) := CandidateSlot × List F × List F

/-- The rule for two candidates, wherever they stand. -/
def Similar (ar : VectorArithmetic F) (candidate other : Candidate F) : Prop :=
  (matchReason ar candidate.1 other.1 (cosine ar candidate.2.1 other.2.1)
    (cosine ar candidate.2.2 other.2.2)).isSome = true

/-- Candidates of the list are linked through similar candidates of the list. -/
def Linked (ar : VectorArithmetic F) (candidates : List (Candidate F)) :
    Candidate F → Candidate F → Prop :=
  EqvGen fun candidate other => candidate ∈ candidates ∧ other ∈ candidates ∧
    Similar ar candidate other

/-- The classes by the ids of their slots. -/
def slotClasses (rows : List CandidateSlot) (groups : List (List (Fin rows.length))) :
    Set (Set String) :=
  { ids | ∃ group ∈ groups, ids = { id | ∃ index ∈ group, (rows.get index).slotId = id } }

def candidateAt (rows : List CandidateSlot) (questionVectors answerVectors : List (List F))
    (index : Fin rows.length) : Candidate F :=
  (rows.get index, questionVectors.getD index [], answerVectors.getD index [])

theorem mem_candidates_iff (hquestions : rows.length = questionVectors.length)
    (hanswers : rows.length = answerVectors.length) {candidate : Candidate F} :
    candidate ∈ rows.zip (questionVectors.zip answerVectors) ↔
      ∃ index, candidateAt rows questionVectors answerVectors index = candidate := by
  have hzip : rows.zip (questionVectors.zip answerVectors) =
      List.ofFn (candidateAt rows questionVectors answerVectors) := by
    refine List.ext_getElem ?_ fun i hi hi' => ?_
    · rw [List.length_zip, List.length_zip, List.length_ofFn]
      omega
    · rw [List.length_ofFn] at hi'
      rw [List.getElem_zip, List.getElem_zip, List.getElem_ofFn]
      unfold candidateAt
      rw [List.getD_eq_getElem _ _ (hquestions ▸ hi'), List.getD_eq_getElem _ _ (hanswers ▸ hi')]
      rfl
  rw [hzip, List.mem_ofFn]

theorem candidateAt_injective (hunique : (rows.map (·.slotId)).Nodup) :
    Function.Injective (candidateAt rows questionVectors answerVectors) := fun _ _ h =>
  List.nodup_iff_injective_get.mp hunique.of_map (congrArg Prod.fst h)

theorem linked_iff (hquestions : rows.length = questionVectors.length)
    (hanswers : rows.length = answerVectors.length) (hunique : (rows.map (·.slotId)).Nodup)
    {i j : Fin rows.length} :
    Linked ar (rows.zip (questionVectors.zip answerVectors))
        (candidateAt rows questionVectors answerVectors i) (candidateAt rows questionVectors
          answerVectors j) ↔ EqvGen (Matches ar rows questionVectors answerVectors) i j := by
  have himage : (fun candidate other => candidate ∈ rows.zip (questionVectors.zip answerVectors) ∧
      other ∈ rows.zip (questionVectors.zip answerVectors) ∧ Similar ar candidate other) =
      Relation.Map (Matches ar rows questionVectors answerVectors)
        (candidateAt rows questionVectors answerVectors)
          (candidateAt rows questionVectors answerVectors) := by
    funext candidate other
    refine propext ⟨fun ⟨hmem, hmem', hsimilar⟩ => ?_, fun ⟨i, j, hmatch, hi, hj⟩ => ?_⟩
    · obtain ⟨i, rfl⟩ := (mem_candidates_iff hquestions hanswers).mp hmem
      obtain ⟨j, rfl⟩ := (mem_candidates_iff hquestions hanswers).mp hmem'
      exact ⟨i, j, hsimilar, rfl, rfl⟩
    · refine ⟨(mem_candidates_iff hquestions hanswers).mpr ⟨i, hi⟩,
        (mem_candidates_iff hquestions hanswers).mpr ⟨j, hj⟩, ?_⟩
      rw [← hi, ← hj]
      exact hmatch
  unfold Linked
  rw [himage]
  exact eqvGen_map_iff (candidateAt_injective hunique)

/-- The classes only depend on which candidates there are. -/
theorem slotClasses_eq (hquestions : rows.length = questionVectors.length)
    (hanswers : rows.length = answerVectors.length) (hunique : (rows.map (·.slotId)).Nodup)
    {groups : List (List (Fin rows.length))}
    (h : IsGrouping ar rows questionVectors answerVectors groups) :
    slotClasses rows groups = { ids | ∃ candidate ∈ rows.zip (questionVectors.zip answerVectors),
      ids = { id | ∃ other ∈ rows.zip (questionVectors.zip answerVectors),
        Linked ar (rows.zip (questionVectors.zip answerVectors)) candidate other ∧
        other.1.slotId = id } } := by
  have hclass : ∀ group ∈ groups, ∀ i ∈ group,
      { id | ∃ index ∈ group, (rows.get index).slotId = id } =
      { id | ∃ other ∈ rows.zip (questionVectors.zip answerVectors),
        Linked ar (rows.zip (questionVectors.zip answerVectors)) (candidateAt rows questionVectors
          answerVectors i) other ∧ other.1.slotId = id } := by
    intro group hgroup i hi
    refine Set.ext fun id => ⟨fun ⟨j, hj, hid⟩ => ?_, fun ⟨other, hother, hlinked, hid⟩ => ?_⟩
    · exact ⟨_, (mem_candidates_iff hquestions hanswers).mpr ⟨j, rfl⟩,
        (linked_iff hquestions hanswers hunique).mpr ((h.components group hgroup i hi j).mp hj),
        hid⟩
    · obtain ⟨j, rfl⟩ := (mem_candidates_iff hquestions hanswers).mp hother
      exact ⟨j, (h.components group hgroup i hi j).mpr
        ((linked_iff hquestions hanswers hunique).mp hlinked), hid⟩
  refine Set.ext fun ids =>
    ⟨fun ⟨group, hgroup, hids⟩ => ?_, fun ⟨candidate, hcandidate, hids⟩ => ?_⟩
  · obtain ⟨i, hi⟩ := List.exists_mem_of_ne_nil group (h.nonempty group hgroup)
    exact ⟨_, (mem_candidates_iff hquestions hanswers).mpr ⟨i, rfl⟩,
      hids.trans (hclass group hgroup i hi)⟩
  · obtain ⟨i, rfl⟩ := (mem_candidates_iff hquestions hanswers).mp hcandidate
    obtain ⟨group, hgroup, hi⟩ :=
      List.mem_flatten.mp (h.partition.mem_iff.mpr (List.mem_finRange i))
    exact ⟨group, hgroup, hids.trans (hclass group hgroup i hi).symm⟩

/-- The groups of the same candidates in another order join the same slots. -/
theorem slotClasses_perm {rows' : List CandidateSlot}
    {questionVectors' answerVectors' : List (List F)}
    (hquestions : rows.length = questionVectors.length)
    (hanswers : rows.length = answerVectors.length)
    (hunique : (rows.map (·.slotId)).Nodup) (hquestions' : rows'.length = questionVectors'.length)
    (hanswers' : rows'.length = answerVectors'.length)
    (hperm : (rows'.zip (questionVectors'.zip answerVectors')).Perm
      (rows.zip (questionVectors.zip answerVectors)))
    {groups : List (List (Fin rows.length))} {groups' : List (List (Fin rows'.length))}
    (h : IsGrouping ar rows questionVectors answerVectors groups)
    (h' : IsGrouping ar rows' questionVectors' answerVectors' groups') :
    slotClasses rows' groups' = slotClasses rows groups := by
  have hrows : ∀ {rows : List CandidateSlot} {questionVectors answerVectors : List (List F)},
      rows.length = questionVectors.length → rows.length = answerVectors.length →
      (rows.zip (questionVectors.zip answerVectors)).map (·.1) = rows := fun hq ha =>
    List.map_fst_zip (by rw [List.length_zip]; omega)
  have hunique' : (rows'.map (·.slotId)).Nodup := by
    have hmap := (hperm.map (·.1)).map (·.slotId)
    rw [hrows hquestions' hanswers', hrows hquestions hanswers] at hmap
    exact hmap.nodup_iff.mpr hunique
  rw [slotClasses_eq hquestions hanswers hunique h,
    slotClasses_eq hquestions' hanswers' hunique' h']
  unfold Linked
  simp only [hperm.mem_iff]

end

end ZhiyanRag.Evaluation
