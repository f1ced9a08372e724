import ZhiyanRag.Evaluation.Models
import ZhiyanRag.Lib.DiscountedGain
import Mathlib.Analysis.SpecialFunctions.Log.Base

/-!
# Retrieval metrics

`_ranking_scores` of `retrieval_metrics.py` over an ordered field; `log2` is `math.log2`. The scores
lie between 0 and 1, recall and reciprocal rank grow with the cutoff, and the discounted gain is
ideal only for a ranking with the ideal gains (`rankingScores_wellFormed`).
-/

namespace ZhiyanRag.Evaluation

open DiscountedGain

/-! ### The scores -/

/-- `relevance`; the judged chunks are distinct. -/
def relevance (item : EvaluationItemV1) : List (Identifier × Nat) :=
  item.chunkJudgments.map fun judgment => (judgment.chunkId, judgment.relevance)

/-- `relevant_ids`. -/
def relevantIds (item : EvaluationItemV1) : List Identifier :=
  ((relevance item).filter fun entry => decide (2 ≤ entry.2)).map (·.1)

/-- `relevance.get(chunk_id, 0)`. -/
def grade (item : EvaluationItemV1) (chunkId : Identifier) : Nat :=
  ((relevance item).lookup chunkId).getD 0

/-- `sorted(relevance.values(), reverse=True)`. -/
def sortedGrades (item : EvaluationItemV1) : List Nat :=
  ((relevance item).map (·.2)).insertionSort (· ≥ ·)

structure RankingScores (R : Type*) where
  recallAt : R
  precision : R
  mrr : R
  ndcg : R

section

variable {R : Type*} [Field R]

/-- `2 ** grade - 1`. -/
def gain (grade : Nat) : R := 2 ^ grade - 1

/-- `top`. -/
def top (result : RetrievalRankingResultV1) (k : Nat) : List RankedCandidateV1 :=
  result.candidates.take k

/-- `candidate.chunk_id in relevant_ids`. -/
def isRelevant (item : EvaluationItemV1) (candidate : RankedCandidateV1) : Bool :=
  (relevantIds item).contains candidate.chunkId

/-- `hits`. -/
def hits (item : EvaluationItemV1) (result : RetrievalRankingResultV1) (k : Nat) :
    List RankedCandidateV1 :=
  (top result k).filter (isRelevant item)

def dcg (log2 : Nat → R) (item : EvaluationItemV1) (result : RetrievalRankingResultV1)
    (k : Nat) : R :=
  ((top result k).map fun candidate => gain (grade item candidate.chunkId) / log2
    (candidate.rank + 1)).sum

def idealDcg (log2 : Nat → R) (item : EvaluationItemV1) (k : Nat) : R :=
  ((((sortedGrades item).take k).zipIdx 1).map fun entry => gain entry.1 / log2 (entry.2 + 1)).sum

/-- `_ranking_scores`. -/
def rankingScores [DecidableEq R] (log2 : Nat → R) (item : EvaluationItemV1)
    (result : RetrievalRankingResultV1) (k : Nat) : RankingScores R where
  recallAt := (hits item result k).length / (relevantIds item).length
  precision := (hits item result k).length / k
  mrr := ((top result k).find? (isRelevant item)).elim 0 fun candidate => 1 / candidate.rank
  ndcg := if idealDcg log2 item k = 0 then 0 else dcg log2 item result k / idealDcg log2 item k

/-- The gains of the candidates in the order of their ranks; an unjudged chunk has none. -/
def candidateGains (item : EvaluationItemV1) (result : RetrievalRankingResultV1) : List R :=
  result.candidates.map fun candidate => gain (grade item candidate.chunkId)

/-- The judged gains in decreasing order. -/
def judgedGains (item : EvaluationItemV1) : List R := (sortedGrades item).map gain

end

/-! ### Hits -/

section

variable (item : EvaluationItemV1) (result : RetrievalRankingResultV1)

theorem top_initial {k k' : Nat} (h : k ≤ k') : top result k <+: top result k' :=
  List.take_prefix_take_left h

theorem hits_ids_subset (k : Nat) : (hits item result k).map (·.chunkId) ⊆ relevantIds item := by
  intro id hid
  obtain ⟨candidate, hcandidate, rfl⟩ := List.mem_map.mp hid
  exact List.contains_iff_mem.mp (List.mem_filter.mp hcandidate).2

theorem hits_length_le (k : Nat) : (hits item result k).length ≤ (relevantIds item).length := by
  have hnodup : ((hits item result k).map (·.chunkId)).Nodup :=
    result.chunkIdsUnique.sublist ((List.filter_sublist.trans (List.take_sublist _ _)).map _)
  have h := (List.Nodup.subperm hnodup (hits_ids_subset item result k)).length_le
  rwa [List.length_map] at h

theorem hits_length_le_cutoff (k : Nat) : (hits item result k).length ≤ k :=
  (List.length_filter_le _ _).trans (List.length_take_le _ _)

theorem hits_length_mono {k k' : Nat} (h : k ≤ k') :
    (hits item result k).length ≤ (hits item result k').length :=
  ((top_initial result h).sublist.filter _).length_le

end

/-! ### Gains -/

section

variable {R : Type*} [Field R] (log2 : Nat → R) (item : EvaluationItemV1)
  (result : RetrievalRankingResultV1)

/-- The weight of the candidate at an index: ranks count from 1. -/
def discount (i : Nat) : R := 1 / log2 (i + 2)

theorem rank_of_getElem? {i : Nat} {candidate : RankedCandidateV1}
    (h : result.candidates[i]? = some candidate) : candidate.rank = i + 1 := by
  have hrank : (result.candidates.map (·.rank))[i]? = some candidate.rank := by
    rw [List.getElem?_map, h]; rfl
  have hlt : i < result.candidates.length := (List.getElem?_eq_some_iff.mp h).1
  rw [result.ranksContiguous, List.getElem?_range' hlt, Option.some.injEq] at hrank
  omega

theorem dcg_eq (k : Nat) : dcg log2 item result k = discounted (discount log2)
    (padded (candidateGains item result)) k := by
  unfold dcg top
  induction k with
  | zero => simp [discounted]
  | succ k ih =>
    rw [discounted_succ, ← ih, List.take_add_one, List.map_append, List.sum_append]
    congr 1
    unfold padded candidateGains
    rw [List.getD_eq_getElem?_getD, List.getElem?_map]
    cases hget : result.candidates[k]? with
    | none => simp
    | some candidate =>
      have hrank := rank_of_getElem? result hget
      simp [discount, hrank, div_eq_inv_mul]

theorem idealDcg_eq (k : Nat) :
    idealDcg log2 item k = discounted (discount log2) (padded (judgedGains item)) k := by
  unfold idealDcg
  induction k with
  | zero => simp [discounted]
  | succ k ih =>
    rw [discounted_succ, ← ih, List.take_add_one, List.zipIdx_append, List.map_append,
      List.sum_append]
    congr 1
    unfold padded judgedGains
    rw [List.getD_eq_getElem?_getD, List.getElem?_map]
    cases hget : (sortedGrades item)[k]? with
    | none => simp
    | some grade =>
      have hlength : min k (sortedGrades item).length = k := by
        have := (List.getElem?_eq_some_iff.mp hget).1
        omega
      simp [discount, hlength, div_eq_inv_mul, Nat.add_comm 1 k]

theorem grade_of_mem {judgment : ChunkJudgmentV1} (h : judgment ∈ item.chunkJudgments) :
    grade item judgment.chunkId = judgment.relevance := by
  unfold grade relevance
  have hunique := item.chunkIdsUnique
  generalize item.chunkJudgments = judgments at h hunique
  induction judgments with
  | nil => cases h
  | cons first rest ih =>
    rw [List.map_cons, List.nodup_cons] at hunique
    rw [List.map_cons, List.lookup_cons]
    by_cases hid : judgment.chunkId = first.chunkId
    · rcases List.mem_cons.mp h with rfl | h
      · simp
      · exact absurd (hid ▸ List.mem_map_of_mem h) hunique.1
    · have hne : (judgment.chunkId == first.chunkId) = false := beq_eq_false_iff_ne.mpr hid
      simp only [hne]
      rcases List.mem_cons.mp h with rfl | h
      · exact absurd rfl hid
      · exact ih h hunique.2

theorem judged_of_grade_ne_zero {chunkId : Identifier} (h : grade item chunkId ≠ 0) :
    chunkId ∈ item.chunkJudgments.map (·.chunkId) := by
  by_contra hnot
  refine h ?_
  have hlookup : (relevance item).lookup chunkId = none := by
    refine List.lookup_eq_none_iff.mpr fun entry hentry => ?_
    obtain ⟨judgment, hmem, rfl⟩ := List.mem_map.mp hentry
    have hne : chunkId ≠ judgment.chunkId := fun heq => hnot (heq ▸ List.mem_map_of_mem hmem)
    simpa using hne
  unfold grade
  rw [hlookup]
  rfl

theorem gain_ne_zero {n : Nat} (h : (gain n : R) ≠ 0) : n ≠ 0 := by
  rintro rfl
  exact h (by simp [gain])

/-- The candidates with a gain are judged chunks. -/
theorem candidateGains_subperm [DecidableEq R] :
    ((candidateGains item result : List R).filter fun x => decide (x ≠ 0)).Subperm
      (judgedGains item) := by
  have hids : ((result.candidates.map (·.chunkId)).filter
      fun id => decide ((gain (grade item id) : R) ≠ 0)).Subperm
        (item.chunkJudgments.map (·.chunkId)) := by
    refine List.Nodup.subperm (result.chunkIdsUnique.filter _) fun id hid => ?_
    exact judged_of_grade_ne_zero item (gain_ne_zero (of_decide_eq_true (List.mem_filter.mp hid).2))
  have hgains : ((result.candidates.map (·.chunkId)).filter
      fun id => decide ((gain (grade item id) : R) ≠ 0)).map (fun id => (gain (grade item id) : R))
        |>.Subperm ((item.chunkJudgments.map (·.chunkId)).map
          fun id => (gain (grade item id) : R)) := by
    obtain ⟨chosen, hperm, hsub⟩ := hids
    exact ⟨chosen.map _, hperm.map _, hsub.map _⟩
  have hjudged : (item.chunkJudgments.map (·.chunkId)).map (fun id => (gain (grade item id) : R)) =
      ((relevance item).map (·.2)).map gain := by
    unfold relevance
    rw [List.map_map, List.map_map, List.map_map]
    exact List.map_congr_left fun judgment hjudgment => by simp [grade_of_mem item hjudgment]
  rw [hjudged] at hgains
  refine List.Subperm.trans ?_ (hgains.trans ((List.perm_insertionSort _ _).symm.map gain).subperm)
  unfold candidateGains
  rw [List.filter_map, List.filter_map, List.map_map]
  exact List.Subperm.refl _

end

section

variable {R : Type*} [Field R] [LinearOrder R] [IsStrictOrderedRing R] (item : EvaluationItemV1)

theorem gain_mono {m n : Nat} (h : m ≤ n) : (gain m : R) ≤ gain n :=
  sub_le_sub_right (pow_le_pow_right₀ one_le_two h) 1

theorem gain_nonneg (n : Nat) : (0 : R) ≤ gain n := sub_nonneg.mpr (one_le_pow₀ one_le_two)

theorem gain_pos {n : Nat} (h : 2 ≤ n) : (0 : R) < gain n :=
  sub_pos.mpr (one_lt_pow₀ one_lt_two (by omega))

theorem judgedGains_sorted : (judgedGains item : List R).Pairwise (· ≥ ·) := by
  refine List.Pairwise.map gain ?_ (List.pairwise_insertionSort (· ≥ ·) _)
  exact fun a b h => gain_mono h

theorem judgedGains_nonneg : ∀ x ∈ (judgedGains item : List R), 0 ≤ x := by
  intro x hx
  obtain ⟨n, -, rfl⟩ := List.mem_map.mp hx
  exact gain_nonneg n

/-- With a relevant chunk the largest gain is positive. -/
theorem judgedGains_first (h : ∃ judgment ∈ item.chunkJudgments, 2 ≤ judgment.relevance) :
    (0 : R) < padded (judgedGains item) 0 := by
  obtain ⟨judgment, hmem, hrelevant⟩ := h
  have hin : judgment.relevance ∈ sortedGrades item := by
    refine (List.perm_insertionSort _ _).mem_iff.mpr ?_
    unfold relevance
    rw [List.map_map]
    exact List.mem_map_of_mem (f := _) hmem
  have hsorted := judgedGains_sorted (R := R) item
  have hgain : (gain judgment.relevance : R) ∈ judgedGains item := List.mem_map_of_mem hin
  cases hgains : (judgedGains item : List R) with
  | nil => rw [hgains] at hgain; cases hgain
  | cons first rest =>
    rw [hgains] at hsorted hgain
    have hpos := gain_pos (R := R) hrelevant
    rcases List.mem_cons.mp hgain with heq | hrest
    · exact heq ▸ hpos
    · exact hpos.trans_le ((List.pairwise_cons.mp hsorted).1 _ hrest)

end

/-! ### The scores are well formed -/

/-- What is true of the scores with a cutoff of at least 1 of an item with a relevant chunk. -/
structure WellFormedScores (item : EvaluationItemV1) (result : RetrievalRankingResultV1)
    (scores : Nat → RankingScores ℝ) (k : Nat) : Prop where
  recallAt : 0 ≤ (scores k).recallAt ∧ (scores k).recallAt ≤ 1
  precision : 0 ≤ (scores k).precision ∧ (scores k).precision ≤ 1
  mrr : 0 ≤ (scores k).mrr ∧ (scores k).mrr ≤ 1
  ndcg : 0 ≤ (scores k).ndcg ∧ (scores k).ndcg ≤ 1
  recallGrows : ∀ k', k ≤ k' → (scores k).recallAt ≤ (scores k').recallAt
  mrrGrows : ∀ k', k ≤ k' → (scores k).mrr ≤ (scores k').mrr
  /-- The gains of the first `k` candidates are the `k` largest judged gains; both sequences go on
  with zeros. -/
  ideal : (scores k).ndcg = 1 ↔
    (candidateGains item result : List ℝ).takeD k 0 = (judgedGains item : List ℝ).takeD k 0

section

variable {R : Type*} [Field R] [LinearOrder R] [IsStrictOrderedRing R] {log2 : Nat → R}
  (item : EvaluationItemV1) (result : RetrievalRankingResultV1) {k : Nat}

theorem ratio_mem {m n : Nat} (h : m ≤ n) : 0 ≤ (m : R) / n ∧ (m : R) / n ≤ 1 :=
  ⟨div_nonneg m.cast_nonneg n.cast_nonneg, div_le_one_of_le₀ (Nat.cast_le.mpr h) n.cast_nonneg⟩

theorem recall_mem : 0 ≤ (rankingScores log2 item result k).recallAt ∧
    (rankingScores log2 item result k).recallAt ≤ 1 :=
  ratio_mem (hits_length_le item result k)

theorem precision_mem : 0 ≤ (rankingScores log2 item result k).precision ∧
    (rankingScores log2 item result k).precision ≤ 1 :=
  ratio_mem (hits_length_le_cutoff item result k)

theorem recall_mono {k' : Nat} (h : k ≤ k') :
    (rankingScores log2 item result k).recallAt ≤ (rankingScores log2 item result k').recallAt :=
  div_le_div_of_nonneg_right (Nat.cast_le.mpr (hits_length_mono item result h)) (Nat.cast_nonneg _)

theorem mrr_mem :
    0 ≤ (rankingScores log2 item result k).mrr ∧ (rankingScores log2 item result k).mrr ≤ 1 := by
  show 0 ≤ ((top result k).find? (isRelevant item)).elim (0 : R) _ ∧
    ((top result k).find? (isRelevant item)).elim (0 : R) _ ≤ 1
  cases (top result k).find? (isRelevant item) with
  | none => exact ⟨le_rfl, zero_le_one⟩
  | some candidate =>
    have hrank : (1 : R) ≤ candidate.rank := by exact_mod_cast candidate.rankFromOne
    exact ⟨div_nonneg zero_le_one candidate.rank.cast_nonneg,
      div_le_one_of_le₀ hrank candidate.rank.cast_nonneg⟩

/-- A larger cutoff keeps the first relevant candidate, or finds one where there was none. -/
theorem mrr_mono {k' : Nat} (h : k ≤ k') :
    (rankingScores log2 item result k).mrr ≤ (rankingScores log2 item result k').mrr := by
  cases hfind : (top result k).find? (isRelevant item) with
  | none =>
    have hzero : (rankingScores log2 item result k).mrr = 0 := by
      show ((top result k).find? (isRelevant item)).elim (0 : R) _ = 0
      rw [hfind]
      rfl
    rw [hzero]
    exact (mrr_mem item result).1
  | some candidate =>
    obtain ⟨rest, hrest⟩ := top_initial result h
    have hfind' : (top result k').find? (isRelevant item) = some candidate := by
      rw [← hrest, List.find?_append, hfind]
      rfl
    show ((top result k).find? (isRelevant item)).elim (0 : R) _ ≤
      ((top result k').find? (isRelevant item)).elim (0 : R) _
    rw [hfind, hfind']

theorem candidates_cumulated_le (j : Nat) :
    cumulated (padded (candidateGains item result : List R)) j ≤
      cumulated (padded (judgedGains item)) j :=
  cumulated_le_of_subperm (candidateGains_subperm item result) (judgedGains_sorted item)
    (judgedGains_nonneg item) j

variable (hpos : ∀ n, 2 ≤ n → 0 < log2 n) (hmono : ∀ n, 2 ≤ n → log2 n < log2 (n + 1))

include hpos

theorem discount_pos (i : Nat) : 0 < discount log2 i := one_div_pos.mpr (hpos _ (by omega))

theorem idealDcg_pos (h : ∃ judgment ∈ item.chunkJudgments, 2 ≤ judgment.relevance) (hk : 1 ≤ k) :
    0 < idealDcg log2 item k := by
  rw [idealDcg_eq]
  exact discounted_pos (discount_pos hpos) (padded_nonneg (judgedGains_nonneg item))
    (judgedGains_first item h) hk

theorem dcg_nonneg : 0 ≤ dcg log2 item result k := by
  rw [dcg_eq]
  refine discounted_nonneg (discount_pos hpos) (padded_nonneg fun x hx => ?_)
  obtain ⟨candidate, -, rfl⟩ := List.mem_map.mp hx
  exact gain_nonneg _

include hmono

theorem discount_anti (i : Nat) : discount log2 (i + 1) < discount log2 i :=
  one_div_lt_one_div_of_lt (hpos _ (by omega)) (hmono _ (by omega))

theorem dcg_le_idealDcg : dcg log2 item result k ≤ idealDcg log2 item k := by
  rw [dcg_eq, idealDcg_eq]
  exact discounted_le (discount_pos hpos) (discount_anti hpos hmono) fun j _ =>
    candidates_cumulated_le item result j

theorem dcg_eq_idealDcg_iff :
    dcg log2 item result k = idealDcg log2 item k ↔
      (candidateGains item result : List R).takeD k 0 = (judgedGains item : List R).takeD k 0 := by
  rw [dcg_eq, idealDcg_eq, discounted_eq_iff (discount_pos hpos) (discount_anti hpos hmono)
    fun j _ =>
    candidates_cumulated_le item result j]
  exact padded_eq_iff_takeD.symm

end

/-- The scores over the reals. -/
noncomputable def realScores (item : EvaluationItemV1) (result : RetrievalRankingResultV1) :
    Nat → RankingScores ℝ :=
  rankingScores (fun n => Real.logb 2 n) item result

theorem rankingScores_wellFormed (item : EvaluationItemV1) (result : RetrievalRankingResultV1)
    (h : ∃ judgment ∈ item.chunkJudgments, 2 ≤ judgment.relevance) (k : Nat) (hk : 1 ≤ k) :
    WellFormedScores item result (realScores item result) k := by
  have hpos : ∀ n : Nat, 2 ≤ n → 0 < Real.logb 2 n := fun n hn =>
    Real.logb_pos one_lt_two (by exact_mod_cast (by omega : 1 < n))
  have hmono : ∀ n : Nat, 2 ≤ n → Real.logb 2 n < Real.logb 2 ((n + 1 : Nat) : ℝ) := fun n hn =>
    Real.logb_lt_logb one_lt_two (by exact_mod_cast (by omega : 0 < n))
      (by exact_mod_cast Nat.lt_succ_self n)
  have hideal := idealDcg_pos item hpos h hk
  have hndcg : (realScores item result k).ndcg =
      dcg (fun n => Real.logb 2 n) item result k / idealDcg (fun n => Real.logb 2 n) item k :=
        if_neg hideal.ne'
  refine ⟨recall_mem item result, precision_mem item result, mrr_mem item result, ?_,
    fun _ => recall_mono item result, fun _ => mrr_mono item result, ?_⟩
  · rw [hndcg]
    exact ⟨div_nonneg (dcg_nonneg item result hpos) hideal.le,
      div_le_one_of_le₀ (dcg_le_idealDcg item result hpos hmono) hideal.le⟩
  · rw [hndcg, div_eq_one_iff_eq hideal.ne']
    exact dcg_eq_idealDcg_iff item result hpos hmono

/-- An item with one relevant chunk, `chunk_1`. -/
def answerableItem : EvaluationItemV1 where
  datasetVersion := fixedId "local-v1"
  questionId := fixedId "question_1"
  split := .dev
  leakageGroupId := fixedId "group_1"
  question := ⟨"What is measured?", by decide +kernel⟩
  conversationHistory := []
  authorizedScopeIds := [fixedId "scope_1"]
  questionTypes := [.exactLookup]
  language := .en
  queryForm := .short
  expectedRoute := fixedId "HYBRID_QA"
  expectedFilters := ⟨[], none, none, by simp, by simp, by simp⟩
  answerability := .answerable
  chunkJudgments :=
    [⟨fixedId "chunk_1", fixedId "document_1", 1, 1, 3, [], by decide, by decide, by decide⟩]
  referenceClaims := []
  acceptableAnswerPoints := []
  mustNotClaim := []
  expectedCitations := [fixedId "chunk_1"]
  freshnessCutoff := none
  difficulty := .easy
  annotationStatus := .draft
  annotationRecordIds := []
  finalAnnotationId := none
  agreementScore := none
  blindHoldout := false
  questionTypesNonempty := by decide
  listsUnique := by decide
  claimIdsUnique := by decide
  chunkIdsUnique := by decide
  claimsKnown := by simp
  citationsSupported := by simp [supportingChunks]
  supported := by simp [supportingChunks, Answerability.needsSupport]
  acceptanceBlind := by decide
  enoughRecords := by decide
  finalOnlyWhenDecided := by simp
  finalReferenced := by simp [AnnotationStatus.isFinal]

/-- What a human says of the item, or of one like it. -/
def humanRecord (annotationId questionId annotatorId : Identifier)
    (notes : Constrained ⟨false, 0, some 4000⟩) : AnnotationRecordV1 where
  annotationId := annotationId
  datasetVersion := fixedId "local-v1"
  questionId := questionId
  role := .annotator
  annotatorId := annotatorId
  actorType := .human
  modelIdentity := none
  promptVersion := none
  temperature := none
  submittedAt := ⟨0, true⟩
  answerability := .answerable
  expectedRoute := fixedId "HYBRID_QA"
  chunkJudgments := answerableItem.chunkJudgments
  notes := notes
  basedOnAnnotationIds := []
  basedOnUnique := List.nodup_nil
  submittedAtAware := rfl
  gptDeclared := fun h => by cases h
  onlyGptDeclares := fun _ => ⟨rfl, rfl, rfl⟩
  gptAnnotates := fun h => by cases h
  annotatorIndependent := fun _ => rfl
  adjudicatorBased := fun h => by cases h
  expertBased := fun h => by cases h

/-- A ranking with an unjudged chunk before the relevant one. -/
def secondPlace : RetrievalRankingResultV1 where
  runId := fixedId "run_1"
  datasetVersion := fixedId "local-v1"
  questionId := fixedId "question_1"
  backend := fixedId "local_rrf"
  topK := 10
  decision := .evidenceFound
  candidates := [⟨1, fixedId "chunk_2", fixedId "document_1", by decide⟩,
    ⟨2, fixedId "chunk_1", fixedId "document_1", by decide⟩]
  topKFromOne := by decide
  ranksContiguous := by decide
  chunkIdsUnique := by decide +kernel
  withinTopK := by decide
  foundIffCandidates := by simp

theorem rankingScores_wellFormed_secondPlace :
    WellFormedScores answerableItem secondPlace (realScores answerableItem secondPlace) 5 :=
  rankingScores_wellFormed answerableItem secondPlace ⟨_, List.mem_cons_self, by decide⟩ 5
    (by decide)

end ZhiyanRag.Evaluation
