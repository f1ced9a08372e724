import Mathlib.Algebra.Order.Ring.Rat
import Mathlib.Data.List.Sort
import ZhiyanRag.Ingestion.Text
import ZhiyanRag.Retrieval.Results

/-!
# Online reranking

`OnlineFixedCrossEncoderReranker.rerank` of `online_reranker.py`. What the title provider and the
scorer return are Python values of any kind, so each is here what it answers when it is asked for
its length, its next item, a member or a number. The calls of both are guarded, and so is the use of
the titles. The use of the scores is not: `fallsBackSafely_iff` says which values the reranker
survives.
-/

namespace ZhiyanRag.Retrieval

open Ingestion

namespace PyFloat

/-- `-a`. -/
def neg : PyFloat → PyFloat
  | finite value => finite (-value)
  | infinite negative => infinite (!negative)
  | nan => nan

/-- `a < b`. -/
def lt : PyFloat → PyFloat → Bool
  | finite a, finite b => decide (a < b)
  | finite _, infinite negative => !negative
  | infinite negative, finite _ => negative
  | infinite a, infinite b => a && !b
  | _, _ => false

/-- `math.isfinite(a)`. -/
def isFinite : PyFloat → Bool
  | finite _ => true
  | infinite _ | nan => false

end PyFloat

/-! ### Python values -/

/-- A value that stands for a score: `isinstance(score, (int, float))`, `isinstance(score, bool)`
and `float(score)`. -/
structure ScoreItem where
  isNumber : Bool
  isBool : Bool
  toFloat : Except PyError PyFloat

/-- A value that a scorer returns: its `len`, what each call of `next` on its iterator answers
(`none` at its end) and `scores[index]`. -/
structure ScoresValue where
  length : Except PyError Nat
  next : Nat → Except PyError (Option ScoreItem)
  item : Nat → Except PyError ScoreItem

/-- A value that a title provider returns, as it answers at a candidate: `document_id in titles` and
the text of `titles[document_id]`. -/
structure TitlesValue where
  contains : Nat → String → Except PyError Bool
  title : Nat → String → Except PyError String

/-! ### The reranker -/

structure OnlineRerankerConfig where
  candidateTopK : Int

/-- The latency is a timing and left out. -/
structure OnlineRerankOutcome where
  chunks : List JsonObject
  status : String
  failureCode : Option String
  candidateCount : Nat
  outputCount : Nat

structure OnlineFixedCrossEncoderReranker where
  config : OnlineRerankerConfig
  scorer : List (String × String) → Except PyError ScoresValue
  titleProvider : String → List String → Except PyError TitlesValue

/-- `_passage` of a candidate at a position. -/
def passage (titles : TitlesValue) (position : Nat) (chunk : JsonObject) :
    Except PyError String := do
  let unavailable : Except PyError Unit :=
    .error ⟨.lookupError, "online Reranker document title is unavailable"⟩
  let documentId := ((chunk.get "document_id").str?).getD ""
  if (chunk.get "document_id").str?.isNone then unavailable
  else do
    let known ← titles.contains position documentId
    ensure known .lookupError "online Reranker document title is unavailable"
  ensure (chunk.get "section_path").isNonemptyStr .valueError
    "online Reranker candidate section is invalid"
  ensure (chunk.get "text").isNonemptyStr .valueError "online Reranker candidate text is invalid"
  let title ← titles.title position documentId
  let sectionPath := ((chunk.get "section_path").str?).getD ""
  let text := ((chunk.get "text").str?).getD ""
  return s!"Title: {title}\nSection: {sectionPath}\n{text}"

namespace OnlineFixedCrossEncoderReranker

/-- The condition of `_validate_authorized_candidates` on one candidate. -/
def isAuthorizedCandidate (ownerId : String) (documentIds chunkIds : List String)
    (candidate : JsonObject) : Bool :=
  (candidate.get "chunk_id").isNonemptyStr && !chunkIds.contains (chunkIdOf candidate) &&
    (candidate.get "tenant_id").equals (.str ownerId) &&
      (candidate.get "document_id").str?.isSome &&
    (candidate.get "version_id").isNonemptyStr &&
    (documentIds.isEmpty || (candidate.get "document_id").str?.any documentIds.contains) &&
    (candidate.get "is_active").isTrue

/-- `_validate_authorized_candidates`. -/
def validateAuthorizedCandidates (config : OnlineRerankerConfig) (candidates : List JsonObject)
    (ownerId : String) (documentIds : List String) (topK : Int) : Except PyError Unit := do
  ensure (decide (1 ≤ topK) && decide (topK ≤ config.candidateTopK) &&
    decide ((candidates.length : Int) ≤ config.candidateTopK)) .valueError
    "online Reranker candidate or output bound is invalid"
  let _ ← candidates.foldlM (fun chunkIds candidate => do
    ensure (isAuthorizedCandidate ownerId documentIds chunkIds candidate)
      .onlineVisibilityUnavailableError
        "online Reranker candidate violates authorized READY identity"
    return chunkIds ++ [chunkIdOf candidate]) []
  return ()

/-- `_fallback`. -/
def fallback (candidates : List JsonObject) (topK : Int) (failureCode : String) :
    OnlineRerankOutcome where
  chunks := candidates.take topK.toNat
  status := "FALLBACK"
  failureCode := some failureCode
  candidateCount := candidates.length
  outputCount := (candidates.take topK.toNat).length

/-- What the scorer is given: a pair for each candidate. -/
def scoringPairs (reranker : OnlineFixedCrossEncoderReranker) (question : String)
    (candidates : List JsonObject) (ownerId : String) :
    Except PyError (List (String × String)) := do
  let candidateDocumentIds :=
    (candidates.map fun candidate => ((candidate.get "document_id").str?).getD "").eraseDups
  let titles ← reranker.titleProvider ownerId candidateDocumentIds
  candidates.zipIdx.mapM fun p => do
    let text ← passage titles p.2 p.1
    return (question, text)

end OnlineFixedCrossEncoderReranker

/-- The test of one score. -/
def ScoreItem.isInvalid (score : ScoreItem) : Except PyError Bool :=
  if !score.isNumber || score.isBool then .ok true
  else do
    let value ← score.toFloat
    return !value.isFinite

namespace ScoresValue

/-- `any(...)` over the scores from the `i`-th call of `next` on. Without fuel the iteration has
not ended yet. -/
def anyInvalid (scores : ScoresValue) : Nat → Nat → Option (Except PyError Bool)
  | 0, _ => none
  | fuel + 1, i =>
    match scores.next i with
    | .error e => some (.error e)
    | .ok none => some (.ok false)
    | .ok (some score) =>
      match score.isInvalid with
      | .error e => some (.error e)
      | .ok true => some (.ok true)
      | .ok false => anyInvalid scores fuel (i + 1)

/-- The condition on the scores of so many candidates. -/
def areInvalid (scores : ScoresValue) (fuel count : Nat) : Option (Except PyError Bool) :=
  match scores.length with
  | .error e => some (.error e)
  | .ok length => if length ≠ count then some (.ok true) else scores.anyInvalid fuel 0

/-- The keys of the sort. -/
def sortKeys (scores : ScoresValue) (count : Nat) : Except PyError (List PyFloat) :=
  (List.range count).mapM fun index => do
    let score ← scores.item index
    let value ← score.toFloat
    return value.neg

end ScoresValue

/-- The order of `(-score, index, chunk_id)`; no two indices agree, so the identifier does not
matter. A `NaN` is not ordered, and a sort over one leaves some order or other. -/
def keyLe (keys : List PyFloat) (i j : Nat) : Prop :=
  let a := keys.getD i .nan
  let b := keys.getD j .nan
  if a.equals b then i ≤ j else a.lt b = true

instance (keys : List PyFloat) : DecidableRel (keyLe keys) := fun i j => by
  unfold keyLe; infer_instance

/-- The sort and the selection. -/
def rankByScores (scores : ScoresValue) (candidates : List JsonObject) (topK : Int) :
    Except PyError OnlineRerankOutcome := do
  let keys ← scores.sortKeys candidates.length
  let ordered := (List.range candidates.length).insertionSort (keyLe keys)
  let selected := (ordered.take topK.toNat).filterMap fun index => candidates[index]?
  ensure (decide (selected.map chunkIdOf ⊆ candidates.map chunkIdOf))
    .onlineVisibilityUnavailableError "online Reranker expanded the authorized candidate set"
  return {
    chunks := selected
    status := "APPLIED"
    failureCode := none
    candidateCount := candidates.length
    outputCount := selected.length }

/-- What is done with the scores. -/
def applyScores (scores : ScoresValue) (fuel : Nat) (candidates : List JsonObject) (topK : Int) :
    Option (Except PyError OnlineRerankOutcome) :=
  match scores.areInvalid fuel candidates.length with
  | none => none
  | some (.error e) => some (.error e)
  | some (.ok true) =>
    some (.ok (OnlineFixedCrossEncoderReranker.fallback candidates topK "MODEL_SCORE_INVALID"))
  | some (.ok false) => some (rankByScores scores candidates topK)

/-- `rerank`, or nothing while it still iterates over the scores. -/
def OnlineFixedCrossEncoderReranker.rerank (reranker : OnlineFixedCrossEncoderReranker) (fuel : Nat)
    (question : String) (candidates : List JsonObject) (ownerId : String)
    (documentIds : List String) (topK : Int) :
    Option (Except PyError OnlineRerankOutcome) :=
  if isBlank question.toList then some (.error ⟨.valueError, "online Reranker question is invalid"⟩)
  else
    match validateAuthorizedCandidates reranker.config candidates ownerId documentIds topK with
    | .error e => some (.error e)
    | .ok () =>
      if candidates.isEmpty then some (.ok ⟨[], "NO_EVIDENCE", none, 0, 0⟩)
      else
        match reranker.scoringPairs question candidates ownerId with
        | .error _ => some (.ok (fallback candidates topK "TITLE_OR_TEMPLATE_UNAVAILABLE"))
        | .ok pairs =>
          match reranker.scorer pairs with
          | .error _ => some (.ok (fallback candidates topK "MODEL_SCORING_UNAVAILABLE"))
          | .ok scores => applyScores scores fuel candidates topK

/-! ### Safe fallback -/

/-- The first chunks in the stable descending order of their scores, which are finite real numbers,
one for each candidate. -/
def SortedByScore (scores : ScoresValue) (candidates : List JsonObject) (topK : Int)
    (chunks : List JsonObject) : Prop :=
  ∃ score : Nat → Rat, scores.length = .ok candidates.length ∧
    (∀ i < candidates.length, ∃ item, scores.item i = .ok item ∧ item.isNumber = true ∧
      item.isBool = false ∧ item.toFloat = .ok (.finite (score i))) ∧
    ∃ order : List Nat, order.Perm (List.range candidates.length) ∧
      order.Pairwise (fun i j => score j < score i ∨ (score i = score j ∧ i < j)) ∧
      chunks.map some = (order.take topK.toNat).map fun i => candidates[i]?

variable {reranker : OnlineFixedCrossEncoderReranker} {question ownerId : String}
  {candidates : List JsonObject} {documentIds : List String} {topK : Int} {scores : ScoresValue}

/-- Distinct candidates, as many as fit, ranked by the scores or in their own order. -/
structure SafeOutcome (reranker : OnlineFixedCrossEncoderReranker) (question : String)
    (candidates : List JsonObject) (ownerId : String) (topK : Int) (outcome : OnlineRerankOutcome) :
    Prop where
  count : outcome.chunks.length = min topK.toNat candidates.length
  candidate : ∀ chunk ∈ outcome.chunks, chunk ∈ candidates
  distinct : (outcome.chunks.map chunkIdOf).Nodup
  applied : outcome.status = "APPLIED" → ∃ pairs scores,
    reranker.scoringPairs question candidates ownerId = .ok pairs ∧
    reranker.scorer pairs = .ok scores ∧ SortedByScore scores candidates topK outcome.chunks
  otherwise : outcome.status ≠ "APPLIED" → outcome.chunks = candidates.take topK.toNat

/-- `rerank` returns, and safely. -/
def FallsBackSafely (reranker : OnlineFixedCrossEncoderReranker) (question : String)
    (candidates : List JsonObject) (ownerId : String) (documentIds : List String)
    (topK : Int) : Prop :=
  ∃ fuel outcome, reranker.rerank fuel question candidates ownerId documentIds topK =
    some (.ok outcome) ∧ SafeOutcome reranker question candidates ownerId topK outcome

namespace ScoresValue

/-- The iteration comes to its end or to an invalid score, and all before it is valid. -/
def Finds (scores : ScoresValue) (invalid : Bool) : Prop :=
  ∃ k, (∀ i < k, ∃ score, scores.next i = .ok (some score) ∧ score.isInvalid = .ok false) ∧
    if invalid then ∃ score, scores.next k = .ok (some score) ∧ score.isInvalid = .ok true
      else scores.next k = .ok none

/-- The value has a length, and if that is the number of candidates, its iteration finds an invalid
score, or none at all and every score can be looked up and is valid. -/
def Answers (scores : ScoresValue) (count : Nat) : Prop :=
  ∃ length, scores.length = .ok length ∧ (length = count → scores.Finds true ∨
    (scores.Finds false ∧ ∀ i < count, ∃ score, scores.item i = .ok score ∧
      score.isInvalid = .ok false))

theorem anyInvalid_ok {invalid : Bool} {fuel i : Nat}
    (h : scores.anyInvalid fuel i = some (.ok invalid)) :
    ∃ k, i ≤ k ∧ (∀ j, i ≤ j → j < k → ∃ score, scores.next j = .ok (some score) ∧
      score.isInvalid = .ok false) ∧
      if invalid then ∃ score, scores.next k = .ok (some score) ∧ score.isInvalid = .ok true
      else scores.next k = .ok none := by
  induction fuel generalizing i with
  | zero => cases h
  | succ fuel ih =>
    unfold anyInvalid at h
    split at h
    · cases h
    · rename_i hend
      cases h
      exact ⟨i, Nat.le_refl i, fun j hlow hhigh => absurd hhigh (by omega), hend⟩
    · rename_i score hnext
      split at h
      · cases h
      · rename_i hinvalid
        cases h
        exact ⟨i, Nat.le_refl i, fun j hlow hhigh => absurd hhigh (by omega), score, hnext,
          hinvalid⟩
      · rename_i hvalid
        obtain ⟨k, hk, hbefore, hat⟩ := ih h
        refine ⟨k, by omega, fun j hlow hhigh => ?_, hat⟩
        rcases Nat.eq_or_lt_of_le hlow with rfl | hlater
        · exact ⟨score, hnext, hvalid⟩
        · exact hbefore j hlater hhigh

theorem anyInvalid_of_valid {invalid : Bool} {k : Nat}
    (hat : if invalid then ∃ score, scores.next k = .ok (some score) ∧ score.isInvalid = .ok true
      else scores.next k = .ok none) (n i : Nat) (hn : i + n = k)
    (hbefore : ∀ j, i ≤ j → j < k → ∃ score, scores.next j = .ok (some score) ∧
      score.isInvalid = .ok false) :
    scores.anyInvalid (n + 1) i = some (.ok invalid) := by
  induction n generalizing i with
  | zero =>
    obtain rfl : i = k := hn
    unfold anyInvalid
    cases invalid with
    | false => rw [show scores.next i = .ok none from hat]
    | true =>
      obtain ⟨score, hnext, hinvalid⟩ := hat
      simp only [hnext, hinvalid]
  | succ n ih =>
    obtain ⟨score, hnext, hvalid⟩ := hbefore i (Nat.le_refl i) (by omega)
    unfold anyInvalid
    simp only [hnext, hvalid]
    exact ih (i + 1) (by omega) fun j hlow hhigh => hbefore j (by omega) hhigh

theorem exists_anyInvalid_iff {invalid : Bool} :
    (∃ fuel, scores.anyInvalid fuel 0 = some (.ok invalid)) ↔ scores.Finds invalid := by
  constructor
  · rintro ⟨fuel, h⟩
    obtain ⟨k, -, hbefore, hat⟩ := anyInvalid_ok h
    exact ⟨k, fun i hi => hbefore i (Nat.zero_le i) hi, hat⟩
  · rintro ⟨k, hbefore, hat⟩
    exact ⟨k + 1, anyInvalid_of_valid hat k 0 (by omega) fun j _ hj => hbefore j hj⟩

end ScoresValue

/-- A valid score is a finite real number. -/
theorem ScoreItem.isInvalid_eq_false {score : ScoreItem} : score.isInvalid = .ok false ↔
    ∃ value, score.isNumber = true ∧ score.isBool = false ∧
    score.toFloat = .ok (.finite value) := by
  unfold ScoreItem.isInvalid
  cases score.isNumber with
  | false => simp
  | true =>
    cases score.isBool with
    | true => simp
    | false =>
      simp only [Bool.not_true, Bool.or_self, Bool.false_eq_true, if_false, true_and]
      constructor
      · intro h
        obtain ⟨value, hvalue, h⟩ := bind_eq_ok.mp h
        cases value with
        | finite value => exact ⟨value, hvalue⟩
        | infinite negative => cases pure_eq_ok.mp h
        | nan => cases pure_eq_ok.mp h
      · rintro ⟨value, hvalue⟩
        rw [hvalue]
        rfl

/-! ### The sort -/

/-- By score, the best first, and by index. -/
def scoreLe (score : Nat → Rat) (i j : Nat) : Prop :=
  score j < score i ∨ (score i = score j ∧ i ≤ j)

instance (score : Nat → Rat) : DecidableRel (scoreLe score) := fun i j => by
  unfold scoreLe; infer_instance

instance (score : Nat → Rat) : Std.Total (scoreLe score) where
  total i j := by
    unfold scoreLe
    rcases lt_trichotomy (score i) (score j) with h | h | h
    · exact .inr (.inl h)
    · rcases Nat.le_total i j with hij | hji
      · exact .inl (.inr ⟨h, hij⟩)
      · exact .inr (.inr ⟨h.symm, hji⟩)
    · exact .inl (.inl h)

instance (score : Nat → Rat) : IsTrans Nat (scoreLe score) where
  trans i j k hij hjk := by
    unfold scoreLe at *
    rcases hij with hij | ⟨hij, hle⟩ <;> rcases hjk with hjk | ⟨hjk, hle'⟩
    · exact .inl (lt_trans hjk hij)
    · exact .inl (hjk ▸ hij)
    · exact .inl (hij ▸ hjk)
    · exact .inr ⟨hij.trans hjk, Nat.le_trans hle hle'⟩

/-- Over finite scores the keys order as the scores do. -/
theorem keyLe_iff {score : Nat → Rat} {count i j : Nat} (hi : i < count) (hj : j < count) :
    keyLe ((List.range count).map fun n => .finite (-(score n))) i j ↔ scoreLe score i j := by
  have hget : ∀ n < count,
      ((List.range count).map fun n => PyFloat.finite (-(score n))).getD n .nan =
        .finite (-(score n)) := by
    intro n hn
    simp [hn]
  unfold keyLe scoreLe
  simp only [hget i hi, hget j hj]
  by_cases heq : score i = score j
  · simp [PyFloat.equals, heq]
  · have hneg : -score i ≠ -score j := fun h => heq (neg_injective h)
    simp [PyFloat.equals, PyFloat.lt, heq, hneg]

theorem sorted_range {score : Nat → Rat} {count : Nat} {ordered : List Nat}
    (h : ordered =
      (List.range count).insertionSort
        (keyLe ((List.range count).map fun n => .finite (-(score n))))) :
    ordered.Perm (List.range count) ∧ ordered.Pairwise fun i j => score j < score i ∨
    (score i = score j ∧ i < j) := by
  have hperm : ordered.Perm (List.range count) := by
    rw [h]
    exact List.perm_insertionSort _ _
  have hsame : ordered = (List.range count).insertionSort (scoreLe score) := by
    have := List.map_insertionSort (keyLe ((List.range count).map fun n => .finite (-(score n))))
      (scoreLe score) id (List.range count) fun i hi j hj => keyLe_iff (List.mem_range.mp hi)
        (List.mem_range.mp hj)
    rwa [List.map_id, List.map_id, ← h] at this
  have hpairwise : ordered.Pairwise (scoreLe score) := by
    rw [hsame]
    exact List.pairwise_insertionSort (scoreLe score) _
  have hnodup : ordered.Nodup := hperm.nodup_iff.mpr List.nodup_range
  refine ⟨hperm, (hpairwise.and hnodup).imp fun {i j} hij => ?_⟩
  rcases hij with ⟨h | ⟨heq, hle⟩, hne⟩
  · exact .inl h
  · exact .inr ⟨heq, lt_of_le_of_ne hle hne⟩

theorem map_some_filterMap {α β : Type} {f : α → Option β} {xs : List α}
    (h : ∀ x ∈ xs, (f x).isSome = true) : (xs.filterMap f).map some = xs.map f := by
  induction xs with
  | nil => rfl
  | cons x xs ih =>
    obtain ⟨y, hy⟩ := Option.isSome_iff_exists.mp (h x List.mem_cons_self)
    rw [List.filterMap_cons_some hy, List.map_cons, List.map_cons, hy,
      ih fun x hx => h x (List.mem_cons_of_mem _ hx)]

/-- Candidates at distinct positions are distinct. -/
theorem nodup_at_positions {positions : List Nat} {chunks : List JsonObject}
    (hdistinct : (candidates.map chunkIdOf).Nodup) (hpositions : positions.Nodup)
    (hrange : ∀ p ∈ positions, p < candidates.length)
    (hchunks : chunks.map some = positions.map fun i => candidates[i]?) :
    (chunks.map chunkIdOf).Nodup := by
  have hids : (chunks.map chunkIdOf).map some = positions.map fun i =>
      (candidates.map chunkIdOf)[i]? := by
    have := congrArg (List.map (Option.map chunkIdOf)) hchunks
    simpa [Function.comp_def] using this
  refine List.Nodup.of_map some ?_
  rw [hids]
  refine hpositions.map_on fun p hp q _ heq => ?_
  exact (List.getElem?_inj (by simpa using hrange p hp) hdistinct).mp heq

/-- Valid scores rank the candidates. -/
theorem rankByScores_of_valid (topK : Int) (hdistinct : (candidates.map chunkIdOf).Nodup)
    (hvalid : ∀ i < candidates.length, ∃ score, scores.item i = .ok score ∧
      score.isInvalid = .ok false) :
    ∃ outcome, rankByScores scores candidates topK = .ok outcome ∧ outcome.status = "APPLIED" ∧
      outcome.chunks.length = min topK.toNat candidates.length ∧
      (∀ chunk ∈ outcome.chunks, chunk ∈ candidates) ∧
      (outcome.chunks.map chunkIdOf).Nodup ∧
      (scores.length = .ok candidates.length →
        SortedByScore scores candidates topK outcome.chunks) := by
  have hscores : ∀ i, ∃ value : Rat, i < candidates.length → ∃ score, scores.item i = .ok score ∧
      score.isNumber = true ∧ score.isBool = false ∧ score.toFloat = .ok (.finite value) := by
    intro i
    by_cases hi : i < candidates.length
    · obtain ⟨score, hitem, hscore⟩ := hvalid i hi
      obtain ⟨value, hreal⟩ := ScoreItem.isInvalid_eq_false.mp hscore
      exact ⟨value, fun _ => ⟨score, hitem, hreal⟩⟩
    · exact ⟨0, fun h => absurd h hi⟩
  choose score hscore using hscores
  have hkeys : scores.sortKeys candidates.length =
      .ok ((List.range candidates.length).map fun n => .finite (-(score n))) := by
    unfold ScoresValue.sortKeys
    rw [mapM_eq_ok, List.forall₂_map_right_iff, List.forall₂_same]
    intro i hi
    obtain ⟨item, hitem, -, -, hfloat⟩ := hscore i (List.mem_range.mp hi)
    rw [hitem]
    change (item.toFloat >>= fun value => pure value.neg) = _
    rw [hfloat]
    rfl
  obtain ⟨hperm, hpairwise⟩ := sorted_range (rfl : _ = (List.range candidates.length).insertionSort
    (keyLe ((List.range candidates.length).map fun n => .finite (-(score n)))))
  generalize hordered : (List.range candidates.length).insertionSort
    (keyLe ((List.range candidates.length).map fun n => .finite (-(score n)))) =
      ordered at hperm hpairwise
  have hrange : ∀ p ∈ ordered.take topK.toNat, p < candidates.length := fun p hp =>
    List.mem_range.mp (hperm.mem_iff.mp (List.mem_of_mem_take hp))
  generalize hchosen :
    ((ordered.take topK.toNat).filterMap fun index => candidates[index]?) = chosen
  have hchunks : chosen.map some = (ordered.take topK.toNat).map fun i => candidates[i]? := by
    rw [← hchosen]
    exact map_some_filterMap fun p hp => by simpa using hrange p hp
  have hmem : ∀ chunk ∈ chosen, chunk ∈ candidates := by
    intro chunk hchunk
    rw [← hchosen] at hchunk
    obtain ⟨p, -, hget⟩ := List.mem_filterMap.mp hchunk
    exact List.mem_of_getElem? hget
  have hsubset : chosen.map chunkIdOf ⊆ candidates.map chunkIdOf := List.map_subset _ hmem
  refine ⟨⟨chosen, "APPLIED", none, candidates.length, chosen.length⟩, ?_, rfl, ?_, hmem, ?_,
    fun hlength =>
    ⟨score, hlength, hscore, ordered, hperm, hpairwise, hchunks⟩⟩
  · unfold rankByScores
    rw [hkeys]
    change (ensure _ _ _ >>= fun _ => _) = _
    rw [hordered, hchosen, ensure_true_bind (decide_eq_true hsubset)]
    rfl
  · have hlength := congrArg List.length hchunks
    rw [List.length_map, List.length_map, List.length_take, hperm.length_eq, List.length_range]
      at hlength
    exact hlength
  · exact nodup_at_positions hdistinct
      ((hperm.nodup_iff.mpr List.nodup_range).sublist (List.take_sublist _ _)) hrange hchunks

theorem rankByScores_applied {outcome : OnlineRerankOutcome}
    (h : rankByScores scores candidates topK = .ok outcome) : outcome.status = "APPLIED" := by
  unfold rankByScores at h
  obtain ⟨keys, -, h⟩ := bind_eq_ok.mp h
  obtain ⟨-, h⟩ := ensure_bind.mp h
  cases pure_eq_ok.mp h
  rfl

/-! ### The outcome -/

open OnlineFixedCrossEncoderReranker

/-- Authorized candidates are distinct, and one of them at least may be returned. -/
theorem validateAuthorizedCandidates_ok {config : OnlineRerankerConfig}
    (h : validateAuthorizedCandidates config candidates ownerId documentIds topK = .ok ()) :
    1 ≤ topK ∧ (candidates.map chunkIdOf).Nodup := by
  unfold validateAuthorizedCandidates at h
  obtain ⟨hbounds, h⟩ := ensure_bind.mp h
  obtain ⟨chunkIds, hfold, -⟩ := bind_eq_ok.mp h
  rw [Bool.and_eq_true, Bool.and_eq_true, decide_eq_true_eq] at hbounds
  refine ⟨hbounds.1.1, ?_⟩
  have hseen : ∀ (rest : List JsonObject) (seen chunkIds : List String),
      (rest.foldlM (fun chunkIds candidate => do
      ensure (isAuthorizedCandidate ownerId documentIds chunkIds candidate)
        .onlineVisibilityUnavailableError
          "online Reranker candidate violates authorized READY identity"
      return chunkIds ++ [chunkIdOf candidate]) seen : Except PyError (List String)) =
        .ok chunkIds →
      seen.Nodup → (seen ++ rest.map chunkIdOf).Nodup := by
    intro rest
    induction rest with
    | nil =>
      intro seen _ _ hnodup
      rwa [List.map_nil, List.append_nil]
    | cons candidate rest ih =>
      intro seen chunkIds hfold hnodup
      rw [List.foldlM_cons] at hfold
      obtain ⟨seen', hcandidate, hrest⟩ := bind_eq_ok.mp hfold
      obtain ⟨hauthorized, hcandidate⟩ := ensure_bind.mp hcandidate
      cases pure_eq_ok.mp hcandidate
      have hnew : chunkIdOf candidate ∉ seen := by
        intro hmem
        unfold isAuthorizedCandidate at hauthorized
        simp [hmem] at hauthorized
      rw [List.map_cons, List.append_cons]
      exact ih _ _ hrest (List.nodup_append.mpr ⟨hnodup, List.nodup_singleton _, by
        intro a ha b hb
        rw [List.mem_singleton.mp hb]
        rintro rfl
        exact hnew ha⟩)
  exact hseen candidates [] chunkIds hfold List.nodup_nil

theorem fallback_safe (hdistinct : (candidates.map chunkIdOf).Nodup) (failureCode : String) :
    SafeOutcome reranker question candidates ownerId topK
      (fallback candidates topK failureCode) where
  count := List.length_take
  candidate chunk hchunk := List.mem_of_mem_take hchunk
  distinct := by
    change ((candidates.take topK.toNat).map chunkIdOf).Nodup
    rw [List.map_take]
    exact hdistinct.sublist (List.take_sublist _ _)
  applied h := absurd h (show "FALLBACK" ≠ "APPLIED" by decide)
  otherwise _ := rfl

theorem areInvalid_ok_iff {invalid : Bool} {count : Nat} :
    (∃ fuel, scores.areInvalid fuel count = some (.ok invalid)) ↔
      ∃ length, scores.length = .ok length ∧ if length = count then scores.Finds invalid
        else invalid = true := by
  unfold ScoresValue.areInvalid
  cases scores.length with
  | error e => simp
  | ok length =>
    by_cases heq : length = count
    · simp only [heq, ne_eq, not_true_eq_false, if_false]
      rw [ScoresValue.exists_anyInvalid_iff]
      simp
    · simp only [ne_eq, heq, not_false_eq_true, if_true]
      constructor
      · rintro ⟨-, h⟩
        cases h
        exact ⟨length, rfl, by rw [if_neg heq]⟩
      · rintro ⟨length', hlength, h⟩
        cases hlength
        rw [if_neg heq] at h
        exact ⟨0, by rw [h]⟩

theorem applyScores_iff {pairs : List (String × String)}
    (hdistinct : (candidates.map chunkIdOf).Nodup)
    (hpairs : reranker.scoringPairs question candidates ownerId = .ok pairs)
    (hscores : reranker.scorer pairs = .ok scores) :
    (∃ fuel outcome, applyScores scores fuel candidates topK = some (.ok outcome) ∧
      SafeOutcome reranker question candidates ownerId topK outcome) ↔
      scores.Answers candidates.length := by
  constructor
  · rintro ⟨fuel, outcome, happlied, hsafe⟩
    unfold applyScores at happlied
    split at happlied
    · cases happlied
    · cases happlied
    · rename_i hinvalid
      obtain ⟨length, hlength, hfinds⟩ := areInvalid_ok_iff.mp ⟨fuel, hinvalid⟩
      refine ⟨length, hlength, fun heq => .inl ?_⟩
      rwa [if_pos heq] at hfinds
    · rename_i hvalid
      obtain ⟨length, hlength, hfinds⟩ := areInvalid_ok_iff.mp ⟨fuel, hvalid⟩
      refine ⟨length, hlength, fun heq => .inr ⟨?_, fun i hi => ?_⟩⟩
      · rwa [if_pos heq] at hfinds
      · obtain ⟨pairs', scores', hpairs', hscores', score, -, hitems, -⟩ :=
          hsafe.applied (rankByScores_applied (Option.some.inj happlied))
        rw [hpairs] at hpairs'
        cases hpairs'
        rw [hscores] at hscores'
        cases hscores'
        obtain ⟨item, hitem, hreal⟩ := hitems i hi
        exact ⟨item, hitem, ScoreItem.isInvalid_eq_false.mpr ⟨score i, hreal⟩⟩
  · rintro ⟨length, hlength, hanswers⟩
    by_cases hinvalid : length = candidates.length → scores.Finds true
    · obtain ⟨fuel, hfuel⟩ := areInvalid_ok_iff.mpr ⟨length, hlength, (by
        by_cases heq : length = candidates.length
        · rw [if_pos heq]
          exact hinvalid heq
        · rw [if_neg heq] : if length = candidates.length then scores.Finds true else true = true)⟩
      refine ⟨fuel, _, ?_, fallback_safe hdistinct "MODEL_SCORE_INVALID"⟩
      unfold applyScores
      rw [hfuel]
    · obtain ⟨heq, hnone⟩ := Classical.not_imp.mp hinvalid
      obtain ⟨hfinds, hitems⟩ := (hanswers heq).resolve_left hnone
      obtain ⟨fuel, hfuel⟩ := areInvalid_ok_iff.mpr ⟨length, hlength, (by
        rw [if_pos heq]
        exact hfinds : if length = candidates.length then scores.Finds false else false = true)⟩
      obtain ⟨outcome, hranked, happlied, hcount, hmem, hnodup, hsorted⟩ :=
        rankByScores_of_valid topK hdistinct hitems
      refine ⟨fuel, outcome, ?_, hcount, hmem, hnodup,
        fun _ => ⟨pairs, scores, hpairs, hscores, hsorted (heq ▸ hlength)⟩,
        fun h => absurd happlied h⟩
      unfold applyScores
      rw [hfuel, hranked]

/-- Authorized candidates are reranked safely exactly if the question says something and the scores,
should there be any, answer what they are asked. -/
theorem fallsBackSafely_iff
    (h : validateAuthorizedCandidates reranker.config candidates ownerId documentIds topK =
      .ok ()) :
    FallsBackSafely reranker question candidates ownerId documentIds topK ↔
      isBlank question.toList = false ∧ (candidates ≠ [] → ∀ pairs scores,
        reranker.scoringPairs question candidates ownerId = .ok pairs →
          reranker.scorer pairs = .ok scores → scores.Answers candidates.length) := by
  obtain ⟨-, hdistinct⟩ := validateAuthorizedCandidates_ok h
  unfold FallsBackSafely rerank
  cases hblank : isBlank question.toList with
  | true => simp
  | false =>
    simp only [h, Bool.false_eq_true, if_false, true_and, List.isEmpty_iff]
    by_cases hempty : candidates = []
    · subst hempty
      refine iff_of_true ⟨0, _, rfl, ?_⟩ fun hne => absurd rfl hne
      exact ⟨by simp, fun _ hmem => absurd hmem List.not_mem_nil, List.nodup_nil,
        fun hstatus => absurd hstatus (show "NO_EVIDENCE" ≠ "APPLIED" by decide), fun _ => by simp⟩
    simp only [if_neg hempty]
    cases hpairs : reranker.scoringPairs question candidates ownerId with
    | error e =>
      exact iff_of_true ⟨0, _, rfl, fallback_safe hdistinct _⟩ fun _ _ _ hpairs => by cases hpairs
    | ok pairs =>
      cases hscores : reranker.scorer pairs with
      | error e =>
        refine iff_of_true ⟨0, fallback candidates topK "MODEL_SCORING_UNAVAILABLE",
          by simp only [hscores], fallback_safe hdistinct _⟩ fun _ pairs' _ hpairs' hscores' => ?_
        cases hpairs'
        rw [hscores] at hscores'
        cases hscores'
      | ok scores =>
        simp only [hscores]
        rw [applyScores_iff hdistinct hpairs hscores]
        constructor
        · intro hanswers _ pairs' scores' hpairs' hscores'
          cases hpairs'
          rw [hscores] at hscores'
          cases hscores'
          exact hanswers
        · intro hanswers
          exact hanswers hempty pairs scores rfl hscores

/-! ### A scorer without an answer -/

/-- `None`, which has no length. -/
def noScores : ScoresValue where
  length := .error ⟨.typeError, "object of type 'NoneType' has no len()"⟩
  next _ := .error ⟨.typeError, "'NoneType' object is not iterable"⟩
  item _ := .error ⟨.typeError, "'NoneType' object is not subscriptable"⟩

/-- A reranker whose scorer returns this value, with a title for every document. -/
def rerankerOf (scores : ScoresValue) : OnlineFixedCrossEncoderReranker where
  config := ⟨20⟩
  scorer _ := .ok scores
  titleProvider _ _ := .ok { contains := fun _ _ => .ok true, title := fun _ _ => .ok "Title" }

def readyCandidate (chunkId : String) : JsonObject :=
  .ofMembers [("chunk_id", .str chunkId), ("document_id", .str "doc_1"),
    ("version_id", .str "version_1"), ("tenant_id", .str "owner_1"), ("is_active", .bool true),
    ("section_path", .str "1"), ("text", .str "text")]

theorem no_scores_raise : ¬FallsBackSafely (rerankerOf noScores) "question"
    [readyCandidate "chunk_1"] "owner_1" ["doc_1"] 3 := by
  rintro ⟨fuel, outcome, hreturned, -⟩
  have hblank : isBlank "question".toList = false := by decide +kernel
  have hvalid : validateAuthorizedCandidates ⟨20⟩ [readyCandidate "chunk_1"] "owner_1" ["doc_1"] 3 =
      .ok () := by
    decide +kernel
  have hpairs : (rerankerOf noScores).scoringPairs "question" [readyCandidate "chunk_1"] "owner_1" =
      .ok [("question", "Title: Title\nSection: 1\ntext")] := by
    decide +kernel
  have hraised : (rerankerOf noScores).rerank fuel "question" [readyCandidate "chunk_1"] "owner_1"
      ["doc_1"] 3 = some (.error ⟨.typeError, "object of type 'NoneType' has no len()"⟩) := by
    unfold rerank
    rw [hblank, hpairs]
    simp only [rerankerOf, hvalid, Bool.false_eq_true, if_false]
    rfl
  rw [hraised] at hreturned
  cases hreturned

/-- A list of floats. -/
def listScores (values : List Rat) : ScoresValue :=
  let score := fun value => (⟨true, false, .ok (.finite value)⟩ : ScoreItem)
  { length := .ok values.length
    next := fun i => .ok (values[i]?.map score)
    item := fun i => (values[i]?.map score).elim
      (.error ⟨.lookupError, "list index out of range"⟩) .ok }

theorem fallsBackSafely_two : FallsBackSafely (rerankerOf (listScores [1 / 4, 1 / 2])) "question"
    [readyCandidate "chunk_1", readyCandidate "chunk_2"] "owner_1" ["doc_1"] 3 := by
  have hvalid : ∀ i < 2, ∃ score, (listScores [1 / 4, 1 / 2]).next i = .ok (some score) ∧
      (listScores [1 / 4, 1 / 2]).item i = .ok score ∧ score.isInvalid = .ok false := by
    intro i hi
    match i with
    | 0 => exact ⟨_, rfl, rfl, rfl⟩
    | 1 => exact ⟨_, rfl, rfl, rfl⟩
  refine (fallsBackSafely_iff (by decide +kernel)).mpr
    ⟨by decide +kernel, fun _ pairs scores _ hscores => ?_⟩
  cases hscores
  refine ⟨2, rfl, fun _ => .inr ⟨⟨2, fun i hi => ?_, rfl⟩, fun i hi => ?_⟩⟩
  · obtain ⟨score, hnext, -, hscore⟩ := hvalid i hi
    exact ⟨score, hnext, hscore⟩
  · obtain ⟨score, -, hitem, hscore⟩ := hvalid i hi
    exact ⟨score, hitem, hscore⟩

end ZhiyanRag.Retrieval
