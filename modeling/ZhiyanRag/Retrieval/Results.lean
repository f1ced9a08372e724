import ZhiyanRag.Base
import ZhiyanRag.Retrieval.Json

/-!
# Ranked candidates

The interface between the retrieval backends and fusion. A `RankedChunk` carries its own check; a
ranking is valid if its ranks count from 1, its chunks are distinct and its candidates come from one
backend. Scores are doubles, and every result holds for whatever arithmetic they have
(`FloatArithmetic`).
-/

namespace ZhiyanRag.Retrieval

/-- The operations on scores that ranking and fusion use; `reciprocal n` is `1.0 / n`. -/
structure FloatArithmetic (Score : Type) where
  ofInt : Int → Score
  add : Score → Score → Score
  reciprocal : Int → Score
  lt : Score → Score → Bool
  le : Score → Score → Bool
  isFinite : Score → Bool

/-- Exact scores, every one of them finite. -/
def rationalScores : FloatArithmetic Rat where
  ofInt n := n
  add a b := a + b
  reciprocal n := 1 / n
  lt a b := decide (a < b)
  le a b := decide (a ≤ b)
  isFinite _ := true

/-- `^[A-Za-z0-9][A-Za-z0-9._:-]*$`. -/
def backendPattern (s : String) : Bool :=
  match utf8Bytes s with
  | [] => false
  | b :: bs => isIdStart b && bs.all isIdChar

section

variable {Score : Type} (float : FloatArithmetic Score)

/-- `__post_init__`. -/
def checkRankedChunk (backend : String) (rank : Int) (score : Score) (chunk : JsonObject) :
    Except PyError Unit := do
  ensure (backendPattern backend) .valueError "ranked candidate backend is invalid"
  ensure (decide (1 ≤ rank)) .valueError "ranked candidate rank must be at least 1"
  ensure (float.isFinite score) .valueError "ranked candidate score must be finite"
  ensure (chunk.get "chunk_id").isNonemptyStr .valueError
    "ranked candidate chunk has invalid chunk_id"
  ensure (chunk.get "document_id").isNonemptyStr .valueError
    "ranked candidate chunk has invalid document_id"

/-- `str(chunk["chunk_id"])`. -/
def chunkIdOf (chunk : JsonObject) : String := ((chunk.get "chunk_id").str?).getD ""

/-- An authorized candidate with its backend-local rank and score. -/
structure RankedChunk where
  backend : String
  rank : Int
  score : Score
  chunk : JsonObject
  valid : checkRankedChunk float backend rank score chunk = .ok ()

def RankedChunk.make (backend : String) (rank : Int) (score : Score) (chunk : JsonObject) :
    Except PyError (RankedChunk float) :=
  match h : checkRankedChunk float backend rank score chunk with
  | .ok () => .ok ⟨backend, rank, score, chunk, h⟩
  | .error e => .error e

end

section

variable {Score : Type} {float : FloatArithmetic Score}

namespace RankedChunk

def chunkId (candidate : RankedChunk float) : String := chunkIdOf candidate.chunk

theorem make_ok {backend : String} {rank : Int} {score : Score} {chunk : JsonObject}
    {candidate : RankedChunk float} (h : make float backend rank score chunk = .ok candidate) :
    candidate.backend = backend ∧ candidate.rank = rank ∧ candidate.score = score ∧
    candidate.chunk = chunk := by
  unfold make at h
  split at h
  · cases h
    exact ⟨rfl, rfl, rfl, rfl⟩
  · cases h

end RankedChunk

def validateRanking (ranking : List (RankedChunk float)) (expectedBackend : String) :
    Except PyError Unit := do
  ensure (decide (ranking.map (·.rank) = (List.range' 1 ranking.length).map
    fun n : Nat => (n : Int))) .valueError
      "ranked candidate ranks must be contiguous and start at 1"
  ensure (decide (ranking.map (·.chunkId)).Nodup) .valueError
    "ranked candidates must have unique chunk_id values"
  ensure (ranking.all fun candidate => decide (candidate.backend = expectedBackend)) .valueError
    "ranked candidate backend does not match ranking source"

/-- Distinct chunks at the ranks from 1 on. -/
structure ValidRanking (ranking : List (RankedChunk float)) : Prop where
  ranks : ranking.map (·.rank) = (List.range' 1 ranking.length).map fun n : Nat => (n : Int)
  distinct : (ranking.map (·.chunkId)).Nodup

theorem validateRanking_ok {ranking : List (RankedChunk float)} {expectedBackend : String}
    (h : validateRanking ranking expectedBackend = .ok ()) : ValidRanking ranking := by
  unfold validateRanking at h
  obtain ⟨hranks, h⟩ := ensure_bind.mp h
  obtain ⟨hdistinct, -⟩ := ensure_bind.mp h
  exact ⟨of_decide_eq_true hranks, of_decide_eq_true hdistinct⟩

/-- The front of a valid ranking is a valid ranking. -/
theorem ValidRanking.take {ranking : List (RankedChunk float)} (h : ValidRanking ranking)
    (n : Nat) : ValidRanking (ranking.take n) where
  ranks := by
    rw [List.map_take, h.ranks, ← List.map_take, List.length_take]
    rcases Nat.le_total n ranking.length with hn | hn
    · rw [List.take_range'_of_length_ge hn, Nat.min_eq_left hn]
    · rw [List.take_range'_of_length_le hn, Nat.min_eq_right hn]
  distinct := by
    rw [List.map_take]
    exact h.distinct.sublist (List.take_sublist _ _)

/-- The candidates of a ranking source, ranked from 1 in this order. -/
def rankInOrder (float : FloatArithmetic Score) (backend : String)
    (scored : List (Score × JsonObject)) : Except PyError (List (RankedChunk float)) := do
  let ranking ← (scored.zipIdx 1).mapM fun p => RankedChunk.make float backend p.2 p.1.1 p.1.2
  validateRanking ranking backend
  return ranking

theorem rankInOrder_ok {backend : String} {scored : List (Score × JsonObject)}
    {ranking : List (RankedChunk float)} (h : rankInOrder float backend scored = .ok ranking) :
    ValidRanking ranking ∧ ranking.map (·.chunk) = scored.map Prod.snd := by
  unfold rankInOrder at h
  obtain ⟨made, hmade, h⟩ := bind_eq_ok.mp h
  obtain ⟨hvalid, h⟩ := check_bind.mp h
  cases pure_eq_ok.mp h
  have hchunks : List.Forall₂ (fun p candidate => p.1.2 = candidate.chunk) (scored.zipIdx 1)
      ranking :=
    (mapM_eq_ok.mp hmade).imp fun _ _ hmake => (RankedChunk.make_ok hmake).2.2.2.symm
  have hmap : (scored.zipIdx 1).map (fun p => p.1.2) = ranking.map (·.chunk) := by
    rw [← List.forall₂_eq_eq_eq, List.forall₂_map_left_iff, List.forall₂_map_right_iff]
    exact hchunks
  refine ⟨validateRanking_ok hvalid, ?_⟩
  rw [← hmap, ← List.zipIdx_map_fst 1 scored, List.map_map]
  simp

/-- A score and a chunk that a candidate can have. -/
structure Rankable (float : FloatArithmetic Score) (scored : Score × JsonObject) : Prop where
  finite : float.isFinite scored.1 = true
  chunkId : (scored.2.get "chunk_id").isNonemptyStr = true
  documentId : (scored.2.get "document_id").isNonemptyStr = true

theorem RankedChunk.rankable (candidate : RankedChunk float) :
    Rankable float (candidate.score, candidate.chunk) := by
  have h := candidate.valid
  unfold checkRankedChunk at h
  obtain ⟨-, h⟩ := ensure_bind.mp h
  obtain ⟨-, h⟩ := ensure_bind.mp h
  obtain ⟨hfinite, h⟩ := ensure_bind.mp h
  obtain ⟨hchunk, h⟩ := ensure_bind.mp h
  exact ⟨hfinite, hchunk, (ensure_eq_ok.mp h)⟩

theorem RankedChunk.exists_make {backend : String} (hbackend : backendPattern backend = true)
    {rank : Int} (hrank : 1 ≤ rank) {scored : Score × JsonObject} (h : Rankable float scored) :
    ∃ candidate, make float backend rank scored.1 scored.2 = .ok candidate := by
  have hcheck : checkRankedChunk float backend rank scored.1 scored.2 = .ok () := by
    unfold checkRankedChunk
    simp only [ensure_bind, ensure_eq_ok, hbackend, hrank, decide_true, h.finite, h.chunkId,
      h.documentId, and_self]
  unfold make
  split
  · exact ⟨_, rfl⟩
  · rename_i e he
    rw [hcheck] at he
    cases he

/-- What is made of scores and chunks, one after the other. -/
theorem made_eq {backend : String} {scored : List (Score × JsonObject)}
    {made : List (RankedChunk float)}
    (h : ((scored.zipIdx 1).mapM fun p => RankedChunk.make float backend p.2 p.1.1 p.1.2) =
      .ok made) :
    made.map (fun candidate => (candidate.backend, candidate.rank, candidate.score,
      candidate.chunk)) = (scored.zipIdx 1).map fun p => (backend, (p.2 : Int), p.1) := by
  rw [← List.forall₂_eq_eq_eq, List.forall₂_map_left_iff, List.forall₂_map_right_iff]
  refine (mapM_eq_ok.mp h).flip.imp fun candidate p hmake => ?_
  obtain ⟨hbackend, hrank, hscore, hchunk⟩ := RankedChunk.make_ok hmake
  rw [hbackend, hrank, hscore, hchunk]

/-- What is ranked in order keeps its scores and chunks. -/
theorem rankInOrder_scored {backend : String} {scored : List (Score × JsonObject)}
    {ranking : List (RankedChunk float)} (h : rankInOrder float backend scored = .ok ranking) :
    ranking.map (fun candidate => (candidate.score, candidate.chunk)) = scored := by
  unfold rankInOrder at h
  obtain ⟨made, hmade, h⟩ := bind_eq_ok.mp h
  obtain ⟨-, h⟩ := check_bind.mp h
  cases pure_eq_ok.mp h
  have hmap := congrArg (List.map fun x => x.2.2) (made_eq hmade)
  rw [List.map_map, List.map_map] at hmap
  exact hmap.trans (List.zipIdx_map_fst 1 scored)

/-- Distinct chunks with finite scores can be ranked. -/
theorem exists_rankInOrder {backend : String} (hbackend : backendPattern backend = true)
    {scored : List (Score × JsonObject)} (hrankable : ∀ p ∈ scored, Rankable float p)
    (hdistinct : (scored.map fun p => chunkIdOf p.2).Nodup) :
    ∃ ranking, rankInOrder float backend scored = .ok ranking := by
  obtain ⟨made, hmade⟩ :
      ∃ made, ((scored.zipIdx 1).mapM fun p => RankedChunk.make float backend p.2 p.1.1 p.1.2) =
        .ok made := by
    refine exists_mapM_ok fun p hp => ?_
    have hlow := List.le_snd_of_mem_zipIdx hp
    exact RankedChunk.exists_make hbackend (by omega)
      (hrankable p.1 (List.fst_mem_of_mem_zipIdx hp))
  have hmap := made_eq hmade
  have hlength : made.length = scored.length := by simpa using congrArg List.length hmap
  have hranks : made.map (·.rank) = (List.range' 1 made.length).map fun n : Nat => (n : Int) := by
    have := congrArg (List.map fun x => x.2.1) hmap
    rw [List.map_map, List.map_map] at this
    rw [hlength, ← List.zipIdx_map_snd 1 scored, List.map_map]
    exact this
  have hids : made.map (·.chunkId) = scored.map fun p => chunkIdOf p.2 := by
    have := congrArg (List.map fun x => chunkIdOf x.2.2.2) hmap
    rw [List.map_map, List.map_map] at this
    rw [← List.zipIdx_map_fst 1 scored, List.map_map]
    exact this
  have hbackends : (made.all fun candidate => decide (candidate.backend = backend)) = true := by
    rw [List.all_eq_true]
    intro candidate hcandidate
    have hmem := List.mem_map_of_mem (f := fun candidate : RankedChunk float =>
      (candidate.backend, candidate.rank, candidate.score, candidate.chunk)) hcandidate
    rw [hmap] at hmem
    obtain ⟨p, -, heq⟩ := List.mem_map.mp hmem
    exact decide_eq_true (congrArg Prod.fst heq).symm
  have hvalidate : validateRanking made backend = .ok () := by
    unfold validateRanking
    rw [hids]
    simp only [ensure_bind, ensure_eq_ok, hranks, hdistinct, hbackends, decide_true, and_self]
  refine ⟨made, ?_⟩
  unfold rankInOrder
  rw [hmade]
  simp only [bind, Except.bind, hvalidate]
  rfl

theorem validateRanking_ok_iff {ranking : List (RankedChunk float)} {expectedBackend : String} :
    validateRanking ranking expectedBackend = .ok () ↔
      ValidRanking ranking ∧ ∀ candidate ∈ ranking, candidate.backend = expectedBackend := by
  unfold validateRanking
  simp only [ensure_bind, ensure_eq_ok, decide_eq_true_eq, List.all_eq_true]
  exact ⟨fun h => ⟨⟨h.1, h.2.1⟩, h.2.2⟩, fun h => ⟨h.1.ranks, h.1.distinct, h.2⟩⟩

/-- The front of what is ranked is what is ranked of the front. -/
theorem rankInOrder_take {backend : String} {scored : List (Score × JsonObject)}
    {ranking : List (RankedChunk float)} (h : rankInOrder float backend scored = .ok ranking)
    (n : Nat) : rankInOrder float backend (scored.take n) = .ok (ranking.take n) := by
  unfold rankInOrder at *
  obtain ⟨made, hmade, h⟩ := bind_eq_ok.mp h
  obtain ⟨hvalid, h⟩ := check_bind.mp h
  cases pure_eq_ok.mp h
  obtain ⟨hranking, hbackend⟩ := validateRanking_ok_iff.mp hvalid
  have hzip : (scored.take n).zipIdx 1 = (scored.zipIdx 1).take n := by
    apply List.ext_getElem?
    intro i
    rw [List.getElem?_take, List.getElem?_zipIdx, List.getElem?_zipIdx, List.getElem?_take]
    split <;> rfl
  have hfront := mapM_eq_ok.mpr (List.forall₂_take n (mapM_eq_ok.mp hmade))
  rw [hzip, hfront]
  exact check_bind.mpr ⟨validateRanking_ok_iff.mpr ⟨hranking.take n, fun candidate hcandidate =>
    hbackend candidate (List.mem_of_mem_take hcandidate)⟩, rfl⟩

theorem forall₂_zipIdx {α β : Type} {R : α → β → Prop} {xs : List α} {ys : List β}
    (h : List.Forall₂ R xs ys) (n : Nat) :
    List.Forall₂ (fun p q => p.2 = q.2 ∧ R p.1 q.1) (xs.zipIdx n) (ys.zipIdx n) := by
  induction h generalizing n with
  | nil => exact .nil
  | cons hxy _ ih => exact .cons ⟨rfl, hxy⟩ (ih (n + 1))

/-- Related scores and chunks are ranked alike. -/
theorem rankInOrder_forall₂ {backend : String} {R : Score × JsonObject → Score × JsonObject → Prop}
    {scored scored' : List (Score × JsonObject)} {ranking ranking' : List (RankedChunk float)}
    (h : rankInOrder float backend scored = .ok ranking)
    (h' : rankInOrder float backend scored' = .ok ranking')
    (hrelated : List.Forall₂ R scored scored') :
    List.Forall₂ (fun a b => a.backend = b.backend ∧ a.rank = b.rank ∧
      R (a.score, a.chunk) (b.score, b.chunk)) ranking ranking' := by
  unfold rankInOrder at h h'
  obtain ⟨made, hmade, h⟩ := bind_eq_ok.mp h
  obtain ⟨-, h⟩ := check_bind.mp h
  cases pure_eq_ok.mp h
  obtain ⟨made', hmade', h'⟩ := bind_eq_ok.mp h'
  obtain ⟨-, h'⟩ := check_bind.mp h'
  cases pure_eq_ok.mp h'
  have hfields : List.Forall₂ (fun a b => a.1 = b.1 ∧ a.2.1 = b.2.1 ∧ R a.2.2 b.2.2)
      (ranking.map fun candidate => (candidate.backend, candidate.rank, candidate.score,
        candidate.chunk))
      (ranking'.map fun candidate => (candidate.backend, candidate.rank, candidate.score,
        candidate.chunk)) := by
    rw [made_eq hmade, made_eq hmade', List.forall₂_map_left_iff, List.forall₂_map_right_iff]
    exact (forall₂_zipIdx hrelated 1).imp fun p q hpq => ⟨rfl, congrArg Nat.cast hpq.1, hpq.2⟩
  rw [List.forall₂_map_left_iff, List.forall₂_map_right_iff] at hfields
  exact hfields

end

end ZhiyanRag.Retrieval
