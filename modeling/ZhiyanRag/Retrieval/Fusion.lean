import Mathlib.Data.String.Basic
import ZhiyanRag.Lib.RankFusion
import ZhiyanRag.Retrieval.Online

/-!
# Rank fusion

`_fuse` of `online.py`, `RemoteRrfHybridRetriever.search` of `remote_hybrid.py` and
`LocalRrfHybridRetriever.retrieve` of `hybrid.py` each write the fusion anew. With exact scores the
identifiers come in the order of `RankFusion.fused` (`fuse_spec`), of which the laws of fusion
follow (`fusion_laws`).
-/

namespace ZhiyanRag.Retrieval

open Relational

section

variable {Score : Type} (float : FloatArithmetic Score)

/-! ### The other two retrievers -/

/-- A chunk at a rank: the three assignments of the loop. -/
def addChunk (rrfK : Int) (entries : Table (@FusedEntry.chunkId Score)) (rank : Int)
    (chunk : JsonObject) :
    Table (@FusedEntry.chunkId Score) :=
  let existing := entries.find? (chunkIdOf chunk)
  entries.upsert {
    chunkId := chunkIdOf chunk
    payload := chunk
    score := float.add (existing.elim (float.ofInt 0) (·.score)) (float.reciprocal (rrfK + rank))
    bestRank := existing.elim rank fun entry => min entry.bestRank rank }

/-- The entries in the order of `(-score, best_rank, chunk_id)`. -/
def inFusedOrder (entries : Table (@FusedEntry.chunkId Score)) : List (FusedEntry Score) :=
  entries.rows.insertionSort (fusedLe float)

/-- The two indices with the arguments the retrievers fill in: the embedding provider is part of the
second one. -/
structure RemoteRrfHybridRetriever where
  elasticsearchIndex : String → JsonObject → Int → Option (List JsonObject) →
    Except PyError (List (RankedChunk float))
  milvusIndex : String → JsonObject → Int → Score → Option (List JsonObject) →
    Except PyError (List (RankedChunk float))
  candidateK : Int
  rrfK : Int
  vectorMinScore : Score
  positive : 1 ≤ candidateK ∧ 1 ≤ rrfK
  scoreRange : float.le (float.ofInt (-1)) vectorMinScore = true ∧
    float.le vectorMinScore (float.ofInt 1) = true

def remoteRetrievalBackend : String := "remote_rrf_elasticsearch_milvus_v1"

/-- A candidate whose payload is the one known, or else this exception. -/
def addCandidate (disagreement : PyError) (rrfK : Int) (entries : Table (@FusedEntry.chunkId Score))
    (candidate : RankedChunk float) : Except PyError (Table (@FusedEntry.chunkId Score)) := do
  ensure ((entries.find? candidate.chunkId).all fun entry => entry.payload.equals candidate.chunk)
    disagreement.kind disagreement.message
  return addChunk float rrfK entries candidate.rank candidate.chunk

/-- One candidate of one ranking, in `search`. -/
def remoteFuseCandidate (rrfK : Int) (entries : Table (@FusedEntry.chunkId Score))
    (candidate : RankedChunk float) : Except PyError (Table (@FusedEntry.chunkId Score)) :=
  addCandidate float ⟨.valueError, "remote retrieval candidate payloads disagree"⟩ rrfK entries
    candidate

variable {float} in
/-- `search`. -/
def RemoteRrfHybridRetriever.search (retriever : RemoteRrfHybridRetriever float) (question : String)
    (scope : JsonObject) (topK : Int) (expectedChunks : Option (List JsonObject)) :
    Except PyError (List (RankedChunk float)) := do
  ensure (decide (1 ≤ topK)) .valueError "top_k must be at least 1"
  let lexical ← retriever.elasticsearchIndex question scope retriever.candidateK expectedChunks
  let vector ← retriever.milvusIndex question scope retriever.candidateK retriever.vectorMinScore
    expectedChunks
  [lexical, vector].forM fun ranking =>
    ranking.head?.elim (.ok ()) fun candidate => validateRanking ranking candidate.backend
  let entries ← [lexical, vector].flatten.foldlM (remoteFuseCandidate float retriever.rrfK)
    Table.empty
  rankInOrder float remoteRetrievalBackend
    (((inFusedOrder float entries).take topK.toNat).map fun entry => (entry.score, entry.payload))

/-- Both indices return chunks of the fixture, whose identifiers are strings. -/
structure LocalRrfHybridRetriever where
  lexicalIndex : String → JsonObject → Int → Option (List JsonObject) →
    Except PyError (List JsonObject)
  vectorIndex : String → JsonObject → Int → Score → Option (List JsonObject) →
    Except PyError (List JsonObject)
  candidateK : Int
  rrfK : Int
  vectorMinScore : Score
  positive : 1 ≤ candidateK ∧ 1 ≤ rrfK
  scoreRange : float.le (float.ofInt (-1)) vectorMinScore = true ∧
    float.le vectorMinScore (float.ofInt 1) = true

variable {float} in
/-- `retrieve`. -/
def LocalRrfHybridRetriever.retrieve (retriever : LocalRrfHybridRetriever float) (question : String)
    (scope : JsonObject) (topK : Int) (expectedChunks : Option (List JsonObject)) :
    Except PyError (List JsonObject) := do
  ensure (decide (1 ≤ topK)) .valueError "top_k must be at least 1"
  let lexical ← retriever.lexicalIndex question scope retriever.candidateK expectedChunks
  let vector ← retriever.vectorIndex question scope retriever.candidateK retriever.vectorMinScore
    expectedChunks
  let entries := ((lexical.zipIdx 1) ++ (vector.zipIdx 1)).foldl
    (fun entries p => addChunk float retriever.rrfK entries p.2 p.1) Table.empty
  return ((inFusedOrder float entries).take topK.toNat).map (·.payload)

end

/-! ### What the loop accumulates -/

open RankFusion (reciprocalSum best)

/-- The candidates of an identifier. -/
def ofChunk (chunkId : String) (candidates : List (RankedChunk rationalScores)) :
    List (RankedChunk rationalScores) :=
  candidates.filter fun candidate => decide (candidate.chunkId = chunkId)

/-- The entry of an identifier with these candidates: the payload of the last one, the sum and the
least rank. -/
def summary (rrfK : Int) (chunkId : String) (own : List (RankedChunk rationalScores)) :
    Option (FusedEntry Rat) :=
  own.getLast?.map fun last =>
    { chunkId, payload := last.chunk, score := reciprocalSum rrfK (own.map (·.rank)),
      bestRank := best (own.map (·.rank)) }

/-- Earlier candidates of an identifier agree with later ones. -/
def Consistent (candidates : List (RankedChunk rationalScores)) : Prop :=
  candidates.Pairwise fun a b => a.chunkId = b.chunkId → a.chunk.equals b.chunk = true

variable {rrfK : Int} {candidates : List (RankedChunk rationalScores)}

theorem summary_append (chunkId : String) (own : List (RankedChunk rationalScores))
    (candidate : RankedChunk rationalScores) : summary rrfK chunkId (own ++ [candidate]) = some {
      chunkId
      payload := candidate.chunk
      score := ((summary rrfK chunkId own).elim 0 (·.score)) +
        1 / ((rrfK + candidate.rank : Int) : Rat)
      bestRank := (summary rrfK chunkId own).elim candidate.rank fun entry =>
        min entry.bestRank candidate.rank } := by
  unfold summary
  rw [List.getLast?_append, List.map_append, List.map_singleton, RankFusion.reciprocalSum_append]
  by_cases hempty : own = []
  · subst hempty
    simp [reciprocalSum, best]
  · have hlast := List.getLast?_eq_some_getLast hempty
    rw [hlast, RankFusion.best_append (by simpa using hempty)]
    rfl

theorem find?_addChunk {entries : Table (@FusedEntry.chunkId Rat)}
    (h : ∀ x, entries.find? x = summary rrfK x (ofChunk x candidates))
    (candidate : RankedChunk rationalScores) (x : String) :
    (addChunk rationalScores rrfK entries candidate.rank candidate.chunk).find? x =
      summary rrfK x (ofChunk x (candidates ++ [candidate])) := by
  unfold addChunk ofChunk
  rw [List.filter_append]
  by_cases hx : candidate.chunkId = x
  · subst hx
    have hsingle : [candidate].filter (fun c => decide (c.chunkId = candidate.chunkId)) =
        [candidate] := by simp
    rw [hsingle, summary_append]
    refine (Table.find?_upsert_self _ _).trans ?_
    rw [show entries.find? (chunkIdOf candidate.chunk) = _ from h candidate.chunkId]
    simp only [rationalScores, Int.cast_zero]
    rfl
  · have hnone : [candidate].filter (fun c => decide (c.chunkId = x)) = [] := by simp [hx]
    rw [hnone, List.append_nil]
    exact (Table.find?_upsert_ne entries hx).trans (h x)

/-- The accumulated entries, if the payloads agree. -/
theorem addChunks_spec (rrfK : Int) (candidates : List (RankedChunk rationalScores)) (x : String) :
    (candidates.foldl (fun entries candidate => addChunk rationalScores rrfK entries candidate.rank
      candidate.chunk) Table.empty).find? x = summary rrfK x (ofChunk x candidates) := by
  induction candidates using List.reverseRecOn generalizing x with
  | nil => rfl
  | append_singleton candidates candidate ih =>
    rw [List.foldl_append]
    exact find?_addChunk ih candidate x

theorem payload_of_summary {x : String} {entry : FusedEntry Rat}
    (h : summary rrfK x (ofChunk x candidates) = some entry) :
    ∃ last ∈ candidates, last.chunkId = x ∧ last.chunk = entry.payload ∧
      ∀ candidate ∈ candidates, candidate.chunkId = x → Consistent candidates →
        candidate = last ∨ candidate.chunk.equals last.chunk = true := by
  unfold summary at h
  obtain ⟨last, hlast, rfl⟩ := Option.map_eq_some_iff.mp h
  obtain ⟨front, hfront⟩ := List.getLast?_eq_some_iff.mp hlast
  have hmem : last ∈ ofChunk x candidates := List.mem_of_getLast? hlast
  obtain ⟨hlastMem, hid⟩ := List.mem_filter.mp hmem
  refine ⟨last, hlastMem, of_decide_eq_true hid, rfl, fun candidate hcandidate hx hconsistent => ?_⟩
  have hown : candidate ∈ ofChunk x candidates :=
    List.mem_filter.mpr ⟨hcandidate, decide_eq_true hx⟩
  rw [hfront] at hown
  rcases List.mem_append.mp hown with hown | hown
  · have hpairwise :=
      List.Pairwise.sublist (List.filter_sublist (p := fun c => decide (c.chunkId = x))) hconsistent
    rw [show candidates.filter (fun c => decide (c.chunkId = x)) = front ++ [last] from hfront,
      List.pairwise_append] at hpairwise
    exact .inr (hpairwise.2.2 candidate hown last (by simp) (hx.trans (of_decide_eq_true hid).symm))
  · exact .inl (List.mem_singleton.mp hown)

theorem fuseCandidate_eq {Score : Type} (float : FloatArithmetic Score) : fuseCandidate float =
    addCandidate float ⟨.onlineVisibilityUnavailableError,
      "online backends disagree on candidate payload"⟩ := rfl

/-- The accumulated entries of candidates, whatever their payloads. -/
def accumulated (rrfK : Int) (candidates : List (RankedChunk rationalScores)) :
    Table (@FusedEntry.chunkId Rat) :=
  candidates.foldl (fun entries candidate => addChunk rationalScores rrfK entries candidate.rank
    candidate.chunk) Table.empty

/-- The loop goes through exactly if the payloads are consistent. -/
theorem foldlM_addCandidate (disagreement : PyError) {entries : Table (@FusedEntry.chunkId Rat)} :
    candidates.foldlM (addCandidate rationalScores disagreement rrfK) Table.empty = .ok entries ↔
      Consistent candidates ∧ entries = accumulated rrfK candidates := by
  induction candidates using List.reverseRecOn generalizing entries with
  | nil =>
    rw [List.foldlM_nil, pure_eq_ok]
    exact ⟨fun h => ⟨List.Pairwise.nil, h.symm⟩, fun h => h.2.symm⟩
  | append_singleton candidates candidate ih =>
    have hstep : accumulated rrfK (candidates ++ [candidate]) =
        addChunk rationalScores rrfK (accumulated rrfK candidates) candidate.rank
          candidate.chunk := by
      unfold accumulated
      rw [List.foldl_append]
      rfl
    have hconsistent : Consistent (candidates ++ [candidate]) ↔ Consistent candidates ∧
        ∀ a ∈ candidates, a.chunkId = candidate.chunkId →
        a.chunk.equals candidate.chunk = true := by
      unfold Consistent
      rw [List.pairwise_append]
      simp
    rw [List.foldlM_append, bind_eq_ok, hconsistent, hstep]
    constructor
    · rintro ⟨before, hbefore, hlast⟩
      obtain ⟨hcandidates, rfl⟩ := ih.mp hbefore
      rw [List.foldlM_cons] at hlast
      obtain ⟨after, hafter, hnil⟩ := bind_eq_ok.mp hlast
      obtain ⟨hknown, hadded⟩ := ensure_bind.mp hafter
      cases pure_eq_ok.mp hnil
      cases pure_eq_ok.mp hadded
      refine ⟨⟨hcandidates, fun a ha hid => ?_⟩, rfl⟩
      have hfind := addChunks_spec rrfK candidates candidate.chunkId
      cases hentry : summary rrfK candidate.chunkId (ofChunk candidate.chunkId candidates) with
      | none =>
        unfold summary at hentry
        rw [Option.map_eq_none_iff, List.getLast?_eq_none_iff] at hentry
        have hmem : a ∈ ofChunk candidate.chunkId candidates :=
          List.mem_filter.mpr ⟨ha, decide_eq_true hid⟩
        rw [hentry] at hmem
        cases hmem
      | some entry =>
        obtain ⟨last, hlast, -, hpayload, hlater⟩ := payload_of_summary hentry
        rw [show (accumulated rrfK candidates).find? candidate.chunkId = some entry
          from hfind.trans hentry] at hknown
        rw [Option.all_some, ← hpayload] at hknown
        rcases hlater a ha hid hcandidates with rfl | hequals
        · exact hknown
        · exact JsonObject.equals_trans hequals hknown
    · rintro ⟨⟨hcandidates, hagree⟩, rfl⟩
      refine ⟨accumulated rrfK candidates, ih.mpr ⟨hcandidates, rfl⟩, ?_⟩
      have hknown : (((accumulated rrfK candidates).find? candidate.chunkId).all fun entry =>
          entry.payload.equals candidate.chunk) = true := by
        rw [Option.all_eq_true]
        intro entry hentry
        obtain ⟨last, hlast, hid, hpayload, -⟩ :=
          payload_of_summary ((addChunks_spec rrfK candidates candidate.chunkId).symm.trans hentry)
        rw [← hpayload]
        exact hagree last hlast hid
      rw [List.foldlM_cons]
      unfold addCandidate
      rw [ensure_true_bind hknown]
      rfl

/-! ### The fused order -/

/-- The identifiers of each ranking. -/
def chunkIds (rankings : List (List (RankedChunk rationalScores))) : List (List String) :=
  rankings.map fun ranking => ranking.map (·.chunkId)

variable {rankings : List (List (RankedChunk rationalScores))}

theorem rank_ofChunk {x : String} {ranking : List (RankedChunk rationalScores)} (n : Nat)
    (hranks : ranking.map (·.rank) = (List.range' n ranking.length).map fun i : Nat => (i : Int))
    (hdistinct : (ranking.map (·.chunkId)).Nodup) : (ofChunk x ranking).map (·.rank) =
      if x ∈ ranking.map (·.chunkId) then [((ranking.map (·.chunkId)).idxOf x + n : Int)]
        else [] := by
  induction ranking generalizing n with
  | nil => rfl
  | cons candidate ranking ih =>
    rw [List.map_cons, List.length_cons, List.range'_succ, List.map_cons, List.cons.injEq] at hranks
    rw [List.map_cons, List.nodup_cons] at hdistinct
    have hrest := ih (n + 1) hranks.2 hdistinct.2
    unfold ofChunk at *
    by_cases hx : candidate.chunkId = x
    · subst hx
      rw [if_neg hdistinct.1] at hrest
      rw [List.filter_cons_of_pos (by simp), List.map_cons, hrest, hranks.1]
      simp
    · rw [List.filter_cons_of_neg (by simpa using hx), hrest, List.map_cons,
        List.idxOf_cons_ne _ hx]
      simp only [List.mem_cons, Ne.symm hx, false_or]
      split
      · rw [List.cons.injEq]
        exact ⟨by push_cast; omega, rfl⟩
      · rfl

theorem ranks_ofChunk (hvalid : ∀ ranking ∈ rankings, ValidRanking ranking) (x : String) :
    (ofChunk x rankings.flatten).map (·.rank) = RankFusion.ranks (chunkIds rankings) x := by
  induction rankings with
  | nil => rfl
  | cons ranking rankings ih =>
    obtain ⟨hranking, hrest⟩ := List.forall_mem_cons.mp hvalid
    have hcons : ofChunk x (ranking :: rankings).flatten = ofChunk x ranking ++
        ofChunk x rankings.flatten := by
      unfold ofChunk
      rw [List.flatten_cons, List.filter_append]
    rw [hcons, List.map_append, ih hrest, rank_ofChunk 1 hranking.ranks hranking.distinct]
    unfold chunkIds RankFusion.ranks RankFusion.rank?
    rw [List.map_cons]
    split <;> rename_i hmem <;> simp [hmem]

theorem accumulated_entry {entry : FusedEntry Rat}
    (h : entry ∈ (accumulated rrfK candidates).rows) :
    entry.score = reciprocalSum rrfK ((ofChunk entry.chunkId candidates).map (·.rank)) ∧
      entry.bestRank = best ((ofChunk entry.chunkId candidates).map (·.rank)) ∧
      ∃ last ∈ candidates, last.chunkId = entry.chunkId ∧ last.chunk = entry.payload := by
  have hfind := (addChunks_spec rrfK candidates entry.chunkId).symm.trans (Table.find?_key_of_mem h)
  obtain ⟨last, hlast, hid, hpayload, -⟩ := payload_of_summary hfind
  unfold summary at hfind
  obtain ⟨other, -, hentry⟩ := Option.map_eq_some_iff.mp hfind
  exact ⟨by rw [← hentry], by rw [← hentry], last, hlast, hid, hpayload⟩

theorem mem_accumulated {x : String} :
    x ∈ (accumulated rrfK candidates).rows.map FusedEntry.chunkId ↔ ∃ candidate ∈ candidates,
      candidate.chunkId = x := by
  rw [Table.mem_keys_iff, show (accumulated rrfK candidates).find? x =
    _ from addChunks_spec rrfK candidates x]
  unfold summary ofChunk
  rw [Option.isSome_map, List.getLast?_isSome, ne_eq, List.filter_eq_nil_iff]
  simp

/-- The accumulated entries come in the order of the fusion of the identifiers. -/
theorem chunkId_inFusedOrder (hvalid : ∀ ranking ∈ rankings, ValidRanking ranking) :
    (inFusedOrder rationalScores (accumulated rrfK rankings.flatten)).map (·.chunkId) =
      RankFusion.fused rrfK (chunkIds rankings) := by
  have horder : ∀ a ∈ (accumulated rrfK rankings.flatten).rows,
      ∀ b ∈ (accumulated rrfK rankings.flatten).rows, fusedLe rationalScores a b ↔
      RankFusion.before rrfK (chunkIds rankings) a.chunkId b.chunkId := by
    intro a ha b hb
    obtain ⟨hscore, hbest, -⟩ := accumulated_entry ha
    obtain ⟨hscore', hbest', -⟩ := accumulated_entry hb
    unfold fusedLe RankFusion.before
    rw [← ranks_ofChunk hvalid a.chunkId, ← ranks_ofChunk hvalid b.chunkId, ← hscore, ← hbest,
      ← hscore', ← hbest']
    simp only [rationalScores, decide_eq_true_eq, decide_eq_false_iff_not]
    by_cases hlt : b.score < a.score
    · simp [hlt]
    · simp only [hlt, false_or, le_antisymm_iff, not_lt]
      exact ⟨fun h => ⟨⟨not_lt.mp hlt, h.1⟩, h.2⟩, fun h => ⟨h.1.2, h.2⟩⟩
  unfold inFusedOrder
  rw [List.map_insertionSort (fusedLe rationalScores) (RankFusion.before rrfK (chunkIds rankings)) _
    _ horder]
  refine RankFusion.eq_fused ?_ (fun x => ?_) (List.pairwise_insertionSort _ _)
  · exact (List.perm_insertionSort _ _).nodup_iff.mpr (accumulated rrfK rankings.flatten).nodup
  · rw [List.mem_insertionSort, mem_accumulated]
    unfold chunkIds
    simp only [List.mem_flatten, List.mem_map]
    constructor
    · rintro ⟨candidate, ⟨ranking, hranking, hcandidate⟩, rfl⟩
      exact ⟨_, ⟨ranking, hranking, rfl⟩, List.mem_map_of_mem hcandidate⟩
    · rintro ⟨-, ⟨ranking, hranking, rfl⟩, hx⟩
      obtain ⟨candidate, hcandidate, rfl⟩ := List.mem_map.mp hx
      exact ⟨candidate, ⟨ranking, hranking, hcandidate⟩, rfl⟩

/-! ### The fused ranking -/

theorem mem_inFusedOrder {entry : FusedEntry Rat} {entries : Table (@FusedEntry.chunkId Rat)} :
    entry ∈ inFusedOrder rationalScores entries ↔ entry ∈ entries.rows := List.mem_insertionSort _

/-- A score and a payload of each entry, in order. -/
def orderedScores (rrfK : Int) (candidates : List (RankedChunk rationalScores)) :
    List (Rat × JsonObject) :=
  (inFusedOrder rationalScores (accumulated rrfK candidates)).map fun entry =>
    (entry.score, entry.payload)

theorem chunkIdOf_orderedScores (rrfK : Int) (candidates : List (RankedChunk rationalScores)) :
    (orderedScores rrfK candidates).map (fun p => chunkIdOf p.2) =
      (inFusedOrder rationalScores (accumulated rrfK candidates)).map (·.chunkId) := by
  unfold orderedScores
  rw [List.map_map]
  refine List.map_congr_left fun entry hentry => ?_
  obtain ⟨-, -, last, -, hid, hpayload⟩ := accumulated_entry (mem_inFusedOrder.mp hentry)
  rw [← hid]
  exact congrArg chunkIdOf hpayload.symm

/-- What is accumulated can be ranked. -/
theorem exists_ranked {backend : String} (hbackend : backendPattern backend = true) (rrfK : Int)
    (candidates : List (RankedChunk rationalScores)) :
    ∃ ranking, rankInOrder rationalScores backend (orderedScores rrfK candidates) =
      .ok ranking := by
  refine exists_rankInOrder hbackend (fun p hp => ?_) ?_
  · obtain ⟨entry, hentry, rfl⟩ := List.mem_map.mp hp
    obtain ⟨-, -, last, -, -, hpayload⟩ := accumulated_entry (mem_inFusedOrder.mp hentry)
    have hlast := last.rankable
    rw [hpayload] at hlast
    exact ⟨rfl, hlast.chunkId, hlast.documentId⟩
  · rw [chunkIdOf_orderedScores]
    exact ((List.perm_insertionSort _ _).map _).nodup_iff.mpr (accumulated rrfK candidates).nodup

/-- `_fuse` of consistent payloads. -/
theorem fuse_eq (rrfK : Int) (hconsistent : Consistent rankings.flatten) :
    fuse rationalScores rrfK rankings none =
      rankInOrder rationalScores onlineRetrievalBackend (orderedScores rrfK rankings.flatten) ∧
    ∀ k : Int, fuse rationalScores rrfK rankings (some k) =
      rankInOrder rationalScores onlineRetrievalBackend
        ((orderedScores rrfK rankings.flatten).take k.toNat) := by
  have hentries :=
    (foldlM_addCandidate ⟨.onlineVisibilityUnavailableError,
      "online backends disagree on candidate payload"⟩).mpr
    ⟨hconsistent, (rfl : accumulated rrfK rankings.flatten = _)⟩
  unfold fuse
  rw [fuseCandidate_eq, hentries]
  refine ⟨rfl, fun k => ?_⟩
  unfold orderedScores
  rw [← List.map_take]
  rfl

/-- What `_fuse` returns. -/
theorem fuse_spec (rrfK : Int) (hvalid : ∀ ranking ∈ rankings, ValidRanking ranking)
    (hconsistent : Consistent rankings.flatten) :
    ∃ fused, fuse rationalScores rrfK rankings none = .ok fused ∧
      fused.map (·.chunkId) = RankFusion.fused rrfK (chunkIds rankings) ∧
      ∀ k : Int, fuse rationalScores rrfK rankings (some k) = .ok (fused.take k.toNat) := by
  obtain ⟨fused, hfused⟩ := exists_ranked
    (by decide +kernel : backendPattern onlineRetrievalBackend = true) rrfK rankings.flatten
  obtain ⟨hall, hfront⟩ := fuse_eq rrfK hconsistent
  refine ⟨fused, hall.trans hfused, ?_, fun k => (hfront k).trans (rankInOrder_take hfused _)⟩
  rw [← chunkId_inFusedOrder hvalid, ← chunkIdOf_orderedScores, ← rankInOrder_scored hfused,
    List.map_map]
  rfl

/-! ### The laws -/

/-- If two candidates are of one chunk, their payloads are equal. -/
def Agree (a b : RankedChunk rationalScores) : Prop :=
  a.chunkId = b.chunkId → a.chunk.equals b.chunk = true ∧ b.chunk.equals a.chunk = true

instance : Std.Symm Agree where
  symm _ _ hab hid := (hab hid.symm).symm

instance : DecidableRel Agree := fun a b => by unfold Agree; infer_instance

/-- The payloads of every chunk agree. -/
def PayloadsAgree (rankings : List (List (RankedChunk rationalScores))) : Prop :=
  rankings.flatten.Pairwise Agree

/-- The same candidate, up to `==` of its payload. -/
structure SameCandidate (a b : RankedChunk rationalScores) : Prop where
  backend : a.backend = b.backend
  rank : a.rank = b.rank
  score : a.score = b.score
  chunkId : a.chunkId = b.chunkId
  payload : a.chunk = b.chunk ∨ a.chunk.equals b.chunk = true

/-- One chunk is in every ranking the other one is in, at no larger rank, and once at a smaller rank
or without the other. -/
structure Dominates (rankings : List (List (RankedChunk rationalScores))) (x y : String) :
    Prop where
  noLater : ∀ ranking ∈ rankings, ∀ b ∈ ranking, b.chunkId = y → ∃ a ∈ ranking, a.chunkId = x ∧
    a.rank ≤ b.rank
  somewhere : ∃ ranking ∈ rankings, ∃ a ∈ ranking, a.chunkId = x ∧
    ((∃ b ∈ ranking, b.chunkId = y ∧ a.rank < b.rank) ∨ ∀ b ∈ ranking, b.chunkId ≠ y)

/-- What holds of a fused list. -/
structure FusionLaws (rrfK : Int) (rankings : List (List (RankedChunk rationalScores)))
    (fused : List (RankedChunk rationalScores)) : Prop where
  returned : fuse rationalScores rrfK rankings none = .ok fused
  once : (fused.map (·.chunkId)).Nodup
  occurs : ∀ x, x ∈ fused.map (·.chunkId) ↔ ∃ ranking ∈ rankings, ∃ candidate ∈ ranking,
    candidate.chunkId = x
  permuted : ∀ rankings', rankings.Perm rankings' → ∃ fused',
    fuse rationalScores rrfK rankings' none = .ok fused' ∧ List.Forall₂ SameCandidate fused fused'
  front : ∀ k : Nat, fuse rationalScores rrfK rankings (some k) = .ok (fused.take k)
  dominance : ∀ x y, Dominates rankings x y → (∃ ranking ∈ rankings, ∃ b ∈ ranking, b.chunkId = y) →
    [x, y].Sublist (fused.map (·.chunkId))

/-- The two retrievers are given these rankings, and this constant. -/
structure Receives (remote : RemoteRrfHybridRetriever rationalScores)
    (local' : LocalRrfHybridRetriever rationalScores) (rrfK : Int) (question : String)
    (scope : JsonObject) (expectedChunks : Option (List JsonObject))
    (lexical vector : List (RankedChunk rationalScores)) : Prop where
  rrfK : remote.rrfK = rrfK ∧ local'.rrfK = rrfK
  elasticsearch : remote.elasticsearchIndex question scope remote.candidateK expectedChunks =
    .ok lexical
  milvus : remote.milvusIndex question scope remote.candidateK remote.vectorMinScore
    expectedChunks = .ok vector
  lexicalIndex : local'.lexicalIndex question scope local'.candidateK expectedChunks =
    .ok (lexical.map (·.chunk))
  vectorIndex : local'.vectorIndex question scope local'.candidateK local'.vectorMinScore
    expectedChunks = .ok (vector.map (·.chunk))
  valid : ∀ ranking ∈ [lexical, vector], ∃ backend, validateRanking ranking backend = .ok ()

theorem PayloadsAgree.consistent (h : PayloadsAgree rankings) : Consistent rankings.flatten :=
  h.imp fun hab hid => (hab hid).1

theorem PayloadsAgree.same (h : PayloadsAgree rankings) {a b : RankedChunk rationalScores}
    (ha : a ∈ rankings.flatten) (hb : b ∈ rankings.flatten) (hid : a.chunkId = b.chunkId) :
    a.chunk = b.chunk ∨ a.chunk.equals b.chunk = true := by
  by_cases heq : a = b
  · exact .inl (congrArg _ heq)
  · exact .inr (h.forall ha hb heq hid).1

theorem PayloadsAgree.perm {rankings' : List (List (RankedChunk rationalScores))}
    (h : PayloadsAgree rankings) (hperm : rankings.Perm rankings') : PayloadsAgree rankings' :=
  (hperm.flatten.pairwise_iff fun {_ _} hab => symm hab).mp h

/-- A permutation of the rankings fuses to the same. -/
theorem fuse_permuted (hvalid : ∀ ranking ∈ rankings, ValidRanking ranking)
    (hagree : PayloadsAgree rankings) {rankings' : List (List (RankedChunk rationalScores))}
    (hperm : rankings.Perm rankings') {fused : List (RankedChunk rationalScores)}
    (hfused : fuse rationalScores rrfK rankings none = .ok fused) :
    ∃ fused', fuse rationalScores rrfK rankings' none = .ok fused' ∧
    List.Forall₂ SameCandidate fused fused' := by
  have hvalid' : ∀ ranking ∈ rankings', ValidRanking ranking := fun ranking h =>
    hvalid ranking (hperm.mem_iff.mpr h)
  have hagree' := hagree.perm hperm
  obtain ⟨fused', hfused', -, -⟩ := fuse_spec rrfK hvalid' hagree'.consistent
  refine ⟨fused', hfused', ?_⟩
  rw [(fuse_eq _ hagree.consistent).1] at hfused
  have hranked' := hfused'
  rw [(fuse_eq _ hagree'.consistent).1] at hranked'
  have hids : List.Forall₂ Eq ((inFusedOrder rationalScores (accumulated rrfK rankings.flatten)).map
      (·.chunkId)) ((inFusedOrder rationalScores (accumulated rrfK rankings'.flatten)).map
        (·.chunkId)) := by
    rw [chunkId_inFusedOrder hvalid, chunkId_inFusedOrder hvalid', List.forall₂_eq_eq_eq]
    exact RankFusion.fused_perm (hperm.map _)
  rw [List.forall₂_map_left_iff, List.forall₂_map_right_iff] at hids
  have hscored : List.Forall₂ (fun p q => p.1 = q.1 ∧ chunkIdOf p.2 = chunkIdOf q.2 ∧
      (p.2 = q.2 ∨ p.2.equals q.2 = true)) (orderedScores rrfK rankings.flatten)
        (orderedScores rrfK rankings'.flatten) := by
    unfold orderedScores
    rw [List.forall₂_map_left_iff, List.forall₂_map_right_iff]
    obtain ⟨hlength, hzip⟩ := List.forall₂_iff_zip.mp hids
    refine List.forall₂_iff_zip.mpr ⟨hlength, fun {a b} hab => ?_⟩
    have hid := hzip hab
    obtain ⟨ha, hb⟩ := List.of_mem_zip hab
    obtain ⟨hscore, -, last, hlast, hlastId, hpayload⟩ := accumulated_entry (mem_inFusedOrder.mp ha)
    obtain ⟨hscore', -, last', hlast', hlastId', hpayload'⟩ :=
      accumulated_entry (mem_inFusedOrder.mp hb)
    have hsame : last.chunkId = last'.chunkId := hlastId.trans (hid.trans hlastId'.symm)
    refine ⟨?_, ?_, ?_⟩
    · change a.score = b.score
      rw [hscore, hscore', hid]
      exact RankFusion.reciprocalSum_perm rrfK ((hperm.flatten.filter _).map _)
    · rw [← hpayload, ← hpayload']
      exact hsame
    · rw [← hpayload, ← hpayload']
      exact hagree.same hlast (hperm.flatten.mem_iff.mpr hlast') hsame
  exact (rankInOrder_forall₂ hfused hranked' hscored).imp fun a b hab =>
    ⟨hab.1, hab.2.1, hab.2.2.1, hab.2.2.2.1, hab.2.2.2.2⟩

/-! ### Dominance -/

theorem rank?_chunkIds {ranking : List (RankedChunk rationalScores)} (h : ValidRanking ranking)
    {x : String} {r : Int} : RankFusion.rank? (ranking.map (·.chunkId)) x = some r ↔
    ∃ candidate ∈ ranking, candidate.chunkId = x ∧ candidate.rank = r := by
  have hrank := rank_ofChunk (x := x) 1 h.ranks h.distinct
  have hmem : r ∈ (ofChunk x ranking).map (·.rank) ↔
      RankFusion.rank? (ranking.map (·.chunkId)) x = some r := by
    rw [hrank]
    unfold RankFusion.rank?
    split <;> simp [eq_comm]
  rw [← hmem]
  unfold ofChunk
  simp only [List.mem_map, List.mem_filter, decide_eq_true_eq, and_assoc]

theorem Dominates.chunkIds (hvalid : ∀ ranking ∈ rankings, ValidRanking ranking) {x y : String}
    (h : Dominates rankings x y) : RankFusion.Dominates (chunkIds rankings) x y := by
  constructor
  · intro ids hids r hr
    obtain ⟨ranking, hranking, rfl⟩ := List.mem_map.mp hids
    obtain ⟨b, hb, hy, rfl⟩ := (rank?_chunkIds (hvalid ranking hranking)).mp hr
    obtain ⟨a, ha, hx, hle⟩ := h.noLater ranking hranking b hb hy
    exact ⟨a.rank, (rank?_chunkIds (hvalid ranking hranking)).mpr ⟨a, ha, hx, rfl⟩, hle⟩
  · obtain ⟨ranking, hranking, a, ha, hx, hcase⟩ := h.somewhere
    refine ⟨_, List.mem_map_of_mem hranking, a.rank, (rank?_chunkIds (hvalid ranking hranking)).mpr
      ⟨a, ha, hx, rfl⟩, fun r hr => ?_⟩
    obtain ⟨b, hb, hy, rfl⟩ := (rank?_chunkIds (hvalid ranking hranking)).mp hr
    rcases hcase with ⟨b', hb', hy', hlt⟩ | hnone
    · have heq : b' = b :=
        List.inj_on_of_nodup_map (hvalid ranking hranking).distinct hb' hb (hy'.trans hy.symm)
      rwa [← heq]
    · exact absurd hy (hnone b hb)

/-! ### The three retrievers -/

/-- `enumerate` counts what the ranks are. -/
theorem enumerated_eq {ranking : List (RankedChunk rationalScores)} (n : Nat)
    (hranks : ranking.map (·.rank) = (List.range' n ranking.length).map fun i : Nat => (i : Int)) :
    ((ranking.map (·.chunk)).zipIdx n).map (fun p => (p.1, (p.2 : Int))) =
      ranking.map fun candidate => (candidate.chunk, candidate.rank) := by
  induction ranking generalizing n with
  | nil => rfl
  | cons candidate ranking ih =>
    rw [List.map_cons, List.length_cons, List.range'_succ, List.map_cons, List.cons.injEq] at hranks
    rw [List.map_cons, List.zipIdx_cons, List.map_cons, List.map_cons, ih (n + 1) hranks.2,
      hranks.1]

/-- The loop over enumerated chunks does what the loop over candidates does. -/
theorem foldl_enumerated {lexical vector : List (RankedChunk rationalScores)}
    (hlexical : ValidRanking lexical) (hvector : ValidRanking vector) :
    (((lexical.map (·.chunk)).zipIdx 1) ++ ((vector.map (·.chunk)).zipIdx 1)).foldl
      (fun entries p => addChunk rationalScores rrfK entries p.2 p.1) Table.empty =
      accumulated rrfK [lexical, vector].flatten := by
  have hzip : (((lexical.map (·.chunk)).zipIdx 1) ++ ((vector.map (·.chunk)).zipIdx 1)).map
      (fun p => (p.1, (p.2 : Int))) = [lexical, vector].flatten.map fun candidate =>
        (candidate.chunk, candidate.rank) := by
    rw [List.map_append, enumerated_eq 1 hlexical.ranks, enumerated_eq 1 hvector.ranks,
      ← List.map_append]
    simp
  have hfold := congrArg
    (List.foldl (fun entries (q : JsonObject × Int) => addChunk rationalScores rrfK entries q.2 q.1)
      Table.empty) hzip
  rw [List.foldl_map, List.foldl_map] at hfold
  exact hfold

variable {remote : RemoteRrfHybridRetriever rationalScores}
  {local' : LocalRrfHybridRetriever rationalScores} {question : String} {scope : JsonObject}
  {expectedChunks : Option (List JsonObject)} {lexical vector : List (RankedChunk rationalScores)}
  {topK : Int}

/-- `search` after both indices answered. -/
theorem remote_search_eq
    (h : Receives remote local' rrfK question scope expectedChunks lexical vector)
    (htop : 1 ≤ topK) : remote.search question scope topK expectedChunks =
      [lexical, vector].flatten.foldlM (remoteFuseCandidate rationalScores rrfK) Table.empty >>=
        fun entries =>
        rankInOrder rationalScores remoteRetrievalBackend
          (((inFusedOrder rationalScores entries).take topK.toNat).map
            fun entry => (entry.score, entry.payload)) := by
  have hchecked : ([lexical, vector].forM fun ranking =>
      ranking.head?.elim (.ok ()) fun candidate => validateRanking ranking candidate.backend) =
        .ok () := by
    rw [forM_eq_ok]
    intro ranking hranking
    obtain ⟨backend, hbackend⟩ := h.valid ranking hranking
    cases hhead : ranking.head? with
    | none => rfl
    | some candidate =>
      rw [Option.elim_some, (validateRanking_ok_iff.mp hbackend).2 candidate
        (List.mem_of_head? hhead)]
      exact hbackend
  unfold RemoteRrfHybridRetriever.search
  rw [ensure_true_bind (decide_eq_true htop), h.elasticsearch, h.milvus, h.rrfK.1]
  dsimp only [bind, Except.bind]
  rw [hchecked]

/-- The three retrievers return one sequence of chunks. -/
theorem copies_agree (h : Receives remote local' rrfK question scope expectedChunks lexical vector)
    (hconsistent : Consistent [lexical, vector].flatten) (htop : 1 ≤ topK) :
    ∃ fused result, fuse rationalScores rrfK [lexical, vector] (some topK) = .ok fused ∧
      remote.search question scope topK expectedChunks = .ok result ∧
      result.map (·.chunk) = fused.map (·.chunk) ∧
      local'.retrieve question scope topK expectedChunks = .ok (fused.map (·.chunk)) := by
  have hvalid : ∀ ranking ∈ [lexical, vector], ValidRanking ranking := by
    intro ranking hranking
    obtain ⟨backend, hbackend⟩ := h.valid ranking hranking
    exact validateRanking_ok hbackend
  have htaken : ∀ {backend : String}, backendPattern backend = true → ∃ ranking,
      rankInOrder rationalScores backend ((orderedScores rrfK [lexical, vector].flatten).take
        topK.toNat) = .ok ranking ∧
      ranking.map (·.chunk) = ((orderedScores rrfK [lexical, vector].flatten).take topK.toNat).map
        Prod.snd := by
    intro backend hbackend
    obtain ⟨ranking, hranking⟩ := exists_ranked hbackend rrfK [lexical, vector].flatten
    have hfront := rankInOrder_take hranking topK.toNat
    exact ⟨_, hfront, (rankInOrder_ok hfront).2⟩
  obtain ⟨fused, hfused, hchunks⟩ :=
    htaken (by decide +kernel : backendPattern onlineRetrievalBackend = true)
  obtain ⟨result, hresult, hchunks'⟩ :=
    htaken (by decide +kernel : backendPattern remoteRetrievalBackend = true)
  refine ⟨fused, result, ((fuse_eq _ hconsistent).2 topK).trans hfused, ?_,
    hchunks'.trans hchunks.symm, ?_⟩
  · have hentries :=
      (foldlM_addCandidate ⟨.valueError, "remote retrieval candidate payloads disagree"⟩).mpr
      ⟨hconsistent, (rfl : accumulated rrfK [lexical, vector].flatten = _)⟩
    rw [remote_search_eq h htop, show remoteFuseCandidate rationalScores rrfK =
      addCandidate rationalScores _ rrfK from rfl, hentries, ← hresult]
    unfold orderedScores
    rw [← List.map_take]
    rfl
  · unfold LocalRrfHybridRetriever.retrieve
    rw [ensure_true_bind (decide_eq_true htop), h.lexicalIndex, h.vectorIndex, h.rrfK.2]
    change (Except.ok _ : Except PyError (List JsonObject)) = _
    rw [foldl_enumerated (hvalid lexical (by simp)) (hvalid vector (by simp)), hchunks]
    unfold orderedScores
    rw [← List.map_take, List.map_map]
    rfl

/-- Payloads that disagree raise. -/
theorem foldlM_addCandidate_error (disagreement : PyError) (h : ¬Consistent candidates) :
    candidates.foldlM (addCandidate rationalScores disagreement rrfK) Table.empty =
      .error disagreement := by
  have honly : ∀ (xs : List (RankedChunk rationalScores))
      (entries : Table (@FusedEntry.chunkId Rat)) (e : PyError),
      xs.foldlM (addCandidate rationalScores disagreement rrfK) entries = .error e →
      e = disagreement := by
    intro xs
    induction xs with
    | nil =>
      intro entries e he
      cases he
    | cons x xs ih =>
      intro entries e he
      rw [List.foldlM_cons] at he
      rcases bind_eq_error.mp he with hx | ⟨entries', -, hrest⟩
      · unfold addCandidate at hx
        rcases bind_eq_error.mp hx with hensure | ⟨-, -, hpure⟩
        · exact (ensure_eq_error.mp hensure).2
        · cases hpure
      · exact ih entries' e hrest
  cases hfold : candidates.foldlM (addCandidate rationalScores disagreement rrfK) Table.empty with
  | ok entries => exact absurd ((foldlM_addCandidate disagreement).mp hfold).1 h
  | error e => rw [honly _ _ _ hfold]

/-- The laws of rank fusion with exact scores: what `_fuse` returns for rankings whose payloads
agree, that the three retrievers return one sequence of chunks, and that payloads which disagree
raise. -/
theorem fusion_laws (hk : 1 ≤ rrfK) (hvalid : ∀ ranking ∈ rankings, ValidRanking ranking) :
    (PayloadsAgree rankings → ∃ fused, FusionLaws rrfK rankings fused) ∧
    (PayloadsAgree rankings → ∀ lexical vector, rankings = [lexical, vector] →
      ∀ remote local' question scope expectedChunks topK, 1 ≤ topK →
        Receives remote local' rrfK question scope expectedChunks lexical vector →
        ∃ fused result, fuse rationalScores rrfK rankings (some topK) = .ok fused ∧
          remote.search question scope topK expectedChunks = .ok result ∧
          result.map (·.chunk) = fused.map (·.chunk) ∧
          local'.retrieve question scope topK expectedChunks = .ok (fused.map (·.chunk))) ∧
    (¬Consistent rankings.flatten →
      (∀ topK, fuse rationalScores rrfK rankings topK =
        .error ⟨.onlineVisibilityUnavailableError,
          "online backends disagree on candidate payload"⟩) ∧
      ∀ lexical vector, rankings = [lexical, vector] →
        ∀ remote local' question scope expectedChunks topK, 1 ≤ topK →
        Receives remote local' rrfK question scope expectedChunks lexical vector →
        remote.search question scope topK expectedChunks =
          .error ⟨.valueError, "remote retrieval candidate payloads disagree"⟩) := by
  refine ⟨fun hagree => ?_, fun hagree => ?_, fun hdisagree => ⟨fun topK => ?_, ?_⟩⟩
  · obtain ⟨fused, hfused, hids, hfront⟩ := fuse_spec rrfK hvalid hagree.consistent
    refine ⟨fused, hfused, ?_, fun x => ?_, fun rankings' hperm => fuse_permuted hvalid hagree hperm
      hfused, fun k => ?_, fun x y hdominates hy => ?_⟩
    · rw [hids]
      exact RankFusion.nodup_fused
    · rw [hids, RankFusion.mem_fused]
      unfold chunkIds
      simp only [List.mem_map, exists_exists_and_eq_and]
    · rw [hfront k, Int.toNat_natCast]
    · rw [hids]
      refine RankFusion.sublist_fused_of_dominates hk (hdominates.chunkIds hvalid) ?_
      obtain ⟨ranking, hranking, b, hb, hid⟩ := hy
      exact ⟨_, List.mem_map_of_mem hranking, List.mem_map.mpr ⟨b, hb, hid⟩⟩
  · rintro lexical vector rfl remote local' question scope expectedChunks topK htop hreceives
    exact copies_agree hreceives hagree.consistent htop
  · unfold fuse
    rw [fuseCandidate_eq, foldlM_addCandidate_error _ hdisagree]
    rfl
  · rintro lexical vector rfl remote local' question scope expectedChunks topK htop hreceives
    rw [remote_search_eq hreceives htop,
      show remoteFuseCandidate rationalScores rrfK = addCandidate rationalScores _ rrfK from rfl,
      foldlM_addCandidate_error _ hdisagree]
    rfl

/-- A candidate at this rank. -/
def candidateAt (chunkId : String) (rank : Int)
    (h : checkRankedChunk rationalScores "elasticsearch_bm25" rank 1
      (.ofMembers [("chunk_id", .str chunkId), ("document_id", .str "doc_1")]) =
        .ok ()) : RankedChunk rationalScores :=
  ⟨"elasticsearch_bm25", rank, 1,
    .ofMembers [("chunk_id", .str chunkId), ("document_id", .str "doc_1")], h⟩

/-- The second chunk of one ranking is the first of the other. -/
def overlappingRankings : List (List (RankedChunk rationalScores)) :=
  [[candidateAt "chunk_1" 1 (by decide +kernel), candidateAt "chunk_2" 2 (by decide +kernel)],
    [candidateAt "chunk_2" 1 (by decide +kernel)]]

theorem fusion_laws_overlapping : ∃ fused, FusionLaws 60 overlappingRankings fused := by
  refine (fusion_laws (by decide) fun ranking hranking => ?_).1
    (by unfold PayloadsAgree; decide +kernel)
  refine validateRanking_ok (?_ : validateRanking ranking "elasticsearch_bm25" = .ok ())
  have hall : ∀ ranking ∈ overlappingRankings, validateRanking ranking "elasticsearch_bm25" =
      .ok () := by decide +kernel
  exact hall ranking hranking

end ZhiyanRag.Retrieval
