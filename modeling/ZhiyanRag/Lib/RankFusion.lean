import Mathlib.Algebra.Order.BigOperators.Group.List
import Mathlib.Algebra.Order.Field.Rat
import Mathlib.Data.List.Dedup
import Mathlib.Data.List.Sort
import Mathlib.Tactic.Positivity

/-!
# Reciprocal-rank fusion

Rankings are lists without repetitions, and an element's rank counts from 1. The score of an element
is the sum of `1 / (k + r)` over its ranks `r`, and the fused order is by score, best rank and the
element itself. `fused_perm`: the order of the rankings does not matter.
`sublist_fused_of_dominates`: an element that another one dominates stands behind it.
-/

namespace RankFusion

/-! ### Ranks -/

/-- The score of an element with these ranks. -/
def reciprocalSum (k : Int) (ranks : List Int) : Rat :=
  (ranks.map fun r => 1 / ((k + r : Int) : Rat)).sum

/-- The least of these ranks. -/
def best (ranks : List Int) : Int := ranks.min?.getD 0

theorem best_eq {ranks : List Int} {r : Int} (hmem : r ∈ ranks) (hleast : ∀ s ∈ ranks, r ≤ s) :
    best ranks = r := by
  unfold best
  rw [List.min?_eq_some_iff.mpr ⟨hmem, hleast⟩]
  rfl

theorem best_spec {ranks : List Int} (h : ranks ≠ []) :
    best ranks ∈ ranks ∧ ∀ s ∈ ranks, best ranks ≤ s := by
  obtain ⟨r, hr⟩ := Option.isSome_iff_exists.mp (List.isSome_min?_of_ne_nil h)
  have hspec := List.min?_eq_some_iff.mp hr
  rw [best_eq hspec.1 hspec.2]
  exact hspec

theorem best_append {ranks : List Int} (h : ranks ≠ []) (r : Int) :
    best (ranks ++ [r]) = min (best ranks) r := by
  obtain ⟨hmem, hleast⟩ := best_spec h
  refine best_eq ?_ fun s hs => ?_
  · rcases min_choice (best ranks) r with heq | heq <;> rw [heq]
    · exact List.mem_append_left _ hmem
    · simp
  · rcases List.mem_append.mp hs with hs | hs
    · exact (min_le_left _ _).trans (hleast s hs)
    · rw [List.mem_singleton.mp hs]
      exact min_le_right _ _

theorem best_perm {ranks ranks' : List Int} (h : ranks.Perm ranks') : best ranks = best ranks' := by
  by_cases hempty : ranks = []
  · subst hempty
    rw [h.nil_eq]
  · obtain ⟨hmem, hleast⟩ := best_spec hempty
    exact (best_eq (h.mem_iff.mp hmem) fun s hs => hleast s (h.mem_iff.mpr hs)).symm

theorem reciprocalSum_append (k : Int) (ranks : List Int) (r : Int) :
    reciprocalSum k (ranks ++ [r]) = reciprocalSum k ranks + 1 / ((k + r : Int) : Rat) := by
  unfold reciprocalSum
  rw [List.map_append, List.sum_append]
  simp

theorem reciprocalSum_perm (k : Int) {ranks ranks' : List Int} (h : ranks.Perm ranks') :
    reciprocalSum k ranks = reciprocalSum k ranks' :=
  (h.map _).sum_eq

/-! ### Fusion -/

section

variable {α : Type*} [LinearOrder α] (k : Int) (rankings : List (List α))

/-- The rank of an element in a ranking. -/
def rank? (ranking : List α) (x : α) :
    Option Int := if x ∈ ranking then some (ranking.idxOf x + 1) else none

/-- The ranks of an element. -/
def ranks (x : α) : List Int := rankings.filterMap fun ranking => rank? ranking x

/-- The order of `(-score, best rank, x)`. -/
def before (x y : α) : Prop :=
  reciprocalSum k (ranks rankings y) < reciprocalSum k (ranks rankings x) ∨
    (reciprocalSum k (ranks rankings x) = reciprocalSum k (ranks rankings y) ∧
      (best (ranks rankings x) < best (ranks rankings y) ∨
        (best (ranks rankings x) = best (ranks rankings y) ∧ x ≤ y)))

instance : DecidableRel (before k rankings) := fun x y => by unfold before; infer_instance

instance : Std.Total (before k rankings) where
  total x y := by
    unfold before
    rcases lt_trichotomy (reciprocalSum k (ranks rankings x)) (reciprocalSum k (ranks rankings y))
      with h | h | h
    · exact .inr (.inl h)
    · rcases lt_trichotomy (best (ranks rankings x)) (best (ranks rankings y)) with h' | h' | h'
      · exact .inl (.inr ⟨h, .inl h'⟩)
      · rcases le_total x y with hxy | hyx
        · exact .inl (.inr ⟨h, .inr ⟨h', hxy⟩⟩)
        · exact .inr (.inr ⟨h.symm, .inr ⟨h'.symm, hyx⟩⟩)
      · exact .inr (.inr ⟨h.symm, .inl h'⟩)
    · exact .inl (.inl h)

instance : IsTrans α (before k rankings) where
  trans x y z hxy hyz := by
    unfold before at *
    rcases hxy with hxy | ⟨hxy, hxy'⟩ <;> rcases hyz with hyz | ⟨hyz, hyz'⟩
    · exact .inl (hyz.trans hxy)
    · exact .inl (hyz ▸ hxy)
    · exact .inl (hxy ▸ hyz)
    · refine .inr ⟨hxy.trans hyz, ?_⟩
      rcases hxy' with hlt | ⟨heq, hle⟩ <;> rcases hyz' with hlt' | ⟨heq', hle'⟩
      · exact .inl (hlt.trans hlt')
      · exact .inl (heq' ▸ hlt)
      · exact .inl (heq ▸ hlt')
      · exact .inr ⟨heq.trans heq', hle.trans hle'⟩

instance : Std.Antisymm (before k rankings) where
  antisymm x y hxy hyx := by
    unfold before at *
    rcases hxy with hxy | ⟨hxy, hxy'⟩ <;> rcases hyx with hyx | ⟨hyx, hyx'⟩
    · exact absurd hyx hxy.not_gt
    · exact absurd hyx hxy.ne
    · exact absurd hxy hyx.ne
    · rcases hxy' with hlt | ⟨heq, hle⟩ <;> rcases hyx' with hlt' | ⟨heq', hle'⟩
      · exact absurd hlt' hlt.not_gt
      · exact absurd heq' hlt.ne'
      · exact absurd heq hlt'.ne'
      · exact le_antisymm hle hle'

/-- The elements of the rankings in the fused order. -/
def fused : List α := rankings.flatten.dedup.insertionSort (before k rankings)

variable {k rankings}

theorem mem_fused {x : α} : x ∈ fused k rankings ↔ ∃ ranking ∈ rankings, x ∈ ranking := by
  unfold fused
  rw [List.mem_insertionSort, List.mem_dedup, List.mem_flatten]

theorem nodup_fused : (fused k rankings).Nodup :=
  (List.perm_insertionSort _ _).nodup_iff.mpr (List.nodup_dedup _)

/-- There is one fused order. -/
theorem eq_fused {xs : List α} (hnodup : xs.Nodup)
    (hmem : ∀ x, x ∈ xs ↔ ∃ ranking ∈ rankings, x ∈ ranking)
    (hordered : xs.Pairwise (before k rankings)) : xs = fused k rankings := by
  have hperm : xs.Perm (fused k rankings) :=
    (List.perm_ext_iff_of_nodup hnodup nodup_fused).mpr fun x => (hmem x).trans mem_fused.symm
  exact hperm.eq_of_pairwise' hordered (List.pairwise_insertionSort _ _)

theorem ranks_perm {rankings' : List (List α)} (h : rankings.Perm rankings') (x : α) :
    (ranks rankings x).Perm (ranks rankings' x) :=
  h.filterMap _

/-- The order of the rankings does not matter. -/
theorem fused_perm {rankings' : List (List α)} (h : rankings.Perm rankings') :
    fused k rankings = fused k rankings' := by
  have hbefore : before k rankings = before k rankings' := by
    funext x y
    unfold before
    rw [reciprocalSum_perm k (ranks_perm h x), reciprocalSum_perm k (ranks_perm h y),
      best_perm (ranks_perm h x), best_perm (ranks_perm h y)]
  refine eq_fused nodup_fused (fun x => ?_) ?_
  · rw [mem_fused]
    exact exists_congr fun ranking => and_congr_left fun _ => h.mem_iff
  · rw [← hbefore]
    exact List.pairwise_insertionSort _ _

/-! ### Dominance -/

/-- Where one element is ranked, another one is ranked no later, and somewhere it is ranked earlier
or alone. -/
structure Dominates (rankings : List (List α)) (x y : α) : Prop where
  noLater : ∀ ranking ∈ rankings, ∀ r, rank? ranking y = some r →
    ∃ s, rank? ranking x = some s ∧ s ≤ r
  somewhere : ∃ ranking ∈ rankings, ∃ s, rank? ranking x = some s ∧
    ∀ r, rank? ranking y = some r → s < r

/-- What a ranking adds to a score. -/
def contribution (k : Int) (ranking : List α) (x : α) : Rat :=
  (rank? ranking x).elim 0 fun r => 1 / ((k + r : Int) : Rat)

theorem reciprocalSum_ranks (k : Int) (rankings : List (List α)) (x : α) :
    reciprocalSum k (ranks rankings x) =
      (rankings.map fun ranking => contribution k ranking x).sum := by
  unfold reciprocalSum ranks contribution
  induction rankings with
  | nil => rfl
  | cons ranking rankings ih =>
    rw [List.map_cons, List.sum_cons, ← ih]
    cases h : rank? ranking x with
    | none => simp [h]
    | some r => simp [h]

theorem one_le_of_rank? {ranking : List α} {x : α} {r : Int} (h : rank? ranking x = some r) :
    1 ≤ r := by
  unfold rank? at h
  split at h
  · cases h
    omega
  · cases h

theorem reciprocal_pos {k r : Int} (hk : 1 ≤ k) (hr : 1 ≤ r) :
    (0 : Rat) < 1 / ((k + r : Int) : Rat) := by
  have : (0 : Rat) < ((k + r : Int) : Rat) := Int.cast_pos.mpr (by omega)
  positivity

theorem reciprocal_le {k r s : Int} (hk : 1 ≤ k) (hs : 1 ≤ s) (h : s ≤ r) :
    1 / ((k + r : Int) : Rat) ≤ 1 / ((k + s : Int) : Rat) :=
  one_div_le_one_div_of_le (Int.cast_pos.mpr (by omega)) (Int.cast_le.mpr (by omega))

theorem reciprocal_lt {k r s : Int} (hk : 1 ≤ k) (hs : 1 ≤ s) (h : s < r) :
    1 / ((k + r : Int) : Rat) < 1 / ((k + s : Int) : Rat) :=
  one_div_lt_one_div_of_lt (Int.cast_pos.mpr (by omega)) (Int.cast_lt.mpr (by omega))

theorem score_lt_of_dominates {x y : α} (hk : 1 ≤ k) (h : Dominates rankings x y) :
    reciprocalSum k (ranks rankings y) < reciprocalSum k (ranks rankings x) := by
  rw [reciprocalSum_ranks, reciprocalSum_ranks]
  refine List.sum_lt_sum _ _ (fun ranking hranking => ?_) ?_
  · unfold contribution
    cases hy : rank? ranking y with
    | none =>
      cases hx : rank? ranking x with
      | none => exact le_refl _
      | some s => exact (reciprocal_pos hk (one_le_of_rank? hx)).le
    | some r =>
      obtain ⟨s, hx, hle⟩ := h.noLater ranking hranking r hy
      rw [hx]
      exact reciprocal_le hk (one_le_of_rank? hx) hle
  · obtain ⟨ranking, hranking, s, hx, hlt⟩ := h.somewhere
    refine ⟨ranking, hranking, ?_⟩
    unfold contribution
    rw [hx]
    cases hy : rank? ranking y with
    | none => exact reciprocal_pos hk (one_le_of_rank? hx)
    | some r => exact reciprocal_lt hk (one_le_of_rank? hx) (hlt r hy)

/-- An element stands before every element it dominates. -/
theorem sublist_fused_of_dominates {x y : α} (hk : 1 ≤ k) (h : Dominates rankings x y)
    (hy : ∃ ranking ∈ rankings, y ∈ ranking) : [x, y].Sublist (fused k rankings) := by
  have hscore := score_lt_of_dominates hk h
  have hne : x ≠ y := by
    rintro rfl
    exact lt_irrefl _ hscore
  have hx : ∃ ranking ∈ rankings, x ∈ ranking := by
    obtain ⟨ranking, hranking, s, hs, -⟩ := h.somewhere
    refine ⟨ranking, hranking, ?_⟩
    unfold rank? at hs
    by_contra hnot
    rw [if_neg hnot] at hs
    cases hs
  refine List.pair_sublist_insertionSort' (.inl hscore) (List.subperm_of_subset ?_ ?_)
  · simpa using hne
  · intro z hz
    rw [List.mem_dedup, List.mem_flatten]
    rcases List.mem_cons.mp hz with rfl | hz
    · exact hx
    · rw [List.mem_singleton.mp hz]
      exact hy

end

end RankFusion
