import Mathlib.Algebra.Order.BigOperators.Group.List
import Mathlib.Algebra.Order.Field.Basic
import Mathlib.Algebra.Order.BigOperators.Group.Finset
import Mathlib.Data.List.Sort
import Mathlib.Tactic.Linarith

/-!
# Discounted gains

A sequence of gains is weighted by positive, strictly decreasing weights. A sequence whose partial
sums stay below those of another one has the smaller weighted sum, and the sums are equal only if
the sequences are (`discounted_le`, `discounted_eq_iff`). The partial sums of a list are at most
those of the sorted list (`cumulated_le_of_subperm`).
-/

namespace DiscountedGain

variable {R : Type*} [Field R]

/-! ### Weighted sums -/

section

variable {weight gain ideal : ℕ → R} {k : ℕ}

/-- The weighted sum of the first `k` gains. -/
def discounted (weight gain : ℕ → R) (k : ℕ) : R := ∑ i ∈ Finset.range k, weight i * gain i

/-- The sum of the first `k` gains. -/
def cumulated (gain : ℕ → R) (k : ℕ) : R := ∑ i ∈ Finset.range k, gain i

theorem discounted_succ (weight gain : ℕ → R) (k : ℕ) :
    discounted weight gain (k + 1) = discounted weight gain k + weight k * gain k :=
      Finset.sum_range_succ _ _

theorem cumulated_succ (gain : ℕ → R) (k : ℕ) :
    cumulated gain (k + 1) = cumulated gain k + gain k :=
  Finset.sum_range_succ _ _

theorem discounted_sub (weight gain ideal : ℕ → R) (k : ℕ) :
    discounted weight (fun i => ideal i - gain i) k = discounted weight ideal k -
      discounted weight gain k := by
  unfold discounted
  rw [← Finset.sum_sub_distrib]
  exact Finset.sum_congr rfl fun i _ => mul_sub _ _ _

theorem cumulated_sub (gain ideal : ℕ → R) (k : ℕ) :
    cumulated (fun i => ideal i - gain i) k = cumulated ideal k - cumulated gain k :=
      Finset.sum_sub_distrib _ _

theorem discounted_congr (h : ∀ i < k, gain i = ideal i) :
    discounted weight gain k = discounted weight ideal k :=
  Finset.sum_congr rfl fun i hi => by rw [h i (Finset.mem_range.mp hi)]

variable [LinearOrder R] [IsStrictOrderedRing R]

theorem discounted_nonneg (hweight : ∀ i, 0 < weight i) (hgain : ∀ i, 0 ≤ gain i) :
    0 ≤ discounted weight gain k :=
  Finset.sum_nonneg fun i _ => mul_nonneg (hweight i).le (hgain i)

theorem discounted_pos (hweight : ∀ i, 0 < weight i) (hgain : ∀ i, 0 ≤ gain i) (hfirst : 0 < gain 0)
    (hk : 1 ≤ k) : 0 < discounted weight gain k :=
  Finset.sum_pos' (fun i _ => mul_nonneg (hweight i).le (hgain i))
    ⟨0, Finset.mem_range.mpr hk, mul_pos (hweight 0) hfirst⟩

/-- Summation by parts, with the last weight in front: the induction of both theorems below. -/
theorem weight_mul_cumulated_le (hanti : ∀ i, weight (i + 1) < weight i)
    (hnonneg : ∀ j ≤ k, 0 ≤ cumulated gain j) :
    weight k * cumulated gain k ≤ discounted weight gain k ∧
      (discounted weight gain k = weight k * cumulated gain k → ∀ i < k, gain i = 0) := by
  induction k with
  | zero => exact ⟨by simp [cumulated, discounted], fun _ i hi => absurd hi (Nat.not_lt_zero i)⟩
  | succ k ih =>
    obtain ⟨hle, heq⟩ := ih fun j hj => hnonneg j (by omega)
    have hlast := hnonneg (k + 1) le_rfl
    have hdrop : weight (k + 1) * cumulated gain (k + 1) ≤ weight k * cumulated gain (k + 1) :=
      mul_le_mul_of_nonneg_right (hanti k).le hlast
    have hstep : weight k * cumulated gain (k + 1) ≤ discounted weight gain (k + 1) := by
      rw [cumulated_succ, mul_add, discounted_succ]
      linarith
    refine ⟨hdrop.trans hstep, fun h => ?_⟩
    -- Both inequalities are equations, so the partial sum is zero.
    have hzero : cumulated gain (k + 1) = 0 := by
      by_contra hne
      have := mul_lt_mul_of_pos_right (hanti k) (lt_of_le_of_ne hlast (Ne.symm hne))
      linarith
    have hprevious : ∀ i < k, gain i = 0 := by
      refine heq ?_
      rw [hzero, mul_zero, discounted_succ] at h
      rw [cumulated_succ] at hzero
      have : cumulated gain k = -gain k := by linarith
      rw [this]
      linarith
    have hsum : cumulated gain k = 0 :=
      Finset.sum_eq_zero fun i hi => hprevious i (Finset.mem_range.mp hi)
    intro i hi
    by_cases hik : i = k
    · rw [cumulated_succ, hsum, zero_add] at hzero
      rw [hik, hzero]
    · exact hprevious i (by omega)

/-- Smaller partial sums make a smaller weighted sum. -/
theorem discounted_le (hweight : ∀ i, 0 < weight i) (hanti : ∀ i, weight (i + 1) < weight i)
    (hle : ∀ j ≤ k, cumulated gain j ≤ cumulated ideal j) :
    discounted weight gain k ≤ discounted weight ideal k := by
  have hnonneg : ∀ j ≤ k, 0 ≤ cumulated (fun i => ideal i - gain i) j := fun j hj => by
    rw [cumulated_sub]
    exact sub_nonneg.mpr (hle j hj)
  have h := (weight_mul_cumulated_le hanti hnonneg).1
  rw [discounted_sub] at h
  exact sub_nonneg.mp ((mul_nonneg (hweight k).le (hnonneg k le_rfl)).trans h)

theorem discounted_eq_iff (hweight : ∀ i, 0 < weight i) (hanti : ∀ i, weight (i + 1) < weight i)
    (hle : ∀ j ≤ k, cumulated gain j ≤ cumulated ideal j) :
    discounted weight gain k = discounted weight ideal k ↔ ∀ i < k, gain i = ideal i := by
  refine ⟨fun heq i hi => ?_, discounted_congr⟩
  have hnonneg : ∀ j ≤ k, 0 ≤ cumulated (fun i => ideal i - gain i) j := fun j hj => by
    rw [cumulated_sub]
    exact sub_nonneg.mpr (hle j hj)
  obtain ⟨hparts, hzero⟩ := weight_mul_cumulated_le hanti hnonneg
  rw [discounted_sub, heq, sub_self] at hparts hzero
  have hsum := le_antisymm hparts (mul_nonneg (hweight k).le (hnonneg k le_rfl))
  exact (sub_eq_zero.mp (hzero hsum.symm i hi)).symm

end

/-! ### Sorted gains -/

section

variable {gains sorted : List R}

/-- The `i`-th gain of a list, which is followed by zeros. -/
def padded (gains : List R) (i : ℕ) : R := gains.getD i 0

theorem cumulated_padded (gains : List R) (k : ℕ) :
    cumulated (padded gains) k = (gains.take k).sum := by
  induction k with
  | zero => simp [cumulated]
  | succ k ih =>
    rw [cumulated_succ, ih, List.take_add_one, List.sum_append]
    congr 1
    unfold padded
    rw [List.getD_eq_getElem?_getD]
    cases gains[k]? <;> simp

/-- Two lists go on with zeros after different lengths and still have the same first elements. -/
theorem padded_eq_iff_takeD {left right : List R} {k : ℕ} :
    left.takeD k 0 = right.takeD k 0 ↔ ∀ i < k, padded left i = padded right i := by
  induction k generalizing left right with
  | zero => simp
  | succ k ih =>
    have hhead : ∀ l : List R, l.headD 0 = padded l 0 := fun l => by cases l <;> rfl
    have htail : ∀ (l : List R) (i : ℕ), padded l.tail i = padded l (i + 1) := fun l i => by
      cases l <;> rfl
    rw [List.takeD_succ, List.takeD_succ, List.cons.injEq, ih]
    simp only [htail]
    constructor
    · rintro ⟨hfirst, hrest⟩ i hi
      cases i with
      | zero => rw [← hhead, ← hhead, List.headD_eq_head?_getD, List.headD_eq_head?_getD, hfirst]
      | succ i => exact hrest i (by omega)
    · intro h
      refine ⟨?_, fun i hi => h (i + 1) (by omega)⟩
      have := h 0 (by omega)
      rwa [← hhead, ← hhead, List.headD_eq_head?_getD, List.headD_eq_head?_getD] at this

theorem sum_take_succ (gains : List R) (n : ℕ) :
    (gains.take (n + 1)).sum = (gains.take n).sum + padded gains n := by
  rw [← cumulated_padded, ← cumulated_padded, cumulated_succ]

section

variable [LinearOrder R]

theorem padded_nonneg (h : ∀ x ∈ gains, 0 ≤ x) (i : ℕ) : 0 ≤ padded gains i := by
  unfold padded
  rw [List.getD_eq_getElem?_getD]
  cases hget : gains[i]? with
  | none => exact le_rfl
  | some x => exact h x (List.mem_of_getElem? hget)

theorem sum_filter_ne_zero (gains : List R) :
    (gains.filter fun x => decide (x ≠ 0)).sum = gains.sum := by
  induction gains with
  | nil => rfl
  | cons x rest ih =>
    rw [List.sum_cons, ← ih]
    by_cases hx : x = 0
    · rw [List.filter_cons_of_neg (by simp [hx]), hx, zero_add]
    · rw [List.filter_cons_of_pos (by simp [hx]), List.sum_cons]

end

variable [LinearOrder R] [IsStrictOrderedRing R]

theorem sum_take_mono (hnonneg : ∀ x ∈ sorted, 0 ≤ x) {m n : ℕ} (h : m ≤ n) :
    (sorted.take m).sum ≤ (sorted.take n).sum := by
  induction h with
  | refl => exact le_rfl
  | @step n _ ih =>
    rw [sum_take_succ]
    exact ih.trans (le_add_of_nonneg_right (padded_nonneg hnonneg n))

/-- A larger element in front makes the partial sums larger. -/
theorem sum_take_le_cons {x : R} {rest : List R} (hlargest : ∀ y ∈ rest, y ≤ x) (hnonneg : 0 ≤ x)
    (n : ℕ) : (rest.take n).sum ≤ ((x :: rest).take n).sum := by
  cases n with
  | zero => exact le_rfl
  | succ n =>
    rw [List.take_succ_cons, List.sum_cons, sum_take_succ, add_comm]
    refine add_le_add ?_ le_rfl
    unfold padded
    rw [List.getD_eq_getElem?_getD]
    cases hget : rest[n]? with
    | none => exact hnonneg
    | some y => exact hlargest y (List.mem_of_getElem? hget)

theorem sum_le_sum_take (h : gains.Sublist sorted) (hsorted : sorted.Pairwise (· ≥ ·))
    (hnonneg : ∀ x ∈ sorted, 0 ≤ x) : gains.sum ≤ (sorted.take gains.length).sum := by
  induction h with
  | slnil => exact le_rfl
  | @cons gains sorted x h ih =>
    obtain ⟨hx, hsorted⟩ := List.pairwise_cons.mp hsorted
    have hrest := ih hsorted fun y hy => hnonneg y (List.mem_cons_of_mem x hy)
    exact hrest.trans (sum_take_le_cons hx (hnonneg x List.mem_cons_self) _)
  | @cons_cons gains sorted x h ih =>
    obtain ⟨-, hsorted⟩ := List.pairwise_cons.mp hsorted
    rw [List.length_cons, List.take_succ_cons, List.sum_cons, List.sum_cons]
    exact add_le_add le_rfl (ih hsorted fun y hy => hnonneg y (List.mem_cons_of_mem x hy))

/-- Gains that are, zeros apart, some of the sorted gains have smaller partial sums. -/
theorem cumulated_le_of_subperm (h : (gains.filter fun x => decide (x ≠ 0)).Subperm sorted)
    (hsorted : sorted.Pairwise (· ≥ ·)) (hnonneg : ∀ x ∈ sorted, 0 ≤ x) (k : ℕ) :
    cumulated (padded gains) k ≤ cumulated (padded sorted) k := by
  rw [cumulated_padded, cumulated_padded, ← sum_filter_ne_zero]
  have hstart := ((List.take_sublist k gains).filter fun x => decide (x ≠ 0)).subperm.trans h
  obtain ⟨chosen, hperm, hsub⟩ := hstart
  have hlength : chosen.length ≤ k := by
    rw [hperm.length_eq]
    exact (List.length_filter_le _ _).trans (by rw [List.length_take]; exact min_le_left _ _)
  rw [← hperm.sum_eq]
  exact (sum_le_sum_take hsub hsorted hnonneg).trans (sum_take_mono hnonneg hlength)

end

end DiscountedGain
