import Mathlib.Data.List.Infix

/-!
# Occurrences

The first place of a word in a text, and where a word without separators stands when texts are put
together with separators.
-/

namespace Occurrences

variable {α : Type*}

section

variable [DecidableEq α]

/-- Where a word occurs first. -/
def find (word : List α) : List α → Option Nat
  | [] => if word = [] then some 0 else none
  | a :: rest => if word <+: a :: rest then some 0 else (find word rest).map (· + 1)

theorem find_eq_some {word text : List α} {i : Nat} :
    find word text = some i ↔ i ≤ text.length ∧ word <+: text.drop i ∧ ∀ j < i,
      ¬word <+: text.drop j := by
  induction text generalizing i with
  | nil =>
    unfold find
    by_cases hword : word = []
    · subst hword
      simp only [if_true, Option.some.injEq, List.length_nil, List.nil_prefix, not_true_eq_false,
        imp_false, true_and, Nat.le_zero]
      exact ⟨fun h => ⟨h.symm, fun j hj => by omega⟩, fun h => h.1.symm⟩
    · rw [if_neg hword]
      simp [hword]
  | cons a rest ih =>
    unfold find
    by_cases hstart : word <+: a :: rest
    · rw [if_pos hstart]
      constructor
      · rintro ⟨⟩
        exact ⟨Nat.zero_le _, hstart, fun j hj => absurd hj (Nat.not_lt_zero j)⟩
      · rintro ⟨-, -, hbefore⟩
        rcases Nat.eq_zero_or_pos i with rfl | hi
        · rfl
        · exact absurd hstart (hbefore 0 hi)
    · rw [if_neg hstart, Option.map_eq_some_iff]
      constructor
      · rintro ⟨k, hk, rfl⟩
        obtain ⟨hlength, hat, hbefore⟩ := ih.mp hk
        refine ⟨Nat.succ_le_succ hlength, hat, fun j hj => ?_⟩
        match j with
        | 0 => exact hstart
        | j + 1 => exact hbefore j (Nat.lt_of_succ_lt_succ hj)
      · rintro ⟨hlength, hat, hbefore⟩
        match i with
        | 0 => exact absurd hat hstart
        | k + 1 =>
          exact ⟨k, ih.mpr ⟨Nat.le_of_succ_le_succ hlength, hat,
            fun j hj => hbefore (j + 1) (Nat.succ_lt_succ hj)⟩, rfl⟩

theorem find_isSome {word text : List α} : (find word text).isSome = true ↔ word <:+: text := by
  induction text with
  | nil =>
    unfold find
    by_cases hword : word = [] <;> simp [hword]
  | cons a rest ih =>
    unfold find
    by_cases hstart : word <+: a :: rest
    · simp [hstart, hstart.isInfix]
    · rw [if_neg hstart, Option.isSome_map, ih, List.infix_cons_iff, or_iff_right hstart]

end

/-! ### Separators -/

variable {p : α → Prop} {word x y separators : List α} {a : α}

/-- Something without separators. -/
structure IsWord (p : α → Prop) (word : List α) : Prop where
  ne_nil : word ≠ []
  free : ∀ a ∈ word, ¬p a

theorem IsWord.not_prefix (h : IsWord p word) (ha : p a) {front : List α} (hne : front ≠ [])
    (hsuffix : front <:+ word) : ¬front <+: a :: y := by
  intro hstart
  cases front with
  | nil => exact hne rfl
  | cons b front =>
    rw [List.cons_prefix_cons] at hstart
    exact h.free b (hsuffix.subset List.mem_cons_self) (hstart.1 ▸ ha)

theorem IsWord.infix_cons (h : IsWord p word) (ha : p a) : word <:+: a :: y ↔ word <:+: y := by
  rw [List.infix_cons_iff]
  exact or_iff_right (h.not_prefix ha h.ne_nil List.suffix_rfl)

/-- A word is on one side of a separator. -/
theorem IsWord.infix_append_cons (h : IsWord p word) (ha : p a) :
    word <:+: x ++ a :: y ↔ word <:+: x ∨ word <:+: y := by
  rw [List.infix_append_iff_ne_nil, h.infix_cons ha]
  refine ⟨?_, fun h => h.imp_right .inl⟩
  rintro (hx | hy | ⟨front, back, -, hne, rfl, -, hback⟩)
  · exact .inl hx
  · exact .inr hy
  · exact absurd hback (h.not_prefix ha hne (List.suffix_append _ _))

theorem IsWord.infix_separators_append (h : IsWord p word) (hp : ∀ a ∈ separators, p a) :
    word <:+: separators ++ y ↔ word <:+: y := by
  induction separators with
  | nil => rfl
  | cons a rest ih =>
    rw [List.cons_append, h.infix_cons (hp a List.mem_cons_self),
      ih fun b hb => hp b (List.mem_cons_of_mem _ hb)]

/-- A word is on one side of some separators. -/
theorem IsWord.infix_separated (h : IsWord p word) (hp : ∀ a ∈ separators, p a)
    (hne : separators ≠ []) : word <:+: x ++ (separators ++ y) ↔ word <:+: x ∨ word <:+: y := by
  cases separators with
  | nil => exact absurd rfl hne
  | cons a rest =>
    rw [List.cons_append, h.infix_append_cons (hp a List.mem_cons_self),
      h.infix_separators_append fun b hb => hp b (List.mem_cons_of_mem _ hb)]

theorem IsWord.infix_append_separators (h : IsWord p word) (hp : ∀ a ∈ separators, p a) :
    word <:+: x ++ separators ↔ word <:+: x := by
  by_cases hne : separators = []
  · rw [hne, List.append_nil]
  · have hsplit := h.infix_separated (x := x) (y := []) hp hne
    rw [List.append_nil] at hsplit
    exact hsplit.trans (or_iff_left fun hnil => h.ne_nil (List.infix_nil.mp hnil))

end Occurrences
