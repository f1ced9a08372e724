import Mathlib.Data.List.Basic

/-!
# Words

The words of a text are what stands between its separators. A text that begins with a word and a
separator has it as its first word, and what stands between two separators of a part of a text is a
word that is neither the first nor the last (`mem_innerWords_of_infix`).
-/

namespace Words

variable {α : Type*} [BEq α] [LawfulBEq α] {sep : α} {word text xs ys : List α}

theorem splitOn_append_cons (xs ys : List α) :
    (xs ++ sep :: ys).splitOn sep = xs.splitOn sep ++ ys.splitOn sep := by
  rw [List.splitOn_eq_splitOnP, List.splitOn_eq_splitOnP, List.splitOn_eq_splitOnP]
  exact List.splitOnP_append_cons _ _ (beq_self_eq_true sep)

theorem splitOn_word (h : sep ∉ word) : word.splitOn sep = [word] := by
  rw [List.splitOn_eq_splitOnP]
  refine List.splitOnP_eq_singleton fun x hx => ?_
  exact beq_eq_false_iff_ne.mpr fun heq => h (heq ▸ hx)

theorem splitOn_word_cons (h : sep ∉ word) (ys : List α) :
    (word ++ sep :: ys).splitOn sep = word :: ys.splitOn sep := by
  rw [splitOn_append_cons, splitOn_word h, List.singleton_append]

/-- The words between the first and the last. -/
def innerWords (sep : α) (text : List α) : List (List α) := (text.splitOn sep).tail.dropLast

theorem mem_innerWords_of_infix (h : sep ∉ word)
    (hwithin : (xs ++ sep :: (word ++ sep :: ys)) <:+: text) : word ∈ innerWords sep text := by
  obtain ⟨before, after, rfl⟩ := hwithin
  unfold innerWords
  rw [show before ++ (xs ++ sep :: (word ++ sep :: ys)) ++ after = (before ++ xs) ++ sep ::
    (word ++ sep :: (ys ++ after)) by simp, splitOn_append_cons, splitOn_word_cons h,
    List.tail_append_of_ne_nil (List.splitOn_ne_nil sep _), List.dropLast_append_of_ne_nil
      (List.cons_ne_nil _ _), List.dropLast_cons_of_ne_nil (List.splitOn_ne_nil sep _)]
  exact List.mem_append_right _ List.mem_cons_self

theorem splitOn_of_prefix (h : sep ∉ word) (hstart : (word ++ [sep]) <+: text) :
    ∃ rest, rest ≠ [] ∧ text.splitOn sep = word :: rest := by
  obtain ⟨after, rfl⟩ := hstart
  refine ⟨after.splitOn sep, List.splitOn_ne_nil sep after, ?_⟩
  rw [List.append_assoc, List.singleton_append, splitOn_word_cons h]

theorem not_prefix_of_splitOn {first : List α} {rest : List (List α)} (h : sep ∉ word)
    (hwords : text.splitOn sep = first :: rest) (hne : first ≠ word) :
    ¬(word ++ [sep]) <+: text := fun hstart => by
  obtain ⟨rest', -, hwords'⟩ := splitOn_of_prefix h hstart
  exact hne (List.cons.inj (hwords.symm.trans hwords')).1

end Words
