import Mathlib.Data.List.Infix

/-!
# Delimiters

A text that ends at a delimiter can be read back when the delimiter does not occur earlier. An
occurrence may lie in the text or overlap the delimiter itself: a delimiter marks the ends of texts
that do not contain it if no proper suffix of it is also a prefix (`marks_of_noBorder`). Records
that tell their own end need no delimiter (`flatMap_inj_of_ends`).
-/

namespace Delimiters

variable {α : Type*} {delimiter text text' rest rest' t : List α}

/-- Two lists are cut at their first occurrence of an element. -/
theorem append_cons_inj {a : α} {xs ys xs' ys' : List α} (h : a ∉ xs) (h' : a ∉ xs')
    (heq : xs ++ a :: ys = xs' ++ a :: ys') : xs = xs' ∧ ys = ys' := by
  induction xs generalizing xs' with
  | nil =>
    cases xs' with
    | nil => exact ⟨rfl, (List.cons.inj heq).2⟩
    | cons x xs' => exact absurd ((List.cons.inj heq).1 ▸ List.mem_cons_self) h'
  | cons x xs ih =>
    cases xs' with
    | nil => exact absurd ((List.cons.inj heq).1 ▸ List.mem_cons_self) h
    | cons x' xs' =>
      obtain ⟨rfl, hrest⟩ := List.cons.inj heq
      obtain ⟨rfl, rfl⟩ := ih (fun hx => h (List.mem_cons_of_mem x hx))
        (fun hx => h' (List.mem_cons_of_mem x hx)) hrest
      exact ⟨rfl, rfl⟩

/-- The delimiter that follows the text is its first occurrence. -/
def Marks (delimiter text : List α) : Prop := ¬delimiter <:+: text ++ delimiter.dropLast

theorem Marks.nil_of_append (h : Marks delimiter (text ++ t))
    (heq : delimiter ++ rest = t ++ (delimiter ++ rest')) : t = [] := by
  by_contra hne
  have hlength : delimiter.length ≤ (t ++ delimiter.dropLast).length := by
    have := List.length_pos_iff.mpr hne
    rw [List.length_append, List.length_dropLast]
    omega
  have hsplit : t ++ (delimiter ++ rest') = (t ++ delimiter.dropLast) ++
      (delimiter.drop (delimiter.length - 1) ++ rest') := by
    rw [List.append_assoc, ← List.append_assoc delimiter.dropLast, List.dropLast_eq_take,
      List.take_append_drop]
  have hstart : delimiter <+: t ++ delimiter.dropLast :=
    List.prefix_of_prefix_length_le (List.prefix_append delimiter rest)
      (by rw [heq, hsplit]; exact List.prefix_append _ _) hlength
  apply h
  rw [List.append_assoc]
  exact hstart.isInfix.trans (List.suffix_append text _).isInfix

/-- What stands before the first delimiter, and after it, can be read back. -/
theorem append_inj_of_marks (h : Marks delimiter text) (h' : Marks delimiter text')
    (heq : text ++ (delimiter ++ rest) = text' ++ (delimiter ++ rest')) :
    text = text' ∧ rest = rest' := by
  rcases List.append_eq_append_iff.mp heq with ⟨t, rfl, ht⟩ | ⟨t, rfl, ht⟩
  · obtain rfl := h'.nil_of_append ht
    exact ⟨(List.append_nil text).symm, List.append_cancel_left ht⟩
  · obtain rfl := h.nil_of_append ht
    exact ⟨List.append_nil text', (List.append_cancel_left ht).symm⟩

/-- An occurrence that overlaps the delimiter by more than `overlap` elements makes an end of the
delimiter its start. -/
theorem marks_of_noBorder (overlap : Nat)
    (hborder : ∀ m, overlap < m → m < delimiter.length →
      delimiter.take m ≠ delimiter.drop (delimiter.length - m))
    (h : ¬delimiter <:+: text ++ delimiter.take overlap) : Marks delimiter text := by
  rintro ⟨before, after, heq⟩
  have hlengths := congrArg List.length heq
  rw [List.length_append, List.length_append, List.length_append, List.length_dropLast] at hlengths
  have hoverlap : overlap < delimiter.length := by
    by_contra hge
    rw [List.take_of_length_le (not_lt.mp hge)] at h
    exact h (List.suffix_append text delimiter).isInfix
  by_cases hinside : before.length + delimiter.length ≤ text.length + overlap
  · apply h
    have hstart : before ++ delimiter <+: text ++ delimiter.take overlap := by
      have hwhole : text ++ delimiter.take overlap <+: text ++ delimiter.dropLast := by
        rw [List.dropLast_eq_take]
        exact List.prefix_append_right_inj text |>.mpr (List.take_prefix_take_left (by omega))
      refine List.prefix_of_prefix_length_le ⟨after, heq⟩ hwhole ?_
      rw [List.length_append, List.length_append, List.length_take]
      omega
    exact (List.suffix_append before delimiter).isInfix.trans hstart.isInfix
  · -- the occurrence starts in the text and ends in the delimiter
    obtain ⟨t, rfl⟩ : before <+: text := by
      refine List.prefix_of_prefix_length_le ?_ (List.prefix_append text delimiter.dropLast)
        (by omega)
      exact ⟨delimiter ++ after, by rw [← heq, List.append_assoc]⟩
    rw [List.length_append] at hinside hlengths
    rw [List.append_assoc, List.append_assoc] at heq
    have hrest : delimiter ++ after = t ++ delimiter.dropLast := List.append_cancel_left heq
    apply hborder (delimiter.length - t.length) (by omega) (by omega)
    have hdrop := congrArg (List.drop t.length) hrest
    rw [List.drop_append_of_le_length (by omega), List.drop_left] at hdrop
    have htake := congrArg (List.take (delimiter.length - t.length)) hdrop
    rw [List.take_append_of_le_length (by rw [List.length_drop]),
      List.take_of_length_le (by rw [List.length_drop]), List.dropLast_eq_take, List.take_take,
      min_eq_left (by omega)] at htake
    rw [show delimiter.length - (delimiter.length - t.length) = t.length by omega]
    exact htake.symm

/-- A delimiter with a last element of its own has no border. -/
theorem marks_of_last {body : List α} {a : α} (ha : a ∉ body) (h : ¬body ++ [a] <:+: text) :
    Marks (body ++ [a]) text := by
  refine marks_of_noBorder 0 (fun m hpos hlt heq => ?_) (by rwa [List.take_zero, List.append_nil])
  rw [List.length_append, List.length_singleton] at hlt heq
  rw [List.take_append_of_le_length (by omega), List.drop_append_of_le_length (by omega)] at heq
  exact ha (List.mem_of_mem_take (heq ▸ List.mem_append_right _ (List.mem_singleton_self a)))

/-- A sequence of records can be read back if each record, whatever follows it, can. -/
theorem flatMap_inj_of_ends {β : Type*} {encode : β → List α} {P : β → Prop}
    (hne : ∀ x, encode x ≠ [])
    (hends : ∀ x y rest rest', P x → P y → encode x ++ rest = encode y ++ rest' → x = y ∧
      rest = rest') {xs ys : List β}
    (hxs : ∀ x ∈ xs, P x) (hys : ∀ y ∈ ys, P y) (h : xs.flatMap encode = ys.flatMap encode) :
    xs = ys := by
  induction xs generalizing ys with
  | nil =>
    cases ys with
    | nil => rfl
    | cons y ys => exact absurd (List.append_eq_nil_iff.mp h.symm).1 (hne y)
  | cons x xs ih =>
    cases ys with
    | nil => exact absurd (List.append_eq_nil_iff.mp h).1 (hne x)
    | cons y ys =>
      obtain ⟨hx, hxs'⟩ := List.forall_mem_cons.mp hxs
      obtain ⟨hy, hys'⟩ := List.forall_mem_cons.mp hys
      obtain ⟨rfl, hrest⟩ := hends x y (xs.flatMap encode) (ys.flatMap encode) hx hy h
      rw [ih hxs' hys' hrest]

end Delimiters
