import ZhiyanRag.Ingestion.Provenance

/-!
# Looking fixed chunks up in the source

`_split_fixed` builds chunks of normalized units and then searches the source for each of them, from
a lower bound that the chunk before leaves. The search finds the place that the chunk was built from
exactly if the lower bound has not passed it and nothing before it looks the same
(`locate_eq_own_iff`), so the strategy is right on exactly the texts that are `Clear`
(`splitText_fixed_iff`).
-/

namespace ZhiyanRag.Ingestion

open Regex Spans Pattern

/-! ### Tokens -/

/-- White space separates tokens. -/
theorem splitTokens_append_space {c : Char} (hc : isPySpace c = true) (front back : List Char) :
    splitTokens (front ++ c :: back) = splitTokens front ++ splitTokens back := by
  unfold splitTokens
  rw [List.splitOnP_append_cons front back hc, List.filter_append]

theorem splitTokens_spaces {gap : List Char} (hgap : ∀ c ∈ gap, isPySpace c = true)
    (back : List Char) :
    splitTokens (gap ++ back) = splitTokens back := by
  induction gap with
  | nil => rfl
  | cons c gap ih =>
    have h := splitTokens_append_space (hgap c List.mem_cons_self) [] (gap ++ back)
    rw [List.nil_append] at h
    rw [List.cons_append, h, ih fun a ha => hgap a (List.mem_cons_of_mem _ ha)]
    rfl

theorem splitTokens_append_spaces {gap : List Char} (hne : gap ≠ [])
    (hgap : ∀ c ∈ gap, isPySpace c = true) (front back : List Char) :
    splitTokens (front ++ (gap ++ back)) = splitTokens front ++ splitTokens back := by
  cases gap with
  | nil => exact absurd rfl hne
  | cons c gap =>
    rw [List.cons_append, splitTokens_append_space (hgap c List.mem_cons_self),
      splitTokens_spaces fun a ha => hgap a (List.mem_cons_of_mem _ ha)]

theorem splitTokens_word {word : List Char} (hne : word ≠ []) (hword : ∀ c ∈ word, Visible c) :
    splitTokens word = [word] := by
  unfold splitTokens
  rw [List.splitOnP_eq_singleton hword]
  simp [hne]

/-- A chunk and the part of the source that it reads have the same tokens. -/
theorem Trace.splitTokens_eq {text : List Char} {start stop : Nat} {chunk : List Mark}
    (h : Trace text start chunk stop) (hstop : stop ≤ text.length) (front : List Char) :
    splitTokens (front ++ chars chunk) = splitTokens (front ++ slice text start stop) := by
  induction h generalizing front with
  | nil start => rw [slice_self]; rfl
  | @char start stop c chunk hc htrace ih =>
    have hle := htrace.le
    obtain ⟨hlt, hget⟩ := List.getElem?_eq_some_iff.mp hc
    rw [slice_cons (by omega) hlt, hget, List.append_cons, ← ih hstop, ← List.append_cons]
    rfl
  | @gap start next stop chunk hle hblank hvisible htrace ih =>
    have hnext := htrace.le
    have hspaces : ∀ c ∈ slice text start next, isPySpace c = true := by
      intro c hc
      obtain ⟨i, hi, hlt, hget⟩ := mem_slice.mp hc
      exact Bool.of_not_eq_false fun hvis => hblank i hi hlt ⟨c, hget, hvis⟩
    have hlength := hvisible.lt
    have hne : slice text start next ≠ [] := by
      rw [← List.length_pos_iff, length_slice]
      omega
    rw [← slice_append text (show start ≤ next by omega) hnext,
      splitTokens_append_spaces hne hspaces]
    have hrest := ih hstop []
    rw [List.nil_append, List.nil_append] at hrest
    rw [← hrest]
    exact splitTokens_append_space (by decide) front (chars chunk)

/-! ### The pattern of the tokens -/

/-- Words separated by white space. -/
inductive Words : List Char → List (List Char) → Prop
  | word {word : List Char} (hne : word ≠ []) (hword : ∀ c ∈ word, Visible c) : Words word [word]
  | cons {word gap text : List Char} {words : List (List Char)} (hne : word ≠ [])
      (hword : ∀ c ∈ word, Visible c) (hgap : gap ≠ []) (hspaces : ∀ c ∈ gap, isPySpace c = true)
      (htext : Words text words) : Words (word ++ (gap ++ text)) (word :: words)

/-- The tokens of stripped text are its words. -/
theorem words_splitTokens {text : List Char} (h : Stripped id text) :
    Words text (splitTokens text) := by
  induction hn : text.length using Nat.strong_induction_on generalizing text with
  | _ n ih =>
  obtain ⟨word, hwordEq⟩ : ∃ word, word = text.takeWhile fun c => !isPySpace c := ⟨_, rfl⟩
  obtain ⟨back, hbackEq⟩ : ∃ back, back = text.dropWhile fun c => !isPySpace c := ⟨_, rfl⟩
  have htext : text = word ++ back := by rw [hwordEq, hbackEq, List.takeWhile_append_dropWhile]
  have hword : ∀ c ∈ word, Visible c := by
    intro c hc
    rw [hwordEq] at hc
    simpa using List.mem_takeWhile_imp (p := fun c => !isPySpace c) hc
  have hne : word ≠ [] := by
    obtain ⟨c, hc, hvisible⟩ := h.first
    obtain ⟨tail, htail⟩ := List.head?_eq_some_iff.mp hc
    rw [hwordEq, htail,
      List.takeWhile_cons_of_pos (by rw [show isPySpace c = false from hvisible]; rfl)]
    exact List.cons_ne_nil _ _
  by_cases hback : back = []
  · rw [hback, List.append_nil] at htext
    rw [htext, splitTokens_word hne hword]
    exact .word hne hword
  · obtain ⟨hstripped, gap, hgapEq, hspaces⟩ := h.suffix ⟨word, htext.symm⟩ hback
    obtain ⟨kept, hkept⟩ : ∃ kept, kept = stripBy id back := ⟨_, rfl⟩
    rw [← hkept] at hstripped hgapEq
    have hgap : gap ≠ [] := by
      intro hnil
      rw [hnil, List.nil_append] at hgapEq
      obtain ⟨c, hc, hvisible⟩ := hstripped.first
      have hhead : ∃ d, back.head? = some d ∧ isPySpace d = true := by
        rw [hbackEq] at hback ⊢
        exact ⟨_, List.head?_eq_some_head hback,
          by simpa using List.head_dropWhile_not (fun c => !isPySpace c) hback⟩
      obtain ⟨d, hd, hspace⟩ := hhead
      rw [hgapEq, hd] at hc
      exact Bool.noConfusion (hspace.symm.trans (Option.some.inj hc ▸ hvisible))
    have hlt : kept.length < n := by
      rw [← hn, htext, ← hgapEq, List.length_append, List.length_append]
      have := List.length_pos_iff.mpr hne
      omega
    have hwords := ih _ hlt hstripped rfl
    rw [htext, ← hgapEq, splitTokens_append_spaces hgap hspaces, splitTokens_word hne hword]
    exact .cons hne hword hgap hspaces hwords

section

variable {text : List Char} {words : List (List Char)}

theorem Words.ne_nil (h : Words text words) : words ≠ [] := by
  cases h with
  | word => exact List.cons_ne_nil _ _
  | cons => exact List.cons_ne_nil _ _

theorem Words.head (h : Words text words) : ∃ c rest, text = c :: rest ∧ Visible c := by
  have hhead : ∀ {word : List Char}, word ≠ [] → (∀ c ∈ word, Visible c) → ∀ back, ∃ c rest,
      word ++ back = c :: rest ∧ Visible c := by
    intro word hne hword back
    obtain ⟨c, rest, rfl⟩ := List.exists_cons_of_ne_nil hne
    exact ⟨c, rest ++ back, rfl, hword c List.mem_cons_self⟩
  cases h with
  | word hne hword =>
    have := hhead hne hword []
    rwa [List.append_nil] at this
  | cons hne hword => exact hhead hne hword _

theorem tokenPattern_cons (token : List Char) (hne : words ≠ []) :
    tokenPattern (token :: words) =
      .seq (.literal token) (.seq (.plus space) (tokenPattern words)) := by
  obtain ⟨next, words, rfl⟩ := List.exists_cons_of_ne_nil hne
  rfl

theorem startsWith_tokenPattern (h : Words text words) :
    StartsWith Visible (tokenPattern words) := by
  have hliteral : ∀ {word : List Char}, word ≠ [] → (∀ c ∈ word, Visible c) →
      StartsWith Visible (Pattern.literal word) := by
    intro word hne hword
    obtain ⟨c, rest, rfl⟩ := List.exists_cons_of_ne_nil hne
    exact startsWith_literal (hword c List.mem_cons_self)
  cases h with
  | word hne hword => exact hliteral hne hword
  | cons hne hword hgap hspaces htext =>
    rw [tokenPattern_cons _ htext.ne_nil]
    exact (hliteral hne hword).seq

theorem takeWhile_spaces {gap back : List Char} (hgap : ∀ c ∈ gap, isPySpace c = true)
    (hback : ∃ c rest, back = c :: rest ∧ Visible c) : (gap ++ back).takeWhile isPySpace = gap := by
  obtain ⟨c, rest, rfl, hvisible⟩ := hback
  rw [List.takeWhile_append_of_pos hgap,
    List.takeWhile_cons_of_neg (by rw [hvisible]; exact Bool.false_ne_true), List.append_nil]

/-- Words match their pattern, and nothing more or less. -/
theorem tokenPattern_ends (h : Words text words) (before : Option Char) (rest : List Char)
    (groups : List (List Char)) : (tokenPattern words).ends ⟨before, text ++ rest, groups⟩ ≠ [] ∧
      ∀ d ∈ (tokenPattern words).ends ⟨before, text ++ rest, groups⟩, d.rest = rest := by
  induction h generalizing before groups with
  | @word word hne hword =>
    obtain ⟨before', hends⟩ := ends_literal word before rest groups
    have hpattern : tokenPattern [word] = .literal word := rfl
    rw [hpattern, hends]
    exact ⟨List.cons_ne_nil _ _, fun d hd => by rw [List.mem_singleton.mp hd]⟩
  | @cons word gap text words hne hword hgap hspaces htext ih =>
    obtain ⟨before', hends⟩ := ends_literal word before (gap ++ (text ++ rest)) groups
    have hback : ∃ c back, text ++ rest = c :: back ∧ Visible c := by
      obtain ⟨c, back, rfl, hvisible⟩ := htext.head
      exact ⟨c, back ++ rest, rfl, hvisible⟩
    rw [List.append_assoc, List.append_assoc, tokenPattern_cons _ htext.ne_nil]
    simp only [ends, hends, List.flatMap_cons, List.flatMap_nil, List.append_nil]
    constructor
    · obtain ⟨before'', hmem⟩ :=
        exists_mem_ends_plus_char (c := ⟨before', gap ++ (text ++ rest), groups⟩) rfl hspaces
        (List.length_pos_iff.mpr hgap)
      obtain ⟨d, hd⟩ := List.exists_mem_of_ne_nil _ (ih before'' groups).1
      exact List.ne_nil_of_mem (List.mem_flatMap.mpr ⟨_, hmem, hd⟩)
    · intro d hd
      obtain ⟨e, he, hd⟩ := List.mem_flatMap.mp hd
      obtain ⟨run, hrun, hall, -⟩ := mem_ends_plus_char he
      -- The white space is used up to the next word, which starts with a visible character.
      have hstart : ∃ c back, e.rest = c :: back ∧ Visible c := by
        obtain ⟨c, back, hc, hvisible, -⟩ := startsWith_tokenPattern htext e d hd
        exact ⟨c, back, hc, hvisible⟩
      have hgapRun : gap = run := by
        have := congrArg (List.takeWhile isPySpace) hrun
        rwa [takeWhile_spaces hspaces hback, takeWhile_spaces hall hstart] at this
      obtain ⟨before'', back, groups'⟩ := e
      have hrest : text ++ rest = back := List.append_cancel_left (hgapRun ▸ hrun)
      subst hrest
      exact (ih before'' groups').2 d hd

/-- So the match of a text's own tokens at its place ends where the text does. -/
theorem matchAt_tokenPattern {start stop : Nat} (h : Words (slice text start stop) words)
    (hle : start ≤ stop) (hstop : stop ≤ text.length) :
    ∃ groups, (tokenPattern words).matchAt text start = some ⟨stop - start, groups⟩ := by
  have hsplit : text.drop start = slice text start stop ++ text.drop stop := by
    have := slice_append text hle hstop
    unfold slice at this ⊢
    rw [List.take_length] at this
    exact this.symm
  obtain ⟨hne, hends⟩ := tokenPattern_ends h (if start = 0 then none else text[start - 1]?)
    (text.drop stop) []
  obtain ⟨d, ds, hd⟩ := List.exists_cons_of_ne_nil hne
  refine ⟨d.groups, ?_⟩
  unfold matchAt match?
  rw [hsplit, hd, List.head?_cons, Option.map_some, hends d (hd ▸ List.mem_cons_self),
    List.length_append, length_slice, Nat.min_eq_left hstop, Nat.add_sub_cancel]

end

/-! ### Searches -/

/-- The chunk stands in the text, as it is. -/
def OccursAt (text chunk : List Char) (start : Nat) : Prop :=
  (text.drop start).take chunk.length = chunk

/-- No unit was joined to another in this chunk. -/
def unjoined (chunk : List Mark) : Bool := chunk.all fun a => a.2.isSome

section

variable {text chunk : List Char} {lowerBound : Nat}

theorem strFind_eq_some {p : Nat} : strFind text chunk lowerBound = some p ↔
    lowerBound ≤ p ∧ p ≤ text.length ∧ OccursAt text chunk p ∧ ∀ q, lowerBound ≤ q → q < p →
    ¬OccursAt text chunk q := by
  unfold strFind
  rw [List.find?_range_eq_some, Bool.and_eq_true, decide_eq_true_eq, decide_eq_true_eq,
    List.mem_range]
  simp only [Bool.not_eq_true', Bool.and_eq_false_iff, decide_eq_false_iff_not]
  constructor
  · rintro ⟨⟨hle, hoccurs⟩, hlt, hleast⟩
    exact ⟨hle, Nat.le_of_lt_succ hlt, hoccurs, fun q hq hqp => (hleast q hqp).resolve_left
      (not_not.mpr hq)⟩
  · rintro ⟨hle, hlt, hoccurs, hleast⟩
    refine ⟨⟨hle, hoccurs⟩, Nat.lt_succ_of_le hlt, fun q hqp => ?_⟩
    by_cases hq : lowerBound ≤ q
    · exact .inr (hleast q hq hqp)
    · exact .inl hq

theorem strFind_eq_none : strFind text chunk lowerBound = none ↔
    ∀ p, lowerBound ≤ p → p ≤ text.length → ¬OccursAt text chunk p := by
  unfold strFind
  rw [List.find?_range_eq_none]
  simp only [Bool.not_eq_true', Bool.and_eq_false_iff, decide_eq_false_iff_not]
  constructor
  · intro h p hle hlt
    exact (h p (Nat.lt_succ_of_le hlt)).resolve_left (not_not.mpr hle)
  · intro h p hlt
    by_cases hle : lowerBound ≤ p
    · exact .inr (h p hle (Nat.le_of_lt_succ hlt))
    · exact .inl hle

theorem OccursAt.lt {p : Nat} (h : OccursAt text chunk p) (hne : chunk ≠ []) : p < text.length := by
  have hlength := congrArg List.length h
  rw [List.length_take, List.length_drop] at hlength
  have := List.length_pos_iff.mpr hne
  omega

end

section

variable {text : List Char} {start stop : Nat} {chunk : List Mark}

/-- A chunk of one unit is a slice of the source. -/
theorem Trace.chars_eq (h : Trace text start chunk stop) (hstop : stop ≤ text.length)
    (hunjoined : unjoined chunk = true) : chars chunk = slice text start stop := by
  induction h with
  | nil start => rw [slice_self]; rfl
  | @char start stop c chunk hc htrace ih =>
    have hle := htrace.le
    obtain ⟨hlt, hget⟩ := List.getElem?_eq_some_iff.mp hc
    rw [slice_cons (by omega) hlt, hget, ← ih hstop hunjoined]
    rfl
  | gap => cases hunjoined

/-- A visible place is read as it is. -/
theorem Trace.head_visible (h : Trace text start chunk stop) (hvisible : VisibleAt text start)
    (hne : chunk ≠ []) : ∃ c rest, chunk = (c, some start) :: rest ∧ Visible c := by
  cases h with
  | nil => exact absurd rfl hne
  | @char _ _ c chunk hc htrace =>
    obtain ⟨d, hd, hvisible⟩ := hvisible
    have : c = d := Option.some.inj (hc.symm.trans hd)
    exact ⟨c, chunk, rfl, this ▸ hvisible⟩
  | gap hle hblank => exact absurd hvisible (hblank start (le_refl _) (by omega))

/-- A joined chunk does not stand in the source where it was read: it has one blank where the source
has more. -/
theorem Trace.not_occursAt (h : Trace text start chunk stop)
    (hlast : ∃ a, chunk.getLast? = some a ∧ Visible a.1) (hjoined : unjoined chunk = false) :
    ¬OccursAt text (chars chunk) start := by
  induction h with
  | nil => cases hjoined
  | @char start stop c chunk hc htrace ih =>
    intro hoccurs
    have hlt : start < text.length := (List.getElem?_eq_some_iff.mp hc).1
    have hne : chunk ≠ [] := by
      rintro rfl
      cases hjoined
    rw [List.getLast?_cons_of_ne_nil hne] at hlast
    refine ih hlast hjoined ?_
    unfold OccursAt at hoccurs ⊢
    rw [List.drop_eq_getElem_cons hlt] at hoccurs
    exact (List.cons.inj hoccurs).2
  | @gap start next stop chunk hle hblank hvisible htrace ih =>
    intro hoccurs
    have hlength := hvisible.lt
    have hne : chunk ≠ [] := by
      rintro rfl
      obtain ⟨a, ha, hvisible⟩ := hlast
      cases ha
      cases hvisible
    obtain ⟨c, rest, rfl, hc⟩ := htrace.head_visible hvisible hne
    refine hblank (start + 1) (Nat.le_succ _) (by omega) ⟨c, ?_, hc⟩
    unfold OccursAt at hoccurs
    rw [List.drop_eq_getElem_cons (by omega), List.drop_eq_getElem_cons (by omega)] at hoccurs
    have hsecond := (List.cons.inj (List.cons.inj hoccurs).2).1
    rw [List.getElem?_eq_getElem (by omega), hsecond]

theorem stripped_slice (hlt : start < stop) (hstart : VisibleAt text start)
    (hlast : VisibleAt text (stop - 1)) : Stripped id (slice text start stop) := by
  obtain ⟨c, hc, hfirst⟩ := hstart
  obtain ⟨d, hd, hvisible⟩ := hlast
  have hstop : stop - 1 < text.length := (List.getElem?_eq_some_iff.mp hd).1
  refine ⟨⟨c, ?_, hfirst⟩, d, ?_, hvisible⟩
  · rw [List.head?_eq_getElem?, getElem?_slice, Nat.add_zero, if_pos hlt]
    exact hc
  · rw [List.getLast?_eq_getElem?, length_slice, getElem?_slice, if_pos (by omega),
      show start + (min stop text.length - start - 1) = stop - 1 by omega]
    exact hd

theorem Solid.chars_stripped (h : Solid text start chunk stop) : Stripped id (chars chunk) := by
  obtain ⟨a, ha, hfirst⟩ := h.stripped.first
  obtain ⟨b, hb, hlast⟩ := h.stripped.last
  refine ⟨⟨a.1, ?_, hfirst⟩, b.1, ?_, hlast⟩
  · rw [chars, List.head?_map, ha]
    rfl
  · rw [chars, List.getLast?_map, hb]
    rfl

/-- The tokens of a chunk are the words of the source where it was read. -/
theorem Solid.words (h : Solid text start chunk stop) :
    Words (slice text start stop) (tokens (chars chunk)) := by
  have htokens : tokens (chars chunk) = splitTokens (slice text start stop) := by
    have := h.trace.splitTokens_eq h.stop_le []
    rw [List.nil_append, List.nil_append] at this
    rw [← this]
    unfold tokens strip
    rw [h.chars_stripped.stripBy_eq]
  rw [htokens]
  exact words_splitTokens (stripped_slice h.lt h.visible_start h.visible_last)

/-- What the search needs to find a chunk where it was read: the lower bound has not passed that
place, and nothing before it looks the same. A joined chunk is searched by its tokens, once it is
found nowhere as it is. -/
def Findable (text : List Char) (lowerBound : Nat) (chunk : List Mark) (start : Nat) : Prop :=
  lowerBound ≤ start ∧
    if unjoined chunk then ∀ p, lowerBound ≤ p → p < start → ¬OccursAt text (chars chunk) p
    else (∀ p, lowerBound ≤ p → ¬OccursAt text (chars chunk) p) ∧
      ∀ p, lowerBound ≤ p → p < start → (tokenPattern (tokens (chars chunk))).matchAt text p = none

theorem Solid.occursAt (h : Solid text start chunk stop) (hunjoined : unjoined chunk = true) :
    OccursAt text (chars chunk) start ∧ (chars chunk).length = stop - start := by
  have hchars := h.trace.chars_eq h.stop_le hunjoined
  have hlength : (chars chunk).length = stop - start := by
    rw [hchars, length_slice, Nat.min_eq_left h.stop_le]
  refine ⟨?_, hlength⟩
  unfold OccursAt
  rw [hlength, hchars]
  unfold slice
  rw [List.drop_take]

theorem Solid.chars_ne_nil (h : Solid text start chunk stop) : chars chunk ≠ [] :=
  fun hnil => h.ne_nil (List.map_eq_nil_iff.mp hnil)

/-- The search finds a chunk where it was read exactly if that is findable. -/
theorem locate_eq_own_iff (h : Solid text start chunk stop) (lowerBound : Nat) :
    locate text (chars chunk) lowerBound = some ⟨start, stop⟩ ↔
    Findable text lowerBound chunk start := by
  have hlt := h.lt
  have hstop := h.stop_le
  obtain ⟨groups, hmatch⟩ := matchAt_tokenPattern h.words (le_of_lt hlt) hstop
  have htokens : ¬(tokens (chars chunk)).isEmpty = true := by
    rw [List.isEmpty_iff]
    exact h.words.ne_nil
  unfold Findable locate
  cases hjoined : unjoined chunk with
  | true =>
    obtain ⟨hoccurs, hlength⟩ := h.occursAt hjoined
    rw [if_pos rfl]
    constructor
    · intro hlocate
      cases hfind : strFind text (chars chunk) lowerBound with
      | some p =>
        obtain ⟨hle, -, -, hleast⟩ := strFind_eq_some.mp hfind
        rw [hfind] at hlocate
        have hp : p = start := congrArg Span.start (Option.some.inj hlocate)
        exact ⟨hp ▸ hle, hp ▸ hleast⟩
      | none =>
        rw [hfind] at hlocate
        simp only [if_neg htokens] at hlocate
        obtain ⟨found, hfound, hspan⟩ := Option.map_eq_some_iff.mp hlocate
        have hstart : found.start = start := congrArg Span.start hspan
        have hle := (head?_findAll.mp hfound).1
        exact absurd hoccurs (strFind_eq_none.mp hfind start (hstart ▸ hle) (by omega))
    · rintro ⟨hle, hleast⟩
      have hfind := strFind_eq_some.mpr ⟨hle, by omega, hoccurs, hleast⟩
      rw [hfind, hlength]
      simp only [Nat.add_sub_cancel' (le_of_lt hlt)]
  | false =>
    have hnot := h.trace.not_occursAt h.stripped.last hjoined
    rw [if_neg Bool.false_ne_true]
    constructor
    · intro hlocate
      cases hfind : strFind text (chars chunk) lowerBound with
      | some p =>
        obtain ⟨-, -, hoccurs, -⟩ := strFind_eq_some.mp hfind
        rw [hfind] at hlocate
        have hp : p = start := congrArg Span.start (Option.some.inj hlocate)
        exact absurd (hp ▸ hoccurs) hnot
      | none =>
        rw [hfind] at hlocate
        simp only [if_neg htokens] at hlocate
        obtain ⟨found, hfound, hspan⟩ := Option.map_eq_some_iff.mp hlocate
        have hstart : found.start = start := congrArg Span.start hspan
        obtain ⟨hle, -, -, -, hleast⟩ := head?_findAll.mp hfound
        rw [hstart] at hle hleast
        refine ⟨hle, fun p hp hoccurs => ?_, fun p hp hpstart => ?_⟩
        · exact strFind_eq_none.mp hfind p hp (le_of_lt (hoccurs.lt h.chars_ne_nil)) hoccurs
        · cases hm : (tokenPattern (tokens (chars chunk))).matchAt text p with
          | none => rfl
          | some m =>
            have hpos := (startsWith_tokenPattern h.words).length_pos hm
            have hzero := hleast p hp hpstart m hm
            omega
    · rintro ⟨hle, hnowhere, hleast⟩
      have hfind := strFind_eq_none.mpr fun p hp _ => hnowhere p hp
      have hfound : ((tokenPattern (tokens (chars chunk))).findAll text lowerBound
          text.length).head? = some ⟨⟨stop - start, groups⟩, start⟩ := by
        refine head?_findAll.mpr ⟨hle, hlt.trans_le hstop, Nat.sub_pos_of_lt hlt, hmatch,
          fun q hq hqs m' hm' => ?_⟩
        rw [hleast q hq hqs] at hm'
        cases hm'
      rw [hfind]
      simp only [if_neg htokens, hfound, Option.map_some, Found.stop,
        Nat.add_sub_cancel' (le_of_lt hlt)]

end

/-! ### The loop -/

/-- Every search of the loop finds its chunk where it was read. -/
def Clear (config : FixedConfig) (text : List Char) : Nat → List (List Mark) → Prop
  | _, [] => True
  | lowerBound, chunk :: chunks => ∃ own, ownSpan chunk = some own ∧
      Findable text lowerBound chunk own.start ∧
      Clear config text (nextLowerBound config own chunk.length) chunks

section

variable {text : List Char} {sections : List SectionSpan} {config : FixedConfig}

/-- Each offset of the text is in a section. -/
theorem exists_section (hsections : Tiles 0 (sections.map (·.toSpan)) text.length) {i : Nat}
    (hi : i < text.length) :
    ∃ part, (sections.find? fun part => decide (part.start ≤ i) && decide (i < part.stop)) =
      some part := by
  obtain ⟨span, hspan, hmem⟩ := hsections.covers (p := fun _ => True) i (Nat.zero_le i) hi trivial
  obtain ⟨part, hpart, rfl⟩ := List.mem_map.mp hspan
  refine Option.isSome_iff_exists.mp (List.find?_isSome.mpr ⟨part, hpart, ?_⟩)
  rw [Bool.and_eq_true, decide_eq_true_eq, decide_eq_true_eq]
  exact hmem

/-- The sections of a chunk are never missing. -/
theorem fixedChunk_ok (hsections : Tiles 0 (sections.map (·.toSpan)) text.length) {span : Span}
    (hlt : span.start < span.stop) (hstop : span.stop ≤ text.length) :
    ∃ chunk, fixedChunk text sections span = .ok chunk ∧ spanOf chunk = span := by
  obtain ⟨first, hfirst⟩ := exists_section hsections (show span.start < text.length by omega)
  obtain ⟨last, hlast⟩ :=
    exists_section hsections (show max span.start (span.stop - 1) < text.length by omega)
  unfold fixedChunk
  simp only [hfirst, hlast]
  exact ⟨_, rfl, rfl⟩

/-- A chunk carries the source text of its span. -/
theorem fixedChunk_spec {span : Span} {chunk : RawChunk}
    (h : fixedChunk text sections span = .ok chunk) :
    spanOf chunk = span ∧ chunk.text.toList = slice text chunk.sourceStart chunk.sourceEnd := by
  unfold fixedChunk at h
  dsimp only at h
  split at h
  · split at h
    · cases h
      exact ⟨rfl, String.toList_ofList⟩
    · cases h
  · cases h

theorem locateFrom_cons {lowerBound : Nat} {chunk : List Char} {chunks : List (List Char)}
    {found : List RawChunk}
    (h : locateFrom config text sections lowerBound (chunk :: chunks) = .ok found) :
    ∃ span first rest, locate text chunk lowerBound = some span ∧
      fixedChunk text sections span = .ok first ∧
      locateFrom config text sections (nextLowerBound config span chunk.length) chunks = .ok rest ∧
      found = first :: rest := by
  unfold locateFrom at h
  split at h
  · rename_i span hspan
    obtain ⟨first, hfirst, h⟩ := bind_eq_ok.mp h
    obtain ⟨rest, hrest, h⟩ := bind_eq_ok.mp h
    exact ⟨span, first, rest, hspan, hfirst, hrest, (pure_eq_ok.mp h).symm⟩
  · cases h

theorem locateFrom_of_ok {lowerBound : Nat} {chunk : List Char} {chunks : List (List Char)}
    {span : Span} {first : RawChunk} {rest : List RawChunk}
    (hspan : locate text chunk lowerBound = some span)
    (hfirst : fixedChunk text sections span = .ok first)
    (hrest : locateFrom config text sections (nextLowerBound config span chunk.length) chunks =
      .ok rest) :
    locateFrom config text sections lowerBound (chunk :: chunks) = .ok (first :: rest) := by
  unfold locateFrom
  simp only [hspan]
  exact bind_eq_ok.mpr ⟨first, hfirst, bind_eq_ok.mpr ⟨rest, hrest, rfl⟩⟩

theorem locateFrom_exact {lowerBound : Nat} {chunks : List (List Char)} {found : List RawChunk}
    (h : locateFrom config text sections lowerBound chunks = .ok found) {chunk : RawChunk}
    (hchunk : chunk ∈ found) :
    chunk.text.toList = slice text chunk.sourceStart chunk.sourceEnd := by
  induction chunks generalizing lowerBound found with
  | nil =>
    cases h
    cases hchunk
  | cons first chunks ih =>
    obtain ⟨span, firstFound, rest, -, hfirst, hrest, rfl⟩ := locateFrom_cons h
    rcases List.mem_cons.mp hchunk with rfl | hchunk
    · exact (fixedChunk_spec hfirst).2
    · exact ih hrest hchunk

/-- The loop returns every chunk where it was read exactly if every search is clear. -/
theorem locateFrom_iff (hsections : Tiles 0 (sections.map (·.toSpan)) text.length)
    {chunks : List (List Mark)}
    (hchunks : ∀ chunk ∈ chunks, chunk = [] ∨ ∃ start stop, Solid text start chunk stop)
    {lowerBound : Nat} :
    (∃ found, locateFrom config text sections lowerBound (chunks.map chars) = .ok found ∧
      found.map (fun chunk => some (spanOf chunk)) = chunks.map ownSpan) ↔
      Clear config text lowerBound chunks := by
  induction chunks generalizing lowerBound with
  | nil => exact ⟨fun _ => trivial, fun _ => ⟨[], rfl, rfl⟩⟩
  | cons chunk chunks ih =>
    have ih := fun {lowerBound : Nat} =>
      @ih (fun other hother => hchunks other (List.mem_cons_of_mem _ hother)) lowerBound
    have hlength : (chars chunk).length = chunk.length := List.length_map _
    constructor
    · rintro ⟨found, hfound, hspans⟩
      obtain ⟨span, first, rest, hspan, hfirst, hrest, rfl⟩ := locateFrom_cons hfound
      obtain ⟨hown, hspans⟩ := List.cons.inj hspans
      dsimp only at hown
      rw [(fixedChunk_spec hfirst).1] at hown
      rcases hchunks chunk List.mem_cons_self with rfl | ⟨start, stop, hsolid⟩
      · cases hown
      · rw [hsolid.ownSpan_eq] at hown
        have hspanEq : span = ⟨start, stop⟩ := Option.some.inj hown
        subst hspanEq
        refine ⟨_, hsolid.ownSpan_eq, (locate_eq_own_iff hsolid lowerBound).mp hspan, ?_⟩
        rw [← hlength]
        exact ih.mp ⟨rest, hrest, hspans⟩
    · rintro ⟨own, hown, hfindable, hclear⟩
      rcases hchunks chunk List.mem_cons_self with rfl | ⟨start, stop, hsolid⟩
      · cases hown
      · have hownEq : own = ⟨start, stop⟩ := Option.some.inj (hown.symm.trans hsolid.ownSpan_eq)
        subst hownEq
        rw [← hlength] at hclear
        obtain ⟨rest, hrest, hspans⟩ := ih.mpr hclear
        obtain ⟨first, hfirst, hspan⟩ :=
          @fixedChunk_ok _ _ hsections ⟨start, stop⟩ hsolid.lt hsolid.stop_le
        refine ⟨first :: rest, ?_, ?_⟩
        · exact locateFrom_of_ok ((locate_eq_own_iff hsolid lowerBound).mpr hfindable) hfirst hrest
        · rw [List.map_cons, List.map_cons, hspan, hown, hspans]

end

/-! ### The strategy -/

/-- The fixed strategy does its work: it returns, no chunk is blank, every visible character lies in
a chunk, and each chunk is where it was read, so that the chunks start one after the other. -/
structure SplitsFixed (unicode : UnicodeTables) (text : List Char) (chunks : List RawChunk) :
    Prop where
  returned : splitText unicode text "fixed_boundary_v1" = .ok chunks
  visible : ∀ chunk ∈ chunks, isBlank chunk.text.toList = false
  covered : ∀ i, VisibleAt text i → ∃ chunk ∈ chunks, chunk.sourceStart ≤ i ∧ i < chunk.sourceEnd
  mapped : chunks.map (fun chunk => some (spanOf chunk)) =
    (markedChunks fixedConfig text).map ownSpan
  ordered : chunks.Pairwise fun a b => a.sourceStart ≤ b.sourceStart

theorem Sweep.pairwise {text : List Char} {floor reach : Nat} {chunks : List (List Mark)}
    (h : Sweep text floor reach chunks) :
    (chunks.filterMap ownSpan).Pairwise fun a b => a.start ≤ b.start := by
  induction h with
  | nil => exact List.Pairwise.nil
  | empty hchunks ih => exact ih
  | cons hfloor hblank hsolid hchunks ih =>
    rw [List.filterMap_cons_some hsolid.ownSpan_eq]
    refine List.Pairwise.cons (fun span hspan => ?_) ih
    obtain ⟨chunk, hchunk, hown⟩ := List.mem_filterMap.mp hspan
    rcases hchunks.solid hchunk with rfl | ⟨start, stop, hle, hsolid'⟩
    · cases hown
    · rw [hsolid'.ownSpan_eq] at hown
      cases hown
      exact hle

/-- Of text that is not blank, the strategy makes what its loop finds, if that is exact. -/
theorem splitText_fixed {unicode : UnicodeTables} {text : List Char} {chunks : List RawChunk}
    (hvisible : isBlank text = false) :
    splitText unicode text "fixed_boundary_v1" = .ok chunks ↔
      splitFixed unicode fixedConfig text = .ok chunks ∧ chunks ≠ [] := by
  have hstrategy : Strategy.ofString? "fixed_boundary_v1" = some .fixedBoundary := by decide
  unfold splitText
  simp only [hstrategy, hvisible, Bool.false_eq_true, if_false, splitBy]
  rw [bind_eq_ok]
  constructor
  · rintro ⟨found, hfound, h⟩
    split at h
    · cases h
    · rename_i hempty
      split at h
      · cases h
        exact ⟨hfound, fun hnil => hempty (List.isEmpty_iff.mpr hnil)⟩
      · cases h
  · rintro ⟨hfound, hne⟩
    refine ⟨chunks, hfound, ?_⟩
    have hexact : (chunks.all fun chunk => decide (slice text chunk.sourceStart chunk.sourceEnd =
        chunk.text.toList)) =
        true := by
      rw [List.all_eq_true]
      exact fun chunk hchunk => decide_eq_true (locateFrom_exact hfound hchunk).symm
    rw [if_neg (by rw [List.isEmpty_iff]; exact hne), if_pos hexact]
    rfl

/-- The fixed strategy does its work on exactly the texts in which every search is clear. -/
theorem splitText_fixed_iff (unicode : UnicodeTables) (text : List Char)
    (hvisible : isBlank text = false) : (∃ chunks, SplitsFixed unicode text chunks) ↔
    Clear fixedConfig text 0 (markedChunks fixedConfig text) := by
  have hsections := (sectionSpans_tiles unicode text false).1
  have hsweep := markedChunks_sweep fixedConfig text
  have hsolid : ∀ chunk ∈ markedChunks fixedConfig text, chunk = [] ∨ ∃ start stop,
      Solid text start chunk stop := by
    intro chunk hchunk
    rcases hsweep.solid hchunk with hnil | ⟨start, stop, -, hsolid⟩
    · exact .inl hnil
    · exact .inr ⟨start, stop, hsolid⟩
  rw [← locateFrom_iff hsections hsolid]
  constructor
  · rintro ⟨chunks, h⟩
    have hfound := ((splitText_fixed hvisible).mp h.returned).1
    unfold splitFixed at hfound
    rw [chunkText_marked] at hfound
    exact ⟨chunks, hfound, h.mapped⟩
  · rintro ⟨chunks, hfound, hmapped⟩
    -- Each returned chunk is where some chunk was read.
    have hown : ∀ chunk ∈ chunks, ∃ marks ∈ markedChunks fixedConfig text,
        ownSpan marks = some (spanOf chunk) := by
      intro chunk hchunk
      have := List.mem_map_of_mem (f := fun chunk => some (spanOf chunk)) hchunk
      rw [hmapped] at this
      exact List.mem_map.mp this
    have hback : ∀ marks ∈ markedChunks fixedConfig text, ∀ own, ownSpan marks = some own →
        ∃ chunk ∈ chunks, spanOf chunk = own := by
      intro marks hmarks own hown
      have := List.mem_map_of_mem (f := ownSpan) hmarks
      rw [← hmapped, hown] at this
      obtain ⟨chunk, hchunk, hspan⟩ := List.mem_map.mp this
      exact ⟨chunk, hchunk, Option.some.inj hspan⟩
    have hcovered : ∀ i, VisibleAt text i → ∃ chunk ∈ chunks, chunk.sourceStart ≤ i ∧
        i < chunk.sourceEnd := by
      intro i hi
      obtain ⟨marks, hmarks, own, hown, hmem⟩ := hsweep.covers (Nat.zero_le i) hi
      obtain ⟨chunk, hchunk, rfl⟩ := hback marks hmarks own hown
      exact ⟨chunk, hchunk, hmem⟩
    have hne : chunks ≠ [] := by
      rw [← slice_all text, isBlank_slice_eq_false] at hvisible
      obtain ⟨i, c, -, -, hi, hc⟩ := hvisible
      obtain ⟨chunk, hchunk, -⟩ := hcovered i ⟨c, hi, hc⟩
      exact List.ne_nil_of_mem hchunk
    have hreturned : splitFixed unicode fixedConfig text = .ok chunks := by
      unfold splitFixed
      rw [chunkText_marked]
      exact hfound
    refine ⟨chunks, (splitText_fixed hvisible).mpr ⟨hreturned, hne⟩, ?_, hcovered, hmapped, ?_⟩
    · intro chunk hchunk
      obtain ⟨marks, hmarks, hspan⟩ := hown chunk hchunk
      rw [locateFrom_exact hfound hchunk, isBlank_slice_eq_false]
      rcases hsolid marks hmarks with rfl | ⟨start, stop, hsolid⟩
      · cases hspan
      · rw [hsolid.ownSpan_eq] at hspan
        have hstart : start = chunk.sourceStart := congrArg Span.start (Option.some.inj hspan)
        have hstop : stop = chunk.sourceEnd := congrArg Span.stop (Option.some.inj hspan)
        obtain ⟨c, hc, hcvisible⟩ := hsolid.visible_start
        exact ⟨start, c, le_of_eq hstart.symm, hstop ▸ hsolid.lt, hc, hcvisible⟩
    · have hspans : chunks.map spanOf = (markedChunks fixedConfig text).filterMap ownSpan := by
        have := congrArg (List.filterMap id) hmapped
        rw [List.filterMap_map, List.filterMap_map] at this
        rw [← List.filterMap_eq_map]
        exact this
      have := hsweep.pairwise
      rw [← hspans, List.pairwise_map] at this
      exact this

/-! ### Two texts -/

/-- One sentence is one unit and one chunk, and is found where it is. -/
theorem splitText_fixed_sentence :
    ∃ chunks, SplitsFixed asciiTables "Hello world.".toList chunks := by
  refine (splitText_fixed_iff asciiTables "Hello world.".toList (by decide)).mpr ?_
  have hspans : (markedChunks fixedConfig "Hello world.".toList).map ownSpan = [some ⟨0, 12⟩] := by
    decide +kernel
  obtain ⟨chunk, rest, hchunks, hown, hrest⟩ := List.map_eq_cons_iff.mp hspans
  rw [hchunks, List.map_eq_nil_iff.mp hrest]
  refine ⟨_, hown, ⟨le_refl 0, ?_⟩, trivial⟩
  split
  · exact fun p _ hp => absurd hp (Nat.not_lt_zero p)
  · rename_i hjoined
    exact absurd (by decide +kernel : (markedChunks fixedConfig "Hello world.".toList).all
      unjoined = true) (by rw [hchunks]; simp [hjoined])

/-- Three paragraphs of 900, 100 and 100 letters. -/
def threeParagraphs : List Char :=
  List.replicate 900 'a' ++ "\n\n".toList ++ List.replicate 100 'b' ++ "\n\n".toList ++
    List.replicate 100 'c'

/-- The first chunk joins two paragraphs. The last 200 of its characters are 201 characters of the
source, so the second chunk starts one character before its search does. -/
theorem splitText_fixed_fails : ¬∃ chunks, SplitsFixed asciiTables threeParagraphs chunks := by
  have hvisible : isBlank threeParagraphs = false := by decide +kernel
  have hspans : (markedChunks fixedConfig threeParagraphs).map
      (fun chunk => (ownSpan chunk, chunk.length)) =
        [(some ⟨0, 1002⟩, 1001), (some ⟨801, 1104⟩, 301)] := by decide +kernel
  rw [splitText_fixed_iff asciiTables threeParagraphs hvisible]
  obtain ⟨first, rest, hchunks, hfirst, hrest⟩ := List.map_eq_cons_iff.mp hspans
  obtain ⟨second, rest, hsecondEq, hsecond, -⟩ := List.map_eq_cons_iff.mp hrest
  rw [hchunks, hsecondEq]
  rintro ⟨own, hown, -, own', hown', hfindable, -⟩
  obtain ⟨hspan, hlength⟩ := Prod.ext_iff.mp hfirst
  have hspan' := (Prod.ext_iff.mp hsecond).1
  dsimp only at hspan hlength hspan'
  have howneq : own = ⟨0, 1002⟩ := Option.some.inj (hown.symm.trans hspan)
  have howneq' : own' = ⟨801, 1104⟩ := Option.some.inj (hown'.symm.trans hspan')
  have hle := hfindable.1
  rw [howneq, howneq', hlength] at hle
  exact absurd hle (by decide)

end ZhiyanRag.Ingestion
