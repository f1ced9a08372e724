import ZhiyanRag.Ingestion.FixedSplit

/-!
# Where the fixed strategy cuts

`_split_units` splits a text at the matches of `BOUNDARY_RE` and then asks of every part whether it
is a boundary on its own. White space after a full stop is none: the pattern looks back at the full
stop, which is in the part before. `splitUnits_iff` says for which texts the units are what the
pattern cuts.
-/

namespace ZhiyanRag.Ingestion

open Regex Spans

/-! ### What the pattern matches -/

/-- `[.!?;:]`. -/
def endsClause (c : Char) : Bool := ".!?;:".toList.contains c

/-- `BOUNDARY_RE` matches at an offset: a paragraph break, or white space after a full stop. -/
def BoundaryAt (text : List Char) (i : Nat) : Prop :=
  text[i]? = some '\n' ∧ text[i + 1]? = some '\n' ∨
    0 < i ∧ (text[i - 1]?.any endsClause) = true ∧ (text[i]?.any isPySpace) = true

section

variable {text : List Char} {i : Nat} {m : Match Char}

/-- A match is a paragraph break, or all the white space after a full stop. -/
theorem boundary_match? {before : Option Char} {rest : List Char}
    (h : boundary.match? before rest = some m) :
    (∃ run, rest = run ++ rest.drop m.length ∧ run.length = m.length ∧ 2 ≤ m.length ∧ ∀ c ∈ run,
      c = '\n') ∨ before.any endsClause = true ∧ (∀ tail, rest ≠ '\n' :: '\n' :: tail) ∧
        ∃ run, rest = run ++ rest.drop m.length ∧ run.length = m.length ∧ 1 ≤ m.length ∧
          (∀ c ∈ run, isPySpace c = true) ∧ ∀ c, (rest.drop m.length).head? = some c →
          isPySpace c = false := by
  have hdrop : ∀ {run tail : List Char}, rest = run ++ tail →
      rest.drop (rest.length - tail.length) = tail ∧ run.length = rest.length - tail.length := by
    rintro run tail rfl
    rw [List.length_append, Nat.add_sub_cancel, List.drop_left]
    exact ⟨rfl, rfl⟩
  obtain ⟨d, hd, rfl⟩ := Option.map_eq_some_iff.mp h
  change (Pattern.ends _ _ ++ Pattern.ends _ _).head? = some d at hd
  rw [List.head?_append] at hd
  rcases Option.or_eq_some_iff.mp hd with hbreak | ⟨hnobreak, hspace⟩
  · left
    obtain ⟨e, he, hd⟩ := List.mem_flatMap.mp (List.mem_of_head? hbreak)
    obtain ⟨a, back, hrest, ha, rfl⟩ := Pattern.mem_ends_char.mp he
    obtain ⟨run, hrun, hall, hlength⟩ := Pattern.mem_ends_plus_char hd
    have hrest : rest = a :: back := hrest
    have hback : back = run ++ d.rest := hrun
    have heq : rest = (a :: run) ++ d.rest := by rw [hrest, hback, List.cons_append]
    obtain ⟨htail, hcount⟩ := hdrop heq
    refine ⟨a :: run, ?_, hcount, ?_, ?_⟩
    · show rest = a :: run ++ rest.drop (rest.length - d.rest.length)
      rw [htail]
      exact heq
    · show 2 ≤ rest.length - d.rest.length
      rw [← hcount, List.length_cons]
      omega
    · intro c hc
      rcases List.mem_cons.mp hc with rfl | hc
      · exact of_decide_eq_true ha
      · exact of_decide_eq_true (hall c hc)
  · right
    by_cases hbefore : before.any endsClause = true
    · refine ⟨hbefore, fun tail htail => ?_, ?_⟩
      · have hrun : (⟨some '\n', '\n' :: tail, []⟩ : Cursor Char).rest = ['\n'] ++ tail := rfl
        obtain ⟨last, hmem⟩ : ∃ last, ⟨last, tail, []⟩ ∈
            (Pattern.plus (exactly '\n')).ends ⟨some '\n', '\n' :: tail, []⟩ :=
          Pattern.exists_mem_ends_plus_char hrun
            (fun a ha => by rw [List.mem_singleton.mp ha]; decide) (Nat.le_refl 1)
        refine List.ne_nil_of_mem (List.mem_flatMap.mpr ⟨_, ?_, hmem⟩)
          (List.head?_eq_none_iff.mp hnobreak)
        exact Pattern.mem_ends_char.mpr ⟨'\n', _, htail, by decide, rfl⟩
      have hends : (Pattern.seq (after ".!?;:") (.plus space)).ends ⟨before, rest, []⟩ =
          (Pattern.plus space).ends ⟨before, rest, []⟩ := by
        show List.flatMap _ (if before.any endsClause = true then _ else _) = _
        rw [if_pos hbefore, List.flatMap_singleton]
      rw [hends] at hspace
      obtain ⟨run, hrun, hall, hlength⟩ := Pattern.mem_ends_plus_char (List.mem_of_head? hspace)
      have heq : rest = run ++ d.rest := hrun
      obtain ⟨htail, hcount⟩ := hdrop heq
      refine ⟨run, ?_, hcount, ?_, hall, ?_⟩
      · show rest = run ++ rest.drop (rest.length - d.rest.length)
        rw [htail]
        exact heq
      · show 1 ≤ rest.length - d.rest.length
        rw [← hcount]
        exact hlength
      · show ∀ c, (rest.drop (rest.length - d.rest.length)).head? = some c → isPySpace c = false
        rw [htail]
        exact Pattern.head?_ends_plus_char hspace
    · have hnone : (Pattern.seq (after ".!?;:") (.plus space)).ends ⟨before, rest, []⟩ = [] := by
        show List.flatMap _ (if before.any endsClause = true then _ else _) = _
        rw [if_neg hbefore, List.flatMap_nil]
      rw [hnone] at hspace
      cases hspace

/-- Two or more line breaks, which are a boundary on their own. -/
def isBreak (part : List Char) : Bool :=
  decide (2 ≤ part.length) && part.all fun c => decide (c = '\n')

theorem isBreak_iff {part : List Char} :
    isBreak part = true ↔ 2 ≤ part.length ∧ ∀ c ∈ part, c = '\n' := by
  simp [isBreak]

theorem slice_add (text : List Char) (i n : Nat) : slice text i (i + n) = (text.drop i).take n := by
  unfold slice
  rw [List.drop_take, Nat.add_sub_cancel_left]

/-- A match at an offset is a paragraph break, or white space after a full stop up to a visible
character. -/
theorem boundary_matchAt (h : boundary.matchAt text i = some m) :
    BoundaryAt text i ∧ 0 < m.length ∧ (∀ c ∈ slice text i (i + m.length), isPySpace c = true) ∧
      (isBreak (slice text i (i + m.length)) = true ∨
        0 < i ∧ (text[i - 1]?.any endsClause) = true ∧
          ¬(text[i]? = some '\n' ∧ text[i + 1]? = some '\n') ∧ ∀ c, text[i + m.length]? = some c →
          isPySpace c = false) := by
  have hslice : ∀ {run : List Char}, text.drop i = run ++ (text.drop i).drop m.length →
      run.length = m.length → slice text i (i + m.length) = run := by
    intro run heq hlength
    rw [slice_add, heq, List.take_append_of_le_length (le_of_eq hlength.symm),
      List.take_of_length_le (le_of_eq hlength)]
  have hget : ∀ {run : List Char}, text.drop i = run ++ (text.drop i).drop m.length →
      run.length = m.length → ∀ k < m.length, text[i + k]? = run[k]? := by
    intro run heq hlength k hk
    rw [← List.getElem?_drop, heq, List.getElem?_append_left (by omega)]
  rcases boundary_match? h with ⟨run, heq, hlength, htwo, hall⟩ | ⟨hbefore, hnobreak, run, heq,
    hlength, hone, hall, hnext⟩
  · have hnewline : ∀ k < m.length, text[i + k]? = some '\n' := by
      intro k hk
      rw [hget heq hlength k hk, List.getElem?_eq_getElem (by omega)]
      exact congrArg some (hall _ (List.getElem_mem _))
    refine ⟨.inl ⟨hnewline 0 (by omega), hnewline 1 (by omega)⟩, by omega, ?_, .inl ?_⟩
    · rw [hslice heq hlength]
      intro c hc
      rw [hall c hc]
      decide
    · rw [hslice heq hlength]
      exact isBreak_iff.mpr ⟨hlength.symm ▸ htwo, hall⟩
  · have hpos : 0 < i ∧ (text[i - 1]?.any endsClause) = true := by
      by_cases hzero : i = 0
      · rw [if_pos hzero] at hbefore
        cases hbefore
      · rw [if_neg hzero] at hbefore
        exact ⟨Nat.pos_of_ne_zero hzero, hbefore⟩
    have hfirst : (text[i]?.any isPySpace) = true := by
      have := hget heq hlength 0 (by omega)
      rw [Nat.add_zero] at this
      rw [this, List.getElem?_eq_getElem (by omega)]
      exact hall _ (List.getElem_mem _)
    refine ⟨.inr ⟨hpos.1, hpos.2, hfirst⟩, by omega, ?_,
      .inr ⟨hpos.1, hpos.2, ?_, fun c hc => hnext c ?_⟩⟩
    · rw [hslice heq hlength]
      exact hall
    · rintro ⟨hone, htwo⟩
      obtain ⟨hlt, hone⟩ := List.getElem?_eq_some_iff.mp hone
      obtain ⟨hlt', htwo⟩ := List.getElem?_eq_some_iff.mp htwo
      refine hnobreak (text.drop (i + 1 + 1)) ?_
      rw [List.drop_eq_getElem_cons hlt, hone, List.drop_eq_getElem_cons hlt', htwo]
    · rw [List.drop_drop, List.head?_drop]
      exact hc

/-- Wherever there is a boundary, the pattern matches. -/
theorem exists_boundary_matchAt (h : BoundaryAt text i) :
    ∃ m, boundary.matchAt text i = some m := by
  have hsome : ∀ {c : Cursor Char}, boundary.ends c ≠ [] →
      ∃ d, (boundary.ends c).head? = some d := by
    intro c hne
    exact ⟨_, List.head?_eq_some_head hne⟩
  have hdrop : ∀ {c : Char}, text[i]? = some c → text.drop i = c :: text.drop (i + 1) := by
    intro c hc
    obtain ⟨hlt, rfl⟩ := List.getElem?_eq_some_iff.mp hc
    exact List.drop_eq_getElem_cons hlt
  have hends : boundary.ends ⟨if i = 0 then none else text[i - 1]?, text.drop i, []⟩ ≠ [] := by
    rcases h with ⟨hfirst, hsecond⟩ | ⟨hpos, hbefore, hspace⟩
    · have hrest : text.drop (i + 1) = '\n' :: text.drop (i + 2) := by
        obtain ⟨hlt, hc⟩ := List.getElem?_eq_some_iff.mp hsecond
        rw [List.drop_eq_getElem_cons hlt, hc]
      have hrun : (⟨some '\n', text.drop (i + 1), []⟩ : Cursor Char).rest = ['\n'] ++
          text.drop (i + 2) := hrest
      obtain ⟨before, hmem⟩ : ∃ before, ⟨before, text.drop (i + 2), []⟩ ∈
          (Pattern.plus (exactly '\n')).ends ⟨some '\n', text.drop (i + 1), []⟩ :=
        Pattern.exists_mem_ends_plus_char hrun
          (fun a ha => by rw [List.mem_singleton.mp ha]; decide) (Nat.le_refl 1)
      refine List.ne_nil_of_mem (List.mem_append_left _ (List.mem_flatMap.mpr ⟨_, ?_, hmem⟩))
      exact Pattern.mem_ends_char.mpr ⟨'\n', _, hdrop hfirst, by decide, rfl⟩
    · obtain ⟨c, hc, hspace⟩ := (Option.any_eq_true _ _).mp hspace
      rw [if_neg (Nat.pos_iff_ne_zero.mp hpos)]
      have hrun : (⟨text[i - 1]?, text.drop i, []⟩ : Cursor Char).rest = [c] ++ text.drop (i + 1) :=
        hdrop hc
      obtain ⟨before, hmem⟩ : ∃ before, ⟨before, text.drop (i + 1), []⟩ ∈
          (Pattern.plus space).ends ⟨text[i - 1]?, text.drop i, []⟩ :=
        Pattern.exists_mem_ends_plus_char hrun
          (fun a ha => by rw [List.mem_singleton.mp ha]; exact hspace) (Nat.le_refl 1)
      refine List.ne_nil_of_mem (List.mem_append_right _ (List.mem_flatMap.mpr ⟨_, ?_, hmem⟩))
      show _ ∈ if (text[i - 1]?.any endsClause) = true then _ else _
      rw [if_pos hbefore]
      exact List.mem_singleton_self _
  obtain ⟨d, hd⟩ := hsome hends
  exact ⟨_, congrArg (Option.map _) hd⟩

/-- Every boundary lies in a match that is collected. -/
theorem exists_found (h : BoundaryAt text i) :
    ∃ m ∈ boundary.findAll text 0 text.length, m.start ≤ i ∧ i < m.stop := by
  have hlt : i < text.length := by
    rcases h with ⟨hfirst, -⟩ | ⟨-, -, hspace⟩
    · exact (List.getElem?_eq_some_iff.mp hfirst).1
    · obtain ⟨c, hc, -⟩ := (Option.any_eq_true _ _).mp hspace
      exact (List.getElem?_eq_some_iff.mp hc).1
  obtain ⟨m, hm⟩ := exists_boundary_matchAt h
  rcases Pattern.findAll_spec.2 i hlt with hfound | hnone
  · exact hfound
  · have := (boundary_matchAt hm).2.1
    have := hnone m hm
    omega

/-- No match is collected exactly if there is no boundary. -/
theorem findAll_boundary_eq_nil :
    boundary.findAll text 0 text.length = [] ↔ ∀ i, ¬BoundaryAt text i := by
  constructor
  · intro hnil i hboundary
    obtain ⟨m, hm, -⟩ := exists_found hboundary
    rw [hnil] at hm
    cases hm
  · intro hnone
    rw [List.eq_nil_iff_forall_not_mem]
    intro found hfound
    exact hnone _ (boundary_matchAt (Pattern.findAll_spec.1 found hfound).2.2).1

/-- A part is a boundary on its own exactly if it is a paragraph break: nothing is before it to look
back at. -/
theorem boundary_fullMatch_iff {part : List Char} :
    (boundary.fullMatch? part).isSome = true ↔ isBreak part = true := by
  unfold Pattern.fullMatch?
  rw [Option.isSome_map, List.find?_isSome, isBreak_iff]
  constructor
  · rintro ⟨d, hd, hempty⟩
    have hempty : d.rest = [] := List.isEmpty_iff.mp hempty
    rcases List.mem_append.mp hd with hmem | hmem
    · obtain ⟨e, he, hd⟩ := List.mem_flatMap.mp hmem
      obtain ⟨a, rest, hpart, ha, rfl⟩ := Pattern.mem_ends_char.mp he
      obtain ⟨run, hrun, hall, hlength⟩ := Pattern.mem_ends_plus_char hd
      rw [hempty, List.append_nil] at hrun
      have hpart : part = a :: run := hpart.trans (congrArg (a :: ·) hrun)
      rw [hpart]
      refine ⟨by rw [List.length_cons]; omega, fun c hc => ?_⟩
      rcases List.mem_cons.mp hc with rfl | hc
      · exact of_decide_eq_true ha
      · exact of_decide_eq_true (hall c hc)
    · obtain ⟨e, he, -⟩ := List.mem_flatMap.mp hmem
      cases he
  · rintro ⟨hlength, hall⟩
    cases part with
    | nil => simp at hlength
    | cons a run =>
      rw [List.length_cons] at hlength
      have hrun : (⟨some a, run, []⟩ : Cursor Char).rest = run ++ [] := (List.append_nil run).symm
      obtain ⟨before, hmem⟩ :
          ∃ before, ⟨before, [], []⟩ ∈ (Pattern.plus (exactly '\n')).ends ⟨some a, run, []⟩ :=
        Pattern.exists_mem_ends_plus_char hrun
          (fun c hc => decide_eq_true (hall c (List.mem_cons_of_mem _ hc))) (by omega)
      refine ⟨_, List.mem_append_left _ (List.mem_flatMap.mpr ⟨_, ?_, hmem⟩), rfl⟩
      exact Pattern.mem_ends_char.mpr ⟨a, run, rfl, decide_eq_true (hall a List.mem_cons_self), rfl⟩

end

/-! ### What the units are -/

section

variable {text : List Char}

/-- The parts of a text between the matches that are paragraph breaks, each with the break that ends
it. -/
def cutSpans (text : List Char) : Nat → List (Found Char) → List Span
  | start, [] => [⟨start, text.length⟩]
  | start, found :: rest =>
    if isBreak (slice text found.start found.stop) then ⟨start, found.stop⟩ ::
      cutSpans text found.stop rest
    else cutSpans text start rest

theorem cutSpans_bounds {start cursor : Nat} {founds : List (Found Char)} (hstart : start ≤ cursor)
    (hchain : Chain cursor founds text.length) {span : Span}
    (hspan : span ∈ cutSpans text start founds) :
    start ≤ span.start ∧ span.start ≤ span.stop ∧ span.stop ≤ text.length := by
  induction founds generalizing start cursor with
  | nil =>
    rw [List.mem_singleton.mp hspan]
    exact ⟨le_refl _, hstart.trans hchain, le_refl _⟩
  | cons found founds ih =>
    obtain ⟨hcursor, hlength, hrest⟩ := hchain
    have hfound : found.start < found.stop := Nat.lt_add_of_pos_right hlength
    unfold cutSpans at hspan
    split at hspan
    · rcases List.mem_cons.mp hspan with rfl | hspan
      · have := hrest.le
        refine ⟨le_refl _, ?_, this⟩
        show start ≤ found.stop
        omega
      · have := ih (le_refl found.stop) hrest hspan
        omega
    · exact ih (by omega) hrest hspan

theorem cutSpans_reach {start cursor : Nat} {founds : List (Found Char)} (hstart : start ≤ cursor)
    (hchain : Chain cursor founds text.length) {span : Span}
    (hspan : span ∈ cutSpans text start founds) :
    cursor ≤ span.stop := by
  induction founds generalizing start cursor with
  | nil =>
    rw [List.mem_singleton.mp hspan]
    exact hchain
  | cons found founds ih =>
    obtain ⟨hcursor, hlength, hrest⟩ := hchain
    have hfound : found.start < found.stop := Nat.lt_add_of_pos_right hlength
    unfold cutSpans at hspan
    split at hspan
    · rcases List.mem_cons.mp hspan with rfl | hspan
      · show cursor ≤ found.stop
        omega
      · have := ih (le_refl found.stop) hrest hspan
        omega
    · have := ih (show start ≤ found.stop by omega) hrest hspan
      omega

theorem isBreak_slice {start stop : Nat} (h : isBreak (slice text start stop) = true) :
    start < stop ∧ start < text.length ∧ BoundaryAt text start := by
  obtain ⟨hlength, hall⟩ := isBreak_iff.mp h
  rw [length_slice] at hlength
  have hnewline : ∀ k, start ≤ k → k < stop → k < text.length → text[k]? = some '\n' := by
    intro k hk hstop hlt
    have hmem : text[k] ∈ slice text start stop :=
      mem_slice.mpr ⟨k, hk, hstop, List.getElem?_eq_getElem hlt⟩
    rw [List.getElem?_eq_getElem hlt, hall _ hmem]
  exact ⟨by omega, by omega, .inl ⟨hnewline start (le_refl _) (by omega) (by omega),
    hnewline (start + 1) (by omega) (by omega) (by omega)⟩⟩

/-- The loop over the parts flushes at the paragraph breaks, if no boundary lies between the
matches. -/
theorem unitsFrom_partsFrom {start cursor : Nat} {founds : List (Found Char)}
    (hstart : start ≤ cursor) (hchain : Chain cursor founds text.length)
    (hbetween : ∀ i, cursor ≤ i → BoundaryAt text i → ∃ m ∈ founds, m.start ≤ i ∧ i < m.stop) :
    unitsFrom id (slice text start cursor) (partsFrom text cursor founds) =
      (cutSpans text start founds).flatMap fun span =>
        flushUnit id (slice text span.start span.stop) := by
  -- a part that is no boundary is added to what is not flushed yet
  have hadd : ∀ {start cursor stop : Nat} {parts : List (List Char)}, start ≤ cursor →
      cursor ≤ stop →
      isBreak (slice text cursor stop) = false →
      unitsFrom id (slice text start cursor) (slice text cursor stop :: parts) =
        unitsFrom id (slice text start stop) parts := by
    intro start cursor stop parts hstart hstop hbreak
    rw [← slice_append text hstart hstop]
    unfold unitsFrom
    split
    · rename_i hempty
      rw [List.isEmpty_iff.mp hempty, List.append_nil]
      cases parts <;> rfl
    · have hnot : ¬(boundary.fullMatch? (slice text cursor stop)).isSome = true := fun hfull => by
        rw [boundary_fullMatch_iff.mp hfull] at hbreak
        cases hbreak
      rw [List.map_id, if_neg hnot]
      cases parts <;> rfl
  induction founds generalizing start cursor with
  | nil =>
    have hnone : isBreak (slice text cursor text.length) = false := by
      by_contra hbreak
      obtain ⟨-, -, hboundary⟩ := isBreak_slice (Bool.of_not_eq_false hbreak)
      obtain ⟨m, hm, -⟩ := hbetween cursor (le_refl _) hboundary
      cases hm
    unfold partsFrom cutSpans
    rw [hadd hstart hchain hnone, List.flatMap_singleton]
    rfl
  | cons found founds ih =>
    obtain ⟨hcursor, hlength, hrest⟩ := hchain
    have hfound : found.start < found.stop := Nat.lt_add_of_pos_right hlength
    have hnone : isBreak (slice text cursor found.start) = false := by
      by_contra hbreak
      obtain ⟨hlt, -, hboundary⟩ := isBreak_slice (Bool.of_not_eq_false hbreak)
      obtain ⟨m, hm, hle, -⟩ := hbetween cursor (le_refl _) hboundary
      rcases List.mem_cons.mp hm with rfl | hm
      · omega
      · have := (hrest.bounds hm).1
        omega
    have hlater : ∀ i, found.stop ≤ i → BoundaryAt text i → ∃ m ∈ founds, m.start ≤ i ∧
        i < m.stop := by
      intro i hi hboundary
      obtain ⟨m, hm, hspan⟩ := hbetween i (by omega) hboundary
      rcases List.mem_cons.mp hm with rfl | hm
      · omega
      · exact ⟨m, hm, hspan⟩
    unfold partsFrom cutSpans
    rw [hadd hstart hcursor hnone]
    by_cases hbreak : isBreak (slice text found.start found.stop) = true
    · have hflush : unitsFrom id (slice text start found.start)
          (slice text found.start found.stop :: partsFrom text found.stop founds) =
          flushUnit id (slice text start found.stop) ++
            unitsFrom id [] (partsFrom text found.stop founds) := by
        have hne : ¬(slice text found.start found.stop).isEmpty = true := fun hempty => by
          rw [List.isEmpty_iff.mp hempty] at hbreak
          cases hbreak
        rw [← slice_append text (hstart.trans hcursor) hfound.le, unitsFrom, if_neg hne,
          List.map_id, if_pos (boundary_fullMatch_iff.mpr hbreak)]
      have hnext := ih (le_refl found.stop) hrest hlater
      rw [slice_self] at hnext
      rw [hflush, if_pos hbreak, List.flatMap_cons, hnext]
    · rw [hadd (hstart.trans hcursor) hfound.le (Bool.eq_false_iff.mpr hbreak), if_neg hbreak]
      exact ih (by omega) hrest hlater

theorem cutSpans_tiles {start cursor : Nat} {founds : List (Found Char)} (hstart : start ≤ cursor)
    (hchain : Chain cursor founds text.length) :
    Tiles start (cutSpans text start founds) text.length := by
  induction founds generalizing start cursor with
  | nil => exact ⟨rfl, hstart.trans hchain, rfl⟩
  | cons found founds ih =>
    obtain ⟨hcursor, hlength, hrest⟩ := hchain
    have hfound : found.start < found.stop := Nat.lt_add_of_pos_right hlength
    unfold cutSpans
    split
    · exact ⟨rfl, by show start ≤ found.stop; omega, ih (le_refl found.stop) hrest⟩
    · exact ih (by omega) hrest

/-- What a flushed part leaves: nothing of a blank one, and of any other the text from its first to
its last visible character. -/
theorem flushUnit_slice {start stop : Nat} (hle : start ≤ stop) (hstop : stop ≤ text.length) :
    ∃ pieces, Keeps (VisibleAt text) start pieces stop ∧ pieces.length ≤ 1 ∧
      flushUnit id (slice text start stop) =
        pieces.map (fun piece => slice text piece.start piece.stop) ∧
      ∀ piece ∈ pieces, VisibleAt text piece.start ∧ VisibleAt text (piece.stop - 1) := by
  obtain ⟨before, after, htext, hbefore, hafter, hstripped⟩ :=
    stripBy_spec id (slice text start stop)
  obtain ⟨hfirst, hbeforeEq, hrest⟩ := slice_eq_append hle hstop htext
  obtain ⟨hlast, hkeptEq, hafterEq⟩ := slice_eq_append hfirst hstop hrest.symm
  have hblank : ∀ {part : List Char} {lo hi i : Nat}, part = slice text lo hi →
      (∀ a ∈ part, isPySpace (id a) = true) → lo ≤ i → i < hi → ¬VisibleAt text i := by
    rintro part lo hi i rfl hspace hlo hhi ⟨c, hc, hvisible⟩
    have := hspace c (mem_slice.mpr ⟨i, hlo, hhi, hc⟩)
    rw [id_eq, hvisible] at this
    cases this
  unfold flushUnit
  split
  · rename_i hall
    rw [List.map_id] at hall
    refine ⟨[], ⟨hle, fun i hi hlt hvisible => ?_⟩, Nat.zero_le _, rfl, by rintro piece ⟨⟩⟩
    exact absurd hvisible (hblank rfl (List.all_eq_true.mp hall) hi hlt)
  · rename_i hvisible
    have hne : stripBy id (slice text start stop) ≠ [] := by
      intro hnil
      rw [hnil, List.nil_append] at htext
      refine hvisible (List.all_eq_true.mpr fun c hc => ?_)
      rw [List.map_id, htext] at hc
      rcases List.mem_append.mp hc with hc | hc
      · exact hbefore c hc
      · exact hafter c hc
    obtain ⟨⟨a, ha, hafirst⟩, b, hb, hblast⟩ := hstripped hne
    have hlength : 0 < (stripBy id (slice text start stop)).length := List.length_pos_of_ne_nil hne
    generalize stripBy id (slice text start stop) = kept at *
    refine ⟨[⟨start + before.length, start + before.length + kept.length⟩],
      ⟨⟨Nat.le_add_right _ _, ?_, hlast⟩, ?_⟩, le_refl _, congrArg (fun unit => [unit]) hkeptEq, ?_⟩
    · show start + before.length < start + before.length + kept.length
      omega
    · intro i hi hlt hvisible
      refine ⟨_, List.mem_singleton_self _, ?_⟩
      constructor
      · by_contra hout
        exact hblank hbeforeEq hbefore hi (Nat.not_le.mp hout) hvisible
      · by_contra hout
        exact hblank hafterEq hafter (Nat.not_lt.mp hout) hlt hvisible
    · intro piece hpiece
      rw [List.mem_singleton.mp hpiece]
      have hget : ∀ k < kept.length, text[start + before.length + k]? = kept[k]? := by
        intro k hk
        rw [hkeptEq, getElem?_slice, if_pos (by omega)]
      constructor
      · refine ⟨a, ?_, hafirst⟩
        rw [← ha, List.head?_eq_getElem?]
        exact hget 0 hlength
      · refine ⟨b, ?_, hblast⟩
        rw [← hb, List.getLast?_eq_getElem?, ← hget _ (by omega)]
        refine congrArg (fun k => text[k]?) ?_
        show start + before.length + kept.length - 1 = _
        omega

/-- The pieces that are left of consecutive parts. -/
theorem flushUnits_spans {spans : List Span} {lo : Nat} (h : Tiles lo spans text.length) :
    ∃ pieces, Keeps (VisibleAt text) lo pieces text.length ∧
      (spans.flatMap fun span => flushUnit id (slice text span.start span.stop)) =
        pieces.map (fun piece => slice text piece.start piece.stop) ∧
      (∀ piece ∈ pieces, VisibleAt text piece.start ∧ VisibleAt text (piece.stop - 1) ∧
        ∃ span ∈ spans, piece ≤ span) ∧
      ∀ span ∈ spans, ∀ i ∈ span, ∀ j ∈ span, VisibleAt text i → VisibleAt text j →
        ∃ piece ∈ pieces, i ∈ piece ∧ j ∈ piece := by
  induction spans generalizing lo with
  | nil =>
    have hlo : lo = text.length := h
    refine ⟨[], ⟨le_of_eq hlo, fun i hi hlt => by omega⟩, rfl, by rintro piece ⟨⟩,
      by rintro span ⟨⟩⟩
  | cons span spans ih =>
    obtain ⟨hstart, hle, hrest⟩ := h
    obtain ⟨later, hlater, hmap, hends, hjoint⟩ := ih hrest
    obtain ⟨first, hfirst, hone, hflush, hvisible⟩ := flushUnit_slice hle hrest.le
    rw [hstart] at hfirst
    refine ⟨first ++ later, ⟨hfirst.ordered.append hlater.ordered, fun i hi hlt hp => ?_⟩, ?_,
      fun piece hpiece => ?_, fun other hother i hi j hj hvi hvj => ?_⟩
    · by_cases hstop : i < span.stop
      · obtain ⟨piece, hpiece, hmem⟩ := hfirst.covers i hi hstop hp
        exact ⟨piece, List.mem_append_left _ hpiece, hmem⟩
      · obtain ⟨piece, hpiece, hmem⟩ := hlater.covers i (Nat.not_lt.mp hstop) hlt hp
        exact ⟨piece, List.mem_append_right _ hpiece, hmem⟩
    · rw [List.flatMap_cons, hflush, hmap, List.map_append]
    · rcases List.mem_append.mp hpiece with hpiece | hpiece
      · have hbounds := hfirst.ordered.bounds hpiece
        exact ⟨(hvisible piece hpiece).1, (hvisible piece hpiece).2, span, List.mem_cons_self,
          Span.le_iff.mpr ⟨by omega, hbounds.2.2⟩⟩
      · obtain ⟨hfront, hback, other, hother, hin⟩ := hends piece hpiece
        exact ⟨hfront, hback, other, List.mem_cons_of_mem _ hother, hin⟩
    · rcases List.mem_cons.mp hother with rfl | hother
      · rw [Span.mem_iff] at hi hj
        obtain ⟨piece, hpiece, hmem⟩ := hfirst.covers i (by omega) hi.2 hvi
        obtain ⟨piece', hpiece', hmem'⟩ := hfirst.covers j (by omega) hj.2 hvj
        have hsame : piece' = piece := by
          obtain ⟨k, hk, rfl⟩ := List.mem_iff_getElem.mp hpiece
          obtain ⟨k', hk', rfl⟩ := List.mem_iff_getElem.mp hpiece'
          congr 1
          omega
        exact ⟨piece, List.mem_append_left _ hpiece, hmem, hsame ▸ hmem'⟩
      · obtain ⟨piece, hpiece, hmem⟩ := hjoint other hother i hi j hj hvi hvj
        exact ⟨piece, List.mem_append_right _ hpiece, hmem⟩

/-- If every match is a paragraph break, nothing visible follows a match within a part. -/
theorem cutSpans_of_breaks {start cursor : Nat} {founds : List (Found Char)}
    (hstart : start = cursor) (hchain : Chain cursor founds text.length)
    (hbreaks : ∀ m ∈ founds, isBreak (slice text m.start m.stop) = true) {span : Span}
    (hspan : span ∈ cutSpans text start founds) {m : Found Char} (hm : m ∈ founds) {i : Nat}
    (hi : span.start ≤ i)
    (hin : m.start ≤ i ∧ i < m.stop) {j : Nat} (hij : i ≤ j) (hj : j < span.stop) :
    ¬VisibleAt text j := by
  induction founds generalizing start cursor with
  | nil => cases hm
  | cons found founds ih =>
    obtain ⟨hcursor, hlength, hrest⟩ := hchain
    unfold cutSpans at hspan
    rw [if_pos (hbreaks found List.mem_cons_self)] at hspan
    rcases List.mem_cons.mp hspan with rfl | hspan
    · rcases List.mem_cons.mp hm with rfl | hm
      · rintro ⟨c, hc, hvisible⟩
        have hnewline := (isBreak_iff.mp (hbreaks m List.mem_cons_self)).2 c
          (mem_slice.mpr ⟨j, hin.1.trans hij, hj, hc⟩)
        rw [hnewline] at hvisible
        exact absurd hvisible (by decide)
      · have := (hrest.bounds hm).1
        have hj : j < found.stop := hj
        omega
    · rcases List.mem_cons.mp hm with rfl | hm
      · have hlater := (cutSpans_bounds (le_refl m.stop) hrest hspan).1
        omega
      · exact ih rfl hrest (fun m' hm' => hbreaks m' (List.mem_cons_of_mem _ hm')) hspan hm

/-- A match that is no paragraph break lies in one part, which does not end with it. -/
theorem exists_cutSpan {start cursor : Nat} {founds : List (Found Char)} (hstart : start ≤ cursor)
    (hchain : Chain cursor founds text.length) {m : Found Char} (hm : m ∈ founds)
    (hbreak : isBreak (slice text m.start m.stop) = false) :
    ∃ span ∈ cutSpans text start founds, span.start ≤ m.start ∧
      (m.stop < text.length → m.stop < span.stop) ∧
      (span.start = start ∨ 0 < span.start ∧ text[span.start - 1]? = some '\n') := by
  -- where the part starts that a list of matches ends, if `m` is one of them
  have hfirst : ∀ {founds : List (Found Char)} {start cursor : Nat}, start ≤ cursor →
      Chain cursor founds text.length → ∃ span ∈ cutSpans text start founds, span.start = start ∧
      (cursor < text.length → cursor < span.stop) := by
    intro founds
    induction founds with
    | nil => exact fun _ _ => ⟨_, List.mem_singleton_self _, rfl, id⟩
    | cons found founds ih =>
      rintro start cursor hstart ⟨hcursor, hlength, hrest⟩
      have hfound : found.start < found.stop := Nat.lt_add_of_pos_right hlength
      unfold cutSpans
      split
      · exact ⟨_, List.mem_cons_self, rfl, fun _ => Nat.lt_of_le_of_lt hcursor hfound⟩
      · obtain ⟨span, hspan, hsame, hlater⟩ := ih (show start ≤ found.stop by omega) hrest
        have hbounds := cutSpans_bounds (show start ≤ found.stop by omega) hrest hspan
        refine ⟨span, hspan, hsame, fun hlt => ?_⟩
        by_cases hend : found.stop < text.length
        · have := hlater hend
          omega
        · have := hrest.le
          by_contra hnot
          have hstop := cutSpans_reach (show start ≤ found.stop by omega) hrest hspan
          omega
  induction founds generalizing start cursor with
  | nil => cases hm
  | cons found founds ih =>
    obtain ⟨hcursor, hlength, hrest⟩ := hchain
    have hfound : found.start < found.stop := Nat.lt_add_of_pos_right hlength
    unfold cutSpans
    rcases List.mem_cons.mp hm with rfl | hm
    · rw [if_neg (by rw [hbreak]; exact Bool.false_ne_true)]
      obtain ⟨span, hspan, hsame, hlater⟩ := hfirst (show start ≤ m.stop by omega) hrest
      exact ⟨span, hspan, by omega, hlater, .inl hsame⟩
    · split
      · rename_i hcut
        obtain ⟨span, hspan, hle, hlater, hbefore⟩ := ih (le_refl found.stop) hrest hm
        refine ⟨span, List.mem_cons_of_mem _ hspan, hle, hlater, .inr ?_⟩
        rcases hbefore with hsame | hbefore
        · rw [hsame]
          refine ⟨by omega, ?_⟩
          have := hrest.le
          obtain ⟨-, hall⟩ := isBreak_iff.mp hcut
          have hget : text[found.stop - 1]? = some text[found.stop - 1] :=
            List.getElem?_eq_getElem (by omega)
          rw [hget, hall _ (mem_slice.mpr ⟨found.stop - 1, by omega, by omega, hget⟩)]
        · exact hbefore
      · exact ih (by omega) hrest hm

end

/-! ### The units of a text -/

section

variable {text : List Char}

/-- The units of a text: stripped pieces in source order that share nothing and lose nothing
visible, none of which the pattern would cut. -/
structure SplitsUnits (text : List Char) (units : List (List Char)) : Prop where
  stripped : ∀ unit ∈ units, Stripped id unit
  placed : ∃ spans, Keeps (VisibleAt text) 0 spans text.length ∧
    units = spans.map fun span => slice text span.start span.stop
  uncut : ∀ unit ∈ units, boundary.findAll unit 0 unit.length = []

/-- The matches of the pattern in a text, and where the text is cut. -/
theorem boundary_cuts (text : List Char) :
    Chain 0 (boundary.findAll text 0 text.length) text.length ∧
      splitUnits id text =
        (cutSpans (strip text) 0 (boundary.findAll (strip text) 0 (strip text).length)).flatMap
          fun span => flushUnit id (slice (strip text) span.start span.stop) := by
  have hchain : ∀ {text : List Char}, Chain 0 (boundary.findAll text 0 text.length) text.length :=
    Pattern.findAll_chain (Nat.zero_le _) (le_refl _)
  refine ⟨hchain, ?_⟩
  have hbetween : ∀ i, 0 ≤ i → BoundaryAt (strip text) i →
      ∃ m ∈ boundary.findAll (strip text) 0 (strip text).length, m.start ≤ i ∧ i < m.stop :=
    fun i _ hboundary => exists_found hboundary
  have h := unitsFrom_partsFrom (le_refl 0) hchain hbetween
  rw [slice_self] at h
  unfold splitUnits boundaryParts
  rw [List.map_id]
  exact h

/-- However the pattern cuts, the units are stripped pieces of the text. -/
theorem splitUnits_placed (text : List Char) :
    ∃ pieces, Keeps (VisibleAt (strip text)) 0 pieces (strip text).length ∧
      splitUnits id text = pieces.map (fun piece => slice (strip text) piece.start piece.stop) ∧
      (∀ piece ∈ pieces, VisibleAt (strip text) piece.start ∧
        VisibleAt (strip text) (piece.stop - 1) ∧
        ∃ span ∈ cutSpans (strip text) 0 (boundary.findAll (strip text) 0 (strip text).length),
          piece ≤ span) ∧
      ∀ span ∈ cutSpans (strip text) 0 (boundary.findAll (strip text) 0 (strip text).length),
        ∀ i ∈ span, ∀ j ∈ span, VisibleAt (strip text) i → VisibleAt (strip text) j →
          ∃ piece ∈ pieces, i ∈ piece ∧ j ∈ piece := by
  rw [(boundary_cuts text).2]
  exact flushUnits_spans (cutSpans_tiles (le_refl 0) (boundary_cuts (strip text)).1)

theorem boundaryAt_of_slice {start stop i : Nat} (h : BoundaryAt (slice text start stop) i) :
    start + i < stop ∧ BoundaryAt text (start + i) := by
  have hget : ∀ {k : Nat} {c : Char}, (slice text start stop)[k]? = some c → start + k < stop ∧
      text[start + k]? = some c := by
    intro k c hk
    rw [getElem?_slice] at hk
    split at hk
    · exact ⟨‹_›, hk⟩
    · cases hk
  rcases h with ⟨hfirst, hsecond⟩ | ⟨hpos, hbefore, hspace⟩
  · exact ⟨(hget hfirst).1, .inl ⟨(hget hfirst).2, (hget hsecond).2⟩⟩
  · obtain ⟨c, hc, hclause⟩ := (Option.any_eq_true _ _).mp hbefore
    obtain ⟨d, hd, hspace⟩ := (Option.any_eq_true _ _).mp hspace
    refine ⟨(hget hd).1, .inr ⟨by omega, ?_, (Option.any_eq_true _ _).mpr ⟨d, (hget hd).2, hspace⟩⟩⟩
    rw [show start + i - 1 = start + (i - 1) by omega]
    exact (Option.any_eq_true _ _).mpr ⟨c, (hget hc).2, hclause⟩

/-- The units are stripped pieces of the text, whatever stands after its full stops. -/
theorem splitUnits_pieces (text : List Char) :
    (∀ unit ∈ splitUnits id text, Stripped id unit) ∧ ∃ spans,
      Keeps (VisibleAt text) 0 spans text.length ∧ splitUnits id text = spans.map fun span =>
        slice text span.start span.stop := by
  obtain ⟨pieces, hkeeps, hunits, hends, -⟩ := splitUnits_placed text
  obtain ⟨before, after, htext, hbefore, hafter, -⟩ := stripBy_spec id text
  rw [show stripBy id text = strip text from rfl] at htext
  have hlength : text.length = before.length + ((strip text).length + after.length) := by
    rw [← List.length_append, ← List.length_append, ← htext]
  have hget : ∀ i, i < (strip text).length → text[before.length + i]? = (strip text)[i]? := by
    intro i hi
    have := congrArg (fun chars => chars[before.length + i]?) htext
    rw [List.getElem?_append_right (Nat.le_add_right _ _), Nat.add_sub_cancel_left,
      List.getElem?_append_left hi] at this
    exact this
  have hslice : ∀ i j, j ≤ (strip text).length →
      slice (strip text) i j = slice text (before.length + i) (before.length + j) := by
    intro i j hj
    refine List.ext_getElem? fun k => ?_
    rw [getElem?_slice, getElem?_slice, Nat.add_assoc]
    by_cases hk : i + k < j
    · rw [if_pos hk, if_pos (by omega), hget _ (by omega)]
    · rw [if_neg hk, if_neg (by omega)]
  constructor
  · intro unit hunit
    rw [hunits] at hunit
    obtain ⟨piece, hpiece, rfl⟩ := List.mem_map.mp hunit
    exact stripped_slice (hkeeps.ordered.bounds hpiece).2.1 (hends piece hpiece).1
      (hends piece hpiece).2.1
  · refine ⟨pieces.map (Span.shift before.length), ⟨?_, ?_⟩, ?_⟩
    · have h := hkeeps.ordered.shift before.length
      have hend : Ordered (before.length + (strip text).length) [] text.length := by
        show before.length + (strip text).length ≤ text.length
        omega
      have := (h.append hend).mono (Nat.zero_le _)
      rwa [List.append_nil] at this
    · -- what is visible lies between the white space at the two ends
      intro i hi hlt hvisible
      obtain ⟨c, hc, hchar⟩ := id hvisible
      rw [htext] at hc
      have hnot : ∀ part : List Char, (∀ a ∈ part, isPySpace (id a) = true) →
          ∀ k : Nat, part[k]? ≠ some c := by
        intro part hpart k hk
        have := hpart c (List.mem_of_getElem? hk)
        rw [id_eq, hchar] at this
        cases this
      have hfirst : before.length ≤ i := by
        by_contra hlt
        rw [List.getElem?_append_left (Nat.not_le.mp hlt)] at hc
        exact hnot before hbefore _ hc
      rw [List.getElem?_append_right hfirst] at hc
      have hlast : i - before.length < (strip text).length := by
        by_contra hge
        rw [List.getElem?_append_right (Nat.not_lt.mp hge)] at hc
        exact hnot after hafter _ hc
      obtain ⟨piece, hpiece, hmem⟩ := hkeeps.covers (i - before.length) (Nat.zero_le _) hlast
        ⟨c, by rwa [List.getElem?_append_left hlast] at hc, hchar⟩
      rw [Span.mem_iff] at hmem
      refine ⟨_, List.mem_map_of_mem hpiece, ?_⟩
      simp only [Span.mem_iff, Span.shift]
      omega
    · rw [hunits, List.map_map]
      refine List.map_congr_left fun piece hpiece => ?_
      exact hslice piece.start piece.stop (hkeeps.ordered.bounds hpiece).2.2

/-- White space after a full stop is a paragraph break, everywhere but at the end of the text. -/
def BreaksAfterClauses (text : List Char) : Prop :=
  ∀ i, ((strip text)[i]?.any endsClause) = true → ((strip text)[i + 1]?.any isPySpace) = true →
    (strip text)[i + 1]? = some '\n' ∧ (strip text)[i + 2]? = some '\n'

theorem endsClause_visible {c : Char} (h : endsClause c = true) : Visible c := by
  simp only [endsClause, List.contains_iff_mem] at h
  revert h
  show c ∈ ['.', '!', '?', ';', ':'] → _
  simp only [List.mem_cons, List.not_mem_nil, or_false]
  rintro (rfl | rfl | rfl | rfl | rfl) <;> rfl

/-- White space after a full stop that is no paragraph break stays within a unit. -/
theorem breaksAfterClauses_of_splitsUnits (h : SplitsUnits text (splitUnits id text)) :
    BreaksAfterClauses text := by
  intro i hclause hspace
  obtain ⟨c, hc, hclause⟩ := (Option.any_eq_true _ _).mp hclause
  have hvisible : VisibleAt (strip text) i := ⟨c, hc, endsClause_visible hclause⟩
  have hboundary : BoundaryAt (strip text) (i + 1) :=
    .inr ⟨Nat.succ_pos i, (Option.any_eq_true _ _).mpr ⟨c, hc, hclause⟩, hspace⟩
  obtain ⟨m, hm, hle, hlt⟩ := exists_found hboundary
  obtain ⟨hmlt, hpos, hmatch⟩ := Pattern.findAll_spec.1 m hm
  obtain ⟨-, -, hall, hkind⟩ := boundary_matchAt hmatch
  -- the full stop is no white space, so the match starts right after it
  have hstart : m.start = i + 1 := by
    by_contra hne
    have := hall c (mem_slice.mpr ⟨i, by omega, by show i < m.stop; omega, hc⟩)
    rw [endsClause_visible hclause] at this
    cases this
  by_cases hbreak : isBreak (slice (strip text) m.start m.stop) = true
  · rcases (isBreak_slice hbreak).2.2 with hnewlines | ⟨-, hafter, -⟩
    · rw [hstart] at hnewlines
      exact hnewlines
    · have htwo := isBreak_iff.mp hbreak
      rw [length_slice] at htwo
      have hnewline : ∀ k, m.start ≤ k → k < m.start + 2 → (strip text)[k]? = some '\n' := by
        intro k hk hk'
        have hget : (strip text)[k]? = some (strip text)[k] := List.getElem?_eq_getElem (by omega)
        rw [hget, htwo.2 _ (mem_slice.mpr ⟨k, hk, by omega, hget⟩)]
      rw [← hstart]
      exact ⟨hnewline _ (le_refl _) (by omega), show (strip text)[i + 2]? =
        _ from hnewline _ (by omega) (by omega)⟩
  · obtain ⟨pieces, -, hunits, -, hjoint⟩ := splitUnits_placed text
    obtain ⟨span, hspan, hfirst, hlater, hbefore⟩ :=
      exists_cutSpan (le_refl 0) (boundary_cuts (strip text)).1 hm (Bool.eq_false_iff.mpr hbreak)
    have hstop : m.stop ≤ (strip text).length := ((boundary_cuts (strip text)).1.bounds hm).2.2
    -- a visible character follows the match
    have hend : m.stop < (strip text).length := by
      by_contra hge
      obtain ⟨before, after, -, -, -, hstripped⟩ := stripBy_spec id text
      have hne : strip text ≠ [] := by
        intro hnil
        rw [hnil] at hc
        cases hc
      obtain ⟨d, hd, hdvisible : isPySpace d = false⟩ := (hstripped hne).last
      rw [List.getLast?_eq_getElem?] at hd
      have := hall d (mem_slice.mpr ⟨_, ?_, ?_, hd⟩)
      · rw [hdvisible] at this
        cases this
      · show m.start ≤ (strip text).length - 1
        omega
      · show (strip text).length - 1 < m.stop
        omega
    have hnext : VisibleAt (strip text) m.stop := by
      refine ⟨(strip text)[m.stop], List.getElem?_eq_getElem hend, ?_⟩
      rcases hkind with hisbreak | ⟨-, -, -, hvisible⟩
      · exact absurd hisbreak hbreak
      · exact hvisible _ (List.getElem?_eq_getElem hend)
    have hin : span.start ≤ i := by
      rcases hbefore with hzero | ⟨hpos, hnewline⟩
      · omega
      · by_contra hgt
        rw [show span.start - 1 = i by omega, hc] at hnewline
        cases hnewline
        cases hclause
    have hstop' := hlater hend
    obtain ⟨piece, hpiece, hi, hj⟩ := hjoint span hspan i (Span.mem_iff.mpr ⟨hin, by omega⟩) m.stop
      (Span.mem_iff.mpr ⟨by omega, hstop'⟩) hvisible hnext
    rw [Span.mem_iff] at hi hj
    have hunit : slice (strip text) piece.start piece.stop ∈ splitUnits id text := by
      rw [hunits]
      exact List.mem_map_of_mem (f := fun piece => slice (strip text) piece.start piece.stop) hpiece
    refine absurd ?_ (findAll_boundary_eq_nil.mp (h.uncut _ hunit) (i + 1 - piece.start))
    refine .inr ⟨by omega, ?_, ?_⟩
    · rw [getElem?_slice, show piece.start + (i + 1 - piece.start - 1) = i by omega,
        if_pos hi.2, hc]
      exact hclause
    · rw [getElem?_slice, show piece.start + (i + 1 - piece.start) = i + 1 by omega,
        if_pos (by omega)]
      exact hspace

/-- If every full stop ends a paragraph or is followed by text, all matches are paragraph breaks,
and the units end with them. -/
theorem splitsUnits_of_breaksAfterClauses (h : BreaksAfterClauses text) :
    SplitsUnits text (splitUnits id text) := by
  obtain ⟨hstripped, hplaced⟩ := splitUnits_pieces text
  refine ⟨hstripped, hplaced, fun unit hunit => findAll_boundary_eq_nil.mpr fun i hboundary => ?_⟩
  have hbreaks : ∀ m ∈ boundary.findAll (strip text) 0 (strip text).length,
      isBreak (slice (strip text) m.start m.stop) = true := by
    intro m hm
    obtain ⟨hlt, hpos, hmatch⟩ := Pattern.findAll_spec.1 m hm
    obtain ⟨-, -, hall, hbreak | ⟨hfirst, hclause, hnobreak, -⟩⟩ := boundary_matchAt hmatch
    · exact hbreak
    · refine absurd ?_ hnobreak
      have hget : (strip text)[m.start]? = some (strip text)[m.start] :=
        List.getElem?_eq_getElem hlt
      have hspace := hall _ (mem_slice.mpr ⟨m.start, le_refl _, Nat.lt_add_of_pos_right hpos, hget⟩)
      have := h (m.start - 1) hclause (by rw [Nat.sub_add_cancel hfirst, hget]; exact hspace)
      rwa [Nat.sub_add_cancel hfirst, show m.start - 1 + 2 = m.start + 1 by omega] at this
  obtain ⟨pieces, -, hunits, hends, -⟩ := splitUnits_placed text
  rw [hunits] at hunit
  obtain ⟨piece, hpiece, rfl⟩ := List.mem_map.mp hunit
  obtain ⟨-, hlast, span, hspan, hle⟩ := hends piece hpiece
  obtain ⟨hstop, hboundary⟩ := boundaryAt_of_slice hboundary
  obtain ⟨m, hm, hin⟩ := exists_found hboundary
  rw [Span.le_iff] at hle
  exact cutSpans_of_breaks rfl (boundary_cuts (strip text)).1 hbreaks hspan hm (by omega) hin
    (by omega) (by omega) hlast

/-- The units of a text are what `BOUNDARY_RE` cuts exactly if white space after a full stop is a
paragraph break: any other is a match, but `_split_units` does not know it for a boundary. -/
theorem splitUnits_iff (text : List Char) :
    SplitsUnits text (splitUnits id text) ↔ BreaksAfterClauses text :=
  ⟨breaksAfterClauses_of_splitsUnits, splitsUnits_of_breaksAfterClauses⟩

end

/-- Two sentences on a line are one unit, with a boundary in it. -/
theorem splitUnits_sentences : ¬SplitsUnits "A. B".toList (splitUnits id "A. B".toList) := by
  intro h
  have hunit : "A. B".toList ∈ splitUnits id "A. B".toList := by decide
  exact absurd (h.uncut _ hunit) (by decide)

end ZhiyanRag.Ingestion
