import Mathlib.Data.List.TakeWhile
import ZhiyanRag.Ingestion.StructuralSplit

/-!
# Where fixed chunks come from

`_chunk_text` only moves characters around, so it can run on characters that carry their source
offset (`marked`): erasing the offsets afterwards gives the chunks of the code (`chunkText_marked`).
A chunk then reads the source from left to right, with a joined blank wherever it skips the white
space between two units (`Solid`), and the chunks sweep over every visible character
(`chunkText_sweep`).
-/

namespace ZhiyanRag.Ingestion

open Regex Spans Pattern

/-! ### Rounds of the window loop -/

section

variable {α : Type} {toChar : α → Char} {config : FixedConfig} {unit : List α} {start : Nat}

theorem windowsFrom_of_lt (h : start < unit.length) :
    windowsFrom toChar config unit start =
      stripBy toChar (slice unit start (min (start + config.chunkSize) unit.length)) ::
        if start + config.chunkSize < unit.length then
          windowsFrom toChar config unit (start + config.chunkSize - config.overlap)
        else [] := by
  rw [windowsFrom, if_pos h]

theorem windowsFrom_of_le (h : ¬start < unit.length) :
    windowsFrom toChar config unit start = [] := by
  rw [windowsFrom, if_neg h]

end

/-! ### Erasing marks -/

section

variable {α β : Type} (f : α → β) (toChar : β → Char)

theorem slice_map (text : List α) (start stop : Nat) :
    slice (text.map f) start stop = (slice text start stop).map f := by
  unfold slice
  rw [← List.map_take, ← List.map_drop]

theorem stripBy_map (text : List α) :
    stripBy toChar (text.map f) = (stripBy (fun a => toChar (f a)) text).map f := by
  unfold stripBy
  rw [List.dropWhile_map, ← List.map_reverse, List.dropWhile_map, ← List.map_reverse]
  rfl

theorem partsFrom_map (text : List α) (cursor : Nat) (founds : List (Found Char)) :
    partsFrom (text.map f) cursor founds = (partsFrom text cursor founds).map (List.map f) := by
  induction founds generalizing cursor with
  | nil =>
    unfold partsFrom
    rw [slice_map, List.length_map]
    rfl
  | cons found founds ih =>
    unfold partsFrom
    rw [slice_map, slice_map, ih]
    rfl

theorem boundaryParts_map (text : List α) :
    boundaryParts toChar (text.map f) =
      (boundaryParts (fun a => toChar (f a)) text).map (List.map f) := by
  unfold boundaryParts
  rw [partsFrom_map, List.map_map, List.length_map]
  rfl

theorem flushUnit_map (current : List α) :
    flushUnit toChar (current.map f) =
      (flushUnit (fun a => toChar (f a)) current).map (List.map f) := by
  unfold flushUnit
  rw [List.map_map]
  split
  · rename_i h
    rw [if_pos (by exact h)]
    rfl
  · rename_i h
    rw [if_neg (by exact h), stripBy_map]
    rfl

theorem unitsFrom_map (parts : List (List α)) (current : List α) :
    unitsFrom toChar (current.map f) (parts.map (List.map f)) =
      (unitsFrom (fun a => toChar (f a)) current parts).map (List.map f) := by
  induction parts generalizing current with
  | nil => exact flushUnit_map f toChar current
  | cons part parts ih =>
    rw [List.map_cons]
    unfold unitsFrom
    rw [List.isEmpty_map, List.map_map, ← List.map_append, flushUnit_map, ih, ih]
    have hempty : unitsFrom toChar [] (parts.map (List.map f)) =
        (unitsFrom (fun a => toChar (f a)) [] parts).map (List.map f) := ih []
    rw [hempty, apply_ite (List.map (List.map f)), apply_ite (List.map (List.map f)),
      List.map_append]
    rfl

theorem splitUnits_map (text : List α) :
    splitUnits toChar (text.map f) =
      (splitUnits (fun a => toChar (f a)) text).map (List.map f) := by
  unfold splitUnits
  rw [stripBy_map, boundaryParts_map]
  exact unitsFrom_map f toChar _ []

variable (config : FixedConfig)

theorem windowsFrom_map (unit : List α) (start : Nat) :
    windowsFrom toChar config (unit.map f) start =
      (windowsFrom (fun a => toChar (f a)) config unit start).map (List.map f) := by
  induction start using windowsFrom.induct config unit with
  | case1 start hlt ih =>
    rw [windowsFrom_of_lt hlt, windowsFrom_of_lt (by rwa [List.length_map]), List.length_map,
      slice_map, stripBy_map, List.map_cons]
    split
    · rw [ih]
    · rfl
  | case2 start hge =>
    rw [windowsFrom_of_le hge, windowsFrom_of_le (by rwa [List.length_map])]
    rfl

variable (joiner : α)

theorem flushChunk_map (current : List α) :
    flushChunk toChar (current.map f) =
      (flushChunk (fun a => toChar (f a)) current).map (List.map f) := by
  unfold flushChunk
  rw [List.isEmpty_map, stripBy_map, apply_ite (List.map (List.map f))]
  rfl

theorem joinUnit_map (current unit : List α) :
    joinUnit toChar (f joiner) (current.map f) (unit.map f) =
      (joinUnit (fun a => toChar (f a)) joiner current unit).map f := by
  unfold joinUnit
  rw [List.isEmpty_map, ← List.map_cons, ← List.map_append, stripBy_map, apply_ite (List.map f)]

theorem overlapTail_map (current : List α) :
    overlapTail toChar config (current.map f) =
      (overlapTail (fun a => toChar (f a)) config current).map f := by
  unfold overlapTail
  rw [List.isEmpty_map, List.length_map, ← List.map_drop, stripBy_map, apply_ite (List.map f)]
  rfl

theorem chunksFrom_map (units : List (List α)) (current : List α) :
    chunksFrom toChar (f joiner) config (current.map f) (units.map (List.map f)) =
      (chunksFrom (fun a => toChar (f a)) joiner config current units).map (List.map f) := by
  induction units generalizing current with
  | nil => exact flushChunk_map f toChar current
  | cons unit units ih =>
    have hempty : chunksFrom toChar (f joiner) config [] (units.map (List.map f)) =
        (chunksFrom (fun a => toChar (f a)) joiner config [] units).map (List.map f) := ih []
    rw [List.map_cons]
    unfold chunksFrom
    rw [overlapTail_map, joinUnit_map, joinUnit_map, flushChunk_map, windowsFrom_map, hempty, ih,
      ih, List.length_map, List.length_map]
    split
    · rw [List.map_append, List.map_append]
    · split
      · rfl
      · rw [List.map_append]

theorem chunkText_map (text : List α) :
    chunkText toChar (f joiner) config (text.map f) =
      (chunkText (fun a => toChar (f a)) joiner config text).map (List.map f) := by
  unfold chunkText
  rw [splitUnits_map]
  exact chunksFrom_map f toChar config joiner _ []

end

/-! ### Marks -/

/-- A character and the offset it is read from; a joined blank has none. -/
abbrev Mark := Char × Option Nat

/-- The characters of a text, each with its offset. -/
def marked (text : List Char) : List Mark := text.zipIdx.map fun p => (p.1, some p.2)

/-- The characters of a chunk. -/
def chars (chunk : List Mark) : List Char := chunk.map Prod.fst

/-- The chunks of a text, as they are read from it. -/
def markedChunks (config : FixedConfig) (text : List Char) : List (List Mark) :=
  chunkText Prod.fst (' ', none) config (marked text)

/-- The part of the source that a chunk is read from. -/
def ownSpan (chunk : List Mark) : Option Span := do
  let first ← chunk.head?
  let start ← first.2
  let last ← chunk.getLast?
  let stop ← last.2
  return ⟨start, stop + 1⟩

/-- Without the offsets, these are the chunks of the code. -/
theorem chunkText_marked (config : FixedConfig) (text : List Char) :
    chunkText id ' ' config text = (markedChunks config text).map chars := by
  have htext : (marked text).map Prod.fst = text := by
    unfold marked
    rw [List.map_map]
    exact List.zipIdx_map_fst 0 text
  have := chunkText_map Prod.fst id config ((' ', none) : Mark) (marked text)
  rw [htext] at this
  exact this

/-! ### Stripping -/

section

variable {α : Type} (toChar : α → Char)

/-- The first and the last symbol are visible. -/
structure Stripped (chunk : List α) : Prop where
  first : ∃ a, chunk.head? = some a ∧ Visible (toChar a)
  last : ∃ a, chunk.getLast? = some a ∧ Visible (toChar a)

/-- What is left after leading white space starts with a visible symbol. -/
theorem head?_dropWhile_visible {text : List α}
    (h : (text.dropWhile fun a => isPySpace (toChar a)) ≠ []) :
    ∃ a, (text.dropWhile fun a => isPySpace (toChar a)).head? = some a ∧ Visible (toChar a) :=
  ⟨_, List.head?_eq_some_head h, List.head_dropWhile_not _ h⟩

/-- Stripping cuts white space off both ends, and what is left ends with visible symbols. -/
theorem stripBy_spec (text : List α) :
    ∃ before after, text = before ++ (stripBy toChar text ++ after) ∧
      (∀ a ∈ before, isPySpace (toChar a) = true) ∧ (∀ a ∈ after, isPySpace (toChar a) = true) ∧
      (stripBy toChar text ≠ [] → Stripped toChar (stripBy toChar text)) := by
  have hspace : ∀ {text : List α} {a : α}, a ∈ text.takeWhile (fun a => isPySpace (toChar a)) →
      isPySpace (toChar a) = true := fun ha =>
        List.mem_takeWhile_imp (p := fun a => isPySpace (toChar a)) ha
  obtain ⟨left, hleft⟩ : ∃ left, left = text.dropWhile fun a => isPySpace (toChar a) := ⟨_, rfl⟩
  obtain ⟨kept, hkept⟩ : ∃ kept, kept = left.reverse.dropWhile fun a => isPySpace (toChar a) :=
    ⟨_, rfl⟩
  have hstrip : stripBy toChar text = kept.reverse := by rw [hkept, hleft]; rfl
  have hsplit : left = kept.reverse ++
      (left.reverse.takeWhile fun a => isPySpace (toChar a)).reverse := by
    rw [← List.reverse_append, hkept, List.takeWhile_append_dropWhile, List.reverse_reverse]
  refine ⟨text.takeWhile fun a => isPySpace (toChar a),
    (left.reverse.takeWhile fun a => isPySpace (toChar a)).reverse, ?_, fun a ha => hspace ha,
    fun a ha => hspace (List.mem_reverse.mp ha), ?_⟩
  · rw [hstrip, ← hsplit, hleft, List.takeWhile_append_dropWhile]
  · intro hne
    rw [hstrip] at hne ⊢
    constructor
    · have hhead : kept.reverse.head? = left.head? := by
        rw [hsplit, List.head?_append_of_ne_nil _ hne]
      have hleftne : left ≠ [] := by
        rw [hsplit]
        exact List.append_ne_nil_of_left_ne_nil hne _
      rw [hhead]
      rw [hleft] at hleftne ⊢
      exact head?_dropWhile_visible toChar hleftne
    · have hkeptne : kept ≠ [] := fun hnil => hne (by rw [hnil, List.reverse_nil])
      rw [List.getLast?_reverse]
      rw [hkept] at hkeptne ⊢
      exact head?_dropWhile_visible toChar hkeptne

variable {toChar}

/-- Stripped text stays as it is. -/
theorem Stripped.stripBy_eq {text : List α} (h : Stripped toChar text) :
    stripBy toChar text = text := by
  obtain ⟨⟨a, ha, hfirst⟩, b, hb, hlast⟩ := h
  have hdrop : ∀ {text : List α} {a : α}, text.head? = some a → Visible (toChar a) →
      (text.dropWhile fun a => isPySpace (toChar a)) = text := by
    intro text a ha hvisible
    cases text with
    | nil => rfl
    | cons c text =>
      cases ha
      exact List.dropWhile_cons_of_neg (by rw [hvisible]; exact Bool.false_ne_true)
  unfold stripBy
  rw [hdrop ha hfirst, hdrop (List.head?_reverse ▸ hb) hlast, List.reverse_reverse]

/-- A suffix of stripped text is stripped once its leading white space is gone. -/
theorem Stripped.suffix {text rest : List α} (h : Stripped toChar text) (hrest : rest <:+ text)
    (hne : rest ≠ []) : Stripped toChar (stripBy toChar rest) ∧
      ∃ before, before ++ stripBy toChar rest = rest ∧ ∀ a ∈ before,
        isPySpace (toChar a) = true := by
  obtain ⟨a, ha, hlast⟩ := h.last
  have hlastRest : rest.getLast? = some a := by
    obtain ⟨front, rfl⟩ := hrest
    rwa [List.getLast?_append_of_ne_nil _ hne] at ha
  obtain ⟨before, after, htext, hbefore, hafter, hstripped⟩ := stripBy_spec toChar rest
  -- Nothing is cut off at the end, since the last symbol is visible.
  have hnil : after = [] := by
    by_contra hcons
    have hmem : a ∈ after := by
      rw [htext, ← List.append_assoc, List.getLast?_append_of_ne_nil _ hcons] at hlastRest
      exact List.mem_of_getLast? hlastRest
    exact Bool.noConfusion ((hafter a hmem).symm.trans hlast)
  have hstripne : stripBy toChar rest ≠ [] := by
    intro hempty
    rw [hnil, hempty, List.append_nil, List.append_nil] at htext
    exact Bool.noConfusion ((hbefore a (htext ▸ List.mem_of_getLast? hlastRest)).symm.trans hlast)
  refine ⟨hstripped hstripne, before, ?_, hbefore⟩
  rw [hnil, List.append_nil] at htext
  exact htext.symm

end

/-! ### Reading the source -/

/-- Nothing visible in a range. -/
def Blank (text : List Char) (start stop : Nat) : Prop :=
  ∀ i, start ≤ i → i < stop → ¬VisibleAt text i

/-- A chunk reads the source from left to right; a joined blank skips two or more blanks. -/
inductive Trace (text : List Char) : Nat → List Mark → Nat → Prop
  | nil (start : Nat) : Trace text start [] start
  | char {start stop : Nat} {c : Char} {chunk : List Mark} (hc : text[start]? = some c)
      (hrest : Trace text (start + 1) chunk stop) : Trace text start ((c, some start) :: chunk) stop
  | gap {start next stop : Nat} {chunk : List Mark} (hle : start + 2 ≤ next)
      (hblank : Blank text start next) (hvisible : VisibleAt text next)
      (hrest : Trace text next chunk stop) : Trace text start ((' ', none) :: chunk) stop

/-- The chunk reads `[start, stop)`, and both ends are visible. -/
structure Solid (text : List Char) (start : Nat) (chunk : List Mark) (stop : Nat) : Prop where
  trace : Trace text start chunk stop
  stripped : Stripped Prod.fst chunk

section

variable {text : List Char} {start mid stop : Nat} {chunk : List Mark}

theorem Trace.le (h : Trace text start chunk stop) : start ≤ stop := by
  induction h with
  | nil => exact le_refl _
  | char _ _ ih => omega
  | gap hle _ _ _ ih => omega

theorem Trace.append {more : List Mark} (h : Trace text start chunk mid)
    (hmore : Trace text mid more stop) : Trace text start (chunk ++ more) stop := by
  induction h with
  | nil => exact hmore
  | char hc _ ih => exact .char hc (ih hmore)
  | gap hle hblank hvisible _ ih => exact .gap hle hblank hvisible (ih hmore)

/-- The rest of a chunk reads the source from a later offset. -/
theorem Trace.suffix {rest : List Mark} (h : Trace text start chunk stop) (hrest : rest <:+ chunk) :
    ∃ next, start ≤ next ∧ Trace text next rest stop := by
  induction h with
  | nil start =>
    rw [List.suffix_nil.mp hrest]
    exact ⟨start, le_refl _, .nil start⟩
  | @char start stop c chunk hc htrace ih =>
    rcases List.suffix_cons_iff.mp hrest with rfl | hrest
    · exact ⟨start, le_refl _, .char hc htrace⟩
    · obtain ⟨next, hle, hnext⟩ := ih hrest
      exact ⟨next, by omega, hnext⟩
  | @gap start next stop chunk hle hblank hvisible htrace ih =>
    rcases List.suffix_cons_iff.mp hrest with rfl | hrest
    · exact ⟨start, le_refl _, .gap hle hblank hvisible htrace⟩
    · obtain ⟨next', hle', hnext⟩ := ih hrest
      exact ⟨next', by omega, hnext⟩

theorem Trace.head {a : Mark} (h : Trace text start chunk stop) (ha : chunk.head? = some a)
    (hvisible : Visible a.1) : a = (a.1, some start) ∧ text[start]? = some a.1 := by
  cases h with
  | nil => cases ha
  | char hc _ =>
    cases ha
    exact ⟨rfl, hc⟩
  | gap => cases ha; cases hvisible

theorem Trace.last {a : Mark} (h : Trace text start chunk stop) (ha : chunk.getLast? = some a)
    (hvisible : Visible a.1) : a = (a.1, some (stop - 1)) ∧ text[stop - 1]? = some a.1 ∧
    start < stop := by
  induction h with
  | nil => cases ha
  | @char start stop c chunk hc htrace ih =>
    cases chunk with
    | nil =>
      cases ha
      cases htrace
      exact ⟨rfl, hc, Nat.lt_succ_self _⟩
    | cons b chunk =>
      rw [List.getLast?_cons_cons] at ha
      obtain ⟨heq, hget, hlt⟩ := ih ha
      exact ⟨heq, hget, by omega⟩
  | @gap start next stop chunk hle hblank hnext htrace ih =>
    cases chunk with
    | nil => cases ha; cases hvisible
    | cons b chunk =>
      rw [List.getLast?_cons_cons] at ha
      obtain ⟨heq, hget, hlt⟩ := ih ha
      exact ⟨heq, hget, by omega⟩

theorem length_marked : (marked text).length = text.length := by simp [marked]

/-- A slice of the marked text reads that part of the source. -/
theorem trace_slice (hle : start ≤ stop) (hstop : stop ≤ text.length) :
    Trace text start (slice (marked text) start stop) stop := by
  obtain ⟨n, rfl⟩ := Nat.exists_eq_add_of_le hle
  induction n generalizing start with
  | zero =>
    have hnil : slice (marked text) start (start + 0) = [] := by
      rw [← List.length_eq_zero_iff, length_slice, length_marked]
      omega
    rw [hnil]
    exact .nil start
  | succ n ih =>
    have hlt : start < text.length := by omega
    have hcons : slice (marked text) start (start + (n + 1)) =
        (text[start], some start) :: slice (marked text) (start + 1) (start + (n + 1)) := by
      rw [slice_cons (by omega) (by rwa [length_marked])]
      simp [marked]
    rw [hcons, show start + (n + 1) = start + 1 + n by omega]
    exact .char (List.getElem?_eq_getElem hlt) (ih (by omega) (by omega))

theorem Solid.visible_start (h : Solid text start chunk stop) : VisibleAt text start := by
  obtain ⟨a, ha, hvisible⟩ := h.stripped.first
  exact ⟨a.1, (h.trace.head ha hvisible).2, hvisible⟩

theorem Solid.visible_last (h : Solid text start chunk stop) : VisibleAt text (stop - 1) := by
  obtain ⟨a, ha, hvisible⟩ := h.stripped.last
  exact ⟨a.1, (h.trace.last ha hvisible).2.1, hvisible⟩

theorem Solid.lt (h : Solid text start chunk stop) : start < stop := by
  obtain ⟨a, ha, hvisible⟩ := h.stripped.last
  exact (h.trace.last ha hvisible).2.2

theorem VisibleAt.lt {i : Nat} (h : VisibleAt text i) : i < text.length := by
  obtain ⟨c, hc, -⟩ := h
  exact (List.getElem?_eq_some_iff.mp hc).1

theorem Solid.stop_le (h : Solid text start chunk stop) : stop ≤ text.length := by
  have := h.visible_last.lt
  have := h.lt
  omega

/-- The marks of a solid chunk tell where it comes from. -/
theorem Solid.ownSpan_eq (h : Solid text start chunk stop) :
    ownSpan chunk = some ⟨start, stop⟩ := by
  obtain ⟨a, ha, hfirst⟩ := h.stripped.first
  obtain ⟨b, hb, hlast⟩ := h.stripped.last
  have hlt := h.lt
  have hstart : a.2 = some start := congrArg Prod.snd (h.trace.head ha hfirst).1
  have hstop : b.2 = some (stop - 1) := congrArg Prod.snd (h.trace.last hb hlast).1
  have hsub : stop - 1 + 1 = stop := by omega
  simp [ownSpan, ha, hb, hstart, hstop, hsub]

theorem Solid.ne_nil (h : Solid text start chunk stop) : chunk ≠ [] := by
  obtain ⟨a, ha, -⟩ := h.stripped.first
  intro hnil
  rw [hnil] at ha
  cases ha

/-- Two solid chunks with blanks in between, joined by one blank. -/
theorem Solid.join {next stop' : Nat} {unit : List Mark} (h : Solid text start chunk stop)
    (hunit : Solid text next unit stop') (hle : stop + 2 ≤ next) (hblank : Blank text stop next) :
    Solid text start (chunk ++ (' ', none) :: unit) stop' where
  trace := h.trace.append (.gap hle hblank hunit.visible_start hunit.trace)
  stripped := by
    obtain ⟨a, ha, hfirst⟩ := h.stripped.first
    obtain ⟨b, hb, hlast⟩ := hunit.stripped.last
    refine ⟨⟨a, ?_, hfirst⟩, b, ?_, hlast⟩
    · rw [List.head?_append_of_ne_nil _ h.ne_nil]
      exact ha
    · rw [List.getLast?_append_of_ne_nil _ (List.cons_ne_nil _ _),
        List.getLast?_cons_of_ne_nil hunit.ne_nil]
      exact hb

/-- The end of a solid chunk, stripped, is solid. -/
theorem Solid.suffix {rest : List Mark} (h : Solid text start chunk stop) (hrest : rest <:+ chunk)
    (hne : rest ≠ []) : ∃ next, start ≤ next ∧ Solid text next (stripBy Prod.fst rest) stop := by
  obtain ⟨hstripped, before, hsuffix, -⟩ := h.stripped.suffix hrest hne
  obtain ⟨next, hle, htrace⟩ := h.trace.suffix (List.IsSuffix.trans ⟨before, hsuffix⟩ hrest)
  exact ⟨next, hle, htrace, hstripped⟩

end

/-! ### Units -/

/-- The units from an offset on: solid slices with two or more blanks in between, and nothing
visible left out. -/
inductive Units (text : List Char) : Nat → List (List Mark) → Prop
  | nil {lo : Nat} (hblank : ∀ i, lo ≤ i → ¬VisibleAt text i) : Units text lo []
  | cons {lo start stop next : Nat} {units : List (List Mark)} (hlo : lo ≤ start)
      (hbefore : Blank text lo start)
      (hsolid : Solid text start (slice (marked text) start stop) stop) (hnext : stop + 2 ≤ next)
      (hafter : Blank text stop next) (hunits : Units text next units) :
      Units text lo (slice (marked text) start stop :: units)

section

variable {text : List Char} {start stop : Nat}

theorem Blank.append {mid : Nat} (h : Blank text start mid) (h' : Blank text mid stop) :
    Blank text start stop := by
  intro i hi hstop
  by_cases hmid : i < mid
  · exact h i hi hmid
  · exact h' i (Nat.not_lt.mp hmid) hstop

theorem Blank.mono {start' stop' : Nat} (h : Blank text start stop) (hstart : start ≤ start')
    (hstop : stop' ≤ stop) : Blank text start' stop' := fun i hi hlt =>
      h i (hstart.trans hi) (hlt.trans_le hstop)

theorem getElem?_marked (text : List Char) (i : Nat) :
    (marked text)[i]? = text[i]?.map fun c => (c, some i) := by
  rw [marked, List.getElem?_map, List.getElem?_zipIdx, Option.map_map]
  simp [Function.comp_def]

theorem blank_iff_slice :
    Blank text start stop ↔ ∀ a ∈ slice (marked text) start stop, isPySpace a.1 = true := by
  constructor
  · intro h a ha
    obtain ⟨i, hi, hstop, hget⟩ := mem_slice.mp ha
    rw [getElem?_marked] at hget
    obtain ⟨c, hc, rfl⟩ := Option.map_eq_some_iff.mp hget
    exact Bool.of_not_eq_false fun hvisible => h i hi hstop ⟨c, hc, hvisible⟩
  · rintro h i hi hstop ⟨c, hc, hvisible⟩
    have hmem : (c, some i) ∈ slice (marked text) start stop := by
      refine mem_slice.mpr ⟨i, hi, hstop, ?_⟩
      rw [getElem?_marked, hc]
      rfl
    exact Bool.noConfusion ((h _ hmem).symm.trans hvisible)

theorem isBlank_map {chunk : List Mark} :
    isBlank (chunk.map Prod.fst) = true ↔ ∀ a ∈ chunk, isPySpace a.1 = true := by
  unfold isBlank
  rw [List.all_map, List.all_eq_true]
  rfl

/-- Stripping a slice of the source: nothing is left of a blank one, and a solid slice of any other.
-/
theorem stripBy_slice (text : List Char) {start stop : Nat} (hle : start ≤ stop)
    (hstop : stop ≤ text.length) :
    (Blank text start stop ∧ stripBy Prod.fst (slice (marked text) start stop) = []) ∨
      ∃ first last, start ≤ first ∧ last ≤ stop ∧ Blank text start first ∧ Blank text last stop ∧
        stripBy Prod.fst (slice (marked text) start stop) = slice (marked text) first last ∧
        Solid text first (slice (marked text) first last) last := by
  rw [← length_marked] at hstop
  obtain ⟨before, after, htext, hbefore, hafter, hstripped⟩ :=
    stripBy_spec Prod.fst (slice (marked text) start stop)
  obtain ⟨hfirst, hbeforeEq, hrest⟩ := slice_eq_append hle hstop htext
  obtain ⟨hlast, hkeptEq, hafterEq⟩ := slice_eq_append hfirst hstop hrest.symm
  have hblankBefore : Blank text start (start + before.length) :=
    blank_iff_slice.mpr (hbeforeEq ▸ hbefore)
  have hblankAfter := blank_iff_slice.mpr (hafterEq ▸ hafter)
  by_cases hnil : stripBy Prod.fst (slice (marked text) start stop) = []
  · left
    rw [hnil, List.length_nil, Nat.add_zero] at hblankAfter
    exact ⟨hblankBefore.append hblankAfter, hnil⟩
  · right
    refine ⟨_, _, Nat.le_add_right _ _, hlast, hblankBefore, hblankAfter, hkeptEq, ?_, ?_⟩
    · exact trace_slice (Nat.le_add_right _ _) (by rw [← length_marked]; exact hlast.trans hstop)
    · rw [← hkeptEq]
      exact hstripped hnil

theorem Units.mono {lo lo' : Nat} {units : List (List Mark)} (h : Units text lo' units)
    (hle : lo ≤ lo') (hblank : Blank text lo lo') : Units text lo units := by
  cases h with
  | nil hrest =>
    refine .nil fun i hi => ?_
    by_cases hlt : i < lo'
    · exact hblank i hi hlt
    · exact hrest i (Nat.not_lt.mp hlt)
  | cons hlo hbefore hsolid hnext hafter hunits =>
    exact .cons (hle.trans hlo) (hblank.append hbefore) hsolid hnext hafter hunits

/-- Flushing a part of the source, with two or more blanks at its end or after it. -/
theorem flushUnit_units {tail next : Nat} {units : List (List Mark)} (hle : start ≤ stop)
    (hstop : stop ≤ text.length) (htail : tail ≤ stop) (hnext : stop ≤ next)
    (hgap : tail + 2 ≤ next) (hblank : Blank text tail next) (hunits : Units text next units) :
    Units text start (flushUnit Prod.fst (slice (marked text) start stop) ++ units) := by
  unfold flushUnit
  rcases stripBy_slice text hle hstop with ⟨hnone, -⟩ | ⟨first, last, hfirst, hlast, hbefore,
    hafter, hstrip, hsolid⟩
  · rw [if_pos (isBlank_map.mpr (blank_iff_slice.mp hnone)), List.nil_append]
    exact hunits.mono (hle.trans hnext) (hnone.append (hblank.mono htail (le_refl _)))
  · have hlt := hsolid.lt
    rw [if_neg ?_, hstrip]
    · refine .cons hfirst hbefore hsolid ?_ (hafter.append (hblank.mono htail (le_refl _))) hunits
      by_contra hshort
      exact hblank (last - 1) (by omega) (by omega) hsolid.visible_last
    · intro hall
      exact blank_iff_slice.mpr (isBlank_map.mp hall) first hfirst (by omega) hsolid.visible_start

/-- A part that is a boundary on its own is two or more line breaks: nothing is before it to look
back at. -/
theorem boundary_fullMatch {part : List Char} (h : (boundary.fullMatch? part).isSome = true) :
    2 ≤ part.length ∧ ∀ c ∈ part, isPySpace c = true := by
  obtain ⟨groups, h⟩ := Option.isSome_iff_exists.mp h
  obtain ⟨d, hd, -⟩ := Option.map_eq_some_iff.mp h
  have hempty : d.rest = [] :=
    List.isEmpty_iff.mp (List.find?_some (p := fun d : Cursor Char => d.rest.isEmpty) hd)
  rcases List.mem_append.mp (List.mem_of_find?_eq_some hd) with hmem | hmem
  · obtain ⟨e, he, hd⟩ := List.mem_flatMap.mp hmem
    obtain ⟨a, rest, hpart, ha, rfl⟩ := mem_ends_char.mp he
    obtain ⟨run, hrun, hall, hlength⟩ := mem_ends_plus_char hd
    have hspace : ∀ c : Char, decide (c = '\n') = true → isPySpace c = true := by
      intro c hc
      rw [of_decide_eq_true hc]
      decide
    rw [hempty, List.append_nil] at hrun
    have hpart : part = a :: run := hpart.trans (congrArg (a :: ·) hrun)
    rw [hpart]
    refine ⟨by rw [List.length_cons]; omega, fun c hc => ?_⟩
    rcases List.mem_cons.mp hc with rfl | hc
    · exact hspace c ha
    · exact hspace c (hall c hc)
  · obtain ⟨e, he, -⟩ := List.mem_flatMap.mp hmem
    cases he

/-- The units of the parts of the source from an offset on, with `[start, mid)` not flushed yet. -/
theorem unitsFrom_units {mid : Nat} {parts : List (List Mark)} (hstart : start ≤ mid)
    (hmid : mid ≤ stop) (hstop : stop ≤ text.length)
    (hparts : parts.flatten = slice (marked text) mid stop)
    (hrest : ∀ i, stop ≤ i → ¬VisibleAt text i) :
    Units text start (unitsFrom Prod.fst (slice (marked text) start mid) parts) := by
  induction parts generalizing start mid with
  | nil =>
    have hlength := congrArg List.length hparts
    rw [List.flatten_nil, List.length_nil, length_slice, length_marked] at hlength
    have hend : mid = stop := by omega
    subst hend
    have hend : Units text (mid + 2) [] := .nil fun i hi => hrest i (by omega)
    have h := flushUnit_units hstart hstop (le_refl _) (Nat.le_add_right _ _) (le_refl _)
      (fun i hi _ => hrest i hi) hend
    rwa [List.append_nil] at h
  | cons part parts ih =>
    obtain ⟨hnext, hpart, hparts⟩ := slice_eq_append hmid (by rwa [length_marked]) hparts.symm
    unfold unitsFrom
    split
    · rename_i hempty
      rw [List.isEmpty_iff.mp hempty, List.length_nil, Nat.add_zero] at hparts
      exact ih hstart hmid hparts
    · have happend : slice (marked text) start mid ++ part =
          slice (marked text) start (mid + part.length) := by
        rw [← slice_append (marked text) hstart (Nat.le_add_right mid part.length), ← hpart]
      split
      · rename_i hfull
        obtain ⟨hlength, hspaces⟩ := boundary_fullMatch hfull
        have hblank : Blank text mid (mid + part.length) := by
          rw [blank_iff_slice, ← hpart]
          intro a ha
          exact hspaces a.1 (List.mem_map_of_mem ha)
        rw [List.length_map] at hlength
        have hnil := ih (le_refl (mid + part.length)) hnext hparts
        rw [slice_self] at hnil
        rw [happend]
        exact flushUnit_units (by omega) (hnext.trans hstop) (Nat.le_add_right _ _) (le_refl _)
          (by omega) hblank hnil
      · rw [happend]
        exact ih (by omega) hnext hparts

theorem flatten_partsFrom {α : Type} {text : List α} {cursor : Nat} {founds : List (Found Char)}
    (h : Chain cursor founds text.length) :
    (partsFrom text cursor founds).flatten = slice text cursor text.length := by
  induction founds generalizing cursor with
  | nil =>
    unfold partsFrom
    rw [List.flatten_singleton]
  | cons found founds ih =>
    obtain ⟨hstart, -, hrest⟩ := h
    have hfound : found.start ≤ found.stop := Nat.le_add_right _ _
    unfold partsFrom
    rw [List.flatten_cons, List.flatten_cons, ih hrest, slice_append text hfound hrest.le,
      slice_append text hstart (hfound.trans hrest.le)]

theorem flatten_boundaryParts {α : Type} (toChar : α → Char) (text : List α) :
    (boundaryParts toChar text).flatten = text := by
  have hlength : (text.map toChar).length = text.length := List.length_map toChar
  have hchain : Chain 0 (boundary.findAll (text.map toChar) 0 text.length) text.length :=
    findAll_chain (Nat.zero_le text.length) (le_of_eq hlength.symm)
  exact (flatten_partsFrom hchain).trans (slice_all text)

/-- The units of a text. -/
theorem splitUnits_units (text : List Char) : Units text 0 (splitUnits Prod.fst (marked text)) := by
  have hafter : ∀ i, text.length ≤ i → ¬VisibleAt text i := fun i hi hvisible => by
    have := hvisible.lt
    omega
  have hall : slice (marked text) 0 text.length = marked text := by
    rw [← length_marked]
    exact slice_all _
  obtain ⟨hle, hspec⟩ : text.length ≤ text.length ∧ _ :=
    ⟨le_refl _, stripBy_slice text (Nat.zero_le text.length) (le_refl _)⟩
  rw [hall] at hspec
  unfold splitUnits
  rcases hspec with ⟨hblank, hstrip⟩ | ⟨first, last, -, hlast, hbefore, hbetween, hstrip, hsolid⟩
  · rw [hstrip]
    exact .nil fun i _ => by
      by_cases hi : i < text.length
      · exact hblank i (Nat.zero_le i) hi
      · exact hafter i (Nat.not_lt.mp hi)
  · rw [hstrip]
    have hrest : ∀ i, last ≤ i → ¬VisibleAt text i := fun i hi => by
      by_cases hlt : i < text.length
      · exact hbetween i hi hlt
      · exact hafter i (Nat.not_lt.mp hlt)
    have h := unitsFrom_units (le_refl first) (le_of_lt hsolid.lt) hlast
      (flatten_boundaryParts Prod.fst (slice (marked text) first last)) hrest
    rw [slice_self] at h
    exact h.mono (Nat.zero_le _) hbefore

end

/-! ### Chunks -/

/-- The chunks from an offset on: each is solid or empty, starts at or after `floor`, and nothing
visible from `reach` on lies before it or between the chunks. -/
inductive Sweep (text : List Char) : Nat → Nat → List (List Mark) → Prop
  | nil {floor reach : Nat} (hrest : ∀ i, reach ≤ i → ¬VisibleAt text i) : Sweep text floor reach []
  | empty {floor reach : Nat} {chunks : List (List Mark)}
      (hchunks : Sweep text floor reach chunks) : Sweep text floor reach ([] :: chunks)
  | cons {floor reach start stop : Nat} {chunk : List Mark} {chunks : List (List Mark)}
      (hfloor : floor ≤ start) (hblank : Blank text reach start)
      (hsolid : Solid text start chunk stop) (hchunks : Sweep text start stop chunks) :
      Sweep text floor reach (chunk :: chunks)

section

variable {text : List Char} {config : FixedConfig}

/-- The windows of a unit sweep over it. -/
theorem windowsFrom_sweep {unitStart unitStop : Nat} {rest : List (List Mark)}
    (hunit : Solid text unitStart (slice (marked text) unitStart unitStop) unitStop)
    (hrest : ∀ floor, floor ≤ unitStop → Sweep text floor unitStop rest) {start floor reach : Nat}
    (hlt : unitStart + start < unitStop) (hfloor : Blank text (unitStart + start) floor)
    (hreach : Blank text reach (unitStart + start)) :
    Sweep text floor reach (windowsFrom Prod.fst config (slice (marked text) unitStart unitStop)
      start ++ rest) := by
  have hstop := hunit.stop_le
  have hlength : (slice (marked text) unitStart unitStop).length = unitStop - unitStart := by
    rw [length_slice, length_marked, Nat.min_eq_left hstop]
  induction start using windowsFrom.induct config (slice (marked text) unitStart unitStop)
    generalizing floor reach with
  | case1 start hstart ih =>
    have hoverlap := config.overlap_lt
    rw [windowsFrom_of_lt hstart, hlength, slice_slice (marked text) (by omega), List.cons_append]
    have hwindow : unitStart + start ≤
        unitStart + min (start + config.chunkSize) (unitStop - unitStart) := by omega
    rcases stripBy_slice text hwindow (by omega) with
      ⟨hblank, hstrip⟩ | ⟨first, last, hfirst, hlast, hbefore, hafter, hstrip, hsolid⟩
    · -- A blank window is not the last one: the unit ends with a visible character.
      have hnext : start + config.chunkSize < unitStop - unitStart := by
        by_contra hge
        exact hblank (unitStop - 1) (by omega) (by omega) hunit.visible_last
      rw [hstrip, if_pos hnext]
      refine .empty (ih (by omega) ?_ ?_)
      · exact hfloor.mono (by omega) (le_refl _)
      · exact hreach.append (hblank.mono (le_refl _) (by omega))
    · have hfloorFirst : floor ≤ first := by
        by_contra hlt
        exact hfloor first hfirst (by omega) hsolid.visible_start
      rw [hstrip]
      refine .cons hfloorFirst (hreach.append hbefore) hsolid ?_
      split
      · rename_i hnext
        exact ih (by omega) (hbefore.mono (by omega) (le_refl _))
          (hafter.mono (le_refl _) (by omega))
      · rename_i hnext
        have hend : last = unitStop := by
          by_contra hne
          exact hafter (unitStop - 1) (by omega) (by omega) hunit.visible_last
        rw [hend] at hsolid ⊢
        exact hrest first (le_of_lt hsolid.lt)
  | case2 start hge => omega

theorem Sweep.mono {floor reach reach' : Nat} {chunks : List (List Mark)}
    (h : Sweep text floor reach' chunks) (hblank : Blank text reach reach') :
    Sweep text floor reach chunks := by
  induction h with
  | nil hrest =>
    rename_i reach'
    refine .nil fun i hi => ?_
    by_cases hlt : i < reach'
    · exact hblank i hi hlt
    · exact hrest i (Nat.not_lt.mp hlt)
  | empty hchunks ih => exact .empty (ih hblank)
  | cons hfloor hbefore hsolid hchunks => exact .cons hfloor (hblank.append hbefore) hsolid hchunks

section

variable {start stop next stop' : Nat} {current unit : List Mark}

theorem flushChunk_solid (h : Solid text start current stop) :
    flushChunk Prod.fst current = [current] := by
  unfold flushChunk
  rw [if_neg (by rw [List.isEmpty_iff]; exact h.ne_nil), h.stripped.stripBy_eq]

theorem joinUnit_solid (h : Solid text start current stop) (hunit : Solid text next unit stop')
    (hle : stop + 2 ≤ next) (hblank : Blank text stop next) :
    Solid text start (joinUnit Prod.fst (' ', none) current unit) stop' := by
  have hjoin := h.join hunit hle hblank
  unfold joinUnit
  rw [if_neg (by rw [List.isEmpty_iff]; exact h.ne_nil), hjoin.stripped.stripBy_eq]
  exact hjoin

/-- The next chunk takes over the end of the one before, or nothing. -/
theorem overlapTail_solid (config : FixedConfig) (h : Solid text start current stop) :
    overlapTail Prod.fst config current = [] ∨
      ∃ tailStart, start ≤ tailStart ∧
      Solid text tailStart (overlapTail Prod.fst config current) stop := by
  unfold overlapTail
  split
  · exact .inl rfl
  · rename_i hcond
    rw [not_or] at hcond
    have hlength : 0 < current.length := List.length_pos_iff.mpr h.ne_nil
    right
    refine h.suffix (List.drop_suffix _ _) fun hnil => ?_
    have := congrArg List.length hnil
    rw [List.length_drop, List.length_nil] at this
    omega

/-- The chunks of the units from an offset on, with a chunk that is not finished yet, or none. -/
theorem chunksFrom_sweep {units : List (List Mark)} {lo : Nat} (hunits : Units text lo units)
    {floor reach : Nat} : (floor ≤ lo → Blank text reach lo →
        Sweep text floor reach (chunksFrom Prod.fst (' ', none) config [] units)) ∧
      (Solid text start current stop → stop + 2 ≤ lo → Blank text stop lo → floor ≤ start →
        Blank text reach start →
        Sweep text floor reach (chunksFrom Prod.fst (' ', none) config current units)) := by
  induction hunits generalizing floor reach start stop current with
  | nil hrest =>
    rename_i lo
    have hnil : ∀ {floor reach : Nat}, Blank text reach lo → Sweep text floor reach [] := by
      intro floor reach hblank
      refine .nil fun i hi => ?_
      by_cases hlt : i < lo
      · exact hblank i hi hlt
      · exact hrest i (Nat.not_lt.mp hlt)
    constructor
    · intro hfloor hreach
      exact hnil hreach
    · intro hcurrent hle hblank hfloor hreach
      unfold chunksFrom
      rw [flushChunk_solid hcurrent]
      exact .cons hfloor hreach hcurrent (hnil hblank)
  | @cons lo first last next units hlo hbefore hunit hnext hafter hunits ih =>
    obtain ⟨unit, hunitEq⟩ : ∃ unit, unit = slice (marked text) first last := ⟨_, rfl⟩
    have hlt := hunit.lt
    -- The windows of this unit, if it is too long, and what follows them.
    have hwindows : ∀ {floor reach : Nat}, floor ≤ first → Blank text reach first →
        Sweep text floor reach (windowsFrom Prod.fst config unit 0 ++
          chunksFrom Prod.fst (' ', none) config [] units) := by
      intro floor reach hfloor hreach
      rw [hunitEq]
      refine windowsFrom_sweep hunit (fun floor hle => ?_) (by omega) ?_ hreach
      · exact (@ih 0 0 [] floor last).1 (by omega) hafter
      · exact fun i hi hlt => by omega
    rw [← hunitEq] at hunit ⊢
    constructor
    · intro hfloor hreach
      unfold chunksFrom
      split
      · exact hwindows (hfloor.trans hlo) (hreach.append hbefore)
      · rename_i hshort
        rw [if_pos (show (joinUnit Prod.fst (' ', none) [] unit).length ≤
          _ from Nat.not_lt.mp hshort)]
        exact ih.2 hunit hnext hafter (hfloor.trans hlo) (hreach.append hbefore)
    · intro hcurrent hle hblank hfloor hreach
      have hgap : Blank text stop first := hblank.append hbefore
      unfold chunksFrom
      rw [flushChunk_solid hcurrent]
      split
      · exact .cons hfloor hreach hcurrent (hwindows (by have := hcurrent.lt; omega) hgap)
      · split
        · exact ih.2 (joinUnit_solid hcurrent hunit (by omega) hgap) hnext hafter hfloor hreach
        · refine .cons hfloor hreach hcurrent ?_
          rcases overlapTail_solid config hcurrent with hnil | ⟨tailStart, hstart, htail⟩
          · rw [hnil]
            exact ih.2 hunit hnext hafter (by have := hcurrent.lt; omega) hgap
          · have := htail.lt
            exact ih.2 (joinUnit_solid htail hunit (by omega) hgap) hnext hafter hstart
              fun i hi hlt => by omega

end

/-- The chunks of a text sweep over it. -/
theorem markedChunks_sweep (config : FixedConfig) (text : List Char) :
    Sweep text 0 0 (markedChunks config text) :=
  (@chunksFrom_sweep text config 0 0 [] _ 0 (splitUnits_units text) 0 0).1 (le_refl 0)
    fun i hi hlt => by omega

theorem Sweep.solid {floor reach : Nat} {chunks : List (List Mark)}
    (h : Sweep text floor reach chunks) {chunk : List Mark} (hchunk : chunk ∈ chunks) :
    chunk = [] ∨ ∃ start stop, floor ≤ start ∧ Solid text start chunk stop := by
  induction h with
  | nil => cases hchunk
  | empty hchunks ih =>
    rcases List.mem_cons.mp hchunk with rfl | hchunk
    · exact .inl rfl
    · exact ih hchunk
  | cons hfloor hblank hsolid hchunks ih =>
    rcases List.mem_cons.mp hchunk with rfl | hchunk
    · exact .inr ⟨_, _, hfloor, hsolid⟩
    · rcases ih hchunk with hnil | ⟨start, stop, hle, hsolid'⟩
      · exact .inl hnil
      · exact .inr ⟨start, stop, by omega, hsolid'⟩

/-- Every visible character lies in the part of the source that some chunk is read from. -/
theorem Sweep.covers {floor reach : Nat} {chunks : List (List Mark)}
    (h : Sweep text floor reach chunks) {i : Nat} (hi : reach ≤ i) (hvisible : VisibleAt text i) :
    ∃ chunk ∈ chunks, ∃ own, ownSpan chunk = some own ∧ own.start ≤ i ∧ i < own.stop := by
  induction h with
  | nil hrest => exact absurd hvisible (hrest i hi)
  | empty hchunks ih =>
    obtain ⟨chunk, hchunk, hown⟩ := ih hi
    exact ⟨chunk, List.mem_cons_of_mem _ hchunk, hown⟩
  | @cons floor reach start stop chunk chunks hfloor hblank hsolid hchunks ih =>
    by_cases hstop : i < stop
    · refine ⟨chunk, List.mem_cons_self, ⟨start, stop⟩, hsolid.ownSpan_eq, ?_, hstop⟩
      by_contra hlt
      exact hblank i hi (Nat.not_le.mp hlt) hvisible
    · obtain ⟨chunk, hchunk, hown⟩ := ih (Nat.not_lt.mp hstop)
      exact ⟨chunk, List.mem_cons_of_mem _ hchunk, hown⟩

end

end ZhiyanRag.Ingestion
