import Mathlib.Order.Bounds.Basic
import ZhiyanRag.Ingestion.Parser
import ZhiyanRag.Ingestion.Provenance

/-!
# Page lineage

The blocks of a page keep every character of it that is no line break (`textBlockSpans_keeps`), and
the pages of the clean text are joined by line breaks only, so the blocks of a document keep every
such character of the clean text (`blocksFrom_lineage`). A chunk of a structural strategy therefore
overlaps exactly the blocks that it shares such a character with, and the records carry the pages of
these characters (`page_lineage`).
-/

namespace ZhiyanRag.Ingestion

open Regex Spans

/-- The character at an offset is no line break. -/
def PrintedAt (text : List Char) (i : Nat) : Prop := ∃ c, text[i]? = some c ∧ c ≠ '\n'

/-! ### Joined parts -/

section

variable {text sep : List Char}

theorem joinSpans_length (gap offset : Nat) (parts : List (List Char)) :
    (joinSpans gap offset parts).length = parts.length := by
  induction parts generalizing offset with
  | nil => rfl
  | cons part parts ih => exact congrArg (· + 1) (ih _)

/-- The parts are the slices of the joined text. -/
theorem slice_joinSpans {offset stop : Nat} {parts : List (List Char)} (hle : offset ≤ stop)
    (hstop : stop ≤ text.length) (htext : slice text offset stop = sep.intercalate parts)
    (hne : parts ≠ []) :
    (joinSpans sep.length offset parts).map (fun span => slice text span.start span.stop) = parts ∧
      ∀ span ∈ joinSpans sep.length offset parts, offset ≤ span.start ∧ span.start ≤ span.stop ∧
      span.stop ≤ stop := by
  induction parts generalizing offset with
  | nil => exact absurd rfl hne
  | cons part parts ih =>
    by_cases hparts : parts = []
    · rw [hparts, List.intercalate_singleton] at htext
      have hlength := congrArg List.length htext
      rw [length_slice, Nat.min_eq_left hstop] at hlength
      have hend : offset + part.length = stop := by omega
      subst hparts
      refine ⟨?_, fun span hspan => ?_⟩
      · unfold joinSpans joinSpans
        rw [List.map_singleton, hend, htext]
      · rw [List.mem_singleton.mp hspan]
        exact ⟨le_refl _, Nat.le_add_right _ _, le_of_eq hend⟩
    · rw [List.intercalate_cons_of_ne_nil hparts, List.append_assoc] at htext
      obtain ⟨hmid, hpart, hrest⟩ := slice_eq_append hle hstop htext
      obtain ⟨hnext, -, hrest⟩ := slice_eq_append hmid hstop hrest.symm
      obtain ⟨hmap, hbounds⟩ := ih hnext hrest.symm hparts
      refine ⟨?_, fun span hspan => ?_⟩
      · unfold joinSpans
        rw [List.map_cons, hmap, ← hpart]
      · rcases List.mem_cons.mp hspan with rfl | hspan
        · exact ⟨le_refl _, Nat.le_add_right _ _, hmid⟩
        · obtain ⟨h₁, h₂, h₃⟩ := hbounds span hspan
          exact ⟨by omega, h₂, h₃⟩

/-- Later parts lie behind. -/
theorem joinSpans_pairwise (gap offset : Nat) (parts : List (List Char)) :
    (joinSpans gap offset parts).Pairwise (fun a b => a.stop ≤ b.start) ∧
      ∀ span ∈ joinSpans gap offset parts, offset ≤ span.start ∧ span.start ≤ span.stop := by
  induction parts generalizing offset with
  | nil => exact ⟨List.Pairwise.nil, fun span hspan => by cases hspan⟩
  | cons part parts ih =>
    obtain ⟨hpairwise, hbounds⟩ := ih (offset + part.length + gap)
    refine ⟨List.Pairwise.cons (fun span hspan => ?_) hpairwise, fun span hspan => ?_⟩
    · have := (hbounds span hspan).1
      dsimp only
      omega
    · rcases List.mem_cons.mp hspan with rfl | hspan
      · exact ⟨le_refl _, Nat.le_add_right _ _⟩
      · have := hbounds span hspan
        omega

/-- Every printed character is in a part, if the separator is made of line breaks. -/
theorem joinSpans_covers {offset stop : Nat} {parts : List (List Char)} (hle : offset ≤ stop)
    (hstop : stop ≤ text.length) (hsep : ∀ c ∈ sep, c = '\n')
    (htext : slice text offset stop = sep.intercalate parts) :
    Covers (PrintedAt text) offset (joinSpans sep.length offset parts) stop := by
  induction parts generalizing offset with
  | nil =>
    intro i hi hlt
    have hlength := congrArg List.length htext
    rw [length_slice, Nat.min_eq_left hstop, List.intercalate_nil, List.length_nil] at hlength
    omega
  | cons part parts ih =>
    intro i hi hlt hprinted
    by_cases hin : i < offset + part.length
    · exact ⟨_, List.mem_cons_self, hi, hin⟩
    · by_cases hparts : parts = []
      · rw [hparts, List.intercalate_singleton] at htext
        have hlength := congrArg List.length htext
        rw [length_slice, Nat.min_eq_left hstop] at hlength
        omega
      · rw [List.intercalate_cons_of_ne_nil hparts, List.append_assoc] at htext
        obtain ⟨hmid, -, hrest⟩ := slice_eq_append hle hstop htext
        obtain ⟨hnext, hsepEq, hrest⟩ := slice_eq_append hmid hstop hrest.symm
        by_cases hbefore : i < offset + part.length + sep.length
        · obtain ⟨c, hc, hne⟩ := hprinted
          have hmem : c ∈ sep := by
            rw [hsepEq]
            exact mem_slice.mpr ⟨i, Nat.not_lt.mp hin, hbefore, hc⟩
          exact absurd (hsep c hmem) hne
        · obtain ⟨span, hspan, hmem⟩ := ih hnext hrest.symm i (Nat.not_lt.mp hbefore) hlt hprinted
          exact ⟨span, List.mem_cons_of_mem _ hspan, hmem⟩

end

/-! ### Lines -/

/-- No piece between line breaks has one. -/
theorem not_mem_splitOn {text piece : List Char} (h : piece ∈ text.splitOn '\n') :
    '\n' ∉ piece := by
  rw [List.splitOn_eq_splitOnP] at h
  induction text generalizing piece with
  | nil =>
    rw [List.splitOnP_nil, List.mem_singleton] at h
    rw [h]
    exact List.not_mem_nil
  | cons c text ih =>
    rw [List.splitOnP_cons_eq_if_modifyHead] at h
    split at h
    · rcases List.mem_cons.mp h with rfl | h
      · exact List.not_mem_nil
      · exact ih h
    · rename_i hc
      obtain ⟨first, rest, hsplit⟩ :=
        List.exists_cons_of_ne_nil (List.splitOnP_ne_nil (fun d => d == '\n') text)
      rw [hsplit] at h ih
      rw [List.modifyHead_cons] at h
      rcases List.mem_cons.mp h with rfl | h
      · rw [List.mem_cons, not_or]
        refine ⟨fun heq => hc ?_, ih List.mem_cons_self⟩
        rw [← heq]
        exact beq_self_eq_true _
      · exact ih (List.mem_cons_of_mem _ h)

section

variable {text : List Char}

theorem splitOn_joined (text : List Char) :
    slice text 0 text.length = ['\n'].intercalate (text.splitOn '\n') := by
  rw [slice_all, List.intercalate_splitOn]

theorem splitOn_ne_nil (text : List Char) : text.splitOn '\n' ≠ [] := by
  rw [List.splitOn_eq_splitOnP]
  exact List.splitOnP_ne_nil _ _

/-- The text of a line is a piece between line breaks, and not empty. -/
theorem lineSpans_piece {line : Span} (h : line ∈ lineSpans text) :
    slice text line.start line.stop ∈ text.splitOn '\n' ∧ line.start < line.stop ∧
    line.stop ≤ text.length := by
  obtain ⟨hmap, hbounds⟩ := slice_joinSpans (Nat.zero_le text.length) (le_refl _)
    (splitOn_joined text) (splitOn_ne_nil text)
  obtain ⟨hline, hlt⟩ := List.mem_filter.mp h
  refine ⟨?_, of_decide_eq_true hlt, (hbounds line hline).2.2⟩
  rw [← hmap]
  exact List.mem_map_of_mem (f := fun span : Span => slice text span.start span.stop) hline

/-- All characters of a line are printed. -/
theorem printedAt_of_mem_line {line : Span} (h : line ∈ lineSpans text) {i : Nat} (hi : i ∈ line) :
    PrintedAt text i := by
  obtain ⟨hpiece, -, hstop⟩ := lineSpans_piece h
  rw [Span.mem_iff] at hi
  have hlt : i < text.length := by omega
  refine ⟨text[i], List.getElem?_eq_getElem hlt, fun heq => not_mem_splitOn hpiece ?_⟩
  exact mem_slice.mpr ⟨i, hi.1, hi.2, by rw [List.getElem?_eq_getElem hlt, heq]⟩

/-- Lines keep every printed character. -/
theorem lineSpans_keeps (text : List Char) :
    Keeps (PrintedAt text) 0 (lineSpans text) text.length where
  ordered := by
    obtain ⟨hpairwise, -⟩ := joinSpans_pairwise 1 0 (text.splitOn '\n')
    refine ordered_of_pairwise (Nat.zero_le _) (hpairwise.filter _) fun line hline => ?_
    obtain ⟨-, hlt, hstop⟩ := lineSpans_piece hline
    exact ⟨Nat.zero_le _, hlt, hstop⟩
  covers := by
    have hcovers :=
      joinSpans_covers (Nat.zero_le text.length) (le_refl _) (fun c hc => List.mem_singleton.mp hc)
      (splitOn_joined text)
    exact hcovers.filter fun span i hi _ => decide_eq_true (Nat.lt_of_le_of_lt hi.1 hi.2)

end

/-! ### Normalized pages -/

/-- No line of the text is blank. -/
def NoBlankLine (text : List Char) : Prop := ∀ line ∈ lineSpans text, lineValue text line ≠ []

theorem mem_collapseBlanks {text : List Char} {c : Char} (h : c ∈ collapseBlanks text) :
    c ∈ text ∨ c = ' ' := by
  induction text with
  | nil => cases h
  | cons d text ih =>
    unfold collapseBlanks at h
    split at h
    · split at h
      · exact (ih h).imp_left (List.mem_cons_of_mem _)
      · rcases List.mem_cons.mp h with rfl | h
        · exact .inr rfl
        · exact (ih h).imp_left (List.mem_cons_of_mem _)
    · rcases List.mem_cons.mp h with rfl | h
      · exact .inl List.mem_cons_self
      · exact (ih h).imp_left (List.mem_cons_of_mem _)

theorem mem_of_mem_strip {text : List Char} {c : Char} (h : c ∈ strip text) : c ∈ text := by
  obtain ⟨before, after, htext, -⟩ := stripBy_spec id text
  rw [htext]
  exact List.mem_append_right _ (List.mem_append_left _ h)

theorem stripped_intercalate {sep : List Char} {parts : List (List Char)}
    (hparts : ∀ part ∈ parts, Stripped id part) (hne : parts ≠ []) :
    Stripped id (sep.intercalate parts) := by
  induction parts with
  | nil => exact absurd rfl hne
  | cons part parts ih =>
    have hpart := hparts part List.mem_cons_self
    by_cases hrest : parts = []
    · rw [hrest, List.intercalate_singleton]
      exact hpart
    · have hjoined := ih (fun other hother => hparts other (List.mem_cons_of_mem _ hother)) hrest
      have hpartne : part ≠ [] := by
        rintro rfl
        obtain ⟨c, hc, -⟩ := hpart.first
        cases hc
      have hjoinedne : sep.intercalate parts ≠ [] := by
        intro hnil
        obtain ⟨c, hc, -⟩ := hjoined.first
        rw [hnil] at hc
        cases hc
      obtain ⟨c, hc, hfirst⟩ := hpart.first
      obtain ⟨d, hd, hlast⟩ := hjoined.last
      rw [List.intercalate_cons_of_ne_nil hrest]
      refine ⟨⟨c, ?_, hfirst⟩, d, ?_, hlast⟩
      · rw [List.append_assoc, List.head?_append_of_ne_nil _ hpartne]
        exact hc
      · rw [List.getLast?_append_of_ne_nil _ hjoinedne]
        exact hd

/-- A normalized page is its stripped lines. -/
theorem normalizePageText_lines (text : List Char) :
    ∃ lines, normalizePageText text = ['\n'].intercalate lines ∧ ∀ line ∈ lines, Stripped id line ∧
    '\n' ∉ line := by
  unfold normalizePageText
  dsimp only
  obtain ⟨kept, hkept⟩ : ∃ kept, kept =
      (normalizeLineEnds text).filter fun c => decide (c = '\n') || decide (c = '\t') ||
        !isControl c := ⟨_, rfl⟩
  rw [← hkept]
  obtain ⟨lines, hlines⟩ : ∃ lines, lines =
      ((kept.splitOn '\n').map fun line => strip (collapseBlanks line)).filter fun line =>
        !line.isEmpty := ⟨_, rfl⟩
  rw [← hlines]
  have hspec : ∀ line ∈ lines, Stripped id line ∧ '\n' ∉ line := by
    intro line hline
    rw [hlines] at hline
    obtain ⟨hmem, hne⟩ := List.mem_filter.mp hline
    obtain ⟨piece, hpiece, rfl⟩ := List.mem_map.mp hmem
    obtain ⟨-, -, -, -, -, hstripped⟩ := stripBy_spec id (collapseBlanks piece)
    refine ⟨hstripped fun hnil => ?_, fun hmem => ?_⟩
    · unfold strip at hne
      rw [hnil] at hne
      cases hne
    · rcases mem_collapseBlanks (mem_of_mem_strip hmem) with hmem | hmem
      · exact not_mem_splitOn hpiece hmem
      · cases hmem
  refine ⟨lines, ?_, hspec⟩
  by_cases hnil : lines = []
  · rw [hnil]
    rfl
  · exact (stripped_intercalate (fun line hline => (hspec line hline).1) hnil).stripBy_eq

theorem normalizePageText_noBlankLine (text : List Char) :
    NoBlankLine (normalizePageText text) := by
  obtain ⟨lines, htext, hlines⟩ := normalizePageText_lines text
  intro line hline
  obtain ⟨hpiece, hlt, hstop⟩ := lineSpans_piece hline
  have hne : slice (normalizePageText text) line.start line.stop ≠ [] := by
    rw [← List.length_pos_iff, length_slice]
    omega
  by_cases hnil : lines = []
  · rw [hnil] at htext
    rw [htext] at hstop
    exact absurd hstop (by rw [List.intercalate_nil, List.length_nil]; omega)
  · rw [htext, List.splitOn_intercalate '\n' (fun line hline => (hlines line hline).2) hnil,
      ← htext] at hpiece
    unfold lineValue strip
    rw [(hlines _ hpiece).1.stripBy_eq]
    exact hne

/-! ### Blocks of a page -/

/-- The first and the last character are printed. -/
def PrintedEnds (text : List Char) (span : Span) : Prop :=
  PrintedAt text span.start ∧ PrintedAt text (span.stop - 1)

section

variable {unicode : UnicodeTables} {text : List Char}

/-- The block that a line goes on with, or starts. -/
theorem joinedBlock_spec {line : Span} {active : Option Span} {lo : Nat} (hlo : lo ≤ line.start)
    (hlt : line.start < line.stop) (hline : PrintedEnds text line)
    (hactive : ∀ block ∈ active, block.start < block.stop ∧ block.stop ≤ lo ∧
      PrintedEnds text block) {block : Span}
    (hblock : block = ⟨(active.map (·.start)).getD line.start, line.stop⟩) :
    block.start < block.stop ∧ block.stop ≤ line.stop ∧ PrintedEnds text block ∧
      (active.map (·.start)).getD lo ≤ block.start ∧
        ∀ span ∈ active.toList ++ [line], span ≤ block := by
  rw [hblock]
  cases active with
  | none =>
    refine ⟨hlt, le_refl _, hline, hlo, fun span hspan => ?_⟩
    rw [List.mem_singleton.mp hspan]
    exact ⟨le_refl _, le_refl _⟩
  | some first =>
    obtain ⟨hfirst, hle, hprinted⟩ := hactive first rfl
    refine ⟨show first.start < line.stop by omega, le_refl _, ⟨hprinted.1, hline.2⟩, le_refl _,
      fun span hspan => ?_⟩
    rcases List.mem_cons.mp hspan with rfl | hspan
    · exact ⟨le_refl _, show span.stop ≤ line.stop by omega⟩
    · rw [List.mem_singleton.mp hspan]
      exact ⟨show first.start ≤ line.start by omega, le_refl _⟩

/-- The blocks of the lines from an offset on, with a block that is not finished yet, or none: they
are in order, each line lies in one of them, and they end with printed characters. -/
theorem blockSpansFrom_spec {lines : List Span} {active : Option Span} {lo hi : Nat}
    (hlines : Ordered lo lines hi) (hvisible : ∀ line ∈ lines, lineValue text line ≠ [])
    (hends : ∀ line ∈ lines, PrintedEnds text line)
    (hactive : ∀ block ∈ active, block.start < block.stop ∧ block.stop ≤ lo ∧
      PrintedEnds text block) :
    Ordered ((active.map (·.start)).getD lo) (blockSpansFrom unicode text active lines) hi ∧
      (∀ span ∈ active.toList ++ lines, ∃ block ∈ blockSpansFrom unicode text active lines,
        span ≤ block) ∧
      ∀ block ∈ blockSpansFrom unicode text active lines, PrintedEnds text block := by
  induction lines generalizing active lo with
  | nil =>
    unfold blockSpansFrom
    cases active with
    | none =>
      exact ⟨hlines, fun span hspan => (by cases hspan), fun block hblock => by cases hblock⟩
    | some block =>
      obtain ⟨hlt, hle, hprinted⟩ := hactive block rfl
      refine ⟨⟨le_refl _, hlt, hle.trans hlines⟩, fun span hspan => ?_, fun other hother => ?_⟩
      · rw [List.append_nil] at hspan
        exact ⟨span, hspan, le_refl _, le_refl _⟩
      · rw [List.mem_singleton.mp hother]
        exact hprinted
  | cons line lines ih =>
    obtain ⟨hlo, hlt, hrest⟩ := hlines
    have hvisible' : ∀ other ∈ lines, lineValue text other ≠ [] :=
      fun other hother => hvisible other (List.mem_cons_of_mem _ hother)
    have hends' : ∀ other ∈ lines, PrintedEnds text other := fun other hother =>
      hends other (List.mem_cons_of_mem _ hother)
    have hline := hends line List.mem_cons_self
    have hnone := @ih none line.stop hrest hvisible' hends' fun block hblock => by cases hblock
    obtain ⟨block, hblock⟩ :
        ∃ block : Span, block = ⟨(active.map (·.start)).getD line.start, line.stop⟩ := ⟨_, rfl⟩
    obtain ⟨hblockLt, hblockStop, hblockEnds, hblockStart, hblockMem⟩ :=
      joinedBlock_spec hlo hlt hline hactive hblock
    have hsplit : ∀ {span : Span}, span ∈ active.toList ++ line :: lines →
        span ∈ active.toList ++ [line] ∨ span ∈ lines := by
      intro span hspan
      rwa [List.append_cons, List.mem_append] at hspan
    unfold blockSpansFrom
    dsimp only
    rw [← hblock, if_neg (by rw [List.isEmpty_iff]; exact hvisible line List.mem_cons_self)]
    split
    · -- A heading is a block of its own, behind the one before it.
      refine ⟨?_, fun span hspan => ?_, fun other hother => ?_⟩
      · have hheading : ∀ lo', lo' ≤ line.start →
            Ordered lo' (line :: blockSpansFrom unicode text none lines) hi :=
          fun lo' hle => ⟨hle, hlt, hnone.1⟩
        cases active with
        | none => exact hheading lo hlo
        | some first =>
          obtain ⟨hfirst, hle, -⟩ := hactive first rfl
          exact ⟨le_refl _, hfirst, hheading _ (hle.trans hlo)⟩
      · rcases hsplit hspan with hspan | hspan
        · refine ⟨span, ?_, le_refl _, le_refl _⟩
          rw [List.append_cons]
          exact List.mem_append_left _ hspan
        · obtain ⟨other, hother, hle⟩ := hnone.2.1 span hspan
          exact ⟨other, List.mem_append_right _ (List.mem_cons_of_mem _ hother), hle⟩
      · rcases List.mem_append.mp hother with hother | hother
        · exact (hactive other (Option.mem_toList.mp hother)).2.2
        · rcases List.mem_cons.mp hother with rfl | hother
          · exact hline
          · exact hnone.2.2 other hother
    · split
      · refine ⟨⟨hblockStart, hblockLt, hnone.1.mono hblockStop⟩, fun span hspan => ?_,
          fun other hother => ?_⟩
        · rcases hsplit hspan with hspan | hspan
          · exact ⟨block, List.mem_cons_self, hblockMem span hspan⟩
          · obtain ⟨other, hother, hle⟩ := hnone.2.1 span hspan
            exact ⟨other, List.mem_cons_of_mem _ hother, hle⟩
        · rcases List.mem_cons.mp hother with rfl | hother
          · exact hblockEnds
          · exact hnone.2.2 other hother
      · obtain ⟨hordered, hmem, hprinted⟩ := @ih (some block) line.stop hrest hvisible' hends'
          fun other hother => by
          cases hother
          exact ⟨hblockLt, hblockStop, hblockEnds⟩
        refine ⟨hordered.mono hblockStart, fun span hspan => ?_, hprinted⟩
        rcases hsplit hspan with hspan | hspan
        · obtain ⟨other, hother, hle⟩ := hmem block List.mem_cons_self
          have := hblockMem span hspan
          rw [Span.le_iff] at this hle
          exact ⟨other, hother, hle.1.trans this.1, this.2.trans hle.2⟩
        · exact hmem span (List.mem_cons_of_mem _ hspan)

/-- The blocks of a page keep all of its printed characters, and end with such. -/
theorem textBlockSpans_keeps (h : NoBlankLine text) :
    Keeps (PrintedAt text) 0 (textBlockSpans unicode text) text.length ∧
      ∀ block ∈ textBlockSpans unicode text, PrintedEnds text block := by
  have hlines := lineSpans_keeps text
  have hends : ∀ line ∈ lineSpans text, PrintedEnds text line := by
    intro line hline
    obtain ⟨-, hlt, -⟩ := lineSpans_piece hline
    exact ⟨printedAt_of_mem_line hline (Span.mem_iff.mpr ⟨le_refl _, hlt⟩),
      printedAt_of_mem_line hline (Span.mem_iff.mpr (by omega))⟩
  obtain ⟨hordered, hmem, hprinted⟩ :=
    @blockSpansFrom_spec unicode text _ none _ _ hlines.ordered h hends
    fun block hblock => by cases hblock
  exact ⟨⟨hordered, hlines.covers.mono hmem⟩, hprinted⟩

end

/-! ### Blocks of the document -/

/-- Where a block is in the clean text. -/
def blockSpan (block : ParsedBlock) : Span := ⟨block.sourceStart, block.sourceEnd⟩

/-- Where the pages are in the clean text. -/
def pageSpans (pages : List (List Char)) : List Span := joinSpans 2 0 pages

section

variable {unicode : UnicodeTables} {text page : List Char} {offset stop : Nat}

theorem pageBlocks_spans (pageNumber : Int) (offset : Nat) (page : List Char)
    (current : List String) (spans : List Span) :
    (pageBlocks unicode pageNumber offset page current spans).map blockSpan =
      spans.map (Span.shift offset) := by
  induction spans generalizing current with
  | nil => rfl
  | cons span spans ih =>
    unfold pageBlocks
    rw [List.map_cons, ih]
    rfl

theorem mem_pageBlocks {pageNumber : Int} {current : List String} {spans : List Span}
    {block : ParsedBlock} (h : block ∈ pageBlocks unicode pageNumber offset page current spans) :
    block.pageNumber = pageNumber ∧ ∃ span ∈ spans, blockSpan block = span.shift offset ∧
      block.text.toList = slice page span.start span.stop := by
  induction spans generalizing current with
  | nil => cases h
  | cons span spans ih =>
    unfold pageBlocks at h
    rcases List.mem_cons.mp h with rfl | h
    · exact ⟨rfl, span, List.mem_cons_self, rfl, String.toList_ofList⟩
    · obtain ⟨hnumber, other, hother, hspec⟩ := ih h
      exact ⟨hnumber, other, List.mem_cons_of_mem _ hother, hspec⟩

/-- What is printed on a page is printed in the clean text. -/
theorem printedAt_shift (hpage : page = slice text offset (offset + page.length)) {i : Nat}
    (hi : i < page.length) : PrintedAt page i ↔ PrintedAt text (offset + i) := by
  have hget : page[i]? = text[offset + i]? := by
    rw [hpage, getElem?_slice, if_pos (by omega)]
  unfold PrintedAt
  rw [hget]

/-- The blocks of one page, in the clean text. -/
theorem pageBlocks_keeps (unicode : UnicodeTables)
    (hpage : page = slice text offset (offset + page.length)) (hlines : NoBlankLine page)
    (pageNumber : Int) (current : List String) :
    Keeps (PrintedAt text) offset
      ((pageBlocks unicode pageNumber offset page current (textBlockSpans unicode page)).map
        blockSpan) (offset + page.length) := by
  obtain ⟨hkeeps, -⟩ := @textBlockSpans_keeps unicode _ hlines
  rw [pageBlocks_spans]
  exact ⟨hkeeps.ordered.shift offset, hkeeps.covers.shift offset
    fun i _ hi h => (printedAt_shift hpage hi).mpr h⟩

/-- The blocks of the pages from an offset on keep every printed character of the clean text. -/
theorem blocksFrom_keeps {pages : List (List Char)} (hle : offset ≤ stop)
    (hstop : stop ≤ text.length) (htext : slice text offset stop = ['\n', '\n'].intercalate pages)
    (hlines : ∀ page ∈ pages, NoBlankLine page) (current : List String) (pageNumber : Int) :
    Keeps (PrintedAt text) offset
      ((blocksFrom unicode current pageNumber offset pages).map blockSpan) stop := by
  induction pages generalizing offset current pageNumber with
  | nil =>
    have hlength := congrArg List.length htext
    rw [length_slice, Nat.min_eq_left hstop, List.intercalate_nil, List.length_nil] at hlength
    exact ⟨hle, fun i hi hlt => by omega⟩
  | cons page pages ih =>
    have hpageLines := hlines page List.mem_cons_self
    unfold blocksFrom
    rw [List.map_append]
    by_cases hpages : pages = []
    · rw [hpages, List.intercalate_singleton] at htext
      have hlength := congrArg List.length htext
      rw [length_slice, Nat.min_eq_left hstop] at hlength
      have hend : offset + page.length = stop := by omega
      subst hend
      rw [hpages]
      have := pageBlocks_keeps unicode htext.symm hpageLines pageNumber current
      rwa [show blocksFrom unicode (sectionAfter unicode page current) (pageNumber + 1)
        (offset + page.length + 2) [] = [] from rfl, List.map_nil, List.append_nil]
    · rw [List.intercalate_cons_of_ne_nil hpages, List.append_assoc] at htext
      obtain ⟨hmid, hpage, hrest⟩ := slice_eq_append hle hstop htext
      obtain ⟨hnext, hsep, hrest⟩ := slice_eq_append hmid hstop hrest.symm
      have hfirst := pageBlocks_keeps unicode hpage hpageLines pageNumber current
      have hsecond :=
        ih hnext hrest.symm (fun other hother => hlines other (List.mem_cons_of_mem _ hother))
        (sectionAfter unicode page current) (pageNumber + 1)
      refine ⟨hfirst.ordered.append (hsecond.ordered.mono (Nat.le_add_right _ _)),
        fun i hi hlt hprinted => ?_⟩
      by_cases hin : i < offset + page.length
      · obtain ⟨span, hspan, hmem⟩ := hfirst.covers i hi hin hprinted
        exact ⟨span, List.mem_append_left _ hspan, hmem⟩
      · by_cases hbefore : i < offset + page.length + 2
        · obtain ⟨c, hc, hne⟩ := hprinted
          have hmem : c ∈ ['\n', '\n'] := by
            rw [hsep]
            exact mem_slice.mpr ⟨i, Nat.not_lt.mp hin, hbefore, hc⟩
          exact absurd (by simpa using hmem) hne
        · obtain ⟨span, hspan, hmem⟩ := hsecond.covers i (Nat.not_lt.mp hbefore) hlt hprinted
          exact ⟨span, List.mem_append_right _ hspan, hmem⟩

/-- A block is of a page, and inside of it. -/
theorem mem_blocksFrom {pages : List (List Char)} {current : List String} {pageNumber : Int}
    {block : ParsedBlock} (h : block ∈ blocksFrom unicode current pageNumber offset pages) :
    ∃ (k : Nat) (page : List Char) (span : Span), pages[k]? = some page ∧
      (joinSpans 2 offset pages)[k]? = some span ∧ block.pageNumber = pageNumber + k ∧
      ∃ piece ∈ textBlockSpans unicode page, blockSpan block = piece.shift span.start ∧
        block.text.toList = slice page piece.start piece.stop := by
  induction pages generalizing current pageNumber offset with
  | nil => cases h
  | cons page pages ih =>
    unfold blocksFrom at h
    rcases List.mem_append.mp h with h | h
    · obtain ⟨hnumber, hspec⟩ := mem_pageBlocks h
      exact ⟨0, page, ⟨offset, offset + page.length⟩, rfl, rfl,
        by rw [hnumber]; exact (Int.add_zero _).symm, hspec⟩
    · obtain ⟨k, other, span, hpage, hspan, hnumber, hspec⟩ := ih h
      refine ⟨k + 1, other, span, hpage, hspan, ?_, hspec⟩
      rw [hnumber]
      omega

/-- The lineage of a parsed document: its pages are slices of the clean text, its blocks lie in
order inside of their pages and are their slices, and every printed character is in exactly one
block. -/
structure PageLineage (pages : List (List Char)) (text : List Char) (blocks : List ParsedBlock) :
    Prop where
  pages_exact : (pageSpans pages).map (fun span => slice text span.start span.stop) = pages
  ordered : Ordered 0 (blocks.map blockSpan) text.length
  in_page : ∀ block ∈ blocks, ∃ (k : Nat) (span : Span), (pageSpans pages)[k]? = some span ∧
    block.pageNumber = k + 1 ∧ blockSpan block ≤ span
  exact : ∀ block ∈ blocks, block.text.toList = slice text block.sourceStart block.sourceEnd
  printed_ends : ∀ block ∈ blocks, PrintedEnds text (blockSpan block)
  once : ∀ i, PrintedAt text i → ∃! block, block ∈ blocks ∧ i ∈ blockSpan block

theorem cleanText_joined (pages : List (List Char)) :
    slice (cleanText pages) 0 (cleanText pages).length = ['\n', '\n'].intercalate pages :=
      slice_all _

/-- A page is the slice of the clean text at its place. -/
theorem slice_page {pages : List (List Char)} {k : Nat} {span : Span}
    (hpage : pages[k]? = some page) (hspan : (pageSpans pages)[k]? = some span) :
    page = slice (cleanText pages) span.start span.stop ∧ span.start ≤ span.stop ∧
    span.stop ≤ (cleanText pages).length := by
  have hne : pages ≠ [] := by
    rintro rfl
    cases hpage
  obtain ⟨hmap, hbounds⟩ := slice_joinSpans (Nat.zero_le _) (le_refl _) (cleanText_joined pages) hne
  have hget := congrArg (fun parts => parts[k]?) hmap
  rw [List.getElem?_map, hpage, show (joinSpans (['\n', '\n'] : List Char).length 0 pages)[k]? =
    some span from hspan, Option.map_some] at hget
  exact ⟨(Option.some.inj hget).symm, (hbounds span (List.mem_of_getElem? hspan)).2⟩

/-- Where a block is, and what it says, on its page and in the clean text. -/
theorem block_in_page {pages : List (List Char)} (hlines : ∀ page ∈ pages, NoBlankLine page)
    {current : List String} {block : ParsedBlock}
    (h : block ∈ blocksFrom unicode current 1 0 pages) :
    (∃ (k : Nat) (span : Span), (pageSpans pages)[k]? = some span ∧ block.pageNumber = k + 1 ∧
      blockSpan block ≤ span) ∧
      block.text.toList = slice (cleanText pages) block.sourceStart block.sourceEnd ∧
      PrintedEnds (cleanText pages) (blockSpan block) := by
  obtain ⟨k, page, span, hpage, hspan, hnumber, piece, hpiece, hblock, htext⟩ := mem_blocksFrom h
  obtain ⟨hslice, hle, hstop⟩ := slice_page hpage hspan
  have hlength : page.length = span.stop - span.start := by
    rw [hslice, length_slice, Nat.min_eq_left hstop]
  have hend : span.start + page.length = span.stop := by omega
  obtain ⟨hkeeps, hends⟩ :=
    @textBlockSpans_keeps unicode page (hlines page (List.mem_of_getElem? hpage))
  obtain ⟨-, hlt, hpieceStop⟩ := hkeeps.ordered.bounds hpiece
  have hstart : block.sourceStart = span.start + piece.start := congrArg Span.start hblock
  have hsourceEnd : block.sourceEnd = span.start + piece.stop := congrArg Span.stop hblock
  have hshift : page = slice (cleanText pages) span.start (span.start + page.length) := by
    rw [hend]; exact hslice
  refine ⟨⟨k, span, hspan, by rw [hnumber]; omega, ?_⟩, ?_, ?_⟩
  · rw [hblock]
    exact ⟨Nat.le_add_right _ _, show span.start + piece.stop ≤ span.stop by omega⟩
  · rw [htext, hslice, slice_slice _ (by omega), hstart, hsourceEnd]
  · obtain ⟨hfirst, hlast⟩ := hends piece hpiece
    rw [hblock]
    refine ⟨(printedAt_shift hshift (by omega)).mp hfirst, ?_⟩
    have := (printedAt_shift hshift (by omega)).mp hlast
    rwa [show span.start + (piece.stop - 1) = (piece.shift span.start).stop -
      1 by simp only [Span.shift]; omega] at this

/-- The blocks of a document. -/
theorem blocksFrom_lineage {pages : List (List Char)} (hne : pages ≠ [])
    (hlines : ∀ page ∈ pages, NoBlankLine page) :
    PageLineage pages (cleanText pages) (blocksFrom unicode ["Document"] 1 0 pages) where
  pages_exact := (slice_joinSpans (Nat.zero_le _) (le_refl _) (cleanText_joined pages) hne).1
  ordered := (blocksFrom_keeps (Nat.zero_le _) (le_refl _) (cleanText_joined pages)
    hlines _ _).ordered
  in_page := fun _ h => (block_in_page hlines h).1
  exact := fun _ h => (block_in_page hlines h).2.1
  printed_ends := fun _ h => (block_in_page hlines h).2.2
  once := by
    intro i hprinted
    have hkeeps : Keeps (PrintedAt (cleanText pages)) 0
        ((blocksFrom unicode ["Document"] 1 0 pages).map blockSpan) (cleanText pages).length :=
      blocksFrom_keeps (Nat.zero_le _) (le_refl _) (cleanText_joined pages) hlines ["Document"] 1
    have hlt : i < (cleanText pages).length := by
      obtain ⟨c, hc, -⟩ := hprinted
      exact (List.getElem?_eq_some_iff.mp hc).1
    obtain ⟨span, hspan, hmem⟩ := hkeeps.covers i (Nat.zero_le i) hlt hprinted
    obtain ⟨block, hblock, rfl⟩ := List.mem_map.mp hspan
    refine ⟨block, ⟨hblock, hmem⟩, ?_⟩
    rintro other ⟨hother, hmem'⟩
    exact eq_of_mem_span hkeeps.ordered.pairwise hother hblock hmem' hmem

end

end ZhiyanRag.Ingestion
