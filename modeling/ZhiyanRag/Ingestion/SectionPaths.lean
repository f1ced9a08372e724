import ZhiyanRag.Ingestion.Parser
import ZhiyanRag.Lib.Outline

/-!
# Section paths

The parser's section path is an outline: a numbered heading keeps the first entries of the path
before it, as many as its number has dots. Which entries these are is not looked at, so a paper that
skips a level (3, then 3.1.1, then 3.1.2) nests a heading under one of the same level.
`sectionPaths_iff` says for which headings this does not happen.
-/

namespace ZhiyanRag.Ingestion

open Regex Spans Outline

section

variable (unicode : UnicodeTables)

/-- The level of an entry of a section path. -/
def entryLevel (entry : String) : Nat := headingLevel unicode entry.toList

/-- Levels increase along the path, with the initial entry set aside. -/
def Nested (path : List String) : Prop :=
  (if path.head? = some "Document" then path.tail else path).Pairwise fun a b =>
    entryLevel unicode a < entryLevel unicode b

instance (path : List String) : Decidable (Nested unicode path) :=
  inferInstanceAs (Decidable (List.Pairwise _ _))

/-- The texts of the blocks of some pages. -/
def blockTexts (pages : List (List Char)) : List (List Char) :=
  pages.flatMap fun page => (textBlockSpans unicode page).map fun span =>
    slice page span.start span.stop

/-- The headings of some pages. -/
def headings (pages : List (List Char)) : List (List Char) :=
  ((blockTexts unicode pages).map strip).filter (isHeading unicode)

/-- The section path at each of some blocks. -/
def sectionsFrom (current : List String) : List (List Char) → List (List String)
  | [] => []
  | block :: blocks => nextSection unicode current block ::
      sectionsFrom (nextSection unicode current block) blocks

variable {unicode} {current : List String}

theorem sectionsFrom_append (front back : List (List Char)) :
    sectionsFrom unicode current (front ++ back) =
      sectionsFrom unicode current front ++
        sectionsFrom unicode (front.foldl (nextSection unicode) current) back := by
  induction front generalizing current with
  | nil => rfl
  | cons block front ih => exact congrArg (_ :: ·) ih

theorem pageBlocks_sections (pageNumber : Int) (offset : Nat) (page : List Char)
    (spans : List Span) :
    (pageBlocks unicode pageNumber offset page current spans).map (·.sectionPath) =
      sectionsFrom unicode current (spans.map fun span => slice page span.start span.stop) := by
  induction spans generalizing current with
  | nil => rfl
  | cons span spans ih => exact congrArg (_ :: ·) ih

/-- The section paths of the parsed blocks. -/
theorem blocksFrom_sections (pageNumber : Int) (offset : Nat) (pages : List (List Char)) :
    (blocksFrom unicode current pageNumber offset pages).map (·.sectionPath) =
      sectionsFrom unicode current (blockTexts unicode pages) := by
  induction pages generalizing current pageNumber offset with
  | nil => rfl
  | cons page pages ih =>
    unfold blocksFrom blockTexts
    rw [List.map_append, List.flatMap_cons, sectionsFrom_append, pageBlocks_sections, ih,
      sectionAfter, List.foldl_map]
    rfl

theorem headingPath_eq (heading : List Char) :
    headingPath unicode current heading =
      place (entryLevel unicode) current (String.ofList heading) := by
  have hlevel : entryLevel unicode (String.ofList heading) = headingLevel unicode heading := by
    rw [entryLevel, String.toList_ofList]
  unfold headingPath place
  rw [hlevel]
  show (if headingLevel unicode heading ≤ 1 then _ else _) = _
  by_cases hone : headingLevel unicode heading ≤ 1
  · rw [if_pos hone, Nat.sub_eq_zero_of_le hone]
    rfl
  · rw [if_neg hone]

/-- The path after some blocks is the outline of their headings. -/
theorem foldl_nextSection (blocks : List (List Char)) :
    blocks.foldl (nextSection unicode) current =
      outline (entryLevel unicode) current
        (((blocks.map strip).filter (isHeading unicode)).map String.ofList) := by
  induction blocks generalizing current with
  | nil => rfl
  | cons block blocks ih =>
    rw [List.foldl_cons, ih, List.map_cons]
    by_cases hheading : isHeading unicode (strip block) = true
    · have hnext : nextSection unicode current block =
          place (entryLevel unicode) current (String.ofList (strip block)) :=
        (if_pos hheading).trans (headingPath_eq _)
      rw [List.filter_cons_of_pos hheading, hnext, List.map_cons, outline, outline, List.foldl_cons]
    · have hnext : nextSection unicode current block = current := if_neg hheading
      rw [List.filter_cons_of_neg hheading, hnext]

theorem mem_sectionsFrom {blocks : List (List Char)} {path : List String} :
    path ∈ sectionsFrom unicode current blocks ↔ ∃ front block back,
      blocks = front ++ block :: back ∧
      path = (front ++ [block]).foldl (nextSection unicode) current := by
  induction blocks generalizing current with
  | nil => simp [sectionsFrom]
  | cons block blocks ih =>
    unfold sectionsFrom
    rw [List.mem_cons, ih]
    constructor
    · rintro (rfl | ⟨front, last, back, rfl, rfl⟩)
      · exact ⟨[], block, blocks, rfl, rfl⟩
      · exact ⟨block :: front, last, back, rfl, rfl⟩
    · rintro ⟨front, last, back, hblocks, rfl⟩
      cases front with
      | nil =>
        cases hblocks
        exact .inl rfl
      | cons first front =>
        cases hblocks
        exact .inr ⟨front, last, back, rfl, rfl⟩

/-- The first headings of some blocks are the headings of the first blocks. -/
theorem exists_front {blocks : List (List Char)} {front : List String}
    (h : front <+: ((blocks.map strip).filter (isHeading unicode)).map String.ofList) :
    ∃ before, before <+: blocks ∧
    front = ((before.map strip).filter (isHeading unicode)).map String.ofList := by
  induction blocks generalizing front with
  | nil => exact ⟨[], List.prefix_rfl, List.prefix_nil.mp h⟩
  | cons block blocks ih =>
    rw [List.map_cons, List.filter_cons] at h
    by_cases hheading : isHeading unicode (strip block) = true
    · rw [if_pos hheading, List.map_cons] at h
      rcases List.prefix_cons_iff.mp h with rfl | ⟨rest, rfl, hrest⟩
      · exact ⟨[], List.nil_prefix, rfl⟩
      · obtain ⟨before, hbefore, rfl⟩ := ih hrest
        refine ⟨block :: before, List.cons_prefix_cons.mpr ⟨rfl, hbefore⟩, ?_⟩
        rw [List.map_cons, List.filter_cons, if_pos hheading, List.map_cons]
    · rw [if_neg hheading] at h
      obtain ⟨before, hbefore, rfl⟩ := ih h
      refine ⟨block :: before, List.cons_prefix_cons.mpr ⟨rfl, hbefore⟩, ?_⟩
      rw [List.map_cons, List.filter_cons, if_neg hheading]

/-- Behind its first entry, a path of headings has none of level one. -/
theorem nested_outline_iff {entries : List String} :
    Nested unicode (outline (entryLevel unicode) ["Document"] entries) ↔
      (outline (entryLevel unicode) ["Document"] entries).tail.Pairwise
        fun a b => entryLevel unicode a < entryLevel unicode b := by
  unfold Nested
  split
  · exact Iff.rfl
  · rename_i hroot
    obtain ⟨first, rest, hpath, hfirst, hrest⟩ :=
      @outline_shape _ (entryLevel unicode) "Document" entries
    rw [hpath] at hroot ⊢
    rw [List.pairwise_cons]
    refine ⟨And.right, fun h => ⟨fun x hx => ?_, h⟩⟩
    rcases hfirst with rfl | hone
    · exact absurd rfl hroot
    · exact Nat.lt_of_le_of_lt hone (hrest x hx)

/-- The section paths of all blocks list only headings above one another exactly if no heading that
is deeper than its place in the path is followed, as long as it stays there, by one that is not
deeper than it. -/
theorem sectionPaths_iff (pages : List (List Char)) :
    (∀ block ∈ blocksFrom unicode ["Document"] 1 0 pages, Nested unicode block.sectionPath) ↔
      KeepsLevels 1 ((headings unicode pages).map (headingLevel unicode)) := by
  have hlevels : (headings unicode pages).map (headingLevel unicode) =
      ((headings unicode pages).map String.ofList).map (entryLevel unicode) := by
    rw [List.map_map]
    refine List.map_congr_left fun heading _ => ?_
    rw [Function.comp_apply, entryLevel, String.toList_ofList]
  rw [hlevels, ← @ascending_outline_iff _ (entryLevel unicode) _ "Document"]
  have hpaths : (∀ block ∈ blocksFrom unicode ["Document"] 1 0 pages,
      Nested unicode block.sectionPath) ↔
      ∀ path ∈ sectionsFrom unicode ["Document"] (blockTexts unicode pages),
        Nested unicode path := by
    rw [← blocksFrom_sections 1 0 pages, List.forall_mem_map]
  rw [hpaths]
  constructor
  · intro h front hfront
    rw [← nested_outline_iff]
    obtain ⟨before, ⟨rest, hrest⟩, rfl⟩ := exists_front hfront
    rw [← foldl_nextSection]
    induction before using List.reverseRecOn with
    | nil => exact List.Pairwise.nil
    | append_singleton before block _ =>
      refine h _ (mem_sectionsFrom.mpr ⟨before, block, rest, ?_, rfl⟩)
      rw [← hrest, List.append_assoc]
      rfl
  · intro h path hpath
    obtain ⟨front, block, back, hblocks, rfl⟩ := mem_sectionsFrom.mp hpath
    rw [foldl_nextSection, nested_outline_iff]
    refine h _ ⟨((back.map strip).filter (isHeading unicode)).map String.ofList, ?_⟩
    unfold headings
    rw [hblocks, List.append_cons front block back, ← List.map_append, ← List.filter_append,
      ← List.map_append]

end

/-- The paper skips level two, and its second subsection is nested under the first. -/
theorem sectionPaths_skip : ∃ block ∈ blocksFrom asciiTables ["Document"] 1 0
    ["3 Method\n3.1.1 First\n3.1.2 Second".toList], ¬Nested asciiTables block.sectionPath := by
  decide +kernel

end ZhiyanRag.Ingestion
