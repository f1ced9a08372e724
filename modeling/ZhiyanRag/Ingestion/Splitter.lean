import ZhiyanRag.Ingestion.Service
import ZhiyanRag.Ingestion.Text

/-!
# The splitter

`split_text` in both of its shapes. The structural strategies cut sections at headings, sections
into paragraphs, long paragraphs into sentences and long sentences into pieces, and group these
units with an overlap. The fixed strategy joins normalized units into chunks, or cuts long units,
and then looks each chunk up in the source again.
-/

namespace ZhiyanRag.Ingestion

open Regex Spans

/-! ### Patterns -/

section

variable (unicode : UnicodeTables)

/-- `[1-9]\d*`. -/
def ordinal : Pattern Char := .seq (range '1' '9') (.star (decimal unicode))

/-- The group of `HEADING_RE`. -/
def heading : Pattern Char :=
  let numbered :=
    sequence [ordinal unicode, .star (.seq (exactly '.') (ordinal unicode)), exactly '.']
  let lettered := .seq (range 'A' 'Z') (exactly '.')
  let rest := .char fun c => decide (c ≠ '\r') && decide (c ≠ '\n')
  let titled := sequence
    [.alt numbered lettered, .plus (.char fun c => decide (c = ' ') || decide (c = '\t')),
      .repeated 2 (some 100) rest]
  let acknowledgments := sequence [literal "Acknowledg", .optional (exactly 'e'), literal "ment",
    .optional (exactly 's'), .optional (.seq (exactly '.') (.star rest))]
  .oneOf [titled, literal "Appendix", acknowledgments]

/-- `HEADING_RE`. -/
def headingPattern : Pattern Char :=
  sequence [lineStart, .group (heading unicode), .star space, lineEnd]

/-- `^[1-9]\d*\.\s+`. -/
def numberedMajor : Pattern Char := sequence [ordinal unicode, exactly '.', .plus space]

/-- `^[1-9]\d*\.[1-9]`. -/
def numberedMinor : Pattern Char := sequence [ordinal unicode, exactly '.', range '1' '9']

end

/-- `ROMAN_MAJOR_RE`; its group is the title. -/
def romanMajor : Pattern Char :=
  sequence [.plus (.char fun c => "IVXLCDM".toList.contains c), exactly '.', .plus space,
    .group (.plus (.char fun c => decide (c ≠ '\n'))),
    .alt (.assert fun _ next => next.isNone)
      (.seq (exactly '\n') (.assert fun _ next => next.isNone))]

/-- A one-symbol lookbehind. -/
def after (symbols : String) : Pattern Char :=
  .assert fun before _ => before.any symbols.toList.contains

/-- `SENTENCE_END_RE`. -/
def sentenceEnd : Pattern Char :=
  sequence [after ".!?", .star (.char fun c => "\"')]".toList.contains c), .plus space]

/-- `PARAGRAPH_BREAK_RE`. -/
def paragraphBreak : Pattern Char := .repeated 2 none (exactly '\n')

/-- `BOUNDARY_RE`; its group is the whole match. -/
def boundary : Pattern Char :=
  .alt (.seq (exactly '\n') (.plus (exactly '\n'))) (.seq (after ".!?;:") (.plus space))

/-! ### Sections -/

structure SectionSpan extends Span where
  sectionId : String
  heading : String
  deriving DecidableEq

section

variable (unicode : UnicodeTables)

/-- `_heading_spans`. -/
def headingSpans (text : List Char) : List Span :=
  ((headingPattern unicode).findAll text 0 text.length).map fun found =>
    trimSpan text found.start (found.start + (found.groups.headD []).length)

/-- `_is_major_heading`. -/
def isMajorHeading (value : List Char) : Bool :=
  ((numberedMajor unicode).match? none value).isSome ||
    match romanMajor.match? none value with
    | some found =>
      let letters := (found.groups.headD []).filter unicode.isAlpha
      !letters.isEmpty && decide (7 * letters.length ≤ 10 * letters.countP unicode.isUpper)
    | none => (literal "Appendix").match? none value |>.isSome.or
        ((literal "Acknowledg").match? none value).isSome

/-- `f"{n:03d}"`. -/
def threeDigits (n : Nat) : String := "".pushn '0' (3 - (toString n).length) ++ toString n

/-- The sections that start at headings, numbered from `index`. -/
def headedSections (text : List Char) (kind : String) : Nat → List Span → List SectionSpan
  | _, [] => []
  | index, heading :: headings =>
    { start := heading.start
      stop := (headings.head?.map (·.start)).getD text.length
      sectionId := kind ++ "-" ++ threeDigits index
      heading := String.ofList (slice text heading.start heading.stop) } ::
      headedSections text kind (index + 1) headings

/-- The headings that cut sections. -/
def cuttingHeadings (text : List Char) (majorOnly : Bool) : List Span :=
  if majorOnly then (headingSpans unicode text).filter fun heading =>
    let value := slice text heading.start heading.stop
    isMajorHeading unicode value && ((numberedMinor unicode).match? none value).isNone
  else headingSpans unicode text

/-- `_section_spans`. -/
def sectionSpans (text : List Char) (majorOnly : Bool) : List SectionSpan :=
  let unknownId := if majorOnly then "parent-unknown-000" else "section-unknown-000"
  let kind := if majorOnly then "parent" else "section"
  match cuttingHeadings unicode text majorOnly with
  | [] => [⟨⟨0, text.length⟩, unknownId, "UNKNOWN"⟩]
  | heading :: headings =>
    (if 0 < heading.start then [⟨⟨0, heading.start⟩, unknownId, "UNKNOWN"⟩] else []) ++
      headedSections text kind 1 (heading :: headings)

end

/-! ### Units -/

/-- The spans from cursor to cursor, each up to the end of a match. -/
def candidates : Nat → List (Found Char) → Nat → List Span
  | cursor, [], stop => [⟨cursor, stop⟩]
  | cursor, found :: rest, stop => ⟨cursor, found.stop⟩ :: candidates found.stop rest stop

/-- The candidates that are not blank. -/
def brokenSpans (r : Pattern Char) (text : List Char) (start stop : Nat) : List Span :=
  (candidates start (r.findAll text start stop) stop).filter fun span =>
    !isBlank (slice text span.start span.stop)

/-- `_paragraph_spans`. -/
def paragraphSpans (text : List Char) (start stop : Nat) : List Span :=
  brokenSpans paragraphBreak text start stop

/-- `_sentence_spans`. -/
def sentenceSpans (text : List Char) (start stop : Nat) : List Span :=
  brokenSpans sentenceEnd text start stop

/-- The pieces of a long sentence; every round uses some of the text up. -/
def hardCuts (maxChars : Nat) : Nat → Nat → Nat → List Span
  | 0, _, _ => []
  | fuel + 1, cursor, stop =>
    if cursor < stop then
      ⟨cursor, min (cursor + maxChars) stop⟩ ::
        hardCuts maxChars fuel (min (cursor + maxChars) stop) stop
    else []

/-- The units of a paragraph. -/
def paragraphUnits (text : List Char) (maxChars : Nat) (paragraph : Span) : List Span :=
  if paragraph.length ≤ maxChars then [paragraph]
  else (sentenceSpans text paragraph.start paragraph.stop).flatMap fun sentence =>
    if sentence.length ≤ maxChars then [sentence]
    else hardCuts maxChars sentence.length sentence.start sentence.stop

/-- `_atomic_spans`. -/
def atomicSpans (text : List Char) (span : Span) (maxChars : Nat) : List Span :=
  stretchLast span.stop (stretchFirst span.start
    ((paragraphSpans text span.start span.stop).flatMap (paragraphUnits text maxChars)))

/-! ### Grouping -/

structure StructuralConfig where
  targetChars : Nat
  maxChars : Nat
  overlapTargetChars : Nat
  positive : 0 < maxChars

/-- `CONFIG` of both structural strategies. -/
def structuralConfig : StructuralConfig := ⟨1024, 1280, 200, by decide⟩

section

variable (config : StructuralConfig) (units : List Span)

/-- `units[index]`. -/
def unitAt (index : Nat) : Span := units.getD index ⟨0, 0⟩

/-- How many of the units after `index` stop within the target. -/
def withinTarget (index : Nat) : Nat :=
  ((units.drop (index + 1)).takeWhile fun unit =>
    decide ((unit.stop : Int) - (unitAt units index).start ≤ config.targetChars)).length

/-- A group that would stop at `stop` takes that unit in as well: it fits, and ends as close to the
target. -/
def TakesNext (index stop : Nat) : Prop :=
  let start : Int := (unitAt units index).start
  let currentDistance :=
    (((unitAt units (stop - 1)).stop : Int) - start - config.targetChars).natAbs
  let nextDistance := (((unitAt units stop).stop : Int) - start - config.targetChars).natAbs
  stop < units.length ∧ ((unitAt units stop).stop : Int) - start ≤ config.maxChars ∧
  nextDistance ≤ currentDistance

instance (index stop : Nat) : Decidable (TakesNext config units index stop) := by
  unfold TakesNext
  infer_instance

/-- Where the group of `index` stops: at the target, or one further. -/
def groupStop (index : Nat) : Nat :=
  let stop := index + 1 + withinTarget config units index
  if TakesNext config units index stop then stop + 1 else stop

/-- The chunk that starts at a unit. -/
def groupSpan (index : Nat) : Span :=
  ⟨(unitAt units index).start, (unitAt units (groupStop config units index - 1)).stop⟩

/-- The overlap goes back from a unit while it is short, but not to `index`. -/
def overlapStart (index chunkStop : Nat) : Nat → Nat
  | 0 => 0
  | unit + 1 =>
    if index < unit + 1 ∧
      (chunkStop : Int) - (unitAt units (unit + 1)).start < config.overlapTargetChars
    then overlapStart index chunkStop unit else unit + 1

/-- The unit that the next chunk starts at. -/
def nextIndex (index : Nat) : Option Nat :=
  let stop := groupStop config units index
  if units.length ≤ stop then none
  else if config.maxChars < (unitAt units stop).length + config.overlapTargetChars then some stop
  else some (max (index + 1) (overlapStart config units index (groupSpan config units index).stop
    (stop - 1)))

theorem lt_groupStop (index : Nat) : index < groupStop config units index := by
  unfold groupStop
  dsimp only
  split <;> omega

/-- The grouping loop moves forward. -/
theorem lt_nextIndex {index next : Nat} (h : nextIndex config units index = some next) :
    index < next := by
  unfold nextIndex at h
  dsimp only at h
  split at h
  · cases h
  · split at h
    · rw [← Option.some.inj h]
      exact lt_groupStop config units index
    · rw [← Option.some.inj h]
      omega

/-- The loop of `_group_units` from a unit on. -/
def groupFrom (index : Nat) : List Span :=
  if index < units.length then
    groupSpan config units index ::
      match h : nextIndex config units index with
      | some next => groupFrom next
      | none => []
  else []
termination_by units.length - index
decreasing_by
  have := lt_nextIndex config units h
  omega

/-- `_group_units`. -/
def groupUnits : List Span := groupFrom config units 0

end

/-- Where a chunk is. -/
def spanOf (chunk : RawChunk) : Span := ⟨chunk.sourceStart, chunk.sourceEnd⟩

section

variable (unicode : UnicodeTables)

/-- The chunk of a span. -/
def structuralChunk (text : List Char) (parentIds : Bool) (part : SectionSpan) (span : Span) :
    RawChunk where
  text := String.ofList (slice text span.start span.stop)
  sourceStart := span.start
  sourceEnd := span.stop
  sectionName := if part.heading = "UNKNOWN" then none else some part.heading
  parentSourceId := if parentIds then some part.sectionId else none

/-- The spans of a section's chunks. -/
def chunkSpans (config : StructuralConfig) (text : List Char) (part : Span) : List Span :=
  (groupUnits config (atomicSpans text part config.maxChars)).filter fun span =>
    !isBlank (slice text span.start span.stop)

/-- `_split_structural`. -/
def splitStructural (config : StructuralConfig) (text : List Char) (parentIds : Bool) :
    List RawChunk :=
  (sectionSpans unicode text parentIds).flatMap fun part =>
    (chunkSpans config text part.toSpan).map (structuralChunk text parentIds part)

end

/-! ### Chunks of normalized units

The fixed strategy builds its chunks from symbols that stand for characters. The code runs it on the
characters themselves. -/

structure FixedConfig where
  chunkSize : Nat
  overlap : Nat
  overlap_lt : overlap < chunkSize

/-- `CONFIG` of the fixed strategy. -/
def fixedConfig : FixedConfig := ⟨1024, 200, by decide⟩

section

variable {α : Type} (toChar : α → Char)

/-- The text around the matches and the matches themselves, from a cursor on. -/
def partsFrom (text : List α) : Nat → List (Found Char) → List (List α)
  | cursor, [] => [slice text cursor text.length]
  | cursor, found :: rest =>
    slice text cursor found.start :: slice text found.start found.stop ::
      partsFrom text found.stop rest

/-- `BOUNDARY_RE.split(text)`. -/
def boundaryParts (text : List α) : List (List α) :=
  partsFrom text 0 (boundary.findAll (text.map toChar) 0 text.length)

/-- `units.append(current.strip())`, unless that is empty. -/
def flushUnit (current : List α) : List (List α) :=
  if isBlank (current.map toChar) then [] else [stripBy toChar current]

/-- The loop of `_split_units`: a unit ends with a part that is a boundary on its own. -/
def unitsFrom : List α → List (List α) → List (List α)
  | current, [] => flushUnit toChar current
  | current, part :: parts =>
    if part.isEmpty then unitsFrom current parts
    else if (boundary.fullMatch? (part.map toChar)).isSome then
      flushUnit toChar (current ++ part) ++ unitsFrom [] parts
    else unitsFrom (current ++ part) parts

/-- `_split_units`. -/
def splitUnits (text : List α) : List (List α) :=
  unitsFrom toChar [] (boundaryParts toChar (stripBy toChar text))

variable (joiner : α) (config : FixedConfig)

/-- The windows of a unit that is too long for a chunk. -/
def windowsFrom (unit : List α) (start : Nat) : List (List α) :=
  if start < unit.length then
    stripBy toChar (slice unit start (min (start + config.chunkSize) unit.length)) ::
      if start + config.chunkSize < unit.length
        then windowsFrom unit (start + config.chunkSize - config.overlap) else []
  else []
termination_by unit.length - start
decreasing_by
  have := config.overlap_lt
  omega

/-- `chunks.append(current.strip())`, unless `current` is empty. -/
def flushChunk (current : List α) :
    List (List α) := if current.isEmpty then [] else [stripBy toChar current]

/-- `f"{current} {unit}".strip()`, or the unit alone. -/
def joinUnit (current unit : List α) : List α :=
  if current.isEmpty then unit else stripBy toChar (current ++ joiner :: unit)

/-- What a chunk takes over from the one before. -/
def overlapTail (current : List α) : List α :=
  if config.overlap = 0 ∨ current.isEmpty then []
  else stripBy toChar (current.drop (current.length - config.overlap))

/-- The loop of `_chunk_text`. -/
def chunksFrom : List α → List (List α) → List (List α)
  | current, [] => flushChunk toChar current
  | current, unit :: units =>
    if config.chunkSize < unit.length then
      flushChunk toChar current ++ windowsFrom toChar config unit 0 ++ chunksFrom [] units
    else if (joinUnit toChar joiner current unit).length ≤ config.chunkSize then
      chunksFrom (joinUnit toChar joiner current unit) units
    else
      flushChunk toChar current ++
        chunksFrom (joinUnit toChar joiner (overlapTail toChar config current) unit) units

/-- `_chunk_text`. -/
def chunkText (text : List α) : List (List α) :=
  chunksFrom toChar joiner config [] (splitUnits toChar text)

end

/-! ### Looking chunks up in the source -/

/-- `text.find(chunk, lower_bound)`. -/
def strFind (text chunk : List Char) (lowerBound : Nat) : Option Nat :=
  (List.range (text.length + 1)).find? fun p =>
    decide (lowerBound ≤ p) && decide ((text.drop p).take chunk.length = chunk)

/-- `re.split(r"\s+", text)` without the empty pieces. -/
def splitTokens (text : List Char) : List (List Char) :=
  (text.splitOnP isPySpace).filter fun token => !token.isEmpty

/-- `[token for token in re.split(r"\s+", chunk.strip()) if token]`. -/
def tokens (chunk : List Char) : List (List Char) := splitTokens (strip chunk)

/-- `r"\s+".join(tokens)`. -/
def tokenPattern : List (List Char) → Pattern Char
  | [] => .empty
  | [token] => .literal token
  | token :: rest => .seq (.literal token) (.seq (.plus space) (tokenPattern rest))

/-- Where a chunk is in the source: literally, or with any white space between its tokens. -/
def locate (text chunk : List Char) (lowerBound : Nat) : Option Span :=
  match strFind text chunk lowerBound with
  | some exact => some ⟨exact, exact + chunk.length⟩
  | none =>
    if (tokens chunk).isEmpty then none
    else ((tokenPattern (tokens chunk)).findAll text lowerBound text.length).head?.map fun found =>
      ⟨found.start, found.stop⟩

/-- The lower bound of the next search. -/
def nextLowerBound (config : FixedConfig) (span : Span) (length : Nat) : Nat :=
  if length ≤ config.overlap then span.start else max (span.start + 1) (span.stop - config.overlap)

/-- How splitting fails. -/
inductive SplitFailure
  | splitter (error : PdfIngestionError)
  | stopIteration

/-- The chunk of a span of the source. -/
def fixedChunk (text : List Char) (sections : List SectionSpan) (span : Span) :
    Except SplitFailure RawChunk := do
  let sectionOf (offset : Nat) := sections.find? fun part => decide (part.start ≤ offset) &&
    decide (offset < part.stop)
  let some first := sectionOf span.start | throw .stopIteration
  let some last := sectionOf (max span.start (span.stop - 1)) | throw .stopIteration
  let sectionName :=
    if first.sectionId = last.sectionId then first.heading else first.heading ++ " -> " ++
      last.heading
  return {
    text := String.ofList (slice text span.start span.stop)
    sourceStart := span.start
    sourceEnd := span.stop
    sectionName := if sectionName = "UNKNOWN" then none else some sectionName
    parentSourceId := none }

/-- The loop of `_split_fixed`. -/
def locateFrom (config : FixedConfig) (text : List Char) (sections : List SectionSpan) :
    Nat → List (List Char) → Except SplitFailure (List RawChunk)
  | _, [] => .ok []
  | lowerBound, chunk :: chunks => do
    let some span := locate text chunk lowerBound
      | throw (.splitter ⟨"SPLITTER_SOURCE_SPAN_INVALID",
          "Fixed-boundary chunk could not be mapped to source text."⟩)
    let first ← fixedChunk text sections span
    let rest ← locateFrom config text sections (nextLowerBound config span chunk.length) chunks
    return first :: rest

section

variable (unicode : UnicodeTables)

/-- `_split_fixed`. -/
def splitFixed (config : FixedConfig) (text : List Char) : Except SplitFailure (List RawChunk) :=
  locateFrom config text (sectionSpans unicode text false) 0 (chunkText id ' ' config text)

/-- The value of `STRATEGIES`. -/
inductive Strategy
  | fixedBoundary
  | paragraphSentence
  | sectionParentChild
  deriving DecidableEq

/-- `STRATEGIES`, as the strings they are. -/
def Strategy.ofString? (strategy : String) : Option Strategy :=
  if strategy = "fixed_boundary_v1" then some .fixedBoundary
  else if strategy = "paragraph_sentence_v1" then some .paragraphSentence
  else if strategy = "section_parent_child_v1" then some .sectionParentChild
  else none

/-- The chunks of a strategy. -/
def splitBy (text : List Char) : Strategy → Except SplitFailure (List RawChunk)
  | .fixedBoundary => splitFixed unicode fixedConfig text
  | .paragraphSentence => .ok (splitStructural unicode structuralConfig text false)
  | .sectionParentChild => .ok (splitStructural unicode structuralConfig text true)

/-- `split_text`. -/
def splitText (text : List Char) (strategy : String) : Except SplitFailure (List RawChunk) := do
  let some strategy := Strategy.ofString? strategy
    | throw (.splitter ⟨"UNSUPPORTED_SPLITTER_STRATEGY",
        "Strategy must be one of: fixed_boundary_v1, paragraph_sentence_v1, section_parent_child_v1."⟩)
  if isBlank text then throw (.splitter ⟨"EMPTY_SOURCE_TEXT", "Source text must not be empty."⟩)
  let chunks ← splitBy unicode text strategy
  if chunks.isEmpty then throw (.splitter ⟨"SPLITTER_EMPTY_RESULT", "Splitter produced no chunks."⟩)
  if chunks.all fun chunk =>
    decide (slice text chunk.sourceStart chunk.sourceEnd = chunk.text.toList) then
    return chunks
  else throw (.splitter ⟨"SPLITTER_SOURCE_SPAN_INVALID",
    "Splitter chunk does not match its exact source span."⟩)

end

end ZhiyanRag.Ingestion
