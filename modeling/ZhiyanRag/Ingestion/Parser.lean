import Mathlib.Algebra.GroupWithZero.Nat
import ZhiyanRag.Ingestion.Splitter

/-!
# The parser

`PypdfTextParser.parse`. Opening the document and extracting the text of its pages is pypdf's work
and a parameter (`PdfReader`); everything after that is here: normalized pages, the clean text they
are joined to, and the blocks with their pages, sections and source offsets.
-/

namespace ZhiyanRag.Ingestion

open Regex Spans

/-! ### Page text -/

/-- `text.replace("\r\n", "\n").replace("\r", "\n")`. -/
def normalizeLineEnds : List Char → List Char
  | [] => []
  | '\r' :: '\n' :: rest => '\n' :: normalizeLineEnds rest
  | '\r' :: rest => '\n' :: normalizeLineEnds rest
  | c :: rest => c :: normalizeLineEnds rest

/-- The category `Cc`. -/
def isControl (c : Char) : Bool :=
  decide (c.toNat < 0x20) || (decide (0x7F ≤ c.toNat) && decide (c.toNat ≤ 0x9F))

/-- `re.sub(r"[\t ]+", " ", line)`. -/
def collapseBlanks : List Char → List Char
  | [] => []
  | c :: rest =>
    if c = '\t' ∨ c = ' ' then
      if (collapseBlanks rest).head? = some ' ' then collapseBlanks rest
        else ' ' :: collapseBlanks rest
    else c :: collapseBlanks rest

/-- `_normalize_page_text`. -/
def normalizePageText (text : List Char) : List Char :=
  let kept := (normalizeLineEnds text).filter fun c => decide (c = '\n') || decide (c = '\t') ||
    !isControl c
  let lines := (kept.splitOn '\n').map fun line => strip (collapseBlanks line)
  strip (['\n'].intercalate (lines.filter fun line => !line.isEmpty))

/-! ### Headings -/

/-- `re.IGNORECASE` of an ASCII letter: both cases, and the other characters that are folded to it.
-/
def anyCase (letter c : Char) : Bool :=
  decide (c.toLower = letter.toLower) ||
    (decide (letter.toLower = 'i') && (decide (c = 'ı') || decide (c = 'İ'))) ||
    (decide (letter.toLower = 's') && decide (c = 'ſ')) ||
      (decide (letter.toLower = 'k') && decide (c = Char.ofNat 0x212A))

/-- These letters, whatever their case. -/
def caseless (text : String) : Pattern Char :=
  sequence (text.toList.map fun letter => .char (anyCase letter))

/-- Any character but a line break. -/
def dot : Pattern Char := .char fun c => decide (c ≠ '\n')

/-- `NAMED_HEADING_PATTERN`, for a full match. -/
def namedHeading : Pattern Char :=
  .oneOf [caseless "abstract", caseless "introduction", caseless "related work",
    .seq (caseless "method") (.optional (.char (anyCase 's'))), caseless "methodology",
    .seq (caseless "experiment") (.optional (.char (anyCase 's'))),
    .seq (caseless "result") (.optional (.char (anyCase 's'))), caseless "discussion",
    .seq (caseless "conclusion") (.optional (.char (anyCase 's'))), caseless "references"]

/-- `ROMAN_HEADING_PATTERN`, for a full match; its groups are the number and the title. -/
def romanHeading : Pattern Char :=
  sequence [.group (.plus (.char fun c => "IVXLCDM".toList.any fun letter => anyCase letter c)),
    exactly '.', .plus space, .group (.plus dot)]

section

variable (unicode : UnicodeTables)

/-- `\d+(?:\.\d+)*`. -/
def sectionNumber : Pattern Char :=
  .seq (.plus (decimal unicode)) (.star (.seq (exactly '.') (.plus (decimal unicode))))

/-- `NUMBERED_HEADING_PATTERN`, for a full match; its groups are the number and the title. -/
def numberedHeading : Pattern Char :=
  sequence [.group (sectionNumber unicode),
    .optional (.char fun c => decide (c = '.') || decide (c = ')')), .plus space,
    .group (.plus dot)]

/-- `\b`. -/
def wordBoundary : Pattern Char :=
  .assert fun before next => decide (before.any unicode.isWord ≠ next.any unicode.isWord)

/-- A verb that headings do not have. -/
def sentenceLike : Pattern Char :=
  sequence [wordBoundary unicode,
    .oneOf (["is", "are", "was", "were", "has", "have", "shows", "denotes", "contains"].map
      literal),
    wordBoundary unicode]

/-- `pattern.search(text) is not None`. -/
def searches (r : Pattern Char) (text : List Char) : Bool := !(r.findAll text 0 text.length).isEmpty

/-- `int(digits)`. -/
def intOf (digits : List Char) : Nat :=
  digits.foldl (fun n c => 10 * n + (unicode.decimal c).getD 0) 0

/-- Enough of the title is in capitals. -/
def mostlyUpper (title : List Char) : Bool :=
  let letters := title.filter unicode.isAlpha
  !letters.isEmpty && decide (7 * letters.length ≤ 10 * letters.countP unicode.isUpper)

/-- `_is_heading`. -/
def isHeading (text : List Char) : Bool :=
  let value := strip text
  if 160 < value.length ∨ '\n' ∈ value then false
  else if (namedHeading.fullMatch? value).isSome then true
  else match romanHeading.fullMatch? value with
    | some groups => mostlyUpper unicode (strip (groups.getD 1 []))
    | none => match (numberedHeading unicode).fullMatch? value with
      | some groups =>
        let topLevel := intOf unicode ((groups.getD 0 []).takeWhile fun c => decide (c ≠ '.'))
        let title := strip (groups.getD 1 [])
        decide (1 ≤ topLevel) && decide (topLevel ≤ 20) && title.head?.any unicode.isUpper &&
          !searches (sentenceLike unicode) title
      | none => false

/-- `_heading_level`. -/
def headingLevel (text : List Char) : Nat :=
  match (Pattern.group (sectionNumber unicode)).match? none (strip text) with
  | some found => (found.groups.headD []).countP (fun c => decide (c = '.')) + 1
  | none => 1

/-- `_section_path` of the parser. -/
def headingPath (current : List String) (heading : List Char) : List String :=
  let level := headingLevel unicode heading
  if level ≤ 1 then [String.ofList heading] else current.take (level - 1) ++ [String.ofList heading]

/-! ### Blocks -/

/-- `re.finditer(r"[^\n]+", text)`: what lies between line breaks. -/
def lineSpans (text : List Char) : List Span :=
  (joinSpans 1 0 (text.splitOn '\n')).filter fun line => decide (line.start < line.stop)

/-- The stripped text of a line. -/
def lineValue (text : List Char) (line : Span) : List Char :=
  strip (slice text line.start line.stop)

/-- A line that ends a sentence, before one that can start a paragraph. -/
def paragraphEnd (value nextValue : List Char) : Bool :=
  searches (sequence [.char fun c => ".!?。！？".toList.contains c, .star space,
    .assert fun _ next => next.isNone]) value && nextValue.head?.any
      fun c => (decide ('A' ≤ c) && decide (c ≤ 'Z')) || (decide ('0' ≤ c) && decide (c ≤ '9')) ||
        (decide (0x4e00 ≤ c.toNat) && decide (c.toNat ≤ 0x9fff))

/-- The loop of `_text_block_spans`, with the block that is not finished yet. -/
def blockSpansFrom (text : List Char) : Option Span → List Span → List Span
  | active, [] => active.toList
  | active, line :: lines =>
    let value := lineValue text line
    let block : Span := ⟨(active.map (·.start)).getD line.start, line.stop⟩
    if value.isEmpty then blockSpansFrom text active lines
    else if isHeading unicode value then active.toList ++ line :: blockSpansFrom text none lines
    else if 1800 ≤ block.length ∨
      paragraphEnd value ((lines.head?.map (lineValue text)).getD []) then
      block :: blockSpansFrom text none lines
    else blockSpansFrom text (some block) lines

/-- `_text_block_spans`. -/
def textBlockSpans (text : List Char) : List Span :=
  blockSpansFrom unicode text none (lineSpans text)

/-- The section after a block. -/
def nextSection (current : List String) (blockText : List Char) : List String :=
  if isHeading unicode (strip blockText) then headingPath unicode current (strip blockText)
    else current

/-- The blocks of a page at an offset of the clean text. -/
def pageBlocks (pageNumber : Int) (offset : Nat) (text : List Char) :
    List String → List Span → List ParsedBlock
  | _, [] => []
  | current, span :: spans =>
    let path := nextSection unicode current (slice text span.start span.stop)
    { pageNumber := pageNumber
      sectionPath := path
      sourceStart := offset + span.start
      sourceEnd := offset + span.stop
      text := String.ofList (slice text span.start span.stop) } :: pageBlocks pageNumber offset text
        path spans

/-- The section after a page. -/
def sectionAfter (text : List Char) (current : List String) : List String :=
  (textBlockSpans unicode text).foldl
    (fun current span => nextSection unicode current (slice text span.start span.stop)) current

/-- The blocks of the pages from a page on. -/
def blocksFrom : List String → Int → Nat → List (List Char) → List ParsedBlock
  | _, _, _, [] => []
  | current, pageNumber, offset, text :: texts =>
    pageBlocks unicode pageNumber offset text current (textBlockSpans unicode text) ++
      blocksFrom (sectionAfter unicode text current) (pageNumber + 1)
        (offset + text.length + 2) texts

/-! ### The document -/

/-- How pypdf refuses a document. -/
inductive ReaderFailure
  | encrypted
  | failed

/-- pypdf: the pages of a document, and what `extract_text` returns or raises for each. -/
structure PdfReader where
  pages : List UInt8 → Except ReaderFailure (List (Except Unit (Option String)))

/-- The limits of a parser, all positive. -/
structure ParserLimits where
  minimumTextCharacters : Nat
  maximumPdfBytes : Nat
  maximumPageCount : Nat
  maximumCleanTextBytes : Nat
  positive : 1 ≤ minimumTextCharacters ∧ 1 ≤ maximumPdfBytes ∧ 1 ≤ maximumPageCount ∧
    1 ≤ maximumCleanTextBytes

/-- The default limits. -/
def defaultLimits : ParserLimits := ⟨80, 50 * 1024 * 1024, 2000, 5 * 1024 * 1024, by decide⟩

/-- `b"%PDF-"`. -/
def pdfSignature : List UInt8 := [37, 80, 68, 70, 45]

/-- The normalized texts of the pages. -/
def extractPages (reader : PdfReader) (limits : ParserLimits) (pdfBytes : List UInt8) :
    Except PdfIngestionError (List (List Char)) :=
  if limits.maximumPdfBytes < pdfBytes.length
    then .error ⟨"PDF_TOO_LARGE", "PDF exceeds the parser input limit."⟩
  else if !pdfSignature.isPrefixOf pdfBytes
    then .error ⟨"PDF_SIGNATURE_INVALID", "Input is not a PDF document."⟩
  else do
    let rawPages ← (reader.pages pdfBytes).mapError fun failure =>
      match failure with
      | .encrypted => ⟨"PDF_ENCRYPTED", "PDF requires a password."⟩
      | .failed => ⟨"PDF_PARSE_FAILED", "PDF could not be parsed."⟩
    if rawPages.isEmpty then .error ⟨"PDF_HAS_NO_PAGES", "PDF has no pages."⟩
    else if limits.maximumPageCount < rawPages.length then
      .error ⟨"PDF_PAGE_LIMIT_EXCEEDED", "PDF exceeds the page limit."⟩
    else rawPages.mapM fun page =>
      (page.map fun text => normalizePageText (text.getD "").toList).mapError fun _ =>
        ⟨"PDF_TEXT_EXTRACTION_FAILED", "PDF text extraction failed."⟩

/-- `"\n\n".join(extracted)`. -/
def cleanText (pages : List (List Char)) : List Char := ['\n', '\n'].intercalate pages

/-- The status of the pages, and its warnings. -/
def parseStatus (limits : ParserLimits) (pages : List (List Char)) : ParseStatus × List String :=
  if pages.all (·.isEmpty) then (.failed, ["NO_EXTRACTABLE_TEXT"])
  else if pages.any (·.isEmpty) then (.review, ["EMPTY_TEXT_PAGE_DETECTED"])
  else if (pages.map (·.length)).sum < limits.minimumTextCharacters
    then (.review, ["EXTRACTED_TEXT_TOO_SHORT"])
  else (.pass, [])

/-- What the parser makes of the pages. -/
def assemble (sha256 : List UInt8 → String) (limits : ParserLimits) (pdfBytes : List UInt8)
    (pages : List (List Char)) : Except PdfIngestionError ParsedPdf :=
  let text := String.ofList (cleanText pages)
  if limits.maximumCleanTextBytes < text.utf8ByteSize then
    .error ⟨"PDF_CLEAN_TEXT_TOO_LARGE", "Normalized PDF text exceeds the parser limit."⟩
  else .ok {
    pdfSha256 := sha256 pdfBytes
    sourceTextSha256 := sha256 text.toUTF8.toList
    cleanText := text
    parseStatus := (parseStatus limits pages).1
    warnings := (parseStatus limits pages).2
    blocks := blocksFrom unicode ["Document"] 1 0 pages }

/-- `PypdfTextParser.parse`. -/
def parsePdf (sha256 : List UInt8 → String) (reader : PdfReader) (limits : ParserLimits)
    (pdfBytes : List UInt8) : Except PdfIngestionError ParsedPdf := do
  let pages ← extractPages reader limits pdfBytes
  assemble unicode sha256 limits pdfBytes pages

/-- The toolchain of this parser and this splitter, with the digests of another. `StopIteration` is
no `SplitterError`; it would escape as it is. -/
def pypdfToolchain (reader : PdfReader) (limits : ParserLimits) (digests : Toolchain) : Toolchain :=
  { digests with
    parse := parsePdf unicode digests.sha256 reader limits
    splitText := fun text strategy => (splitText unicode text.toList strategy).mapError
      fun failure =>
      match failure with
      | .splitter error => error
      | .stopIteration => ⟨"StopIteration", ""⟩ }

end

end ZhiyanRag.Ingestion
