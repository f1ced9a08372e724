import ZhiyanRag.Ingestion.PageLineage

/-!
# The pages of a chunk

Ingestion with this parser and a structural strategy. A chunk overlaps exactly the blocks that it
shares a printed character with (`mem_sourceBlocks_iff`), so its record carries the first and the
last page of its printed characters, and the records link to their neighbours in source order
(`ingest_page_lineage`).
-/

namespace ZhiyanRag.Ingestion

open Regex Spans

/-! ### The blocks of a chunk -/

/-- The pages that hold a printed character of a chunk. -/
def printedPages (pages : List (List Char)) (text : List Char) (chunk : RawChunk) : Set Int :=
  {n | ∃ (k : Nat) (span : Span) (i : Nat), (pageSpans pages)[k]? = some span ∧ n = k + 1 ∧
    i ∈ span ∧ i ∈ spanOf chunk ∧ PrintedAt text i}

section

variable {pages : List (List Char)} {text : List Char} {blocks : List ParsedBlock}
  {chunk : RawChunk}

theorem VisibleAt.printed {i : Nat} (h : VisibleAt text i) : PrintedAt text i := by
  obtain ⟨c, hc, hvisible⟩ := h
  refine ⟨c, hc, ?_⟩
  rintro rfl
  cases hvisible

/-- A block overlaps a chunk exactly if they share a printed character: blocks end with such, and
chunks have one. -/
theorem mem_sourceBlocks_iff (hlineage : PageLineage pages text blocks)
    (hvisible : ∃ i ∈ spanOf chunk, VisibleAt text i) {block : ParsedBlock} :
    block ∈ sourceBlocksForChunk blocks chunk ↔
      block ∈ blocks ∧ ∃ i ∈ blockSpan block, i ∈ spanOf chunk ∧ PrintedAt text i := by
  unfold sourceBlocksForChunk
  rw [List.mem_filter, Bool.and_eq_true, decide_eq_true_eq, decide_eq_true_eq]
  refine and_congr_right fun hblock => ?_
  simp only [Span.mem_iff, blockSpan, spanOf]
  constructor
  · rintro ⟨hstart, hend⟩
    obtain ⟨hfirst, hlast⟩ := hlineage.printed_ends block hblock
    have hlt := (hlineage.ordered.bounds (List.mem_map_of_mem (f := blockSpan) hblock)).2.1
    simp only [blockSpan] at hfirst hlast hlt
    by_cases hbefore : chunk.sourceStart ≤ block.sourceStart
    · exact ⟨block.sourceStart, ⟨le_refl _, hlt⟩, ⟨hbefore, hstart⟩, hfirst⟩
    · by_cases hafter : block.sourceEnd ≤ chunk.sourceEnd
      · exact ⟨block.sourceEnd - 1, by omega, by omega, hlast⟩
      · -- The chunk lies inside of the block.
        obtain ⟨i, hi, hvisible⟩ := hvisible
        simp only [Span.mem_iff, spanOf] at hi
        exact ⟨i, by omega, hi, hvisible.printed⟩
  · rintro ⟨i, hi, hi', -⟩
    omega

/-- No character is on two pages. -/
theorem page_unique {k k' i : Nat} {span span' : Span} (hspan : (pageSpans pages)[k]? = some span)
    (hspan' : (pageSpans pages)[k']? = some span') (hi : i ∈ span) (hi' : i ∈ span') : k = k' := by
  have hdisjoint : (pageSpans pages).Pairwise fun a b => a.stop ≤ b.start :=
    (joinSpans_pairwise 2 0 pages).1
  obtain ⟨hk, rfl⟩ := List.getElem?_eq_some_iff.mp hspan
  obtain ⟨hk', rfl⟩ := List.getElem?_eq_some_iff.mp hspan'
  rw [Span.mem_iff] at hi hi'
  rcases Nat.lt_trichotomy k k' with hlt | heq | hlt
  · have := List.pairwise_iff_getElem.mp hdisjoint k k' hk hk' hlt
    omega
  · exact heq
  · have := List.pairwise_iff_getElem.mp hdisjoint k' k hk' hk hlt
    omega

/-- The pages of the overlapped blocks. -/
theorem sourceBlocks_pages (hlineage : PageLineage pages text blocks)
    (hvisible : ∃ i ∈ spanOf chunk, VisibleAt text i) {n : Int} :
    n ∈ (sourceBlocksForChunk blocks chunk).map (·.pageNumber) ↔
    n ∈ printedPages pages text chunk := by
  rw [List.mem_map]
  constructor
  · rintro ⟨block, hblock, rfl⟩
    obtain ⟨hmem, i, hi, hchunk, hprinted⟩ := (mem_sourceBlocks_iff hlineage hvisible).mp hblock
    obtain ⟨k, span, hspan, hnumber, hle⟩ := hlineage.in_page block hmem
    exact ⟨k, span, i, hspan, hnumber, Span.mem_of_le hle hi, hchunk, hprinted⟩
  · rintro ⟨k, span, i, hspan, rfl, hi, hchunk, hprinted⟩
    obtain ⟨block, ⟨hmem, hblock⟩, -⟩ := hlineage.once i hprinted
    obtain ⟨k', span', hspan', hnumber, hle⟩ := hlineage.in_page block hmem
    refine ⟨block, (mem_sourceBlocks_iff hlineage hvisible).mpr ⟨hmem, i, hblock, hchunk,
      hprinted⟩, ?_⟩
    have hi' := Span.mem_of_le hle hblock
    rw [hnumber, page_unique hspan' hspan hi' hi]

theorem sourceBlocks_ne_nil (hlineage : PageLineage pages text blocks)
    (hvisible : ∃ i ∈ spanOf chunk, VisibleAt text i) : sourceBlocksForChunk blocks chunk ≠ [] := by
  obtain ⟨i, hi, hvis⟩ := hvisible
  obtain ⟨block, ⟨hmem, hblock⟩, -⟩ := hlineage.once i hvis.printed
  exact List.ne_nil_of_mem
    ((mem_sourceBlocks_iff hlineage ⟨i, hi, hvis⟩).mpr ⟨hmem, i, hblock, hi, hvis.printed⟩)

/-- The smallest and the largest page number of the overlapped blocks. -/
theorem sourceBlocks_bounds (hlineage : PageLineage pages text blocks)
    (hvisible : ∃ i ∈ spanOf chunk, VisibleAt text i) :
    IsLeast (printedPages pages text chunk)
      (((sourceBlocksForChunk blocks chunk).map (·.pageNumber)).min?.getD 0) ∧
      IsGreatest (printedPages pages text chunk)
        (((sourceBlocksForChunk blocks chunk).map (·.pageNumber)).max?.getD 0) := by
  have hne : (sourceBlocksForChunk blocks chunk).map (·.pageNumber) ≠ [] :=
    fun hnil => sourceBlocks_ne_nil hlineage hvisible (List.map_eq_nil_iff.mp hnil)
  obtain ⟨least, hleast⟩ := Option.isSome_iff_exists.mp (List.isSome_min?_of_ne_nil hne)
  obtain ⟨greatest, hgreatest⟩ := Option.isSome_iff_exists.mp (List.isSome_max?_of_ne_nil hne)
  rw [hleast, hgreatest, Option.getD_some, Option.getD_some]
  obtain ⟨hmem, hle⟩ := List.min?_eq_some_iff.mp hleast
  obtain ⟨hmem', hge⟩ := List.max?_eq_some_iff.mp hgreatest
  refine ⟨⟨(sourceBlocks_pages hlineage hvisible).mp hmem, fun n hn => ?_⟩,
    (sourceBlocks_pages hlineage hvisible).mp hmem', fun n hn => ?_⟩
  · exact hle n ((sourceBlocks_pages hlineage hvisible).mpr hn)
  · exact hge n ((sourceBlocks_pages hlineage hvisible).mpr hn)

end

/-! ### Ingestion -/

/-- The records of the chunks: each carries the first and the last page of its chunk, and the
records are linked both ways in the order of the source. -/
structure Cited (pages : List (List Char)) (text : List Char) (rawChunks : List RawChunk)
    (chunks : List ChunkRecordV1) : Prop where
  texts : chunks.map (·.text) = rawChunks.map (·.text)
  increasing : rawChunks.Pairwise fun a b => a.sourceStart < b.sourceStart
  pages : ∀ (i : Nat) (raw : RawChunk) (chunk : ChunkRecordV1), rawChunks[i]? = some raw →
    chunks[i]? = some chunk → IsLeast (printedPages pages text raw) chunk.pageStart ∧
    IsGreatest (printedPages pages text raw) chunk.pageEnd
  links : ∀ (i : Nat) (chunk : ChunkRecordV1), chunks[i]? = some chunk →
    chunk.previousChunkId = (if i = 0 then none else chunks[i - 1]?.map (·.chunkId)) ∧
      chunk.nextChunkId = chunks[i + 1]?.map (·.chunkId)

/-- A strategy that splits structurally. -/
def Structural (strategy : String) : Prop :=
  strategy = "paragraph_sentence_v1" ∨ strategy = "section_parent_child_v1"

section

variable {unicode : UnicodeTables} {text : List Char} {strategy : String}

/-- A structural strategy fails on blank text only, and returns the chunks of `_split_structural` of
any other. -/
theorem splitText_structural (unicode : UnicodeTables) (text : List Char)
    (hstrategy : Structural strategy) : ∃ parentIds, splitText unicode text strategy =
      if isBlank text
        then .error (.splitter ⟨"EMPTY_SOURCE_TEXT", "Source text must not be empty."⟩)
      else .ok (splitStructural unicode structuralConfig text parentIds) := by
  have hby : ∃ parentIds s, Strategy.ofString? strategy = some s ∧
      splitBy unicode text s = .ok (splitStructural unicode structuralConfig text parentIds) := by
    rcases hstrategy with rfl | rfl
    · exact ⟨false, .paragraphSentence, by decide, rfl⟩
    · exact ⟨true, .sectionParentChild, by decide, rfl⟩
  obtain ⟨parentIds, s, hs, hsplit⟩ := hby
  refine ⟨parentIds, ?_⟩
  obtain ⟨hlossless, -⟩ := splitStructural_lossless unicode structuralConfig text parentIds
  unfold splitText
  simp only [hs]
  split
  · rfl
  · rename_i hvisible
    have hne : splitStructural unicode structuralConfig text parentIds ≠ [] := by
      rw [Bool.not_eq_true, ← slice_all text, isBlank_slice_eq_false] at hvisible
      obtain ⟨i, c, -, -, hi, hc⟩ := hvisible
      obtain ⟨chunk, hchunk, -⟩ := hlossless.covered i ⟨c, hi, hc⟩
      exact List.ne_nil_of_mem hchunk
    have hexact : ((splitStructural unicode structuralConfig text parentIds).all fun chunk =>
        decide (slice text chunk.sourceStart chunk.sourceEnd = chunk.text.toList)) = true := by
      rw [List.all_eq_true]
      exact fun chunk hchunk => decide_eq_true (hlossless.exact chunk hchunk).symm
    rw [hsplit]
    refine bind_eq_ok.mpr ⟨_, rfl, ?_⟩
    rw [if_neg (by rw [List.isEmpty_iff]; exact hne), if_pos hexact]
    rfl

end

section

variable {unicode : UnicodeTables} {reader : PdfReader} {limits : ParserLimits}
  {digests : Toolchain} {pdfBytes : List UInt8} {args : IngestArguments} {pages : List (List Char)}
  {parsed : ParsedPdf}

/-- Parsing goes on with normalized pages, at least one of them. -/
theorem extractPages_spec (h : extractPages reader limits pdfBytes = .ok pages) :
    pages ≠ [] ∧ ∀ page ∈ pages, NoBlankLine page ∧ (page ≠ [] → Stripped id page) := by
  unfold extractPages at h
  split at h
  · cases h
  · split at h
    · cases h
    · obtain ⟨rawPages, -, h⟩ := bind_eq_ok.mp h
      split at h
      · cases h
      · rename_i hne
        split at h
        · cases h
        · refine ⟨?_, fun page hpage => ?_⟩
          · rintro rfl
            have hlength := (mapM_eq_ok.mp h).length_eq
            exact hne (List.isEmpty_iff.mpr (List.length_eq_zero_iff.mp hlength))
          · obtain ⟨raw, -, hraw⟩ := exists_of_mapM_ok h hpage
            cases raw with
            | error => cases hraw
            | ok text =>
              cases hraw
              refine ⟨normalizePageText_noBlankLine _, fun hne => ?_⟩
              obtain ⟨-, -, -, -, -, hstripped⟩ := stripBy_spec id
                (['\n'].intercalate (((((normalizeLineEnds (text.getD "").toList).filter fun c =>
                  decide (c = '\n') || decide (c = '\t') || !isControl c).splitOn '\n').map
                    fun line =>
                    strip (collapseBlanks line)).filter fun line => !line.isEmpty))
              exact hstripped hne

theorem parsePdf_spec {sha256 : List UInt8 → String}
    (h : parsePdf unicode sha256 reader limits pdfBytes = .ok parsed) :
    ∃ pages, extractPages reader limits pdfBytes = .ok pages ∧
      parsed.cleanText = String.ofList (cleanText pages) ∧
      parsed.parseStatus = (parseStatus limits pages).1 ∧
      parsed.blocks = blocksFrom unicode ["Document"] 1 0 pages := by
  unfold parsePdf at h
  obtain ⟨pages, hpages, h⟩ := bind_eq_ok.mp h
  unfold assemble at h
  dsimp only at h
  split at h
  · cases h
  · cases h
    exact ⟨pages, hpages, rfl, rfl, rfl⟩

/-- A page that starts with a visible character has a printed one in the clean text. -/
theorem exists_printed {page : List Char} (hpage : page ∈ pages) (hstripped : Stripped id page) :
    ∃ i, PrintedAt (cleanText pages) i := by
  obtain ⟨k, hk, rfl⟩ := List.getElem_of_mem hpage
  have hk' : k < (pageSpans pages).length := by rwa [pageSpans, joinSpans_length]
  have hspan : (pageSpans pages)[k]? = some (pageSpans pages)[k] := List.getElem?_eq_getElem hk'
  obtain ⟨hslice, -, -⟩ := slice_page (List.getElem?_eq_getElem hk) hspan
  obtain ⟨c, hc, hvisible⟩ := hstripped.first
  rw [hslice] at hc
  obtain ⟨i, -, -, hi⟩ := mem_slice.mp (List.mem_of_head? hc)
  exact ⟨i, VisibleAt.printed ⟨c, hi, hvisible⟩⟩

/-- The checks of the parse output never find fault with its lineage. -/
theorem checkParsed_error (hpages : ∀ page ∈ pages, page ≠ [] → Stripped id page)
    (hlineage : PageLineage pages (cleanText pages) parsed.blocks)
    (htext : parsed.cleanText = String.ofList (cleanText pages))
    (hstatus : parsed.parseStatus = (parseStatus limits pages).1) {allowParseReview : Bool}
    {error : PdfIngestionError}
    (h : checkParsed parsed allowParseReview = .error error) :
    error.code = "PARSE_QUALITY_GATE_BLOCKED" := by
  unfold checkParsed at h
  split at h
  · cases h
    rfl
  · rename_i hfailed
    split at h
    · cases h
      rfl
    · -- Some page is not empty, so there is a block.
      have hblocks : ¬parsed.blocks.isEmpty = true := by
        obtain ⟨page, hpage, hne⟩ : ∃ page ∈ pages, page ≠ [] := by
          by_contra hnone
          refine hfailed (hstatus.trans ?_)
          unfold parseStatus
          rw [if_pos]
          rw [List.all_eq_true]
          intro page hpage
          by_contra hne
          exact hnone ⟨page, hpage, fun hnil => hne (List.isEmpty_iff.mpr hnil)⟩
        obtain ⟨i, hprinted⟩ := exists_printed hpage (hpages page hpage hne)
        obtain ⟨block, ⟨hblock, -⟩, -⟩ := hlineage.once i hprinted
        rw [List.isEmpty_iff]
        exact List.ne_nil_of_mem hblock
      have hexact : (parsed.blocks.all fun block =>
          decide (sliceChars parsed.cleanText block.sourceStart block.sourceEnd = block.text)) =
            true := by
        rw [List.all_eq_true]
        intro block hblock
        refine decide_eq_true ?_
        have := hlineage.exact block hblock
        unfold slice at this
        rw [htext, sliceChars, String.toList_ofList, ← List.drop_take, ← this, String.ofList_toList]
      rw [if_neg hblocks, if_pos hexact] at h
      cases h

/-- Every chunk of the clean text can be traced. -/
theorem chunkBlocks_ok (hlineage : PageLineage pages (cleanText pages) parsed.blocks)
    {rawChunks : List RawChunk}
    (hvisible : ∀ chunk ∈ rawChunks, ∃ i ∈ spanOf chunk, VisibleAt (cleanText pages) i) :
    chunkBlocks parsed rawChunks = .ok (rawChunks.map (sourceBlocksForChunk parsed.blocks)) := by
  unfold chunkBlocks
  rw [mapM_eq_ok, List.forall₂_map_right_iff, List.forall₂_same]
  intro chunk hchunk
  rw [if_neg]
  rw [List.isEmpty_iff]
  exact sourceBlocks_ne_nil hlineage (hvisible chunk hchunk)

/-- The records of the chunks. -/
theorem ingestionResult_cited {tools : Toolchain}
    (hlineage : PageLineage pages (cleanText pages) parsed.blocks) {rawChunks : List RawChunk}
    (hvisible : ∀ chunk ∈ rawChunks, ∃ i ∈ spanOf chunk, VisibleAt (cleanText pages) i)
    (hincreasing : rawChunks.Pairwise fun a b => a.sourceStart < b.sourceStart) {versionId : String}
    {result : IngestionResult} (h : ingestionResult tools args parsed versionId rawChunks
      (rawChunks.map (sourceBlocksForChunk parsed.blocks)) = .ok result) :
    Cited pages (cleanText pages) rawChunks result.chunks := by
  obtain ⟨hlength, hrecords⟩ := ingestionResult_records (List.length_map _) h
  have hids : (chunkIdentifiers tools args parsed versionId rawChunks).length =
      rawChunks.length := by
    simp [chunkIdentifiers]
  have hrecord : ∀ i (hi : i < result.chunks.length) (hraw : i < rawChunks.length),
      (chunkRecord tools args versionId (chunkIdentifiers tools args parsed versionId rawChunks)
        rawChunks[i] (sourceBlocksForChunk parsed.blocks rawChunks[i]) i).Validated
          result.chunks[i] := by
    intro i hi hraw
    have := hrecords i hraw (by rwa [List.length_map]) hi
    rwa [List.getElem_map] at this
  -- The identifier that a neighbour links to is the neighbour's own.
  have hlink : ∀ i :
      Nat, (chunkIdentifiers tools args parsed versionId rawChunks)[i]?.map stripWhitespace =
        result.chunks[i]?.map fun chunk : ChunkRecordV1 => chunk.chunkId := by
    intro i
    by_cases hi : i < result.chunks.length
    · rw [List.getElem?_eq_getElem (by omega), List.getElem?_eq_getElem hi, Option.map_some,
        Option.map_some, (hrecord i hi (by omega)).chunkId]
      simp only [chunkRecord, List.getD_eq_getElem?_getD]
      rw [List.getElem?_eq_getElem (by omega), Option.getD_some]
    · rw [List.getElem?_eq_none (by omega), List.getElem?_eq_none (by omega)]
      rfl
  refine ⟨?_, hincreasing, fun i raw chunk hraw hchunk => ?_, fun i chunk hchunk => ?_⟩
  · refine List.ext_getElem (by rw [List.length_map, List.length_map, hlength]) fun i hi hi' => ?_
    rw [List.length_map] at hi
    rw [List.getElem_map, List.getElem_map, (hrecord i hi (by omega)).text]
    rfl
  · obtain ⟨hi, rfl⟩ := List.getElem?_eq_some_iff.mp hchunk
    obtain ⟨hi', rfl⟩ := List.getElem?_eq_some_iff.mp hraw
    rw [(hrecord i hi hi').pageStart, (hrecord i hi hi').pageEnd]
    exact sourceBlocks_bounds hlineage (hvisible _ (List.getElem_mem hi'))
  · obtain ⟨hi, rfl⟩ := List.getElem?_eq_some_iff.mp hchunk
    rw [(hrecord i hi (by omega)).previousChunkId, (hrecord i hi (by omega)).nextChunkId]
    refine ⟨?_, hlink (i + 1)⟩
    simp only [chunkRecord]
    split
    · rfl
    · exact hlink (i - 1)

/-- Every chunk of a structural split has a visible character in its span. -/
theorem visible_splitStructural (unicode : UnicodeTables) (text : List Char) (parentIds : Bool) :
    ∀ chunk ∈ splitStructural unicode structuralConfig text parentIds,
      ∃ i ∈ spanOf chunk, VisibleAt text i := by
  intro chunk hchunk
  obtain ⟨hlossless, -⟩ := splitStructural_lossless unicode structuralConfig text parentIds
  have hvisible := hlossless.visible chunk hchunk
  rw [hlossless.exact chunk hchunk, isBlank_slice_eq_false] at hvisible
  obtain ⟨i, c, hstart, hend, hi, hc⟩ := hvisible
  exact ⟨i, ⟨hstart, hend⟩, c, hi, hc⟩

/-- The split of the ingestion: it fails on blank text only, and is a structural split of any other.
-/
theorem pypdfToolchain_splitText (hstrategy : Structural args.strategy)
    (htext : parsed.cleanText = String.ofList (cleanText pages)) :
    (∃ message, (pypdfToolchain unicode reader limits digests).splitText parsed.cleanText
      args.strategy = .error ⟨"EMPTY_SOURCE_TEXT", message⟩) ∨
    ∃ parentIds, splitText unicode (cleanText pages) args.strategy =
        .ok (splitStructural unicode structuralConfig (cleanText pages) parentIds) ∧
      (pypdfToolchain unicode reader limits digests).splitText parsed.cleanText args.strategy =
        .ok (splitStructural unicode structuralConfig (cleanText pages) parentIds) := by
  obtain ⟨parentIds, hsplit⟩ := splitText_structural unicode (cleanText pages) hstrategy
  simp only [pypdfToolchain, htext, String.toList_ofList]
  cases hblank : isBlank (cleanText pages) with
  | true =>
    rw [hblank, if_pos rfl] at hsplit
    rw [hsplit]
    exact .inl ⟨_, rfl⟩
  | false =>
    rw [hblank, if_neg Bool.false_ne_true] at hsplit
    rw [hsplit]
    exact .inr ⟨parentIds, rfl, rfl⟩

/-- Ingestion fails on its identity, on the quality of the parse, on blank text or on a record. -/
theorem ingest_error_code (hstrategy : Structural args.strategy)
    (hparse : parsePdf unicode digests.sha256 reader limits pdfBytes = .ok parsed)
    (hpages : ∀ page ∈ pages, page ≠ [] → Stripped id page)
    (hlineage : PageLineage pages (cleanText pages) parsed.blocks)
    (htext : parsed.cleanText = String.ofList (cleanText pages))
    (hstatus : parsed.parseStatus = (parseStatus limits pages).1) {error : PdfIngestionError}
    (h : ingestPdfBytes (pypdfToolchain unicode reader limits digests) pdfBytes args =
      .error error) :
    error.code ∈ ["PDF_IDENTITY_MISMATCH", "PARSE_QUALITY_GATE_BLOCKED", "EMPTY_SOURCE_TEXT",
      "CHUNK_RECORD_CONTRACT_INVALID"] := by
  have hparsed : (pypdfToolchain unicode reader limits digests).parse pdfBytes =
      .ok parsed := hparse
  have hsplits := @pypdfToolchain_splitText unicode reader limits digests args pages parsed
    hstrategy htext
  rcases ingestPdfBytes_error h with hidentity | hfailed | ⟨other, hother, hrest⟩
  · unfold checkIdentity at hidentity
    split at hidentity
    · cases hidentity
    · cases hidentity
      simp
  · rw [hparsed] at hfailed
    cases hfailed
  · rw [hparsed] at hother
    cases hother
    rcases hrest with hchecked | hsplit | ⟨rawChunks, hsplit, hblocks | hcode⟩
    · simp [checkParsed_error hpages hlineage htext hstatus hchecked]
    · rcases hsplits with ⟨message, hblank⟩ | ⟨parentIds, -, hchunks⟩
      · rw [hblank] at hsplit
        cases hsplit
        simp
      · rw [hchunks] at hsplit
        cases hsplit
    · rcases hsplits with ⟨message, hblank⟩ | ⟨parentIds, -, hchunks⟩
      · rw [hblank] at hsplit
        cases hsplit
      · rw [hchunks] at hsplit
        cases hsplit
        rw [chunkBlocks_ok hlineage (visible_splitStructural unicode (cleanText pages) parentIds)]
          at hblocks
        cases hblocks
    · simp [hcode]

/-- The records of an ingestion cite the pages of the chunks that the split returned. -/
theorem ingest_cited (hstrategy : Structural args.strategy)
    (hparse : parsePdf unicode digests.sha256 reader limits pdfBytes = .ok parsed)
    (hlineage : PageLineage pages (cleanText pages) parsed.blocks)
    (htext : parsed.cleanText = String.ofList (cleanText pages)) {result : IngestionResult}
    (h : ingestPdfBytes (pypdfToolchain unicode reader limits digests) pdfBytes args = .ok result) :
    ∃ rawChunks, splitText unicode (cleanText pages) args.strategy = .ok rawChunks ∧
      Cited pages (cleanText pages) rawChunks result.chunks := by
  have hparsed : (pypdfToolchain unicode reader limits digests).parse pdfBytes =
      .ok parsed := hparse
  obtain ⟨other, rawChunks, blocks, versionId, hother, hsplit, hblocks, hresult⟩ :=
    ingestPdfBytes_stages h
  rw [hparsed] at hother
  cases hother
  rcases pypdfToolchain_splitText hstrategy htext with ⟨message, hblank⟩ | ⟨parentIds, hraw,
    hchunks⟩
  · rw [hblank] at hsplit
    cases hsplit
  · rw [hchunks] at hsplit
    cases hsplit
    have hvisible := visible_splitStructural unicode (cleanText pages) parentIds
    rw [chunkBlocks_ok hlineage hvisible] at hblocks
    cases hblocks
    obtain ⟨hlossless, -⟩ := splitStructural_lossless unicode structuralConfig (cleanText pages)
      parentIds
    exact ⟨_, hraw, ingestionResult_cited hlineage hvisible hlossless.increasing hresult⟩

/-- Page lineage is exact end to end: blocks keep every printed character of the clean text, each on
its own page; ingestion never finds fault with it; and every record carries the first and the last
page of the printed characters of its chunk, and links to its neighbours. -/
theorem ingest_page_lineage (hstrategy : Structural args.strategy)
    (hparse : parsePdf unicode digests.sha256 reader limits pdfBytes = .ok parsed) :
    ∃ pages, extractPages reader limits pdfBytes = .ok pages ∧
      parsed.cleanText = String.ofList (cleanText pages) ∧
      PageLineage pages (cleanText pages) parsed.blocks ∧
      (∀ error,
        ingestPdfBytes (pypdfToolchain unicode reader limits digests) pdfBytes args = .error error →
        error.code ≠ "PARSED_DOCUMENT_LINEAGE_INVALID" ∧
          error.code ≠ "SPLITTER_OBJECT_LINEAGE_MISSING") ∧
      ∀ result,
        ingestPdfBytes (pypdfToolchain unicode reader limits digests) pdfBytes args = .ok result →
        ∃ rawChunks, splitText unicode (cleanText pages) args.strategy = .ok rawChunks ∧
          Cited pages (cleanText pages) rawChunks result.chunks := by
  obtain ⟨pages, hpages, htext, hstatus, hblocks⟩ := parsePdf_spec hparse
  obtain ⟨hne, hlines⟩ := extractPages_spec hpages
  have hlineage : PageLineage pages (cleanText pages) parsed.blocks :=
    hblocks ▸ blocksFrom_lineage hne fun page hpage => (hlines page hpage).1
  refine ⟨pages, hpages, htext, hlineage, fun error herror => ?_,
    fun result hresult => ingest_cited hstrategy hparse hlineage htext hresult⟩
  have hcode := ingest_error_code hstrategy hparse (fun page hpage => (hlines page hpage).2)
    hlineage htext hstatus herror
  have hnot : ∀ code ∈ ["PDF_IDENTITY_MISMATCH", "PARSE_QUALITY_GATE_BLOCKED", "EMPTY_SOURCE_TEXT",
      "CHUNK_RECORD_CONTRACT_INVALID"], code ≠ "PARSED_DOCUMENT_LINEAGE_INVALID" ∧
        code ≠ "SPLITTER_OBJECT_LINEAGE_MISSING" := by decide
  exact hnot _ hcode

/-- A document of two pages. -/
def twoPageReader : PdfReader := ⟨fun _ => .ok [.ok (some "Ab."), .ok (some "Cd.\r\n")]⟩

/-- A page has one block, and between the blocks is the gap between the pages. -/
theorem ingest_page_lineage_two_pages :
    PageLineage ["Ab.".toList, "Cd.".toList] "Ab.\n\nCd.".toList
      [⟨1, ["Document"], 0, 3, "Ab."⟩, ⟨2, ["Document"], 5, 8, "Cd."⟩] := by
  have hextract : extractPages twoPageReader defaultLimits pdfSignature =
      .ok ["Ab.".toList, "Cd.".toList] := by
    rfl
  have hparse : parsePdf asciiTables (fun _ => "digest") twoPageReader defaultLimits pdfSignature =
      .ok ⟨"digest", "digest", "Ab.\n\nCd.", .review, ["EXTRACTED_TEXT_TOO_SHORT"],
        [⟨1, ["Document"], 0, 3, "Ab."⟩, ⟨2, ["Document"], 5, 8, "Cd."⟩]⟩ := by
    rfl
  have hlineage := @ingest_page_lineage asciiTables twoPageReader defaultLimits
    ⟨fun _ => "digest", fun _ => "digest", fun _ => "digest", fun _ => .error ⟨"", ""⟩,
      fun _ _ => .ok [], fun _ => "digest"⟩
    pdfSignature
    { documentId := "doc-1", tenantId := "tenant-1", visibility := .isPrivate,
      libraryScopeIds := [],
      strategy := "paragraph_sentence_v1" } _ (Or.inl rfl) hparse
  obtain ⟨pages, hpages, -, hlineage, -⟩ := hlineage
  rw [hextract] at hpages
  cases hpages
  exact hlineage

end

end ZhiyanRag.Ingestion
