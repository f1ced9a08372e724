import ZhiyanRag.Ingestion.Models

/-!
# PDF ingestion

`ingest_pdf_bytes` adapts parse output to chunk records. The parser, the splitter and the digests
are parameters (`Toolchain`): every result holds whatever they are. What matters downstream is the
chain of records it builds: the last chunk has no `next_chunk_id` and every other chunk has one, so
no result can be extended by another (`chunks_eq_of_isPrefix`).
-/

namespace ZhiyanRag.Ingestion

/-- `PdfIngestionError`, with the parser's and the splitter's errors that it wraps. -/
structure PdfIngestionError where
  code : String
  message : String
  deriving DecidableEq

structure RawChunk where
  text : String
  sourceStart : Nat
  sourceEnd : Nat
  sectionName : Option String
  parentSourceId : Option String

/-- The dictionary behind a chunk identifier. -/
structure ChunkIdentity where
  documentId : String
  versionId : String
  strategy : String
  configHash : String
  sourceTextSha256 : String
  chunkIndex : Nat
  sourceStart : Nat
  sourceEnd : Nat
  contentSha256 : String

/-- The dictionary behind a parent chunk identifier. -/
structure ParentIdentity where
  documentId : String
  versionId : String
  strategy : String
  parentSourceId : String

/-- What ingestion is built from: `sha256(..).hexdigest()`, `canonical_sha256` of the two identity
dictionaries, the parser and the splitter. -/
structure Toolchain where
  sha256 : List UInt8 → String
  chunkSha256 : ChunkIdentity → String
  parentSha256 : ParentIdentity → String
  parse : List UInt8 → Except PdfIngestionError ParsedPdf
  splitText : String → String → Except PdfIngestionError (List RawChunk)
  strategyConfigHash : String → String

/-- `s[:n]`. -/
def takeChars (s : String) (n : Nat) : String := String.ofList (s.toList.take n)

/-- `s[start:end]`. -/
def sliceChars (s : String) (start stop : Nat) : String :=
  String.ofList ((s.toList.drop start).take (stop - start))

/-- `PARSE_VERSION`. -/
def parseVersion : String := "pypdf_text_v1"

/-- `DEFAULT_EMBEDDING_VERSION`. -/
def defaultEmbeddingVersion : String := "not_embedded_v1"

/-- `_source_blocks_for_chunk`. -/
def sourceBlocksForChunk (blocks : List ParsedBlock) (chunk : RawChunk) : List ParsedBlock :=
  blocks.filter fun block =>
    decide (block.sourceStart < chunk.sourceEnd) && decide (chunk.sourceStart < block.sourceEnd)

/-- The section paths of the blocks, each once, in order. -/
def sectionPaths (blocks : List ParsedBlock) : List (List String) :=
  blocks.foldl (fun paths block => if block.sectionPath ∈ paths then paths
    else paths ++ [block.sectionPath]) []

/-- `_section_path`. -/
def sectionPath (blocks : List ParsedBlock) (fallback : Option String) : String :=
  match sectionPaths blocks with
  | [] => (fallback.filter (· ≠ "")).getD "Document"
  | [path] => String.intercalate " > " path
  | first :: path :: rest =>
    String.intercalate " > " first ++ " -> " ++
      String.intercalate " > " ((path :: rest).getLast (by simp))

section

variable (tools : Toolchain)

/-- `_parent_chunk_id`. -/
def parentChunkId (documentId versionId strategy : String) (parentSourceId : Option String) :
    Option String :=
  parentSourceId.map fun source =>
    "parent_" ++ takeChars (tools.parentSha256 ⟨documentId, versionId, strategy, source⟩) 24

/-- The arguments of `ingest_pdf_bytes` besides the bytes. -/
structure IngestArguments where
  documentId : String
  tenantId : String
  visibility : Visibility
  libraryScopeIds : List String
  strategy : String
  expectedSha256 : Option String := none
  allowParseReview : Bool := false
  embeddingVersion : String := defaultEmbeddingVersion
  versionId : Option String := none
  isActive : Bool := true

/-- The bytes are the expected ones, where a digest is expected. -/
def checkIdentity (pdfBytes : List UInt8) (expectedSha256 : Option String) :
    Except PdfIngestionError Unit :=
  if expectedSha256.all fun expected => decide (tools.sha256 pdfBytes = expected) then .ok ()
  else .error ⟨"PDF_IDENTITY_MISMATCH", "PDF bytes do not match the expected SHA-256 identity."⟩

/-- The parse output may be chunked: usable text, and blocks that carry their exact source spans. -/
def checkParsed (parsed : ParsedPdf) (allowParseReview : Bool) : Except PdfIngestionError Unit :=
  if parsed.parseStatus = .failed then
    .error ⟨"PARSE_QUALITY_GATE_BLOCKED",
      "PDF has no usable text; OCR is outside the current stage."⟩
  else if parsed.parseStatus = .review ∧ !allowParseReview then
    .error ⟨"PARSE_QUALITY_GATE_BLOCKED", "PDF parse quality requires explicit review approval."⟩
  else if parsed.blocks.isEmpty then
    .error ⟨"PARSED_DOCUMENT_LINEAGE_INVALID",
      "Parsed text has no page and section lineage blocks."⟩
  else if parsed.blocks.all fun block =>
    decide (sliceChars parsed.cleanText block.sourceStart block.sourceEnd = block.text) then
    .ok ()
  else .error ⟨"PARSED_DOCUMENT_LINEAGE_INVALID",
    "A parsed block does not match its exact source span."⟩

/-- The source blocks of each chunk. -/
def chunkBlocks (parsed : ParsedPdf) (rawChunks : List RawChunk) :
    Except PdfIngestionError (List (List ParsedBlock)) :=
  rawChunks.mapM fun chunk =>
    if (sourceBlocksForChunk parsed.blocks chunk).isEmpty then
      .error ⟨"SPLITTER_OBJECT_LINEAGE_MISSING",
        "A chunk cannot be traced to a PDF page and section."⟩
    else .ok (sourceBlocksForChunk parsed.blocks chunk)

/-- The identifier of the chunk at an index. -/
def chunkId (args : IngestArguments) (parsed : ParsedPdf) (versionId : String) (chunk : RawChunk)
    (index : Nat) :
    String :=
  "chunk_" ++ takeChars (tools.chunkSha256
    { documentId := args.documentId
      versionId := versionId
      strategy := args.strategy
      configHash := tools.strategyConfigHash args.strategy
      sourceTextSha256 := parsed.sourceTextSha256
      chunkIndex := index
      sourceStart := chunk.sourceStart
      sourceEnd := chunk.sourceEnd
      contentSha256 := tools.sha256 chunk.text.toUTF8.toList }) 24

/-- The record of the chunk at an index, before validation. -/
def chunkRecord (args : IngestArguments) (versionId : String) (chunkIds : List String)
    (chunk : RawChunk) (blocks : List ParsedBlock) (index : Nat) : ChunkRecordV1 where
  chunkId := chunkIds.getD index ""
  documentId := args.documentId
  versionId := versionId
  text := chunk.text
  sectionPath := sectionPath blocks chunk.sectionName
  pageStart := (blocks.map (·.pageNumber)).min?.getD 0
  pageEnd := (blocks.map (·.pageNumber)).max?.getD 0
  parentChunkId := parentChunkId tools args.documentId versionId args.strategy chunk.parentSourceId
  previousChunkId := if index = 0 then none else chunkIds[index - 1]?
  nextChunkId := chunkIds[index + 1]?
  tenantId := args.tenantId
  visibility := args.visibility
  libraryScopeIds := args.libraryScopeIds
  parseVersion := parseVersion
  embeddingVersion := args.embeddingVersion
  isActive := args.isActive

/-- The identifiers of the chunks, before validation. -/
def chunkIdentifiers (args : IngestArguments) (parsed : ParsedPdf) (versionId : String)
    (rawChunks : List RawChunk) : List String :=
  rawChunks.zipIdx.map fun (chunk, index) => chunkId tools args parsed versionId chunk index

/-- The validated records and result. -/
def ingestionResult (args : IngestArguments) (parsed : ParsedPdf) (versionId : String)
    (rawChunks : List RawChunk) (blocks : List (List ParsedBlock)) :
    Except PyError IngestionResult := do
  let chunkIds := chunkIdentifiers tools args parsed versionId rawChunks
  let chunks ← ((rawChunks.zip blocks).zipIdx).mapM fun ((chunk, blocks), index) =>
    (chunkRecord tools args versionId chunkIds chunk blocks index).validate
  IngestionResult.validate
    { documentId := args.documentId
      versionId := versionId
      pdfSha256 := parsed.pdfSha256
      sourceTextSha256 := parsed.sourceTextSha256
      parseStatus := parsed.parseStatus
      warnings := parsed.warnings
      strategy := args.strategy
      chunks := chunks }

def ingestPdfBytes (pdfBytes : List UInt8) (args : IngestArguments) :
    Except PdfIngestionError IngestionResult := do
  checkIdentity tools pdfBytes args.expectedSha256
  let parsed ← tools.parse pdfBytes
  checkParsed parsed args.allowParseReview
  let rawChunks ← tools.splitText parsed.cleanText args.strategy
  let versionId :=
    (args.versionId.filter (· ≠ "")).getD ("version_" ++ takeChars parsed.pdfSha256 24)
  let blocks ← chunkBlocks parsed rawChunks
  (ingestionResult tools args parsed versionId rawChunks blocks).mapError fun _ =>
    ⟨"CHUNK_RECORD_CONTRACT_INVALID", "Ingestion configuration or output violates ChunkRecordV1."⟩

end

/-! ### The chain of records -/

/-- Exactly the last chunk has no successor. -/
def Chained (chunks : List ChunkRecordV1) : Prop :=
  ∀ i (hi : i < chunks.length), (chunks[i]).nextChunkId.isSome = decide (i + 1 < chunks.length)

/-- A chained list has no chained proper extension. -/
theorem chunks_eq_of_isPrefix {short long : List ChunkRecordV1} (hshort : Chained short)
    (hlong : Chained long) (hne : short ≠ []) (h : short <+: long) : short = long := by
  refine h.eq_of_length_le ?_
  by_contra hlt
  have hpos : 0 < short.length := List.length_pos_iff.mpr hne
  have hlen := h.length_le
  have hlast := hshort (short.length - 1) (by omega)
  have hsame := hlong (short.length - 1) (by omega)
  rw [← h.getElem (by omega), hlast] at hsame
  simp only [decide_eq_decide] at hsame
  omega

section

variable {tools : Toolchain} {args : IngestArguments}

/-- Each record of the result is the validated record of a chunk. -/
theorem ingestionResult_records {parsed : ParsedPdf} {versionId : String}
    {rawChunks : List RawChunk} {blocks : List (List ParsedBlock)} {result : IngestionResult}
    (hblocks : blocks.length = rawChunks.length)
    (h : ingestionResult tools args parsed versionId rawChunks blocks = .ok result) :
    result.chunks.length = rawChunks.length ∧
      ∀ i (hraw : i < rawChunks.length) (hblock : i < blocks.length)
        (hi : i < result.chunks.length),
        (chunkRecord tools args versionId (chunkIdentifiers tools args parsed versionId rawChunks)
          rawChunks[i] blocks[i] i).Validated result.chunks[i] := by
  unfold ingestionResult at h
  obtain ⟨chunks, hchunks, h⟩ := bind_eq_ok.mp h
  have hresult : result.chunks = chunks := (IngestionResult.validate_chunks h).1
  have hforall := mapM_eq_ok.mp hchunks
  have hlength : chunks.length = rawChunks.length := by
    have := hforall.length_eq
    simp only [List.length_zipIdx, List.length_zip, hblocks, Nat.min_self] at this
    exact this.symm
  refine ⟨by rw [hresult, hlength], fun i hraw hblock hi => ?_⟩
  have hget := hforall.get (i := i) (by simp [hblocks]; omega) (by omega)
  simp only [List.get_eq_getElem, List.getElem_zipIdx, List.getElem_zip, Nat.zero_add] at hget
  simp only [hresult]
  exact ChunkRecordV1.validate_spec hget

theorem ingestionResult_chained {parsed : ParsedPdf} {versionId : String}
    {rawChunks : List RawChunk} {blocks : List (List ParsedBlock)} {result : IngestionResult}
    (hblocks : blocks.length = rawChunks.length)
    (h : ingestionResult tools args parsed versionId rawChunks blocks = .ok result) :
    Chained result.chunks := by
  obtain ⟨hlength, hrecords⟩ := ingestionResult_records hblocks h
  intro i hi
  have hrecord := hrecords i (by omega) (by omega) hi
  rw [hrecord.nextChunkId, Option.isSome_map, hlength]
  by_cases hlast : i + 1 < rawChunks.length <;> simp [chunkRecord, chunkIdentifiers, hlast]

theorem ingestionResult_ne_nil {parsed : ParsedPdf} {versionId : String} {rawChunks : List RawChunk}
    {blocks : List (List ParsedBlock)} {result : IngestionResult}
    (h : ingestionResult tools args parsed versionId rawChunks blocks = .ok result) :
    result.chunks ≠ [] := by
  unfold ingestionResult at h
  obtain ⟨chunks, -, h⟩ := bind_eq_ok.mp h
  exact (IngestionResult.validate_chunks h).2.1

/-- What a successful ingestion went through. -/
theorem ingestPdfBytes_stages {pdfBytes : List UInt8} {result : IngestionResult}
    (h : ingestPdfBytes tools pdfBytes args = .ok result) :
    ∃ parsed rawChunks blocks versionId, tools.parse pdfBytes = .ok parsed ∧
      tools.splitText parsed.cleanText args.strategy = .ok rawChunks ∧
      chunkBlocks parsed rawChunks = .ok blocks ∧
      ingestionResult tools args parsed versionId rawChunks blocks = .ok result := by
  unfold ingestPdfBytes at h
  obtain ⟨-, h⟩ := check_bind.mp h
  obtain ⟨parsed, hparsed, h⟩ := bind_eq_ok.mp h
  obtain ⟨-, h⟩ := check_bind.mp h
  obtain ⟨rawChunks, hsplit, h⟩ := bind_eq_ok.mp h
  obtain ⟨blocks, hblocks, h⟩ := bind_eq_ok.mp h
  exact ⟨parsed, rawChunks, blocks, _, hparsed, hsplit, hblocks, mapError_eq_ok.mp h⟩

/-- Where an ingestion can fail. -/
theorem ingestPdfBytes_error {pdfBytes : List UInt8} {error : PdfIngestionError}
    (h : ingestPdfBytes tools pdfBytes args = .error error) :
    checkIdentity tools pdfBytes args.expectedSha256 = .error error ∨
      tools.parse pdfBytes = .error error ∨ ∃ parsed, tools.parse pdfBytes = .ok parsed ∧
        (checkParsed parsed args.allowParseReview = .error error ∨
          tools.splitText parsed.cleanText args.strategy = .error error ∨
          ∃ rawChunks, tools.splitText parsed.cleanText args.strategy = .ok rawChunks ∧
            (chunkBlocks parsed rawChunks = .error error ∨
              error.code = "CHUNK_RECORD_CONTRACT_INVALID")) := by
  unfold ingestPdfBytes at h
  rcases bind_eq_error.mp h with hidentity | ⟨-, -, h⟩
  · exact .inl hidentity
  rcases bind_eq_error.mp h with hparse | ⟨parsed, hparsed, h⟩
  · exact .inr (.inl hparse)
  refine .inr (.inr ⟨parsed, hparsed, ?_⟩)
  rcases bind_eq_error.mp h with hchecked | ⟨-, -, h⟩
  · exact .inl hchecked
  rcases bind_eq_error.mp h with hfailed | ⟨rawChunks, hsplit, h⟩
  · exact .inr (.inl hfailed)
  refine .inr (.inr ⟨rawChunks, hsplit, ?_⟩)
  obtain hblocks | ⟨blocks, -, hrecords⟩ := bind_eq_error.mp h
  · exact .inl hblocks
  · obtain ⟨-, -, rfl⟩ := mapError_eq_error.mp hrecords
    exact .inr rfl

theorem ingestPdfBytes_ok {pdfBytes : List UInt8} {result : IngestionResult}
    (h : ingestPdfBytes tools pdfBytes args = .ok result) :
    Chained result.chunks ∧ result.chunks ≠ [] := by
  obtain ⟨parsed, rawChunks, blocks, versionId, -, -, hblocks, hresult⟩ := ingestPdfBytes_stages h
  exact ⟨ingestionResult_chained (mapM_eq_ok.mp hblocks).length_eq.symm hresult,
    ingestionResult_ne_nil hresult⟩

end

end ZhiyanRag.Ingestion
