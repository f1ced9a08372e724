import ZhiyanRag.Rag.ClaimEvidence

/-!
# Evidence sets

`verify_claim_evidence_sets` of `claim_evidence.py`: the audit of claims against sets of evidence.
It checks that the cited evidence is the owner's and current, classifies the set by the texts in it,
and may add one neighbour of a cited chunk.
-/

namespace ZhiyanRag.Rag

open Regex Ingestion Retrieval

/-! ### Classification -/

inductive EvidenceSetStatus
  | supportedByEvidenceSet
  | partiallySupported
  | conflictingEvidence
  | insufficientEvidence
  deriving DecidableEq

/-- The status of an evidence set and its reason. -/
structure SetVerdict where
  status : EvidenceSetStatus
  reason : String
  deriving DecidableEq

/-- The statuses that nothing can be added to. -/
def EvidenceSetStatus.isSettled : EvidenceSetStatus → Bool
  | supportedByEvidenceSet | conflictingEvidence => true
  | partiallySupported | insufficientEvidence => false

/-- The fragments of a claim that the evidence supports on their own. -/
def supportedFragments (tables : TextTables) (claim evidence : List Char) : Nat :=
  (claimFragments tables claim).countP fun fragment =>
    (deterministicSupportFailure tables fragment evidence).isNone

/-- `_classify_evidence_set`, from where the texts of the evidence are read. -/
def classifyText (tables : TextTables) (claim : List Char) (quotes : List (List Char)) :
    SetVerdict :=
  let disclosesConflict := hasAny (casefold tables claim) conflictMarkers
  if !(numericUnitConflicts tables quotes).isEmpty then
    ⟨.conflictingEvidence,
      if disclosesConflict then "BOUND_NUMERIC_CONFLICT_DISCLOSED"
        else "BOUND_NUMERIC_CONFLICT_NOT_DISCLOSED"⟩
  else if disclosesConflict then ⟨.insufficientEvidence, "CONFLICT_NOT_DETERMINISTICALLY_PROVEN"⟩
  else if isSafeLimitation tables claim
    then ⟨.insufficientEvidence, "SAFE_LIMITATION_WITH_BOUND_EVIDENCE"⟩
  else match deterministicSupportFailure tables claim (evidenceFolded tables quotes) with
    | none => ⟨.supportedByEvidenceSet, "DETERMINISTIC_EVIDENCE_SET_PASS"⟩
    | some failure =>
      let supported := supportedFragments tables claim (evidenceFolded tables quotes)
      ⟨if 0 < supported ∧ supported < (claimFragments tables claim).length then .partiallySupported
        else .insufficientEvidence, failure⟩

/-! ### Evidence -/

/-- An item of the evidence: a mapping of JSON values. -/
abbrev EvidenceItem := List (String × JsonValue)

/-- `value is None`. -/
def isNone : JsonValue → Bool
  | .null => true
  | _ => false

namespace EvidenceItem

/-- `item.get(field)`. -/
def get (item : EvidenceItem) (field : String) : JsonValue := (item.lookup field).getD .null

/-- `_evidence_owner_id`. -/
def ownerId (item : EvidenceItem) : JsonValue :=
  let ownerId := item.get "owner_id"
  let tenantId := item.get "tenant_id"
  if !isNone ownerId && !isNone tenantId && !ownerId.equals tenantId then .null
  else if isNone ownerId then tenantId else ownerId

/-- `_evidence_text`. -/
def text (item : EvidenceItem) : List Char :=
  let value := if isNone (item.get "quote") then item.get "text" else item.get "quote"
  (value.str?.map fun text => strip text.toList).getD []

/-- The member, if it is a valid contract ID. -/
def contractId? (value : JsonValue) : Option String := value.str?.filter contractIdPattern

end EvidenceItem

open EvidenceItem (contractId?)

/-- `evidence[position - 1]`, for a position in range. -/
def itemAt (evidence : List EvidenceItem) (position : Int) : EvidenceItem :=
  evidence.getD (position - 1).toNat []

/-- What the caller says of the owner and of what is current. -/
structure EvidenceScope where
  expectedOwnerId : String
  activeDocumentVersions : List (String × String)
  activeChunkIdentities : List (String × String × String)

/-- `_evidence_identity_failure`, after the chunks and the versions of the items before. -/
def identityFailureFrom (scope : EvidenceScope) (seenChunks : List String)
    (versionByDocument : List (String × String)) : List EvidenceItem → Option String
  | [] => none
  | item :: rest =>
    match contractId? (item.get "chunk_id"), contractId? (item.get "document_id"),
      contractId? (item.get "version_id"), contractId? item.ownerId with
    | some chunkId, some documentId, some versionId, some ownerId =>
      if ownerId ≠ scope.expectedOwnerId then some "EVIDENCE_OWNER_MISMATCH"
      else if !(item.get "is_active").isTrue then some "EVIDENCE_VERSION_NOT_ACTIVE"
      else if seenChunks.contains chunkId then some "EVIDENCE_CHUNK_ID_DUPLICATE"
      else if (versionByDocument.lookup documentId).any fun existing =>
        decide (existing ≠ versionId) then
        some "EVIDENCE_SET_CROSS_VERSION"
      else if scope.activeDocumentVersions.lookup documentId ≠ some versionId
        then some "EVIDENCE_VERSION_NOT_CURRENT"
      else if scope.activeChunkIdentities.lookup chunkId ≠ some (documentId, versionId) then
        some "EVIDENCE_CHUNK_IDENTITY_NOT_CURRENT"
      else if item.text.isEmpty then some "BOUND_EVIDENCE_TEXT_EMPTY"
      else identityFailureFrom scope (chunkId :: seenChunks)
        ((documentId, versionId) :: versionByDocument) rest
    | _, _, _, _ => some "EVIDENCE_IDENTITY_INVALID"

/-- `_evidence_identity_failure`. -/
def evidenceIdentityFailure (scope : EvidenceScope) (citationIds : List Int)
    (evidence : List EvidenceItem) : Option String :=
  identityFailureFrom scope [] [] (citationIds.map (itemAt evidence))

/-! ### Neighbours -/

/-- `_are_reciprocal_neighbors`. -/
def areReciprocalNeighbors (left right : EvidenceItem) : Bool :=
  ((left.get "next_chunk_id").equals (right.get "chunk_id") &&
    (right.get "previous_chunk_id").equals (left.get "chunk_id")) ||
    ((left.get "previous_chunk_id").equals (right.get "chunk_id") &&
      (right.get "next_chunk_id").equals (left.get "chunk_id"))

/-- The candidate is a neighbour of the cited item, in the same version of the same document. -/
def isAdjacent (candidate bound : EvidenceItem) : Bool :=
  (candidate.get "document_id").equals (bound.get "document_id") &&
    (candidate.get "version_id").equals (bound.get "version_id") &&
      areReciprocalNeighbors bound candidate

/-- The positions of the evidence. -/
def positionsOf (evidence : List EvidenceItem) : List Int :=
  (List.range evidence.length).map fun i => (i : Int) + 1

/-- `_valid_adjacent_positions`. -/
def validAdjacentPositions (scope : EvidenceScope) (citationIds : List Int)
    (evidence : List EvidenceItem) : List Int :=
  (positionsOf evidence).filter fun position =>
    !citationIds.contains position && (evidenceIdentityFailure scope [position] evidence).isNone &&
      citationIds.any fun bound => isAdjacent (itemAt evidence position) (itemAt evidence bound)

/-! ### Records -/

structure EvidenceSet where
  citationIds : List Int
  chunkIds : List String
  adjacentChunkAdded : Bool
  deriving DecidableEq

structure EvidenceSetRecord where
  claim : ClaimObject
  evidenceSet : EvidenceSet
  status : EvidenceSetStatus
  reasonCodes : List String

section

variable (tables : TextTables) (pyStr : JsonValue → Except PyException String)

/-- `str(item.get("chunk_id", ""))`; `pyStr` is `str` of a value that is no string. -/
def chunkIdText (item : EvidenceItem) : Except PyException String :=
  match item.lookup "chunk_id" with
  | none => .ok ""
  | some (.str chunkId) => .ok chunkId
  | some value => pyStr value

/-- `_make_evidence_set`. -/
def makeEvidenceSet (citationIds : List Int) (evidence : List EvidenceItem) :
    Except PyException EvidenceSet :=
  (citationIds.mapM fun position => chunkIdText pyStr (itemAt evidence position)).map
    fun chunkIds =>
    ⟨citationIds, chunkIds, false⟩

/-- `_insufficient_evidence_set`, for positions in range. -/
def insufficientEvidenceSet (claim : ClaimObject) (citationIds : List Int)
    (evidence : List EvidenceItem) (reason : String) : Except PyException EvidenceSetRecord :=
  let safeIds := citationIds.filter fun position => decide (1 ≤ position) &&
    decide (position ≤ (evidence.length : Int))
  (makeEvidenceSet pyStr safeIds evidence).map fun evidenceSet =>
    ⟨claim, evidenceSet, .insufficientEvidence, [reason]⟩

/-- The texts of the evidence at these positions. -/
def textsAt (evidence : List EvidenceItem) (citationIds : List Int) : List (List Char) :=
  citationIds.map fun position => (itemAt evidence position).text

/-- `_classify_evidence_set` of a claim with this text. -/
def classifyEvidenceSet (claim : ClaimObject) (text : List Char) (citationIds : List Int)
    (evidence : List EvidenceItem) : Except PyException EvidenceSetRecord :=
  let verdict := classifyText tables text (textsAt evidence citationIds)
  (makeEvidenceSet pyStr citationIds evidence).map fun evidenceSet =>
    ⟨claim, evidenceSet, verdict.status, [verdict.reason]⟩

/-- `_claim_citation_failure`: the code, or the text and the positions. -/
def claimCitations (claim : ClaimObject) (count : Nat) :
    Except PyException (Except String (List Char × List Int)) := do
  let text := (← claim.text).str?.getD []
  if (strip text).isEmpty then .ok (.error "CLAIM_TEXT_EMPTY") else
  match ← citedPositions (← claim.citationIds) count with
  | .error code => .ok (.error code)
  | .ok positions => .ok (.ok (text, positions))

/-- `tuple(sorted((*citation_ids, adjacent_position)))`. -/
def expandedIds (citationIds : List Int) (adjacent : Int) : List Int :=
  (citationIds ++ [adjacent]).insertionSort (· ≤ ·)

/-- The first of the positions whose text settles the claim, and the record with it. -/
def expandWith (claim : ClaimObject) (text : List Char) (citationIds : List Int)
    (evidence : List EvidenceItem) : List Int → Except PyException (Option EvidenceSetRecord)
  | [] => .ok none
  | adjacent :: rest => do
    let expanded ← classifyEvidenceSet tables pyStr claim text (expandedIds citationIds adjacent)
      evidence
    if expanded.status.isSettled then
      .ok (some { expanded with
        evidenceSet := { expanded.evidenceSet with adjacentChunkAdded := true }
        reasonCodes := expanded.reasonCodes ++
          ["SAME_DOCUMENT_VERSION_ADJACENT_EVIDENCE_ADDED", "RETRIEVAL_SCORE_UNCHANGED"] })
    else expandWith claim text citationIds evidence rest

variable (scope : EvidenceScope) (allowAdjacent : Bool)

/-- `_verify_claim_evidence_set`. -/
def verifyClaimEvidenceSet (claim : ClaimObject) (evidence : List EvidenceItem) :
    Except PyException EvidenceSetRecord := do
  match ← claimCitations claim evidence.length with
  | .error code => insufficientEvidenceSet pyStr claim [] evidence code
  | .ok (text, citationIds) =>
    match evidenceIdentityFailure scope citationIds evidence with
    | some failure => insufficientEvidenceSet pyStr claim citationIds evidence failure
    | none =>
      let base ← classifyEvidenceSet tables pyStr claim text citationIds evidence
      if !allowAdjacent || base.status.isSettled then .ok base else
      let expanded ← expandWith tables pyStr claim text citationIds evidence
        (validAdjacentPositions scope citationIds evidence)
      .ok (expanded.getD base)

/-- The checks of the arguments of `verify_claim_evidence_sets`. -/
def EvidenceScope.validate : Except PyException Unit := do
  if !contractIdPattern scope.expectedOwnerId then .error (.other "ValueError") else
  if scope.activeDocumentVersions.isEmpty ||
      scope.activeDocumentVersions.any fun entry => !contractIdPattern entry.1 ||
        !contractIdPattern entry.2 then
    .error (.other "ValueError") else
  if scope.activeChunkIdentities.isEmpty || scope.activeChunkIdentities.any fun entry =>
      !contractIdPattern entry.1 || !contractIdPattern entry.2.1 ||
        !contractIdPattern entry.2.2 then
    .error (.other "ValueError")
  else .ok ()

/-- `verify_claim_evidence_sets`. -/
def verifyClaimEvidenceSets (claims : List ClaimObject) (evidence : List EvidenceItem) :
    Except PyException (List EvidenceSetRecord) := do
  scope.validate
  claims.mapM fun claim => verifyClaimEvidenceSet tables pyStr scope allowAdjacent claim evidence

end

/-! ### What the checks establish -/

/-- The codes of `_deterministic_support_failure`. -/
def supportFailures : List String :=
  ["NUMERIC_ANCHOR_MISSING_FROM_EVIDENCE", "NUMERIC_UNIT_NOT_ESTABLISHED",
    "CAUSAL_RELATION_NOT_ESTABLISHED", "UNIVERSAL_SCOPE_NOT_ESTABLISHED",
    "COMPARISON_NOT_ESTABLISHED", "COMPARISON_OBJECTS_NOT_ESTABLISHED",
    "NOVELTY_OR_SUPERLATIVE_NOT_ESTABLISHED", "QUALIFYING_CONDITION_NOT_ESTABLISHED",
    "CORE_LEXICAL_OVERLAP_NOT_ESTABLISHED"]

theorem deterministicSupportFailure_mem {tables : TextTables} {claim evidence : List Char}
    {code : String} (h : deterministicSupportFailure tables claim evidence = some code) :
    code ∈ supportFailures := by
  simp only [deterministicSupportFailure] at h
  split_ifs at h <;> obtain rfl := Option.some.inj h <;> decide

theorem verifyClaim_eq (tables : TextTables) (claim : ClaimObject) (evidence : List JsonValue) :
    verifyClaim tables claim evidence = (do
      match ← claimCitations claim evidence.length with
      | .error code => .ok (unsupported code)
      | .ok (text, positions) =>
        match strippedQuotes (← positions.mapM (quoteAt evidence)) with
        | none => .ok (unsupported "BOUND_EVIDENCE_TEXT_EMPTY")
        | some quotes => .ok (verifyText tables text quotes)) := by
  unfold verifyClaim claimCitations
  cases claim.text with
  | error e => rfl
  | ok object =>
    by_cases hblank : (strip (object.str?.getD [])).isEmpty = true
    · simp [hblank, bind, Except.bind]
    · cases claim.citationIds with
      | error e => simp [hblank, bind, Except.bind]
      | ok ids =>
        simp only [hblank, bind, Except.bind, if_false, Bool.false_eq_true]
        cases citedPositions ids evidence.length with
        | error e => rfl
        | ok cited => cases cited <;> rfl

/-- The chunk ID of an item, if it has a valid one. -/
def EvidenceItem.chunkId (item : EvidenceItem) : String :=
  (contractId? (item.get "chunk_id")).getD ""

/-- What the checks ask of one item. -/
structure IsCurrent (scope : EvidenceScope) (item : EvidenceItem) (documentId versionId : String) :
    Prop where
  chunk : contractId? (item.get "chunk_id") = some item.chunkId
  document : contractId? (item.get "document_id") = some documentId
  version : contractId? (item.get "version_id") = some versionId
  owner : contractId? item.ownerId = some scope.expectedOwnerId
  active : (item.get "is_active").isTrue = true
  currentVersion : scope.activeDocumentVersions.lookup documentId = some versionId
  currentChunk : scope.activeChunkIdentities.lookup item.chunkId = some (documentId, versionId)
  visible : item.text.isEmpty = false

variable {scope : EvidenceScope}

/-- The versions that were seen are current. -/
def AllCurrent (scope : EvidenceScope) (versionByDocument : List (String × String)) : Prop :=
  ∀ documentId versionId, versionByDocument.lookup documentId = some versionId →
    scope.activeDocumentVersions.lookup documentId = some versionId

theorem AllCurrent.cons {versionByDocument : List (String × String)} {documentId versionId : String}
    (h : AllCurrent scope versionByDocument)
    (hcurrent : scope.activeDocumentVersions.lookup documentId = some versionId) :
    AllCurrent scope ((documentId, versionId) :: versionByDocument) := by
  intro d v hlookup
  rw [List.lookup_cons] at hlookup
  split at hlookup
  · rename_i heq
    obtain rfl := beq_iff_eq.mp heq
    cases hlookup
    exact hcurrent
  · exact h d v hlookup

theorem identityFailureFrom_eq_none_iff {items : List EvidenceItem} {seenChunks : List String}
    {versionByDocument : List (String × String)}
    (hversions : AllCurrent scope versionByDocument) :
    identityFailureFrom scope seenChunks versionByDocument items = none ↔
      (∀ item ∈ items, ∃ documentId versionId, IsCurrent scope item documentId versionId) ∧
        (items.map EvidenceItem.chunkId).Nodup ∧ ∀ item ∈ items, item.chunkId ∉ seenChunks := by
  induction items generalizing seenChunks versionByDocument with
  | nil => simp [identityFailureFrom]
  | cons item rest ih =>
    rw [identityFailureFrom]
    constructor
    · intro h
      split at h
      · rename_i chunkId documentId versionId ownerId hchunk hdocument hversion howner
        have hid : item.chunkId = chunkId := by
          rw [EvidenceItem.chunkId, hchunk]
          rfl
        split_ifs at h with howned hactive hseen hcross hcurrent hidentity hvisible
        have hcurrent := not_not.mp hcurrent
        obtain ⟨hvalid, hnodup, hunseen⟩ := (ih (hversions.cons hcurrent)).mp h
        have hitem : IsCurrent scope item documentId versionId := {
          chunk := by rw [hchunk, hid]
          document := hdocument
          version := hversion
          owner := by rw [howner, not_not.mp howned]
          active := by simpa using hactive
          currentVersion := hcurrent
          currentChunk := by rw [hid]; exact not_not.mp hidentity
          visible := Bool.eq_false_iff.mpr hvisible }
        refine ⟨List.forall_mem_cons.mpr ⟨⟨_, _, hitem⟩, hvalid⟩, ?_, ?_⟩
        · rw [List.map_cons, List.nodup_cons, hid]
          refine ⟨fun hmem => ?_, hnodup⟩
          obtain ⟨other, hother, heq⟩ := List.mem_map.mp hmem
          exact hunseen other hother (heq ▸ List.mem_cons_self)
        · refine List.forall_mem_cons.mpr ⟨?_, fun other hother hmem => ?_⟩
          · rw [hid]
            simpa using hseen
          · exact hunseen other hother (List.mem_cons_of_mem _ hmem)
      · cases h
    · rintro ⟨hvalid, hnodup, hunseen⟩
      obtain ⟨⟨documentId, versionId, hitem⟩, hvalid⟩ := List.forall_mem_cons.mp hvalid
      obtain ⟨hnew, hunseen⟩ := List.forall_mem_cons.mp hunseen
      rw [List.map_cons, List.nodup_cons] at hnodup
      have hcross : ((versionByDocument.lookup documentId).any
          fun existing => decide (existing ≠ versionId)) = false := by
        cases hlookup : versionByDocument.lookup documentId with
        | none => rfl
        | some existing =>
          have heq := hversions documentId existing hlookup
          rw [hitem.currentVersion] at heq
          simpa using (Option.some.inj heq).symm
      have hrest : identityFailureFrom scope (item.chunkId :: seenChunks)
          ((documentId, versionId) :: versionByDocument) rest =
          none := by
        refine (ih (hversions.cons hitem.currentVersion)).mpr
          ⟨hvalid, hnodup.2, fun other hother hmem => ?_⟩
        rcases List.mem_cons.mp hmem with heq | hmem
        · exact hnodup.1 (heq ▸ List.mem_map_of_mem hother)
        · exact hunseen other hother hmem
      rw [hitem.chunk, hitem.document, hitem.version, hitem.owner]
      simp only [hitem.active, hitem.currentVersion, hitem.currentChunk, hitem.visible, hcross,
        hrest, ne_eq, not_true_eq_false, Bool.not_true, Bool.false_eq_true, if_false,
        List.contains_iff_mem, hnew]

theorem evidenceIdentityFailure_eq_none_iff {citationIds : List Int}
    {evidence : List EvidenceItem} : evidenceIdentityFailure scope citationIds evidence = none ↔
      (∀ position ∈ citationIds, ∃ documentId versionId,
        IsCurrent scope (itemAt evidence position) documentId versionId) ∧
        (citationIds.map fun position => (itemAt evidence position).chunkId).Nodup := by
  unfold evidenceIdentityFailure
  rw [identityFailureFrom_eq_none_iff (fun _ _ h => by cases h), List.map_map]
  simp [Function.comp_def]

/-! ### The records of current evidence -/

section

variable (tables : TextTables) (claim : ClaimObject) (text : List Char)
  (evidence : List EvidenceItem)

/-- The record of a claim and a set of evidence with valid chunk IDs. -/
def setRecord (citationIds : List Int) : EvidenceSetRecord :=
  let verdict := classifyText tables text (textsAt evidence citationIds)
  ⟨claim, ⟨citationIds, citationIds.map fun position => (itemAt evidence position).chunkId, false⟩,
    verdict.status, [verdict.reason]⟩

/-- Its record after a neighbour was added. -/
def expandedRecord (citationIds : List Int) (adjacent : Int) : EvidenceSetRecord :=
  let expanded := setRecord tables claim text evidence (expandedIds citationIds adjacent)
  { expanded with
    evidenceSet := { expanded.evidenceSet with adjacentChunkAdded := true }
    reasonCodes := expanded.reasonCodes ++
      ["SAME_DOCUMENT_VERSION_ADJACENT_EVIDENCE_ADDED", "RETRIEVAL_SCORE_UNCHANGED"] }

/-- The neighbour settles the claim. -/
def upgrades (citationIds : List Int) (adjacent : Int) : Bool :=
  (classifyText tables text (textsAt evidence (expandedIds citationIds adjacent))).status.isSettled

end

variable {tables : TextTables} {pyStr : JsonValue → Except PyException String} {claim : ClaimObject}
  {text : List Char} {evidence : List EvidenceItem} {citationIds : List Int}

/-- All of these positions have current items. -/
def CurrentAt (scope : EvidenceScope) (evidence : List EvidenceItem)
    (positions : List Int) : Prop :=
  ∀ position ∈ positions, ∃ documentId versionId,
    IsCurrent scope (itemAt evidence position) documentId versionId

theorem chunkIdText_of_chunkId {item : EvidenceItem}
    (h : contractId? (item.get "chunk_id") = some item.chunkId) :
    chunkIdText pyStr item = .ok item.chunkId := by
  obtain ⟨hstr, -⟩ := Option.filter_eq_some_iff.mp h
  have hget := JsonValue.str?_eq_some.mp hstr
  unfold EvidenceItem.get at hget
  unfold chunkIdText
  cases hlookup : item.lookup "chunk_id" with
  | none =>
    rw [hlookup] at hget
    cases hget
  | some value =>
    rw [hlookup] at hget
    obtain rfl : value = .str item.chunkId := hget
    rfl

theorem classifyEvidenceSet_of_current (h : CurrentAt scope evidence citationIds) :
    classifyEvidenceSet tables pyStr claim text citationIds evidence =
      .ok (setRecord tables claim text evidence citationIds) := by
  have hids : (citationIds.mapM fun position => chunkIdText pyStr (itemAt evidence position)) =
      .ok (citationIds.map fun position => (itemAt evidence position).chunkId) := by
    rw [mapM_eq_ok, List.forall₂_map_right_iff, List.forall₂_same]
    intro position hposition
    obtain ⟨documentId, versionId, hcurrent⟩ := h position hposition
    exact chunkIdText_of_chunkId hcurrent.chunk
  unfold classifyEvidenceSet makeEvidenceSet
  rw [hids]
  rfl

theorem mem_expandedIds {position adjacent : Int} :
    position ∈ expandedIds citationIds adjacent ↔ position ∈ citationIds ∨ position = adjacent := by
  unfold expandedIds
  rw [(List.perm_insertionSort _ _).mem_iff, List.mem_append, List.mem_singleton]

theorem CurrentAt.expanded {adjacent : Int} (h : CurrentAt scope evidence citationIds)
    (hadjacent : CurrentAt scope evidence [adjacent]) :
    CurrentAt scope evidence (expandedIds citationIds adjacent) := by
  intro position hposition
  rcases mem_expandedIds.mp hposition with hcited | rfl
  · exact h position hcited
  · exact hadjacent position (List.mem_singleton_self _)

theorem expandWith_of_current (h : CurrentAt scope evidence citationIds) {candidates : List Int}
    (hcandidates : CurrentAt scope evidence candidates) :
    expandWith tables pyStr claim text citationIds evidence candidates =
      .ok ((candidates.find? (upgrades tables text evidence citationIds)).map
        (expandedRecord tables claim text evidence citationIds)) := by
  induction candidates with
  | nil => rfl
  | cons adjacent rest ih =>
    have hadjacent : CurrentAt scope evidence [adjacent] := by
      intro position hposition
      rw [List.mem_singleton.mp hposition]
      exact hcandidates adjacent List.mem_cons_self
    rw [expandWith, classifyEvidenceSet_of_current (h.expanded hadjacent), List.find?_cons,
      ih fun position hposition => hcandidates position (List.mem_cons_of_mem _ hposition)]
    have hsettled :
        (setRecord tables claim text evidence (expandedIds citationIds adjacent)).status.isSettled =
          upgrades tables text evidence citationIds adjacent := rfl
    simp only [bind, Except.bind, hsettled]
    cases upgrades tables text evidence citationIds adjacent <;> rfl

theorem mem_validAdjacentPositions {position : Int} :
    position ∈ validAdjacentPositions scope citationIds evidence ↔ position ∈ positionsOf evidence ∧
    position ∉ citationIds ∧ evidenceIdentityFailure scope [position] evidence = none ∧
      ∃ bound ∈ citationIds, isAdjacent (itemAt evidence position) (itemAt evidence bound) =
        true := by
  unfold validAdjacentPositions
  rw [List.mem_filter]
  simp only [Bool.and_eq_true, Bool.not_eq_true', Option.isNone_iff_eq_none, List.any_eq_true,
    List.contains_eq_mem, decide_eq_false_iff_not, and_assoc]

theorem currentAt_adjacent :
    CurrentAt scope evidence (validAdjacentPositions scope citationIds evidence) := by
  intro position hposition
  obtain ⟨-, -, hidentity, -⟩ := mem_validAdjacentPositions.mp hposition
  exact (evidenceIdentityFailure_eq_none_iff.mp hidentity).1 position (List.mem_singleton_self _)

theorem verifyClaimEvidenceSet_of_rejected {allowAdjacent : Bool} {code : String}
    (hcitations : claimCitations claim evidence.length = .ok (.error code)) :
    verifyClaimEvidenceSet tables pyStr scope allowAdjacent claim evidence =
      .ok ⟨claim, ⟨[], [], false⟩, .insufficientEvidence, [code]⟩ := by
  unfold verifyClaimEvidenceSet
  rw [hcitations]
  rfl

theorem verifyClaimEvidenceSet_of_failure {allowAdjacent : Bool} {failure : String}
    (hcitations : claimCitations claim evidence.length = .ok (.ok (text, citationIds)))
    (hidentity : evidenceIdentityFailure scope citationIds evidence = some failure) :
    verifyClaimEvidenceSet tables pyStr scope allowAdjacent claim evidence =
      insufficientEvidenceSet pyStr claim citationIds evidence failure := by
  unfold verifyClaimEvidenceSet
  rw [hcitations]
  simp only [bind, Except.bind, hidentity]

/-- The record of a claim whose cited items are current. -/
theorem verifyClaimEvidenceSet_of_current {allowAdjacent : Bool}
    (hcitations : claimCitations claim evidence.length = .ok (.ok (text, citationIds)))
    (hidentity : evidenceIdentityFailure scope citationIds evidence = none) :
    verifyClaimEvidenceSet tables pyStr scope allowAdjacent claim evidence =
      let base := setRecord tables claim text evidence citationIds
      .ok (if !allowAdjacent || base.status.isSettled then base
        else (((validAdjacentPositions scope citationIds evidence).find?
          (upgrades tables text evidence citationIds)).map
            (expandedRecord tables claim text evidence citationIds)).getD base) := by
  have hcurrent : CurrentAt scope evidence citationIds :=
    (evidenceIdentityFailure_eq_none_iff.mp hidentity).1
  unfold verifyClaimEvidenceSet
  rw [hcitations]
  simp only [bind, Except.bind, hidentity, classifyEvidenceSet_of_current hcurrent,
    expandWith_of_current hcurrent currentAt_adjacent]
  split_ifs <;> rfl

/-! ### A document of two chunks -/

/-- An item of the evidence of one document. -/
def exampleItem (chunkId previousChunkId nextChunkId quote : String) : EvidenceItem :=
  [("chunk_id", .str chunkId), ("document_id", .str "doc_1"), ("version_id", .str "ver_1"),
    ("owner_id", .str "owner_1"), ("is_active", .bool true),
    ("previous_chunk_id", .str previousChunkId), ("next_chunk_id", .str nextChunkId),
    ("quote", .str quote)]

def exampleScope : EvidenceScope :=
  ⟨"owner_1", [("doc_1", "ver_1")], [("chunk_1", "doc_1", "ver_1"), ("chunk_2", "doc_1", "ver_1")]⟩

end ZhiyanRag.Rag
