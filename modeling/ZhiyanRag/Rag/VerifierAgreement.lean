import ZhiyanRag.Rag.EvidenceSets
import ZhiyanRag.Rag.Generation

/-!
# The two claim verifiers agree

`verify_claim_evidence` and `verify_claim_evidence_sets` decide twice whether the evidence supports
a claim. Where the cited items are current and have a quote, they read the same texts, and their
verdicts on these agree.
-/

namespace ZhiyanRag.Rag

open Regex Ingestion Retrieval
open EvidenceItem (contractId?)

/-- The codes of a claim that is rejected for its text or its citation positions. -/
def citationFailures : List String :=
  ["CLAIM_TEXT_EMPTY", "CLAIM_CITATION_MISSING", "CLAIM_CITATION_SET_INVALID",
    "CLAIM_CITATION_OUT_OF_RANGE"]

/-- The cited items pass `_evidence_identity_failure` and have a string quote. -/
def WellCited (scope : EvidenceScope) (evidence : List EvidenceItem)
    (positions : List Int) : Prop :=
  evidenceIdentityFailure scope positions evidence = none ∧
    ∀ position ∈ positions, ∃ quote, (itemAt evidence position).get "quote" = .str quote

/-- The record is the one for a rejected claim. -/
def EvidenceSetRecord.RejectedFor (record : EvidenceSetRecord) (code : String) : Prop :=
  record.status = .insufficientEvidence ∧ record.reasonCodes = [code]

/-- The verdict of enforcement and the record of the audit agree. -/
structure Agree (verdict : Verdict) (record : EvidenceSetRecord) : Prop where
  supported : record.status = .supportedByEvidenceSet ↔ verdict.status = .supported
  limitation : record.RejectedFor "SAFE_LIMITATION_WITH_BOUND_EVIDENCE" ↔
    verdict.status = .insufficientEvidence
  conflicting : verdict.status = .conflictingEvidence → record.status = .conflictingEvidence

variable {tables : TextTables} {pyStr : JsonValue → Except PyException String}
  {scope : EvidenceScope} {evidence : List EvidenceItem} {claim : ClaimObject} {text : List Char}
  {positions : List Int}

/-! ### Citations -/

theorem citedPositions_spec {citationIds : PyObject} {count : Nat}
    {result : Except String (List Int)} (h : citedPositions citationIds count = .ok result) :
    (∃ code ∈ citationFailures, result = .error code) ∨
      ∃ positions, result = .ok positions ∧
        ∀ position ∈ positions, 1 ≤ position ∧ position ≤ (count : Int) := by
  unfold citedPositions at h
  obtain ⟨truthy, -, h⟩ := bind_eq_ok.mp h
  by_cases hempty : (!truthy) = true
  · rw [if_pos hempty] at h
    exact .inl ⟨_, by decide, (Except.ok.inj h).symm⟩
  rw [if_neg hempty] at h
  obtain ⟨items, -, h⟩ := bind_eq_ok.mp h
  by_cases hints : (items.filterMap PyObject.int?).length ≠ items.length
  · rw [if_pos hints] at h
    exact .inl ⟨_, by decide, (Except.ok.inj h).symm⟩
  rw [if_neg hints] at h
  obtain ⟨differs, -, h⟩ := bind_eq_ok.mp h
  by_cases hdiffers : differs = true
  · rw [if_pos hdiffers] at h
    exact .inl ⟨_, by decide, (Except.ok.inj h).symm⟩
  rw [if_neg hdiffers] at h
  by_cases hrange : ((items.filterMap PyObject.int?).any fun position =>
      decide (position < 1) || decide ((count : Int) < position)) = true
  · rw [if_pos hrange] at h
    exact .inl ⟨_, by decide, (Except.ok.inj h).symm⟩
  rw [if_neg hrange] at h
  refine .inr ⟨_, (Except.ok.inj h).symm, fun position hposition => ?_⟩
  have := List.any_eq_false.mp (Bool.eq_false_iff.mpr hrange) position hposition
  simp only [Bool.or_eq_true, decide_eq_true_eq, not_or] at this
  omega

/-- What both verifiers ask of a claim: it has a text and positions in range, or it is rejected with
one of the codes. -/
theorem claimCitations_spec {count : Nat} {result : Except String (List Char × List Int)}
    (h : claimCitations claim count = .ok result) :
    (∃ code ∈ citationFailures, result = .error code) ∨
      ∃ text positions, result = .ok (text, positions) ∧
        ∀ position ∈ positions, 1 ≤ position ∧ position ≤ (count : Int) := by
  unfold claimCitations at h
  obtain ⟨object, -, h⟩ := bind_eq_ok.mp h
  by_cases hblank : (strip (object.str?.getD [])).isEmpty = true
  · simp only [hblank, if_true] at h
    exact .inl ⟨_, by decide, (Except.ok.inj h).symm⟩
  simp only [hblank, Bool.false_eq_true, if_false] at h
  obtain ⟨ids, -, h⟩ := bind_eq_ok.mp h
  obtain ⟨cited, hcited, h⟩ := bind_eq_ok.mp h
  rcases citedPositions_spec hcited with ⟨code, hcode, rfl⟩ | ⟨positions, rfl, hrange⟩
  · exact .inl ⟨code, hcode, (Except.ok.inj h).symm⟩
  · exact .inr ⟨_, positions, (Except.ok.inj h).symm, hrange⟩

/-! ### The texts that are read -/

theorem quoteAt_map {position : Int} (h : 1 ≤ position ∧ position ≤ (evidence.length : Int)) :
    quoteAt (evidence.map .object) position = .ok ((itemAt evidence position).get "quote") := by
  have hlt : (position - 1).toNat < evidence.length := by omega
  unfold quoteAt itemAt
  rw [List.getElem?_map, List.getD_eq_getElem?_getD, List.getElem?_eq_getElem hlt]
  rfl

theorem mapM_quoteAt
    (h : ∀ position ∈ positions, 1 ≤ position ∧ position ≤ (evidence.length : Int)) :
    positions.mapM (quoteAt (evidence.map .object)) =
      .ok (positions.map fun position => (itemAt evidence position).get "quote") := by
  rw [mapM_eq_ok, List.forall₂_map_right_iff, List.forall₂_same]
  exact fun position hposition => quoteAt_map (h position hposition)

theorem text_of_quote {item : EvidenceItem} {quote : String} (h : item.get "quote" = .str quote) :
    item.text = strip quote.toList := by
  unfold EvidenceItem.text
  rw [h]
  rfl

theorem strippedQuotes_of_wellCited (h : WellCited scope evidence positions) :
    strippedQuotes (positions.map fun position => (itemAt evidence position).get "quote") =
      some (textsAt evidence positions) := by
  have hvisible := (evidenceIdentityFailure_eq_none_iff.mp h.1).1
  have hquote := h.2
  clear h
  unfold strippedQuotes textsAt
  rw [List.mapM_map]
  induction positions with
  | nil => rfl
  | cons position rest ih =>
    obtain ⟨⟨documentId, versionId, hcurrent⟩, hvisible⟩ := List.forall_mem_cons.mp hvisible
    obtain ⟨⟨quote, hquote⟩, hquotes⟩ := List.forall_mem_cons.mp hquote
    have hfirst : (((itemAt evidence position).get "quote").str?.map
        fun text => strip text.toList).filter (fun text => !text.isEmpty) =
          some (itemAt evidence position).text := by
      have hvisible := hcurrent.visible
      rw [text_of_quote hquote] at hvisible ⊢
      rw [hquote]
      simp [JsonValue.str?, hvisible]
    rw [List.mapM_cons, ih hvisible hquotes, Function.comp_apply, hfirst]
    rfl

theorem verifyClaim_of_wellCited
    (hcitations : claimCitations claim evidence.length = .ok (.ok (text, positions)))
    (h : WellCited scope evidence positions) :
    verifyClaim tables claim (evidence.map .object) =
      .ok (verifyText tables text (textsAt evidence positions)) := by
  have hrange : ∀ position ∈ positions, 1 ≤ position ∧ position ≤ (evidence.length : Int) := by
    rcases claimCitations_spec hcitations with ⟨code, -, hcode⟩ | ⟨text', positions', heq, hrange⟩
    · cases hcode
    · cases heq
      exact hrange
  rw [verifyClaim_eq, List.length_map, hcitations]
  simp only [bind, Except.bind, mapM_quoteAt hrange, strippedQuotes_of_wellCited h]

/-! ### The verdicts on them -/

/-- The reasons that come from the texts. -/
def textReasons : List String :=
  ["BOUND_NUMERIC_CONFLICT_NOT_DISCLOSED", "BOUND_NUMERIC_CONFLICT_VALUES_INCOMPLETE",
    "BOUND_NUMERIC_CONFLICT_DISCLOSED", "CONFLICT_NOT_DETERMINISTICALLY_PROVEN",
    "SAFE_LIMITATION_WITH_BOUND_EVIDENCE", "DETERMINISTIC_ANCHORS_AND_CORE_OVERLAP_PASS",
    "DETERMINISTIC_EVIDENCE_SET_PASS"] ++ supportFailures

/-- The codes of `_evidence_identity_failure`. -/
def identityFailures : List String :=
  ["EVIDENCE_IDENTITY_INVALID", "EVIDENCE_OWNER_MISMATCH", "EVIDENCE_VERSION_NOT_ACTIVE",
    "EVIDENCE_CHUNK_ID_DUPLICATE", "EVIDENCE_SET_CROSS_VERSION", "EVIDENCE_VERSION_NOT_CURRENT",
    "EVIDENCE_CHUNK_IDENTITY_NOT_CURRENT", "BOUND_EVIDENCE_TEXT_EMPTY"]

theorem supportFailure_textReason {claim evidence : List Char} {code : String}
    (h : deterministicSupportFailure tables claim evidence = some code) : code ∈ textReasons :=
  List.mem_append_right _ (deterministicSupportFailure_mem h)

theorem verifyText_reason {quotes : List (List Char)} :
    (verifyText tables text quotes).reason ∈ textReasons := by
  unfold verifyText unsupported
  simp only
  cases hfailure : deterministicSupportFailure tables text (evidenceFolded tables quotes) with
  | none => split_ifs <;> decide
  | some code =>
    have hcode := supportFailure_textReason hfailure
    split_ifs
    all_goals first
      | exact hcode
      | decide

/-- The second verifier gives the reason of the first, or one of its own two. -/
theorem classifyText_reason_cases {quotes : List (List Char)} :
    (classifyText tables text quotes).reason = (verifyText tables text quotes).reason ∨
      (classifyText tables text quotes).reason ∈
        ["BOUND_NUMERIC_CONFLICT_DISCLOSED", "DETERMINISTIC_EVIDENCE_SET_PASS"] := by
  unfold classifyText verifyText unsupported
  by_cases hconflicts : numericUnitConflicts tables quotes = []
  · simp only [hconflicts, List.isEmpty_nil, Bool.not_true, Bool.false_eq_true, if_false]
    cases deterministicSupportFailure tables text (evidenceFolded tables quotes) <;>
      split_ifs <;> simp
  · cases hdiscloses : hasAny (casefold tables text) conflictMarkers <;> simp [hconflicts]

theorem classifyText_reason {quotes : List (List Char)} :
    (classifyText tables text quotes).reason ∈ textReasons := by
  rcases classifyText_reason_cases with heq | hown
  · rw [heq]
    exact verifyText_reason
  · have hreasons :
        ∀ reason ∈ ["BOUND_NUMERIC_CONFLICT_DISCLOSED", "DETERMINISTIC_EVIDENCE_SET_PASS"],
          reason ∈ textReasons := by decide
    exact hreasons _ hown

theorem identityFailureFrom_mem {items : List EvidenceItem} {seenChunks : List String}
    {versionByDocument : List (String × String)} {code : String}
    (h : identityFailureFrom scope seenChunks versionByDocument items = some code) :
    code ∈ identityFailures := by
  induction items generalizing seenChunks versionByDocument with
  | nil => cases h
  | cons item rest ih =>
    rw [identityFailureFrom] at h
    split at h
    · split_ifs at h
      all_goals first
        | exact ih h
        | (obtain rfl := Option.some.inj h; decide)
    · obtain rfl := Option.some.inj h
      decide

/-- On the same texts the two decisions agree. -/
theorem texts_agree (tables : TextTables) (text : List Char) (quotes : List (List Char)) :
    ((classifyText tables text quotes).status = .supportedByEvidenceSet ↔
      (verifyText tables text quotes).status = .supported) ∧
    ((classifyText tables text quotes).status = .insufficientEvidence ∧
        (classifyText tables text quotes).reason = "SAFE_LIMITATION_WITH_BOUND_EVIDENCE" ↔
      (verifyText tables text quotes).status = .insufficientEvidence) ∧
    ((verifyText tables text quotes).status = .conflictingEvidence →
      (classifyText tables text quotes).status = .conflictingEvidence) := by
  have hsafe : ∀ code ∈ supportFailures, code ≠ "SAFE_LIMITATION_WITH_BOUND_EVIDENCE" := by decide
  unfold verifyText classifyText unsupported
  by_cases hconflicts : numericUnitConflicts tables quotes = []
  · simp only [hconflicts, List.isEmpty_nil, Bool.not_true, Bool.false_eq_true, if_false]
    by_cases hdiscloses : hasAny (casefold tables text) conflictMarkers = true
    · simp [hdiscloses]
    by_cases hlimitation : isSafeLimitation tables text = true
    · simp [hdiscloses, hlimitation]
    simp only [hdiscloses, hlimitation, if_false, Bool.false_eq_true]
    cases hfailure : deterministicSupportFailure tables text (evidenceFolded tables quotes) with
    | none => simp
    | some code =>
      have := hsafe code (deterministicSupportFailure_mem hfailure)
      simp only [this, and_false, reduceCtorEq, iff_false, true_and, false_implies]
      split_ifs <;> simp
  · have hsome : (!(numericUnitConflicts tables quotes).isEmpty) = true := by simpa using hconflicts
    simp only [hsome, if_true, reduceCtorEq, false_and, false_iff]
    cases deterministicSupportFailure tables text (evidenceFolded tables quotes) <;>
      split_ifs <;> simp

/-! ### Rejected claims -/

theorem verifyClaim_rejected_iff {code : String} (hcode : code ∈ citationFailures) :
    verifyClaim tables claim (evidence.map .object) = .ok (unsupported code) ↔
      claimCitations claim evidence.length = .ok (.error code) := by
  have hother : code ∉ "BOUND_EVIDENCE_TEXT_EMPTY" :: textReasons := by
    revert code
    decide
  rw [verifyClaim_eq, List.length_map]
  constructor
  · intro h
    obtain ⟨result, hresult, h⟩ := bind_eq_ok.mp h
    rw [hresult]
    cases result with
    | error other =>
      obtain rfl : other = code := congrArg Verdict.reason (Except.ok.inj h)
      rfl
    | ok cited =>
      exfalso
      obtain ⟨rawQuotes, -, h⟩ := bind_eq_ok.mp h
      cases hquotes : strippedQuotes rawQuotes with
      | none =>
        rw [hquotes] at h
        have hreason : "BOUND_EVIDENCE_TEXT_EMPTY" = code :=
          congrArg Verdict.reason (Except.ok.inj h)
        exact hother (hreason ▸ List.mem_cons_self)
      | some quotes =>
        rw [hquotes] at h
        have hreason : (verifyText tables cited.1 quotes).reason = code :=
          congrArg Verdict.reason (Except.ok.inj h)
        exact hother (hreason ▸ List.mem_cons_of_mem _ verifyText_reason)
  · intro h
    rw [h]
    rfl

theorem setRecord_reason (tables : TextTables) (claim : ClaimObject)
    (evidence : List EvidenceItem) :
    ∃ reason ∈ textReasons, (setRecord tables claim text evidence positions).reasonCodes =
      [reason] :=
  ⟨_, classifyText_reason, rfl⟩

theorem verifyClaimEvidenceSet_rejected_iff {allowAdjacent : Bool} {record : EvidenceSetRecord}
    {code : String} (hcode : code ∈ citationFailures)
    (h : verifyClaimEvidenceSet tables pyStr scope allowAdjacent claim evidence = .ok record) :
    record.RejectedFor code ↔ claimCitations claim evidence.length = .ok (.error code) := by
  have hother : code ∉ identityFailures ++ textReasons := by
    revert code
    decide
  have hbase : ∀ text positions, ¬(setRecord tables claim text evidence positions).RejectedFor
      code := by
    rintro text positions ⟨-, hreason⟩
    obtain ⟨reason, hmem, heq⟩ := setRecord_reason tables claim evidence
    obtain rfl : reason = code := List.singleton_inj.mp (heq.symm.trans hreason)
    exact hother (List.mem_append_right _ hmem)
  cases hcitations : claimCitations claim evidence.length with
  | error e =>
    unfold verifyClaimEvidenceSet at h
    rw [hcitations] at h
    cases h
  | ok result =>
    cases result with
    | error failure =>
      rw [verifyClaimEvidenceSet_of_rejected hcitations] at h
      cases h
      simp [EvidenceSetRecord.RejectedFor]
    | ok cited =>
      refine iff_of_false ?_ (by simp)
      cases hidentity : evidenceIdentityFailure scope cited.2 evidence with
      | some failure =>
        rw [verifyClaimEvidenceSet_of_failure hcitations hidentity] at h
        obtain ⟨evidenceSet, -, rfl⟩ := map_eq_ok.mp h
        rintro ⟨-, hreason⟩
        obtain rfl : failure = code := List.singleton_inj.mp hreason
        exact hother (List.mem_append_left _ (identityFailureFrom_mem hidentity))
      | none =>
        rw [verifyClaimEvidenceSet_of_current hcitations hidentity] at h
        obtain rfl := Except.ok.inj h
        split_ifs
        · exact hbase _ _
        · -- a record with a neighbour has three codes
          cases List.find? (upgrades tables cited.1 evidence cited.2)
            (validAdjacentPositions scope cited.2 evidence) with
          | none => exact hbase _ _
          | some adjacent =>
            rintro ⟨-, hreason⟩
            cases hreason

/-! ### The reports -/

/-- With neighbours allowed, every record is still given, and a settled one stays as it is. -/
theorem verifyClaimEvidenceSet_allowed {record : EvidenceSetRecord}
    (h : verifyClaimEvidenceSet tables pyStr scope false claim evidence = .ok record) :
    ∃ expanded, verifyClaimEvidenceSet tables pyStr scope true claim evidence = .ok expanded ∧
      (record.status.isSettled = true → expanded = record) := by
  cases hcitations : claimCitations claim evidence.length with
  | error e =>
    unfold verifyClaimEvidenceSet at h
    rw [hcitations] at h
    cases h
  | ok result =>
    cases result with
    | error failure =>
      rw [verifyClaimEvidenceSet_of_rejected hcitations] at h ⊢
      cases h
      exact ⟨_, rfl, fun _ => rfl⟩
    | ok cited =>
      cases hidentity : evidenceIdentityFailure scope cited.2 evidence with
      | some failure =>
        rw [verifyClaimEvidenceSet_of_failure hcitations hidentity] at h ⊢
        exact ⟨record, h, fun _ => rfl⟩
      | none =>
        rw [verifyClaimEvidenceSet_of_current hcitations hidentity] at h ⊢
        simp only [Bool.not_false, Bool.true_or, if_true, Except.ok.injEq] at h
        subst h
        refine ⟨_, rfl, fun hsettled => ?_⟩
        simp only [Bool.not_true, Bool.false_or, hsettled, if_true]

theorem agree_of_wellCited {record : EvidenceSetRecord} {verdict : Verdict}
    (hcitations : claimCitations claim evidence.length = .ok (.ok (text, positions)))
    (hcited : WellCited scope evidence positions)
    (hverdict : verifyClaim tables claim (evidence.map .object) = .ok verdict)
    (hrecord : verifyClaimEvidenceSet tables pyStr scope false claim evidence = .ok record) :
    Agree verdict record := by
  rw [verifyClaim_of_wellCited hcitations hcited] at hverdict
  rw [verifyClaimEvidenceSet_of_current hcitations hcited.1] at hrecord
  obtain rfl := Except.ok.inj hverdict
  obtain rfl := Except.ok.inj hrecord
  obtain ⟨hsupported, hlimitation, hconflicting⟩ :=
    texts_agree tables text (textsAt evidence positions)
  refine ⟨hsupported, ?_, hconflicting⟩
  rw [← hlimitation]
  simp [EvidenceSetRecord.RejectedFor, setRecord]

theorem verifyClaimEvidenceSets_ok {allowAdjacent : Bool} {claims : List ClaimObject}
    {records : List EvidenceSetRecord} :
    verifyClaimEvidenceSets tables pyStr scope allowAdjacent claims evidence = .ok records ↔
      scope.validate = .ok () ∧
      claims.mapM (fun claim => verifyClaimEvidenceSet tables pyStr scope allowAdjacent claim
        evidence) = .ok records := by
  unfold verifyClaimEvidenceSets
  rw [bind_eq_ok]
  exact ⟨fun ⟨_, hvalid, h⟩ => ⟨hvalid, h⟩, fun ⟨hvalid, h⟩ => ⟨(), hvalid, h⟩⟩

end ZhiyanRag.Rag
