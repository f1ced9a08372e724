import ZhiyanRag.Rag.ClaimEvidence

/-!
# Generated answers

`apply_real_generation` of `generation.py`. The provider is a parameter: what it returns is any
object, by what the code sees of it, and every look at it can raise. Whatever it does, the answer
keeps its evidence, and its citations are those of the markers in its text
(`applyRealGeneration_fails_closed`).
-/

namespace ZhiyanRag.Rag

open Regex Ingestion Retrieval

/-! ### The provider -/

/-- What `generate` returned: whether its identity differs from the configured one, the truth of its
claims, and what the first and the second loop over the claims see. -/
structure ResultObject where
  differs : Except PyException Bool
  hasClaims : Except PyException Bool
  claims : Except PyException (List ClaimObject)
  claimsAgain : Except PyException (List ClaimObject)

/-- `GenerationProvider`, with the `execution_boundary` of its configured identity. -/
structure GenerationProvider where
  executionBoundary : String
  generate : String → List JsonValue → Except PyException ResultObject

/-! ### The rendered answer -/

/-- One line of `_render_claims`. -/
def renderClaim (claim : ClaimObject) : Except PyException (List Char) := do
  let text ← (← claim.text).format
  let items ← (← claim.citationIds).items
  let markers ← items.mapM fun position => do
    let number ← position.format
    .ok ('[' :: number ++ [']'])
  .ok (text ++ ' ' :: markers.flatten)

/-- `_render_claims`. -/
def renderClaims (claims : List ClaimObject) : Except PyException (List Char) := do
  let rendered ← claims.mapM renderClaim
  let answer := ['\n'].intercalate rendered
  if 8000 < answer.length then .error (.generationService "OLLAMA_ANSWER_SCHEMA_INVALID")
    else .ok answer

section

variable (tables : TextTables)

/-- `_CITATION_PATTERN`. -/
def citationPattern : Pattern Char :=
  .seq (exactly '[') (.seq (.group (digits tables.toUnicodeTables)) (exactly ']'))

/-- The digits of the markers in a text. -/
def markerTexts (answer : List Char) : List (List Char) :=
  ((citationPattern tables).findAll answer 0 answer.length).map fun m => m.groups.headD []

/-- `int(value)`, which refuses more than 4300 digits. -/
def readPosition (value : List Char) : Except PyException Nat :=
  if 4300 < value.length then .error (.other "ValueError")
    else .ok (intOf tables.toUnicodeTables value)

/-- `_validated_citation_positions`. -/
def validatedCitationPositions (answer : List Char) (evidenceCount : Nat) :
    Except PyException (List Nat) := do
  let positions ← (markerTexts tables answer).mapM (readPosition tables)
  if positions.isEmpty then .error (.generationService "GENERATED_ANSWER_CITATION_INVALID")
  else if positions.any fun position => decide (position < 1) ||
    decide (evidenceCount < position) then
    .error (.generationService "GENERATED_ANSWER_CITATION_INVALID")
  else .ok (positions.dedup.insertionSort (· ≤ ·))

/-! ### The answer -/

/-- `_degraded_answer`. -/
def degradedAnswer (baseAnswer : JsonObject) (warning : String) : JsonObject :=
  ((baseAnswer.put "status" (.str "DEGRADED")).put "answer"
    (.str "真实生成模型未通过本次门禁；已保留经过授权和版本校验的证据卡。")).put "warnings" (.array [.str warning])

/-- A claim and the verdict on it. -/
structure ClaimEvidenceRecord where
  claim : ClaimObject
  verdict : Verdict

/-- `record.retained`. -/
def ClaimEvidenceRecord.retained (record : ClaimEvidenceRecord) : Bool :=
  decide (record.verdict.status ≠ .unsupported)

/-- `verify_claim_evidence`. -/
def verifyClaimEvidence (claims : List ClaimObject) (evidence : List JsonValue) :
    Except PyException (List ClaimEvidenceRecord) :=
  claims.mapM fun claim => do
    let verdict ← verifyClaim tables claim evidence
    .ok ⟨claim, verdict⟩

/-- `report.retained_claims`. -/
def retainedClaims (records : List ClaimEvidenceRecord) : List ClaimObject :=
  (records.filter (·.retained)).map (·.claim)

/-- What the `try` block arrives at. -/
inductive Attempt
  | nothingRetained
  | rendered (answer : List Char) (positions : List Nat) (records : List ClaimEvidenceRecord)

/-- `retained_claims`: without enforcement the claims of the result, looked at once more. -/
def chosenClaims (enforceClaimEvidence : Bool) (result : ResultObject)
    (records : List ClaimEvidenceRecord) : Except PyException (List ClaimObject) :=
  if enforceClaimEvidence then .ok (retainedClaims records) else result.claimsAgain

/-- The `try` block of `apply_real_generation`. -/
def attempt (provider : GenerationProvider) (enforceClaimEvidence : Bool) (question : String)
    (evidence : List JsonValue) : Except PyException Attempt := do
  let result ← provider.generate question evidence
  if ← result.differs then .error (.generationService "GENERATION_RESULT_IDENTITY_MISMATCH") else
  if !(← result.hasClaims) then .error (.generationService "GENERATION_RESULT_CLAIMS_MISSING") else
  let claims ← result.claims
  let records ← verifyClaimEvidence tables claims evidence
  let retained ← chosenClaims enforceClaimEvidence result records
  if enforceClaimEvidence && retained.isEmpty then .ok .nothingRetained else
  let renderedAnswer ← renderClaims retained
  let usedPositions ← validatedCitationPositions tables renderedAnswer evidence.length
  .ok (.rendered renderedAnswer usedPositions records)

/-- The warning of a completed answer. -/
def warningSuffix (enforceClaimEvidence : Bool) (records : List ClaimEvidenceRecord) : String :=
  let someUnsupported := records.any fun record => decide (record.verdict.status = .unsupported)
  if !enforceClaimEvidence then
    "CITATION_IDS_VALIDATED_CLAIM_EVIDENCE_AUDIT_" ++
      (if someUnsupported then "FAILED" else "PASS") ++ "_NOT_ENFORCED"
  else if !(retainedClaims records).isEmpty && someUnsupported then
    "CITATION_IDS_VALIDATED_CLAIM_EVIDENCE_PARTIAL_ANSWER_UNSUPPORTED_DROPPED"
  else if records.any fun record => decide (record.verdict.status = .conflictingEvidence) then
    "CITATION_IDS_VALIDATED_CLAIM_EVIDENCE_CONFLICT_DISCLOSED"
  else if records.all fun record => decide (record.verdict.status = .insufficientEvidence) then
    "CITATION_IDS_VALIDATED_CLAIM_EVIDENCE_SAFE_LIMITATION"
  else "CITATION_IDS_VALIDATED_CLAIM_EVIDENCE_VALIDATED"

/-- `citations[position - 1]`. -/
def citationAt (citations : List JsonValue) (position : Nat) : Except PyException JsonValue :=
  match citations[position - 1]? with
  | some citation => .ok citation
  | none => .error (.other "IndexError")

/-- `request_identity`: the first twenty digits of a digest of boundary, question and scope. -/
def requestIdentity (digest : String → String → JsonObject → String) (question : String)
    (scope : JsonObject) (executionBoundary : String) : String × String :=
  ("request_" ++ digest executionBoundary question scope,
    "trace_" ++ digest executionBoundary question scope)

/-- `apply_real_generation`. -/
def applyRealGeneration (digest : String → String → JsonObject → String) (question : String)
    (scope baseAnswer : JsonObject) (provider : GenerationProvider) (enforceClaimEvidence : Bool) :
    Except PyException JsonObject :=
  let boundary := provider.executionBoundary
  let identity := requestIdentity digest question scope boundary
  let answer := (baseAnswer.put "request_id" (.str identity.1)).put "trace_id" (.str identity.2)
  match answer.get "evidence" with
  | .array evidence =>
    if (answer.get "status").equals (.str "NO_EVIDENCE") || evidence.isEmpty then
      .ok (answer.put "warnings" (.array [.str (boundary ++ "_NOT_CALLED_NO_EVIDENCE")]))
    else match attempt tables provider enforceClaimEvidence question evidence with
      | .error _ => .ok (degradedAnswer answer (boundary ++ "_FAILED_CLOSED_EVIDENCE_ONLY"))
      | .ok .nothingRetained =>
        .ok (degradedAnswer answer (boundary ++ "_CLAIM_EVIDENCE_FAILED_CLOSED_EVIDENCE_ONLY"))
      | .ok (.rendered renderedAnswer usedPositions records) =>
        match answer.get "citations" with
        | .array citations =>
          if citations.length ≠ evidence.length then
            .ok (degradedAnswer answer (boundary ++ "_CITATION_MAPPING_FAILED_CLOSED"))
          else do
            let used ← usedPositions.mapM (citationAt citations)
            let completed :=
              ((answer.put "status" (.str "COMPLETED")).put "answer"
                (.str (String.ofList renderedAnswer))).put
              "citations" (.array used)
            .ok (completed.put "warnings"
              (.array [.str (boundary ++ "_" ++ warningSuffix enforceClaimEvidence records)]))
        | _ => .ok (degradedAnswer answer (boundary ++ "_CITATION_MAPPING_FAILED_CLOSED"))
  | _ => .ok (degradedAnswer answer "REAL_GENERATION_INVALID_EVIDENCE_FAILED_CLOSED")

end

/-! ### Failing closed -/

section

variable {tables : TextTables}

/-- The numbers of the markers in a text. -/
def MarkerNumbers (tables : TextTables) (answer : List Char) (numbers : List Nat) : Prop :=
  (markerTexts tables answer).mapM (readPosition tables) = .ok numbers

/-- A sorted list without repetitions. -/
theorem mem_sorted {n : Nat} {numbers : List Nat} :
    n ∈ numbers.dedup.insertionSort (· ≤ ·) ↔ n ∈ numbers := by
  rw [List.mem_insertionSort, List.mem_dedup]

theorem pairwise_sorted (numbers : List Nat) :
    (numbers.dedup.insertionSort (· ≤ ·)).Pairwise (· < ·) := by
  have hle := List.pairwise_insertionSort (· ≤ ·) numbers.dedup
  have hne : (numbers.dedup.insertionSort (· ≤ ·)).Nodup :=
    (List.perm_insertionSort (· ≤ ·) numbers.dedup).nodup_iff.mpr numbers.nodup_dedup
  exact (hle.and hne).imp fun h => lt_of_le_of_ne h.1 h.2

/-- The positions are those of the markers, all in range, in increasing order. -/
theorem validatedCitationPositions_spec {answer : List Char} {count : Nat} {positions : List Nat}
    (h : validatedCitationPositions tables answer count = .ok positions) :
    positions ≠ [] ∧ positions.Pairwise (· < ·) ∧ (∀ n ∈ positions, 1 ≤ n ∧ n ≤ count) ∧
      ∃ numbers, MarkerNumbers tables answer numbers ∧ ∀ n, n ∈ positions ↔ n ∈ numbers := by
  obtain ⟨numbers, hnumbers, h⟩ := bind_eq_ok.mp h
  split at h
  · cases h
  rename_i hnonempty
  split at h
  · cases h
  rename_i hrange
  cases h
  refine ⟨?_, pairwise_sorted numbers, fun n hn => ?_, numbers, hnumbers, fun n => mem_sorted⟩
  · intro hnil
    obtain ⟨n, rest, hcons⟩ := List.exists_cons_of_ne_nil fun hnil :
      numbers = [] => hnonempty (by rw [hnil]; rfl)
    have : n ∈ numbers.dedup.insertionSort (· ≤ ·) := mem_sorted.mpr (hcons ▸ List.mem_cons_self)
    rw [hnil] at this
    cases this
  · have := List.any_eq_false.mp (Bool.eq_false_iff.mpr hrange) n (mem_sorted.mp hn)
    simp only [Bool.or_eq_true, decide_eq_true_eq, not_or] at this
    omega

/-- A text that was rendered from the claims of the provider, and passed all checks. -/
structure Rendered (tables : TextTables) (enforceClaimEvidence : Bool) (evidence : List JsonValue)
    (result : ResultObject) (retained : List ClaimObject) (text : List Char) : Prop where
  nonempty : retained ≠ []
  sublist : ∃ claims,
    (if enforceClaimEvidence then result.claims else result.claimsAgain) = .ok claims ∧
    retained.Sublist claims
  rendering : renderClaims retained = .ok text
  supported : enforceClaimEvidence = true → ∀ claim ∈ retained, ∃ verdict,
    verifyClaim tables claim evidence = .ok verdict ∧ verdict.status ≠ .unsupported

theorem verifyClaimEvidence_claims {claims : List ClaimObject} {evidence : List JsonValue}
    {records : List ClaimEvidenceRecord}
    (h : verifyClaimEvidence tables claims evidence = .ok records) :
    records.map (·.claim) = claims ∧ ∀ record ∈ records,
      verifyClaim tables record.claim evidence = .ok record.verdict := by
  have hall := mapM_eq_ok.mp h
  clear h
  induction hall with
  | nil => exact ⟨rfl, by rintro record ⟨⟩⟩
  | cons hrecord _ ih =>
    obtain ⟨verdict, hverdict, hrecord⟩ := bind_eq_ok.mp hrecord
    cases hrecord
    refine ⟨congrArg (_ :: ·) ih.1, fun record hmem => ?_⟩
    rcases List.mem_cons.mp hmem with rfl | hmem
    · exact hverdict
    · exact ih.2 record hmem

theorem retainedClaims_sublist {records : List ClaimEvidenceRecord} :
    (retainedClaims records).Sublist (records.map (·.claim)) := List.filter_sublist.map _

/-- Without claims there is no marker. -/
theorem not_markers_of_nil {count : Nat} {text : List Char} {positions : List Nat}
    (htext : renderClaims [] = .ok text)
    (h : validatedCitationPositions tables text count = .ok positions) : False := by
  cases htext
  cases h

/-- What the `try` block hands on. -/
theorem attempt_rendered {provider : GenerationProvider} {enforceClaimEvidence : Bool}
    {question : String} {evidence : List JsonValue} {text : List Char} {positions : List Nat}
    {records : List ClaimEvidenceRecord}
    (h : attempt tables provider enforceClaimEvidence question evidence =
      .ok (.rendered text positions records)) :
    validatedCitationPositions tables text evidence.length = .ok positions ∧
      ∃ result retained, provider.generate question evidence = .ok result ∧
        Rendered tables enforceClaimEvidence evidence result retained text := by
  obtain ⟨result, hresult, h⟩ := bind_eq_ok.mp h
  obtain ⟨differs, -, h⟩ := bind_eq_ok.mp h
  split at h
  · cases h
  obtain ⟨hasClaims, -, h⟩ := bind_eq_ok.mp h
  split at h
  · cases h
  obtain ⟨claims, hclaims, h⟩ := bind_eq_ok.mp h
  obtain ⟨records', hrecords, h⟩ := bind_eq_ok.mp h
  obtain ⟨retained, hretained, h⟩ := bind_eq_ok.mp h
  split at h
  · cases h
  obtain ⟨text', htext, h⟩ := bind_eq_ok.mp h
  obtain ⟨positions', hpositions, h⟩ := bind_eq_ok.mp h
  cases h
  obtain ⟨hmap, hverdicts⟩ := verifyClaimEvidence_claims hrecords
  refine ⟨hpositions, result, retained, hresult, ?_, ?_, htext, ?_⟩
  · rintro rfl
    exact not_markers_of_nil htext hpositions
  · cases enforceClaimEvidence with
    | false => exact ⟨retained, hretained, List.Sublist.refl _⟩
    | true =>
      cases hretained
      refine ⟨claims, hclaims, ?_⟩
      rw [← hmap]
      exact retainedClaims_sublist
  · rintro rfl claim hclaim
    cases hretained
    obtain ⟨record, hrecord, rfl⟩ := List.mem_map.mp hclaim
    obtain ⟨hmem, hretained⟩ := List.mem_filter.mp hrecord
    exact ⟨record.verdict, hverdicts record hmem, of_decide_eq_true hretained⟩

/-- The base answer, degraded. -/
structure Degraded (baseAnswer answer : JsonObject) : Prop where
  status : answer.get "status" = .str "DEGRADED"
  citations : answer.get "citations" = baseAnswer.get "citations"

/-- A completed answer: its citations are those of the markers in its text. -/
structure Completed (tables : TextTables) (enforceClaimEvidence : Bool) (evidence : List JsonValue)
    (result : ResultObject) (baseAnswer answer : JsonObject) : Prop where
  status : answer.get "status" = .str "COMPLETED"
  text : ∃ retained text, answer.get "answer" = .str (String.ofList text) ∧
    Rendered tables enforceClaimEvidence evidence result retained text ∧
      ∃ positions numbers citations used, MarkerNumbers tables text numbers ∧ positions ≠ [] ∧
        positions.Pairwise (· < ·) ∧ (∀ n, n ∈ positions ↔ n ∈ numbers) ∧
        (∀ n ∈ positions, 1 ≤ n ∧ n ≤ evidence.length) ∧
        baseAnswer.get "citations" = .array citations ∧
        citations.length = evidence.length ∧ answer.get "citations" = .array used ∧
        List.Forall₂ (fun n citation => citations[n - 1]? = some citation) positions used

theorem degradedAnswer_degraded (baseAnswer answer : JsonObject) (warning : String)
    (h : answer.get "citations" = baseAnswer.get "citations") :
    Degraded baseAnswer (degradedAnswer answer warning) where
  status := by
    rw [degradedAnswer, JsonObject.get_put_ne _ _ (by decide),
      JsonObject.get_put_ne _ _ (by decide), JsonObject.get_put_self]
  citations := by
    rw [degradedAnswer, JsonObject.get_put_ne _ _ (by decide),
      JsonObject.get_put_ne _ _ (by decide), JsonObject.get_put_ne _ _ (by decide), h]

@[simp] theorem degradedAnswer_evidence (answer : JsonObject) (warning : String) :
    (degradedAnswer answer warning).get "evidence" = answer.get "evidence" := by
  rw [degradedAnswer, JsonObject.get_put_ne _ _ (by decide), JsonObject.get_put_ne _ _ (by decide),
    JsonObject.get_put_ne _ _ (by decide)]

/-- Positions in range have their citations. -/
theorem citationAt_total {citations : List JsonValue} {positions : List Nat}
    (h : ∀ n ∈ positions, 1 ≤ n ∧ n ≤ citations.length) :
      ∃ used, positions.mapM (citationAt citations) = .ok used ∧
      List.Forall₂ (fun n citation => citations[n - 1]? = some citation) positions used := by
  induction positions with
  | nil => exact ⟨[], rfl, .nil⟩
  | cons n positions ih =>
    obtain ⟨used, hused, hat⟩ := ih fun m hm => h m (List.mem_cons_of_mem _ hm)
    have hn := h n List.mem_cons_self
    have hlt : n - 1 < citations.length := by omega
    have hcitation : citations[n - 1]? = some citations[n - 1] := List.getElem?_eq_getElem hlt
    refine ⟨citations[n - 1] :: used, ?_, .cons hcitation hat⟩
    refine mapM_eq_ok.mpr (.cons ?_ (mapM_eq_ok.mp hused))
    rw [citationAt, hcitation]

/-- Whatever the provider does, an answer with its evidence comes back: degraded with the citations
untouched, or completed with the citations of its own markers. -/
theorem applyRealGeneration_fails_closed (digest : String → String → JsonObject → String)
    (question : String) (scope baseAnswer : JsonObject) (provider : GenerationProvider)
    (enforceClaimEvidence : Bool) (evidence : List JsonValue)
    (hevidence : baseAnswer.get "evidence" = .array evidence) (hnonempty : evidence ≠ [])
    (hstatus : (baseAnswer.get "status").equals (.str "NO_EVIDENCE") = false) :
    ∃ answer, applyRealGeneration tables digest question scope baseAnswer provider
      enforceClaimEvidence = .ok answer ∧ answer.get "evidence" = baseAnswer.get "evidence" ∧
      (Degraded baseAnswer answer ∨ ∃ result, provider.generate question evidence = .ok result ∧
        Completed tables enforceClaimEvidence evidence result baseAnswer answer) := by
  let identity := requestIdentity digest question scope provider.executionBoundary
  let identified := (baseAnswer.put "request_id" (.str identity.1)).put "trace_id" (.str identity.2)
  have hget {field : String} (hrequest : "request_id" ≠ field) (htrace : "trace_id" ≠ field) :
      identified.get field = baseAnswer.get field := by
    show (JsonObject.put _ _ _).get field = _
    rw [JsonObject.get_put_ne _ _ htrace, JsonObject.get_put_ne _ _ hrequest]
  have hevidence' : identified.get "evidence" = .array evidence := by
    rw [hget (by decide) (by decide), hevidence]
  have hstatus' : (identified.get "status").equals (.str "NO_EVIDENCE") = false := by
    rw [hget (by decide) (by decide), hstatus]
  have hcitations' : identified.get "citations" = baseAnswer.get "citations" :=
    hget (by decide) (by decide)
  -- every exit that degrades the answer
  have hdegraded (warning : String) :
      (degradedAnswer identified warning).get "evidence" = baseAnswer.get "evidence" ∧
      Degraded baseAnswer (degradedAnswer identified warning) :=
    ⟨by rw [degradedAnswer_evidence, hevidence', hevidence],
      degradedAnswer_degraded _ _ _ hcitations'⟩
  have hempty : evidence.isEmpty = false := by
    cases evidence with
    | nil => exact absurd rfl hnonempty
    | cons _ _ => rfl
  unfold applyRealGeneration
  dsimp only
  rw [hevidence', hstatus']
  dsimp only
  rw [hempty, Bool.or_self, if_neg Bool.false_ne_true]
  cases hattempt : attempt tables provider enforceClaimEvidence question evidence with
  | error error => exact ⟨_, rfl, (hdegraded _).1, .inl (hdegraded _).2⟩
  | ok outcome =>
    cases outcome with
    | nothingRetained => exact ⟨_, rfl, (hdegraded _).1, .inl (hdegraded _).2⟩
    | rendered text positions records =>
      obtain ⟨hpositions, result, retained, hresult, hrendered⟩ := attempt_rendered hattempt
      obtain ⟨hne, hsorted, hrange, numbers, hnumbers, hmem⟩ :=
        validatedCitationPositions_spec hpositions
      dsimp only
      split
      · rename_i citations hcitations
        split
        · exact ⟨_, rfl, (hdegraded _).1, .inl (hdegraded _).2⟩
        · rename_i hlength
          have hlength : citations.length = evidence.length := not_not.mp hlength
          obtain ⟨used, hused, hat⟩ := citationAt_total fun n hn => hlength.symm ▸ hrange n hn
          rw [hused]
          refine ⟨_, rfl, ?_, .inr ⟨result, hresult, ?_, retained, text, ?_, hrendered, positions,
            numbers, citations, used, hnumbers, hne, hsorted, hmem, hrange, ?_, hlength, ?_, hat⟩⟩
          · rw [JsonObject.get_put_ne _ _ (by decide), JsonObject.get_put_ne _ _ (by decide),
              JsonObject.get_put_ne _ _ (by decide), JsonObject.get_put_ne _ _ (by decide),
              hevidence', hevidence]
          · rw [JsonObject.get_put_ne _ _ (by decide), JsonObject.get_put_ne _ _ (by decide),
              JsonObject.get_put_ne _ _ (by decide), JsonObject.get_put_self]
          · rw [JsonObject.get_put_ne _ _ (by decide), JsonObject.get_put_ne _ _ (by decide),
              JsonObject.get_put_self]
          · rw [← hcitations', hcitations]
          · rw [JsonObject.get_put_ne _ _ (by decide), JsonObject.get_put_self]
      · exact ⟨_, rfl, (hdegraded _).1, .inl (hdegraded _).2⟩

end

def exampleEvidence : List JsonValue :=
  [.object [("quote", .str "size 12")], .object [("quote", .str "size 15")]]

/-- An answer with two pieces of evidence. -/
def exampleAnswer : JsonObject :=
  .ofMembers [("status", .str "COMPLETED"), ("evidence", .array exampleEvidence),
    ("citations", .array [.str "cite_1", .str "cite_2"])]

/-- The second quote has another number. -/
def exampleClaims : List ClaimObject := [.of "size 12".toList [1], .of "size 99".toList [2]]

/-- A provider that makes two claims. -/
def exampleProvider : GenerationProvider where
  executionBoundary := "FAKE"
  generate _ _ := .ok ⟨.ok false, .ok true, .ok exampleClaims, .ok exampleClaims⟩

/-- Of the two claims one is kept and one is dropped. -/
theorem applyRealGeneration_fails_closed_example :
    ((verifyClaimEvidence asciiText exampleClaims exampleEvidence).toOption.map fun records =>
      records.map (·.retained)) = some [true, false] ∧
    ∃ answer, applyRealGeneration asciiText (fun _ _ _ => "0") "q" (.ofMembers []) exampleAnswer
        exampleProvider true = .ok answer ∧
      answer.get "evidence" = exampleAnswer.get "evidence" ∧
      (Degraded exampleAnswer answer ∨
        ∃ result, exampleProvider.generate "q" exampleEvidence = .ok result ∧
          Completed asciiText true exampleEvidence result exampleAnswer answer) :=
  ⟨by decide +kernel,
    applyRealGeneration_fails_closed _ _ _ _ _ _ _ rfl (List.cons_ne_nil _ _) (by decide)⟩

end ZhiyanRag.Rag
