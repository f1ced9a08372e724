import ZhiyanRag.Identifiers
import ZhiyanRag.Lib.Binary64

/-!
# Evaluation records

The records of `formal_corpus.py` and `retrieval_metrics.py`: the items of an evaluation corpus, the
annotations that they rest on, the manifest, and the rankings that are measured against the items. A
record carries what its validators check, so a record that the loaders reject cannot be built.
-/

namespace ZhiyanRag.Evaluation

/-! ### Scalar types -/

/-- `Identifier`: the pattern and the lengths are those of a contract identifier, and nothing is
stripped. -/
abbrev Identifier := ContractId

abbrev Sha256 := { s : String // sha256Pattern s = true }

/-- `StringConstraints` without a pattern. -/
structure StringConstraints where
  stripWhitespace : Bool
  minLength : Nat
  maxLength : Option Nat

/-- What comes out of a constrained field: a stripping constraint leaves no white space at the ends.
-/
def StringConstraints.accepts (constraints : StringConstraints) (s : String) : Bool :=
  (!constraints.stripWhitespace || decide (ZhiyanRag.stripWhitespace s = s)) &&
    decide (constraints.minLength ≤ s.length) && constraints.maxLength.all fun limit =>
      decide (s.length ≤ limit)

abbrev Constrained (constraints : StringConstraints) :=
  { s : String // constraints.accepts s = true }

/-- `Field(ge=lower, le=upper)` of a `float`: a rational number that is its own nearest binary64
number. -/
structure BoundedFloat (lower upper : Rat) where
  value : Rat
  binary64 : Binary64.isDouble value = true
  bounds : lower ≤ value ∧ value ≤ upper
  deriving DecidableEq

inductive DatasetSplit
  | dev
  | test
  | acceptance
  | onlineHardCases
  deriving DecidableEq

/-- The strings of the splits. -/
def DatasetSplit.text : DatasetSplit → String
  | dev => "dev"
  | test => "test"
  | acceptance => "acceptance"
  | onlineHardCases => "online_hard_cases"

inductive QuestionType
  | exactLookup
  | singleDocumentFact
  | singleDocumentExplanation
  | crossDocumentSemantic
  | comparison
  | multiHop
  | teachingExplanation
  | standardsFreshness
  | noAnswerEvidenceInsufficient
  | adversarialSecurity
  deriving DecidableEq

inductive Answerability
  | answerable
  | partiallyAnswerable
  | noEvidence
  | conflictingEvidence
  | forbidden
  deriving DecidableEq

/-- The states in which an item has evidence: `needs_support` of the items, `answerable_states` of
the metrics. -/
def Answerability.needsSupport : Answerability → Bool
  | .answerable | .partiallyAnswerable | .conflictingEvidence => true
  | .noEvidence | .forbidden => false

inductive AnnotationStatus
  | draft
  | gptAssisted
  | doubleAnnotated
  | adjudicated
  | expertReviewed
  deriving DecidableEq

/-- `minimum_records` of `validate_item_semantics`. -/
def AnnotationStatus.minimumRecords : AnnotationStatus → Nat
  | .draft => 0
  | .gptAssisted => 1
  | .doubleAnnotated => 2
  | .adjudicated | .expertReviewed => 3

/-- The states with a `final_annotation_id`. -/
def AnnotationStatus.isFinal : AnnotationStatus → Bool
  | .adjudicated | .expertReviewed => true
  | .draft | .gptAssisted | .doubleAnnotated => false

inductive Language
  | zh
  | en
  | mixed
  deriving DecidableEq

inductive QueryForm
  | short
  | long
  | typo
  | abbreviation
  | multiTurn
  deriving DecidableEq

inductive Difficulty
  | easy
  | medium
  | hard
  deriving DecidableEq

inductive AnnotationRole
  | annotator
  | adjudicator
  | expertReviewer
  deriving DecidableEq

inductive ActorType
  | human
  | gpt
  | fixture
  deriving DecidableEq

/-! ### Dates -/

/-- The zeros of Unicode's decimal digits, each followed by its nine other digits: what `\d`
matches. -/
def decimalZeros : List Nat :=
  [0x30, 0x660, 0x6F0, 0x7C0, 0x966, 0x9E6, 0xA66, 0xAE6, 0xB66, 0xBE6, 0xC66, 0xCE6, 0xD66, 0xDE6,
    0xE50, 0xED0, 0xF20, 0x1040, 0x1090, 0x17E0, 0x1810, 0x1946, 0x19D0, 0x1A80, 0x1A90, 0x1B50,
    0x1BB0, 0x1C40, 0x1C50, 0xA620, 0xA8D0, 0xA900, 0xA9D0, 0xA9F0, 0xAA50, 0xABF0, 0xFF10, 0x104A0,
    0x10D30, 0x11066, 0x110F0, 0x11136, 0x111D0, 0x112F0, 0x11450, 0x114D0, 0x11650,
    0x116C0, 0x11730, 0x118E0, 0x11950, 0x11C50, 0x11D50, 0x11DA0, 0x11F50, 0x16A60, 0x16AC0,
    0x16B50, 0x1D7CE, 0x1D7D8, 0x1D7E2,
    0x1D7EC, 0x1D7F6, 0x1E140, 0x1E2F0, 0x1E4F0, 0x1E950, 0x1FBF0]

/-- The value of a decimal digit. -/
def decimalDigit (c : Char) : Option Nat :=
  (decimalZeros.find? fun start => decide (start ≤ c.toNat ∧ c.toNat < start + 10)).map fun start =>
    c.toNat - start

/-- `\d\d\d\d`. -/
def strptimeYear : List Char → Option Nat
  | [a, b, c, d] => do
    let a ← decimalDigit a
    let b ← decimalDigit b
    let c ← decimalDigit c
    let d ← decimalDigit d
    return a * 1000 + b * 100 + c * 10 + d
  | _ => none

/-- `[1-9]` and `0[1-9]`. -/
def strptimeUnits (c : Char) : Option Nat := if '1' ≤ c ∧ c ≤ '9' then some (c.toNat - 48) else none

/-- `1[0-2]|0[1-9]|[1-9]`. -/
def strptimeMonth : List Char → Option Nat
  | ['1', c] => if '0' ≤ c ∧ c ≤ '2' then some (10 + (c.toNat - 48)) else none
  | ['0', c] | [c] => strptimeUnits c
  | _ => none

/-- `3[0-1]|[1-2]\d|0[1-9]|[1-9]| [1-9]`. -/
def strptimeDay : List Char → Option Nat
  | ['3', c] => if '0' ≤ c ∧ c ≤ '1' then some (30 + (c.toNat - 48)) else none
  | ['1', c] => (decimalDigit c).map (10 + ·)
  | ['2', c] => (decimalDigit c).map (20 + ·)
  | ['0', c] | [' ', c] | [c] => strptimeUnits c
  | _ => none

def daysInMonth (year month : Nat) : Nat :=
  if month = 2 then if year % 4 = 0 ∧ (year % 100 ≠ 0 ∨ year % 400 = 0) then 29 else 28
  else if month = 4 ∨ month = 6 ∨ month = 9 ∨ month = 11 then 30
  else 31

/-- `datetime.strptime(value, "%Y-%m-%d")` returns. -/
def strptimeDate (value : String) : Bool :=
  match value.toList.splitOn '-' with
  | [year, month, day] =>
    match strptimeYear year, strptimeMonth month, strptimeDay day with
    | some year, some month, some day => decide (1 ≤ year ∧ day ≤ daysInMonth year month)
    | _, _, _ => false
  | _ => false

/-! ### Items -/

inductive ConversationRole
  | user
  | assistant
  deriving DecidableEq

/-- `strip_whitespace=True, min_length=1`. -/
def strippedText : StringConstraints := ⟨true, 1, none⟩

structure ConversationTurnV1 where
  role : ConversationRole
  content : Constrained strippedText
  deriving DecidableEq

structure ExpectedFiltersV1 where
  documentIds : List Identifier
  yearGte : Option Nat
  yearLte : Option Nat
  documentIdsUnique : documentIds.Nodup
  yearsInRange : ∀ year, yearGte = some year ∨ yearLte = some year → 1000 ≤ year ∧ year ≤ 9999
  yearRangeOrdered : ∀ gte lte, yearGte = some gte → yearLte = some lte → gte ≤ lte
  deriving DecidableEq

structure ChunkJudgmentV1 where
  chunkId : Identifier
  documentId : Identifier
  pageStart : Nat
  pageEnd : Nat
  relevance : Nat
  supportsClaims : List Identifier
  pagesOrdered : 1 ≤ pageStart ∧ 1 ≤ pageEnd ∧ pageStart ≤ pageEnd
  relevanceScale : relevance ≤ 3
  supportsClaimsUnique : supportsClaims.Nodup
  deriving DecidableEq

structure ReferenceClaimV1 where
  claimId : Identifier
  text : Constrained strippedText
  required : Bool
  deriving DecidableEq

/-- `supporting_chunks`. -/
def supportingChunks (judgments : List ChunkJudgmentV1) : List Identifier :=
  (judgments.filter fun judgment => decide (2 ≤ judgment.relevance)).map (·.chunkId)

structure EvaluationItemV1 where
  datasetVersion : Identifier
  questionId : Identifier
  split : DatasetSplit
  leakageGroupId : Identifier
  question : Constrained ⟨true, 1, some 4000⟩
  conversationHistory : List ConversationTurnV1
  authorizedScopeIds : List Identifier
  questionTypes : List QuestionType
  language : Language
  queryForm : QueryForm
  expectedRoute : Identifier
  expectedFilters : ExpectedFiltersV1
  answerability : Answerability
  chunkJudgments : List ChunkJudgmentV1
  referenceClaims : List ReferenceClaimV1
  acceptableAnswerPoints : List String
  mustNotClaim : List String
  expectedCitations : List Identifier
  freshnessCutoff : Option { s : String // strptimeDate s = true }
  difficulty : Difficulty
  annotationStatus : AnnotationStatus
  annotationRecordIds : List Identifier
  finalAnnotationId : Option Identifier
  agreementScore : Option (BoundedFloat 0 1)
  blindHoldout : Bool
  questionTypesNonempty : questionTypes ≠ []
  listsUnique : authorizedScopeIds.Nodup ∧ questionTypes.Nodup ∧ expectedCitations.Nodup ∧
    annotationRecordIds.Nodup
  claimIdsUnique : (referenceClaims.map (·.claimId)).Nodup
  chunkIdsUnique : (chunkJudgments.map (·.chunkId)).Nodup
  claimsKnown : ∀ judgment ∈ chunkJudgments, ∀ claim ∈ judgment.supportsClaims,
    claim ∈ referenceClaims.map (·.claimId)
  citationsSupported : ∀ chunkId ∈ expectedCitations, chunkId ∈ supportingChunks chunkJudgments
  supported : answerability.needsSupport = true ↔ supportingChunks chunkJudgments ≠ []
  acceptanceBlind : split = .acceptance → blindHoldout = true
  enoughRecords : annotationStatus.minimumRecords ≤ annotationRecordIds.length
  finalOnlyWhenDecided : annotationStatus.isFinal = false → finalAnnotationId = none
  finalReferenced : annotationStatus.isFinal = true → ∃ id ∈ annotationRecordIds,
    finalAnnotationId = some id

/-! ### Annotations -/

structure AnnotationRecordV1 where
  annotationId : Identifier
  datasetVersion : Identifier
  questionId : Identifier
  role : AnnotationRole
  annotatorId : Identifier
  actorType : ActorType
  modelIdentity : Option (Constrained ⟨true, 1, some 256⟩)
  promptVersion : Option Identifier
  temperature : Option (BoundedFloat 0 2)
  submittedAt : Datetime
  answerability : Answerability
  expectedRoute : Identifier
  chunkJudgments : List ChunkJudgmentV1
  notes : Constrained ⟨false, 0, some 4000⟩
  basedOnAnnotationIds : List Identifier
  basedOnUnique : basedOnAnnotationIds.Nodup
  submittedAtAware : submittedAt.hasOffset = true
  gptDeclared : actorType = .gpt → modelIdentity.isSome = true ∧ promptVersion.isSome = true ∧
    temperature.isSome = true
  onlyGptDeclares : actorType ≠ .gpt → modelIdentity = none ∧ promptVersion = none ∧
    temperature = none
  gptAnnotates : actorType = .gpt → role = .annotator
  annotatorIndependent : role = .annotator → basedOnAnnotationIds = []
  adjudicatorBased : role = .adjudicator → 2 ≤ basedOnAnnotationIds.length
  expertBased : role = .expertReviewer → basedOnAnnotationIds ≠ []

/-! ### The manifest -/

/-- What `validate_corpus` reads of `SplitPolicyV1`. -/
structure SplitPolicyV1 where
  devRatio : BoundedFloat 0 1
  testRatio : BoundedFloat 0 1
  acceptanceRatio : BoundedFloat 0 1
  ratioTolerance : BoundedFloat 0 (Binary64.round (1 / 10))
  ratiosSumToOne :
    |Binary64.round
      (Binary64.round (Binary64.round (devRatio.value + testRatio.value) + acceptanceRatio.value) -
        1)| ≤
    Binary64.round (1 / 1000000000)

structure StratumTargetV1 where
  questionType : QuestionType
  minRatio : BoundedFloat 0 1
  maxRatio : BoundedFloat 0 1
  ratiosOrdered : minRatio.value ≤ maxRatio.value

structure QualityGatesV1 where
  minimumIndependentAnnotators : Nat
  expertReviewQuestionTypes : List QuestionType
  expertReviewDifficulties : List Difficulty
  twoAnnotators : 2 ≤ minimumIndependentAnnotators

inductive ManifestStatus
  | designReady
  | dataCollection
  | annotation
  | locked
  | retired
  deriving DecidableEq

/-- What `validate_corpus` reads of `EvaluationManifestV1`. -/
structure EvaluationManifestV1 where
  datasetId : Identifier
  datasetVersion : Identifier
  status : ManifestStatus
  targetSize : Nat
  splitPolicy : SplitPolicyV1
  stratificationTargets : List StratumTargetV1
  qualityGates : QualityGatesV1
  targetSizeInRange : 200 ≤ targetSize ∧ targetSize ≤ 500
  targetTypesUnique : (stratificationTargets.map (·.questionType)).Nodup

/-! ### Rankings -/

structure RankedCandidateV1 where
  rank : Nat
  chunkId : Identifier
  documentId : Identifier
  rankFromOne : 1 ≤ rank
  deriving DecidableEq

inductive RetrievalDecision
  | evidenceFound
  | noEvidence
  | forbidden
  deriving DecidableEq

/-- What the metrics read of `RetrievalRankingResultV1`. -/
structure RetrievalRankingResultV1 where
  runId : Identifier
  datasetVersion : Identifier
  questionId : Identifier
  backend : Identifier
  topK : Nat
  decision : RetrievalDecision
  candidates : List RankedCandidateV1
  topKFromOne : 1 ≤ topK
  ranksContiguous : candidates.map (·.rank) = List.range' 1 candidates.length
  chunkIdsUnique : (candidates.map (·.chunkId)).Nodup
  withinTopK : candidates.length ≤ topK
  foundIffCandidates : decision = .evidenceFound ↔ candidates ≠ []

end ZhiyanRag.Evaluation
