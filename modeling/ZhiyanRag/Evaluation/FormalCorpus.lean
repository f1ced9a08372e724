import ZhiyanRag.Evaluation.MetricsReport

/-!
# Corpus validation

`validate_corpus` of `formal_corpus.py`: it raises for a corpus that is inconsistent in itself, and
collects a blocker for each check that a consistent corpus fails. A corpus without blockers is ready
to be locked. The engineering gate drops the blockers of some checks again, by their texts.
-/

namespace ZhiyanRag.Evaluation

/-! ### Texts -/

/-- `f"{value:.4f}"` of a number that is not negative: the exact value, rounded half to even. -/
def fixedFour (value : Rat) : String :=
  let scaled := Binary64.divHalfEven (value.num.natAbs * 10 ^ 4) value.den
  String.ofList (Nat.toDigits 10 (scaled / 10 ^ 4) ++ '.' :: Binary64.Number.decimalDigits 4
    (scaled % 10 ^ 4))

/-- The checks of one item whose blockers start with its `question_id` and have a fixed rest. -/
inductive ItemCheck
  | independentReviewers
  | humanAnnotators
  | draft
  | doubleHumanStatus
  | gptRecord
  | gptConflict
  | agreementScore
  | adjudication
  | consensusLabels
  | expertReview
  | humanReview
  | finalMissing
  | finalRole
  | finalHuman
  | finalLabels
  deriving DecidableEq

def ItemCheck.text : ItemCheck → String
  | independentReviewers => "lacks two independent reviewers"
  | humanAnnotators => "formal corpus requires two human annotators"
  | draft => "is still draft"
  | doubleHumanStatus => "formal corpus requires double-human status"
  | gptRecord => "GPT_ASSISTED item lacks GPT annotation"
  | gptConflict => "GPT-assisted labels require conflict review"
  | agreementScore => "lacks agreement_score"
  | adjudication => "has conflict requiring adjudication"
  | consensusLabels => "consensus labels do not match independent reviews"
  | expertReview => "requires expert review"
  | humanReview => "requires human review"
  | finalMissing => "final annotation is missing"
  | finalRole => "final annotation role is invalid"
  | finalHuman => "final arbitration or expert review must be human"
  | finalLabels => "final labels do not match annotation"

/-- A blocker: the check that failed, with what its message contains. -/
inductive Blocker
  | primaryCount (count target : Nat)
  | lockedSize
  | splitRatio (split : DatasetSplit) (observed : Rat)
  | stratumRatio (questionType : QuestionType) (observed minRatio maxRatio : Rat)
  | missingRecord (questionId annotationId : Identifier)
  | item (questionId : Identifier) (check : ItemCheck)
  | engineeringCount (count : Nat)
  | auditRatio (ratio : Rat)
  deriving DecidableEq

def engineeringTargetItems : Nat := 500

/-- `ENGINEERING_HUMAN_AUDIT_MIN_RATIO`. -/
def engineeringHumanAuditMinRatio : Rat := Binary64.round (1 / 10)

def Blocker.text : Blocker → String
  | primaryCount count target => "primary_item_count " ++ count.repr ++ " is below target_size " ++
      target.repr
  | lockedSize => "LOCKED corpus must contain exactly target_size primary items"
  | splitRatio split observed =>
    split.text ++ " split ratio " ++ fixedFour observed ++ " is outside tolerance"
  | stratumRatio questionType observed minRatio maxRatio =>
    questionType.text ++ " ratio " ++ fixedFour observed ++ " is outside [" ++ fixedFour minRatio ++
      ", " ++ fixedFour maxRatio ++ "]"
  | missingRecord questionId annotationId => questionId.val ++ " references missing annotation " ++
      annotationId.val
  | item questionId check => questionId.val ++ " " ++ check.text
  | engineeringCount count =>
    "primary_item_count " ++ count.repr ++ " does not equal GPT-assisted target " ++
      engineeringTargetItems.repr
  | auditRatio ratio =>
    "low-risk dev/test human audit ratio " ++ fixedFour ratio ++ " is below " ++
      fixedFour engineeringHumanAuditMinRatio

/-! ### Checks of the whole corpus -/

def primaryItems (items : List EvaluationItemV1) : List EvaluationItemV1 :=
  items.filter fun item => decide (item.split ≠ .onlineHardCases)

/-- `split_counts[split]`. -/
def splitCount (items : List EvaluationItemV1) (split : DatasetSplit) : Nat :=
  items.countP fun item => decide (item.split = split)

/-- `type_counts[question_type]`. -/
def typeCount (items : List EvaluationItemV1) (questionType : QuestionType) : Nat :=
  (primaryItems items).countP fun item => decide (questionType ∈ item.questionTypes)

/-- `leaking`, before it is sorted. -/
def leakingGroups (items : List EvaluationItemV1) : List Identifier :=
  (items.map (·.leakageGroupId)).dedup.filter fun group =>
    decide (1 < ((items.filter fun item => decide (item.leakageGroupId = group)).map
      (·.split)).dedup.length)

/-- `count / total` of two integers. -/
def ratio (count total : Nat) : Rat := Binary64.round (count / total)

def sizeBlockers (manifest : EvaluationManifestV1) (items : List EvaluationItemV1) : List Blocker :=
  let primaryCount := (primaryItems items).length
  (if primaryCount < manifest.targetSize then [.primaryCount primaryCount manifest.targetSize]
    else []) ++
    if manifest.status = .locked ∧ primaryCount ≠ manifest.targetSize then [.lockedSize] else []

def splitBlockers (manifest : EvaluationManifestV1) (items : List EvaluationItemV1) :
    List Blocker :=
  let primaryCount := (primaryItems items).length
  if primaryCount = 0 then []
  else
    [(DatasetSplit.dev, manifest.splitPolicy.devRatio), (.test, manifest.splitPolicy.testRatio),
      (.acceptance, manifest.splitPolicy.acceptanceRatio)].flatMap fun entry =>
        let observed := ratio (splitCount items entry.1) primaryCount
        if manifest.splitPolicy.ratioTolerance.value < |Binary64.round (observed - entry.2.value)|
          then [.splitRatio entry.1 observed]
        else []

def stratumBlockers (manifest : EvaluationManifestV1) (items : List EvaluationItemV1) :
    List Blocker :=
  let primaryCount := (primaryItems items).length
  manifest.stratificationTargets.flatMap fun target =>
    let observed := if primaryCount = 0 then 0
      else ratio (typeCount items target.questionType) primaryCount
    if target.minRatio.value ≤ observed ∧ observed ≤ target.maxRatio.value then []
    else [.stratumRatio target.questionType observed target.minRatio.value target.maxRatio.value]

/-! ### Checks of an annotation -/

/-- `annotation_by_id.get(annotation_id)`. -/
def annotationById (annotations : List AnnotationRecordV1) (annotationId : Identifier) :
    Option AnnotationRecordV1 :=
  annotations.find? fun record => decide (record.annotationId = annotationId)

/-- `_reviewer_identity`; a GPT record has a `model_identity`. -/
def reviewerIdentity (record : AnnotationRecordV1) : ActorType × String :=
  if record.actorType = .gpt then (record.actorType, (record.modelIdentity.map (·.val)).getD "")
  else (record.actorType, record.annotatorId.val)

/-- `_record_matches_item`. -/
def recordMatchesItem (record : AnnotationRecordV1) (item : EvaluationItemV1) : Bool :=
  decide (record.answerability = item.answerability) &&
    decide (record.expectedRoute = item.expectedRoute) &&
    decide (record.chunkJudgments = item.chunkJudgments)

/-- The number of independent reviewers of these records. -/
def reviewerCount (records : List AnnotationRecordV1) : Nat :=
  (records.map reviewerIdentity).dedup.length

/-- The parent with this identifier. -/
def lineageParent (annotations : List AnnotationRecordV1) (record : AnnotationRecordV1)
    (parentId : Identifier) : Except PyError AnnotationRecordV1 :=
  match annotationById annotations parentId with
  | none => .error ⟨.valueError, "annotation references missing parent: " ++ parentId.val⟩
  | some parent =>
    if parent.questionId = record.questionId then .ok parent
      else .error ⟨.valueError, "annotation lineage crosses question_id"⟩

/-- The turn of the loop over the annotations. -/
def checkRecord (manifest : EvaluationManifestV1) (questionIds : List Identifier)
    (annotations : List AnnotationRecordV1) (record : AnnotationRecordV1) :
    Except PyError Unit := do
  ensure (questionIds.contains record.questionId) .valueError
    "annotation record references an unknown question_id"
  ensure (decide (record.datasetVersion = manifest.datasetVersion)) .valueError
    "annotation record dataset_version does not match manifest"
  let parents ← record.basedOnAnnotationIds.mapM (lineageParent annotations record)
  ensure (decide (record.role = .adjudicator → ∀ parent ∈ parents, parent.role = .annotator))
    .valueError "adjudicator parents must be independent annotations"
  ensure (decide (record.role = .adjudicator → 2 ≤ reviewerCount parents)) .valueError
    "adjudicator parents must have independent reviewers"
  ensure (decide (record.role = .expertReviewer →
      (2 ≤ parents.length ∧ (∀ parent ∈ parents, parent.role = .annotator) ∧
        2 ≤ reviewerCount parents) ∨ (parents.map (·.role)) = [.adjudicator])) .valueError
    "expert reviewer must reference independent annotations or adjudication"

/-! ### Checks of an item -/

/-- The record with this identifier, if there is one: it is about the item. -/
def itemRecord (manifest : EvaluationManifestV1) (annotations : List AnnotationRecordV1)
    (item : EvaluationItemV1) (annotationId : Identifier) :
    Except PyError (Option AnnotationRecordV1) :=
  match annotationById annotations annotationId with
  | none => .ok none
  | some record =>
    if record.questionId ≠ item.questionId
      then .error ⟨.valueError, "annotation record question_id does not match item"⟩
    else if record.datasetVersion ≠ manifest.datasetVersion then
      .error ⟨.valueError, "annotation record dataset_version does not match manifest"⟩
    else .ok (some record)

/-- `records`, of an item whose records are about it. -/
def recordsOf (annotations : List AnnotationRecordV1) (item : EvaluationItemV1) :
    List AnnotationRecordV1 :=
  item.annotationRecordIds.filterMap (annotationById annotations)

/-- `independent_records`. -/
def independentRecords (annotations : List AnnotationRecordV1) (item : EvaluationItemV1) :
    List AnnotationRecordV1 :=
  (recordsOf annotations item).filter fun record => decide (record.role = .annotator)

/-- `independent_humans`. -/
def independentHumans (annotations : List AnnotationRecordV1) (item : EvaluationItemV1) :
    List Identifier :=
  (((independentRecords annotations item).filter
    fun record => decide (record.actorType = .human)).map (·.annotatorId)).dedup

def needsExpert (manifest : EvaluationManifestV1) (item : EvaluationItemV1) : Bool :=
  manifest.qualityGates.expertReviewDifficulties.contains item.difficulty ||
    item.questionTypes.any manifest.qualityGates.expertReviewQuestionTypes.contains

def needsHuman (item : EvaluationItemV1) : Bool :=
  decide (item.split = .acceptance) || decide (item.answerability = .conflictingEvidence) ||
    decide (item.answerability = .noEvidence) ||
    decide (item.answerability = .forbidden) || item.questionTypes.contains .adversarialSecurity

/-- `any(record.actor_type == "HUMAN" for record in records)`. -/
def humanReviewed (annotations : List AnnotationRecordV1) (item : EvaluationItemV1) : Bool :=
  (recordsOf annotations item).any fun record => decide (record.actorType = .human)

def isLowRiskDevTest (manifest : EvaluationManifestV1) (item : EvaluationItemV1) : Bool :=
  (decide (item.split = .dev) || decide (item.split = .test)) && decide (item.difficulty ≠ .hard) &&
    !needsExpert manifest item

/-- `expected_role`. -/
def finalRole (status : AnnotationStatus) :
    AnnotationRole := if status = .expertReviewed then .expertReviewer else .adjudicator

/-- The check fails if the condition holds. -/
def blocks (condition : Bool) (check : ItemCheck) :
    List ItemCheck := if condition then [check] else []

/-- The checks of the annotation status and of the agreement score. -/
def statusChecks (annotations : List AnnotationRecordV1) (item : EvaluationItemV1) :
    List ItemCheck :=
  let independent := independentRecords annotations item
  let conflict := independent.any fun record => !recordMatchesItem record item
  blocks (decide (item.annotationStatus = .draft)) .draft ++
    (if item.annotationStatus = .gptAssisted then
      .doubleHumanStatus ::
        (blocks (!independent.any fun record => decide (record.actorType = .gpt)) .gptRecord ++
          blocks conflict .gptConflict)
    else []) ++
    match item.agreementScore with
    | none => blocks (decide (item.annotationStatus ≠ .gptAssisted)) .agreementScore
    | some score =>
      if score.value < 1 then blocks (!item.annotationStatus.isFinal) .adjudication
      else if item.annotationStatus = .doubleAnnotated then blocks conflict .consensusLabels
      else []

/-- The checks of the final annotation. -/
def finalChecks (annotations : List AnnotationRecordV1) (item : EvaluationItemV1) :
    List ItemCheck :=
  match item.finalAnnotationId with
  | none => []
  | some annotationId =>
    match annotationById annotations annotationId with
    | none => [.finalMissing]
    | some record =>
      blocks (decide (record.role ≠ finalRole item.annotationStatus)) .finalRole ++
        blocks (decide (record.actorType ≠ .human)) .finalHuman ++
          blocks (!recordMatchesItem record item) .finalLabels

/-- The checks that an item fails. -/
def failedChecks (manifest : EvaluationManifestV1) (annotations : List AnnotationRecordV1)
    (item : EvaluationItemV1) : List ItemCheck :=
  let minimum := manifest.qualityGates.minimumIndependentAnnotators
  blocks (decide (reviewerCount (independentRecords annotations item) < minimum))
    .independentReviewers ++ blocks (decide ((independentHumans annotations item).length < minimum))
      .humanAnnotators ++
    statusChecks annotations item ++
    blocks (needsExpert manifest item && decide (item.annotationStatus ≠ .expertReviewed))
      .expertReview ++
    blocks (needsHuman item && !humanReviewed annotations item) .humanReview ++
    finalChecks annotations item

/-- The turn of the loop over the items. -/
def itemBlockers (manifest : EvaluationManifestV1) (annotations : List AnnotationRecordV1)
    (item : EvaluationItemV1) : Except PyError (List Blocker) := do
  let found ← item.annotationRecordIds.mapM fun annotationId => do
    return (annotationId, ← itemRecord manifest annotations item annotationId)
  let missing := found.filterMap fun entry =>
    if entry.2.isNone then some (Blocker.missingRecord item.questionId entry.1) else none
  return missing ++ (failedChecks manifest annotations item).map (.item item.questionId)

/-! ### The engineering gate -/

/-- `text.startswith(start)`. -/
def startsWith (start text : String) : Bool := start.toList.isPrefixOf text.toList

/-- `needle in text`. -/
def occursIn (needle text : String) : Bool := decide (needle.toList <:+: text.toList)

/-- The blocker goes over to `engineering_blockers`. -/
def Blocker.kept (blocker : Blocker) : Bool :=
  !startsWith "primary_item_count " blocker.text && !startsWith "LOCKED corpus " blocker.text &&
    !occursIn "formal corpus requires two human annotators" blocker.text &&
    !occursIn "formal corpus requires double-human status" blocker.text &&
      !occursIn "lacks two independent reviewers" blocker.text

/-- `round(value, 6)` of a number that is not negative. -/
def roundSix (value : Rat) : Rat :=
  Binary64.round (Binary64.divHalfEven (value.num.natAbs * 10 ^ 6) value.den / 10 ^ 6)

/-- `audit_ratio`. -/
def auditRatio (reviewed count : Nat) : Rat := if count = 0 then 0 else ratio reviewed count

def engineeringBlockers (items : List EvaluationItemV1) (blockers : List Blocker)
    (reviewed count : Nat) : List Blocker :=
  let primaryCount := (primaryItems items).length
  blockers.filter Blocker.kept ++
    (if primaryCount ≠ engineeringTargetItems then [.engineeringCount primaryCount] else []) ++
    if auditRatio reviewed count < engineeringHumanAuditMinRatio
      then [.auditRatio (auditRatio reviewed count)] else []

/-- What `validate_corpus` returns. -/
structure ValidationReport where
  datasetId : Identifier
  datasetVersion : Identifier
  status : ManifestStatus
  targetSize : Nat
  itemCount : Nat
  primaryItemCount : Nat
  onlineHardCaseCount : Nat
  lowRiskDevTestCount : Nat
  lowRiskDevTestHumanReviewed : Nat
  lowRiskDevTestHumanAuditRatio : Rat
  engineeringReady : Bool
  engineeringBlockers : List Blocker
  annotationRecordCount : Nat
  splitCounts : List (DatasetSplit × Nat)
  questionTypeCounts : List (QuestionType × Nat)
  leakageGroupCount : Nat
  lockReady : Bool
  blockers : List Blocker

/-- `validate_corpus` on what `load_manifest_and_items` returns. -/
def validateCorpus (manifest : EvaluationManifestV1) (items : List EvaluationItemV1)
    (annotations : List AnnotationRecordV1) : Except PyError ValidationReport := do
  let questionIds := items.map (·.questionId)
  ensure (decide questionIds.Nodup) .valueError "evaluation question_id values must be unique"
  ensure (items.all fun item => decide (item.datasetVersion = manifest.datasetVersion)) .valueError
    "evaluation item dataset_version does not match manifest"
  ensure (leakingGroups items).isEmpty .valueError
    ("leakage groups span multiple splits: " ++
      ",".intercalate ((sortedIds (leakingGroups items)).map (·.val)))
  ensure (decide (annotations.map (·.annotationId)).Nodup) .valueError
    "annotation_id values must be unique"
  let orphans := (annotations.map (·.annotationId)).filter fun id => !items.any fun item =>
    item.annotationRecordIds.contains id
  ensure orphans.isEmpty .valueError
    ("annotation records are not referenced by an evaluation item: " ++
      ",".intercalate ((sortedIds orphans).map (·.val)))
  annotations.forM (checkRecord manifest questionIds annotations)
  let perItem ← items.mapM (itemBlockers manifest annotations)
  let blockers := sizeBlockers manifest items ++ splitBlockers manifest items ++
    stratumBlockers manifest items ++ perItem.flatten
  let lowRisk := items.filter (isLowRiskDevTest manifest)
  let reviewed := (lowRisk.filter (humanReviewed annotations)).length
  let engineering := engineeringBlockers items blockers reviewed lowRisk.length
  return {
    datasetId := manifest.datasetId
    datasetVersion := manifest.datasetVersion
    status := manifest.status
    targetSize := manifest.targetSize
    itemCount := items.length
    primaryItemCount := (primaryItems items).length
    onlineHardCaseCount := splitCount items .onlineHardCases
    lowRiskDevTestCount := lowRisk.length
    lowRiskDevTestHumanReviewed := reviewed
    lowRiskDevTestHumanAuditRatio := roundSix (auditRatio reviewed lowRisk.length)
    engineeringReady := engineering.isEmpty
    engineeringBlockers := engineering
    annotationRecordCount := annotations.length
    splitCounts := ((items.map (·.split)).dedup.insertionSort fun a b => a.text ≤ b.text).map
      fun split => (split, splitCount items split)
    questionTypeCounts :=
      ((typesOf (primaryItems items)).insertionSort fun a b => a.text ≤ b.text).map fun type =>
      (type, typeCount items type)
    leakageGroupCount := (items.map (·.leakageGroupId)).dedup.length
    lockReady := blockers.isEmpty
    blockers }

end ZhiyanRag.Evaluation
