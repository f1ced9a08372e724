import ZhiyanRag.Evaluation.MetricsReport
import ZhiyanRag.Retrieval.Json
import Mathlib.Algebra.Order.Field.Rat

/-!
# The reranker decision

`load_config` and `build_decision` of `reranker.py`. The configuration names the cutoffs of the
report, and the decision reads fixed ones: the discounted gain at 10 and the precision at 5, and for
a critical question type the gain at 10 again, which the report has at the largest cutoff only.
`buildDecision_iff` says which configurations can be decided on which corpora.
-/

namespace ZhiyanRag.Evaluation

open ZhiyanRag.Retrieval

/-! ### The configuration -/

def configKeys : List String :=
  ["schema_version", "run_id", "candidate_backend", "candidate_top_k", "output_top_k",
    "evaluation_splits", "metric_k_values", "model", "decision_policy"]

def modelKeys : List String :=
  ["provider", "model_id", "revision", "max_length", "batch_size", "device", "trust_remote_code",
    "input_template"]

def decisionKeys : List String :=
  ["primary_split", "baseline_backend", "minimum_relative_ndcg_at_10_gain",
    "minimum_precision_at_5_delta", "critical_question_types",
    "maximum_critical_ndcg_at_10_regression"]

/-- The members of `{"dev", "test"}`. -/
abbrev DevOrTest := { split : DatasetSplit // split = .dev ∨ split = .test }

structure DecisionPolicy where
  primarySplit : DevOrTest
  baselineBackend : String
  minimumRelativeNdcgAt10Gain : Rat
  minimumPrecisionAt5Delta : Rat
  criticalQuestionTypes : List String
  maximumCriticalNdcgAt10Regression : Rat
  criticalNonempty : criticalQuestionTypes ≠ []
  criticalUnique : criticalQuestionTypes.Nodup

structure FixedCrossEncoderConfig where
  runId : String
  candidateBackend : String
  candidateTopK : Int
  outputTopK : Int
  evaluationSplits : List DevOrTest
  metricKValues : List PyInt
  model : List (String × JsonValue)
  decisionPolicy : DecisionPolicy
  metricKNonempty : metricKValues ≠ []
  metricKFromOne : ∀ k ∈ metricKValues, 1 ≤ k.value
  metricKSorted : metricKValues.Pairwise fun a b => a.value < b.value

/-- Go on with the condition as a fact, or raise. -/
def require (condition : Prop) [Decidable condition] (message : String) :
    Except PyError (PLift condition) :=
  if h : condition then .ok ⟨h⟩ else .error ⟨.valueError, message⟩

/-- `isinstance(value, int)`. -/
def pyInt? : JsonValue → Option PyInt
  | .int value => some ⟨value, false, fun h => absurd h Bool.false_ne_true⟩
  | .bool true => some ⟨1, true, fun _ => .inr rfl⟩
  | .bool false => some ⟨0, true, fun _ => .inl rfl⟩
  | _ => none

/-- `value[name]`; the keys are checked before. -/
def member (members : List (String × JsonValue)) (name : String) : JsonValue :=
  (members.lookup name).getD .null

/-- The members, if the value is a `dict` with these keys. -/
def membersWith (value : JsonValue) (keys : List String) (message : String) :
    Except PyError (List (String × JsonValue)) :=
  match value with
  | .object members => if hasKeys members keys then .ok members else .error ⟨.valueError, message⟩
  | _ => .error ⟨.valueError, message⟩

/-- `isinstance(value, str) and value`. -/
def nonemptyStr (value : JsonValue) (message : String) : Except PyError String :=
  match value with
  | .str s => if s ≠ "" then .ok s else .error ⟨.valueError, message⟩
  | _ => .error ⟨.valueError, message⟩

def intFrom (lower : Int) (value : JsonValue) (message : String) : Except PyError Int :=
  match pyInt? value with
  | some number => if lower ≤ number.value then .ok number.value else .error ⟨.valueError, message⟩
  | none => .error ⟨.valueError, message⟩

/-- `value in {"dev", "test"}`; a value without a hash is a `TypeError`. -/
def devOrTest (message : String) (value : JsonValue) : Except PyError DevOrTest :=
  match value with
  | .str s =>
    if s = "dev" then .ok ⟨.dev, .inl rfl⟩ else if s = "test" then .ok ⟨.test, .inr rfl⟩
      else .error ⟨.valueError, message⟩
  | .array _ => .error ⟨.typeError, "unhashable type: 'list'"⟩
  | .object _ => .error ⟨.typeError, "unhashable type: 'dict'"⟩
  | _ => .error ⟨.valueError, message⟩

/-- `float(value)` of a value that is a finite number. -/
def finiteNumber (value : JsonValue) (message : String) : Except PyError Rat :=
  match value with
  | .float (.finite number) => .ok number
  | _ =>
    match pyInt? value with
    | some number =>
      match Binary64.round? number.value with
      | some rounded => .ok rounded
      | none => .error ⟨.overflowError, "int too large to convert to float"⟩
    | none => .error ⟨.valueError, message⟩

/-- `metric_k_values`, if it is a list of integers. -/
def metricKValues? (value : JsonValue) : Option (List PyInt) :=
  match value with
  | .array items => items.mapM pyInt?
  | _ => none

/-- `load_config` on the decoded file. -/
def loadConfig (value : JsonValue) : Except PyError FixedCrossEncoderConfig := do
  let members ← membersWith value configKeys "fixed Cross-Encoder config fields are invalid"
  ensure (decide ((member members "schema_version").str? = some "fixed_cross_encoder_config_v1"))
    .valueError "unsupported fixed Cross-Encoder config"
  let model ← membersWith (member members "model") modelKeys
    "fixed Cross-Encoder model fields are invalid"
  let decision ← membersWith (member members "decision_policy") decisionKeys
    "fixed Cross-Encoder decision fields are invalid"
  ensure (decide ((member model "provider").str? = some "sentence_transformers_cross_encoder"))
    .valueError "unsupported fixed Cross-Encoder provider"
  ensure (decide ((member model "input_template").str? = some "question_title_section_text_v1"))
    .valueError "unsupported fixed Cross-Encoder input template"
  ensure (member model "trust_remote_code").isFalse .valueError
    "fixed Cross-Encoder must not trust remote code"
  let _ ← nonemptyStr (member model "model_id") "fixed Cross-Encoder model model_id is invalid"
  let _ ← nonemptyStr (member model "revision") "fixed Cross-Encoder model revision is invalid"
  let _ ← nonemptyStr (member model "device") "fixed Cross-Encoder model device is invalid"
  let _ ← intFrom 32 (member model "max_length") "fixed Cross-Encoder max_length is invalid"
  let _ ← intFrom 1 (member model "batch_size") "fixed Cross-Encoder batch_size is invalid"
  let runId ← nonemptyStr (member members "run_id") "fixed Cross-Encoder run_id is invalid"
  let candidateBackend ← nonemptyStr (member members "candidate_backend")
    "fixed Cross-Encoder candidate_backend is invalid"
  let kMessage := "fixed Cross-Encoder metric K values are invalid"
  let kValues ← (metricKValues? (member members "metric_k_values")).elim
    (.error ⟨.valueError, kMessage⟩) .ok
  let kNonempty ← require (kValues ≠ []) kMessage
  let kFromOne ← require (∀ k ∈ kValues, 1 ≤ k.value) kMessage
  let kSorted ← require (kValues.Pairwise fun a b => a.value < b.value) kMessage
  let candidateTopK ← intFrom 10 (member members "candidate_top_k")
    "fixed Cross-Encoder candidate_top_k is invalid"
  let outputTopK ← intFrom (largest kValues).value (member members "output_top_k")
    "fixed Cross-Encoder output_top_k is invalid"
  ensure (decide (outputTopK ≤ candidateTopK)) .valueError
    "fixed Cross-Encoder output_top_k is invalid"
  let splitsMessage := "fixed Cross-Encoder evaluation splits are invalid"
  ensure ((member members "evaluation_splits").isList &&
    !(member members "evaluation_splits").items.isEmpty) .valueError splitsMessage
  let evaluationSplits ← (member members "evaluation_splits").items.mapM (devOrTest splitsMessage)
  ensure (decide evaluationSplits.Nodup) .valueError splitsMessage
  let primarySplit ← devOrTest "fixed Cross-Encoder primary split must be dev or test"
    (member decision "primary_split")
  ensure (decide (primarySplit ∈ evaluationSplits)) .valueError
    "fixed Cross-Encoder primary split is not evaluated"
  ensure (decide ((member decision "baseline_backend").str? = some candidateBackend)) .valueError
    "fixed Cross-Encoder baseline backend is inconsistent"
  let minimumRelativeNdcgAt10Gain ← finiteNumber
    (member decision "minimum_relative_ndcg_at_10_gain")
      "fixed Cross-Encoder decision minimum_relative_ndcg_at_10_gain is invalid"
  let minimumPrecisionAt5Delta ← finiteNumber (member decision "minimum_precision_at_5_delta")
    "fixed Cross-Encoder decision minimum_precision_at_5_delta is invalid"
  let maximumCriticalNdcgAt10Regression ← finiteNumber
    (member decision "maximum_critical_ndcg_at_10_regression")
      "fixed Cross-Encoder decision maximum_critical_ndcg_at_10_regression is invalid"
  let criticalMessage := "fixed Cross-Encoder critical question types are invalid"
  ensure (member decision "critical_question_types").isList .valueError criticalMessage
  let criticalQuestionTypes ← (member decision "critical_question_types").items.mapM fun item =>
    nonemptyStr item criticalMessage
  let criticalNonempty ← require (criticalQuestionTypes ≠ []) criticalMessage
  let criticalUnique ← require criticalQuestionTypes.Nodup criticalMessage
  return {
    runId, candidateBackend, candidateTopK, outputTopK, evaluationSplits, model
    metricKValues := kValues
    decisionPolicy := {
      primarySplit, minimumRelativeNdcgAt10Gain, minimumPrecisionAt5Delta, criticalQuestionTypes,
      maximumCriticalNdcgAt10Regression
      baselineBackend := candidateBackend
      criticalNonempty := criticalNonempty.down
      criticalUnique := criticalUnique.down }
    metricKNonempty := kNonempty.down
    metricKFromOne := kFromOne.down
    metricKSorted := kSorted.down }

/-! ### The decision -/

inductive Decision
  | retainFixedCrossEncoderPendingTargetHardwareP95
  | fallbackToLocalRrf
  deriving DecidableEq

/-- An entry of `critical_results`. -/
structure CriticalResult (R : Type) where
  questionType : String
  eligibleCount : Nat
  ndcgAt10Delta : R
  passed : Bool

structure FixedCrossEncoderDecision (R : Type) where
  primarySplit : DatasetSplit
  baselineBackend : String
  baselineNdcgAt10 : R
  rerankerNdcgAt10 : R
  /-- Without a value: infinite. -/
  relativeNdcgAt10Gain : Option R
  minimumRelativeNdcgAt10Gain : Rat
  ndcgGatePassed : Bool
  baselinePrecisionAt5 : R
  rerankerPrecisionAt5 : R
  precisionAt5Delta : R
  minimumPrecisionAt5Delta : Rat
  precisionGatePassed : Bool
  criticalQuestionTypes : List (CriticalResult R)
  criticalGatePassed : Bool
  decision : Decision

section

variable {R : Type} [Field R] [LinearOrder R]

/-- `_relative_gain`; `math.inf` has no value. -/
def relativeGain (candidate baseline : R) : Option R :=
  if baseline = 0 then if 0 < candidate then none else some 0
    else some ((candidate - baseline) / baseline)

def rerankerLabel : String := "fixed_cross_encoder"

def comparedRun (report : MetricsReport R) (label : String) : Except PyError (RunReport R) :=
  (report.runs.lookup label).elim
    (.error ⟨.valueError, "reranker metrics report is missing compared runs"⟩) .ok

def criticalEntry (run : RunReport R) (questionType : String) : Except PyError (TypeMetrics R) :=
  (run.byQuestionType.lookup questionType).elim
    (.error ⟨.valueError, "reranker metrics are missing critical type: " ++ questionType⟩) .ok

/-- The turn of the loop over the critical types. -/
def criticalResult (round6 : R → R) (policy : DecisionPolicy) (baseline reranker : RunReport R)
    (questionType : String) : Except PyError (CriticalResult R) := do
  let baselineEntry ← criticalEntry baseline questionType
  let rerankerEntry ← criticalEntry reranker questionType
  let rerankerNdcg ← getMetric rerankerEntry.metrics "ndcg@10"
  let baselineNdcg ← getMetric baselineEntry.metrics "ndcg@10"
  return {
    questionType
    eligibleCount := rerankerEntry.eligibleCount
    ndcgAt10Delta := round6 (rerankerNdcg - baselineNdcg)
    passed := decide (-(policy.maximumCriticalNdcgAt10Regression : R) ≤
      rerankerNdcg - baselineNdcg) }

/-- `build_decision`. -/
def buildDecision (round6 : R → R) (report : MetricsReport R) (config : FixedCrossEncoderConfig) :
    Except PyError (FixedCrossEncoderDecision R) := do
  let policy := config.decisionPolicy
  let baseline ← comparedRun report policy.baselineBackend
  let reranker ← comparedRun report rerankerLabel
  let baselineNdcg ← getMetric baseline.metrics "ndcg@10"
  let rerankerNdcg ← getMetric reranker.metrics "ndcg@10"
  let baselinePrecision ← getMetric baseline.metrics "precision@5"
  let rerankerPrecision ← getMetric reranker.metrics "precision@5"
  let relativeNdcgGain := relativeGain rerankerNdcg baselineNdcg
  let precisionDelta := rerankerPrecision - baselinePrecision
  let criticalResults ← policy.criticalQuestionTypes.mapM
    (criticalResult round6 policy baseline reranker)
  let criticalPass := criticalResults.all (·.passed)
  let ndcgPass :=
    relativeNdcgGain.all fun gain => decide ((policy.minimumRelativeNdcgAt10Gain : R) ≤ gain)
  let precisionPass := decide ((policy.minimumPrecisionAt5Delta : R) ≤ precisionDelta)
  return {
    primarySplit := policy.primarySplit
    baselineBackend := policy.baselineBackend
    baselineNdcgAt10 := baselineNdcg
    rerankerNdcgAt10 := rerankerNdcg
    relativeNdcgAt10Gain := relativeNdcgGain.map round6
    minimumRelativeNdcgAt10Gain := policy.minimumRelativeNdcgAt10Gain
    ndcgGatePassed := ndcgPass
    baselinePrecisionAt5 := baselinePrecision
    rerankerPrecisionAt5 := rerankerPrecision
    precisionAt5Delta := round6 precisionDelta
    minimumPrecisionAt5Delta := policy.minimumPrecisionAt5Delta
    precisionGatePassed := precisionPass
    criticalQuestionTypes := criticalResults
    criticalGatePassed := criticalPass
    decision := if ndcgPass && precisionPass && criticalPass
      then .retainFixedCrossEncoderPendingTargetHardwareP95
      else .fallbackToLocalRrf }

end

/-! ### What can be decided -/

/-- The items of the primary split that have evidence. -/
def eligibleInPrimary (config : FixedCrossEncoderConfig) (allItems : List EvaluationItemV1) :
    List EvaluationItemV1 :=
  eligibleItems (allItems.filter
    fun item => decide (item.split = config.decisionPolicy.primarySplit))

/-- The report on a corpus has the metrics that the decision reads, and none of them is null. -/
structure MetricsAvailable (config : FixedCrossEncoderConfig) (allItems : List EvaluationItemV1) :
    Prop where
  precisionAt5 : ∃ k ∈ config.metricKValues, k.value = 5
  largestIs10 : (largest config.metricKValues).value = 10
  criticalEligible : ∀ questionType ∈ config.decisionPolicy.criticalQuestionTypes,
    ∃ item ∈ eligibleInPrimary config allItems,
      questionType ∈ item.questionTypes.map QuestionType.text

theorem exists_bind_eq_ok {α β ε : Type} {x : Except ε α} {f : α → Except ε β} :
    (∃ b, (x >>= f) = .ok b) ↔ ∃ a, x = .ok a ∧ ∃ b, f a = .ok b := by
  constructor
  · rintro ⟨b, hb⟩
    obtain ⟨a, ha, hf⟩ := bind_eq_ok.mp hb
    exact ⟨a, ha, b, hf⟩
  · rintro ⟨a, ha, b, hf⟩
    exact ⟨b, bind_eq_ok.mpr ⟨a, ha, hf⟩⟩

theorem largest_mem {kValues : List PyInt} (h : kValues ≠ []) : largest kValues ∈ kValues := by
  unfold largest
  rw [List.getLast?_eq_getLast_of_ne_nil h]
  exact List.getLast_mem h

section

variable {R : Type} [Field R] [LinearOrder R] {log2 : Nat → R} {round6 : R → R}

/-- What is read of a run: its metrics and its entries are those of some rankings of the items. -/
structure RunOn (log2 : Nat → R) (round6 : R → R) (items : List EvaluationItemV1)
    (kValues : List PyInt) (run : RunReport R) : Prop where
  metrics : ∃ results, run.metrics =
    kValues.flatMap (metricsAt log2 round6 results (eligibleItems items)) ++
      refusalMetrics round6 results items
  entries : ∃ results, ∀ entry ∈ run.byQuestionType, ∃ type,
    entry = (QuestionType.text type, typeMetrics log2 round6 results items kValues type)

/-- The runs of a report are runs on the items of its split. -/
theorem runOn_of_report {datasetVersion : Identifier} {allItems : List EvaluationItemV1}
    {runs : List (String × List RetrievalRankingResultV1)} {split : DatasetSplit}
    {kValues : List PyInt}
    {report : MetricsReport R}
    (h : buildMetricsReport log2 round6 datasetVersion allItems runs split kValues = .ok report)
    {label : String} {run : RunReport R} (hrun : report.runs.lookup label = some run) :
    RunOn log2 round6 (allItems.filter fun item => decide (item.split = split)) kValues run := by
  unfold buildMetricsReport at h
  obtain ⟨-, h⟩ := ensure_bind.mp h
  obtain ⟨reports, hreports, hreport⟩ := bind_eq_ok.mp h
  obtain rfl := pure_eq_ok.mp hreport
  obtain ⟨before, after, hsplit, -⟩ := List.lookup_eq_some_iff.mp hrun
  have hmem : (label, run) ∈ reports := by
    change reports = before ++ (label, run) :: after at hsplit
    rw [hsplit]
    exact List.mem_append_right _ List.mem_cons_self
  obtain ⟨⟨label', results⟩, -, hstep⟩ := exists_of_mapM_ok hreports hmem
  obtain ⟨-, hstep⟩ := ensure_bind.mp hstep
  obtain ⟨-, hstep⟩ := ensure_bind.mp hstep
  obtain ⟨run', haggregate, hstep⟩ := bind_eq_ok.mp hstep
  obtain ⟨-, rfl⟩ := Prod.mk.inj (pure_eq_ok.mp hstep)
  unfold aggregateBackend at haggregate
  obtain ⟨-, haggregate⟩ := ensure_bind.mp haggregate
  obtain ⟨-, haggregate⟩ := ensure_bind.mp haggregate
  obtain ⟨-, haggregate⟩ := ensure_bind.mp haggregate
  obtain rfl := pure_eq_ok.mp haggregate
  let selected := results.filter fun result =>
    decide (result.questionId ∈ (allItems.filter fun item => decide (item.split = split)).map
      (·.questionId))
  refine ⟨⟨selected, rfl⟩, selected, fun entry hentry => ?_⟩
  obtain ⟨type, -, rfl⟩ := List.mem_map.mp hentry
  exact ⟨type, rfl⟩

variable {items : List EvaluationItemV1} {kValues : List PyInt} {baseline reranker : RunReport R}

theorem RunOn.getMetric_iff {run : RunReport R} (h : RunOn log2 round6 items kValues run)
    {metric : String} {n : Int} (hmetric : metric ∈ cutoffMetrics) (hn : 2 ≤ n) :
    (∃ x, getMetric run.metrics (metric ++ "@" ++ n.repr) = .ok x) ↔ (∃ k ∈ kValues, k.value = n) ∧
    eligibleItems items ≠ [] := by
  obtain ⟨results, hmetrics⟩ := h.metrics
  rw [hmetrics]
  exact getMetric_of_run log2 round6 hmetric hn

/-- The gain of a question type that a run has an entry for. -/
theorem RunOn.criticalNdcg_iff {run : RunReport R} (h : RunOn log2 round6 items kValues run)
    {questionType : String} {entry : TypeMetrics R}
    (hentry : run.byQuestionType.lookup questionType = some entry) :
    (∃ x, getMetric entry.metrics "ndcg@10" = .ok x) ↔
      (largest kValues).value = 10 ∧ ∃ item ∈ eligibleItems items,
        questionType ∈ item.questionTypes.map QuestionType.text := by
  obtain ⟨results, hentries⟩ := h.entries
  obtain ⟨before, after, hsplit, -⟩ := List.lookup_eq_some_iff.mp hentry
  obtain ⟨type, htype⟩ :=
    hentries (questionType, entry)
      (by rw [hsplit]; exact List.mem_append_right _ List.mem_cons_self)
  obtain ⟨rfl, rfl⟩ := Prod.mk.inj htype
  rw [show "ndcg@10" = "ndcg" ++ "@" ++ Int.repr 10 by decide,
    getMetric_of_type log2 round6 (by decide)]
  refine and_congr_right fun _ => exists_congr fun item => and_congr_right fun _ => ?_
  rw [List.mem_map_of_injective QuestionType.text_injective]

theorem criticalResult_iff (hbaseline : RunOn log2 round6 items kValues baseline)
    (hreranker : RunOn log2 round6 items kValues reranker) (policy : DecisionPolicy)
    {questionType : String} (hb : (baseline.byQuestionType.lookup questionType).isSome = true)
    (hr : (reranker.byQuestionType.lookup questionType).isSome = true) :
    (∃ result, criticalResult round6 policy baseline reranker questionType = .ok result) ↔
      (largest kValues).value = 10 ∧ ∃ item ∈ eligibleItems items,
        questionType ∈ item.questionTypes.map QuestionType.text := by
  obtain ⟨baselineEntry, hb⟩ := Option.isSome_iff_exists.mp hb
  obtain ⟨rerankerEntry, hr⟩ := Option.isSome_iff_exists.mp hr
  have hbe : criticalEntry baseline questionType = .ok baselineEntry := by
    unfold criticalEntry; rw [hb]; rfl
  have hre : criticalEntry reranker questionType = .ok rerankerEntry := by
    unfold criticalEntry; rw [hr]; rfl
  constructor
  · rintro ⟨result, h⟩
    unfold criticalResult at h
    obtain ⟨entry, -, h⟩ := bind_eq_ok.mp h
    obtain ⟨entry', hentry', h⟩ := bind_eq_ok.mp h
    obtain ⟨ndcg, hndcg, -⟩ := bind_eq_ok.mp h
    obtain rfl := Except.ok.inj (hre.symm.trans hentry')
    exact (hreranker.criticalNdcg_iff hr).mp ⟨ndcg, hndcg⟩
  · intro h
    obtain ⟨x, hx⟩ := (hreranker.criticalNdcg_iff hr).mpr h
    obtain ⟨y, hy⟩ := (hbaseline.criticalNdcg_iff hb).mpr h
    unfold criticalResult
    rw [hbe, hre]
    refine exists_bind_eq_ok.mpr
      ⟨_, rfl, exists_bind_eq_ok.mpr ⟨_, rfl, exists_bind_eq_ok.mpr ⟨x, hx, ?_⟩⟩⟩
    exact exists_bind_eq_ok.mpr ⟨y, hy, _, rfl⟩

/-- The report has both runs, with an entry for each critical question type. -/
structure Complete (config : FixedCrossEncoderConfig) (report : MetricsReport R)
    (baseline reranker : RunReport R) : Prop where
  baselineRun : report.runs.lookup config.decisionPolicy.baselineBackend = some baseline
  rerankerRun : report.runs.lookup rerankerLabel = some reranker
  critical : ∀ questionType ∈ config.decisionPolicy.criticalQuestionTypes,
    (baseline.byQuestionType.lookup questionType).isSome = true ∧
    (reranker.byQuestionType.lookup questionType).isSome = true

omit [Field R] [LinearOrder R] in
theorem comparedRun_eq_ok {report : MetricsReport R} {label : String} {run : RunReport R} :
    comparedRun report label = .ok run ↔ report.runs.lookup label = some run := by
  unfold comparedRun
  cases report.runs.lookup label <;> simp

/-- The decision is made if the metrics of both runs and of the critical types are there. -/
theorem exists_buildDecision_iff {config : FixedCrossEncoderConfig} {report : MetricsReport R}
    (hcomplete : Complete config report baseline reranker) :
    (∃ decision, buildDecision round6 report config = .ok decision) ↔
      ((∃ x, getMetric baseline.metrics "ndcg@10" = .ok x) ∧
        (∃ x, getMetric reranker.metrics "ndcg@10" = .ok x) ∧
        (∃ x, getMetric baseline.metrics "precision@5" = .ok x) ∧
        (∃ x, getMetric reranker.metrics "precision@5" = .ok x)) ∧
      ∀ questionType ∈ config.decisionPolicy.criticalQuestionTypes,
        ∃ result, criticalResult round6 config.decisionPolicy baseline reranker questionType =
          .ok result := by
  unfold buildDecision
  dsimp only
  rw [comparedRun_eq_ok.mpr hcomplete.baselineRun, comparedRun_eq_ok.mpr hcomplete.rerankerRun]
  constructor
  · rintro ⟨decision, h⟩
    obtain ⟨_, h₁, h⟩ := bind_eq_ok.mp h
    obtain ⟨_, h₂, h⟩ := bind_eq_ok.mp h
    obtain rfl := Except.ok.inj h₁
    obtain rfl := Except.ok.inj h₂
    obtain ⟨w, hw, h⟩ := bind_eq_ok.mp h
    obtain ⟨x, hx, h⟩ := bind_eq_ok.mp h
    obtain ⟨y, hy, h⟩ := bind_eq_ok.mp h
    obtain ⟨z, hz, h⟩ := bind_eq_ok.mp h
    obtain ⟨results, hresults, -⟩ := bind_eq_ok.mp h
    refine ⟨⟨⟨w, hw⟩, ⟨x, hx⟩, ⟨y, hy⟩, z, hz⟩, fun questionType hmem => ?_⟩
    obtain ⟨i, hi⟩ := List.mem_iff_getElem?.mp hmem
    have hget := mapM_getElem? hresults i
    rw [hi] at hget
    cases hresult : results[i]? with
    | none => rw [hresult] at hget; cases hget
    | some result =>
      rw [hresult] at hget
      exact ⟨result, Option.some.inj hget⟩
  · rintro ⟨⟨⟨w, hw⟩, ⟨x, hx⟩, ⟨y, hy⟩, z, hz⟩, hcritical⟩
    obtain ⟨results, hresults⟩ := exists_mapM_ok hcritical
    refine exists_bind_eq_ok.mpr
      ⟨_, rfl, exists_bind_eq_ok.mpr ⟨_, rfl, exists_bind_eq_ok.mpr ⟨w, hw, ?_⟩⟩⟩
    refine exists_bind_eq_ok.mpr
      ⟨x, hx, exists_bind_eq_ok.mpr ⟨y, hy, exists_bind_eq_ok.mpr ⟨z, hz, ?_⟩⟩⟩
    exact exists_bind_eq_ok.mpr ⟨results, hresults, _, rfl⟩

theorem exists_buildDecision_iff_available {config : FixedCrossEncoderConfig}
    {allItems : List EvaluationItemV1} {report : MetricsReport R}
    (hcomplete : Complete config report baseline reranker)
    (hbaseline : RunOn log2 round6
      (allItems.filter fun item => decide (item.split = config.decisionPolicy.primarySplit))
        config.metricKValues baseline)
    (hreranker : RunOn log2 round6
      (allItems.filter fun item => decide (item.split = config.decisionPolicy.primarySplit))
        config.metricKValues reranker) :
    (∃ decision, buildDecision round6 report config = .ok decision) ↔
    MetricsAvailable config allItems := by
  have hndcg : "ndcg@10" = "ndcg" ++ "@" ++ Int.repr 10 := by decide
  have hprecision : "precision@5" = "precision" ++ "@" ++ Int.repr 5 := by decide
  rw [exists_buildDecision_iff hcomplete, hndcg, hprecision,
    hbaseline.getMetric_iff (by decide) (by decide), hreranker.getMetric_iff (by decide)
      (by decide), hbaseline.getMetric_iff (by decide) (by decide),
    hreranker.getMetric_iff (by decide) (by decide)]
  have hcritical : ∀ questionType ∈ config.decisionPolicy.criticalQuestionTypes,
      _ := fun questionType hmem =>
    criticalResult_iff hbaseline hreranker config.decisionPolicy
      (hcomplete.critical questionType hmem).1 (hcomplete.critical questionType hmem).2
  obtain ⟨first, hfirst⟩ := List.exists_mem_of_ne_nil _ config.decisionPolicy.criticalNonempty
  constructor
  · rintro ⟨⟨-, -, ⟨hfive, -⟩, -⟩, hresults⟩
    exact ⟨hfive, ((hcritical first hfirst).mp (hresults first hfirst)).1, fun questionType hmem =>
      ((hcritical questionType hmem).mp (hresults questionType hmem)).2⟩
  · intro h
    obtain ⟨item, hitem, -⟩ := h.criticalEligible first hfirst
    have heligible := List.ne_nil_of_mem hitem
    have hten : ∃ k ∈ config.metricKValues, k.value = 10 :=
      ⟨_, largest_mem config.metricKNonempty, h.largestIs10⟩
    refine ⟨⟨⟨hten, heligible⟩, ⟨hten, heligible⟩, ⟨h.precisionAt5, heligible⟩, h.precisionAt5,
      heligible⟩, fun questionType hmem => ?_⟩
    exact (hcritical questionType hmem).mpr ⟨h.largestIs10, h.criticalEligible questionType hmem⟩

/-- A configuration can be decided on a report with its cutoffs exactly if 5 is a cutoff, 10 is the
largest one and every critical question type has an eligible item in the primary split. -/
theorem buildDecision_iff {config : FixedCrossEncoderConfig} {datasetVersion : Identifier}
    {allItems : List EvaluationItemV1} {runs : List (String × List RetrievalRankingResultV1)}
    {report : MetricsReport R}
    (hreport : buildMetricsReport log2 round6 datasetVersion allItems runs
      config.decisionPolicy.primarySplit config.metricKValues = .ok report)
    (hcomplete : Complete config report baseline reranker) :
    (∃ decision, buildDecision round6 report config = .ok decision) ↔
    MetricsAvailable config allItems :=
  exists_buildDecision_iff_available hcomplete (runOn_of_report hreport hcomplete.baselineRun)
    (runOn_of_report hreport hcomplete.rerankerRun)

omit [Field R] [LinearOrder R] in
theorem exists_complete {config : FixedCrossEncoderConfig} {report : MetricsReport R}
    (h : ((report.runs.lookup config.decisionPolicy.baselineBackend).any fun baseline =>
      (report.runs.lookup rerankerLabel).any fun reranker =>
        config.decisionPolicy.criticalQuestionTypes.all fun questionType =>
        (baseline.byQuestionType.lookup questionType).isSome &&
          (reranker.byQuestionType.lookup questionType).isSome) = true) :
    ∃ baseline reranker, Complete config report baseline reranker := by
  cases hbaseline : report.runs.lookup config.decisionPolicy.baselineBackend with
  | none => rw [hbaseline] at h; cases h
  | some baseline =>
    cases hreranker : report.runs.lookup rerankerLabel with
    | none => rw [hbaseline, hreranker] at h; cases h
    | some reranker =>
      rw [hbaseline, hreranker] at h
      exact ⟨baseline, reranker, hbaseline, hreranker, fun questionType hmem =>
        Bool.and_eq_true_iff.mp (List.all_eq_true.mp h questionType hmem)⟩

end

/-! ### Two configurations -/

/-- The decoded file of a configuration with these cutoffs. -/
def configJson (kValues : List Int) : JsonValue :=
  .object [("schema_version", .str "fixed_cross_encoder_config_v1"), ("run_id", .str "run_1"),
    ("candidate_backend", .str "local_rrf"), ("candidate_top_k", .int 20),
    ("output_top_k", .int 20), ("evaluation_splits", .array [.str "dev"]),
    ("metric_k_values", .array (kValues.map .int)),
    ("model", .object [("provider", .str "sentence_transformers_cross_encoder"),
      ("model_id", .str "reranker"), ("revision", .str "main"), ("max_length", .int 512),
      ("batch_size", .int 16), ("device", .str "cpu"), ("trust_remote_code", .bool false),
      ("input_template", .str "question_title_section_text_v1")]),
    ("decision_policy",
      .object [("primary_split", .str "dev"), ("baseline_backend", .str "local_rrf"),
        ("minimum_relative_ndcg_at_10_gain", .int 0), ("minimum_precision_at_5_delta", .int 0),
      ("critical_question_types", .array [.str "exact_lookup"]),
      ("maximum_critical_ndcg_at_10_regression", .int 0)])]

/-- The ranking of `secondPlace` under a label. -/
def rankingUnder (label : String) : String × List RetrievalRankingResultV1 :=
  (label, [{ secondPlace with
    backend := fixedId label
    topK := 20
    topKFromOne := by decide
    withinTopK := by decide }])

def fixedRuns : List (String × List RetrievalRankingResultV1) :=
  [rankingUnder "local_rrf", rankingUnder "fixed_cross_encoder"]

/-- The report on one item, over the rational numbers. -/
def fixedReport (kValues : List PyInt) : Except PyError (MetricsReport Rat) :=
  buildMetricsReport (fun n => n.log2) id (fixedId "local-v1") [answerableItem] fixedRuns
    .dev kValues

/-- The configuration is accepted, its report is complete, and this is true of both. -/
def OnFixedReport (kValues : List Int)
    (p : FixedCrossEncoderConfig → MetricsReport Rat → Prop) : Prop :=
  ∃ config report baseline reranker, loadConfig (configJson kValues) = .ok config ∧
    fixedReport config.metricKValues = .ok report ∧ Complete config report baseline reranker ∧
    p config report

/-- `OnFixedReport` by evaluation; what is evaluated of the pair is handed to the proof of the
property. -/
theorem onFixedReport {kValues : List Int} {p : FixedCrossEncoderConfig → MetricsReport Rat → Prop}
    (check : FixedCrossEncoderConfig → MetricsReport Rat → Bool)
    (h : (match loadConfig (configJson kValues) with
      | .error _ => false
      | .ok config =>
        match fixedReport config.metricKValues with
        | .error _ => false
        | .ok report => check config report &&
            (report.runs.lookup config.decisionPolicy.baselineBackend).any fun baseline =>
            (report.runs.lookup rerankerLabel).any fun reranker =>
              config.decisionPolicy.criticalQuestionTypes.all fun questionType =>
              (baseline.byQuestionType.lookup questionType).isSome &&
                (reranker.byQuestionType.lookup questionType).isSome) = true)
    (hp : ∀ config report baseline reranker, check config report = true →
      fixedReport config.metricKValues = .ok report → Complete config report baseline reranker →
      p config report) : OnFixedReport kValues p := by
  cases hconfig : loadConfig (configJson kValues) with
  | error e => rw [hconfig] at h; cases h
  | ok config =>
    rw [hconfig] at h
    change (match fixedReport config.metricKValues with | .error _ => false | .ok report => _) =
      true at h
    cases hreport : fixedReport config.metricKValues with
    | error e => rw [hreport] at h; cases h
    | ok report =>
      rw [hreport] at h
      obtain ⟨hcheck, h⟩ := Bool.and_eq_true_iff.mp h
      obtain ⟨baseline, reranker, hcomplete⟩ := exists_complete h
      exact ⟨config, report, baseline, reranker, hconfig, hreport, hcomplete,
        hp config report baseline reranker hcheck hreport hcomplete⟩

/-- With 5 and 10 the decision is made. -/
theorem buildDecision_iff_five_ten : OnFixedReport [5, 10] fun config report =>
    (buildDecision id report config).isOk = true ∧
      ((∃ decision, buildDecision id report config = .ok decision) ↔
        MetricsAvailable config [answerableItem]) := by
  refine onFixedReport
    (fun config report => decide (config.decisionPolicy.primarySplit.val = .dev) &&
      (buildDecision id report config).isOk)
    (by decide +kernel) fun config report baseline reranker hcheck hreport hcomplete => ?_
  obtain ⟨hsplit, hdecided⟩ := Bool.and_eq_true_iff.mp hcheck
  unfold fixedReport at hreport
  rw [← of_decide_eq_true hsplit] at hreport
  exact ⟨hdecided, buildDecision_iff hreport hcomplete⟩

/-- With 5 alone the configuration is accepted, and the decision fails on a complete report. -/
theorem five_undecided : OnFixedReport [5] fun config report => ∀ decision,
    buildDecision id report config ≠ .ok decision := by
  refine onFixedReport (fun config report => !(buildDecision id report config).isOk)
    (by decide +kernel) fun config report baseline reranker hcheck hreport hcomplete decision
      hdecision => ?_
  rw [hdecision] at hcheck
  cases hcheck

end ZhiyanRag.Evaluation
