import ZhiyanRag.Evaluation.RetrievalMetrics
import ZhiyanRag.Lib.Delimiters
import Mathlib.Data.List.Dedup
import Std.Data.String.ToInt

/-!
# The metrics report

`_aggregate_backend` and `build_metrics_report` of `retrieval_metrics.py`: the mean scores of a run
under names that contain the cutoffs. A mean without values is null (`getMetric_of_run`,
`getMetric_of_type`).
-/

namespace ZhiyanRag.Evaluation

/-- A Python `int`, which `True` and `False` are. -/
structure PyInt where
  value : Int
  isBool : Bool
  boolRange : isBool = true → value = 0 ∨ value = 1
  deriving DecidableEq

/-- `str(number)`. -/
def PyInt.text (number : PyInt) : String :=
  if number.isBool then if number.value = 1 then "True" else "False" else number.value.repr

/-- The strings of the question types. -/
def QuestionType.text : QuestionType → String
  | exactLookup => "exact_lookup"
  | singleDocumentFact => "single_document_fact"
  | singleDocumentExplanation => "single_document_explanation"
  | crossDocumentSemantic => "cross_document_semantic"
  | comparison => "comparison"
  | multiHop => "multi_hop"
  | teachingExplanation => "teaching_explanation"
  | standardsFreshness => "standards_freshness"
  | noAnswerEvidenceInsufficient => "no_answer_evidence_insufficient"
  | adversarialSecurity => "adversarial_security"

theorem QuestionType.text_injective : Function.Injective text := by
  intro a b h
  cases a <;> cases b <;> first | rfl | exact absurd h (by decide)

/-- A dictionary of metrics; `None` is a metric without values. -/
abbrev Metrics (R : Type) := List (String × Option R)

/-- `float(metrics[name])`. -/
def getMetric {R : Type} (metrics : Metrics R) (name : String) : Except PyError R :=
  match metrics.lookup name with
  | none => .error ⟨.lookupError, name⟩
  | some none =>
    .error ⟨.typeError, "float() argument must be a string or a real number, not 'NoneType'"⟩
  | some (some value) => .ok value

/-- An entry of `by_question_type`. -/
structure TypeMetrics (R : Type) where
  eligibleCount : Nat
  metrics : Metrics R

/-- What `_aggregate_backend` returns. -/
structure RunReport (R : Type) where
  caseCount : Nat
  answerableMetricCount : Nat
  metrics : Metrics R
  byQuestionType : List (String × TypeMetrics R)

/-- `str` of a list of identifiers. -/
def listText (ids : List Identifier) : String :=
  "[" ++ ", ".intercalate (ids.map fun id => "'" ++ id.val ++ "'") ++ "]"

/-- `sorted` of a set of identifiers. -/
def sortedIds (ids : List Identifier) : List Identifier :=
  ids.dedup.insertionSort fun a b => a.val ≤ b.val

/-- `max(k_values)` of a sorted list. -/
def largest (kValues : List PyInt) : PyInt := kValues.getLast?.getD ⟨0, false, by decide⟩

section

variable {R : Type} [Field R] [DecidableEq R] (log2 : Nat → R) (round6 : R → R)

/-- `_round(_mean(values))`. -/
def roundedMean (values : List R) : Option R :=
  if values = [] then none else some (round6 (values.sum / values.length))

/-- `_round(count / len(of))`, if there is something to divide by. -/
def roundedRate (count of : Nat) : Option R := if of = 0 then none else some (round6 (count / of))

def metricName (metric : String) (k : PyInt) : String := metric ++ "@" ++ k.text

/-- `eligible`. -/
def eligibleItems (items : List EvaluationItemV1) : List EvaluationItemV1 :=
  items.filter fun item => item.answerability.needsSupport

/-- The score of an item under its ranking; an item has one, since the coverage is checked before.
-/
def scoreOf (results : List RetrievalRankingResultV1) (score : RankingScores R → R) (k : PyInt)
    (item : EvaluationItemV1) : R :=
  ((results.find? fun result => decide (result.questionId = item.questionId)).map fun result =>
    score (rankingScores log2 item result k.value.toNat)).getD 0

/-- `_round(_mean(metric_values[k][metric]))`. -/
def meanScore (results : List RetrievalRankingResultV1) (items : List EvaluationItemV1)
    (score : RankingScores R → R) (k : PyInt) : Option R :=
  roundedMean round6 (items.map (scoreOf log2 results score k))

/-- The four metrics of a cutoff. -/
def metricsAt (results : List RetrievalRankingResultV1) (items : List EvaluationItemV1)
    (k : PyInt) : Metrics R :=
  [(metricName "recall" k, meanScore log2 round6 results items RankingScores.recallAt k),
    (metricName "precision" k, meanScore log2 round6 results items RankingScores.precision k),
    (metricName "mrr" k, meanScore log2 round6 results items RankingScores.mrr k),
    (metricName "ndcg" k, meanScore log2 round6 results items RankingScores.ndcg k)]

/-- `by_question[item.question_id].decision`. -/
def decided (results : List RetrievalRankingResultV1) (decision : RetrievalDecision)
    (item : EvaluationItemV1) : Bool :=
  (results.find? fun result => decide (result.questionId = item.questionId)).any fun result =>
    decide (result.decision = decision)

/-- The metrics of the refusals. The latency percentiles, which nothing below reads, are left out.
-/
def refusalMetrics (results : List RetrievalRankingResultV1) (items : List EvaluationItemV1) :
    Metrics R :=
  let predictedNoEvidence := items.filter (decided results .noEvidence)
  let noEvidenceItems := items.filter fun item => decide (item.answerability = .noEvidence)
  let forbiddenItems := items.filter fun item => decide (item.answerability = .forbidden)
  let wrongRefusals := (eligibleItems items).filter fun item => !decided results .evidenceFound item
  [("no_answer_detection_recall",
      roundedRate round6 (noEvidenceItems.filter (decided results .noEvidence)).length
        noEvidenceItems.length),
    ("refusal_precision",
      roundedRate round6
        (predictedNoEvidence.filter fun item => decide (item.answerability = .noEvidence)).length
          predictedNoEvidence.length),
    ("answerable_wrong_refusal_rate",
      roundedRate round6 wrongRefusals.length (eligibleItems items).length),
    ("forbidden_block_rate",
      roundedRate round6 (forbiddenItems.filter (decided results .forbidden)).length
        forbiddenItems.length)]

/-- `{value for item in items for value in item.question_types}`. -/
def typesOf (items : List EvaluationItemV1) : List QuestionType :=
  (items.flatMap (·.questionTypes)).dedup

/-- The entry of a question type. -/
def typeMetrics (results : List RetrievalRankingResultV1) (items : List EvaluationItemV1)
    (kValues : List PyInt) (type : QuestionType) : TypeMetrics R :=
  let selected := (eligibleItems items).filter fun item => decide (type ∈ item.questionTypes)
  { eligibleCount := selected.length
    metrics := [(metricName "recall" (largest kValues),
      meanScore log2 round6 results selected RankingScores.recallAt (largest kValues)),
      (metricName "ndcg" (largest kValues),
        meanScore log2 round6 results selected RankingScores.ndcg (largest kValues))] }

/-- `_aggregate_backend`. -/
def aggregateBackend (items : List EvaluationItemV1) (results : List RetrievalRankingResultV1)
    (kValues : List PyInt) : Except PyError (RunReport R) := do
  let found := results.map (·.questionId)
  let expected := items.map (·.questionId)
  let missing := listText (sortedIds (expected.filter fun id => decide (id ∉ found)))
  let extra := listText (sortedIds (found.filter fun id => decide (id ∉ expected)))
  ensure (decide ((∀ id ∈ found, id ∈ expected) ∧ (∀ id ∈ expected, id ∈ found) ∧ found.Nodup))
    .valueError ("ranking coverage mismatch; missing=" ++ missing ++ ", extra=" ++ extra)
  ensure (decide ((results.map (·.runId)).dedup.length = 1)) .valueError
    "ranking results must belong to exactly one run_id"
  ensure (results.all fun result => decide ((largest kValues).value ≤ result.topK)) .valueError
    "every ranking result top_k must cover the largest requested K"
  return {
    caseCount := items.length
    answerableMetricCount := (eligibleItems items).length
    metrics := kValues.flatMap (metricsAt log2 round6 results (eligibleItems items)) ++
      refusalMetrics round6 results items
    byQuestionType := ((typesOf items).insertionSort fun a b => a.text ≤ b.text).map fun type =>
      (type.text, typeMetrics log2 round6 results items kValues type) }

/-- What the decision reads of the report of `build_metrics_report`. -/
structure MetricsReport (R : Type) where
  runs : List (String × RunReport R)

/-- `build_metrics_report`, given what it loads: the version and the items of the manifest, and the
rankings of each label. -/
def buildMetricsReport (datasetVersion : Identifier) (allItems : List EvaluationItemV1)
    (runs : List (String × List RetrievalRankingResultV1)) (split : DatasetSplit)
    (kValues : List PyInt) :
    Except PyError (MetricsReport R) := do
  let items := allItems.filter fun item => decide (item.split = split)
  ensure (!items.isEmpty) .valueError ("evaluation split has no items: " ++ split.text)
  let reports ← (runs.insertionSort fun a b => a.1 ≤ b.1).mapM fun run => do
    let selected := run.2.filter fun result => decide (result.questionId ∈ items.map (·.questionId))
    ensure (selected.all fun result => decide (result.datasetVersion = datasetVersion)) .valueError
      "ranking dataset_version does not match manifest"
    ensure (selected.all fun result => decide (result.backend.val = run.1)) .valueError
      ("ranking backend does not match --run label: " ++ run.1)
    let report ← aggregateBackend log2 round6 items selected kValues
    return (run.1, report)
  return ⟨reports⟩

/-! ### Which metrics are there -/

theorem text_eq_repr_iff {k : PyInt} {n : Int} (hn : 2 ≤ n) : k.text = n.repr ↔ k.value = n := by
  unfold PyInt.text
  by_cases hbool : k.isBool = true
  · have hrange := k.boolRange hbool
    have htext : (if k.value = 1 then "True" else "False") ≠ n.repr := by
      obtain ⟨m, rfl⟩ := Int.eq_ofNat_of_zero_le (by omega : 0 ≤ n)
      have hdigits : ∀ c ∈ (Int.repr m).toList, c.isDigit = true := fun c hc =>
        Nat.isDigit_of_mem_toDigits (by decide) (by decide)
          (Nat.toList_repr ▸ hc : c ∈ Nat.toDigits 10 m)
      intro heq
      rw [← heq] at hdigits
      split at hdigits
      · exact absurd (hdigits 'T' (by decide)) (by decide)
      · exact absurd (hdigits 'F' (by decide)) (by decide)
    rw [if_pos hbool]
    exact ⟨fun h => absurd h htext, fun h => by omega⟩
  · rw [if_neg hbool]
    exact Int.repr_inj

theorem metricName_inj {metric metric' text text' : String} (h : '@' ∉ metric.toList)
    (h' : '@' ∉ metric'.toList) :
    metric ++ "@" ++ text = metric' ++ "@" ++ text' ↔ metric = metric' ∧ text = text' := by
  refine ⟨fun heq => ?_, fun heq => by rw [heq.1, heq.2]⟩
  have hlist := congrArg String.toList heq
  simp only [String.toList_append, List.append_assoc] at hlist
  change metric.toList ++ '@' :: text.toList = metric'.toList ++ '@' :: text'.toList at hlist
  obtain ⟨hmetric, htext⟩ := Delimiters.append_cons_inj h h' hlist
  exact ⟨String.toList_injective hmetric, String.toList_injective htext⟩

omit [Field R] [DecidableEq R] in
theorem exists_getMetric_iff {metrics : Metrics R} {name : String} :
    (∃ x, getMetric metrics name = .ok x) ↔ ∃ x, metrics.lookup name = some (some x) := by
  unfold getMetric
  constructor
  · rintro ⟨x, hx⟩
    split at hx
    · cases hx
    · cases hx
    · rename_i value hvalue
      exact ⟨value, hvalue⟩
  · rintro ⟨x, hx⟩
    rw [hx]
    exact ⟨x, rfl⟩

omit [Field R] [DecidableEq R] in
/-- If the entries of a name all have a value, or none has one, it is enough that there is an entry.
-/
theorem exists_getMetric_iff_of_entries {metrics : Metrics R} {name : String} (defined : Prop)
    (h : ∀ entry ∈ metrics, entry.1 = name → (entry.2.isSome = true ↔ defined)) :
    (∃ x, getMetric metrics name = .ok x) ↔ (∃ entry ∈ metrics, entry.1 = name) ∧ defined := by
  rw [exists_getMetric_iff]
  constructor
  · rintro ⟨x, hx⟩
    obtain ⟨before, after, rfl, -⟩ := List.lookup_eq_some_iff.mp hx
    have hmem : (name, some x) ∈ before ++ (name, some x) :: after :=
      List.mem_append_right _ List.mem_cons_self
    exact ⟨⟨_, hmem, rfl⟩, (h _ hmem rfl).mp rfl⟩
  · rintro ⟨⟨entry, hmem, hname⟩, hdefined⟩
    cases hlookup : metrics.lookup name with
    | none =>
      have hne := List.lookup_eq_none_iff.mp hlookup entry hmem
      rw [hname] at hne
      simp at hne
    | some value =>
      obtain ⟨before, after, rfl, -⟩ := List.lookup_eq_some_iff.mp hlookup
      have hsome := (h (name, value) (List.mem_append_right _ List.mem_cons_self) rfl).mpr hdefined
      obtain ⟨x, rfl⟩ := Option.isSome_iff_exists.mp hsome
      exact ⟨x, rfl⟩

theorem meanScore_isSome {results : List RetrievalRankingResultV1} {items : List EvaluationItemV1}
    {score : RankingScores R → R} {k : PyInt} :
    (meanScore log2 round6 results items score k).isSome = true ↔ items ≠ [] := by
  unfold meanScore roundedMean
  by_cases h : items = []
  · simp [h]
  · simp [h]

/-- The names of the metrics with a cutoff. -/
def cutoffMetrics : List String := ["recall", "precision", "mrr", "ndcg"]

def refusalNames : List String :=
  ["no_answer_detection_recall", "refusal_precision", "answerable_wrong_refusal_rate",
    "forbidden_block_rate"]

theorem at_notMem_refusalNames {name : String} (h : name ∈ refusalNames) : '@' ∉ name.toList := by
  have hall : refusalNames.all (fun name => !name.toList.contains '@') = true := by decide
  simpa using List.all_eq_true.mp hall name h

theorem at_notMem_cutoffMetrics {metric : String} (h : metric ∈ cutoffMetrics) :
    '@' ∉ metric.toList := by
  have hall : cutoffMetrics.all (fun metric => !metric.toList.contains '@') = true := by decide
  simpa using List.all_eq_true.mp hall metric h

/-- A run has a metric at a cutoff if the cutoff is configured, and it is null if no item is
eligible. -/
theorem getMetric_of_run {results : List RetrievalRankingResultV1} {items : List EvaluationItemV1}
    {kValues : List PyInt} {metric : String} {n : Int} (hmetric : metric ∈ cutoffMetrics)
    (hn : 2 ≤ n) :
    (∃ x, getMetric (kValues.flatMap (metricsAt log2 round6 results (eligibleItems items)) ++
        refusalMetrics round6 results items) (metric ++ "@" ++ n.repr) = .ok x) ↔
      (∃ k ∈ kValues, k.value = n) ∧ eligibleItems items ≠ [] := by
  have hat := at_notMem_cutoffMetrics hmetric
  have hentry : ∀ k, ∀ entry ∈ metricsAt log2 round6 results (eligibleItems items) k,
      (∃ metric' ∈ cutoffMetrics, entry.1 = metricName metric' k) ∧
      (entry.2.isSome = true ↔ eligibleItems items ≠ []) := by
    intro k entry hmem
    unfold metricsAt at hmem
    simp only [List.mem_cons, List.not_mem_nil, or_false] at hmem
    rcases hmem with rfl | rfl | rfl | rfl <;>
      exact ⟨⟨_, by decide, rfl⟩, meanScore_isSome log2 round6⟩
  have hrefusal : ∀ entry ∈ refusalMetrics round6 results items, entry.1 ≠ metric ++ "@" ++
      n.repr := by
    intro entry hmem heq
    have hname : entry.1 ∈ refusalNames := List.mem_map_of_mem (f := Prod.fst) hmem
    refine at_notMem_refusalNames hname ?_
    rw [heq]
    simp
  rw [exists_getMetric_iff_of_entries (eligibleItems items ≠ [])]
  · refine and_congr_left fun _ => ?_
    constructor
    · rintro ⟨entry, hmem, hname⟩
      rcases List.mem_append.mp hmem with hmem | hmem
      · obtain ⟨k, hk, hmem⟩ := List.mem_flatMap.mp hmem
        obtain ⟨⟨metric', hmetric', hname'⟩, -⟩ := hentry k entry hmem
        rw [hname'] at hname
        exact ⟨k, hk, (text_eq_repr_iff hn).mp
          ((metricName_inj (at_notMem_cutoffMetrics hmetric') hat).mp hname).2⟩
      · exact absurd hname (hrefusal entry hmem)
    · rintro ⟨k, hk, hvalue⟩
      have hname : metricName metric k = metric ++ "@" ++ n.repr := by
        unfold metricName
        rw [(text_eq_repr_iff hn).mpr hvalue]
      rw [← hname]
      have hin : metricName metric k ∈ (metricsAt log2 round6 results (eligibleItems items) k).map
          (·.1) :=
        List.mem_map_of_mem (f := fun metric => metricName metric k) hmetric
      obtain ⟨entry, hmem, heq⟩ := List.mem_map.mp hin
      exact ⟨entry, List.mem_append_left _ (List.mem_flatMap.mpr ⟨k, hk, hmem⟩), heq⟩
  · intro entry hmem hname
    rcases List.mem_append.mp hmem with hmem | hmem
    · obtain ⟨k, -, hmem⟩ := List.mem_flatMap.mp hmem
      exact (hentry k entry hmem).2
    · exact absurd hname (hrefusal entry hmem)

/-- The entry of a question type has the discounted gain at the largest cutoff only, and it is null
if no eligible item has the type. -/
theorem getMetric_of_type {results : List RetrievalRankingResultV1} {items : List EvaluationItemV1}
    {kValues : List PyInt} {type : QuestionType} {n : Int} (hn : 2 ≤ n) :
    (∃ x, getMetric (typeMetrics log2 round6 results items kValues type).metrics ("ndcg" ++ "@" ++
      n.repr) = .ok x) ↔ (largest kValues).value = n ∧ ∃ item ∈ eligibleItems items,
        type ∈ item.questionTypes := by
  have hselected :
      ((eligibleItems items).filter fun item => decide (type ∈ item.questionTypes)) ≠ [] ↔
      ∃ item ∈ eligibleItems items, type ∈ item.questionTypes := by
    rw [Ne, List.filter_eq_nil_iff]
    simp
  rw [exists_getMetric_iff_of_entries (∃ item ∈ eligibleItems items, type ∈ item.questionTypes)]
  · refine and_congr_left fun _ => ?_
    unfold typeMetrics metricName
    simp only [List.mem_cons, List.not_mem_nil, or_false, exists_eq_or_imp, exists_eq_left]
    rw [metricName_inj (by decide) (by decide), metricName_inj (by decide) (by decide),
      text_eq_repr_iff hn]
    constructor
    · rintro (⟨h, -⟩ | ⟨-, h⟩)
      · exact absurd h (by decide)
      · exact h
    · exact fun h => .inr ⟨rfl, h⟩
  · intro entry hmem _
    rw [← hselected]
    unfold typeMetrics at hmem
    simp only [List.mem_cons, List.not_mem_nil, or_false] at hmem
    rcases hmem with rfl | rfl <;> exact meanScore_isSome log2 round6

end

end ZhiyanRag.Evaluation
