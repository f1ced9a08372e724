import ZhiyanRag.Evaluation.FormalCorpus

/-!
# Corpora that are ready to be locked

What `validate_corpus` has checked when it returns (`accepted_of_validateCorpus`), and the blockers
it returns (`report_blockers`). A corpus without blockers has labels that humans gave and does not
leak (`lockReady_sound`).
-/

namespace ZhiyanRag.Evaluation

variable {manifest : EvaluationManifestV1} {items : List EvaluationItemV1}
  {annotations : List AnnotationRecordV1} {report : ValidationReport} {item : EvaluationItemV1}
  {record parent : AnnotationRecordV1}

/-! ### What is checked -/

/-- The records that an item names are about it. -/
def RecordsAbout (manifest : EvaluationManifestV1) (annotations : List AnnotationRecordV1)
    (item : EvaluationItemV1) : Prop :=
  ∀ annotationId ∈ item.annotationRecordIds, ∀ record,
    annotationById annotations annotationId = some record → record.questionId = item.questionId ∧
    record.datasetVersion = manifest.datasetVersion

/-- The blockers of an item whose records are about it. -/
def blockersOf (manifest : EvaluationManifestV1) (annotations : List AnnotationRecordV1)
    (item : EvaluationItemV1) : List Blocker :=
  (item.annotationRecordIds.filter
      fun annotationId => (annotationById annotations annotationId).isNone).map
        (.missingRecord item.questionId) ++
    (failedChecks manifest annotations item).map (.item item.questionId)

/-- The blockers of a corpus. -/
def corpusBlockers (manifest : EvaluationManifestV1) (items : List EvaluationItemV1)
    (annotations : List AnnotationRecordV1) : List Blocker :=
  sizeBlockers manifest items ++ splitBlockers manifest items ++ stratumBlockers manifest items ++
    items.flatMap (blockersOf manifest annotations)

/-- What is true of a corpus for which a report is returned. -/
structure Accepted (manifest : EvaluationManifestV1) (items : List EvaluationItemV1)
    (annotations : List AnnotationRecordV1) : Prop where
  questionIdsUnique : (items.map (·.questionId)).Nodup
  itemVersions : ∀ item ∈ items, item.datasetVersion = manifest.datasetVersion
  notLeaking : leakingGroups items = []
  annotationIdsUnique : (annotations.map (·.annotationId)).Nodup
  referenced : ∀ record ∈ annotations, ∃ item ∈ items,
    record.annotationId ∈ item.annotationRecordIds
  annotationsChecked : ∀ record ∈ annotations,
    checkRecord manifest (items.map (·.questionId)) annotations record = .ok ()
  recordsAbout : ∀ item ∈ items, RecordsAbout manifest annotations item

theorem itemRecord_eq_ok {annotationId : Identifier} {found : Option AnnotationRecordV1} :
    itemRecord manifest annotations item annotationId = .ok found ↔
      found = annotationById annotations annotationId ∧ ∀ record,
        annotationById annotations annotationId = some record →
        record.questionId = item.questionId ∧ record.datasetVersion = manifest.datasetVersion := by
  unfold itemRecord
  cases hfound : annotationById annotations annotationId with
  | none => simp [eq_comm]
  | some record =>
    by_cases hquestion : record.questionId = item.questionId
    · by_cases hversion : record.datasetVersion = manifest.datasetVersion
      · simp [hquestion, hversion, eq_comm]
      · simp [hquestion, hversion]
    · simp [hquestion]

theorem itemBlockers_eq_ok {blockers : List Blocker} :
    itemBlockers manifest annotations item = .ok blockers ↔
      RecordsAbout manifest annotations item ∧ blockers = blockersOf manifest annotations item := by
  have hstep : ∀ annotationId entry,
      (do return (annotationId, ← itemRecord manifest annotations item annotationId) : Except
        PyError (Identifier × Option AnnotationRecordV1)) = .ok entry ↔
        (∀ record, annotationById annotations annotationId = some record →
          record.questionId = item.questionId ∧ record.datasetVersion = manifest.datasetVersion) ∧
        entry = (annotationId, annotationById annotations annotationId) := by
    intro annotationId entry
    rw [bind_eq_ok]
    constructor
    · rintro ⟨found, hfound, hentry⟩
      obtain ⟨rfl, habout⟩ := itemRecord_eq_ok.mp hfound
      exact ⟨habout, (pure_eq_ok.mp hentry).symm⟩
    · rintro ⟨habout, rfl⟩
      exact ⟨_, itemRecord_eq_ok.mpr ⟨rfl, habout⟩, rfl⟩
  have hmap : ∀ (ids : List Identifier) found, ids.mapM (fun annotationId => do
        return (annotationId, ← itemRecord manifest annotations item annotationId) :
          Identifier → Except PyError (Identifier × Option AnnotationRecordV1)) = .ok found ↔
      (∀ annotationId ∈ ids, ∀ record, annotationById annotations annotationId = some record →
        record.questionId = item.questionId ∧ record.datasetVersion = manifest.datasetVersion) ∧
      found = ids.map fun annotationId =>
        (annotationId, annotationById annotations annotationId) := by
    intro ids
    induction ids with
    | nil =>
      intro found
      rw [List.mapM_nil, pure_eq_ok]
      simp [eq_comm]
    | cons id ids ih =>
      intro found
      rw [List.mapM_cons, bind_eq_ok]
      simp only [bind_eq_ok, pure_eq_ok, hstep, ih, List.forall_mem_cons, List.map_cons]
      constructor
      · rintro ⟨_, ⟨hfirst, rfl⟩, _, ⟨hrest, rfl⟩, rfl⟩
        exact ⟨⟨hfirst, hrest⟩, rfl⟩
      · rintro ⟨⟨hfirst, hrest⟩, rfl⟩
        exact ⟨_, ⟨hfirst, rfl⟩, _, ⟨hrest, rfl⟩, rfl⟩
  have hmissing : ∀ ids : List Identifier,
      (ids.map fun annotationId =>
        (annotationId, annotationById annotations annotationId)).filterMap (fun entry =>
          if entry.2.isNone then some (Blocker.missingRecord item.questionId entry.1) else none) =
      (ids.filter fun annotationId => (annotationById annotations annotationId).isNone).map
        (.missingRecord item.questionId) := by
    intro ids
    induction ids with
    | nil => rfl
    | cons id ids ih =>
      rw [List.map_cons, List.filterMap_cons, ih]
      by_cases hnone : (annotationById annotations id).isNone = true
      · simp [hnone]
      · simp [hnone]
  unfold itemBlockers RecordsAbout blockersOf
  rw [bind_eq_ok]
  simp only [hmap, pure_eq_ok]
  constructor
  · rintro ⟨found, ⟨habout, rfl⟩, rfl⟩
    exact ⟨habout, by rw [hmissing]⟩
  · rintro ⟨habout, rfl⟩
    exact ⟨_, ⟨habout, rfl⟩, by rw [hmissing]⟩

theorem mapM_itemBlockers {perItem : List (List Blocker)}
    (h : items.mapM (itemBlockers manifest annotations) = .ok perItem) :
    perItem.flatten = items.flatMap (blockersOf manifest annotations) ∧ ∀ item ∈ items,
      RecordsAbout manifest annotations item := by
  induction mapM_eq_ok.mp h with
  | nil => simp
  | cons hfirst hrest ih =>
    obtain ⟨habout, rfl⟩ := itemBlockers_eq_ok.mp hfirst
    obtain ⟨hflatten, hall⟩ := ih (mapM_eq_ok.mpr hrest)
    rw [List.flatten_cons, List.flatMap_cons, hflatten]
    exact ⟨rfl, List.forall_mem_cons.mpr ⟨habout, hall⟩⟩

/-- The inversion of `validate_corpus`: what has been checked, and the blockers that are returned.
-/
theorem accepted_of_validateCorpus (h : validateCorpus manifest items annotations = .ok report) :
    Accepted manifest items annotations ∧
      report.blockers = corpusBlockers manifest items annotations ∧
      report.engineeringBlockers =
        engineeringBlockers items report.blockers report.lowRiskDevTestHumanReviewed
          report.lowRiskDevTestCount ∧
      report.lockReady = report.blockers.isEmpty ∧
      report.engineeringReady = report.engineeringBlockers.isEmpty := by
  unfold validateCorpus at h
  obtain ⟨hquestions, h⟩ := ensure_bind.mp h
  obtain ⟨hversions, h⟩ := ensure_bind.mp h
  obtain ⟨hleaking, h⟩ := ensure_bind.mp h
  obtain ⟨hunique, h⟩ := ensure_bind.mp h
  obtain ⟨horphans, h⟩ := ensure_bind.mp h
  obtain ⟨hchecked, h⟩ := check_bind.mp h
  obtain ⟨perItem, hperItem, h⟩ := bind_eq_ok.mp h
  obtain rfl := pure_eq_ok.mp h
  have hblockers := mapM_itemBlockers hperItem
  refine ⟨⟨of_decide_eq_true hquestions,
    fun item hitem => of_decide_eq_true (List.all_eq_true.mp hversions item hitem),
    List.isEmpty_iff.mp hleaking, of_decide_eq_true hunique, ?_, forM_eq_ok.mp hchecked,
    hblockers.2⟩, ?_, rfl, rfl, rfl⟩
  · intro record hrecord
    have hnot := List.filter_eq_nil_iff.mp (List.isEmpty_iff.mp horphans) record.annotationId
      (List.mem_map_of_mem hrecord)
    simpa [List.any_eq_true] using hnot
  · show _ ++ perItem.flatten = _
    rw [hblockers.1]
    rfl

/-- What is checked is all that a report needs. -/
theorem Accepted.exists_report (h : Accepted manifest items annotations) :
    ∃ report, validateCorpus manifest items annotations = .ok report := by
  obtain ⟨perItem, hperItem⟩ := exists_mapM_ok fun (item : EvaluationItemV1) hitem =>
    ⟨_, itemBlockers_eq_ok.mpr ⟨h.recordsAbout item hitem, rfl⟩⟩
  have horphans : ((annotations.map (·.annotationId)).filter fun id =>
      !items.any fun item => item.annotationRecordIds.contains id).isEmpty = true := by
    refine List.isEmpty_iff.mpr (List.filter_eq_nil_iff.mpr fun id hid => ?_)
    obtain ⟨record, hrecord, rfl⟩ := List.mem_map.mp hid
    obtain ⟨item, hitem, hmem⟩ := h.referenced record hrecord
    have hany : (items.any fun item => item.annotationRecordIds.contains record.annotationId) =
        true :=
      List.any_eq_true.mpr ⟨item, hitem, List.contains_iff_mem.mpr hmem⟩
    rw [hany]
    exact Bool.false_ne_true
  have hversions :
      (items.all fun item => decide (item.datasetVersion = manifest.datasetVersion)) = true :=
    List.all_eq_true.mpr fun item hitem => decide_eq_true (h.itemVersions item hitem)
  have hleaking : (leakingGroups items).isEmpty = true := List.isEmpty_iff.mpr h.notLeaking
  unfold validateCorpus
  dsimp only
  rw [ensure_true_bind (decide_eq_true h.questionIdsUnique), ensure_true_bind hversions,
    ensure_true_bind hleaking, ensure_true_bind (decide_eq_true h.annotationIdsUnique),
    ensure_true_bind horphans, forM_eq_ok.mpr h.annotationsChecked, hperItem]
  exact ⟨_, rfl⟩

/-! ### Lookups -/

theorem annotationById_of_mem (hunique : (annotations.map (·.annotationId)).Nodup)
    (h : record ∈ annotations) : annotationById annotations record.annotationId = some record := by
  unfold annotationById
  induction annotations with
  | nil => cases h
  | cons first rest ih =>
    rw [List.map_cons, List.nodup_cons] at hunique
    rcases List.mem_cons.mp h with rfl | h
    · exact List.find?_cons_of_pos (decide_eq_true rfl)
    · rw [List.find?_cons_of_neg]
      · exact ih hunique.2 h
      · intro heq
        exact hunique.1 (of_decide_eq_true heq ▸ List.mem_map_of_mem h)

theorem mem_of_annotationById {annotationId : Identifier}
    (h : annotationById annotations annotationId = some record) :
    record ∈ annotations ∧ record.annotationId = annotationId := by
  unfold annotationById at h
  have hid := List.find?_some h
  exact ⟨List.mem_of_find?_eq_some h, of_decide_eq_true hid⟩

/-- The records that an item names are the records about its question. -/
theorem Accepted.mem_recordsOf (h : Accepted manifest items annotations) (hitem : item ∈ items) :
    record ∈ recordsOf annotations item ↔ record ∈ annotations ∧
    record.questionId = item.questionId := by
  unfold recordsOf
  rw [List.mem_filterMap]
  constructor
  · rintro ⟨annotationId, hmem, hfound⟩
    exact ⟨(mem_of_annotationById hfound).1,
      (h.recordsAbout item hitem annotationId hmem record hfound).1⟩
  · rintro ⟨hrecord, hquestion⟩
    obtain ⟨item', hitem', hmem⟩ := h.referenced record hrecord
    have hfound := annotationById_of_mem h.annotationIdsUnique hrecord
    have hsame := (h.recordsAbout item' hitem' record.annotationId hmem record hfound).1
    have heq : item' = item :=
      List.inj_on_of_nodup_map h.questionIdsUnique hitem' hitem (hsame.symm.trans hquestion)
    exact ⟨record.annotationId, heq ▸ hmem, hfound⟩

/-! ### Lineage -/

/-- The record names the other one in `based_on_annotation_ids`. -/
def BasedOn (annotations : List AnnotationRecordV1) (record parent : AnnotationRecordV1) : Prop :=
  record ∈ annotations ∧ parent ∈ annotations ∧ parent.annotationId ∈ record.basedOnAnnotationIds

/-- How far a role is from the independent annotations. -/
def AnnotationRole.level : AnnotationRole → Nat
  | annotator => 0
  | adjudicator => 1
  | expertReviewer => 2

/-- A record is based on records of lower levels. -/
theorem Accepted.level_lt (h : Accepted manifest items annotations)
    (hbased : BasedOn annotations record parent) : parent.role.level < record.role.level := by
  obtain ⟨hrecord, hparent, hid⟩ := hbased
  have hcheck := h.annotationsChecked record hrecord
  unfold checkRecord at hcheck
  obtain ⟨-, hcheck⟩ := ensure_bind.mp hcheck
  obtain ⟨-, hcheck⟩ := ensure_bind.mp hcheck
  obtain ⟨parents, hparents, hcheck⟩ := bind_eq_ok.mp hcheck
  obtain ⟨hadjudicator, hcheck⟩ := ensure_bind.mp hcheck
  obtain ⟨-, hexpert⟩ := ensure_bind.mp hcheck
  have hmem : parent ∈ parents := by
    obtain ⟨i, hi⟩ := List.mem_iff_getElem?.mp hid
    have hget := mapM_getElem? hparents i
    rw [hi] at hget
    cases hfound : parents[i]? with
    | none => rw [hfound] at hget; cases hget
    | some found =>
      rw [hfound] at hget
      have hlineage : lineageParent annotations record parent.annotationId = .ok found :=
        Option.some.inj hget
      unfold lineageParent at hlineage
      rw [annotationById_of_mem h.annotationIdsUnique hparent] at hlineage
      dsimp only at hlineage
      split at hlineage
      · rw [Except.ok.inj hlineage]
        exact List.mem_of_getElem? hfound
      · cases hlineage
  cases hrole : record.role with
  | annotator =>
    rw [record.annotatorIndependent hrole] at hid
    cases hid
  | adjudicator =>
    rw [of_decide_eq_true hadjudicator hrole parent hmem]
    decide
  | expertReviewer =>
    rcases of_decide_eq_true (ensure_eq_ok.mp hexpert) hrole with ⟨-, hall, -⟩ | hsingle
    · rw [hall parent hmem]
      decide
    · have hin : parent.role ∈ parents.map (·.role) := List.mem_map_of_mem hmem
      rw [hsingle, List.mem_singleton] at hin
      rw [hin]
      decide

theorem Accepted.acyclic (h : Accepted manifest items annotations) (record : AnnotationRecordV1) :
    ¬Relation.TransGen (BasedOn annotations) record record := by
  have hlevel : ∀ {a b}, Relation.TransGen (BasedOn annotations) a b →
      b.role.level < a.role.level := by
    intro a b hab
    induction hab with
    | single hbased => exact h.level_lt hbased
    | tail _ hbased ih => exact (h.level_lt hbased).trans ih
  exact fun hcycle => absurd (hlevel hcycle) (lt_irrefl _)

theorem Accepted.chain_length (h : Accepted manifest items annotations)
    {chain : List AnnotationRecordV1} (hchain : chain.IsChain (BasedOn annotations)) :
    chain.length ≤ 3 := by
  have hbound : ∀ (rest : List AnnotationRecordV1) (first : AnnotationRecordV1),
      (first :: rest).IsChain (BasedOn annotations) → rest.length ≤ first.role.level := by
    intro rest
    induction rest with
    | nil => exact fun first _ => Nat.zero_le _
    | cons second rest ih =>
      intro first hchain
      obtain ⟨hbased, hrest⟩ := List.isChain_cons_cons.mp hchain
      exact (ih second hrest).trans_lt (h.level_lt hbased)
  cases chain with
  | nil => exact Nat.zero_le 3
  | cons first rest =>
    have hle := hbound rest first hchain
    have hlevel : first.role.level ≤ 2 := by cases first.role <;> decide
    rw [List.length_cons]
    omega

/-! ### Labels -/

/-- At least so many humans have annotated the item. -/
def HumanAnnotated (annotations : List AnnotationRecordV1) (item : EvaluationItemV1)
    (minimum : Nat) : Prop :=
  ∃ humans : List Identifier, humans.Nodup ∧ minimum ≤ humans.length ∧ ∀ human ∈ humans,
    ∃ record ∈ annotations, record.questionId = item.questionId ∧ record.role = .annotator ∧
    record.actorType = .human ∧ record.annotatorId = human

/-- The item's labels are those of the record. -/
structure SameLabels (record : AnnotationRecordV1) (item : EvaluationItemV1) : Prop where
  answerability : record.answerability = item.answerability
  expectedRoute : record.expectedRoute = item.expectedRoute
  chunkJudgments : record.chunkJudgments = item.chunkJudgments

/-- The item's labels are those of all its annotators. -/
def AgreedLabels (annotations : List AnnotationRecordV1) (item : EvaluationItemV1) : Prop :=
  HumanAnnotated annotations item 2 ∧ ∀ record ∈ annotations, record.questionId = item.questionId →
    record.role = .annotator → SameLabels record item

/-- The item's labels are those of its final record. -/
def DecidedLabels (annotations : List AnnotationRecordV1) (item : EvaluationItemV1) : Prop :=
  ∃ record ∈ annotations, item.finalAnnotationId = some record.annotationId ∧
    record.questionId = item.questionId ∧ record.actorType = .human ∧
    (item.annotationStatus = .expertReviewed ∧ record.role = .expertReviewer ∨
      item.annotationStatus = .adjudicated ∧ record.role = .adjudicator) ∧
    SameLabels record item

/-- A corpus with the labels of humans, without leaks. -/
structure SoundCorpus (manifest : EvaluationManifestV1) (items : List EvaluationItemV1)
    (annotations : List AnnotationRecordV1) : Prop where
  leakFree : ∀ a ∈ items, ∀ b ∈ items, a.leakageGroupId = b.leakageGroupId → a.split = b.split
  humanAnnotated : ∀ item ∈ items,
    HumanAnnotated annotations item manifest.qualityGates.minimumIndependentAnnotators
  labels : ∀ item ∈ items, AgreedLabels annotations item ∨ DecidedLabels annotations item
  expertReviewed : ∀ item ∈ items, needsExpert manifest item = true →
    item.annotationStatus = .expertReviewed
  acyclic : ∀ record, ¬Relation.TransGen (BasedOn annotations) record record
  chains : ∀ chain : List AnnotationRecordV1, chain.IsChain (BasedOn annotations) → chain.length ≤ 3

theorem eq_of_length_le_one {α : Type*} {xs : List α} {a b : α} (h : xs.length ≤ 1) (ha : a ∈ xs)
    (hb : b ∈ xs) : a = b := by
  match xs, h with
  | [x], _ => rw [List.mem_singleton.mp ha, List.mem_singleton.mp hb]

theorem leakFree_of_leakingGroups (h : leakingGroups items = []) {a b : EvaluationItemV1}
    (ha : a ∈ items) (hb : b ∈ items) (hgroup : a.leakageGroupId = b.leakageGroupId) :
    a.split = b.split := by
  have hnot := List.filter_eq_nil_iff.mp h a.leakageGroupId
    (List.mem_dedup.mpr (List.mem_map_of_mem ha))
  rw [decide_eq_true_eq, Nat.not_lt] at hnot
  have hin : ∀ {c}, c ∈ items → c.leakageGroupId = a.leakageGroupId → c.split ∈
      ((items.filter fun item => decide (item.leakageGroupId = a.leakageGroupId)).map
        (·.split)).dedup := fun hc heq =>
    List.mem_dedup.mpr (List.mem_map_of_mem (List.mem_filter.mpr ⟨hc, decide_eq_true heq⟩))
  exact eq_of_length_le_one hnot (hin ha rfl) (hin hb hgroup.symm)

theorem not_of_blocks {condition : Bool} {check : ItemCheck} (h : blocks condition check = []) :
    condition = false := by
  cases condition with
  | false => rfl
  | true => cases h

theorem recordMatchesItem_iff : recordMatchesItem record item = true ↔ SameLabels record item := by
  unfold recordMatchesItem
  simp only [Bool.and_eq_true, decide_eq_true_eq]
  exact ⟨fun h => ⟨h.1.1, h.1.2, h.2⟩,
    fun h => ⟨⟨h.answerability, h.expectedRoute⟩, h.chunkJudgments⟩⟩

/-- An item that fails no check. -/
structure PassesAll (manifest : EvaluationManifestV1) (annotations : List AnnotationRecordV1)
    (item : EvaluationItemV1) : Prop where
  humans : manifest.qualityGates.minimumIndependentAnnotators ≤
    (independentHumans annotations item).length
  status : statusChecks annotations item = []
  expert : needsExpert manifest item = true → item.annotationStatus = .expertReviewed
  final : finalChecks annotations item = []

theorem passesAll_of_failedChecks (h : failedChecks manifest annotations item = []) :
    PassesAll manifest annotations item := by
  unfold failedChecks at h
  simp only [List.append_eq_nil_iff] at h
  obtain ⟨⟨⟨⟨⟨-, hhumans⟩, hstatus⟩, hexpert⟩, -⟩, hfinal⟩ := h
  refine ⟨Nat.not_lt.mp (of_decide_eq_false (not_of_blocks hhumans)), hstatus,
    fun hneeds => ?_, hfinal⟩
  have hnot := not_of_blocks hexpert
  rw [hneeds, Bool.true_and] at hnot
  exact not_not.mp (of_decide_eq_false hnot)

theorem Accepted.humanAnnotated (h : Accepted manifest items annotations) (hitem : item ∈ items)
    {minimum : Nat} (hhumans : minimum ≤ (independentHumans annotations item).length) :
    HumanAnnotated annotations item minimum := by
  refine ⟨independentHumans annotations item, List.nodup_dedup _, hhumans, fun human hhuman => ?_⟩
  obtain ⟨record, hrecord, rfl⟩ := List.mem_map.mp (List.mem_dedup.mp hhuman)
  obtain ⟨hindependent, hactor⟩ := List.mem_filter.mp hrecord
  obtain ⟨hof, hrole⟩ := List.mem_filter.mp hindependent
  obtain ⟨hmem, hquestion⟩ := (h.mem_recordsOf hitem).mp hof
  exact ⟨record, hmem, hquestion, of_decide_eq_true hrole, of_decide_eq_true hactor, rfl⟩

/-- Without a conflict all annotators have given the item's labels. -/
theorem Accepted.agreed (h : Accepted manifest items annotations) (hitem : item ∈ items)
    (hconflict : (independentRecords annotations item).any (fun record => !recordMatchesItem record
      item) = false)
    (hrecord : record ∈ annotations) (hquestion : record.questionId = item.questionId)
    (hrole : record.role = .annotator) :
    SameLabels record item := by
  have hin : record ∈ independentRecords annotations item :=
    List.mem_filter.mpr ⟨(h.mem_recordsOf hitem).mpr ⟨hrecord, hquestion⟩, decide_eq_true hrole⟩
  have hmatches := List.any_eq_false.mp hconflict record hin
  rw [Bool.not_eq_true', Bool.not_eq_false] at hmatches
  exact recordMatchesItem_iff.mp hmatches

/-- With passed final checks the item's labels are those of its final record. -/
theorem Accepted.decided (h : Accepted manifest items annotations) (hitem : item ∈ items)
    (hfinal : finalChecks annotations item = []) (hstatus : item.annotationStatus.isFinal = true) :
    DecidedLabels annotations item := by
  obtain ⟨annotationId, hmem, hid⟩ := item.finalReferenced hstatus
  unfold finalChecks at hfinal
  rw [hid] at hfinal
  dsimp only at hfinal
  cases hfound : annotationById annotations annotationId with
  | none => rw [hfound] at hfinal; cases hfinal
  | some record =>
    rw [hfound] at hfinal
    simp only [List.append_eq_nil_iff] at hfinal
    obtain ⟨⟨hrole, hhuman⟩, hlabels⟩ := hfinal
    obtain ⟨hrecord, rfl⟩ := mem_of_annotationById hfound
    have hrole := not_not.mp (of_decide_eq_false (not_of_blocks hrole))
    have hhuman := not_not.mp (of_decide_eq_false (not_of_blocks hhuman))
    have hlabels := Bool.not_eq_eq_eq_not.mp (not_of_blocks hlabels)
    have habout := (h.recordsAbout item hitem record.annotationId hmem record hfound).1
    refine ⟨record, hrecord, hid, habout, hhuman, ?_, recordMatchesItem_iff.mp hlabels⟩
    cases hcase : item.annotationStatus with
    | adjudicated => rw [hcase] at hrole; exact .inr ⟨rfl, hrole⟩
    | expertReviewed => rw [hcase] at hrole; exact .inl ⟨rfl, hrole⟩
    | draft => rw [hcase] at hstatus; cases hstatus
    | gptAssisted => rw [hcase] at hstatus; cases hstatus
    | doubleAnnotated => rw [hcase] at hstatus; cases hstatus

/-- Each status has its own check of the labels. -/
theorem Accepted.labels (h : Accepted manifest items annotations) (hitem : item ∈ items)
    (hpasses : PassesAll manifest annotations item) :
    AgreedLabels annotations item ∨ DecidedLabels annotations item := by
  have hstatus := hpasses.status
  unfold statusChecks at hstatus
  simp only [List.append_eq_nil_iff] at hstatus
  obtain ⟨⟨hdraft, hgpt⟩, hagreement⟩ := hstatus
  cases hcase : item.annotationStatus with
  | draft => exact absurd hcase (of_decide_eq_false (not_of_blocks hdraft))
  | gptAssisted => rw [hcase, if_pos rfl] at hgpt; cases hgpt
  | doubleAnnotated =>
    left
    refine ⟨h.humanAnnotated hitem (manifest.qualityGates.twoAnnotators.trans hpasses.humans),
      fun record hrecord hquestion hrole => ?_⟩
    refine h.agreed hitem ?_ hrecord hquestion hrole
    cases hscore : item.agreementScore with
    | none =>
      rw [hscore, hcase] at hagreement
      cases hagreement
    | some score =>
      rw [hscore, hcase] at hagreement
      dsimp only at hagreement
      by_cases hlow : score.value < 1
      · rw [if_pos hlow] at hagreement
        cases hagreement
      · rw [if_neg hlow, if_pos rfl] at hagreement
        exact not_of_blocks hagreement
  | adjudicated => exact .inr (h.decided hitem hpasses.final (by rw [hcase]; rfl))
  | expertReviewed => exact .inr (h.decided hitem hpasses.final (by rw [hcase]; rfl))

theorem lockReady_sound (h : validateCorpus manifest items annotations = .ok report)
    (hready : report.lockReady = true) : SoundCorpus manifest items annotations := by
  obtain ⟨haccepted, hblockers, -, hlock, -⟩ := accepted_of_validateCorpus h
  rw [hlock, List.isEmpty_iff, hblockers] at hready
  obtain ⟨-, hitems⟩ := List.append_eq_nil_iff.mp hready
  have hpasses : ∀ item ∈ items, PassesAll manifest annotations item := fun item hitem => by
    have hnone := List.flatMap_eq_nil_iff.mp hitems item hitem
    unfold blockersOf at hnone
    exact passesAll_of_failedChecks (List.map_eq_nil_iff.mp (List.append_eq_nil_iff.mp hnone).2)
  exact {
    leakFree := fun a ha b hb => leakFree_of_leakingGroups haccepted.notLeaking ha hb
    humanAnnotated := fun item hitem => haccepted.humanAnnotated hitem (hpasses item hitem).humans
    labels := fun item hitem => haccepted.labels hitem (hpasses item hitem)
    expertReviewed := fun item hitem => (hpasses item hitem).expert
    acyclic := haccepted.acyclic
    chains := fun chain => haccepted.chain_length }

/-! ### A corpus that is ready

Two hundred items, each annotated by two humans with the same labels. -/

section

/-- An identifier of a letter and a number. -/
def numbered (letter : Char) (i : Fin 200) : Identifier :=
  fixedId (String.ofList (letter :: Nat.toDigits 10 i))

theorem numbered_val {letter : Char} (hletter : letter ∈ ['q', 'a', 'b']) (i : Fin 200) :
    (numbered letter i).val = String.ofList (letter :: Nat.toDigits 10 i) := by
  have hpattern : (['q', 'a', 'b'].all fun letter => (List.finRange 200).all fun i =>
      contractIdPattern (String.ofList (letter :: Nat.toDigits 10 i))) = true := by decide +kernel
  have h := List.all_eq_true.mp (List.all_eq_true.mp hpattern letter hletter) i
    (List.mem_finRange i)
  unfold numbered fixedId
  rw [dif_pos h]

theorem numbered_inj {letter letter' : Char} (hletter : letter ∈ ['q', 'a', 'b'])
    (hletter' : letter' ∈ ['q', 'a', 'b']) {i j : Fin 200}
    (h : numbered letter i = numbered letter' j) : letter = letter' ∧ i = j := by
  have hval := congrArg Subtype.val h
  rw [numbered_val hletter, numbered_val hletter'] at hval
  obtain ⟨hfirst, hdigits⟩ := List.cons.inj (String.ofList_injective hval)
  refine ⟨hfirst, Fin.ext ?_⟩
  rw [← Nat.ofDigitChars_ten_toDigits (n := i), hdigits, Nat.ofDigitChars_ten_toDigits]

/-- The letters of the two annotators. -/
def annotatorLetter (second : Bool) : Char := if second then 'b' else 'a'

theorem annotatorLetter_mem (second : Bool) : annotatorLetter second ∈ ['q', 'a', 'b'] := by
  cases second <;> decide

def goldItem (i : Fin 200) : EvaluationItemV1 := { answerableItem with
  questionId := numbered 'q' i
  annotationStatus := .doubleAnnotated
  annotationRecordIds := [numbered 'a' i, numbered 'b' i]
  agreementScore := some ⟨1, by decide +kernel, by decide +kernel⟩
  listsUnique := by
    refine ⟨by decide, by decide, by decide,
      List.nodup_cons.mpr ⟨fun hmem => ?_, List.nodup_singleton _⟩⟩
    exact absurd (numbered_inj (by decide) (by decide) (List.mem_singleton.mp hmem)).1 (by decide)
  enoughRecords := le_refl 2
  finalOnlyWhenDecided := fun _ => rfl
  finalReferenced := fun h => absurd h Bool.false_ne_true }

def goldRecord (second : Bool) (i : Fin 200) : AnnotationRecordV1 :=
  humanRecord (numbered (annotatorLetter second) i) (numbered 'q' i)
    (if second then fixedId "human_2" else fixedId "human_1") ⟨"", by decide⟩

def goldManifest : EvaluationManifestV1 where
  datasetId := fixedId "gold"
  datasetVersion := fixedId "local-v1"
  status := ManifestStatus.annotation
  targetSize := 200
  splitPolicy :=
    ⟨⟨1, by decide +kernel, by decide +kernel⟩, ⟨0, by decide +kernel, by decide +kernel⟩,
    ⟨0, by decide +kernel, by decide +kernel⟩, ⟨0, by decide +kernel, by decide +kernel⟩,
    by decide +kernel⟩
  stratificationTargets := []
  qualityGates := ⟨2, [], [], le_refl 2⟩
  targetSizeInRange := by decide
  targetTypesUnique := List.nodup_nil

def goldItems : List EvaluationItemV1 := (List.finRange 200).map goldItem

def goldAnnotations : List AnnotationRecordV1 :=
  (List.finRange 200).map (goldRecord false) ++ (List.finRange 200).map (goldRecord true)

theorem mem_goldAnnotations :
    record ∈ goldAnnotations ↔ ∃ second i, record = goldRecord second i := by
  unfold goldAnnotations
  simp only [List.mem_append, List.mem_map, List.mem_finRange, true_and]
  constructor
  · rintro (⟨i, rfl⟩ | ⟨i, rfl⟩) <;> exact ⟨_, i, rfl⟩
  · rintro ⟨second, i, rfl⟩
    cases second
    · exact .inl ⟨i, rfl⟩
    · exact .inr ⟨i, rfl⟩

theorem mem_goldItems : item ∈ goldItems ↔ ∃ i, item = goldItem i := by
  unfold goldItems
  simp [eq_comm]

theorem goldRecord_id_inj {second second' : Bool} {i j : Fin 200}
    (h : (goldRecord second i).annotationId = (goldRecord second' j).annotationId) :
    second = second' ∧ i = j := by
  obtain ⟨hletter, hij⟩ := numbered_inj (annotatorLetter_mem second) (annotatorLetter_mem second') h
  refine ⟨?_, hij⟩
  cases second <;> cases second' <;> first | rfl | exact absurd hletter (by decide)

theorem goldAnnotations_unique : (goldAnnotations.map (·.annotationId)).Nodup := by
  unfold goldAnnotations
  rw [List.map_append, List.map_map, List.map_map]
  refine List.nodup_append.mpr ⟨(List.nodup_finRange 200).map ?_,
    (List.nodup_finRange 200).map ?_, ?_⟩
  · exact fun i j h => (goldRecord_id_inj h).2
  · exact fun i j h => (goldRecord_id_inj h).2
  · intro id hid id' hid' heq
    obtain ⟨i, -, rfl⟩ := List.mem_map.mp hid
    obtain ⟨j, -, rfl⟩ := List.mem_map.mp hid'
    exact absurd (goldRecord_id_inj heq).1 Bool.false_ne_true

theorem annotationById_gold (second : Bool) (i : Fin 200) :
    annotationById goldAnnotations (numbered (annotatorLetter second) i) =
      some (goldRecord second i) :=
  annotationById_of_mem goldAnnotations_unique
    (mem_goldAnnotations.mpr ⟨second, i, rfl⟩ : goldRecord second i ∈ _)

theorem recordsOf_gold (i : Fin 200) :
    recordsOf goldAnnotations (goldItem i) = [goldRecord false i, goldRecord true i] := by
  show [numbered (annotatorLetter false) i, numbered (annotatorLetter true) i].filterMap _ = _
  rw [List.filterMap_cons, annotationById_gold, List.filterMap_cons, annotationById_gold]
  rfl

theorem gold_accepted : Accepted goldManifest goldItems goldAnnotations where
  questionIdsUnique := by
    unfold goldItems
    rw [List.map_map]
    exact (List.nodup_finRange 200).map fun i j h => (numbered_inj (by decide) (by decide) h).2
  itemVersions := by
    intro item hitem
    obtain ⟨i, rfl⟩ := mem_goldItems.mp hitem
    rfl
  notLeaking := by
    refine List.filter_eq_nil_iff.mpr fun group _ => ?_
    rw [decide_eq_true_eq, Nat.not_lt]
    refine (List.Nodup.subperm (List.nodup_dedup _)
      (fun split hsplit => ?_ : _ ⊆ [DatasetSplit.dev])).length_le
    obtain ⟨item, hitem, rfl⟩ := List.mem_map.mp (List.mem_dedup.mp hsplit)
    obtain ⟨i, rfl⟩ := mem_goldItems.mp (List.mem_filter.mp hitem).1
    exact List.mem_singleton.mpr rfl
  annotationIdsUnique := goldAnnotations_unique
  referenced := by
    intro record hrecord
    obtain ⟨second, i, rfl⟩ := mem_goldAnnotations.mp hrecord
    refine ⟨goldItem i, mem_goldItems.mpr ⟨i, rfl⟩, ?_⟩
    show numbered (annotatorLetter second) i ∈ [numbered 'a' i, numbered 'b' i]
    cases second
    · exact List.mem_cons_self
    · exact List.mem_cons_of_mem _ List.mem_cons_self
  annotationsChecked := by
    intro record hrecord
    obtain ⟨second, i, rfl⟩ := mem_goldAnnotations.mp hrecord
    have hknown : (goldRecord second i).questionId ∈ goldItems.map (·.questionId) :=
      List.mem_map.mpr ⟨_, mem_goldItems.mpr ⟨i, rfl⟩, rfl⟩
    unfold checkRecord
    rw [ensure_true_bind (List.contains_iff_mem.mpr hknown)]
    rfl
  recordsAbout := by
    intro item hitem annotationId hid record hfound
    obtain ⟨i, rfl⟩ := mem_goldItems.mp hitem
    have hmem : record ∈ recordsOf goldAnnotations (goldItem i) :=
      List.mem_filterMap.mpr ⟨annotationId, hid, hfound⟩
    rw [recordsOf_gold] at hmem
    simp only [List.mem_cons, List.not_mem_nil, or_false] at hmem
    rcases hmem with rfl | rfl <;> exact ⟨rfl, rfl⟩

theorem gold_failedChecks (i : Fin 200) :
    failedChecks goldManifest goldAnnotations (goldItem i) = [] := by
  have hindependent : independentRecords goldAnnotations (goldItem i) =
      [goldRecord false i, goldRecord true i] := by
    unfold independentRecords
    rw [recordsOf_gold]
    rfl
  have hmatches : ∀ second, recordMatchesItem (goldRecord second i) (goldItem i) =
      true := fun second =>
    recordMatchesItem_iff.mpr ⟨rfl, rfl, rfl⟩
  have hreviewers : reviewerCount [goldRecord false i, goldRecord true i] = 2 := by
    show [(ActorType.human, (fixedId "human_1").val),
      (ActorType.human, (fixedId "human_2").val)].dedup.length = 2
    decide
  have hhumans : (independentHumans goldAnnotations (goldItem i)).length = 2 := by
    unfold independentHumans
    rw [hindependent]
    show [fixedId "human_1", fixedId "human_2"].dedup.length = 2
    decide
  have hstatus : statusChecks goldAnnotations (goldItem i) = [] := by
    unfold statusChecks
    rw [hindependent]
    show [] ++ [] ++
      (if (1 : Rat) < 1 then _
        else blocks ([goldRecord false i, goldRecord true i].any fun record =>
      !recordMatchesItem record (goldItem i)) .consensusLabels) = []
    rw [if_neg (lt_irrefl _), List.any_cons, List.any_cons, hmatches, hmatches]
    rfl
  unfold failedChecks
  rw [hindependent, hreviewers, hhumans, hstatus]
  rfl

theorem gold_blockers : corpusBlockers goldManifest goldItems goldAnnotations = [] := by
  have hlength : goldItems.length = 200 := by
    unfold goldItems
    rw [List.length_map, List.length_finRange]
  have hprimary : primaryItems goldItems = goldItems := List.filter_eq_self.mpr fun item hitem => by
    obtain ⟨i, rfl⟩ := mem_goldItems.mp hitem
    rfl
  have hdev : splitCount goldItems .dev = 200 := by
    rw [← hlength]
    refine List.countP_eq_length.mpr fun item hitem => ?_
    obtain ⟨i, rfl⟩ := mem_goldItems.mp hitem
    rfl
  have hother : ∀ split, split ≠ .dev → splitCount goldItems split = 0 := fun split hne => by
    refine List.countP_eq_zero.mpr fun item hitem => ?_
    obtain ⟨i, rfl⟩ := mem_goldItems.mp hitem
    exact fun h => hne (of_decide_eq_true h).symm
  have hsplit : splitBlockers goldManifest goldItems = [] := by
    unfold splitBlockers
    rw [hprimary, hlength]
    simp only [List.flatMap_cons, hdev, hother .test (by decide), hother .acceptance (by decide)]
    decide +kernel
  have hsize : sizeBlockers goldManifest goldItems = [] := by
    unfold sizeBlockers
    rw [hprimary, hlength]
    rfl
  have hitems : goldItems.flatMap (blockersOf goldManifest goldAnnotations) = [] := by
    refine List.flatMap_eq_nil_iff.mpr fun item hitem => ?_
    obtain ⟨i, rfl⟩ := mem_goldItems.mp hitem
    unfold blockersOf
    rw [gold_failedChecks, List.map_nil, List.append_nil, List.map_eq_nil_iff]
    show [numbered (annotatorLetter false) i, numbered (annotatorLetter true) i].filter _ = []
    rw [List.filter_cons_of_neg, List.filter_cons_of_neg]
    · rfl
    · rw [annotationById_gold]
      exact Bool.false_ne_true
    · rw [annotationById_gold]
      exact Bool.false_ne_true
  unfold corpusBlockers
  rw [hsize, hsplit, hitems]
  rfl

theorem lockReady_sound_gold : SoundCorpus goldManifest goldItems goldAnnotations := by
  obtain ⟨report, hreport⟩ := gold_accepted.exists_report
  obtain ⟨-, hblockers, -, hlock, -⟩ := accepted_of_validateCorpus hreport
  refine lockReady_sound hreport ?_
  rw [hlock, hblockers, gold_blockers]
  rfl

end

end ZhiyanRag.Evaluation
