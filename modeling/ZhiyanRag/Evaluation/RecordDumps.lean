import ZhiyanRag.Evaluation.FormalCorpus
import ZhiyanRag.Evaluation.JsonLines

/-!
# Dumps of the evaluation records

`model_dump(mode="json")` of the items and of the annotations. Identifiers and literals have none of
the line boundaries that JSON leaves as they are, so a record prints on one line exactly when its
texts do (`EvaluationItemV1.printsOneLine_modelDump`, `AnnotationRecordV1.printsOneLine_modelDump`),
and a list of records is read back exactly then (`jsonl_roundTrip_iff`).
-/

namespace ZhiyanRag.Evaluation

open Retrieval

/-! ### Literals -/

def Answerability.text : Answerability → String
  | answerable => "ANSWERABLE"
  | partiallyAnswerable => "PARTIALLY_ANSWERABLE"
  | noEvidence => "NO_EVIDENCE"
  | conflictingEvidence => "CONFLICTING_EVIDENCE"
  | forbidden => "FORBIDDEN"

def AnnotationStatus.text : AnnotationStatus → String
  | draft => "DRAFT"
  | gptAssisted => "GPT_ASSISTED"
  | doubleAnnotated => "DOUBLE_ANNOTATED"
  | adjudicated => "ADJUDICATED"
  | expertReviewed => "EXPERT_REVIEWED"

def Language.text : Language → String
  | zh => "zh"
  | en => "en"
  | mixed => "mixed"

def QueryForm.text : QueryForm → String
  | short => "short"
  | long => "long"
  | typo => "typo"
  | abbreviation => "abbreviation"
  | multiTurn => "multi_turn"

def Difficulty.text : Difficulty → String
  | easy => "easy"
  | medium => "medium"
  | hard => "hard"

def ConversationRole.text : ConversationRole → String
  | user => "user"
  | assistant => "assistant"

def AnnotationRole.text : AnnotationRole → String
  | annotator => "ANNOTATOR"
  | adjudicator => "ADJUDICATOR"
  | expertReviewer => "EXPERT_REVIEWER"

def ActorType.text : ActorType → String
  | human => "HUMAN"
  | gpt => "GPT"
  | fixture => "FIXTURE"

/-! ### Dumps -/

def dumpOption {α : Type} (dump : α → JsonValue) : Option α → JsonValue
  | none => .null
  | some value => dump value

def dumpList {α : Type} (dump : α → JsonValue) (values : List α) : JsonValue :=
  .array (values.map dump)

def dumpIdentifier (id : Identifier) : JsonValue := .str id.val

def dumpInt (n : Nat) : JsonValue := .int n

def dumpFloat {lower upper : Rat} (score : BoundedFloat lower upper) : JsonValue :=
  .float (.finite score.value)

def ConversationTurnV1.modelDump (turn : ConversationTurnV1) : JsonValue :=
  .object [("role", .str turn.role.text), ("content", .str turn.content.val)]

def ExpectedFiltersV1.modelDump (filters : ExpectedFiltersV1) : JsonValue :=
  .object [("document_ids", dumpList dumpIdentifier filters.documentIds),
    ("year_gte", dumpOption dumpInt filters.yearGte),
    ("year_lte", dumpOption dumpInt filters.yearLte)]

def ChunkJudgmentV1.modelDump (judgment : ChunkJudgmentV1) : JsonValue :=
  .object [("chunk_id", dumpIdentifier judgment.chunkId),
    ("document_id", dumpIdentifier judgment.documentId), ("page_start", dumpInt judgment.pageStart),
    ("page_end", dumpInt judgment.pageEnd), ("relevance", dumpInt judgment.relevance),
    ("supports_claims", dumpList dumpIdentifier judgment.supportsClaims)]

def ReferenceClaimV1.modelDump (claim : ReferenceClaimV1) : JsonValue :=
  .object [("claim_id", dumpIdentifier claim.claimId), ("text", .str claim.text.val),
    ("required", .bool claim.required)]

def EvaluationItemV1.modelDump (item : EvaluationItemV1) : JsonValue :=
  .object [
    ("schema_version", .str "retrieval_evaluation_item_v1"),
    ("dataset_version", dumpIdentifier item.datasetVersion),
    ("question_id", dumpIdentifier item.questionId),
    ("split", .str item.split.text),
    ("leakage_group_id", dumpIdentifier item.leakageGroupId),
    ("question", .str item.question.val),
    ("conversation_history", dumpList ConversationTurnV1.modelDump item.conversationHistory),
    ("authorized_scope_ids", dumpList dumpIdentifier item.authorizedScopeIds),
    ("question_types", dumpList (fun type => .str (QuestionType.text type)) item.questionTypes),
    ("language", .str item.language.text),
    ("query_form", .str item.queryForm.text),
    ("expected_route", dumpIdentifier item.expectedRoute),
    ("expected_filters", item.expectedFilters.modelDump),
    ("answerability", .str item.answerability.text),
    ("chunk_judgments", dumpList ChunkJudgmentV1.modelDump item.chunkJudgments),
    ("reference_claims", dumpList ReferenceClaimV1.modelDump item.referenceClaims),
    ("acceptable_answer_points", dumpList JsonValue.str item.acceptableAnswerPoints),
    ("must_not_claim", dumpList JsonValue.str item.mustNotClaim),
    ("expected_citations", dumpList dumpIdentifier item.expectedCitations),
    ("freshness_cutoff", dumpOption (fun cutoff => .str cutoff.val) item.freshnessCutoff),
    ("difficulty", .str item.difficulty.text),
    ("annotation_status", .str item.annotationStatus.text),
    ("annotation_record_ids", dumpList dumpIdentifier item.annotationRecordIds),
    ("final_annotation_id", dumpOption dumpIdentifier item.finalAnnotationId),
    ("agreement_score", dumpOption dumpFloat item.agreementScore),
    ("blind_holdout", .bool item.blindHoldout)]

/-- `datetimeText` is how a `datetime` is dumped. -/
def AnnotationRecordV1.modelDump (datetimeText : Datetime → String) (record : AnnotationRecordV1) :
    JsonValue :=
  .object [
    ("schema_version", .str "retrieval_annotation_record_v1"),
    ("annotation_id", dumpIdentifier record.annotationId),
    ("dataset_version", dumpIdentifier record.datasetVersion),
    ("question_id", dumpIdentifier record.questionId),
    ("role", .str record.role.text),
    ("annotator_id", dumpIdentifier record.annotatorId),
    ("actor_type", .str record.actorType.text),
    ("model_identity", dumpOption (fun identity => .str identity.val) record.modelIdentity),
    ("prompt_version", dumpOption dumpIdentifier record.promptVersion),
    ("temperature", dumpOption dumpFloat record.temperature),
    ("submitted_at", .str (datetimeText record.submittedAt)),
    ("answerability", .str record.answerability.text),
    ("expected_route", dumpIdentifier record.expectedRoute),
    ("chunk_judgments", dumpList ChunkJudgmentV1.modelDump record.chunkJudgments),
    ("notes", .str record.notes.val),
    ("based_on_annotation_ids", dumpList dumpIdentifier record.basedOnAnnotationIds)]

/-! ### Free texts -/

/-- The texts that are neither identifiers nor literals. -/
def EvaluationItemV1.freeTexts (item : EvaluationItemV1) : List String :=
  item.question.val ::
    (item.conversationHistory.map (·.content.val) ++ item.referenceClaims.map (·.text.val) ++
      item.acceptableAnswerPoints ++ item.mustNotClaim ++ (item.freshnessCutoff.map (·.val)).toList)

def AnnotationRecordV1.freeTexts (record : AnnotationRecordV1) : List String :=
  record.notes.val :: (record.modelIdentity.map (·.val)).toList

def pageNumbers (judgments : List ChunkJudgmentV1) : List Nat :=
  judgments.flatMap fun judgment => [judgment.pageStart, judgment.pageEnd]

/-- The text has none of the boundaries NEL, LINE SEPARATOR and PARAGRAPH SEPARATOR. -/
def OneLine (text : String) : Prop := ∀ c ∈ text.toList, c.toNat ∉ [0x85, 0x2028, 0x2029]

instance : DecidablePred OneLine := fun text => List.decidableBAll
    (fun c : Char => c.toNat ∉ [0x85, 0x2028, 0x2029]) text.toList

/-- `int.__repr__` does not refuse the number. -/
def Representable (n : Nat) : Prop := (Nat.toDigits 10 n).length ≤ 4300

instance : DecidablePred Representable := fun n => Nat.decLe (Nat.toDigits 10 n).length 4300

/-! ### Texts on one line -/

theorem oneLine_iff {text : String} :
    OneLine text ↔ ∀ c ∈ text.toList, ¬(126 < c.toNat ∧ isLineBreak c = true) := by
  refine forall₂_congr fun c _ => not_congr ?_
  unfold isLineBreak
  simp only [List.contains_iff_mem, List.mem_cons, List.not_mem_nil, or_false]
  omega

theorem ne_break_of_lt {c : Char} (h : c.toNat < 128) : c.toNat ∉ [0x85, 0x2028, 0x2029] := by
  simp only [List.mem_cons, List.not_mem_nil, or_false]
  omega

theorem oneLine_of_ascii {text : String} (h : ∀ c ∈ text.toList, c.toNat < 128) :
    OneLine text := fun c hc => ne_break_of_lt (h c hc)

/-- For literals. -/
def isAsciiText (text : String) : Bool := text.toList.all fun c => decide (c.toNat < 128)

theorem ascii_of_isAsciiText {text : String} (h : isAsciiText text = true) :
    ∀ c ∈ text.toList, c.toNat < 128 := fun c hc =>
  of_decide_eq_true (List.all_eq_true.mp h c hc)

theorem oneLine_of_isAsciiText {text : String} (h : isAsciiText text = true) : OneLine text :=
  oneLine_of_ascii (ascii_of_isAsciiText h)

theorem oneLine_identifier (id : Identifier) : OneLine id.val :=
  oneLine_of_ascii fun _ => isAscii_identifier id

/-! ### Values on one line -/

/-- The value is printed, and on one line. -/
def PrintsOneLine (value : JsonValue) : Prop := printable value = true ∧ Unbroken value

@[simp] theorem printsOneLine_str {text : String} : PrintsOneLine (.str text) ↔ OneLine text := by
  unfold PrintsOneLine Unbroken
  rw [and_iff_right (show printable (.str text) = true from rfl), oneLine_iff]
  exact List.forall_mem_singleton

@[simp] theorem printsOneLine_bool {value : Bool} : PrintsOneLine (.bool value) :=
  ⟨rfl, by simp [Unbroken, stringsOf]⟩

@[simp] theorem printsOneLine_dumpInt {n : Nat} : PrintsOneLine (dumpInt n) ↔ Representable n := by
  unfold PrintsOneLine Unbroken dumpInt Representable
  simp [printable, stringsOf]

@[simp] theorem printsOneLine_dumpFloat {lower upper : Rat} {score : BoundedFloat lower upper} :
    PrintsOneLine (dumpFloat score) :=
  ⟨rfl, by simp [Unbroken, stringsOf, dumpFloat]⟩

@[simp] theorem printsOneLine_dumpIdentifier {id : Identifier} :
    PrintsOneLine (dumpIdentifier id) := printsOneLine_str.mpr (oneLine_identifier id)

@[simp] theorem printsOneLine_dumpOption {α : Type} {dump : α → JsonValue} {value : Option α} :
    PrintsOneLine (dumpOption dump value) ↔ ∀ x ∈ value, PrintsOneLine (dump x) := by
  cases value with
  | none => simp [dumpOption, PrintsOneLine, Unbroken, printable, stringsOf]
  | some value => simp [dumpOption]

theorem printsOneLine_array {items : List JsonValue} :
    PrintsOneLine (.array items) ↔ ∀ item ∈ items, PrintsOneLine item := by
  induction items with
  | nil => simp [PrintsOneLine, Unbroken, printable, printableItems, stringsOf, stringsOfItems]
  | cons item items ih =>
    rw [List.forall_mem_cons, ← ih]
    simp only [PrintsOneLine, Unbroken, printable, printableItems, stringsOf, stringsOfItems,
      Bool.and_eq_true, List.forall_mem_append]
    tauto

@[simp] theorem printsOneLine_dumpList {α : Type} {dump : α → JsonValue} {values : List α} :
    PrintsOneLine (dumpList dump values) ↔ ∀ value ∈ values, PrintsOneLine (dump value) := by
  unfold dumpList
  rw [printsOneLine_array, List.forall_mem_map]

theorem printsOneLine_object {members : List (String × JsonValue)}
    (hnames : (members.map Prod.fst).all isAsciiText = true) :
    PrintsOneLine (.object members) ↔ ∀ value ∈ members.map Prod.snd, PrintsOneLine value := by
  induction members with
  | nil => simp [PrintsOneLine, Unbroken, printable, printableMembers, stringsOf, stringsOfMembers]
  | cons member members ih =>
    rw [List.map_cons, List.all_cons, Bool.and_eq_true] at hnames
    rw [List.map_cons, List.forall_mem_cons, ← ih hnames.2]
    have hname := oneLine_iff.mp (oneLine_of_isAsciiText hnames.1)
    simp only [PrintsOneLine, Unbroken, printable, printableMembers, stringsOf, stringsOfMembers,
      Bool.and_eq_true, List.forall_mem_append, List.forall_mem_cons]
    tauto

theorem readable_array {items : List JsonValue} (h : ∀ item ∈ items, readable item = true) :
    readable (.array items) = true := by
  induction items with
  | nil => rfl
  | cons item items ih =>
    obtain ⟨hitem, hitems⟩ := List.forall_mem_cons.mp h
    have hrest := ih hitems
    simp only [readable, readableItems] at hrest ⊢
    rw [hitem, hrest, Bool.and_self]

theorem readable_dumpList {α : Type} {dump : α → JsonValue}
    (h : ∀ value, readable (dump value) = true) (values : List α) :
    readable (dumpList dump values) = true :=
  readable_array (List.forall_mem_map.mpr fun value _ => h value)

theorem readable_dumpOption {α : Type} {dump : α → JsonValue}
    (h : ∀ value, readable (dump value) = true) (value : Option α) :
    readable (dumpOption dump value) = true := by
  cases value with
  | none => rfl
  | some value => exact h value

theorem readable_object {members : List (String × JsonValue)}
    (hnames : (members.map Prod.fst).Nodup)
    (hvalues : ∀ value ∈ members.map Prod.snd, readable value = true) :
    readable (.object members) = true := by
  have hmembers : readableMembers members = true := by
    induction members with
    | nil => rfl
    | cons member members ih =>
      obtain ⟨hvalue, hvalues⟩ := List.forall_mem_cons.mp hvalues
      rw [readableMembers, hvalue, ih (List.nodup_cons.mp hnames).2 hvalues, Bool.and_self]
  rw [readable, hmembers, decide_eq_true hnames, Bool.and_self]

@[simp] theorem readable_str (text : String) : readable (.str text) = true := rfl

@[simp] theorem readable_bool (value : Bool) : readable (.bool value) = true := rfl

@[simp] theorem readable_dumpIdentifier (id : Identifier) :
    readable (dumpIdentifier id) = true := rfl

@[simp] theorem readable_dumpInt (n : Nat) : readable (dumpInt n) = true := rfl

theorem readable_dumpFloat {lower upper : Rat} (score : BoundedFloat lower upper) :
    readable (dumpFloat score) = true := score.binary64

@[simp] theorem readable_identifiers (ids : List Identifier) :
    readable (dumpList dumpIdentifier ids) = true :=
  readable_dumpList readable_dumpIdentifier ids

@[simp] theorem readable_texts {α : Type} (text : α → String) (values : List α) :
    readable (dumpList (fun value => .str (text value)) values) = true :=
  readable_dumpList (fun _ => rfl) values

@[simp] theorem readable_optionalText {α : Type} (text : α → String) (value : Option α) :
    readable (dumpOption (fun value => .str (text value)) value) = true :=
  readable_dumpOption (fun _ => rfl) value

/-! ### Records on one line -/

@[simp] theorem oneLine_split (split : DatasetSplit) : OneLine split.text := by
  cases split <;> exact oneLine_of_isAsciiText rfl

@[simp] theorem oneLine_questionType (type : QuestionType) : OneLine type.text := by
  cases type <;> exact oneLine_of_isAsciiText rfl

@[simp] theorem oneLine_answerability (answerability : Answerability) :
    OneLine answerability.text := by cases answerability <;> exact oneLine_of_isAsciiText rfl

@[simp] theorem oneLine_annotationStatus (status : AnnotationStatus) : OneLine status.text := by
  cases status <;> exact oneLine_of_isAsciiText rfl

@[simp] theorem oneLine_language (language : Language) : OneLine language.text := by
  cases language <;> exact oneLine_of_isAsciiText rfl

@[simp] theorem oneLine_queryForm (form : QueryForm) : OneLine form.text := by
  cases form <;> exact oneLine_of_isAsciiText rfl

@[simp] theorem oneLine_difficulty (difficulty : Difficulty) : OneLine difficulty.text := by
  cases difficulty <;> exact oneLine_of_isAsciiText rfl

@[simp] theorem oneLine_conversationRole (role : ConversationRole) : OneLine role.text := by
  cases role <;> exact oneLine_of_isAsciiText rfl

@[simp] theorem oneLine_annotationRole (role : AnnotationRole) : OneLine role.text := by
  cases role <;> exact oneLine_of_isAsciiText rfl

@[simp] theorem oneLine_actorType (actor : ActorType) : OneLine actor.text := by
  cases actor <;> exact oneLine_of_isAsciiText rfl

theorem representable_of_lt {n : Nat} (h : n < 10 ^ 4) : Representable n :=
  ((Nat.length_toDigits_le_iff (by decide) (by decide)).mpr h).trans (by decide)

theorem ConversationTurnV1.printsOneLine_modelDump (turn : ConversationTurnV1) :
    PrintsOneLine turn.modelDump ↔ OneLine turn.content.val := by
  unfold modelDump
  rw [printsOneLine_object]
  · simp
  · simp only [List.map_cons, List.map_nil]
    rfl

theorem ExpectedFiltersV1.printsOneLine_modelDump (filters : ExpectedFiltersV1) :
    PrintsOneLine filters.modelDump := by
  unfold modelDump
  rw [printsOneLine_object]
  · have hgte : ∀ year ∈ filters.yearGte, Representable year := fun year h =>
      representable_of_lt (by have := filters.yearsInRange year (.inl h); omega)
    have hlte : ∀ year ∈ filters.yearLte, Representable year := fun year h =>
      representable_of_lt (by have := filters.yearsInRange year (.inr h); omega)
    simp only [List.map_cons, List.map_nil, List.forall_mem_cons, printsOneLine_dumpList,
      printsOneLine_dumpOption, printsOneLine_dumpInt, printsOneLine_dumpIdentifier, implies_true,
      true_and]
    exact ⟨hgte, hlte, by simp⟩
  · simp only [List.map_cons, List.map_nil]
    rfl

theorem ChunkJudgmentV1.printsOneLine_modelDump (judgment : ChunkJudgmentV1) :
    PrintsOneLine judgment.modelDump ↔ Representable judgment.pageStart ∧
    Representable judgment.pageEnd := by
  unfold modelDump
  rw [printsOneLine_object]
  · have hrelevance : Representable judgment.relevance :=
      representable_of_lt (by have := judgment.relevanceScale; omega)
    simp [hrelevance]
  · simp only [List.map_cons, List.map_nil]
    rfl

theorem ReferenceClaimV1.printsOneLine_modelDump (claim : ReferenceClaimV1) :
    PrintsOneLine claim.modelDump ↔ OneLine claim.text.val := by
  unfold modelDump
  rw [printsOneLine_object]
  · simp
  · simp only [List.map_cons, List.map_nil]
    rfl

/-- What keeps a record from being printed on one line: its free texts and its page numbers. -/
theorem EvaluationItemV1.printsOneLine_modelDump (item : EvaluationItemV1) :
    PrintsOneLine item.modelDump ↔ (∀ text ∈ item.freeTexts, OneLine text) ∧
    ∀ page ∈ pageNumbers item.chunkJudgments, Representable page := by
  unfold modelDump
  rw [printsOneLine_object]
  · have hcutoff : (∀ text ∈ (item.freshnessCutoff.map (·.val)).toList, OneLine text) ↔
        ∀ cutoff ∈ item.freshnessCutoff, OneLine cutoff.val := by
      cases item.freshnessCutoff <;> simp
    have hversion : OneLine "retrieval_evaluation_item_v1" := oneLine_of_isAsciiText rfl
    simp only [List.map_cons, List.map_nil, List.forall_mem_cons, printsOneLine_dumpList,
      printsOneLine_dumpOption, printsOneLine_str, printsOneLine_dumpIdentifier, printsOneLine_bool,
      printsOneLine_dumpFloat, oneLine_split, oneLine_questionType, oneLine_answerability,
      oneLine_annotationStatus, oneLine_language, oneLine_queryForm, oneLine_difficulty,
      ConversationTurnV1.printsOneLine_modelDump,
      ExpectedFiltersV1.printsOneLine_modelDump, ChunkJudgmentV1.printsOneLine_modelDump,
      ReferenceClaimV1.printsOneLine_modelDump, hversion,
      hcutoff, implies_true, true_and, freeTexts, pageNumbers, List.forall_mem_append,
      List.forall_mem_map, List.forall_mem_flatMap]
    constructor
    · rintro ⟨hquestion, hturns, hpages, hclaims, hpoints, hdenied, hcutoff, -⟩
      exact ⟨⟨hquestion, ⟨⟨⟨hturns, hclaims⟩, hpoints⟩, hdenied⟩, hcutoff⟩,
        fun judgment hjudgment => ⟨(hpages judgment hjudgment).1, (hpages judgment hjudgment).2,
          by simp⟩⟩
    · rintro ⟨⟨hquestion, ⟨⟨⟨hturns, hclaims⟩, hpoints⟩, hdenied⟩, hcutoff⟩, hpages⟩
      exact ⟨hquestion, hturns, fun judgment hjudgment => ⟨(hpages judgment hjudgment).1,
        (hpages judgment hjudgment).2.1⟩, hclaims, hpoints, hdenied, hcutoff, by simp⟩
  · simp only [List.map_cons, List.map_nil]
    rfl

theorem AnnotationRecordV1.printsOneLine_modelDump {datetimeText : Datetime → String}
    (record : AnnotationRecordV1)
    (hsubmitted : ∀ c ∈ (datetimeText record.submittedAt).toList, c.toNat < 128) :
    PrintsOneLine (record.modelDump datetimeText) ↔
      (∀ text ∈ record.freeTexts, OneLine text) ∧ ∀ page ∈ pageNumbers record.chunkJudgments,
        Representable page := by
  unfold modelDump
  rw [printsOneLine_object]
  · have hsubmitted := oneLine_of_ascii hsubmitted
    have hversion : OneLine "retrieval_annotation_record_v1" := oneLine_of_isAsciiText rfl
    have hidentity : (∀ text ∈ (record.modelIdentity.map (·.val)).toList, OneLine text) ↔
        ∀ identity ∈ record.modelIdentity, OneLine identity.val := by
      cases record.modelIdentity <;> simp
    simp only [List.map_cons, List.map_nil, List.forall_mem_cons, printsOneLine_dumpList,
      printsOneLine_dumpOption, printsOneLine_str, printsOneLine_dumpIdentifier,
      printsOneLine_dumpFloat, oneLine_answerability, oneLine_annotationRole, oneLine_actorType,
      ChunkJudgmentV1.printsOneLine_modelDump, hversion, hsubmitted, hidentity, implies_true,
      true_and, freeTexts, pageNumbers,
      List.forall_mem_flatMap]
    constructor
    · rintro ⟨hidentity, hpages, hnotes, -⟩
      exact ⟨⟨hnotes, hidentity⟩, fun judgment hjudgment => ⟨(hpages judgment hjudgment).1,
        (hpages judgment hjudgment).2, by simp⟩⟩
    · rintro ⟨⟨hnotes, hidentity⟩, hpages⟩
      exact ⟨hidentity, fun judgment hjudgment => ⟨(hpages judgment hjudgment).1,
        (hpages judgment hjudgment).2.1⟩, hnotes, by simp⟩
  · simp only [List.map_cons, List.map_nil]
    rfl

/-! ### Records are readable -/

theorem ConversationTurnV1.readable_modelDump (turn : ConversationTurnV1) :
    readable turn.modelDump = true :=
  readable_object (by simp) (by simp)

theorem ExpectedFiltersV1.readable_modelDump (filters : ExpectedFiltersV1) :
    readable filters.modelDump = true :=
  readable_object (by simp)
    (by simp [readable_dumpOption readable_dumpInt])

theorem ChunkJudgmentV1.readable_modelDump (judgment : ChunkJudgmentV1) :
    readable judgment.modelDump = true :=
  readable_object (by simp) (by simp)

theorem ReferenceClaimV1.readable_modelDump (claim : ReferenceClaimV1) :
    readable claim.modelDump = true :=
  readable_object (by simp) (by simp)

theorem EvaluationItemV1.readable_modelDump (item : EvaluationItemV1) :
    readable item.modelDump = true := by
  unfold modelDump
  apply readable_object
  · simp
  · simp [readable_dumpList ConversationTurnV1.readable_modelDump,
      readable_dumpList ChunkJudgmentV1.readable_modelDump,
      readable_dumpList ReferenceClaimV1.readable_modelDump, readable_dumpList readable_str,
      readable_dumpOption readable_dumpIdentifier,
      readable_dumpOption readable_dumpFloat, ExpectedFiltersV1.readable_modelDump]

theorem AnnotationRecordV1.readable_modelDump (datetimeText : Datetime → String)
    (record : AnnotationRecordV1) :
    readable (record.modelDump datetimeText) = true := by
  unfold modelDump
  apply readable_object
  · simp
  · simp [readable_dumpList ChunkJudgmentV1.readable_modelDump,
      readable_dumpOption readable_dumpIdentifier, readable_dumpOption readable_dumpFloat]

/-! ### Corpus files -/

theorem loadJsonl_items_iff {path : String} {validate : JsonValue → Option EvaluationItemV1}
    {items : List EvaluationItemV1}
    (hvalidate : ∀ item ∈ items, validate item.modelDump = some item) :
    (writeJsonl EvaluationItemV1.modelDump items).bind (loadJsonl path validate) = .ok items ↔
      ∀ item ∈ items, (∀ text ∈ item.freeTexts, OneLine text) ∧
      ∀ page ∈ pageNumbers item.chunkJudgments, Representable page := by
  rw [loadJsonl_writeJsonl_iff (fun item _ => item.readable_modelDump) hvalidate]
  exact forall₂_congr fun item _ => item.printsOneLine_modelDump

theorem loadJsonl_annotations_iff {path : String} {datetimeText : Datetime → String}
    {validate : JsonValue → Option AnnotationRecordV1} {records : List AnnotationRecordV1}
    (hsubmitted : ∀ record ∈ records, ∀ c ∈ (datetimeText record.submittedAt).toList, c.toNat < 128)
    (hvalidate : ∀ record ∈ records, validate (record.modelDump datetimeText) = some record) :
    (writeJsonl (AnnotationRecordV1.modelDump datetimeText) records).bind
      (loadJsonl path validate) = .ok records ↔
      ∀ record ∈ records, (∀ text ∈ record.freeTexts, OneLine text) ∧
      ∀ page ∈ pageNumbers record.chunkJudgments, Representable page := by
  rw [loadJsonl_writeJsonl_iff (fun record _ => record.readable_modelDump datetimeText) hvalidate]
  exact forall₂_congr fun record hrecord => record.printsOneLine_modelDump
    (hsubmitted record hrecord)

/-- A list of records is read back exactly when no free text has one of the three boundaries and
every page number can be printed. -/
theorem jsonl_roundTrip_iff (path : String) {datetimeText : Datetime → String}
    {validateItem : JsonValue → Option EvaluationItemV1}
    {validateRecord : JsonValue → Option AnnotationRecordV1} {items : List EvaluationItemV1}
    {records : List AnnotationRecordV1}
    (hitems : ∀ item ∈ items, validateItem item.modelDump = some item)
    (hsubmitted : ∀ record ∈ records, ∀ c ∈ (datetimeText record.submittedAt).toList, c.toNat < 128)
    (hrecords : ∀ record ∈ records, validateRecord (record.modelDump datetimeText) = some record) :
    ((writeJsonl EvaluationItemV1.modelDump items).bind (loadJsonl path validateItem) = .ok items ↔
      ∀ item ∈ items, (∀ text ∈ item.freeTexts, OneLine text) ∧
      ∀ page ∈ pageNumbers item.chunkJudgments, Representable page) ∧
    ((writeJsonl (AnnotationRecordV1.modelDump datetimeText) records).bind
      (loadJsonl path validateRecord) = .ok records ↔
      ∀ record ∈ records, (∀ text ∈ record.freeTexts, OneLine text) ∧
      ∀ page ∈ pageNumbers record.chunkJudgments, Representable page) :=
  ⟨loadJsonl_items_iff hitems, loadJsonl_annotations_iff hsubmitted hrecords⟩

/-- A review of `answerableItem`. -/
def answerableRecord : AnnotationRecordV1 :=
  humanRecord (fixedId "annotation_1") answerableItem.questionId (fixedId "human_1")
    ⟨"page 1", by decide +kernel⟩

/-- The validator of a file with this one record. -/
def validateOnly {α : Type} (dump : α → JsonValue) (record : α) (value : JsonValue) : Option α :=
  if value.equals (dump record) then some record else none

theorem jsonl_roundTrip_answerable :
    (writeJsonl EvaluationItemV1.modelDump [answerableItem]).bind
        (loadJsonl "items.jsonl" (validateOnly EvaluationItemV1.modelDump answerableItem)) =
          .ok [answerableItem] ∧
      (writeJsonl (AnnotationRecordV1.modelDump fun _ => "1970-01-01T00:00:00Z")
        [answerableRecord]).bind
        (loadJsonl "items.jsonl"
          (validateOnly (AnnotationRecordV1.modelDump fun _ => "1970-01-01T00:00:00Z")
            answerableRecord)) =
          .ok [answerableRecord] := by
  have hitem : validateOnly EvaluationItemV1.modelDump answerableItem answerableItem.modelDump =
      some answerableItem := if_pos (by decide +kernel)
  have hrecord : validateOnly (AnnotationRecordV1.modelDump fun _ => "1970-01-01T00:00:00Z")
      answerableRecord (answerableRecord.modelDump fun _ => "1970-01-01T00:00:00Z") =
        some answerableRecord := if_pos (by decide +kernel)
  have hsubmitted : ∀ c ∈ "1970-01-01T00:00:00Z".toList, c.toNat < 128 := ascii_of_isAsciiText rfl
  obtain ⟨hitems, hrecords⟩ :=
    jsonl_roundTrip_iff "items.jsonl" (List.forall_mem_singleton.mpr hitem)
    (List.forall_mem_singleton.mpr hsubmitted) (List.forall_mem_singleton.mpr hrecord)
  exact ⟨hitems.mpr (by decide +kernel), hrecords.mpr (by decide +kernel)⟩

/-- A question with a LINE SEPARATOR in it. -/
def separatedItem : EvaluationItemV1 :=
  { answerableItem with question := ⟨"What is\u2028measured?", by decide +kernel⟩ }

theorem separated_not_read_back :
    (writeJsonl EvaluationItemV1.modelDump [separatedItem]).bind
      (loadJsonl "items.jsonl" (validateOnly EvaluationItemV1.modelDump separatedItem)) ≠
        .ok [separatedItem] := by
  intro hread
  have hitem : validateOnly EvaluationItemV1.modelDump separatedItem separatedItem.modelDump =
      some separatedItem := if_pos (by decide +kernel)
  have hlines :=
    ((loadJsonl_items_iff (List.forall_mem_singleton.mpr hitem)).mp hread separatedItem
      List.mem_cons_self).1
  exact absurd (hlines "What is\u2028measured?" List.mem_cons_self) (by decide +kernel)

end ZhiyanRag.Evaluation
