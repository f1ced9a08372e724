import ZhiyanRag.Evaluation.CorpusReadiness
import ZhiyanRag.Lib.Words

/-!
# The engineering gate

`engineering_blockers` leaves out the blockers of five checks, which it recognizes by the start or a
part of their texts. A text of an item starts with its `question_id`, and `primary_item_count` is
one: all blockers of that item look like those of the item count. `keepsOthers_iff`: other items
lose no blocker.
-/

namespace ZhiyanRag.Evaluation

open Words

variable {manifest : EvaluationManifestV1} {items : List EvaluationItemV1}
  {annotations : List AnnotationRecordV1} {report : ValidationReport} {item : EvaluationItemV1}

/-- The checks that the engineering gate leaves out. -/
def ItemCheck.exempt : ItemCheck → Bool
  | independentReviewers | humanAnnotators | doubleHumanStatus => true
  | _ => false

def Blocker.exempt : Blocker → Bool
  | primaryCount _ _ | lockedSize => true
  | .item _ check => check.exempt
  | _ => false

/-! ### Words of the messages -/

/-- The first word of the message of a blocker. -/
def Blocker.firstWord : Blocker → String
  | primaryCount _ _ | engineeringCount _ => "primary_item_count"
  | lockedSize => "LOCKED"
  | splitRatio split _ => split.text
  | stratumRatio questionType _ _ _ => questionType.text
  | missingRecord questionId _ | .item questionId _ => questionId.val
  | auditRatio _ => "low-risk"

theorem space_notMem_identifier (id : Identifier) : ' ' ∉ id.val.toList :=
  notMem_identifier (by decide) (by decide) id

theorem fixedFour_toList (value : Rat) :
    ∃ whole decimals : List Char, (fixedFour value).toList = whole ++ '.' :: decimals ∧
    ∀ c ∈ whole ++ decimals, c.isDigit = true := by
  unfold fixedFour
  dsimp only
  rw [String.toList_ofList]
  refine ⟨_, _, rfl, fun c hc => ?_⟩
  rcases List.mem_append.mp hc with hc | hc
  · exact Nat.isDigit_of_mem_toDigits (by decide) (by decide) hc
  · unfold Binary64.Number.decimalDigits at hc
    rcases List.mem_append.mp hc with hc | hc
    · rw [List.eq_of_mem_replicate hc]
      rfl
    · exact Nat.isDigit_of_mem_toDigits (by decide) (by decide) hc

theorem notMem_fixedFour {value : Rat} {c : Char} (hdigit : c.isDigit = false) (hpoint : c ≠ '.') :
    c ∉ (fixedFour value).toList := by
  obtain ⟨whole, decimals, htext, hdigits⟩ := fixedFour_toList value
  intro h
  rw [htext] at h
  rcases List.mem_append.mp h with h | h
  · rw [hdigits c (List.mem_append_left _ h)] at hdigit
    cases hdigit
  · rcases List.mem_cons.mp h with h | h
    · exact hpoint h
    · rw [hdigits c (List.mem_append_right _ h)] at hdigit
      cases hdigit

theorem point_mem_fixedFour (value : Rat) : '.' ∈ (fixedFour value).toList := by
  obtain ⟨whole, decimals, htext, -⟩ := fixedFour_toList value
  rw [htext]
  exact List.mem_append_right _ List.mem_cons_self

/-- The words by which a message is recognized, and the first words of a message. -/
structure Unrecognized (blocker : Blocker) (rest : List (List Char)) : Prop where
  words : blocker.text.toList.splitOn ' ' = blocker.firstWord.toList :: rest
  corpus : "corpus".toList ∉ rest.dropLast
  two : "two".toList ∉ rest.dropLast

theorem text_item (id : Identifier) (check : ItemCheck) :
    (Blocker.item id check).text.toList = id.val.toList ++ ' ' :: check.text.toList := by
  show (id.val ++ " " ++ check.text).toList = _
  rw [String.toList_append, String.toList_append, List.append_assoc]
  rfl

theorem unrecognized_item (id : Identifier) {check : ItemCheck} (h : check.exempt = false) :
    Unrecognized (.item id check) (check.text.toList.splitOn ' ') := by
  have hwords : ∀ check : ItemCheck, check.exempt = false →
      "corpus".toList ∉ (check.text.toList.splitOn ' ').dropLast ∧
      "two".toList ∉ (check.text.toList.splitOn ' ').dropLast := by
    intro check
    cases check <;> decide +kernel
  refine ⟨?_, (hwords check h).1, (hwords check h).2⟩
  rw [text_item]
  exact splitOn_word_cons (space_notMem_identifier id) _

theorem text_missing (id annotationId : Identifier) :
    (Blocker.missingRecord id annotationId).text.toList = id.val.toList ++ ' ' ::
      ("references".toList ++ ' ' ::
        ("missing".toList ++ ' ' :: ("annotation".toList ++ ' ' :: annotationId.val.toList))) := by
  show (id.val ++ " references missing annotation " ++ annotationId.val).toList = _
  rw [String.toList_append, String.toList_append, List.append_assoc]
  rfl

theorem unrecognized_missing (id annotationId : Identifier) :
    Unrecognized (.missingRecord id annotationId)
      ["references".toList, "missing".toList, "annotation".toList, annotationId.val.toList] := by
  refine ⟨?_, ?_, ?_⟩
  · rw [text_missing, splitOn_word_cons (space_notMem_identifier id), splitOn_word_cons (by decide),
      splitOn_word_cons (by decide), splitOn_word_cons (by decide),
      splitOn_word (space_notMem_identifier annotationId)]
    rfl
  · show "corpus".toList ∉ ["references".toList, "missing".toList, "annotation".toList]
    decide
  · show "two".toList ∉ ["references".toList, "missing".toList, "annotation".toList]
    decide

/-- A number with a point is none of the recognized words. -/
theorem notMem_of_point {word number : List Char} {before after : List (List Char)}
    (hword : '.' ∉ word) (hnumber : '.' ∈ number) (hbefore : word ∉ before)
    (hafter : word ∉ after) : word ∉ before ++ number :: after := by
  intro h
  rcases List.mem_append.mp h with h | h
  · exact hbefore h
  · rcases List.mem_cons.mp h with rfl | h
    · exact hword hnumber
    · exact hafter h

theorem text_split (split : DatasetSplit) (observed : Rat) :
    (Blocker.splitRatio split observed).text.toList = split.text.toList ++ ' ' ::
      ("split".toList ++ ' ' ::
      ("ratio".toList ++ ' ' ::
        ((fixedFour observed).toList ++ ' ' ::
          ("is".toList ++ ' ' :: ("outside".toList ++ ' ' :: "tolerance".toList))))) := by
  show (split.text ++ " split ratio " ++ fixedFour observed ++ " is outside tolerance").toList = _
  rw [String.toList_append, String.toList_append, String.toList_append, List.append_assoc,
    List.append_assoc]
  rfl

theorem unrecognized_split (split : DatasetSplit) (observed : Rat) :
    Unrecognized (.splitRatio split observed)
      ["split".toList, "ratio".toList, (fixedFour observed).toList, "is".toList, "outside".toList,
        "tolerance".toList] := by
  have hpoint := point_mem_fixedFour observed
  refine ⟨?_, ?_, ?_⟩
  · rw [text_split, splitOn_word_cons (by cases split <;> decide), splitOn_word_cons (by decide),
      splitOn_word_cons (by decide),
      splitOn_word_cons (notMem_fixedFour (by decide) (by decide)), splitOn_word_cons (by decide),
        splitOn_word_cons (by decide),
      splitOn_word (by decide)]
    rfl
  · show "corpus".toList ∉ ["split".toList, "ratio".toList] ++ (fixedFour observed).toList ::
      ["is".toList, "outside".toList]
    exact notMem_of_point (by decide) hpoint (by decide) (by decide)
  · show "two".toList ∉ ["split".toList, "ratio".toList] ++ (fixedFour observed).toList ::
      ["is".toList, "outside".toList]
    exact notMem_of_point (by decide) hpoint (by decide) (by decide)

theorem text_stratum (questionType : QuestionType) (observed minRatio maxRatio : Rat) :
    (Blocker.stratumRatio questionType observed minRatio maxRatio).text.toList =
      questionType.text.toList ++ ' ' ::
      ("ratio".toList ++ ' ' ::
        ((fixedFour observed).toList ++ ' ' :: ("is".toList ++ ' ' :: ("outside".toList ++ ' ' ::
        (('[' :: ((fixedFour minRatio).toList ++ [','])) ++ ' ' ::
          ((fixedFour maxRatio).toList ++ [']'])))))) := by
  show (questionType.text ++ " ratio " ++ fixedFour observed ++ " is outside [" ++
    fixedFour minRatio ++ ", " ++ fixedFour maxRatio ++ "]").toList = _
  rw [String.toList_append, String.toList_append, String.toList_append, String.toList_append,
    String.toList_append, String.toList_append, String.toList_append, List.append_assoc,
    List.append_assoc, List.append_assoc, List.append_assoc, List.append_assoc, List.append_assoc,
    List.cons_append, List.append_assoc]
  rfl

theorem unrecognized_stratum (questionType : QuestionType) (observed minRatio maxRatio : Rat) :
    Unrecognized (.stratumRatio questionType observed minRatio maxRatio)
      ["ratio".toList, (fixedFour observed).toList, "is".toList, "outside".toList,
        '[' :: ((fixedFour minRatio).toList ++ [',']), (fixedFour maxRatio).toList ++ [']']] := by
  have hpoint := point_mem_fixedFour observed
  have hmin : ' ' ∉ '[' :: ((fixedFour minRatio).toList ++ [',']) := by
    simpa using notMem_fixedFour (by decide) (by decide)
  have hmax : ' ' ∉ (fixedFour maxRatio).toList ++ [']'] := by
    simpa using notMem_fixedFour (by decide) (by decide)
  have hbracket : ∀ word : List Char, '[' ∉ word → word ∉ ["is".toList, "outside".toList] →
      word ∉ ["is".toList, "outside".toList, '[' :: ((fixedFour minRatio).toList ++ [','])] := by
    intro word hword hother hmem
    rcases List.mem_append.mp (show word ∈ ["is".toList, "outside".toList] ++
      ['[' :: ((fixedFour minRatio).toList ++ [','])] from hmem) with hmem | hmem
    · exact hother hmem
    · rw [List.mem_singleton.mp hmem] at hword
      exact hword List.mem_cons_self
  refine ⟨?_, ?_, ?_⟩
  · rw [text_stratum, splitOn_word_cons (by cases questionType <;> decide),
      splitOn_word_cons (by decide),
      splitOn_word_cons (notMem_fixedFour (by decide) (by decide)), splitOn_word_cons (by decide),
        splitOn_word_cons (by decide),
      splitOn_word_cons hmin, splitOn_word hmax]
    rfl
  · show "corpus".toList ∉ ["ratio".toList] ++ (fixedFour observed).toList :: _
    exact notMem_of_point (by decide) hpoint (by decide) (hbracket _ (by decide) (by decide))
  · show "two".toList ∉ ["ratio".toList] ++ (fixedFour observed).toList :: _
    exact notMem_of_point (by decide) hpoint (by decide) (hbracket _ (by decide) (by decide))

/-- The blocker is one of those that `validate_corpus` collects before the gate. -/
def Blocker.ofCorpus : Blocker → Bool
  | engineeringCount _ | auditRatio _ => false
  | _ => true

theorem exists_unrecognized {blocker : Blocker} (hcorpus : blocker.ofCorpus = true)
    (hexempt : blocker.exempt = false) : ∃ rest, Unrecognized blocker rest := by
  cases blocker with
  | primaryCount => cases hexempt
  | lockedSize => cases hexempt
  | splitRatio split observed => exact ⟨_, unrecognized_split split observed⟩
  | stratumRatio type observed minRatio maxRatio =>
    exact ⟨_, unrecognized_stratum type observed minRatio maxRatio⟩
  | missingRecord id annotationId => exact ⟨_, unrecognized_missing id annotationId⟩
  | item id check => exact ⟨_, unrecognized_item id hexempt⟩
  | engineeringCount => cases hcorpus
  | auditRatio => cases hcorpus

/-! ### What the gate keeps -/

theorem startsWith_iff {start text : String} :
    startsWith start text = true ↔ start.toList <+: text.toList :=
  List.isPrefixOf_iff_prefix

theorem kept_iff {blocker : Blocker} :
    blocker.kept = true ↔ ¬"primary_item_count ".toList <+: blocker.text.toList ∧
      ¬"LOCKED corpus ".toList <+: blocker.text.toList ∧
      ¬"formal corpus requires two human annotators".toList <:+: blocker.text.toList ∧
      ¬"formal corpus requires double-human status".toList <:+: blocker.text.toList ∧
      ¬"lacks two independent reviewers".toList <:+: blocker.text.toList := by
  unfold Blocker.kept occursIn
  simp only [Bool.and_eq_true, Bool.not_eq_true', decide_eq_false_iff_not, and_assoc,
    ← startsWith_iff, Bool.not_eq_true]

/-- A message is kept unless its first word is that of the item count. -/
theorem kept_of_unrecognized {blocker : Blocker} {rest : List (List Char)}
    (h : Unrecognized blocker rest) (hfirst : blocker.firstWord ≠ "primary_item_count") :
    blocker.kept = true := by
  have hinner : innerWords ' ' blocker.text.toList = rest.dropLast := by
    unfold innerWords
    rw [h.words]
    rfl
  have hcorpus : ∀ xs ys, ¬(xs ++ ' ' :: ("corpus".toList ++ ' ' :: ys)) <:+: blocker.text.toList :=
    fun xs ys hwithin =>
    h.corpus (hinner ▸ mem_innerWords_of_infix (by decide) hwithin)
  have htwo : ∀ xs ys, ¬(xs ++ ' ' :: ("two".toList ++ ' ' :: ys)) <:+: blocker.text.toList :=
    fun xs ys hwithin =>
    h.two (hinner ▸ mem_innerWords_of_infix (by decide) hwithin)
  refine kept_iff.mpr ⟨?_, ?_, ?_, ?_, ?_⟩
  · exact not_prefix_of_splitOn (by decide : ' ' ∉ "primary_item_count".toList) h.words fun heq =>
      hfirst (String.toList_injective heq)
  · exact fun hstart => hcorpus "LOCKED".toList [] hstart.isInfix
  · exact hcorpus "formal".toList "requires two human annotators".toList
  · exact hcorpus "formal".toList "requires double-human status".toList
  · exact htwo "lacks".toList "independent reviewers".toList

/-- The messages of an item with the name of the item count are dropped. -/
theorem not_kept_of_start {blocker : Blocker}
    (h : "primary_item_count ".toList <+: blocker.text.toList) : blocker.kept = false := by
  cases hkept : blocker.kept with
  | false => rfl
  | true => exact absurd h (kept_iff.mp hkept).1

/-- The item of a blocker. -/
def Blocker.itemId : Blocker → Option Identifier
  | missingRecord questionId _ | .item questionId _ => some questionId
  | _ => none

theorem start_of_itemId {blocker : Blocker} {id : Identifier} (h : blocker.itemId = some id)
    (hid : id.val = "primary_item_count") :
    ∃ rest, blocker.text.toList = "primary_item_count ".toList ++ rest ∧ ∃ c, rest.head? = some c ∧
    c.isDigit = false := by
  cases blocker with
  | missingRecord questionId annotationId =>
    obtain rfl := Option.some.inj h
    rw [text_missing, hid]
    exact ⟨_, (List.append_assoc "primary_item_count".toList [' '] _).symm, 'r', rfl, by decide⟩
  | item questionId check =>
    obtain rfl := Option.some.inj h
    rw [text_item, hid]
    refine ⟨_, (List.append_assoc "primary_item_count".toList [' '] _).symm, ?_⟩
    cases check <;> exact ⟨_, rfl, by decide⟩
  | _ => cases h

/-- A dropped message of an item is not a message of the gate either. -/
theorem text_notMem_engineering {blocker : Blocker} {id : Identifier} {blockers : List Blocker}
    {reviewed count : Nat} (h : blocker.itemId = some id) (hid : id.val = "primary_item_count") :
    blocker.text ∉ (engineeringBlockers items blockers reviewed count).map Blocker.text := by
  obtain ⟨rest, htext, c, hc, hdigit⟩ := start_of_itemId h hid
  intro hmem
  obtain ⟨other, hother, heq⟩ := List.mem_map.mp hmem
  unfold engineeringBlockers at hother
  have hstart : "primary_item_count ".toList <+: other.text.toList := by
    rw [heq, htext]
    exact List.prefix_append _ _
  rcases List.mem_append.mp hother with hother | hother
  · rcases List.mem_append.mp hother with hother | hother
    · have hkept := (List.mem_filter.mp hother).2
      rw [not_kept_of_start hstart] at hkept
      cases hkept
    · split at hother
      · -- The count stands where the other message has a letter.
        rw [List.mem_singleton.mp hother] at heq
        have hlist := congrArg String.toList heq
        rw [htext] at hlist
        have hcount : (Blocker.engineeringCount (primaryItems items).length).text.toList =
            "primary_item_count ".toList ++
            ((primaryItems items).length.repr.toList ++
              (" does not equal GPT-assisted target ".toList ++
                engineeringTargetItems.repr.toList)) := by
          show ("primary_item_count " ++ (primaryItems items).length.repr ++
            " does not equal GPT-assisted target " ++ engineeringTargetItems.repr).toList = _
          simp only [String.toList_append, List.append_assoc]
        rw [hcount] at hlist
        have hrest := List.append_cancel_left hlist
        rw [← hrest, Nat.toList_repr] at hc
        cases hdigits : Nat.toDigits 10 (primaryItems items).length with
        | nil => exact Nat.toDigits_ne_nil hdigits
        | cons d ds =>
          rw [hdigits] at hc
          obtain rfl := Option.some.inj hc
          have hisDigit : d.isDigit = true :=
            Nat.isDigit_of_mem_toDigits (by decide) (by decide)
              (hdigits ▸ List.mem_cons_self : d ∈ Nat.toDigits 10 _)
          rw [hisDigit] at hdigit
          cases hdigit
      · cases hother
  · split at hother
    · rw [List.mem_singleton.mp hother] at hstart
      obtain ⟨after, hafter⟩ := hstart
      have hhead := congrArg List.head? hafter
      have : (Blocker.auditRatio (auditRatio reviewed count)).text.toList.head? = some 'l' := by
        show ("low-risk dev/test human audit ratio " ++ _ ++ _ ++ _).toList.head? = some 'l'
        simp only [String.toList_append, List.append_assoc]
        rfl
      rw [this] at hhead
      cases hhead
    · cases hother

/-! ### When nothing is lost -/

/-- The item passes every check that the engineering gate does not leave out. -/
structure PassesOthers (manifest : EvaluationManifestV1) (annotations : List AnnotationRecordV1)
    (item : EvaluationItemV1) : Prop where
  annotationsThere : ∀ annotationId ∈ item.annotationRecordIds,
    (annotationById annotations annotationId).isSome = true
  notDraft : item.annotationStatus ≠ .draft
  gptAssisted : item.annotationStatus = .gptAssisted →
    (∃ record ∈ independentRecords annotations item, record.actorType = .gpt) ∧
      ∀ record ∈ independentRecords annotations item, SameLabels record item
  scored : item.agreementScore = none → item.annotationStatus = .gptAssisted
  adjudicated : ∀ score, item.agreementScore = some score → score.value < 1 →
    item.annotationStatus.isFinal = true
  consensus : ∀ score, item.agreementScore = some score → ¬score.value < 1 →
    item.annotationStatus = .doubleAnnotated → ∀ record ∈ independentRecords annotations item,
      SameLabels record item
  expertReviewed : needsExpert manifest item = true → item.annotationStatus = .expertReviewed
  humanReviewed : needsHuman item = true → ∃ record ∈ recordsOf annotations item,
    record.actorType = .human
  decided : ∀ annotationId, item.finalAnnotationId = some annotationId → ∃ record,
    annotationById annotations annotationId = some record ∧
    record.role = finalRole item.annotationStatus ∧ record.actorType = .human ∧
    SameLabels record item

/-- The gate keeps every blocker of the other checks. -/
def KeepsOthers (report : ValidationReport) : Prop :=
  ∀ blocker ∈ report.blockers, blocker.exempt = false →
    blocker.text ∈ report.engineeringBlockers.map Blocker.text

theorem blocks_exempt {condition : Bool} {check : ItemCheck} (hcheck : check.exempt = false) :
    (∀ failed ∈ blocks condition check, failed.exempt = true) ↔ condition = false := by
  cases condition <;> simp [blocks, hcheck]

theorem blocks_of_exempt {condition : Bool} {check : ItemCheck} (hcheck : check.exempt = true) :
    ∀ failed ∈ blocks condition check, failed.exempt = true := by
  cases condition <;> simp [blocks, hcheck]

theorem any_conflict_iff {records : List AnnotationRecordV1} :
    (records.any fun record => !recordMatchesItem record item) = false ↔ ∀ record ∈ records,
      SameLabels record item := by
  rw [List.any_eq_false]
  refine forall₂_congr fun record _ => ?_
  rw [Bool.not_eq_true', Bool.not_eq_false, recordMatchesItem_iff]

theorem statusChecks_exempt_iff : (∀ check ∈ statusChecks annotations item, check.exempt = true) ↔
    item.annotationStatus ≠ .draft ∧
      (item.annotationStatus = .gptAssisted →
        (∃ record ∈ independentRecords annotations item, record.actorType = .gpt) ∧
        ∀ record ∈ independentRecords annotations item, SameLabels record item) ∧
      (item.agreementScore = none → item.annotationStatus = .gptAssisted) ∧
      (∀ score, item.agreementScore = some score → score.value < 1 →
        item.annotationStatus.isFinal = true) ∧
      (∀ score, item.agreementScore = some score → ¬score.value < 1 →
        item.annotationStatus = .doubleAnnotated → ∀ record ∈ independentRecords annotations item,
          SameLabels record item) := by
  unfold statusChecks
  rw [List.forall_mem_append, List.forall_mem_append, blocks_exempt rfl, and_assoc]
  refine and_congr ?_ (and_congr ?_ ?_)
  · simp
  · by_cases hgpt : item.annotationStatus = .gptAssisted
    · rw [if_pos hgpt, List.forall_mem_cons, List.forall_mem_append, blocks_exempt rfl,
        blocks_exempt rfl, any_conflict_iff]
      simp [hgpt, ItemCheck.exempt]
    · rw [if_neg hgpt]
      simp [hgpt]
  · cases hscore : item.agreementScore with
    | none =>
      rw [blocks_exempt rfl]
      simp
    | some score =>
      dsimp only
      by_cases hlow : score.value < 1
      · rw [if_pos hlow, blocks_exempt rfl]
        simp [hlow]
      · rw [if_neg hlow]
        by_cases hdouble : item.annotationStatus = .doubleAnnotated
        · rw [if_pos hdouble, blocks_exempt rfl, any_conflict_iff]
          simp only [reduceCtorEq, false_implies, Option.some.injEq, forall_eq', hdouble, true_and,
            forall_true_left]
          exact ⟨fun h => ⟨fun hlow' => absurd hlow' hlow, fun _ => h⟩, fun h => h.2 hlow⟩
        · rw [if_neg hdouble]
          simp [hlow, hdouble]

theorem finalChecks_exempt_iff : (∀ check ∈ finalChecks annotations item, check.exempt = true) ↔
    ∀ annotationId, item.finalAnnotationId = some annotationId → ∃ record,
      annotationById annotations annotationId = some record ∧
      record.role = finalRole item.annotationStatus ∧ record.actorType = .human ∧
      SameLabels record item := by
  unfold finalChecks
  cases hfinal : item.finalAnnotationId with
  | none => simp
  | some annotationId =>
    dsimp only
    cases hfound : annotationById annotations annotationId with
    | none => simp [ItemCheck.exempt, hfound]
    | some record =>
      dsimp only
      rw [List.forall_mem_append, List.forall_mem_append, blocks_exempt rfl, blocks_exempt rfl,
        blocks_exempt rfl]
      simp [hfound, recordMatchesItem_iff, and_assoc]

theorem failedChecks_exempt_iff :
    (∀ check ∈ failedChecks manifest annotations item, check.exempt = true) ↔
    (∀ check ∈ statusChecks annotations item, check.exempt = true) ∧
      (needsExpert manifest item = true → item.annotationStatus = .expertReviewed) ∧
      (needsHuman item = true → ∃ record ∈ recordsOf annotations item, record.actorType = .human) ∧
      ∀ check ∈ finalChecks annotations item, check.exempt = true := by
  unfold failedChecks
  simp only [List.forall_mem_append]
  rw [blocks_exempt (rfl : ItemCheck.expertReview.exempt = false),
    blocks_exempt (rfl : ItemCheck.humanReview.exempt = false)]
  have hreviewers : ∀ {condition}, ∀ check ∈ blocks condition .independentReviewers,
      check.exempt = true := blocks_of_exempt rfl
  have hhumans : ∀ {condition}, ∀ check ∈ blocks condition .humanAnnotators, check.exempt = true :=
    blocks_of_exempt rfl
  constructor
  · rintro ⟨⟨⟨⟨-, hstatus⟩, hexpert⟩, hhuman⟩, hfinal⟩
    refine ⟨hstatus, fun h => ?_, fun h => ?_, hfinal⟩
    · simpa [h] using hexpert
    · simpa [h, humanReviewed] using hhuman
  · rintro ⟨hstatus, hexpert, hhuman, hfinal⟩
    refine ⟨⟨⟨⟨⟨hreviewers, hhumans⟩, hstatus⟩, ?_⟩, ?_⟩, hfinal⟩
    · by_cases h : needsExpert manifest item = true
      · simp [hexpert h]
      · simp [h]
    · by_cases h : needsHuman item = true
      · simpa [h, humanReviewed] using hhuman h
      · simp [h]

theorem passesOthers_iff :
    PassesOthers manifest annotations item ↔ ∀ blocker ∈ blockersOf manifest annotations item,
      blocker.exempt = true := by
  have hmissing :
      (∀ blocker ∈ (item.annotationRecordIds.filter
        fun annotationId => (annotationById annotations annotationId).isNone).map
          (Blocker.missingRecord item.questionId), blocker.exempt = true) ↔
      ∀ annotationId ∈ item.annotationRecordIds, (annotationById annotations annotationId).isSome =
        true := by
    rw [List.forall_mem_map]
    constructor
    · intro h annotationId hid
      cases hfound : annotationById annotations annotationId with
      | none =>
        have hnone := h annotationId (List.mem_filter.mpr ⟨hid, by rw [hfound]; rfl⟩)
        cases hnone
      | some record => rfl
    · intro h annotationId hid
      obtain ⟨hmem, hnone⟩ := List.mem_filter.mp hid
      obtain ⟨record, hfound⟩ := Option.isSome_iff_exists.mp (h annotationId hmem)
      rw [hfound] at hnone
      cases hnone
  have hchecks :
      (∀ blocker ∈ (failedChecks manifest annotations item).map (Blocker.item item.questionId),
        blocker.exempt = true) ↔
      ∀ check ∈ failedChecks manifest annotations item, check.exempt = true := by
    simp [Blocker.exempt]
  unfold blockersOf
  rw [List.forall_mem_append, hmissing, hchecks, failedChecks_exempt_iff, statusChecks_exempt_iff,
    finalChecks_exempt_iff]
  constructor
  · exact fun h =>
      ⟨h.annotationsThere, ⟨h.notDraft, h.gptAssisted, h.scored, h.adjudicated, h.consensus⟩,
        h.expertReviewed,
      h.humanReviewed, h.decided⟩
  · rintro ⟨hthere, ⟨hdraft, hgpt, hscored, hadjudicated, hconsensus⟩, hexpert, hhuman, hdecided⟩
    exact ⟨hthere, hdraft, hgpt, hscored, hadjudicated, hconsensus, hexpert, hhuman, hdecided⟩

theorem itemId_of_blockersOf {blocker : Blocker}
    (h : blocker ∈ blockersOf manifest annotations item) :
    blocker.ofCorpus = true ∧ blocker.itemId = some item.questionId ∧
    blocker.firstWord = item.questionId.val := by
  rcases List.mem_append.mp h with h | h
  · obtain ⟨annotationId, -, rfl⟩ := List.mem_map.mp h
    exact ⟨rfl, rfl, rfl⟩
  · obtain ⟨check, -, rfl⟩ := List.mem_map.mp h
    exact ⟨rfl, rfl, rfl⟩

/-- A blocker is about no item, or it is one of an item. -/
theorem mem_corpusBlockers {blocker : Blocker}
    (h : blocker ∈ corpusBlockers manifest items annotations) (hexempt : blocker.exempt = false) :
    blocker.ofCorpus = true ∧ blocker.firstWord ≠ "primary_item_count" ∨
      ∃ item ∈ items, blocker ∈ blockersOf manifest annotations item := by
  rcases List.mem_append.mp h with h | h
  · left
    rcases List.mem_append.mp h with h | h
    · rcases List.mem_append.mp h with h | h
      · have : blocker.exempt = true := by
          unfold sizeBlockers at h
          rcases List.mem_append.mp h with h | h <;> split at h
          · rw [List.mem_singleton.mp h]
            rfl
          · cases h
          · rw [List.mem_singleton.mp h]
            rfl
          · cases h
        rw [this] at hexempt
        cases hexempt
      · unfold splitBlockers at h
        dsimp only at h
        split at h
        · cases h
        · obtain ⟨⟨split, target⟩, -, h⟩ := List.mem_flatMap.mp h
          dsimp only at h
          split at h
          · rw [List.mem_singleton.mp h]
            refine ⟨rfl, ?_⟩
            show split.text ≠ _
            cases split <;> decide
          · cases h
    · obtain ⟨target, -, h⟩ := List.mem_flatMap.mp h
      dsimp only at h
      generalize (if (primaryItems items).length = 0 then (0 : Rat) else _) = observed at h
      split at h
      · cases h
      · rw [List.mem_singleton.mp h]
        refine ⟨rfl, ?_⟩
        show target.questionType.text ≠ _
        cases target.questionType <;> decide
  · right
    exact List.mem_flatMap.mp h

/-- The gate keeps every blocker of the other checks exactly if the item named like the item count,
if there is one, passes them. -/
theorem keepsOthers_iff (h : validateCorpus manifest items annotations = .ok report) :
    KeepsOthers report ↔
      ∀ item ∈ items, item.questionId.val = "primary_item_count" →
      PassesOthers manifest annotations item := by
  obtain ⟨haccepted, hblockers, hengineering, -, -⟩ := accepted_of_validateCorpus h
  unfold KeepsOthers
  rw [hengineering, hblockers]
  constructor
  · intro hkeeps item hitem hid
    refine passesOthers_iff.mpr fun blocker hblocker => ?_
    by_contra hexempt
    have hmem : blocker ∈ corpusBlockers manifest items annotations :=
      List.mem_append_right _ (List.mem_flatMap.mpr ⟨item, hitem, hblocker⟩)
    exact text_notMem_engineering (itemId_of_blockersOf hblocker).2.1 hid
      (hkeeps blocker hmem (Bool.not_eq_true _ ▸ hexempt))
  · intro hpasses blocker hblocker hexempt
    have hkept : blocker.kept = true := by
      rcases mem_corpusBlockers hblocker hexempt with ⟨hcorpus, hfirst⟩ | ⟨item, hitem, hof⟩
      · obtain ⟨rest, hunrecognized⟩ := exists_unrecognized hcorpus hexempt
        exact kept_of_unrecognized hunrecognized hfirst
      · obtain ⟨hcorpus, -, hword⟩ := itemId_of_blockersOf hof
        obtain ⟨rest, hunrecognized⟩ := exists_unrecognized hcorpus hexempt
        refine kept_of_unrecognized hunrecognized fun hfirst => ?_
        have := passesOthers_iff.mp (hpasses item hitem (hword.symm.trans hfirst)) blocker hof
        rw [this] at hexempt
        cases hexempt
    refine List.mem_map_of_mem ?_
    exact List.mem_append_left _ (List.mem_append_left _ (List.mem_filter.mpr ⟨hblocker, hkept⟩))

theorem keepsOthers_iff_gold :
    ∃ report, validateCorpus goldManifest goldItems goldAnnotations = .ok report ∧
    (KeepsOthers report ↔ ∀ item ∈ goldItems, item.questionId.val = "primary_item_count" →
      PassesOthers goldManifest goldAnnotations item) := by
  obtain ⟨report, hreport⟩ := gold_accepted.exists_report
  exact ⟨report, hreport, keepsOthers_iff hreport⟩

/-- A gate that keeps the other blockers is green only if there are none. -/
theorem exempt_of_engineeringReady (h : validateCorpus manifest items annotations = .ok report)
    (hkeeps : KeepsOthers report) (hready : report.engineeringReady = true) :
    ∀ blocker ∈ report.blockers, blocker.exempt = true := by
  intro blocker hblocker
  by_contra hexempt
  have hmem := hkeeps blocker hblocker (Bool.not_eq_true _ ▸ hexempt)
  rw [(accepted_of_validateCorpus h).2.2.2.2, List.isEmpty_iff] at hready
  rw [hready] at hmem
  cases hmem

/-- A draft with the name of the item count. -/
def misnamedDraft : EvaluationItemV1 :=
  { answerableItem with questionId := fixedId "primary_item_count" }

theorem misnamed_accepted : Accepted goldManifest [misnamedDraft] [] where
  questionIdsUnique := List.nodup_singleton _
  itemVersions := fun item hitem => by rw [List.mem_singleton.mp hitem]; rfl
  notLeaking := by decide
  annotationIdsUnique := List.nodup_nil
  referenced := fun record hrecord => by cases hrecord
  annotationsChecked := fun record hrecord => by cases hrecord
  recordsAbout := fun item hitem annotationId hid => by
    rw [List.mem_singleton.mp hitem] at hid
    cases hid

/-- The blocker of the draft is dropped. -/
theorem draft_dropped : ∃ report, validateCorpus goldManifest [misnamedDraft] [] = .ok report ∧
    .item (fixedId "primary_item_count") .draft ∈ report.blockers ∧
    (Blocker.item (fixedId "primary_item_count") .draft).text ∉ report.engineeringBlockers.map
      Blocker.text ∧ ¬KeepsOthers report := by
  obtain ⟨report, hreport⟩ := misnamed_accepted.exists_report
  obtain ⟨-, hblockers, hengineering, -, -⟩ := accepted_of_validateCorpus hreport
  have hmem : .item (fixedId "primary_item_count") .draft ∈ report.blockers := by
    rw [hblockers]
    refine List.mem_append_right _
      (List.mem_flatMap.mpr ⟨misnamedDraft, List.mem_singleton.mpr rfl, ?_⟩)
    exact List.mem_append_right _ (List.mem_map_of_mem (by decide))
  have hnot : (Blocker.item (fixedId "primary_item_count") .draft).text ∉
      report.engineeringBlockers.map Blocker.text := by
    rw [hengineering]
    exact text_notMem_engineering rfl rfl
  exact ⟨report, hreport, hmem, hnot, fun hkeeps => hnot (hkeeps _ hmem rfl)⟩

end ZhiyanRag.Evaluation
