import Mathlib.Data.List.Nodup
import ZhiyanRag.Base
import ZhiyanRag.Evaluation.CandidateNormalization

/-!
# What a normalized candidate is

`Normalized` says which members a returned candidate has. Every step leaves such a candidate as it
is and reports no repair (`normalizeCandidate_of_normalized`), also where a `NaN` stands in it,
since lists and tuples compare that by identity.
-/

namespace ZhiyanRag.Evaluation

open Retrieval

variable {intOfText : String → Option Int} {slot : JsonValue} {members : Members}
  {field other : String} {value : JsonValue}

/-! ### Members -/

theorem lookup_cons_ite (field name : String) (old : JsonValue) (rest : Members) :
    List.lookup field ((name, old) :: rest) = if field = name then some old
      else rest.lookup field := by
  rw [List.lookup_cons]
  by_cases h : field = name
  · rw [if_pos h, beq_iff_eq.mpr h]
  · rw [if_neg h, beq_false_of_ne h]

@[simp] theorem lookup_putMember : (putMember field value members).lookup other =
    if other = field then some value else members.lookup other := by
  induction members with
  | nil => exact lookup_cons_ite other field value []
  | cons entry rest ih =>
    obtain ⟨name, old⟩ := entry
    unfold putMember
    by_cases hname : name = field
    · subst hname
      rw [if_pos rfl, lookup_cons_ite, lookup_cons_ite]
      split_ifs <;> rfl
    · rw [if_neg hname, lookup_cons_ite, lookup_cons_ite, ih]
      by_cases h : other = name
      · rw [if_pos h, if_neg (h ▸ hname), if_pos h]
      · rw [if_neg h, if_neg h]

/-- Assigning what is there changes nothing. -/
theorem putMember_eq_self (h : members.lookup field = some value) :
    putMember field value members = members := by
  induction members with
  | nil => cases h
  | cons entry rest ih =>
    obtain ⟨name, old⟩ := entry
    unfold putMember
    rw [lookup_cons_ite] at h
    by_cases hname : name = field
    · rw [if_pos hname.symm] at h
      rw [if_pos hname, Option.some.inj h]
    · rw [if_neg (Ne.symm hname)] at h
      rw [if_neg hname, ih h]

theorem getItem_object (h : members.lookup field = some value) :
    getItem (.object members) field = .ok value := by
  show (members.lookup field).elim _ _ = _
  rw [h]
  rfl

theorem getItem_eq_ok {object : JsonValue} (h : getItem object field = .ok value) :
    ∃ members, object = .object members ∧ members.lookup field = some value := by
  unfold getItem at h
  split at h
  · rename_i members
    refine ⟨members, rfl, ?_⟩
    cases hlookup : members.lookup field with
    | none =>
      rw [hlookup] at h
      cases h
    | some found =>
      rw [hlookup] at h
      cases h
      rfl
  · cases h

theorem fail_ne_ok {α : Type} {text : String} {result : α} :
    fail slot text ≠ .ok result := fun h => by
  obtain ⟨_, -, h⟩ := bind_eq_ok.mp h
  cases h

/-! ### Loops that leave their own result -/

section

variable {α : Type} {same : α → α → Bool}

theorem fromKeys_subset (seen xs : List α) : fromKeys same seen xs ⊆ xs := by
  induction xs generalizing seen with
  | nil => exact List.Subset.refl _
  | cons x rest ih =>
    unfold fromKeys
    split_ifs
    · exact fun y hy => List.mem_cons_of_mem _ (ih seen hy)
    · exact List.cons_subset_cons x (ih _)

theorem fromKeys_distinct (seen xs : List α) :
    (fromKeys same seen xs).Pairwise (fun x y => same x y = false) ∧
      ∀ x ∈ fromKeys same seen xs, ∀ y ∈ seen, same y x = false := by
  induction xs generalizing seen with
  | nil => exact ⟨.nil, fun x hx => absurd hx List.not_mem_nil⟩
  | cons x rest ih =>
    unfold fromKeys
    split_ifs with h
    · exact ih seen
    · obtain ⟨hpairwise, hseen⟩ := ih (x :: seen)
      refine ⟨.cons (fun y hy => hseen y hy x List.mem_cons_self) hpairwise, fun y hy z hz => ?_⟩
      rcases List.mem_cons.mp hy with rfl | hy
      · exact Bool.eq_false_iff.mpr fun hsame => h (List.any_eq_true.mpr ⟨z, hz, hsame⟩)
      · exact hseen y hy z (List.mem_cons_of_mem _ hz)

/-- Distinct elements all stay. -/
theorem fromKeys_eq_self {seen xs : List α} (hpairwise : xs.Pairwise fun x y => same x y = false)
    (hseen : ∀ x ∈ xs, ∀ y ∈ seen, same y x = false) : fromKeys same seen xs = xs := by
  induction xs generalizing seen with
  | nil => rfl
  | cons x rest ih =>
    obtain ⟨hx, hrest⟩ := List.pairwise_cons.mp hpairwise
    have hnew : ¬(seen.any fun y => same y x) = true := fun h => by
      obtain ⟨y, hy, hsame⟩ := List.any_eq_true.mp h
      rw [hseen x List.mem_cons_self y hy] at hsame
      cases hsame
    unfold fromKeys
    rw [if_neg hnew, ih hrest fun y hy z hz => ?_]
    rcases List.mem_cons.mp hz with rfl | hz
    · exact hx y hy
    · exact hseen y (List.mem_cons_of_mem _ hy) z hz

theorem keepM_spec {p : α → Except NormalizeError Bool} {xs ys : List α} (h : keepM p xs = .ok ys) :
    keepM p ys = .ok ys ∧ ∀ y ∈ ys, p y = .ok true := by
  induction xs generalizing ys with
  | nil =>
    cases h
    exact ⟨rfl, fun y hy => absurd hy List.not_mem_nil⟩
  | cons x rest ih =>
    obtain ⟨kept, hkept, h⟩ := bind_eq_ok.mp h
    obtain ⟨zs, hzs, h⟩ := bind_eq_ok.mp h
    obtain ⟨hself, hall⟩ := ih hzs
    cases h
    cases kept with
    | false => exact ⟨hself, hall⟩
    | true =>
      refine ⟨?_, List.forall_mem_cons.mpr ⟨hkept, hall⟩⟩
      show (p x >>= fun kept => keepM p zs >>= fun xs => .ok (if kept then x :: xs else xs)) = _
      rw [hkept, hself]
      rfl

end

theorem strings_strings (values : List JsonValue) : strings (strings values) = strings values := by
  unfold strings
  rw [List.filter_filter]
  simp

/-! ### Claims -/

/-- Claims as the loop leaves them, none with a seen id. -/
inductive ClaimsKept : List String → List JsonValue → Prop
  | nil (seen : List String) : ClaimsKept seen []
  | cons {seen : List String} {claim : Members} {claimId text : String} {required : Bool}
      {rest : List JsonValue} (hid : claim.lookup "claim_id" = some (.str claimId))
      (htext : claim.lookup "text" = some (.str text))
      (hvisible : text.toList.all isPySpace = false)
      (hrequired : claim.lookup "required" = some (.bool required))
      (hfresh : claimId ∉ seen) (hrest : ClaimsKept (claimId :: seen) rest) :
      ClaimsKept seen (.object claim :: rest)

theorem defaultRequired_spec (claim : Members) :
    (∃ required, (defaultRequired claim).1.lookup "required" = some (.bool required)) ∧
    ∀ field ≠ "required", (defaultRequired claim).1.lookup field = claim.lookup field := by
  unfold defaultRequired
  split
  · rename_i required hrequired
    exact ⟨⟨required, hrequired⟩, fun _ _ => rfl⟩
  · exact ⟨⟨true, by rw [lookup_putMember, if_pos rfl]⟩,
      fun field hfield => by rw [lookup_putMember, if_neg hfield]⟩

theorem normalizeClaims_kept {seen : List String} {values claims : List JsonValue}
    {actions : List NormalizeAction}
    (h : normalizeClaims slot seen values = .ok (claims, actions)) : ClaimsKept seen claims := by
  induction values generalizing seen claims actions with
  | nil =>
    cases h
    exact .nil seen
  | cons value rest ih =>
    cases value with
    | object claim =>
      unfold normalizeClaims at h
      split at h
      · rename_i claimId text hid htext
        split_ifs at h with hblank hseen
        · exact absurd h fail_ne_ok
        · obtain ⟨⟨claims', actions'⟩, hrest, h⟩ := bind_eq_ok.mp h
          cases h
          exact ih hrest
        · obtain ⟨⟨claims', actions'⟩, hrest, h⟩ := bind_eq_ok.mp h
          cases h
          obtain ⟨⟨required, hrequired⟩, hother⟩ := defaultRequired_spec claim
          exact .cons ((hother _ (by decide)).trans hid) ((hother _ (by decide)).trans htext)
            (Bool.eq_false_iff.mpr hblank) hrequired hseen (ih hrest)
      · exact absurd h fail_ne_ok
    | _ => exact absurd h fail_ne_ok

theorem normalizeClaims_of_kept {seen : List String} {claims : List JsonValue}
    (h : ClaimsKept seen claims) : normalizeClaims slot seen claims = .ok (claims, []) := by
  induction h with
  | nil => rfl
  | @cons seen claim claimId text required rest hid htext hvisible hrequired hfresh _ ih =>
    have hdefault : defaultRequired claim = (claim, []) := by
      unfold defaultRequired
      rw [hrequired]
    unfold normalizeClaims
    simp only [hid, htext, hvisible, hfresh, ih, hdefault, if_false, Bool.false_eq_true]
    rfl

theorem ClaimsKept.distinct {seen : List String} {claims : List JsonValue}
    (h : ClaimsKept seen claims) :
    (claims.filterMap claimId?).Nodup ∧ ∀ id ∈ claims.filterMap claimId?, id ∉ seen := by
  induction h with
  | nil => exact ⟨List.nodup_nil, fun id hid => absurd hid List.not_mem_nil⟩
  | @cons seen claim claimId text required rest hid _ _ _ hfresh _ ih =>
    have hsome : claimId? (.object claim) = some claimId := by
      show ((claim.lookup "claim_id").getD .null).str? = _
      rw [hid]
      rfl
    rw [List.filterMap_cons_some hsome]
    refine ⟨List.nodup_cons.mpr ⟨fun hmem => ih.2 claimId hmem List.mem_cons_self, ih.1⟩,
      fun id hmem => ?_⟩
    rcases List.mem_cons.mp hmem with rfl | hmem
    · exact hfresh
    · exact fun hseen => ih.2 id hmem (List.mem_cons_of_mem _ hseen)

/-! ### Judgments -/

/-- A judgment as the loop leaves it, of this chunk. -/
structure JudgmentRepaired (context : JudgmentContext) (judgment : Members) (source : JsonValue) :
    Prop where
  documentId : ∃ value, getItem source "document_id" = .ok value ∧
    judgment.lookup "document_id" = some value
  pageStart : ∃ value, getItem source "page_start" = .ok value ∧
    judgment.lookup "page_start" = some value
  pageEnd : ∃ value, getItem source "page_end" = .ok value ∧ judgment.lookup "page_end" = some value
  links : ∃ ids : List String, judgment.lookup "supports_claims" = some (.array (ids.map .str)) ∧
    ids.Nodup ∧ ids ⊆ context.seenClaims
  negative : ∃ negative, isNegative context.answerability = .ok negative ∧
    (negative = true → judgment.lookup "supports_claims" = some (.array []) ∧
      ∃ relevance ≤ 1, judgment.lookup "relevance" = some (.int relevance))

theorem knownLinks_distinct (seenClaims : List String) (supports : List JsonValue) :
    (knownLinks seenClaims supports).Nodup ∧ knownLinks seenClaims supports ⊆ seenClaims := by
  refine ⟨(fromKeys_distinct _ _).1.imp fun h => of_decide_eq_false h, fun id hid => ?_⟩
  exact of_decide_eq_true (List.mem_filter.mp (fromKeys_subset _ _ hid)).2

theorem knownLinks_of_known {seenClaims ids : List String} (hnodup : ids.Nodup)
    (hknown : ids ⊆ seenClaims) : knownLinks seenClaims (ids.map .str) = ids := by
  have htexts : (ids.map JsonValue.str).filterMap JsonValue.str? = ids := by
    rw [List.filterMap_map]
    exact List.filterMap_some
  unfold knownLinks
  rw [htexts, List.filter_eq_self.mpr fun id hid => decide_eq_true (hknown hid)]
  exact fromKeys_eq_self (hnodup.imp fun h => decide_eq_false h) fun id _ other hother =>
    absurd hother List.not_mem_nil

theorem normalizeJudgment_repaired {context : JudgmentContext} {judgment repaired : Members}
    {source : JsonValue} {actions : List NormalizeAction}
    (h : normalizeJudgment intOfText context judgment source = .ok (repaired, actions)) :
    JudgmentRepaired context repaired source ∧
    repaired.lookup "chunk_id" = judgment.lookup "chunk_id" := by
  obtain ⟨documentId, hdocument, h⟩ := bind_eq_ok.mp h
  obtain ⟨pageStart, hstart, h⟩ := bind_eq_ok.mp h
  obtain ⟨pageEnd, hend, h⟩ := bind_eq_ok.mp h
  simp only at h
  split at h
  · rename_i supports _
    obtain ⟨hnodup, hknown⟩ := knownLinks_distinct context.seenClaims supports
    obtain ⟨negative, hnegative, h⟩ := bind_eq_ok.mp h
    cases negative with
    | true =>
      obtain ⟨relevance, hrelevance, h⟩ := bind_eq_ok.mp h
      cases h
      refine ⟨⟨⟨documentId, hdocument, ?_⟩, ⟨pageStart, hstart, ?_⟩, ⟨pageEnd, hend, ?_⟩,
        ⟨[], ?_, List.nodup_nil, List.nil_subset _⟩, true, hnegative, fun _ =>
          ⟨?_, if 1 < relevance then 1 else relevance, by split_ifs <;> omega, ?_⟩⟩, ?_⟩ <;> simp
    | false =>
      cases h
      refine ⟨⟨⟨documentId, hdocument, ?_⟩, ⟨pageStart, hstart, ?_⟩, ⟨pageEnd, hend, ?_⟩,
        ⟨_, ?_, hnodup, hknown⟩, false, hnegative, fun h => nomatch h⟩, ?_⟩ <;> simp
  · exact absurd h fail_ne_ok

/-- A repaired judgment stays, and there is nothing to repair. -/
theorem normalizeJudgment_of_repaired (intOfText : String → Option Int) {context : JudgmentContext}
    {judgment : Members} {source : JsonValue} (h : JudgmentRepaired context judgment source) :
    normalizeJudgment intOfText context judgment source = .ok (judgment, []) := by
  obtain ⟨documentId, hdocument, hdocument'⟩ := h.documentId
  obtain ⟨pageStart, hstart, hstart'⟩ := h.pageStart
  obtain ⟨pageEnd, hend, hend'⟩ := h.pageEnd
  obtain ⟨ids, hlinks, hnodup, hknown⟩ := h.links
  obtain ⟨negative, hnegative, hsupport⟩ := h.negative
  have hmetadata : [getMember judgment "document_id", getMember judgment "page_start",
      getMember judgment "page_end"] = [documentId, pageStart, pageEnd] := by
    unfold getMember
    rw [hdocument', hstart', hend']
    rfl
  have hplaced :
      putMember "page_end" pageEnd (putMember "page_start" pageStart
        (putMember "document_id" documentId judgment)) = judgment := by
    rw [putMember_eq_self hdocument', putMember_eq_self hstart', putMember_eq_self hend']
  refine bind_eq_ok.mpr
    ⟨documentId, hdocument, bind_eq_ok.mpr ⟨pageStart, hstart, bind_eq_ok.mpr ⟨pageEnd, hend, ?_⟩⟩⟩
  simp only [hmetadata, hplaced, hlinks, Option.getD_some, knownLinks_of_known hnodup hknown,
    JsonValue.equalItems_self, if_true, List.append_nil]
  refine bind_eq_ok.mpr ⟨negative, hnegative, ?_⟩
  cases negative with
  | true =>
    obtain ⟨hcleared, relevance, hlow, hrelevance⟩ := hsupport rfl
    obtain rfl : ids = [] := by
      rw [hlinks] at hcleared
      simpa using hcleared
    rw [List.map_nil, putMember_eq_self hcleared]
    refine bind_eq_ok.mpr ⟨relevance, by rw [hrelevance]; rfl, ?_⟩
    rw [if_neg (Int.not_lt.mpr hlow), putMember_eq_self hrelevance, putMember_eq_self hcleared]
    simp [hlow]
  | false => rw [if_neg Bool.false_ne_true, putMember_eq_self hlinks]

/-- Judgments as the loop leaves them, none of a seen chunk. -/
inductive JudgmentsKept (context : JudgmentContext) : List JsonValue → List JsonValue → Prop
  | nil (seen : List JsonValue) : JudgmentsKept context seen []
  | cons {seen : List JsonValue} {judgment : Members} {source : JsonValue} {rest : List JsonValue}
      (hhashable : isHashable (getMember judgment "chunk_id") = true)
      (hfound : findChunk context.allowed (getMember judgment "chunk_id") = some source)
      (hfresh : ∀ other ∈ seen, other.same (getMember judgment "chunk_id") = false)
      (hrepaired : JudgmentRepaired context judgment source)
      (hrest : JudgmentsKept context (getMember judgment "chunk_id" :: seen) rest) :
      JudgmentsKept context seen (.object judgment :: rest)

theorem normalizeJudgments_kept {context : JudgmentContext} {seen values judgments : List JsonValue}
    {actions : List NormalizeAction}
    (h : normalizeJudgments intOfText context seen values = .ok (judgments, actions)) :
    JudgmentsKept context seen judgments := by
  induction values generalizing seen judgments actions with
  | nil =>
    cases h
    exact .nil seen
  | cons value rest ih =>
    cases value with
    | object judgment =>
      unfold normalizeJudgments at h
      simp only at h
      split at h
      · cases h
      · rename_i hhashable
        split at h
        · exact absurd h fail_ne_ok
        · rename_i source hfound
          split at h
          · obtain ⟨⟨judgments', actions'⟩, hrest, h⟩ := bind_eq_ok.mp h
            cases h
            exact ih hrest
          · rename_i hfresh
            obtain ⟨⟨repaired, own⟩, hrepaired, h⟩ := bind_eq_ok.mp h
            obtain ⟨⟨judgments', actions'⟩, hrest, h⟩ := bind_eq_ok.mp h
            cases h
            obtain ⟨hrepaired, hsame⟩ := normalizeJudgment_repaired hrepaired
            have hchunk : getMember repaired "chunk_id" = getMember judgment "chunk_id" :=
              congrArg (·.getD .null) hsame
            rw [← hchunk] at hhashable hfound hfresh hrest
            refine .cons (by simpa using hhashable) hfound
              (fun other hother => Bool.eq_false_iff.mpr fun hequals => ?_) hrepaired (ih hrest)
            exact hfresh (List.any_eq_true.mpr ⟨other, hother, hequals⟩)
    | _ => exact absurd h fail_ne_ok

theorem normalizeJudgments_of_kept (intOfText : String → Option Int) {context : JudgmentContext}
    {seen judgments : List JsonValue} (h : JudgmentsKept context seen judgments) :
    normalizeJudgments intOfText context seen judgments = .ok (judgments, []) := by
  induction h with
  | nil => rfl
  | @cons seen judgment source rest hhashable hfound hfresh hrepaired _ ih =>
    have hnew : ¬(seen.any fun other => other.same (getMember judgment "chunk_id")) =
        true := fun hany => by
      obtain ⟨other, hother, hsame⟩ := List.any_eq_true.mp hany
      rw [hfresh other hother] at hsame
      cases hsame
    unfold normalizeJudgments
    simp only [hhashable, hfound, hnew, normalizeJudgment_of_repaired intOfText hrepaired, ih,
      Bool.not_true, Bool.false_eq_true, if_false]
    rfl

/-- Without links the known claims do not matter. -/
theorem JudgmentsKept.of_negative {context : JudgmentContext}
    (hnegative : isNegative context.answerability = .ok true) {seen judgments : List JsonValue}
    (h : JudgmentsKept context seen judgments) (seenClaims : List String) :
    JudgmentsKept { context with seenClaims := seenClaims } seen judgments := by
  induction h with
  | nil => exact .nil _
  | cons hhashable hfound hfresh hrepaired _ ih =>
    obtain ⟨negative, hnegative', hsupport⟩ := hrepaired.negative
    rw [hnegative] at hnegative'
    cases hnegative'
    exact .cons hhashable hfound hfresh
      { hrepaired with links := ⟨[], (hsupport rfl).1, List.nodup_nil, List.nil_subset _⟩ } ih

/-- The chunks are distinct, and each judgment is repaired. -/
theorem JudgmentsKept.distinct {context : JudgmentContext} {seen judgments : List JsonValue}
    (h : JudgmentsKept context seen judgments) :
    judgments.Pairwise (fun a b => (getMember (membersOf a) "chunk_id").same
      (getMember (membersOf b) "chunk_id") = false) ∧ ∀ judgment ∈ judgments, ∀ other ∈ seen,
        other.same (getMember (membersOf judgment) "chunk_id") = false := by
  induction h with
  | nil => exact ⟨.nil, fun judgment hjudgment => absurd hjudgment List.not_mem_nil⟩
  | cons _ _ hfresh _ _ ih =>
    refine ⟨.cons (fun other hother => ih.2 other hother _ List.mem_cons_self) ih.1,
      List.forall_mem_cons.mpr ⟨hfresh, ?_⟩⟩
    exact fun judgment hjudgment other hother => ih.2 judgment hjudgment other
      (List.mem_cons_of_mem _ hother)

theorem JudgmentsKept.repaired {context : JudgmentContext} {seen judgments : List JsonValue}
    (h : JudgmentsKept context seen judgments) :
    ∀ judgment ∈ judgments, ∃ members source, judgment = .object members ∧
      findChunk context.allowed (getMember members "chunk_id") = some source ∧
      JudgmentRepaired context members source := by
  induction h with
  | nil => exact fun judgment hjudgment => absurd hjudgment List.not_mem_nil
  | cons _ hfound _ hrepaired _ ih =>
    exact List.forall_mem_cons.mpr ⟨⟨_, _, rfl, hfound, hrepaired⟩, ih⟩

/-! ### Candidates -/

/-- What a run reads of the request, and the lists of the candidate it returns. -/
structure CandidateParts where
  slot : JsonValue
  primaryType : JsonValue
  slotAnswerability : JsonValue
  allowed : List (JsonValue × JsonValue)
  answerability : JsonValue
  negative : Bool
  claims : List JsonValue
  judgments : List JsonValue
  relevant : List JsonValue
  documents : List JsonValue
  history : List JsonValue
  points : List JsonValue
  forbidden : List JsonValue

def CandidateParts.context (parts : CandidateParts) : JudgmentContext where
  slot := parts.slot
  allowed := parts.allowed
  seenClaims := parts.claims.filterMap claimId?
  answerability := parts.answerability

/-- A candidate as it is returned for the request. -/
structure Normalized (request : JsonValue) (parts : CandidateParts) (candidate : Members) :
    Prop where
  slot : getItem request "slot" = .ok parts.slot
  primaryType : getItem parts.slot "primary_question_type" = .ok parts.primaryType
  slotAnswerability : getItem parts.slot "answerability" = .ok parts.slotAnswerability
  agrees : parts.answerability.equals parts.slotAnswerability = true
  allowed : ∃ chunks, (getItem request "evidence_chunks" >>= iterate) = .ok chunks ∧
    chunks.foldlM allowChunk [] = .ok parts.allowed
  negative : isNegative parts.answerability = .ok parts.negative
  documents : sourceDocuments parts.slot = .ok parts.documents
  claimsKept : ClaimsKept [] parts.claims
  judgmentsKept : JudgmentsKept parts.context [] parts.judgments
  relevant : relevantChunks parts.judgments = .ok parts.relevant
  history : keepM isTurn parts.history = .ok parts.history
  points : strings parts.points = parts.points
  forbidden : strings parts.forbidden = parts.forbidden
  cleared : parts.negative = true → parts.claims = [] ∧ parts.points = []
  questionTypesField : candidate.lookup "question_types" = some (.array [parts.primaryType])
  expectedRouteField : candidate.lookup "expected_route" = some (.str "HYBRID_QA")
  answerabilityField : candidate.lookup "answerability" = some parts.answerability
  claimsField : candidate.lookup "reference_claims" = some (.array parts.claims)
  judgmentsField : candidate.lookup "chunk_judgments" = some (.array parts.judgments)
  citationsField : candidate.lookup "expected_citations" = some (.array parts.relevant)
  documentsField : candidate.lookup "expected_document_ids" = some (.array parts.documents)
  historyField : candidate.lookup "conversation_history" = some (.array parts.history)
  pointsField : candidate.lookup "acceptable_answer_points" = some (.array parts.points)
  forbiddenField : candidate.lookup "must_not_claim" = some (.array parts.forbidden)

/-- Clearing changes the claims and answer points of a negative candidate only. -/
theorem clearSupport_spec {negative : Bool} {claims : List JsonValue} {candidate cleared : Members}
    {actions : List NormalizeAction}
    (h : clearSupport negative claims candidate = .ok (cleared, actions)) :
    (negative = false → cleared = candidate) ∧
      (negative = true → cleared.lookup "reference_claims" = some (.array []) ∧
        cleared.lookup "acceptable_answer_points" = some (.array [])) ∧
      ∀ field, field ≠ "reference_claims" → field ≠ "acceptable_answer_points" →
      cleared.lookup field = candidate.lookup field := by
  unfold clearSupport at h
  cases negative with
  | false =>
    cases h
    exact ⟨fun _ => rfl, fun h => absurd h Bool.false_ne_true, fun _ _ _ => rfl⟩
  | true =>
    obtain ⟨supported, -, h⟩ := bind_eq_ok.mp h
    cases h
    refine ⟨fun h => absurd h.symm Bool.false_ne_true, fun _ => ⟨by simp, by simp⟩,
      fun field hclaims hpoints => ?_⟩
    rw [lookup_putMember, if_neg hpoints, lookup_putMember, if_neg hclaims]

theorem normalized_of_run {request result candidate : JsonValue} {actions : List NormalizeAction}
    (h : normalizeCandidate intOfText request result = .ok (candidate, actions)) :
    ∃ parts members, candidate = .object members ∧ Normalized request parts members := by
  obtain ⟨copied, hcopied, h⟩ := bind_eq_ok.mp h
  obtain ⟨slot, hslot, h⟩ := bind_eq_ok.mp h
  obtain ⟨primaryType, hprimary, h⟩ := bind_eq_ok.mp h
  obtain ⟨questionTypes, htypes, h⟩ := bind_eq_ok.mp h
  obtain ⟨route, hroute, h⟩ := bind_eq_ok.mp h
  obtain ⟨answerability, hanswer, h⟩ := bind_eq_ok.mp h
  obtain ⟨slotAnswerability, hslotAnswer, h⟩ := bind_eq_ok.mp h
  split at h
  · exact absurd h fail_ne_ok
  rename_i hagrees
  obtain ⟨chunks, hchunks, h⟩ := bind_eq_ok.mp h
  obtain ⟨allowed, hallowed, h⟩ := bind_eq_ok.mp h
  obtain ⟨claimValues, hclaimValues, h⟩ := bind_eq_ok.mp h
  obtain ⟨⟨claims, claimActions⟩, hclaims, h⟩ := bind_eq_ok.mp h
  obtain ⟨judgmentValues, hjudgmentValues, h⟩ := bind_eq_ok.mp h
  obtain ⟨⟨judgments, judgmentActions⟩, hjudgments, h⟩ := bind_eq_ok.mp h
  obtain ⟨negative, hnegative, h⟩ := bind_eq_ok.mp h
  obtain ⟨⟨cleared, clearActions⟩, hcleared, h⟩ := bind_eq_ok.mp h
  obtain ⟨relevant, hrelevant, h⟩ := bind_eq_ok.mp h
  obtain ⟨citations, hcitations, h⟩ := bind_eq_ok.mp h
  obtain ⟨documents, hdocuments, h⟩ := bind_eq_ok.mp h
  obtain ⟨expected, hexpected, h⟩ := bind_eq_ok.mp h
  obtain ⟨history, hhistory, h⟩ := bind_eq_ok.mp h
  obtain ⟨points, hpoints, h⟩ := bind_eq_ok.mp h
  obtain ⟨forbidden, hforbidden, h⟩ := bind_eq_ok.mp h
  cases h
  obtain ⟨hkept, hsupport, hsame⟩ := clearSupport_spec hcleared
  have hjudgmentsKept := normalizeJudgments_kept hjudgments
  have hfinal : ∃ claims', cleared.lookup "reference_claims" = some (.array claims') ∧
      ClaimsKept [] claims' ∧
      JudgmentsKept { slot, allowed, seenClaims := claims'.filterMap claimId?, answerability } []
        judgments ∧
      (negative = true → claims' = []) := by
    cases negative with
    | false =>
      obtain rfl := hkept rfl
      exact ⟨claims, by simp, normalizeClaims_kept hclaims, hjudgmentsKept,
        fun h => absurd h Bool.false_ne_true⟩
    | true =>
      exact ⟨[], (hsupport rfl).1, .nil [], hjudgmentsKept.of_negative hnegative [], fun _ => rfl⟩
  obtain ⟨claims', hclaimsField, hclaimsKept, hjudgmentsKept', hnone⟩ := hfinal
  have hnoPoints : negative = true → points = [] := by
    intro hneg
    obtain ⟨value, hvalue, hiterate⟩ := bind_eq_ok.mp hpoints
    obtain ⟨_, heq, hlookup⟩ := getItem_eq_ok hvalue
    cases heq
    simp [(hsupport hneg).2] at hlookup
    subst hlookup
    exact (Except.ok.inj hiterate).symm
  obtain ⟨values, -, hhistoryKept⟩ := bind_eq_ok.mp hhistory
  have hanswerField : cleared.lookup "answerability" = some answerability := by
    obtain ⟨_, heq, hlookup⟩ := getItem_eq_ok hanswer
    cases heq
    rw [hsame _ (by decide) (by decide)]
    simpa using hlookup
  refine ⟨
    { slot, primaryType, slotAnswerability, allowed, answerability, negative, claims := claims',
      judgments, relevant, documents, history, points := strings points,
      forbidden := strings forbidden }, _, rfl, ?_⟩
  exact {
    slot := hslot
    primaryType := hprimary
    slotAnswerability := hslotAnswer
    agrees := by simpa using hagrees
    allowed := ⟨chunks, hchunks, hallowed⟩
    negative := hnegative
    documents := hdocuments
    claimsKept := hclaimsKept
    judgmentsKept := hjudgmentsKept'
    relevant := hrelevant
    history := (keepM_spec hhistoryKept).1
    points := strings_strings points
    forbidden := strings_strings forbidden
    cleared := fun hneg => ⟨hnone hneg, by rw [hnoPoints hneg]; rfl⟩
    questionTypesField := by simp [hsame]
    expectedRouteField := by simp [hsame]
    answerabilityField := by simpa using hanswerField
    claimsField := by simpa using hclaimsField
    judgmentsField := by simp [hsame]
    citationsField := by simp
    documentsField := by simp
    historyField := by simp
    pointsField := by simp
    forbiddenField := by simp }

/-! ### Normalizing again -/

theorem iterate_field {items : List JsonValue} (h : members.lookup field = some (.array items)) :
    (getItem (.object members) field >>= iterate) = .ok items := by
  rw [getItem_object h]
  rfl

theorem clearSupport_of_cleared {negative : Bool} {claims points : List JsonValue}
    (hclaims : members.lookup "reference_claims" = some (.array claims))
    (hpoints : members.lookup "acceptable_answer_points" = some (.array points))
    (h : negative = true → claims = [] ∧ points = []) :
    clearSupport negative claims members = .ok (members, []) := by
  cases negative with
  | false => rfl
  | true =>
    obtain ⟨rfl, rfl⟩ := h rfl
    have hsupport : hasSupport [] members = .ok false := by
      unfold hasSupport
      rw [if_neg (by simp), getItem_object hpoints]
      rfl
    unfold clearSupport
    rw [if_pos rfl, hsupport]
    show Except.ok (putMember _ _ (putMember _ _ members), _) = _
    rw [putMember_eq_self hclaims, putMember_eq_self hpoints]
    rfl

theorem normalizeCandidate_of_normalized (intOfText : String → Option Int)
    {request result : JsonValue} {parts : CandidateParts} (h : Normalized request parts members)
    (hresult : getItem result "candidate" = .ok (.object members)) :
    normalizeCandidate intOfText request result = .ok (.object members, []) := by
  obtain ⟨chunks, hchunks, hallowed⟩ := h.allowed
  refine bind_eq_ok.mpr ⟨_, hresult, bind_eq_ok.mpr ⟨_, h.slot, bind_eq_ok.mpr ⟨_, h.primaryType,
    bind_eq_ok.mpr ⟨_, getItem_object h.questionTypesField, ?_⟩⟩⟩⟩
  have htyped : putMember "question_types" (.array [parts.primaryType])
      (membersOf (.object members)) = members :=
    putMember_eq_self h.questionTypesField
  simp only [htyped]
  refine bind_eq_ok.mpr ⟨_, getItem_object h.expectedRouteField, ?_⟩
  simp only [putMember_eq_self h.expectedRouteField]
  refine bind_eq_ok.mpr ⟨_, getItem_object h.answerabilityField,
    bind_eq_ok.mpr ⟨_, h.slotAnswerability, ?_⟩⟩
  rw [h.agrees, if_neg (by simp)]
  refine bind_eq_ok.mpr
    ⟨chunks, hchunks, bind_eq_ok.mpr ⟨_, hallowed, bind_eq_ok.mpr ⟨_, iterate_field h.claimsField,
    bind_eq_ok.mpr ⟨_, normalizeClaims_of_kept h.claimsKept, ?_⟩⟩⟩⟩
  simp only [putMember_eq_self h.claimsField]
  refine bind_eq_ok.mpr ⟨_, iterate_field h.judgmentsField,
    bind_eq_ok.mpr ⟨_, normalizeJudgments_of_kept intOfText h.judgmentsKept, ?_⟩⟩
  simp only [putMember_eq_self h.judgmentsField]
  refine bind_eq_ok.mpr ⟨_, h.negative,
    bind_eq_ok.mpr ⟨_, clearSupport_of_cleared h.claimsField h.pointsField h.cleared,
      bind_eq_ok.mpr ⟨_, h.relevant, bind_eq_ok.mpr ⟨_, getItem_object h.citationsField, ?_⟩⟩⟩⟩
  simp only [putMember_eq_self h.citationsField]
  refine bind_eq_ok.mpr ⟨_, h.documents, bind_eq_ok.mpr ⟨_, getItem_object h.documentsField, ?_⟩⟩
  simp only [putMember_eq_self h.documentsField]
  refine bind_eq_ok.mpr ⟨parts.history, ?_, ?_⟩
  · rw [iterate_field h.historyField]
    exact h.history
  simp only [putMember_eq_self h.historyField]
  refine bind_eq_ok.mpr ⟨_, iterate_field h.pointsField, ?_⟩
  simp only [h.points, putMember_eq_self h.pointsField]
  refine bind_eq_ok.mpr ⟨_, iterate_field h.forbiddenField, ?_⟩
  simp only [h.forbidden, putMember_eq_self h.forbiddenField]
  rw [JsonValue.equals_self rfl, JsonValue.equals_self rfl, JsonValue.equals_self rfl,
    JsonValue.equals_self rfl]
  rfl

/-! ### What was repaired -/

/-- The items of a list. -/
def itemsAt (candidate : JsonValue) (field : String) : List JsonValue :=
  (getMember (membersOf candidate) field).items

def chunkIdOf (judgment : JsonValue) : JsonValue := getMember (membersOf judgment) "chunk_id"

/-- `relevance >= 2`. -/
def judgedRelevant (judgment : JsonValue) : Bool :=
  match atLeastTwo (relevanceOf judgment) with
  | .ok relevant => relevant
  | .error _ => false

/-- An evidence chunk of the request with this id. -/
def IsEvidence (request chunkId source : JsonValue) : Prop :=
  ∃ chunks id, (getItem request "evidence_chunks" >>= iterate) = .ok chunks ∧ source ∈ chunks ∧
    getItem source "chunk_id" = .ok id ∧ id.same chunkId = true

/-- Equality of scalars is symmetric. -/
theorem equals_symm_of_hashable {a b : JsonValue} (ha : isHashable a = true)
    (h : a.equals b = true) : b.equals a = true := by
  cases hnumber : a.number? with
  | some x =>
    obtain ⟨hne, hb⟩ := JsonValue.number_of_equals hnumber h
    rw [JsonValue.equals_of_number hb hnumber]
    exact PyFloat.equals_iff.mpr ⟨hne, rfl⟩
  | none =>
    cases a <;> cases b <;> simp_all [JsonValue.number?, JsonValue.equals, isHashable]

theorem same_symm_of_hashable {a b : JsonValue} (ha : isHashable a = true) (h : a.same b = true) :
    b.same a = true :=
  JsonValue.same_iff.mpr
    ((JsonValue.same_iff.mp h).imp (fun hnan => ⟨hnan.2, hnan.1⟩) (equals_symm_of_hashable ha))

/-- An entry of the allowed chunks is an evidence chunk under an id that is equal to its own. -/
structure AllowedEntry (chunks : List JsonValue) (entry : JsonValue × JsonValue) : Prop where
  source : entry.2 ∈ chunks
  hashable : isHashable entry.1 = true
  ownId : ∃ id, getItem entry.2 "chunk_id" = .ok id ∧ entry.1.same id = true

theorem mem_putChunk {chunkId chunk : JsonValue} {allowed : List (JsonValue × JsonValue)}
    {entry : JsonValue × JsonValue} (h : entry ∈ putChunk chunkId chunk allowed) :
    entry ∈ allowed ∨ entry = (chunkId, chunk) ∨ ∃ old ∈ allowed, old.1.same chunkId = true ∧
    entry = (old.1, chunk) := by
  induction allowed with
  | nil => exact .inr (.inl (List.mem_singleton.mp h))
  | cons first rest ih =>
    obtain ⟨key, old⟩ := first
    unfold putChunk at h
    split_ifs at h with hkey
    · rcases List.mem_cons.mp h with rfl | h
      · exact .inr (.inr ⟨_, List.mem_cons_self, hkey, rfl⟩)
      · exact .inl (List.mem_cons_of_mem _ h)
    · rcases List.mem_cons.mp h with rfl | h
      · exact .inl List.mem_cons_self
      · rcases ih h with h | h | ⟨other, hother, hequals, heq⟩
        · exact .inl (List.mem_cons_of_mem _ h)
        · exact .inr (.inl h)
        · exact .inr (.inr ⟨other, List.mem_cons_of_mem _ hother, hequals, heq⟩)

theorem allowed_entries {chunks : List JsonValue} {allowed : List (JsonValue × JsonValue)}
    (h : chunks.foldlM allowChunk [] = .ok allowed) :
    ∀ entry ∈ allowed, AllowedEntry chunks entry := by
  refine foldlM_invariant (I := fun allowed => ∀ entry ∈ allowed, AllowedEntry chunks entry) ?_
    (fun entry hentry => absurd hentry List.not_mem_nil) h
  intro allowed chunk next hchunk hallowed hstep entry hentry
  obtain ⟨chunkId, hid, hstep⟩ := bind_eq_ok.mp hstep
  split_ifs at hstep with hhashable
  cases hstep
  rcases mem_putChunk hentry with hold | rfl | ⟨old, hold, hsame, rfl⟩
  · exact hallowed entry hold
  · exact ⟨hchunk, hhashable, chunkId, hid, chunkId.same_self⟩
  · exact ⟨hchunk, (hallowed old hold).hashable, chunkId, hid, hsame⟩

theorem Normalized.isEvidence {request : JsonValue} {parts : CandidateParts}
    (h : Normalized request parts members) {chunkId source : JsonValue}
    (hfound : findChunk parts.allowed chunkId = some source) :
    IsEvidence request chunkId source := by
  obtain ⟨chunks, hchunks, hallowed⟩ := h.allowed
  obtain ⟨entry, hentry, rfl⟩ := Option.map_eq_some_iff.mp hfound
  have hspec := allowed_entries hallowed entry (List.mem_of_find?_eq_some hentry)
  have hsame : entry.1.same chunkId = true := by simpa using List.find?_some hentry
  obtain ⟨id, hid, hown⟩ := hspec.ownId
  exact ⟨chunks, id, hchunks, hspec.source, hid,
    JsonValue.same_trans (same_symm_of_hashable hspec.hashable hown) hsame⟩

theorem relevantChunks_spec {judgments relevant : List JsonValue}
    (h : relevantChunks judgments = .ok relevant) :
    relevant = (judgments.filter judgedRelevant).map chunkIdOf := by
  induction judgments generalizing relevant with
  | nil =>
    cases h
    rfl
  | cons judgment rest ih =>
    obtain ⟨high, hhigh, h⟩ := bind_eq_ok.mp h
    have hrelevant : judgedRelevant judgment = high := by
      unfold judgedRelevant
      rw [hhigh]
    cases high with
    | false =>
      rw [List.filter_cons_of_neg (by rw [hrelevant]; exact Bool.false_ne_true)]
      exact ih h
    | true =>
      obtain ⟨chunkId, hid, h⟩ := bind_eq_ok.mp h
      obtain ⟨chunkIds, hrest, h⟩ := bind_eq_ok.mp h
      cases h
      obtain ⟨members, rfl, hlookup⟩ := getItem_eq_ok hid
      have hchunk : chunkIdOf (.object members) = chunkId := by
        show (members.lookup "chunk_id").getD .null = chunkId
        rw [hlookup]
        rfl
      rw [List.filter_cons_of_pos hrelevant, List.map_cons, hchunk, ih hrest]

theorem ClaimsKept.isSome {seen : List String} {claims : List JsonValue}
    (h : ClaimsKept seen claims) : ∀ claim ∈ claims, (claimId? claim).isSome = true := by
  induction h with
  | nil => exact fun claim hclaim => absurd hclaim List.not_mem_nil
  | @cons seen claim claimId _ _ _ hid _ _ _ _ _ ih =>
    refine List.forall_mem_cons.mpr ⟨?_, ih⟩
    show (((claim.lookup "claim_id").getD .null).str?).isSome = true
    rw [hid]
    rfl

theorem judgedRelevant_of_low {judgment : JsonValue} {relevance : Int} (hlow : relevance ≤ 1)
    (hrelevance : getItem judgment "relevance" = .ok (.int relevance)) :
    judgedRelevant judgment = false := by
  obtain ⟨own, rfl, hlookup⟩ := getItem_eq_ok hrelevance
  have hvalue : relevanceOf (.object own) = .int relevance := by
    show (own.lookup "relevance").getD (.int 0) = _
    rw [hlookup]
    rfl
  have hnumber : atLeastTwo (.int relevance) = .ok false := by
    show Except.ok (decide ((2 : Rat) ≤ (relevance : Rat))) = _
    rw [decide_eq_false fun h => ?_]
    have : (2 : Int) ≤ relevance := Rat.intCast_le_intCast.mp h
    omega
  unfold judgedRelevant
  rw [hvalue, hnumber]

namespace Normalized

variable {request : JsonValue} {parts : CandidateParts}

/-- The judgments carry the metadata of their chunks. -/
theorem metadata_kept (h : Normalized request parts members) :
    ∀ judgment ∈ parts.judgments, ∃ source, IsEvidence request (chunkIdOf judgment) source ∧
      ∀ field ∈ ["document_id", "page_start", "page_end"], ∃ value,
        getItem source field = .ok value ∧ getItem judgment field = .ok value := by
  intro judgment hjudgment
  obtain ⟨own, source, rfl, hfound, hrepaired⟩ := h.judgmentsKept.repaired judgment hjudgment
  refine ⟨source, h.isEvidence hfound, fun field hfield => ?_⟩
  simp only [List.mem_cons, List.not_mem_nil, or_false] at hfield
  rcases hfield with rfl | rfl | rfl
  · obtain ⟨value, hsource, hown⟩ := hrepaired.documentId
    exact ⟨value, hsource, getItem_object hown⟩
  · obtain ⟨value, hsource, hown⟩ := hrepaired.pageStart
    exact ⟨value, hsource, getItem_object hown⟩
  · obtain ⟨value, hsource, hown⟩ := hrepaired.pageEnd
    exact ⟨value, hsource, getItem_object hown⟩

theorem negative_of_answerability (h : Normalized request parts members)
    (hanswer : getItem (.object members) "answerability" = .ok (.str "NO_EVIDENCE") ∨
      getItem (.object members) "answerability" = .ok (.str "FORBIDDEN")) :
    parts.negative = true := by
  rw [getItem_object h.answerabilityField] at hanswer
  have hrun := h.negative
  rcases hanswer.imp Except.ok.inj Except.ok.inj with heq | heq <;>
    rw [heq] at hrun <;> exact (Except.ok.inj hrun).symm

/-- In a negative candidate no judgment supports a claim, and none is relevant. -/
theorem supports_nothing (h : Normalized request parts members)
    (hnegative : parts.negative = true) :
    ∀ judgment ∈ parts.judgments, getItem judgment "supports_claims" = .ok (.array []) ∧
      ∃ relevance ≤ 1, getItem judgment "relevance" = .ok (.int relevance) := by
  intro judgment hjudgment
  obtain ⟨own, source, rfl, -, hrepaired⟩ := h.judgmentsKept.repaired judgment hjudgment
  obtain ⟨negative, hrun, hsupport⟩ := hrepaired.negative
  have hsame : negative = true := by
    have hboth : isNegative parts.answerability = .ok negative := hrun
    rw [h.negative, hnegative] at hboth
    exact (Except.ok.inj hboth).symm
  obtain ⟨hempty, relevance, hlow, hrelevance⟩ := hsupport hsame
  exact ⟨getItem_object hempty, relevance, hlow, getItem_object hrelevance⟩

theorem cites_nothing (h : Normalized request parts members) (hnegative : parts.negative = true) :
    parts.relevant = [] := by
  rw [relevantChunks_spec h.relevant, List.filter_eq_nil_iff.mpr fun judgment hjudgment => ?_,
    List.map_nil]
  obtain ⟨-, relevance, hlow, hrelevance⟩ := h.supports_nothing hnegative judgment hjudgment
  rw [judgedRelevant_of_low hlow hrelevance]
  exact Bool.false_ne_true

end Normalized

/-- What holds of a returned candidate, and what another run makes of it. -/
structure RepairedCandidate (intOfText : String → Option Int) (request candidate : JsonValue) :
    Prop where
  claimIds : (∀ claim ∈ itemsAt candidate "reference_claims", (claimId? claim).isSome = true) ∧
    ((itemsAt candidate "reference_claims").filterMap claimId?).Nodup
  chunkIds : (itemsAt candidate "chunk_judgments").Pairwise fun a b =>
    (chunkIdOf a).same (chunkIdOf b) = false
  metadata : ∀ judgment ∈ itemsAt candidate "chunk_judgments", ∃ source,
    IsEvidence request (chunkIdOf judgment) source ∧
    ∀ field ∈ ["document_id", "page_start", "page_end"], ∃ value, getItem source field = .ok value ∧
    getItem judgment field = .ok value
  links : ∀ judgment ∈ itemsAt candidate "chunk_judgments", ∃ ids : List String,
    getItem judgment "supports_claims" = .ok (.array (ids.map .str)) ∧ ids.Nodup ∧
      ids ⊆ (itemsAt candidate "reference_claims").filterMap claimId?
  citations : getItem candidate "expected_citations" =
    .ok (.array (((itemsAt candidate "chunk_judgments").filter judgedRelevant).map chunkIdOf))
  negative : (getItem candidate "answerability" = .ok (.str "NO_EVIDENCE") ∨
    getItem candidate "answerability" = .ok (.str "FORBIDDEN")) →
    getItem candidate "reference_claims" = .ok (.array []) ∧
      getItem candidate "acceptable_answer_points" = .ok (.array []) ∧
      getItem candidate "expected_citations" = .ok (.array []) ∧
      ∀ judgment ∈ itemsAt candidate "chunk_judgments",
        getItem judgment "supports_claims" = .ok (.array []) ∧ ∃ relevance ≤ 1,
          getItem judgment "relevance" = .ok (.int relevance)
  again : ∀ result, getItem result "candidate" = .ok candidate → ∃ again,
    normalizeCandidate intOfText request result = .ok (again, []) ∧ again = candidate ∧
    again.equals candidate = true

theorem normalizeCandidate_repairs {request result candidate : JsonValue}
    {actions : List NormalizeAction}
    (h : normalizeCandidate intOfText request result = .ok (candidate, actions)) :
    RepairedCandidate intOfText request candidate := by
  obtain ⟨parts, members, rfl, hnormalized⟩ := normalized_of_run h
  have hclaims : itemsAt (.object members) "reference_claims" = parts.claims := by
    show ((members.lookup "reference_claims").getD .null).items = _
    rw [hnormalized.claimsField]
    rfl
  have hjudgments : itemsAt (.object members) "chunk_judgments" = parts.judgments := by
    show ((members.lookup "chunk_judgments").getD .null).items = _
    rw [hnormalized.judgmentsField]
    rfl
  refine ⟨?_, ?_, ?_, ?_, ?_, fun hanswer => ?_, fun result hresult => ?_⟩
  · rw [hclaims]
    exact ⟨hnormalized.claimsKept.isSome, hnormalized.claimsKept.distinct.1⟩
  · rw [hjudgments]
    exact hnormalized.judgmentsKept.distinct.1
  · rw [hjudgments]
    exact hnormalized.metadata_kept
  · rw [hjudgments, hclaims]
    intro judgment hjudgment
    obtain ⟨own, source, rfl, -, hrepaired⟩ := hnormalized.judgmentsKept.repaired judgment hjudgment
    obtain ⟨ids, hlinks, hnodup, hknown⟩ := hrepaired.links
    exact ⟨ids, getItem_object hlinks, hnodup, hknown⟩
  · rw [hjudgments, ← relevantChunks_spec hnormalized.relevant]
    exact getItem_object hnormalized.citationsField
  · have hnegative := hnormalized.negative_of_answerability hanswer
    obtain ⟨hnoClaims, hnoPoints⟩ := hnormalized.cleared hnegative
    rw [hjudgments]
    exact ⟨hnoClaims ▸ getItem_object hnormalized.claimsField,
      hnoPoints ▸ getItem_object hnormalized.pointsField,
      hnormalized.cites_nothing hnegative ▸ getItem_object hnormalized.citationsField,
      hnormalized.supports_nothing hnegative⟩
  · exact ⟨_, normalizeCandidate_of_normalized intOfText hnormalized hresult, rfl,
      JsonValue.equals_self rfl⟩

/-! ### A candidate with one judgment -/

def answerableRequest : JsonValue := .object [
  ("slot", .object [("slot_id", .str "slot_1"), ("primary_question_type", .str "exact_lookup"),
    ("answerability", .str "ANSWERABLE"), ("source_document_ids", .array [.str "document_1"])]),
  ("evidence_chunks",
    .array [.object [("chunk_id", .str "chunk_1"), ("document_id", .str "document_1"),
      ("page_start", .int 1),
    ("page_end", .int 2)]])]

def judgedCandidate (relevance : JsonValue) (citations : List JsonValue) : JsonValue := .object [
  ("question_types", .array [.str "exact_lookup"]), ("expected_route", .str "HYBRID_QA"),
  ("answerability", .str "ANSWERABLE"),
  ("reference_claims", .array []),
  ("chunk_judgments",
    .array [.object [("chunk_id", .str "chunk_1"), ("document_id", .str "document_1"),
      ("page_start", .int 1),
    ("page_end", .int 2), ("relevance", relevance), ("supports_claims", .array [])]]),
  ("expected_citations", .array citations), ("expected_document_ids", .array [.str "document_1"]),
  ("conversation_history", .array []),
  ("acceptable_answer_points", .array []), ("must_not_claim", .array [])]

theorem normalizeCandidate_repairs_judged :
    RepairedCandidate String.toInt? answerableRequest (judgedCandidate (.int 3) [.str "chunk_1"]) :=
  normalizeCandidate_repairs (rfl : normalizeCandidate String.toInt? answerableRequest
    (.object [("candidate", judgedCandidate (.int 3) [])]) = .ok (_, [.deriveExpectedCitations]))

/-- A `NaN` that the model gave as relevance stays. -/
example : (normalizeCandidate String.toInt? answerableRequest
    (.object [("candidate", judgedCandidate (.float .nan) [])])).toOption.map (fun returned =>
      (returned.1.equals (judgedCandidate (.float .nan) []), returned.2)) =
        some (true, []) := by decide +kernel

end ZhiyanRag.Evaluation
