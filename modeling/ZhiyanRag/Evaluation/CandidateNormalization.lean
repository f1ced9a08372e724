import Mathlib.Data.List.Basic
import ZhiyanRag.Base
import ZhiyanRag.Retrieval.Json

/-!
# Normalization of candidates

`normalize_candidate` of `finalize_assisted_candidates.py` over the JSON values of a request and of
a model's result. Every value of a member may have any type; what the code raises for it is an error
here. A member that is absent is `None` for `get`. Both values come from `json.loads`, as the copy
of the candidate does, so every `NaN` in them is one object.
-/

namespace ZhiyanRag.Evaluation

open Retrieval

abbrev Members := List (String × JsonValue)

/-- A raised exception. -/
inductive NormalizeError
  /-- `ValueError(f"{slot['slot_id']}: text")`. -/
  | message (slotId : JsonValue) (text : String)
  | keyError (field : String)
  | typeError
  /-- `int(value)` of a text that is no integer, or of no finite float. -/
  | noInteger

/-- What was repaired. -/
inductive NormalizeAction
  | setPrimaryQuestionType
  | setExpectedRoute
  | dropDuplicateReferenceClaim
  | defaultReferenceClaimRequired
  | dropDuplicateChunkJudgment
  | canonicalizeChunkMetadata
  | filterClaimLinks
  | enforceNonSupportingNegativeJudgment
  | clearSupportContent
  | deriveExpectedCitations
  | setExpectedDocuments
  deriving DecidableEq

def NormalizeAction.text : NormalizeAction → String
  | setPrimaryQuestionType => "SET_PRIMARY_QUESTION_TYPE_FROM_SLOT"
  | setExpectedRoute => "SET_EXPECTED_ROUTE_HYBRID_QA"
  | dropDuplicateReferenceClaim => "DROP_DUPLICATE_REFERENCE_CLAIM"
  | defaultReferenceClaimRequired => "DEFAULT_REFERENCE_CLAIM_REQUIRED_TRUE"
  | dropDuplicateChunkJudgment => "DROP_DUPLICATE_CHUNK_JUDGMENT"
  | canonicalizeChunkMetadata => "CANONICALIZE_CHUNK_METADATA_FROM_SOURCE"
  | filterClaimLinks => "FILTER_UNKNOWN_OR_DUPLICATE_CLAIM_LINKS"
  | enforceNonSupportingNegativeJudgment => "ENFORCE_NON_SUPPORTING_NEGATIVE_JUDGMENT"
  | clearSupportContent => "CLEAR_SUPPORT_CONTENT_FOR_NEGATIVE_ITEM"
  | deriveExpectedCitations => "DERIVE_EXPECTED_CITATIONS_FROM_RELEVANT_JUDGMENTS"
  | setExpectedDocuments => "SET_EXPECTED_DOCUMENTS_FROM_SLOT"

/-! ### Python's operations on JSON values -/

/-- `value[field]`. -/
def getItem (value : JsonValue) (field : String) : Except NormalizeError JsonValue :=
  match value with
  | .object members => (members.lookup field).elim (.error (.keyError field)) .ok
  | _ => .error .typeError

/-- `members.get(field)`. -/
def getMember (members : Members) (field : String) : JsonValue := (members.lookup field).getD .null

/-- `members[field] = value`. -/
def putMember (field : String) (value : JsonValue) : Members → Members
  | [] => [(field, value)]
  | (name, old) :: rest => if name = field then (name, value) :: rest else (name, old) ::
      putMember field value rest

/-- What a loop over the value yields. -/
def iterate : JsonValue → Except NormalizeError (List JsonValue)
  | .array items => .ok items
  | .object members => .ok (members.map fun entry => .str entry.1)
  | .str text => .ok (text.toList.map fun c => .str (String.ofList [c]))
  | _ => .error .typeError

def isHashable : JsonValue → Bool
  | .array _ | .object _ => false
  | _ => true

/-- `bool(value)`. -/
def truthy : JsonValue → Bool
  | .null => false
  | .bool value => value
  | .int value => decide (value ≠ 0)
  | .float value => decide (value ≠ .finite 0)
  | .str text => decide (text ≠ "")
  | .array items => !items.isEmpty
  | .object members => !members.isEmpty

/-- `int(value)`; `intOfText` is `int` of a string. -/
def toInt (intOfText : String → Option Int) : JsonValue → Except NormalizeError Int
  | .int value => .ok value
  | .bool value => .ok value.toNat
  | .float (.finite value) => .ok (value.num.tdiv value.den)
  | .float _ => .error .noInteger
  | .str text => (intOfText text).elim (.error .noInteger) .ok
  | _ => .error .typeError

/-- `value >= 2`. -/
def atLeastTwo (value : JsonValue) : Except NormalizeError Bool :=
  match value.number? with
  | some (.finite number) => .ok (decide (2 ≤ number))
  | some (.infinite negative) => .ok !negative
  | some .nan => .ok false
  | none => .error .typeError

/-- The first of each class of equal elements: `list(dict.fromkeys(...))`. -/
def fromKeys {α : Type} (same : α → α → Bool) : List α → List α → List α
  | _, [] => []
  | seen, x :: rest => if seen.any fun y => same y x then fromKeys same seen rest
      else x :: fromKeys same (x :: seen) rest

def keepM {α : Type} (p : α → Except NormalizeError Bool) : List α → Except NormalizeError (List α)
  | [] => .ok []
  | x :: rest => do
    let kept ← p x
    let xs ← keepM p rest
    .ok (if kept then x :: xs else xs)

/-! ### The steps -/

def fail {α : Type} (slot : JsonValue) (text : String) : Except NormalizeError α := do
  let slotId ← getItem slot "slot_id"
  .error (.message slotId text)

/-- `answerability in {"NO_EVIDENCE", "FORBIDDEN"}`. -/
def isNegative (answerability : JsonValue) : Except NormalizeError Bool :=
  if isHashable answerability
    then .ok (answerability.str?.any fun text => decide (text = "NO_EVIDENCE" ∨ text = "FORBIDDEN"))
  else .error .typeError

def defaultRequired (claim : Members) : Members × List NormalizeAction :=
  match claim.lookup "required" with
  | some (.bool _) => (claim, [])
  | _ => (putMember "required" (.bool true) claim, [.defaultReferenceClaimRequired])

/-- The loop over the claims, with the ids seen so far. -/
def normalizeClaims (slot : JsonValue) : List String → List JsonValue → Except NormalizeError
    (List JsonValue × List NormalizeAction)
  | _, [] => .ok ([], [])
  | seen, .object claim :: rest =>
    match claim.lookup "claim_id", claim.lookup "text" with
    | some (.str claimId), some (.str text) =>
      if text.toList.all isPySpace then fail slot "invalid reference claim"
      else if claimId ∈ seen then do
        let (claims, actions) ← normalizeClaims slot seen rest
        .ok (claims, .dropDuplicateReferenceClaim :: actions)
      else do
        let (claims, actions) ← normalizeClaims slot (claimId :: seen) rest
        .ok (.object (defaultRequired claim).1 :: claims, (defaultRequired claim).2 ++ actions)
    | _, _ => fail slot "invalid reference claim"
  | _, _ :: _ => fail slot "reference claim must be an object"

/-- The id of a claim. -/
def claimId? : JsonValue → Option String
  | .object claim => (getMember claim "claim_id").str?
  | _ => none

/-- `allowed_chunks[chunk_id] = chunk`. -/
def putChunk (chunkId chunk : JsonValue) :
    List (JsonValue × JsonValue) → List (JsonValue × JsonValue)
  | [] => [(chunkId, chunk)]
  | (key, old) :: rest => if key.same chunkId then (key, chunk) :: rest else (key, old) ::
      putChunk chunkId chunk rest

def allowChunk (allowed : List (JsonValue × JsonValue)) (chunk : JsonValue) :
    Except NormalizeError (List (JsonValue × JsonValue)) := do
  let chunkId ← getItem chunk "chunk_id"
  if isHashable chunkId then .ok (putChunk chunkId chunk allowed) else .error .typeError

def findChunk (allowed : List (JsonValue × JsonValue)) (chunkId : JsonValue) : Option JsonValue :=
  (allowed.find? fun entry => entry.1.same chunkId).map (·.2)

/-- What the loop over the judgments reads. -/
structure JudgmentContext where
  slot : JsonValue
  allowed : List (JsonValue × JsonValue)
  seenClaims : List String
  answerability : JsonValue

/-- The links to known claims, each once. -/
def knownLinks (seenClaims : List String) (supports : List JsonValue) : List String :=
  fromKeys (fun a b => decide (a = b)) [] ((supports.filterMap JsonValue.str?).filter
    fun id => decide (id ∈ seenClaims))

def normalizeJudgment (intOfText : String → Option Int) (context : JudgmentContext)
    (judgment : Members) (source : JsonValue) :
    Except NormalizeError (Members × List NormalizeAction) := do
  let documentId ← getItem source "document_id"
  let pageStart ← getItem source "page_start"
  let pageEnd ← getItem source "page_end"
  let canonical :=
    JsonValue.equalItems [getMember judgment "document_id", getMember judgment "page_start",
      getMember judgment "page_end"]
    [documentId, pageStart, pageEnd]
  let metadataActions := if canonical then [] else [.canonicalizeChunkMetadata]
  let placed := putMember "page_end" pageEnd
    (putMember "page_start" pageStart (putMember "document_id" documentId judgment))
  match (placed.lookup "supports_claims").getD (.array []) with
  | .array supports =>
    let links := (knownLinks context.seenClaims supports).map JsonValue.str
    let linkActions := if JsonValue.equalItems links supports then [] else [.filterClaimLinks]
    let linked := putMember "supports_claims" (.array links) placed
    let negative ← isNegative context.answerability
    if negative then do
      let relevance ← toInt intOfText ((linked.lookup "relevance").getD (.int 0))
      let enforceActions := if decide (1 < relevance) || !links.isEmpty
        then [.enforceNonSupportingNegativeJudgment] else []
      .ok (putMember "supports_claims" (.array [])
        (putMember "relevance" (.int (if 1 < relevance then 1 else relevance)) linked),
        metadataActions ++ linkActions ++ enforceActions)
    else .ok (linked, metadataActions ++ linkActions)
  | _ => fail context.slot "supports_claims must be a list"

/-- The loop over the judgments, with the chunk ids seen so far. -/
def normalizeJudgments (intOfText : String → Option Int) (context : JudgmentContext) :
    List JsonValue → List JsonValue → Except NormalizeError (List JsonValue × List NormalizeAction)
  | _, [] => .ok ([], [])
  | seen, .object judgment :: rest =>
    let chunkId := getMember judgment "chunk_id"
    if !isHashable chunkId then .error .typeError
    else match findChunk context.allowed chunkId with
      | none => fail context.slot "judgment references unknown chunk"
      | some source =>
        if seen.any fun other => other.same chunkId then do
          let (judgments, actions) ← normalizeJudgments intOfText context seen rest
          .ok (judgments, .dropDuplicateChunkJudgment :: actions)
        else do
          let (normalized, own) ← normalizeJudgment intOfText context judgment source
          let (judgments, actions) ← normalizeJudgments intOfText context (chunkId :: seen) rest
          .ok (.object normalized :: judgments, own ++ actions)
  | _, _ :: _ => fail context.slot "chunk judgment must be an object"

/-- `candidate["reference_claims"] or candidate["acceptable_answer_points"]`. -/
def hasSupport (claims : List JsonValue) (candidate : Members) : Except NormalizeError Bool :=
  if !claims.isEmpty then .ok true else truthy <$> getItem (.object candidate)
    "acceptable_answer_points"

/-- The support of a `NO_EVIDENCE` or `FORBIDDEN` candidate is cleared. -/
def clearSupport (negative : Bool) (claims : List JsonValue) (candidate : Members) :
    Except NormalizeError (Members × List NormalizeAction) :=
  if negative then do
    let supported ← hasSupport claims candidate
    .ok (putMember "acceptable_answer_points" (.array [])
      (putMember "reference_claims" (.array []) candidate),
      if supported then [.clearSupportContent] else [])
  else .ok (candidate, [])

/-- The relevance of a judgment, an object. -/
def relevanceOf : JsonValue → JsonValue
  | .object judgment => (judgment.lookup "relevance").getD (.int 0)
  | _ => .int 0

/-- The chunks of the judgments of relevance at least 2. -/
def relevantChunks : List JsonValue → Except NormalizeError (List JsonValue)
  | [] => .ok []
  | judgment :: rest => do
    let relevant ← atLeastTwo (relevanceOf judgment)
    if relevant then do
      let chunkId ← getItem judgment "chunk_id"
      let chunkIds ← relevantChunks rest
      .ok (chunkId :: chunkIds)
    else relevantChunks rest

def sourceDocuments (slot : JsonValue) : Except NormalizeError (List JsonValue) := do
  let ids ← getItem slot "source_document_ids" >>= iterate
  if ids.all isHashable then .ok (fromKeys JsonValue.same [] ids) else .error .typeError

/-- A turn that is kept. -/
def isTurn : JsonValue → Except NormalizeError Bool
  | .object turn =>
    if !isHashable (getMember turn "role") then .error .typeError
    else .ok ((getMember turn "role").str?.any
      (fun role => decide (role = "user" ∨ role = "assistant")) &&
        (getMember turn "content").str?.any fun content => !content.toList.all isPySpace)
  | _ => .ok false

/-- `[value for value in values if isinstance(value, str)]`. -/
def strings (values : List JsonValue) : List JsonValue :=
  values.filter fun value => value.str?.isSome

/-- The members of a dictionary. -/
def membersOf : JsonValue → Members
  | .object members => members
  | _ => []

def normalizeCandidate (intOfText : String → Option Int) (request result : JsonValue) :
    Except NormalizeError (JsonValue × List NormalizeAction) := do
  -- a copy through JSON is the same value
  let copied ← getItem result "candidate"
  let slot ← getItem request "slot"
  let primaryType ← getItem slot "primary_question_type"
  let questionTypes ← getItem copied "question_types"
  let typed := putMember "question_types" (.array [primaryType]) (membersOf copied)
  let route ← getItem (.object typed) "expected_route"
  let routed := putMember "expected_route" (.str "HYBRID_QA") typed
  let answerability ← getItem (.object routed) "answerability"
  let slotAnswerability ← getItem slot "answerability"
  if !answerability.equals slotAnswerability
    then fail slot "answerability still drifts after repair"
  else do
    let chunks ← getItem request "evidence_chunks" >>= iterate
    let allowed ← chunks.foldlM allowChunk []
    let claimValues ← getItem (.object routed) "reference_claims" >>= iterate
    let (claims, claimActions) ← normalizeClaims slot [] claimValues
    let claimed := putMember "reference_claims" (.array claims) routed
    let judgmentValues ← getItem (.object claimed) "chunk_judgments" >>= iterate
    -- the seen ids are those of the claims that are kept
    let context : JudgmentContext :=
      { slot, allowed, seenClaims := claims.filterMap claimId?, answerability }
    let (judgments, judgmentActions) ← normalizeJudgments intOfText context [] judgmentValues
    let judged := putMember "chunk_judgments" (.array judgments) claimed
    let negative ← isNegative answerability
    let (cleared, clearActions) ← clearSupport negative claims judged
    let relevant ← relevantChunks judgments
    let citations ← getItem (.object cleared) "expected_citations"
    let cited := putMember "expected_citations" (.array relevant) cleared
    let documents ← sourceDocuments slot
    let expected ← getItem (.object cited) "expected_document_ids"
    let documented := putMember "expected_document_ids" (.array documents) cited
    let history ← getItem (.object documented) "conversation_history" >>= iterate >>= keepM isTurn
    let conversed := putMember "conversation_history" (.array history) documented
    let points ← getItem (.object conversed) "acceptable_answer_points" >>= iterate
    let pointed := putMember "acceptable_answer_points" (.array (strings points)) conversed
    let forbidden ← getItem (.object pointed) "must_not_claim" >>= iterate
    .ok (.object (putMember "must_not_claim" (.array (strings forbidden)) pointed),
      fromKeys (fun a b => decide (a = b)) []
        ((if questionTypes.equals (.array [primaryType]) then [] else [.setPrimaryQuestionType]) ++
        (if route.equals (.str "HYBRID_QA") then [] else [.setExpectedRoute]) ++ claimActions ++
          judgmentActions ++ clearActions ++
        (if citations.equals (.array relevant) then [] else [.deriveExpectedCitations]) ++
        (if expected.equals (.array documents) then [] else [.setExpectedDocuments])))

end ZhiyanRag.Evaluation
