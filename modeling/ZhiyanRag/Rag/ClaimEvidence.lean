import Mathlib.Data.Finset.Card
import Mathlib.Data.Finset.Lattice.Basic
import Mathlib.Data.List.Infix
import Mathlib.Data.List.Sort
import ZhiyanRag.Lib.Binary64
import ZhiyanRag.Rag.Numbers
import ZhiyanRag.Retrieval.Json

/-!
# Claims and their evidence

`_verify_claim` of `claim_evidence.py`: the checks of one generated claim against the quotes that it
cites. A claim comes from a provider, so its members are any Python objects (`PyObject`, by what the
code sees of them); after the quotes are read, everything is a function of texts (`verifyText`).
-/

namespace ZhiyanRag.Rag

open Regex Ingestion Retrieval Binary64

/-! ### Texts -/

/-- What the Unicode database says of texts. -/
structure TextTables extends UnicodeTables where
  casefold : Char → List Char

/-- Unicode, as far as ASCII goes. -/
def asciiText : TextTables := { asciiTables with casefold := fun c => [c.toLower] }

/-- `text.strip(chars)`. -/
def stripChars (chars : String) (text : List Char) : List Char :=
  ((text.dropWhile fun c => chars.toList.contains c).reverse.dropWhile
    fun c => chars.toList.contains c).reverse

/-- `pattern.findall(text)`, of a pattern without groups. -/
def findTexts (r : Pattern Char) (text : List Char) : List (List Char) :=
  (r.findAll text 0 text.length).map fun m => slice text m.start m.stop

/-- The texts between matches, from a cursor on. -/
def textsBetween (text : List Char) : Nat → List (Found Char) → List (List Char)
  | cursor, [] => [slice text cursor text.length]
  | cursor, found :: rest => slice text cursor found.start :: textsBetween text found.stop rest

/-- `pattern.split(text)`, of a pattern without groups. -/
def splitTexts (r : Pattern Char) (text : List Char) : List (List Char) :=
  textsBetween text 0 (r.findAll text 0 text.length)

/-- `_has_any`. -/
def hasAny (value : List Char) (markers : List String) : Bool := 
  markers.any fun marker => decide (marker.toList <:+: value)

/-! ### Decimal texts -/

/-- A decimal number as it is written. -/
structure DecimalText where
  negative : Bool
  significand : Nat
  exponent : Int

namespace DecimalText

/-- The rational number that is written. -/
def value (number : DecimalText) : Rat :=
  (if number.negative then -1 else 1) * (number.significand : Rat) * (10 : Rat) ^ number.exponent

/-- `float(text)`: the nearest binary64 number. -/
def toFloat (number : DecimalText) : Number :=
  if 0 ≤ number.exponent
    then nearest number.negative (number.significand * 10 ^ number.exponent.toNat) 1
  else nearest number.negative number.significand (10 ^ (-number.exponent).toNat)

end DecimalText

section

variable (tables : TextTables)

/-- `text.casefold()`. -/
def casefold (text : List Char) : List Char := text.flatMap tables.casefold

def isSign (c : Char) : Bool := decide (c = '-') || decide (c = '+')

/-- The text without its sign. -/
def unsigned (text : List Char) : List Char := if text.head?.any isSign then text.tail else text

/-- `int(text)` of a sign and digits. -/
def readExponent (text : List Char) : Option Int :=
  let power := unsigned text
  if power.isEmpty || !power.all (isDigit tables.toUnicodeTables) then none
  else some (if text.head? = some '-' then -(intOf tables.toUnicodeTables power : Int)
    else intOf tables.toUnicodeTables power)

/-- What `float` reads in a text that one of the patterns for numbers matched. -/
def readDecimal (text : List Char) : Option DecimalText :=
  let whole := (unsigned text).takeWhile (isDigit tables.toUnicodeTables)
  let afterWhole := (unsigned text).dropWhile (isDigit tables.toUnicodeTables)
  let pointed := decide (afterWhole.head? = some '.')
  let decimals := if pointed then afterWhole.tail.takeWhile (isDigit tables.toUnicodeTables) else []
  let afterDecimals := if pointed then afterWhole.tail.dropWhile (isDigit tables.toUnicodeTables)
    else afterWhole
  let exponent := match afterDecimals with
    | [] => some 0
    | c :: rest => if c = 'e' ∨ c = 'E' then readExponent tables rest else none
  if whole.isEmpty then none
  else exponent.map fun exponent =>
    { negative := decide (text.head? = some '-')
      significand := intOf tables.toUnicodeTables (whole ++ decimals)
      exponent := exponent - decimals.length }

/-- The text without a trailing `%`. -/
def withoutPercent (text : List Char) :
    List Char := if text.getLast? = some '%' then text.dropLast else text

/-- `_normalize_number`. -/
def normalizeNumber (value : List Char) : String :=
  let normalized := withoutPercent ((casefold tables value).dropWhile fun c => decide (c = '+'))
  match readDecimal tables normalized with
  | some number => number.toFloat.formatG
  | none => String.ofList normalized

/-- The aliases of `_normalize_unit`. -/
def unitAliases : List (String × String) :=
  [("％", "%"), ("week", "weeks"), ("day", "days"), ("month", "months"), ("year", "years"),
    ("hour", "hours"), ("minute", "minutes"), ("second", "seconds")]

/-- `_normalize_unit`. -/
def normalizeUnit (value : List Char) : String :=
  let unit := String.ofList (casefold tables value)
  (unitAliases.lookup unit).getD unit

/-- The matches of `_NUMBER_WITH_UNIT`: unit and value. -/
def unitMatches (text : List Char) : List (String × List Char) :=
  ((numberWithUnit tables.toUnicodeTables).findAll text 0 text.length).map fun m =>
    (normalizeUnit tables (m.groups.getD 1 []), m.groups.getD 0 [])

/-- The pairs of `_number_unit_facts`. -/
def numberUnitFacts (text : List Char) : List (String × String) :=
  (unitMatches tables text).map fun fact => (fact.1, normalizeNumber tables fact.2)

/-- `facts.get(unit, set())`. -/
def valuesOf (facts : List (String × String)) (unit : String) : Finset String :=
  ((facts.filter fun fact => decide (fact.1 = unit)).map Prod.snd).toFinset

/-- The keys of the dict of facts. -/
def unitsOf (facts : List (String × String)) : List String := (facts.map Prod.fst).dedup

/-- `_numeric_unit_conflicts`: the units that two or more quotes state, with two or more values
between them. -/
def numericUnitConflicts (quotes : List (List Char)) : List (String × Finset String) :=
  let facts := quotes.map (numberUnitFacts tables)
  (unitsOf facts.flatten).filterMap fun unit =>
    if facts.countP (fun perQuote => (unitsOf perQuote).contains unit) < 2 ∨
      (valuesOf facts.flatten unit).card < 2 then none
    else some (unit, valuesOf facts.flatten unit)

/-! ### Words -/

/-- `[A-Za-zΑ-Ωα-ω]`. -/
def isTokenStart (c : Char) : Bool :=
  (decide ('A' ≤ c) && decide (c ≤ 'Z')) || (decide ('a' ≤ c) && decide (c ≤ 'z')) ||
    (decide ('Α' ≤ c) && decide (c ≤ 'Ω')) || (decide ('α' ≤ c) && decide (c ≤ 'ω'))

/-- `_LATIN_TOKEN`. -/
def latinToken : Pattern Char :=
  .seq (.char isTokenStart)
    (.star (.char fun c => isTokenStart c || (decide ('0' ≤ c) && decide (c ≤ '9')) ||
      "_+./-".toList.contains c))

/-- `_CHINESE`. -/
def isChinese (c : Char) : Bool := decide (0x4e00 ≤ c.toNat) && decide (c.toNat ≤ 0x9fff)

/-- `_CLAUSE_SPLIT`. -/
def clauseSplit : Pattern Char :=
  .alt (.seq (.char fun c => "。！？!?；;，,".toList.contains c) (.star space))
    (.seq (exactly '.') (.seq (.assert fun _ next => !next.any (isDigit tables.toUnicodeTables))
      (.plus space)))

def englishStopwords : List String :=
  ["a", "an", "and", "are", "as", "at", "be", "by", "for", "from", "in", "is", "it", "evidence",
    "of", "on", "or", "paper", "report", "reported", "reports", "result", "results", "study",
    "that", "the", "this", "to", "was", "were", "with"]

/-- The distinctive words of a claim. -/
def claimLatin (claim : List Char) : Finset (List Char) :=
  (((findTexts latinToken claim).filter fun token =>
    decide (1 < (stripChars ".+/-" token).length) &&
      !englishStopwords.contains (String.ofList (stripChars ".+/-" (casefold tables token)))).map
        fun token =>
    stripChars ".+/-" (casefold tables token)).toFinset

/-- The words of the evidence. -/
def evidenceLatin (evidence : List Char) : Finset (List Char) :=
  (((findTexts latinToken evidence).filter fun token => !(stripChars ".+/-" token).isEmpty).map
    fun token =>
    stripChars ".+/-" (casefold tables token)).toFinset

/-- The pairs of Chinese characters that follow each other when everything else is left out. -/
def chineseBigrams (text : List Char) : Finset (Char × Char) :=
  ((text.filter isChinese).zip (text.filter isChinese).tail).toFinset

/-- `_core_overlap`. -/
def coreOverlap (claim evidence : List Char) : Bool :=
  if (claimLatin tables claim ∩ evidenceLatin tables evidence).Nonempty then true
  else if 4 ≤ (claim.filter isChinese).length then
    let common := (chineseBigrams claim ∩ chineseBigrams evidence).card
    match (nearest false common (max 1 (chineseBigrams claim).card)).value,
      (nearest false 12 100).value with
    | some overlap, some least => decide (least ≤ overlap)
    | _, _ => false
  else false

/-- `_claim_fragments`. -/
def claimFragments (claim : List Char) : List (List Char) :=
  ((splitTexts (clauseSplit tables) claim).map (stripChars " \t\n:：")).filter fun fragment =>
    !fragment.isEmpty

/-- `_all_claim_clauses_overlap`. -/
def allClaimClausesOverlap (claim evidence : List Char) : Bool :=
  !(claimFragments tables claim).isEmpty && (claimFragments tables claim).all fun fragment =>
    coreOverlap tables fragment evidence

/-- `_comparison_objects_overlap`. -/
def comparisonObjectsOverlap (claim evidence : List Char) : Bool :=
  decide (2 ≤ (claimLatin tables claim ∩ evidenceLatin tables evidence).card) ||
    decide (2 ≤ (chineseBigrams claim ∩ chineseBigrams evidence).card)

/-! ### Markers -/

def conflictMarkers : List String :=
  ["存在差异", "不一致", "冲突", "分别为", "different", "differ", "conflict", "inconsistent", "whereas", "but"]

def insufficientMarkers : List String :=
  ["证据不足", "无法确定", "未提供", "未提及", "没有说明", "不能判断", "insufficient evidence", "cannot determine",
    "does not identify", "does not report", "not reported", "not provided"]

def causalMarkers : List String :=
  ["导致", "证明", "因此必然", "因而必然", "必然带来", "causes", "caused by", "proves", "must result"]

def causalEvidenceMarkers : List String :=
  causalMarkers ++ ["消融", "对照", "控制变量", "干预", "ablation", "controlled", "control group",
    "intervention"]

def universalMarkers : List String :=
  ["所有任务", "所有模型", "普遍有效", "始终", "all tasks", "all models", "universally", "always"]

def comparativeMarkers : List String :=
  ["优于", "更优", "最佳", "胜过", "提高", "提升", "降低", "下降", "高于", "低于", "outperform", "superior",
    "better than", "best", "improve", "increase", "decrease", "higher", "lower"]

def noveltyMarkers : List String :=
  ["首次", "首个", "首创", "唯一", "最全面", "first-ever", "the first", "the only", "most comprehensive",
    "state-of-the-art", "state of the art"]

def qualifierMarkerGroups : List (List String) :=
  [["至少", "at least"], ["至多", "最多", "不超过", "at most", "no more than"], ["仅", "只在", "only"],
    ["分别", "respectively"], ["条件下", "under"]]

/-! ### The checks of a text -/

/-- The keys of the numbers in a text. -/
def numberKeys (text : List Char) : Finset String :=
  ((findTexts (number tables.toUnicodeTables) text).map (normalizeNumber tables)).toFinset

/-- `_deterministic_support_failure`. -/
def deterministicSupportFailure (claim evidence : List Char) : Option String :=
  let folded := casefold tables claim
  if ¬numberKeys tables claim ⊆ numberKeys tables evidence
    then some "NUMERIC_ANCHOR_MISSING_FROM_EVIDENCE"
  else if (unitsOf (numberUnitFacts tables claim)).any fun unit =>
      !decide (valuesOf (numberUnitFacts tables claim) unit ⊆ valuesOf
        (numberUnitFacts tables evidence) unit) then
    some "NUMERIC_UNIT_NOT_ESTABLISHED"
  else if hasAny folded causalMarkers && !hasAny evidence causalEvidenceMarkers
    then some "CAUSAL_RELATION_NOT_ESTABLISHED"
  else if hasAny folded universalMarkers && !hasAny evidence universalMarkers
    then some "UNIVERSAL_SCOPE_NOT_ESTABLISHED"
  else if hasAny folded comparativeMarkers && !hasAny evidence comparativeMarkers
    then some "COMPARISON_NOT_ESTABLISHED"
  else if hasAny folded comparativeMarkers && !comparisonObjectsOverlap tables claim evidence then
    some "COMPARISON_OBJECTS_NOT_ESTABLISHED"
  else if hasAny folded noveltyMarkers && !hasAny evidence noveltyMarkers
    then some "NOVELTY_OR_SUPERLATIVE_NOT_ESTABLISHED"
  else if qualifierMarkerGroups.any fun group => hasAny folded group && !hasAny evidence group then
    some "QUALIFYING_CONDITION_NOT_ESTABLISHED"
  else if !allClaimClausesOverlap tables claim evidence
    then some "CORE_LEXICAL_OVERLAP_NOT_ESTABLISHED"
  else none

/-- `_is_safe_limitation`. -/
def isSafeLimitation (text : List Char) : Bool :=
  let fragments := ((splitTexts (clauseSplit tables) (casefold tables text)).map strip).filter
    fun fragment =>
    !fragment.isEmpty
  ((number tables.toUnicodeTables).findAll text 0 text.length).isEmpty && !fragments.isEmpty &&
    fragments.all fun fragment => hasAny fragment insufficientMarkers

inductive ClaimSupportStatus
  | supported
  | conflictingEvidence
  | insufficientEvidence
  | unsupported
  deriving DecidableEq

/-- A verdict and its reason. -/
structure Verdict where
  status : ClaimSupportStatus
  reason : String
  deriving DecidableEq

/-- `_unsupported`. -/
def unsupported (code : String) : Verdict := ⟨.unsupported, code⟩

/-- `"\n".join(quotes).casefold()`. -/
def evidenceFolded (quotes : List (List Char)) : List Char :=
  casefold tables (['\n'].intercalate quotes)

/-- Some unit in conflict has two of its values in the claim. -/
def statesConflict (claim : List Char) (conflicts : List (String × Finset String)) : Bool :=
  conflicts.any fun conflict =>
    decide (2 ≤ (conflict.2 ∩ valuesOf (numberUnitFacts tables claim) conflict.1).card)

/-- `_verify_claim`, from where the stripped quotes are read. -/
def verifyText (claim : List Char) (quotes : List (List Char)) : Verdict :=
  let conflicts := numericUnitConflicts tables quotes
  let disclosesConflict := hasAny (casefold tables claim) conflictMarkers
  let failure := deterministicSupportFailure tables claim (evidenceFolded tables quotes)
  if !conflicts.isEmpty then
    if !disclosesConflict then unsupported "BOUND_NUMERIC_CONFLICT_NOT_DISCLOSED"
    else if !statesConflict tables claim conflicts
      then unsupported "BOUND_NUMERIC_CONFLICT_VALUES_INCOMPLETE"
    else match failure with
      | some code => unsupported code
      | none => ⟨.conflictingEvidence, "BOUND_NUMERIC_CONFLICT_DISCLOSED"⟩
  else if disclosesConflict then unsupported "CONFLICT_NOT_DETERMINISTICALLY_PROVEN"
  else if isSafeLimitation tables claim
    then ⟨.insufficientEvidence, "SAFE_LIMITATION_WITH_BOUND_EVIDENCE"⟩
  else match failure with
    | some code => unsupported code
    | none => ⟨.supported, "DETERMINISTIC_ANCHORS_AND_CORE_OVERLAP_PASS"⟩

end

/-! ### Claims -/

/-- An exception: one of the generation service with its code, or any other by the name of
its class. -/
inductive PyException
  | generationService (code : String)
  | other (name : String)
  deriving DecidableEq

/-- Any Python object, by what the code sees of it: whether it is a string or exactly an `int`, its
truth, its items, whether it differs from a tuple of positions, and its text in an f-string. -/
inductive PyObject
  | mk (str? : Option (List Char)) (int? : Option Int) (truthy : Except PyException Bool)
      (items : Except PyException (List PyObject))
      (differsFrom : List Int → Except PyException Bool)
      (format : Except PyException (List Char))

namespace PyObject

def str? : PyObject → Option (List Char)
  | mk str? _ _ _ _ _ => str?

def int? : PyObject → Option Int
  | mk _ int? _ _ _ _ => int?

def truthy : PyObject → Except PyException Bool
  | mk _ _ truthy _ _ _ => truthy

def items : PyObject → Except PyException (List PyObject)
  | mk _ _ _ items _ _ => items

def differsFrom : PyObject → List Int → Except PyException Bool
  | mk _ _ _ _ differsFrom _ => differsFrom

def format : PyObject → Except PyException (List Char)
  | mk _ _ _ _ _ format => format

/-- `str(n)`, which refuses more than 4300 digits. -/
def intText (n : Int) : Except PyException (List Char) :=
  if 4300 < (Nat.toDigits 10 n.natAbs).length then .error (.other "ValueError")
    else .ok (toString n).toList

def ofInt (n : Int) : PyObject :=
  mk none (some n) (.ok (decide (n ≠ 0))) (.error (.other "TypeError")) (fun _ => .ok true)
    (intText n)

def ofStr (text : List Char) : PyObject :=
  mk (some text) none (.ok (!text.isEmpty))
    (.ok (text.map fun c => mk (some [c]) none (.ok true) (.error (.other "RecursionError"))
      (fun _ => .ok true) (.ok [c])))
    (fun _ => .ok true) (.ok text)

/-- A tuple of integers. -/
def ofPositions (positions : List Int) : PyObject :=
  mk none none (.ok (!positions.isEmpty)) (.ok (positions.map ofInt))
    (fun other => .ok (decide (other ≠ positions))) (.ok (toString positions).toList)

end PyObject

/-- A claim: what its two attributes are, if it has them. -/
structure ClaimObject where
  text : Except PyException PyObject
  citationIds : Except PyException PyObject

/-- `GeneratedClaim` with a string and a tuple of integers. -/
def ClaimObject.of (text : List Char) (citationIds : List Int) : ClaimObject :=
  ⟨.ok (.ofStr text), .ok (.ofPositions citationIds)⟩

/-- `tuple(sorted(set(positions)))`. -/
def sortedSet (positions : List Int) : List Int := positions.dedup.insertionSort (· ≤ ·)

/-- `evidence[position - 1].get("quote")`, for a position in range. -/
def quoteAt (evidence : List JsonValue) (position : Int) : Except PyException JsonValue :=
  match evidence[(position - 1).toNat]? with
  | some (.object members) => .ok ((members.lookup "quote").getD .null)
  | some _ => .error (.other "AttributeError")
  | none => .error (.other "IndexError")

/-- The stripped quotes, if all are strings with something in them. -/
def strippedQuotes (rawQuotes : List JsonValue) : Option (List (List Char)) :=
  rawQuotes.mapM fun quote => (quote.str?.map fun text => strip text.toList).filter fun text =>
    !text.isEmpty

/-- The checks of a claim's citations: its positions, or the code of the check that it fails. -/
def citedPositions (citationIds : PyObject) (count : Nat) :
    Except PyException (Except String (List Int)) := do
  if !(← citationIds.truthy) then .ok (.error "CLAIM_CITATION_MISSING") else
  let items ← citationIds.items
  let positions := items.filterMap PyObject.int?
  if positions.length ≠ items.length then .ok (.error "CLAIM_CITATION_SET_INVALID") else
  if ← citationIds.differsFrom (sortedSet positions)
    then .ok (.error "CLAIM_CITATION_SET_INVALID") else
  if positions.any fun position => decide (position < 1) || decide ((count : Int) < position) then
    .ok (.error "CLAIM_CITATION_OUT_OF_RANGE")
  else .ok (.ok positions)

/-- `_verify_claim`. -/
def verifyClaim (tables : TextTables) (claim : ClaimObject) (evidence : List JsonValue) :
    Except PyException Verdict := do
  let text := (← claim.text).str?.getD []
  if (strip text).isEmpty then .ok (unsupported "CLAIM_TEXT_EMPTY") else
  match ← citedPositions (← claim.citationIds) evidence.length with
  | .error code => .ok (unsupported code)
  | .ok positions =>
    match strippedQuotes (← positions.mapM (quoteAt evidence)) with
    | none => .ok (unsupported "BOUND_EVIDENCE_TEXT_EMPTY")
    | some quotes => .ok (verifyText tables text quotes)

end ZhiyanRag.Rag
