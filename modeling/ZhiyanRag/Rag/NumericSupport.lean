import ZhiyanRag.Rag.ClaimEvidence

/-!
# What numeric support means

A claim is `SUPPORTED` only if its numbers are found in the evidence, after both were rounded to
six significant digits. The support is exact where these six digits tell the numbers of the claim
from those of the quotes (`verifyClaim_exact_iff`).
-/

namespace ZhiyanRag.Rag

open Regex Ingestion Retrieval Binary64

variable (tables : TextTables)

/-! ### Values -/

/-- The literals of `_NUMBER`. -/
def literals (text : List Char) : List (List Char) := findTexts (number tables.toUnicodeTables) text

/-- The two texts denote one rational number, a trailing `%` ignored. -/
def SameValue (x y : List Char) : Prop :=
  ∃ a b, readDecimal tables (withoutPercent x) = some a ∧
    readDecimal tables (withoutPercent y) = some b ∧ a.value = b.value

/-- Every number of the claim is in the quotes. -/
def NumbersStated (claim : List Char) (quotes : List (List Char)) : Prop :=
  ∀ x ∈ literals tables claim, ∃ quote ∈ quotes, ∃ y ∈ literals tables quote, SameValue tables x y

/-- Every number with a unit is in the quotes, with this unit. -/
def UnitsStated (claim : List Char) (quotes : List (List Char)) : Prop :=
  ∀ fact ∈ unitMatches tables claim, ∃ quote ∈ quotes, ∃ other ∈ unitMatches tables quote,
    other.1 = fact.1 ∧ SameValue tables fact.2 other.2

/-! ### What passes the checks -/

/-- The checks of `_deterministic_support_failure` that are not about numbers. -/
def wordChecks (claim evidence : List Char) : Bool :=
  let folded := casefold tables claim
  !(hasAny folded causalMarkers && !hasAny evidence causalEvidenceMarkers) &&
    !(hasAny folded universalMarkers && !hasAny evidence universalMarkers) &&
    !(hasAny folded comparativeMarkers && !hasAny evidence comparativeMarkers) &&
    !(hasAny folded comparativeMarkers && !comparisonObjectsOverlap tables claim evidence) &&
    !(hasAny folded noveltyMarkers && !hasAny evidence noveltyMarkers) &&
    !(qualifierMarkerGroups.any fun group => hasAny folded group && !hasAny evidence group) &&
    allClaimClausesOverlap tables claim evidence

/-- The numbers of the claim have the six-digit forms of numbers of the evidence. -/
structure FormsStated (claim evidence : List Char) : Prop where
  numbers : numberKeys tables claim ⊆ numberKeys tables evidence
  units : ∀ unit ∈ unitsOf (numberUnitFacts tables claim),
    valuesOf (numberUnitFacts tables claim) unit ⊆ valuesOf (numberUnitFacts tables evidence) unit

theorem deterministicSupportFailure_eq_none_iff {claim evidence : List Char} :
    deterministicSupportFailure tables claim evidence = none ↔
      FormsStated tables claim evidence ∧ wordChecks tables claim evidence = true := by
  have hunits : ((unitsOf (numberUnitFacts tables claim)).any fun unit =>
      !decide (valuesOf (numberUnitFacts tables claim) unit ⊆ valuesOf
        (numberUnitFacts tables evidence) unit)) = false ↔
        ∀ unit ∈ unitsOf (numberUnitFacts tables claim),
          valuesOf (numberUnitFacts tables claim) unit ⊆ valuesOf (numberUnitFacts tables evidence)
            unit := by
    rw [List.any_eq_false]
    simp
  have hforms : FormsStated tables claim evidence ↔
      numberKeys tables claim ⊆ numberKeys tables evidence ∧
      ∀ unit ∈ unitsOf (numberUnitFacts tables claim),
        valuesOf (numberUnitFacts tables claim) unit ⊆ valuesOf
          (numberUnitFacts tables evidence) unit :=
    ⟨fun h => ⟨h.1, h.2⟩, fun h => ⟨h.1, h.2⟩⟩
  rw [hforms, ← hunits]
  unfold deterministicSupportFailure wordChecks
  simp only [Bool.and_eq_true, Bool.not_eq_true']
  split_ifs <;> simp_all

/-- A claim with these positions, and the stripped quotes that they cite. -/
structure Bound (text : List Char) (citationIds : List Int) (evidence : List JsonValue)
    (quotes : List (List Char)) : Prop where
  visible : (strip text).isEmpty = false
  nonempty : citationIds ≠ []
  increasing : sortedSet citationIds = citationIds
  range : ∀ position ∈ citationIds, 1 ≤ position ∧ position ≤ evidence.length
  cites : ∃ rawQuotes, citationIds.mapM (quoteAt evidence) = .ok rawQuotes ∧
    strippedQuotes rawQuotes = some quotes

/-- What every check lets through: the quotes agree, the claim is no limitation and speaks of no
conflict, and its words and the forms of its numbers are those of the evidence. -/
structure Admitted (text : List Char) (quotes : List (List Char)) : Prop where
  agree : numericUnitConflicts tables quotes = []
  undisclosed : hasAny (casefold tables text) conflictMarkers = false
  asserts : isSafeLimitation tables text = false
  forms : FormsStated tables text (evidenceFolded tables quotes)
  words : wordChecks tables text (evidenceFolded tables quotes) = true

/-! ### Six digits -/

/-- The six-digit form tells the two numbers apart. -/
def ToldApart (x y : List Char) : Prop :=
  normalizeNumber tables x = normalizeNumber tables y → SameValue tables x y

/-- Six digits tell the numbers of the claim from those of the quotes, and joining and folding the
quotes makes no number that none of them has. -/
structure FormsTellApart (claim : List Char) (quotes : List (List Char)) : Prop where
  numbers : ∀ x ∈ literals tables claim, ∀ quote ∈ quotes, ∀ y ∈ literals tables quote,
    ToldApart tables x y
  units : ∀ fact ∈ unitMatches tables claim, ∀ quote ∈ quotes, ∀ other ∈ unitMatches tables quote,
    other.1 = fact.1 → ToldApart tables fact.2 other.2
  keptNumbers : ∀ y ∈ literals tables (evidenceFolded tables quotes), ∃ quote ∈ quotes,
    ∃ z ∈ literals tables quote, normalizeNumber tables z = normalizeNumber tables y
  keptUnits : ∀ fact ∈ unitMatches tables (evidenceFolded tables quotes), ∃ quote ∈ quotes,
    ∃ other ∈ unitMatches tables quote,
      other.1 = fact.1 ∧ normalizeNumber tables other.2 = normalizeNumber tables fact.2

/-- One number in the claim, one in its quotes, and no other check against it. -/
structure SingleNumbers (claim : List Char) (quotes : List (List Char)) (x y : List Char) :
    Prop where
  claims : literals tables claim = [x]
  unitless : unitMatches tables claim = []
  states : quotes.flatMap (literals tables) = [y]
  kept : literals tables (evidenceFolded tables quotes) = [y]
  agree : numericUnitConflicts tables quotes = []
  undisclosed : hasAny (casefold tables claim) conflictMarkers = false
  words : wordChecks tables claim (evidenceFolded tables quotes) = true

/-- A `SUPPORTED` claim has its numbers in the quotes that it cites. -/
def ExactSupport (text : List Char) (citationIds : List Int) (evidence : List JsonValue) : Prop :=
  ∀ verdict, verifyClaim tables (.of text citationIds) evidence = .ok verdict →
    verdict.status = .supported → ∃ quotes, Bound text citationIds evidence quotes ∧
      NumbersStated tables text quotes ∧ UnitsStated tables text quotes

variable {tables} {text : List Char} {citationIds : List Int} {evidence : List JsonValue}
  {quotes : List (List Char)}

theorem verifyText_supported_iff : (verifyText tables text quotes).status = .supported ↔
    Admitted tables text quotes := by
  have hadmitted : Admitted tables text quotes ↔ numericUnitConflicts tables quotes = [] ∧
      hasAny (casefold tables text) conflictMarkers = false ∧ isSafeLimitation tables text = false ∧
        deterministicSupportFailure tables text (evidenceFolded tables quotes) = none := by
    rw [deterministicSupportFailure_eq_none_iff]
    exact ⟨fun h => ⟨h.1, h.2, h.3, h.4, h.5⟩, fun h => ⟨h.1, h.2.1, h.2.2.1, h.2.2.2.1, h.2.2.2.2⟩⟩
  rw [hadmitted]
  unfold verifyText unsupported
  simp only [Bool.not_eq_true', List.isEmpty_eq_false_iff]
  split_ifs with hconflicts hundisclosed hstates hdiscloses hlimitation
  · simp [hconflicts]
  · simp [hconflicts]
  · cases deterministicSupportFailure tables text (evidenceFolded tables quotes) <;>
      simp [hconflicts]
  · simp [hdiscloses]
  · simp [hlimitation]
  · cases deterministicSupportFailure tables text (evidenceFolded tables quotes) <;> simp_all

theorem filterMap_ofInt (positions : List Int) :
    (positions.map PyObject.ofInt).filterMap PyObject.int? = positions := by
  rw [List.filterMap_map]
  exact List.filterMap_some

theorem citedPositions_ofPositions (count : Nat) : citedPositions (.ofPositions citationIds) count =
    if citationIds = [] then .ok (.error "CLAIM_CITATION_MISSING")
    else if sortedSet citationIds ≠ citationIds then .ok (.error "CLAIM_CITATION_SET_INVALID")
    else if citationIds.any fun position => decide (position < 1) ||
      decide ((count : Int) < position) then
      .ok (.error "CLAIM_CITATION_OUT_OF_RANGE")
    else .ok (.ok citationIds) := by
  have htruthy : (PyObject.ofPositions citationIds).truthy = .ok (!citationIds.isEmpty) := rfl
  have hitems : (PyObject.ofPositions citationIds).items =
      .ok (citationIds.map PyObject.ofInt) := rfl
  have hdiffers : ∀ other, (PyObject.ofPositions citationIds).differsFrom other =
      .ok (decide (other ≠ citationIds)) :=
    fun _ => rfl
  unfold citedPositions
  rw [htruthy, hitems]
  simp only [hdiffers, bind, Except.bind, filterMap_ofInt, List.length_map, ne_eq,
    not_true_eq_false, if_false]
  by_cases hempty : citationIds = []
  · simp [hempty]
  · by_cases hsorted : sortedSet citationIds = citationIds
    · simp [hempty, hsorted]
    · simp [hempty, hsorted]

theorem verifyClaim_supported_iff :
    (∃ verdict, verifyClaim tables (.of text citationIds) evidence = .ok verdict ∧
      verdict.status = .supported) ↔ ∃ quotes, Bound text citationIds evidence quotes ∧
      Admitted tables text quotes := by
  have htext : (ClaimObject.of text citationIds).text = .ok (.ofStr text) := rfl
  have hids : (ClaimObject.of text citationIds).citationIds = .ok (.ofPositions citationIds) := rfl
  have hstr : (PyObject.ofStr text).str?.getD [] = text := rfl
  have hunsupported : ∀ code, (unsupported code).status ≠ .supported := fun code h => by cases h
  unfold verifyClaim
  rw [htext, hids]
  simp only [bind, Except.bind, hstr, citedPositions_ofPositions]
  by_cases hblank : (strip text).isEmpty = true
  · rw [if_pos hblank]
    constructor
    · rintro ⟨verdict, hverdict, hsupported⟩
      cases hverdict
      exact absurd hsupported (hunsupported _)
    · rintro ⟨quotes, hbound, -⟩
      rw [hbound.visible] at hblank
      cases hblank
  rw [if_neg hblank]
  by_cases hbad : citationIds = [] ∨ sortedSet citationIds ≠ citationIds ∨
      (citationIds.any fun position => decide (position < 1) ||
        decide ((evidence.length : Int) < position)) = true
  · constructor
    · rintro ⟨verdict, hverdict, hsupported⟩
      exfalso
      rcases hbad with hbad | hbad | hbad
      · rw [if_pos hbad] at hverdict
        cases hverdict
        exact hunsupported _ hsupported
      · split_ifs at hverdict <;> cases hverdict <;> exact hunsupported _ hsupported
      · split_ifs at hverdict <;> cases hverdict <;> exact hunsupported _ hsupported
    · rintro ⟨quotes, hbound, -⟩
      exfalso
      rcases hbad with hbad | hbad | hbad
      · exact hbound.nonempty hbad
      · exact hbad hbound.increasing
      · obtain ⟨position, hposition, hout⟩ := List.any_eq_true.mp hbad
        have := hbound.range position hposition
        simp only [Bool.or_eq_true, decide_eq_true_eq] at hout
        omega
  · rw [not_or, not_or, not_not] at hbad
    obtain ⟨hempty, hsorted, hrange⟩ := hbad
    rw [if_neg hempty, if_neg (not_not.mpr hsorted), if_neg hrange]
    have hin : ∀ position ∈ citationIds, 1 ≤ position ∧ position ≤ evidence.length := by
      intro position hposition
      have := List.any_eq_false.mp (Bool.eq_false_iff.mpr hrange) position hposition
      simp only [Bool.or_eq_true, decide_eq_true_eq, not_or] at this
      omega
    constructor
    · rintro ⟨verdict, hverdict, hsupported⟩
      cases hraw : citationIds.mapM (quoteAt evidence) with
      | error e =>
        simp only [hraw] at hverdict
        cases hverdict
      | ok rawQuotes =>
        simp only [hraw] at hverdict
        cases hquotes : strippedQuotes rawQuotes with
        | none =>
          simp only [hquotes] at hverdict
          cases hverdict
          exact absurd hsupported (hunsupported _)
        | some quotes =>
          simp only [hquotes] at hverdict
          cases hverdict
          exact ⟨quotes, ⟨Bool.eq_false_iff.mpr hblank, hempty, hsorted, hin, rawQuotes, hraw,
            hquotes⟩, verifyText_supported_iff.mp hsupported⟩
    · rintro ⟨quotes, ⟨-, -, -, -, rawQuotes, hraw, hquotes⟩, hadmitted⟩
      simp only [hraw, hquotes]
      exact ⟨_, rfl, verifyText_supported_iff.mpr hadmitted⟩

/-- The cited quotes of a claim are determined. -/
theorem Bound.unique {other : List (List Char)} (h : Bound text citationIds evidence quotes)
    (h' : Bound text citationIds evidence other) : quotes = other := by
  obtain ⟨rawQuotes, hraw, hquotes⟩ := h.cites
  obtain ⟨rawOther, hraw', hother⟩ := h'.cites
  cases hraw.symm.trans hraw'
  exact Option.some.inj (hquotes.symm.trans hother)

/-- The form of every number of an admitted claim is the form of a number of the evidence. -/
theorem FormsStated.exists_literal {claim evidence : List Char}
    (h : FormsStated tables claim evidence) {x : List Char} (hx : x ∈ literals tables claim) :
    ∃ y ∈ literals tables evidence, normalizeNumber tables y = normalizeNumber tables x := by
  have hkey : normalizeNumber tables x ∈ numberKeys tables claim :=
    List.mem_toFinset.mpr (List.mem_map_of_mem hx)
  exact List.mem_map.mp (List.mem_toFinset.mp (h.numbers hkey))

theorem FormsStated.exists_unitMatch {claim evidence : List Char}
    (h : FormsStated tables claim evidence) {fact : String × List Char}
    (hfact : fact ∈ unitMatches tables claim) : ∃ other ∈ unitMatches tables evidence,
      other.1 = fact.1 ∧ normalizeNumber tables other.2 = normalizeNumber tables fact.2 := by
  have hmem : (fact.1, normalizeNumber tables fact.2) ∈ numberUnitFacts tables claim :=
    List.mem_map_of_mem hfact
  have hvalue : normalizeNumber tables fact.2 ∈ valuesOf (numberUnitFacts tables claim) fact.1 :=
    List.mem_toFinset.mpr (List.mem_map.mpr
      ⟨_, List.mem_filter.mpr ⟨hmem, decide_eq_true rfl⟩, rfl⟩)
  have hunit : fact.1 ∈ unitsOf (numberUnitFacts tables claim) :=
    List.mem_dedup.mpr (List.mem_map_of_mem hmem)
  obtain ⟨pair, hpair, heq⟩ := List.mem_map.mp (List.mem_toFinset.mp (h.units fact.1 hunit hvalue))
  obtain ⟨hpair, hsame⟩ := List.mem_filter.mp hpair
  obtain ⟨other, hother, rfl⟩ := List.mem_map.mp hpair
  exact ⟨other, hother, of_decide_eq_true hsame, heq⟩

/-- Forms that are in the evidence are numbers of the quotes, if the forms tell them apart. -/
theorem FormsTellApart.stated (h : FormsTellApart tables text quotes)
    (hforms : FormsStated tables text (evidenceFolded tables quotes)) :
    NumbersStated tables text quotes ∧ UnitsStated tables text quotes := by
  constructor
  · intro x hx
    obtain ⟨y, hy, hform⟩ := hforms.exists_literal hx
    obtain ⟨quote, hquote, z, hz, hkept⟩ := h.keptNumbers y hy
    exact ⟨quote, hquote, z, hz, h.numbers x hx quote hquote z hz (hkept.trans hform).symm⟩
  · intro fact hfact
    obtain ⟨joined, hjoined, hunit, hform⟩ := hforms.exists_unitMatch hfact
    obtain ⟨quote, hquote, other, hother, hsame, hkept⟩ := h.keptUnits joined hjoined
    have hunits : other.1 = fact.1 := hsame.trans hunit
    exact ⟨quote, hquote, other, hother, hunits,
      h.units fact hfact quote hquote other hother hunits (hkept.trans hform).symm⟩

/-- The text is read as this natural number, folded or not. -/
structure ReadsWhole (tables : TextTables) (x : List Char) (n : Nat) : Prop where
  plain : readDecimal tables (withoutPercent x) = some ⟨false, n, 0⟩
  folded : readDecimal tables
    (withoutPercent ((casefold tables x).dropWhile fun c => decide (c = '+'))) = some ⟨false, n, 0⟩

theorem ReadsWhole.normalizeNumber_eq {x : List Char} {n : Nat} (h : ReadsWhole tables x n)
    (hn : n < 10 ^ 6) : normalizeNumber tables x = String.ofList (Nat.toDigits 10 n) := by
  have hfloat : DecimalText.toFloat ⟨false, n, 0⟩ = nearest false n 1 := by
    unfold DecimalText.toFloat
    rw [if_pos (le_refl _), Int.toNat_zero, Nat.pow_zero, Nat.mul_one]
  unfold normalizeNumber
  simp only [h.folded, hfloat]
  exact formatG_nearest_of_lt hn

/-- Six digits tell whole numbers below a million apart. -/
theorem ReadsWhole.toldApart {x y : List Char} {m n : Nat} (hx : ReadsWhole tables x m)
    (hy : ReadsWhole tables y n) (hm : m < 10 ^ 6) (hn : n < 10 ^ 6) : ToldApart tables x y := by
  intro hform
  rw [hx.normalizeNumber_eq hm, hy.normalizeNumber_eq hn] at hform
  have hdigits : Nat.toDigits 10 m = Nat.toDigits 10 n := String.ofList_injective hform
  have hsame : m = n := by
    rw [← Nat.ofDigitChars_ten_toDigits (n := m), hdigits, Nat.ofDigitChars_ten_toDigits]
  subst hsame
  exact ⟨_, _, hx.plain, hy.plain, rfl⟩

theorem exactSupport_of_tellApart
    (h : ∀ quotes, Bound text citationIds evidence quotes → FormsTellApart tables text quotes) :
    ExactSupport tables text citationIds evidence := by
  intro verdict hverdict hsupported
  obtain ⟨quotes, hbound, hadmitted⟩ := verifyClaim_supported_iff.mp ⟨verdict, hverdict, hsupported⟩
  exact ⟨quotes, hbound, (h quotes hbound).stated hadmitted.forms⟩

/-- A claim with one number passes the checks exactly if its form is that of the quotes' number. -/
theorem SingleNumbers.admitted_iff {x y : List Char} (h : SingleNumbers tables text quotes x y) :
    Admitted tables text quotes ↔ normalizeNumber tables x = normalizeNumber tables y := by
  have hclaim : numberKeys tables text = {normalizeNumber tables x} := by
    show ((literals tables text).map _).toFinset = _
    rw [h.claims]
    rfl
  have hevidence : numberKeys tables (evidenceFolded tables quotes) =
      {normalizeNumber tables y} := by
    show ((literals tables (evidenceFolded tables quotes)).map _).toFinset = _
    rw [h.kept]
    rfl
  have hnumbers : numberKeys tables text ⊆ numberKeys tables (evidenceFolded tables quotes) ↔
      normalizeNumber tables x = normalizeNumber tables y := by
    rw [hclaim, hevidence, Finset.singleton_subset_iff, Finset.mem_singleton]
  constructor
  · intro hadmitted
    exact hnumbers.mp hadmitted.forms.numbers
  · intro hform
    have hasserts : isSafeLimitation tables text = false := by
      have hfound : ((number tables.toUnicodeTables).findAll text 0 text.length) ≠ [] := by
        intro hnone
        have hliterals := h.claims
        unfold literals findTexts at hliterals
        rw [hnone] at hliterals
        cases hliterals
      unfold isSafeLimitation
      rw [List.isEmpty_eq_false_iff.mpr hfound]
      rfl
    refine ⟨h.agree, h.undisclosed, hasserts, ⟨hnumbers.mpr hform, fun unit hunit => ?_⟩, h.words⟩
    have hfacts : numberUnitFacts tables text = [] := by
      rw [numberUnitFacts, h.unitless, List.map_nil]
    rw [hfacts] at hunit
    cases hunit

/-- Such a claim has its number in the quotes exactly if it is theirs. -/
theorem SingleNumbers.stated_iff {x y : List Char} (h : SingleNumbers tables text quotes x y) :
    NumbersStated tables text quotes ∧ UnitsStated tables text quotes ↔ SameValue tables x y := by
  have hstates : ∀ z, (∃ quote ∈ quotes, z ∈ literals tables quote) ↔ z = y := by
    intro z
    rw [← List.mem_flatMap, h.states, List.mem_singleton]
  constructor
  · rintro ⟨hnumbers, -⟩
    obtain ⟨quote, hquote, z, hz, hsame⟩ := hnumbers x (h.claims ▸ List.mem_singleton_self x)
    rwa [(hstates z).mp ⟨quote, hquote, hz⟩] at hsame
  · intro hsame
    obtain ⟨quote, hquote, hy⟩ := (hstates y).mpr rfl
    refine ⟨fun z hz => ?_, fun fact hfact => ?_⟩
    · rw [h.claims, List.mem_singleton] at hz
      exact ⟨quote, hquote, y, hy, hz ▸ hsame⟩
    · rw [h.unitless] at hfact
      cases hfact

theorem SingleNumbers.exactSupport_iff {x y : List Char}
    (hbound : Bound text citationIds evidence quotes) (h : SingleNumbers tables text quotes x y) :
    ExactSupport tables text citationIds evidence ↔ ToldApart tables x y := by
  constructor
  · intro hexact hform
    obtain ⟨verdict, hverdict, hsupported⟩ :=
      verifyClaim_supported_iff.mpr ⟨quotes, hbound, h.admitted_iff.mpr hform⟩
    obtain ⟨other, hother, hstated⟩ := hexact verdict hverdict hsupported
    rw [← hbound.unique hother] at hstated
    exact h.stated_iff.mp hstated
  · intro happart verdict hverdict hsupported
    obtain ⟨other, hother, hadmitted⟩ :=
      verifyClaim_supported_iff.mp ⟨verdict, hverdict, hsupported⟩
    rw [← hbound.unique hother] at hadmitted
    exact ⟨quotes, hbound, h.stated_iff.mpr (happart (h.admitted_iff.mp hadmitted))⟩

section

private def sizeQuote (text : String) : List JsonValue := [.object [("quote", .str text)]]

private theorem bound_size : Bound "size 1234567".toList [1] (sizeQuote "size 1234568")
    ["size 1234568".toList] where
  visible := by decide +kernel
  nonempty := List.cons_ne_nil 1 []
  increasing := by decide
  range := by decide
  cites := ⟨_, rfl, by decide +kernel⟩

private theorem singleNumbers_size : SingleNumbers asciiText "size 1234567".toList
    ["size 1234568".toList] "1234567".toList "1234568".toList where
  claims := by decide +kernel
  unitless := by decide +kernel
  states := by decide +kernel
  kept := by decide +kernel
  agree := by decide +kernel
  undisclosed := by decide +kernel
  words := by decide +kernel

private theorem not_toldApart_size : ¬ToldApart asciiText "1234567".toList "1234568".toList := by
  intro h
  obtain ⟨a, b, ha, hb, hvalue⟩ := h (by decide +kernel)
  have ha' : readDecimal asciiText (withoutPercent "1234567".toList) =
      some ⟨false, 1234567, 0⟩ := rfl
  have hb' : readDecimal asciiText (withoutPercent "1234568".toList) =
      some ⟨false, 1234568, 0⟩ := rfl
  cases ha'.symm.trans ha
  cases hb'.symm.trans hb
  unfold DecimalText.value at hvalue
  simp only [zpow_zero, mul_one, Bool.false_eq_true, if_false, one_mul, Nat.cast_inj] at hvalue
  omega

private theorem bound_sizes : Bound "size 123456".toList [1] (sizeQuote "size 123456 of 123457")
    ["size 123456 of 123457".toList] where
  visible := by decide +kernel
  nonempty := List.cons_ne_nil 1 []
  increasing := by decide
  range := by decide
  cites := ⟨_, rfl, by decide +kernel⟩

private theorem tellApart_sizes : FormsTellApart asciiText "size 123456".toList
    ["size 123456 of 123457".toList] := by
  have hclaim : literals asciiText "size 123456".toList = ["123456".toList] := by decide +kernel
  have hquote : literals asciiText "size 123456 of 123457".toList =
      ["123456".toList, "123457".toList] := by decide +kernel
  have hjoined : evidenceFolded asciiText ["size 123456 of 123457".toList] =
      "size 123456 of 123457".toList := by decide +kernel
  have hunits : unitMatches asciiText "size 123456".toList = [] := by decide +kernel
  have hwhole : ReadsWhole asciiText "123456".toList 123456 := ⟨rfl, rfl⟩
  have hother : ReadsWhole asciiText "123457".toList 123457 := ⟨rfl, rfl⟩
  constructor
  · intro x hx quote hmem y hy
    rw [hclaim, List.mem_singleton] at hx
    rw [List.mem_singleton.mp hmem, hquote] at hy
    rw [hx]
    rcases List.mem_cons.mp hy with hy | hy
    · rw [hy]
      exact hwhole.toldApart hwhole (by decide) (by decide)
    · rw [List.mem_singleton.mp hy]
      exact hwhole.toldApart hother (by decide) (by decide)
  · intro fact hfact
    rw [hunits] at hfact
    cases hfact
  · intro y hy
    rw [hjoined] at hy
    exact ⟨_, List.mem_singleton_self _, y, hy, rfl⟩
  · intro fact hfact
    rw [hjoined] at hfact
    exact ⟨_, List.mem_singleton_self _, fact, hfact, rfl, rfl⟩

end

end ZhiyanRag.Rag
