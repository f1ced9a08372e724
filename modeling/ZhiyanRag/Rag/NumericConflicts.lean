import ZhiyanRag.Rag.EvidenceSets

/-!
# What a numeric conflict means

`_numeric_unit_conflicts` merges the values that the quotes state for a unit before it counts them,
so a quote that states two values is in conflict with a copy of itself.
`conflictsMeanDisagreement_iff` says for which quotes a conflict is a disagreement.
-/

namespace ZhiyanRag.Rag

open Regex Ingestion Retrieval

variable (tables : TextTables)

/-- The values that a quote states for a unit. -/
def statedValues (quote : List Char) (unit : String) : Finset String :=
  valuesOf (numberUnitFacts tables quote) unit

/-- Two of the quotes state different values for the unit. -/
def Disagree (quotes : List (List Char)) (unit : String) : Prop :=
  ∃ a ∈ quotes, ∃ b ∈ quotes, (statedValues tables a unit).Nonempty ∧
    (statedValues tables b unit).Nonempty ∧ statedValues tables a unit ≠ statedValues tables b unit

/-- The units that are reported. -/
def reportedUnits (quotes : List (List Char)) : List String :=
  (numericUnitConflicts tables quotes).map Prod.fst

/-- The claim cites the evidence with these quotes. -/
def Cites (claim : ClaimObject) (evidence : List JsonValue) (text : List Char)
    (quotes : List (List Char)) : Prop :=
  ∃ positions rawQuotes, claimCitations claim evidence.length = .ok (.ok (text, positions)) ∧
    positions.mapM (quoteAt evidence) = .ok rawQuotes ∧ strippedQuotes rawQuotes = some quotes

/-- The reasons to reject a claim for a conflict that it does not disclose. -/
def undisclosedReasons : List String :=
  ["BOUND_NUMERIC_CONFLICT_NOT_DISCLOSED", "BOUND_NUMERIC_CONFLICT_VALUES_INCOMPLETE"]

/-- What is reported of the quotes is a disagreement between them. -/
structure ConflictsMeanDisagreement (quotes : List (List Char)) : Prop where
  disagree : ∀ unit ∈ reportedUnits tables quotes, Disagree tables quotes unit
  equal : (∀ a ∈ quotes, ∀ b ∈ quotes, a = b) → numericUnitConflicts tables quotes = []
  permuted : ∀ other : List (List Char), other.Perm quotes →
    ∀ conflict, conflict ∈ numericUnitConflicts tables other ↔
    conflict ∈ numericUnitConflicts tables quotes
  copied : ∀ quote ∈ quotes, ∀ other : List (List Char), other.Perm (quote :: quotes) →
    ∀ unit, unit ∈ reportedUnits tables other ↔ unit ∈ reportedUnits tables quotes
  verified : (∀ unit, ¬Disagree tables quotes unit) → ∀ claim evidence text verdict,
    Cites claim evidence text quotes → verifyClaim tables claim evidence = .ok verdict →
      verdict.status ≠ .conflictingEvidence ∧ verdict.reason ∉ undisclosedReasons
  classified : (∀ unit, ¬Disagree tables quotes unit) →
    ∀ pyStr claim text citationIds evidence record, textsAt evidence citationIds = quotes →
    classifyEvidenceSet tables pyStr claim text citationIds evidence = .ok record →
      record.status ≠ .conflictingEvidence

/-- A quote that states two values for a unit stands beside a quote that states others. -/
def Contradicted (quotes : List (List Char)) : Prop :=
  ∀ quote ∈ quotes, ∀ unit, 2 ≤ (statedValues tables quote unit).card →
    ∃ other ∈ quotes, (statedValues tables other unit).Nonempty ∧
      statedValues tables other unit ≠ statedValues tables quote unit

variable {tables} {quotes : List (List Char)} {unit : String}

/-! ### What is reported -/

theorem mem_valuesOf {facts : List (String × String)} {value : String} :
    value ∈ valuesOf facts unit ↔ (unit, value) ∈ facts := by
  unfold valuesOf
  rw [List.mem_toFinset, List.mem_map]
  constructor
  · rintro ⟨⟨u, v⟩, hfact, rfl⟩
    obtain ⟨hmem, hunit⟩ := List.mem_filter.mp hfact
    obtain rfl : u = unit := of_decide_eq_true hunit
    exact hmem
  · intro hmem
    exact ⟨(unit, value), List.mem_filter.mpr ⟨hmem, decide_eq_true rfl⟩, rfl⟩

theorem mem_unitsOf {facts : List (String × String)} :
    unit ∈ unitsOf facts ↔ (valuesOf facts unit).Nonempty := by
  unfold unitsOf
  rw [List.mem_dedup, List.mem_map]
  constructor
  · rintro ⟨⟨u, v⟩, hmem, rfl⟩
    exact ⟨v, mem_valuesOf.mpr hmem⟩
  · rintro ⟨v, hv⟩
    exact ⟨(unit, v), mem_valuesOf.mp hv, rfl⟩

theorem mem_combined {value : String} :
    value ∈ valuesOf (quotes.map (numberUnitFacts tables)).flatten unit ↔ ∃ quote ∈ quotes,
      value ∈ statedValues tables quote unit := by
  rw [mem_valuesOf, List.mem_flatten]
  constructor
  · rintro ⟨facts, hfacts, hmem⟩
    obtain ⟨quote, hquote, rfl⟩ := List.mem_map.mp hfacts
    exact ⟨quote, hquote, mem_valuesOf.mpr hmem⟩
  · rintro ⟨quote, hquote, hvalue⟩
    exact ⟨_, List.mem_map_of_mem hquote, mem_valuesOf.mp hvalue⟩

theorem countP_states : (quotes.map (numberUnitFacts tables)).countP
    (fun perQuote => (unitsOf perQuote).contains unit) = quotes.countP fun quote =>
      decide (statedValues tables quote unit).Nonempty := by
  rw [List.countP_map]
  refine List.countP_congr fun quote _ => ?_
  rw [Function.comp_apply, List.contains_iff_mem, mem_unitsOf, decide_eq_true_eq]
  rfl

theorem mem_numericUnitConflicts {conflict : String × Finset String} :
    conflict ∈ numericUnitConflicts tables quotes ↔
    2 ≤ quotes.countP (fun quote => decide (statedValues tables quote conflict.1).Nonempty) ∧
      2 ≤ conflict.2.card ∧
      conflict.2 = valuesOf (quotes.map (numberUnitFacts tables)).flatten conflict.1 := by
  obtain ⟨unit, values⟩ := conflict
  unfold numericUnitConflicts
  simp only [List.mem_filterMap, countP_states, Option.ite_none_left_eq_some, not_or, Nat.not_lt,
    Option.some.injEq, Prod.mk.injEq]
  constructor
  · rintro ⟨u, -, ⟨hcount, hcard⟩, rfl, rfl⟩
    exact ⟨hcount, hcard, rfl⟩
  · rintro ⟨hcount, hcard, rfl⟩
    refine ⟨unit, mem_unitsOf.mpr ?_, ⟨hcount, hcard⟩, rfl, rfl⟩
    exact Finset.card_pos.mp (Nat.lt_of_lt_of_le Nat.zero_lt_two hcard)

theorem mem_reportedUnits : unit ∈ reportedUnits tables quotes ↔
    2 ≤ quotes.countP (fun quote => decide (statedValues tables quote unit).Nonempty) ∧
      2 ≤ (valuesOf (quotes.map (numberUnitFacts tables)).flatten unit).card := by
  unfold reportedUnits
  rw [List.mem_map]
  constructor
  · rintro ⟨conflict, hconflict, rfl⟩
    obtain ⟨hcount, hcard, hvalues⟩ := mem_numericUnitConflicts.mp hconflict
    exact ⟨hcount, hvalues ▸ hcard⟩
  · rintro ⟨hcount, hcard⟩
    exact ⟨(unit, _), mem_numericUnitConflicts.mpr ⟨hcount, hcard, rfl⟩, rfl⟩

/-! ### Disagreement -/

theorem two_le_countP {α : Type} {p : α → Bool} {xs : List α} {a b : α} (ha : a ∈ xs) (hb : b ∈ xs)
    (hne : a ≠ b) (hpa : p a = true) (hpb : p b = true) : 2 ≤ xs.countP p := by
  rw [List.countP_eq_length_filter]
  have hmemA : a ∈ xs.filter p := List.mem_filter.mpr ⟨ha, hpa⟩
  have hmemB : b ∈ xs.filter p := List.mem_filter.mpr ⟨hb, hpb⟩
  match xs.filter p, hmemA, hmemB with
  | [x], hmemA, hmemB =>
    exact absurd ((List.mem_singleton.mp hmemA).trans (List.mem_singleton.mp hmemB).symm) hne
  | x :: y :: rest, _, _ => exact Nat.le_add_left 2 rest.length

theorem reported_of_disagree (h : Disagree tables quotes unit) :
    unit ∈ reportedUnits tables quotes := by
  obtain ⟨a, ha, b, hb, hstatesA, hstatesB, hne⟩ := h
  rw [mem_reportedUnits]
  constructor
  · exact two_le_countP ha hb (fun heq => hne (by rw [heq])) (decide_eq_true hstatesA)
      (decide_eq_true hstatesB)
  · have hall : ∀ quote ∈ quotes,
        statedValues tables quote unit ⊆ valuesOf
          (quotes.map (numberUnitFacts tables)).flatten unit :=
      fun quote hquote value hvalue => mem_combined.mpr ⟨quote, hquote, hvalue⟩
    by_contra hcard
    have hone : (valuesOf (quotes.map (numberUnitFacts tables)).flatten unit).card ≤ 1 := by omega
    have heq : ∀ quote ∈ quotes, (statedValues tables quote unit).Nonempty →
        statedValues tables quote unit =
          valuesOf (quotes.map (numberUnitFacts tables)).flatten unit :=
      fun quote hquote hstates => Finset.eq_of_subset_of_card_le (hall quote hquote)
        (hone.trans (Finset.card_pos.mpr hstates))
    exact hne ((heq a ha hstatesA).trans (heq b hb hstatesB).symm)

theorem disagree_of_two_values (hclear : Contradicted tables quotes)
    (hcard : 2 ≤ (valuesOf (quotes.map (numberUnitFacts tables)).flatten unit).card) :
    Disagree tables quotes unit := by
  obtain ⟨v, w, hv, hw, hne⟩ := Finset.one_lt_card_iff.mp hcard
  obtain ⟨a, ha, hva⟩ := mem_combined.mp hv
  obtain ⟨b, hb, hwb⟩ := mem_combined.mp hw
  by_cases heq : statedValues tables a unit = statedValues tables b unit
  · -- one quote states both values, so another one states others
    have htwo : 2 ≤ (statedValues tables a unit).card :=
      Finset.one_lt_card_iff.mpr ⟨v, w, hva, heq ▸ hwb, hne⟩
    obtain ⟨other, hother, hstates, hdiffer⟩ := hclear a ha unit htwo
    exact ⟨other, hother, a, ha, hstates, ⟨v, hva⟩, hdiffer⟩
  · exact ⟨a, ha, b, hb, ⟨v, hva⟩, ⟨w, hwb⟩, heq⟩

theorem reported_iff_disagree (hclear : Contradicted tables quotes) :
    unit ∈ reportedUnits tables quotes ↔ Disagree tables quotes unit :=
  ⟨fun h => disagree_of_two_values hclear (mem_reportedUnits.mp h).2, reported_of_disagree⟩

theorem Disagree.of_subset {other : List (List Char)} (h : Disagree tables quotes unit)
    (hsub : quotes ⊆ other) : Disagree tables other unit := by
  obtain ⟨a, ha, b, hb, hstates⟩ := h
  exact ⟨a, hsub ha, b, hsub hb, hstates⟩

theorem Contradicted.of_mem_iff {other : List (List Char)} (h : Contradicted tables quotes)
    (hmem : ∀ quote, quote ∈ other ↔ quote ∈ quotes) : Contradicted tables other := by
  intro quote hquote unit htwo
  obtain ⟨witness, hwitness, hstates⟩ := h quote ((hmem quote).mp hquote) unit htwo
  exact ⟨witness, (hmem witness).mpr hwitness, hstates⟩

theorem numericUnitConflicts_perm {other : List (List Char)} (h : other.Perm quotes)
    (conflict : String × Finset String) : conflict ∈ numericUnitConflicts tables other ↔
    conflict ∈ numericUnitConflicts tables quotes := by
  have hvalues : valuesOf (other.map (numberUnitFacts tables)).flatten conflict.1 =
      valuesOf (quotes.map (numberUnitFacts tables)).flatten conflict.1 := by
    ext value
    simp only [mem_combined, h.mem_iff]
  rw [mem_numericUnitConflicts, mem_numericUnitConflicts, hvalues, h.countP_eq]

/-! ### Verdicts -/

theorem verifyClaim_of_cites {claim : ClaimObject} {evidence : List JsonValue} {text : List Char}
    (h : Cites claim evidence text quotes) :
    verifyClaim tables claim evidence = .ok (verifyText tables text quotes) := by
  obtain ⟨positions, rawQuotes, hcitations, hraw, hquotes⟩ := h
  rw [verifyClaim_eq, hcitations]
  simp only [bind, Except.bind, hraw, hquotes]

theorem not_reported_of_consistent (hclear : Contradicted tables quotes)
    (h : ∀ unit, ¬Disagree tables quotes unit) : numericUnitConflicts tables quotes = [] := by
  rw [List.eq_nil_iff_forall_not_mem]
  intro conflict hconflict
  exact h conflict.1 ((reported_iff_disagree hclear).mp (List.mem_map_of_mem hconflict))

theorem not_undisclosed_of_supportFailure {code : String} (h : code ∈ supportFailures) :
    code ∉ undisclosedReasons := by
  revert code
  decide

theorem verifyText_of_no_conflicts {claim : List Char}
    (h : numericUnitConflicts tables quotes = []) :
    (verifyText tables claim quotes).status ≠ .conflictingEvidence ∧
      (verifyText tables claim quotes).reason ∉ undisclosedReasons := by
  unfold verifyText unsupported
  simp only [h, List.isEmpty_nil, Bool.not_true, Bool.false_eq_true, if_false]
  split_ifs
  · exact ⟨by simp, by decide⟩
  · exact ⟨by simp, by decide⟩
  · cases hfailure : deterministicSupportFailure tables claim (evidenceFolded tables quotes) with
    | none => exact ⟨by simp, by decide⟩
    | some code =>
      exact ⟨by simp, fun hmem => not_undisclosed_of_supportFailure
        (deterministicSupportFailure_mem hfailure) hmem⟩

theorem classifyText_conflicting_iff {claim : List Char} :
    (classifyText tables claim quotes).status = .conflictingEvidence ↔
    numericUnitConflicts tables quotes ≠ [] := by
  unfold classifyText
  by_cases hconflicts : numericUnitConflicts tables quotes = []
  · simp only [hconflicts, List.isEmpty_nil, Bool.not_true, Bool.false_eq_true, if_false, ne_eq,
      not_true_eq_false, iff_false]
    cases deterministicSupportFailure tables claim (evidenceFolded tables quotes) with
    | none => split_ifs <;> simp
    | some failure =>
      simp only
      split_ifs <;> simp
  · simp [hconflicts]

/-- A conflict is a disagreement between quotes exactly if every quote that states two values for a
unit is contradicted. -/
theorem conflictsMeanDisagreement_iff (tables : TextTables) (quotes : List (List Char)) :
    ConflictsMeanDisagreement tables quotes ↔ Contradicted tables quotes := by
  constructor
  · intro h quote hquote unit htwo
    by_contra hnone
    have hsame : ∀ other ∈ quotes, (statedValues tables other unit).Nonempty →
        statedValues tables other unit = statedValues tables quote unit := by
      intro other hother hstates
      by_contra hdiffer
      exact hnone ⟨other, hother, hstates, hdiffer⟩
    have hstates : (statedValues tables quote unit).Nonempty :=
      Finset.card_pos.mp (Nat.lt_of_lt_of_le Nat.zero_lt_two htwo)
    have hcopied : unit ∈ reportedUnits tables (quote :: quotes) := by
      rw [mem_reportedUnits]
      constructor
      · have hcons := List.countP_cons_of_pos (l := quotes)
          (p := fun quote => decide (statedValues tables quote unit).Nonempty)
            (decide_eq_true hstates)
        have : 0 < quotes.countP fun quote => decide (statedValues tables quote unit).Nonempty :=
          List.countP_pos_iff.mpr ⟨quote, hquote, decide_eq_true hstates⟩
        omega
      · refine htwo.trans (Finset.card_le_card fun value hvalue => ?_)
        exact mem_combined.mpr ⟨quote, List.mem_cons_self, hvalue⟩
    have hreported := (h.copied quote hquote _ (List.Perm.refl _) unit).mp hcopied
    obtain ⟨a, ha, b, hb, hstatesA, hstatesB, hne⟩ := h.disagree unit hreported
    exact hne ((hsame a ha hstatesA).trans (hsame b hb hstatesB).symm)
  · intro hclear
    refine ⟨fun unit => (reported_iff_disagree hclear).mp, ?_,
      fun other => numericUnitConflicts_perm, ?_, ?_, ?_⟩
    · intro hequal
      refine not_reported_of_consistent hclear ?_
      rintro unit ⟨a, ha, b, hb, -, -, hne⟩
      exact hne (by rw [hequal a ha b hb])
    · intro quote hquote other hother unit
      have hmem : ∀ q, q ∈ other ↔ q ∈ quotes := by
        intro q
        rw [hother.mem_iff, List.mem_cons]
        exact ⟨fun h => h.elim (fun heq => heq ▸ hquote) id, .inr⟩
      rw [reported_iff_disagree hclear, reported_iff_disagree (hclear.of_mem_iff hmem)]
      exact ⟨fun h => h.of_subset fun q => (hmem q).mp, fun h => h.of_subset fun q => (hmem q).mpr⟩
    · intro hconsistent claim evidence text verdict hcites hverdict
      rw [verifyClaim_of_cites hcites] at hverdict
      cases hverdict
      exact verifyText_of_no_conflicts (not_reported_of_consistent hclear hconsistent)
    · intro hconsistent pyStr claim text citationIds evidence record htexts hrecord
      obtain ⟨evidenceSet, -, rfl⟩ := map_eq_ok.mp hrecord
      rw [htexts]
      exact fun hstatus => classifyText_conflicting_iff.mp hstatus
        (not_reported_of_consistent hclear hconsistent)

/-- One sentence, quoted twice, is in conflict with itself. -/
theorem range_quoted_twice :
    ¬ConflictsMeanDisagreement asciiText ["5 weeks to 6 weeks".toList,
      "5 weeks to 6 weeks".toList] := by
  intro h
  have hequal := h.equal (by simp)
  have hcount : (numericUnitConflicts asciiText ["5 weeks to 6 weeks".toList,
      "5 weeks to 6 weeks".toList]).length = 1 := by
    decide +kernel
  rw [hequal] at hcount
  cases hcount

end ZhiyanRag.Rag
