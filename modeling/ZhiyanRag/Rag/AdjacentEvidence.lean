import ZhiyanRag.Rag.EvidenceSets

/-!
# What adjacent expansion keeps

The cited items of a claim are checked together, but a neighbour is checked alone before it is
added. So the set with it can hold one chunk twice; `expansionValid_iff` says when it does not.
-/

namespace ZhiyanRag.Rag

open Regex Ingestion Retrieval
open EvidenceItem (contractId?)

/-- What holds of the record of a claim with current evidence, neighbours allowed. -/
structure SetValid (scope : EvidenceScope) (evidence : List EvidenceItem) (citationIds : List Int)
    (base record : EvidenceSetRecord) : Prop where
  cited : ∀ position ∈ citationIds, position ∈ record.evidenceSet.citationIds
  oneMore : record.evidenceSet.citationIds.length ≤ citationIds.length + 1
  added : ∀ position ∈ record.evidenceSet.citationIds, position ∉ citationIds →
    position ∈ positionsOf evidence ∧
      ∃ bound ∈ citationIds, isAdjacent (itemAt evidence position) (itemAt evidence bound) = true
  settles : record.evidenceSet.adjacentChunkAdded = true → record.status.isSettled = true ∧
    base.status.isSettled = false
  identity : evidenceIdentityFailure scope record.evidenceSet.citationIds evidence = none
  distinct : record.evidenceSet.chunkIds.Nodup
  oneVersion : ∀ p ∈ record.evidenceSet.citationIds, ∀ q ∈ record.evidenceSet.citationIds,
    (itemAt evidence p).get "document_id" = (itemAt evidence q).get "document_id" →
      (itemAt evidence p).get "version_id" = (itemAt evidence q).get "version_id"

/-- Expansion keeps the evidence set of the claim valid. -/
def ExpansionValid (tables : TextTables) (pyStr : JsonValue → Except PyException String)
    (scope : EvidenceScope) (claim : ClaimObject) (evidence : List EvidenceItem) : Prop :=
  ∀ text citationIds base record,
    claimCitations claim evidence.length = .ok (.ok (text, citationIds)) →
    evidenceIdentityFailure scope citationIds evidence = none →
    verifyClaimEvidenceSet tables pyStr scope false claim evidence = .ok base →
    verifyClaimEvidenceSet tables pyStr scope true claim evidence = .ok record →
      SetValid scope evidence citationIds base record

/-- The item at this position is of a chunk that is cited. -/
def RepeatsCited (evidence : List EvidenceItem) (citationIds : List Int) (position : Int) : Prop :=
  ∃ bound ∈ citationIds, (itemAt evidence bound).chunkId = (itemAt evidence position).chunkId

/-- The cited evidence settles the claim, or the first neighbour that does is of another chunk. -/
def FreshNeighbour (tables : TextTables) (scope : EvidenceScope) (claim : ClaimObject)
    (evidence : List EvidenceItem) : Prop :=
  ∀ text citationIds, claimCitations claim evidence.length = .ok (.ok (text, citationIds)) →
    evidenceIdentityFailure scope citationIds evidence = none →
    (classifyText tables text (textsAt evidence citationIds)).status.isSettled = false →
      ∀ adjacent, (validAdjacentPositions scope citationIds evidence).find?
        (upgrades tables text evidence citationIds) = some adjacent →
        ¬RepeatsCited evidence citationIds adjacent

variable {tables : TextTables} {pyStr : JsonValue → Except PyException String}
  {scope : EvidenceScope} {claim : ClaimObject} {text : List Char} {evidence : List EvidenceItem}
  {citationIds : List Int}

/-! ### Joint validity -/

theorem perm_expandedIds (adjacent : Int) :
    (expandedIds citationIds adjacent).Perm (adjacent :: citationIds) :=
  (List.perm_insertionSort _ _).trans (List.perm_append_singleton adjacent citationIds)

/-- Of a valid set and a valid neighbour, the joint check asks only that the chunk is another one.
-/
theorem identity_expanded_iff {adjacent : Int}
    (h : evidenceIdentityFailure scope citationIds evidence = none)
    (hadjacent : adjacent ∈ validAdjacentPositions scope citationIds evidence) :
    evidenceIdentityFailure scope (expandedIds citationIds adjacent) evidence = none ↔
      ¬RepeatsCited evidence citationIds adjacent := by
  obtain ⟨hcurrent, hnodup⟩ := evidenceIdentityFailure_eq_none_iff.mp h
  have hsingle : CurrentAt scope evidence [adjacent] := by
    obtain ⟨-, -, hidentity, -⟩ := mem_validAdjacentPositions.mp hadjacent
    exact (evidenceIdentityFailure_eq_none_iff.mp hidentity).1
  have hrepeats : RepeatsCited evidence citationIds adjacent ↔
      (itemAt evidence adjacent).chunkId ∈ citationIds.map fun position =>
        (itemAt evidence position).chunkId := by
    rw [List.mem_map]
    rfl
  rw [evidenceIdentityFailure_eq_none_iff, ((perm_expandedIds adjacent).map _).nodup_iff,
    List.map_cons, List.nodup_cons, ← hrepeats]
  constructor
  · exact fun h => h.2.1
  · exact fun hfresh => ⟨CurrentAt.expanded hcurrent hsingle, hfresh, hnodup⟩

theorem oneVersion_of_current (h : CurrentAt scope evidence citationIds) :
    ∀ p ∈ citationIds, ∀ q ∈ citationIds,
      (itemAt evidence p).get "document_id" = (itemAt evidence q).get "document_id" →
      (itemAt evidence p).get "version_id" = (itemAt evidence q).get "version_id" := by
  intro p hp q hq heq
  obtain ⟨documentId, versionId, hcurrent⟩ := h p hp
  obtain ⟨otherDocument, otherVersion, hother⟩ := h q hq
  have hdocument := hcurrent.document
  rw [heq, hother.document] at hdocument
  obtain rfl := Option.some.inj hdocument
  have hversion := hother.currentVersion
  rw [hcurrent.currentVersion] at hversion
  obtain rfl := Option.some.inj hversion
  have hstr : ∀ {value : JsonValue} {id : String}, contractId? value = some id → value = .str id :=
    fun h => JsonValue.str?_eq_some.mp (Option.filter_eq_some_iff.mp h).1
  rw [hstr hcurrent.version, hstr hother.version]

/-- A record whose positions pass the joint check is valid in all other ways. -/
theorem setValid_expanded {base : EvidenceSetRecord} {adjacent : Int}
    (hbase : base.status.isSettled = false)
    (hadjacent : adjacent ∈ validAdjacentPositions scope citationIds evidence)
    (hupgrades : upgrades tables text evidence citationIds adjacent = true)
    (hidentity : evidenceIdentityFailure scope (expandedIds citationIds adjacent) evidence = none) :
    SetValid scope evidence citationIds base
      (expandedRecord tables claim text evidence citationIds adjacent) := by
  obtain ⟨hposition, -, -, hneighbour⟩ := mem_validAdjacentPositions.mp hadjacent
  obtain ⟨hcurrent, hnodup⟩ := evidenceIdentityFailure_eq_none_iff.mp hidentity
  refine ⟨fun position hcited => mem_expandedIds.mpr (.inl hcited), ?_, ?_,
    fun _ => ⟨hupgrades, hbase⟩, hidentity, hnodup, oneVersion_of_current hcurrent⟩
  · exact (perm_expandedIds adjacent).length_eq.le
  · intro position hmem hnew
    obtain rfl : position = adjacent := (mem_expandedIds.mp hmem).resolve_left hnew
    exact ⟨hposition, hneighbour⟩

theorem setValid_base (h : evidenceIdentityFailure scope citationIds evidence = none)
    (base : EvidenceSetRecord) :
    SetValid scope evidence citationIds base
      (setRecord tables claim text evidence citationIds) := by
  obtain ⟨hcurrent, hnodup⟩ := evidenceIdentityFailure_eq_none_iff.mp h
  exact ⟨fun _ => id, Nat.le_succ _, fun position hcited hnew => absurd hcited hnew,
    fun hadded => (by cases hadded), h, hnodup, oneVersion_of_current hcurrent⟩

/-- Expansion keeps the set valid exactly if the first neighbour that settles the claim repeats no
cited chunk. -/
theorem expansionValid_iff (tables : TextTables) (pyStr : JsonValue → Except PyException String)
    (scope : EvidenceScope) (claim : ClaimObject) (evidence : List EvidenceItem) :
    ExpansionValid tables pyStr scope claim evidence ↔
    FreshNeighbour tables scope claim evidence := by
  constructor
  · intro h text citationIds hcitations hidentity hbase adjacent hfind
    have hrecord : verifyClaimEvidenceSet tables pyStr scope true claim evidence = _ :=
      verifyClaimEvidenceSet_of_current hcitations hidentity
    have hunsettled : (setRecord tables claim text evidence citationIds).status.isSettled =
        false := hbase
    simp only [Bool.not_true, Bool.false_or, hunsettled, Bool.false_eq_true, if_false, hfind,
      Option.map_some, Option.getD_some] at hrecord
    have hvalid := h text citationIds _ _ hcitations hidentity
      (verifyClaimEvidenceSet_of_current hcitations hidentity) hrecord
    exact (identity_expanded_iff hidentity (List.mem_of_find?_eq_some hfind)).mp hvalid.identity
  · intro h text citationIds base record hcitations hidentity hbase hrecord
    rw [verifyClaimEvidenceSet_of_current hcitations hidentity] at hbase hrecord
    simp only [Bool.not_false, Bool.true_or, if_true, Except.ok.injEq] at hbase
    subst hbase
    obtain rfl := Except.ok.inj hrecord
    simp only [Bool.not_true, Bool.false_or]
    by_cases hsettled : (setRecord tables claim text evidence citationIds).status.isSettled = true
    · rw [if_pos hsettled]
      exact setValid_base hidentity _
    · rw [if_neg hsettled]
      have hbase := Bool.eq_false_iff.mpr hsettled
      cases hfind : (validAdjacentPositions scope citationIds evidence).find?
        (upgrades tables text evidence citationIds) with
      | none => exact setValid_base hidentity _
      | some adjacent =>
        have hadjacent := List.mem_of_find?_eq_some hfind
        refine setValid_expanded hbase hadjacent (List.find?_some hfind) ?_
        exact (identity_expanded_iff hidentity hadjacent).mpr
          (h text citationIds hcitations hidentity hbase adjacent hfind)

/-- A chunk, its neighbour, and the neighbour again with another quote. -/
def repeatedEvidence : List EvidenceItem :=
  [exampleItem "chunk_1" "chunk_0" "chunk_2" "alpha",
    exampleItem "chunk_2" "chunk_1" "chunk_3" "beta", exampleItem "chunk_2" "chunk_1" "chunk_3"
      "gamma"]

/-- The chunk that is cited is added once more. -/
theorem repeated_chunk_added :
    ¬ExpansionValid asciiText (fun _ => .ok "") exampleScope (.of "gamma".toList [1, 2])
      repeatedEvidence := by
  intro h
  have hcitations : claimCitations (.of "gamma".toList [1, 2]) repeatedEvidence.length =
      .ok (.ok ("gamma".toList, [1, 2])) := by
    rfl
  have hidentity : evidenceIdentityFailure exampleScope [1, 2] repeatedEvidence = none := by
    decide +kernel
  have hrecord : verifyClaimEvidenceSet asciiText (fun _ => .ok "") exampleScope true
      (.of "gamma".toList [1, 2]) repeatedEvidence = _ :=
        verifyClaimEvidenceSet_of_current hcitations hidentity
  have hbase : (setRecord asciiText (.of "gamma".toList [1, 2]) "gamma".toList repeatedEvidence
      [1, 2]).status.isSettled =
      false := by decide +kernel
  have hfind : (validAdjacentPositions exampleScope [1, 2] repeatedEvidence).find?
      (upgrades asciiText "gamma".toList repeatedEvidence [1, 2]) = some 3 := by decide +kernel
  simp only [Bool.not_true, Bool.false_or, hbase, Bool.false_eq_true, if_false, hfind,
    Option.map_some, Option.getD_some] at hrecord
  have hvalid :=
    h _ _ _ _ hcitations hidentity (verifyClaimEvidenceSet_of_current hcitations hidentity) hrecord
  have hdistinct :
      (expandedRecord asciiText (.of "gamma".toList [1, 2]) "gamma".toList repeatedEvidence [1, 2]
        3).evidenceSet.chunkIds = ["chunk_1", "chunk_2", "chunk_2"] := by decide +kernel
  have hnodup := hvalid.distinct
  rw [hdistinct] at hnodup
  revert hnodup
  decide

end ZhiyanRag.Rag
