import ZhiyanRag.Ingestion.Threads

/-!
# What the operations do to an index

Every operation leaves complete indexes complete. A fully active index stays fully active unless a
call deactivates or deletes it, an activation makes it so, and only staging creates an index.
-/

namespace ZhiyanRag.Ingestion

open Relational ZhiyanRag.Storage Steps

/-- The index exists and every chunk in it is active. -/
def World.fullyActive (w : World) (backend : IndexBackend) (key : String × String) : Bool :=
  (w.indexes backend key).any PhysicalIndex.fullyActive

/-- Every physical index holds the rows its metadata promises. -/
def World.Complete (w : World) : Prop :=
  ∀ backend key index, w.indexes backend key = some index → index.complete = true

/-- The index whose rows an operation deactivates or deletes. -/
def Operation.clears : Operation → Option (IndexBackend × String × String)
  | deactivateVersion backend ownerId documentVersionId =>
    some (backend, ownerId, documentVersionId)
  | deleteVersion backend ownerId documentVersionId => some (backend, ownerId, documentVersionId)
  | _ => none

/-- The index that an operation creates if there is none. -/
def Operation.creates : Operation → Option (IndexBackend × String × String)
  | ensureStaged backend ownerId _ documentVersionId _ => some (backend, ownerId, documentVersionId)
  | _ => none

/-! ### What an operation does to an index -/

section Indexes

variable {services : Services} {w w' : World} {choice : Choice} {operation : Operation}
  {outcome : Except PyError operation.Result}

theorem World.setIndex_indexes (w : World) (backend b : IndexBackend) (key k : String × String)
    (index : Option PhysicalIndex) : (w.setIndex backend key index).indexes b k =
      if b = backend ∧ k = key then index else w.indexes b k := by
  unfold World.setIndex
  by_cases hb : b = backend
  · subst hb
    by_cases hk : k = key
    · subst hk
      simp
    · simp [hk]
  · simp [hb]

/-- Replacing one index by a complete one, or by none, keeps every index complete. -/
theorem World.Complete.setIndex (h : w.Complete) {backend : IndexBackend} {key : String × String}
    {index : Option PhysicalIndex} (hindex : ∀ i, index = some i → i.complete = true)
    (hset : w'.indexes = (w.setIndex backend key index).indexes) : w'.Complete := by
  intro b k i hi
  rw [hset, World.setIndex_indexes] at hi
  split at hi
  · exact hindex i hi
  · exact h b k i hi

theorem Outcome.complete (h : Outcome services w w' choice operation outcome) (hw : w.Complete) :
    w'.Complete := by
  obtain ⟨e, -, hsame⟩ | ⟨result, -, -, heffect⟩ := h.stores
  · intro b k i hi
    rw [hsame.indexes] at hi
    exact hw b k i hi
  · have hframe : w'.indexes = w.indexes → w'.Complete := by
      intro heq b k i hi
      rw [heq] at hi
      exact hw b k i hi
    cases heffect with
    | ensureStaged backend ownerId documentId vid chunks index receipt hcall _ hset _ =>
      obtain ⟨-, hcomplete, -⟩ := ensureStaged_ok hcall
      exact hw.setIndex (fun i hi => Option.some.inj hi ▸ hcomplete) hset
    | activateVersion backend ownerId vid index hcall _ hset _ =>
      obtain ⟨old, new, hold, rfl, hnew⟩ := activateVersion_ok hcall
      have hcomplete := hw _ _ _ hold
      refine hw.setIndex (fun i hi => ?_) hset
      rw [← Option.some.inj hi, hnew hcomplete, PhysicalIndex.withActive_complete]
      exact hcomplete
    | deactivateVersion backend ownerId vid index hcall _ hset _ =>
      obtain ⟨-, rfl⟩ | ⟨old, new, hold, rfl, hnew⟩ := deactivateVersion_ok hcall
      · exact hw.setIndex (fun i hi => by cases hi) hset
      · have hcomplete := hw _ _ _ hold
        refine hw.setIndex (fun i hi => ?_) hset
        rw [← Option.some.inj hi, hnew hcomplete, PhysicalIndex.withActive_complete]
        exact hcomplete
    | deleteVersion backend ownerId vid existed _ hset _ =>
      exact hw.setIndex (fun i hi => by cases hi) hset
    | repository call result _ hindexes _ => exact hframe hindexes
    | getInactivePdfObject ownerId vid _ hindexes _ => exact hframe hindexes
    | putPdf pdfBytes ownerId documentId vid content now pdf _ _ hindexes => exact hframe hindexes
    | deletePdf pdf existed _ _ hindexes => exact hframe hindexes
    | invalidateVersion ownerId documentId vid _ hindexes _ => exact hframe hindexes

theorem World.fullyActive_iff {backend : IndexBackend} {key : String × String} :
    w.fullyActive backend key = true ↔
      ∃ index, w.indexes backend key = some index ∧ index.fullyActive = true := by
  simp [World.fullyActive, Option.any_eq_true]

/-- After a successful activation the index is fully active. -/
theorem activated_fullyActive {backend : IndexBackend} {ownerId vid : String}
    {index : Option PhysicalIndex}
    (hw : ∀ i, w.indexes backend (ownerId, vid) = some i → i.complete = true)
    (hcall : activateVersion backend (w.indexes backend (ownerId, vid)) ownerId vid = .ok index)
    (hset : w'.indexes = (w.setIndex backend (ownerId, vid) index).indexes) :
    w'.fullyActive backend (ownerId, vid) = true := by
  obtain ⟨old, new, hold, rfl, hnew⟩ := activateVersion_ok hcall
  have hcomplete := hw old hold
  refine World.fullyActive_iff.mpr ⟨new, ?_, ?_⟩
  · rw [hset, World.setIndex_indexes, if_pos ⟨rfl, rfl⟩]
  · rw [hnew hcomplete, PhysicalIndex.fullyActive_iff, PhysicalIndex.withActive_complete]
    exact ⟨hcomplete, PhysicalIndex.withActive_true_allActive⟩

/-- A fully active index stays so, unless a call deactivates or deletes it. -/
theorem Outcome.fullyActive (h : Outcome services w w' choice operation outcome)
    {backend : IndexBackend} {ownerId vid : String}
    (hkeep : choice.fails = true ∨ operation.clears ≠ some (backend, ownerId, vid))
    (hactive : w.fullyActive backend (ownerId, vid) = true) :
    w'.fullyActive backend (ownerId, vid) = true := by
  have hframe : w'.indexes backend (ownerId, vid) = w.indexes backend (ownerId, vid) →
      w'.fullyActive backend (ownerId, vid) = true := by
    intro heq
    unfold World.fullyActive
    rw [heq]
    exact hactive
  obtain ⟨e, -, hsame⟩ | ⟨result, -, hfails, heffect⟩ := h.stores
  · exact hframe (by rw [hsame.indexes])
  · have hclears : operation.clears ≠ some (backend, ownerId, vid) := by
      rcases hkeep with hkeep | hkeep
      · rw [hfails] at hkeep
        cases hkeep
      · exact hkeep
    obtain ⟨index, hindex, hfully⟩ := World.fullyActive_iff.mp hactive
    have hcomplete := (PhysicalIndex.fullyActive_iff.mp hfully).1
    cases heffect with
    | ensureStaged b o d u chunks index' receipt hcall _ hset _ =>
      by_cases hkey : backend = b ∧ (ownerId, vid) = (o, u)
      · obtain ⟨rfl, hkey⟩ := hkey
        cases hkey
        obtain ⟨-, -, -, hunchanged, -⟩ := ensureStaged_ok hcall
        refine hframe ?_
        rw [hset, World.setIndex_indexes, if_pos ⟨rfl, rfl⟩, hindex,
          hunchanged index hindex hcomplete]
      · exact hframe (by rw [hset, World.setIndex_indexes, if_neg hkey])
    | activateVersion b o u index' hcall _ hset _ =>
      by_cases hkey : backend = b ∧ (ownerId, vid) = (o, u)
      · obtain ⟨rfl, hkey⟩ := hkey
        cases hkey
        exact activated_fullyActive (fun i hi => Option.some.inj (hindex.symm.trans hi) ▸ hcomplete)
          hcall hset
      · exact hframe (by rw [hset, World.setIndex_indexes, if_neg hkey])
    | deactivateVersion b o u index' _ _ hset _ =>
      refine hframe ?_
      rw [hset, World.setIndex_indexes, if_neg]
      rintro ⟨rfl, hkey⟩
      cases hkey
      exact hclears rfl
    | deleteVersion b o u existed _ hset _ =>
      refine hframe ?_
      rw [hset, World.setIndex_indexes, if_neg]
      rintro ⟨rfl, hkey⟩
      cases hkey
      exact hclears rfl
    | repository call result _ hindexes _ => exact hframe (by rw [hindexes])
    | getInactivePdfObject o u _ hindexes _ => exact hframe (by rw [hindexes])
    | putPdf pdfBytes o d u content now pdf _ _ hindexes => exact hframe (by rw [hindexes])
    | deletePdf pdf existed _ _ hindexes => exact hframe (by rw [hindexes])
    | invalidateVersion o d u _ hindexes _ => exact hframe (by rw [hindexes])

/-- An index that does not exist is created by staging only. -/
theorem Outcome.absent (h : Outcome services w w' choice operation outcome) {backend : IndexBackend}
    {ownerId vid : String}
    (hkeep : choice.fails = true ∨ operation.creates ≠ some (backend, ownerId, vid))
    (hnone : w.indexes backend (ownerId, vid) = none) :
    w'.indexes backend (ownerId, vid) = none := by
  obtain ⟨e, -, hsame⟩ | ⟨result, -, hfails, heffect⟩ := h.stores
  · rw [hsame.indexes]
    exact hnone
  · have hcreates : operation.creates ≠ some (backend, ownerId, vid) := by
      rcases hkeep with hkeep | hkeep
      · rw [hfails] at hkeep
        cases hkeep
      · exact hkeep
    cases heffect with
    | ensureStaged b o d u chunks index' receipt _ _ hset _ =>
      rw [hset, World.setIndex_indexes, if_neg]
      · exact hnone
      · rintro ⟨rfl, hkey⟩
        cases hkey
        exact hcreates rfl
    | activateVersion b o u index' hcall _ hset _ =>
      obtain ⟨old, new, hold, rfl, -⟩ := activateVersion_ok hcall
      rw [hset, World.setIndex_indexes, if_neg]
      · exact hnone
      · rintro ⟨rfl, hkey⟩
        cases hkey
        cases hnone.symm.trans hold
    | deactivateVersion b o u index' hcall _ hset _ =>
      rw [hset, World.setIndex_indexes]
      split
      · rename_i hkey
        obtain ⟨rfl, hkey⟩ := hkey
        cases hkey
        obtain ⟨-, rfl⟩ | ⟨old, new, hold, -, -⟩ := deactivateVersion_ok hcall
        · rfl
        · cases hnone.symm.trans hold
      · exact hnone
    | deleteVersion b o u existed _ hset _ =>
      rw [hset, World.setIndex_indexes]
      split
      · rfl
      · exact hnone
    | repository call result _ hindexes _ => rw [hindexes]; exact hnone
    | getInactivePdfObject o u _ hindexes _ => rw [hindexes]; exact hnone
    | putPdf pdfBytes o d u content now pdf _ _ hindexes => rw [hindexes]; exact hnone
    | deletePdf pdf existed _ _ hindexes => rw [hindexes]; exact hnone
    | invalidateVersion o d u _ hindexes _ => rw [hindexes]; exact hnone

/-- An index keeps its metadata until it is deleted. -/
theorem Outcome.metadata (h : Outcome services w w' choice operation outcome)
    {backend : IndexBackend} {key : String × String}
    (hkeep : operation ≠ .deleteVersion backend key.1 key.2) {index : PhysicalIndex}
    (hindex : w.indexes backend key = some index) :
    ∃ index', w'.indexes backend key = some index' ∧ index'.metadata = index.metadata := by
  have hframe : w'.indexes backend key = w.indexes backend key →
      ∃ index', w'.indexes backend key = some index' ∧ index'.metadata = index.metadata :=
    fun heq => ⟨index, heq.trans hindex, rfl⟩
  -- another index was replaced, or this one by one with the same metadata
  have hset : ∀ b k new, w'.indexes = (w.setIndex b k new).indexes →
      (w.indexes b k = some index → ∃ index', new = some index' ∧
        index'.metadata = index.metadata) →
      ∃ index', w'.indexes backend key = some index' ∧ index'.metadata = index.metadata := by
    intro b k new hset hnew
    by_cases hsame : backend = b ∧ key = k
    · obtain ⟨rfl, rfl⟩ := hsame
      rw [hset, World.setIndex_indexes, if_pos ⟨rfl, rfl⟩]
      exact hnew hindex
    · exact hframe (by rw [hset, World.setIndex_indexes, if_neg hsame])
  obtain ⟨e, -, hsame⟩ | ⟨result, -, -, heffect⟩ := h.stores
  · exact hframe (by rw [hsame.indexes])
  cases heffect with
  | ensureStaged b o d u chunks new receipt hcall _ hindexes _ =>
    refine hset _ _ _ hindexes fun hold => ?_
    rw [hold] at hcall
    exact ⟨new, rfl, ensureStaged_metadata hcall⟩
  | activateVersion b o u new hcall _ hindexes _ =>
    refine hset _ _ _ hindexes fun hold => ?_
    rw [hold] at hcall
    exact activateVersion_metadata hcall
  | deactivateVersion b o u new hcall _ hindexes _ =>
    refine hset _ _ _ hindexes fun hold => ?_
    rw [hold] at hcall
    exact deactivateVersion_metadata hcall
  | deleteVersion b o u existed _ hindexes _ =>
    by_cases hsame : backend = b ∧ key = (o, u)
    · obtain ⟨rfl, rfl⟩ := hsame
      exact absurd rfl hkeep
    · exact hframe (by rw [hindexes, World.setIndex_indexes, if_neg hsame])
  | repository call result _ hindexes _ => exact hframe (by rw [hindexes])
  | getInactivePdfObject o u _ hindexes _ => exact hframe (by rw [hindexes])
  | putPdf pdfBytes o d u content now pdf _ _ hindexes => exact hframe (by rw [hindexes])
  | deletePdf pdf existed _ _ hindexes => exact hframe (by rw [hindexes])
  | invalidateVersion o d u _ hindexes _ => exact hframe (by rw [hindexes])

end Indexes

end ZhiyanRag.Ingestion
