import Mathlib.Data.List.Perm.Subperm
import ZhiyanRag.Ingestion.IndexWriter
import ZhiyanRag.Retrieval.Authorization

/-!
# What a staged index holds

The two version writers stage the same chunks into two stores. This is what they have in common: the
identity of a version, what a row has to do with a staged chunk, and when a receipt is sound.
-/

namespace ZhiyanRag.Ingestion

open Relational Retrieval

/-- The owner, the document and the version that a physical index belongs to. -/
structure VersionIdentity where
  ownerId : String
  documentId : String
  documentVersionId : String

/-- The chunk carries the identity and is inactive. -/
def VersionIdentity.stages (identity : VersionIdentity) (chunk : JsonObject) : Bool :=
  decide ((chunk.get "tenant_id").str? = some identity.ownerId) &&
    decide ((chunk.get "document_id").str? = some identity.documentId) &&
    decide ((chunk.get "version_id").str? = some identity.documentVersionId) &&
    (chunk.get "is_active").isBool && !(chunk.get "is_active").isTrue

/-- A lower-case hexadecimal digest: `sha256(..).hexdigest()`. -/
abbrev Sha256 := { s : String // sha256Pattern s = true }

/-! ### Counts in the metadata -/

theorem readDigits_digits {unicode : UnicodeTables} (hascii : ReadsAsciiDigits unicode)
    {cs : List Char} (hdigits : ∀ c ∈ cs, c.isDigit = true) (value : Nat) :
    readDigits unicode value cs = some (Nat.ofDigitChars 10 cs value) := by
  induction cs generalizing value with
  | nil => rfl
  | cons c cs ih =>
    have hc : c.isDigit = true := hdigits c List.mem_cons_self
    have hne : c ≠ '_' := by
      rintro rfl
      exact absurd hc (by decide)
    rw [Nat.ofDigitChars_cons, ← ih fun d hd => hdigits d (List.mem_cons_of_mem _ hd),
      readDigits.eq_3 unicode value c cs fun _ _ h _ => hne h, hascii c hc, Option.bind_some]

theorem strip_digits {cs : List Char} (hdigits : ∀ c ∈ cs, c.isDigit = true) : strip cs = cs := by
  have hspace : ∀ c : Char, c.isDigit = true → isPySpace c = false := by
    intro c hc
    obtain ⟨hlow, hhigh⟩ : 48 ≤ c.toNat ∧ c.toNat ≤ 57 := by
      rw [Char.isDigit_iff_toNat] at hc
      exact hc
    unfold isPySpace isWhiteSpace
    simp
    omega
  have hdrop : ∀ cs : List Char, (∀ c ∈ cs, c.isDigit = true) →
      cs.dropWhile (fun c => isPySpace c) = cs := by
    intro cs hcs
    cases cs with
    | nil => rfl
    | cons c cs =>
      rw [List.dropWhile_cons_of_neg (by rw [hspace c (hcs c List.mem_cons_self)]; decide)]
  show (((cs.dropWhile fun c => isPySpace c).reverse.dropWhile fun c => isPySpace c).reverse) = cs
  rw [hdrop cs hdigits, hdrop cs.reverse fun c hc => hdigits c (List.mem_reverse.mp hc),
    List.reverse_reverse]

/-- `int(str(n)) == n`. -/
theorem pyInt?_toString {unicode : UnicodeTables} (hascii : ReadsAsciiDigits unicode) (n : Nat) :
    pyInt? unicode (toString n) = some (n : Int) := by
  have hdigits : ∀ c ∈ Nat.toDigits 10 n, c.isDigit = true := fun c hc =>
    Nat.isDigit_of_mem_toDigits (by decide) (by decide) hc
  have hvalue : Nat.ofDigitChars 10 (Nat.toDigits 10 n) 0 = n := Nat.ofDigitChars_ten_toDigits
  have htext : (toString n).toList = Nat.toDigits 10 n := Nat.toList_repr
  unfold pyInt?
  simp only
  rw [htext, strip_digits hdigits]
  cases hcs : Nat.toDigits 10 n with
  | nil => exact absurd hcs Nat.toDigits_ne_nil
  | cons c cs =>
    rw [hcs] at hdigits hvalue
    have hc : c.isDigit = true := hdigits c List.mem_cons_self
    split
    · exact absurd (hdigits _ (by rename_i h; rw [(List.cons.inj h).1]; exact List.mem_cons_self))
        (by decide)
    · exact absurd (hdigits _ (by rename_i h; rw [(List.cons.inj h).1]; exact List.mem_cons_self))
        (by decide)
    · have hread : readDigits unicode (c.toNat - '0'.toNat) cs = some n := by
        rw [readDigits_digits hascii fun d hd => hdigits d (List.mem_cons_of_mem _ hd)]
        rw [Nat.ofDigitChars_cons, Nat.mul_zero, Nat.zero_add] at hvalue
        rw [hvalue]
      simp only [hascii c hc, Option.bind_some, hread]
      rfl

/-! ### Rows and chunks -/

/-- The payload with the activity set. -/
def withActive (payload : JsonObject) (isActive : Bool) : JsonObject :=
  payload.put "is_active" (.bool isActive)

theorem get_withActive (payload : JsonObject) (isActive : Bool) {field : String}
    (h : "is_active" ≠ field) : (withActive payload isActive).get field = payload.get field :=
  JsonObject.get_put_ne _ _ h

@[simp] theorem get_withActive_isActive (payload : JsonObject) (isActive : Bool) :
    (withActive payload isActive).get "is_active" = .bool isActive :=
  JsonObject.get_put_self _ _ _

/-- The payload is the chunk, except possibly for `is_active`. -/
def matchesChunk (payload chunk : JsonObject) : Bool :=
  (payload.get "is_active").isBool && (withActive payload false).equals chunk

/-- A row, by its identifier and its payload, belongs to one of the chunks and carries its payload.
-/
def Intact (chunks : List JsonObject) (row : String × JsonObject) : Prop :=
  ∃ chunk ∈ chunks, row.1 = chunkIdOf chunk ∧ matchesChunk row.2 chunk = true

/-- One row per chunk and no other row, each with the payload of its chunk. -/
structure HoldsExactly (rows : List (String × JsonObject)) (chunks : List JsonObject) : Prop where
  identifiers : (rows.map Prod.fst).Perm (chunks.map chunkIdOf)
  intact : ∀ row ∈ rows, Intact chunks row

/-- A receipt is given only for an index that holds exactly the chunks, and for none that held a
foreign or a drifted row before. -/
structure ReceiptSound (prior : List (String × JsonObject)) (chunks : List JsonObject)
    (outcome : Except PyError (List (String × JsonObject) × IndexWriteReceipt)) : Prop where
  exact : ∀ rows receipt, outcome = .ok (rows, receipt) → HoldsExactly rows chunks
  raises : (∃ row ∈ prior, ¬Intact chunks row) → ∃ e, outcome = .error e

/-- A staging is sound if what it leaves with a receipt is, and what it found then was. -/
theorem ReceiptSound.of_ok {α : Type} {prior : List (String × JsonObject)}
    {chunks : List JsonObject} {outcome : Except PyError (α × IndexWriteReceipt)}
    (rows : α → List (String × JsonObject)) (h : ∀ staged receipt, outcome = .ok (staged, receipt) →
      HoldsExactly (rows staged) chunks ∧ ∀ row ∈ prior, Intact chunks row) :
    ReceiptSound prior chunks (outcome.map fun staged => (rows staged.1, staged.2)) := by
  cases outcome with
  | error e => exact ⟨fun rows receipt h => (by cases h), fun _ => ⟨e, rfl⟩⟩
  | ok staged =>
    obtain ⟨hexact, hprior⟩ := h staged.1 staged.2 rfl
    refine ⟨fun rows receipt h => ?_, ?_⟩
    · cases h
      exact hexact
    · rintro ⟨row, hrow, hdrift⟩
      exact absurd (hprior row hrow) hdrift

/-- As many distinct rows as chunks, every chunk's row among them. -/
theorem HoldsExactly.of_length {rows : List (String × JsonObject)} {chunks : List JsonObject}
    (hdistinct : (chunks.map chunkIdOf).Nodup) (hlength : rows.length = chunks.length)
    (hpresent : ∀ chunk ∈ chunks, ∃ payload, (chunkIdOf chunk, payload) ∈ rows ∧
      matchesChunk payload chunk = true)
    (hkey : (rows.map Prod.fst).Nodup) : HoldsExactly rows chunks := by
  have hsubset : chunks.map chunkIdOf ⊆ rows.map Prod.fst := by
    intro id hid
    obtain ⟨chunk, hchunk, rfl⟩ := List.mem_map.mp hid
    obtain ⟨payload, hrow, -⟩ := hpresent chunk hchunk
    exact List.mem_map.mpr ⟨_, hrow, rfl⟩
  have hperm : (chunks.map chunkIdOf).Perm (rows.map Prod.fst) :=
    (List.subperm_of_subset hdistinct hsubset).perm_of_length_le
      (by rw [List.length_map, List.length_map, hlength])
  refine ⟨hperm.symm, fun row hrow => ?_⟩
  obtain ⟨chunk, hchunk, hid⟩ := List.mem_map.mp (hperm.mem_iff.mpr (List.mem_map_of_mem hrow))
  obtain ⟨payload, hmem, hmatches⟩ := hpresent chunk hchunk
  have hsame : row = (chunkIdOf chunk, payload) := List.inj_on_of_nodup_map hkey hrow hmem hid.symm
  exact ⟨chunk, hchunk, hid.symm, by rw [hsame]; exact hmatches⟩

/-- A loop over rows that keeps the identifiers it has seen passes when every row does and no
identifier comes twice. -/
theorem foldlM_distinct {ρ : Type} {key : ρ → String} {P : ρ → Prop}
    {f : List String → ρ → Except PyError (List String)}
    (hf : ∀ seen row seen', f seen row = .ok seen' ↔ seen' = key row :: seen ∧ key row ∉ seen ∧
      P row) {rows : List ρ}
    {seen seen' : List String} :
    rows.foldlM f seen = .ok seen' ↔
      seen' = (rows.map key).reverse ++ seen ∧ (rows.map key).Nodup ∧
        (∀ row ∈ rows, key row ∉ seen) ∧ ∀ row ∈ rows, P row := by
  induction rows generalizing seen with
  | nil =>
    rw [List.foldlM_nil, pure_eq_ok]
    simp [eq_comm]
  | cons row rows ih =>
    rw [List.foldlM_cons, bind_eq_ok]
    simp only [ih, hf, List.map_cons, List.reverse_cons, List.append_assoc, List.nodup_cons,
      List.forall_mem_cons, List.singleton_append]
    constructor
    · rintro ⟨_, ⟨rfl, hseen, hrow⟩, rfl, hnodup, hfresh, hrows⟩
      refine ⟨rfl, ⟨fun hmem => ?_, hnodup⟩,
        ⟨hseen, fun r hr hmem => hfresh r hr (List.mem_cons_of_mem _ hmem)⟩, hrow, hrows⟩
      obtain ⟨r, hr, hid⟩ := List.mem_map.mp hmem
      exact hfresh r hr (hid ▸ List.mem_cons_self)
    · rintro ⟨rfl, ⟨hnew, hnodup⟩, ⟨hseen, hfresh⟩, hrow, hrows⟩
      refine ⟨_, ⟨rfl, hseen, hrow⟩, rfl, hnodup, fun r hr hmem => ?_, hrows⟩
      rcases List.mem_cons.mp hmem with hid | hmem
      · exact hnew (hid ▸ List.mem_map_of_mem hr)
      · exact hfresh r hr hmem

end ZhiyanRag.Ingestion
