import Mathlib.Algebra.Ring.Int.Defs
import ZhiyanRag.Identifiers
import ZhiyanRag.Ingestion.ElasticsearchWriter
import ZhiyanRag.Ingestion.MilvusWriter

/-!
# What the version writers promise

Two promises of both writers together: that a receipt is given only for an index that holds exactly
the staged chunks, and that `deactivate_version` works on whatever an interrupted staging or
activation left behind. The first fails for a Milvus collection that is overfull (`receipts_sound`),
the second for an Elasticsearch index that lacks a chunk (`deactivation_works`).
-/

namespace ZhiyanRag.Ingestion

open Relational Retrieval

/-! ### Receipts -/

section

variable {Score : Type} {env : MilvusWriter.Surroundings Score} {identity : VersionIdentity}
  {chunks : List JsonObject}

/-- Both receipts are sound, whatever rows a faithful store returns. -/
def ReceiptsSound (env : MilvusWriter.Surroundings Score) (index : Option Elasticsearch.Index)
    (collection : Option (Milvus.Collection Score)) (identity : VersionIdentity)
    (chunks : List JsonObject) : Prop :=
  ReceiptSound (ElasticsearchWriter.documentRows index) chunks
      ((ElasticsearchWriter.ensureStaged env.unicode env.chunksFingerprint index identity
        chunks).map fun staged => (ElasticsearchWriter.documentRows (some staged.1), staged.2)) ∧
    ∀ limited, MilvusWriter.Faithful limited →
      ReceiptSound (MilvusWriter.collectionRows collection) chunks
        ((MilvusWriter.ensureStaged env limited collection identity chunks).map
          fun staged => (MilvusWriter.collectionRows (some staged.1), staged.2))

/-- The store that returns the given rows wherever it may, and the first ones elsewhere. -/
noncomputable def preferring (rows : List (Milvus.Row Score)) : MilvusWriter.Limited Score :=
  fun _ collection limit =>
    open Classical in
    if rows.Subperm collection.rows.rows ∧ rows.length = min limit collection.rows.rows.length
      then rows
    else collection.rows.rows.take limit

theorem preferring_faithful (rows : List (Milvus.Row Score)) :
    MilvusWriter.Faithful (preferring rows) := by
  intro call collection limit
  unfold preferring
  split
  · rename_i h
    exact h
  · exact ⟨(List.take_sublist _ _).subperm, List.length_take⟩

/-- An overfull collection is not what its receipt says. -/
theorem not_holdsExactly_of_overfull {collection : Milvus.Collection Score}
    (hcount : chunks.length = maxVersionRows)
    (hmore : maxVersionRows < collection.rows.rows.length) :
    ¬HoldsExactly (MilvusWriter.collectionRows (some collection)) chunks := by
  intro hexact
  have hlength := hexact.identifiers.length_eq
  simp only [MilvusWriter.collectionRows, Option.elim_some, List.length_map] at hlength
  omega

/-- Both receipts are sound unless the Milvus collection is overfull. -/
theorem receipts_sound (env : MilvusWriter.Surroundings Score) (index : Option Elasticsearch.Index)
    (current : Option (Milvus.Collection Score)) (identity : VersionIdentity)
    (chunks : List JsonObject) :
    ReceiptsSound env index current identity chunks ↔
    ¬MilvusWriter.Overfull env current identity chunks := by
  constructor
  · rintro ⟨-, hmilvus⟩ ⟨hcount, hstage, collection, model, rfl, hmore, hmodel, hinspect, rows,
      seen, hsome, hlength, hverify⟩
    have hlimited : preferring rows 0 collection maxVersionRows = rows :=
      if_pos ⟨hsome, by omega⟩
    obtain ⟨receipt, hreceipt⟩ := MilvusWriter.ensureStaged_of_overfull hstage hmodel hinspect
      hverify hlimited
    have hsound := hmilvus (preferring rows) (preferring_faithful rows)
    rw [hreceipt] at hsound
    exact not_holdsExactly_of_overfull hcount hmore (hsound.exact _ _ rfl)
  · intro hfull
    refine ⟨ElasticsearchWriter.ensureStaged_sound _ _ _ _ _, fun limited hfaithful => ?_⟩
    exact ReceiptSound.of_ok (fun collection => MilvusWriter.collectionRows (some collection))
      fun staged receipt h =>
      MilvusWriter.ensureStaged_sound hfaithful hfull h

end

/-! ### A version of the largest size -/

/-- The name of the i-th chunk of the version below. -/
def chunkName (i : Nat) : String := String.ofList ('c' :: Nat.toDigits 10 i)

theorem chunkName_injective : Function.Injective chunkName := by
  intro i j h
  have h : Nat.toDigits 10 i = Nat.toDigits 10 j := (List.cons.inj (String.ofList_injective h)).2
  rw [← Nat.ofDigitChars_ten_toDigits (n := i), h, Nat.ofDigitChars_ten_toDigits]

theorem contractIdPattern_chunkName {i : Nat} (hi : i ≤ maxVersionRows) :
    contractIdPattern (chunkName i) = true := by
  have hdigit : ∀ c ∈ Nat.toDigits 10 i, 48 ≤ c.toNat ∧ c.toNat ≤ 57 := by
    intro c hc
    have h := Nat.isDigit_of_mem_toDigits (by decide) (by decide) hc
    rw [Char.isDigit_iff_toNat] at h
    exact h
  have hlength : (Nat.toDigits 10 i).length ≤ 5 := by
    refine (Nat.length_toDigits_le_iff (by decide) (by decide)).mpr ?_
    unfold maxVersionRows at hi
    omega
  unfold contractIdPattern chunkName
  rw [utf8Bytes_ofList]
  · simp only [List.map_cons, Bool.and_eq_true, decide_eq_true_eq, List.length_map,
      List.all_eq_true]
    refine ⟨⟨by decide, by omega⟩, fun b hb => ?_⟩
    obtain ⟨c, hc, rfl⟩ := List.mem_map.mp hb
    have := hdigit c hc
    have hb : isDigit c.toNat = true := by simp [isDigit, this.1, this.2]
    simp [isIdChar, isIdStart, hb]
  · intro c hc
    rcases List.mem_cons.mp hc with rfl | hc
    · decide
    · have := hdigit c hc
      omega

/-- The members of the i-th chunk. -/
def chunkMembers (i : Nat) : List (String × JsonValue) :=
  [("chunk_id", .str (chunkName i)), ("document_id", .str "doc_1"), ("version_id", .str "ver_1"),
    ("tenant_id", .str "owner_1"), ("visibility", .str "tenant"), ("section_path", .str "S"),
    ("text", .str "t"),
    ("library_scope_ids", .array []), ("page_start", .int 1), ("page_end", .int 1),
    ("parse_version", .str "p1"),
    ("embedding_version", .str "e1"), ("is_active", .bool false)]

/-- The i-th chunk. -/
def stagedChunk (i : Nat) : JsonObject :=
  ⟨⟨chunkMembers i, by
    show ["chunk_id", "document_id", "version_id", "tenant_id", "visibility",
      "section_path", "text", "library_scope_ids", "page_start", "page_end", "parse_version",
      "embedding_version", "is_active"].Nodup
    decide⟩⟩

theorem get_stagedChunk (i : Nat) (field : String) :
    (stagedChunk i).get field =
      (((chunkMembers i).find? fun member => decide (member.1 = field)).map Prod.snd).getD
        .null := rfl

theorem chunkIdOf_stagedChunk (i : Nat) : chunkIdOf (stagedChunk i) = chunkName i := by
  simp [chunkIdOf, get_stagedChunk, chunkMembers, JsonValue.str?]

theorem withActive_stagedChunk (i : Nat) : withActive (stagedChunk i) false = stagedChunk i := by
  simp [withActive, stagedChunk, JsonObject.put, Table.upsert, Table.insert?, chunkMembers,
    Table.set, Table.mapRows]

/-- The first `n` chunks. -/
def stagedChunks (n : Nat) : List JsonObject := (List.range n).map stagedChunk

/-- Exact arithmetic, and a provider that embeds every text alike. -/
def exampleSurroundings : MilvusWriter.Surroundings Int where
  ofInt n := n
  add := (· + ·)
  reciprocal n := 1 / n
  lt a b := decide (a < b)
  le a b := decide (a ≤ b)
  isFinite _ := true
  ofNumber _ := .ok 0
  mul := (· * ·)
  div := (· / ·)
  sqrt n := n
  fsum values := .ok values.sum
  unicode := asciiTables
  identity _ := .ok ⟨"local", "m3", "d1"⟩
  embed _ texts := .ok (texts.map fun _ => [1])
  toFloat32 := .ok
  chunksFingerprint _ :=
    ⟨"0000000000000000000000000000000000000000000000000000000000000000", by decide⟩
  embeddingsSha256 _ :=
    ⟨"1111111111111111111111111111111111111111111111111111111111111111", by decide⟩

def exampleIdentity : VersionIdentity := ⟨"owner_1", "doc_1", "ver_1"⟩

/-- The collection of a version of so many chunks, with the rows of the first `n`. -/
def exampleCollection (count n : Nat) : Milvus.Collection Int where
  metadata := MilvusWriter.expectedConfiguration ++ MilvusWriter.providerMetadata
    ⟨"local", "m3", "d1"⟩ ++
      [("source_chunks_sha256", "0000000000000000000000000000000000000000000000000000000000000000"),
      ("chunk_count", toString count), ("embedding_dimension", "1"), ("owner_id", "owner_1"),
      ("document_id", "doc_1"),
      ("document_version_id", "ver_1"),
      ("embeddings_sha256", "1111111111111111111111111111111111111111111111111111111111111111")]
  fields := Milvus.expectedFields
  rows := ⟨(List.range n).map fun i => .ofChunk (stagedChunk i) [1], by
    rw [List.map_map]
    refine List.Nodup.map (fun i j h => chunkName_injective ?_) List.nodup_range
    rw [← chunkIdOf_stagedChunk, ← chunkIdOf_stagedChunk]
    exact h⟩

/-- The store that returns the first rows. -/
def firstRows :
    MilvusWriter.Limited Int := fun _ collection limit => collection.rows.rows.take limit

theorem firstRows_faithful : MilvusWriter.Faithful firstRows := fun _ _ _ =>
  ⟨(List.take_sublist _ _).subperm, List.length_take⟩

theorem validateChunk_stagedChunk (i : Nat) (chunkId : String) :
    Milvus.validateChunk chunkId (stagedChunk i) = .ok () := by
  simp [Milvus.validateChunk, check_bind, get_stagedChunk, chunkMembers, JsonValue.isNonemptyStr,
    JsonValue.str?, JsonValue.isBool]

theorem validateChunksFrom_stagedChunk {is : List Nat} {seen : List String} (hnodup : is.Nodup)
    (hfresh : ∀ i ∈ is, chunkName i ∉ seen) :
    Milvus.validateChunksFrom seen (is.map stagedChunk) = .ok () := by
  induction is generalizing seen with
  | nil => rfl
  | cons i is ih =>
    obtain ⟨hnew, hnodup⟩ := List.nodup_cons.mp hnodup
    have hname : (((stagedChunk i).get "chunk_id").str?).getD "" = chunkName i :=
      chunkIdOf_stagedChunk i
    have hnonempty : ((stagedChunk i).get "chunk_id").isNonemptyStr = true := by
      simp [get_stagedChunk, chunkMembers, JsonValue.isNonemptyStr, JsonValue.str?, chunkName]
    have hseen : chunkName i ∉ seen := hfresh i List.mem_cons_self
    rw [List.map_cons]
    unfold Milvus.validateChunksFrom
    simp only [check_bind, ensure_eq_ok]
    refine ⟨?_, validateChunk_stagedChunk i _, ih hnodup fun j hj => ?_⟩
    · rw [hname, hnonempty]
      simpa using hseen
    · rw [hname, List.mem_cons, not_or]
      refine ⟨fun h => hnew (chunkName_injective h ▸ hj), hfresh j (List.mem_cons_of_mem _ hj)⟩

theorem validateStage_stagedChunks {n : Nat} (hpos : 0 < n) (hn : n ≤ maxVersionRows) :
    MilvusWriter.validateStage exampleIdentity (stagedChunks n) = .ok () := by
  have hnonempty : (stagedChunks n).isEmpty = false := by
    rw [List.isEmpty_eq_false_iff, ← List.length_pos_iff]
    simpa [stagedChunks] using hpos
  unfold MilvusWriter.validateStage Milvus.validateChunks
  simp only [check_bind, ensure_eq_ok, hnonempty]
  refine ⟨by decide, ?_, ⟨rfl, ?_⟩, ?_⟩
  · have hid : contractIdPattern exampleIdentity.documentId = true := by decide
    simpa [hid, stagedChunks] using hn
  · exact validateChunksFrom_stagedChunk List.nodup_range (by simp)
  · simp only [stagedChunks, List.all_eq_true, List.mem_map]
    rintro _ ⟨i, hi, rfl⟩
    have hi : i ≤ maxVersionRows := by
      have := List.mem_range.mp hi
      omega
    rw [chunkIdOf_stagedChunk, contractIdPattern_chunkName hi]
    simp [VersionIdentity.stages, exampleIdentity, get_stagedChunk, chunkMembers, JsonValue.str?,
      JsonValue.isBool, JsonValue.isTrue]

theorem inspectIdentity_exampleCollection (n : Nat) :
    MilvusWriter.inspectIdentity exampleSurroundings (exampleCollection maxVersionRows n)
      (MilvusWriter.stagedMetadata exampleSurroundings ⟨"local", "m3", "d1"⟩ exampleIdentity
        (stagedChunks maxVersionRows)) = .ok (exampleCollection maxVersionRows n).metadata := by
  have hlength : (stagedChunks maxVersionRows).length = 16000 := by
    simp [stagedChunks, maxVersionRows]
  unfold MilvusWriter.stagedMetadata
  rw [hlength]
  rfl

theorem find?_stagedChunks {i n : Nat} (hi : i < n) :
    (stagedChunks n).find? (fun chunk => chunkIdOf chunk = chunkName i) = some (stagedChunk i) := by
  have hsome : ((stagedChunks n).find? fun chunk => chunkIdOf chunk = chunkName i).isSome := by
    rw [List.find?_isSome]
    exact ⟨stagedChunk i, List.mem_map_of_mem (List.mem_range.mpr hi),
      by simpa using chunkIdOf_stagedChunk i⟩
  obtain ⟨chunk, hchunk⟩ := Option.isSome_iff_exists.mp hsome
  obtain ⟨j, -, rfl⟩ := List.mem_map.mp (List.mem_of_find?_eq_some hchunk)
  have hname : chunkIdOf (stagedChunk j) = chunkName i := by simpa using List.find?_some hchunk
  rw [chunkIdOf_stagedChunk] at hname
  rw [hchunk, chunkName_injective hname]

theorem validatedRow_stagedChunk (i count n : Nat) :
    MilvusWriter.validatedRow exampleSurroundings (exampleCollection count n).metadata
      (.ofChunk (stagedChunk i) [1]) = .ok () := by
  have howner : metadataGet (exampleCollection count n).metadata "owner_id" =
      some "owner_1" := by rfl
  have hdocument : metadataGet (exampleCollection count n).metadata "document_id" =
      some "doc_1" := by rfl
  have hversion : metadataGet (exampleCollection count n).metadata "document_version_id" =
      some "ver_1" := by rfl
  have hdimension :
      MilvusWriter.metadataInt? exampleSurroundings (exampleCollection count n).metadata
        "embedding_dimension" =
      some 1 := by rfl
  unfold MilvusWriter.validatedRow
  simp only [check_bind, ensure_eq_ok, howner, hdocument, hversion, hdimension]
  simp [Milvus.Row.ofChunk, chunkIdOf_stagedChunk, get_stagedChunk, chunkMembers, JsonValue.str?,
    JsonValue.isBool, JsonValue.isTrue, JsonValue.stringSet, JsonValue.equals,
    JsonValue.equalItems_self, exampleSurroundings]

theorem accepted_stagedChunk {i n count m : Nat} (hi : i < n) :
    MilvusWriter.Accepted exampleSurroundings (exampleCollection count m).metadata
      (stagedChunks n) none (.ofChunk (stagedChunk i) [1]) where
  validated := validatedRow_stagedChunk i count m
  source := ⟨stagedChunk i, by
    rw [← find?_stagedChunks hi]
    exact congrArg (fun id => (stagedChunks n).find? fun chunk => chunkIdOf chunk = id)
      (chunkIdOf_stagedChunk i), by
    show (withActive (stagedChunk i) false).equals (stagedChunk i) = true
    rw [withActive_stagedChunk]
    exact (stagedChunk i).equals_self⟩
  vector := rfl

/-- The rows of the first chunks pass for the whole version. -/
theorem verifyExpectedRows_exampleCollection (count n m : Nat) :
    ∃ seen, MilvusWriter.verifyExpectedRows exampleSurroundings (exampleCollection count m).metadata
      (stagedChunks n) (exampleCollection count n).rows.rows false none = .ok seen := by
  have hrows : (exampleCollection count n).rows.rows = (List.range n).map fun i =>
      .ofChunk (stagedChunk i) [1] := rfl
  refine ⟨_, MilvusWriter.verifyExpectedRows_eq_ok.mpr ⟨rfl, (exampleCollection count n).rows.nodup,
    fun row hrow => ?_, ?_, .inr ⟨fun chunk hchunk => ?_, ?_⟩⟩⟩
  · rw [hrows] at hrow
    obtain ⟨i, hi, rfl⟩ := List.mem_map.mp hrow
    exact accepted_stagedChunk (List.mem_range.mp hi)
  · simp [hrows, stagedChunks]
  · obtain ⟨i, hi, rfl⟩ := List.mem_map.mp hchunk
    rw [hrows, List.map_map]
    exact List.mem_map.mpr ⟨i, hi, rfl⟩
  · have hfinite :
        ((MilvusWriter.rowVectors (exampleCollection count n).rows.rows).insertionSort
          fun a b => a.1 ≤ b.1).all
        (fun member => !member.2.isEmpty && member.2.all exampleSurroundings.isFinite) = true := by
      refine List.all_eq_true.mpr fun member hmember => ?_
      obtain ⟨row, hrow, rfl⟩ := List.mem_map.mp (List.mem_insertionSort _ |>.mp hmember)
      rw [hrows] at hrow
      obtain ⟨i, -, rfl⟩ := List.mem_map.mp hrow
      rfl
    unfold MilvusWriter.verifyEmbeddings MilvusWriter.embeddingsFingerprint
    simp only [hfinite]
    rfl

/-- A collection with one row more than the largest version has gets a receipt from a store that
returns the first rows, which are those of the version. -/
theorem receipt_for_overfull_collection : MilvusWriter.Faithful firstRows ∧
    (∃ receipt, MilvusWriter.ensureStaged exampleSurroundings firstRows
      (some (exampleCollection maxVersionRows (maxVersionRows + 1)))
      exampleIdentity (stagedChunks maxVersionRows) =
        .ok (exampleCollection maxVersionRows (maxVersionRows + 1), receipt)) ∧
    ¬ReceiptsSound exampleSurroundings
      none (some (exampleCollection maxVersionRows (maxVersionRows + 1))) exampleIdentity
        (stagedChunks maxVersionRows) := by
  obtain ⟨seen, hverify⟩ := verifyExpectedRows_exampleCollection maxVersionRows maxVersionRows
    (maxVersionRows + 1)
  have hlimited :
      firstRows 0 (exampleCollection maxVersionRows (maxVersionRows + 1)) maxVersionRows =
        (exampleCollection maxVersionRows maxVersionRows).rows.rows := by
    unfold firstRows exampleCollection
    simp only
    rw [← List.map_take, List.take_range, Nat.min_eq_left (Nat.le_succ _)]
  obtain ⟨receipt, hreceipt⟩ := MilvusWriter.ensureStaged_of_overfull
    (validateStage_stagedChunks (by decide) le_rfl) rfl (inspectIdentity_exampleCollection _)
      hverify hlimited
  refine ⟨firstRows_faithful, ⟨receipt, hreceipt⟩, fun hsound => ?_⟩
  have hexact := hsound.2 firstRows firstRows_faithful
  rw [hreceipt] at hexact
  refine not_holdsExactly_of_overfull ?_ ?_ (hexact.exact _ _ rfl)
  · simp [stagedChunks]
  · simp [exampleCollection]

/-! ### Deactivation -/

/-- Both writers deactivate what is there: they return, and every row is inactive and otherwise as
it was. -/
def DeactivationWorks {Score : Type} (env : MilvusWriter.Surroundings Score)
    (limited : MilvusWriter.Limited Score) (index : Option Elasticsearch.Index)
    (collection : Option (Milvus.Collection Score)) (identity : VersionIdentity) :
    Prop :=
  ElasticsearchWriter.deactivateVersion env.unicode index identity.ownerId
      identity.documentVersionId = .ok (index.map ElasticsearchWriter.deactivated) ∧
    MilvusWriter.deactivateVersion env limited collection identity.ownerId
      identity.documentVersionId = .ok (collection.map MilvusWriter.deactivated)

section

variable {Score : Type} {env : MilvusWriter.Surroundings Score}
  {limited : MilvusWriter.Limited Score} {identity : VersionIdentity} {chunks : List JsonObject}

theorem elasticsearch_deactivation (hascii : ReadsAsciiDigits env.unicode)
    (hid : validIdentity identity.ownerId identity.documentVersionId = true)
    {index : Option Elasticsearch.Index}
    (hindex : ∀ staged ∈ index,
      ElasticsearchWriter.PartlyStaged env.unicode env.chunksFingerprint identity chunks staged) :
    ElasticsearchWriter.deactivateVersion env.unicode index identity.ownerId
        identity.documentVersionId = .ok (index.map ElasticsearchWriter.deactivated) ↔
      ∀ staged ∈ index, staged.documents.rows.length = chunks.length := by
  unfold ElasticsearchWriter.deactivateVersion
  rw [ensure_true_bind hid]
  cases index with
  | none => exact ⟨fun _ _ h => (by cases h), fun _ => rfl⟩
  | some staged =>
    have hset := ElasticsearchWriter.setActive_partlyStaged hascii (hindex staged rfl)
    simp only [hset, Option.mem_def, Option.some.injEq, forall_eq']
    by_cases hlength : staged.documents.rows.length = chunks.length
    · rw [if_pos hlength]
      exact ⟨fun _ => hlength, fun _ => rfl⟩
    · rw [if_neg hlength]
      exact ⟨fun h => (by cases h), fun h => absurd h hlength⟩

theorem milvus_deactivation (hascii : ReadsAsciiDigits env.unicode)
    (hfaithful : MilvusWriter.Faithful limited)
    (hid : validIdentity identity.ownerId identity.documentVersionId = true)
    {collection : Option (Milvus.Collection Score)}
    (hcollection : ∀ staged ∈ collection, MilvusWriter.PartlyStaged env identity chunks staged) :
    MilvusWriter.deactivateVersion env limited collection identity.ownerId
      identity.documentVersionId = .ok (collection.map MilvusWriter.deactivated) := by
  unfold MilvusWriter.deactivateVersion
  rw [ensure_true_bind hid]
  cases collection with
  | none => rfl
  | some staged =>
    simp only [MilvusWriter.setActive_partlyStaged hascii hfaithful (hcollection staged rfl)]
    rfl

/-- Deactivation works unless the Elasticsearch index is there without one of the chunks. -/
theorem deactivation_works (env : MilvusWriter.Surroundings Score)
    (hascii : ReadsAsciiDigits env.unicode) (limited : MilvusWriter.Limited Score)
    (hfaithful : MilvusWriter.Faithful limited) (identity : VersionIdentity)
    (hid : validIdentity identity.ownerId identity.documentVersionId = true)
    (chunks : List JsonObject)
    (index : Option Elasticsearch.Index)
    (hindex : ∀ staged ∈ index,
      ElasticsearchWriter.PartlyStaged env.unicode env.chunksFingerprint identity chunks staged)
    (collection : Option (Milvus.Collection Score))
    (hcollection : ∀ staged ∈ collection, MilvusWriter.PartlyStaged env identity chunks staged) :
    DeactivationWorks env limited index collection identity ↔
      ∀ staged ∈ index, staged.documents.rows.length = chunks.length := by
  rw [← elasticsearch_deactivation hascii hid hindex]
  exact ⟨fun h => h.1, fun h => ⟨h, milvus_deactivation hascii hfaithful hid hcollection⟩⟩

end

/-- The index that an interruption before the bulk request leaves. -/
def createdOnly : Elasticsearch.Index :=
  ElasticsearchWriter.createdIndex exampleSurroundings.chunksFingerprint exampleIdentity
    (stagedChunks 1)

theorem createdOnly_partlyStaged :
    ElasticsearchWriter.PartlyStaged asciiTables exampleSurroundings.chunksFingerprint
    exampleIdentity (stagedChunks 1) createdOnly where
  valid := by rfl
  metadata := by rfl
  documents := by
    intro document hdocument
    cases hdocument

/-- The index after its one chunk was staged and activated. -/
def activated : Elasticsearch.Index :=
  { createdOnly with
    documents := ⟨[⟨chunkName 0, withActive (stagedChunk 0) true⟩], List.nodup_singleton _⟩ }

theorem activated_partlyStaged :
    ElasticsearchWriter.PartlyStaged asciiTables exampleSurroundings.chunksFingerprint
    exampleIdentity (stagedChunks 1) activated where
  valid := by rfl
  metadata := by rfl
  documents := by
    intro document hdocument
    obtain rfl := List.mem_singleton.mp hdocument
    exact ⟨stagedChunk 0, List.mem_singleton_self _, true, by rw [chunkIdOf_stagedChunk]⟩

theorem exampleCollection_partlyStaged :
    MilvusWriter.PartlyStaged exampleSurroundings exampleIdentity (stagedChunks 1)
      (exampleCollection 1 1) where
  valid := validateStage_stagedChunks (by decide) (by decide)
  metadata := ⟨⟨"local", "m3", "d1"⟩, by rfl⟩
  rows := by
    intro row hrow
    obtain rfl := List.mem_singleton.mp hrow
    refine ⟨stagedChunk 0, List.mem_singleton_self _, false, [1], ?_, by rfl, by rfl⟩
    show Milvus.Row.ofChunk (stagedChunk 0) [1] = _
    unfold MilvusWriter.setRowActive
    rw [show (Milvus.Row.ofChunk (stagedChunk 0) [(1 : Int)]).payload = stagedChunk 0 from rfl,
      withActive_stagedChunk]
    simp [Milvus.Row.ofChunk, get_stagedChunk, chunkMembers, JsonValue.isTrue]

theorem deactivation_works_activated :
    DeactivationWorks exampleSurroundings firstRows (some activated) (some (exampleCollection 1 1))
      exampleIdentity :=
  (deactivation_works exampleSurroundings asciiTables_readsAsciiDigits firstRows firstRows_faithful
    exampleIdentity (by decide) (stagedChunks 1) (some activated)
      (fun _ h => Option.some.inj h ▸ activated_partlyStaged)
    (some (exampleCollection 1 1)) fun _ h =>
      Option.some.inj h ▸ exampleCollection_partlyStaged).mpr fun _ h => Option.some.inj h ▸ rfl

/-- An index that was created and not filled is not deactivated. -/
theorem deactivation_of_createdOnly :
    ElasticsearchWriter.PartlyStaged asciiTables exampleSurroundings.chunksFingerprint
        exampleIdentity (stagedChunks 1) createdOnly ∧
      ElasticsearchWriter.deactivateVersion asciiTables (some createdOnly) "owner_1" "ver_1" =
        .error ⟨.indexNotReadyError,
          "Elasticsearch version active-state count does not match metadata"⟩ ∧
      ¬DeactivationWorks exampleSurroundings firstRows (some createdOnly) none exampleIdentity := by
  refine ⟨createdOnly_partlyStaged, by rfl, fun h => ?_⟩
  have herror : ElasticsearchWriter.deactivateVersion asciiTables (some createdOnly) "owner_1"
      "ver_1" = .error ⟨.indexNotReadyError,
        "Elasticsearch version active-state count does not match metadata"⟩ := by rfl
  have hok := h.1
  rw [show ElasticsearchWriter.deactivateVersion exampleSurroundings.unicode (some createdOnly)
    exampleIdentity.ownerId exampleIdentity.documentVersionId = _ from herror] at hok
  cases hok

end ZhiyanRag.Ingestion
