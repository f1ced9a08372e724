import Mathlib.Data.List.Sort
import Mathlib.Data.String.Basic
import ZhiyanRag.Base
import ZhiyanRag.Lib.Delimiters

/-!
# Digests of model snapshots

`directory_sha256` of `reranker.py` hashes a directory as a sequence of records: the length of the
relative path in eight bytes, the path, and the digest of the content. The records tell their own
ends, so the stream determines the paths and the digests (`directoryStream_injective`); it depends
neither on the order of the listing nor on the size of the blocks (`directoryStream_eq_of_perm`).
-/

namespace ZhiyanRag.Evaluation

/-- The result of `digest()`. -/
abbrev FileDigest := { bytes : List UInt8 // bytes.length = 32 }

/-- What `rglob` lists: the path below the directory, and the content of a file. -/
structure SnapshotItem where
  relativePath : String
  content : Option (List UInt8)

/-- The blocks that `handle.read(size)` returns before the first empty one. -/
def readBlocks (size : Nat) (content : List UInt8) : List (List UInt8) :=
  if content.take size = [] then [] else content.take size :: readBlocks size (content.drop size)
termination_by content.length
decreasing_by
  rename_i hne
  rw [List.take_eq_nil_iff] at hne
  rw [List.length_drop]
  have := List.length_pos_iff.mpr fun h => hne (.inr h)
  omega

/-- `len(relative).to_bytes(8, "big")`, for the last `count` bytes. -/
def bigEndian : Nat → Nat → List UInt8
  | 0, _ => []
  | count + 1, n => bigEndian count (n / 256) ++ [UInt8.ofNat n]

def lengthBytes (n : Nat) : Except PyError (List UInt8) :=
  if n < 256 ^ 8 then .ok (bigEndian 8 n) else .error ⟨.overflowError, "int too big to convert"⟩

/-- `relative_path.encode("utf-8")`. -/
def encodePath (path : String) : List UInt8 := path.toByteArray.data.toList

/-- The files of a listing in the order of their paths. -/
def snapshotFiles (items : List SnapshotItem) : List (String × List UInt8) :=
  (items.filterMap fun item => item.content.map (item.relativePath, ·)).insertionSort
    fun file other => file.1 ≤ other.1

section

variable (sha256 : List UInt8 → FileDigest)

/-- The digest of a file is fed block by block. -/
def fileDigest (size : Nat) (content : List UInt8) : FileDigest :=
  sha256 ((readBlocks size content).foldl (· ++ ·) [])

/-- What `directory_sha256` feeds to its outer digest for one file. -/
def fileRecord (size : Nat) (file : String × List UInt8) : Except PyError (List UInt8) := do
  let relative := encodePath file.1
  let length ← lengthBytes relative.length
  return length ++ (relative ++ (fileDigest sha256 size file.2).val)

/-- What `directory_sha256` feeds to its outer digest. -/
def directoryStream (size : Nat) (items : List SnapshotItem) : Except PyError (List UInt8) := do
  let files := snapshotFiles items
  ensure (!files.isEmpty) .valueError "model snapshot is empty"
  let records ← files.mapM (fileRecord sha256 size)
  return records.flatten

def directorySha256 (hexdigest : List UInt8 → String) (items : List SnapshotItem) :
    Except PyError String :=
  (directoryStream sha256 (1024 * 1024) items).map hexdigest

end

/-! ### Records -/

theorem readBlocks_flatten {size : Nat} (hsize : 0 < size) (content : List UInt8) :
    (readBlocks size content).flatten = content := by
  induction hn : content.length using Nat.strong_induction_on generalizing content with
  | _ n ih =>
    unfold readBlocks
    split
    · rename_i hempty
      rcases List.take_eq_nil_iff.mp hempty with hzero | hnil
      · omega
      · rw [hnil]
        rfl
    · rename_i hne
      have hpos := List.length_pos_iff.mpr fun h => hne (List.take_eq_nil_iff.mpr (.inr h))
      rw [List.flatten_cons, ih _ (by rw [List.length_drop]; omega) _ rfl, List.take_append_drop]

theorem fileDigest_eq (sha256 : List UInt8 → FileDigest) {size : Nat} (hsize : 0 < size)
    (content : List UInt8) : fileDigest sha256 size content = sha256 content := by
  unfold fileDigest
  have hfold : ∀ (blocks : List (List UInt8)) (fed : List UInt8),
      blocks.foldl (· ++ ·) fed = fed ++ blocks.flatten := by
    intro blocks
    induction blocks with
    | nil => exact fun fed => (List.append_nil fed).symm
    | cons block blocks ih =>
      intro fed
      rw [List.foldl_cons, ih, List.flatten_cons, List.append_assoc]
  rw [hfold, readBlocks_flatten hsize, List.nil_append]

@[simp] theorem length_bigEndian (count n : Nat) : (bigEndian count n).length = count := by
  induction count generalizing n with
  | zero => rfl
  | succ count ih => rw [bigEndian, List.length_append, ih, List.length_singleton]

theorem bigEndian_injective {count n m : Nat} (hn : n < 256 ^ count) (hm : m < 256 ^ count)
    (h : bigEndian count n = bigEndian count m) : n = m := by
  induction count generalizing n m with
  | zero => rw [Nat.lt_one_iff.mp hn, Nat.lt_one_iff.mp hm]
  | succ count ih =>
    obtain ⟨hhigh, hlow⟩ := List.append_inj h (by rw [length_bigEndian, length_bigEndian])
    rw [pow_succ] at hn hm
    have hdiv := ih (Nat.div_lt_of_lt_mul (by omega)) (Nat.div_lt_of_lt_mul (by omega)) hhigh
    have hmod : n % 256 = m % 256 := congrArg UInt8.toNat (List.singleton_inj.mp hlow)
    omega

theorem encodePath_injective {path path' : String} (h : encodePath path = encodePath path') :
    path = path' :=
  String.toByteArray_inj.mp (ByteArray.ext (Array.toList_inj.mp h))

/-- The record of a path and a digest. -/
def record (entry : String × FileDigest) : List UInt8 :=
  bigEndian 8 (encodePath entry.1).length ++ (encodePath entry.1 ++ entry.2.val)

/-- The length of the path fits eight bytes. -/
def LengthFits (entry : String × FileDigest) : Prop := (encodePath entry.1).length < 256 ^ 8

theorem record_ends (entry entry' : String × FileDigest) (rest rest' : List UInt8)
    (hfits : LengthFits entry) (hfits' : LengthFits entry')
    (h : record entry ++ rest = record entry' ++ rest') : entry = entry' ∧ rest = rest' := by
  unfold record at h
  rw [List.append_assoc, List.append_assoc, List.append_assoc, List.append_assoc] at h
  obtain ⟨hlength, h⟩ := List.append_inj h (by rw [length_bigEndian, length_bigEndian])
  obtain ⟨hpath, h⟩ := List.append_inj h (bigEndian_injective hfits hfits' hlength)
  obtain ⟨hdigest, hrest⟩ := List.append_inj h (by rw [entry.2.property, entry'.2.property])
  exact ⟨Prod.ext (encodePath_injective hpath) (Subtype.ext hdigest), hrest⟩

theorem record_ne_nil (entry : String × FileDigest) : record entry ≠ [] := fun h => by
  have hlength := congrArg List.length (List.append_eq_nil_iff.mp h).1
  rw [length_bigEndian] at hlength
  cases hlength

/-! ### The stream -/

/-- The paths of the files and the digests of their contents. -/
def fileDigests (sha256 : List UInt8 → FileDigest) (items : List SnapshotItem) :
    List (String × FileDigest) :=
  (snapshotFiles items).map fun file => (file.1, sha256 file.2)

theorem mem_snapshotFiles {items : List SnapshotItem} {path : String} {content : List UInt8} :
    (path, content) ∈ snapshotFiles items ↔ ⟨path, some content⟩ ∈ items := by
  unfold snapshotFiles
  rw [List.mem_insertionSort, List.mem_filterMap]
  constructor
  · rintro ⟨⟨relativePath, content?⟩, hitem, hfile⟩
    obtain ⟨content', rfl, heq⟩ := Option.map_eq_some_iff.mp hfile
    cases heq
    exact hitem
  · exact fun h => ⟨_, h, rfl⟩

variable {sha256 : List UInt8 → FileDigest} {size size' : Nat} {items items' : List SnapshotItem}
  {stream : List UInt8}

theorem fileRecord_eq_ok (hsize : 0 < size) {file : String × List UInt8} {bytes : List UInt8} :
    fileRecord sha256 size file = .ok bytes ↔ LengthFits (file.1, sha256 file.2) ∧
    record (file.1, sha256 file.2) = bytes := by
  unfold fileRecord lengthBytes LengthFits record
  rw [fileDigest_eq sha256 hsize]
  show (if (encodePath file.1).length < 256 ^ 8
    then Except.ok (bigEndian 8 (encodePath file.1).length) else Except.error _) >>= _ = _ ↔ _
  by_cases hfits : (encodePath file.1).length < 256 ^ 8
  · rw [if_pos hfits]
    exact ⟨fun h => ⟨hfits, Except.ok.inj h⟩, fun h => congrArg Except.ok h.2⟩
  · rw [if_neg hfits]
    constructor
    · intro h
      cases h
    · exact fun h => absurd h.1 hfits

theorem directoryStream_eq_ok (hsize : 0 < size) : directoryStream sha256 size items = .ok stream ↔
    snapshotFiles items ≠ [] ∧ (∀ entry ∈ fileDigests sha256 items, LengthFits entry) ∧
    (fileDigests sha256 items).flatMap record = stream := by
  have hrecords : ∀ (files : List (String × List UInt8)) (records : List (List UInt8)),
      files.mapM (fileRecord sha256 size) = .ok records ↔
        (∀ file ∈ files, LengthFits (file.1, sha256 file.2)) ∧
        files.map (fun file => record (file.1, sha256 file.2)) = records := by
    intro files records
    rw [mapM_eq_ok]
    simp only [fileRecord_eq_ok hsize]
    rw [List.forall₂_and_left, ← List.forall₂_map_left_iff
      (f := fun file : String × List UInt8 => record (file.1, sha256 file.2)),
      List.forall₂_eq_eq_eq]
  unfold directoryStream fileDigests
  simp only [bind_eq_ok, ensure_eq_ok, hrecords, pure_eq_ok, List.forall_mem_map, List.flatMap_map]
  constructor
  · rintro ⟨_, hne, _, ⟨hfits, rfl⟩, rfl⟩
    exact ⟨by simpa using hne, hfits, List.flatMap_def⟩
  · rintro ⟨hne, hfits, rfl⟩
    exact ⟨(), by simpa using hne, _, ⟨hfits, rfl⟩, List.flatMap_def.symm⟩

/-- A listing in another order is sorted into the same list. -/
theorem snapshotFiles_eq_of_perm (hperm : items.Perm items')
    (hpaths : (items.map (·.relativePath)).Nodup) : snapshotFiles items = snapshotFiles items' := by
  unfold snapshotFiles
  have hfiles : (items.filterMap fun item => item.content.map (item.relativePath, ·)).Perm
      (items'.filterMap fun item => item.content.map (item.relativePath, ·)) := hperm.filterMap _
  have hsorted : ∀ files : List (String × List UInt8),
      (files.insertionSort fun file other => file.1 ≤ other.1).Pairwise fun file other => file.1 ≤
        other.1 := by
    have htotal : Std.Total fun file other : String × List UInt8 => file.1 ≤ other.1 :=
      ⟨fun file other => le_total file.1 other.1⟩
    have htrans : IsTrans (String × List UInt8) fun file other => file.1 ≤ other.1 :=
      ⟨fun _ _ _ => le_trans⟩
    exact List.pairwise_insertionSort _
  refine List.Perm.eq_of_pairwise ?_ (hsorted _) (hsorted _)
    ((List.perm_insertionSort _ _).trans (hfiles.trans (List.perm_insertionSort _ _).symm))
  rintro ⟨path, content⟩ ⟨path', content'⟩ hmem hmem' hle hge
  obtain rfl : path = path' := le_antisymm hle hge
  have hitem := mem_snapshotFiles.mp hmem
  have hitem' := hperm.mem_iff.mpr (mem_snapshotFiles.mp hmem')
  cases List.inj_on_of_nodup_map hpaths hitem hitem' rfl
  rfl

theorem directoryStream_eq_of_perm (hsize : 0 < size) (hsize' : 0 < size')
    (hperm : items.Perm items') (hpaths : (items.map (·.relativePath)).Nodup) :
    directoryStream sha256 size items = directoryStream sha256 size' items' := by
  have hrecord : fileRecord sha256 size = fileRecord sha256 size' := by
    funext file
    unfold fileRecord
    rw [fileDigest_eq sha256 hsize, fileDigest_eq sha256 hsize']
  unfold directoryStream
  rw [snapshotFiles_eq_of_perm hperm hpaths, hrecord]

theorem mem_fileDigests {entry : String × FileDigest} :
    entry ∈ fileDigests sha256 items ↔ ∃ content, ⟨entry.1, some content⟩ ∈ items ∧
    sha256 content = entry.2 := by
  unfold fileDigests
  rw [List.mem_map]
  constructor
  · rintro ⟨⟨path, content⟩, hfile, rfl⟩
    exact ⟨content, mem_snapshotFiles.mp hfile, rfl⟩
  · rintro ⟨content, hitem, hdigest⟩
    exact ⟨(entry.1, content), mem_snapshotFiles.mpr hitem, Prod.ext rfl hdigest⟩

theorem fileDigests_eq_of_stream (hsize : 0 < size) (hsize' : 0 < size')
    (h : directoryStream sha256 size items = .ok stream)
    (h' : directoryStream sha256 size' items' = .ok stream) :
    fileDigests sha256 items = fileDigests sha256 items' := by
  obtain ⟨-, hfits, hstream⟩ := (directoryStream_eq_ok hsize).mp h
  obtain ⟨-, hfits', hstream'⟩ := (directoryStream_eq_ok hsize').mp h'
  exact Delimiters.flatMap_inj_of_ends record_ne_nil record_ends hfits hfits'
    (hstream.trans hstream'.symm)

theorem directoryStream_injective (sha256 : List UInt8 → FileDigest) (size size' : Nat)
    (items items' : List SnapshotItem) (hsize : 0 < size) (hsize' : 0 < size')
    (hpaths : (items.map (·.relativePath)).Nodup) :
    -- every non-empty snapshot has a stream
    ((∃ path content, ⟨path, some content⟩ ∈ items) →
      (∀ item ∈ items, (encodePath item.relativePath).length < 2 ^ 64) → ∃ stream,
        directoryStream sha256 size items = .ok stream) ∧
    (∀ stream, directoryStream sha256 size items = .ok stream →
      directoryStream sha256 size' items' = .ok stream → ∀ path digest,
        (∃ content, ⟨path, some content⟩ ∈ items ∧ sha256 content = digest) ↔ ∃ content,
          ⟨path, some content⟩ ∈ items' ∧ sha256 content = digest) ∧
    (items.Perm items' →
      directoryStream sha256 size items = directoryStream sha256 size' items') := by
  refine ⟨?_, ?_, fun hperm => directoryStream_eq_of_perm hsize hsize' hperm hpaths⟩
  · rintro ⟨path, content, hitem⟩ hfits
    refine ⟨_, (directoryStream_eq_ok hsize).mpr ⟨?_, ?_, rfl⟩⟩
    · exact List.ne_nil_of_mem (mem_snapshotFiles.mpr hitem)
    · intro entry hentry
      obtain ⟨_, hmem, -⟩ := mem_fileDigests.mp hentry
      exact hfits _ hmem
  · intro stream h h' path digest
    have hmem : (path, digest) ∈ fileDigests sha256 items ↔ _ := mem_fileDigests
    have hmem' : (path, digest) ∈ fileDigests sha256 items' ↔ _ := mem_fileDigests
    rw [fileDigests_eq_of_stream hsize hsize' h h'] at hmem
    exact hmem.symm.trans hmem'

/-- A digest of 32 bytes: the content, cut or filled with zeros. -/
def fixedDigest (content : List UInt8) : FileDigest :=
  ⟨(content ++ List.replicate 32 0).take 32, by simp⟩

def fixedSnapshot : List SnapshotItem := [⟨"b", some [1, 2, 3]⟩, ⟨"a", none⟩, ⟨"a/é", some []⟩]

theorem directoryStream_injective_fixed :
    (∃ stream, directoryStream fixedDigest 2 fixedSnapshot = .ok stream) ∧
      directoryStream fixedDigest 2 fixedSnapshot =
        directoryStream fixedDigest 1 fixedSnapshot.reverse := by
  obtain ⟨hstream, -, hperm⟩ := directoryStream_injective fixedDigest 2 1 fixedSnapshot
    fixedSnapshot.reverse (by decide) (by decide) (by decide)
  refine ⟨hstream ⟨"b", [1, 2, 3], by simp [fixedSnapshot]⟩ ?_, hperm (List.reverse_perm _).symm⟩
  decide +kernel

end ZhiyanRag.Evaluation
