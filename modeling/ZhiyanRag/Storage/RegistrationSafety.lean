import ZhiyanRag.Storage.Registration

/-!
# Registration is idempotent and atomic

A transaction holds the unique keys of the rows it wrote, so what one commits never meets what
another has open: open writes stay admissible (`Write.Admissible`), committed rows only ever gain
rows and later source times (`Database.Extends`), and the unique columns stay unique
(`Database.Constrained`).
-/

namespace ZhiyanRag.Storage

open Relational Steps

/-! ### The columns of the schema -/

/-- The columns that no registration changes. -/
def DocumentIdentityV1.lasting (d : DocumentIdentityV1) :
    String × String × String × SourceType × Timestamp :=
  (d.documentId, d.ownerId, d.paperId, d.sourceType, d.sourceCreatedTime)

def DocumentIdentityV1.ownerPaper (d : DocumentIdentityV1) : String × String :=
  (d.ownerId, d.paperId)

def DocumentVersionLifecycleV1.source (v : DocumentVersionLifecycleV1) :
    String × String × String × String :=
  (v.documentId, v.contentSha256, v.sourceSnapshotSha256, v.parseVersion)

/-- The source identity that a call asks for. -/
def VersionRequest.source (r : VersionRequest) : String × String × String × String :=
  (r.documentId, r.contentSha256, r.sourceSnapshotSha256, r.parseVersion)

def IngestionJobV1.ownerKey (j : IngestionJobV1) : String × String := (j.ownerId, j.idempotencyKey)

/-- The unique constraints besides the primary keys, and the order of the source times. -/
structure Database.Constrained (db : Database) : Prop where
  ownerPaper : db.documents.UniqueBy DocumentIdentityV1.ownerPaper
  source : db.versions.UniqueBy DocumentVersionLifecycleV1.source
  ownerKey : db.ingestionJobs.UniqueBy IngestionJobV1.ownerKey
  sourceTimes : ∀ d ∈ db.documents.rows, d.sourceCreatedTime ≤ d.sourceUpdatedTime

/-- Nothing is lost: documents keep their identity and source times only grow, versions and jobs
stay as they are. -/
structure Database.Extends (db db' : Database) : Prop where
  documents : ∀ d ∈ db.documents.rows, ∃ e ∈ db'.documents.rows, e.lasting = d.lasting ∧
    d.sourceUpdatedTime ≤ e.sourceUpdatedTime
  versions : ∀ v ∈ db.versions.rows, v ∈ db'.versions.rows
  jobs : ∀ j ∈ db.ingestionJobs.rows, j ∈ db'.ingestionJobs.rows

theorem Database.Extends.refl (db : Database) : db.Extends db :=
  ⟨fun d hd => ⟨d, hd, rfl, Int.le_refl _⟩, fun _ hv => hv, fun _ hj => hj⟩

theorem Database.Extends.trans {a b c : Database} (hab : a.Extends b) (hbc : b.Extends c) :
    a.Extends c := by
  refine ⟨fun d hd => ?_, fun v hv => hbc.versions v (hab.versions v hv),
    fun j hj => hbc.jobs j (hab.jobs j hj)⟩
  obtain ⟨e, he, hlasting, hle⟩ := hab.documents d hd
  obtain ⟨f, hf, hlasting', hle'⟩ := hbc.documents e he
  exact ⟨f, hf, hlasting'.trans hlasting, Int.le_trans hle hle'⟩

/-- The write meets no committed row that it would clash with. -/
def Write.Admissible (db : Database) : Write → Prop
  | insertDocument row => row.sourceCreatedTime ≤ row.sourceUpdatedTime ∧
      db.documents.find? row.documentId = none ∧ ∀ d ∈ db.documents.rows,
        d.ownerPaper ≠ row.ownerPaper
  | updateDocument row => ∃ stored ∈ db.documents.rows, row.lasting = stored.lasting ∧
      stored.sourceUpdatedTime ≤ row.sourceUpdatedTime
  | insertVersion row => db.versions.find? row.documentVersionId = none ∧ ∀ v ∈ db.versions.rows,
      v.source ≠ row.source
  | insertJob row => db.ingestionJobs.find? row.jobId = none ∧ ∀ j ∈ db.ingestionJobs.rows,
      j.ownerKey ≠ row.ownerKey

/-- The row of the write is there, up to later updates of a document. -/
def Write.Present (db : Database) : Write → Prop
  | insertDocument row | updateDocument row => ∃ d ∈ db.documents.rows, d.lasting = row.lasting
  | insertVersion row => row ∈ db.versions.rows
  | insertJob row => row ∈ db.ingestionJobs.rows

theorem Write.Present.mono {db db' : Database} {w : Write} (h : w.Present db)
    (hext : db.Extends db') : w.Present db' := by
  cases w with
  | insertDocument row | updateDocument row =>
    obtain ⟨d, hd, hlasting⟩ := h
    obtain ⟨e, he, hlasting', -⟩ := hext.documents d hd
    exact ⟨e, he, hlasting'.trans hlasting⟩
  | insertVersion row => exact hext.versions row h
  | insertJob row => exact hext.jobs row h

theorem lasting_iff {d e : DocumentIdentityV1} : d.lasting = e.lasting ↔
    d.documentId = e.documentId ∧ d.ownerId = e.ownerId ∧ d.paperId = e.paperId ∧
      d.sourceType = e.sourceType ∧ d.sourceCreatedTime = e.sourceCreatedTime := by
  simp [DocumentIdentityV1.lasting]

theorem ownerPaper_eq_of_lasting {d e : DocumentIdentityV1} (h : d.lasting = e.lasting) :
    d.ownerPaper = e.ownerPaper := by
  obtain ⟨-, howner, hpaper, -⟩ := lasting_iff.mp h
  exact Prod.ext howner hpaper

theorem documentId_eq_of_lasting {d e : DocumentIdentityV1} (h : d.lasting = e.lasting) :
    d.documentId = e.documentId := (lasting_iff.mp h).1

/-! ### One write -/

section

variable {db : Database} {a b w : Write}

theorem write_extends (hw : w.Admissible db) : db.Extends (db.write w) := by
  cases w with
  | insertDocument row =>
    refine ⟨fun d hd => ⟨d, Table.mem_upsert_of_mem hd fun heq => ?_, rfl, Int.le_refl _⟩,
      fun _ hv => hv, fun _ hj => hj⟩
    exact Table.find?_eq_none_iff.mp hw.2.1 d hd heq.symm
  | updateDocument row =>
    obtain ⟨stored, hstored, hlasting, hle⟩ := hw
    have hid := documentId_eq_of_lasting hlasting
    refine ⟨fun d hd => ?_, fun _ hv => hv, fun _ hj => hj⟩
    by_cases hd' : d.documentId = row.documentId
    · obtain rfl : d = stored := db.documents.eq_of_key hd hstored (hd'.trans hid)
      exact ⟨row, Table.mem_rows_of_find?
        (Table.find?_set_self (Table.find?_eq_some_iff.mpr ⟨hd, hd'⟩)), hlasting, hle⟩
    · exact ⟨d, Table.mem_set_of_mem hd (Ne.symm hd'), rfl, Int.le_refl _⟩
  | insertVersion row =>
    refine ⟨fun d hd => ⟨d, hd, rfl, Int.le_refl _⟩, fun v hv => Table.mem_upsert_of_mem hv
      fun heq => ?_, fun _ hj => hj⟩
    exact Table.find?_eq_none_iff.mp hw.1 v hv heq.symm
  | insertJob row =>
    refine ⟨fun d hd => ⟨d, hd, rfl, Int.le_refl _⟩, fun _ hv => hv,
      fun j hj => Table.mem_upsert_of_mem hj fun heq => ?_⟩
    exact Table.find?_eq_none_iff.mp hw.1 j hj heq.symm

theorem write_constrained (hdb : db.Constrained) (hw : w.Admissible db) :
    (db.write w).Constrained := by
  cases w with
  | insertDocument row =>
    refine ⟨hdb.ownerPaper.upsert hw.2.2, hdb.source, hdb.ownerKey, fun d hd => ?_⟩
    rcases Table.mem_upsert hd with rfl | hd
    · exact hw.1
    · exact hdb.sourceTimes d hd
  | updateDocument row =>
    obtain ⟨stored, hstored, hlasting, hle⟩ := hw
    refine ⟨hdb.ownerPaper.set hstored (documentId_eq_of_lasting hlasting).symm
      (ownerPaper_eq_of_lasting hlasting).symm, hdb.source, hdb.ownerKey, fun d hd => ?_⟩
    rcases Table.mem_set hd with rfl | ⟨hd, -⟩
    · rw [(lasting_iff.mp hlasting).2.2.2.2]
      exact Int.le_trans (hdb.sourceTimes stored hstored) hle
    · exact hdb.sourceTimes d hd
  | insertVersion row =>
    exact ⟨hdb.ownerPaper, hdb.source.upsert hw.2, hdb.ownerKey, hdb.sourceTimes⟩
  | insertJob row => exact ⟨hdb.ownerPaper, hdb.source, hdb.ownerKey.upsert hw.2, hdb.sourceTimes⟩

theorem write_present (hw : w.Admissible db) : w.Present (db.write w) := by
  cases w with
  | insertDocument row => exact ⟨row, Table.mem_rows_of_find? (Table.find?_upsert_self _ _), rfl⟩
  | updateDocument row =>
    obtain ⟨stored, hstored, hlasting, -⟩ := hw
    have hfind := Table.find?_eq_some_iff.mpr ⟨hstored, (documentId_eq_of_lasting hlasting).symm⟩
    exact ⟨row, Table.mem_rows_of_find? (Table.find?_set_self hfind), rfl⟩
  | insertVersion row => exact Table.mem_rows_of_find? (Table.find?_upsert_self _ _)
  | insertJob row => exact Table.mem_rows_of_find? (Table.find?_upsert_self _ _)

theorem admissible_insertDocument {row : DocumentIdentityV1}
    (ha : (Write.insertDocument row).Admissible db) (hb : b.Admissible db)
    (hdisjoint : (Write.insertDocument row).keys.Disjoint b.keys) :
    (Write.insertDocument row).Admissible (db.write b) := by
  have hpaper : ∀ other : DocumentIdentityV1,
      LockKey.ownerPaper other.ownerId other.paperId ∈ b.keys →
      other.ownerPaper ≠ row.ownerPaper := by
    intro other hother heq
    obtain ⟨howner, hpaper⟩ := Prod.mk.inj heq
    exact hdisjoint (show LockKey.ownerPaper row.ownerId row.paperId ∈
      (Write.insertDocument row).keys from List.mem_cons_self) (howner ▸ hpaper ▸ hother)
  cases b with
  | insertDocument other =>
    refine ⟨ha.1, ?_, fun d hd => ?_⟩
    · rw [← ha.2.1]
      refine Table.find?_upsert_ne _ fun heq => ?_
      exact hdisjoint (show LockKey.documentId row.documentId ∈
        (Write.insertDocument row).keys by simp [Write.keys])
        (show LockKey.documentId row.documentId ∈
          (Write.insertDocument other).keys by simp [Write.keys, heq])
    · rcases Table.mem_upsert hd with rfl | hd
      · exact hpaper d (by simp [Write.keys])
      · exact ha.2.2 d hd
  | updateDocument other =>
    obtain ⟨stored, hstored, hlasting, -⟩ := hb
    refine ⟨ha.1, ?_, fun d hd => ?_⟩
    · rw [← ha.2.1]
      refine Table.find?_set_ne _ fun heq => ?_
      exact Table.find?_eq_none_iff.mp ha.2.1 stored hstored
        ((documentId_eq_of_lasting hlasting).symm.trans heq)
    · rcases Table.mem_set hd with rfl | ⟨hd, -⟩
      · exact hpaper d (by simp [Write.keys])
      · exact ha.2.2 d hd
  | insertVersion other => exact ha
  | insertJob other => exact ha

theorem admissible_updateDocument {row : DocumentIdentityV1}
    (ha : (Write.updateDocument row).Admissible db) (hb : b.Admissible db)
    (hdisjoint : (Write.updateDocument row).keys.Disjoint b.keys) :
    (Write.updateDocument row).Admissible (db.write b) := by
  obtain ⟨stored, hstored, hlasting, hle⟩ := ha
  cases b with
  | insertDocument other =>
    refine ⟨stored, Table.mem_upsert_of_mem hstored fun heq => ?_, hlasting, hle⟩
    exact Table.find?_eq_none_iff.mp hb.2.1 stored hstored heq.symm
  | updateDocument other =>
    obtain ⟨stored', hstored', hlasting', -⟩ := hb
    refine ⟨stored, Table.mem_set_of_mem hstored fun heq => ?_, hlasting, hle⟩
    obtain rfl : stored' = stored :=
      db.documents.eq_of_key hstored' hstored
        ((documentId_eq_of_lasting hlasting').symm.trans heq)
    obtain ⟨-, howner, hpaper, -⟩ := lasting_iff.mp (hlasting.trans hlasting'.symm)
    exact hdisjoint (show LockKey.ownerPaper row.ownerId row.paperId ∈
      (Write.updateDocument row).keys from List.mem_cons_self)
      (show LockKey.ownerPaper row.ownerId row.paperId ∈
        (Write.updateDocument other).keys by simp [Write.keys, howner, hpaper])
  | insertVersion other => exact ⟨stored, hstored, hlasting, hle⟩
  | insertJob other => exact ⟨stored, hstored, hlasting, hle⟩

theorem admissible_insertVersion {row : DocumentVersionLifecycleV1}
    (ha : (Write.insertVersion row).Admissible db)
    (hdisjoint : (Write.insertVersion row).keys.Disjoint b.keys) :
    (Write.insertVersion row).Admissible (db.write b) := by
  cases b with
  | insertVersion other =>
    refine ⟨?_, fun v hv => ?_⟩
    · rw [← ha.1]
      refine Table.find?_upsert_ne _ fun heq => ?_
      exact hdisjoint (show LockKey.versionId row.documentVersionId ∈
        (Write.insertVersion row).keys by simp [Write.keys])
        (show LockKey.versionId row.documentVersionId ∈
          (Write.insertVersion other).keys by simp [Write.keys, heq])
    · rcases Table.mem_upsert hv with rfl | hv
      · intro heq
        simp only [DocumentVersionLifecycleV1.source, Prod.mk.injEq] at heq
        obtain ⟨h1, h2, h3, h4⟩ := heq
        exact hdisjoint (List.mem_cons_self (l := [LockKey.versionId row.documentVersionId]))
          (by simp [Write.keys, h1, h2, h3, h4])
      · exact ha.2 v hv
  | insertDocument other | updateDocument other | insertJob other => exact ha

theorem admissible_insertJob {row : IngestionJobV1} (ha : (Write.insertJob row).Admissible db)
    (hdisjoint : (Write.insertJob row).keys.Disjoint b.keys) :
    (Write.insertJob row).Admissible (db.write b) := by
  cases b with
  | insertJob other =>
    refine ⟨?_, fun j hj => ?_⟩
    · rw [← ha.1]
      refine Table.find?_upsert_ne _ fun heq => ?_
      exact hdisjoint
        (show LockKey.jobId row.jobId ∈ (Write.insertJob row).keys by simp [Write.keys])
          (show LockKey.jobId row.jobId ∈ (Write.insertJob other).keys by simp [Write.keys, heq])
    · rcases Table.mem_upsert hj with rfl | hj
      · intro heq
        simp only [IngestionJobV1.ownerKey, Prod.mk.injEq] at heq
        obtain ⟨h1, h2⟩ := heq
        exact hdisjoint (List.mem_cons_self (l := [LockKey.jobId row.jobId]))
          (by simp [Write.keys, h1, h2])
      · exact ha.2 j hj
  | insertDocument other | updateDocument other | insertVersion other => exact ha

/-- Writes under different keys do not clash. -/
theorem admissible_write (ha : a.Admissible db) (hb : b.Admissible db)
    (hdisjoint : a.keys.Disjoint b.keys) : a.Admissible (db.write b) := by
  cases a with
  | insertDocument row => exact admissible_insertDocument ha hb hdisjoint
  | updateDocument row => exact admissible_updateDocument ha hb hdisjoint
  | insertVersion row => exact admissible_insertVersion ha hdisjoint
  | insertJob row => exact admissible_insertJob ha hdisjoint

end

/-! ### The writes of a transaction -/

/-- Writes that can be committed together. -/
structure Database.Commits (db : Database) (writes : List Write) : Prop where
  admissible : ∀ w ∈ writes, w.Admissible db
  disjoint : writes.Pairwise fun a b => a.keys.Disjoint b.keys

theorem Database.Commits.nil (db : Database) : db.Commits [] where
  admissible _ hw := by cases hw
  disjoint := List.Pairwise.nil

theorem Database.Commits.singleton {db : Database} {w : Write} (hw : w.Admissible db) :
    db.Commits [w] where
  admissible := List.forall_mem_singleton.mpr hw
  disjoint := List.pairwise_singleton _ _

variable {db : Database} {writes : List Write}

theorem Database.Commits.write {w : Write} (h : db.Commits (w :: writes)) :
    (db.write w).Commits writes := by
  obtain ⟨hfirst, hrest⟩ := List.pairwise_cons.mp h.disjoint
  obtain ⟨hw, hws⟩ := List.forall_mem_cons.mp h.admissible
  exact ⟨fun a ha => admissible_write (hws a ha) hw fun key hkey hkey' => hfirst a ha hkey'
    hkey, hrest⟩

theorem writes_extends (h : db.Commits writes) : db.Extends (db.writes writes) := by
  induction writes generalizing db with
  | nil => exact .refl db
  | cons w writes ih => exact (write_extends (h.admissible w List.mem_cons_self)).trans (ih h.write)

theorem writes_constrained (hdb : db.Constrained) (h : db.Commits writes) :
    (db.writes writes).Constrained := by
  induction writes generalizing db with
  | nil => exact hdb
  | cons w writes ih => exact ih (write_constrained hdb (h.admissible w List.mem_cons_self)) h.write

theorem writes_present (h : db.Commits writes) {w : Write} (hw : w ∈ writes) :
    w.Present (db.writes writes) := by
  induction writes generalizing db with
  | nil => cases hw
  | cons first writes ih =>
    rcases List.mem_cons.mp hw with rfl | hw
    · exact (write_present (h.admissible _ List.mem_cons_self)).mono (writes_extends h.write)
    · exact ih h.write hw

/-- A commit leaves the writes under other keys admissible. -/
theorem admissible_writes {a : Write} (ha : a.Admissible db) (h : db.Commits writes)
    (hdisjoint : ∀ w ∈ writes, a.keys.Disjoint w.keys) :
    a.Admissible (db.writes writes) := by
  induction writes generalizing db with
  | nil => exact ha
  | cons w writes ih =>
    obtain ⟨hw, hws⟩ := List.forall_mem_cons.mp hdisjoint
    exact ih (admissible_write ha (h.admissible w List.mem_cons_self) hw) h.write hws

/-! ### Results -/

/-- The result is made of committed rows and of rows of the open transaction. -/
structure RegistrationResult.Pending (db : Database) (writes : List Write)
    (result : RegistrationResult) : Prop where
  document : ∀ d, result.document? = some d → .insertDocument d ∈ writes ∨
    .updateDocument d ∈ writes
  version : ∀ v, result.version? = some v → v ∈ db.versions.rows ∨ .insertVersion v ∈ writes
  job : ∀ j, result.job? = some j → j ∈ db.ingestionJobs.rows ∨ .insertJob j ∈ writes

structure RegistrationResult.Stored (db : Database) (result : RegistrationResult) : Prop where
  document : ∀ d, result.document? = some d → ∃ e ∈ db.documents.rows, e.lasting = d.lasting
  version : ∀ v, result.version? = some v → v ∈ db.versions.rows
  job : ∀ j, result.job? = some j → j ∈ db.ingestionJobs.rows

/-- The result has the keys that the call asks for. -/
structure RegistrationResult.Answers (call : RegistrationCall) (result : RegistrationResult) :
    Prop where
  document : ∀ d, result.document? = some d → ∃ r, call.document? = some r ∧
    d.ownerId = stripWhitespace r.ownerId ∧ d.paperId = stripWhitespace r.paperId
  version : ∀ v, result.version? = some v → ∃ r, call.version? = some r ∧
    v.source = r.source
  job : ∀ j, result.job? = some j → ∃ r, call.job? = some r ∧
    j.ownerKey = (r.ownerId, r.idempotencyKey)
  bound : ∀ v j, result = .versionAndJob v j → j.documentVersionId = v.documentVersionId

theorem RegistrationResult.Pending.mono {db' : Database} {result : RegistrationResult}
    (h : result.Pending db writes) (hext : db.Extends db') : result.Pending db' writes :=
  ⟨h.document, fun v hv => (h.version v hv).imp_left (hext.versions v),
    fun j hj => (h.job j hj).imp_left (hext.jobs j)⟩

theorem RegistrationResult.Pending.stored {result : RegistrationResult}
    (h : result.Pending db writes) (hwrites : db.Commits writes) :
    result.Stored (db.writes writes) := by
  have hext := writes_extends hwrites
  refine ⟨fun d hd => ?_, fun v hv => ?_, fun j hj => ?_⟩
  · rcases h.document d hd with hmem | hmem
    · exact writes_present hwrites hmem
    · exact writes_present hwrites hmem
  · rcases h.version v hv with hmem | hmem
    · exact hext.versions v hmem
    · exact writes_present hwrites hmem
  · rcases h.job j hj with hmem | hmem
    · exact hext.jobs j hmem
    · exact writes_present hwrites hmem

theorem RegistrationResult.Stored.mono {db' : Database} {result : RegistrationResult}
    (h : result.Stored db) (hext : db.Extends db') : result.Stored db' := by
  refine ⟨fun d hd => ?_, fun v hv => hext.versions v (h.version v hv),
    fun j hj => hext.jobs j (h.job j hj)⟩
  obtain ⟨e, he, hlasting⟩ := h.document d hd
  obtain ⟨f, hf, hlasting', -⟩ := hext.documents e he
  exact ⟨f, hf, hlasting'.trans hlasting⟩

/-! ### Statements -/

theorem documentCandidate_keys {r : DocumentRequest} {candidate : DocumentIdentityV1}
    (h : r.candidate = .ok candidate) : candidate.ownerId = stripWhitespace r.ownerId ∧
    candidate.paperId = stripWhitespace r.paperId := by
  have hcoerce : ∀ {field value id : String}, coerceContractId field value = .ok id →
      id = stripWhitespace value := by
    intro field value id h
    unfold coerceContractId at h
    split at h
    · exact (Except.ok.inj h).symm
    · cases h
  unfold DocumentRequest.candidate documentCandidate at h
  obtain ⟨paperId, hpaper, h⟩ := bind_eq_ok.mp h
  obtain ⟨documentId, -, h⟩ := bind_eq_ok.mp h
  obtain ⟨ownerId, howner, h⟩ := bind_eq_ok.mp h
  obtain ⟨mapping, -, h⟩ := bind_eq_ok.mp h
  obtain ⟨created, -, h⟩ := bind_eq_ok.mp h
  obtain ⟨updated, -, h⟩ := bind_eq_ok.mp h
  split at h
  · cases h
  · obtain ⟨-, h⟩ := ensure_bind.mp h
    cases pure_eq_ok.mp h
    exact ⟨hcoerce howner, hcoerce hpaper⟩

/-- What `register_document_v1` writes and returns. -/
theorem registerDocumentV1_ok {candidate row : DocumentIdentityV1} {w : Write}
    (h : registerDocumentV1 db candidate = .ok (w, row)) :
    checkDocument candidate = true ∧ row.ownerPaper = candidate.ownerPaper ∧ w.Admissible db ∧
      (w = .insertDocument row ∨ w = .updateDocument row) ∧ ∀ key ∈ w.keys,
        key ∈ (Write.insertDocument candidate).keys := by
  unfold registerDocumentV1 at h
  obtain ⟨hcheck, h⟩ := ensure_bind.mp h
  split at h
  · rename_i stored hfind
    obtain ⟨-, h⟩ := ensure_bind.mp h
    have hmem := List.mem_of_find?_eq_some hfind
    have hkeys := List.find?_some hfind
    simp only [Bool.and_eq_true, decide_eq_true_eq] at hkeys
    cases pure_eq_ok.mp h
    refine ⟨hcheck, Prod.ext hkeys.1 hkeys.2, ⟨stored, hmem, rfl, Int.le_max_left _ _⟩, .inr rfl,
      fun key hkey => ?_⟩
    simp only [Write.keys, List.mem_singleton] at hkey
    rw [hkey, hkeys.1, hkeys.2]
    exact List.mem_cons_self
  · rename_i hfind
    split at h
    · cases h
    · rename_i hnone
      cases pure_eq_ok.mp h
      have htimes : candidate.sourceCreatedTime ≤ candidate.sourceUpdatedTime := by
        unfold checkDocument at hcheck
        simp only [Bool.and_eq_true, decide_eq_true_eq] at hcheck
        exact hcheck.2
      refine ⟨hcheck, rfl, ⟨htimes, Option.not_isSome_iff_eq_none.mp hnone, fun d hd heq => ?_⟩,
        .inl rfl, fun _ hkey => hkey⟩
      have hd' := List.find?_eq_none.mp hfind d hd
      simp only [Bool.and_eq_true, decide_eq_true_eq] at hd'
      exact hd' (Prod.mk.inj heq)

theorem sourceVersion?_eq_none {r : VersionRequest}
    (h : db.sourceVersion? r.documentId r.contentSha256 r.sourceSnapshotSha256
      r.parseVersion = none) :
    ∀ v ∈ db.versions.rows, v.source ≠ r.source := by
  intro v hv heq
  have hother := List.find?_eq_none.mp h v hv
  simp only [DocumentVersionLifecycleV1.source, VersionRequest.source, Prod.mk.injEq] at heq
  simp [heq] at hother

theorem requestedVersion?_eq_some {r : VersionRequest} {v : DocumentVersionLifecycleV1}
    (h : db.requestedVersion? r = some v) : v ∈ db.versions.rows ∧ v.source = r.source := by
  obtain ⟨hsource, -⟩ := Option.filter_eq_some_iff.mp h
  have hkeys := List.find?_some hsource
  simp only [Bool.and_eq_true, decide_eq_true_eq] at hkeys
  obtain ⟨⟨⟨h1, h2⟩, h3⟩, h4⟩ := hkeys
  exact ⟨List.mem_of_find?_eq_some hsource,
    by rw [DocumentVersionLifecycleV1.source, h1, h2, h3, h4]; rfl⟩

theorem source_of_row? {snapshot : Database} {r : VersionRequest} {row : DocumentVersionLifecycleV1}
    (h : r.row? snapshot = some row) : row.source = r.source := by
  obtain ⟨document, hdocument, rfl⟩ := Option.map_eq_some_iff.mp h
  have hid := Table.key_of_find? (Option.filter_eq_some_iff.mp hdocument).1
  exact Prod.ext hid rfl

theorem insertedVersion_ok {snapshot : Database} {r : VersionRequest}
    {row : DocumentVersionLifecycleV1} (h : insertedVersion snapshot db r = .ok (some row)) :
    r.row? snapshot = some row ∧ checkDocumentVersion row = true ∧
    (Write.insertVersion row).Admissible db := by
  unfold insertedVersion at h
  split at h
  · cases h
  · rename_i candidate hrow
    obtain ⟨hcheck, h⟩ := ensure_bind.mp h
    split at h
    · cases h
    · rename_i hsource
      split at h
      · cases h
      · rename_i hid
        cases Option.some.inj (pure_eq_ok.mp h)
        have hidEq : row.documentVersionId = r.newId := by
          obtain ⟨document, -, rfl⟩ := Option.map_eq_some_iff.mp hrow
          rfl
        refine ⟨hrow, hcheck, ?_, ?_⟩
        · rw [hidEq]
          exact Option.not_isSome_iff_eq_none.mp hid
        · rw [source_of_row? hrow]
          exact sourceVersion?_eq_none (Option.not_isSome_iff_eq_none.mp hsource)

/-- What `register_document_version_v1` writes and returns. -/
theorem registerDocumentVersionV1_ok {snapshot : Database} {r : VersionRequest}
    {version : Option DocumentVersionLifecycleV1}
    (h : registerDocumentVersionV1 snapshot db r = .ok (writes, version))
    (hext : snapshot.Extends db) :
    db.Commits writes ∧
      (∀ w ∈ writes, ∃ row, r.row? snapshot = some row ∧ checkDocumentVersion row = true ∧
        w = .insertVersion row) ∧
      ∀ v, version = some v → (v ∈ db.versions.rows ∨ .insertVersion v ∈ writes) ∧
      v.source = r.source := by
  obtain ⟨inserted, hinserted, h⟩ := bind_eq_ok.mp h
  cases inserted with
  | some row =>
    obtain ⟨hrow, hcheck, hadmissible⟩ := insertedVersion_ok hinserted
    obtain ⟨v, hvalid, h⟩ := bind_eq_ok.mp h
    cases pure_eq_ok.mp h
    obtain ⟨rfl, -⟩ := DocumentVersionLifecycleV1.validate_eq_ok.mp hvalid
    refine ⟨.singleton hadmissible, List.forall_mem_singleton.mpr ⟨v, hrow, hcheck, rfl⟩,
      fun u hu => ?_⟩
    cases hu
    exact ⟨.inr List.mem_cons_self, source_of_row? hrow⟩
  | none =>
    dsimp only at h
    split at h
    · cases pure_eq_ok.mp h
      exact ⟨.nil db, by simp, by simp⟩
    · rename_i stored hstored
      obtain ⟨v, hvalid, h⟩ := bind_eq_ok.mp h
      cases pure_eq_ok.mp h
      obtain ⟨rfl, -⟩ := DocumentVersionLifecycleV1.validate_eq_ok.mp hvalid
      obtain ⟨hmem, hsource⟩ := requestedVersion?_eq_some hstored
      refine ⟨.nil db, by simp, fun u hu => ?_⟩
      cases hu
      exact ⟨.inl (hext.versions v hmem), hsource⟩

theorem getIdempotentDocumentVersionV1_ok {r : VersionRequest} {v : DocumentVersionLifecycleV1}
    (h : getIdempotentDocumentVersionV1 db r = .ok v) :
    v ∈ db.versions.rows ∧ v.source = r.source := by
  unfold getIdempotentDocumentVersionV1 at h
  split at h
  · cases h
  · rename_i stored hstored
    obtain ⟨rfl, -⟩ := DocumentVersionLifecycleV1.validate_eq_ok.mp h
    exact requestedVersion?_eq_some hstored

/-- What `register_ingestion_job_v1` writes and returns. -/
theorem registerIngestionJobV1_ok {own : List Write} {r : JobRequest} {documentVersionId : String}
    {job : IngestionJobV1}
    (h : registerIngestionJobV1 db own r documentVersionId = .ok (writes, job)) :
    db.Commits writes ∧
      (∀ w ∈ writes, checkIngestionJob (r.row documentVersionId) = true ∧
        w = .insertJob (r.row documentVersionId)) ∧
      (job ∈ db.ingestionJobs.rows ∨ .insertJob job ∈ writes) ∧
      job.ownerKey = (r.ownerId, r.idempotencyKey) ∧
      job.documentVersionId = documentVersionId := by
  obtain ⟨hcheck, h⟩ := ensure_bind.mp h
  split at h
  · rename_i stored hfind
    obtain ⟨validated, hvalid, h⟩ := bind_eq_ok.mp h
    obtain ⟨hbound, h⟩ := ensure_bind.mp h
    cases pure_eq_ok.mp h
    obtain rfl := IngestionJobV1.eq_of_validate hvalid
    have hkeys := List.find?_some hfind
    simp only [Bool.and_eq_true, decide_eq_true_eq] at hkeys hbound
    exact ⟨.nil db, by simp, .inl (List.mem_of_find?_eq_some hfind), Prod.ext hkeys.1 hkeys.2,
      hbound.2⟩
  · rename_i hfind
    split at h
    · cases h
    · rename_i hid
      obtain ⟨-, h⟩ := ensure_bind.mp h
      obtain ⟨validated, hvalid, h⟩ := bind_eq_ok.mp h
      cases pure_eq_ok.mp h
      obtain rfl := IngestionJobV1.eq_of_validate hvalid
      have hadmissible : (Write.insertJob (r.row documentVersionId)).Admissible db := by
        refine ⟨Option.not_isSome_iff_eq_none.mp hid, fun j hj heq => ?_⟩
        have hother := List.find?_eq_none.mp hfind j hj
        obtain ⟨howner, hkey⟩ := Prod.mk.inj heq
        simp only [Bool.and_eq_true, decide_eq_true_eq] at hother
        exact hother ⟨howner, hkey⟩
      exact ⟨.singleton hadmissible, List.forall_mem_singleton.mpr ⟨hcheck, rfl⟩,
        .inr List.mem_cons_self, rfl, rfl⟩

/-! ### Calls -/

/-- What a call knows at each statement. -/
def SessionState.Knows (call : RegistrationCall) (db : Database) : SessionState → Prop
  | start | raised _ => True
  | registerDocument candidate => ∃ r, call.document? = some r ∧ r.candidate = .ok candidate
  | registerVersion r snapshot => call.version? = some r ∧ snapshot.Extends db
  | getVersion r => call.version? = some r
  | registerJob r documentVersionId version writes => call.job? = some r ∧ ∀ v, version = some v →
      v.documentVersionId = documentVersionId ∧ (v ∈ db.versions.rows ∨ .insertVersion v ∈ writes) ∧
      ∃ q, call.version? = some q ∧ v.source = q.source
  | commit writes result => result.Pending db writes ∧ result.Answers call
  | returned result => result.Stored db ∧ result.Answers call

theorem SessionState.Knows.mono {call : RegistrationCall} {db' : Database} {state : SessionState}
    (h : state.Knows call db) (hext : db.Extends db') : state.Knows call db' := by
  cases state with
  | start | raised _ => trivial
  | registerDocument candidate => exact h
  | registerVersion r snapshot => exact ⟨h.1, h.2.trans hext⟩
  | getVersion r => exact h
  | registerJob r documentVersionId version writes =>
    refine ⟨h.1, fun v hv => ?_⟩
    obtain ⟨hid, hmem, hsource⟩ := h.2 v hv
    exact ⟨hid, hmem.imp_left (hext.versions v), hsource⟩
  | commit writes result => exact ⟨h.1.mono hext, h.2⟩
  | returned result => exact ⟨h.1.mono hext, h.2⟩

/-- The transaction of the call can be committed, and holds the keys of its rows. -/
structure Session.Holds (s : Store) (t : Session) : Prop where
  commits : s.db.Commits t.state.writes
  held : ∀ w ∈ t.state.writes, ∀ key ∈ w.keys, key ∈ s.held
  knows : t.state.Knows t.call s.db

/-- Two transactions hold different keys. -/
def Session.Apart (t u : Session) : Prop :=
  ∀ a ∈ t.state.writes, ∀ b ∈ u.state.writes, a.keys.Disjoint b.keys

/-- All that one step of a call can do. -/
inductive Session.Progress (s : Store) (t : Session) : Store → Session → Prop
  | raised (error : PyError) :
      Progress s t (s.release t.state.writes) { t with state := .raised error }
  | advanced (writes : List Write) (state : SessionState) : s.db.Commits writes →
      (∀ w ∈ writes, ∀ key ∈ w.keys, key ∉ s.held) → state.writes = t.state.writes ++ writes →
      state.Knows t.call s.db → Progress s t (s.acquire writes) { t with state := state }
  | committed (writes : List Write) (result : RegistrationResult) :
      t.state = .commit writes result →
      Progress s t (s.commit writes) { t with state := .returned result }

section

variable {s s' : Store} {t t' u : Session}

theorem acquire_nil (s : Store) : s.acquire [] = s := by
  simp [Store.acquire]

theorem Session.Progress.silent {state : SessionState} (hwrites : state.writes = t.state.writes)
    (hknows : state.Knows t.call s.db) : t.Progress s s { t with state := state } := by
  have hadvanced := Session.Progress.advanced [] state (.nil s.db) (by simp)
    (hwrites.trans (List.append_nil _).symm) hknows
  rwa [acquire_nil] at hadvanced

/-- `_register_version` returned a row of the tables or of its own. -/
theorem Session.Progress.registered {r : VersionRequest} {v : DocumentVersionLifecycleV1}
    {writes : List Write} (hstate : t.state.writes = []) (hcommits : s.db.Commits writes)
    (hfree : ∀ w ∈ writes, ∀ key ∈ w.keys, key ∉ s.held) (hr : t.call.version? = some r)
    (hv : v ∈ s.db.versions.rows ∨ .insertVersion v ∈ writes) (hsource : v.source = r.source) :
    t.Progress s (s.acquire writes) (t.versionRegistered writes v) := by
  unfold versionRegistered
  split
  · rename_i request hjob
    refine .advanced writes _ hcommits hfree (by rw [hstate]; rfl) ⟨hjob, fun v' hv' => ?_⟩
    cases hv'
    exact ⟨rfl, hv, r, hr, hsource⟩
  · refine .advanced writes _ hcommits hfree (by rw [hstate]; rfl)
      ⟨⟨by simp [RegistrationResult.document?], fun v' hv' => ?_,
        by simp [RegistrationResult.job?]⟩,
      by simp [RegistrationResult.document?], fun v' hv' => ?_, by simp [RegistrationResult.job?],
      by simp⟩
    · cases hv'
      exact hv
    · cases hv'
      exact ⟨r, hr, hsource⟩

/-- A statement that is not blocked needs keys that no transaction holds. -/
theorem free_of_not_blocked (h : s.blocked (t.inserts.flatMap Write.keys) = false) :
    ∀ w ∈ t.inserts, ∀ key ∈ w.keys, key ∉ s.held := by
  intro w hw key hkey hheld
  have hall := List.any_eq_false.mp h key (List.mem_flatMap.mpr ⟨w, hw, hkey⟩)
  exact hall (decide_eq_true hheld)

variable {call : RegistrationCall}

theorem start_progress (h : (Session.mk call .start).proceed s = some (s', t')) :
    (Session.mk call .start).Progress s s' t' := by
  cases call with
  | registerDocument request =>
    simp only [Session.proceed] at h
    split at h
    · cases h
      exact .raised _
    · rename_i candidate hcandidate
      cases h
      exact .silent rfl ⟨request, rfl, hcandidate⟩
  | registerVersion request
  | registerVersionAndIngestionJob request newJobId idempotencyKey now =>
    cases h
    exact .silent rfl ⟨rfl, .refl s.db⟩
  | registerIngestionJob request documentVersionId =>
    cases h
    exact .silent rfl ⟨rfl, by simp⟩

theorem registerDocument_progress {candidate : DocumentIdentityV1}
    (h : (Session.mk call (.registerDocument candidate)).proceed s = some (s', t'))
    (ht : (Session.mk call (.registerDocument candidate)).Holds s)
    (hfree : ∀ w ∈ (Session.mk call (.registerDocument candidate)).inserts,
      ∀ key ∈ w.keys, key ∉ s.held) :
    (Session.mk call (.registerDocument candidate)).Progress s s' t' := by
  simp only [Session.proceed] at h
  split at h
  · cases h
    exact .raised _
  · rename_i write row hrow
    cases h
    obtain ⟨r, hr, hcandidate⟩ := ht.knows
    obtain ⟨hcheck, hkeys, hadmissible, hwrite, hsub⟩ := registerDocumentV1_ok hrow
    obtain ⟨howner, hpaper⟩ := Prod.mk.inj hkeys
    obtain ⟨howner', hpaper'⟩ := documentCandidate_keys hcandidate
    have hinsert : Write.insertDocument candidate ∈
        (Session.mk call (.registerDocument candidate)).inserts := by
      simp only [Session.inserts, hcheck, if_true]
      exact List.mem_cons_self
    refine .advanced [write] _ (.singleton hadmissible)
      (List.forall_mem_singleton.mpr fun key hkey => hfree _ hinsert key (hsub key hkey)) rfl
      ⟨⟨fun d hd => ?_, by simp [RegistrationResult.version?], by simp [RegistrationResult.job?]⟩,
        fun d hd => ?_, by simp [RegistrationResult.version?], by simp [RegistrationResult.job?],
        by simp⟩
    · cases hd
      rcases hwrite with rfl | rfl
      · exact .inl List.mem_cons_self
      · exact .inr List.mem_cons_self
    · cases hd
      exact ⟨r, hr, howner.trans howner', hpaper.trans hpaper'⟩

theorem registerVersion_progress {request : VersionRequest} {snapshot : Database}
    (h : (Session.mk call (.registerVersion request snapshot)).proceed s = some (s', t'))
    (ht : (Session.mk call (.registerVersion request snapshot)).Holds s)
    (hfree : ∀ w ∈ (Session.mk call (.registerVersion request snapshot)).inserts,
      ∀ key ∈ w.keys, key ∉ s.held) :
    (Session.mk call (.registerVersion request snapshot)).Progress s s' t' := by
  obtain ⟨hr, hext⟩ := ht.knows
  simp only [Session.proceed] at h
  split at h
  · cases h
    exact .raised _
  · rename_i writes version hstatement
    cases h
    obtain ⟨hcommits, hwrites, hversion⟩ := registerDocumentVersionV1_ok hstatement hext
    obtain ⟨hmem, hsource⟩ := hversion version rfl
    refine .registered rfl hcommits (fun w hw => ?_) hr hmem hsource
    obtain ⟨row, hrow, hcheck, rfl⟩ := hwrites w hw
    refine hfree _ ?_
    simp only [Session.inserts, hrow, Option.filter_some, hcheck, if_true, Option.toList_some,
      List.map_cons, List.map_nil, List.mem_singleton]
  · cases h
    exact .silent rfl hr

theorem getVersion_progress {request : VersionRequest}
    (h : (Session.mk call (.getVersion request)).proceed s = some (s', t'))
    (ht : (Session.mk call (.getVersion request)).Holds s) :
    (Session.mk call (.getVersion request)).Progress s s' t' := by
  simp only [Session.proceed] at h
  split at h
  · cases h
    exact .raised _
  · rename_i version hstatement
    cases h
    obtain ⟨hmem, hsource⟩ := getIdempotentDocumentVersionV1_ok hstatement
    have hregistered : (Session.mk call (.getVersion request)).Progress s (s.acquire [])
        ((Session.mk call (.getVersion request)).versionRegistered [] version) :=
      .registered rfl (.nil s.db) (by simp) ht.knows (.inl hmem) hsource
    rwa [acquire_nil] at hregistered

/-- The row of a job that was registered last, with the version of the same call if it had one. -/
theorem knows_registeredJob {db : Database} {request : JobRequest} {documentVersionId : String}
    {version : Option DocumentVersionLifecycleV1} {own writes : List Write} {job : IngestionJobV1}
    (hknows : (SessionState.registerJob request documentVersionId version own).Knows call db)
    (hjob : job ∈ db.ingestionJobs.rows ∨ .insertJob job ∈ writes)
    (hkeys : job.ownerKey = (request.ownerId, request.idempotencyKey))
    (hbound : job.documentVersionId = documentVersionId) :
    (SessionState.commit (own ++ writes)
      ((version.map (.versionAndJob · job)).getD (.job job))).Knows call db := by
  obtain ⟨hr, hknown⟩ := hknows
  cases version with
  | none =>
    refine ⟨⟨by simp [RegistrationResult.document?], by simp [RegistrationResult.version?],
      fun j hj => ?_⟩, by simp [RegistrationResult.document?],
        by simp [RegistrationResult.version?], fun j hj => ?_, by simp⟩
    · cases hj
      exact hjob.imp_right (List.mem_append_right _)
    · cases hj
      exact ⟨request, hr, hkeys⟩
  | some v =>
    obtain ⟨hid, hmem, hsource⟩ := hknown v rfl
    refine ⟨⟨by simp [RegistrationResult.document?], fun v' hv' => ?_, fun j hj => ?_⟩,
      by simp [RegistrationResult.document?], fun v' hv' => ?_, fun j hj => ?_,
      fun v' j hresult => ?_⟩
    · cases hv'
      exact hmem.imp_right (List.mem_append_left _)
    · cases hj
      exact hjob.imp_right (List.mem_append_right _)
    · cases hv'
      exact hsource
    · cases hj
      exact ⟨request, hr, hkeys⟩
    · cases hresult
      exact hbound.trans hid.symm

theorem registerJob_progress {request : JobRequest} {documentVersionId : String}
    {version : Option DocumentVersionLifecycleV1} {own : List Write}
    (h : (Session.mk call (.registerJob request documentVersionId version own)).proceed s =
      some (s', t'))
    (ht : (Session.mk call (.registerJob request documentVersionId version own)).Holds s)
    (hfree : ∀ w ∈ (Session.mk call (.registerJob request documentVersionId version own)).inserts,
      ∀ key ∈ w.keys, key ∉ s.held) :
    (Session.mk call (.registerJob request documentVersionId version own)).Progress s s' t' := by
  simp only [Session.proceed] at h
  split at h
  · cases h
    exact .raised _
  · rename_i writes job hstatement
    cases h
    obtain ⟨hcommits, hwrites, hjob, hkeys, hbound⟩ := registerIngestionJobV1_ok hstatement
    refine .advanced writes _ hcommits (fun w hw => ?_) rfl
      (knows_registeredJob ht.knows hjob hkeys hbound)
    obtain ⟨hcheck, rfl⟩ := hwrites w hw
    refine hfree _ ?_
    simp only [Session.inserts, hcheck, if_true]
    exact List.mem_cons_self

theorem proceed_progress (h : t.proceed s = some (s', t')) (ht : t.Holds s)
    (hfree : ∀ w ∈ t.inserts, ∀ key ∈ w.keys, key ∉ s.held) : t.Progress s s' t' := by
  obtain ⟨call, state⟩ := t
  cases state with
  | start => exact start_progress h
  | registerDocument candidate => exact registerDocument_progress h ht hfree
  | registerVersion request snapshot => exact registerVersion_progress h ht hfree
  | getVersion request => exact getVersion_progress h ht
  | registerJob request documentVersionId version own => exact registerJob_progress h ht hfree
  | commit writes result =>
    cases h
    exact .committed writes result rfl
  | returned result => cases h
  | raised error => cases h

theorem step_progress {choice : Option PyError} (h : t.step s choice = some (s', t'))
    (ht : t.Holds s) : t.Progress s s' t' := by
  cases choice with
  | none =>
    simp only [Session.step] at h
    split at h
    · cases h
    · rename_i hblocked
      exact proceed_progress h ht (free_of_not_blocked (Bool.not_eq_true _ ▸ hblocked))
  | some error =>
    obtain ⟨call, state⟩ := t
    cases state with
    | returned result => cases h
    | raised error => cases h
    | _ =>
      cases h
      exact .raised error

end

end ZhiyanRag.Storage
