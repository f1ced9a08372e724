import ZhiyanRag.Storage.Repository

/-!
# Lifecycle safety

`LaterVersion` is the order along which a version row moves: its identity stays, its revision grows
with every change, `INACTIVE` stays and `READY` can only become `INACTIVE`. `Database.Later` lifts
it to the tables; every call moves along it, so every run does.

`LifecycleInvariant` relates the rows to what was committed: each row validates, was registered once
under the identity it still has, carries one revision per committed update, and shares its owner's
document with no other active row.
-/

namespace ZhiyanRag.Storage

open Relational ZhiyanRag.Ingestion

/-! ### The order of a version row -/

/-- `w` is the row `v` at the same or a later time. -/
structure LaterVersion (v w : DocumentVersionLifecycleV1) : Prop where
  identity : sameVersionIdentity w v = true
  revision : v.lifecycleRevision ≤ w.lifecycleRevision
  unchanged : v.lifecycleRevision = w.lifecycleRevision → w = v
  inactive : v.lifecycleStatus = .inactive → w.lifecycleStatus = .inactive
  ready : v.lifecycleStatus = .ready → w.lifecycleStatus = .ready ∨ w.lifecycleStatus = .inactive

theorem sameVersionIdentity_iff {v w : DocumentVersionLifecycleV1} :
    sameVersionIdentity w v = true ↔ w.documentVersionId = v.documentVersionId ∧
    w.documentId = v.documentId ∧ w.ownerId = v.ownerId ∧
      w.paperId = v.paperId ∧ w.contentSha256 = v.contentSha256 ∧
      w.sourceSnapshotSha256 = v.sourceSnapshotSha256 ∧ w.parseVersion = v.parseVersion := by
  simp [sameVersionIdentity, and_assoc]

theorem sameVersionIdentity_refl (v : DocumentVersionLifecycleV1) :
    sameVersionIdentity v v = true := by
  simp [sameVersionIdentity]

theorem sameVersionIdentity_trans {u v w : DocumentVersionLifecycleV1}
    (huv : sameVersionIdentity v u = true) (hvw : sameVersionIdentity w v = true) :
    sameVersionIdentity w u = true := by
  rw [sameVersionIdentity_iff] at huv hvw ⊢
  obtain ⟨h1, h2, h3, h4, h5, h6, h7⟩ := huv
  rwa [h1, h2, h3, h4, h5, h6, h7] at hvw

namespace LaterVersion

variable {u v w : DocumentVersionLifecycleV1}

theorem refl (v : DocumentVersionLifecycleV1) : LaterVersion v v :=
  ⟨sameVersionIdentity_refl v, le_refl _, fun _ => rfl, id, .inl⟩

theorem trans (huv : LaterVersion u v) (hvw : LaterVersion v w) : LaterVersion u w where
  identity := sameVersionIdentity_trans huv.identity hvw.identity
  revision := huv.revision.trans hvw.revision
  unchanged h := by
    have h1 := huv.revision
    have h2 := hvw.revision
    rw [hvw.unchanged (by omega), huv.unchanged (by omega)]
  inactive h := hvw.inactive (huv.inactive h)
  ready h := by
    rcases huv.ready h with hv | hv
    · exact hvw.ready hv
    · exact .inr (hvw.inactive hv)

theorem documentVersionId (h : LaterVersion v w) : w.documentVersionId = v.documentVersionId :=
  (sameVersionIdentity_iff.mp h.identity).1

/-- A row that is `READY` at both ends was `READY` in between. -/
theorem ready_between (huv : LaterVersion u v) (hvw : LaterVersion v w)
    (hu : u.lifecycleStatus = .ready) (hw : w.lifecycleStatus = .ready) :
    v.lifecycleStatus = .ready := by
  rcases huv.ready hu with hv | hv
  · exact hv
  · rw [hvw.inactive hv] at hw
    cases hw

end LaterVersion

theorem VersionUpdate.later {old new : DocumentVersionLifecycleV1} (h : VersionUpdate old new) :
    LaterVersion old new where
  identity := h.identity
  revision := by
    have := h.revision
    omega
  unchanged heq := by
    have := h.revision
    omega
  inactive hold := by
    have := h.transition
    rw [hold] at this
    cases hnew : new.lifecycleStatus <;> simp [transitionAllowed, hnew] at this
  ready hold := by
    have := h.transition
    rw [hold] at this
    cases hnew : new.lifecycleStatus <;> simp_all [transitionAllowed]

/-! ### The order of the tables -/

/-- Every version row of `db` is in `db'`, at the same or a later time. -/
def Database.Later (db db' : Database) : Prop :=
  ∀ id v, db.versions.find? id = some v → ∃ w, db'.versions.find? id = some w ∧ LaterVersion v w

theorem Database.Later.refl (db : Database) : db.Later db :=
  fun _ v hv => ⟨v, hv, LaterVersion.refl v⟩

theorem Database.Later.trans {db₁ db₂ db₃ : Database} (h₁ : db₁.Later db₂) (h₂ : db₂.Later db₃) :
    db₁.Later db₃ := by
  intro id u hu
  obtain ⟨v, hv, huv⟩ := h₁ id u hu
  obtain ⟨w, hw, hvw⟩ := h₂ id v hv
  exact ⟨w, hw, huv.trans hvw⟩

theorem VersionEffect.later {db db' : Database} {log : List Commit} (h : VersionEffect db db' log) :
    db.Later db' := by
  intro id v hv
  cases h with
  | same heq _ => exact ⟨v, by rw [heq]; exact hv, LaterVersion.refl v⟩
  | registered u _ _ _ hinsert _ =>
    exact ⟨v, Table.find?_insert?_of_some hinsert hv, LaterVersion.refl v⟩
  | updated old new hmem hupdate _ hset _ =>
    rw [hset]
    have hfind : db.versions.find? new.documentVersionId = some old := by
      rw [hupdate.documentVersionId]
      exact Table.find?_key_of_mem hmem
    by_cases hid : new.documentVersionId = id
    · subst hid
      have hold : old = v := Option.some.inj (hfind.symm.trans hv)
      exact ⟨new, Table.find?_set_self hfind, hold ▸ hupdate.later⟩
    · exact ⟨v, by rw [Table.find?_set_ne _ hid]; exact hv, LaterVersion.refl v⟩

section

variable {α : Type} {c : Coercion α} {chunksFingerprint : List ChunkRecordV1 → String}

theorem History.step_later (h : History) (call : Call α) :
    h.db.Later (h.step c chunksFingerprint call).db := by
  unfold History.step
  split
  · rename_i db log hexec
    exact (exec_versions hexec).later
  · exact Database.Later.refl _

/-- A run moves every version row along its order. -/
theorem History.run_later (h : History) (calls : List (Call α)) :
    h.db.Later (h.run c chunksFingerprint calls).db := by
  induction calls generalizing h with
  | nil => exact Database.Later.refl _
  | cons call calls ih => exact (h.step_later call).trans (ih (h.step c chunksFingerprint call))

end

/-! ### The rows and the log -/

/-- The commit is an update of this version. -/
def Commit.updatesVersion (documentVersionId : String) : Commit → Bool
  | .updated v => decide (v.documentVersionId = documentVersionId)
  | _ => false

/-- The number of committed updates of a version. -/
def History.updateCount (h : History) (documentVersionId : String) : Nat :=
  h.log.countP (Commit.updatesVersion documentVersionId)

/-- `r` is the one registration of the version that the log holds. -/
def History.RegisteredAs (h : History) (documentVersionId : String)
    (r : DocumentVersionLifecycleV1) : Prop :=
  ∀ r', (.registered r' ∈ h.log ∧ r'.documentVersionId = documentVersionId) ↔ r' = r

/-- Rows, registrations and revisions agree; no document of an owner has two active versions. -/
structure LifecycleInvariant (h : History) : Prop where
  valid : ∀ v ∈ h.db.versions.rows, v.Valid
  registered : ∀ v ∈ h.db.versions.rows, ∃ r, h.RegisteredAs v.documentVersionId r ∧
    sameVersionIdentity v r = true
  revision : ∀ v ∈ h.db.versions.rows, v.lifecycleRevision = 1 + h.updateCount v.documentVersionId
  oneActive : ∀ v ∈ h.db.versions.rows, ∀ w ∈ h.db.versions.rows, v.isActive = true →
    w.isActive = true → v.ownerId = w.ownerId → v.documentId = w.documentId → v = w
  logged : ∀ v, .registered v ∈ h.log ∨ .updated v ∈ h.log →
    h.db.versions.find? v.documentVersionId ≠ none

theorem oneActive_iff {db : Database} {v : DocumentVersionLifecycleV1} : db.oneActive v = true ↔
    (v.isActive = true → ∀ w ∈ db.versions.rows, w.isActive = true → w.ownerId = v.ownerId →
      w.documentId = v.documentId → w.documentVersionId = v.documentVersionId) := by
  unfold Database.oneActive
  cases v.isActive with
  | false => simp
  | true =>
    simp only [Bool.not_true, Bool.false_or, List.all_eq_true, Bool.or_eq_true, decide_eq_true_eq,
      Bool.not_eq_true', ne_eq, true_implies]
    refine forall₂_congr fun w _ => ?_
    cases w.isActive <;> grind

theorem updateCount_eq_zero {h : History} (hI : LifecycleInvariant h) {id : String}
    (hid : h.db.versions.find? id = none) : h.updateCount id = 0 := by
  refine List.countP_eq_zero.mpr fun commit hcommit hupdates => ?_
  cases commit with
  | updated v =>
    have hv : v.documentVersionId = id := by simpa [Commit.updatesVersion] using hupdates
    exact hI.logged v (.inr hcommit) (by rw [hv]; exact hid)
  | _ => cases hupdates

namespace LifecycleInvariant

variable {h : History} {db' : Database} {log : List Commit}

/-- A call that leaves the version rows alone. -/
theorem step_same (hI : LifecycleInvariant h) (heq : db'.versions = h.db.versions)
    (hlog : ∀ v, .registered v ∉ log ∧ .updated v ∉ log) :
    LifecycleInvariant ⟨db', h.log ++ log⟩ := by
  have hcount : ∀ id, History.updateCount ⟨db', h.log ++ log⟩ id = h.updateCount id := by
    intro id
    have hzero : log.countP (Commit.updatesVersion id) = 0 := by
      refine List.countP_eq_zero.mpr fun commit hcommit hupdates => ?_
      cases commit with
      | updated v => exact (hlog v).2 hcommit
      | _ => cases hupdates
    unfold History.updateCount
    rw [List.countP_append, hzero, Nat.add_zero]
  refine ⟨?_, ?_, ?_, ?_, ?_⟩
  · rw [heq]
    exact hI.valid
  · rw [heq]
    intro v hv
    obtain ⟨r, hr, hid⟩ := hI.registered v hv
    refine ⟨r, fun r' => ?_, hid⟩
    rw [List.mem_append, or_iff_left (hlog r').1]
    exact hr r'
  · rw [heq]
    intro v hv
    rw [hcount]
    exact hI.revision v hv
  · rw [heq]
    exact hI.oneActive
  · rw [heq]
    intro v hv
    rw [List.mem_append, List.mem_append, or_iff_left (hlog v).1, or_iff_left (hlog v).2] at hv
    exact hI.logged v hv

/-- A registration inserts a row of revision 1 under a fresh identifier. -/
theorem step_registered (hI : LifecycleInvariant h) {v : DocumentVersionLifecycleV1}
    (hvalid : v.Valid) (hrev : v.lifecycleRevision = 1) (hstatus : v.lifecycleStatus = .registered)
    (hinsert : h.db.versions.insert? v = some db'.versions) :
    LifecycleInvariant ⟨db', h.log ++ [.registered v]⟩ := by
  obtain ⟨hfresh, hrows⟩ := Table.insert?_eq_some_iff.mp hinsert
  have hmem : ∀ w, w ∈ db'.versions.rows ↔ w ∈ h.db.versions.rows ∨ w = v := by
    intro w
    rw [hrows, List.mem_append, List.mem_singleton]
  have hother : ∀ w ∈ h.db.versions.rows, w.documentVersionId ≠ v.documentVersionId := by
    intro w hw
    exact Table.find?_eq_none_iff.mp hfresh w hw
  have hcount : ∀ id, History.updateCount ⟨db', h.log ++ [.registered v]⟩ id =
      h.updateCount id := by
    intro id
    unfold History.updateCount
    rw [List.countP_append, List.countP_singleton]
    rfl
  have hinactive : v.isActive = false := by simp [DocumentVersionLifecycleV1.isActive, hstatus]
  refine ⟨fun w hw => ?_, fun w hw => ?_, fun w hw => ?_, fun w hw w' hw' => ?_, fun w hw => ?_⟩
  · rcases (hmem w).mp hw with hw | rfl
    · exact hI.valid w hw
    · exact hvalid
  · rcases (hmem w).mp hw with hw | rfl
    · obtain ⟨r, hr, hid⟩ := hI.registered w hw
      refine ⟨r, fun r' => ?_, hid⟩
      rw [← hr r', List.mem_append, List.mem_singleton]
      constructor
      · rintro ⟨hr' | hr', hid'⟩
        · exact ⟨hr', hid'⟩
        · cases hr'
          exact absurd hid'.symm (hother w hw)
      · rintro ⟨hr', hid'⟩
        exact ⟨.inl hr', hid'⟩
    · refine ⟨w, fun r' => ?_, sameVersionIdentity_refl w⟩
      rw [List.mem_append, List.mem_singleton]
      constructor
      · rintro ⟨hr' | hr', hid'⟩
        · exact absurd hfresh (hid' ▸ hI.logged r' (.inl hr'))
        · cases hr'
          rfl
      · rintro rfl
        exact ⟨.inr rfl, rfl⟩
  · rw [hcount]
    rcases (hmem w).mp hw with hw | rfl
    · exact hI.revision w hw
    · rw [hrev, updateCount_eq_zero hI hfresh]
      rfl
  · intro hactive hactive'
    rcases (hmem w).mp hw with hw | rfl
    · rcases (hmem w').mp hw' with hw' | rfl
      · exact hI.oneActive w hw w' hw' hactive hactive'
      · rw [hinactive] at hactive'
        cases hactive'
    · rw [hinactive] at hactive
      cases hactive
  · rw [List.mem_append, List.mem_append, List.mem_singleton, List.mem_singleton] at hw
    rcases hw with (hw | hw) | (hw | hw)
    · obtain ⟨s, hs⟩ := Option.ne_none_iff_exists'.mp (hI.logged w (.inl hw))
      rw [Table.find?_insert?_of_some hinsert hs]
      exact Option.some_ne_none s
    · cases hw
      rw [Table.find?_insert?_self hinsert]
      exact Option.some_ne_none v
    · obtain ⟨s, hs⟩ := Option.ne_none_iff_exists'.mp (hI.logged w (.inr hw))
      rw [Table.find?_insert?_of_some hinsert hs]
      exact Option.some_ne_none s
    · cases hw

/-- An update replaces one row by its successor. -/
theorem step_updated (hI : LifecycleInvariant h) {old new : DocumentVersionLifecycleV1}
    (hmem : old ∈ h.db.versions.rows) (hupdate : VersionUpdate old new)
    (hactive : h.db.oneActive new = true) (hset : db'.versions = h.db.versions.set new) :
    LifecycleInvariant ⟨db', h.log ++ [.updated new]⟩ := by
  have hkey := hupdate.documentVersionId
  have hfind : h.db.versions.find? new.documentVersionId = some old := by
    rw [hkey]
    exact Table.find?_key_of_mem hmem
  have hrow : ∀ w ∈ db'.versions.rows,
      w = new ∨ (w ∈ h.db.versions.rows ∧ w.documentVersionId ≠ new.documentVersionId) := by
    rw [hset]
    exact fun w hw => Table.mem_set hw
  have hcount : ∀ id, History.updateCount ⟨db', h.log ++ [.updated new]⟩ id =
      h.updateCount id + if new.documentVersionId = id then 1 else 0 := by
    intro id
    unfold History.updateCount
    rw [List.countP_append, List.countP_singleton]
    simp [Commit.updatesVersion]
  have hregistered : ∀ id r, History.RegisteredAs ⟨db', h.log ++ [.updated new]⟩ id r ↔
      h.RegisteredAs id r := by
    intro id r
    refine forall_congr' fun r' => ?_
    rw [List.mem_append, List.mem_singleton, or_iff_left (by simp)]
  have hold := oneActive_iff.mp hactive
  refine ⟨fun w hw => ?_, fun w hw => ?_, fun w hw => ?_, fun w hw w' hw' => ?_, fun w hw => ?_⟩
  · rcases hrow w hw with rfl | ⟨hw, -⟩
    · exact hupdate.valid
    · exact hI.valid w hw
  · rcases hrow w hw with rfl | ⟨hw, -⟩
    · obtain ⟨r, hr, hid⟩ := hI.registered old hmem
      refine ⟨r, ?_, sameVersionIdentity_trans hid hupdate.identity⟩
      rw [hregistered, hkey]
      exact hr
    · obtain ⟨r, hr, hid⟩ := hI.registered w hw
      exact ⟨r, (hregistered _ _).mpr hr, hid⟩
  · rw [hcount]
    rcases hrow w hw with rfl | ⟨hw, hne⟩
    · have := hI.revision old hmem
      rw [if_pos rfl, hupdate.revision, this, hkey]
      push_cast
      omega
    · rw [if_neg (Ne.symm hne)]
      exact hI.revision w hw
  · intro ha ha' howner hdoc
    rcases hrow w hw with rfl | ⟨hmw, hne⟩ <;> rcases hrow w' hw' with rfl | ⟨hmw', hne'⟩
    · rfl
    · exact absurd (hold ha w' hmw' ha' howner.symm hdoc.symm) hne'
    · exact absurd (hold ha' w hmw ha howner hdoc) hne
    · exact hI.oneActive w hmw w' hmw' ha ha' howner hdoc
  · have hkept : h.db.versions.find? w.documentVersionId ≠ none →
        db'.versions.find? w.documentVersionId ≠ none := by
      intro hne
      rw [hset]
      by_cases hid : new.documentVersionId = w.documentVersionId
      · rw [← hid, Table.find?_set_self hfind]
        exact Option.some_ne_none new
      · rwa [Table.find?_set_ne _ hid]
    rw [List.mem_append, List.mem_append, List.mem_singleton, List.mem_singleton] at hw
    rcases hw with (hw | hw) | (hw | hw)
    · exact hkept (hI.logged w (.inl hw))
    · cases hw
    · exact hkept (hI.logged w (.inr hw))
    · cases hw
      exact hkept (by rw [hfind]; exact Option.some_ne_none old)

theorem step (hI : LifecycleInvariant h) (heffect : VersionEffect h.db db' log) :
    LifecycleInvariant ⟨db', h.log ++ log⟩ := by
  cases heffect with
  | same heq hlog => exact hI.step_same heq hlog
  | registered v hvalid hrev hstatus hinsert hlog =>
    rw [hlog]
    exact hI.step_registered hvalid hrev hstatus hinsert
  | updated old new hmem hupdate hactive hset hlog =>
    rw [hlog]
    exact hI.step_updated hmem hupdate hactive hset

theorem empty : LifecycleInvariant History.empty :=
  ⟨fun v hv => absurd hv List.not_mem_nil, fun v hv => absurd hv List.not_mem_nil,
    fun v hv => absurd hv List.not_mem_nil, fun v hv => absurd hv List.not_mem_nil,
    fun v hv => by rcases hv with hv | hv <;> exact absurd hv List.not_mem_nil⟩

end LifecycleInvariant

/-- The invariant holds after any calls on a migrated database. -/
theorem lifecycleInvariant_run {α : Type} {c : Coercion α}
    {chunksFingerprint : List ChunkRecordV1 → String} (calls : List (Call α)) :
    LifecycleInvariant (History.empty.run c chunksFingerprint calls) :=
  History.run_invariant (fun _ _ _ _ hI hexec => hI.step (exec_versions hexec))
    LifecycleInvariant.empty calls

/-! ### The second copy of the state machine -/

/-- What Pydantic accepts, the CHECKs accept. -/
theorem checkDocumentVersion_of_valid {v : DocumentVersionLifecycleV1} (h : v.Valid) :
    checkDocumentVersion v = true := by
  have hdelete : checkDeleteState v = true := by
    have := h.inactive
    unfold checkDeleteState
    cases hd : v.deleteTime <;> cases he : v.chunkExpireTime <;> simp_all
  have hfailure : checkFailureState v = true := by
    have := h.failed
    unfold checkFailureState
    grind
  have hready : checkReadyState v = true := by
    unfold checkReadyState
    by_cases hs : v.lifecycleStatus = .ready
    · obtain ⟨htimes, hstates, hcode⟩ := h.ready hs
      simp only [DocumentVersionLifecycleV1.timesPresent, Bool.and_eq_true] at htimes
      simp [htimes, hstates, hcode, DocumentVersionLifecycleV1.bothReady]
    · simp [hs]
  simp [checkDocumentVersion, h.documentVersionId, h.contentSha256, h.sourceSnapshotSha256,
    h.parseVersion, h.revision, h.failureCode, hdelete, hfailure, hready]

theorem enforceDocumentVersionTransition_of_update {old new : DocumentVersionLifecycleV1}
    (h : VersionUpdate old new) : enforceDocumentVersionTransition new old = .ok () := by
  simp [enforceDocumentVersionTransition, ensure, h.identity, h.revision, h.transition]
  rfl

/-- The UPDATE of an accepted candidate fails only on the column's range or on the active version.
-/
theorem updateDocumentVersionLifecycle_of_update {db : Database}
    {old new : DocumentVersionLifecycleV1} (h : VersionUpdate old new)
    (hrange : new.lifecycleRevision ≤ integerMax) : updateDocumentVersionLifecycle db new old =
      if db.oneActive new then .ok { db with versions := db.versions.set new }
      else .error ⟨.uniqueViolation, "rag_document_versions_one_active_per_document"⟩ := by
  unfold updateDocumentVersionLifecycle
  rw [enforceDocumentVersionTransition_of_update h]
  simp only [ensure, hrange, decide_true, if_true, checkDocumentVersion_of_valid h.valid]
  cases db.oneActive new <;> rfl

/-- Lifecycle safety over whole runs. -/
theorem lifecycle_safety {α : Type} (c : Coercion α)
    (chunksFingerprint : List ChunkRecordV1 → String) (calls later : List (Call α)) :
    let h := History.empty.run c chunksFingerprint calls
    let h' := h.run c chunksFingerprint later
    (∀ call, (∃ e, h.db.exec c chunksFingerprint call = .error e ∧
      h.step c chunksFingerprint call = h) ∨ ∃ db log,
        h.db.exec c chunksFingerprint call = .ok (db, log) ∧
        h.step c chunksFingerprint call = ⟨db, h.log ++ log⟩) ∧
    (∀ v ∈ h.db.versions.rows,
      (∃ r, h.RegisteredAs v.documentVersionId r ∧ sameVersionIdentity v r = true) ∧
      v.lifecycleRevision = 1 + h.updateCount v.documentVersionId ∧
      (∃ w, h'.db.versions.find? v.documentVersionId = some w ∧
        (v.lifecycleStatus = .inactive → w.lifecycleStatus = .inactive) ∧
        (v.lifecycleStatus = .ready → w.lifecycleStatus = .ready ∨ w.lifecycleStatus = .inactive)) ∧
      (v.lifecycleStatus = .ready → v.timesPresent = true ∧
        v.indexStates = DocumentVersionLifecycleV1.bothReady ∧ v.failureCode = none ∧
        v.deleteTime = none ∧ v.chunkExpireTime = none)) ∧
    (∀ v ∈ h.db.versions.rows, ∀ w ∈ h.db.versions.rows, v.isActive = true → w.isActive = true →
      v.ownerId = w.ownerId → v.documentId = w.documentId → v = w) ∧
    (∀ v ∈ h.db.versions.rows, ∀ (expectedRevision : Int) (targetStatus : LifecycleStatus)
      (updates : List (UpdateKey × UpdateValue α)) (now : Timestamp)
      (candidate : DocumentVersionLifecycleV1),
      transitionCandidate c v expectedRevision targetStatus updates now = .ok candidate →
        enforceDocumentVersionTransition candidate v = .ok () ∧
        checkDocumentVersion candidate = true ∧
        (candidate.lifecycleRevision ≤ integerMax →
          updateDocumentVersionLifecycle h.db candidate v =
          if h.db.oneActive candidate then .ok { h.db with versions := h.db.versions.set candidate }
          else .error ⟨.uniqueViolation, "rag_document_versions_one_active_per_document"⟩)) := by
  intro h h'
  have hI : LifecycleInvariant h := lifecycleInvariant_run calls
  refine ⟨fun call => ?_, fun v hv => ⟨hI.registered v hv, hI.revision v hv, ?_, fun hready => ?_⟩,
    hI.oneActive, fun v _ expectedRevision targetStatus updates now candidate hcandidate => ?_⟩
  · unfold History.step
    cases hexec : h.db.exec c chunksFingerprint call with
    | ok r => exact .inr ⟨r.1, r.2, rfl, rfl⟩
    | error e => exact .inl ⟨e, rfl, rfl⟩
  · obtain ⟨w, hw, hlater⟩ := h.run_later later v.documentVersionId v (Table.find?_key_of_mem hv)
    exact ⟨w, hw, hlater.inactive, hlater.ready⟩
  · have hvalid := hI.valid v hv
    obtain ⟨htimes, hstates, hcode⟩ := hvalid.ready hready
    have hnot := mt hvalid.inactive.mpr (by rw [hready]; decide)
    obtain ⟨hdelete, hexpire⟩ := not_not.mp hnot
    exact ⟨htimes, hstates, hcode, hdelete, hexpire⟩
  · obtain ⟨-, hupdate, -⟩ := transitionCandidate_ok hcandidate
    exact ⟨enforceDocumentVersionTransition_of_update hupdate,
      checkDocumentVersion_of_valid hupdate.valid,
      fun hrange => updateDocumentVersionLifecycle_of_update hupdate hrange⟩

end ZhiyanRag.Storage
