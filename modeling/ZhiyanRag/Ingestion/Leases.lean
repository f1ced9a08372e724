import ZhiyanRag.Ingestion.Views
import ZhiyanRag.Storage.QueueSafety

/-!
# What a worker knows of its job

A worker carries the row that its claim returned. The stored row keeps that row's target for good
(`World.Leased`), and it is under the worker's token only as long as nobody took the job over: a
token is generated once, so a lease that a worker finds current was current before any step that is
not its own claim (`World.Leased.current_before`). A job becomes `SUCCEEDED` by the completing call
of the worker that holds its lease, and in no other way (`JobMove.succeeded`).
-/

namespace ZhiyanRag.Ingestion

open Relational ZhiyanRag.Storage Steps

/-! ### One step of the queue -/

/-- What one operation makes of a cleanup job. -/
structure JobMove (operation : Operation) (job job' : CleanupJobV1) : Prop where
  target : job'.sameTarget job = true
  cleanupId : job'.cleanupId = job.cleanupId
  leased : ∀ token, job'.leasedBy token → job.leasedBy token ∨ token ∈ operation.newIds
  succeeded : job'.status = .succeeded → job.status = .succeeded ∨ ∃ token now,
    operation = .repository (.completeCleanup job.cleanupId token now) ∧ job.leasedBy token

theorem sameTarget_refl (job : CleanupJobV1) : job.sameTarget job = true := by
  simp [CleanupJobV1.sameTarget]

theorem sameTarget_trans {a b c : CleanupJobV1} (hab : a.sameTarget b = true)
    (hbc : b.sameTarget c = true) : a.sameTarget c = true := by
  rw [CleanupJobV1.sameTarget_iff] at hab hbc ⊢
  grind

namespace JobMove

variable {operation : Operation} {job job' job'' : CleanupJobV1}

theorem refl : JobMove operation job job :=
  ⟨sameTarget_refl job, rfl, fun _ h => .inl h, fun h => .inl h⟩

theorem trans (h : JobMove operation job job') (h' : JobMove operation job' job'') :
    JobMove operation job job'' := by
  refine ⟨sameTarget_trans h'.target h.target, h'.cleanupId.trans h.cleanupId,
    fun token hlease => ?_, fun hs => ?_⟩
  · rcases h'.leased token hlease with hlease | hnew
    · exact h.leased token hlease
    · exact .inr hnew
  · rcases h'.succeeded hs with hs | ⟨token, now, hop, hlease⟩
    · exact h.succeeded hs
    · rw [h.cleanupId] at hop
      refine .inr ⟨token, now, hop, (h.leased token hlease).resolve_right ?_⟩
      rw [hop]
      exact List.not_mem_nil

end JobMove

/-- A move of the schedule, by the commits it leaves. -/
theorem jobMove_of_step {operation : Operation} {job job' : CleanupJobV1} {log : List Commit}
    (h : JobStep job job' log)
    (hclaims : ∀ id token, .claimed id token ∈ log → token ∈ operation.newIds)
    (hsucceeds : ∀ id token, .succeeded id token ∈ log →
      ∃ now, operation = .repository (.completeCleanup id token now)) : JobMove operation job
        job' := by
  have hended : ∀ (code : String) (next now : Timestamp),
      JobMove operation job (job.attemptFailed code next now) := by
    intro code next now
    refine ⟨sameTarget_refl job, rfl, fun token hlease => ?_, fun hs => ?_⟩
    · cases hlease.2
    · simp only [CleanupJobV1.attemptFailed] at hs
      split at hs <;> cases hs
  cases h with
  | idle => exact .refl
  | expired token now _ _ => exact hended _ _ _
  | failed token code next now _ _ => exact hended _ _ _
  | claimed newToken leaseExpiresAt now _ =>
    refine ⟨sameTarget_refl job, rfl, fun token hlease => .inr ?_, fun hs => (by cases hs)⟩
    cases hlease.2
    exact hclaims _ _ (List.mem_singleton_self _)
  | succeeded token now hlease =>
    refine ⟨sameTarget_refl job, rfl, fun t hl => (by cases hl.1), fun _ => .inr ?_⟩
    obtain ⟨now', hop⟩ := hsucceeds _ _ (List.mem_singleton_self _)
    exact ⟨token, now', hop, hlease⟩

section Moves

variable {services : Services} {w w' : World} {choice : Choice} {operation : Operation}
  {outcome : Except PyError operation.Result}

/-- The tokens and the successes that a call commits. -/
theorem exec_commits {db db' : Database} {call : Call Empty} {log : List Commit}
    (h : db.exec noCoercion services.chunksFingerprint call = .ok (db', log)) :
    (∀ id token, .claimed id token ∈ log → token ∈ call.newIds) ∧
      ∀ id token, .succeeded id token ∈ log → ∃ now, call = .completeCleanup id token now := by
  cases exec_committed h with
  | claimed newToken leaseSeconds now result hcall _ =>
    subst hcall
    have hexpired : ∀ commit ∈ db.expiredLeases now, ∃ id token, commit = .expired id token := by
      intro commit hcommit
      obtain ⟨job, -, hcommit⟩ := List.mem_filterMap.mp hcommit
      obtain ⟨token, -, rfl⟩ := Option.map_eq_some_iff.mp hcommit
      exact ⟨job.cleanupId, token, rfl⟩
    refine ⟨fun id token hmem => ?_, fun id token hmem => ?_⟩
    · rcases List.mem_append.mp hmem with hmem | hmem
      · obtain ⟨_, _, heq⟩ := hexpired _ hmem
        cases heq
      · obtain ⟨job, -, heq⟩ := Option.map_eq_some_iff.mp (Option.mem_toList.mp hmem)
        cases heq
        exact List.mem_singleton_self _
    · rcases List.mem_append.mp hmem with hmem | hmem
      · obtain ⟨_, _, heq⟩ := hexpired _ hmem
        cases heq
      · obtain ⟨job, -, heq⟩ := Option.map_eq_some_iff.mp (Option.mem_toList.mp hmem)
        cases heq
  | succeeded job leaseToken now hcall _ _ =>
    refine ⟨by simp, fun id token hmem => ?_⟩
    cases List.mem_singleton.mp hmem
    exact ⟨now, hcall⟩
  | _ => exact ⟨by simp, by simp⟩

/-- The queue's rows are valid, and every current token has been issued. -/
structure World.QueueSound (w : World) : Prop where
  safe : ∃ log, QueueInvariant ⟨w.db, log⟩
  issued : ∀ id job token, w.db.cleanupJobs.find? id = some job → job.leasedBy token →
    token ∈ w.issued

theorem World.QueueSound.valid (h : w.QueueSound) : ∀ job ∈ w.db.cleanupJobs.rows, job.Valid := by
  obtain ⟨log, hI⟩ := h.safe
  exact hI.valid

theorem World.QueueSound.empty : World.empty.QueueSound :=
  ⟨⟨[], QueueInvariant.empty⟩, fun _ _ _ hfind => (by cases hfind)⟩

/-- A row of the queue before an operation is a row after it, at the same or a later point of its
schedule. -/
theorem Outcome.job_after (h : Outcome services w w' choice operation outcome) (hw : w.QueueSound)
    {id : String} {job : CleanupJobV1} (hjob : w.db.cleanupJobs.find? id = some job) :
    ∃ job', w'.db.cleanupJobs.find? id = some job' ∧ JobMove operation job job' := by
  have hsame : w'.db = w.db → ∃ job', w'.db.cleanupJobs.find? id = some job' ∧
      JobMove operation job job' := by
    intro hdb
    rw [hdb]
    exact ⟨job, hjob, .refl⟩
  obtain ⟨e, -, hstores⟩ | ⟨result, -, -, heffect⟩ := h.stores
  · exact hsame hstores.db
  obtain hdb | ⟨call, log, rfl, hexec⟩ := heffect.db_cases
  · exact hsame hdb
  obtain ⟨hclaims, hsucceeds⟩ := exec_commits hexec
  have hmove : ∀ {db₁ db₂ : Database} {new : List Commit} {job₁ : CleanupJobV1},
      QueueRewrite db₁ db₂ new → new ⊆ log → db₁.cleanupJobs.find? id = some job₁ →
      ∃ job₂, db₂.cleanupJobs.find? id = some job₂ ∧ JobMove (.repository call) job₁ job₂ := by
    intro db₁ db₂ new job₁ hrewrite hsub hfind
    obtain ⟨job₂, hjob₂, hstep⟩ := hrewrite.row id job₁ hfind
    have hmem : ∀ {commit}, commit ∈ new.filter (Commit.concerns id) → commit ∈ log :=
      fun hcommit => hsub (List.mem_of_mem_filter hcommit)
    refine ⟨job₂, hjob₂, jobMove_of_step hstep (fun _ _ hcommit => hclaims _ _ (hmem hcommit))
      fun _ _ hcommit => ?_⟩
    obtain ⟨now, hcall⟩ := hsucceeds _ _ (hmem hcommit)
    exact ⟨now, congrArg Operation.repository hcall⟩
  cases exec_cleanupJobs hw.valid hexec with
  | rewrite hrewrite => exact hmove hrewrite (List.Subset.refl _) hjob
  | twice db₁ log₁ log₂ h₁ h₂ hlog =>
    subst hlog
    obtain ⟨job₁, hjob₁, hmove₁⟩ := hmove h₁ (List.subset_append_left _ _) hjob
    obtain ⟨job₂, hjob₂, hmove₂⟩ := hmove h₂ (List.subset_append_right _ _) hjob₁
    exact ⟨job₂, hjob₂, hmove₁.trans hmove₂⟩
  | insert new _ _ _ hinsert _ => exact ⟨job, Table.find?_insert?_of_some hinsert hjob, .refl⟩

/-- A row of the queue after an operation was a row before it, or is fresh: `PENDING`, for an
`INACTIVE` version. -/
theorem Outcome.job_before (h : Outcome services w w' choice operation outcome) (hw : w.QueueSound)
    {id : String} {job' : CleanupJobV1} (hjob' : w'.db.cleanupJobs.find? id = some job') :
    (∃ job, w.db.cleanupJobs.find? id = some job ∧ JobMove operation job job') ∨
      (job'.status = .pending ∧
        ∃ v, w.db.referencedVersion? job'.documentVersionId job'.ownerId job'.documentId = some v ∧
        v.lifecycleStatus = .inactive) := by
  cases hjob : w.db.cleanupJobs.find? id with
  | some job =>
    obtain ⟨job₁, hjob₁, hmove⟩ := h.job_after hw hjob
    cases hjob₁.symm.trans hjob'
    exact .inl ⟨job, rfl, hmove⟩
  | none =>
    have hsame : w'.db ≠ w.db := by
      intro hdb
      rw [hdb, hjob] at hjob'
      cases hjob'
    obtain ⟨e, -, hstores⟩ | ⟨result, -, -, heffect⟩ := h.stores
    · exact absurd hstores.db hsame
    obtain hdb | ⟨call, log, rfl, hexec⟩ := heffect.db_cases
    · exact absurd hdb hsame
    cases exec_cleanupJobs hw.valid hexec with
    | rewrite hrewrite =>
      rw [(hrewrite.absent id hjob).1] at hjob'
      cases hjob'
    | twice db₁ log₁ log₂ h₁ h₂ _ =>
      rw [(h₂.absent id (h₁.absent id hjob).1).1] at hjob'
      cases hjob'
    | insert new hinactive _ hpending hinsert _ =>
      by_cases hid : new.cleanupId = id
      · subst hid
        cases (Table.find?_insert?_self hinsert).symm.trans hjob'
        exact .inr ⟨hpending, hinactive⟩
      · rw [Table.find?_insert?_ne hinsert hid, hjob] at hjob'
        cases hjob'

theorem Outcome.issued_mono (h : Outcome services w w' choice operation outcome) {id : String}
    (hid : id ∈ w.issued) : id ∈ w'.issued := by
  rw [h.issued]
  exact List.mem_append_right _ hid

theorem Outcome.queueSound (h : Outcome services w w' choice operation outcome)
    (hw : w.QueueSound) :
    w'.QueueSound := by
  refine ⟨?_, fun id job' token hjob' hlease => ?_⟩
  · obtain ⟨log, hI⟩ := hw.safe
    obtain ⟨e, -, hstores⟩ | ⟨result, -, -, heffect⟩ := h.stores
    · exact ⟨log, by rw [hstores.db]; exact hI⟩
    obtain hdb | ⟨call, new, rfl, hexec⟩ := heffect.db_cases
    · exact ⟨log, by rw [hdb]; exact hI⟩
    · exact ⟨log ++ new, hI.step (exec_cleanupJobs hI.valid hexec)⟩
  · rcases h.job_before hw hjob' with ⟨job, hjob, hmove⟩ | ⟨hpending, -⟩
    · rcases hmove.leased token hlease with hlease | hnew
      · exact h.issued_mono (hw.issued id job token hjob hlease)
      · rw [h.issued]
        exact List.mem_append_left _ hnew
    · have hrunning := hlease.1
      rw [hpending] at hrunning
      cases hrunning

/-! ### What a worker carries -/

/-- The worker's lease is the current one. -/
def World.holds (w : World) (leased : LeasedJob) : Bool :=
  (w.db.leased? leased.job.cleanupId leased.leaseToken).isSome

theorem World.holds_iff {leased : LeasedJob} : w.holds leased = true ↔
    ∃ job, w.db.cleanupJobs.find? leased.job.cleanupId = some job ∧
    job.leasedBy leased.leaseToken := by
  unfold World.holds
  rw [Option.isSome_iff_exists]
  exact exists_congr fun job => Database.leased?_eq_some

/-- The claimed row is still stored, with the target it had, and the token has been issued. -/
structure World.Leased (w : World) (leased : LeasedJob) : Prop where
  stored : ∃ job, w.db.cleanupJobs.find? leased.job.cleanupId = some job ∧
    job.sameTarget leased.job = true
  issued : leased.leaseToken ∈ w.issued

namespace World.Leased

variable {leased : LeasedJob}

theorem later (h : w.Leased leased) (hw : w.QueueSound)
    (hout : Outcome services w w' choice operation outcome) : w'.Leased leased := by
  obtain ⟨job, hjob, htarget⟩ := h.stored
  obtain ⟨job', hjob', hmove⟩ := hout.job_after hw hjob
  exact ⟨⟨job', hjob', sameTarget_trans hmove.target htarget⟩, hout.issued_mono h.issued⟩

/-- A lease is lost, never regained: the token was issued, so no claim draws it again. -/
theorem current_before (h : w.Leased leased) (hw : w.QueueSound)
    (hout : Outcome services w w' choice operation outcome) (hcurrent : w'.holds leased = true) :
    w.holds leased = true := by
  obtain ⟨job, hjob, -⟩ := h.stored
  obtain ⟨job', hjob', hlease⟩ := World.holds_iff.mp hcurrent
  obtain ⟨job₁, hjob₁, hmove⟩ := hout.job_after hw hjob
  cases hjob₁.symm.trans hjob'
  rcases hmove.leased _ hlease with hlease | hnew
  · exact World.holds_iff.mpr ⟨job, hjob, hlease⟩
  · exact absurd h.issued (hout.fresh _ hnew)

end World.Leased

/-- The job a worker has claimed. -/
def WorkerState.leased? : WorkerState → Option LeasedJob
  | deleteIndex _ leased | lookup leased | deletePdf leased _ | purge leased _ | complete leased _ |
    recordFailure leased _ => some leased
  | claim | returned _ | raised _ => none

/-- The cleaner that runs is the one of the job's backend. -/
def WorkerState.Matches : WorkerState → Prop
  | deleteIndex backend leased => leased.job.backend = backend.cleanupBackend
  | lookup leased | deletePdf leased _ | purge leased _ => leased.job.backend = .runtimeSnapshot
  | _ => True

theorem CleanupWorker.failed_leased {worker : CleanupWorker} {clock : Datetime}
    {leased leased' : LeasedJob} (h : (worker.failed clock leased).leased? = some leased') :
    leased' = leased := by
  unfold CleanupWorker.failed at h
  split at h <;> cases h
  rfl

theorem CleanupWorker.failed_matches (worker : CleanupWorker) (clock : Datetime)
    (leased : LeasedJob) : (worker.failed clock leased).Matches := by
  unfold CleanupWorker.failed
  split <;> trivial

theorem LeasedJob.clean_leased (leased : LeasedJob) : leased.clean.leased? = some leased := by
  unfold LeasedJob.clean
  split <;> rfl

theorem LeasedJob.clean_matches (leased : LeasedJob) : leased.clean.Matches := by
  unfold LeasedJob.clean
  split <;> assumption

/-- What a claim that returned leads to: no job, an error, or the cleaner of the leased job. -/
theorem claimed_cases (r : Except PyError (Except PyError (Option CleanupJobV1))) :
    (claimed r).leased? = none ∧ (claimed r).Matches ∨
      ∃ job leaseToken, r = .ok (.ok (some job)) ∧ job.leasedBy leaseToken ∧
        claimed r = LeasedJob.clean ⟨job, leaseToken⟩ := by
  unfold claimed
  split
  · exact .inl ⟨rfl, trivial⟩
  · exact .inl ⟨rfl, trivial⟩
  · exact .inl ⟨rfl, trivial⟩
  · split
    · split
      · rename_i job _ leaseToken htoken hrunning
        exact .inr ⟨job, leaseToken, rfl, ⟨hrunning, htoken⟩, rfl⟩
      · exact .inl ⟨rfl, trivial⟩
    · exact .inl ⟨rfl, trivial⟩

/-- A claim that returned a job stored that row, under the token it drew. -/
theorem claim_stored {newToken : ContractId} {leaseSeconds : Int} {now : Timestamp}
    {job : CleanupJobV1} {db db' : Database}
    (h : claimCleanup db newToken leaseSeconds now = .ok (db', .ok (some job))) :
    db'.cleanupJobs.find? job.cleanupId = some job ∧ job.leaseToken = some newToken.1 := by
  obtain ⟨-, -, ⟨-, -, hresult⟩ | ⟨due, hdue, rfl, hresult⟩⟩ := claimCleanup_ok h
  · cases hresult
  · cases hvalidate : (due.claimed newToken (now + 1000000 * leaseSeconds) now).validate with
    | error e =>
      rw [hvalidate] at hresult
      cases hresult
    | ok row =>
      rw [hvalidate] at hresult
      cases hresult
      obtain ⟨rfl, -⟩ := CleanupJobV1.validate_eq_ok.mp hvalidate
      obtain ⟨hmem, -⟩ := dueCleanup?_some hdue
      have hfind := Table.find?_key_of_mem hmem
      exact ⟨Table.find?_set_self hfind, rfl⟩

theorem claimed_leased {newToken : ContractId} {leaseSeconds : Int} {now : Timestamp}
    {result : Except PyError (Option CleanupJobV1)}
    (hcall : claimCleanup w.db newToken leaseSeconds now = .ok (w'.db, result))
    (hissued : newToken.1 ∈ w'.issued) :
    (∀ leased, (claimed (.ok result)).leased? = some leased → w'.Leased leased) ∧
    (claimed (.ok result)).Matches := by
  rcases claimed_cases (.ok result) with ⟨hnone, hmatches⟩ | ⟨job, leaseToken, hr, hlease, hstate⟩
  · refine ⟨fun leased h => ?_, hmatches⟩
    rw [hnone] at h
    cases h
  · cases hr
    obtain ⟨hstored, htoken⟩ := claim_stored hcall
    rw [hstate]
    refine ⟨fun leased h => ?_, LeasedJob.clean_matches _⟩
    rw [LeasedJob.clean_leased] at h
    cases h
    refine ⟨⟨job, hstored, sameTarget_refl job⟩, ?_⟩
    rw [hlease.2] at htoken
    cases htoken
    exact hissued

/-- A worker's step keeps its lease facts, or claims a job. -/
theorem worker_leased {worker : CleanupWorker} {state : WorkerState} {pending : Pending WorkerState}
    {outcome : Except PyError pending.operation.Result}
    (hnext : state.next worker choice = some pending) (hw : w.QueueSound)
    (hout : Outcome services w w' choice pending.operation outcome)
    (hstate : ∀ leased, state.leased? = some leased → w.Leased leased) (hmatches : state.Matches) :
    (∀ leased, (pending.resume outcome).leased? = some leased → w'.Leased leased) ∧
      (pending.resume outcome).Matches := by
  have hkeep : ∀ leased, state.leased? = some leased → w'.Leased leased :=
    fun leased h => (hstate leased h).later hw hout
  cases state with
  | returned result => cases hnext
  | raised error => cases hnext
  | claim =>
    cases hnext
    cases outcome with
    | error e => exact ⟨fun _ h => (by cases h), trivial⟩
    | ok result =>
      obtain ⟨hcall, -, -⟩ := hout.repository
      refine claimed_leased hcall ?_
      rw [hout.issued]
      exact List.mem_append_left _ (List.mem_singleton_self _)
  | deleteIndex backend leased =>
    cases hnext
    cases outcome with
    | ok existed => exact ⟨fun l h => hkeep l h, trivial⟩
    | error e =>
      exact ⟨fun l h => hkeep l (by rw [CleanupWorker.failed_leased h]; rfl),
        CleanupWorker.failed_matches _ _ _⟩
  | lookup leased =>
    cases hnext
    cases outcome with
    | ok pdf => cases pdf with
      | some pdf => exact ⟨fun l h => hkeep l h, hmatches⟩
      | none => exact ⟨fun l h => hkeep l h, trivial⟩
    | error e =>
      exact ⟨fun l h => hkeep l (by rw [CleanupWorker.failed_leased h]; rfl),
        CleanupWorker.failed_matches _ _ _⟩
  | deletePdf leased pdf =>
    cases hnext
    cases outcome with
    | ok existed => exact ⟨fun l h => hkeep l h, hmatches⟩
    | error e =>
      exact ⟨fun l h => hkeep l (by rw [CleanupWorker.failed_leased h]; rfl),
        CleanupWorker.failed_matches _ _ _⟩
  | purge leased existed =>
    cases hnext
    cases outcome with
    | ok u => exact ⟨fun l h => hkeep l h, trivial⟩
    | error e =>
      exact ⟨fun l h => hkeep l (by rw [CleanupWorker.failed_leased h]; rfl),
        CleanupWorker.failed_matches _ _ _⟩
  | complete leased existed =>
    cases hnext
    cases outcome <;> exact ⟨fun l h => (by cases h), trivial⟩
  | recordFailure leased retryAt =>
    cases hnext
    cases outcome <;> exact ⟨fun l h => (by cases h), trivial⟩

/-! ### Among the threads -/

def Thread.leased? : Thread → Option LeasedJob
  | worker _ state => state.leased?
  | _ => none

def Thread.Matches : Thread → Prop
  | worker _ state => state.Matches
  | _ => True

/-- A thread that goes on as a worker is a worker. -/
theorem worker_of_step {thread : Thread} {settings : CleanupWorker} {state' : WorkerState}
    (h : thread.step services w choice = some (w', .worker settings state')) :
    ∃ state pending outcome, thread = .worker settings state ∧
      state.next settings choice = some pending ∧ pending.resume outcome = state' ∧
      Outcome services w w' choice pending.operation outcome := by
  cases thread with
  | preparer request state =>
    obtain ⟨pending, outcome, -, hthread, -⟩ := preparer_step h
    cases hthread
  | publisher preparation state =>
    obtain ⟨pending, outcome, -, hthread, -⟩ := publisher_step h
    cases hthread
  | inactivator input state =>
    obtain ⟨pending, outcome, -, hthread, -⟩ := inactivator_step h
    cases hthread
  | worker settings₁ state =>
    obtain ⟨pending, outcome, hnext, hthread, hout⟩ := worker_step h
    cases hthread
    exact ⟨state, pending, outcome, rfl, hnext, rfl, hout⟩

/-- Only a worker completes a job, and it is the job it has leased. -/
theorem next_completes {thread : Thread} {pending : Pending Thread} {cleanupId leaseToken : String}
    {now : Timestamp} (hnext : thread.next services choice = some pending)
    (hcall : pending.operation = .repository (.completeCleanup cleanupId leaseToken now)) :
    ∃ settings leased existed, thread = .worker settings (.complete leased existed) ∧
      cleanupId = leased.job.cleanupId ∧ leaseToken = leased.leaseToken := by
  have hmade := next_madeBy hnext
  rwa [hcall] at hmade

/-- A step keeps what a thread knows of its job. -/
theorem step_leased {thread thread' : Thread} (hw : w.QueueSound)
    (h : thread.step services w choice = some (w', thread'))
    (hleased : ∀ leased, thread.leased? = some leased → w.Leased leased)
    (hmatches : thread.Matches) :
    (∀ leased, thread'.leased? = some leased → w'.Leased leased) ∧ thread'.Matches := by
  cases thread' with
  | worker settings state' =>
    obtain ⟨state, pending, outcome, rfl, hnext, rfl, hout⟩ := worker_of_step h
    exact worker_leased hnext hw hout hleased hmatches
  | _ => exact ⟨fun _ h => (by cases h), trivial⟩

end Moves

end ZhiyanRag.Ingestion
