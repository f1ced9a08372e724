import Mathlib.Data.List.Induction
import ZhiyanRag.Storage.Repository

/-!
# Queue safety

`JobStep` lists the moves of one cleanup job: its lease expires, a worker claims it, or a leased
attempt is recorded as a success or a failure. Each call on the repository rewrites every row of the
queue by such moves, or inserts one fresh row (`exec_cleanupJobs`).

`JobSafe` relates a row to the commits that concern it: attempts are claims, a job that may be
retried has attempts left, and a lease token has at most as many outcomes as claims, one fewer while
it is current.
-/

namespace ZhiyanRag.Storage

open Relational ZhiyanRag.Ingestion

/-! ### Moves of one job -/

/-- The job is `RUNNING` under this token, so the token's holder may record an outcome. -/
def CleanupJobV1.leasedBy (job : CleanupJobV1) (leaseToken : String) : Prop :=
  job.status = .running ∧ job.leaseToken = some leaseToken

instance (job : CleanupJobV1) (leaseToken : String) : Decidable (job.leasedBy leaseToken) :=
  inferInstanceAs (Decidable (_ ∧ _))

/-- One move of a job, and what it commits about the job. -/
inductive JobStep (job : CleanupJobV1) : CleanupJobV1 → List Commit → Prop
  | idle : JobStep job job []
  | expired (leaseToken : String) (now : Timestamp) : job.leasedBy leaseToken →
      job.leaseExpired now = true →
      JobStep job (job.attemptFailed "CLEANUP_LEASE_EXPIRED" now now)
        [.expired job.cleanupId leaseToken]
  | claimed (newToken : ContractId) (leaseExpiresAt now : Timestamp) : job.due now = true →
      JobStep job (job.claimed newToken leaseExpiresAt now) [.claimed job.cleanupId newToken]
  | succeeded (leaseToken : String) (now : Timestamp) : job.leasedBy leaseToken →
      JobStep job (job.succeededAt now) [.succeeded job.cleanupId leaseToken]
  | failed (leaseToken failureCode : String) (nextAttemptAt now : Timestamp) :
      job.leasedBy leaseToken → contractIdPattern failureCode = true →
      JobStep job (job.attemptFailed failureCode nextAttemptAt now)
        [.failed job.cleanupId leaseToken]

namespace Commit

def cleanupId? : Commit → Option String
  | claimed id _ | succeeded id _ | failed id _ | expired id _ => some id
  | _ => none

def concerns (cleanupId : String) (commit : Commit) : Bool :=
  decide (commit.cleanupId? = some cleanupId)

def isClaim : Commit → Bool
  | claimed _ _ => true
  | _ => false

def isClaimOf (leaseToken : String) : Commit → Bool
  | claimed _ token => decide (token = leaseToken)
  | _ => false

/-- A success, a failure or an expiry of the attempt with this token. -/
def isOutcomeOf (leaseToken : String) : Commit → Bool
  | succeeded _ token | failed _ token | expired _ token => decide (token = leaseToken)
  | _ => false

end Commit

/-- A row and the commits that concern it. -/
structure JobSafe (job : CleanupJobV1) (log : List Commit) : Prop where
  valid : job.Valid
  retry : job.status = .retry → job.attemptCount < job.maxAttempts
  attempts : job.attemptCount = log.countP Commit.isClaim
  outcomes : ∀ token, log.countP (Commit.isOutcomeOf token) +
    (if job.leasedBy token then 1 else 0) ≤ log.countP (Commit.isClaimOf token)

theorem CleanupJobV1.attemptFailed_valid {job : CleanupJobV1} {failureCode : String}
    {nextAttemptAt now : Timestamp} (h : job.Valid) (hcode : contractIdPattern failureCode = true) :
    (job.attemptFailed failureCode nextAttemptAt now).Valid := by
  have hlimit := h.attempts
  refine ⟨h.cleanupId, h.ownerId, h.documentId, h.documentVersionId, h.attempts, h.maxAttempts,
    rfl, hcode, ?_, ?_, ?_, ?_, ?_⟩ <;>
  · simp only [CleanupJobV1.attemptFailed, CleanupJobV1.isRetryOrFailed, CleanupJobV1.isTerminal]
    split <;> simp

theorem CleanupJobV1.claimed_valid {job : CleanupJobV1} {newToken : ContractId}
    {leaseExpiresAt now : Timestamp} (h : job.Valid) (hlimit : job.attemptCount < job.maxAttempts) :
    (job.claimed newToken leaseExpiresAt now).Valid := by
  have hattempts := h.attempts
  refine ⟨h.cleanupId, h.ownerId, h.documentId, h.documentVersionId, ?_, h.maxAttempts,
    newToken.2, rfl, ?_, rfl, rfl, ?_, ?_⟩
  · simp only [CleanupJobV1.claimed]
    omega
  · simp [CleanupJobV1.claimed]
  · simp [CleanupJobV1.claimed]
  · simp only [CleanupJobV1.claimed]
    omega

theorem CleanupJobV1.succeededAt_valid {job : CleanupJobV1} {now : Timestamp} (h : job.Valid) :
    (job.succeededAt now).Valid := by
  refine ⟨h.cleanupId, h.ownerId, h.documentId, h.documentVersionId, h.attempts, h.maxAttempts,
    rfl, rfl, ?_, rfl, rfl, ?_, ?_⟩ <;>
  simp [CleanupJobV1.succeededAt]

/-- A job that may be claimed has an attempt left. -/
theorem JobSafe.attempt_left {job : CleanupJobV1} {log : List Commit} {now : Timestamp}
    (h : JobSafe job log) (hdue : job.due now = true) : job.attemptCount < job.maxAttempts := by
  simp only [CleanupJobV1.due, Bool.and_eq_true, Bool.or_eq_true, decide_eq_true_eq] at hdue
  rcases hdue.1 with hpending | hretry
  · have := h.valid.pending hpending
    have := h.valid.maxAttempts
    omega
  · exact h.retry hretry

/-- An attempt that ends uses its token up. -/
theorem JobSafe.attempt_ended {job job' : CleanupJobV1} {log : List Commit} {token : String}
    {commit : Commit} (h : JobSafe job log) (hlease : job.leasedBy token)
    (hvalid : job'.Valid) (hretry : job'.status = .retry → job'.attemptCount < job'.maxAttempts)
    (hcount : job'.attemptCount = job.attemptCount) (hstatus : job'.status ≠ .running)
    (hclaim : commit.isClaim = false) (hother : ∀ t, commit.isClaimOf t = false)
    (houtcome : ∀ t, commit.isOutcomeOf t = decide (token = t)) :
    JobSafe job' (log ++ [commit]) := by
  refine ⟨hvalid, hretry, ?_, fun t => ?_⟩
  · rw [hcount, h.attempts, List.countP_append, List.countP_singleton, hclaim]
    simp
  · have hout := h.outcomes t
    have hnot : ¬ job'.leasedBy t := fun hl => hstatus hl.1
    rw [List.countP_append, List.countP_append, List.countP_singleton,
      List.countP_singleton, hother, houtcome, if_neg hnot]
    by_cases ht : token = t
    · subst ht
      rw [if_pos hlease] at hout
      simpa using hout
    · simp only [ht, decide_false, Bool.false_eq_true, if_false]
      omega

theorem JobStep.safe {job job' : CleanupJobV1} {log new : List Commit} (h : JobSafe job log)
    (hstep : JobStep job job' new) : JobSafe job' (log ++ new) := by
  have hretry : ∀ (code : String) (next now : Timestamp),
      (job.attemptFailed code next now).status = .retry → job.attemptCount < job.maxAttempts := by
    intro code next now hs
    simp only [CleanupJobV1.attemptFailed] at hs
    split at hs
    · cases hs
    · omega
  have hended : ∀ (code : String) (next now : Timestamp),
      (job.attemptFailed code next now).status ≠ .running := by
    intro code next now hs
    simp only [CleanupJobV1.attemptFailed] at hs
    split at hs <;> cases hs
  cases hstep with
  | idle => rwa [List.append_nil]
  | expired token now hlease hexpired =>
    exact h.attempt_ended hlease (CleanupJobV1.attemptFailed_valid h.valid (by decide))
      (hretry _ _ _) rfl (hended _ _ _) rfl (fun _ => rfl) (fun _ => rfl)
  | failed token code next now hlease hcode =>
    exact h.attempt_ended hlease (CleanupJobV1.attemptFailed_valid h.valid hcode)
      (hretry _ _ _) rfl (hended _ _ _) rfl (fun _ => rfl) (fun _ => rfl)
  | succeeded token now hlease =>
    exact h.attempt_ended hlease (CleanupJobV1.succeededAt_valid h.valid)
      (fun hs => by cases hs) rfl (fun hs => by cases hs) rfl (fun _ => rfl) (fun _ => rfl)
  | claimed newToken leaseExpiresAt now hdue =>
    refine ⟨CleanupJobV1.claimed_valid h.valid (h.attempt_left hdue), fun hs => (by cases hs), ?_,
      fun t => ?_⟩
    · have := h.attempts
      simp only [CleanupJobV1.claimed, List.countP_append, List.countP_singleton, Commit.isClaim,
        if_true]
      push_cast
      omega
    · have hout := h.outcomes t
      have hlease : (job.claimed newToken leaseExpiresAt now).leasedBy t ↔ newToken.1 = t := by
        simp [CleanupJobV1.leasedBy, CleanupJobV1.claimed]
      rw [List.countP_append, List.countP_append, List.countP_singleton, List.countP_singleton]
      simp only [hlease, Commit.isOutcomeOf, Commit.isClaimOf, decide_eq_true_eq,
        Bool.false_eq_true, if_false]
      split at hout <;> omega

/-- Every move is a move of the schedule, so a finished job never moves. -/
theorem JobStep.terminal {job job' : CleanupJobV1} {new : List Commit} (h : JobStep job job' new)
    (hterminal : job.isTerminal = true) : job' = job := by
  have hstatus : job.status = .succeeded ∨ job.status = .failed := by
    simpa [CleanupJobV1.isTerminal] using hterminal
  cases h with
  | idle => rfl
  | claimed newToken leaseExpiresAt now hdue =>
    simp only [CleanupJobV1.due, Bool.and_eq_true, Bool.or_eq_true, decide_eq_true_eq] at hdue
    grind
  | expired token now hlease _ | succeeded token now hlease | failed token code next now hlease _ =>
    have := hlease.1
    grind

theorem JobStep.cleanupId {job job' : CleanupJobV1} {new : List Commit} (h : JobStep job job' new) :
    job'.cleanupId = job.cleanupId := by
  cases h <;> rfl

/-! ### Moves of the queue -/

/-- Every row of the queue moves, and nothing is committed about any other job. -/
structure QueueRewrite (db db' : Database) (log : List Commit) : Prop where
  row : ∀ id job, db.cleanupJobs.find? id = some job →
    ∃ job', db'.cleanupJobs.find? id = some job' ∧
    JobStep job job' (log.filter (Commit.concerns id))
  absent : ∀ id, db.cleanupJobs.find? id = none → db'.cleanupJobs.find? id = none ∧
    log.filter (Commit.concerns id) = []

/-- The queue is rewritten, once or twice, or one fresh row is inserted. -/
inductive QueueEffect (db db' : Database) (log : List Commit) : Prop
  | rewrite : QueueRewrite db db' log → QueueEffect db db' log
  | twice (db₁ : Database) (log₁ log₂ : List Commit) : QueueRewrite db db₁ log₁ →
      QueueRewrite db₁ db' log₂ → log = log₁ ++ log₂ → QueueEffect db db' log
  | insert (job : CleanupJobV1) :
      (∃ v, db.referencedVersion? job.documentVersionId job.ownerId job.documentId = some v ∧
        v.lifecycleStatus = .inactive) → job.Valid → job.status = .pending →
      db.cleanupJobs.insert? job = some db'.cleanupJobs → log = [] → QueueEffect db db' log

/-- A call that is not about the queue. -/
theorem QueueRewrite.of_eq {db db' : Database} {log : List Commit}
    (heq : db'.cleanupJobs = db.cleanupJobs) (hlog : ∀ commit ∈ log, commit.cleanupId? = none) :
    QueueRewrite db db' log := by
  have hnil : ∀ id, log.filter (Commit.concerns id) = [] := by
    intro id
    refine List.filter_eq_nil_iff.mpr fun commit hcommit => ?_
    simp [Commit.concerns, hlog commit hcommit]
  refine ⟨fun id job hjob => ⟨job, by rw [heq]; exact hjob, ?_⟩,
    fun id hid => ⟨by rw [heq]; exact hid, hnil id⟩⟩
  rw [hnil]
  exact .idle

/-- Replacing one row by its move. -/
theorem QueueRewrite.of_set {db db' : Database} {job job' : CleanupJobV1} {commit : Commit}
    (hjob : db.cleanupJobs.find? job.cleanupId = some job) (hstep : JobStep job job' [commit])
    (hcommit : commit.cleanupId? = some job.cleanupId)
    (hdb : db'.cleanupJobs = db.cleanupJobs.set job') : QueueRewrite db db' [commit] := by
  have hid := hstep.cleanupId
  have hfilter : ∀ id, [commit].filter (Commit.concerns id) = if job.cleanupId = id then [commit]
      else [] := by
    intro id
    by_cases h : job.cleanupId = id <;> simp [Commit.concerns, hcommit, h]
  refine ⟨fun id row hrow => ?_, fun id hnone => ?_⟩
  · rw [hdb, hfilter]
    by_cases h : job.cleanupId = id
    · subst h
      cases hjob.symm.trans hrow
      rw [if_pos rfl]
      refine ⟨job', ?_, hstep⟩
      rw [← hid]
      exact Table.find?_set_self (by rw [hid]; exact hjob)
    · rw [if_neg h]
      refine ⟨row, ?_, .idle⟩
      rw [Table.find?_set_ne _ (by rw [hid]; exact h)]
      exact hrow
  · have h : job.cleanupId ≠ id := by
      rintro rfl
      rw [hjob] at hnone
      cases hnone
    rw [hdb, hfilter, if_neg h, Table.find?_set_ne _ (by rw [hid]; exact h)]
    exact ⟨hnone, rfl⟩

/-- Lease recovery moves exactly the jobs whose lease has expired. -/
theorem recoverLeases_rewrite {db : Database} (hvalid : ∀ job ∈ db.cleanupJobs.rows, job.Valid)
    (now : Timestamp) : QueueRewrite db (db.recoverLeases now) (db.expiredLeases now) := by
  have hfind : ∀ id, (db.recoverLeases now).cleanupJobs.find? id =
      (db.cleanupJobs.find? id).map (CleanupJobV1.recoverLease now) :=
    fun id => Table.find?_mapRows _ _ (CleanupJobV1.recoverLease_cleanupId now) id
  have hfilter : ∀ id, (db.expiredLeases now).filter (Commit.concerns id) =
      ((db.cleanupJobs.find? id).toList.filter fun job => job.leaseExpired now).filterMap fun job =>
        job.leaseToken.map fun token => .expired job.cleanupId token := by
    intro id
    unfold Database.expiredLeases
    rw [← Table.filter_key, List.filter_filterMap, List.filterMap_filter, List.filterMap_filter,
      List.filterMap_filter]
    refine List.filterMap_congr fun job _ => ?_
    by_cases hid : job.cleanupId = id <;> cases job.leaseExpired now <;> cases job.leaseToken <;>
      simp [hid, Commit.concerns, Commit.cleanupId?, Option.filter]
  refine ⟨fun id job hjob => ?_, fun id hnone => ?_⟩
  · rw [hfind, hfilter, hjob]
    refine ⟨job.recoverLease now, rfl, ?_⟩
    have hkey := Table.key_of_find? hjob
    cases hexpired : job.leaseExpired now with
    | false =>
      simp only [CleanupJobV1.recoverLease, hexpired, Option.toList_some, List.filter_singleton]
      exact .idle
    | true =>
      have hrunning : job.status = .running := by
        simp only [CleanupJobV1.leaseExpired, Bool.and_eq_true, decide_eq_true_eq] at hexpired
        exact hexpired.1
      obtain ⟨token, htoken⟩ := Option.isSome_iff_exists.mp
        ((hvalid job (Table.mem_rows_of_find? hjob)).lease.mp hrunning).1
      have hnew : ([job].filter fun job => job.leaseExpired now).filterMap (fun job =>
          job.leaseToken.map fun token => Commit.expired job.cleanupId token) =
          [.expired job.cleanupId token] := by
        simp [hexpired, htoken]
      rw [Option.toList_some, hnew, CleanupJobV1.recoverLease, if_pos hexpired]
      exact .expired token now ⟨hrunning, htoken⟩ hexpired
  · rw [hfind, hfilter, hnone]
    exact ⟨rfl, rfl⟩

theorem claimCleanup_effect {db db' : Database} {newToken : ContractId} {leaseSeconds : Int}
    {now : Timestamp} {result : Except PyError (Option CleanupJobV1)}
    (hvalid : ∀ job ∈ db.cleanupJobs.rows, job.Valid)
    (h : claimCleanup db newToken leaseSeconds now = .ok (db', result)) :
    QueueEffect db db' (db.expiredLeases now ++
      (((db.recoverLeases now).dueCleanup? now).map fun job => .claimed job.cleanupId
        newToken).toList) := by
  have hrecover := recoverLeases_rewrite hvalid now
  obtain ⟨-, -, ⟨hnone, rfl, -⟩ | ⟨job, hdue, rfl, -⟩⟩ := claimCleanup_ok h
  · rw [hnone, Option.map_none, Option.toList_none, List.append_nil]
    exact .rewrite hrecover
  · rw [hdue, Option.map_some, Option.toList_some]
    obtain ⟨hmem, hjob⟩ := dueCleanup?_some hdue
    exact .twice _ _ _ hrecover
      (.of_set (Table.find?_key_of_mem hmem) (.claimed newToken _ now hjob) rfl rfl) rfl

/-- All that one call can do to the queue. -/
theorem exec_cleanupJobs {α : Type} {c : Coercion α}
    {chunksFingerprint : List ChunkRecordV1 → String} {db db' : Database} {call : Call α}
    {log : List Commit} (hvalid : ∀ job ∈ db.cleanupJobs.rows, job.Valid)
    (h : db.exec c chunksFingerprint call = .ok (db', log)) : QueueEffect db db' log := by
  cases exec_committed h with
  | bookkeeping _ hsame => exact .rewrite (.of_eq hsame.2.2 (by simp))
  | registered v _ _ _ _ hsame => exact .rewrite (.of_eq hsame.2.2 (by simp [Commit.cleanupId?]))
  | updated old new _ _ _ _ _ hsame =>
    exact .rewrite (.of_eq hsame.2.2 (by simp [Commit.cleanupId?]))
  | snapshot pdf chunks receipt _ hcall =>
    exact .rewrite (.of_eq (persistRuntimeSnapshot_frame hcall).2 (by simp [Commit.cleanupId?]))
  | purged ownerId documentVersionId _ hcall =>
    obtain ⟨-, rfl⟩ := purgeInactiveRuntimeSnapshot_ok hcall
    exact .rewrite (.of_eq rfl (by simp))
  | enqueued job jobs hinactive hjob hpending hinsert hdb =>
    subst hdb
    exact .insert job hinactive hjob hpending hinsert rfl
  | claimed newToken leaseSeconds now result _ hcall => exact claimCleanup_effect hvalid hcall
  | succeeded job leaseToken now _ hstored hdb =>
    subst hdb
    obtain ⟨hfind, hlease⟩ := Database.leased?_eq_some.mp hstored
    exact .rewrite (.of_set hfind (.succeeded leaseToken now hlease) rfl rfl)
  | failed job leaseToken failureCode retryAt now hcode hstored hdb =>
    subst hdb
    obtain ⟨hfind, hlease⟩ := Database.leased?_eq_some.mp hstored
    exact .rewrite (.of_set hfind (.failed leaseToken failureCode retryAt now hlease hcode) rfl rfl)

/-! ### The invariant -/

/-- The commits that concern a job. -/
def History.jobLog (h : History) (cleanupId : String) : List Commit :=
  h.log.filter (Commit.concerns cleanupId)

structure QueueInvariant (h : History) : Prop where
  row : ∀ id job, h.db.cleanupJobs.find? id = some job → JobSafe job (h.jobLog id)
  absent : ∀ id, h.db.cleanupJobs.find? id = none → h.jobLog id = []

namespace QueueInvariant

variable {h : History} {db' : Database} {log : List Commit}

theorem valid (hI : QueueInvariant h) : ∀ job ∈ h.db.cleanupJobs.rows, job.Valid :=
  fun _ hjob => (hI.row _ _ (Table.find?_key_of_mem hjob)).valid

theorem jobLog_append (id : String) :
    History.jobLog ⟨db', h.log ++ log⟩ id = h.jobLog id ++ log.filter (Commit.concerns id) :=
  List.filter_append ..

theorem rewrite (hI : QueueInvariant h) (hrewrite : QueueRewrite h.db db' log) :
    QueueInvariant ⟨db', h.log ++ log⟩ := by
  refine ⟨fun id job' hjob' => ?_, fun id hnone => ?_⟩
  · rw [jobLog_append]
    cases hfind : h.db.cleanupJobs.find? id with
    | none =>
      rw [(hrewrite.absent id hfind).1] at hjob'
      cases hjob'
    | some job =>
      obtain ⟨job₁, hjob₁, hstep⟩ := hrewrite.row id job hfind
      cases hjob₁.symm.trans hjob'
      exact hstep.safe (hI.row id job hfind)
  · rw [jobLog_append]
    cases hfind : h.db.cleanupJobs.find? id with
    | none => rw [hI.absent id hfind, (hrewrite.absent id hfind).2, List.append_nil]
    | some job =>
      obtain ⟨job₁, hjob₁, -⟩ := hrewrite.row id job hfind
      cases hjob₁.symm.trans hnone

theorem insert (hI : QueueInvariant h) {job : CleanupJobV1} (hvalid : job.Valid)
    (hpending : job.status = .pending)
    (hinsert : h.db.cleanupJobs.insert? job = some db'.cleanupJobs) :
    QueueInvariant ⟨db', h.log ++ []⟩ := by
  have hfresh := (Table.insert?_eq_some_iff.mp hinsert).1
  rw [List.append_nil]
  refine ⟨fun id row hrow => ?_, fun id hnone => ?_⟩
  · by_cases hid : job.cleanupId = id
    · subst hid
      cases (Table.find?_insert?_self hinsert).symm.trans hrow
      have hlog : History.jobLog ⟨db', h.log⟩ job.cleanupId = [] := hI.absent _ hfresh
      rw [hlog]
      refine ⟨hvalid, fun hs => ?_, hvalid.pending hpending, fun token => ?_⟩
      · rw [hpending] at hs
        cases hs
      · simp [CleanupJobV1.leasedBy, hpending]
    · rw [Table.find?_insert?_ne hinsert hid] at hrow
      exact hI.row id row hrow
  · by_cases hid : job.cleanupId = id
    · subst hid
      rw [Table.find?_insert?_self hinsert] at hnone
      cases hnone
    · rw [Table.find?_insert?_ne hinsert hid] at hnone
      exact hI.absent id hnone

theorem step (hI : QueueInvariant h) (heffect : QueueEffect h.db db' log) :
    QueueInvariant ⟨db', h.log ++ log⟩ := by
  cases heffect with
  | rewrite hrewrite => exact hI.rewrite hrewrite
  | twice db₁ log₁ log₂ h₁ h₂ hlog =>
    rw [hlog, ← List.append_assoc]
    exact (hI.rewrite h₁).rewrite h₂
  | insert job _ hvalid hpending hinsert hlog =>
    rw [hlog]
    exact hI.insert hvalid hpending hinsert

theorem empty : QueueInvariant History.empty :=
  ⟨fun _ _ hjob => (by cases hjob), fun _ _ => rfl⟩

end QueueInvariant

section Runs

variable {α : Type} {c : Coercion α} {chunksFingerprint : List ChunkRecordV1 → String}

theorem queueInvariant_run {h : History} (hI : QueueInvariant h) (calls : List (Call α)) :
    QueueInvariant (h.run c chunksFingerprint calls) :=
  History.run_invariant (fun _ _ _ _ hI hexec => hI.step (exec_cleanupJobs hI.valid hexec)) hI calls

/-- A move of the queue keeps a finished row. -/
theorem QueueEffect.terminal {db db' : Database} {log : List Commit}
    (heffect : QueueEffect db db' log) {id : String} {job : CleanupJobV1}
    (hjob : db.cleanupJobs.find? id = some job) (hterminal : job.isTerminal = true) :
    db'.cleanupJobs.find? id = some job := by
  have hrewrite : ∀ {db₁ db₂ : Database} {new : List Commit}, QueueRewrite db₁ db₂ new →
      db₁.cleanupJobs.find? id = some job → db₂.cleanupJobs.find? id = some job := by
    intro db₁ db₂ new hrewrite hjob
    obtain ⟨job', hjob', hstep⟩ := hrewrite.row id job hjob
    rw [hjob', hstep.terminal hterminal]
  cases heffect with
  | rewrite h => exact hrewrite h hjob
  | twice db₁ log₁ log₂ h₁ h₂ _ => exact hrewrite h₂ (hrewrite h₁ hjob)
  | insert new _ _ _ hinsert _ => exact Table.find?_insert?_of_some hinsert hjob

/-- A finished row never changes. -/
theorem terminal_run {h : History} (hI : QueueInvariant h) (calls : List (Call α)) {id : String}
    {job : CleanupJobV1} (hjob : h.db.cleanupJobs.find? id = some job)
    (hterminal : job.isTerminal = true) :
    (h.run c chunksFingerprint calls).db.cleanupJobs.find? id = some job := by
  have hrun : QueueInvariant (h.run c chunksFingerprint calls) ∧
      (h.run c chunksFingerprint calls).db.cleanupJobs.find? id = some job := by
    refine History.run_invariant (I := fun h => QueueInvariant h ∧
      h.db.cleanupJobs.find? id = some job) (fun h' call db' log hI' hexec => ?_) ⟨hI, hjob⟩ calls
    have heffect := exec_cleanupJobs hI'.1.valid hexec
    exact ⟨hI'.1.step heffect, heffect.terminal hI'.2 hterminal⟩
  exact hrun.2

/-- The token a claim brings along. -/
def Call.claimToken? : Call α → Option String
  | .claimCleanup newToken _ _ => some newToken
  | _ => none

theorem exec_claims {db db' : Database} {call : Call α} {log : List Commit} (token : String)
    (h : db.exec c chunksFingerprint call = .ok (db', log)) :
    log.countP (Commit.isClaimOf token) ≤ call.claimToken?.toList.count token := by
  cases exec_committed h with
  | claimed newToken leaseSeconds now result hcall _ =>
    subst hcall
    have hexpired : (db.expiredLeases now).countP (Commit.isClaimOf token) = 0 := by
      refine List.countP_eq_zero.mpr fun commit hcommit => ?_
      obtain ⟨job, -, hcommit⟩ := List.mem_filterMap.mp hcommit
      obtain ⟨t, -, rfl⟩ := Option.map_eq_some_iff.mp hcommit
      simp [Commit.isClaimOf]
    rw [List.countP_append, hexpired, Nat.zero_add]
    cases (db.recoverLeases now).dueCleanup? now with
    | none => simp
    | some job => simp [Call.claimToken?, Commit.isClaimOf, List.count_singleton]
  | _ => exact Nat.zero_le _

/-- Every committed claim used the token of its own call. -/
theorem claims_run (calls : List (Call α)) (token : String) :
    (History.empty.run c chunksFingerprint calls).log.countP (Commit.isClaimOf token) ≤
      (calls.filterMap Call.claimToken?).count token := by
  induction calls using List.reverseRecOn with
  | nil => exact Nat.zero_le _
  | append_singleton calls call ih =>
    rw [History.run_concat, List.filterMap_append, List.count_append]
    have hone : ([call].filterMap Call.claimToken?).count token =
        call.claimToken?.toList.count token := by
      cases hc : call.claimToken? <;> simp [hc]
    unfold History.step
    split
    · rename_i db log hexec
      have := exec_claims token hexec
      rw [List.countP_append, hone]
      omega
    · omega

end Runs

/-! ### No call fails on a constraint -/

/-- What Pydantic accepts, the CHECKs accept. -/
theorem checkCleanupJob_of_valid {job : CleanupJobV1} (h : job.Valid) :
    checkCleanupJob job = true := by
  have hlease : (decide (job.status = .running) ==
      (job.leaseToken.isSome && job.leaseExpiresAt.isSome)) = true := by
    rw [beq_iff_eq, Bool.eq_iff_iff]
    simpa using h.lease
  have hpending : (decide (job.status ≠ .pending) || decide (job.attemptCount = 0)) = true := by
    have := h.pending
    by_cases hs : job.status = .pending <;> simp_all
  simp only [checkCleanupJob, h.cleanupId, h.ownerId, h.documentId, h.documentVersionId, h.attempts,
    h.maxAttempts, h.leaseToken, h.failureCode, h.failure, h.terminal, hlease, hpending,
    decide_true,
    Bool.and_self, beq_self_eq_true]

theorem enqueueCleanup_error {db : Database} (hvalid : ∀ job ∈ db.cleanupJobs.rows, job.Valid)
    {newId backend ownerId documentId documentVersionId : String} {maxAttempts : Int}
    {now : Timestamp}
    {e : PyError}
    (h : enqueueCleanup db newId backend ownerId documentId documentVersionId maxAttempts now =
      .error e) :
    cleanupCandidate newId backend ownerId documentId documentVersionId maxAttempts now = .error e ∨
      e.kind = .identityConflictError ∨ ∃ candidate,
        cleanupCandidate newId backend ownerId documentId documentVersionId maxAttempts now =
          .ok candidate ∧
        e.kind = .uniqueViolation ∧ db.cleanupJobs.find? candidate.cleanupId ≠ none := by
  unfold enqueueCleanup at h
  rcases bind_eq_error.mp h with herr | ⟨candidate, hcandidate, hsql⟩
  · exact .inl herr
  have hcheck := checkCleanupJob_of_valid (cleanupCandidate_ok hcandidate).1
  rcases bind_eq_error.mp hsql with herr | ⟨r, hinsert, hrow⟩
  · unfold insertCleanup at herr
    split at herr
    · cases herr
    rw [ensure_true_bind hcheck] at herr
    split at herr
    · cases herr
    split at herr
    · rename_i hnone
      cases herr
      exact .inr (.inr ⟨candidate, hcandidate, rfl, Table.find?_ne_none_of_insert? hnone⟩)
    · cases herr
  · cases r with
    | none =>
      cases hrow
      exact .inr (.inl rfl)
    | some r =>
      obtain ⟨db₁, row⟩ := r
      have hrowValid : row.Valid := by
        obtain ⟨-, ⟨-, hmem, -⟩ | ⟨jobs, rfl, -, -, -⟩⟩ := insertCleanup_some hinsert
        · exact hvalid row hmem
        · exact (cleanupCandidate_ok hcandidate).1
      have hrowOk : row.validate = .ok row := CleanupJobV1.validate_eq_ok.mpr ⟨rfl, hrowValid⟩
      rcases bind_eq_error.mp hrow with herr | ⟨row', -, hlast⟩
      · rw [hrowOk] at herr
        cases herr
      rcases bind_eq_error.mp hlast with herr | ⟨-, -, hret⟩
      · rw [(ensure_eq_error.mp herr).2]
        exact .inr (.inl rfl)
      · cases hret

theorem claimCleanup_error {h : History} (hI : QueueInvariant h) {newToken : ContractId}
    {leaseSeconds : Int} {now : Timestamp} {e : PyError}
    (herr : claimCleanup h.db newToken leaseSeconds now = .error e) :
    e.kind = .valueError ∨ e.kind = .overflowError := by
  have hrecovered := hI.rewrite (recoverLeases_rewrite hI.valid now)
  have hcheck : ((h.db.recoverLeases now).cleanupJobs.rows.all checkCleanupJob) = true :=
    List.all_eq_true.mpr fun job hjob => checkCleanupJob_of_valid (hrecovered.valid job hjob)
  unfold claimCleanup at herr
  rcases bind_eq_error.mp herr with hlease | ⟨-, -, herr⟩
  · rw [(ensure_eq_error.mp hlease).2]
    exact .inl rfl
  rw [ensure_true_bind hcheck] at herr
  rcases bind_eq_error.mp herr with hoverflow | ⟨-, -, herr⟩
  · rw [(ensure_eq_error.mp hoverflow).2]
    exact .inr rfl
  split at herr
  · cases herr
  · rename_i job hdue
    obtain ⟨hmem, hjob⟩ := dueCleanup?_some hdue
    have hsafe := hrecovered.row _ _ (Table.find?_key_of_mem hmem)
    have hclaimed : (job.claimed newToken (now + 1000000 * leaseSeconds) now).Valid :=
      CleanupJobV1.claimed_valid hsafe.valid (hsafe.attempt_left hjob)
    rw [ensure_true_bind (checkCleanupJob_of_valid hclaimed)] at herr
    cases herr

/-- The row that a claim commits passes the validation that follows. -/
theorem claimCleanup_result {h : History} (hI : QueueInvariant h) {newToken : ContractId}
    {leaseSeconds : Int} {now : Timestamp} {db' : Database}
    {result : Except PyError (Option CleanupJobV1)}
    (hclaim : claimCleanup h.db newToken leaseSeconds now = .ok (db', result)) :
    ∃ job?, result = .ok job? := by
  have hrecovered := hI.rewrite (recoverLeases_rewrite hI.valid now)
  obtain ⟨-, -, ⟨-, -, rfl⟩ | ⟨job, hdue, -, rfl⟩⟩ := claimCleanup_ok hclaim
  · exact ⟨none, rfl⟩
  · obtain ⟨hmem, hjob⟩ := dueCleanup?_some hdue
    have hsafe := hrecovered.row _ _ (Table.find?_key_of_mem hmem)
    have hclaimed : (job.claimed newToken (now + 1000000 * leaseSeconds) now).Valid :=
      CleanupJobV1.claimed_valid hsafe.valid (hsafe.attempt_left hjob)
    rw [CleanupJobV1.validate_eq_ok.mpr ⟨rfl, hclaimed⟩]
    exact ⟨_, rfl⟩

theorem updateLeased_error {db : Database} {cleanupId leaseToken : String}
    {f : CleanupJobV1 → CleanupJobV1} {e : PyError}
    (hf : ∀ job ∈ db.cleanupJobs.rows, (f job).Valid)
    (h : updateLeased db cleanupId leaseToken f = .error e) : e.kind = .identityConflictError := by
  unfold updateLeased at h
  split at h
  · cases h
    rfl
  · rename_i stored hstored
    have hvalid := hf stored (Table.mem_rows_of_find? (Database.leased?_eq_some.mp hstored).1)
    rw [ensure_true_bind (checkCleanupJob_of_valid hvalid),
      CleanupJobV1.validate_eq_ok.mpr ⟨rfl, hvalid⟩] at h
    cases h

theorem completeCleanup_error {db : Database} (hvalid : ∀ job ∈ db.cleanupJobs.rows, job.Valid)
    {cleanupId leaseToken : String} {now : Timestamp} {e : PyError}
    (h : completeCleanup db cleanupId leaseToken now = .error e) :
    e.kind = .identityConflictError :=
  updateLeased_error (fun job hjob => CleanupJobV1.succeededAt_valid (hvalid job hjob)) h

theorem recordCleanupFailure_error {db : Database} (hvalid : ∀ job ∈ db.cleanupJobs.rows, job.Valid)
    {cleanupId leaseToken failureCode : String} {retryAt : Datetime} {now : Timestamp} {e : PyError}
    (h : recordCleanupFailure db cleanupId leaseToken failureCode retryAt now = .error e) :
    e.kind = .valueError ∨ e.kind = .identityConflictError := by
  unfold recordCleanupFailure at h
  rcases bind_eq_error.mp h with hcode | ⟨u, hcode, h⟩
  · rw [(ensure_eq_error.mp hcode).2]
    exact .inl rfl
  rcases bind_eq_error.mp h with hoffset | ⟨-, -, h⟩
  · rw [(ensure_eq_error.mp hoffset).2]
    exact .inl rfl
  have hcode' := ensure_eq_ok.mp hcode
  exact .inr (updateLeased_error
    (fun job hjob => CleanupJobV1.attemptFailed_valid (hvalid job hjob) hcode') h)

/-- An outcome under a token that does not hold the lease is refused. -/
theorem updateLeased_stale {db : Database} {cleanupId leaseToken : String}
    {f : CleanupJobV1 → CleanupJobV1} (h : db.leased? cleanupId leaseToken = none) :
    ∃ e, updateLeased db cleanupId leaseToken f = .error e := by
  unfold updateLeased
  rw [h]
  exact ⟨_, rfl⟩

/-! ### Safety over any run -/

/-- What holds of the queue after the calls that led to `h`, whatever calls lead on to `later`. -/
structure QueueSafety {α : Type} (c : Coercion α) (chunksFingerprint : List ChunkRecordV1 → String)
    (h later : History) : Prop where
  checks : ∀ job ∈ h.db.cleanupJobs.rows, checkCleanupJob job = true ∧ job.validate = .ok job
  attempts : ∀ job ∈ h.db.cleanupJobs.rows,
    job.attemptCount = (h.jobLog job.cleanupId).countP Commit.isClaim ∧
    job.attemptCount ≤ job.maxAttempts
  retry : ∀ job ∈ h.db.cleanupJobs.rows, job.status = .retry → job.attemptCount < job.maxAttempts
  terminal : ∀ job ∈ h.db.cleanupJobs.rows, job.isTerminal = true →
    later.db.cleanupJobs.find? job.cleanupId = some job
  oneLease : ∀ id token token', h.db.leased? id token ≠ none → h.db.leased? id token' ≠ none →
    token = token'
  oneOutcome : ∀ id token, (h.jobLog id).countP (Commit.isOutcomeOf token) ≤
    (h.jobLog id).countP (Commit.isClaimOf token) ∧ h.log.countP (Commit.isClaimOf token) ≤ 1
  stale : ∀ id token, h.db.leased? id token = none →
    (∀ now, ∃ e, completeCleanup h.db id token now = .error e ∧
      h.step c chunksFingerprint (.completeCleanup id token now) = h) ∧
    ∀ code retryAt now, ∃ e, recordCleanupFailure h.db id token code retryAt now = .error e ∧
      h.step c chunksFingerprint (.recordCleanupFailure id token code retryAt now) = h
  /-- A bad argument, a version that is not `INACTIVE`, another retry policy, or a generated
  identifier that is taken; never a CHECK and never a stored row. -/
  enqueueErrors : ∀ (newId : ContractId) backend ownerId documentId documentVersionId
    maxAttempts now e, enqueueCleanup h.db newId backend ownerId documentId documentVersionId
      maxAttempts now = .error e →
    cleanupCandidate newId backend ownerId documentId documentVersionId maxAttempts now = .error e ∨
      e.kind = .identityConflictError ∨ ∃ candidate,
        cleanupCandidate newId backend ownerId documentId documentVersionId maxAttempts now =
          .ok candidate ∧
        e.kind = .uniqueViolation ∧ h.db.cleanupJobs.find? candidate.cleanupId ≠ none
  claimErrors : ∀ (newToken : ContractId) leaseSeconds now e,
    claimCleanup h.db newToken leaseSeconds now = .error e → e.kind = .valueError ∨
    e.kind = .overflowError
  claimResults : ∀ (newToken : ContractId) leaseSeconds now db' result,
    claimCleanup h.db newToken leaseSeconds now = .ok (db', result) → ∃ job?, result = .ok job?
  outcomeErrors : ∀ id token now e, completeCleanup h.db id token now = .error e →
    e.kind = .identityConflictError
  failureErrors : ∀ id token code retryAt now e,
    recordCleanupFailure h.db id token code retryAt now = .error e → e.kind = .valueError ∨
    e.kind = .identityConflictError

/-- After any calls with distinct lease tokens the queue is safe, and stays so whatever comes later.
-/
theorem cleanup_queue_safety {α : Type} (c : Coercion α)
    (chunksFingerprint : List ChunkRecordV1 → String) (calls later : List (Call α))
    (hdistinct : (calls.filterMap Call.claimToken?).Nodup) :
    QueueSafety c chunksFingerprint (History.empty.run c chunksFingerprint calls)
      ((History.empty.run c chunksFingerprint calls).run c chunksFingerprint later) := by
  have hI : QueueInvariant (History.empty.run c chunksFingerprint calls) :=
    queueInvariant_run QueueInvariant.empty calls
  generalize hh : History.empty.run c chunksFingerprint calls = h at hI
  have hsafe : ∀ job ∈ h.db.cleanupJobs.rows, JobSafe job (h.jobLog job.cleanupId) :=
    fun job hjob => hI.row _ _ (Table.find?_key_of_mem hjob)
  refine
    { checks := fun job hjob => ⟨checkCleanupJob_of_valid (hI.valid job hjob),
        CleanupJobV1.validate_eq_ok.mpr ⟨rfl, hI.valid job hjob⟩⟩
      attempts := fun job hjob => ⟨(hsafe job hjob).attempts, (hI.valid job hjob).attempts.2⟩
      retry := fun job hjob => (hsafe job hjob).retry
      terminal := fun job hjob hterminal =>
        terminal_run hI later (Table.find?_key_of_mem hjob) hterminal
      oneLease := fun id token token' htoken htoken' => ?_
      oneOutcome := fun id token => ⟨?_, ?_⟩
      stale := fun id token hnone => ⟨fun now => ?_, fun code retryAt now => ?_⟩
      enqueueErrors := fun _ _ _ _ _ _ _ _ herr => enqueueCleanup_error hI.valid herr
      claimErrors := fun _ _ _ _ herr => claimCleanup_error hI herr
      claimResults := fun _ _ _ _ _ hclaim => claimCleanup_result hI hclaim
      outcomeErrors := fun _ _ _ _ herr => completeCleanup_error hI.valid herr
      failureErrors := fun _ _ _ _ _ _ herr => recordCleanupFailure_error hI.valid herr }
  · obtain ⟨job, hjob⟩ := Option.ne_none_iff_exists'.mp htoken
    obtain ⟨job', hjob'⟩ := Option.ne_none_iff_exists'.mp htoken'
    obtain ⟨hfind, -, hlease⟩ := Database.leased?_eq_some.mp hjob
    obtain ⟨hfind', -, hlease'⟩ := Database.leased?_eq_some.mp hjob'
    cases hfind.symm.trans hfind'
    exact Option.some.inj (hlease.symm.trans hlease')
  · cases hfind : h.db.cleanupJobs.find? id with
    | none =>
      rw [hI.absent id hfind]
      exact le_refl 0
    | some job => exact le_trans (Nat.le_add_right _ _) ((hI.row id job hfind).outcomes token)
  · rw [← hh]
    exact (claims_run calls token).trans (List.nodup_iff_count_le_one.mp hdistinct token)
  · obtain ⟨e, he⟩ := updateLeased_stale (f := fun job => job.succeededAt now) hnone
    refine ⟨e, he, History.step_error (e := e) ?_⟩
    exact bind_eq_error.mpr (.inl he)
  · obtain ⟨e, he⟩ : ∃ e, recordCleanupFailure h.db id token code retryAt now = .error e := by
      unfold recordCleanupFailure
      obtain ⟨e, he⟩ :=
        updateLeased_stale (f := fun job => job.attemptFailed code retryAt.instant now) hnone
      cases contractIdPattern code <;> cases retryAt.hasOffset
      · exact ⟨_, rfl⟩
      · exact ⟨_, rfl⟩
      · exact ⟨_, rfl⟩
      · exact ⟨e, he⟩
    refine ⟨e, he, History.step_error (e := e) ?_⟩
    exact bind_eq_error.mpr (.inl he)

/-- A job whose first lease runs out: the late outcome of the first worker comes after the second
claim. -/
def takenOverCalls : List (Call Empty) :=
  let sha := String.ofList (List.replicate 64 'a')
  let at' (t : Timestamp) : Datetime := ⟨t, true⟩
  [.registerDocument (fixedId "document_1") "owner_1" "paper_1" "uploaded" "mapping_v1" (at' 0)
    (at' 0), .registerVersion (fixedId "version_1") "owner_1" "document_1" sha sha "parse_v1" 1,
    .transitionVersion "owner_1" "version_1" 1 .inactive [(.time .deleteTime, .datetime (at' 2))] 2,
    .enqueueCleanup (fixedId "cleanup_1") "milvus_vectors" "owner_1" "document_1" "version_1" 5 3,
    .claimCleanup (fixedId "lease_1") 1 4, .claimCleanup (fixedId "lease_2") 300 2000000,
    .completeCleanup "cleanup_1" "lease_1" 2000001, .completeCleanup "cleanup_1" "lease_2" 2000002]

theorem cleanup_queue_safety_taken_over :
    ((History.empty.run noCoercion (fun _ => "") takenOverCalls).db.cleanupJobs.rows.map fun job =>
      (job.status, job.attemptCount)) = [(.succeeded, 2)] ∧
    QueueSafety noCoercion (fun _ => "") (History.empty.run noCoercion (fun _ => "") takenOverCalls)
      ((History.empty.run noCoercion (fun _ => "") takenOverCalls).run noCoercion
        (fun _ => "") []) :=
  ⟨by decide +kernel, cleanup_queue_safety noCoercion (fun _ => "") takenOverCalls [] (by decide)⟩

end ZhiyanRag.Storage
