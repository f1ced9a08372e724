import ZhiyanRag.Base
import ZhiyanRag.Lib.Steps
import ZhiyanRag.Lib.Table

/-!
# Schema migrations

`apply_fact_source_migration` is one transaction: it walks through the migrations of its repository
in order, executes those that the ledger does not have and records each with its checksum. Any
number of calls run at once, from repositories of different age, and every statement can raise. The
unique key of the ledger makes all but one of them wait and then fail, so a script is committed
once, and the ledger stays in the repository's order.
-/

namespace ZhiyanRag.Storage

open Relational Steps

/-! ### The call -/

/-- An entry of `MIGRATION_PATHS` with what is in its file. -/
structure Migration where
  migrationId : String
  script : String
  deriving DecidableEq

/-- `MIGRATION_PATHS`. -/
structure MigrationPaths where
  entries : List Migration
  distinct : (entries.map (·.migrationId)).Nodup

def MigrationPaths.ids (paths : MigrationPaths) : List String := paths.entries.map (·.migrationId)

/-- A row of `rag_schema_migrations`. -/
structure AppliedMigration where
  migrationId : String
  sha256 : String
  deriving DecidableEq

/-- The committed ledger and the committed scripts, in order, and the ledger keys of open
transactions. -/
structure MigrationStore where
  ledger : Table AppliedMigration.migrationId
  executed : List Migration
  held : List String

inductive MigrationError
  | migrationDrift
  | database (e : PyError)
  deriving DecidableEq

/-- Where a call stands: the migrations it has still to look at, and those that its transaction has
executed and recorded. -/
inductive MigrationState
  | start
  | scanning (remaining recorded : List Migration)
  | executing (migration : Migration) (remaining recorded : List Migration)
  | recording (migration : Migration) (remaining recorded : List Migration)
  | committing (recorded : List Migration)
  | returned (applied : Bool)
  | raised (e : MigrationError)

structure MigrationCall where
  paths : MigrationPaths
  state : MigrationState

/-- What the transaction has recorded. -/
def MigrationState.recorded : MigrationState → List Migration
  | scanning _ recorded | executing _ _ recorded | recording _ _ recorded | committing recorded =>
    recorded
  | start | returned _ | raised _ => []

section

variable (sha256 : String → String)

/-- The row that is recorded for a migration. -/
def Migration.row (migration : Migration) : AppliedMigration :=
  ⟨migration.migrationId, sha256 migration.script⟩

/-- The transaction ends: its keys are free. -/
def MigrationStore.release (s : MigrationStore) (recorded : List Migration) : MigrationStore :=
  { s with held := s.held.filter fun id => decide (id ∉ recorded.map (·.migrationId)) }

/-- `commit`. -/
def MigrationStore.commit (s : MigrationStore) (recorded : List Migration) : MigrationStore :=
  { s.release recorded with
    ledger := recorded.foldl (fun ledger migration => ledger.upsert (migration.row sha256)) s.ledger
    executed := s.executed ++ recorded }

/-- The next statement, if it does not raise; `none` while it waits for another transaction. -/
def MigrationCall.proceed (s : MigrationStore) (call : MigrationCall) :
    Option (MigrationStore × MigrationState) :=
  match call.state with
  | .start => some (s, .scanning call.paths.entries [])
  | .scanning [] recorded => some (s, .committing recorded)
  | .scanning (migration :: remaining) recorded =>
    match s.ledger.find? migration.migrationId with
    | none => some (s, .executing migration remaining recorded)
    | some existing =>
      if existing.sha256 = sha256 migration.script then some (s, .scanning remaining recorded)
      else some (s.release recorded, .raised .migrationDrift)
  | .executing migration remaining recorded => some (s, .recording migration remaining recorded)
  | .recording migration remaining recorded =>
    -- the key is in another transaction's index entry
    if migration.migrationId ∈ s.held then none
    else if (s.ledger.find? migration.migrationId).isSome then
      some (s.release recorded,
        .raised (.database ⟨.uniqueViolation, "rag_schema_migrations_pkey"⟩))
    else some ({ s with held := s.held ++ [migration.migrationId] },
      .scanning remaining (recorded ++ [migration]))
  | .committing recorded => some (s.commit sha256 recorded, .returned !recorded.isEmpty)
  | .returned _ | .raised _ => none

/-- One step of a call: the next statement, or the error it raises. -/
def MigrationCall.step (s : MigrationStore) (call : MigrationCall) :
    Option PyError → Option (MigrationStore × MigrationCall)
  | none => (call.proceed sha256 s).map fun r => (r.1, { call with state := r.2 })
  | some e =>
    match call.state with
    | .returned _ | .raised _ => none
    | state => some (s.release state.recorded, { call with state := .raised (.database e) })

def MigrationCall.canStart (_ : Pool MigrationStore MigrationCall) (call : MigrationCall) : Bool :=
  match call.state with
  | .start => true
  | _ => false

abbrev migrationStep (p : Pool MigrationStore MigrationCall)
    (label : PoolLabel MigrationCall (Option PyError)) :
    Option (Pool MigrationStore MigrationCall) :=
  p.step MigrationCall.canStart (MigrationCall.step sha256) label

/-- A database without a ledger. -/
def MigrationStore.empty : MigrationStore := ⟨Table.empty, [], []⟩

/-! ### What the calls know -/

/-- What a call has been through: each migration before those that remain is in the ledger with its
checksum, or recorded by the call itself. -/
def MigrationStore.Passed (s : MigrationStore) (passed recorded : List Migration) : Prop :=
  recorded = passed.filter (fun migration => (s.ledger.find? migration.migrationId).isNone) ∧
    ∀ migration ∈ passed, ∀ row, s.ledger.find? migration.migrationId = some row →
    row = migration.row sha256

/-- Of the migrations of a call, those before `rest` have been passed. -/
def MigrationCall.At (s : MigrationStore) (call : MigrationCall)
    (rest recorded : List Migration) : Prop :=
  ∃ passed, call.paths.entries = passed ++ rest ∧ s.Passed sha256 passed recorded

def MigrationCall.Knows (s : MigrationStore) (call : MigrationCall) : Prop :=
  match call.state with
  | .start | .raised _ => True
  | .scanning remaining recorded => call.At sha256 s remaining recorded
  | .executing migration remaining recorded | .recording migration remaining recorded =>
    call.At sha256 s (migration :: remaining) recorded
  | .committing recorded => call.At sha256 s [] recorded
  | .returned _ => ∀ migration ∈ call.paths.entries, s.ledger.find? migration.migrationId =
      some (migration.row sha256)

/-- The keys of an open transaction are held, and what it has recorded is not committed. -/
structure MigrationCall.Holds (s : MigrationStore) (call : MigrationCall) : Prop where
  held : ∀ migration ∈ call.state.recorded, migration.migrationId ∈ s.held
  knows : call.Knows sha256 s

/-- The two transactions have recorded different migrations. -/
def MigrationCall.Apart (call other : MigrationCall) : Prop :=
  ∀ a ∈ call.state.recorded, ∀ b ∈ other.state.recorded, a.migrationId ≠ b.migrationId

/-- The ledger has a row for each committed script, in their order, and the order is that of the
newest repository. -/
structure MigrationStore.Sound (newest : List String) (s : MigrationStore) : Prop where
  recorded : s.ledger.rows = s.executed.map (·.row sha256)
  ordered : s.ledger.rows.map (·.migrationId) <+: newest

def migrationAssertions (newest : List String) : Assertions MigrationStore MigrationCall where
  world s := s.Sound sha256 newest
  thread s call := call.Holds sha256 s ∧ call.paths.ids <+: newest
  pair _ call other := call.Apart other

/-- The repository of a call that starts has the first of the newest migrations. -/
def FollowsNewest (newest : List String) (_ : Pool MigrationStore MigrationCall) :
    PoolLabel MigrationCall (Option PyError) → Prop
  | .spawn call => call.paths.ids <+: newest
  | .act .. => True

instance (newest : List String) (p : Pool MigrationStore MigrationCall)
    (label : PoolLabel MigrationCall (Option PyError)) :
    Decidable (FollowsNewest newest p label) :=
  match label with
  | .spawn call => inferInstanceAs (Decidable (call.paths.ids <+: newest))
  | .act .. => inferInstanceAs (Decidable True)

end

/-! ### One step -/

section

variable {sha256 : String → String} {s s' : MigrationStore} {call call' : MigrationCall}
  {newest : List String}

/-- A call that starts or has ended. -/
theorem holds_of_no_record (hrecorded : call.state.recorded = []) (hknows : call.Knows sha256 s) :
    call.Holds sha256 s where
  held migration hmigration := by
    rw [hrecorded] at hmigration
    cases hmigration
  knows := hknows

theorem apart_of_no_record {other : MigrationCall} (hrecorded : call.state.recorded = []) :
    call.Apart other := by
  intro a ha
  rw [hrecorded] at ha
  cases ha

theorem MigrationCall.Apart.symm {other : MigrationCall} (h : call.Apart other) :
    other.Apart call := fun a ha b hb heq => h b hb a ha heq.symm

/-- All that a step can do. -/
inductive MigrationCall.Progress (sha256 : String → String) (s : MigrationStore)
    (call : MigrationCall) : MigrationStore → MigrationCall → Prop
  | raised (e : MigrationError) :
      Progress sha256 s call (s.release call.state.recorded) { call with state := .raised e }
  | moved (state : MigrationState) (hrecorded : state.recorded = call.state.recorded)
      (hknows : call.Knows sha256 s → ({ call with state := state } : MigrationCall).Knows sha256 s)
      (hopen : ∀ applied, state ≠ .returned applied) :
      Progress sha256 s call s { call with state := state }
  | recorded (migration : Migration) (remaining recorded : List Migration)
      (hstate : call.state = .recording migration remaining recorded)
      (hfree : migration.migrationId ∉ s.held)
      (hnew : s.ledger.find? migration.migrationId = none) :
      Progress sha256 s call { s with held := s.held ++ [migration.migrationId] }
        { call with state := .scanning remaining (recorded ++ [migration]) }
  | committed (recorded : List Migration) (hstate : call.state = .committing recorded) :
      Progress sha256 s call (s.commit sha256 recorded)
        { call with state := .returned !recorded.isEmpty }

/-- A migration that the ledger has, with its checksum, is passed. -/
theorem MigrationCall.At.skip {migration : Migration} {remaining recorded : List Migration}
    {existing : AppliedMigration} (h : call.At sha256 s (migration :: remaining) recorded)
    (hfound : s.ledger.find? migration.migrationId = some existing)
    (hsame : existing.sha256 = sha256 migration.script) : call.At sha256 s remaining recorded := by
  obtain ⟨passed, hentries, rfl, hrows⟩ := h
  refine ⟨passed ++ [migration], by rw [hentries, List.append_assoc]; rfl, ?_,
    fun other hother row hrow => ?_⟩
  · rw [List.filter_append, List.filter_singleton, hfound]
    exact (List.append_nil _).symm
  · rcases List.mem_append.mp hother with hother | hother
    · exact hrows other hother row hrow
    · cases List.mem_singleton.mp hother
      cases hfound.symm.trans hrow
      have hid := Table.key_of_find? hfound
      cases existing
      cases hid
      cases hsame
      rfl

/-- So is one that the call records. -/
theorem MigrationCall.At.record {migration : Migration} {remaining recorded : List Migration}
    (h : call.At sha256 s (migration :: remaining) recorded)
    (hnew : s.ledger.find? migration.migrationId = none) :
    call.At sha256 s remaining (recorded ++ [migration]) := by
  obtain ⟨passed, hentries, rfl, hrows⟩ := h
  refine ⟨passed ++ [migration], by rw [hentries, List.append_assoc]; rfl, ?_,
    fun other hother row hrow => ?_⟩
  · rw [List.filter_append, List.filter_singleton, hnew]
    rfl
  · rcases List.mem_append.mp hother with hother | hother
    · exact hrows other hother row hrow
    · cases List.mem_singleton.mp hother
      cases hnew.symm.trans hrow

theorem step_migrationProgress {choice : Option PyError}
    (h : call.step sha256 s choice = some (s', call')) : call.Progress sha256 s s' call' := by
  cases choice with
  | some e =>
    obtain ⟨paths, state⟩ := call
    cases state with
    | returned applied => cases h
    | raised e => cases h
    | start | scanning remaining recorded | executing migration remaining recorded
    | recording migration remaining recorded | committing recorded =>
      cases h
      exact .raised _
  | none =>
    obtain ⟨⟨next, state⟩, hproceed, hnext⟩ := Option.map_eq_some_iff.mp h
    cases hnext
    obtain ⟨paths, current⟩ := call
    unfold MigrationCall.proceed at hproceed
    cases current with
    | start =>
      cases hproceed
      exact .moved _ rfl (fun _ => ⟨[], rfl, rfl, fun _ hm => absurd hm List.not_mem_nil⟩)
        fun _ h => by cases h
    | scanning remaining recorded =>
      cases remaining with
      | nil =>
        cases hproceed
        exact .moved _ rfl id fun _ h => by cases h
      | cons migration remaining =>
        dsimp only at hproceed
        split at hproceed
        · cases hproceed
          exact .moved _ rfl id fun _ h => by cases h
        · rename_i existing hfound
          split at hproceed
          · rename_i hsame
            cases hproceed
            exact .moved _ rfl (fun hknows => MigrationCall.At.skip hknows hfound hsame)
              fun _ h => by cases h
          · cases hproceed
            exact .raised _
    | executing migration remaining recorded =>
      cases hproceed
      exact .moved _ rfl id fun _ h => by cases h
    | recording migration remaining recorded =>
      dsimp only at hproceed
      split at hproceed
      · cases hproceed
      · rename_i hfree
        split at hproceed
        · cases hproceed
          exact .raised _
        · rename_i hnew
          cases hproceed
          exact .recorded migration remaining recorded rfl hfree
            (Option.not_isSome_iff_eq_none.mp hnew)
    | committing recorded =>
      cases hproceed
      exact .committed recorded rfl
    | returned applied => cases hproceed
    | raised e => cases hproceed

/-! ### A commit -/

/-- What a call at its end has recorded. -/
theorem MigrationCall.At.recorded_eq {recorded : List Migration}
    (h : call.At sha256 s [] recorded) :
    recorded = call.paths.entries.filter
      (fun migration => (s.ledger.find? migration.migrationId).isNone) ∧
      ∀ migration ∈ call.paths.entries, ∀ row, s.ledger.find? migration.migrationId = some row →
      row = migration.row sha256 := by
  obtain ⟨passed, hentries, hpassed⟩ := h
  rw [List.append_nil] at hentries
  rw [hentries]
  exact hpassed

theorem rows_commit {recorded : List Migration} (h : call.At sha256 s [] recorded) :
    (s.commit sha256 recorded).ledger.rows = s.ledger.rows ++ recorded.map (·.row sha256) := by
  obtain ⟨rfl, -⟩ := h.recorded_eq
  refine Table.rows_upserts_of_fresh ?_ fun migration hmigration => Option.isNone_iff_eq_none.mp
    (List.mem_filter.mp hmigration).2
  exact (List.filter_sublist.map _).nodup call.paths.distinct

/-- The keys of others are found as before. -/
theorem find?_commit {recorded : List Migration} (h : call.At sha256 s [] recorded) {id : String}
    (hid : ∀ migration ∈ recorded, migration.migrationId ≠ id) :
    (s.commit sha256 recorded).ledger.find? id = s.ledger.find? id := by
  refine Option.ext fun row => ?_
  rw [Table.find?_eq_some_iff, Table.find?_eq_some_iff, rows_commit h, List.mem_append,
    List.mem_map]
  constructor
  · rintro ⟨hmem | ⟨migration, hmigration, rfl⟩, rfl⟩
    · exact ⟨hmem, rfl⟩
    · exact absurd rfl (hid migration hmigration)
  · exact fun ⟨hmem, hkey⟩ => ⟨.inl hmem, hkey⟩

/-- A row that is there stays. -/
theorem commit_keeps {recorded : List Migration} (h : call.At sha256 s [] recorded) {id : String}
    {row : AppliedMigration} (hrow : s.ledger.find? id = some row) :
    (s.commit sha256 recorded).ledger.find? id = some row := by
  obtain ⟨hmem, rfl⟩ := Table.find?_eq_some_iff.mp hrow
  refine Table.find?_eq_some_iff.mpr ⟨?_, rfl⟩
  rw [rows_commit h]
  exact List.mem_append_left _ hmem

/-- After the commit of a call its migrations are in the ledger. -/
theorem commit_returned {recorded : List Migration} (h : call.At sha256 s [] recorded) :
    ∀ migration ∈ call.paths.entries,
      (s.commit sha256 recorded).ledger.find? migration.migrationId =
        some (migration.row sha256) := by
  intro migration hmigration
  obtain ⟨hrecorded, hrows⟩ := h.recorded_eq
  cases hfound : s.ledger.find? migration.migrationId with
  | some row => rw [commit_keeps h hfound, hrows migration hmigration row hfound]
  | none =>
    refine Table.find?_eq_some_iff.mpr ⟨?_, rfl⟩
    rw [rows_commit h, hrecorded]
    refine List.mem_append_right _ (List.mem_map_of_mem (List.mem_filter.mpr ⟨hmigration, ?_⟩))
    rw [hfound]
    rfl

/-- Of a list that has the same beginning as the ledger, what the ledger lacks comes after it. -/
theorem filter_new_of_prefix {ledger ids : List String} (hledger : ledger <+: newest)
    (hids : ids <+: newest) (hdistinct : ids.Nodup) :
    ledger ++ ids.filter (fun id => decide (id ∉ ledger)) <+: newest := by
  rcases List.prefix_or_prefix_of_prefix hledger hids with ⟨rest, rfl⟩ | hshort
  · have hrest : rest.filter (fun id => decide (id ∉ ledger)) = rest :=
      List.filter_eq_self.mpr fun id hid =>
      decide_eq_true fun hmem => (List.nodup_append.mp hdistinct).2.2 id hmem id hid rfl
    rw [List.filter_append, List.filter_eq_nil_iff.mpr fun id hid => by simpa using hid,
      List.nil_append, hrest]
    exact hids
  · rw [List.filter_eq_nil_iff.mpr fun id hid => by simpa using hshort.subset hid, List.append_nil]
    exact hledger

theorem MigrationStore.Sound.commit (hs : s.Sound sha256 newest) {recorded : List Migration}
    (h : call.At sha256 s [] recorded) (hpaths : call.paths.ids <+: newest) :
    (s.commit sha256 recorded).Sound sha256 newest where
  recorded := by
    rw [rows_commit h, hs.recorded]
    exact (List.map_append ..).symm
  ordered := by
    rw [rows_commit h, List.map_append, List.map_map]
    have hnew : recorded.map (AppliedMigration.migrationId ∘ Migration.row sha256) =
        call.paths.ids.filter fun id => decide (id ∉ s.ledger.rows.map (·.migrationId)) := by
      obtain ⟨rfl, -⟩ := h.recorded_eq
      unfold MigrationPaths.ids
      rw [List.filter_map]
      refine congrArg (List.map _) (List.filter_congr fun migration _ => ?_)
      rw [Function.comp_apply, Bool.eq_iff_iff, decide_eq_true_eq, Table.mem_keys_iff,
        Option.isNone_iff_eq_none, Option.not_isSome_iff_eq_none]
    rw [hnew]
    exact filter_new_of_prefix hs.ordered hpaths call.paths.distinct

/-! ### Any number of calls -/

theorem MigrationCall.Progress.own (h : call.Progress sha256 s s' call')
    (hs : s.Sound sha256 newest) (hcall : call.Holds sha256 s)
    (hpaths : call.paths.ids <+: newest) :
    s'.Sound sha256 newest ∧ call'.Holds sha256 s' ∧ call'.paths.ids <+: newest := by
  cases h with
  | raised e => exact ⟨⟨hs.recorded, hs.ordered⟩, holds_of_no_record rfl trivial, hpaths⟩
  | moved state hrecorded hknows hopen =>
    refine ⟨hs, ⟨fun migration hmigration => ?_, hknows hcall.knows⟩, hpaths⟩
    change migration ∈ state.recorded at hmigration
    rw [hrecorded] at hmigration
    exact hcall.held migration hmigration
  | recorded migration remaining recorded hstate hfree hnew =>
    obtain ⟨paths, state⟩ := call
    obtain rfl : state = .recording migration remaining recorded := hstate
    refine ⟨⟨hs.recorded, hs.ordered⟩,
      ⟨fun other hother => ?_, MigrationCall.At.record hcall.knows hnew⟩, hpaths⟩
    rcases List.mem_append.mp hother with hother | hother
    · exact List.mem_append_left _ (hcall.held other hother)
    · cases List.mem_singleton.mp hother
      exact List.mem_append_right _ (List.mem_singleton.mpr rfl)
  | committed recorded hstate =>
    obtain ⟨paths, state⟩ := call
    obtain rfl : state = .committing recorded := hstate
    exact ⟨hs.commit hcall.knows hpaths,
      holds_of_no_record rfl (commit_returned hcall.knows), hpaths⟩

/-- The keys of another transaction stay held when one ends. -/
theorem held_release {other : MigrationCall} (hother : other.Holds sha256 s)
    (hapart : call.Apart other) :
    ∀ migration ∈ other.state.recorded,
      migration.migrationId ∈ (s.release call.state.recorded).held := by
  intro migration hmigration
  refine List.mem_filter.mpr ⟨hother.held migration hmigration, decide_eq_true fun hmem => ?_⟩
  obtain ⟨own, hown, hid⟩ := List.mem_map.mp hmem
  exact hapart own hown migration hmigration hid

/-- What others commit is not what a call has recorded, and the rest of what it has passed was in
the ledger before. -/
theorem passed_commit {passed own recorded : List Migration} (h : call.At sha256 s [] recorded)
    (hapart : ∀ a ∈ recorded, ∀ b ∈ own, a.migrationId ≠ b.migrationId)
    (hpassed : s.Passed sha256 passed own) :
    (s.commit sha256 recorded).Passed sha256 passed own := by
  obtain ⟨rfl, hrows⟩ := hpassed
  have hnew : ∀ migration ∈ passed, s.ledger.find? migration.migrationId = none →
      (s.commit sha256 recorded).ledger.find? migration.migrationId = none := by
    intro migration hmigration hnone
    rw [find?_commit h fun a ha => hapart a ha migration
      (List.mem_filter.mpr ⟨hmigration, by rw [hnone]; rfl⟩), hnone]
  refine ⟨List.filter_congr fun migration hmigration => ?_, fun migration hmigration row hrow => ?_⟩
  · cases hfound : s.ledger.find? migration.migrationId with
    | none => rw [hnew migration hmigration hfound]
    | some stored => rw [commit_keeps h hfound]
  · cases hfound : s.ledger.find? migration.migrationId with
    | none => cases (hnew migration hmigration hfound).symm.trans hrow
    | some stored =>
      cases (commit_keeps h hfound).symm.trans hrow
      exact hrows migration hmigration _ hfound

theorem MigrationCall.Holds.commit {other : MigrationCall} {recorded : List Migration}
    (hother : other.Holds sha256 s) (h : call.At sha256 s [] recorded)
    (hstate : call.state.recorded = recorded) (hapart : call.Apart other) :
    other.Holds sha256 (s.commit sha256 recorded) := by
  have hheld := held_release hother hapart
  rw [hstate] at hheld
  refine ⟨hheld, ?_⟩
  have hknows := hother.knows
  unfold MigrationCall.Apart at hapart
  rw [hstate] at hapart
  obtain ⟨paths, state⟩ := other
  cases state with
  | start | raised e => trivial
  | scanning remaining own | executing migration remaining own | recording migration remaining own
  | committing own =>
    obtain ⟨passed, hentries, hpassed⟩ := hknows
    exact ⟨passed, hentries, passed_commit h hapart hpassed⟩
  | returned applied =>
    exact fun migration hmigration => commit_keeps h (hknows migration hmigration)

theorem MigrationCall.Progress.other {other : MigrationCall} (h : call.Progress sha256 s s' call')
    (hcall : call.Holds sha256 s) (hother : other.Holds sha256 s) (hapart : call.Apart other) :
    other.Holds sha256 s' ∧ call'.Apart other := by
  cases h with
  | raised e => exact ⟨⟨held_release hother hapart, hother.knows⟩, apart_of_no_record rfl⟩
  | moved state hrecorded hknows hopen =>
    refine ⟨hother, ?_⟩
    unfold MigrationCall.Apart at hapart ⊢
    dsimp only
    rw [hrecorded]
    exact hapart
  | recorded migration remaining recorded hstate hfree hnew =>
    refine ⟨⟨fun own hown => List.mem_append_left _ (hother.held own hown), hother.knows⟩,
      fun a ha b hb => ?_⟩
    rcases List.mem_append.mp ha with ha | ha
    · refine hapart a ?_ b hb
      rw [hstate]
      exact ha
    · cases List.mem_singleton.mp ha
      exact fun heq => hfree (heq ▸ hother.held b hb)
  | committed recorded hstate =>
    refine ⟨hother.commit ?_ (by rw [hstate]; rfl) hapart, apart_of_no_record rfl⟩
    have hknows := hcall.knows
    unfold MigrationCall.Knows at hknows
    rw [hstate] at hknows
    exact hknows

theorem migration_outline (newest : List String) :
    Outline MigrationCall.canStart (MigrationCall.step sha256) (FollowsNewest newest)
      (migrationAssertions sha256 newest) where
  spawn p t _ hfollows hstart := by
    obtain ⟨paths, state⟩ := t
    cases state with
    | start =>
      exact ⟨⟨holds_of_no_record rfl trivial, hfollows⟩,
        fun j u _ => ⟨apart_of_no_record rfl, (apart_of_no_record rfl).symm⟩⟩
    | _ => cases hstart
  own p i choice t s' t' hp _ ht hstep := by
    obtain ⟨hholds, hpaths⟩ := hp.thread i t ht
    exact (step_migrationProgress hstep).own hp.world hholds hpaths
  other p i choice t s' t' j u hp _ ht hstep hij hu := by
    obtain ⟨hholds, hapart⟩ := (step_migrationProgress hstep).other (hp.thread i t ht).1
      (hp.thread j u hu).1 (hp.pair i j t u hij ht hu)
    exact ⟨⟨hholds, (hp.thread j u hu).2⟩, hapart, hapart.symm⟩
  rest p _ _ _ _ _ j k u v hp _ _ _ _ _ hjk hu hv := hp.pair j k u v hjk hu hv

/-- Each committed script is that of a call that returned `True`. -/
def Attributed (p : Pool MigrationStore MigrationCall) : Prop :=
  ∀ migration ∈ p.world.executed, ∃ (i : Nat) (call : MigrationCall),
    p.threads[i]? = some call ∧ call.state = .returned true ∧ migration ∈ call.paths.entries

theorem attributed_step {p q : Pool MigrationStore MigrationCall}
    {label : PoolLabel MigrationCall (Option PyError)}
    (hp : (migrationAssertions sha256 newest).Holds p) (hattributed : Attributed p)
    (h : migrationStep sha256 p label = some q) : Attributed q := by
  cases label with
  | spawn t =>
    obtain ⟨-, rfl⟩ := Pool.step_spawn h
    intro migration hmigration
    obtain ⟨i, call, hi, hcall⟩ := hattributed migration hmigration
    exact ⟨i, call, (List.getElem?_append_left (List.getElem?_eq_some_iff.mp hi).1).trans hi, hcall⟩
  | act j choice =>
    obtain ⟨t, s', t', ht, hstep, rfl⟩ := Pool.step_act h
    -- a call that has returned takes no step
    have hother : ∀ (i : Nat) (call : MigrationCall), p.threads[i]? = some call →
        call.state = .returned true → (p.threads.set j t')[i]? = some call := by
      intro i call hi hreturned
      have hij : j ≠ i := by
        rintro rfl
        cases ht.symm.trans hi
        unfold MigrationCall.step MigrationCall.proceed at hstep
        rw [hreturned] at hstep
        cases choice <;> cases hstep
      exact (List.getElem?_set_ne hij).trans hi
    have hkept : ∀ migration ∈ p.world.executed, ∃ (i : Nat) (call : MigrationCall),
        (p.threads.set j t')[i]? = some call ∧ call.state = .returned true ∧
        migration ∈ call.paths.entries := by
      intro migration hmigration
      obtain ⟨i, call, hi, hreturned, hentry⟩ := hattributed migration hmigration
      exact ⟨i, call, hother i call hi hreturned, hreturned, hentry⟩
    have hprogress := step_migrationProgress hstep
    cases hprogress with
    | raised e => exact hkept
    | moved state _ _ _ => exact hkept
    | recorded migration remaining recorded _ _ _ => exact hkept
    | committed recorded hstate =>
      intro migration hmigration
      rcases List.mem_append.mp hmigration with hmigration | hmigration
      · exact hkept migration hmigration
      · have hknows := (hp.thread j t ht).1.knows
        unfold MigrationCall.Knows at hknows
        rw [hstate] at hknows
        refine ⟨j, _, List.getElem?_set_self (List.getElem?_eq_some_iff.mp ht).1, ?_, ?_⟩
        · cases recorded with
          | nil => cases hmigration
          | cons first rest => rfl
        · obtain ⟨rfl, -⟩ := MigrationCall.At.recorded_eq hknows
          exact List.mem_of_mem_filter hmigration

/-- However calls of older and newer repositories overlap and fail, the committed scripts are the
first of the newest repository's migrations, each once and in its order; each is that of a call that
returned, and a call that has returned finds all its own. -/
theorem migrations_in_order (sha256 : String → String) (newest : List String)
    {labels : List (PoolLabel MigrationCall (Option PyError))}
    {p : Pool MigrationStore MigrationCall}
    (hrun : GuardedRun (migrationStep sha256) (FollowsNewest newest) ⟨.empty, []⟩ labels p) :
    p.world.executed.map (·.migrationId) <+: newest ∧ (p.world.executed.map (·.migrationId)).Nodup ∧
      p.world.ledger.rows = p.world.executed.map (·.row sha256) ∧
      (∀ migration ∈ p.world.executed, ∃ call ∈ p.threads, call.state = .returned true ∧
        migration ∈ call.paths.entries) ∧
      ∀ call ∈ p.threads, ∀ applied, call.state = .returned applied →
        ∀ migration ∈ call.paths.entries, migration.row sha256 ∈ p.world.ledger.rows := by
  have hempty : (migrationAssertions sha256 newest).Holds ⟨.empty, []⟩ :=
    Assertions.holds_nil ⟨rfl, List.nil_prefix⟩
  have hholds := (migration_outline newest).holds_of_run hrun hempty
  have hids : p.world.executed.map (·.migrationId) = p.world.ledger.rows.map (·.migrationId) := by
    rw [hholds.world.recorded, List.map_map]
    rfl
  refine ⟨hids ▸ hholds.world.ordered, hids ▸ p.world.ledger.nodup, hholds.world.recorded, ?_,
    fun call hcall applied hreturned migration hmigration => ?_⟩
  · have hattributed : (migrationAssertions sha256 newest).Holds p ∧ Attributed p := by
      refine hrun.invariant (I := fun q => (migrationAssertions sha256 newest).Holds q ∧
        Attributed q) (fun q label q' hq hguard hstep => ?_)
          ⟨hempty, fun migration hmigration => absurd hmigration List.not_mem_nil⟩
      have honly : GuardedRun (migrationStep sha256) (FollowsNewest newest) q [label] q' :=
        .cons hguard hstep (.nil q')
      exact ⟨(migration_outline newest).holds_of_run honly hq.1, attributed_step hq.1 hq.2 hstep⟩
    intro migration hmigration
    obtain ⟨i, call, hi, hcall⟩ := hattributed.2 migration hmigration
    exact ⟨call, List.mem_of_getElem? hi, hcall⟩
  · obtain ⟨i, hi⟩ := List.mem_iff_getElem?.mp hcall
    have hknows := (hholds.thread i call hi).1.knows
    unfold MigrationCall.Knows at hknows
    rw [hreturned] at hknows
    exact Table.mem_rows_of_find? (hknows migration hmigration)

end

/-! ### An upgrade during a migration -/

def firstMigrations : MigrationPaths := ⟨[⟨"0001", "CREATE TABLE a ()"⟩], by decide⟩

def allMigrations : MigrationPaths :=
  ⟨[⟨"0001", "CREATE TABLE a ()"⟩, ⟨"0002", "CREATE TABLE b ()"⟩], by decide⟩

/-- The old and the new repository migrate at once: the new one is second with the first script,
fails, and is called again. -/
def overlappingMigrations : List (PoolLabel MigrationCall (Option PyError)) :=
  [.spawn ⟨firstMigrations, .start⟩, .spawn ⟨allMigrations, .start⟩, .act 0 none, .act 1 none,
    .act 0 none, .act 1 none, .act 0 none, .act 0 none, .act 1 none, .act 0 none, .act 0 none,
    .act 1 none, .spawn ⟨allMigrations, .start⟩] ++ List.replicate 7 (.act 2 none)

def overlapped : Option (Pool MigrationStore MigrationCall) :=
  guardedRun? (migrationStep id) (FollowsNewest ["0001", "0002"]) ⟨.empty, []⟩ overlappingMigrations

theorem migrations_in_order_overlapping :
    ∃ p, overlapped = some p ∧ p.world.executed = allMigrations.entries ∧
    p.world.ledger.rows = p.world.executed.map (·.row id) := by
  have hexecuted : overlapped.map (·.world.executed) = some allMigrations.entries := by
    decide +kernel
  obtain ⟨p, hp, hentries⟩ := Option.map_eq_some_iff.mp hexecuted
  obtain ⟨-, -, hledger, -⟩ := migrations_in_order id ["0001", "0002"] (GuardedRun.of_eval hp)
  exact ⟨p, hp, hentries, hledger⟩

end ZhiyanRag.Storage
