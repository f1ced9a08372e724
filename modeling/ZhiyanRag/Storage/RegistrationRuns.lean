import ZhiyanRag.Storage.RegistrationSafety

/-!
# Runs of registration calls

The outline of any number of registration calls over one database: open transactions hold different
keys, so each can still commit, and a commit only extends the tables. What the calls return then
agrees, and only a call that returns has changed a table.
-/

namespace ZhiyanRag.Storage

open Relational Steps

variable {s s' : Store} {t t' u : Session}

/-! ### The outline -/

def registrationAssertions : Assertions Store Session where
  world s := s.db.Constrained
  thread s t := t.Holds s
  pair _ t u := t.Apart u

theorem Session.Holds.of_no_writes (hwrites : t.state.writes = [])
    (hknows : t.state.Knows t.call s.db) : t.Holds s where
  commits := by
    rw [hwrites]
    exact .nil s.db
  held w hw := by
    rw [hwrites] at hw
    cases hw
  knows := hknows

theorem Session.Apart.of_no_writes (hwrites : t.state.writes = []) : t.Apart u := by
  intro a ha
  rw [hwrites] at ha
  cases ha

theorem Session.Apart.symm (h : t.Apart u) :
    u.Apart t := fun a ha b hb _ hkey hkey' => h b hb a ha hkey' hkey

/-- Ending a transaction keeps the keys of the others. -/
theorem mem_release {writes : List Write} {key : LockKey} (hkey : key ∈ s.held)
    (hfree : ∀ w ∈ writes, key ∉ w.keys) : key ∈ (s.release writes).held := by
  refine List.mem_filter.mpr ⟨hkey, decide_eq_true fun hmem => ?_⟩
  obtain ⟨w, hw, hkey'⟩ := List.mem_flatMap.mp hmem
  exact hfree w hw hkey'

theorem Session.Progress.own (h : t.Progress s s' t') (hs : s.db.Constrained) (ht : t.Holds s) :
    s'.db.Constrained ∧ t'.Holds s' := by
  cases h with
  | raised error => exact ⟨hs, .of_no_writes rfl trivial⟩
  | advanced writes state hcommits hfree hwrites hknows =>
    refine ⟨hs, ?_, ?_, hknows⟩
    · show s.db.Commits state.writes
      rw [hwrites]
      refine ⟨fun w hw => ?_, List.pairwise_append.mpr ⟨ht.commits.disjoint, hcommits.disjoint,
        fun a ha b hb key hkey hkey' => ?_⟩⟩
      · rcases List.mem_append.mp hw with hw | hw
        · exact ht.commits.admissible w hw
        · exact hcommits.admissible w hw
      · exact hfree b hb key hkey' (ht.held a ha key hkey)
    · intro w hw key hkey
      change w ∈ state.writes at hw
      rw [hwrites] at hw
      apply List.mem_append.mpr
      rcases List.mem_append.mp hw with hw | hw
      · exact .inl (ht.held w hw key hkey)
      · exact .inr (List.mem_flatMap.mpr ⟨w, hw, hkey⟩)
  | committed writes result hstate =>
    obtain ⟨call, state⟩ := t
    obtain rfl : state = .commit writes result := hstate
    have hcommits : s.db.Commits writes := ht.commits
    obtain ⟨hpending, hanswers⟩ := ht.knows
    exact ⟨writes_constrained hs hcommits, .of_no_writes rfl ⟨hpending.stored hcommits, hanswers⟩⟩

theorem Session.Progress.extends (h : t.Progress s s' t') (ht : t.Holds s) :
    s.db.Extends s'.db := by
  cases h with
  | raised error => exact .refl s.db
  | advanced writes state _ _ _ _ => exact .refl s.db
  | committed writes result hstate =>
    have hcommits := ht.commits
    rw [hstate] at hcommits
    exact writes_extends hcommits

theorem Session.Progress.other (h : t.Progress s s' t') (ht : t.Holds s) (hu : u.Holds s)
    (hapart : t.Apart u) : u.Holds s' ∧ t'.Apart u := by
  have hkeeps : ∀ w ∈ u.state.writes, ∀ key ∈ w.keys, key ∈ (s.release t.state.writes).held :=
    fun w hw key hkey =>
    mem_release (hu.held w hw key hkey) fun a ha hkey' => hapart a ha w hw hkey' hkey
  cases h with
  | raised error => exact ⟨⟨hu.commits, hkeeps, hu.knows⟩, .of_no_writes rfl⟩
  | advanced writes state hcommits hfree hwrites hknows =>
    refine ⟨⟨hu.commits, fun w hw key hkey => List.mem_append_left _ (hu.held w hw key hkey),
      hu.knows⟩, fun a ha b hb key hkey hkey' => ?_⟩
    change a ∈ state.writes at ha
    rw [hwrites] at ha
    rcases List.mem_append.mp ha with ha | ha
    · exact hapart a ha b hb hkey hkey'
    · exact hfree a ha key hkey (hu.held b hb key hkey')
  | committed writes result hstate =>
    have hcommits := ht.commits
    rw [hstate] at hcommits hkeeps
    have hwrites : t.state.writes = writes := by rw [hstate]; rfl
    refine ⟨⟨⟨fun w hw => ?_, hu.commits.disjoint⟩, hkeeps,
      hu.knows.mono (writes_extends hcommits)⟩, .of_no_writes rfl⟩
    refine admissible_writes (hu.commits.admissible w hw) hcommits fun a ha key hkey hkey' => ?_
    exact hapart a (hwrites ▸ ha) w hw hkey' hkey

theorem registration_outline :
    Outline Session.canStart Session.step (fun _ _ => True) registrationAssertions where
  spawn p t _ _ hstart := by
    obtain ⟨call, state⟩ := t
    cases state with
    | start =>
      exact ⟨.of_no_writes rfl trivial,
        fun j u _ => ⟨.of_no_writes rfl, (Session.Apart.of_no_writes rfl).symm⟩⟩
    | _ => cases hstart
  own p i choice t s' t' hp _ ht hstep :=
    (step_progress hstep (hp.thread i t ht)).own hp.world (hp.thread i t ht)
  other p i choice t s' t' j u hp _ ht hstep hij hu := by
    have hprogress := step_progress hstep (hp.thread i t ht)
    obtain ⟨hholds, hapart⟩ :=
      hprogress.other (hp.thread i t ht) (hp.thread j u hu) (hp.pair i j t u hij ht hu)
    exact ⟨hholds, hapart, hapart.symm⟩
  rest p _ _ _ _ _ j k u v hp _ _ _ _ _ hjk hu hv := hp.pair j k u v hjk hu hv

theorem holds_of_registrations {db : Database} (hdb : db.Constrained)
    {labels : List (PoolLabel Session (Option PyError))} {p : Pool Store Session}
    (hrun : run registrationStep ⟨⟨db, []⟩, []⟩ labels = some p) : registrationAssertions.Holds p :=
  registration_outline.holds_of_run (GuardedRun.of_run (fun _ _ => trivial) hrun)
    (Assertions.holds_nil hdb)

theorem registrationStep_extends {p q : Pool Store Session}
    {label : PoolLabel Session (Option PyError)} (hp : registrationAssertions.Holds p)
    (h : registrationStep p label = some q) : p.world.db.Extends q.world.db := by
  cases label with
  | spawn t =>
    obtain ⟨-, rfl⟩ := Pool.step_spawn h
    exact .refl p.world.db
  | act i choice =>
    obtain ⟨t, s', t', ht, hstep, rfl⟩ := Pool.step_act h
    exact (step_progress hstep (hp.thread i t ht)).extends (hp.thread i t ht)

theorem registrations_extend {p q : Pool Store Session}
    {labels : List (PoolLabel Session (Option PyError))} (hp : registrationAssertions.Holds p)
    (hrun : run registrationStep p labels = some q) :
    registrationAssertions.Holds q ∧ p.world.db.Extends q.world.db := by
  refine run_invariant registrationStep (I := fun r => registrationAssertions.Holds r ∧
    p.world.db.Extends r.world.db) (fun r label r' hr hstep => ?_) ⟨hp, .refl p.world.db⟩ hrun
  have honly : run registrationStep r [label] = some r' := by
    rw [run_cons, hstep, Option.bind_some, run_nil]
  exact ⟨registration_outline.holds_of_run (GuardedRun.of_run (fun _ _ => trivial) honly) hr.1,
    hr.2.trans (registrationStep_extends hr.1 hstep)⟩

/-! ### Calls that ended -/

theorem step_returned {call : RegistrationCall} {result : RegistrationResult}
    (choice : Option PyError) : Session.step s ⟨call, .returned result⟩ choice = none := by
  cases choice with
  | none => simp only [Session.step, Session.proceed, ite_self]
  | some error => rfl

/-- A call that returned stays as it is. -/
theorem returned_stays {p q : Pool Store Session}
    {labels : List (PoolLabel Session (Option PyError))} {i : Nat} {call : RegistrationCall}
    {result : RegistrationResult} (hi : p.threads[i]? = some ⟨call, .returned result⟩)
    (hrun : run registrationStep p labels = some q) :
    q.threads[i]? = some ⟨call, .returned result⟩ := by
  refine run_invariant registrationStep (I := fun r => r.threads[i]? =
    some ⟨call, .returned result⟩) (fun r label r' hr hstep => ?_) hi hrun
  cases label with
  | spawn t =>
    obtain ⟨-, rfl⟩ := Pool.step_spawn hstep
    exact (List.getElem?_append_left (List.getElem?_eq_some_iff.mp hr).1).trans hr
  | act j choice =>
    obtain ⟨t, s', t', ht, hact, rfl⟩ := Pool.step_act hstep
    by_cases hij : j = i
    · subst hij
      rw [hr] at ht
      cases ht
      rw [step_returned] at hact
      cases hact
    · exact (List.getElem?_set_ne hij).trans hr

/-- Only the commit of a call that returns by it changes the tables. -/
theorem Session.Progress.unchanged (h : t.Progress s s' t') :
    s'.db = s.db ∨ ∃ result, t' = ⟨t.call, .returned result⟩ := by
  cases h with
  | raised error => exact .inl rfl
  | advanced writes state _ _ _ _ => exact .inl rfl
  | committed writes result _ => exact .inr ⟨result, rfl⟩

theorem act_unchanged {p q r : Pool Store Session}
    {labels : List (PoolLabel Session (Option PyError))} {i : Nat} {choice : Option PyError}
    (hp : registrationAssertions.Holds p) (hstep : registrationStep p (.act i choice) = some q)
    (hrun : run registrationStep q labels = some r)
    (hopen : ∀ t, r.threads[i]? = some t → t.state.result? = none) : q.world.db = p.world.db := by
  obtain ⟨t, s', t', ht, hact, rfl⟩ := Pool.step_act hstep
  rcases (step_progress hact (hp.thread i t ht)).unchanged with hsame | ⟨result, rfl⟩
  · exact hsame
  · have hi := returned_stays (List.getElem?_set_self (List.getElem?_eq_some_iff.mp ht).1) hrun
    cases hopen _ hi

/-! ### Results agree -/

/-- What two calls return is the same where they ask for the same. -/
structure RegistrationResult.Agrees (call call' : RegistrationCall)
    (result result' : RegistrationResult) : Prop where
  document : ∀ r r' d d', call.document? = some r → call'.document? = some r' →
    r.ownerId = r'.ownerId → r.paperId = r'.paperId → result.document? = some d →
    result'.document? = some d' → d.documentId = d'.documentId
  version : ∀ r r' v v', call.version? = some r → call'.version? = some r' → r.source = r'.source →
    result.version? = some v → result'.version? = some v' → v = v'
  job : ∀ r r' j j', call.job? = some r → call'.job? = some r' → r.ownerId = r'.ownerId →
    r.idempotencyKey = r'.idempotencyKey → result.job? = some j → result'.job? = some j' → j = j'

theorem agrees_of_stored {db : Database} {call call' : RegistrationCall}
    {result result' : RegistrationResult} (hdb : db.Constrained)
    (h : result.Stored db ∧ result.Answers call) (h' : result'.Stored db ∧ result'.Answers call') :
    result.Agrees call call' result' where
  document r r' d d' hr hr' howner hpaper hd hd' := by
    obtain ⟨q, hq, hqowner, hqpaper⟩ := h.2.document d hd
    obtain ⟨q', hq', hqowner', hqpaper'⟩ := h'.2.document d' hd'
    obtain rfl : q = r := Option.some.inj (hq.symm.trans hr)
    obtain rfl : q' = r' := Option.some.inj (hq'.symm.trans hr')
    obtain ⟨e, he, hlasting⟩ := h.1.document d hd
    obtain ⟨e', he', hlasting'⟩ := h'.1.document d' hd'
    have hkeys : d.ownerPaper = d'.ownerPaper :=
      Prod.ext (by rw [DocumentIdentityV1.ownerPaper, hqowner, howner, ← hqowner']; rfl)
      (by rw [DocumentIdentityV1.ownerPaper, hqpaper, hpaper, ← hqpaper']; rfl)
    obtain rfl := hdb.ownerPaper e he e' he'
      ((ownerPaper_eq_of_lasting hlasting).trans
        (hkeys.trans (ownerPaper_eq_of_lasting hlasting').symm))
    exact (documentId_eq_of_lasting hlasting).symm.trans (documentId_eq_of_lasting hlasting')
  version r r' v v' hr hr' hsource hv hv' := by
    obtain ⟨q, hq, hqsource⟩ := h.2.version v hv
    obtain ⟨q', hq', hqsource'⟩ := h'.2.version v' hv'
    obtain rfl : q = r := Option.some.inj (hq.symm.trans hr)
    obtain rfl : q' = r' := Option.some.inj (hq'.symm.trans hr')
    exact hdb.source v (h.1.version v hv) v' (h'.1.version v' hv')
      (hqsource.trans (hsource.trans hqsource'.symm))
  job r r' j j' hr hr' howner hkey hj hj' := by
    obtain ⟨q, hq, hqkey⟩ := h.2.job j hj
    obtain ⟨q', hq', hqkey'⟩ := h'.2.job j' hj'
    obtain rfl : q = r := Option.some.inj (hq.symm.trans hr)
    obtain rfl : q' = r' := Option.some.inj (hq'.symm.trans hr')
    refine hdb.ownerKey j (h.1.job j hj) j' (h'.1.job j' hj') ?_
    rw [hqkey, hqkey', howner, hkey]

/-- Registration is idempotent and atomic, in whatever order the statements of the calls come. -/
theorem registration_idempotent_atomic {db : Database} (hdb : db.Constrained)
    {labels further : List (PoolLabel Session (Option PyError))}
    {p q : Pool Store Session} (hp : run registrationStep ⟨⟨db, []⟩, []⟩ labels = some p)
    (hq : run registrationStep p further = some q) :
    -- calls that returned agree
    (∀ (i j : Nat) (call call' : RegistrationCall) (result result' : RegistrationResult),
      q.threads[i]? = some (Session.mk call (.returned result)) →
      q.threads[j]? = some (Session.mk call' (.returned result')) →
      result.Agrees call call' result') ∧
    -- what was returned stays, and the job stays bound to the version that came with it
    (∀ (i : Nat) (call : RegistrationCall) (result : RegistrationResult),
      p.threads[i]? = some (Session.mk call (.returned result)) →
      q.threads[i]? = some (Session.mk call (.returned result)) ∧
      (∀ v, result.version? = some v → v ∈ q.world.db.versions.rows) ∧
      (∀ j, result.job? = some j → j ∈ q.world.db.ingestionJobs.rows) ∧
      ∀ v j, result = .versionAndJob v j → j.documentVersionId = v.documentVersionId) ∧
    -- documents keep their identity, and source times only grow
    (∀ d ∈ p.world.db.documents.rows, d.sourceCreatedTime ≤ d.sourceUpdatedTime ∧
      ∃ e ∈ q.world.db.documents.rows, e.lasting = d.lasting ∧
      d.sourceUpdatedTime ≤ e.sourceUpdatedTime) ∧
    -- a call that has not returned in the end, as one that raises, changed no table by any step
    ∀ (i : Nat) (choice : Option PyError) (r : Pool Store Session)
      (rest : List (PoolLabel Session (Option PyError))) (last : Pool Store Session),
      registrationStep p (.act i choice) = some r → run registrationStep r rest = some last →
      (∀ t, last.threads[i]? = some t → t.state.result? = none) → r.world.db = p.world.db := by
  have hpholds := holds_of_registrations hdb hp
  obtain ⟨hqholds, hext⟩ := registrations_extend hpholds hq
  refine ⟨fun i j call call' result result' hi hj => ?_, fun i call result hi => ?_,
    fun d hd => ⟨hpholds.world.sourceTimes d hd, hext.documents d hd⟩,
    fun i choice r rest last hstep hrest hopen => act_unchanged hpholds hstep hrest hopen⟩
  · exact agrees_of_stored hqholds.world (hqholds.thread i _ hi).knows (hqholds.thread j _ hj).knows
  · have hi' := returned_stays hi hq
    obtain ⟨hstored, hanswers⟩ := (hqholds.thread i _ hi').knows
    exact ⟨hi', hstored.version, hstored.job, hanswers.bound⟩

/-- Two registrations of one paper whose statements alternate, the second of which waits for the
first. -/
def samplePaperCalls : List (PoolLabel Session (Option PyError)) :=
  let call (newId : String) : Session :=
    ⟨.registerDocument ⟨newId, "owner_1", "paper_1", "uploaded", "mapping_v1", ⟨0, true⟩,
      ⟨0, true⟩⟩, .start⟩
  [.spawn (call "document_1"), .spawn (call "document_2"), .act 0 none, .act 1 none, .act 0 none,
    .act 0 none, .act 1 none, .act 1 none]

/-- A version and its job, then the key of the job for another version: that call raises at its last
statement. -/
def sampleJobCalls : List (PoolLabel Session (Option PyError)) :=
  let sha (c : Char) : String := String.ofList (List.replicate 64 c)
  let call (n : String) (content : Char) : Session :=
    ⟨.registerVersionAndIngestionJob ⟨"version_" ++ n, "owner_1", "document_1", sha content,
      sha 'a', "parse_v1", 0⟩ ("job_" ++ n) "key_1" 0, .start⟩
  [.spawn (call "1" 'b'), .act 2 none, .act 2 none, .act 2 none, .act 2 none, .spawn (call "2" 'c'),
    .act 3 none, .act 3 none, .act 3 none]

/-- Both papers and the first job come back; the paper has one id. -/
theorem registration_idempotent_atomic_sample :
    ∃ p q, run registrationStep ⟨⟨Database.empty, []⟩, []⟩ samplePaperCalls = some p ∧
      run registrationStep p sampleJobCalls = some q ∧
      q.threads.map (fun t => t.state.result?.isSome) = [true, true, true, false] ∧
      ∀ (i j : Nat) (call call' : RegistrationCall) (result result' : RegistrationResult),
        q.threads[i]? = some (Session.mk call (.returned result)) →
        q.threads[j]? = some (Session.mk call' (.returned result')) →
        result.Agrees call call' result' := by
  have hempty : Database.empty.Constrained :=
    ⟨Table.uniqueBy_empty _, Table.uniqueBy_empty _, Table.uniqueBy_empty _,
      fun d hd => by cases hd⟩
  have hruns : ∃ p q, run registrationStep ⟨⟨Database.empty, []⟩, []⟩ samplePaperCalls = some p ∧
      run registrationStep p sampleJobCalls = some q ∧
      q.threads.map (fun t => t.state.result?.isSome) = [true, true, true, false] :=
        ⟨_, _, rfl, rfl, rfl⟩
  obtain ⟨p, q, hp, hq, hthreads⟩ := hruns
  exact ⟨p, q, hp, hq, hthreads, (registration_idempotent_atomic hempty hp hq).1⟩

end ZhiyanRag.Storage
