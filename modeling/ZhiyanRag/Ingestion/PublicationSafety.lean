import ZhiyanRag.Ingestion.IndexEffects
import ZhiyanRag.Ingestion.Views

/-!
# Publication under interleaving

`READY` promises that both physical indexes of the version are fully active. The revision protects
the row only, so the promise rests on what the threads do to the indexes: staging leaves a complete
index as it is, activation reaches every row of it, and a finalising publication has activated both
indexes under the revision it finalises. What can break it is a compensating deactivation.
`OwnCompensation` allows one only while the version is not `READY` and no other publication relies
on the index.
-/

namespace ZhiyanRag.Ingestion

open Relational ZhiyanRag.Storage Steps

/-! ### What a publication relies on -/

/-- The backends a publication has activated and means to finalise. -/
def PublisherState.activated : PublisherState → List IndexBackend
  | activate .milvus _ _ => [.elasticsearch]
  | finalize _ _ => [.elasticsearch, .milvus]
  | _ => []

def Thread.activated : Thread → List IndexBackend
  | publisher _ state => state.activated
  | _ => []

/-- The thread is a publication that has activated this index and whose copy of the version is the
stored row. -/
def Thread.relies (w : World) (backend : IndexBackend) (documentVersionId : String)
    (t : Thread) : Bool :=
  t.activated.contains backend && t.version?.any fun v =>
    decide (v.documentVersionId = documentVersionId) && decide (w.IsCurrent v)

/-- The thread prepares or publishes. -/
def Thread.publishes : Thread → Bool
  | preparer .. => true
  | publisher .. => true
  | _ => false

/-- Nothing is inactivated, and a compensating deactivation takes place only while the version is
not `READY` and no other publication relies on the index. -/
def OwnCompensation (p : Pool World Thread) : PoolLabel Thread Choice → Bool
  | .spawn t => t.publishes
  | .act i choice => match p.threads[i]? with
    | some (.publisher _ (.compensate backend version _ _)) => choice.fails ||
        ((p.world.db.versions.find? version.documentVersionId).all
          (fun v => decide (v.lifecycleStatus ≠ .ready)) && p.threads.zipIdx.all fun (t, j) =>
            decide (j = i) || !t.relies p.world backend version.documentVersionId)
    | _ => true

/-- Every index is complete, and the indexes of a `READY` version are fully active. -/
structure ReadyActive (w : World) : Prop where
  complete : w.Complete
  ready : ∀ v ∈ w.db.versions.rows, v.lifecycleStatus = .ready → ∀ backend,
    w.fullyActive backend (v.ownerId, v.documentVersionId) = true

/-- The thread prepares or publishes, sees its copy of the version, and finds the indexes it relies
on fully active. -/
structure ReliesOnActive (w : World) (t : Thread) : Prop where
  publishes : t.publishes = true
  sees : ∀ v, t.version? = some v → w.Sees v
  active : ∀ v, t.version? = some v → w.IsCurrent v → ∀ backend ∈ t.activated,
    w.fullyActive backend (v.ownerId, v.documentVersionId) = true

def publicationAssertions : Assertions World Thread where
  world := ReadyActive
  thread := ReliesOnActive
  pair _ _ _ := True

section Steps

variable {services : Services} {w w' : World} {choice : Choice} {thread thread' : Thread}

/-- Among preparations and publications, only a compensation deactivates. -/
theorem next_clears {pending : Pending Thread} {backend : IndexBackend} {ownerId vid : String}
    (hpub : thread.publishes = true) (hnext : thread.next services choice = some pending)
    (hclears : pending.operation.clears = some (backend, ownerId, vid)) :
    ∃ preparation version failure failures,
      thread = .publisher preparation (.compensate backend version failure failures) ∧
        ownerId = version.ownerId ∧ vid = version.documentVersionId := by
  have hmade := next_madeBy hnext
  unfold Operation.clears at hclears
  split at hclears
  · rename_i hop
    rw [hop] at hmade
    cases hclears
    rcases hmade with hmade | ⟨input, result, rfl⟩
    · exact hmade
    · cases hpub
  · rename_i hop
    rw [hop] at hmade
    obtain ⟨settings, leased, rfl⟩ := hmade
    cases hpub
  · cases hclears

/-- A publication's step establishes what its next state relies on. -/
theorem step_active (hw : w.Complete) (ht : ReliesOnActive w thread)
    (h : thread.step services w choice = some (w', thread')) {v : DocumentVersionLifecycleV1}
    (hv : thread'.version? = some v) (hcurrent : w'.IsCurrent v) {backend : IndexBackend}
    (hbackend : backend ∈ thread'.activated) :
    w'.fullyActive backend (v.ownerId, v.documentVersionId) = true := by
  cases thread with
  | inactivator input state => cases ht.publishes
  | worker settings state => cases ht.publishes
  | preparer request state =>
    obtain ⟨pending, outcome, -, rfl, -⟩ := preparer_step h
    cases hbackend
  | publisher preparation state =>
    obtain ⟨pending, outcome, hnext, rfl, houtcome⟩ := publisher_step h
    cases state with
    | activate b version receipts =>
      cases hnext
      cases outcome with
      | error e => cases hbackend
      | ok result =>
        cases houtcome.result_effect with
        | activateVersion _ _ _ index hcall hdb hset _ =>
          have hactive := activated_fullyActive (hw _ _) hcall hset
          cases b with
          | elasticsearch =>
            cases hv
            cases List.mem_singleton.mp hbackend
            exact hactive
          | milvus =>
            cases hv
            -- Elasticsearch was activated before, and the row has not changed since
            have hbefore : w.IsCurrent v := by
              unfold World.IsCurrent at hcurrent ⊢
              rwa [hdb] at hcurrent
            rcases List.mem_cons.mp hbackend with rfl | hmilvus
            · exact houtcome.fullyActive (.inr (by simp [Operation.clears]))
                (ht.active v rfl hbefore .elasticsearch (List.mem_singleton.mpr rfl))
            · cases List.mem_singleton.mp hmilvus
              exact hactive
    | stage b version receipts =>
      cases hnext
      cases outcome with
      | error e => cases hbackend
      | ok receipt =>
        simp only [PublisherState.staged] at hbackend
        split at hbackend <;> cases hbackend
    | progress b version receipts =>
      cases hnext
      cases outcome <;> cases b <;> cases hbackend
    | finalize version receipts =>
      cases hnext
      cases outcome <;> cases hbackend
    | compensate b version failure failures =>
      cases hnext
      cases b <;> cases hbackend
    | recordFailure version failure failures =>
      cases hnext
      cases outcome <;> cases hbackend
    | returned result => cases hnext
    | raised error => cases hnext

/-- An index that a step may not clear: its version is `READY`, or a publication relies on it. -/
theorem keeps_active (ht : ReliesOnActive w thread) {pending : Pending Thread}
    {outcome : Except PyError pending.operation.Result}
    (hnext : thread.next services choice = some pending)
    (houtcome : Outcome services w w' choice pending.operation outcome) {backend : IndexBackend}
    {ownerId vid : String}
    (hkeep : ∀ preparation version failure failures,
      thread = .publisher preparation (.compensate backend version failure failures) →
        vid = version.documentVersionId → choice.fails = true)
    (hactive : w.fullyActive backend (ownerId, vid) = true) :
    w'.fullyActive backend (ownerId, vid) = true := by
  refine houtcome.fullyActive ?_ hactive
  by_cases hclears : pending.operation.clears = some (backend, ownerId, vid)
  · obtain ⟨preparation, version, failure, failures, hthread, -, hvid⟩ :=
      next_clears ht.publishes hnext hclears
    exact .inl (hkeep preparation version failure failures hthread hvid)
  · exact .inr hclears

/-- A finalisation relies on both indexes, and leaves them as they are. -/
theorem finalize_ready (hI : ReadyActive w) {preparation : PersistentIngestionPreparation}
    {version : DocumentVersionLifecycleV1} {receipts : List IndexWriteReceipt}
    (ht : ReliesOnActive w (.publisher preparation (.finalize version receipts)))
    (h : (Thread.publisher preparation (.finalize version receipts)).step services w choice =
      some (w', thread')) {v : DocumentVersionLifecycleV1} (hv : v ∈ w'.db.versions.rows)
    (hready : v.lifecycleStatus = .ready) (backend : IndexBackend) :
    w'.fullyActive backend (v.ownerId, v.documentVersionId) = true := by
  obtain ⟨pending, outcome, hnext, rfl, houtcome⟩ := publisher_step h
  cases hnext
  cases outcome with
  | error e =>
    obtain ⟨e', -, hsame⟩ | ⟨result, hresult, -⟩ := houtcome.stores
    · rw [hsame.db] at hv
      unfold World.fullyActive
      rw [hsame.indexes]
      exact hI.ready v hv hready backend
    · cases hresult
  | ok result =>
    obtain ⟨new, job⟩ := result
    obtain ⟨hcall, hindexes, -⟩ := houtcome.repository
    obtain ⟨hcurrent, hupdate, hset⟩ := finalize_current (ht.sees version rfl) hcall
    unfold World.fullyActive
    rw [hindexes]
    rw [hset] at hv
    rcases Table.mem_set hv with rfl | ⟨hv, -⟩
    · rw [hupdate.ownerId, hupdate.documentVersionId]
      refine ht.active version rfl hcurrent backend ?_
      cases backend <;> simp [Thread.activated, PublisherState.activated]
    · exact hI.ready v hv hready backend

/-- A step keeps the indexes of `READY` versions fully active. -/
theorem step_ready (hI : ReadyActive w) (ht : ReliesOnActive w thread)
    (h : thread.step services w choice = some (w', thread'))
    (hguard : ∀ preparation backend version failure failures,
      thread = .publisher preparation (.compensate backend version failure failures) →
        choice.fails = true ∨ ∀ row, w.db.versions.find? version.documentVersionId = some row →
        row.lifecycleStatus ≠ .ready) :
    ReadyActive w' := by
  obtain ⟨pending, outcome, hnext, rfl, houtcome⟩ := step_outcome h
  refine ⟨houtcome.complete hI.complete, fun v hv hready backend => ?_⟩
  have hstays : v ∈ w.db.versions.rows →
      w'.fullyActive backend (v.ownerId, v.documentVersionId) = true := by
    intro hmem
    refine keeps_active ht hnext houtcome
      (fun preparation version failure failures hthread hvid => ?_) (hI.ready v hmem hready backend)
    rcases hguard preparation backend version failure failures hthread with hfails | hnot
    · exact hfails
    · exact absurd hready (hnot v (hvid ▸ Table.find?_key_of_mem hmem))
  have hrows := hv
  cases houtcome.versionWrite with
  | same heq =>
    rw [heq] at hv
    exact hstays hv
  | registered u _ hstatus hinsert =>
    rw [Table.rows_insert? hinsert, List.mem_append, List.mem_singleton] at hv
    rcases hv with hv | rfl
    · exact hstays hv
    · rw [hstatus] at hready
      cases hready
  | updated call old new hcall htarget _ _ _ hset =>
    rw [hset] at hv
    rcases Table.mem_set hv with rfl | ⟨hv, -⟩
    · rw [hready] at htarget
      obtain ⟨preparation, version, receipts, rfl⟩ := next_target_ready hnext hcall htarget
      exact finalize_ready hI ht h hrows hready backend
    · exact hstays hv

theorem publish_activated (preparation : PersistentIngestionPreparation) :
    preparation.publish.activated = [] := by
  unfold PersistentIngestionPreparation.publish
  split <;> rfl

/-- The guard of a compensation that goes through. -/
theorem ownCompensation_act {p : Pool World Thread} {i : Nat}
    {preparation : PersistentIngestionPreparation} {backend : IndexBackend}
    {version : DocumentVersionLifecycleV1} {failure : PublicationFailure} {failures : List String}
    (hguard : OwnCompensation p (.act i choice) = true)
    (hi : p.threads[i]? =
      some (.publisher preparation (.compensate backend version failure failures))) :
    choice.fails = true ∨
      (∀ row, p.world.db.versions.find? version.documentVersionId = some row →
        row.lifecycleStatus ≠ .ready) ∧ ∀ (j : Nat) (t : Thread), i ≠ j → p.threads[j]? = some t →
          t.relies p.world backend version.documentVersionId = false := by
  simp only [OwnCompensation, hi, Bool.or_eq_true, Bool.and_eq_true, List.all_eq_true] at hguard
  rcases hguard with hfails | ⟨hstatus, hothers⟩
  · exact .inl hfails
  · refine .inr ⟨fun row hrow => ?_, fun j t hij hj => ?_⟩
    · rw [hrow] at hstatus
      simpa using hstatus
    · have := hothers (t, j) (List.mem_zipIdx_iff_getElem?.mpr hj)
      simpa [Ne.symm hij] using this

theorem publication_outline : Outline (Thread.canStart services) (Thread.step services)
    (fun p l => OwnCompensation p l = true) publicationAssertions where
  spawn p t hp hguard hs := by
    refine ⟨⟨hguard, fun v hv => ?_, fun v _ _ backend hbackend => ?_⟩,
      fun _ _ _ => ⟨trivial, trivial⟩⟩
    · exact canStart_sees (fun i u hu => (hp.thread i u hu).sees) hs hv
    · cases t with
      | publisher preparation state =>
        obtain ⟨hstate, -⟩ := (Bool.and_eq_true _ _).mp hs
        cases of_decide_eq_true hstate
        rw [show (Thread.publisher preparation preparation.publish).activated = [] from
          publish_activated preparation] at hbackend
        cases hbackend
      | _ => cases hbackend
  own p i choice t w' t' hp hguard ht hstep := by
    have hthread := hp.thread i t ht
    refine ⟨step_ready hp.world hthread hstep ?_, ?_⟩
    · rintro preparation backend version failure failures rfl
      exact (ownCompensation_act hguard ht).imp_right And.left
    · refine ⟨?_, step_sees hstep hthread.sees, fun v hv hcurrent backend hbackend =>
        step_active hp.world.complete hthread hstep hv hcurrent hbackend⟩
      cases t with
      | inactivator input state => cases hthread.publishes
      | worker settings state => cases hthread.publishes
      | preparer request state =>
        obtain ⟨pending, outcome, -, rfl, -⟩ := preparer_step hstep
        rfl
      | publisher preparation state =>
        obtain ⟨pending, outcome, -, rfl, -⟩ := publisher_step hstep
        rfl
  other p i choice t w' t' j u hp hguard ht hstep hij hu := by
    refine ⟨?_, trivial, trivial⟩
    have hthread := hp.thread i t ht
    have hother := hp.thread j u hu
    obtain ⟨pending, outcome, hnext, -, houtcome⟩ := step_outcome hstep
    refine ⟨hother.publishes, fun v hv => (hother.sees v hv).later houtcome.later,
      fun v hv hcurrent backend hbackend => ?_⟩
    have hbefore := (hother.sees v hv).current_before houtcome.versionWrite hcurrent
    refine keeps_active hthread hnext houtcome
      (fun preparation version failure failures hcompensate hvid => ?_)
        (hother.active v hv hbefore backend hbackend)
    subst hcompensate
    rcases ownCompensation_act hguard ht with hfails | ⟨-, hnone⟩
    · exact hfails
    · -- the other thread relies on the index, which the guard excludes
      have hrelies : u.relies p.world backend version.documentVersionId = true := by
        simp [Thread.relies, hv, hbackend, hvid, hbefore]
      rw [hnone j u hij hu] at hrelies
      cases hrelies
  rest _ _ _ _ _ _ _ _ _ _ _ _ _ _ _ _ _ _ _ := trivial

/-- In every state of a run in which nothing is inactivated and no compensation hits a `READY`
version or an index that another publication relies on, both indexes of a `READY` version are fully
active. -/
theorem publication_safety {labels : List (PoolLabel Thread Choice)} {p : Pool World Thread}
    (hrun : GuardedRun (poolStep services) (fun p l => OwnCompensation p l = true) Pool.empty
      labels p)
    {v : DocumentVersionLifecycleV1} (hv : v ∈ p.world.db.versions.rows)
    (hready : v.lifecycleStatus = .ready)
    (backend : IndexBackend) :
    p.world.fullyActive backend (v.ownerId, v.documentVersionId) = true := by
  have hempty : ReadyActive World.empty :=
    ⟨fun _ _ _ hindex => (by cases hindex), fun _ hv => (by cases hv)⟩
  exact (publication_outline.holds_of_run hrun (Assertions.holds_nil hempty)).world.ready v hv
    hready backend

end Steps

theorem publication_safety_single :
    ∃ p, GuardedRun (poolStep sampleServices) (fun p l => OwnCompensation p l = true) Pool.empty
        (scriptLabels sampleServices Pool.empty singlePublication) p ∧
      ∃ v ∈ p.world.db.versions.rows, v.lifecycleStatus = .ready ∧
        p.world.fullyActive .elasticsearch (v.ownerId, v.documentVersionId) = true := by
  have hrun : ((guardedRun? (poolStep sampleServices) (fun p l => OwnCompensation p l = true)
      Pool.empty (scriptLabels sampleServices Pool.empty singlePublication)).any fun p =>
        p.world.db.versions.rows.any fun v => decide (v.lifecycleStatus = .ready)) = true := by
    decide +kernel
  obtain ⟨p, hp, hany⟩ := (Option.any_eq_true _ _).mp hrun
  obtain ⟨v, hv, hready⟩ := List.any_eq_true.mp hany
  have hguarded := GuardedRun.of_eval hp
  have hready := of_decide_eq_true hready
  exact ⟨p, hguarded, v, hv, hready, publication_safety hguarded hv hready .elasticsearch⟩

/-- A publication stalls after staging; the version is prepared again and published; then the first
one activates, loses its compare-and-swap and compensates. -/
def stalledPublication : List ScriptStep :=
  samplePreparation false ++ .publish 0 :: calmActs 1 4 ++
    [.start (.preparer (sampleRequest false) .registerDocument),
      .act 2 (drawing (fixedId "document_2") (fixedId "unused")),
      .act 2 (drawing (fixedId "version_2") (fixedId "job_2"))] ++ calmActs 2 2 ++
    .publish 2 :: calmActs 3 7 ++ calmActs 1 6

/-- Without inactivation, with every call of the environment succeeding and every thread finished, a
version is `READY` and its Elasticsearch index is not active. -/
theorem ready_deactivated :
    ∃ p, run (poolStep sampleServices) Pool.empty
        (scriptLabels sampleServices Pool.empty stalledPublication) = some p ∧
      p.threads.length = 4 ∧ p.threads.all (fun t => t.publishes && t.finished) = true ∧
      ∃ v ∈ p.world.db.versions.rows, v.lifecycleStatus = .ready ∧
        p.world.fullyActive .elasticsearch (v.ownerId, v.documentVersionId) = false := by
  have hrun : ((run (poolStep sampleServices) Pool.empty
      (scriptLabels sampleServices Pool.empty stalledPublication)).any fun p =>
        decide (p.threads.length = 4) && p.threads.all (fun t => t.publishes && t.finished) &&
          p.world.db.versions.rows.any fun v => decide (v.lifecycleStatus = .ready) &&
            !p.world.fullyActive .elasticsearch (v.ownerId, v.documentVersionId)) = true := by
    decide +kernel
  obtain ⟨p, hp, hall⟩ := (Option.any_eq_true _ _).mp hrun
  simp only [Bool.and_eq_true, decide_eq_true_eq, List.any_eq_true, Bool.not_eq_true'] at hall
  obtain ⟨⟨hlength, hthreads⟩, v, hv, hready, hinactive⟩ := hall
  exact ⟨p, hp, hlength, hthreads, v, hv, hready, hinactive⟩

end ZhiyanRag.Ingestion
