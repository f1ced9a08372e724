import ZhiyanRag.Ingestion.Cleanup
import ZhiyanRag.Lib.Steps
import ZhiyanRag.Storage.Immutability

/-!
# The programs together

A `Thread` is a running preparation, publication, inactivation or cleanup attempt; `Thread.step` is
its next call with the outcome the environment chose. A publication starts from a preparation that
some preparation thread returned.

`Effect` is the inversion of an operation that returned: what it made of each store. `step_outcome`
turns a step of a thread into its operation, the outcome and the effect.
-/

namespace ZhiyanRag.Ingestion

open Relational ZhiyanRag.Storage Steps

inductive Thread
  | preparer (request : PreparationRequest) (state : PreparerState)
  | publisher (preparation : PersistentIngestionPreparation) (state : PublisherState)
  | inactivator (input : InactivationInput) (state : InactivatorState)
  | worker (worker : CleanupWorker) (state : WorkerState)
  deriving DecidableEq

namespace Thread

/-- A preparation that the thread returned. -/
def returnedPreparation? : Thread → Option PersistentIngestionPreparation
  | preparer _ (.returned preparation _) => some preparation
  | _ => none

/-- The version of a publication that returned. -/
def publishedVersion? : Thread → Option DocumentVersionLifecycleV1
  | publisher _ (.returned result) => some result.version
  | _ => none

theorem publishedVersion?_eq_some {t : Thread} {v : DocumentVersionLifecycleV1}
    (h : t.publishedVersion? = some v) :
    ∃ preparation result, t = publisher preparation (.returned result) ∧ result.version = v := by
  unfold publishedVersion? at h
  split at h
  · rename_i preparation result
    exact ⟨preparation, result, rfl, Option.some.inj h⟩
  · cases h

/-- The program has returned or raised. -/
def finished : Thread → Bool
  | preparer _ (.returned ..) | preparer _ (.raised _) => true
  | publisher _ (.returned _) | publisher _ (.raised _) => true
  | inactivator _ (.returned _) | inactivator _ (.raised _) => true
  | worker _ (.returned _) | worker _ (.raised _) => true
  | _ => false

variable (services : Services)

def next (choice : Choice) : Thread → Option (Pending Thread)
  | preparer request state => (state.next services request choice).map (.map (preparer request))
  | publisher preparation state =>
    (state.next services preparation choice).map (.map (publisher preparation))
  | inactivator input state => (state.next input choice).map (.map (inactivator input))
  | worker settings state => (state.next settings choice).map (.map (worker settings))

/-- One call of a thread. -/
def step (w : World) (thread : Thread) (choice : Choice) : Option (World × Thread) :=
  (thread.next services choice).bind fun pending =>
    (w.attempt services choice pending.operation).map fun r => (r.1, pending.resume r.2)

/-- A thread starts at the first state of its program. -/
def canStart (p : Pool World Thread) : Thread → Bool
  | preparer request state => decide (state = request.start services)
  | publisher preparation state => decide (state = preparation.publish) &&
      p.threads.any fun t => decide (t.returnedPreparation? = some preparation)
  | inactivator input state => decide (state = input.start)
  | worker _ state => decide (state = .claim)

end Thread

/-- The programs as a pool over the stores. -/
abbrev poolStep (services : Services) : Pool World Thread → PoolLabel Thread Choice → Option
    (Pool World Thread) :=
  Pool.step (Thread.canStart services) (Thread.step services)

def Pool.empty : Pool World Thread := ⟨World.empty, []⟩

/-! ### Which thread makes a call -/

/-- The state that makes the operation, for the operations that a single kind of state makes. -/
def Operation.MadeBy : Operation → Thread → Prop
  | repository (.transitionVersion _ _ _ targetStatus _ _), _ => targetStatus ≠ .ready
  | repository (.finalizeIndexingSuccess ..), t =>
    ∃ preparation version receipts, t = .publisher preparation (.finalize version receipts)
  | repository (.persistRuntimeSnapshot pdf chunks), t => ∃ request preparation,
    t = .preparer request (.persistSnapshot preparation pdf) ∧ chunks = preparation.ingestion.chunks
  | repository (.completeCleanup cleanupId leaseToken _), t => ∃ settings leased existed,
    t = .worker settings (.complete leased existed) ∧ cleanupId = leased.job.cleanupId ∧
      leaseToken = leased.leaseToken
  | putPdf _ ownerId documentId documentVersionId contentSha256 _, t => ∃ request preparation,
    t = .preparer request (.putPdf preparation) ∧ ownerId = preparation.version.ownerId ∧
      documentId = preparation.version.documentId ∧
      documentVersionId = preparation.version.documentVersionId ∧
      contentSha256 = preparation.version.contentSha256
  | ensureStaged backend ownerId _ documentVersionId _, t => ∃ preparation version receipts,
    t = .publisher preparation (.stage backend version receipts) ∧ ownerId = version.ownerId ∧
      documentVersionId = version.documentVersionId
  | deactivateVersion backend ownerId documentVersionId, t =>
    (∃ preparation version failure failures,
      t = .publisher preparation (.compensate backend version failure failures) ∧
        ownerId = version.ownerId ∧ documentVersionId = version.documentVersionId) ∨
    ∃ input result, t = .inactivator input (.deactivate backend result)
  | deleteVersion backend _ _, t => ∃ settings leased,
      t = .worker settings (.deleteIndex backend leased)
  | _, _ => True

theorem next_madeBy {services : Services} {choice : Choice} {thread : Thread}
    {pending : Pending Thread} (hnext : thread.next services choice = some pending) :
    pending.operation.MadeBy thread := by
  cases thread with
  | preparer request state =>
    obtain ⟨inner, hinner, rfl⟩ := Option.map_eq_some_iff.mp hnext
    cases state with
    | recordProgress identity version job ingestion =>
      simp only [PreparerState.next] at hinner
      split at hinner <;> cases hinner <;> exact LifecycleStatus.noConfusion
    | startProcessing | failVersion =>
      cases hinner
      exact LifecycleStatus.noConfusion
    | putPdf preparation =>
      cases hinner
      exact ⟨request, preparation, rfl, rfl, rfl, rfl, rfl⟩
    | persistSnapshot preparation pdf =>
      cases hinner
      exact ⟨request, preparation, rfl, rfl⟩
    | _ => cases hinner <;> trivial
  | publisher preparation state =>
    obtain ⟨inner, hinner, rfl⟩ := Option.map_eq_some_iff.mp hnext
    cases state with
    | stage backend version receipts =>
      cases hinner
      exact ⟨preparation, version, receipts, rfl, rfl, rfl⟩
    | progress backend version receipts =>
      cases hinner
      exact LifecycleStatus.noConfusion
    | finalize version receipts =>
      cases hinner
      exact ⟨preparation, version, receipts, rfl⟩
    | compensate backend version failure failures =>
      cases hinner
      exact .inl ⟨preparation, version, failure, failures, rfl, rfl, rfl⟩
    | _ => cases hinner <;> trivial
  | inactivator input state =>
    obtain ⟨inner, hinner, rfl⟩ := Option.map_eq_some_iff.mp hnext
    cases state with
    | transition =>
      cases hinner
      exact LifecycleStatus.noConfusion
    | deactivate backend result =>
      cases hinner
      exact .inr ⟨input, result, rfl⟩
    | _ => cases hinner <;> trivial
  | worker settings state =>
    obtain ⟨inner, hinner, rfl⟩ := Option.map_eq_some_iff.mp hnext
    cases state with
    | deleteIndex backend leased =>
      cases hinner
      exact ⟨settings, leased, rfl⟩
    | complete leased existed =>
      cases hinner
      exact ⟨settings, leased, existed, rfl, rfl, rfl⟩
    | _ => cases hinner <;> trivial

/-- Only a finalisation asks for `READY`. -/
theorem next_target_ready {services : Services} {choice : Choice} {thread : Thread}
    {pending : Pending Thread} {call : Call Empty}
    (hnext : thread.next services choice = some pending)
    (hcall : pending.operation = .repository call) (htarget : call.target? = some .ready) :
    ∃ preparation version receipts,
      thread = .publisher preparation (.finalize version receipts) := by
  have hmade := next_madeBy hnext
  rw [hcall] at hmade
  cases call with
  | transitionVersion _ _ _ targetStatus _ _ => exact absurd (Option.some.inj htarget) hmade
  | finalizeIndexingSuccess => exact hmade
  | _ => cases htarget

/-! ### What an operation does -/

section Effects

variable {services : Services}

/-- What an operation that returned made of each store. -/
inductive Effect (services : Services) (w w' : World) :
    (operation : Operation) → operation.Result → Prop
  | repository (call : Call Empty) (result : call.Result) :
      w.db.perform noCoercion services.chunksFingerprint call = .ok (w'.db, result) →
      w'.indexes = w.indexes → w'.objects = w.objects →
      Effect services w w' (.repository call) result
  | getInactivePdfObject (ownerId documentVersionId : String) :
      w'.db = w.db → w'.indexes = w.indexes → w'.objects = w.objects →
      Effect services w w' (.getInactivePdfObject ownerId documentVersionId)
        (Storage.getInactivePdfObject w.db ownerId documentVersionId)
  | ensureStaged (backend : IndexBackend) (ownerId documentId documentVersionId : String)
      (chunks : List ChunkRecordV1) (index : PhysicalIndex) (receipt : IndexWriteReceipt) :
      Ingestion.ensureStaged services.chunksFingerprint backend
        (w.indexes backend (ownerId, documentVersionId)) ownerId documentId documentVersionId
          chunks = .ok (index, receipt) →
      w'.db = w.db →
      w'.indexes = (w.setIndex backend (ownerId, documentVersionId) (some index)).indexes →
      w'.objects = w.objects →
      Effect services w w'
        (.ensureStaged backend ownerId documentId documentVersionId chunks) receipt
  | activateVersion (backend : IndexBackend) (ownerId documentVersionId : String)
      (index : Option PhysicalIndex) :
      Ingestion.activateVersion backend (w.indexes backend (ownerId, documentVersionId)) ownerId
        documentVersionId = .ok index →
      w'.db = w.db → w'.indexes = (w.setIndex backend (ownerId, documentVersionId) index).indexes →
      w'.objects = w.objects →
      Effect services w w' (.activateVersion backend ownerId documentVersionId) ()
  | deactivateVersion (backend : IndexBackend) (ownerId documentVersionId : String)
      (index : Option PhysicalIndex) :
      Ingestion.deactivateVersion backend (w.indexes backend (ownerId, documentVersionId)) ownerId
        documentVersionId = .ok index →
      w'.db = w.db → w'.indexes = (w.setIndex backend (ownerId, documentVersionId) index).indexes →
      w'.objects = w.objects →
      Effect services w w' (.deactivateVersion backend ownerId documentVersionId) ()
  | deleteVersion (backend : IndexBackend) (ownerId documentVersionId : String) (existed : Bool) :
      w'.db = w.db → w'.indexes = (w.setIndex backend (ownerId, documentVersionId) none).indexes →
      w'.objects = w.objects →
      Effect services w w' (.deleteVersion backend ownerId documentVersionId) existed
  | putPdf (pdfBytes : List UInt8) (ownerId documentId documentVersionId contentSha256 : String)
      (now : Timestamp) (pdf : PdfObjectV1) :
      Storage.putPdf services.sha256 w.objects pdfBytes ownerId documentId documentVersionId
        contentSha256 now = .ok (w'.objects, pdf) →
      w'.db = w.db → w'.indexes = w.indexes →
      Effect services w w' (.putPdf pdfBytes ownerId documentId documentVersionId contentSha256
        now) pdf
  | deletePdf (pdf : PdfObjectV1) (existed : Bool) :
      w'.objects = Function.update w.objects pdf.objectKey none → w'.db = w.db →
      w'.indexes = w.indexes →
      Effect services w w' (.deletePdf pdf) existed
  | invalidateVersion (ownerId documentId documentVersionId : String) :
      w'.db = w.db → w'.indexes = w.indexes → w'.objects = w.objects →
      Effect services w w' (.invalidateVersion ownerId documentId documentVersionId) ()

/-- The stores are the same, whatever identifiers were drawn. -/
structure World.SameStores (w w' : World) : Prop where
  db : w'.db = w.db
  indexes : w'.indexes = w.indexes
  objects : w'.objects = w.objects

theorem perform_effect {w w' : World} {operation : Operation} {result : operation.Result}
    (h : w.perform services operation = .ok (w', result)) :
    Effect services w w' operation result ∧ w'.issued = w.issued := by
  cases operation with
  | repository call =>
    obtain ⟨⟨db, result⟩, hcall, hret⟩ := bind_eq_ok.mp h
    cases pure_eq_ok.mp hret
    exact ⟨.repository call result hcall rfl rfl, rfl⟩
  | getInactivePdfObject ownerId documentVersionId =>
    cases h
    exact ⟨.getInactivePdfObject ownerId documentVersionId rfl rfl rfl, rfl⟩
  | ensureStaged backend ownerId documentId documentVersionId chunks =>
    obtain ⟨⟨index, receipt⟩, hcall, hret⟩ := bind_eq_ok.mp h
    cases pure_eq_ok.mp hret
    exact ⟨.ensureStaged _ _ _ _ _ index _ hcall rfl rfl rfl, rfl⟩
  | activateVersion backend ownerId documentVersionId =>
    obtain ⟨index, hcall, hret⟩ := bind_eq_ok.mp h
    cases pure_eq_ok.mp hret
    exact ⟨.activateVersion _ _ _ index hcall rfl rfl rfl, rfl⟩
  | deactivateVersion backend ownerId documentVersionId =>
    obtain ⟨index, hcall, hret⟩ := bind_eq_ok.mp h
    cases pure_eq_ok.mp hret
    exact ⟨.deactivateVersion _ _ _ index hcall rfl rfl rfl, rfl⟩
  | deleteVersion backend ownerId documentVersionId =>
    obtain ⟨⟨index, existed⟩, hcall, hret⟩ := bind_eq_ok.mp h
    cases pure_eq_ok.mp hret
    cases deleteVersion_ok hcall
    exact ⟨.deleteVersion _ _ _ _ rfl rfl rfl, rfl⟩
  | putPdf pdfBytes ownerId documentId documentVersionId contentSha256 now =>
    obtain ⟨⟨objects, pdf⟩, hcall, hret⟩ := bind_eq_ok.mp h
    cases pure_eq_ok.mp hret
    exact ⟨.putPdf _ _ _ _ _ _ _ hcall rfl rfl, rfl⟩
  | deletePdf pdf =>
    obtain ⟨⟨objects, existed⟩, hcall, hret⟩ := bind_eq_ok.mp h
    cases pure_eq_ok.mp hret
    exact ⟨.deletePdf pdf _ (deletePdf_ok hcall) rfl rfl, rfl⟩
  | invalidateVersion ownerId documentId documentVersionId =>
    cases h
    exact ⟨.invalidateVersion _ _ _ rfl rfl rfl, rfl⟩

/-- The outcome of an operation, and what became of the stores. -/
structure Outcome (services : Services) (w w' : World) (choice : Choice) (operation : Operation)
    (outcome : Except PyError operation.Result) : Prop where
  fresh : ∀ id ∈ operation.newIds, id ∉ w.issued
  issued : w'.issued = operation.newIds ++ w.issued
  stores : (∃ e, outcome = .error e ∧ w.SameStores w') ∨
    ∃ result, outcome = .ok result ∧ choice.fails = false ∧ Effect services w w' operation result

theorem attempt_outcome {w w' : World} {choice : Choice} {operation : Operation}
    {outcome : Except PyError operation.Result}
    (h : w.attempt services choice operation = some (w', outcome)) :
    Outcome services w w' choice operation outcome := by
  unfold World.attempt at h
  split at h
  · rename_i hfresh
    have hfresh' : ∀ id ∈ operation.newIds, id ∉ w.issued := by simpa using hfresh
    simp only at h
    split at h
    · cases h
      exact ⟨hfresh', rfl, .inl ⟨outage, rfl, rfl, rfl, rfl⟩⟩
    · rename_i hfails
      split at h
      · rename_i w₁ result hperform
        cases h
        obtain ⟨heffect, hissued⟩ := perform_effect hperform
        refine ⟨hfresh', hissued, .inr ⟨result, rfl, by simpa using hfails, ?_⟩⟩
        cases heffect <;> constructor <;> assumption
      · rename_i e _
        cases h
        exact ⟨hfresh', rfl, .inl ⟨e, rfl, rfl, rfl, rfl⟩⟩
  · cases h

/-- A step of a thread: its next operation, the outcome, and what became of the stores. -/
theorem step_outcome {w w' : World} {thread thread' : Thread} {choice : Choice}
    (h : thread.step services w choice = some (w', thread')) :
    ∃ pending outcome, thread.next services choice = some pending ∧
      thread' = pending.resume outcome ∧
      Outcome services w w' choice pending.operation outcome := by
  obtain ⟨pending, hnext, h⟩ := Option.bind_eq_some_iff.mp h
  obtain ⟨⟨w₁, outcome⟩, hattempt, hr⟩ := Option.map_eq_some_iff.mp h
  cases hr
  exact ⟨pending, outcome, hnext, rfl, attempt_outcome hattempt⟩

/-- The next call of a program that runs inside a thread. -/
theorem step_of_map {σ : Type} {f : σ → Thread} {program : Option (Pending σ)} {w w' : World}
    {choice : Choice} {thread thread' : Thread}
    (hnext : thread.next services choice = program.map (.map f))
    (h : thread.step services w choice = some (w', thread')) :
    ∃ pending outcome, program = some pending ∧ thread' = f (pending.resume outcome) ∧
      Outcome services w w' choice pending.operation outcome := by
  obtain ⟨pending, outcome, hpending, rfl, houtcome⟩ := step_outcome h
  rw [hnext] at hpending
  obtain ⟨inner, hinner, rfl⟩ := Option.map_eq_some_iff.mp hpending
  exact ⟨inner, outcome, hinner, rfl, houtcome⟩

variable {w w' : World} {choice : Choice} {thread' : Thread}

theorem preparer_step {request : PreparationRequest} {state : PreparerState}
    (h : (Thread.preparer request state).step services w choice = some (w', thread')) :
    ∃ pending outcome, state.next services request choice = some pending ∧
      thread' = .preparer request (pending.resume outcome) ∧
      Outcome services w w' choice pending.operation outcome :=
  step_of_map rfl h

theorem publisher_step {preparation : PersistentIngestionPreparation} {state : PublisherState}
    (h : (Thread.publisher preparation state).step services w choice = some (w', thread')) :
    ∃ pending outcome, state.next services preparation choice = some pending ∧
      thread' = .publisher preparation (pending.resume outcome) ∧
      Outcome services w w' choice pending.operation outcome :=
  step_of_map rfl h

theorem inactivator_step {input : InactivationInput} {state : InactivatorState}
    (h : (Thread.inactivator input state).step services w choice = some (w', thread')) :
    ∃ pending outcome, state.next input choice = some pending ∧
      thread' = .inactivator input (pending.resume outcome) ∧
      Outcome services w w' choice pending.operation outcome :=
  step_of_map rfl h

theorem worker_step {worker : CleanupWorker} {state : WorkerState}
    (h : (Thread.worker worker state).step services w choice = some (w', thread')) :
    ∃ pending outcome, state.next worker choice = some pending ∧
      thread' = .worker worker (pending.resume outcome) ∧
      Outcome services w w' choice pending.operation outcome :=
  step_of_map rfl h

end Effects

/-! ### Scripted runs -/

/-- A run in short: start a thread, publish what thread `index` returned, delete the first stored
version, or let a thread take its step. -/
inductive ScriptStep
  | start (thread : Thread)
  | publish (index : Nat)
  | inactivate
  | act (index : Nat) (choice : Choice)

/-- The label of a script's step in a state; publishing what was never returned names no thread. -/
def ScriptStep.label? (p : Pool World Thread) : ScriptStep → Option (PoolLabel Thread Choice)
  | start thread => some (.spawn thread)
  | publish index => ((p.threads[index]?).bind Thread.returnedPreparation?).map fun preparation =>
      .spawn (.publisher preparation preparation.publish)
  | inactivate => p.world.db.versions.rows.head?.map fun version =>
      .spawn (.inactivator ⟨version, .delete, 5⟩ (InactivationInput.start ⟨version, .delete, 5⟩))
  | act index choice => some (.act index choice)

/-- The labels of a script, as far as it runs. -/
def scriptLabels (services : Services) :
    Pool World Thread → List ScriptStep → List (PoolLabel Thread Choice)
  | _, [] => []
  | p, s :: rest =>
    match s.label? p with
    | none => []
    | some label => label :: match poolStep services p label with
      | none => []
      | some p' => scriptLabels services p' rest

def sampleServices : Services where
  sha256 _ := sampleSha
  chunkSha256 _ := sampleSha
  parentSha256 _ := sampleSha
  parse _ := .ok
    { pdfSha256 := sampleSha
      sourceTextSha256 := sampleSha
      cleanText := "text"
      parseStatus := .pass
      warnings := []
      blocks := [⟨1, ["1"], 0, 4, "text"⟩] }
  splitText _ _ := .ok [⟨"text", 0, 4, none, none⟩]
  strategyConfigHash _ := sampleSha
  chunksFingerprint _ := sampleSha

def sampleRequest (persist : Bool) : PreparationRequest where
  pdfBytes := [37]
  ownerId := "owner_1"
  paperId := "paper_1"
  sourceType := "uploaded"
  sourceCreatedTime := ⟨0, true⟩
  sourceUpdatedTime := ⟨0, true⟩
  idempotencyKey := "key_1"
  strategy := "fixed_boundary_v1"
  libraryScopeIds := []
  persist := persist

def drawing (newId newJobId : ContractId) : Choice := ⟨false, 1, ⟨1, true⟩, newId, newJobId⟩

def calm : Choice := drawing (fixedId "unused") (fixedId "unused")

/-- The thread takes `count` steps that draw no identifier and that the environment lets succeed. -/
def calmActs (index count : Nat) : List ScriptStep := List.replicate count (.act index calm)

def drawingCalm (newId : ContractId) : Choice := drawing newId (fixedId "unused")

/-- The inactivation by thread `index`, all seven calls. -/
def sampleInactivation (index : Nat) : List ScriptStep :=
  .inactivate :: calmActs index 3 ++ [.act index (drawingCalm (fixedId "cleanup_1"))] ++
    calmActs index 1 ++ [.act index (drawingCalm (fixedId "cleanup_2")),
      .act index (drawingCalm (fixedId "cleanup_3"))]

/-- The worker of the defaults. -/
def sampleWorker : CleanupWorker := {}

/-- A cleanup attempt by thread `index` with `count` calls after its claim. -/
def sampleCleanup (index count : Nat) (leaseToken : ContractId) : List ScriptStep :=
  [.start (.worker sampleWorker .claim), .act index (drawingCalm leaseToken)] ++
    calmActs index count

/-- The first preparation, up to its progress update. -/
def samplePreparation (persist : Bool) : List ScriptStep :=
  [.start (.preparer (sampleRequest persist) .registerDocument),
    .act 0 (drawing (fixedId "document_1") (fixedId "unused")),
    .act 0 (drawing (fixedId "version_1") (fixedId "job_1"))] ++ calmActs 0 3

/-- One preparation and its publication. -/
def singlePublication : List ScriptStep := samplePreparation false ++ .publish 0 :: calmActs 1 7

end ZhiyanRag.Ingestion
