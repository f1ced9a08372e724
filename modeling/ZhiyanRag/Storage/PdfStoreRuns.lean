import ZhiyanRag.Lib.Steps
import ZhiyanRag.Storage.PdfObjects

/-!
# Concurrent calls of the PDF object store

`put_pdf`, `read_pdf` and `delete_pdf`, one call of the operating system a step. Any number of calls
run at once and every step can raise. A put writes a temporary file and moves it over the target, so
a key holds a whole file or none, and a file that was put is there until a delete of its key.
-/

namespace ZhiyanRag.Storage

open ZhiyanRag.Ingestion Steps

/-! ### The calls -/

/-- The data root: the targets by key, and the temporary files by number, those from `fresh` on
unused. -/
structure PdfDisk where
  files : PdfObjects
  temporaries : Nat → Option PdfFile
  fresh : Nat

inductive PdfRequest
  | put (pdfBytes : List UInt8) (ownerId documentId documentVersionId contentSha256 : String)
  | read (pdfObject : PdfObjectV1)
  | delete (pdfObject : PdfObjectV1)

inductive PdfAnswer
  | stored (pdfObject : PdfObjectV1)
  | payload (bytes : List UInt8)
  | deleted (existed : Bool)

/-- What a call raises: `PdfObjectStoreError`, or `FileNotFoundError` of a file that has gone since
it was seen. -/
inductive PdfError
  | store (message : String)
  | fileNotFound
  deriving DecidableEq

/-- The step a call is at, or how it ended; a step that failed may have left a temporary file
behind. -/
inductive PdfState
  | start
  | probing
  | creating
  | writing (temporary : Nat)
  | replacing (temporary : Nat)
  | protecting
  | locating
  | hashing
  | stating
  | loading
  | unlinking
  | returned (answer : PdfAnswer)
  | raised (e : PdfError)
  | failed (leftover : Option Nat)

structure PdfCall where
  request : PdfRequest
  state : PdfState

/-- A step gets through at a time; or it fails, a write after some bytes, and with it the `unlink`
of the temporary file or not. -/
inductive PdfOutcome
  | completes (now : Timestamp)
  | fails (written : Nat) (unlinks : Bool)

def PdfDisk.setFile (disk : PdfDisk) (key : String) (file : Option PdfFile) : PdfDisk :=
  { disk with files := Function.update disk.files key file }

def PdfDisk.setTemporary (disk : PdfDisk) (temporary : Nat) (file : Option PdfFile) : PdfDisk :=
  { disk with temporaries := Function.update disk.temporaries temporary file }

@[simp] theorem PdfDisk.files_setFile_self (disk : PdfDisk) (key : String) (file : Option PdfFile) :
    (disk.setFile key file).files key = file :=
  Function.update_self ..

theorem PdfDisk.files_setFile_ne (disk : PdfDisk) {key other : String} (h : other ≠ key)
    (file : Option PdfFile) : (disk.setFile key file).files other = disk.files other :=
  Function.update_of_ne h ..

@[simp] theorem PdfDisk.temporaries_set_self (disk : PdfDisk) (temporary : Nat)
    (file : Option PdfFile) : (disk.setTemporary temporary file).temporaries temporary = file :=
  Function.update_self ..

theorem PdfDisk.temporaries_set_ne (disk : PdfDisk) {temporary other : Nat} (h : other ≠ temporary)
    (file : Option PdfFile) :
    (disk.setTemporary temporary file).temporaries other = disk.temporaries other :=
  Function.update_of_ne h ..

def pdfMissing : PdfError := .store "PDF object is missing from persistent storage"

def pdfDrifted : PdfError := .store "PDF object payload drifted after persistence"

def pdfSizeDrifted : PdfError := .store "PDF object size drifted after persistence"

def pdfForeignBytes : PdfError := .store "PDF object bytes do not match content identity"

section

variable (sha256 : List UInt8 → String)

def PdfRequest.key : PdfRequest → String
  | .put _ ownerId documentId documentVersionId contentSha256 =>
    objectKey sha256 ownerId documentId documentVersionId contentSha256
  | .read pdfObject | .delete pdfObject => pdfObject.objectKey

def PdfRequest.expectedSha256 : PdfRequest → String
  | .put _ _ _ _ contentSha256 => contentSha256
  | .read pdfObject | .delete pdfObject => pdfObject.contentSha256

/-- The next step, if it gets through. -/
def PdfCall.proceed (now : Timestamp) (disk : PdfDisk) (call : PdfCall) :
    Option (PdfDisk × PdfState) :=
  let key := call.request.key sha256
  match call.state, call.request with
  | .start, .put pdfBytes _ _ _ contentSha256 =>
    some (disk, if !pdfBytes.isEmpty && decide (sha256 pdfBytes = contentSha256) then .probing
      else .raised pdfForeignBytes)
  | .start, .read _ => some (disk, .locating)
  | .start, .delete _ => some (disk, .probing)
  | .probing, request => some (disk, if (disk.files key).isSome then .locating else
      match request with
      | .delete _ => .returned (.deleted false)
      | _ => .creating)
  | .creating, .put _ _ _ documentVersionId _ =>
    some ({ disk.setTemporary disk.fresh (some ⟨[], now, documentVersionId⟩) with
      fresh := disk.fresh + 1 }, .writing disk.fresh)
  | .writing temporary, .put pdfBytes _ _ documentVersionId _ =>
    some (disk.setTemporary temporary (some ⟨pdfBytes, now, documentVersionId⟩),
      .replacing temporary)
  | .replacing temporary, _ => some (match disk.temporaries temporary with
      | none => (disk, .raised .fileNotFound)
      | some file => ((disk.setFile key (some file)).setTemporary temporary none, .protecting))
  | .protecting, _ =>
    some (disk, if (disk.files key).isSome then .locating else .raised .fileNotFound)
  | .locating, _ => some (disk, if (disk.files key).isSome then .hashing else .raised pdfMissing)
  | .hashing, request => some (disk, match disk.files key with
      | none => .raised .fileNotFound
      | some file => if sha256 file.bytes ≠ request.expectedSha256 then .raised pdfDrifted
          else match request with
        | .put .. => .stating
        | .read _ => .loading
        | .delete _ => .unlinking)
  | .stating, .put pdfBytes ownerId documentId documentVersionId contentSha256 =>
    some (disk, match disk.files key with
      | none => .raised .fileNotFound
      | some file => .returned (.stored {
          ownerId, documentId, documentVersionId, objectKey := key, storageBackend :=
            "filesystem_v1", contentSha256,
          sizeBytes := pdfBytes.length, storedAt := file.modifiedAt }))
  | .loading, .read pdfObject => some (disk, match disk.files key with
      | none => .raised .fileNotFound
      | some file => if (file.bytes.length : Int) ≠ pdfObject.sizeBytes then .raised pdfSizeDrifted
          else .returned (.payload file.bytes))
  | .unlinking, _ =>
    some (if (disk.files key).isSome then (disk.setFile key none, .returned (.deleted true))
      else (disk, .raised .fileNotFound))
  | _, _ => none

/-- The next step fails. A write that fails leaves its file: its name is not yet noted for the
`finally` clause. -/
def PdfCall.fail (written : Nat) (unlinks : Bool) (disk : PdfDisk) (call : PdfCall) :
    Option (PdfDisk × PdfState) :=
  match call.state, call.request with
  | .writing temporary, .put pdfBytes _ _ documentVersionId _ =>
    some (disk.setTemporary temporary ((disk.temporaries temporary).map
      fun file => ⟨pdfBytes.take written, file.modifiedAt, documentVersionId⟩),
        .failed (some temporary))
  | .replacing temporary, _ =>
    if unlinks then some (disk.setTemporary temporary none, .failed none)
    else some (disk, .failed (some temporary))
  | .start, _ | .returned _, _ | .raised _, _ | .failed _, _ => none
  | _, _ => some (disk, .failed none)

def PdfCall.step (disk : PdfDisk) (call : PdfCall) : PdfOutcome → Option (PdfDisk × PdfCall)
  | .completes now => (call.proceed sha256 now disk).map fun r => (r.1, { call with state := r.2 })
  | .fails written unlinks => (call.fail written unlinks disk).map fun r =>
    (r.1, { call with state := r.2 })

/-- The records that calls are made with are those of puts: their keys are the ones `object_key`
gives. -/
def PdfRequest.Recorded : PdfRequest → Prop
  | .put .. => True
  | .read pdfObject | .delete pdfObject =>
    pdfObject.objectKey = objectKey sha256 pdfObject.ownerId pdfObject.documentId
      pdfObject.documentVersionId pdfObject.contentSha256

instance (request : PdfRequest) : Decidable (request.Recorded sha256) := by
  unfold PdfRequest.Recorded
  split <;> infer_instance

def PdfCall.canStart (_ : Pool PdfDisk PdfCall) (call : PdfCall) : Bool :=
  match call.state with
  | .start => decide (call.request.Recorded sha256)
  | _ => false

abbrev pdfStep (p : Pool PdfDisk PdfCall) (label : PoolLabel PdfCall PdfOutcome) :
    Option (Pool PdfDisk PdfCall) :=
  p.step (PdfCall.canStart sha256) (PdfCall.step sha256) label

/-! ### What holds between the steps -/

/-- The files at the keys are whole, of the content that their key names. -/
structure PdfDisk.Sound (disk : PdfDisk) : Prop where
  whole : ∀ key file, disk.files key = some file → file.bytes ≠ [] ∧
    ∃ ownerId documentId documentVersionId,
      key = objectKey sha256 ownerId documentId documentVersionId (sha256 file.bytes)
  unused : ∀ temporary, disk.fresh ≤ temporary → disk.temporaries temporary = none

/-- The temporary file of a call, or the one it left behind. -/
def PdfState.temporary? : PdfState → Option Nat
  | writing temporary | replacing temporary => some temporary
  | failed leftover => leftover
  | _ => none

/-- A put has compared its bytes with their digest. -/
def PdfRequest.Accepted : PdfRequest → Prop
  | .put pdfBytes _ _ _ contentSha256 => pdfBytes ≠ [] ∧ sha256 pdfBytes = contentSha256
  | .read _ | .delete _ => True

def PdfRequest.isPut : PdfRequest → Bool
  | .put .. => true
  | _ => false

def PdfRequest.isRead : PdfRequest → Bool
  | .read _ => true
  | _ => false

def PdfRequest.isDelete : PdfRequest → Bool
  | .delete _ => true
  | _ => false

/-- The record of a put, or the content that a record describes. -/
def PdfRequest.Answers (request : PdfRequest) : PdfAnswer → Prop
  | .stored pdfObject => ∃ pdfBytes ownerId documentId documentVersionId contentSha256,
      request = .put pdfBytes ownerId documentId documentVersionId contentSha256 ∧
        pdfObject.ownerId = ownerId ∧ pdfObject.documentId = documentId ∧
        pdfObject.documentVersionId = documentVersionId ∧ pdfObject.objectKey = request.key sha256 ∧
        pdfObject.contentSha256 = contentSha256 ∧
        sha256 pdfBytes = contentSha256 ∧ pdfObject.sizeBytes = pdfBytes.length
  | .payload bytes => ∃ pdfObject, request = .read pdfObject ∧
      sha256 bytes = pdfObject.contentSha256 ∧ (bytes.length : Int) = pdfObject.sizeBytes
  | .deleted _ => request.isDelete = true

/-- What a call may raise: for a file that is not there, the drift of a size, and foreign bytes. -/
def PdfRequest.Raises (request : PdfRequest) (e : PdfError) : Prop :=
  e = pdfMissing ∨ e = .fileNotFound ∨ (e = pdfSizeDrifted ∧ request.isRead = true) ∨
    (e = pdfForeignBytes ∧ ¬request.Accepted sha256)

def PdfCall.Knows (disk : PdfDisk) (call : PdfCall) : Prop :=
  match call.state with
  | .start | .failed _ => True
  | .creating | .writing _ | .protecting | .stating => call.request.Accepted sha256 ∧
      call.request.isPut = true
  | .replacing temporary => call.request.Accepted sha256 ∧
      ∃ pdfBytes ownerId documentId documentVersionId contentSha256 now,
        call.request = .put pdfBytes ownerId documentId documentVersionId contentSha256 ∧
        disk.temporaries temporary = some ⟨pdfBytes, now, documentVersionId⟩
  | .probing => call.request.Accepted sha256 ∧ call.request.isRead = false
  | .locating | .hashing => call.request.Accepted sha256
  | .loading => call.request.isRead = true
  | .unlinking => call.request.isDelete = true
  | .returned answer => call.request.Answers sha256 answer
  | .raised e => call.request.Raises sha256 e

structure PdfCall.Holds (disk : PdfDisk) (call : PdfCall) : Prop where
  recorded : call.request.Recorded sha256
  numbered : ∀ temporary, call.state.temporary? = some temporary → temporary < disk.fresh
  knows : call.Knows sha256 disk

/-- The calls have different temporary files. -/
def PdfCall.Apart (call other : PdfCall) : Prop :=
  ∀ temporary, call.state.temporary? = some temporary → other.state.temporary? ≠ some temporary

def pdfAssertions : Assertions PdfDisk PdfCall where
  world disk := disk.Sound sha256
  thread disk call := call.Holds sha256 disk
  pair _ call other := call.Apart other

/-- The call has seen the file at its key, or put it there. -/
def PdfCall.sees (call : PdfCall) : Bool :=
  match call.state with
  | .protecting | .hashing | .stating | .loading | .unlinking | .returned (.stored _) => true
  | .locating => !call.request.isRead
  | _ => false

/-- It has seen the file and then found it gone. -/
def PdfCall.lost (call : PdfCall) : Bool :=
  match call.state with
  | .raised e => decide (e = .fileNotFound) || (decide (e = pdfMissing) && !call.request.isRead)
  | _ => false

end

/-! ### One step -/

section

variable {sha256 : List UInt8 → String} {disk disk' : PdfDisk} {call call' : PdfCall}

/-- Keys with different digests are different. -/
theorem objectKey_digest (hdigest : ∀ bytes, (sha256 bytes).length = 64)
    {o d v c o' d' v' c' : String} (h : objectKey sha256 o d v c = objectKey sha256 o' d' v' c') :
    c = c' := by
  have hlist := congrArg String.toList h
  unfold objectKey takeChars at hlist
  simp only [String.toList_append, String.toList_ofList] at hlist
  have hlength (bytes : List UInt8) : (sha256 bytes).toList.length = 64 := by
    rw [String.length_toList]
    exact hdigest bytes
  obtain ⟨hfront, -⟩ := List.append_inj' hlist rfl
  obtain ⟨-, hdigests⟩ :=
    List.append_inj hfront (by simp only [List.length_append, List.length_take, hlength])
  exact String.toList_injective hdigests

/-- The file at the key of a call has the content that the call is about. -/
theorem PdfDisk.Sound.digest_eq (hdigest : ∀ bytes, (sha256 bytes).length = 64)
    (hdisk : disk.Sound sha256) {request : PdfRequest} (hrecorded : request.Recorded sha256)
    {file : PdfFile} (hfile : disk.files (request.key sha256) = some file) :
    sha256 file.bytes = request.expectedSha256 := by
  obtain ⟨-, ownerId, documentId, documentVersionId, hkey⟩ := hdisk.whole _ file hfile
  cases request with
  | put pdfBytes o d v c => exact (objectKey_digest hdigest hkey).symm
  | read pdfObject | delete pdfObject =>
    exact (objectKey_digest hdigest (hrecorded.symm.trans hkey)).symm

/-- All that a step can do. -/
inductive PdfCall.Progress (sha256 : List UInt8 → String) (disk : PdfDisk) (call : PdfCall) :
    PdfDisk → PdfCall → Prop
  | moved (state : PdfState)
      (htemporary : ∀ temporary,
        state.temporary? = some temporary → call.state.temporary? = some temporary)
      (hleft : ∀ temporary,
        call.state.temporary? = some temporary → state.temporary? = some temporary)
      (hknows : ({ call with state := state } : PdfCall).Knows sha256 disk)
      (hsees : ({ call with state := state } : PdfCall).sees = true →
        (disk.files (call.request.key sha256)).isSome)
      (hlost : ({ call with state := state } : PdfCall).lost = true → call.sees = true ∧
        disk.files (call.request.key sha256) = none) :
      Progress sha256 disk call disk { call with state := state }
  | created (file : PdfFile) (state : PdfState) (hnone : call.state.temporary? = none)
      (htemporary : state = .writing disk.fresh)
      (hknows : ∀ disk', ({ call with state := state } : PdfCall).Knows sha256 disk') :
      Progress sha256 disk call
        { disk.setTemporary disk.fresh (some file) with fresh := disk.fresh + 1 }
        { call with state := state }
  | wrote (temporary : Nat) (file : Option PdfFile) (state : PdfState)
      (hown : call.state.temporary? = some temporary)
      (htemporary : state.temporary? = some temporary ∨ state.temporary? = none ∧ file = none)
      (hknows : ({ call with state := state } : PdfCall).Knows sha256
        (disk.setTemporary temporary file))
      (hsees : ({ call with state := state } : PdfCall).sees = false)
      (hlost : ({ call with state := state } : PdfCall).lost = false) :
      Progress sha256 disk call (disk.setTemporary temporary file) { call with state := state }
  | replaced (temporary : Nat) (file : PdfFile) (hown : call.state.temporary? = some temporary)
      (hbytes : file.bytes ≠ [])
      (hkey : ∃ o d v, call.request.key sha256 = objectKey sha256 o d v (sha256 file.bytes))
      (hknows : ∀ disk', ({ call with state := .protecting } : PdfCall).Knows sha256 disk') :
      Progress sha256 disk call
        ((disk.setFile (call.request.key sha256) (some file)).setTemporary temporary none)
        { call with state := .protecting }
  | unlinked (hdelete : call.request.isDelete = true) (htemporary : call.state.temporary? = none) :
      Progress sha256 disk call (disk.setFile (call.request.key sha256) none)
        { call with state := .returned (.deleted true) }

/-- A step that only looks at the disk, by a call without a temporary file. -/
theorem PdfCall.Progress.looked {state : PdfState} (hnone : call.state.temporary? = none)
    (hstate : state.temporary? = none)
    (hknows : ({ call with state := state } : PdfCall).Knows sha256 disk)
    (hsees : ({ call with state := state } : PdfCall).sees = true →
      (disk.files (call.request.key sha256)).isSome)
    (hlost : ({ call with state := state } : PdfCall).lost = true → call.sees = true ∧
      disk.files (call.request.key sha256) = none) :
    call.Progress sha256 disk disk { call with state := state } :=
  .moved state (fun temporary h => by rw [hstate] at h; cases h)
    (fun temporary h => by rw [hnone] at h; cases h) hknows hsees hlost

/-- The file that a call has seen is gone. -/
theorem PdfCall.Progress.gone (hnone : call.state.temporary? = none) (hsees : call.sees = true)
    (hfile : disk.files (call.request.key sha256) = none) :
    call.Progress sha256 disk disk { call with state := .raised .fileNotFound } :=
  .looked hnone rfl (.inr (.inl rfl)) (fun h => by cases h) fun _ => ⟨hsees, hfile⟩

variable {request : PdfRequest} {now : Timestamp} {state : PdfState}

theorem start_pdfProgress
    (h : PdfCall.proceed sha256 now disk ⟨request, .start⟩ = some (disk', state)) :
    PdfCall.Progress sha256 disk ⟨request, .start⟩ disk' ⟨request, state⟩ := by
  cases request with
  | put pdfBytes ownerId documentId documentVersionId contentSha256 =>
    cases h
    by_cases haccepted : pdfBytes ≠ [] ∧ sha256 pdfBytes = contentSha256
    · rw [if_pos (by simpa using haccepted)]
      exact .looked rfl rfl ⟨haccepted, rfl⟩ (fun h => by cases h) fun h => by cases h
    · rw [if_neg (by simpa using haccepted)]
      refine .looked rfl rfl (.inr (.inr (.inr ⟨rfl, haccepted⟩))) (fun h => by cases h) fun h => ?_
      simp [PdfCall.lost, pdfForeignBytes, pdfMissing] at h
  | read pdfObject =>
    cases h
    exact .looked rfl rfl trivial (fun h => by cases h) fun h => by cases h
  | delete pdfObject =>
    cases h
    exact .looked rfl rfl ⟨trivial, rfl⟩ (fun h => by cases h) fun h => by cases h

theorem probing_pdfProgress (hknows : PdfCall.Knows sha256 disk ⟨request, .probing⟩)
    (h : PdfCall.proceed sha256 now disk ⟨request, .probing⟩ = some (disk', state)) :
    PdfCall.Progress sha256 disk ⟨request, .probing⟩ disk' ⟨request, state⟩ := by
  obtain ⟨haccepted, hread⟩ := hknows
  cases h
  cases hfile : disk.files (request.key sha256) with
  | some file =>
    rw [if_pos (Option.isSome_some)]
    exact .looked rfl rfl haccepted (fun _ => by rw [hfile]; rfl) fun h => by cases h
  | none =>
    rw [if_neg (by simp)]
    cases request with
    | put pdfBytes ownerId documentId documentVersionId contentSha256 =>
      exact .looked rfl rfl ⟨haccepted, rfl⟩ (fun h => by cases h) fun h => by cases h
    | read pdfObject => cases hread
    | delete pdfObject => exact .looked rfl rfl rfl (fun h => by cases h) fun h => by cases h

theorem creating_pdfProgress (hknows : PdfCall.Knows sha256 disk ⟨request, .creating⟩)
    (h : PdfCall.proceed sha256 now disk ⟨request, .creating⟩ = some (disk', state)) :
    PdfCall.Progress sha256 disk ⟨request, .creating⟩ disk' ⟨request, state⟩ := by
  obtain ⟨haccepted, hput⟩ := hknows
  cases request with
  | put pdfBytes ownerId documentId documentVersionId contentSha256 =>
    cases h
    exact .created _ _ rfl rfl fun _ => ⟨haccepted, rfl⟩
  | read pdfObject | delete pdfObject => cases hput

theorem writing_pdfProgress {temporary : Nat}
    (hknows : PdfCall.Knows sha256 disk ⟨request, .writing temporary⟩)
    (h : PdfCall.proceed sha256 now disk ⟨request, .writing temporary⟩ = some (disk', state)) :
    PdfCall.Progress sha256 disk ⟨request, .writing temporary⟩ disk' ⟨request, state⟩ := by
  obtain ⟨haccepted, hput⟩ := hknows
  cases request with
  | put pdfBytes ownerId documentId documentVersionId contentSha256 =>
    cases h
    have hown := PdfDisk.temporaries_set_self disk temporary
      (some ⟨pdfBytes, now, documentVersionId⟩)
    exact .wrote temporary _ _ rfl (.inl rfl) ⟨haccepted, _, _, _, _, _, now, rfl, hown⟩ rfl rfl
  | read pdfObject | delete pdfObject => cases hput

theorem replacing_pdfProgress {temporary : Nat}
    (hknows : PdfCall.Knows sha256 disk ⟨request, .replacing temporary⟩)
    (h : PdfCall.proceed sha256 now disk ⟨request, .replacing temporary⟩ = some (disk', state)) :
    PdfCall.Progress sha256 disk ⟨request, .replacing temporary⟩ disk' ⟨request, state⟩ := by
  obtain ⟨haccepted, pdfBytes, ownerId, documentId, documentVersionId, contentSha256, written, rfl,
      hfile⟩ := hknows
  dsimp only [PdfCall.proceed] at h
  rw [hfile] at h
  cases h
  refine .replaced temporary _ rfl haccepted.1 ⟨ownerId, documentId, documentVersionId, ?_⟩ fun _ =>
    ⟨haccepted, rfl⟩
  rw [haccepted.2]
  rfl

theorem protecting_pdfProgress (hknows : PdfCall.Knows sha256 disk ⟨request, .protecting⟩)
    (h : PdfCall.proceed sha256 now disk ⟨request, .protecting⟩ = some (disk', state)) :
    PdfCall.Progress sha256 disk ⟨request, .protecting⟩ disk' ⟨request, state⟩ := by
  obtain ⟨haccepted, hput⟩ := hknows
  cases h
  cases hfile : disk.files (request.key sha256) with
  | some file => exact .looked rfl rfl haccepted (fun _ => by rw [hfile]; rfl) fun h => by cases h
  | none => exact .gone rfl rfl hfile

theorem locating_pdfProgress (hknows : PdfCall.Knows sha256 disk ⟨request, .locating⟩)
    (h : PdfCall.proceed sha256 now disk ⟨request, .locating⟩ = some (disk', state)) :
    PdfCall.Progress sha256 disk ⟨request, .locating⟩ disk' ⟨request, state⟩ := by
  cases h
  cases hfile : disk.files (request.key sha256) with
  | some file => exact .looked rfl rfl hknows (fun _ => by rw [hfile]; rfl) fun h => by cases h
  | none =>
    refine .looked rfl rfl (.inl rfl) (fun h => by cases h) fun h => ⟨?_, hfile⟩
    simpa [PdfCall.lost, PdfCall.sees, pdfMissing] using h

/-- A file that is there has the digest that the call expects. -/
theorem hashing_pdfProgress (hdigest : ∀ bytes, (sha256 bytes).length = 64)
    (hdisk : disk.Sound sha256) (hrecorded : request.Recorded sha256)
    (hknows : PdfCall.Knows sha256 disk ⟨request, .hashing⟩)
    (h : PdfCall.proceed sha256 now disk ⟨request, .hashing⟩ = some (disk', state)) :
    PdfCall.Progress sha256 disk ⟨request, .hashing⟩ disk' ⟨request, state⟩ := by
  cases h
  cases hfile : disk.files (request.key sha256) with
  | some file =>
    dsimp only
    rw [if_neg (not_not_intro (hdisk.digest_eq hdigest hrecorded hfile))]
    have hsome : (disk.files (request.key sha256)).isSome := by
      rw [hfile]
      rfl
    cases request with
    | put pdfBytes ownerId documentId documentVersionId contentSha256 =>
      exact .looked rfl rfl ⟨hknows, rfl⟩ (fun _ => hsome) fun h => by cases h
    | read pdfObject => exact .looked rfl rfl rfl (fun _ => hsome) fun h => by cases h
    | delete pdfObject => exact .looked rfl rfl rfl (fun _ => hsome) fun h => by cases h
  | none => exact .gone rfl rfl hfile

theorem stating_pdfProgress (hknows : PdfCall.Knows sha256 disk ⟨request, .stating⟩)
    (h : PdfCall.proceed sha256 now disk ⟨request, .stating⟩ = some (disk', state)) :
    PdfCall.Progress sha256 disk ⟨request, .stating⟩ disk' ⟨request, state⟩ := by
  obtain ⟨haccepted, hput⟩ := hknows
  cases request with
  | put pdfBytes ownerId documentId documentVersionId contentSha256 =>
    cases h
    cases hfile : disk.files
      (PdfRequest.key sha256 (.put pdfBytes ownerId documentId documentVersionId contentSha256))
        with
    | some file =>
      exact .looked rfl rfl ⟨_, _, _, _, _, rfl, rfl, rfl, rfl, rfl, rfl, haccepted.2, rfl⟩
        (fun _ => by rw [hfile]; rfl) fun h => by cases h
    | none => exact .gone rfl rfl hfile
  | read pdfObject | delete pdfObject => cases hput

theorem loading_pdfProgress (hdigest : ∀ bytes, (sha256 bytes).length = 64)
    (hdisk : disk.Sound sha256) (hrecorded : request.Recorded sha256)
    (hknows : PdfCall.Knows sha256 disk ⟨request, .loading⟩)
    (h : PdfCall.proceed sha256 now disk ⟨request, .loading⟩ = some (disk', state)) :
    PdfCall.Progress sha256 disk ⟨request, .loading⟩ disk' ⟨request, state⟩ := by
  cases request with
  | read pdfObject =>
    cases h
    cases hfile : disk.files (PdfRequest.key sha256 (.read pdfObject)) with
    | some file =>
      dsimp only
      by_cases hsize : (file.bytes.length : Int) = pdfObject.sizeBytes
      · rw [if_neg (not_not_intro hsize)]
        have hanswer := hdisk.digest_eq hdigest hrecorded hfile
        exact .looked rfl rfl ⟨pdfObject, rfl, hanswer, hsize⟩ (fun h => by cases h) fun h => by
          cases h
      · rw [if_pos hsize]
        refine .looked rfl rfl (.inr (.inr (.inl ⟨rfl, rfl⟩))) (fun h => by cases h) fun h => ?_
        simp [PdfCall.lost, pdfSizeDrifted, pdfMissing] at h
    | none => exact .gone rfl rfl hfile
  | put pdfBytes ownerId documentId documentVersionId contentSha256 => cases hknows
  | delete pdfObject => cases hknows

theorem unlinking_pdfProgress (hknows : PdfCall.Knows sha256 disk ⟨request, .unlinking⟩)
    (h : PdfCall.proceed sha256 now disk ⟨request, .unlinking⟩ = some (disk', state)) :
    PdfCall.Progress sha256 disk ⟨request, .unlinking⟩ disk' ⟨request, state⟩ := by
  unfold PdfCall.proceed at h
  cases hfile : disk.files (request.key sha256) with
  | some file =>
    simp only [hfile, Option.isSome_some, if_true] at h
    cases h
    exact .unlinked hknows rfl
  | none =>
    simp only [hfile, Option.isSome_none] at h
    cases h
    exact .gone rfl rfl hfile

theorem proceed_pdfProgress (hdigest : ∀ bytes, (sha256 bytes).length = 64)
    (hdisk : disk.Sound sha256) (hcall : call.Holds sha256 disk)
    (h : call.proceed sha256 now disk = some (disk', state)) :
    call.Progress sha256 disk disk' { call with state := state } := by
  obtain ⟨hrecorded, -, hknows⟩ := hcall
  obtain ⟨request, current⟩ := call
  cases current with
  | start => exact start_pdfProgress h
  | probing => exact probing_pdfProgress hknows h
  | creating => exact creating_pdfProgress hknows h
  | writing temporary => exact writing_pdfProgress hknows h
  | replacing temporary => exact replacing_pdfProgress hknows h
  | protecting => exact protecting_pdfProgress hknows h
  | locating => exact locating_pdfProgress hknows h
  | hashing => exact hashing_pdfProgress hdigest hdisk hrecorded hknows h
  | stating => exact stating_pdfProgress hknows h
  | loading => exact loading_pdfProgress hdigest hdisk hrecorded hknows h
  | unlinking => exact unlinking_pdfProgress hknows h
  | returned answer | raised e | failed leftover => cases h

theorem fail_pdfProgress (hcall : call.Holds sha256 disk) {written : Nat} {unlinks : Bool}
    {state : PdfState} (h : call.fail written unlinks disk = some (disk', state)) :
    call.Progress sha256 disk disk' { call with state := state } := by
  have hknows := hcall.knows
  obtain ⟨request, current⟩ := call
  cases current with
  | writing temporary =>
    obtain ⟨-, hput⟩ := hknows
    cases request with
    | put pdfBytes ownerId documentId documentVersionId contentSha256 =>
      cases h
      exact .wrote temporary _ _ rfl (.inl rfl) trivial rfl rfl
    | read pdfObject | delete pdfObject => cases hput
  | replacing temporary =>
    dsimp only [PdfCall.fail] at h
    cases unlinks with
    | true =>
      cases h
      exact .wrote temporary none _ rfl (.inr ⟨rfl, rfl⟩) trivial rfl rfl
    | false =>
      cases h
      exact .moved _ (fun _ h => h) (fun _ h => h) trivial (fun h => by cases h) fun h => by cases h
  | start => cases h
  | returned answer => cases h
  | raised e => cases h
  | failed leftover => cases h
  | probing | creating | protecting | locating | hashing | stating | loading | unlinking =>
    cases h
    exact .looked rfl rfl trivial (fun h => by cases h) fun h => by cases h

theorem step_pdfProgress (hdigest : ∀ bytes, (sha256 bytes).length = 64) (hdisk : disk.Sound sha256)
    (hcall : call.Holds sha256 disk)
    {outcome : PdfOutcome} (h : call.step sha256 disk outcome = some (disk', call')) :
    call.Progress sha256 disk disk' call' := by
  cases outcome with
  | completes now =>
    obtain ⟨⟨next, state⟩, hproceed, hnext⟩ := Option.map_eq_some_iff.mp h
    cases hnext
    exact proceed_pdfProgress hdigest hdisk hcall hproceed
  | fails written unlinks =>
    obtain ⟨⟨next, state⟩, hfail, hnext⟩ := Option.map_eq_some_iff.mp h
    cases hnext
    exact fail_pdfProgress hcall hfail

/-! ### Any number of calls -/

theorem PdfCall.Progress.request_eq (h : call.Progress sha256 disk disk' call') :
    call'.request = call.request := by
  cases h <;> rfl

theorem PdfCall.Progress.own (h : call.Progress sha256 disk disk' call') (hdisk : disk.Sound sha256)
    (hcall : call.Holds sha256 disk) : disk'.Sound sha256 ∧ call'.Holds sha256 disk' := by
  cases h with
  | moved state htemporary hleft hknows hsees hlost =>
    exact ⟨hdisk, hcall.recorded, fun temporary h => hcall.numbered temporary
      (htemporary temporary h), hknows⟩
  | created file state hnone htemporary hknows =>
    subst htemporary
    refine ⟨⟨hdisk.whole, fun temporary hle => ?_⟩, hcall.recorded, fun temporary h => ?_, hknows _⟩
    · exact (PdfDisk.temporaries_set_ne _ (Nat.ne_of_gt hle) _).trans
        (hdisk.unused temporary (Nat.le_of_succ_le hle))
    · cases h
      exact Nat.lt_succ_self _
  | wrote temporary file state hown htemporary hknows hsees hlost =>
    refine ⟨⟨hdisk.whole, fun other hle => ?_⟩, hcall.recorded, fun other h => ?_, hknows⟩
    · exact (PdfDisk.temporaries_set_ne _
        (Nat.ne_of_gt (Nat.lt_of_lt_of_le (hcall.numbered temporary hown) hle)) _).trans
          (hdisk.unused other hle)
    · rcases htemporary with hsame | ⟨hnone, -⟩
      · cases hsame.symm.trans h
        exact hcall.numbered temporary hown
      · cases hnone.symm.trans h
  | replaced temporary file hown hbytes hkey hknows =>
    refine ⟨⟨fun key other hother => ?_, fun other hle => ?_⟩, hcall.recorded,
      (fun _ h => by cases h), hknows _⟩
    · by_cases hsame : key = call.request.key sha256
      · subst hsame
        cases (PdfDisk.files_setFile_self ..).symm.trans hother
        exact ⟨hbytes, hkey⟩
      · exact hdisk.whole key other ((PdfDisk.files_setFile_ne _ hsame _).symm.trans hother)
    · exact (PdfDisk.temporaries_set_ne _
        (Nat.ne_of_gt (Nat.lt_of_lt_of_le (hcall.numbered temporary hown) hle)) _).trans
          (hdisk.unused other hle)
  | unlinked hdelete htemporary =>
    refine ⟨⟨fun key other hother => ?_, hdisk.unused⟩, hcall.recorded, (fun _ h => by cases h),
      hdelete⟩
    by_cases hsame : key = call.request.key sha256
    · subst hsame
      cases (PdfDisk.files_setFile_self ..).symm.trans hother
    · exact hdisk.whole key other ((PdfDisk.files_setFile_ne _ hsame _).symm.trans hother)

/-- What a call knows is about its own temporary file. -/
theorem PdfCall.Knows.of_temporaries (h : call.Knows sha256 disk)
    (hsame : ∀ temporary, call.state.temporary? = some temporary →
      disk'.temporaries temporary = disk.temporaries temporary) : call.Knows sha256 disk' := by
  obtain ⟨request, state⟩ := call
  cases state with
  | replacing temporary =>
    obtain ⟨haccepted, pdfBytes, o, d, v, c, now, hrequest, hfile⟩ := h
    exact ⟨haccepted, pdfBytes, o, d, v, c, now, hrequest, (hsame temporary rfl).trans hfile⟩
  | start | probing | creating | writing _ | protecting | locating | hashing | stating | loading
  | unlinking | returned _ | raised _ | failed _ =>
    exact h

theorem PdfCall.Progress.other {other : PdfCall} (h : call.Progress sha256 disk disk' call')
    (hother : other.Holds sha256 disk) (hapart : call.Apart other) :
    other.Holds sha256 disk' ∧ call'.Apart other := by
  have hne {temporary own : Nat} (hown : call.state.temporary? = some own)
      (h : other.state.temporary? = some temporary) : temporary ≠ own := by
    rintro rfl
    exact hapart temporary hown h
  cases h with
  | moved state htemporary hleft hknows hsees hlost =>
    exact ⟨hother, fun temporary h => hapart temporary (htemporary temporary h)⟩
  | created file state hnone htemporary hknows =>
    subst htemporary
    refine ⟨⟨hother.recorded, fun temporary h => Nat.lt_succ_of_lt (hother.numbered temporary h),
      hother.knows.of_temporaries fun temporary h => ?_⟩, fun temporary h => ?_⟩
    · exact PdfDisk.temporaries_set_ne _ (Nat.ne_of_lt (hother.numbered temporary h)) _
    · cases h
      exact fun h => Nat.lt_irrefl _ (hother.numbered _ h)
  | wrote temporary file state hown htemporary hknows hsees hlost =>
    refine ⟨⟨hother.recorded, hother.numbered, hother.knows.of_temporaries
      fun temporary h => PdfDisk.temporaries_set_ne _ (hne hown h) _⟩, fun other h => ?_⟩
    rcases htemporary with hsame | ⟨hnone, -⟩
    · cases hsame.symm.trans h
      exact hapart temporary hown
    · cases hnone.symm.trans h
  | replaced temporary file hown hbytes hkey hknows =>
    exact ⟨⟨hother.recorded, hother.numbered, hother.knows.of_temporaries
      fun temporary h => PdfDisk.temporaries_set_ne _ (hne hown h) _⟩, fun _ h => by cases h⟩
  | unlinked hdelete htemporary =>
    exact ⟨⟨hother.recorded, hother.numbered, hother.knows.of_temporaries fun _ _ => rfl⟩,
      fun _ h => by cases h⟩

theorem PdfCall.Apart.symm {other : PdfCall} (h : call.Apart other) :
    other.Apart call := fun temporary hother hcall => h temporary hcall hother

theorem pdf_outline (hdigest : ∀ bytes, (sha256 bytes).length = 64) :
    Outline (PdfCall.canStart sha256) (PdfCall.step sha256) (fun _ _ => True)
      (pdfAssertions sha256) where
  spawn p t _ _ hstart := by
    obtain ⟨request, state⟩ := t
    cases state with
    | start =>
      exact ⟨⟨of_decide_eq_true hstart, (fun _ h => by cases h), trivial⟩,
        fun j u _ => ⟨(fun _ h => by cases h), fun _ _ h => by cases h⟩⟩
    | _ => cases hstart
  own p i outcome t disk' t' hp _ ht hstep :=
    (step_pdfProgress hdigest hp.world (hp.thread i t ht) hstep).own hp.world (hp.thread i t ht)
  other p i outcome t disk' t' j u hp _ ht hstep hij hu := by
    obtain ⟨hholds, hapart⟩ := (step_pdfProgress hdigest hp.world (hp.thread i t ht) hstep).other
      (hp.thread j u hu) (hp.pair i j t u hij ht hu)
    exact ⟨hholds, hapart, hapart.symm⟩
  rest p _ _ _ _ _ j k u v hp _ _ _ _ _ hjk hu hv := hp.pair j k u v hjk hu hv

/-! ### Files that stay -/

/-- A file stays in its place, unless the call deletes it. -/
theorem PdfCall.Progress.files (h : call.Progress sha256 disk disk' call') {key : String}
    (hfile : (disk.files key).isSome) : (disk'.files key).isSome ∨ call'.request.isDelete = true ∧
    call'.request.key sha256 = key := by
  cases h with
  | moved state _ _ _ _ _ => exact .inl hfile
  | created file state _ _ _ => exact .inl hfile
  | wrote temporary file state _ _ _ _ _ => exact .inl hfile
  | replaced temporary file _ _ _ _ =>
    refine .inl ?_
    by_cases hsame : key = call.request.key sha256
    · subst hsame
      exact (congrArg Option.isSome (PdfDisk.files_setFile_self ..)).trans rfl
    · exact (congrArg Option.isSome (PdfDisk.files_setFile_ne _ hsame _)).trans hfile
  | unlinked hdelete _ =>
    by_cases hsame : key = call.request.key sha256
    · exact .inr ⟨hdelete, hsame.symm⟩
    · exact .inl ((congrArg Option.isSome (PdfDisk.files_setFile_ne _ hsame _)).trans hfile)

theorem PdfCall.Progress.sees (h : call.Progress sha256 disk disk' call')
    (hsees : call'.sees = true) : (disk'.files (call'.request.key sha256)).isSome := by
  cases h with
  | moved state _ _ _ hseen _ => exact hseen hsees
  | created file state _ htemporary _ =>
    subst htemporary
    cases hsees
  | wrote temporary file state _ _ _ hunseen _ => cases hunseen.symm.trans hsees
  | replaced temporary file _ _ _ _ =>
    exact (congrArg Option.isSome (PdfDisk.files_setFile_self ..)).trans rfl
  | unlinked _ _ => cases hsees

theorem PdfCall.Progress.lost (h : call.Progress sha256 disk disk' call')
    (hlost : call'.lost = true) :
    call.sees = true ∧ disk.files (call.request.key sha256) = none := by
  cases h with
  | moved state _ _ _ _ hfound => exact hfound hlost
  | created file state _ htemporary _ =>
    subst htemporary
    cases hlost
  | wrote temporary file state _ _ _ _ hfound => cases hfound.symm.trans hlost
  | replaced temporary file _ _ _ _ => cases hlost
  | unlinked _ _ => cases hlost

/-- A temporary file is that of the call, or was there and is not. -/
theorem PdfCall.Progress.temporaries (h : call.Progress sha256 disk disk' call') {temporary : Nat}
    (hfile : (disk'.temporaries temporary).isSome) : call'.state.temporary? = some temporary ∨
    (disk.temporaries temporary).isSome ∧ call.state.temporary? ≠ some temporary := by
  cases h with
  | moved state _ hleft _ _ _ =>
    exact or_iff_not_imp_left.mpr fun hother => ⟨hfile, fun hown => hother (hleft temporary hown)⟩
  | created file state hnone htemporary hknows =>
    subst htemporary
    by_cases hsame : temporary = disk.fresh
    · exact .inl (congrArg some hsame.symm)
    · refine .inr ⟨(congrArg Option.isSome (PdfDisk.temporaries_set_ne _ hsame _)).symm.trans
        hfile, ?_⟩
      rw [hnone]
      exact fun h => by cases h
  | wrote own file state hown htemporary _ _ _ =>
    by_cases hsame : temporary = own
    · subst hsame
      rcases htemporary with hstate | ⟨-, rfl⟩
      · exact .inl hstate
      · rw [PdfDisk.temporaries_set_self] at hfile
        cases hfile
    · refine .inr ⟨(congrArg Option.isSome (PdfDisk.temporaries_set_ne _ hsame _)).symm.trans
        hfile, ?_⟩
      rw [hown]
      exact fun h => hsame (Option.some.inj h).symm
  | replaced own file hown _ _ _ =>
    by_cases hsame : temporary = own
    · subst hsame
      rw [PdfDisk.temporaries_set_self] at hfile
      cases hfile
    · refine .inr ⟨(congrArg Option.isSome (PdfDisk.temporaries_set_ne _ hsame _)).symm.trans
        hfile, ?_⟩
      rw [hown]
      exact fun h => hsame (Option.some.inj h).symm
  | unlinked _ hnone =>
    refine .inr ⟨hfile, ?_⟩
    rw [hnone]
    exact fun h => by cases h

/-- Some call deletes the file of this key. -/
def Deletes (sha256 : List UInt8 → String) (p : Pool PdfDisk PdfCall) (key : String) : Prop :=
  ∃ call ∈ p.threads, call.request.isDelete = true ∧ call.request.key sha256 = key

/-- A file that a call has seen is there, unless some call deletes it; temporary files are those of
the calls. -/
structure PdfPoolKept (sha256 : List UInt8 → String) (p : Pool PdfDisk PdfCall) : Prop where
  kept : ∀ call ∈ p.threads, call.sees = true → (p.world.files (call.request.key sha256)).isSome ∨
    Deletes sha256 p (call.request.key sha256)
  lost : ∀ call ∈ p.threads, call.lost = true → Deletes sha256 p (call.request.key sha256)
  owned : ∀ temporary, (p.world.temporaries temporary).isSome → ∃ call ∈ p.threads,
    call.state.temporary? = some temporary

/-- A call of the pool is there after a step of another one. -/
theorem mem_threads_set {p : Pool PdfDisk PdfCall} {i : Nat} {other : PdfCall} (call' : PdfCall)
    (hcall : p.threads[i]? = some call) (hother : other ∈ p.threads) :
    other = call ∨ other ∈ p.threads.set i call' := by
  obtain ⟨j, hj⟩ := List.mem_iff_getElem?.mp hother
  by_cases hij : i = j
  · subst hij
    exact .inl (Option.some.inj (hj.symm.trans hcall))
  · exact .inr (List.mem_of_getElem? ((List.getElem?_set_ne hij).trans hj))

theorem kept_step (hdigest : ∀ bytes, (sha256 bytes).length = 64) {p q : Pool PdfDisk PdfCall}
    {label : PoolLabel PdfCall PdfOutcome}
    (hp : (pdfAssertions sha256).Holds p) (hkept : PdfPoolKept sha256 p)
    (h : pdfStep sha256 p label = some q) : PdfPoolKept sha256 q := by
  cases label with
  | spawn t =>
    obtain ⟨hstart, rfl⟩ := Pool.step_spawn h
    have hdeletes {key : String} (h : Deletes sha256 p key) :
        Deletes sha256 ⟨p.world, p.threads ++ [t]⟩ key :=
      h.imp fun call hcall => ⟨List.mem_append_left _ hcall.1, hcall.2⟩
    -- a call that starts has seen nothing
    have hnew : t.sees = false ∧ t.lost = false := by
      obtain ⟨request, state⟩ := t
      cases state with
      | start => exact ⟨rfl, rfl⟩
      | _ => cases hstart
    refine ⟨fun call hcall hsees => ?_, fun call hcall hlost => ?_, fun temporary hfile => ?_⟩
    · rcases List.mem_append.mp hcall with hold | hcall
      · exact (hkept.kept call hold hsees).imp id hdeletes
      · cases List.mem_singleton.mp hcall
        cases hnew.1.symm.trans hsees
    · rcases List.mem_append.mp hcall with hold | hcall
      · exact hdeletes (hkept.lost call hold hlost)
      · cases List.mem_singleton.mp hcall
        cases hnew.2.symm.trans hlost
    · obtain ⟨call, hcall, hown⟩ := hkept.owned temporary hfile
      exact ⟨call, List.mem_append_left _ hcall, hown⟩
  | act i outcome =>
    obtain ⟨t, disk', t', ht, hstep, rfl⟩ := Pool.step_act h
    have hprogress := step_pdfProgress hdigest hp.world (hp.thread i t ht) hstep
    have hself : t' ∈ p.threads.set i t' :=
      List.mem_of_getElem? (List.getElem?_set_self (List.getElem?_eq_some_iff.mp ht).1)
    have hdeletes {key : String} (h : Deletes sha256 p key) :
        Deletes sha256 ⟨disk', p.threads.set i t'⟩ key := by
      obtain ⟨call, hcall, hdelete⟩ := h
      rcases mem_threads_set t' ht hcall with rfl | hcall
      · rw [← hprogress.request_eq] at hdelete
        exact ⟨t', hself, hdelete⟩
      · exact ⟨call, hcall, hdelete⟩
    refine ⟨fun call hcall hsees => ?_, fun call hcall hlost => ?_, fun temporary hfile => ?_⟩
    · rcases List.mem_or_eq_of_mem_set hcall with hold | rfl
      · rcases hkept.kept call hold hsees with hfile | hdelete
        · exact (hprogress.files hfile).imp id fun hdelete => ⟨t', hself, hdelete⟩
        · exact .inr (hdeletes hdelete)
      · exact .inl (hprogress.sees hsees)
    · rcases List.mem_or_eq_of_mem_set hcall with hold | rfl
      · exact hdeletes (hkept.lost call hold hlost)
      · obtain ⟨hseen, hnone⟩ := hprogress.lost hlost
        rw [hprogress.request_eq]
        refine hdeletes ((hkept.kept t (List.mem_of_getElem? ht) hseen).resolve_left ?_)
        rw [hnone]
        exact Bool.false_ne_true
    · rcases hprogress.temporaries hfile with hown | ⟨hold, hother⟩
      · exact ⟨t', hself, hown⟩
      · obtain ⟨call, hcall, hown⟩ := hkept.owned temporary hold
        rcases mem_threads_set t' ht hcall with rfl | hcall
        · exact absurd hown hother
        · exact ⟨call, hcall, hown⟩

/-- However puts, reads and deletes overlap and fail: a key holds a whole file of the content it
names or none; a file that was put is there until a call deletes it; a read returns the content of
its record; only a delete makes a file go that a call has seen; and the temporary files are those of
puts under way or that failed. -/
theorem pdf_store_safe (hdigest : ∀ bytes, (sha256 bytes).length = 64) (hdisk : disk.Sound sha256)
    (hnone : ∀ temporary, disk.temporaries temporary = none)
    {labels : List (PoolLabel PdfCall PdfOutcome)} {p : Pool PdfDisk PdfCall}
    (hrun : run (pdfStep sha256) ⟨disk, []⟩ labels = some p) :
    p.world.Sound sha256 ∧
      (∀ call ∈ p.threads, ∀ answer, call.state = .returned answer →
        call.request.Answers sha256 answer) ∧
      (∀ call ∈ p.threads, ∀ pdf, call.state = .returned (.stored pdf) →
        Deletes sha256 p pdf.objectKey ∨ ∃ file, p.world.files pdf.objectKey = some file ∧
        sha256 file.bytes = pdf.contentSha256) ∧
      (∀ call ∈ p.threads, ∀ e, call.state = .raised e → call.request.Raises sha256 e ∧
        (call.lost = true → Deletes sha256 p (call.request.key sha256))) ∧
      ∀ temporary, (p.world.temporaries temporary).isSome → ∃ call ∈ p.threads,
        call.state.temporary? = some temporary := by
  have hinvariant : (pdfAssertions sha256).Holds p ∧ PdfPoolKept sha256 p := by
    refine run_invariant (pdfStep sha256) (I := fun q => (pdfAssertions sha256).Holds q ∧
      PdfPoolKept sha256 q) (fun q label q' hq hstep => ?_)
      ⟨Assertions.holds_nil hdisk, (fun _ h => absurd h List.not_mem_nil),
        (fun _ h => absurd h List.not_mem_nil), fun temporary h => ?_⟩ hrun
    · exact ⟨(pdf_outline hdigest).holds_of_run (.cons trivial hstep (.nil q')) hq.1,
        kept_step hdigest hq.1 hq.2 hstep⟩
    · rw [hnone] at h
      cases h
  obtain ⟨hholds, hkept⟩ := hinvariant
  have hthread (call : PdfCall) (hcall : call ∈ p.threads) : call.Holds sha256 p.world := by
    obtain ⟨i, hi⟩ := List.mem_iff_getElem?.mp hcall
    exact hholds.thread i call hi
  have hanswers (call : PdfCall) (hcall : call ∈ p.threads) (answer : PdfAnswer)
      (hstate : call.state = .returned answer) : call.request.Answers sha256 answer := by
    have hknows := (hthread call hcall).knows
    unfold PdfCall.Knows at hknows
    rwa [hstate] at hknows
  refine ⟨hholds.world, hanswers, fun call hcall pdf hstate => ?_,
    fun call hcall e hstate => ⟨?_, hkept.lost call hcall⟩, hkept.owned⟩
  · obtain ⟨pdfBytes, o, d, v, c, hrequest, -, -, -, hkey, hcontent, -⟩ :=
      hanswers call hcall _ hstate
    have hsees : call.sees = true := by
      unfold PdfCall.sees
      rw [hstate]
    rw [hkey]
    refine (hkept.kept call hcall hsees).symm.imp id fun hfile => ?_
    obtain ⟨file, hfile⟩ := Option.isSome_iff_exists.mp hfile
    refine ⟨file, hfile,
      (hholds.world.digest_eq hdigest (hthread call hcall).recorded hfile).trans ?_⟩
    rw [hcontent, hrequest]
    rfl
  · have hknows := (hthread call hcall).knows
    unfold PdfCall.Knows at hknows
    rwa [hstate] at hknows

/-! ### A call alone -/

/-- The call gets from one state to the other by steps that all get through, at one time and with no
other call between them. -/
def Alone (sha256 : List UInt8 → String) (now : Timestamp) (disk : PdfDisk) (call : PdfCall)
    (disk' : PdfDisk) (call' : PdfCall) : Prop :=
  ∃ steps, run (pdfStep sha256) ⟨disk, [call]⟩ (List.replicate steps (.act 0 (.completes now))) =
    some ⟨disk', [call']⟩

theorem Alone.refl (now : Timestamp) (disk : PdfDisk) (call : PdfCall) :
    Alone sha256 now disk call disk call := ⟨0, rfl⟩

theorem Alone.cons {now : Timestamp} {last : PdfDisk} {state : PdfState} {request : PdfRequest}
    {final : PdfCall} (next : PdfDisk) (state' : PdfState)
    (hstep : PdfCall.proceed sha256 now disk ⟨request, state⟩ = some (next, state'))
    (h : Alone sha256 now next ⟨request, state'⟩ last final) :
    Alone sha256 now disk ⟨request, state⟩ last final := by
  obtain ⟨steps, hrun⟩ := h
  refine ⟨steps + 1, ?_⟩
  have hfirst : pdfStep sha256 ⟨disk, [⟨request, state⟩]⟩ (.act 0 (.completes now)) =
      some ⟨next, [⟨request, state'⟩]⟩ := by
    change Option.map _ (Option.map _ (PdfCall.proceed sha256 now disk ⟨request, state⟩)) = _
    rw [hstep]
    rfl
  rw [List.replicate_succ, run_cons, hfirst]
  exact hrun

/-- From the verification on. -/
theorem Alone.verified {now : Timestamp} {pdfBytes : List UInt8}
    {ownerId documentId documentVersionId contentSha256 : String} {file : PdfFile}
    (hfile : disk.files (objectKey sha256 ownerId documentId documentVersionId contentSha256) =
      some file) (hdigest : sha256 file.bytes = contentSha256) :
    Alone sha256 now disk ⟨.put pdfBytes ownerId documentId documentVersionId contentSha256,
      .locating⟩ disk ⟨.put pdfBytes ownerId documentId documentVersionId contentSha256,
      .returned (.stored {
        ownerId, documentId, documentVersionId, objectKey :=
          objectKey sha256 ownerId documentId documentVersionId contentSha256,
        storageBackend := "filesystem_v1", contentSha256, sizeBytes := pdfBytes.length, storedAt :=
          file.modifiedAt })⟩ :=
  .cons disk .hashing (by simp [PdfCall.proceed, PdfRequest.key, hfile])
    (.cons disk .stating
      (by simp [PdfCall.proceed, PdfRequest.key, PdfRequest.expectedSha256, hfile, hdigest])
        (.cons disk _ (by simp only [PdfCall.proceed, PdfRequest.key, hfile]) (.refl ..)))

/-- A put that runs alone and gets through does what `putPdf` does. -/
theorem putPdf_alone {pdfBytes : List UInt8}
    {ownerId documentId documentVersionId contentSha256 : String} {now : Timestamp}
    {objects : PdfObjects}
    {pdf : PdfObjectV1}
    (h : putPdf sha256 disk.files pdfBytes ownerId documentId documentVersionId contentSha256 now =
      .ok (objects, pdf)) :
    ∃ disk', disk'.files = objects ∧
      Alone sha256 now disk ⟨.put pdfBytes ownerId documentId documentVersionId contentSha256,
        .start⟩ disk'
      ⟨.put pdfBytes ownerId documentId documentVersionId contentSha256,
        .returned (.stored pdf)⟩ := by
  unfold putPdf at h
  obtain ⟨haccepted, h⟩ := ensure_bind.mp h
  obtain ⟨hverified, h⟩ := check_bind.mp h
  have hdigest := of_decide_eq_true (ensure_eq_ok.mp hverified)
  cases pure_eq_ok.mp h
  cases hfile : disk.files (objectKey sha256 ownerId documentId documentVersionId contentSha256)
    with
  | some file =>
    rw [hfile] at hdigest
    refine ⟨disk, (Function.update_eq_self_iff.mpr hfile.symm).symm, ?_⟩
    refine .cons disk .probing ?_ (.cons disk .locating ?_ (.verified hfile hdigest))
    · simp only [PdfCall.proceed, haccepted, if_true]
    · simp [PdfCall.proceed, PdfRequest.key, hfile]
  | none =>
    rw [hfile] at hdigest
    let written : PdfFile := ⟨pdfBytes, now, documentVersionId⟩
    let key := objectKey sha256 ownerId documentId documentVersionId contentSha256
    let created : PdfDisk :=
      { disk.setTemporary disk.fresh (some ⟨[], now, documentVersionId⟩) with
        fresh := disk.fresh + 1 }
    let filled := created.setTemporary disk.fresh (some written)
    let moved := (filled.setFile key (some written)).setTemporary disk.fresh none
    have hmoved : moved.files key = some written := PdfDisk.files_setFile_self ..
    refine ⟨moved, rfl,
      .cons disk .probing ?_ (.cons disk .creating ?_ (.cons created (.writing disk.fresh) rfl
      (.cons filled (.replacing disk.fresh) rfl
        (.cons moved .protecting ?_ (.cons moved .locating ?_ (.verified hmoved hdigest))))))⟩
    · simp only [PdfCall.proceed, haccepted, if_true]
    · simp [PdfCall.proceed, PdfRequest.key, hfile]
    · simp only [PdfCall.proceed, PdfRequest.key, filled, PdfDisk.temporaries_set_self]
      rfl
    · exact congrArg (fun state => some (moved, state)) (if_pos (Option.isSome_of_mem hmoved))

end

/-! ### Two puts of one version -/

/-- The SHA-256 of the four bytes below, also for the names in the key. -/
def sampleDigest (_ : List UInt8) : String :=
  "315d429b7714cedb6ad04ac31240145257692630457f3c88253c5beceac76027"

theorem length_sampleDigest (bytes : List UInt8) : (sampleDigest bytes).length = 64 := by
  unfold sampleDigest
  decide +kernel

def emptyDisk : PdfDisk := ⟨fun _ => none, fun _ => none, 0⟩

def samplePut : PdfRequest :=
  .put [37, 80, 68, 70] "owner1" "doc1" "version1"
    "315d429b7714cedb6ad04ac31240145257692630457f3c88253c5beceac76027"

/-- Three puts find no file: two write theirs, one over the other, and the third fails as it writes.
-/
def overlappingPuts : List (PoolLabel PdfCall PdfOutcome) :=
  [.spawn ⟨samplePut, .start⟩, .spawn ⟨samplePut, .start⟩, .spawn ⟨samplePut, .start⟩] ++
    ((List.replicate 3 [0, 1, 2]).flatten.map fun i => .act i (.completes i)) ++
      [.act 2 (.fails 2 true)] ++
    ((List.replicate 6 [1, 0]).flatten.map fun i => .act i (.completes i))

def overlappedPuts : Option (Pool PdfDisk PdfCall) :=
  run (pdfStep sampleDigest) ⟨emptyDisk, []⟩ overlappingPuts

theorem pdf_store_safe_overlapping :
    ∃ p, overlappedPuts = some p ∧ p.threads.map (·.state.temporary?) = [none, none, some 2] ∧
    (p.world.files (samplePut.key sampleDigest)).map (·.bytes) = some [37, 80, 68, 70] ∧
    p.world.Sound sampleDigest := by
  have htemporaries : overlappedPuts.map (fun p => p.threads.map (·.state.temporary?)) =
      some [none, none, some 2] := by decide +kernel
  have hbytes : overlappedPuts.map (fun p => (p.world.files (samplePut.key sampleDigest)).map
      (·.bytes)) = some (some [37, 80, 68, 70]) := by
    decide +kernel
  obtain ⟨p, hp, hthreads⟩ := Option.map_eq_some_iff.mp htemporaries
  rw [hp] at hbytes
  obtain ⟨hsound, -⟩ :=
    pdf_store_safe length_sampleDigest ⟨(fun _ _ h => by cases h), fun _ _ => rfl⟩ (fun _ => rfl) hp
  exact ⟨p, hp, hthreads, Option.some.inj hbytes, hsound⟩

end ZhiyanRag.Storage
