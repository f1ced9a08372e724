import Mathlib.Logic.Function.Basic
import ZhiyanRag.Ingestion.Service
import ZhiyanRag.Storage.Models

/-!
# The PDF object store

`FilesystemPdfObjectStore`: one file per object key, written once and verified ever after. Keys are
built by `objectKey`, so a key is its own path below the data root. A file remembers the version it
was written for, which the file system does not; no operation reads it.
-/

namespace ZhiyanRag.Storage

open ZhiyanRag.Ingestion

structure PdfFile where
  bytes : List UInt8
  modifiedAt : Timestamp
  writtenFor : String
  deriving DecidableEq

/-- The files of the data root by object key. -/
abbrev PdfObjects := String → Option PdfFile

section

variable (sha256 : List UInt8 → String)

def objectKey (ownerId documentId documentVersionId contentSha256 : String) : String :=
  let identity := ownerId ++ "\x00" ++ documentId ++ "\x00" ++ documentVersionId
  let identitySha256 := sha256 identity.toUTF8.toList
  "pdf/v1/" ++ takeChars identitySha256 2 ++ "/" ++ identitySha256 ++ "/" ++ contentSha256 ++ ".pdf"

/-- `_verify_file` on a file that is there. -/
def verifyFile (file : PdfFile) (expectedSha256 : String) : Except PyError Unit :=
  ensure (decide (sha256 file.bytes = expectedSha256)) .pdfObjectStoreError
    "PDF object payload drifted after persistence"

/-- `put_pdf`; the owner, document and version are validated identifiers, so building the
`PdfObjectV1` cannot fail after the file is written. -/
def putPdf (objects : PdfObjects) (pdfBytes : List UInt8)
    (ownerId documentId documentVersionId contentSha256 : String) (now : Timestamp) :
    Except PyError (PdfObjects × PdfObjectV1) := do
  ensure (!pdfBytes.isEmpty && decide (sha256 pdfBytes = contentSha256)) .pdfObjectStoreError
    "PDF object bytes do not match content identity"
  let key := objectKey sha256 ownerId documentId documentVersionId contentSha256
  let file := (objects key).getD ⟨pdfBytes, now, documentVersionId⟩
  verifyFile sha256 file contentSha256
  return (Function.update objects key (some file),
    { ownerId := ownerId
      documentId := documentId
      documentVersionId := documentVersionId
      objectKey := key
      storageBackend := "filesystem_v1"
      contentSha256 := contentSha256
      sizeBytes := pdfBytes.length
      storedAt := file.modifiedAt })

/-- `delete_pdf`: the files that are left, and whether there was one. -/
def deletePdf (objects : PdfObjects) (pdfObject : PdfObjectV1) :
    Except PyError (PdfObjects × Bool) :=
  match objects pdfObject.objectKey with
  | none => .ok (objects, false)
  | some file => do
    verifyFile sha256 file pdfObject.contentSha256
    return (Function.update objects pdfObject.objectKey none, true)

variable {sha256}

/-- A put writes at most the file of its own key, and registers that key under the given identity.
-/
theorem putPdf_ok {objects objects' : PdfObjects} {pdfBytes : List UInt8}
    {ownerId documentId documentVersionId contentSha256 : String} {now : Timestamp}
    {pdf : PdfObjectV1}
    (h : putPdf sha256 objects pdfBytes ownerId documentId documentVersionId contentSha256 now =
      .ok (objects', pdf)) :
    pdf.ownerId = ownerId ∧ pdf.documentId = documentId ∧
      pdf.documentVersionId = documentVersionId ∧ pdf.contentSha256 = contentSha256 ∧
      pdf.objectKey = objectKey sha256 ownerId documentId documentVersionId contentSha256 ∧
      ∃ file, objects' = Function.update objects pdf.objectKey (some file) ∧
        (objects pdf.objectKey = some file ∨
          objects pdf.objectKey = none ∧ file.writtenFor = documentVersionId) := by
  unfold putPdf at h
  obtain ⟨-, h⟩ := ensure_bind.mp h
  obtain ⟨-, h⟩ := check_bind.mp h
  cases pure_eq_ok.mp h
  refine ⟨rfl, rfl, rfl, rfl, rfl, _, rfl, ?_⟩
  cases hfile : objects (objectKey sha256 ownerId documentId documentVersionId contentSha256) with
  | none => exact .inr ⟨rfl, rfl⟩
  | some file => exact .inl rfl

theorem deletePdf_ok {objects objects' : PdfObjects} {pdf : PdfObjectV1} {existed : Bool}
    (h : deletePdf sha256 objects pdf = .ok (objects', existed)) :
    objects' = Function.update objects pdf.objectKey none := by
  unfold deletePdf at h
  split at h
  · rename_i hnone
    cases h
    exact (Function.update_eq_self_iff.mpr hnone.symm).symm
  · obtain ⟨-, h⟩ := check_bind.mp h
    cases pure_eq_ok.mp h
    rfl

end

end ZhiyanRag.Storage
