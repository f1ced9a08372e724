import ZhiyanRag.Base
import ZhiyanRag.Lib.Regex
import ZhiyanRag.Lib.Spans

/-!
# Python text

A `str` is its list of characters. `strip`, slices and trimmed spans are Python's; the Unicode
classes that the patterns and `isalpha`, `isupper` read from the database are parameters
(`UnicodeTables`).
-/

namespace ZhiyanRag.Ingestion

open Regex Spans

/-- What the Unicode database says of a character. -/
structure UnicodeTables where
  decimal : Char → Option Nat
  isWord : Char → Bool
  isAlpha : Char → Bool
  isUpper : Char → Bool

/-- Unicode, as far as ASCII goes. -/
def asciiTables : UnicodeTables where
  decimal c := if c.isDigit then some (c.toNat - 48) else none
  isWord c := c.isAlphanum || decide (c = '_')
  isAlpha := Char.isAlpha
  isUpper := Char.isUpper

/-- `int` reads ASCII digits as Unicode has them. -/
def ReadsAsciiDigits (unicode : UnicodeTables) : Prop :=
  ∀ c : Char, c.isDigit = true → unicode.decimal c = some (c.toNat - '0'.toNat)

theorem asciiTables_readsAsciiDigits : ReadsAsciiDigits asciiTables := fun _ hc => if_pos hc

/-- `text[start:stop]`. -/
def slice {α : Type} (text : List α) (start stop : Nat) : List α := (text.take stop).drop start

/-- `not text.strip()`. -/
def isBlank (text : List Char) : Bool := text.all isPySpace

/-- `text.strip()`, of a text whose symbols stand for characters. -/
def stripBy {α : Type} (toChar : α → Char) (text : List α) : List α :=
  ((text.dropWhile fun a => isPySpace (toChar a)).reverse.dropWhile
    fun a => isPySpace (toChar a)).reverse

/-- `text.strip()`. -/
def strip (text : List Char) : List Char := stripBy id text

/-- `_trim_span`. -/
def trimSpan (text : List Char) (start stop : Nat) : Span :=
  let leading := ((slice text start stop).takeWhile isPySpace).length
  let body := slice text (start + leading) stop
  ⟨start + leading, stop - (body.reverse.takeWhile isPySpace).length⟩

/-! ### Patterns -/

/-- `^` of a multi-line pattern. -/
def lineStart : Pattern Char := .assert fun before _ => before.all (· = '\n')

/-- `$` of a multi-line pattern. -/
def lineEnd : Pattern Char := .assert fun _ next => next.all (· = '\n')

/-- `\s`. -/
def space : Pattern Char := .char isPySpace

/-- `\d`. -/
def decimal (unicode : UnicodeTables) : Pattern Char := .char fun c => (unicode.decimal c).isSome

/-- A character of an ASCII range. -/
def range (first last : Char) : Pattern Char :=
  .char fun c => decide (first ≤ c) && decide (c ≤ last)

def exactly (c : Char) : Pattern Char := .char fun d => decide (d = c)

def literal (text : String) : Pattern Char := .literal text.toList

/-- Patterns one after the other. -/
def sequence : List (Pattern Char) → Pattern Char
  | [] => .empty
  | [r] => r
  | r :: rs => .seq r (sequence rs)

/-! ### Joined text -/

/-- Where the parts of `sep.join(parts)` are, for a separator of `gap` characters and the first part
at an offset. -/
def joinSpans (gap : Nat) : Nat → List (List Char) → List Span
  | _, [] => []
  | offset, part :: parts => ⟨offset, offset + part.length⟩ ::
      joinSpans gap (offset + part.length + gap) parts

/-! ### Slices -/

section

variable {text : List Char} {start stop : Nat}

theorem length_slice {α : Type} (text : List α) (start stop : Nat) :
    (slice text start stop).length = min stop text.length - start := by
  simp [slice]

theorem getElem?_slice {α : Type} (text : List α) (start stop i : Nat) :
    (slice text start stop)[i]? = if start + i < stop then text[start + i]? else none := by
  unfold slice
  rw [List.getElem?_drop, List.getElem?_take]

theorem slice_cons {α : Type} {text : List α} {start stop : Nat} (hstop : start < stop)
    (hlength : start < text.length) :
    slice text start stop = text[start] :: slice text (start + 1) stop := by
  have htake : start < (text.take stop).length := by
    rw [List.length_take]
    omega
  unfold slice
  rw [List.drop_eq_getElem_cons htake, List.getElem_take]

theorem slice_self {α : Type} (text : List α) (start : Nat) : slice text start start = [] := by
  rw [← List.length_eq_zero_iff, length_slice]
  omega

/-- The parts of a slice are slices. -/
theorem slice_eq_append {α : Type} {text front back : List α} {start stop : Nat}
    (hle : start ≤ stop) (hstop : stop ≤ text.length) (h : slice text start stop = front ++ back) :
    start + front.length ≤ stop ∧ front = slice text start (start + front.length) ∧
      back = slice text (start + front.length) stop := by
  have hlength : front.length + back.length = stop - start := by
    rw [← List.length_append, ← h, length_slice, Nat.min_eq_left hstop]
  have hfront : start + front.length ≤ stop := by omega
  refine ⟨hfront, ?_, ?_⟩
  · have := congrArg (List.take front.length) h
    rw [List.take_left] at this
    refine this.symm.trans ?_
    unfold slice
    rw [List.take_drop, List.take_take, Nat.min_eq_left hfront]
  · have := congrArg (List.drop front.length) h
    rw [List.drop_left] at this
    refine this.symm.trans ?_
    unfold slice
    rw [List.drop_drop]

/-- Adjacent slices make one. -/
theorem slice_append {α : Type} (text : List α) {start mid stop : Nat} (hstart : start ≤ mid)
    (hmid : mid ≤ stop) : slice text start mid ++ slice text mid stop = slice text start stop := by
  unfold slice
  have htake : text.take mid = (text.take stop).take mid := by
    rw [List.take_take, Nat.min_eq_left hmid]
  rw [htake, List.drop_take]
  have := List.take_append_drop (mid - start) ((text.take stop).drop start)
  rwa [List.drop_drop, Nat.add_sub_cancel' hstart] at this

/-- A slice of a slice. -/
theorem slice_slice {α : Type} (text : List α) {start stop i j : Nat} (hj : start + j ≤ stop) :
    slice (slice text start stop) i j = slice text (start + i) (start + j) := by
  unfold slice
  rw [List.take_drop, List.take_take, Nat.min_eq_left hj, List.drop_drop]

theorem slice_all {α : Type} (text : List α) : slice text 0 text.length = text := by
  unfold slice
  rw [List.take_length, List.drop_zero]

theorem mem_slice {α : Type} {text : List α} {a : α} :
    a ∈ slice text start stop ↔ ∃ i, start ≤ i ∧ i < stop ∧ text[i]? = some a := by
  rw [List.mem_iff_getElem?]
  constructor
  · rintro ⟨i, hi⟩
    rw [getElem?_slice] at hi
    split at hi
    · exact ⟨start + i, Nat.le_add_right _ _, ‹_›, hi⟩
    · cases hi
  · rintro ⟨i, hstart, hstop, hi⟩
    refine ⟨i - start, ?_⟩
    rw [getElem?_slice, Nat.add_sub_cancel' hstart, if_pos hstop]
    exact hi

/-- A slice is not blank if one of its characters is not white space. -/
theorem isBlank_slice_eq_false : isBlank (slice text start stop) = false ↔
    ∃ i c, start ≤ i ∧ i < stop ∧ text[i]? = some c ∧ isPySpace c = false := by
  unfold isBlank
  rw [List.all_eq_false]
  constructor
  · rintro ⟨c, hc, hspace⟩
    obtain ⟨i, hstart, hstop, hi⟩ := mem_slice.mp hc
    exact ⟨i, c, hstart, hstop, hi, Bool.not_eq_true _ ▸ hspace⟩
  · rintro ⟨i, c, hstart, hstop, hi, hspace⟩
    exact ⟨c, mem_slice.mpr ⟨i, hstart, hstop, hi⟩, by simp [hspace]⟩

/-- A trimmed span begins where the text does, if that is not white space. -/
theorem trimSpan_start {c : Char} (hstop : start < stop) (hc : text[start]? = some c)
    (hspace : isPySpace c = false) : (trimSpan text start stop).start = start := by
  have hcons : ∃ rest, slice text start stop = c :: rest := by
    have hget : (slice text start stop)[0]? = some c := by
      rw [getElem?_slice, Nat.add_zero, if_pos hstop]
      exact hc
    cases hslice : slice text start stop with
    | nil =>
      rw [hslice] at hget
      cases hget
    | cons a rest =>
      rw [hslice] at hget
      cases hget
      exact ⟨rest, rfl⟩
  obtain ⟨rest, hrest⟩ := hcons
  simp [trimSpan, hrest, hspace]

end

end ZhiyanRag.Ingestion
