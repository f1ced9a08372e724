import ZhiyanRag.Ingestion.Text
import ZhiyanRag.Retrieval.JsonText

/-!
# JSON lines

`_write_jsonl` ends each record with a line feed; `_load_jsonl` cuts the whole file with
`str.splitlines`, which knows ten line boundaries. JSON escapes the control characters among them,
and leaves U+0085, U+2028 and U+2029 as they are, so a record that has one of them is cut inside a
string (`loadJsonl_writeJsonl_iff`).
-/

namespace ZhiyanRag.Evaluation

open Ingestion Retrieval

/-- The line boundaries of `str.splitlines`. -/
def isLineBreak (c : Char) : Bool :=
  [0x0A, 0x0B, 0x0C, 0x0D, 0x1C, 0x1D, 0x1E, 0x85, 0x2028, 0x2029].contains c.toNat

def splitLines : List Char → List (List Char)
  | [] => []
  | '\r' :: '\n' :: rest => [] :: splitLines rest
  | c :: rest =>
    if isLineBreak c then [] :: splitLines rest
    else
      match splitLines rest with
      | [] => [[c]]
      | line :: lines => (c :: line) :: lines

/-- The newline translation of `read_text`. -/
def universalNewlines : List Char → List Char
  | [] => []
  | '\r' :: '\n' :: rest => '\n' :: universalNewlines rest
  | c :: rest => (if c = '\r' then '\n' else c) :: universalNewlines rest

section

variable {α : Type}

/-- `_write_jsonl`: what it writes to the file. -/
def writeJsonl (dump : α → JsonValue) (values : List α) : Except PyError (List Char) :=
  if values.all fun value => printable (dump value)
    then .ok (values.flatMap fun value => dumps (dump value) ++ ['\n'])
  else .error ⟨.valueError, "Exceeds the limit (4300 digits) for integer string conversion"⟩

/-- The loop of `_load_jsonl` over the lines from this one on. The text of the exception that ends
the message is left out. -/
def loadLines (path : String) (validate : JsonValue → Option α) :
    Nat → List (List Char) → Except PyError (List α)
  | _, [] => .ok []
  | number, line :: lines =>
    if isBlank line then loadLines path validate (number + 1) lines
    else
      match (loads line).bind validate with
      | none => .error ⟨.valueError, s!"invalid record at {path}:{number}"⟩
      | some record => (loadLines path validate (number + 1) lines).map (record :: ·)

def loadJsonl (path : String) (validate : JsonValue → Option α) (file : List Char) :
    Except PyError (List α) :=
  loadLines path validate 1 (splitLines (universalNewlines file))

end

/-! ### Lines -/

theorem isPlain_of_isLineBreak {c : Char} (h : isLineBreak c = true) : isPlain c = false := by
  unfold isLineBreak at h
  rw [List.contains_iff_mem] at h
  have hrange : ∀ n ∈ [0x0A, 0x0B, 0x0C, 0x0D, 0x1C, 0x1D, 0x1E, 0x85, 0x2028, 0x2029],
      ¬(32 ≤ n ∧ n ≤ 126) := by decide
  exact decide_eq_false (hrange _ h)

theorem universalNewlines_eq {s : List Char} (h : '\r' ∉ s) : universalNewlines s = s := by
  fun_induction universalNewlines s with
  | case1 => rfl
  | case2 rest ih => exact absurd List.mem_cons_self h
  | case3 c rest _ ih =>
    rw [ih fun hrest => h (List.mem_cons_of_mem _ hrest), if_neg]
    rintro rfl
    exact h List.mem_cons_self

theorem splitLines_cons {c : Char} (hc : isLineBreak c = false) (rest : List Char) :
    splitLines (c :: rest) =
      (match splitLines rest with | [] => [[c]] | line :: lines => (c :: line) :: lines) := by
  have hne : c ≠ '\r' := by
    rintro rfl
    cases hc
  rw [splitLines.eq_def]
  split
  · rename_i heq
    cases heq
  · rename_i heq
    exact absurd (List.cons.inj heq).1 hne
  · rename_i heq
    obtain ⟨rfl, rfl⟩ := List.cons.inj heq
    rw [hc]
    rfl

theorem splitLines_break {c : Char} (hc : isLineBreak c = true) (hne : c ≠ '\r')
    (rest : List Char) :
    splitLines (c :: rest) = [] :: splitLines rest := by
  rw [splitLines.eq_def]
  split
  · rename_i heq
    cases heq
  · rename_i heq
    exact absurd (List.cons.inj heq).1 hne
  · rename_i heq
    obtain ⟨rfl, rfl⟩ := List.cons.inj heq
    rw [if_pos hc]

/-- A line ends at the first boundary. -/
theorem splitLines_append {line : List Char} {c : Char} (hline : ∀ d ∈ line, isLineBreak d = false)
    (hc : isLineBreak c = true) (hne : c ≠ '\r') (rest : List Char) :
    splitLines (line ++ c :: rest) = line :: splitLines rest := by
  induction line with
  | nil => exact splitLines_break hc hne rest
  | cons d line ih =>
    obtain ⟨hd, hline⟩ := List.forall_mem_cons.mp hline
    rw [List.cons_append, splitLines_cons hd, ih hline]

/-- A text with a boundary is cut at the first one. -/
theorem exists_first_break {s : List Char} (h : ∃ c ∈ s, isLineBreak c = true) :
    ∃ line c rest, s = line ++ c :: rest ∧ isLineBreak c = true ∧ ∀ d ∈ line,
      isLineBreak d = false := by
  induction s with
  | nil =>
    obtain ⟨c, hc, -⟩ := h
    cases hc
  | cons d s ih =>
    cases hd : isLineBreak d with
    | true => exact ⟨[], d, s, rfl, hd, by simp⟩
    | false =>
      obtain ⟨c, hc, hbreak⟩ := h
      rcases List.mem_cons.mp hc with rfl | hc
      · rw [hd] at hbreak
        cases hbreak
      · obtain ⟨line, c, rest, rfl, hbreak, hline⟩ := ih ⟨c, hc, hbreak⟩
        exact ⟨d :: line, c, rest, rfl, hbreak, List.forall_mem_cons.mpr ⟨hd, hline⟩⟩

/-! ### The round trip -/

section

variable {α : Type} {dump : α → JsonValue} {validate : JsonValue → Option α} {path : String}

/-- No string of the record has a line boundary that JSON does not escape. -/
def Unbroken (value : JsonValue) : Prop :=
  ∀ text ∈ stringsOf value, ∀ c ∈ text.toList, ¬(126 < c.toNat ∧ isLineBreak c = true)

theorem unbroken_iff {value : JsonValue} (hprintable : printable value = true)
    (hreadable : readable value = true) :
    Unbroken value ↔ ∀ c ∈ dumps value, isLineBreak c = false := by
  have hprints := printsOnly_dumps value hprintable hreadable
  constructor
  · intro h c hc
    by_contra hbreak
    rw [Bool.not_eq_false] at hbreak
    obtain ⟨hhigh, text, htext, hmem⟩ := (hprints c (isPlain_of_isLineBreak hbreak)).mp hc
    exact h text htext c hmem ⟨hhigh, hbreak⟩
  · rintro h text htext c hc ⟨hhigh, hbreak⟩
    have hmem := (hprints c (isPlain_of_isLineBreak hbreak)).mpr ⟨hhigh, text, htext, hc⟩
    rw [h c hmem] at hbreak
    cases hbreak

/-- Control characters are escaped. -/
theorem return_notMem_dumps {value : JsonValue} (hprintable : printable value = true)
    (hreadable : readable value = true) : '\r' ∉ dumps value := fun h =>
  absurd ((printsOnly_dumps value hprintable hreadable '\r' (by decide)).mp h).1 (by decide)

theorem not_blank_of_lex {s : List Char} (h : lex .outside s = .inside) : isBlank s = false := by
  by_contra hblank
  rw [Bool.not_eq_false] at hblank
  have hquote : ∀ c ∈ s, c ≠ '"' := by
    rintro c hc rfl
    exact absurd (List.all_eq_true.mp hblank _ hc) (by decide)
  have houtside := lex_outside_append hquote []
  rw [List.append_nil, h] at houtside
  cases houtside

/-- The first character of a printed value is printable, and no space. -/
theorem not_blank_dumps {value : JsonValue} (hprintable : printable value = true)
    (hreadable : readable value = true) : isBlank (dumps value) = false := by
  obtain ⟨c, cs, hstart, hspace, -⟩ := dumps_start hprintable hreadable
  have hbalanced := (balanced_dumps value hprintable hreadable).1
  rw [hstart] at hbalanced ⊢
  have hplain : isPlain c = true := by
    by_contra hne
    cases hbalanced.1 (Bool.not_eq_true _ ▸ hne)
  have hrange := of_decide_eq_true hplain
  have hpy : isPySpace c = false := by
    have hne : c.toNat ≠ 32 := fun h => hspace (.inl (by rw [← Char.ofNat_toNat c, h]))
    unfold isPySpace isWhiteSpace
    simp only [Bool.or_eq_false_iff, Bool.and_eq_false_iff, decide_eq_false_iff_not,
      beq_eq_false_iff_ne]
    omega
  unfold isBlank
  rw [List.all_cons, hpy, Bool.false_and]

theorem loadLines_iff {values : List α}
    (hprintable : ∀ value ∈ values, printable (dump value) = true)
    (hreadable : ∀ value ∈ values, readable (dump value) = true)
    (hvalidate : ∀ value ∈ values, validate (dump value) = some value) (number : Nat) :
    loadLines path validate number
      (splitLines (values.flatMap fun value => dumps (dump value) ++ ['\n'])) = .ok values ↔
      ∀ value ∈ values, Unbroken (dump value) := by
  induction values generalizing number with
  | nil => simp [splitLines, loadLines]
  | cons value values ih =>
    obtain ⟨hp, hps⟩ := List.forall_mem_cons.mp hprintable
    obtain ⟨hr, hrs⟩ := List.forall_mem_cons.mp hreadable
    obtain ⟨hv, hvs⟩ := List.forall_mem_cons.mp hvalidate
    rw [List.forall_mem_cons, List.flatMap_cons, List.append_assoc, List.singleton_append]
    by_cases hunbroken : Unbroken (dump value)
    · rw [splitLines_append ((unbroken_iff hp hr).mp hunbroken) (by decide) (by decide), loadLines,
        not_blank_dumps hp hr, loads_dumps hp hr, Option.bind_some, hv, and_iff_right hunbroken,
        ← ih hps hrs hvs (number + 1)]
      simp only [Bool.false_eq_true, if_false]
      cases loadLines path validate (number + 1)
        (splitLines (values.flatMap fun value => dumps (dump value) ++ ['\n'])) with
      | error error => simp [Except.map]
      | ok records => simp [Except.map]
    · -- the first line of a broken record ends inside a string
      have hbreak : ∃ c ∈ dumps (dump value), isLineBreak c = true := by
        by_contra hnone
        simp only [not_exists, not_and, Bool.not_eq_true] at hnone
        exact hunbroken ((unbroken_iff hp hr).mpr hnone)
      obtain ⟨line, c, rest, htext, hc, hline⟩ := exists_first_break hbreak
      have hne : c ≠ '\r' := by
        rintro rfl
        exact return_notMem_dumps hp hr (htext ▸ List.mem_append_right _ List.mem_cons_self)
      have hinside : lex .outside line = .inside := by
        have hbalanced := (balanced_dumps _ hp hr).1
        rw [htext, inStrings_append] at hbalanced
        exact hbalanced.2.1 (isPlain_of_isLineBreak hc)
      rw [htext, List.append_assoc, List.cons_append, splitLines_append hline hc hne, loadLines,
        not_blank_of_lex hinside, loads_of_inside hinside]
      constructor
      · intro h
        cases h
      · exact fun h => absurd h.1 hunbroken

theorem loadJsonl_writeJsonl_iff {values : List α}
    (hreadable : ∀ value ∈ values, readable (dump value) = true)
    (hvalidate : ∀ value ∈ values, validate (dump value) = some value) :
    (writeJsonl dump values).bind (loadJsonl path validate) = .ok values ↔
      ∀ value ∈ values, printable (dump value) = true ∧ Unbroken (dump value) := by
  unfold writeJsonl
  by_cases hprintable : ∀ value ∈ values, printable (dump value) = true
  · rw [if_pos (List.all_eq_true.mpr hprintable)]
    have hreturn : '\r' ∉ values.flatMap fun value => dumps (dump value) ++ ['\n'] := by
      rw [List.mem_flatMap]
      rintro ⟨value, hvalue, hmem⟩
      rcases List.mem_append.mp hmem with hmem | hmem
      · exact return_notMem_dumps (hprintable value hvalue) (hreadable value hvalue) hmem
      · exact absurd (List.mem_singleton.mp hmem) (by decide)
    show loadJsonl path validate _ = _ ↔ _
    unfold loadJsonl
    rw [universalNewlines_eq hreturn, loadLines_iff hprintable hreadable hvalidate]
    exact forall₂_congr fun value hvalue => (and_iff_right (hprintable value hvalue)).symm
  · rw [if_neg fun hall => hprintable (List.all_eq_true.mp hall)]
    constructor
    · intro h
      cases h
    · exact fun h => absurd (fun value hvalue => (h value hvalue).1) hprintable

end

end ZhiyanRag.Evaluation
