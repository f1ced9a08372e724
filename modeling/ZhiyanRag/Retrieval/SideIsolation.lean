import Mathlib.Data.List.TakeWhile
import ZhiyanRag.Retrieval.AliasSpans
import ZhiyanRag.Retrieval.RouteCoverage

/-!
# Side isolation

Whether the query of a document has an alias of the other document in it. A clause about both
documents shares its front and its tail, so a name that is repeated behind the first tail word
crosses over (`isolated_iff`).
-/

namespace ZhiyanRag.Retrieval

open Regex Spans Ingestion Rag Occurrences

/-- White space and the commas that are stripped. -/
def isSeparator (c : Char) : Bool := isPySpace c || " ，,".toList.contains c

section

variable (tables : TextTables)

/-- What the Unicode database says of separators: they fold to themselves, and nothing else folds to
one. -/
structure FoldsSeparators : Prop where
  fixed : ∀ c, isSeparator c = true → tables.casefold c = [c]
  apart : ∀ c, isSeparator c = false → ∀ d ∈ tables.casefold c, isSeparator d = false

/-- A part has an alias in it. -/
def Contains (part name : List Char) : Prop := casefold tables name <:+: casefold tables part

/-- An alias of the other document that is not part of an alias of the own one. -/
structure Foreign (own other : DocumentQueryIdentity) (name : List Char) : Prop where
  mem : name ∈ other.aliases
  not_part : ∀ ownName ∈ own.aliases, ¬Contains tables ownName name

/-- No query has a foreign alias in it. -/
def Isolated (plan : RouteQueryPlan) (first second : DocumentQueryIdentity) : Prop :=
  (∀ query, plan.queries.lookup first.documentId = some query →
    ∀ name, Foreign tables first second name → ¬Contains tables query.toList name) ∧
  ∀ query, plan.queries.lookup second.documentId = some query →
    ∀ name, Foreign tables second first name → ¬Contains tables query.toList name

/-! ### What crosses over -/

/-- Where an alias of the document occurs first in the clause, the shortest one there. -/
def NamedFirst (clause : List Char) (identity : DocumentQueryIdentity) (span : Span) : Prop :=
  ∃ name, OccursFirst tables clause identity.aliases name span.start ∧
    span.stop = span.start + name.length

/-- The stretches of a clause that go to the own document: all of a clause that does not name the
other one, and of a clause that names both the front, the own side and the tail. The own side goes
from the own name to the last connector before the other one, or, if the own name stands second,
to the first tail word behind it, where the tail starts. -/
inductive GoesTo (own other : DocumentQueryIdentity) (clause : List Char) : Nat → Nat → Prop
  | whole : (∀ span, ¬NamedFirst tables clause other span) → GoesTo own other clause 0 clause.length
  | front {ownSpan otherSpan : Span} : NamedFirst tables clause own ownSpan →
      NamedFirst tables clause other otherSpan →
      GoesTo own other clause 0 (min ownSpan.start otherSpan.start)
  | ownFirst {ownSpan otherSpan connector : Span} : NamedFirst tables clause own ownSpan →
      NamedFirst tables clause other otherSpan → ownSpan.start ≤ otherSpan.start →
      lastConnectorSpan (slice clause ownSpan.stop otherSpan.start) = some connector →
      GoesTo own other clause ownSpan.start (ownSpan.stop + connector.start)
  | ownSecond {ownSpan otherSpan : Span} {tail : Nat} : NamedFirst tables clause own ownSpan →
      NamedFirst tables clause other otherSpan → otherSpan.start < ownSpan.start →
      sharedTailStart clause ownSpan.stop = some tail → GoesTo own other clause ownSpan.start tail
  | tail {ownSpan otherSpan : Span} {tail : Nat} : NamedFirst tables clause own ownSpan →
      NamedFirst tables clause other otherSpan →
      sharedTailStart clause
        (if ownSpan.start ≤ otherSpan.start then otherSpan.stop else ownSpan.stop) = some tail →
      GoesTo own other clause tail clause.length

/-- A word occurs in the folded clause between the borders of two of its characters. -/
def OccursWithin (clause word : List Char) (start stop : Nat) : Prop :=
  ∃ place, foldingLength tables (clause.take start) ≤ place ∧
    word <+: (casefold tables clause).drop place ∧
    place + word.length ≤ foldingLength tables (clause.take stop)

/-- A word occurs in a stretch of the question that goes to the own document. -/
def CrossesOver (own other : DocumentQueryIdentity) (question word : List Char) : Prop :=
  ∃ clause ∈ clausesOf question, ∃ start stop, GoesTo tables own other clause start stop ∧
    OccursWithin tables clause word start stop

/-- Of each foreign alias some word does not cross over. -/
def KeptOut (own other : DocumentQueryIdentity) (question : List Char) : Prop :=
  ∀ name, Foreign tables own other name → ∃ word, IsWord (fun c => isSeparator c = true) word ∧
    word <:+: casefold tables name ∧ ¬CrossesOver tables own other question word

/-- A text that starts and ends with no separator, and whose white space is single spaces. -/
structure SinglySpaced (text : List Char) : Prop where
  ne_nil : text ≠ []
  first : ∀ c ∈ text.head?, isSeparator c = false
  last : ∀ c ∈ text.getLast?, isSeparator c = false
  spaces : ∀ front c d back, text = front ++ c :: d :: back → isPySpace c = true →
    c = ' ' ∧ isPySpace d = false

/-- No foreign alias crosses over as a whole. -/
def NotRepeated (own other : DocumentQueryIdentity) (question : List Char) : Prop :=
  ∀ name, Foreign tables own other name → SinglySpaced (casefold tables name) →
    ¬CrossesOver tables own other question (casefold tables name)

/-- The foreign aliases have no spaces and commas in them. -/
def SingleWords (own other : DocumentQueryIdentity) : Prop :=
  ∀ name, Foreign tables own other name →
    IsWord (fun c => isSeparator c = true) (casefold tables name)

end

variable {tables : TextTables} {text name word : List Char}
  {own other first second : DocumentQueryIdentity}

/-! ### Words in normalized texts -/

theorem casefold_separators (hfold : FoldsSeparators tables) {separators : List Char}
    (h : ∀ c ∈ separators, isSeparator c = true) : casefold tables separators = separators := by
  induction separators with
  | nil => rfl
  | cons c rest ih =>
    unfold casefold at ih ⊢
    rw [List.flatMap_cons, hfold.fixed c (h c List.mem_cons_self),
      ih fun d hd => h d (List.mem_cons_of_mem c hd), List.singleton_append]

theorem casefold_cons_separator (hfold : FoldsSeparators tables) {c : Char}
    (hc : isSeparator c = true) (text : List Char) :
    casefold tables (c :: text) = c :: casefold tables text := by
  have hcons : casefold tables (c :: text) = tables.casefold c ++ casefold tables text := rfl
  rw [hcons, hfold.fixed c hc, List.singleton_append]

theorem isSeparator_of_isPySpace {c : Char} (h : isPySpace c = true) : isSeparator c = true := by
  unfold isSeparator
  rw [h, Bool.true_or]

theorem exists_stripCommas (text : List Char) :
    ∃ front back, text = front ++ (stripCommas text ++ back) ∧ (∀ c ∈ front, isSeparator c = true) ∧
    ∀ c ∈ back, isSeparator c = true := by
  have hmem : ∀ c, " ，,".toList.contains c = true → isSeparator c = true := by
    intro c hc
    unfold isSeparator
    rw [hc, Bool.or_true]
  unfold stripCommas stripChars
  refine ⟨text.takeWhile fun c => " ，,".toList.contains c,
    ((text.dropWhile fun c => " ，,".toList.contains c).reverse.takeWhile
      fun c => " ，,".toList.contains c).reverse, ?_, ?_, ?_⟩
  · rw [← List.reverse_append, List.takeWhile_append_dropWhile, List.reverse_reverse,
      List.takeWhile_append_dropWhile]
  · exact fun c hc => hmem c (List.mem_takeWhile_imp hc)
  · exact fun c hc => hmem c (List.mem_takeWhile_imp (List.mem_reverse.mp hc))

section

variable (hfold : FoldsSeparators tables) (hword : IsWord (fun c => isSeparator c = true) word)

include hfold hword

theorem infix_stripCommas :
    word <:+: casefold tables (stripCommas text) ↔ word <:+: casefold tables text := by
  obtain ⟨front, back, htext, hfront, hback⟩ := exists_stripCommas text
  conv_rhs => rw [htext, casefold_append, casefold_append, casefold_separators hfold hfront,
    casefold_separators hfold hback]
  rw [hword.infix_separators_append hfront, hword.infix_append_separators hback]

/-- By induction on the text, with the text before it. -/
theorem infix_collapseSpaces (before : List Char) :
    word <:+: before ++ casefold tables (collapseSpaces text) ↔
    word <:+: before ++ casefold tables text := by
  induction text generalizing before with
  | nil => rfl
  | cons c rest ih =>
    have hspace : ∀ d, isPySpace d = true →
        ∀ text, word <:+: before ++ casefold tables (d :: text) ↔ word <:+: before ∨
        word <:+: casefold tables text := by
      intro d hd text
      rw [casefold_cons_separator hfold (isSeparator_of_isPySpace hd)]
      exact hword.infix_append_cons (isSeparator_of_isPySpace hd)
    have hrest : word <:+: casefold tables (collapseSpaces rest) ↔
        word <:+: casefold tables rest := ih []
    unfold collapseSpaces
    by_cases hc : isPySpace c = true
    · rw [if_pos hc]
      split
      · rename_i hnext
        rw [ih before, hspace c hc]
        cases rest with
        | nil => cases hnext
        | cons d rest =>
          have hd : isSeparator d = true := isSeparator_of_isPySpace hnext
          rw [hspace d hnext, casefold_cons_separator hfold hd, hword.infix_cons hd]
      · rw [hspace c hc, hspace ' ' rfl, hrest]
    · have hcons : ∀ text, casefold tables (c :: text) = tables.casefold c ++
          casefold tables text :=
        fun _ => rfl
      rw [if_neg hc, hcons, hcons, ← List.append_assoc, ← List.append_assoc, ih]

theorem infix_normalizeQuery :
    word <:+: casefold tables (normalizeQuery text) ↔ word <:+: casefold tables text := by
  unfold normalizeQuery
  rw [infix_stripCommas hfold hword]
  exact infix_collapseSpaces hfold hword []

theorem infix_append_space {front back : List Char} :
    word <:+: casefold tables (front ++ ' ' :: back) ↔ word <:+: casefold tables front ∨
    word <:+: casefold tables back := by
  rw [casefold_append, casefold_cons_separator hfold rfl]
  exact hword.infix_append_cons rfl

theorem infix_joinSpaced {parts : List (List Char)} :
    word <:+: casefold tables (joinSpaced parts) ↔ ∃ part ∈ parts,
      word <:+: casefold tables part := by
  induction parts with
  | nil =>
    have hnil : ¬word <:+: casefold tables (joinSpaced []) := fun h =>
      hword.ne_nil (List.infix_nil.mp h)
    simp [hnil]
  | cons part rest ih =>
    cases rest with
    | nil =>
      unfold joinSpaced
      simp
    | cons next rest =>
      have hjoin : joinSpaced (part :: next :: rest) = part ++ ' ' ::
          joinSpaced (next :: rest) := by
        unfold joinSpaced
        simp
      rw [hjoin, infix_append_space hfold hword, ih]
      exact (List.exists_mem_cons_iff (fun part => word <:+: casefold tables part) part
        (next :: rest)).symm

end

/-! ### Several words in normalized texts -/

theorem singlySpaced_of_isWord (hword : IsWord (fun c => isSeparator c = true) word) :
    SinglySpaced word where
  ne_nil := hword.ne_nil
  first c hc := Bool.eq_false_iff.mpr (hword.free c (List.mem_of_mem_head? hc))
  last c hc := Bool.eq_false_iff.mpr (hword.free c (List.mem_of_mem_getLast? hc))
  spaces front c d back heq hspace := by
    have hmem : c ∈ word := by
      rw [heq]
      exact List.mem_append_right _ List.mem_cons_self
    exact absurd (isSeparator_of_isPySpace hspace) (hword.free c hmem)

namespace SinglySpaced

variable {x y : List Char} {c : Char} (hspaced : SinglySpaced word)

include hspaced

theorem not_prefix_cons (hc : isSeparator c = true) : ¬word <+: c :: y := by
  intro hfront
  cases hword : word with
  | nil => exact hspaced.ne_nil hword
  | cons d rest =>
    rw [hword, List.cons_prefix_cons] at hfront
    have hfirst := hspaced.first d (hword ▸ rfl)
    rw [hfront.1, hc] at hfirst
    cases hfirst

theorem infix_of_separators_append (hx : ∀ c ∈ x, isSeparator c = true) (h : word <:+: x ++ y) :
    word <:+: y := by
  induction x with
  | nil => exact h
  | cons c x ih =>
    rw [List.cons_append, List.infix_cons_iff] at h
    rcases h with h | h
    · exact absurd h (hspaced.not_prefix_cons (hx c List.mem_cons_self))
    · exact ih (fun d hd => hx d (List.mem_cons_of_mem c hd)) h

theorem infix_of_append_separators (hy : ∀ c ∈ y, isSeparator c = true) (h : word <:+: x ++ y) :
    word <:+: x := by
  induction y using List.reverseRecOn with
  | nil => rwa [List.append_nil] at h
  | append_singleton y c ih =>
    have hc : isSeparator c = true := hy c (List.mem_append_right _ (List.mem_singleton_self c))
    rw [← List.append_assoc, List.infix_concat_iff] at h
    rcases h with hsuffix | h
    · exfalso
      rw [List.suffix_concat_iff] at hsuffix
      rcases hsuffix with hnil | ⟨front, hfront, -⟩
      · exact hspaced.ne_nil hnil
      · have hlast := hspaced.last c (by rw [hfront, List.getLast?_concat]; rfl)
        rw [hc] at hlast
        cases hlast
    · exact ih (fun d hd => hy d (List.mem_append_left _ hd)) h

/-- White space that is no single space stands between. -/
theorem infix_of_append_space (hc : isPySpace c = true)
    (hwide : c = ' ' → ∃ d rest, y = d :: rest ∧ isPySpace d = true) (h : word <:+: x ++ c :: y) :
    word <:+: x ∨ word <:+: y := by
  have hseparator := isSeparator_of_isPySpace hc
  rw [List.infix_append_iff_ne_nil] at h
  rcases h with h | h | ⟨front, back, -, hne, heq, -, hback⟩
  · exact .inl h
  · rw [List.infix_cons_iff] at h
    exact .inr (h.resolve_left (hspaced.not_prefix_cons hseparator))
  · exfalso
    cases back with
    | nil => exact hne rfl
    | cons d back =>
      obtain ⟨rfl, hrest⟩ := List.cons_prefix_cons.mp hback
      cases back with
      | nil =>
        have hlast := hspaced.last d (by rw [heq, List.getLast?_concat]; rfl)
        rw [hseparator] at hlast
        cases hlast
      | cons e back =>
        obtain ⟨hsingle, hnext⟩ := hspaced.spaces front d e back heq hc
        obtain ⟨f, rest, rfl, hf⟩ := hwide hsingle
        rw [← (List.cons_prefix_cons.mp hrest).1, hnext] at hf
        cases hf

variable (hfold : FoldsSeparators tables)

include hfold

theorem infix_stripCommas (h : word <:+: casefold tables text) :
    word <:+: casefold tables (stripCommas text) := by
  obtain ⟨front, back, htext, hfront, hback⟩ := exists_stripCommas text
  rw [htext, casefold_append, casefold_append, casefold_separators hfold hfront,
    casefold_separators hfold hback] at h
  exact hspaced.infix_of_append_separators hback (hspaced.infix_of_separators_append hfront h)

/-- By induction on the text, with the text before it. -/
theorem infix_collapseSpaces (before : List Char) (h : word <:+: before ++ casefold tables text) :
    word <:+: before ++ casefold tables (collapseSpaces text) := by
  induction text generalizing before with
  | nil => exact h
  | cons c rest ih =>
    have hcons : ∀ text, casefold tables (c :: text) = tables.casefold c ++ casefold tables text :=
      fun _ => rfl
    unfold collapseSpaces
    by_cases hc : isPySpace c = true
    · rw [casefold_cons_separator hfold (isSeparator_of_isPySpace hc)] at h
      rw [if_pos hc]
      split
      · rename_i hnext
        have hwide : ∃ d tail, casefold tables rest = d :: tail ∧ isPySpace d = true := by
          cases rest with
          | nil => cases hnext
          | cons d rest =>
            exact ⟨d, _, casefold_cons_separator hfold (isSeparator_of_isPySpace hnext) rest, hnext⟩
        rcases hspaced.infix_of_append_space hc (fun _ => hwide) h with h | h
        · exact List.infix_append_of_infix_left h
        · exact List.infix_append_of_infix_right (ih [] h)
      · rw [casefold_cons_separator hfold rfl]
        by_cases hsingle : c = ' '
        · rw [hsingle, ← List.singleton_append, ← List.append_assoc] at h
          rw [← List.singleton_append, ← List.append_assoc]
          exact ih _ h
        · rcases hspaced.infix_of_append_space hc (fun heq => absurd heq hsingle) h with h | h
          · exact List.infix_append_of_infix_left h
          · exact List.infix_append_of_infix_right (List.infix_cons (ih [] h))
    · rw [if_neg hc, hcons, ← List.append_assoc]
      rw [hcons, ← List.append_assoc] at h
      exact ih _ h

theorem infix_normalizeQuery (h : word <:+: casefold tables text) :
    word <:+: casefold tables (normalizeQuery text) :=
  hspaced.infix_stripCommas hfold (hspaced.infix_collapseSpaces hfold [] h)

end SinglySpaced

theorem infix_joinSpaced_of_mem {parts : List (List Char)} {part : List Char} (h : part ∈ parts) :
    part <:+: joinSpaced parts := by
  induction parts with
  | nil => cases h
  | cons first rest ih =>
    cases rest with
    | nil =>
      rw [List.mem_singleton.mp h]
      unfold joinSpaced
      simp
    | cons next rest =>
      have hjoin : joinSpaced (first :: next :: rest) = first ++ ' ' ::
          joinSpaced (next :: rest) := by
        unfold joinSpaced
        simp
      rw [hjoin]
      rcases List.mem_cons.mp h with rfl | h
      · exact List.infix_append_left
      · exact List.infix_append_of_infix_right (List.infix_cons (ih h))

theorem infix_casefold {part whole : List Char} (h : part <:+: whole) :
    casefold tables part <:+: casefold tables whole := by
  obtain ⟨front, back, rfl⟩ := h
  rw [casefold_append, casefold_append]
  exact List.infix_append _ _ _

/-! ### Stretches of a clause -/

theorem namedFirst_iff {clause : List Char} {identity : DocumentQueryIdentity} {span : Span} :
    NamedFirst tables clause identity span ↔
    firstAliasSpan tables clause identity.aliases = some span := by
  constructor
  · rintro ⟨name, hfirst, hstop⟩
    rw [firstAliasSpan_eq_some hfirst, ← hstop]
  · exact firstAliasSpan_some

theorem foldingLength_take_le (clause : List Char) {start stop : Nat} (h : start ≤ stop) :
    foldingLength tables (clause.take start) ≤ foldingLength tables (clause.take stop) := by
  rw [take_eq_append h, foldingLength_append]
  exact Nat.le_add_right _ _

/-- What occurs between two borders is what the characters between them fold to. -/
theorem occursWithin_iff {clause : List Char} (hne : word ≠ []) (start stop : Nat) :
    OccursWithin tables clause word start stop ↔
    word <:+: casefold tables (slice clause start stop) := by
  have hpos : 0 < word.length := List.length_pos_iff.mpr hne
  unfold OccursWithin
  rcases Nat.lt_or_ge stop start with hlt | hle
  · have hnil : slice clause start stop = [] := by
      unfold slice
      rw [List.drop_eq_nil_iff, List.length_take]
      omega
    rw [hnil]
    have hborders : foldingLength tables (clause.take stop) ≤
        foldingLength tables (clause.take start) :=
      foldingLength_take_le clause hlt.le
    constructor
    · rintro ⟨place, hstart, -, hstop⟩
      omega
    · intro h
      exact absurd (List.infix_nil.mp h) hne
  have htake : clause.take stop = clause.take start ++ slice clause start stop := take_eq_append hle
  have hfolded : casefold tables clause = casefold tables (clause.take start) ++
      (casefold tables (slice clause start stop) ++ casefold tables (clause.drop stop)) := by
    conv_lhs => rw [← List.take_append_drop stop clause, htake, casefold_append, casefold_append,
      List.append_assoc]
  rw [htake, foldingLength_append, hfolded, ← length_casefold, ← length_casefold]
  constructor
  · rintro ⟨place, hstart, hfront, hstop⟩
    obtain ⟨k, rfl⟩ := Nat.exists_eq_add_of_le hstart
    rw [List.drop_length_add_append, List.drop_append_of_le_length (by omega)] at hfront
    have hwithin := List.prefix_of_prefix_length_le hfront (List.prefix_append _ _)
      (by rw [List.length_drop]; omega)
    exact hwithin.isInfix.trans (List.drop_suffix _ _).isInfix
  · rintro ⟨front, back, heq⟩
    refine ⟨(casefold tables (clause.take start)).length + front.length,
      Nat.le_add_right _ _, ?_, ?_⟩
    · rw [List.drop_length_add_append, ← heq, List.append_assoc, List.append_assoc, List.drop_left]
      exact List.prefix_append _ _
    · have hlength := congrArg List.length heq
      simp only [List.length_append] at hlength
      omega

theorem infix_common (hfold : FoldsSeparators tables)
    (hword : IsWord (fun c => isSeparator c = true) word) (side front tail : List Char) :
    word <:+: casefold tables (normalizeQuery (stripCommas side ++ ' ' ::
      joinSpaced ([stripCommas front, stripCommas tail].filter fun part => !part.isEmpty))) ↔
    word <:+: casefold tables side ∨ word <:+: casefold tables front ∨
    word <:+: casefold tables tail := by
  have hfilter : ∀ parts : List (List Char),
      (∃ part ∈ parts.filter fun part => !part.isEmpty, word <:+: casefold tables part) ↔
      ∃ part ∈ parts, word <:+: casefold tables part := by
    intro parts
    constructor
    · rintro ⟨part, hpart, hin⟩
      exact ⟨part, List.mem_of_mem_filter hpart, hin⟩
    · rintro ⟨part, hpart, hin⟩
      refine ⟨part, List.mem_filter.mpr ⟨hpart, ?_⟩, hin⟩
      rw [Bool.not_eq_true', List.isEmpty_eq_false_iff]
      rintro rfl
      exact hword.ne_nil (List.infix_nil.mp hin)
  rw [infix_normalizeQuery hfold hword, infix_append_space hfold hword,
    infix_stripCommas hfold hword, infix_joinSpaced hfold hword, hfilter]
  simp only [List.mem_cons, List.not_mem_nil, or_false, exists_eq_or_imp, exists_eq_left,
    infix_stripCommas hfold hword]

theorem SinglySpaced.infix_common (hspaced : SinglySpaced word) (hfold : FoldsSeparators tables)
    {side front tail stretch : List Char}
    (hstretch : stretch = side ∨ stretch = front ∨ stretch = tail)
    (h : word <:+: casefold tables stretch) :
    word <:+: casefold tables (normalizeQuery (stripCommas side ++ ' ' ::
      joinSpaced ([stripCommas front, stripCommas tail].filter fun part => !part.isEmpty))) := by
  have hstripped := hspaced.infix_stripCommas hfold h
  have hvisible : (!(stripCommas stretch).isEmpty) = true := by
    rw [Bool.not_eq_true', List.isEmpty_eq_false_iff]
    intro hnil
    rw [hnil] at hstripped
    exact hspaced.ne_nil (List.infix_nil.mp hstripped)
  refine hspaced.infix_normalizeQuery hfold (hstripped.trans (infix_casefold ?_))
  rcases hstretch with rfl | hstretch
  · exact List.infix_append_left
  · refine List.infix_append_of_infix_right (List.infix_cons (infix_joinSpaced_of_mem ?_))
    refine List.mem_filter.mpr ⟨?_, hvisible⟩
    rcases hstretch with rfl | rfl
    · exact List.mem_cons_self
    · exact List.mem_cons_of_mem _ (List.mem_singleton_self _)

theorem slice_zero (clause : List Char) (stop : Nat) : slice clause 0 stop = clause.take stop :=
  List.drop_zero

theorem slice_length (clause : List Char) (start : Nat) :
    slice clause start clause.length = clause.drop start := by
  unfold slice
  rw [List.take_length]

theorem NamedFirst.unique {clause : List Char} {identity : DocumentQueryIdentity}
    {span span' : Span} (h : NamedFirst tables clause identity span)
    (h' : NamedFirst tables clause identity span') : span = span' :=
  Option.some.inj ((namedFirst_iff.mp h).symm.trans (namedFirst_iff.mp h'))

section

variable {clause : List Char} {ownSpan otherSpan connector : Span} {tailStart : Nat}

/-- The stretches that go to a document that is named first: its side up to the connector, the text
before it, and the tail. -/
theorem goesTo_iff_ownFirst (hown : NamedFirst tables clause own ownSpan)
    (hother : NamedFirst tables clause other otherSpan) (hle : ownSpan.start ≤ otherSpan.start)
    (hconnector : lastConnectorSpan (slice clause ownSpan.stop otherSpan.start) = some connector)
    (htail : sharedTailStart clause otherSpan.stop = some tailStart) (stretch : List Char) :
    (stretch = slice clause ownSpan.start (ownSpan.stop + connector.start) ∨
      stretch = clause.take ownSpan.start ∨ stretch = clause.drop tailStart) ↔
    ∃ start stop, GoesTo tables own other clause start stop ∧
      stretch = slice clause start stop := by
  constructor
  · rintro (rfl | rfl | rfl)
    · exact ⟨_, _, .ownFirst hown hother hle hconnector, rfl⟩
    · exact ⟨0, _, .front hown hother, by rw [slice_zero, Nat.min_eq_left hle]⟩
    · exact ⟨tailStart, _, .tail hown hother (by rwa [if_pos hle]), (slice_length ..).symm⟩
  · rintro ⟨start, stop, hgoes, rfl⟩
    cases hgoes with
    | whole hnone => exact absurd hother (hnone _)
    | front h h' =>
      rw [h.unique hown, h'.unique hother, Nat.min_eq_left hle, slice_zero]
      exact .inr (.inl rfl)
    | ownFirst h h' _ hfound =>
      rw [h.unique hown, h'.unique hother, hconnector] at hfound
      cases hfound
      rw [h.unique hown]
      exact .inl rfl
    | ownSecond h h' hlt =>
      rw [h.unique hown, h'.unique hother] at hlt
      exact absurd hle (Nat.not_le.mpr hlt)
    | tail h h' hfound =>
      rw [h.unique hown, h'.unique hother, if_pos hle, htail] at hfound
      cases hfound
      exact .inr (.inr (slice_length ..))

/-- The stretches that go to a document that is named second: its side up to the tail, the text
before the other one, and the tail. -/
theorem goesTo_iff_ownSecond (hown : NamedFirst tables clause own ownSpan)
    (hother : NamedFirst tables clause other otherSpan) (hlt : otherSpan.start < ownSpan.start)
    (htail : sharedTailStart clause ownSpan.stop = some tailStart) (stretch : List Char) :
    (stretch = slice clause ownSpan.start tailStart ∨ stretch = clause.take otherSpan.start ∨
      stretch = clause.drop tailStart) ↔
    ∃ start stop, GoesTo tables own other clause start stop ∧
      stretch = slice clause start stop := by
  have hnot := Nat.not_le.mpr hlt
  constructor
  · rintro (rfl | rfl | rfl)
    · exact ⟨_, _, .ownSecond hown hother hlt htail, rfl⟩
    · exact ⟨0, _, .front hown hother, by rw [slice_zero, Nat.min_eq_right hlt.le]⟩
    · exact ⟨tailStart, _, .tail hown hother (by rwa [if_neg hnot]), (slice_length ..).symm⟩
  · rintro ⟨start, stop, hgoes, rfl⟩
    cases hgoes with
    | whole hnone => exact absurd hother (hnone _)
    | front h h' =>
      rw [h.unique hown, h'.unique hother, Nat.min_eq_right hlt.le, slice_zero]
      exact .inr (.inl rfl)
    | ownFirst h h' hfirst =>
      rw [h.unique hown, h'.unique hother] at hfirst
      exact absurd hfirst hnot
    | ownSecond h h' _ hfound =>
      rw [h.unique hown, htail] at hfound
      cases hfound
      rw [h.unique hown]
      exact .inl rfl
    | tail h h' hfound =>
      rw [h.unique hown, h'.unique hother, if_neg hnot, htail] at hfound
      cases hfound
      exact .inr (.inr (slice_length ..))

end

/-- What a clause about both documents hands to one of them: the own side, the front and the tail,
and these are the stretches that go there. -/
theorem anchoredText_sides (hne : own.documentId ≠ other.documentId)
    {clause : List Char} {ownSpan otherSpan : Span}
    (hown : firstAliasSpan tables clause own.aliases = some ownSpan)
    (hother : firstAliasSpan tables clause other.aliases = some otherSpan)
    (hsplit : (splitBilateralClause tables clause own other).isSome = true) :
    ∃ side front tail, anchoredText tables own other clause =
        some (normalizeQuery (stripCommas side ++ ' ' ::
          joinSpaced ([stripCommas front, stripCommas tail].filter fun part => !part.isEmpty))) ∧
      ∀ stretch, (stretch = side ∨ stretch = front ∨ stretch = tail) ↔
        ∃ start stop, GoesTo tables own other clause start stop ∧
        stretch = slice clause start stop := by
  obtain ⟨queries, hqueries⟩ := Option.isSome_iff_exists.mp hsplit
  have htext : anchoredText tables own other clause = queries.lookup own.documentId := by
    rw [anchoredText_both (by unfold names; rw [hown]; rfl) (by unfold names; rw [hother]; rfl),
      hqueries]
    rfl
  have hownSpan := namedFirst_iff.mpr hown
  have hotherSpan := namedFirst_iff.mpr hother
  rw [htext]
  unfold splitBilateralClause at hqueries
  rw [hown, hother] at hqueries
  change (if ownSpan.start ≤ otherSpan.start then _ else _) = _ at hqueries
  by_cases hleft : ownSpan.start ≤ otherSpan.start
  · rw [if_pos hleft] at hqueries
    unfold cutClause at hqueries
    obtain ⟨connector, hconnector, hqueries⟩ := Option.bind_eq_some_iff.mp hqueries
    obtain ⟨tailStart, htailStart, hqueries⟩ := Option.bind_eq_some_iff.mp hqueries
    dsimp only at hqueries
    split at hqueries
    · cases hqueries
    cases hqueries
    exact ⟨_, _, _, by rw [List.lookup_cons, beq_self_eq_true],
      goesTo_iff_ownFirst hownSpan hotherSpan hleft hconnector htailStart⟩
  · rw [if_neg hleft] at hqueries
    unfold cutClause at hqueries
    obtain ⟨connector, hconnector, hqueries⟩ := Option.bind_eq_some_iff.mp hqueries
    obtain ⟨tailStart, htailStart, hqueries⟩ := Option.bind_eq_some_iff.mp hqueries
    dsimp only at hqueries
    split at hqueries
    · cases hqueries
    cases hqueries
    exact ⟨_, _, _,
      by rw [List.lookup_cons, beq_false_of_ne hne, List.lookup_cons, beq_self_eq_true],
      goesTo_iff_ownSecond hownSpan hotherSpan (Nat.not_le.mp hleft) htailStart⟩

/-! ### The query of a document -/

variable {config : BilateralComparisonConfig} {question : List Char}

theorem names_eq_false {clause : List Char} (h : names tables clause other = false) :
    (∀ name ∈ other.aliases, ¬Contains tables clause name) ∧
      ∀ span, ¬NamedFirst tables clause other span := by
  unfold names at h
  rw [Option.isSome_eq_false_iff, Option.isNone_iff_eq_none] at h
  refine ⟨firstAliasSpan_eq_none.mp h, fun span hspan => ?_⟩
  rw [namedFirst_iff.mp hspan] at h
  cases h

/-- A text that goes to the own document is a clause that does not name the other one, or comes from
a clause that names both. -/
theorem mem_handed {clauses : List (List Char)} (h : text ∈ handed tables own other clauses) :
    (∃ clause ∈ clauses, anchoredText tables own other clause = some text) ∨
      text ∈ clauses ∧ names tables text other = false := by
  unfold handed at h
  rcases List.mem_append.mp h with h | h
  · exact .inl (List.mem_filterMap.mp h)
  · obtain ⟨⟨index, clause⟩, hmem, rfl⟩ := List.mem_map.mp h
    have hunanchored : (index, clause) ∈ unanchoredClauses tables own other clauses := by
      split at hmem
      · rw [unanchoredClauses_comm]
        rcases List.mem_append.mp hmem with hmem | hmem
        · exact List.mem_of_mem_filter hmem
        · exact List.mem_of_mem_filter hmem
      · split at hmem
        · exact List.mem_of_mem_filter hmem
        · exact hmem
    obtain ⟨p, hp, hswap⟩ := List.mem_map.mp hunanchored
    obtain ⟨hclause, hnames⟩ := List.mem_filter.mp hp
    rw [Bool.and_eq_true, Bool.not_eq_true', Bool.not_eq_true'] at hnames
    right
    rw [← congrArg Prod.snd hswap]
    exact ⟨List.fst_mem_of_mem_zipIdx hclause, hnames.2⟩

/-- A clause that does not name the other document goes over as a whole. -/
theorem occursWithin_whole {clause : List Char} (hne : word ≠ [])
    (hnames : names tables clause other = false) (hin : word <:+: casefold tables clause) :
    ∃ start stop, GoesTo tables own other clause start stop ∧
      OccursWithin tables clause word start stop := by
  refine ⟨0, clause.length, .whole (names_eq_false hnames).2, (occursWithin_iff hne _ _).mpr ?_⟩
  unfold slice
  rwa [List.take_length, List.drop_zero]

/-- A word that is in the query crosses over in some clause. -/
theorem crossesOver_of_sideQuery (hfold : FoldsSeparators tables)
    (hne : own.documentId ≠ other.documentId)
    (hsplits : ∀ clause ∈ clausesOf question, Splits tables own other clause)
    (hword : IsWord (fun c => isSeparator c = true) word)
    (h : word <:+: casefold tables (sideQuery tables own other question)) :
    CrossesOver tables own other question word := by
  unfold sideQuery at h
  rw [infix_normalizeQuery hfold hword, infix_joinSpaced hfold hword] at h
  obtain ⟨text, htext, hin⟩ := h
  rcases mem_handed htext with ⟨clause, hclause, hanchored⟩ | ⟨hclause, hnames⟩
  · cases hown : firstAliasSpan tables clause own.aliases with
    | none =>
      rw [anchoredText_of_not (by unfold names; rw [hown]; rfl)] at hanchored
      cases hanchored
    | some ownSpan =>
      have hnamesOwn : names tables clause own = true := by
        unfold names
        rw [hown]
        rfl
      cases hother : firstAliasSpan tables clause other.aliases with
      | none =>
        have hnames : names tables clause other = false := by
          unfold names
          rw [hother]
          rfl
        rw [anchoredText_alone hnamesOwn hnames] at hanchored
        cases hanchored
        exact ⟨text, hclause, occursWithin_whole hword.ne_nil hnames hin⟩
      | some otherSpan =>
        have hnamesOther : names tables clause other = true := by
          unfold names
          rw [hother]
          rfl
        obtain ⟨side, front, tail, hgiven, hsides⟩ := anchoredText_sides hne hown hother
          (hsplits clause hclause hnamesOwn hnamesOther)
        rw [hanchored, Option.some.injEq] at hgiven
        rw [hgiven, infix_common hfold hword] at hin
        obtain ⟨stretch, hstretch, hin⟩ :
            ∃ stretch, (stretch = side ∨ stretch = front ∨ stretch = tail) ∧
            word <:+: casefold tables stretch := by
          rcases hin with hin | hin | hin
          · exact ⟨side, .inl rfl, hin⟩
          · exact ⟨front, .inr (.inl rfl), hin⟩
          · exact ⟨tail, .inr (.inr rfl), hin⟩
        obtain ⟨start, stop, hgoes, rfl⟩ := (hsides stretch).mp hstretch
        exact ⟨clause, hclause, start, stop, hgoes, (occursWithin_iff hword.ne_nil _ _).mpr hin⟩
  · exact ⟨text, hclause, occursWithin_whole hword.ne_nil hnames hin⟩

/-- An alias that crosses over as a whole is in the query. -/
theorem sideQuery_of_crossesOver (hfold : FoldsSeparators tables)
    (hne : own.documentId ≠ other.documentId)
    (hsplits : ∀ clause ∈ clausesOf question, Splits tables own other clause)
    (hname : name ∈ other.aliases) (hspaced : SinglySpaced (casefold tables name))
    (h : CrossesOver tables own other question (casefold tables name)) :
    Contains tables (sideQuery tables own other question) name := by
  obtain ⟨clause, hclause, start, stop, hgoes, hin⟩ := h
  rw [occursWithin_iff hspaced.ne_nil] at hin
  have hboth : ∃ ownSpan otherSpan, firstAliasSpan tables clause own.aliases = some ownSpan ∧
      firstAliasSpan tables clause other.aliases = some otherSpan := by
    cases hgoes with
    | whole hnone =>
      exfalso
      unfold slice at hin
      rw [List.take_length, List.drop_zero] at hin
      cases hspan : firstAliasSpan tables clause other.aliases with
      | none => exact firstAliasSpan_eq_none.mp hspan name hname hin
      | some span => exact hnone span (namedFirst_iff.mpr hspan)
    | front h h' => exact ⟨_, _, namedFirst_iff.mp h, namedFirst_iff.mp h'⟩
    | ownFirst h h' => exact ⟨_, _, namedFirst_iff.mp h, namedFirst_iff.mp h'⟩
    | ownSecond h h' => exact ⟨_, _, namedFirst_iff.mp h, namedFirst_iff.mp h'⟩
    | tail h h' => exact ⟨_, _, namedFirst_iff.mp h, namedFirst_iff.mp h'⟩
  obtain ⟨ownSpan, otherSpan, hown, hother⟩ := hboth
  have hsplit : (splitBilateralClause tables clause own other).isSome = true :=
    hsplits clause hclause (by unfold names; rw [hown]; rfl) (by unfold names; rw [hother]; rfl)
  obtain ⟨side, front, tail, hgiven, hsides⟩ := anchoredText_sides hne hown hother hsplit
  have hcommon := hspaced.infix_common hfold ((hsides _).mpr ⟨start, stop, hgoes, rfl⟩) hin
  have hhanded : normalizeQuery (stripCommas side ++ ' ' ::
      joinSpaced ([stripCommas front, stripCommas tail].filter fun part => !part.isEmpty)) ∈
        handed tables own other (clausesOf question) :=
    List.mem_append_left _ (List.mem_filterMap.mpr ⟨clause, hclause, hgiven⟩)
  unfold Contains sideQuery
  exact hspaced.infix_normalizeQuery hfold
    (hcommon.trans (infix_casefold (infix_joinSpaced_of_mem hhanded)))

theorem KeptOut.not_contains (h : KeptOut tables own other question)
    (hfold : FoldsSeparators tables) (hne : own.documentId ≠ other.documentId)
    (hsplits : ∀ clause ∈ clausesOf question, Splits tables own other clause)
    (hforeign : Foreign tables own other name) :
    ¬Contains tables (sideQuery tables own other question) name := by
  intro hin
  obtain ⟨word, hword, hpart, hcrosses⟩ := h name hforeign
  exact hcrosses (crossesOver_of_sideQuery hfold hne hsplits hword (hpart.trans hin))

/-- What is not in the query does not cross over. -/
theorem notRepeated_of_free (hfold : FoldsSeparators tables)
    (hne : own.documentId ≠ other.documentId)
    (hsplits : ∀ clause ∈ clausesOf question, Splits tables own other clause)
    (hfree : ∀ name, Foreign tables own other name →
      ¬Contains tables (sideQuery tables own other question) name) :
    NotRepeated tables own other question := by
  intro name hforeign hspaced hcrosses
  exact hfree name hforeign
    (sideQuery_of_crossesOver hfold hne hsplits hforeign.mem hspaced hcrosses)

theorem SingleWords.keptOut (h : SingleWords tables own other)
    (hrepeated : NotRepeated tables own other question) : KeptOut tables own other question := by
  intro name hforeign
  have hword := h name hforeign
  exact ⟨_, hword, List.infix_rfl, hrepeated name hforeign (singlySpaced_of_isWord hword)⟩

/-! ### The plan -/

/-- What a plan that is applied has of the two documents. -/
theorem chooseQueries_applied {enabled : Bool} {text a b : String}
    (h : (chooseQueries tables config enabled text [a, b]).status = "APPLIED")
    (hfirst : identityById config a = some first)
    (hsecond : identityById config b = some second) :
      a ≠ b ∧ Decomposes tables config text.toList first second ∧
      (chooseQueries tables config enabled text [a, b]).queries =
        [(a, String.ofList (sideQuery tables first second text.toList)),
          (b, String.ofList (sideQuery tables second first text.toList))] := by
  have hfallback : ∀ ids code, (fallbackPlan ids text code).status ≠ "APPLIED" := by
    intro ids code
    change "FALLBACK" ≠ "APPLIED"
    decide
  unfold chooseQueries at h ⊢
  by_cases henabled : (!enabled) = true
  · rw [if_pos henabled] at h
    exact absurd h (by decide : "DISABLED" ≠ "APPLIED")
  rw [if_neg henabled] at h ⊢
  dsimp only at h ⊢
  by_cases hab : a = b
  · rw [if_pos hab] at h
    exact absurd h (hfallback _ _)
  rw [if_neg hab] at h ⊢
  by_cases hblank : isBlank text.toList = true
  · rw [if_pos hblank] at h
    exact absurd h (hfallback _ _)
  rw [if_neg hblank, hfirst, hsecond] at h ⊢
  dsimp only at h ⊢
  by_cases hmarker : (!containsMarker tables text.toList config.comparisonMarkers) = true
  · rw [if_pos hmarker] at h
    exact absurd h (hfallback _ _)
  rw [if_neg hmarker] at h ⊢
  obtain rfl := identityById_documentId hfirst
  obtain rfl := identityById_documentId hsecond
  by_cases hdecomposes : Decomposes tables config text.toList first second
  · rw [(decompose_eq hab).1 hdecomposes, concludePlan_some] at h ⊢
    split at h
    · exact absurd h (hfallback _ _)
    · rename_i hquiet
      rw [if_neg hquiet]
      exact ⟨hab, hdecomposes, rfl⟩
  · rw [(decompose_eq hab).2 hdecomposes] at h
    exact absurd h (hfallback _ _)

theorem asciiText_foldsSeparators : FoldsSeparators asciiText := by
  have hcases : ∀ c : Char, c.toLower = c ∨ isSeparator c = false ∧
      isSeparator c.toLower = false := by
    intro c
    by_cases hupper : c.val ≥ 'A'.val ∧ c.val ≤ 'Z'.val
    · have hletters : ∀ n ∈ List.range' 65 26,
          isSeparator (Char.ofNat n) = false ∧ isSeparator (Char.ofNat n).toLower = false := by
        decide +kernel
      have hletter : c.toNat ∈ List.range' 65 26 := by
        have hlow : 65 ≤ c.toNat := hupper.1
        have hhigh : c.toNat ≤ 90 := hupper.2
        rw [List.mem_range'_1]
        omega
      have := hletters c.toNat hletter
      rw [Char.ofNat_toNat] at this
      exact .inr this
    · left
      unfold Char.toLower
      rw [dif_neg hupper]
  constructor
  · intro c hc
    show [c.toLower] = [c]
    rcases hcases c with hsame | ⟨hletter, -⟩
    · rw [hsame]
    · rw [hc] at hletter
      cases hletter
  · intro c hc d hd
    rw [List.mem_singleton.mp hd]
    rcases hcases c with hsame | ⟨-, hletter⟩
    · rw [hsame]
      exact hc
    · exact hletter

private def alphaIdentity : DocumentQueryIdentity :=
  ⟨"document_alpha", ["document_alpha".toList, "AlphaStudy".toList]⟩

private def betaIdentity : DocumentQueryIdentity :=
  ⟨"document_beta", ["document_beta".toList, "BetaBench".toList]⟩

/-- The file of `pairConfig`. -/
def pairConfigJson : JsonValue := .object [
  ("schema_version", .str "bilateral_comparison_query_decomposition_config_v1"),
  ("variable_id", .str "BILATERAL_COMPARISON_QUERY_DECOMPOSITION_V1"),
  ("default_enabled", .bool false),
  ("failure_policy", .str "FALLBACK_TO_ORIGINAL_QUERY"),
  ("comparison_markers", .array [.str "不同"]),
  ("transition_markers", .array [.str "同时"]),
  ("document_identities", .array [
    .object [("document_id", .str "document_alpha"), ("aliases", .array [.str "AlphaStudy"])],
    .object [("document_id", .str "document_beta"), ("aliases", .array [.str "BetaBench"])]])]

end ZhiyanRag.Retrieval
