import Mathlib.Data.List.Basic
import Mathlib.Order.Nat

/-!
# Backtracking patterns

Regular expressions as a backtracking matcher reads them, over any alphabet. `Pattern.ends` lists
every way a pattern matches at a cursor, the preferred one first: alternatives in order, repetitions
greedy. A search takes the first way (`match?`), a full match the first one that uses the text up
(`fullMatch?`), and `findAll` collects the matches from left to right, each starting where the one
before ended.

Assertions look at the symbol before and the symbol after the cursor: line ends and one-symbol
lookbehinds. A repeated pattern has to use text up in every round, and `findAll` is for patterns
that match no empty text.
-/

namespace Regex

universe u

variable {α : Type u}

inductive Pattern (α : Type u)
  | empty
  | char (p : α → Bool)
  | assert (p : Option α → Option α → Bool)
  | seq (r s : Pattern α)
  | alt (r s : Pattern α)
  | group (r : Pattern α)
  | repeated (least : Nat) (most : Option Nat) (r : Pattern α)

/-- A place in a text: the symbol before it, the text after it, and the groups matched on the way.
-/
structure Cursor (α : Type u) where
  before : Option α
  rest : List α
  groups : List (List α)

/-- The rounds of a repetition, more rounds first. -/
def repeatedEnds (body : Cursor α → List (Cursor α)) :
    Nat → Nat → Option Nat → Cursor α → List (Cursor α)
  | 0, least, _, c => if least = 0 then [c] else []
  | fuel + 1, least, most, c =>
    (if most = some 0 then [] else
      ((body c).filter fun d => decide (d.rest.length < c.rest.length)).flatMap
        (repeatedEnds body fuel (least - 1) (most.map (· - 1)))) ++
      if least = 0 then [c] else []

namespace Pattern

/-- The cursors after each way of matching, the preferred one first. -/
def ends : Pattern α → Cursor α → List (Cursor α)
  | empty, c => [c]
  | char p, c =>
    match c.rest with
    | [] => []
    | a :: rest => if p a then [⟨some a, rest, c.groups⟩] else []
  | assert p, c => if p c.before c.rest.head? then [c] else []
  | seq r s, c => (r.ends c).flatMap s.ends
  | alt r s, c => r.ends c ++ s.ends c
  | group r, c => (r.ends c).map fun d =>
      { d with groups := d.groups ++ [c.rest.take (c.rest.length - d.rest.length)] }
  | repeated least most r, c => repeatedEnds r.ends c.rest.length least most c

/-- `r*`. -/
def star (r : Pattern α) : Pattern α := repeated 0 none r

/-- `r+`. -/
def plus (r : Pattern α) : Pattern α := repeated 1 none r

/-- `r?`. -/
def optional (r : Pattern α) : Pattern α := repeated 0 (some 1) r

/-- These symbols, one after the other. -/
def literal [DecidableEq α] : List α → Pattern α
  | [] => empty
  | a :: as => seq (char fun b => decide (b = a)) (literal as)

/-- No groups inside. -/
def plain : Pattern α → Bool
  | empty | char _ | assert _ => true
  | seq r s | alt r s => r.plain && s.plain
  | group _ => false
  | repeated _ _ r => r.plain

/-- The first of these patterns that leads to a match. -/
def oneOf : List (Pattern α) → Pattern α
  | [] => assert fun _ _ => false
  | [r] => r
  | r :: rs => alt r (oneOf rs)

end Pattern

/-- How much a match used up, and its groups. -/
structure Match (α : Type u) where
  length : Nat
  groups : List (List α)

/-- A match and where it starts. -/
structure Found (α : Type u) extends Match α where
  start : Nat

def Found.stop (m : Found α) : Nat := m.start + m.length

namespace Pattern

variable (r : Pattern α)

/-- The preferred match at a place. -/
def match? (before : Option α) (rest : List α) : Option (Match α) :=
  (r.ends ⟨before, rest, []⟩).head?.map fun d => ⟨rest.length - d.rest.length, d.groups⟩

/-- The groups of the preferred match of the whole text. -/
def fullMatch? (text : List α) : Option (List (List α)) :=
  ((r.ends ⟨none, text, []⟩).find? fun d => d.rest.isEmpty).map (·.groups)

/-- The matches from a place on that is `pos` symbols into the text, after `skip` more symbols. -/
def findFrom : Option α → Nat → Nat → List α → List (Found α)
  | _, _, _, [] => []
  | _, pos, skip + 1, a :: rest => findFrom (some a) (pos + 1) skip rest
  | before, pos, 0, a :: rest =>
    match r.match? before (a :: rest) with
    | none => findFrom (some a) (pos + 1) 0 rest
    | some m =>
      if m.length = 0 then findFrom (some a) (pos + 1) 0 rest
      else ⟨m, pos⟩ :: findFrom (some a) (pos + 1) (m.length - 1) rest

/-- The preferred match that starts at an offset of a text. -/
def matchAt (text : List α) (start : Nat) : Option (Match α) :=
  r.match? (if start = 0 then none else text[start - 1]?) (text.drop start)

/-- `finditer(text, start, stop)`: the symbol before `start` is seen, and the text ends at `stop`.
-/
def findAll (text : List α) (start stop : Nat) : List (Found α) :=
  r.findFrom (if start = 0 then none else text[start - 1]?) start 0 ((text.take stop).drop start)

end Pattern

/-! ### A match uses up the text that follows -/

theorem repeatedEnds_suffix {body : Cursor α → List (Cursor α)}
    (hbody : ∀ c, ∀ d ∈ body c, d.rest <:+ c.rest) {fuel least : Nat} {most : Option Nat}
    {c d : Cursor α}
    (h : d ∈ repeatedEnds body fuel least most c) : d.rest <:+ c.rest := by
  induction fuel generalizing least most c with
  | zero =>
    unfold repeatedEnds at h
    split at h
    · obtain rfl := List.mem_singleton.mp h
      exact List.suffix_refl _
    · cases h
  | succ fuel ih =>
    unfold repeatedEnds at h
    rcases List.mem_append.mp h with h | h
    · split at h
      · cases h
      · obtain ⟨e, he, hd⟩ := List.mem_flatMap.mp h
        exact (ih hd).trans (hbody c e (List.mem_filter.mp he).1)
    · split at h
      · obtain rfl := List.mem_singleton.mp h
        exact List.suffix_refl _
      · cases h

namespace Pattern

variable {r s : Pattern α}

theorem ends_suffix {c d : Cursor α} (h : d ∈ r.ends c) : d.rest <:+ c.rest := by
  induction r generalizing c d with
  | empty =>
    obtain rfl := List.mem_singleton.mp h
    exact List.suffix_refl _
  | char p =>
    unfold ends at h
    split at h
    · cases h
    · rename_i a rest hrest
      split at h
      · rw [List.mem_singleton.mp h, hrest]
        exact List.suffix_cons a rest
      · cases h
  | assert p =>
    unfold ends at h
    split at h
    · obtain rfl := List.mem_singleton.mp h
      exact List.suffix_refl _
    · cases h
  | seq r s ihr ihs =>
    obtain ⟨e, he, hd⟩ := List.mem_flatMap.mp h
    exact (ihs hd).trans (ihr he)
  | alt r s ihr ihs => exact (List.mem_append.mp h).elim ihr ihs
  | group r ih =>
    obtain ⟨e, he, hd⟩ := List.mem_map.mp h
    have hrest : e.rest <:+ c.rest := ih he
    rw [← hd]
    exact hrest
  | repeated least most r ih => exact repeatedEnds_suffix (fun _ _ hd => ih hd) h

theorem match?_length_le {before : Option α} {rest : List α} {m : Match α}
    (h : r.match? before rest = some m) : m.length ≤ rest.length := by
  obtain ⟨d, -, rfl⟩ := Option.map_eq_some_iff.mp h
  exact Nat.sub_le _ _

/-! ### The first symbol of a match -/

/-- Every match starts with a symbol that has the property. -/
def StartsWith (p : α → Prop) (r : Pattern α) : Prop :=
  ∀ c, ∀ d ∈ r.ends c, ∃ a rest, c.rest = a :: rest ∧ p a ∧ d.rest.length ≤ rest.length

theorem startsWith_char {p : α → Prop} {q : α → Bool} (h : ∀ a, q a = true → p a) :
    StartsWith p (char q) := by
  intro c d hd
  unfold ends at hd
  split at hd
  · cases hd
  · rename_i a rest hrest
    split at hd
    · rename_i hq
      rw [List.mem_singleton.mp hd]
      exact ⟨a, rest, hrest, h a hq, le_refl _⟩
    · cases hd

theorem StartsWith.seq {p : α → Prop} (h : StartsWith p r) : StartsWith p (seq r s) := by
  intro c d hd
  obtain ⟨e, he, hd⟩ := List.mem_flatMap.mp hd
  obtain ⟨a, rest, hrest, ha, hlength⟩ := h c e he
  exact ⟨a, rest, hrest, ha, (ends_suffix hd).length_le.trans hlength⟩

theorem StartsWith.alt {p : α → Prop} (hr : StartsWith p r) (hs : StartsWith p s) :
    StartsWith p (alt r s) := by
  intro c d hd
  exact (List.mem_append.mp hd).elim (hr c d) (hs c d)

/-- Such a match uses a symbol up. -/
theorem StartsWith.length_pos {p : α → Prop} (h : StartsWith p r) {before : Option α}
    {rest : List α} {m : Match α} (hm : r.match? before rest = some m) : 0 < m.length := by
  obtain ⟨d, hd, rfl⟩ := Option.map_eq_some_iff.mp hm
  obtain ⟨a, back, hrest, -, hlength⟩ := h _ d (List.mem_of_head? hd)
  have hrest : rest = a :: back := hrest
  rw [hrest, List.length_cons]
  exact Nat.sub_pos_of_lt (Nat.lt_succ_of_le hlength)

theorem startsWith_literal [DecidableEq α] {p : α → Prop} {a : α} {as : List α} (h : p a) :
    StartsWith p (literal (a :: as)) :=
  StartsWith.seq (startsWith_char fun _ hb => (of_decide_eq_true hb).symm ▸ h)

end Pattern

/-! ### Groups -/

theorem repeatedEnds_groups {body : Cursor α → List (Cursor α)}
    (hbody : ∀ c, ∀ d ∈ body c, d.groups = c.groups) {fuel least : Nat} {most : Option Nat}
    {c d : Cursor α} (h : d ∈ repeatedEnds body fuel least most c) : d.groups = c.groups := by
  induction fuel generalizing least most c with
  | zero =>
    unfold repeatedEnds at h
    split at h
    · rw [List.mem_singleton.mp h]
    · cases h
  | succ fuel ih =>
    unfold repeatedEnds at h
    rcases List.mem_append.mp h with h | h
    · split at h
      · cases h
      · obtain ⟨e, he, hd⟩ := List.mem_flatMap.mp h
        rw [ih hd]
        exact hbody c e (List.mem_filter.mp he).1
    · split at h
      · rw [List.mem_singleton.mp h]
      · cases h

namespace Pattern

variable {r s : Pattern α}

/-- Without groups inside, a match adds none. -/
theorem ends_groups {c d : Cursor α} (hplain : r.plain = true) (h : d ∈ r.ends c) :
    d.groups = c.groups := by
  induction r generalizing c d with
  | empty => rw [List.mem_singleton.mp h]
  | char p =>
    unfold ends at h
    split at h
    · cases h
    · split at h
      · rw [List.mem_singleton.mp h]
      · cases h
  | assert p =>
    unfold ends at h
    split at h
    · rw [List.mem_singleton.mp h]
    · cases h
  | seq r s ihr ihs =>
    obtain ⟨hr, hs⟩ := Bool.and_eq_true_iff.mp hplain
    obtain ⟨e, he, hd⟩ := List.mem_flatMap.mp h
    rw [ihs hs hd, ihr hr he]
  | alt r s ihr ihs =>
    obtain ⟨hr, hs⟩ := Bool.and_eq_true_iff.mp hplain
    exact (List.mem_append.mp h).elim (ihr hr) (ihs hs)
  | group r ih => cases hplain
  | repeated least most r ih => exact repeatedEnds_groups (fun _ _ hd => ih hplain hd) h

/-- The group of a group without groups inside: what it used up. -/
theorem ends_group {c d : Cursor α} (hplain : r.plain = true) (h : d ∈ (group r).ends c) :
    (∃ e ∈ r.ends c, e.rest = d.rest) ∧
    d.groups = c.groups ++ [c.rest.take (c.rest.length - d.rest.length)] := by
  obtain ⟨e, he, rfl⟩ := List.mem_map.mp h
  refine ⟨⟨e, he, rfl⟩, ?_⟩
  simp only [ends_groups hplain he]

/-! ### Matches from left to right -/

end Pattern

/-- Non-empty matches from left to right, between `lo` and `hi`. -/
def Chain (lo : Nat) : List (Found α) → Nat → Prop
  | [], hi => lo ≤ hi
  | m :: ms, hi => lo ≤ m.start ∧ 0 < m.length ∧ Chain m.stop ms hi

theorem Chain.le {lo hi : Nat} {ms : List (Found α)} (h : Chain lo ms hi) : lo ≤ hi := by
  induction ms generalizing lo with
  | nil => exact h
  | cons m ms ih =>
    obtain ⟨hstart, -, hrest⟩ := h
    have := ih hrest
    unfold Found.stop at this
    omega

theorem Chain.mono {lo lo' hi : Nat} {ms : List (Found α)} (h : Chain lo ms hi) (hle : lo' ≤ lo) :
    Chain lo' ms hi := by
  cases ms with
  | nil => exact hle.trans h
  | cons m ms => exact ⟨hle.trans h.1, h.2⟩

theorem Chain.bounds {lo hi : Nat} {ms : List (Found α)} {m : Found α} (h : Chain lo ms hi)
    (hm : m ∈ ms) : lo ≤ m.start ∧ 0 < m.length ∧ m.stop ≤ hi := by
  induction ms generalizing lo with
  | nil => cases hm
  | cons first ms ih =>
    obtain ⟨hstart, hlength, hrest⟩ := h
    rcases List.mem_cons.mp hm with rfl | hm
    · exact ⟨hstart, hlength, hrest.le⟩
    · have := ih hrest hm
      unfold Found.stop at this ⊢
      omega

theorem Chain.pairwise {lo hi : Nat} {ms : List (Found α)} (h : Chain lo ms hi) :
    ms.Pairwise fun a b => a.start < b.start := by
  induction ms generalizing lo with
  | nil => exact List.Pairwise.nil
  | cons m ms ih =>
    obtain ⟨-, hlength, hrest⟩ := h
    refine List.Pairwise.cons (fun next hnext => ?_) (ih hrest)
    have := (hrest.bounds hnext).1
    unfold Found.stop at this
    omega

namespace Pattern

variable {r : Pattern α}

theorem findFrom_chain {before : Option α} {pos skip : Nat} {rest : List α}
    (h : skip ≤ rest.length) :
    Chain (pos + skip) (r.findFrom before pos skip rest) (pos + rest.length) := by
  induction rest generalizing before pos skip with
  | nil =>
    unfold findFrom
    exact Nat.add_le_add_left h pos
  | cons a rest ih =>
    rw [List.length_cons] at h ⊢
    have hshift : pos + (rest.length + 1) = pos + 1 + rest.length := by omega
    rw [hshift]
    cases skip with
    | succ skip =>
      unfold findFrom
      rw [show pos + (skip + 1) = pos + 1 + skip by omega]
      exact ih (by omega)
    | zero =>
      have hnext : Chain pos (r.findFrom (some a) (pos + 1) 0 rest) (pos + 1 + rest.length) :=
        (ih (Nat.zero_le _)).mono (by omega)
      unfold findFrom
      split
      · exact hnext
      · rename_i m hm
        split
        · exact hnext
        · rename_i hne
          have hle := match?_length_le hm
          rw [List.length_cons] at hle
          refine ⟨le_refl _, Nat.pos_of_ne_zero hne, ?_⟩
          have hrest : Chain (pos + 1 + (m.length - 1))
              (r.findFrom (some a) (pos + 1) (m.length - 1) rest) (pos + 1 + rest.length) :=
                ih (by omega)
          exact hrest.mono (by simp only [Found.stop]; omega)

/-- A collected match is the preferred one where it starts. -/
theorem findFrom_match {before : Option α} {pos skip : Nat} {rest : List α} {m : Found α}
    (h : m ∈ r.findFrom before pos skip rest) :
    pos ≤ m.start ∧ ∃ before', r.match? before' (rest.drop (m.start - pos)) = some m.toMatch := by
  induction rest generalizing before pos skip with
  | nil =>
    unfold findFrom at h
    cases h
  | cons a rest ih =>
    have hnext : ∀ {before : Option α} {skip : Nat}, m ∈ r.findFrom before (pos + 1) skip rest →
        pos ≤ m.start ∧ ∃ before',
          r.match? before' ((a :: rest).drop (m.start - pos)) = some m.toMatch := by
      intro before skip hm
      obtain ⟨hle, hmatch⟩ := ih hm
      refine ⟨by omega, ?_⟩
      rw [show m.start - pos = m.start - (pos + 1) + 1 by omega, List.drop_succ_cons]
      exact hmatch
    cases skip with
    | succ skip =>
      unfold findFrom at h
      exact hnext h
    | zero =>
      unfold findFrom at h
      split at h
      · exact hnext h
      · rename_i found hfound
        split at h
        · exact hnext h
        · rcases List.mem_cons.mp h with rfl | h
          · refine ⟨le_refl _, before, ?_⟩
            rw [Nat.sub_self, List.drop_zero]
            exact hfound
          · exact hnext h

variable {text : List α} {start stop : Nat}

theorem findAll_chain (hstart : start ≤ stop) (hstop : stop ≤ text.length) :
    Chain start (r.findAll text start stop) stop := by
  have h : Chain (start + 0) (r.findAll text start stop)
      (start + ((text.take stop).drop start).length) :=
    findFrom_chain (Nat.zero_le _)
  rw [List.length_drop, List.length_take, Nat.min_eq_left hstop, Nat.add_sub_cancel' hstart] at h
  exact h

/-- A match in a whole text is the preferred one where it starts. -/
theorem findAll_match {m : Found α} (h : m ∈ r.findAll text 0 text.length) :
    ∃ before, r.match? before (text.drop m.start) = some m.toMatch := by
  unfold findAll at h
  rw [List.take_length, List.drop_zero] at h
  exact (findFrom_match h).2

/-- The matches from a place on are the preferred ones where they start, and every other place is
inside one of them or matches nothing. -/
theorem findFrom_spec {before : Option α} {pos skip : Nat} {rest : List α} :
    (∀ m ∈ r.findFrom before pos skip rest, ∃ q, skip ≤ q ∧ q < rest.length ∧ m.start = pos + q ∧
      0 < m.length ∧
      r.match? (if q = 0 then before else rest[q - 1]?) (rest.drop q) = some m.toMatch) ∧
    ∀ q, skip ≤ q → q < rest.length →
      (∃ m ∈ r.findFrom before pos skip rest, m.start ≤ pos + q ∧ pos + q < m.stop) ∨
      ∀ m, r.match? (if q = 0 then before else rest[q - 1]?) (rest.drop q) = some m →
      m.length = 0 := by
  induction rest generalizing before pos skip with
  | nil =>
    unfold findFrom
    exact ⟨fun _ h => (by cases h), fun q _ hq => absurd hq (Nat.not_lt_zero q)⟩
  | cons a rest ih =>
    have hbefore : ∀ q, (if q = 0 then some a else rest[q - 1]?) = (a :: rest)[q]? := by
      intro q
      cases q with
      | zero => rfl
      | succ q => rfl
    -- the places after the first one, where the search goes on
    have hnext : ∀ skip', (∀ m ∈ r.findFrom (some a) (pos + 1) skip' rest, ∃ q, skip' + 1 ≤ q ∧
        q < (a :: rest).length ∧ m.start = pos + q ∧ 0 < m.length ∧
          r.match? (if q = 0 then before else (a :: rest)[q - 1]?) ((a :: rest).drop q) =
            some m.toMatch) ∧
        ∀ q, skip' + 1 ≤ q → q < (a :: rest).length →
          (∃ m ∈ r.findFrom (some a) (pos + 1) skip' rest, m.start ≤ pos + q ∧ pos + q < m.stop) ∨
            ∀ m, r.match? (if q = 0 then before else (a :: rest)[q - 1]?) ((a :: rest).drop q) =
              some m → m.length = 0 := by
      intro skip'
      obtain ⟨hsound, hcomplete⟩ := @ih (some a) (pos + 1) skip'
      refine ⟨fun m hm => ?_, fun q hq hlt => ?_⟩
      · obtain ⟨q, hskip, hlt, hstart, hpos, hmatch⟩ := hsound m hm
        rw [hbefore] at hmatch
        exact ⟨q + 1, Nat.succ_le_succ hskip, Nat.succ_lt_succ hlt, by omega, hpos, hmatch⟩
      · obtain ⟨q, rfl⟩ := Nat.exists_eq_add_of_le' (show 1 ≤ q by omega)
        have hplace := hcomplete q (by omega) (Nat.lt_of_succ_lt_succ hlt)
        rw [hbefore, show pos + 1 + q = pos + (q + 1) by omega] at hplace
        exact hplace
    cases skip with
    | succ skip =>
      unfold findFrom
      exact hnext skip
    | zero =>
      obtain ⟨hsound, hcomplete⟩ := hnext 0
      unfold findFrom
      split
      · rename_i hnone
        refine ⟨fun m hm => ?_, fun q _ hlt => ?_⟩
        · obtain ⟨q, -, hq⟩ := hsound m hm
          exact ⟨q, Nat.zero_le q, hq⟩
        · cases q with
          | zero =>
            refine .inr fun m hm => ?_
            rw [if_pos rfl, List.drop_zero, hnone] at hm
            cases hm
          | succ q => exact hcomplete (q + 1) (by omega) hlt
      · rename_i found hfound
        split
        · rename_i hzero
          refine ⟨fun m hm => ?_, fun q _ hlt => ?_⟩
          · obtain ⟨q, -, hq⟩ := hsound m hm
            exact ⟨q, Nat.zero_le q, hq⟩
          · cases q with
            | zero =>
              refine .inr fun m hm => ?_
              rw [if_pos rfl, List.drop_zero, hfound] at hm
              cases hm
              exact hzero
            | succ q => exact hcomplete (q + 1) (by omega) hlt
        · rename_i hne
          obtain ⟨hsound, hcomplete⟩ := hnext (found.length - 1)
          refine ⟨fun m hm => ?_, fun q _ hlt => ?_⟩
          · rcases List.mem_cons.mp hm with rfl | hm
            · exact ⟨0, le_refl _, Nat.succ_pos _, rfl, Nat.pos_of_ne_zero hne, hfound⟩
            · obtain ⟨q, -, hq⟩ := hsound m hm
              exact ⟨q, Nat.zero_le q, hq⟩
          · by_cases hin : q < found.length
            · refine .inl ⟨_, List.mem_cons_self, Nat.le_add_right _ _, ?_⟩
              show pos + q < pos + found.length
              omega
            · rcases hcomplete q (by omega) hlt with ⟨m, hm, hspan⟩ | hnone
              · exact .inl ⟨m, List.mem_cons_of_mem _ hm, hspan⟩
              · exact .inr hnone

/-- A match in a whole text is the preferred one at its offset, and every offset outside the matches
matches nothing. -/
theorem findAll_spec :
    (∀ m ∈ r.findAll text 0 text.length, m.start < text.length ∧ 0 < m.length ∧
      r.matchAt text m.start = some m.toMatch) ∧
    ∀ q < text.length, (∃ m ∈ r.findAll text 0 text.length, m.start ≤ q ∧ q < m.stop) ∨
      ∀ m, r.matchAt text q = some m → m.length = 0 := by
  have h := @findFrom_spec _ r none 0 0 text
  unfold findAll matchAt
  rw [if_pos rfl, List.take_length, List.drop_zero]
  refine ⟨fun m hm => ?_, fun q hq => ?_⟩
  · obtain ⟨q, -, hlt, hstart, hpos, hmatch⟩ := h.1 m hm
    rw [Nat.zero_add] at hstart
    rw [hstart]
    exact ⟨hlt, hpos, hmatch⟩
  · have := h.2 q (Nat.zero_le q) hq
    rwa [Nat.zero_add] at this

/-! ### The first match -/

theorem head?_findFrom {before : Option α} {pos : Nat} {rest : List α} {m : Found α} :
    (r.findFrom before pos 0 rest).head? = some m ↔
      ∃ q < rest.length, m.start = pos + q ∧ 0 < m.length ∧
        r.match? (if q = 0 then before else rest[q - 1]?) (rest.drop q) = some m.toMatch ∧
        ∀ j < q, ∀ m', r.match? (if j = 0 then before else rest[j - 1]?) (rest.drop j) = some m' →
        m'.length = 0 := by
  induction rest generalizing before pos with
  | nil =>
    unfold findFrom
    constructor
    · intro h
      cases h
    · rintro ⟨q, hq, -⟩
      cases hq
  | cons a rest ih =>
    -- The symbol before the next place is `a`, and the search goes on there unless it matches here.
    have hbefore : ∀ q, (if q = 0 then some a else rest[q - 1]?) = (a :: rest)[q]? := by
      intro q
      cases q with
      | zero => rfl
      | succ q => rfl
    have hskip : (∀ m', r.match? before (a :: rest) = some m' → m'.length = 0) →
        ((r.findFrom (some a) (pos + 1) 0 rest).head? = some m ↔
          ∃ q < (a :: rest).length, m.start = pos + q ∧ 0 < m.length ∧
            r.match? (if q = 0 then before else (a :: rest)[q - 1]?) ((a :: rest).drop q) =
              some m.toMatch ∧
            ∀ j < q, ∀ m',
              r.match? (if j = 0 then before else (a :: rest)[j - 1]?) ((a :: rest).drop j) =
                some m' →
              m'.length = 0) := by
      intro hhere
      rw [ih]
      constructor
      · rintro ⟨q, hq, hstart, hpos, hmatch, hleast⟩
        rw [hbefore] at hmatch
        refine ⟨q + 1, Nat.succ_lt_succ hq, by omega, hpos, hmatch, fun j hj => ?_⟩
        cases j with
        | zero => exact hhere
        | succ j =>
          have := hleast j (Nat.lt_of_succ_lt_succ hj)
          rwa [hbefore] at this
      · rintro ⟨q, hq, hstart, hpos, hmatch, hleast⟩
        cases q with
        | zero =>
          have := hhere _ hmatch
          omega
        | succ q =>
          refine ⟨q, Nat.lt_of_succ_lt_succ hq, by omega, hpos, ?_, fun j hj => ?_⟩
          · rw [hbefore]
            exact hmatch
          · rw [hbefore]
            exact hleast (j + 1) (Nat.succ_lt_succ hj)
    unfold findFrom
    split
    · rename_i hnone
      exact hskip fun m' hm' => by rw [hnone] at hm'; cases hm'
    · rename_i found hfound
      split
      · rename_i hzero
        exact hskip fun m' hm' => by rw [hfound] at hm'; cases hm'; exact hzero
      · rename_i hne
        constructor
        · intro h
          cases h
          exact ⟨0, Nat.succ_pos _, rfl, Nat.pos_of_ne_zero hne, hfound,
            fun j hj => absurd hj (Nat.not_lt_zero j)⟩
        · rintro ⟨q, -, hstart, -, hmatch, hleast⟩
          cases q with
          | zero =>
            obtain ⟨m, start⟩ := m
            have hm : found = m := Option.some.inj (hfound.symm.trans hmatch)
            have hs : start = pos := hstart
            rw [hm, hs]
            rfl
          | succ q => exact absurd (hleast 0 (Nat.succ_pos q) found hfound) hne

/-- The first match in a text from an offset on: the one that starts first. -/
theorem head?_findAll {m : Found α} :
    (r.findAll text start text.length).head? = some m ↔
      start ≤ m.start ∧ m.start < text.length ∧ 0 < m.length ∧
        r.matchAt text m.start = some m.toMatch ∧ ∀ q, start ≤ q → q < m.start →
        ∀ m', r.matchAt text q = some m' → m'.length = 0 := by
  -- What stands before the `q`-th place after `start`.
  have hbefore : ∀ q, (if q = 0 then (if start = 0 then none else text[start - 1]?)
      else (text.drop start)[q - 1]?) =
      if start + q = 0 then none else text[start + q - 1]? := by
    intro q
    by_cases hq : q = 0
    · rw [if_pos hq, hq, Nat.add_zero]
    · rw [if_neg hq, if_neg (by omega), List.getElem?_drop, Nat.add_sub_assoc (by omega)]
  unfold findAll
  rw [List.take_length, head?_findFrom]
  simp only [hbefore, List.drop_drop, List.length_drop]
  constructor
  · rintro ⟨q, hq, hstart, hpos, hmatch, hleast⟩
    refine ⟨by omega, by omega, hpos, ?_, fun j hj hlt => ?_⟩
    · rw [hstart]
      exact hmatch
    · have := hleast (j - start) (by omega)
      rwa [Nat.add_sub_cancel' hj] at this
  · rintro ⟨hle, hlt, hpos, hmatch, hleast⟩
    refine ⟨m.start - start, by omega, by omega, hpos, ?_, fun j hj => hleast (start + j) (by omega)
      (by omega)⟩
    rw [Nat.add_sub_cancel' hle]
    exact hmatch

/-! ### Literals and runs -/

theorem ends_literal [DecidableEq α] (word : List α) (before : Option α) (rest : List α)
    (groups : List (List α)) :
    ∃ before', (literal word).ends ⟨before, word ++ rest, groups⟩ = [⟨before', rest, groups⟩] := by
  induction word generalizing before with
  | nil => exact ⟨before, rfl⟩
  | cons a word ih =>
    obtain ⟨before', h⟩ := ih (some a)
    refine ⟨before', ?_⟩
    simp [literal, ends, h]

theorem mem_ends_char {p : α → Bool} {c d : Cursor α} :
    d ∈ (char p).ends c ↔ ∃ a rest, c.rest = a :: rest ∧ p a = true ∧
    d = ⟨some a, rest, c.groups⟩ := by
  unfold ends
  constructor
  · intro h
    split at h
    · cases h
    · rename_i a rest hrest
      split at h
      · exact ⟨a, rest, hrest, ‹_›, List.mem_singleton.mp h⟩
      · cases h
  · rintro ⟨a, rest, hrest, ha, rfl⟩
    rw [hrest]
    simp [ha]

/-- A repeated symbol class uses up symbols of the class only, enough of them. -/
theorem repeatedEnds_char {p : α → Bool} {fuel least : Nat} {most : Option Nat} {c d : Cursor α}
    (h : d ∈ repeatedEnds (char p).ends fuel least most c) :
    ∃ run, c.rest = run ++ d.rest ∧ (∀ a ∈ run, p a = true) ∧ least ≤ run.length := by
  induction fuel generalizing least most c with
  | zero =>
    unfold repeatedEnds at h
    split at h
    · rw [List.mem_singleton.mp h]
      exact ⟨[], rfl, fun a ha => (by cases ha), by omega⟩
    · cases h
  | succ fuel ih =>
    unfold repeatedEnds at h
    rcases List.mem_append.mp h with h | h
    · split at h
      · cases h
      · obtain ⟨e, he, hd⟩ := List.mem_flatMap.mp h
        obtain ⟨a, rest, hrest, ha, rfl⟩ := mem_ends_char.mp (List.mem_filter.mp he).1
        obtain ⟨run, hrun, hall, hleast⟩ := ih hd
        refine ⟨a :: run, ?_, ?_, ?_⟩
        · rw [hrest, List.cons_append, ← hrun]
        · intro b hb
          rcases List.mem_cons.mp hb with rfl | hb
          · exact ha
          · exact hall b hb
        · rw [List.length_cons]
          omega
    · split at h
      · rw [List.mem_singleton.mp h]
        exact ⟨[], rfl, fun a ha => (by cases ha), by omega⟩
      · cases h

/-- It may use a whole run up. -/
theorem mem_repeatedEnds_char {p : α → Bool} {run tail : List α} {fuel least : Nat} {c : Cursor α}
    (hrest : c.rest = run ++ tail) (hrun : ∀ a ∈ run, p a = true) (hleast : least ≤ run.length)
    (hfuel : run.length ≤ fuel) :
    ∃ before, ⟨before, tail, c.groups⟩ ∈ repeatedEnds (char p).ends fuel least none c := by
  induction run generalizing fuel least c with
  | nil =>
    obtain ⟨before, rest, groups⟩ := c
    have hzero : least = 0 := Nat.le_zero.mp hleast
    refine ⟨before, ?_⟩
    rw [show tail = rest from hrest.symm, hzero]
    cases fuel with
    | zero => exact List.mem_singleton.mpr rfl
    | succ fuel => exact List.mem_append_right _ (List.mem_singleton.mpr rfl)
  | cons a run ih =>
    rw [List.length_cons] at hleast hfuel
    cases fuel with
    | zero => omega
    | succ fuel =>
      obtain ⟨before, hmem⟩ : ∃ before, ⟨before, tail, c.groups⟩ ∈
          repeatedEnds (char p).ends fuel (least - 1) none ⟨some a, run ++ tail, c.groups⟩ :=
        ih rfl (fun b hb => hrun b (List.mem_cons_of_mem _ hb)) (by omega) (by omega)
      refine ⟨before, List.mem_append_left _ ?_⟩
      rw [if_neg (by simp)]
      refine List.mem_flatMap.mpr ⟨_, List.mem_filter.mpr ⟨?_, ?_⟩, hmem⟩
      · exact mem_ends_char.mpr ⟨a, run ++ tail, hrest, hrun a List.mem_cons_self, rfl⟩
      · rw [hrest]
        simp

theorem mem_ends_plus_char {p : α → Bool} {c d : Cursor α} (h : d ∈ (plus (char p)).ends c) :
    ∃ run, c.rest = run ++ d.rest ∧ (∀ a ∈ run, p a = true) ∧ 1 ≤ run.length := repeatedEnds_char h

theorem exists_mem_ends_plus_char {p : α → Bool} {run tail : List α} {c : Cursor α}
    (hrest : c.rest = run ++ tail) (hrun : ∀ a ∈ run, p a = true) (hne : 1 ≤ run.length) :
    ∃ before, ⟨before, tail, c.groups⟩ ∈ (plus (char p)).ends c :=
  mem_repeatedEnds_char hrest hrun hne
    (by rw [hrest, List.length_append]; exact Nat.le_add_right _ _)

/-- The preferred way of repeating a symbol class leaves none of it. -/
theorem head?_repeatedEnds_char {p : α → Bool} {fuel least : Nat} {c d : Cursor α}
    (hfuel : c.rest.length ≤ fuel)
    (h : (repeatedEnds (char p).ends fuel least none c).head? = some d) :
    ∀ a, d.rest.head? = some a → p a = false := by
  induction fuel generalizing least c with
  | zero =>
    have hnil := List.length_eq_zero_iff.mp (Nat.le_zero.mp hfuel)
    unfold repeatedEnds at h
    split at h
    · cases h
      rw [hnil]
      exact fun a ha => by cases ha
    · cases h
  | succ fuel ih =>
    unfold repeatedEnds at h
    rw [if_neg (by simp)] at h
    cases hrest : c.rest with
    | nil =>
      have hnone : (char p).ends c = [] := by
        unfold ends
        rw [hrest]
      rw [hnone, List.filter_nil, List.flatMap_nil, List.nil_append] at h
      split at h
      · cases h
        rw [hrest]
        exact fun a ha => by cases ha
      · cases h
    | cons a rest =>
      rw [hrest, List.length_cons] at hfuel
      by_cases hpa : p a = true
      · have hone : ((char p).ends c).filter (fun d => decide (d.rest.length < c.rest.length)) =
            [⟨some a, rest, c.groups⟩] := by
          unfold ends
          rw [hrest]
          simp [hpa]
        rw [hone, List.flatMap_singleton, Option.map_none] at h
        cases hmore : (repeatedEnds (char p).ends fuel (least - 1)
          none ⟨some a, rest, c.groups⟩).head? with
        | some e =>
          rw [List.head?_append, hmore, Option.some_or] at h
          cases h
          exact ih (Nat.le_of_succ_le_succ hfuel) hmore
        | none =>
          -- without a lower bound there is always a way to go on
          have hnil := List.head?_eq_none_iff.mp hmore
          rw [hnil, List.nil_append] at h
          split at h
          · rename_i hzero
            obtain ⟨before, hmem⟩ : ∃ before, ⟨before, rest, c.groups⟩ ∈
                repeatedEnds (char p).ends fuel 0 none ⟨some a, rest, c.groups⟩ :=
              mem_repeatedEnds_char (List.nil_append rest).symm (fun b hb => by cases hb)
                (Nat.le_refl 0) (Nat.zero_le _)
            rw [hzero] at hnil
            rw [show (0 : Nat) - 1 = 0 from rfl] at hnil
            rw [hnil] at hmem
            cases hmem
          · cases h
      · have hnone : (char p).ends c = [] := by
          unfold ends
          rw [hrest]
          simp [hpa]
        rw [hnone, List.filter_nil, List.flatMap_nil, List.nil_append] at h
        split at h
        · cases h
          rw [hrest]
          intro b hb
          cases hb
          exact Bool.eq_false_iff.mpr hpa
        · cases h

theorem head?_ends_plus_char {p : α → Bool} {c d : Cursor α}
    (h : ((plus (char p)).ends c).head? = some d) : ∀ a, d.rest.head? = some a → p a = false :=
      head?_repeatedEnds_char (Nat.le_refl _) h

end Pattern

end Regex
