import Mathlib.Data.List.Induction
import Mathlib.Order.Nat

/-!
# Outlines

The path of a heading in an outline, when every entry of level `n` keeps the first `n - 1` entries
of the path before it. The place of an entry is then the length of the path, which can be less than
its level. Levels increase along all paths exactly if no entry that is deeper than its place is
followed, below the same ancestors, by one that is not deeper (`ascending_outline_iff`).
-/

namespace Outline

universe u

variable {α : Type u} (level : α → Nat)

/-- The path to a new entry. -/
def place (path : List α) (x : α) : List α := path.take (level x - 1) ++ [x]

/-- The path after some entries. -/
def outline (start entries : List α) : List α := entries.foldl (place level) start

/-- The length of the path after entries of these levels. -/
def depth (start : Nat) (levels : List Nat) : Nat :=
  levels.foldl (fun n level => min (level - 1) n + 1) start

/-- An entry at a depth is followed by deeper ones as long as it stays in the path. -/
def KeepsLevels (start : Nat) (levels : List Nat) : Prop :=
  ∀ before upper between lower after, levels = before ++ upper :: (between ++ lower :: after) →
    (∀ level ∈ between ++ [lower], depth start (before ++ [upper]) < level) → upper < lower

section

variable {level} {start entries : List α}

theorem outline_concat (x : α) : outline level start (entries ++ [x]) = place level
    (outline level start entries) x :=
  List.foldl_append ..

theorem length_outline : (outline level start entries).length = depth start.length
    (entries.map level) := by
  induction entries using List.reverseRecOn with
  | nil => rfl
  | append_singleton entries x ih =>
    unfold depth at ih ⊢
    rw [outline_concat, List.map_append, List.map_singleton, List.foldl_append, ← ih, place,
      List.length_append, List.length_take]
    rfl

/-- A path stays the beginning of the path as long as the levels are deeper than it is long. -/
theorem isPrefix_outline (h : ∀ x ∈ entries, start.length < level x) :
    start <+: outline level start entries := by
  induction entries using List.reverseRecOn with
  | nil => exact List.prefix_rfl
  | append_singleton entries x ih =>
    have hstart := ih fun y hy => h y (List.mem_append_left _ hy)
    have hx := h x (List.mem_append_right _ (List.mem_singleton_self x))
    rw [outline_concat]
    have htake : start <+: (outline level start entries).take (level x - 1) :=
      List.prefix_take_iff.mpr ⟨hstart, by omega⟩
    exact htake.trans (List.prefix_append _ _)

/-- The beginning of a path is the path of its last entry, from where all entries were deeper. -/
theorem take_outline {i : Nat} (h : i < (outline level start entries).length) :
    (outline level start entries).take (i + 1) = start.take (i + 1) ∨
      ∃ before x after, entries = before ++ x :: after ∧
        outline level start (before ++ [x]) = (outline level start entries).take (i + 1) ∧
        ∀ y ∈ after, i + 1 < level y := by
  induction entries using List.reverseRecOn with
  | nil => exact .inl rfl
  | append_singleton entries x ih =>
    have hpath : outline level start (entries ++ [x]) =
        (outline level start entries).take (level x - 1) ++ [x] :=
      outline_concat x
    rw [hpath, List.length_append, List.length_take, List.length_singleton] at h
    by_cases hlast : i = min (level x - 1) (outline level start entries).length
    · refine .inr ⟨entries, x, [], rfl, ?_, by rintro y ⟨⟩⟩
      have hall : ((outline level start entries).take (level x - 1) ++ [x]).length ≤ i + 1 := by
        rw [List.length_append, List.length_take, List.length_singleton]
        omega
      rw [hpath, List.take_of_length_le hall]
    · have htake : (outline level start (entries ++ [x])).take (i + 1) =
          (outline level start entries).take (i + 1) := by
        rw [hpath, List.take_append_of_le_length (by rw [List.length_take]; omega), List.take_take,
          Nat.min_eq_left (by omega)]
      rcases ih (by omega) with hstart | ⟨before, y, after, hentries, hbefore, hafter⟩
      · exact .inl (htake.trans hstart)
      · refine .inr ⟨before, y, after ++ [x], ?_, htake ▸ hbefore, fun z hz => ?_⟩
        · rw [hentries, List.append_assoc, List.cons_append]
        · rcases List.mem_append.mp hz with hz | hz
          · exact hafter z hz
          · rw [List.mem_singleton.mp hz]
            omega

/-- Of two entries of a path, the later one was placed while the earlier one was in it. -/
theorem lt_of_keepsLevels (h : KeepsLevels start.length (entries.map level)) {i j : Nat}
    (hij : i < j) {x y : α} (hx : (outline level start entries)[i]? = some x)
    (hy : (outline level start entries)[j]? = some y) (hi : start.length ≤ i) :
    level x < level y := by
  have hget : ∀ {path : List α} {k n : Nat}, k < n → (path.take n)[k]? = path[k]? := fun hk => by
    rw [List.getElem?_take, if_pos hk]
  have hstart : ∀ {path : List α} {k : Nat} {z : α}, start.length ≤ k → path[k]? = some z →
      path.take (k + 1) ≠ start.take (k + 1) := by
    intro path k z hk hz heq
    rw [← hget (Nat.lt_succ_self k), heq, hget (Nat.lt_succ_self k), List.getElem?_eq_none hk] at hz
    cases hz
  rcases take_outline (List.getElem?_eq_some_iff.mp hy).1 with heq | ⟨before, last, after, hentries,
    hpath, -⟩
  · exact absurd heq (hstart (by omega) hy)
  rw [outline_concat, place] at hpath
  have hshape : (outline level start before).take (level last - 1) ++ [last] =
      (outline level start entries).take j ++ [y] := by
    rw [hpath, List.take_add_one, hy]
    rfl
  obtain ⟨hkept, hlast⟩ := List.append_inj' hshape rfl
  obtain rfl : last = y := (List.cons.inj hlast).1
  have hkeptLength := congrArg List.length hkept
  rw [List.length_take, List.length_take] at hkeptLength
  have hj := (List.getElem?_eq_some_iff.mp hy).1
  have hx' : (outline level start before)[i]? = some x := by
    rw [← hget (n := level last - 1) (by omega), hkept, hget hij, hx]
  rcases take_outline (List.getElem?_eq_some_iff.mp hx').1
    with heq | ⟨earlier, x', between, hbefore, hpath', hdeeper⟩
  · exact absurd heq (hstart hi hx')
  have hsame : x' = x := by
    have hend := congrArg List.getLast? hpath'
    rw [outline_concat, place, List.getLast?_concat, List.take_add_one, hx'] at hend
    exact Option.some.inj (hend.trans List.getLast?_concat)
  subst hsame
  have hdepth : depth start.length (earlier.map level ++ [level x']) = i + 1 := by
    have := congrArg List.length hpath'
    rw [length_outline, List.map_append, List.length_take] at this
    have hi := (List.getElem?_eq_some_iff.mp hx').1
    rw [show [x'].map level = [level x'] from rfl] at this
    omega
  refine h (earlier.map level) (level x') (between.map level) (level last) (after.map level) ?_
    fun n hn => ?_
  · rw [hentries, hbefore]
    simp
  · rw [hdepth]
    rcases List.mem_append.mp hn with hn | hn
    · obtain ⟨z, hz, rfl⟩ := List.mem_map.mp hn
      exact hdeeper z hz
    · rw [List.mem_singleton.mp hn]
      omega

/-- An entry that all the next ones are deeper than long stays in the path, and the last of them is
placed below it. -/
theorem outline_below {before between : List α} {upper lower : α}
    (h : ∀ x ∈ between ++ [lower], (outline level start (before ++ [upper])).length < level x) :
    ∃ above below, outline level start (before ++ [upper]) = above ++ [upper] ∧
      outline level start (before ++ upper :: (between ++ [lower])) = above ++ upper ::
        (below ++ [lower]) := by
  have hplace : outline level start (before ++ [upper]) =
      (outline level start before).take (level upper - 1) ++ [upper] :=
    outline_concat upper
  obtain ⟨below, hkept⟩ : outline level start (before ++ [upper]) <+:
      outline level (outline level start (before ++ [upper])) between :=
    isPrefix_outline fun x hx => h x (List.mem_append_left _ hx)
  have hlower := h lower (List.mem_append_right _ (List.mem_singleton_self _))
  have hsplit : outline level start (before ++ upper :: (between ++ [lower])) =
      outline level (outline level start (before ++ [upper])) (between ++ [lower]) := by
    rw [List.append_cons]
    exact List.foldl_append ..
  refine ⟨(outline level start before).take (level upper - 1),
    below.take (level lower - 1 - (outline level start (before ++ [upper])).length), hplace, ?_⟩
  rw [hsplit, outline_concat, place, ← hkept, List.take_append,
    List.take_of_length_le (by omega), hplace]
  simp

theorem outline_ne_nil (h : start ≠ []) : outline level start entries ≠ [] := by
  induction entries using List.reverseRecOn with
  | nil => exact h
  | append_singleton entries x ih =>
    rw [outline_concat]
    exact List.append_ne_nil_of_right_ne_nil _ (List.cons_ne_nil x [])

/-- An entry in the first place has level one. -/
theorem level_le_one {x : α} (hstart : start ≠ [])
    (h : outline level start (entries ++ [x]) = [x]) : level x ≤ 1 := by
  have hplace : (outline level start entries).take (level x - 1) ++ [x] = [] ++ [x] :=
    (outline_concat x).symm.trans h
  have htake := List.append_cancel_right hplace
  rcases List.take_eq_nil_iff.mp htake with hzero | hnil
  · omega
  · exact absurd hnil (outline_ne_nil hstart)

/-- Only the first entry of a path has level one. -/
theorem outline_shape (root : α) (entries : List α) :
    ∃ first rest, outline level [root] entries = first :: rest ∧ (first = root ∨ level first ≤ 1) ∧
    ∀ x ∈ rest, 2 ≤ level x := by
  induction entries using List.reverseRecOn with
  | nil => exact ⟨root, [], rfl, .inl rfl, by rintro x ⟨⟩⟩
  | append_singleton entries x ih =>
    obtain ⟨first, rest, hpath, hfirst, hrest⟩ := ih
    rw [outline_concat, hpath, place]
    by_cases hone : level x ≤ 1
    · refine ⟨x, [], ?_, .inr hone, by rintro y ⟨⟩⟩
      rw [Nat.sub_eq_zero_of_le hone]
      rfl
    · obtain ⟨n, hn⟩ : ∃ n, level x - 1 = n + 1 := ⟨level x - 2, by omega⟩
      refine ⟨first, rest.take n ++ [x], by rw [hn]; rfl, hfirst, fun y hy => ?_⟩
      rcases List.mem_append.mp hy with hy | hy
      · exact hrest y (List.mem_of_mem_take hy)
      · rw [List.mem_singleton.mp hy]
        omega

/-- The levels increase along all paths, without the first entry, exactly if the entries keep their
levels. -/
theorem ascending_outline_iff {root : α} :
    (∀ front, front <+: entries → (outline level [root] front).tail.Pairwise
      fun x y => level x < level y) ↔ KeepsLevels 1 (entries.map level) := by
  constructor
  · intro h before upper between lower after hlevels hdeeper
    obtain ⟨xs, fromUpper, rfl, rfl, hupper⟩ := List.map_eq_append_iff.mp hlevels
    obtain ⟨x, afterUpper, rfl, rfl, hafter⟩ := List.map_eq_cons_iff.mp hupper
    obtain ⟨ys, fromLower, rfl, rfl, hlower⟩ := List.map_eq_append_iff.mp hafter
    obtain ⟨y, zs, rfl, rfl, rfl⟩ := List.map_eq_cons_iff.mp hlower
    have hlength : (outline level [root] (xs ++ [x])).length =
        depth 1 (xs.map level ++ [level x]) := by
      rw [length_outline, List.map_append]
      rfl
    obtain ⟨above, below, hupper, hpath⟩ := @outline_below _ level [root] xs ys x y fun z hz => by
        rw [hlength]
        refine hdeeper (level z) ?_
        rw [← List.map_singleton, ← List.map_append]
        exact List.mem_map_of_mem hz
    have hfront : xs ++ x :: (ys ++ [y]) <+: xs ++ x :: (ys ++ y :: zs) := ⟨zs, by simp⟩
    have hpairwise := h _ hfront
    rw [hpath] at hpairwise
    cases above with
    | nil =>
      have hone := level_le_one (List.cons_ne_nil root []) hupper
      have := hdeeper (level y) (List.mem_append_right _ (List.mem_singleton_self _))
      rw [← hlength, hupper] at this
      exact Nat.lt_of_le_of_lt hone this
    | cons first above =>
      rw [List.cons_append, List.tail_cons] at hpairwise
      have hlater := (List.pairwise_append.mp hpairwise).2.1
      exact (List.pairwise_cons.mp hlater).1 y (List.mem_append_right _ (List.mem_singleton_self _))
  · intro h front hfront
    obtain ⟨rest, rfl⟩ := hfront
    have hkeeps : KeepsLevels 1 (front.map level) := by
      intro before upper between lower after hlevels
      refine h before upper between lower (after ++ rest.map level) ?_
      rw [List.map_append, hlevels]
      simp
    rw [List.pairwise_iff_getElem]
    intro i j hi hj hij
    have hget : ∀ {k : Nat} (hk : k < (outline level [root] front).tail.length),
        (outline level [root] front)[k + 1]? = some (outline level [root] front).tail[k] := by
      intro k hk
      rw [← List.getElem?_tail]
      exact List.getElem?_eq_getElem hk
    have hlength : [root].length = 1 := rfl
    rw [← hlength] at hkeeps
    exact lt_of_keepsLevels hkeeps (Nat.succ_lt_succ hij) (hget hi) (hget hj) (Nat.le_add_left _ _)

end

end Outline
