import Mathlib.Data.List.Basic
import Mathlib.Data.List.Induction
import Mathlib.Data.List.Nodup
import Mathlib.Data.List.Perm.Subperm
import Mathlib.Logic.Relation

/-!
# Union-find with path halving

A forest of parent pointers over the positions of a list. `find` walks to the root and hangs every
node that it leaves below the node two steps up; `union` hangs the root of the right position below
the root of the left one. Roots carry no order, so a walk ends because its nodes are distinct
(`Path.lt_length`). `find_spec`, `union_spec`: halving keeps all roots, and a union merges two
classes. `merges_eq_iff`: the classes after any unions are those of the generated equivalence.
-/

namespace UnionFind

open Relation

/-- The root of a position and the forest after the walk. -/
def find : Nat → List Nat → Nat → Option (Nat × List Nat)
  | 0, _, _ => none
  | fuel + 1, parent, index => do
    let up ← parent[index]?
    if up = index then some (index, parent)
    else
      let upUp ← parent[up]?
      find fuel (parent.set index upUp) upUp

def union (fuel : Nat) (parent : List Nat) (left right : Nat) : Option (List Nat) := do
  let (leftRoot, parent) ← find fuel parent left
  let (rightRoot, parent) ← find fuel parent right
  if leftRoot ≠ rightRoot then some (parent.set rightRoot leftRoot) else some parent

/-! ### Walks -/

/-- The walk of so many steps from a position to its root. -/
inductive Path (parent : List Nat) : Nat → Nat → Nat → Prop
  | root {r : Nat} (h : parent[r]? = some r) : Path parent 0 r r
  | step {n index up r : Nat} (h : parent[index]? = some up) (hne : up ≠ index)
      (hup : Path parent n up r) : Path parent (n + 1) index r

variable {parent : List Nat} {n m index up upUp r s x left right : Nat}

theorem Path.unique (h : Path parent n index r) (h' : Path parent m index s) : n = m ∧ r = s := by
  induction h generalizing m s with
  | root hr =>
    cases h' with
    | root => exact ⟨rfl, rfl⟩
    | step hup hne => exact absurd (Option.some.inj (hup.symm.trans hr)) hne
  | step hup hne _ ih =>
    cases h' with
    | root hr => exact absurd (Option.some.inj (hup.symm.trans hr)) hne
    | step hup' _ hrest =>
      obtain rfl := Option.some.inj (hup.symm.trans hup')
      obtain ⟨rfl, rfl⟩ := ih hrest
      exact ⟨rfl, rfl⟩

theorem Path.parent_root (h : Path parent n index r) : parent[r]? = some r := by
  induction h with
  | root hr => exact hr
  | step _ _ _ ih => exact ih

theorem Path.index_lt (h : Path parent n index r) : index < parent.length := by
  cases h with
  | root h => exact (List.getElem?_eq_some_iff.mp h).1
  | step h _ _ => exact (List.getElem?_eq_some_iff.mp h).1

/-- A walk from the parent is not longer. -/
theorem Path.above (h : Path parent n index r) (hup : parent[index]? = some up) :
    ∃ m ≤ n, Path parent m up r := by
  cases h with
  | root hr =>
    obtain rfl := Option.some.inj (hr.symm.trans hup)
    exact ⟨0, Nat.le_refl 0, .root hr⟩
  | step hup' _ hrest =>
    obtain rfl := Option.some.inj (hup'.symm.trans hup)
    exact ⟨_, Nat.le_succ _, hrest⟩

/-- The nodes of a walk differ in their distance to the root. -/
theorem Path.exists_nodes (h : Path parent n index r) :
    ∃ nodes : List Nat, nodes.length = n + 1 ∧ nodes.Nodup ∧ ∀ x ∈ nodes, ∃ m ≤ n,
      Path parent m x r := by
  induction h with
  | @root r hr =>
    refine ⟨[r], rfl, List.nodup_singleton _, fun x hx => ?_⟩
    rw [List.mem_singleton.mp hx]
    exact ⟨0, Nat.le_refl 0, .root hr⟩
  | @step n index up r hup hne hrest ih =>
    obtain ⟨nodes, hlength, hnodup, hpaths⟩ := ih
    refine ⟨index :: nodes, by rw [List.length_cons, hlength],
      List.nodup_cons.mpr ⟨fun hmem => ?_, hnodup⟩, fun x hx => ?_⟩
    · obtain ⟨m, hm, hpath⟩ := hpaths index hmem
      have := (hpath.unique (.step hup hne hrest)).1
      omega
    · rcases List.mem_cons.mp hx with rfl | hx
      · exact ⟨n + 1, Nat.le_refl _, .step hup hne hrest⟩
      · obtain ⟨m, hm, hpath⟩ := hpaths x hx
        exact ⟨m, by omega, hpath⟩

theorem Path.lt_length (h : Path parent n index r) : n < parent.length := by
  obtain ⟨nodes, hlength, hnodup, hpaths⟩ := h.exists_nodes
  have hsub : nodes ⊆ List.range parent.length := fun x hx => by
    obtain ⟨m, -, hpath⟩ := hpaths x hx
    exact List.mem_range.mpr hpath.index_lt
  have := (List.subperm_of_subset hnodup hsub).length_le
  rw [hlength, List.length_range] at this
  exact this

/-! ### Halving and linking -/

/-- Halving at a node makes no walk longer and changes no root. -/
theorem Path.halve (hup : parent[index]? = some up) (hne : up ≠ index)
    (hupUp : parent[up]? = some upUp) (h : Path parent n x r) :
    ∃ m ≤ n, Path (parent.set index upUp) m x r := by
  have hindex : index < parent.length := (List.getElem?_eq_some_iff.mp hup).1
  induction n using Nat.strongRecOn generalizing x with
  | ind n ih =>
    cases h with
    | root hr =>
      have hother : r ≠ index := by
        rintro rfl
        exact hne (Option.some.inj (hup.symm.trans hr))
      exact ⟨0, Nat.le_refl 0, .root (by rw [List.getElem?_set_ne hother.symm]; exact hr)⟩
    | @step k _ up' _ hx hnex hrest =>
      by_cases hat : x = index
      · subst hat
        obtain rfl := Option.some.inj (hx.symm.trans hup)
        obtain ⟨m, hm, habove⟩ := hrest.above hupUp
        -- back at the node the walk would be shorter than itself
        have hother : upUp ≠ x := by
          rintro rfl
          have := (habove.unique (.step hx hnex hrest)).1
          omega
        obtain ⟨m', hm', hpath⟩ := ih m (by omega) habove
        exact ⟨m' + 1, by omega, .step (by rw [List.getElem?_set_self hindex]) hother hpath⟩
      · obtain ⟨m', hm', hpath⟩ := ih k (by omega) hrest
        exact ⟨m' + 1, by omega, .step (by rw [List.getElem?_set_ne (Ne.symm hat)]; exact hx)
          hnex hpath⟩

theorem Path.link (hleft : parent[left]? = some left) (hright : parent[right]? = some right)
    (hne : left ≠ right) (h : Path parent n x r) :
    ∃ m, Path (parent.set right left) m x (if r = right then left else r) := by
  have hindex : right < parent.length := (List.getElem?_eq_some_iff.mp hright).1
  have hkeep : ∀ y, y ≠ right → (parent.set right left)[y]? = parent[y]? := fun y hy =>
    List.getElem?_set_ne hy.symm
  induction h with
  | @root r hr =>
    by_cases hat : r = right
    · subst hat
      rw [if_pos rfl]
      exact ⟨1, .step (by rw [List.getElem?_set_self hindex]) hne
        (.root ((hkeep left hne).trans hleft))⟩
    · rw [if_neg hat]
      exact ⟨0, .root ((hkeep r hat).trans hr)⟩
  | @step n index up r hup hneUp _ ih =>
    obtain ⟨m, hpath⟩ := ih
    have hother : index ≠ right := by
      rintro rfl
      exact hneUp (Option.some.inj (hup.symm.trans hright))
    exact ⟨m + 1, .step ((hkeep index hother).trans hup) hneUp hpath⟩

/-! ### Find and union -/

/-- Every walk ends, at the root that the function names. -/
def Roots (parent : List Nat) (root : Nat → Nat) : Prop :=
  ∀ index < parent.length, ∃ n, Path parent n index (root index)

/-- The classes of two positions become one. -/
def merge {α : Type*} [DecidableEq α] (root : α → α) (left right : α) : α → α :=
  fun index => if root index = root right then root left else root index

theorem roots_range (count : Nat) : Roots (List.range count) id := fun index hindex => by
  rw [List.length_range] at hindex
  exact ⟨0, .root (List.getElem?_range hindex)⟩

theorem find_of_path (h : Path parent n index r) :
    ∃ parent', (∀ fuel, n < fuel → find fuel parent index = some (r, parent')) ∧
      parent'.length = parent.length ∧ ∀ {m x s}, Path parent m x s → ∃ m' ≤ m,
        Path parent' m' x s := by
  induction n using Nat.strongRecOn generalizing parent index with
  | ind n ih =>
    cases h with
    | root hr =>
      refine ⟨parent, fun fuel hfuel => ?_, rfl, fun {m x s} hpath => ⟨m, Nat.le_refl m, hpath⟩⟩
      obtain ⟨fuel, rfl⟩ := Nat.exists_eq_succ_of_ne_zero (Nat.ne_of_gt hfuel)
      simp [find, hr]
    | @step k _ up _ hup hne hrest =>
      obtain ⟨upUp, hupUp⟩ : ∃ upUp, parent[up]? = some upUp :=
        ⟨_, List.getElem?_eq_getElem hrest.index_lt⟩
      obtain ⟨m, hm, habove⟩ := hrest.above hupUp
      obtain ⟨m', hm', hpath⟩ := habove.halve hup hne hupUp
      obtain ⟨parent', hfind, hlength, hkeep⟩ := ih m' (by omega) hpath
      refine ⟨parent', fun fuel hfuel => ?_, by rw [hlength, List.length_set], fun {j x s} hx => ?_⟩
      · obtain ⟨fuel, rfl⟩ := Nat.exists_eq_succ_of_ne_zero (Nat.ne_of_gt (by omega : 0 < fuel))
        rw [← hfind fuel (by omega)]
        simp [find, hup, hupUp, hne]
      · obtain ⟨j', hj', hx'⟩ := hx.halve hup hne hupUp
        obtain ⟨j'', hj'', hx''⟩ := hkeep hx'
        exact ⟨j'', by omega, hx''⟩

/-- With as much fuel as there are positions, `find` yields the root and changes none. -/
theorem find_spec {root : Nat → Nat} (h : Roots parent root) (hindex : index < parent.length) :
    ∃ parent', (∀ fuel, parent.length ≤ fuel →
      find fuel parent index = some (root index, parent')) ∧ parent'.length = parent.length ∧
      Roots parent' root := by
  obtain ⟨n, hpath⟩ := h index hindex
  obtain ⟨parent', hfind, hlength, hkeep⟩ := find_of_path hpath
  refine ⟨parent', fun fuel hfuel => hfind fuel (Nat.lt_of_lt_of_le hpath.lt_length hfuel), hlength,
    fun x hx => ?_⟩
  obtain ⟨m, hm⟩ := h x (hlength ▸ hx)
  obtain ⟨m', -, hm'⟩ := hkeep hm
  exact ⟨m', hm'⟩

theorem union_spec {root : Nat → Nat} (h : Roots parent root) (hleft : left < parent.length)
    (hright : right < parent.length) :
    ∃ parent', (∀ fuel, parent.length ≤ fuel → union fuel parent left right = some parent') ∧
      parent'.length = parent.length ∧ Roots parent' (merge root left right) := by
  obtain ⟨first, hfirst, hfirstLength, hfirstRoots⟩ := find_spec h hleft
  obtain ⟨second, hsecond, hsecondLength, hroots⟩ :=
    find_spec hfirstRoots (hfirstLength.symm ▸ hright)
  have hlength : second.length = parent.length := hsecondLength.trans hfirstLength
  have hunion : ∀ fuel, parent.length ≤ fuel → union fuel parent left right =
      if root left ≠ root right then some (second.set (root right) (root left))
        else some second := fun fuel hfuel => by
    simp only [union, hfirst fuel hfuel, hsecond fuel (hfirstLength ▸ hfuel), Option.bind_eq_bind,
      Option.bind_some]
  obtain ⟨_, hleftPath⟩ := hroots left (hlength.symm ▸ hleft)
  obtain ⟨_, hrightPath⟩ := hroots right (hlength.symm ▸ hright)
  by_cases hne : root left ≠ root right
  · refine ⟨second.set (root right) (root left), fun fuel hfuel => ?_,
      by rw [List.length_set, hlength], fun x hx => ?_⟩
    · rw [hunion fuel hfuel, if_pos hne]
    · rw [List.length_set] at hx
      obtain ⟨m, hm⟩ := hroots x hx
      exact hm.link hleftPath.parent_root hrightPath.parent_root hne
  · refine ⟨second, fun fuel hfuel => by rw [hunion fuel hfuel, if_neg hne], hlength,
      fun x hx => ?_⟩
    obtain ⟨m, hm⟩ := hroots x hx
    refine ⟨m, ?_⟩
    unfold merge
    split_ifs with hat
    · rw [not_not.mp hne, ← hat]
      exact hm
    · exact hm

/-! ### Classes -/

section

variable {α : Type*} [DecidableEq α] {root : α → α} {R : α → α → Prop}

theorem merge_eq_iff (h : ∀ i j, root i = root j ↔ EqvGen R i j) (left right i j : α) :
    merge root left right i = merge root left right j ↔
    EqvGen (fun a b => R a b ∨ (a = left ∧ b = right)) i j := by
  constructor
  · have hold : ∀ {a b}, root a = root b → EqvGen (fun a b => R a b ∨ (a = left ∧ b = right)) a b :=
      fun heq =>
      ((h _ _).mp heq).mono fun _ _ hR => .inl hR
    have hnew : EqvGen (fun a b => R a b ∨ (a = left ∧ b = right)) left right :=
      .rel _ _ (.inr ⟨rfl, rfl⟩)
    unfold merge
    split_ifs with hi hj hj
    · exact fun _ => hold (hi.trans hj.symm)
    · exact fun heq => .trans _ _ _ (hold hi) (.trans _ _ _ hnew.symm (hold heq))
    · exact fun heq => .trans _ _ _ (hold heq) (.trans _ _ _ hnew (hold hj.symm))
    · exact fun heq => hold heq
  · intro hgen
    induction hgen with
    | rel a b hab =>
      rcases hab with hR | ⟨rfl, rfl⟩
      · unfold merge
        rw [(h a b).mpr (.rel a b hR)]
      · unfold merge
        rw [if_pos rfl]
        split_ifs <;> rfl
    | refl => rfl
    | symm _ _ _ ih => exact ih.symm
    | trans _ _ _ _ _ ih ih' => exact ih.trans ih'

/-- The roots after the unions of these pairs, in this order. -/
def merges (edges : List (α × α)) : α → α :=
  edges.foldl (fun root edge => merge root edge.1 edge.2) id

theorem merges_append (edges : List (α × α)) (left right : α) :
    merges (edges ++ [(left, right)]) = merge (merges edges) left right := by
  unfold merges
  rw [List.foldl_append]
  rfl

theorem merges_eq_iff (edges : List (α × α)) (i j : α) :
    merges edges i = merges edges j ↔ EqvGen (fun a b => (a, b) ∈ edges) i j := by
  induction edges using List.reverseRecOn generalizing i j with
  | nil =>
    refine ⟨fun h => (show i = j from h) ▸ .refl i, fun h => ?_⟩
    induction h with
    | rel a b hab => exact absurd hab List.not_mem_nil
    | refl => rfl
    | symm _ _ _ ih => exact ih.symm
    | trans _ _ _ _ _ ih ih' => exact ih.trans ih'
  | append_singleton edges edge ih =>
    obtain ⟨left, right⟩ := edge
    rw [merges_append, merge_eq_iff ih]
    simp only [List.mem_append, List.mem_singleton, Prod.mk.injEq]

end

/-- The equivalence that images of related elements generate relates images as the elements are. -/
theorem eqvGen_map_iff {α β : Type*} {f : α → β} (hf : Function.Injective f) {R : α → α → Prop}
    {i j : α} : EqvGen (Relation.Map R f f) (f i) (f j) ↔ EqvGen R i j := by
  constructor
  · have himage : ∀ {a b}, EqvGen (Relation.Map R f f) a b → a = b ∨ ∃ i j, f i = a ∧ f j = b ∧
        EqvGen R i j := by
      intro a b h
      induction h with
      | rel a b hab =>
        obtain ⟨i, j, hR, hi, hj⟩ := hab
        exact .inr ⟨i, j, hi, hj, .rel _ _ hR⟩
      | refl => exact .inl rfl
      | symm a b _ ih =>
        rcases ih with rfl | ⟨i, j, hi, hj, hR⟩
        · exact .inl rfl
        · exact .inr ⟨j, i, hj, hi, hR.symm⟩
      | trans a b c _ _ ih ih' =>
        rcases ih with rfl | ⟨i, j, hi, hj, hR⟩
        · exact ih'
        · rcases ih' with rfl | ⟨j', k, hj', hk, hR'⟩
          · exact .inr ⟨i, j, hi, hj, hR⟩
          · obtain rfl := hf (hj.trans hj'.symm)
            exact .inr ⟨i, k, hi, hk, .trans _ _ _ hR hR'⟩
    intro h
    rcases himage h with heq | ⟨i', j', hi, hj, hR⟩
    · exact (hf heq) ▸ .refl i
    · obtain rfl := hf hi
      obtain rfl := hf hj
      exact hR
  · intro h
    induction h with
    | rel i j hR => exact .rel _ _ ⟨i, j, hR, rfl, rfl⟩
    | refl => exact .refl _
    | symm _ _ _ ih => exact ih.symm
    | trans _ _ _ _ _ ih ih' => exact .trans _ _ _ ih ih'

/-! ### The classes as lists -/

section

variable {α κ : Type*} [DecidableEq κ] {f : α → κ} {key : κ} {x : α} {state : List (κ × List α)}
  {entry : κ × List α}

/-- The element goes to the end of the list of its key, which is a new one if there is none. -/
def addTo (key : κ) (x : α) : List (κ × List α) → List (κ × List α)
  | [] => [(key, [x])]
  | (other, xs) :: rest => if other = key then (other, xs ++ [x]) :: rest else (other, xs) ::
      addTo key x rest

/-- The elements by their keys. -/
def buckets (f : α → κ) (xs : List α) : List (κ × List α) :=
  xs.foldl (fun state x => addTo (f x) x state) []

theorem buckets_append (f : α → κ) (xs : List α) (x : α) :
    buckets f (xs ++ [x]) = addTo (f x) x (buckets f xs) := by
  unfold buckets
  rw [List.foldl_append]
  rfl

theorem flatten_addTo_perm (key : κ) (x : α) (state : List (κ × List α)) :
    ((addTo key x state).map (·.2)).flatten.Perm (x :: (state.map (·.2)).flatten) := by
  induction state with
  | nil => exact .refl _
  | cons entry rest ih =>
    obtain ⟨other, xs⟩ := entry
    unfold addTo
    split_ifs
    · simp only [List.map_cons, List.flatten_cons, List.append_assoc, List.singleton_append]
      exact List.perm_middle
    · simp only [List.map_cons, List.flatten_cons]
      exact (ih.append_left xs).trans List.perm_middle

theorem keys_addTo (key : κ) (x : α) (state : List (κ × List α)) : (addTo key x state).map (·.1) =
    if key ∈ state.map (·.1) then state.map (·.1) else state.map (·.1) ++ [key] := by
  induction state with
  | nil => simp [addTo]
  | cons entry rest ih =>
    obtain ⟨other, xs⟩ := entry
    unfold addTo
    split_ifs with hkey hmem hmem
    · rfl
    · exact absurd (List.mem_map.mpr ⟨_, List.mem_cons_self, hkey⟩) hmem
    · rw [List.map_cons, ih, if_pos ((List.mem_cons.mp hmem).resolve_left (Ne.symm hkey))]
      rfl
    · rw [List.map_cons, ih, if_neg fun h => hmem (List.mem_cons_of_mem _ h)]
      rfl

theorem mem_addTo (hkeys : (state.map (·.1)).Nodup) (h : entry ∈ addTo key x state) :
    (entry ∈ state ∧ entry.1 ≠ key) ∨
      ∃ xs, entry = (key, xs ++ [x]) ∧
      ((key, xs) ∈ state ∨ (xs = [] ∧ ∀ other ∈ state, other.1 ≠ key)) := by
  induction state with
  | nil =>
    exact .inr ⟨[], List.mem_singleton.mp h,
      .inr ⟨rfl, fun other hmem => absurd hmem List.not_mem_nil⟩⟩
  | cons first rest ih =>
    obtain ⟨other, xs⟩ := first
    obtain ⟨hfirst, hrest⟩ := List.nodup_cons.mp hkeys
    unfold addTo at h
    split_ifs at h with hkey
    · subst hkey
      rcases List.mem_cons.mp h with rfl | h
      · exact .inr ⟨xs, rfl, .inl List.mem_cons_self⟩
      · exact .inl ⟨List.mem_cons_of_mem _ h, fun heq => hfirst (List.mem_map.mpr ⟨entry, h, heq⟩)⟩
    · rcases List.mem_cons.mp h with rfl | h
      · exact .inl ⟨List.mem_cons_self, hkey⟩
      · rcases ih hrest h with ⟨hmem, hne⟩ | ⟨ys, heq, hys⟩
        · exact .inl ⟨List.mem_cons_of_mem _ hmem, hne⟩
        · refine .inr ⟨ys, heq, hys.imp (List.mem_cons_of_mem _)
            fun hnew => ⟨hnew.1, fun other' hmem => ?_⟩⟩
          rcases List.mem_cons.mp hmem with rfl | hmem
          · exact hkey
          · exact hnew.2 other' hmem

theorem flatten_buckets_perm (f : α → κ) (xs : List α) :
    ((buckets f xs).map (·.2)).flatten.Perm xs := by
  induction xs using List.reverseRecOn with
  | nil => exact .refl _
  | append_singleton xs x ih =>
    rw [buckets_append]
    exact (flatten_addTo_perm (f x) x _).trans
      ((ih.cons x).trans (List.perm_append_singleton x xs).symm)

theorem nodup_keys_buckets (f : α → κ) (xs : List α) : ((buckets f xs).map (·.1)).Nodup := by
  induction xs using List.reverseRecOn with
  | nil => exact List.nodup_nil
  | append_singleton xs x ih =>
    rw [buckets_append, keys_addTo]
    split_ifs with hmem
    · exact ih
    · exact List.nodup_append.mpr ⟨ih, List.nodup_singleton _, fun a ha b hb heq =>
        hmem ((List.mem_singleton.mp hb) ▸ heq ▸ ha)⟩

/-- The list of a key has exactly the elements with this key. -/
theorem mem_buckets {xs : List α} (h : entry ∈ buckets f xs) :
    entry.2 = xs.filter (fun y => decide (f y = entry.1)) ∧ entry.2 ≠ [] := by
  induction xs using List.reverseRecOn generalizing entry with
  | nil => exact absurd h List.not_mem_nil
  | append_singleton xs x ih =>
    rw [buckets_append] at h
    rcases mem_addTo (nodup_keys_buckets f xs) h with ⟨hmem, hne⟩ | ⟨ys, rfl, hys⟩
    · refine ⟨?_, (ih hmem).2⟩
      rw [List.filter_append, List.filter_cons_of_neg (by simpa using hne.symm), List.filter_nil,
        List.append_nil]
      exact (ih hmem).1
    · refine ⟨?_, List.append_ne_nil_of_right_ne_nil ys (List.cons_ne_nil x [])⟩
      show ys ++ [x] = (xs ++ [x]).filter (fun y => decide (f y = f x))
      have hlast : [x].filter (fun y => decide (f y = f x)) = [x] := by simp
      rw [List.filter_append, hlast]
      congr 1
      rcases hys with hmem | ⟨rfl, hnew⟩
      · exact (ih hmem).1
      · refine (List.filter_eq_nil_iff.mpr fun y hy heq => ?_).symm
        have hflat := (flatten_buckets_perm f xs).mem_iff.mpr hy
        obtain ⟨zs, hzs, hyzs⟩ := List.mem_flatten.mp hflat
        obtain ⟨other, hother, rfl⟩ := List.mem_map.mp hzs
        rw [(ih hother).1] at hyzs
        have hkey := of_decide_eq_true (List.mem_filter.mp hyzs).2
        exact hnew other hother (hkey.symm.trans (of_decide_eq_true heq))

end

end UnionFind
