import Mathlib.Data.List.Nodup

/-!
# Tables with a primary key

`Table key` is a list of rows no two of which share their `key`; the list order is insertion order.
The operations are those of one SQL statement on one table: look a row up by its key (`find?`),
insert a row or report the conflict (`insert?`), replace the row of a key (`set`), rewrite rows
without touching their keys (`mapRows`), and delete rows (`filter`). Each keeps the key unique by
construction, and each comes with the lookup it leaves behind.
-/

namespace Relational

universe u v

variable {ρ : Type u} {κ : Type v}

/-- Rows of type `ρ`, no two with the same `key`. -/
structure Table (key : ρ → κ) where
  rows : List ρ
  nodup : (rows.map key).Nodup

namespace Table

variable {key : ρ → κ}

/-- The table without rows. -/
def empty : Table key := ⟨[], List.nodup_nil⟩

/-- A table is its list of rows. -/
theorem ext {s t : Table key} (h : s.rows = t.rows) : s = t := by
  cases s
  cases t
  cases h
  rfl

/-- Two rows of a table with the same key are the same row. -/
theorem eq_of_key (t : Table key) {r s : ρ} (hr : r ∈ t.rows) (hs : s ∈ t.rows)
    (h : key r = key s) : r = s :=
  List.inj_on_of_nodup_map t.nodup hr hs h

/-- Delete the rows that fail `p`. -/
def filter (t : Table key) (p : ρ → Bool) : Table key :=
  ⟨t.rows.filter p, t.nodup.sublist (List.filter_sublist.map key)⟩

/-- Rewrite every row by a function that keeps the key. -/
def mapRows (t : Table key) (f : ρ → ρ) (hf : ∀ r, key (f r) = key r) : Table key :=
  ⟨t.rows.map f, by
    rw [List.map_map, show key ∘ f = key from funext hf]
    exact t.nodup⟩

@[simp] theorem rows_empty : (empty : Table key).rows = [] := rfl
@[simp] theorem rows_filter (t : Table key) (p : ρ → Bool) :
    (t.filter p).rows = t.rows.filter p := rfl
@[simp] theorem rows_mapRows (t : Table key) (f : ρ → ρ) (hf : ∀ r, key (f r) = key r) :
    (t.mapRows f hf).rows = t.rows.map f := rfl

variable [DecidableEq κ]

/-- The row with key `k`. -/
def find? (t : Table key) (k : κ) : Option ρ := t.rows.find? fun r => decide (key r = k)

/-- Append a row, unless its key is taken. -/
def insert? (t : Table key) (r : ρ) : Option (Table key) :=
  if h : key r ∈ t.rows.map key then none
  else some ⟨t.rows ++ [r], by
    rw [List.map_append, List.nodup_append]
    refine ⟨t.nodup, by simp, fun a ha b hb hab => h ?_⟩
    rw [List.map_singleton, List.mem_singleton] at hb
    rwa [← hb, ← hab]⟩

/-- Replace the row that has `r`'s key by `r`; a key that is absent stays absent. -/
def set (t : Table key) (r : ρ) : Table key :=
  t.mapRows (fun x => if key x = key r then r else x) fun x => by
    split
    · rename_i h
      exact h.symm
    · rfl

/-- Replace the row that has `r`'s key, or append `r`. -/
def upsert (t : Table key) (r : ρ) : Table key := (t.insert? r).getD (t.set r)

theorem find?_eq_some_iff {t : Table key} {k : κ} {r : ρ} :
    t.find? k = some r ↔ r ∈ t.rows ∧ key r = k := by
  constructor
  · intro h
    exact ⟨List.mem_of_find?_eq_some h, by simpa using List.find?_some h⟩
  · rintro ⟨hr, rfl⟩
    cases hf : t.find? (key r) with
    | none =>
      have := List.find?_eq_none.mp hf r hr
      simp at this
    | some s =>
      have hs := List.mem_of_find?_eq_some hf
      have hk : key s = key r := by simpa using List.find?_some hf
      rw [t.eq_of_key hs hr hk]

theorem find?_eq_none_iff {t : Table key} {k : κ} : t.find? k = none ↔ ∀ r ∈ t.rows, key r ≠ k := by
  simp [find?, List.find?_eq_none]

theorem mem_rows_of_find? {t : Table key} {k : κ} {r : ρ} (h : t.find? k = some r) : r ∈ t.rows :=
  (find?_eq_some_iff.mp h).1

theorem key_of_find? {t : Table key} {k : κ} {r : ρ} (h : t.find? k = some r) : key r = k :=
  (find?_eq_some_iff.mp h).2

theorem find?_key_of_mem {t : Table key} {r : ρ} (h : r ∈ t.rows) : t.find? (key r) = some r :=
  find?_eq_some_iff.mpr ⟨h, rfl⟩

/-- The rows with a given key are the lookup's result. -/
theorem filter_key {t : Table key} {k : κ} :
    t.rows.filter (fun r => decide (key r = k)) = (t.find? k).toList := by
  cases hf : t.find? k with
  | none =>
    refine List.filter_eq_nil_iff.mpr fun r hr => ?_
    simpa using find?_eq_none_iff.mp hf r hr
  | some r =>
    obtain ⟨hmem, rfl⟩ := find?_eq_some_iff.mp hf
    have hnodup : (t.rows.filter fun s => decide (key s = key r)).Nodup :=
      (List.Nodup.of_map key t.nodup).filter _
    have hall : ∀ s ∈ t.rows.filter (fun s => decide (key s = key r)), s = r := by
      intro s hs
      obtain ⟨hs, hk⟩ := List.mem_filter.mp hs
      exact t.eq_of_key hs hmem (by simpa using hk)
    have hrmem : r ∈ t.rows.filter (fun s => decide (key s = key r)) :=
      List.mem_filter.mpr ⟨hmem, by simp⟩
    cases hl : t.rows.filter (fun s => decide (key s = key r)) with
    | nil =>
      rw [hl] at hrmem
      cases hrmem
    | cons a l =>
      rw [hl] at hall hnodup
      have ha : a = r := hall a (by simp)
      cases l with
      | nil => rw [ha]; rfl
      | cons b l =>
        have hb : b = r := hall b (by simp)
        simp [ha, hb] at hnodup

@[simp] theorem find?_empty (k : κ) : (empty : Table key).find? k = none := rfl

/-! ### Insertion -/

theorem insert?_eq_some_iff {t t' : Table key} {r : ρ} :
    t.insert? r = some t' ↔ t.find? (key r) = none ∧ t'.rows = t.rows ++ [r] := by
  have habs : (key r ∈ t.rows.map key) ↔ ¬ t.find? (key r) = none := by
    rw [find?_eq_none_iff]
    simp
  unfold insert?
  split
  · rename_i h
    simp [habs.mp h]
  · rename_i h
    have hnone : t.find? (key r) = none := by
      by_contra hne
      exact h (habs.mpr hne)
    constructor
    · rintro hs
      cases hs
      exact ⟨hnone, rfl⟩
    · rintro ⟨-, hrows⟩
      cases t'
      cases hrows
      rfl

/-- A refused insertion found the key taken. -/
theorem find?_ne_none_of_insert? {t : Table key} {r : ρ} (h : t.insert? r = none) :
    t.find? (key r) ≠ none := by
  intro hnone
  unfold insert? at h
  split at h
  · rename_i hmem
    obtain ⟨s, hs, hk⟩ := List.mem_map.mp hmem
    exact find?_eq_none_iff.mp hnone s hs hk
  · cases h

theorem rows_insert? {t t' : Table key} {r : ρ} (h : t.insert? r = some t') :
    t'.rows = t.rows ++ [r] :=
  (insert?_eq_some_iff.mp h).2

theorem find?_insert?_self {t t' : Table key} {r : ρ} (h : t.insert? r = some t') :
    t'.find? (key r) = some r := by
  refine find?_eq_some_iff.mpr ⟨?_, rfl⟩
  rw [rows_insert? h]
  exact List.mem_append_right _ (List.mem_singleton_self r)

theorem find?_insert?_ne {t t' : Table key} {r : ρ} (h : t.insert? r = some t') {k : κ}
    (hk : key r ≠ k) : t'.find? k = t.find? k := by
  unfold find?
  rw [rows_insert? h, List.find?_append]
  simp [hk]

/-- An insertion never disturbs a row that was there. -/
theorem find?_insert?_of_some {t t' : Table key} {r s : ρ} (h : t.insert? r = some t') {k : κ}
    (hs : t.find? k = some s) : t'.find? k = some s := by
  obtain ⟨hmem, rfl⟩ := find?_eq_some_iff.mp hs
  refine find?_eq_some_iff.mpr ⟨?_, rfl⟩
  rw [rows_insert? h]
  exact List.mem_append_left _ hmem

/-! ### Replacement -/

theorem mem_set {t : Table key} {r x : ρ} (h : x ∈ (t.set r).rows) :
    x = r ∨ (x ∈ t.rows ∧ key x ≠ key r) := by
  obtain ⟨y, hy, rfl⟩ := List.mem_map.mp h
  by_cases hk : key y = key r
  · exact .inl (if_pos hk)
  · exact .inr ⟨by rwa [if_neg hk], by rwa [if_neg hk]⟩

theorem find?_set_self {t : Table key} {r old : ρ} (h : t.find? (key r) = some old) :
    (t.set r).find? (key r) = some r := by
  obtain ⟨hmem, hkey⟩ := find?_eq_some_iff.mp h
  refine find?_eq_some_iff.mpr ⟨List.mem_map.mpr ⟨old, hmem, if_pos hkey⟩, rfl⟩

theorem find?_set_ne (t : Table key) {r : ρ} {k : κ} (hk : key r ≠ k) :
    (t.set r).find? k = t.find? k := by
  cases hf : t.find? k with
  | none =>
    rw [find?_eq_none_iff] at hf ⊢
    intro x hx
    rcases mem_set hx with rfl | ⟨hx, -⟩
    · exact hk
    · exact hf x hx
  | some s =>
    obtain ⟨hmem, rfl⟩ := find?_eq_some_iff.mp hf
    exact find?_eq_some_iff.mpr ⟨List.mem_map.mpr ⟨s, hmem, if_neg (Ne.symm hk)⟩, rfl⟩

theorem mem_upsert {t : Table key} {r x : ρ} (h : x ∈ (t.upsert r).rows) : x = r ∨ x ∈ t.rows := by
  unfold upsert at h
  cases hins : t.insert? r with
  | none =>
    rw [hins] at h
    rcases mem_set h with h | ⟨h, -⟩
    · exact .inl h
    · exact .inr h
  | some t' =>
    rw [hins, Option.getD_some, rows_insert? hins, List.mem_append, List.mem_singleton] at h
    exact h.symm

theorem insert?_eq_ite (t : Table key) (r : ρ) :
    t.insert? r = if (t.find? (key r)).isSome then none else some (t.upsert r) := by
  cases h : t.insert? r with
  | none => rw [if_pos (Option.isSome_iff_ne_none.mpr (find?_ne_none_of_insert? h))]
  | some t' =>
    rw [(insert?_eq_some_iff.mp h).1, upsert, h]
    rfl

theorem find?_upsert_self (t : Table key) (r : ρ) : (t.upsert r).find? (key r) = some r := by
  unfold upsert
  cases hins : t.insert? r with
  | none =>
    obtain ⟨old, hold⟩ := Option.ne_none_iff_exists'.mp (find?_ne_none_of_insert? hins)
    exact find?_set_self hold
  | some t' => exact find?_insert?_self hins

theorem find?_upsert_ne (t : Table key) {r : ρ} {k : κ} (hk : key r ≠ k) :
    (t.upsert r).find? k = t.find? k := by
  unfold upsert
  cases hins : t.insert? r with
  | none => exact find?_set_ne t hk
  | some t' => exact find?_insert?_ne hins hk

theorem mem_keys_iff {t : Table key} {k : κ} : k ∈ t.rows.map key ↔ (t.find? k).isSome := by
  constructor
  · intro h
    obtain ⟨r, hr, rfl⟩ := List.mem_map.mp h
    rw [find?_key_of_mem hr]
    rfl
  · intro h
    obtain ⟨r, hr⟩ := Option.isSome_iff_exists.mp h
    obtain ⟨hmem, rfl⟩ := find?_eq_some_iff.mp hr
    exact List.mem_map_of_mem hmem

theorem mem_keys_upsert {t : Table key} {r : ρ} {k : κ} :
    k ∈ (t.upsert r).rows.map key ↔ key r = k ∨ k ∈ t.rows.map key := by
  rw [mem_keys_iff, mem_keys_iff]
  by_cases hk : key r = k
  · subst hk
    rw [find?_upsert_self]
    simp
  · rw [find?_upsert_ne t hk]
    simp [hk]

/-- The keys after a list of rows was written. -/
theorem mem_keys_upserts {β : Type*} {f : β → ρ} {xs : List β} {t : Table key} {k : κ} :
    k ∈ (xs.foldl (fun t x => t.upsert (f x)) t).rows.map key ↔
      (∃ x ∈ xs, key (f x) = k) ∨ k ∈ t.rows.map key := by
  induction xs generalizing t with
  | nil => simp
  | cons x xs ih =>
    rw [List.foldl_cons, ih, mem_keys_upsert, List.exists_mem_cons_iff, or_left_comm, or_assoc]

theorem upsert_of_mem {t : Table key} {r : ρ} (h : key r ∈ t.rows.map key) :
    t.upsert r = t.set r := by
  have hinsert : t.insert? r = none := dif_pos h
  rw [upsert, hinsert, Option.getD_none]

theorem rows_upsert_of_fresh {t : Table key} {r : ρ} (h : t.find? (key r) = none) :
    (t.upsert r).rows = t.rows ++ [r] := by
  have hinsert := insert?_eq_ite t r
  rw [h, Option.isSome_none, if_neg Bool.false_ne_true] at hinsert
  exact rows_insert? hinsert

/-- Writing distinct rows that are not there appends them. -/
theorem rows_upserts_of_fresh {β : Type*} {f : β → ρ} {xs : List β} {t : Table key}
    (hnodup : (xs.map fun x => key (f x)).Nodup) (hfresh : ∀ x ∈ xs, t.find? (key (f x)) = none) :
    (xs.foldl (fun t x => t.upsert (f x)) t).rows = t.rows ++ xs.map f := by
  induction xs generalizing t with
  | nil => simp
  | cons x xs ih =>
    obtain ⟨hnew, hnodup⟩ := List.nodup_cons.mp hnodup
    have hrest : ∀ y ∈ xs, (t.upsert (f x)).find? (key (f y)) = none := by
      intro y hy
      have hne : key (f x) ≠ key (f y) := fun heq => hnew (List.mem_map.mpr ⟨y, hy, heq.symm⟩)
      rw [find?_upsert_ne _ hne]
      exact hfresh y (List.mem_cons_of_mem _ hy)
    rw [List.foldl_cons, ih hnodup hrest, rows_upsert_of_fresh (hfresh x List.mem_cons_self),
      List.append_assoc]
    rfl

/-- Writing rows that are there, each under a function that keeps its key, rewrites them in place.
-/
theorem rows_upserts_of_mem {f : ρ → ρ} (hf : ∀ r, key (f r) = key r) {xs : List ρ} {t : Table key}
    (hxs : ∀ x ∈ xs, x ∈ t.rows) (hnodup : (xs.map key).Nodup) :
    (xs.foldl (fun t x => t.upsert (f x)) t).rows = t.rows.map fun r => if key r ∈ xs.map key
      then f r else r := by
  induction xs generalizing t with
  | nil => simp
  | cons x xs ih =>
    obtain ⟨hnew, hnodup⟩ := List.nodup_cons.mp hnodup
    have hx : x ∈ t.rows := hxs x List.mem_cons_self
    have hset : (t.upsert (f x)).rows = t.rows.map fun r => if key r = key x then f x else r := by
      rw [upsert_of_mem (by rw [hf]; exact List.mem_map_of_mem hx)]
      simp only [set, rows_mapRows, hf]
    rw [List.foldl_cons, ih ?_ hnodup, hset, List.map_map]
    · apply List.map_congr_left
      intro r hr
      show (if key (if key r = key x then f x else r) ∈ xs.map key
        then f (if key r = key x then f x else r)
        else if key r = key x then f x else r) = if key r ∈ (x :: xs).map key then f r else r
      by_cases hk : key r = key x
      · obtain rfl := t.eq_of_key hr hx hk
        simp only [if_true, hf, List.map_cons, List.mem_cons, true_or]
        rw [if_neg hnew]
      · simp [hk]
    · intro y hy
      have hne : key y ≠ key x := fun h => hnew (h ▸ List.mem_map_of_mem hy)
      rw [hset]
      exact List.mem_map.mpr ⟨y, hxs y (List.mem_cons_of_mem _ hy), if_neg hne⟩

/-! ### Rewriting and deletion -/

theorem find?_mapRows (t : Table key) (f : ρ → ρ) (hf : ∀ r, key (f r) = key r) (k : κ) :
    (t.mapRows f hf).find? k = (t.find? k).map f := by
  unfold find?
  rw [rows_mapRows, List.find?_map]
  congr 2
  funext r
  simp [hf]

theorem find?_filter_of_pos {t : Table key} {p : ρ → Bool} {k : κ} {r : ρ}
    (h : t.find? k = some r) (hp : p r = true) : (t.filter p).find? k = some r := by
  obtain ⟨hmem, rfl⟩ := find?_eq_some_iff.mp h
  exact find?_eq_some_iff.mpr ⟨List.mem_filter.mpr ⟨hmem, hp⟩, rfl⟩

/-! ### Unique columns -/

/-- No two rows have the same value of `f`. -/
def UniqueBy {β : Type*} (t : Table key) (f : ρ → β) : Prop :=
  ∀ r ∈ t.rows, ∀ s ∈ t.rows, f r = f s → r = s

omit [DecidableEq κ] in
theorem uniqueBy_empty {β : Type*} (f : ρ → β) : (empty : Table key).UniqueBy f := fun r hr => by
  simp at hr

theorem mem_upsert_of_mem {t : Table key} {r x : ρ} (hx : x ∈ t.rows) (hne : key r ≠ key x) :
    x ∈ (t.upsert r).rows :=
  mem_rows_of_find? ((find?_upsert_ne t hne).trans (find?_key_of_mem hx))

theorem mem_set_of_mem {t : Table key} {r x : ρ} (hx : x ∈ t.rows) (hne : key r ≠ key x) :
    x ∈ (t.set r).rows :=
  mem_rows_of_find? ((find?_set_ne t hne).trans (find?_key_of_mem hx))

theorem UniqueBy.upsert {β : Type*} {t : Table key} {f : ρ → β} {r : ρ} (h : t.UniqueBy f)
    (hnew : ∀ s ∈ t.rows, f s ≠ f r) : (t.upsert r).UniqueBy f := by
  intro x hx y hy heq
  rcases mem_upsert hx with rfl | hx' <;> rcases mem_upsert hy with rfl | hy'
  · rfl
  · exact absurd heq.symm (hnew y hy')
  · exact absurd heq (hnew x hx')
  · exact h x hx' y hy' heq

theorem UniqueBy.set {β : Type*} {t : Table key} {f : ρ → β} {r stored : ρ} (h : t.UniqueBy f)
    (hstored : stored ∈ t.rows) (hkey : key stored = key r) (hf : f stored = f r) :
    (t.set r).UniqueBy f := by
  have hother : ∀ x ∈ t.rows, key x ≠ key r → f x ≠ f r := by
    intro x hx hne heq
    rw [← hf] at heq
    exact hne (h x hx stored hstored heq ▸ hkey)
  intro x hx y hy heq
  rcases mem_set hx with rfl | ⟨hx', hxne⟩ <;> rcases mem_set hy with rfl | ⟨hy', hyne⟩
  · rfl
  · exact absurd heq.symm (hother y hy' hyne)
  · exact absurd heq (hother x hx' hxne)
  · exact h x hx' y hy' heq

omit [DecidableEq κ] in
/-- The rows with one value of a unique column are one row. -/
theorem UniqueBy.filter_eq {β : Type*} [DecidableEq β] {t : Table key} {f : ρ → β}
    (h : t.UniqueBy f) {r : ρ} (hr : r ∈ t.rows) :
    t.rows.filter (fun s => decide (f s = f r)) = [r] := by
  have hnodup : (t.rows.filter fun s => decide (f s = f r)).Nodup :=
    (List.Nodup.of_map key t.nodup).filter _
  have hmem : ∀ s, s ∈ t.rows.filter (fun s => decide (f s = f r)) ↔ s = r := by
    intro s
    rw [List.mem_filter, decide_eq_true_eq]
    refine ⟨fun hs => h s hs.1 r hr hs.2, ?_⟩
    rintro rfl
    exact ⟨hr, rfl⟩
  cases hrows : t.rows.filter fun s => decide (f s = f r) with
  | nil =>
    rw [hrows] at hmem
    cases (hmem r).mpr rfl
  | cons a rest =>
    rw [hrows] at hmem hnodup
    obtain rfl := (hmem a).mp List.mem_cons_self
    cases rest with
    | nil => rfl
    | cons b rest =>
      have hb : b = a := (hmem b).mp (List.mem_cons_of_mem _ List.mem_cons_self)
      rw [hb] at hnodup
      exact absurd List.mem_cons_self (List.nodup_cons.mp hnodup).1

/-- Every value of the column stays, and no value becomes one of two rows. -/
structure Keeps {β : Type*} (f : ρ → β) (t t' : Table key) : Prop where
  unique : t.UniqueBy f → t'.UniqueBy f
  value : ∀ r ∈ t.rows, ∃ s ∈ t'.rows, f s = f r

section

variable {β : Type*} {f : ρ → β} {t t' t'' : Table key}

omit [DecidableEq κ] in
theorem Keeps.refl (t : Table key) : Keeps f t t := ⟨id, fun r hr => ⟨r, hr, rfl⟩⟩

omit [DecidableEq κ] in
theorem Keeps.trans (h : Keeps f t t') (h' : Keeps f t' t'') : Keeps f t t'' := by
  refine ⟨fun ht => h'.unique (h.unique ht), fun r hr => ?_⟩
  obtain ⟨s, hs, hf⟩ := h.value r hr
  obtain ⟨u, hu, hf'⟩ := h'.value s hs
  exact ⟨u, hu, hf'.trans hf⟩

omit [DecidableEq κ] in
theorem Keeps.mapRows {g : ρ → ρ} (hg : ∀ r, key (g r) = key r) (hf : ∀ r, f (g r) = f r) :
    Keeps f t (t.mapRows g hg) := by
  refine ⟨fun ht x hx y hy heq => ?_, fun r hr => ⟨g r, List.mem_map_of_mem hr, hf r⟩⟩
  obtain ⟨a, ha, rfl⟩ := List.mem_map.mp hx
  obtain ⟨b, hb, rfl⟩ := List.mem_map.mp hy
  rw [hf, hf] at heq
  rw [ht a ha b hb heq]

theorem Keeps.set {r stored : ρ} (hstored : stored ∈ t.rows) (hkey : key stored = key r)
    (hf : f stored = f r) : Keeps f t (t.set r) := by
  refine ⟨fun ht => ht.set hstored hkey hf, fun x hx => ?_⟩
  by_cases hx' : key r = key x
  · obtain rfl := t.eq_of_key hstored hx (hkey.trans hx')
    exact ⟨r, mem_rows_of_find? (find?_set_self (hkey ▸ find?_key_of_mem hx)), hf.symm⟩
  · exact ⟨x, mem_set_of_mem hx hx', rfl⟩

theorem Keeps.insert {r : ρ} (hinsert : t.insert? r = some t') (hnew : ∀ s ∈ t.rows, f s ≠ f r) :
    Keeps f t t' := by
  have hupsert : t.upsert r = t' := by rw [upsert, hinsert, Option.getD_some]
  refine ⟨fun ht => hupsert ▸ ht.upsert hnew, fun x hx => ⟨x, ?_, rfl⟩⟩
  rw [rows_insert? hinsert]
  exact List.mem_append_left _ hx

theorem mem_insert? {r x : ρ} (hinsert : t.insert? r = some t') :
    x ∈ t'.rows ↔ x ∈ t.rows ∨ x = r := by
  rw [rows_insert? hinsert, List.mem_append, List.mem_singleton]

end

/-! ### Constraints -/

/-- A table with a CHECK on every row and a unique column. -/
structure Constrained {β : Type*} (check : ρ → Prop) (f : ρ → β) (t : Table key) : Prop where
  check : ∀ r ∈ t.rows, check r
  unique : t.UniqueBy f

/-- A foreign key: every row of one table refers to a row of the other. -/
def References {σ κ' β : Type*} {key' : σ → κ'} (g : σ → β) (f : ρ → β) (child : Table key')
    (t : Table key) : Prop :=
  ∀ r ∈ child.rows, ∃ s ∈ t.rows, f s = g r

section

variable {β : Type*} {f : ρ → β} {check : ρ → Prop} {t t' : Table key}

omit [DecidableEq κ] in
theorem constrained_empty (check : ρ → Prop) (f : ρ → β) :
    Constrained check f (empty : Table key) :=
  ⟨(fun _ h => by cases h), uniqueBy_empty f⟩

theorem Constrained.insert (h : Constrained check f t) {r : ρ} (hinsert : t.insert? r = some t')
    (hcheck : check r) (hnew : ∀ s ∈ t.rows, f s ≠ f r) : Constrained check f t' := by
  refine ⟨fun x hx => ?_, (Keeps.insert hinsert hnew).unique h.unique⟩
  rcases (mem_insert? hinsert).mp hx with hx | rfl
  · exact h.check x hx
  · exact hcheck

theorem Constrained.set (h : Constrained check f t) {r stored : ρ} (hstored : stored ∈ t.rows)
    (hkey : key stored = key r) (hf : f stored = f r) (hcheck : check r) :
    Constrained check f (t.set r) := by
  refine ⟨fun x hx => ?_, h.unique.set hstored hkey hf⟩
  rcases mem_set hx with rfl | ⟨hx, -⟩
  · exact hcheck
  · exact h.check x hx

omit [DecidableEq κ] in
theorem Constrained.filter (h : Constrained check f t) (p : ρ → Bool) :
    Constrained check f (t.filter p) :=
  ⟨fun x hx => h.check x (List.mem_of_mem_filter hx),
    fun x hx y hy => h.unique x (List.mem_of_mem_filter hx) y (List.mem_of_mem_filter hy)⟩

variable {σ κ' : Type*} {key' : σ → κ'} {g : σ → β} {child child' : Table key'}

omit [DecidableEq κ] in
theorem References.parent (h : References g f child t) (hkeeps : Keeps f t t') :
    References g f child t' := by
  intro r hr
  obtain ⟨s, hs, hsame⟩ := h r hr
  obtain ⟨s', hs', hkept⟩ := hkeeps.value s hs
  exact ⟨s', hs', hkept.trans hsame⟩

omit [DecidableEq κ] in
theorem References.insert [DecidableEq κ'] (h : References g f child t) {r : σ}
    (hinsert : child.insert? r = some child') (hrow : ∃ s ∈ t.rows, f s = g r) :
    References g f child' t := by
  intro x hx
  rcases (mem_insert? hinsert).mp hx with hx | rfl
  · exact h x hx
  · exact hrow

omit [DecidableEq κ] in
theorem References.set [DecidableEq κ'] (h : References g f child t) {r stored : σ}
    (hstored : stored ∈ child.rows) (hg : g stored = g r) : References g f (child.set r) t := by
  intro x hx
  rcases mem_set hx with rfl | ⟨hx, -⟩
  · exact hg ▸ h stored hstored
  · exact h x hx

omit [DecidableEq κ] in
theorem References.filter (h : References g f child t) (p : σ → Bool) :
    References g f (child.filter p) t :=
  fun x hx => h x (List.mem_of_mem_filter hx)

omit [DecidableEq κ] in
theorem References.mapRows (h : References g f child t) {k : σ → σ} (hk : ∀ r, key' (k r) = key' r)
    (hg : ∀ r, g (k r) = g r) : References g f (child.mapRows k hk) t := by
  intro x hx
  obtain ⟨y, hy, rfl⟩ := List.mem_map.mp hx
  obtain ⟨s, hs, hsame⟩ := h y hy
  exact ⟨s, hs, hsame.trans (hg y).symm⟩

end

end Table

end Relational
