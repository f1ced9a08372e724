import Mathlib.Data.List.Basic
import Mathlib.Order.Nat

/-!
# Spans

Half-open ranges of offsets. `Tiles lo spans hi` says that the spans follow each other without a
gap, `Keeps p lo spans hi` that they are non-empty, in order and without overlap, and that no offset
with the property `p` lies outside of them. `Keeps` survives everything that a splitter does: blank
spans are dropped (`Tiles.keeps_filter`), a span is cut into smaller ones (`Keeps.flatMap`), the
outer ends are moved to the ends of the range (`Keeps.stretchFirst`, `Keeps.stretchLast`).
-/

namespace Spans

/-- The offsets from `start` on, below `stop`. -/
structure Span where
  start : Nat
  stop : Nat
  deriving DecidableEq

namespace Span

def length (span : Span) : Nat := span.stop - span.start

instance : Membership Nat Span := ⟨fun span i => span.start ≤ i ∧ i < span.stop⟩

theorem mem_iff {span : Span} {i : Nat} : i ∈ span ↔ span.start ≤ i ∧ i < span.stop := Iff.rfl

instance (span : Span) (i : Nat) : Decidable (i ∈ span) := decidable_of_iff _ mem_iff.symm

/-- The same span, further behind. -/
def shift (offset : Nat) (span : Span) : Span := ⟨offset + span.start, offset + span.stop⟩

/-- One span inside of another. -/
instance : LE Span := ⟨fun a b => b.start ≤ a.start ∧ a.stop ≤ b.stop⟩

theorem le_iff {a b : Span} : a ≤ b ↔ b.start ≤ a.start ∧ a.stop ≤ b.stop := Iff.rfl

theorem mem_of_le {a b : Span} {i : Nat} (h : a ≤ b) (hi : i ∈ a) : i ∈ b := by
  rw [mem_iff] at hi ⊢
  rw [le_iff] at h
  omega

end Span

/-! ### Definitions -/

/-- The spans follow each other without a gap. -/
def Tiles (lo : Nat) : List Span → Nat → Prop
  | [], hi => lo = hi
  | span :: spans, hi => span.start = lo ∧ span.start ≤ span.stop ∧ Tiles span.stop spans hi

/-- Non-empty spans in order, without overlap. -/
def Ordered (lo : Nat) : List Span → Nat → Prop
  | [], hi => lo ≤ hi
  | span :: spans, hi => lo ≤ span.start ∧ span.start < span.stop ∧ Ordered span.stop spans hi

/-- Every offset of the range with the property lies in one of the spans. -/
def Covers (p : Nat → Prop) (lo : Nat) (spans : List Span) (hi : Nat) : Prop :=
  ∀ i, lo ≤ i → i < hi → p i → ∃ span ∈ spans, i ∈ span

/-- The spans are in order, and lose no offset with the property. -/
structure Keeps (p : Nat → Prop) (lo : Nat) (spans : List Span) (hi : Nat) : Prop where
  ordered : Ordered lo spans hi
  covers : Covers p lo spans hi

/-- The first span starts at `start`. -/
def stretchFirst (start : Nat) : List Span → List Span
  | [] => []
  | span :: spans => ⟨start, span.stop⟩ :: spans

/-- The last span ends at `stop`. -/
def stretchLast (stop : Nat) : List Span → List Span
  | [] => []
  | [span] => [⟨span.start, stop⟩]
  | span :: next :: spans => span :: stretchLast stop (next :: spans)

section

variable {p : Nat → Prop} {lo hi : Nat} {spans : List Span}

/-! ### Order -/

theorem Ordered.le (h : Ordered lo spans hi) : lo ≤ hi := by
  induction spans generalizing lo with
  | nil => exact h
  | cons span spans ih =>
    obtain ⟨hstart, hlt, hrest⟩ := h
    have := ih hrest
    omega

theorem Ordered.mono {lo' : Nat} (h : Ordered lo spans hi) (hle : lo' ≤ lo) :
    Ordered lo' spans hi := by
  cases spans with
  | nil => exact hle.trans h
  | cons span spans => exact ⟨hle.trans h.1, h.2⟩

theorem Ordered.append {mid : Nat} {more : List Span} (h : Ordered lo spans mid)
    (hmore : Ordered mid more hi) : Ordered lo (spans ++ more) hi := by
  induction spans generalizing lo with
  | nil => exact hmore.mono h
  | cons span spans ih => exact ⟨h.1, h.2.1, ih h.2.2⟩

theorem Ordered.flatMap {f : Span → List Span} (h : Ordered lo spans hi)
    (hf : ∀ span ∈ spans, Ordered span.start (f span) span.stop) :
    Ordered lo (spans.flatMap f) hi := by
  induction spans generalizing lo with
  | nil => exact h
  | cons span spans ih =>
    obtain ⟨hstart, -, hrest⟩ := h
    rw [List.flatMap_cons]
    have hfirst : Ordered lo (f span) span.stop := (hf span List.mem_cons_self).mono hstart
    exact hfirst.append (ih hrest fun other hother => hf other (List.mem_cons_of_mem _ hother))

theorem Ordered.bounds {span : Span} (h : Ordered lo spans hi) (hspan : span ∈ spans) :
    lo ≤ span.start ∧ span.start < span.stop ∧ span.stop ≤ hi := by
  induction spans generalizing lo with
  | nil => cases hspan
  | cons first spans ih =>
    obtain ⟨hstart, hlt, hrest⟩ := h
    rcases List.mem_cons.mp hspan with rfl | hspan
    · exact ⟨hstart, hlt, hrest.le⟩
    · have := ih hrest hspan
      omega

theorem ordered_of_pairwise (hle : lo ≤ hi) (hpairwise : spans.Pairwise fun a b => a.stop ≤ b.start)
    (hbounds : ∀ span ∈ spans, lo ≤ span.start ∧ span.start < span.stop ∧ span.stop ≤ hi) :
    Ordered lo spans hi := by
  induction spans generalizing lo with
  | nil => exact hle
  | cons span spans ih =>
    obtain ⟨hfirst, hrest⟩ := List.pairwise_cons.mp hpairwise
    obtain ⟨hstart, hlt, hstop⟩ := hbounds span List.mem_cons_self
    refine ⟨hstart, hlt, ih hstop hrest fun other hother => ?_⟩
    exact ⟨hfirst other hother, (hbounds other (List.mem_cons_of_mem _ hother)).2⟩

theorem Ordered.pairwise (h : Ordered lo spans hi) :
    spans.Pairwise fun a b => a.stop ≤ b.start := by
  induction spans generalizing lo with
  | nil => exact List.Pairwise.nil
  | cons span spans ih =>
    obtain ⟨-, -, hrest⟩ := h
    exact List.Pairwise.cons (fun other hother => (hrest.bounds hother).1) (ih hrest)

theorem Ordered.shift (offset : Nat) (h : Ordered lo spans hi) :
    Ordered (offset + lo) (spans.map (Span.shift offset)) (offset + hi) := by
  induction spans generalizing lo with
  | nil => exact Nat.add_le_add_left h offset
  | cons span spans ih =>
    obtain ⟨hstart, hlt, hrest⟩ := h
    exact ⟨Nat.add_le_add_left hstart offset, Nat.add_lt_add_left hlt offset, ih hrest⟩

/-- No offset is in the spans of two entries. -/
theorem eq_of_mem_span {α : Type} {f : α → Span} {entries : List α} {x y : α} {i : Nat}
    (h : (entries.map f).Pairwise fun a b => a.stop ≤ b.start) (hx : x ∈ entries) (hy : y ∈ entries)
    (hix : i ∈ f x)
    (hiy : i ∈ f y) : x = y := by
  have hdisjoint := List.pairwise_map.mp h
  rw [Span.mem_iff] at hix hiy
  obtain ⟨m, hm, rfl⟩ := List.mem_iff_getElem.mp hx
  obtain ⟨n, hn, rfl⟩ := List.mem_iff_getElem.mp hy
  rcases Nat.lt_trichotomy m n with hmn | rfl | hnm
  · have := List.pairwise_iff_getElem.mp hdisjoint m n hm hn hmn
    omega
  · rfl
  · have := List.pairwise_iff_getElem.mp hdisjoint n m hn hm hnm
    omega

/-! ### Tilings -/

theorem Tiles.le (h : Tiles lo spans hi) : lo ≤ hi := by
  induction spans generalizing lo with
  | nil => exact le_of_eq h
  | cons span spans ih =>
    obtain ⟨hstart, hle, hrest⟩ := h
    have := ih hrest
    omega

theorem Tiles.covers (h : Tiles lo spans hi) : Covers p lo spans hi := by
  intro i hlo hhi hp
  induction spans generalizing lo with
  | nil =>
    have heq : lo = hi := h
    omega
  | cons span spans ih =>
    obtain ⟨hstart, -, hrest⟩ := h
    by_cases hi' : i < span.stop
    · exact ⟨span, List.mem_cons_self, by rw [hstart]; exact hlo, hi'⟩
    · obtain ⟨other, hother, hmem⟩ := ih hrest (by omega)
      exact ⟨other, List.mem_cons_of_mem _ hother, hmem⟩

theorem Tiles.bounds {span : Span} (h : Tiles lo spans hi) (hspan : span ∈ spans) :
    lo ≤ span.start ∧ span.start ≤ span.stop ∧ span.stop ≤ hi := by
  induction spans generalizing lo with
  | nil => cases hspan
  | cons first spans ih =>
    obtain ⟨hstart, hle, hrest⟩ := h
    have hrestle := hrest.le
    rcases List.mem_cons.mp hspan with rfl | hspan
    · omega
    · have := ih hrest hspan
      omega

theorem Tiles.pairwise (h : Tiles lo spans hi) : spans.Pairwise fun a b => a.stop ≤ b.start := by
  induction spans generalizing lo with
  | nil => exact List.Pairwise.nil
  | cons span spans ih =>
    obtain ⟨-, -, hrest⟩ := h
    exact List.Pairwise.cons (fun other hother => (hrest.bounds hother).1) (ih hrest)

/-- The non-empty spans of a tiling are in order. -/
theorem Tiles.ordered_filter {q : Span → Bool} (h : Tiles lo spans hi)
    (hq : ∀ span, q span = true → span.start < span.stop) : Ordered lo (spans.filter q) hi := by
  induction spans generalizing lo with
  | nil => exact le_of_eq h
  | cons span spans ih =>
    obtain ⟨hstart, hle, hrest⟩ := h
    rw [List.filter_cons]
    split
    · rename_i hspan
      exact ⟨le_of_eq hstart.symm, hq span hspan, ih hrest⟩
    · exact (ih hrest).mono (by omega)

theorem Tiles.ordered (h : Tiles lo spans hi) (hspans : ∀ span ∈ spans, span.start < span.stop) :
    Ordered lo spans hi := by
  induction spans generalizing lo with
  | nil => exact le_of_eq h
  | cons span spans ih =>
    obtain ⟨hstart, -, hrest⟩ := h
    refine ⟨le_of_eq hstart.symm, hspans span List.mem_cons_self, ?_⟩
    exact ih hrest fun other hother => hspans other (List.mem_cons_of_mem _ hother)

/-! ### What is kept -/

theorem Covers.filter {q : Span → Bool} (h : Covers p lo spans hi)
    (hq : ∀ span i, i ∈ span → p i → q span = true) : Covers p lo (spans.filter q) hi := by
  intro i hlo hhi hp
  obtain ⟨span, hspan, hmem⟩ := h i hlo hhi hp
  exact ⟨span, List.mem_filter.mpr ⟨hspan, hq span i hmem hp⟩, hmem⟩

theorem Covers.flatMap {f : Span → List Span} (h : Covers p lo spans hi)
    (hf : ∀ span ∈ spans, Covers p span.start (f span) span.stop) :
    Covers p lo (spans.flatMap f) hi := by
  intro i hlo hhi hp
  obtain ⟨span, hspan, hmem⟩ := h i hlo hhi hp
  obtain ⟨piece, hpiece, hin⟩ := hf span hspan i hmem.1 hmem.2 hp
  exact ⟨piece, List.mem_flatMap.mpr ⟨span, hspan, hpiece⟩, hin⟩

theorem Covers.mono {wider : List Span} (h : Covers p lo spans hi)
    (hwider : ∀ span ∈ spans, ∃ other ∈ wider, span ≤ other) : Covers p lo wider hi := by
  intro i hlo hhi hp
  obtain ⟨span, hspan, hmem⟩ := h i hlo hhi hp
  obtain ⟨other, hother, hle⟩ := hwider span hspan
  exact ⟨other, hother, Span.mem_of_le hle hmem⟩

theorem Covers.shift {q : Nat → Prop} (offset : Nat) (h : Covers p lo spans hi)
    (hp : ∀ i, lo ≤ i → i < hi → q (offset + i) → p i) :
    Covers q (offset + lo) (spans.map (Span.shift offset)) (offset + hi) := by
  intro i hlo hhi hq
  obtain ⟨j, rfl⟩ := Nat.exists_eq_add_of_le (show offset ≤ i by omega)
  obtain ⟨span, hspan, hmem⟩ := h j (by omega) (by omega) (hp j (by omega) (by omega) hq)
  rw [Span.mem_iff] at hmem
  refine ⟨_, List.mem_map_of_mem hspan, ?_⟩
  simp only [Span.mem_iff, Span.shift]
  omega

/-- Dropping the spans without the property loses nothing. -/
theorem Tiles.keeps_filter {q : Span → Bool} (h : Tiles lo spans hi)
    (hq : ∀ span, q span = true ↔ ∃ i ∈ span, p i) : Keeps p lo (spans.filter q) hi where
  ordered := h.ordered_filter fun span hspan => by
    obtain ⟨i, hi, -⟩ := (hq span).mp hspan
    rw [Span.mem_iff] at hi
    omega
  covers := h.covers.filter fun span i hi hp => (hq span).mpr ⟨i, hi, hp⟩

theorem Tiles.keeps (h : Tiles lo spans hi) (hspans : ∀ span ∈ spans, span.start < span.stop) :
    Keeps p lo spans hi := ⟨h.ordered hspans, h.covers⟩

theorem Keeps.flatMap {f : Span → List Span} (h : Keeps p lo spans hi)
    (hf : ∀ span ∈ spans, Keeps p span.start (f span) span.stop) :
    Keeps p lo (spans.flatMap f) hi :=
  ⟨h.ordered.flatMap fun span hspan => (hf span hspan).ordered,
    h.covers.flatMap fun span hspan => (hf span hspan).covers⟩

theorem Keeps.singleton {span : Span} (h : span.start < span.stop) :
    Keeps p span.start [span] span.stop :=
  Tiles.keeps ⟨rfl, le_of_lt h, rfl⟩ fun other hother => by
    rw [List.mem_singleton.mp hother]; exact h

/-! ### Outer ends -/

theorem Ordered.stretchFirst (h : Ordered lo spans hi) : Ordered lo (stretchFirst lo spans) hi := by
  cases spans with
  | nil => exact h
  | cons span spans => exact ⟨le_refl _, Nat.lt_of_le_of_lt h.1 h.2.1, h.2.2⟩

theorem Ordered.stretchLast (h : Ordered lo spans hi) : Ordered lo (stretchLast hi spans) hi := by
  induction spans generalizing lo with
  | nil => exact h
  | cons span spans ih =>
    obtain ⟨hstart, hlt, hrest⟩ := h
    cases spans with
    | nil => exact ⟨hstart, Nat.lt_of_lt_of_le hlt hrest, le_refl _⟩
    | cons next spans => exact ⟨hstart, hlt, ih hrest⟩

theorem Keeps.stretchFirst (h : Keeps p lo spans hi) : Keeps p lo (stretchFirst lo spans) hi := by
  refine ⟨h.ordered.stretchFirst, h.covers.mono ?_⟩
  intro span hspan
  cases spans with
  | nil => cases hspan
  | cons first spans =>
    rcases List.mem_cons.mp hspan with rfl | hspan
    · exact ⟨_, List.mem_cons_self, h.ordered.1, le_refl _⟩
    · exact ⟨span, List.mem_cons_of_mem _ hspan, le_refl _, le_refl _⟩

theorem exists_le_stretchLast (h : Ordered lo spans hi) {span : Span} (hspan : span ∈ spans) :
    ∃ other ∈ Spans.stretchLast hi spans, span ≤ other := by
  induction spans generalizing lo with
  | nil => cases hspan
  | cons first spans ih =>
    obtain ⟨-, -, hrest⟩ := h
    cases spans with
    | nil =>
      rw [List.mem_singleton.mp hspan]
      exact ⟨_, List.mem_singleton.mpr rfl, le_refl _, hrest⟩
    | cons next spans =>
      rcases List.mem_cons.mp hspan with rfl | hspan
      · exact ⟨span, List.mem_cons_self, le_refl _, le_refl _⟩
      · obtain ⟨other, hother, hle⟩ := ih hrest hspan
        exact ⟨other, List.mem_cons_of_mem _ hother, hle⟩

theorem stretchLast_ne_nil (stop : Nat) {span : Span} :
    Spans.stretchLast stop (span :: spans) ≠ [] := by
  cases spans <;> exact List.cons_ne_nil _ _

/-- Stretching changes the last span only. -/
theorem mem_stretchLast {stop : Nat} {span : Span} (h : span ∈ Spans.stretchLast stop spans) :
    (Spans.stretchLast stop spans).getLast? = some span ∨ span ∈ spans := by
  induction spans with
  | nil => cases h
  | cons first spans ih =>
    cases spans with
    | nil => exact .inl (congrArg some (List.mem_singleton.mp h).symm)
    | cons next spans =>
      rcases List.mem_cons.mp h with rfl | h
      · exact .inr List.mem_cons_self
      · rcases ih h with hlast | hmem
        · refine .inl (Eq.trans ?_ hlast)
          exact List.getLast?_cons_of_ne_nil (stretchLast_ne_nil stop)
        · exact .inr (List.mem_cons_of_mem _ hmem)

/-- Stretching both ends changes the first and the last span only. -/
theorem mem_stretch {start stop : Nat} {span : Span}
    (h : span ∈ Spans.stretchLast stop (Spans.stretchFirst start spans)) :
    (Spans.stretchLast stop (Spans.stretchFirst start spans)).head? = some span ∨
      (Spans.stretchLast stop (Spans.stretchFirst start spans)).getLast? = some span ∨
      span ∈ spans := by
  cases spans with
  | nil => cases h
  | cons first spans =>
    cases spans with
    | nil => exact .inl (congrArg some (List.mem_singleton.mp h).symm)
    | cons next spans =>
      rcases List.mem_cons.mp h with rfl | h
      · exact .inl rfl
      · rcases mem_stretchLast h with hlast | hmem
        · refine .inr (.inl (Eq.trans ?_ hlast))
          exact List.getLast?_cons_of_ne_nil (stretchLast_ne_nil stop)
        · exact .inr (.inr (List.mem_cons_of_mem _ hmem))

theorem Keeps.stretchLast (h : Keeps p lo spans hi) : Keeps p lo (stretchLast hi spans) hi :=
  ⟨h.ordered.stretchLast, h.covers.mono fun _ hspan => exists_le_stretchLast h.ordered hspan⟩

end

end Spans
