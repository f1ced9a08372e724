import Mathlib.Logic.Relation
import ZhiyanRag.Ingestion.StructuralSplit

/-!
# Progress and size of structural chunks

`_group_units` moves its start forward in every round; whether the end moves too depends on the unit
that stopped the group before. `splitStructural_new_iff` says when every chunk has an offset of its
own, `splitStructural_size_iff` when no chunk is longer than `max_chars`.
-/

namespace ZhiyanRag.Ingestion

open Spans

/-! ### Offsets of one's own -/

/-- Every span has an offset that lies in none of the spans before it. -/
def EachNew (seen : List Span) : List Span → Prop
  | [] => True
  | span :: spans => (∃ i ∈ span, ∀ earlier ∈ seen, i ∉ earlier) ∧ EachNew (span :: seen) spans

theorem eachNew_append {seen spans more : List Span} :
    EachNew seen (spans ++ more) ↔ EachNew seen spans ∧ EachNew (spans.reverse ++ seen) more := by
  induction spans generalizing seen with
  | nil => simp [EachNew]
  | cons span spans ih =>
    rw [List.cons_append, EachNew, ih, EachNew, and_assoc, List.reverse_cons, List.append_assoc]
    rfl

/-- Spans that no span of `more` meets make no difference. -/
theorem eachNew_disjoint {seen more spans : List Span}
    (h : ∀ span ∈ spans, ∀ other ∈ more, ∀ i ∈ span, i ∉ other) :
    EachNew (seen ++ more) spans ↔ EachNew seen spans := by
  induction spans generalizing seen with
  | nil => rfl
  | cons span spans ih =>
    have hrest : EachNew (span :: seen ++ more) spans ↔ EachNew (span :: seen) spans :=
      ih fun s hs => h s (List.mem_cons_of_mem _ hs)
    rw [EachNew, EachNew, ← hrest]
    refine and_congr ⟨?_, ?_⟩ Iff.rfl
    · rintro ⟨i, hi, hnew⟩
      exact ⟨i, hi, fun earlier hearlier => hnew earlier (List.mem_append_left _ hearlier)⟩
    · rintro ⟨i, hi, hnew⟩
      refine ⟨i, hi, fun earlier hearlier => ?_⟩
      rcases List.mem_append.mp hearlier with hseen | hmore
      · exact hnew earlier hseen
      · exact h span List.mem_cons_self earlier hmore i hi

/-- Of spans that start one after the other, every one has an offset of its own if the ends increase
too. -/
theorem eachNew_iff_pairwise {seen spans : List Span} (hlt : ∀ span ∈ spans, span.start < span.stop)
    (hseen : ∀ earlier ∈ seen, ∀ span ∈ spans, earlier.start < span.start)
    (hstart : spans.Pairwise fun a b => a.start < b.start) :
    EachNew seen spans ↔ (∀ earlier ∈ seen, ∀ span ∈ spans, earlier.stop < span.stop) ∧
      spans.Pairwise fun a b => a.stop < b.stop := by
  induction spans generalizing seen with
  | nil => simp [EachNew]
  | cons span spans ih =>
    obtain ⟨hfirst, hrest⟩ := List.pairwise_cons.mp hstart
    have hspan := hlt span List.mem_cons_self
    rw [EachNew, ih (fun s hs => hlt s (List.mem_cons_of_mem _ hs)) _ hrest, List.pairwise_cons]
    · constructor
      · rintro ⟨⟨i, hi, hnew⟩, hstops, hpairwise⟩
        refine ⟨fun earlier hearlier s hs => ?_, fun s hs => hstops span List.mem_cons_self s hs,
          hpairwise⟩
        rcases List.mem_cons.mp hs with rfl | hs
        · have hout := hnew earlier hearlier
          have hbefore := hseen earlier hearlier s List.mem_cons_self
          rw [Span.mem_iff] at hi hout
          omega
        · exact hstops earlier (List.mem_cons_of_mem _ hearlier) s hs
      · rintro ⟨hstops, hnext, hpairwise⟩
        refine ⟨⟨span.stop - 1, ?_, fun earlier hearlier => ?_⟩, fun earlier hearlier s hs => ?_,
          hpairwise⟩
        · rw [Span.mem_iff]
          omega
        · have := hstops earlier hearlier span List.mem_cons_self
          rw [Span.mem_iff]
          omega
        · rcases List.mem_cons.mp hearlier with rfl | hearlier
          · exact hnext s hs
          · exact hstops earlier hearlier s (List.mem_cons_of_mem _ hs)
    · intro earlier hearlier s hs
      rcases List.mem_cons.mp hearlier with rfl | hearlier
      · exact hfirst s hs
      · exact hseen earlier hearlier s (List.mem_cons_of_mem _ hs)

/-! ### The ends of the groups -/

section

variable (config : StructuralConfig) (units : List Span)

/-- From `index` on, the loop starts a group at `i` and the next one at `j`. -/
def RoundFrom (index i j : Nat) : Prop :=
  Relation.ReflTransGen (fun a b => nextIndex config units a = some b) index i ∧
    nextIndex config units i = some j

/-- A group from `start` that runs up to the unit `stop` takes that unit in as well. -/
def Extends (start stop : Nat) : Prop :=
  let length (unit : Nat) : Int := ((unitAt units unit).stop : Int) - (unitAt units start).start
  length stop ≤ config.targetChars ∨ length stop ≤ config.maxChars ∧
    (length stop - config.targetChars).natAbs ≤ (length (stop - 1) - config.targetChars).natAbs

/-- The next group starts after the last one, or takes the unit in that the last one left out. -/
def Advances (i j : Nat) : Prop :=
  j = groupStop config units i ∨ Extends config units j (groupStop config units i)

end

section

variable {config : StructuralConfig} {units : List Span} {lo hi : Nat}

/-- Where a condition never becomes true again, the elements taken are those that satisfy it. -/
theorem lt_length_takeWhile_iff {α : Type} {p : α → Bool} {l : List α} {m : Nat} (hm : m < l.length)
    (hp : l.Pairwise fun a b => p b = true → p a = true) :
    m < (l.takeWhile p).length ↔ p l[m] = true := by
  induction l generalizing m with
  | nil => cases hm
  | cons a l ih =>
    obtain ⟨hfirst, hrest⟩ := List.pairwise_cons.mp hp
    rw [List.takeWhile_cons]
    cases m with
    | zero => cases hpa : p a <;> simp [hpa]
    | succ m =>
      have hm' : m < l.length := Nat.lt_of_succ_lt_succ hm
      have hback := hfirst l[m] (List.getElem_mem hm')
      cases hpa : p a with
      | false =>
        rw [hpa] at hback
        simpa using hback
      | true => simpa using ih hm' hrest

/-- A unit is within the target exactly if it stops there. -/
theorem lt_withinTarget_iff (config : StructuralConfig) (hunits : Ordered lo units hi)
    {index k : Nat} (hindex : index < k) (hk : k < units.length) :
    k < index + 1 + withinTarget config units index ↔
      ((unitAt units k).stop : Int) - (unitAt units index).start ≤ config.targetChars := by
  obtain ⟨m, rfl⟩ := Nat.exists_eq_add_of_lt hindex
  have hm : m < (units.drop (index + 1)).length := by
    rw [List.length_drop]
    omega
  have hmono : (units.drop (index + 1)).Pairwise fun a b =>
      decide ((b.stop : Int) - (unitAt units index).start ≤ config.targetChars) = true →
        decide ((a.stop : Int) - (unitAt units index).start ≤ config.targetChars) = true := by
    refine ((hunits.pairwise.drop (i := index + 1)).imp_of_mem) fun {a b} _ hb hab h => ?_
    have hlt := (hunits.bounds (List.mem_of_mem_drop hb)).2.1
    rw [decide_eq_true_eq] at h ⊢
    omega
  have htake := lt_length_takeWhile_iff hm hmono
  have hget : (units.drop (index + 1))[m] = unitAt units (index + m + 1) := by
    rw [List.getElem_drop, unitAt_eq hk]
    congr 1
    omega
  rw [hget, decide_eq_true_eq] at htake
  rw [← htake]
  unfold withinTarget
  omega

/-- A later unit stops later. -/
theorem unitAt_stop_lt (hunits : Ordered lo units hi) {k l : Nat} (hkl : k < l)
    (hl : l < units.length) : (unitAt units k).stop < (unitAt units l).stop := by
  have hle := unitAt_stop_le_start hunits hkl hl
  have := unitAt_bounds hunits hl
  omega

/-- A group takes the units within the target, and at most one more. -/
theorem groupStop_cases (config : StructuralConfig) (units : List Span) (index : Nat) :
    (TakesNext config units index (index + 1 + withinTarget config units index) ∧
      groupStop config units index = index + 1 + withinTarget config units index + 1) ∨
    (¬TakesNext config units index (index + 1 + withinTarget config units index) ∧
      groupStop config units index = index + 1 + withinTarget config units index) := by
  by_cases htakes : TakesNext config units index (index + 1 + withinTarget config units index)
  · exact .inl ⟨htakes, if_pos htakes⟩
  · exact .inr ⟨htakes, if_neg htakes⟩

/-- A group that starts later reaches at least as many units within the target. -/
theorem withinTarget_later (config : StructuralConfig) (hunits : Ordered lo units hi) {i j : Nat}
    (hij : i < j) (hj : j < units.length) :
    i + 1 + withinTarget config units i ≤ j + 1 + withinTarget config units j := by
  by_contra hlt
  have hle := withinTarget_le config (hij.trans hj)
  have hk : j + 1 + withinTarget config units j < units.length := by omega
  have htarget :=
    (lt_withinTarget_iff config hunits (show i < j + 1 + withinTarget config units j by omega)
      hk).mp (by omega)
  have hstart := (unitAt_mono hunits hij.le hj).1
  have := (lt_withinTarget_iff config hunits (show j < j + 1 + withinTarget config units j by omega)
    hk).mpr (by omega)
  omega

/-- A group that starts later, but before the last one stops, stops no earlier; it stops later
exactly if it takes the unit in that the last one left out. -/
theorem groupStop_later (hunits : Ordered lo units hi) {i j : Nat} (hij : i < j)
    (hj : j < groupStop config units i) (hstop : groupStop config units i < units.length) :
    groupStop config units i ≤ groupStop config units j ∧
      (groupStop config units i < groupStop config units j ↔
        Extends config units j (groupStop config units i)) := by
  have hjlt : j < units.length := hj.trans hstop
  have hstart := (unitAt_mono hunits hij.le hjlt).1
  have hwithin := withinTarget_later config hunits hij hjlt
  have hcases := groupStop_cases config units j
  have hle : groupStop config units i ≤ groupStop config units j := by
    rcases groupStop_cases config units i with ⟨⟨hlength, hmax, hnear⟩, hi⟩ | ⟨-, hi⟩
    · by_cases hfar : i + 1 + withinTarget config units i < j + 1 + withinTarget config units j
      · omega
      · -- the later group looks one unit ahead as well, with less to spare
        have heq : i + 1 + withinTarget config units i =
            j + 1 + withinTarget config units j := by omega
        have hover : ¬((unitAt units (j + 1 + withinTarget config units j)).stop : Int) -
            (unitAt units j).start ≤
            config.targetChars := fun h => by
          have := (lt_withinTarget_iff config hunits
            (show j < j + 1 + withinTarget config units j by omega) (by omega)).mpr h
          omega
        have hunder := (lt_withinTarget_iff config hunits
          (show i < i + 1 + withinTarget config units i - 1 by omega) (by omega)).mp (by omega)
        rw [heq] at hmax hnear hunder hlength
        have htakes : TakesNext config units j (j + 1 + withinTarget config units j) :=
          ⟨hlength, by omega, by omega⟩
        have hj' : groupStop config units j = j + 1 + withinTarget config units j + 1 :=
          if_pos htakes
        omega
    · omega
  refine ⟨hle, ?_, ?_⟩
  · intro hlt
    unfold Extends
    dsimp only
    by_cases htarget : groupStop config units i < j + 1 + withinTarget config units j
    · exact .inl ((lt_withinTarget_iff config hunits hj hstop).mp htarget)
    · have hat : j + 1 + withinTarget config units j = groupStop config units i := by omega
      rcases hcases with ⟨hlook, -⟩ | ⟨-, hj'⟩
      · rw [hat] at hlook
        exact .inr hlook.2
      · omega
  · intro hextends
    unfold Extends at hextends
    dsimp only at hextends
    by_cases htarget : groupStop config units i < j + 1 + withinTarget config units j
    · omega
    · have hover : ¬((unitAt units (groupStop config units i)).stop : Int) -
          (unitAt units j).start ≤
          config.targetChars := fun h =>
            htarget ((lt_withinTarget_iff config hunits hj hstop).mpr h)
      rcases hextends with htaken | ⟨hmax, hnear⟩
      · exact absurd htaken hover
      · by_cases hat : j + 1 + withinTarget config units j = groupStop config units i
        · have htakes : TakesNext config units j (j + 1 + withinTarget config units j) := by
            rw [hat]
            exact ⟨hstop, hmax, hnear⟩
          have hj' : groupStop config units j = j + 1 + withinTarget config units j + 1 :=
            if_pos htakes
          omega
        · -- the unit before is over the target already, and nearer to it
          have hprevious : ¬((unitAt units (groupStop config units i - 1)).stop : Int) -
              (unitAt units j).start ≤
              config.targetChars := fun h => by
            have := (lt_withinTarget_iff config hunits
              (show j < groupStop config units i - 1 by omega) (by omega)).mpr h
            omega
          have := unitAt_stop_lt hunits
            (show groupStop config units i - 1 < groupStop config units i by omega) hstop
          omega

/-- From one round to the next the end does not go back; it moves exactly if the round advances. -/
theorem groupSpan_stop_next (hunits : Ordered lo units hi) {i j : Nat}
    (hnext : nextIndex config units i = some j) :
    (groupSpan config units i).stop ≤ (groupSpan config units j).stop ∧
      ((groupSpan config units i).stop < (groupSpan config units j).stop ↔
        Advances config units i j) := by
  obtain ⟨hle, hstop⟩ := nextIndex_le hnext
  have hij := lt_nextIndex config units hnext
  have hpos := lt_groupStop config units j
  have hjle := groupStop_le config (show j < units.length by omega)
  show (unitAt units (groupStop config units i - 1)).stop ≤
    (unitAt units (groupStop config units j - 1)).stop ∧
    ((unitAt units (groupStop config units i - 1)).stop <
      (unitAt units (groupStop config units j - 1)).stop ↔ _)
  rcases Nat.eq_or_lt_of_le hle with heq | hlt
  · have := unitAt_stop_lt hunits (show groupStop config units i - 1 < groupStop config units j -
      1 by omega) (by omega)
    exact ⟨this.le, fun _ => .inl heq, fun _ => this⟩
  · obtain ⟨hlater, hextends⟩ := groupStop_later hunits hij hlt hstop
    refine ⟨(unitAt_mono hunits (by omega) (by omega)).2, ?_, ?_⟩
    · intro hmoves
      refine .inr (hextends.mp ?_)
      by_contra hnot
      have hsame : groupStop config units j = groupStop config units i := by omega
      rw [hsame] at hmoves
      exact absurd hmoves (lt_irrefl _)
    · intro hadvances
      rcases hadvances with heq | htaken
      · omega
      · have := hextends.mpr htaken
        exact unitAt_stop_lt hunits (by omega) (by omega)

theorem RoundFrom.head {index i j n : Nat} (hnext : nextIndex config units index = some n)
    (h : RoundFrom config units index i j) : i = index ∧ j = n ∨ RoundFrom config units n i j := by
  obtain ⟨hreach, hround⟩ := h
  rcases Relation.ReflTransGen.cases_head hreach with rfl | ⟨n', hn', hrest⟩
  · exact .inl ⟨rfl, Option.some.inj (hround.symm.trans hnext)⟩
  · cases hnext.symm.trans hn'
    exact .inr ⟨hrest, hround⟩

section

variable {q : Span → Bool}

/-- If every round advances, or makes a span that is dropped, the spans that are kept stop later
than the first. -/
theorem groupSpan_stop_lt_tail (hunits : Ordered lo units hi) {index : Nat}
    (hrounds : ∀ i j, RoundFrom config units index i j → Advances config units i j ∨
      q (groupSpan config units j) = false)
    {next : Nat} (hnext : nextIndex config units index = some next) {span : Span}
    (hspan : span ∈ groupFrom config units next) (hq : q span = true) :
    (groupSpan config units index).stop < span.stop := by
  induction index using groupFrom.induct config units generalizing next with
  | case1 index hlt ih =>
    obtain ⟨hweak, hstrict⟩ := groupSpan_stop_next hunits hnext
    have hlength := (nextIndex_le hnext)
    rw [groupFrom_of_lt (by omega)] at hspan
    rcases List.mem_cons.mp hspan with rfl | htail
    · rcases hrounds index next ⟨.refl, hnext⟩ with hadvances | hdropped
      · exact hstrict.mpr hadvances
      · rw [hdropped] at hq
        cases hq
    · obtain ⟨later, hlater, hspan⟩ := mem_groupFrom_tail htail
      refine Nat.lt_of_le_of_lt hweak (ih next hnext (fun i j hround => ?_) hlater hspan)
      exact hrounds i j ⟨.head hnext hround.1, hround.2⟩
  | case2 index hge =>
    have := nextIndex_le hnext
    have := lt_groupStop config units index
    omega

/-- The ends of the kept spans increase exactly if every round advances or makes a span that is
dropped. -/
theorem groupFrom_filter_pairwise_iff (config : StructuralConfig) (hunits : Ordered lo units hi)
    (hq : ∀ a b : Span, a ≤ b → q a = true → q b = true) (index : Nat) :
    (((groupFrom config units index).filter q).Pairwise fun a b => a.stop < b.stop) ↔
      ∀ i j, RoundFrom config units index i j → Advances config units i j ∨
      q (groupSpan config units j) = false := by
  induction index using groupFrom.induct config units with
  | case1 index hlt ih =>
    rw [groupFrom_of_lt hlt]
    cases hnext : nextIndex config units index with
    | none =>
      constructor
      · rintro - i j ⟨hreach, hround⟩
        rcases Relation.ReflTransGen.cases_head hreach with rfl | ⟨n, hn, -⟩
        · rw [hnext] at hround
          cases hround
        · rw [hnext] at hn
          cases hn
      · intro _
        exact (List.pairwise_singleton _ _).sublist List.filter_sublist
    | some next =>
      obtain ⟨hweak, hstrict⟩ := groupSpan_stop_next hunits hnext
      have hlength := nextIndex_le hnext
      have hij := lt_nextIndex config units hnext
      have hnextlt : next < units.length := by omega
      rw [Option.map_some, Option.getD_some, List.filter_cons]
      constructor
      · intro hpairwise i j hround
        rcases RoundFrom.head hnext hround with ⟨rfl, rfl⟩ | hlater
        · by_cases hkept : q (groupSpan config units j) = true
          · by_cases hadvances : Advances config units i j
            · exact .inl hadvances
            · -- the next span lies in this one, so both are kept
              have hnot := mt hstrict.mp hadvances
              have hstart : (groupSpan config units i).start ≤ (groupSpan config units j).start :=
                (unitAt_mono hunits hij.le hnextlt).1
              have hfirst :=
                hq _ (groupSpan config units i) (Span.le_iff.mpr ⟨hstart, by omega⟩) hkept
              rw [if_pos hfirst] at hpairwise
              have hmem : groupSpan config units j ∈ (groupFrom config units j).filter q := by
                rw [groupFrom_of_lt hnextlt]
                exact List.mem_filter.mpr ⟨List.mem_cons_self, hkept⟩
              exact absurd ((List.pairwise_cons.mp hpairwise).1 _ hmem) hnot
          · exact .inr (Bool.eq_false_iff.mpr hkept)
        · refine (ih next hnext).mp ?_ i j hlater
          split at hpairwise
          · exact (List.pairwise_cons.mp hpairwise).2
          · exact hpairwise
      · intro hrounds
        have hrest := (ih next hnext).mpr fun i j hround =>
          hrounds i j ⟨.head hnext hround.1, hround.2⟩
        split
        · refine List.pairwise_cons.mpr ⟨fun span hspan => ?_, hrest⟩
          obtain ⟨hspan, hkept⟩ := List.mem_filter.mp hspan
          exact groupSpan_stop_lt_tail hunits hrounds hnext hspan hkept
        · exact hrest
  | case2 index hge =>
    have hnone : ∀ n, nextIndex config units index ≠ some n := fun n hn => by
      have := nextIndex_le hn
      have := lt_groupStop config units index
      omega
    rw [groupFrom_of_le (Nat.not_lt.mp hge)]
    refine ⟨fun _ i j hround => ?_, fun _ => List.Pairwise.nil⟩
    rcases Relation.ReflTransGen.cases_head hround.1 with rfl | ⟨n, hn, -⟩
    · exact absurd hround.2 (hnone j)
    · exact absurd hn (hnone n)

end

end

/-! ### Every chunk has an offset of its own -/

section

variable {unicode : UnicodeTables} {config : StructuralConfig} {text : List Char}

theorem map_spanOf_splitStructural (parentIds : Bool) :
    (splitStructural unicode config text parentIds).map spanOf =
      (sectionSpans unicode text parentIds).flatMap fun part =>
        chunkSpans config text part.toSpan := by
  unfold splitStructural
  rw [List.map_flatMap]
  refine congrArg (fun f => (sectionSpans unicode text parentIds).flatMap f) (funext fun part => ?_)
  rw [List.map_map]
  exact List.map_id _

/-- Chunks of different sections share no offset, so sections can be looked at one by one. -/
theorem eachNew_flatMap {α : Type} {parts : List α} {seen : List Span} (bounds : α → Span)
    {spans : α → List Span} (hspans : ∀ part ∈ parts, ∀ span ∈ spans part, span ≤ bounds part)
    (hparts : (parts.map bounds).Pairwise fun a b => a.stop ≤ b.start)
    (hseen : ∀ earlier ∈ seen, ∀ part ∈ parts, earlier.stop ≤ (bounds part).start) :
    EachNew seen (parts.flatMap spans) ↔ ∀ part ∈ parts, EachNew [] (spans part) := by
  induction parts generalizing seen with
  | nil => simp [EachNew]
  | cons part parts ih =>
    obtain ⟨hfirst, hrest⟩ := List.pairwise_cons.mp (List.map_cons ▸ hparts)
    have hpart := hspans part List.mem_cons_self
    have hown : EachNew seen (spans part) ↔ EachNew [] (spans part) := by
      rw [← List.nil_append seen]
      refine eachNew_disjoint fun span hspan earlier hearlier i hi hin => ?_
      have hbefore := hseen earlier hearlier part List.mem_cons_self
      have hbounds := Span.le_iff.mp (hpart span hspan)
      rw [Span.mem_iff] at hi hin
      omega
    rw [List.flatMap_cons, eachNew_append, hown, List.forall_mem_cons]
    refine and_congr Iff.rfl (ih (fun p hp => hspans p (List.mem_cons_of_mem _ hp)) hrest ?_)
    intro earlier hearlier other hother
    rcases List.mem_append.mp hearlier with hown | hseen'
    · have hbounds := Span.le_iff.mp (hpart earlier (List.mem_reverse.mp hown))
      have := hfirst (bounds other) (List.mem_map_of_mem hother)
      omega
    · exact hseen earlier hseen' other (List.mem_cons_of_mem _ hother)

/-- Every chunk has an offset of its own exactly if every round of every section's units either
advances or makes a blank span, which is dropped. For units in order, the ends of the groups
increase exactly if every round advances. -/
theorem splitStructural_new_iff (unicode : UnicodeTables) (config : StructuralConfig)
    (text : List Char) (parentIds : Bool) :
    (EachNew [] ((splitStructural unicode config text parentIds).map spanOf) ↔
      ∀ part ∈ sectionSpans unicode text parentIds, ∀ i j,
        RoundFrom config (atomicSpans text part.toSpan config.maxChars) 0 i j →
          Advances config (atomicSpans text part.toSpan config.maxChars) i j ∨
            isBlank (slice text
              (groupSpan config (atomicSpans text part.toSpan config.maxChars) j).start
                (groupSpan config (atomicSpans text part.toSpan config.maxChars) j).stop) = true) ∧
      ∀ lo units hi, Ordered lo units hi →
        (((groupUnits config units).Pairwise fun a b => a.stop < b.stop) ↔
          ∀ i j, RoundFrom config units 0 i j → Advances config units i j) := by
  obtain ⟨htiles, -⟩ := sectionSpans_tiles unicode text parentIds
  have hpart : ∀ part ∈ sectionSpans unicode text parentIds, part.start ≤ part.stop ∧
      part.stop ≤ text.length :=
    fun part hpart => (htiles.bounds (List.mem_map_of_mem hpart)).2
  refine ⟨?_, fun lo units hi hunits => ?_⟩
  · rw [map_spanOf_splitStructural, eachNew_flatMap (·.toSpan) ?_ htiles.pairwise
      (fun _ h => by cases h)]
    · refine forall₂_congr fun part hmem => ?_
      obtain ⟨hle, hstop⟩ := hpart part hmem
      have hordered := (atomicSpans_keeps config.positive hle hstop).ordered
      have hvisible : ∀ a b : Span, a ≤ b → (!isBlank (slice text a.start a.stop)) = true →
          (!isBlank (slice text b.start b.stop)) = true := fun a b hab ha => by
        obtain ⟨i, hi, hc⟩ := not_isBlank_slice.mp ha
        exact not_isBlank_slice.mpr ⟨i, Span.mem_of_le hab hi, hc⟩
      rw [eachNew_iff_pairwise (fun span hspan => (chunkSpans_bounds hle hstop hspan).2.1)
        (fun _ h => by cases h) (chunkSpans_pairwise hle hstop)]
      have hgroups := groupFrom_filter_pairwise_iff config hordered hvisible 0
      simp only [Bool.not_eq_false'] at hgroups
      rw [← hgroups]
      exact and_iff_right fun _ h => by cases h
    · intro part hmem span hspan
      obtain ⟨hle, hstop⟩ := hpart part hmem
      obtain ⟨hstart, -, hend⟩ := chunkSpans_bounds hle hstop hspan
      exact Span.le_iff.mpr ⟨hstart, hend⟩
  · have hall : ∀ a b : Span, a ≤ b → (fun _ : Span => true) a = true →
        (fun _ : Span => true) b = true :=
      fun _ _ _ h => h
    have hgroups := groupFrom_filter_pairwise_iff config hunits hall 0
    rw [List.filter_eq_self.mpr fun _ _ => rfl] at hgroups
    simp only [Bool.true_eq_false, or_false] at hgroups
    exact hgroups

/-- A short paragraph and two long ones. -/
def overlappingParagraphs : List Char :=
  List.replicate 98 'a' ++ ['\n', '\n'] ++ List.replicate 998 'b' ++ ['\n', '\n'] ++
    List.replicate 1000 'c'

/-- The first chunk holds two paragraphs, and the overlap of the second one goes back to the start
of the second paragraph; the third one does not fit, so the second chunk is a part of the first. -/
theorem splitStructural_redundant :
    ¬EachNew [] ((splitStructural asciiTables structuralConfig overlappingParagraphs false).map
      spanOf) := by
  have hsections : sectionSpans asciiTables overlappingParagraphs false =
      [⟨⟨0, 2100⟩, "section-unknown-000", "UNKNOWN"⟩] := by decide +kernel
  have hunits : atomicSpans overlappingParagraphs ⟨0, 2100⟩ structuralConfig.maxChars =
      [⟨0, 100⟩, ⟨100, 1100⟩, ⟨1100, 2100⟩] := by decide +kernel
  have hgroups : groupUnits structuralConfig [⟨0, 100⟩, ⟨100, 1100⟩, ⟨1100, 2100⟩] =
      [⟨0, 1100⟩, ⟨100, 1100⟩, ⟨1100, 2100⟩] := by
    unfold groupUnits
    rw [groupFrom_of_lt (by decide),
      show nextIndex structuralConfig [⟨0, 100⟩, ⟨100, 1100⟩, ⟨1100, 2100⟩] 0 = some 1 by
      decide, Option.map_some, Option.getD_some, groupFrom_of_lt (by decide),
      show nextIndex structuralConfig [⟨0, 100⟩, ⟨100, 1100⟩, ⟨1100, 2100⟩] 1 = some 2 by decide,
        Option.map_some,
      Option.getD_some, groupFrom_of_lt (by decide),
      show nextIndex structuralConfig [⟨0, 100⟩, ⟨100, 1100⟩, ⟨1100, 2100⟩] 2 = none by decide]
    decide
  have hchunks : chunkSpans structuralConfig overlappingParagraphs ⟨0, 2100⟩ =
      [⟨0, 1100⟩, ⟨100, 1100⟩, ⟨1100, 2100⟩] := by
    unfold chunkSpans
    rw [hunits, hgroups]
    decide +kernel
  rw [map_spanOf_splitStructural, hsections, List.flatMap_singleton, hchunks]
  rintro ⟨-, ⟨i, hi, hnew⟩, -⟩
  have hfirst := hnew ⟨0, 1100⟩ (List.mem_singleton_self _)
  rw [Span.mem_iff] at hi hfirst
  dsimp only at hi hfirst
  omega

end

/-! ### No chunk is too long -/

section

variable {text : List Char} {lo hi maxChars : Nat} {units : List Span}

theorem hardCuts_length {fuel cursor stop : Nat} {piece : Span}
    (h : piece ∈ hardCuts maxChars fuel cursor stop) : piece.length ≤ maxChars := by
  induction fuel generalizing cursor with
  | zero => cases h
  | succ fuel ih =>
    unfold hardCuts at h
    split at h
    · rcases List.mem_cons.mp h with rfl | h
      · unfold Span.length
        dsimp only
        omega
      · exact ih h
    · cases h

/-- The units of a paragraph have at most `max_chars` characters. -/
theorem paragraphUnits_length {paragraph unit : Span}
    (h : unit ∈ paragraphUnits text maxChars paragraph) : unit.length ≤ maxChars := by
  unfold paragraphUnits at h
  split at h
  · rwa [List.mem_singleton.mp h]
  · obtain ⟨sentence, -, h⟩ := List.mem_flatMap.mp h
    split at h
    · rwa [List.mem_singleton.mp h]
    · exact hardCuts_length h

/-- The first and the last unit of a section, which are stretched over the blank text around them.
-/
def outerUnits (text : List Char) (part : Span) (maxChars : Nat) : List Span :=
  (atomicSpans text part maxChars).head?.toList ++ (atomicSpans text part maxChars).getLast?.toList

/-- Only the outer units can be longer than `max_chars`. -/
theorem atomicSpans_length {part unit : Span} (h : unit ∈ atomicSpans text part maxChars) :
    unit ∈ outerUnits text part maxChars ∨ unit.length ≤ maxChars := by
  have houter : (atomicSpans text part maxChars).head? = some unit ∨
      (atomicSpans text part maxChars).getLast? = some unit →
      unit ∈ outerUnits text part maxChars := by
    intro houter
    refine List.mem_append.mpr (houter.imp (fun hhead => ?_) fun hlast => ?_)
    · rw [hhead]
      exact List.mem_singleton_self _
    · rw [hlast]
      exact List.mem_singleton_self _
  rcases mem_stretch h with hhead | hlast | hmem
  · exact .inl (houter (.inl hhead))
  · exact .inl (houter (.inr hlast))
  · obtain ⟨paragraph, -, hunit⟩ := List.mem_flatMap.mp hmem
    exact .inr (paragraphUnits_length hunit)

/-- A group of more than one unit has at most `max_chars` characters. -/
theorem groupSpan_length {config : StructuralConfig}
    (htarget : config.targetChars ≤ config.maxChars) (hunits : Ordered lo units hi) {index : Nat}
    (hindex : index < units.length) : groupSpan config units index = unitAt units index ∨
    (groupSpan config units index).length ≤ config.maxChars := by
  have hle := groupStop_le config hindex
  have hlt := lt_groupStop config units index
  have hlength : (groupSpan config units index).length =
      (unitAt units (groupStop config units index - 1)).stop - (unitAt units index).start := rfl
  by_cases hone : groupStop config units index = index + 1
  · refine .inl ?_
    unfold groupSpan
    rw [hone, Nat.add_sub_cancel]
  · refine .inr ?_
    rw [hlength]
    by_cases hwithin : groupStop config units index - 1 <
      index + 1 + withinTarget config units index
    · have := (lt_withinTarget_iff config hunits (by omega) (by omega)).mp hwithin
      omega
    · -- the last unit was taken in by looking ahead
      rcases groupStop_cases config units index with ⟨⟨-, hmax, -⟩, hindex⟩ | ⟨-, hindex⟩
      · rw [hindex, Nat.add_sub_cancel]
        omega
      · omega

/-- No chunk has more than `max_chars` characters exactly if no first or last unit of a section,
with the blank text it is stretched over, has more, blank ones apart. -/
theorem splitStructural_size_iff (unicode : UnicodeTables) (text : List Char) (parentIds : Bool) :
    (∀ chunk ∈ splitStructural unicode structuralConfig text parentIds,
      chunk.text.length ≤ structuralConfig.maxChars) ↔
    ∀ part ∈ sectionSpans unicode text parentIds,
      ∀ unit ∈ outerUnits text part.toSpan structuralConfig.maxChars,
      isBlank (slice text unit.start unit.stop) = true ∨
        unit.length ≤ structuralConfig.maxChars := by
  obtain ⟨htiles, -⟩ := sectionSpans_tiles unicode text parentIds
  have hpart : ∀ part ∈ sectionSpans unicode text parentIds, part.start ≤ part.stop ∧
      part.stop ≤ text.length :=
    fun part hpart => (htiles.bounds (List.mem_map_of_mem hpart)).2
  have hordered : ∀ part ∈ sectionSpans unicode text parentIds,
      Ordered part.start (atomicSpans text part.toSpan structuralConfig.maxChars) part.stop :=
    fun part hmem =>
      (atomicSpans_keeps structuralConfig.positive (hpart part hmem).1 (hpart part hmem).2).ordered
  have hlength : ∀ part ∈ sectionSpans unicode text parentIds, ∀ span :
      Span, span.stop ≤ part.stop →
      (structuralChunk text parentIds part span).text.length = span.length := by
    intro part hmem span hstop
    have := (hpart part hmem).2
    show (String.ofList (slice text span.start span.stop)).length = span.length
    rw [String.length_ofList, length_slice, min_eq_left (hstop.trans this)]
    rfl
  constructor
  · intro h part hmem unit hunit
    have hatomic : unit ∈ atomicSpans text part.toSpan structuralConfig.maxChars := by
      rcases List.mem_append.mp hunit with hhead | hlast
      · exact List.mem_of_head? (Option.mem_toList.mp hhead)
      · exact List.mem_of_getLast? (Option.mem_toList.mp hlast)
    by_cases hblank : isBlank (slice text unit.start unit.stop) = true
    · exact .inl hblank
    · refine .inr ?_
      obtain ⟨k, hk, rfl⟩ := List.mem_iff_getElem.mp hatomic
      obtain ⟨span, hspan, hle⟩ :=
        exists_groupFrom structuralConfig (hordered part hmem) (Nat.zero_le k) hk
      rw [unitAt_eq hk] at hle
      obtain ⟨i, hi, hvisible⟩ :=
        not_isBlank_slice.mp (Bool.not_eq_true' _ ▸ Bool.eq_false_iff.mpr hblank)
      have hkept : span ∈ chunkSpans structuralConfig text part.toSpan :=
        List.mem_filter.mpr ⟨hspan, not_isBlank_slice.mpr ⟨i, Span.mem_of_le hle hi, hvisible⟩⟩
      have hchunk := h _ (List.mem_flatMap.mpr ⟨part, hmem, List.mem_map_of_mem hkept⟩)
      rw [hlength part hmem span
        (chunkSpans_bounds (hpart part hmem).1 (hpart part hmem).2 hkept).2.2] at hchunk
      rw [Span.le_iff] at hle
      unfold Span.length at hchunk ⊢
      omega
  · intro h chunk hchunk
    obtain ⟨part, hmem, span, hspan, rfl⟩ := mem_splitStructural hchunk
    rw [hlength part hmem span
      (chunkSpans_bounds (hpart part hmem).1 (hpart part hmem).2 hspan).2.2]
    obtain ⟨hgroup, hvisible⟩ := List.mem_filter.mp hspan
    obtain ⟨i, -, hi, rfl⟩ := groupFrom_mem hgroup
    rcases groupSpan_length (show structuralConfig.targetChars ≤
      structuralConfig.maxChars by decide) (hordered part hmem) hi with hone | hshort
    · rw [hone] at hvisible ⊢
      rw [unitAt_eq hi] at hvisible ⊢
      rcases atomicSpans_length (List.getElem_mem hi) with houter | hshort
      · rcases h part hmem _ houter with hblank | hshort
        · rw [hblank] at hvisible
          cases hvisible
        · exact hshort
      · exact hshort
    · exact hshort

/-- A letter after two long blank paragraphs. -/
def stretchedText : List Char :=
  List.replicate 639 ' ' ++ ['\n', '\n'] ++ List.replicate 639 ' ' ++ ['\n', '\n'] ++ ['a']

/-- The one unit is stretched over the blank text before it. -/
theorem splitStructural_too_long :
    ¬∀ chunk ∈ splitStructural asciiTables structuralConfig stretchedText false,
      chunk.text.length ≤ structuralConfig.maxChars := by
  have hsections : sectionSpans asciiTables stretchedText false =
      [⟨⟨0, 1283⟩, "section-unknown-000", "UNKNOWN"⟩] := by decide +kernel
  have hunits : atomicSpans stretchedText ⟨0, 1283⟩ structuralConfig.maxChars = [⟨0, 1283⟩] := by
    decide +kernel
  have hgroups : groupUnits structuralConfig [⟨0, 1283⟩] = [⟨0, 1283⟩] := by
    unfold groupUnits
    rw [groupFrom_of_lt (by decide), show nextIndex structuralConfig [⟨0, 1283⟩] 0 = none by decide]
    decide
  have hchunks : chunkSpans structuralConfig stretchedText ⟨0, 1283⟩ = [⟨0, 1283⟩] := by
    unfold chunkSpans
    rw [hunits, hgroups]
    decide +kernel
  intro h
  have hchunk :=
    h (structuralChunk stretchedText false ⟨⟨0, 1283⟩, "section-unknown-000", "UNKNOWN"⟩
      ⟨0, 1283⟩) (by
    unfold splitStructural
    rw [hsections, List.flatMap_singleton, hchunks]
    exact List.mem_singleton_self _)
  rw [structuralChunk, String.length_ofList, length_slice] at hchunk
  exact absurd hchunk (by decide +kernel)

end

end ZhiyanRag.Ingestion
