import ZhiyanRag.Ingestion.Splitter

/-!
# Structural splitting loses nothing

Each stage of `_split_structural` keeps every character that is not white space: sections tile the
text, paragraphs, sentences and pieces are what is left of tilings once blank spans are dropped, and
the groups run over every unit. The main theorem is `splitStructural_lossless`.
-/

namespace ZhiyanRag.Ingestion

open Regex Spans Pattern

/-! ### Headings -/

/-- Not white space. -/
abbrev Visible (c : Char) : Prop := isPySpace c = false

theorem visible_of_range {first last c : Char} (h : first ≤ c ∧ c ≤ last) (hfirst : '!' ≤ first)
    (hlast : last ≤ 'z') : Visible c := by
  have hlow : 33 ≤ c.toNat := (show '!'.toNat ≤ _ from hfirst.trans h.1)
  have hhigh : c.toNat ≤ 122 := (show _ ≤ 'z'.toNat from h.2.trans hlast)
  simp only [Visible, isPySpace, isWhiteSpace, Bool.or_eq_false_iff, Bool.and_eq_false_iff,
    decide_eq_false_iff_not, beq_eq_false_iff_ne]
  omega

theorem startsWith_range {first last : Char} (hfirst : '!' ≤ first) (hlast : last ≤ 'z') :
    StartsWith Visible (range first last) := by
  refine startsWith_char fun c hc => ?_
  obtain ⟨h₁, h₂⟩ := Bool.and_eq_true_iff.mp hc
  exact visible_of_range ⟨of_decide_eq_true h₁, of_decide_eq_true h₂⟩ hfirst hlast

section

variable {unicode : UnicodeTables} {text : List Char}

theorem startsWith_ordinal : StartsWith Visible (ordinal unicode) :=
  (startsWith_range (by decide) (by decide)).seq

theorem startsWith_heading : StartsWith Visible (heading unicode) := by
  refine StartsWith.alt ?_ (StartsWith.alt ?_ ?_)
  · exact (StartsWith.alt startsWith_ordinal.seq (startsWith_range (by decide) (by decide)).seq).seq
  · exact startsWith_literal (by decide)
  · exact (startsWith_literal (by decide)).seq

/-- A heading is found with its text as the only group, and starts with a visible character. -/
theorem headingPattern_ends {c d : Cursor Char} (hgroups : c.groups = [])
    (h : d ∈ (headingPattern unicode).ends c) :
    ∃ a rest n, c.rest = a :: rest ∧ Visible a ∧ d.groups = [(a :: rest).take (n + 1)] := by
  obtain ⟨e, he, h⟩ := List.mem_flatMap.mp h
  obtain ⟨f, hf, h⟩ := List.mem_flatMap.mp h
  have hd : d.groups = f.groups := ends_groups (by rfl) h
  have hc : e = c := by
    unfold lineStart ends at he
    split at he
    · exact List.mem_singleton.mp he
    · cases he
  subst hc
  obtain ⟨⟨g, hg, hrest⟩, hf⟩ := ends_group (by rfl) hf
  obtain ⟨a, rest, he, ha, hlength⟩ := startsWith_heading e g hg
  rw [hrest] at hlength
  refine ⟨a, rest, rest.length - f.rest.length, he, ha, ?_⟩
  rw [hd, hf, hgroups, he, List.nil_append, List.length_cons, Nat.succ_sub hlength]

/-- A heading that is found starts where its match does. -/
theorem trimSpan_heading {m : Found Char}
    (h : m ∈ (headingPattern unicode).findAll text 0 text.length) :
    (trimSpan text m.start (m.start + (m.groups.headD []).length)).start = m.start := by
  obtain ⟨before, hmatch⟩ := findAll_match h
  obtain ⟨d, hd, hm⟩ := Option.map_eq_some_iff.mp hmatch
  obtain ⟨a, rest, n, hrest, ha, hgroups⟩ := headingPattern_ends rfl (List.mem_of_head? hd)
  have hget : text[m.start]? = some a := by
    have := congrArg (·.head?) hrest
    rwa [List.head?_drop, List.head?_cons] at this
  refine trimSpan_start ?_ hget ha
  have hlength : m.groups = d.groups := congrArg (·.groups) hm.symm
  rw [hlength, hgroups]
  simp

theorem headingSpans_pairwise :
    (headingSpans unicode text).Pairwise fun a b => a.start < b.start := by
  have hchain := findAll_chain (r := headingPattern unicode) (Nat.zero_le text.length)
    (le_refl text.length)
  unfold headingSpans
  rw [List.pairwise_map]
  refine hchain.pairwise.imp_of_mem fun ha hb hlt => ?_
  rw [trimSpan_heading ha, trimSpan_heading hb]
  exact hlt

theorem headingSpans_start_lt {span : Span} (h : span ∈ headingSpans unicode text) :
    span.start < text.length := by
  have hchain := findAll_chain (r := headingPattern unicode) (Nat.zero_le text.length)
    (le_refl text.length)
  obtain ⟨m, hm, rfl⟩ := List.mem_map.mp h
  obtain ⟨-, hlength, hstop⟩ := hchain.bounds hm
  rw [trimSpan_heading hm]
  unfold Found.stop at hstop
  omega

/-! ### Sections -/

/-- Headed sections tile the text from the first heading on, and none is empty. -/
theorem headedSections_tiles (kind : String) (index : Nat) {first : Span} {headings : List Span}
    (hpairwise : (first :: headings).Pairwise fun a b => a.start < b.start)
    (hlt : ∀ span ∈ first :: headings, span.start < text.length) :
    Tiles first.start ((headedSections text kind index (first :: headings)).map (·.toSpan))
      text.length ∧ ∀ part ∈ headedSections text kind index (first :: headings),
        part.start < part.stop := by
  induction headings generalizing first index with
  | nil =>
    have := hlt first List.mem_cons_self
    refine ⟨⟨rfl, le_of_lt this, rfl⟩, fun part hpart => ?_⟩
    rw [List.mem_singleton.mp hpart]
    exact this
  | cons next headings ih =>
    obtain ⟨hfirst, hrest⟩ := List.pairwise_cons.mp hpairwise
    have hnext : first.start < next.start := hfirst next List.mem_cons_self
    obtain ⟨htiles, hparts⟩ := ih (index + 1) hrest fun span hspan =>
      hlt span (List.mem_cons_of_mem _ hspan)
    refine ⟨⟨rfl, le_of_lt hnext, htiles⟩, fun part hpart => ?_⟩
    rcases List.mem_cons.mp hpart with rfl | hpart
    · exact hnext
    · exact hparts part hpart

theorem cuttingHeadings_sublist (unicode : UnicodeTables) (text : List Char) (majorOnly : Bool) :
    (cuttingHeadings unicode text majorOnly).Sublist (headingSpans unicode text) := by
  unfold cuttingHeadings
  split
  · exact List.filter_sublist
  · exact List.Sublist.refl _

/-- The sections tile the text, and none is empty unless the text is. -/
theorem sectionSpans_tiles (unicode : UnicodeTables) (text : List Char) (majorOnly : Bool) :
    Tiles 0 ((sectionSpans unicode text majorOnly).map (·.toSpan)) text.length ∧
      (text ≠ [] → ∀ part ∈ sectionSpans unicode text majorOnly, part.start < part.stop) := by
  unfold sectionSpans
  dsimp only
  split
  · refine ⟨⟨rfl, Nat.zero_le _, rfl⟩, fun hne part hpart => ?_⟩
    rw [List.mem_singleton.mp hpart]
    exact List.length_pos_iff.mpr hne
  · rename_i first headings hheadings
    have hsublist := cuttingHeadings_sublist unicode text majorOnly
    rw [hheadings] at hsublist
    have hheaded := fun kind => headedSections_tiles kind 1
      (headingSpans_pairwise.sublist hsublist) fun span hspan =>
        headingSpans_start_lt (hsublist.subset hspan)
    split
    · rename_i hpos
      refine ⟨⟨rfl, le_of_lt hpos, (hheaded _).1⟩, fun _ part hpart => ?_⟩
      rcases List.mem_cons.mp hpart with rfl | hpart
      · exact hpos
      · exact (hheaded _).2 part hpart
    · rename_i hzero
      have hstart : first.start = 0 := Nat.eq_zero_of_not_pos hzero
      rw [List.nil_append, ← hstart]
      exact ⟨(hheaded _).1, fun _ => (hheaded _).2⟩

/-! ### Units -/

/-- The character at an offset is not white space. -/
def VisibleAt (text : List Char) (i : Nat) : Prop := ∃ c, text[i]? = some c ∧ Visible c

theorem not_isBlank_slice {span : Span} :
    (!isBlank (slice text span.start span.stop)) = true ↔ ∃ i ∈ span, VisibleAt text i := by
  rw [Bool.not_eq_true', isBlank_slice_eq_false]
  constructor
  · rintro ⟨i, c, hstart, hstop, hi, hc⟩
    exact ⟨i, ⟨hstart, hstop⟩, c, hi, hc⟩
  · rintro ⟨i, ⟨hstart, hstop⟩, c, hi, hc⟩
    exact ⟨i, c, hstart, hstop, hi, hc⟩

theorem candidates_tiles {cursor stop : Nat} {founds : List (Found Char)}
    (h : Chain cursor founds stop) : Tiles cursor (candidates cursor founds stop) stop := by
  induction founds generalizing cursor with
  | nil => exact ⟨rfl, h, rfl⟩
  | cons found founds ih =>
    obtain ⟨hstart, -, hrest⟩ := h
    refine ⟨rfl, ?_, ih hrest⟩
    simp only [Found.stop]
    omega

/-- Cutting a span after the matches of a pattern loses nothing visible. -/
theorem brokenSpans_keeps {r : Pattern Char} {span : Span} (hle : span.start ≤ span.stop)
    (hstop : span.stop ≤ text.length) :
    Keeps (VisibleAt text) span.start (brokenSpans r text span.start span.stop) span.stop :=
  (candidates_tiles (findAll_chain hle hstop)).keeps_filter fun _ => not_isBlank_slice

theorem hardCuts_tiles {maxChars fuel cursor stop : Nat} (hmax : 0 < maxChars) (hle : cursor ≤ stop)
    (hfuel : stop - cursor ≤ fuel) :
    Tiles cursor (hardCuts maxChars fuel cursor stop) stop ∧
      ∀ span ∈ hardCuts maxChars fuel cursor stop, span.start < span.stop := by
  induction fuel generalizing cursor with
  | zero =>
    unfold hardCuts
    exact ⟨show cursor = stop by omega, fun _ hspan => by cases hspan⟩
  | succ fuel ih =>
    unfold hardCuts
    split
    · rename_i hlt
      have hnext := @ih (min (cursor + maxChars) stop) (by omega) (by omega)
      obtain ⟨htiles, hspans⟩ := hnext
      refine ⟨⟨rfl, by dsimp only; omega, htiles⟩, fun span hspan => ?_⟩
      rcases List.mem_cons.mp hspan with rfl | hspan
      · dsimp only
        omega
      · exact hspans span hspan
    · exact ⟨show cursor = stop by omega, fun _ hspan => by cases hspan⟩

/-- Sentences of a long paragraph, pieces of a long sentence: nothing visible is lost. -/
theorem paragraphUnits_keeps {maxChars : Nat} {paragraph : Span} (hmax : 0 < maxChars)
    (hlt : paragraph.start < paragraph.stop) (hstop : paragraph.stop ≤ text.length) :
    Keeps (VisibleAt text) paragraph.start (paragraphUnits text maxChars paragraph)
      paragraph.stop := by
  unfold paragraphUnits
  split
  · exact Keeps.singleton hlt
  · have hsentences :
        Keeps (VisibleAt text) paragraph.start (sentenceSpans text paragraph.start paragraph.stop)
        paragraph.stop := brokenSpans_keeps (le_of_lt hlt) hstop
    refine hsentences.flatMap fun sentence hsentence => ?_
    obtain ⟨-, hsentence, -⟩ := hsentences.ordered.bounds hsentence
    split
    · exact Keeps.singleton hsentence
    · obtain ⟨htiles, hspans⟩ :=
        hardCuts_tiles hmax (le_of_lt hsentence) (le_refl (sentence.stop - sentence.start))
      exact htiles.keeps hspans

/-- The units of a section keep every visible character of it. -/
theorem atomicSpans_keeps {maxChars : Nat} {part : Span} (hmax : 0 < maxChars)
    (hle : part.start ≤ part.stop) (hstop : part.stop ≤ text.length) :
    Keeps (VisibleAt text) part.start (atomicSpans text part maxChars) part.stop := by
  have hparagraphs : Keeps (VisibleAt text) part.start (paragraphSpans text part.start part.stop)
      part.stop :=
    brokenSpans_keeps hle hstop
  refine (Keeps.flatMap hparagraphs fun paragraph hparagraph => ?_).stretchFirst.stretchLast
  obtain ⟨-, hlt, hparagraph⟩ := hparagraphs.ordered.bounds hparagraph
  exact paragraphUnits_keeps hmax hlt (hparagraph.trans hstop)

/-! ### Groups -/

section

variable {config : StructuralConfig} {units : List Span} {lo hi : Nat}

theorem withinTarget_le (config : StructuralConfig) {index : Nat} (h : index < units.length) :
    index + 1 + withinTarget config units index ≤ units.length := by
  have hle : withinTarget config units index ≤ (units.drop (index + 1)).length :=
    (List.takeWhile_sublist _).length_le
  rw [List.length_drop] at hle
  omega

theorem groupStop_le (config : StructuralConfig) {index : Nat} (h : index < units.length) :
    groupStop config units index ≤ units.length := by
  have hwithin := withinTarget_le config h
  unfold groupStop
  dsimp only
  split
  · rename_i htakes
    exact htakes.1
  · exact hwithin

theorem overlapStart_le (config : StructuralConfig) (units : List Span)
    (index chunkStop unit : Nat) : overlapStart config units index chunkStop unit ≤ unit := by
  induction unit with
  | zero => exact le_refl 0
  | succ unit ih =>
    unfold overlapStart
    split
    · omega
    · exact le_refl _

/-- The next group starts at or before the first unit that was left out. -/
theorem nextIndex_le {index next : Nat} (h : nextIndex config units index = some next) :
    next ≤ groupStop config units index ∧ groupStop config units index < units.length := by
  have hlt := lt_groupStop config units index
  have hback := overlapStart_le config units index (groupSpan config units index).stop
    (groupStop config units index - 1)
  unfold nextIndex at h
  dsimp only at h
  split at h
  · cases h
  · split at h
    · have := Option.some.inj h
      omega
    · have := Option.some.inj h
      omega

theorem nextIndex_eq_none {index : Nat} (h : nextIndex config units index = none) :
    units.length ≤ groupStop config units index := by
  unfold nextIndex at h
  dsimp only at h
  split at h
  · assumption
  · split at h
    · cases h
    · cases h

theorem unitAt_eq {index : Nat} (h : index < units.length) : unitAt units index = units[index] := by
  unfold unitAt
  rw [List.getD_eq_getElem?_getD, List.getElem?_eq_getElem h, Option.getD_some]

theorem unitAt_bounds (hunits : Ordered lo units hi) {index : Nat} (h : index < units.length) :
    lo ≤ (unitAt units index).start ∧ (unitAt units index).start < (unitAt units index).stop ∧
      (unitAt units index).stop ≤ hi := by
  rw [unitAt_eq h]
  exact hunits.bounds (List.getElem_mem h)

theorem unitAt_stop_le_start (hunits : Ordered lo units hi) {i j : Nat} (hij : i < j)
    (hj : j < units.length) : (unitAt units i).stop ≤ (unitAt units j).start := by
  rw [unitAt_eq hj, unitAt_eq (hij.trans hj)]
  exact List.pairwise_iff_getElem.mp hunits.pairwise i j (hij.trans hj) hj hij

/-- Later units start and stop later. -/
theorem unitAt_mono (hunits : Ordered lo units hi) {i j : Nat} (hij : i ≤ j)
    (hj : j < units.length) : (unitAt units i).start ≤ (unitAt units j).start ∧
    (unitAt units i).stop ≤ (unitAt units j).stop := by
  rcases Nat.eq_or_lt_of_le hij with rfl | hlt
  · exact ⟨le_refl _, le_refl _⟩
  · have hle := unitAt_stop_le_start hunits hlt hj
    have hi := unitAt_bounds hunits (hlt.trans hj)
    have hj := unitAt_bounds hunits hj
    omega

/-- A group runs over all of its units. -/
theorem unitAt_le_groupSpan (config : StructuralConfig) (hunits : Ordered lo units hi)
    {index k : Nat} (hindex : index ≤ k) (hk : k < groupStop config units index)
    (hlt : index < units.length) : unitAt units k ≤ groupSpan config units index := by
  have hstop := groupStop_le config hlt
  exact ⟨(unitAt_mono hunits hindex (by omega)).1, (unitAt_mono hunits (by omega) (by omega)).2⟩

theorem groupSpan_bounds (hunits : Ordered lo units hi) {index : Nat} (h : index < units.length) :
    lo ≤ (groupSpan config units index).start ∧
      (groupSpan config units index).start < (groupSpan config units index).stop ∧
      (groupSpan config units index).stop ≤ hi := by
  have hfirst := unitAt_bounds hunits h
  have hle := unitAt_le_groupSpan config hunits (le_refl index) (lt_groupStop config units index) h
  have hlast := unitAt_bounds hunits (show groupStop config units index - 1 < units.length by
    have := groupStop_le config h
    omega)
  rw [Span.le_iff] at hle
  refine ⟨hfirst.1, ?_, hlast.2.2⟩
  have hstart : (groupSpan config units index).start = (unitAt units index).start := rfl
  omega

theorem groupFrom_of_le {index : Nat} (h : units.length ≤ index) :
    groupFrom config units index = [] := by
  unfold groupFrom
  exact if_neg (Nat.not_lt.mpr h)

/-- One round of the loop. -/
theorem groupFrom_of_lt {index : Nat} (h : index < units.length) :
    groupFrom config units index = groupSpan config units index ::
      ((nextIndex config units index).map (groupFrom config units)).getD [] := by
  rw [groupFrom, if_pos h]
  split
  · rename_i next hnext
    rw [hnext]
    rfl
  · rename_i hnext
    rw [hnext]
    rfl

/-- The groups after the first are the groups of a later unit. -/
theorem mem_groupFrom_tail {index : Nat} {span : Span}
    (h : span ∈ ((nextIndex config units index).map (groupFrom config units)).getD []) :
    ∃ next, nextIndex config units index = some next ∧ span ∈ groupFrom config units next := by
  cases hnext : nextIndex config units index with
  | none =>
    rw [hnext] at h
    cases h
  | some next =>
    rw [hnext] at h
    exact ⟨next, rfl, h⟩

/-- Every chunk is the group of a unit. -/
theorem groupFrom_mem {index : Nat} {span : Span} (h : span ∈ groupFrom config units index) :
    ∃ i, index ≤ i ∧ i < units.length ∧ span = groupSpan config units i := by
  induction index using groupFrom.induct config units with
  | case1 index hlt ih =>
    rw [groupFrom_of_lt hlt] at h
    rcases List.mem_cons.mp h with rfl | h
    · exact ⟨index, le_refl _, hlt, rfl⟩
    · obtain ⟨next, hnext, h⟩ := mem_groupFrom_tail h
      obtain ⟨i, hi, hspan⟩ := ih next hnext h
      have := lt_nextIndex config units hnext
      exact ⟨i, by omega, hspan⟩
  | case2 index hge =>
    rw [groupFrom_of_le (Nat.not_lt.mp hge)] at h
    cases h

/-- Every unit lies in a group. -/
theorem exists_groupFrom (config : StructuralConfig) (hunits : Ordered lo units hi) {index k : Nat}
    (hindex : index ≤ k) (hk : k < units.length) :
    ∃ span ∈ groupFrom config units index, unitAt units k ≤ span := by
  induction index using groupFrom.induct config units with
  | case1 index hlt ih =>
    rw [groupFrom_of_lt hlt]
    by_cases hstop : k < groupStop config units index
    · exact ⟨_, List.mem_cons_self, unitAt_le_groupSpan config hunits hindex hstop hlt⟩
    · cases hnext : nextIndex config units index with
      | none =>
        have := nextIndex_eq_none hnext
        omega
      | some next =>
        have := (nextIndex_le hnext).1
        obtain ⟨span, hspan, hle⟩ := ih next hnext (by omega)
        exact ⟨span, List.mem_cons_of_mem _ hspan, hle⟩
  | case2 index hge => omega

/-- Later groups start later. -/
theorem groupFrom_pairwise (hunits : Ordered lo units hi) {index : Nat} :
    (groupFrom config units index).Pairwise fun a b => a.start < b.start := by
  induction index using groupFrom.induct config units with
  | case1 index hlt ih =>
    rw [groupFrom_of_lt hlt]
    refine List.Pairwise.cons (fun span hspan => ?_) ?_
    · obtain ⟨next, hnext, hspan⟩ := mem_groupFrom_tail hspan
      obtain ⟨i, hi, hlength, rfl⟩ := groupFrom_mem hspan
      have hindex := lt_nextIndex config units hnext
      have hstart := unitAt_stop_le_start hunits (show index < i by omega) hlength
      have := unitAt_bounds hunits hlt
      show (unitAt units index).start < (unitAt units i).start
      omega
    · cases hnext : nextIndex config units index with
      | none => exact List.Pairwise.nil
      | some next => exact ih next hnext
  | case2 index hge =>
    rw [groupFrom_of_le (Nat.not_lt.mp hge)]
    exact List.Pairwise.nil

/-- The loop takes at most one round for each unit. -/
theorem groupFrom_length_le {index : Nat} :
    (groupFrom config units index).length ≤ units.length - index := by
  induction index using groupFrom.induct config units with
  | case1 index hlt ih =>
    rw [groupFrom_of_lt hlt, List.length_cons]
    cases hnext : nextIndex config units index with
    | none =>
      show 0 + 1 ≤ _
      omega
    | some next =>
      have hindex := lt_nextIndex config units hnext
      have hrest := ih next hnext
      show (groupFrom config units next).length + 1 ≤ _
      omega
  | case2 index hge =>
    rw [groupFrom_of_le (Nat.not_lt.mp hge)]
    exact Nat.zero_le _

/-- The groups cover what the units cover. -/
theorem groupUnits_covers {p : Nat → Prop} (hunits : Keeps p lo units hi) :
    Covers p lo (groupUnits config units) hi := by
  refine hunits.covers.mono fun unit hunit => ?_
  obtain ⟨k, hk, rfl⟩ := List.mem_iff_getElem.mp hunit
  have := exists_groupFrom config hunits.ordered (Nat.zero_le k) hk
  rwa [unitAt_eq hk] at this

theorem groupUnits_bounds (hunits : Ordered lo units hi) {span : Span}
    (h : span ∈ groupUnits config units) :
    lo ≤ span.start ∧ span.start < span.stop ∧ span.stop ≤ hi := by
  obtain ⟨i, -, hi, rfl⟩ := groupFrom_mem h
  exact groupSpan_bounds hunits hi

end

/-! ### Chunks -/

section

variable {config : StructuralConfig}

theorem chunkSpans_covers (config : StructuralConfig) {part : Span} (hle : part.start ≤ part.stop)
    (hstop : part.stop ≤ text.length) :
    Covers (VisibleAt text) part.start (chunkSpans config text part) part.stop :=
  (groupUnits_covers (atomicSpans_keeps config.positive hle hstop)).filter fun _ i hi hvisible =>
    not_isBlank_slice.mpr ⟨i, hi, hvisible⟩

theorem chunkSpans_bounds {part span : Span} (hle : part.start ≤ part.stop)
    (hstop : part.stop ≤ text.length) (h : span ∈ chunkSpans config text part) :
    part.start ≤ span.start ∧ span.start < span.stop ∧ span.stop ≤ part.stop :=
  groupUnits_bounds (atomicSpans_keeps config.positive hle hstop).ordered (List.mem_filter.mp h).1

theorem chunkSpans_pairwise {part : Span} (hle : part.start ≤ part.stop)
    (hstop : part.stop ≤ text.length) :
    (chunkSpans config text part).Pairwise fun a b => a.start < b.start :=
  (groupFrom_pairwise (atomicSpans_keeps config.positive hle hstop).ordered).filter _

/-- What splitting a text into chunks of sections keeps. -/
structure Lossless (text : List Char) (sections : List SectionSpan) (chunks : List RawChunk) :
    Prop where
  tiles : Tiles 0 (sections.map (·.toSpan)) text.length
  sections_nonempty : text ≠ [] → ∀ part ∈ sections, part.start < part.stop
  covered : ∀ i, VisibleAt text i → ∃ chunk ∈ chunks, chunk.sourceStart ≤ i ∧ i < chunk.sourceEnd
  exact : ∀ chunk ∈ chunks, chunk.text.toList = slice text chunk.sourceStart chunk.sourceEnd
  visible : ∀ chunk ∈ chunks, isBlank chunk.text.toList = false
  bounds : ∀ chunk ∈ chunks, chunk.sourceStart < chunk.sourceEnd ∧ chunk.sourceEnd ≤ text.length
  one_section : ∀ chunk ∈ chunks, ∃! part, part ∈ sections ∧
    part.start ≤ chunk.sourceStart ∧ chunk.sourceEnd ≤ part.stop
  increasing : chunks.Pairwise fun a b => a.sourceStart < b.sourceStart

theorem mem_splitStructural {parentIds : Bool} {chunk : RawChunk}
    (h : chunk ∈ splitStructural unicode config text parentIds) :
    ∃ part ∈ sectionSpans unicode text parentIds, ∃ span ∈ chunkSpans config text part.toSpan,
      chunk = structuralChunk text parentIds part span := by
  obtain ⟨part, hpart, h⟩ := List.mem_flatMap.mp h
  obtain ⟨span, hspan, rfl⟩ := List.mem_map.mp h
  exact ⟨part, hpart, span, hspan, rfl⟩

/-- Only one section holds all of a chunk. -/
theorem section_unique {sections : List SectionSpan}
    (htiles : Tiles 0 (sections.map (·.toSpan)) text.length) {a b : SectionSpan} (ha : a ∈ sections)
    (hb : b ∈ sections) {start stop : Nat} (hlt : start < stop)
    (hina : a.start ≤ start ∧ stop ≤ a.stop) (hinb : b.start ≤ start ∧ stop ≤ b.stop) : a = b := by
  refine eq_of_mem_span htiles.pairwise ha hb (i := start) ?_ ?_
  · exact Span.mem_iff.mpr ⟨hina.1, hlt.trans_le hina.2⟩
  · exact Span.mem_iff.mpr ⟨hinb.1, hlt.trans_le hinb.2⟩

/-- Structural splitting loses nothing: chunks are exact and not blank, each lies in one section of
a tiling, and every visible character lies in a chunk. The grouping loop takes at most one round for
each unit. -/
theorem splitStructural_lossless (unicode : UnicodeTables) (config : StructuralConfig)
    (text : List Char) (parentIds : Bool) :
    Lossless text (sectionSpans unicode text parentIds) (splitStructural unicode config text
      parentIds) ∧ ∀ units, (groupUnits config units).length ≤ units.length := by
  obtain ⟨htiles, hnonempty⟩ := sectionSpans_tiles unicode text parentIds
  have hpart : ∀ part ∈ sectionSpans unicode text parentIds, part.start ≤ part.stop ∧
      part.stop ≤ text.length :=
    fun part hpart => (htiles.bounds (List.mem_map_of_mem hpart)).2
  have hbounds : ∀ part ∈ sectionSpans unicode text parentIds,
      ∀ span ∈ chunkSpans config text part.toSpan, part.start ≤ span.start ∧
      span.start < span.stop ∧ span.stop ≤ part.stop :=
    fun part hmem span hspan => chunkSpans_bounds (hpart part hmem).1 (hpart part hmem).2 hspan
  refine ⟨⟨htiles, hnonempty, ?_, ?_, ?_, ?_, ?_, ?_⟩, fun units => groupFrom_length_le⟩
  · intro i hvisible
    have hlt : i < text.length := by
      obtain ⟨c, hi, -⟩ := hvisible
      exact (List.getElem?_eq_some_iff.mp hi).1
    obtain ⟨span, hspan, hi⟩ := htiles.covers (p := VisibleAt text) i (Nat.zero_le i) hlt hvisible
    obtain ⟨part, hmem, rfl⟩ := List.mem_map.mp hspan
    obtain ⟨hle, hstop⟩ := hpart part hmem
    obtain ⟨span, hspan, hmemi⟩ := chunkSpans_covers config hle hstop i hi.1 hi.2 hvisible
    exact ⟨structuralChunk text parentIds part span,
      List.mem_flatMap.mpr ⟨part, hmem, List.mem_map_of_mem hspan⟩, hmemi⟩
  · intro chunk hchunk
    obtain ⟨part, -, span, -, rfl⟩ := mem_splitStructural hchunk
    exact String.toList_ofList
  · intro chunk hchunk
    obtain ⟨part, -, span, hspan, rfl⟩ := mem_splitStructural hchunk
    have hvisible := (List.mem_filter.mp hspan).2
    rw [Bool.not_eq_true'] at hvisible
    simpa [structuralChunk] using hvisible
  · intro chunk hchunk
    obtain ⟨part, hmem, span, hspan, rfl⟩ := mem_splitStructural hchunk
    obtain ⟨-, hlt, hle⟩ := hbounds part hmem span hspan
    exact ⟨hlt, hle.trans (hpart part hmem).2⟩
  · intro chunk hchunk
    obtain ⟨part, hmem, span, hspan, rfl⟩ := mem_splitStructural hchunk
    obtain ⟨hstart, hlt, hle⟩ := hbounds part hmem span hspan
    refine ⟨part, ⟨hmem, hstart, hle⟩, ?_⟩
    rintro other ⟨hother, hin⟩
    exact section_unique htiles hother hmem hlt hin ⟨hstart, hle⟩
  · refine List.pairwise_flatMap.mpr ⟨fun part hmem => ?_, ?_⟩
    · exact List.pairwise_map.mpr (chunkSpans_pairwise (hpart part hmem).1 (hpart part hmem).2)
    · refine (List.pairwise_map.mp htiles.pairwise).imp_of_mem ?_
      intro a b ha hb hab x hx y hy
      obtain ⟨s, hs, rfl⟩ := List.mem_map.mp hx
      obtain ⟨t, ht, rfl⟩ := List.mem_map.mp hy
      have hs := hbounds a ha s hs
      have ht := hbounds b hb t ht
      show s.start < t.start
      omega

end

end

end ZhiyanRag.Ingestion
