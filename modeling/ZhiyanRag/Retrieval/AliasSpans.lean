import ZhiyanRag.Retrieval.ComparisonDecomposition

/-!
# Alias spans

`_first_alias_span` finds an alias in the folded text and counts its characters in the text. Whether
the span addresses the text is a matter of how many characters those before and in the occurrence
fold to (`aliasSpans_address_iff`).
-/

namespace ZhiyanRag.Retrieval

open Regex Spans Ingestion Rag

variable (tables : TextTables)

/-- The characters between two places fold to what an alias folds to. -/
def MatchesAt (text : List Char) (aliases : List (List Char)) (start stop : Nat) : Prop :=
  ∃ name ∈ aliases, casefold tables (slice text start stop) = casefold tables name

/-- An alias occurs at a place of the folded text. -/
def FoldsAt (text name : List Char) (place : Nat) : Prop :=
  casefold tables name <+: (casefold tables text).drop place

/-- What `_first_alias_span` returns is the first match of an alias. -/
def AddressesText (text : List Char) (aliases : List (List Char)) : Prop :=
  ∀ span, firstAliasSpan tables text aliases = some span →
    span.start < span.stop ∧ span.stop ≤ text.length ∧
      MatchesAt tables text aliases span.start span.stop ∧ ∀ start stop, start < span.start →
      ¬MatchesAt tables text aliases start stop

/-- How many characters these fold to. -/
def foldingLength (chars : List Char) : Nat := (chars.map fun c => (tables.casefold c).length).sum

/-- Every character folds to one. -/
def FoldsOneToOne (text : List Char) : Prop := ∀ c ∈ text, (tables.casefold c).length = 1

/-- An alias occurs at a place of the folded text before which none does, and none that is shorter
occurs there. -/
structure OccursFirst (text : List Char) (aliases : List (List Char)) (name : List Char)
    (place : Nat) : Prop where
  mem : name ∈ aliases
  occurs : FoldsAt tables text name place
  earliest : ∀ other ∈ aliases, ∀ earlier < place, ¬FoldsAt tables text other earlier
  shortest : ∀ other ∈ aliases, FoldsAt tables text other place → name.length ≤ other.length

/-- In the folded text an alias occurs from the border before one character of the text to the
border before another. -/
def OccursBetween (text : List Char) (aliases : List (List Char)) (start stop : Nat) : Prop :=
  start ≤ stop ∧ ∃ name ∈ aliases,
    FoldsAt tables text name (foldingLength tables (text.take start)) ∧
    foldingLength tables (text.take start) + foldingLength tables name =
      foldingLength tables (text.take stop)

/-- The lengths agree. Where an alias occurs first in the folded text, at `place`, the text has as
many characters from there on as the alias has. Either each character before folds to one, and these
fold to as many as an alias there does. Or, by chance, some before fold to more, an alias stands
just where these fold to, and none that starts from `place` up to there has a border of characters
at both of its ends. -/
def SpanCondition (text : List Char) (aliases : List (List Char)) : Prop :=
  [] ∉ aliases ∧ ∀ name place, OccursFirst tables text aliases name place →
    place + name.length ≤ text.length ∧
    ((FoldsOneToOne tables (text.take place) ∧ ∃ other ∈ aliases, FoldsAt tables text other place ∧
        foldingLength tables (slice text place (place + name.length)) = foldingLength tables
          other) ∨
      (¬FoldsOneToOne tables (text.take place) ∧
        OccursBetween tables text aliases place (place + name.length) ∧ ∀ start stop,
          start < place → place ≤ foldingLength tables (text.take start) →
          ¬OccursBetween tables text aliases start stop))

/-- The clause is cut at the borders of an alias of each document. -/
def CutAtAliases (clause : List Char) (left right : DocumentQueryIdentity)
    (queries : List (String × List Char)) : Prop :=
  ∃ before leftName between rightName rest connector tail,
    clause = before ++ leftName ++ between ++ rightName ++ rest ∧
    (∃ name ∈ left.aliases, casefold tables leftName = casefold tables name) ∧
    (∃ name ∈ right.aliases, casefold tables rightName = casefold tables name) ∧
    lastConnectorSpan between = some connector ∧ sharedTailStart rest 0 = some tail ∧
    let common := joinSpaced ([stripCommas before, stripCommas (rest.drop tail)].filter
      fun part => !part.isEmpty)
    queries = [
      (left.documentId,
        normalizeQuery (stripCommas (leftName ++ between.take connector.start) ++ ' ' :: common)),
      (right.documentId,
        normalizeQuery (stripCommas (rightName ++ rest.take tail) ++ ' ' :: common))]

variable {tables} {text : List Char} {aliases : List (List Char)} {span : Span}

/-! ### The span -/

theorem foldsAt_of_find {name : List Char} {place : Nat}
    (h : Occurrences.find (casefold tables name) (casefold tables text) = some place) :
    FoldsAt tables text name place ∧ ∀ i < place, ¬FoldsAt tables text name i :=
  (Occurrences.find_eq_some.mp h).2

theorem exists_find {name : List Char} {place : Nat} (h : FoldsAt tables text name place) :
    ∃ first ≤ place, Occurrences.find (casefold tables name) (casefold tables text) =
      some first := by
  have hinfix : casefold tables name <:+: casefold tables text :=
    h.isInfix.trans (List.drop_suffix _ _).isInfix
  obtain ⟨first, hfirst⟩ := Option.isSome_iff_exists.mp (Occurrences.find_isSome.mpr hinfix)
  refine ⟨first, ?_, hfirst⟩
  by_contra hlt
  exact (foldsAt_of_find hfirst).2 place (by omega) h

/-- The span starts where an alias occurs first, and is as long as the shortest one there. -/
theorem firstAliasSpan_some (h : firstAliasSpan tables text aliases = some span) :
    ∃ name, OccursFirst tables text aliases name span.start ∧
    span.stop = span.start + name.length := by
  obtain ⟨hmem, hleast⟩ := leastSpan_spec h
  have hspan : ∀ name ∈ aliases, ∀ place, FoldsAt tables text name place → span.start < place ∨
      span.start = place ∧ span.stop ≤ place + name.length ∨ ∃ first < place,
        span.start ≤ first := by
    intro name hname place hplace
    obtain ⟨first, hle, hfirst⟩ := exists_find hplace
    have hother :=
      hleast ⟨first, first + name.length⟩
        (List.mem_filterMap.mpr ⟨name, hname, by rw [hfirst]; rfl⟩)
    rcases Nat.lt_or_eq_of_le hle with hlt | rfl
    · right; right
      refine ⟨first, hlt, ?_⟩
      dsimp only at hother
      omega
    · rcases hother with hlt | ⟨heq, hstop⟩
      · exact .inl hlt
      · exact .inr (.inl ⟨heq, hstop⟩)
  obtain ⟨name, hname, hfind⟩ := List.mem_filterMap.mp hmem
  obtain ⟨start, hstart, rfl⟩ := Option.map_eq_some_iff.mp hfind
  refine ⟨name, ⟨hname, (foldsAt_of_find hstart).1, fun other hother place hlt hplace => ?_,
    fun other hother hplace => ?_⟩, rfl⟩
  · rcases hspan other hother place hplace with h | h | ⟨first, h, h'⟩ <;> omega
  · rcases hspan other hother _ hplace with h | ⟨-, h⟩ | ⟨first, h, h'⟩ <;>
      dsimp only at * <;> omega

theorem firstAliasSpan_eq_none :
    firstAliasSpan tables text aliases = none ↔ ∀ name ∈ aliases,
      ¬casefold tables name <:+: casefold tables text := by
  unfold firstAliasSpan
  rw [leastSpan_eq_none, List.filterMap_eq_nil_iff]
  refine forall₂_congr fun name _ => ?_
  rw [Option.map_eq_none_iff, ← Occurrences.find_isSome, Bool.not_eq_true,
    Option.isSome_eq_false_iff, Option.isNone_iff_eq_none]

theorem firstAliasSpan_eq_some {name : List Char} {place : Nat}
    (h : OccursFirst tables text aliases name place) :
    firstAliasSpan tables text aliases = some ⟨place, place + name.length⟩ := by
  cases hspan : firstAliasSpan tables text aliases with
  | none =>
    exact absurd (h.occurs.isInfix.trans (List.drop_suffix _ _).isInfix)
      (firstAliasSpan_eq_none.mp hspan name h.mem)
  | some span =>
    obtain ⟨other, hother, hstop⟩ := firstAliasSpan_some hspan
    have hstart : span.start = place := by
      rcases Nat.lt_trichotomy span.start place with hlt | heq | hlt
      · exact absurd hother.occurs (h.earliest other hother.mem _ hlt)
      · exact heq
      · exact absurd h.occurs (hother.earliest name h.mem _ hlt)
    have hle := h.shortest other hother.mem (hstart ▸ hother.occurs)
    have hge := hother.shortest name h.mem (hstart.symm ▸ h.occurs)
    obtain ⟨start, stop⟩ := span
    dsimp only at hstart hstop
    rw [hstop, hstart, Nat.le_antisymm hle hge]

/-! ### Places in the text and in the folded text -/

theorem casefold_append (front back : List Char) :
    casefold tables (front ++ back) = casefold tables front ++ casefold tables back :=
      List.flatMap_append

theorem length_casefold (chars : List Char) :
    (casefold tables chars).length = foldingLength tables chars := List.length_flatMap

theorem foldingLength_append (front back : List Char) :
    foldingLength tables (front ++ back) = foldingLength tables front +
      foldingLength tables back := by
  unfold foldingLength
  rw [List.map_append, List.sum_append]

theorem FoldsOneToOne.length_eq (h : FoldsOneToOne tables text) :
    foldingLength tables text = text.length := by
  unfold foldingLength
  rw [List.map_congr_left h, List.map_const', List.sum_replicate_nat, Nat.mul_one]

theorem take_eq_append {start stop : Nat} (h : start ≤ stop) :
    text.take stop = text.take start ++ slice text start stop := by
  unfold slice
  conv_lhs => rw [← List.take_append_drop start (text.take stop), List.take_take, Nat.min_eq_left h]

/-- What matches between two characters occurs between their borders. -/
theorem matchesAt_iff {start stop : Nat} (h : start ≤ stop) :
    MatchesAt tables text aliases start stop ↔ OccursBetween tables text aliases start stop := by
  have htake : text.take stop = text.take start ++ slice text start stop := take_eq_append h
  have hfolded : casefold tables text =
      casefold tables (text.take start) ++
        (casefold tables (slice text start stop) ++ casefold tables (text.drop stop)) := by
    conv_lhs => rw [← List.take_append_drop stop text, htake, casefold_append, casefold_append,
      List.append_assoc]
  unfold MatchesAt OccursBetween FoldsAt
  rw [and_iff_right h]
  refine exists_congr fun name => and_congr_right fun _ => ?_
  rw [htake, foldingLength_append, Nat.add_left_cancel_iff, hfolded,
    ← length_casefold (text.take start), List.drop_left]
  constructor
  · intro heq
    rw [heq, ← length_casefold, ← length_casefold, heq]
    exact ⟨List.prefix_append _ _, rfl⟩
  · rintro ⟨hfront, hlength⟩
    rw [← length_casefold, ← length_casefold] at hlength
    exact ((List.prefix_of_prefix_length_le hfront (List.prefix_append _ _) hlength.le).eq_of_length
      hlength).symm

/-! ### When the span addresses the text -/

/-- What is cut out from back to front is empty. -/
theorem matchesAt_max {start stop : Nat} :
    MatchesAt tables text aliases start stop ↔
    MatchesAt tables text aliases start (max start stop) := by
  rcases Nat.le_total start stop with h | h
  · rw [Nat.max_eq_right h]
  · rw [Nat.max_eq_left h]
    have hnil : slice text start stop = slice text start start := by
      rw [slice_self]
      unfold slice
      rw [List.drop_eq_nil_iff, List.length_take]
      omega
    unfold MatchesAt
    rw [hnil]

/-- No alias matches before: where the characters before fold to one, there is nothing to show. -/
theorem OccursFirst.nothing_before {name : List Char} {place : Nat}
    (h : OccursFirst tables text aliases name place) :
    (∀ start stop, start < place → ¬MatchesAt tables text aliases start stop) ↔
      ∀ start stop, start < place → place ≤ foldingLength tables (text.take start) →
        ¬OccursBetween tables text aliases start stop := by
  refine ⟨fun hnone start stop hlt _ hoccurs => hnone start stop hlt
    ((matchesAt_iff hoccurs.1).mpr hoccurs), fun hnone start stop hlt hmatch => ?_⟩
  have hoccurs := (matchesAt_iff (Nat.le_max_left start stop)).mp (matchesAt_max.mp hmatch)
  refine hnone start _ hlt ?_ hoccurs
  obtain ⟨-, other, hother, hfolds, -⟩ := hoccurs
  exact Nat.le_of_not_lt fun hearlier => h.earliest other hother _ hearlier hfolds

/-- The first occurrence addresses the text exactly if the lengths agree. -/
theorem OccursFirst.addresses_iff {name : List Char} {place : Nat}
    (h : OccursFirst tables text aliases name place) (hle : place + name.length ≤ text.length) :
    (MatchesAt tables text aliases place (place + name.length) ∧
      ∀ start stop, start < place → ¬MatchesAt tables text aliases start stop) ↔
    (FoldsOneToOne tables (text.take place) ∧ ∃ other ∈ aliases, FoldsAt tables text other place ∧
        foldingLength tables (slice text place (place + name.length)) = foldingLength tables
          other) ∨
      (¬FoldsOneToOne tables (text.take place) ∧
        OccursBetween tables text aliases place (place + name.length) ∧ ∀ start stop,
          start < place → place ≤ foldingLength tables (text.take start) →
          ¬OccursBetween tables text aliases start stop) := by
  rw [h.nothing_before, matchesAt_iff (Nat.le_add_right _ _)]
  by_cases hone : FoldsOneToOne tables (text.take place)
  · have hborder : ∀ start ≤ place, foldingLength tables (text.take start) = start := by
      intro start hstart
      have hfront : FoldsOneToOne tables (text.take start) := fun c hc =>
        hone c (List.take_subset_take_left text hstart hc)
      rw [hfront.length_eq, List.length_take]
      omega
    have hnone : ∀ start stop, start < place → place ≤ foldingLength tables (text.take start) →
        ¬OccursBetween tables text aliases start stop := by
      intro start stop hlt hborders
      rw [hborder start hlt.le] at hborders
      omega
    have hslice : foldingLength tables (text.take (place + name.length)) =
        place + foldingLength tables (slice text place (place + name.length)) := by
      conv_lhs => rw [take_eq_append (Nat.le_add_right place name.length), foldingLength_append,
        hborder place le_rfl]
    simp only [hone, not_true_eq_false, false_and, or_false, true_and, and_iff_left hnone]
    unfold OccursBetween
    simp only [hborder place le_rfl, hslice, Nat.le_add_right, true_and, Nat.add_left_cancel_iff,
      eq_comm]
  · simp only [hone, false_and, false_or, not_false_eq_true, true_and]

theorem addressesText_iff :
    AddressesText tables text aliases ↔ SpanCondition tables text aliases := by
  constructor
  · intro h
    refine ⟨fun hempty => ?_, fun name place hfirst => ?_⟩
    · have hnil : OccursFirst tables text aliases [] 0 :=
        ⟨hempty, List.nil_prefix, fun _ _ earlier hearlier => absurd hearlier (Nat.not_lt_zero _),
          fun _ _ _ => Nat.zero_le _⟩
      exact Nat.lt_irrefl 0 (h _ (firstAliasSpan_eq_some hnil)).1
    · obtain ⟨-, hle, haddresses⟩ := h _ (firstAliasSpan_eq_some hfirst)
      exact ⟨hle, (hfirst.addresses_iff hle).mp haddresses⟩
  · rintro ⟨hempty, h⟩ span hspan
    obtain ⟨name, hfirst, hstop⟩ := firstAliasSpan_some hspan
    obtain ⟨hle, hlengths⟩ := h name span.start hfirst
    have hpos : 0 < name.length := List.length_pos_iff.mpr fun hnil => hempty (hnil ▸ hfirst.mem)
    rw [hstop]
    exact ⟨by omega, hle, (hfirst.addresses_iff hle).mpr hlengths⟩

/-! ### Cuts -/

theorem lastConnectorSpan_le (h : lastConnectorSpan text = some span) :
    span.start < text.length := by
  obtain ⟨found, hfound, rfl⟩ := Option.map_eq_some_iff.mp h
  obtain ⟨-, hlength, hstop⟩ :=
    (Pattern.findAll_chain (Nat.zero_le _) le_rfl).bounds (List.mem_of_getLast? hfound)
  have hpos : found.start < found.stop := by
    change found.start < found.start + found.length
    omega
  exact Nat.lt_of_lt_of_le hpos hstop

theorem sharedTailStart_drop {after tailStart : Nat}
    (h : sharedTailStart text after = some tailStart) :
    ∃ tail, tailStart = after + tail ∧ sharedTailStart (text.drop after) 0 = some tail := by
  obtain ⟨tail, htail, rfl⟩ := Option.map_eq_some_iff.mp h
  refine ⟨tail, rfl, ?_⟩
  unfold sharedTailStart
  rw [List.drop_zero, htail, Option.map_some, Nat.zero_add]

theorem cutClause_cut {clause : List Char} {left right : DocumentQueryIdentity}
    {leftSpan rightSpan : Span} {queries : List (String × List Char)}
    (hleft : leftSpan.start < leftSpan.stop ∧
      MatchesAt tables clause left.aliases leftSpan.start leftSpan.stop)
    (hright : rightSpan.start < rightSpan.stop ∧ rightSpan.stop ≤ clause.length ∧
      MatchesAt tables clause right.aliases rightSpan.start rightSpan.stop)
    (h : cutClause clause left.documentId leftSpan right.documentId rightSpan = some queries) :
    CutAtAliases tables clause left right queries := by
  unfold cutClause at h
  obtain ⟨connector, hconnector, h⟩ := Option.bind_eq_some_iff.mp h
  obtain ⟨tailStart, htail, h⟩ := Option.bind_eq_some_iff.mp h
  dsimp only at h
  obtain ⟨tail, rfl, hrest⟩ := sharedTailStart_drop htail
  have hinside := lastConnectorSpan_le hconnector
  rw [length_slice] at hinside
  have hleftSide : slice clause leftSpan.start (leftSpan.stop + connector.start) =
      slice clause leftSpan.start leftSpan.stop ++ (slice clause leftSpan.stop rightSpan.start).take
        connector.start := by
    have hbetween : (slice clause leftSpan.stop rightSpan.start).take connector.start =
        slice clause leftSpan.stop (leftSpan.stop + connector.start) := by
      have hstop : leftSpan.stop + connector.start ≤ rightSpan.start := by omega
      have hinner : slice (slice clause leftSpan.stop rightSpan.start) 0 connector.start =
        slice clause (leftSpan.stop + 0) (leftSpan.stop + connector.start) :=
          slice_slice clause hstop
      rwa [Nat.add_zero] at hinner
    rw [hbetween, slice_append clause hleft.1.le (Nat.le_add_right _ _)]
  have hrightSide : slice clause rightSpan.start (rightSpan.stop + tail) =
      slice clause rightSpan.start rightSpan.stop ++ (clause.drop rightSpan.stop).take tail := by
    rw [← slice_append clause hright.1.le (Nat.le_add_right rightSpan.stop tail)]
    congr 1
    unfold slice
    rw [List.drop_take, Nat.add_sub_cancel_left]
  have hclause : clause = clause.take leftSpan.start ++ slice clause leftSpan.start leftSpan.stop ++
      slice clause leftSpan.stop rightSpan.start ++ slice clause rightSpan.start rightSpan.stop ++
      clause.drop rightSpan.stop := by
    have hfront : clause.take leftSpan.start = slice clause 0 leftSpan.start := rfl
    have hback : clause.drop rightSpan.stop = slice clause rightSpan.stop clause.length := by
      unfold slice
      rw [List.take_length]
    rw [hfront, hback, slice_append clause (Nat.zero_le _) hleft.1.le,
      slice_append clause (Nat.zero_le _) (by omega), slice_append clause (Nat.zero_le _)
        hright.1.le, slice_append clause (Nat.zero_le _) hright.2.1, slice_all]
  obtain ⟨leftName, hleftName⟩ := hleft.2
  obtain ⟨rightName, hrightName⟩ := hright.2.2
  refine ⟨_, _, _, _, _, connector, tail, hclause, ⟨leftName, hleftName⟩, ⟨rightName, hrightName⟩,
    hconnector, hrest, ?_⟩
  rw [hleftSide, hrightSide, ← List.drop_drop] at h
  split at h
  · cases h
  · exact (Option.some.inj h).symm

/-- The span that `_first_alias_span` returns is the first match of an alias exactly under
`SpanCondition`; where it is for both documents, a clause is cut at the borders of their aliases. -/
theorem aliasSpans_address_iff (tables : TextTables) :
    (∀ text aliases, AddressesText tables text aliases ↔ SpanCondition tables text aliases) ∧
    ∀ (clause : List Char) (first second : DocumentQueryIdentity)
      (queries : List (String × List Char)), AddressesText tables clause first.aliases →
      AddressesText tables clause second.aliases →
      splitBilateralClause tables clause first second = some queries →
        CutAtAliases tables clause first second queries ∨
        CutAtAliases tables clause second first queries := by
  refine ⟨fun text aliases => addressesText_iff, ?_⟩
  intro clause first second queries hfirst hsecond h
  unfold splitBilateralClause at h
  obtain ⟨firstSpan, hfirstSpan, h⟩ := Option.bind_eq_some_iff.mp h
  obtain ⟨secondSpan, hsecondSpan, h⟩ := Option.bind_eq_some_iff.mp h
  obtain ⟨hlt, hle, hmatch, -⟩ := hfirst firstSpan hfirstSpan
  obtain ⟨hlt', hle', hmatch', -⟩ := hsecond secondSpan hsecondSpan
  split at h
  · exact .inl (cutClause_cut ⟨hlt, hmatch⟩ ⟨hlt', hle', hmatch'⟩ h)
  · exact .inr (cutClause_cut ⟨hlt', hmatch'⟩ ⟨hlt, hle, hmatch⟩ h)

/-- Case folding as far as ASCII goes, and of the letter `ß`. -/
def sharpText : TextTables :=
  { asciiText with casefold := fun c => if c = 'ß' then ['s', 's'] else [c.toLower] }

theorem aliasSpans_address_iff_pair : ∃ queries,
    splitBilateralClause sharpText "A与B在ß".toList ⟨"a", ["a".toList]⟩ ⟨"b", ["b".toList]⟩ =
      some queries ∧
      (CutAtAliases sharpText "A与B在ß".toList ⟨"a", ["a".toList]⟩ ⟨"b", ["b".toList]⟩ queries ∨
        CutAtAliases sharpText "A与B在ß".toList ⟨"b", ["b".toList]⟩ ⟨"a", ["a".toList]⟩ queries) := by
  have haddresses := (aliasSpans_address_iff sharpText).1
  have hcondition : ∀ (letter : Char) (place : Nat), [letter] ≠ [] →
      firstAliasSpan sharpText "A与B在ß".toList [[letter]] = some ⟨place, place + 1⟩ → place + 1 ≤ 5 →
      FoldsOneToOne sharpText ("A与B在ß".toList.take place) →
      FoldsAt sharpText "A与B在ß".toList [letter] place →
      foldingLength sharpText (slice "A与B在ß".toList place (place + 1)) = foldingLength sharpText
        [letter] →
      SpanCondition sharpText "A与B在ß".toList [[letter]] := by
    intro letter place hne hspan hle hone hfolds hlength
    refine ⟨fun hmem => hne (List.mem_singleton.mp hmem).symm, fun name first hfirst => ?_⟩
    obtain rfl := List.mem_singleton.mp hfirst.mem
    have hsame := (firstAliasSpan_eq_some hfirst).symm.trans hspan
    obtain rfl : first = place := congrArg Span.start (Option.some.inj hsame)
    exact ⟨hle, .inl ⟨hone, _, hfirst.mem, hfolds, hlength⟩⟩
  have hone : ∀ place ≤ 4, FoldsOneToOne sharpText ("A与B在ß".toList.take place) := by
    have hall : ("A与B在".toList.all fun c => decide ((sharpText.casefold c).length = 1)) = true := by
      decide +kernel
    intro place hplace c hc
    exact of_decide_eq_true (List.all_eq_true.mp hall c (List.take_subset_take_left _ hplace hc))
  have hfirst : SpanCondition sharpText "A与B在ß".toList ["a".toList] :=
    hcondition 'a' 0 (by decide) (by decide +kernel) (by decide) (hone 0 (by decide))
      (by unfold FoldsAt; decide +kernel) (by decide +kernel)
  have hsecond : SpanCondition sharpText "A与B在ß".toList ["b".toList] :=
    hcondition 'b' 2 (by decide) (by decide +kernel) (by decide) (hone 2 (by decide))
      (by unfold FoldsAt; decide +kernel) (by decide +kernel)
  obtain ⟨queries, hsplit⟩ := Option.isSome_iff_exists.mp
    (by decide +kernel :
      (splitBilateralClause sharpText "A与B在ß".toList ⟨"a", ["a".toList]⟩
        ⟨"b", ["b".toList]⟩).isSome = true)
  exact ⟨queries, hsplit, (aliasSpans_address_iff sharpText).2 _ _ _ _ ((haddresses _ _).mpr hfirst)
    ((haddresses _ _).mpr hsecond) hsplit⟩

/-- A letter that folds to two shifts the span out of the text. -/
theorem shifted_span : ¬AddressesText sharpText "ßX".toList ["X".toList] := by
  intro h
  have hspan : firstAliasSpan sharpText "ßX".toList ["X".toList] = some ⟨2, 3⟩ := by decide +kernel
  exact absurd (h _ hspan).2.1 (by decide)

end ZhiyanRag.Retrieval
