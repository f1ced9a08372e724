import ZhiyanRag.Rag.Generation

/-!
# Citations of a generated answer

`_parse_claims` of `generation.py`, and what comes of its claims: they are rendered to one text with
markers, and the positions are read from this text again. The reading is a search over texts that
the model wrote; it finds the markers that were rendered and no others (`citations_round_trip`).
-/

namespace ZhiyanRag.Rag

open Regex Ingestion Retrieval

/-! ### Parsing -/

/-- `GeneratedClaim`, as it is parsed. -/
structure GeneratedClaim where
  text : List Char
  citationIds : List Int

def GeneratedClaim.toObject (claim : GeneratedClaim) : ClaimObject :=
  .of claim.text claim.citationIds

/-- The value, if `type(value) is int`. -/
def exactInt? : JsonValue → Option Int
  | .int n => some n
  | _ => none

def schemaInvalid : PyException := .generationService "OLLAMA_ANSWER_SCHEMA_INVALID"

section

variable (tables : TextTables) (evidenceCount : Nat)

/-- One claim of `_parse_claims`. -/
def parseClaim : JsonValue → Except PyException GeneratedClaim
  | .object members =>
    if !hasKeys members ["text", "citation_ids"] then .error schemaInvalid
    else match members.lookup "text", members.lookup "citation_ids" with
    | some (.str text), some (.array citationIds) =>
      let stripped := strip text.toList
      let values := citationIds.filterMap exactInt?
      if stripped.isEmpty || decide (2000 < stripped.length) ||
        !(markerTexts tables text.toList).isEmpty ||
          citationIds.isEmpty || decide (values.length ≠ citationIds.length)
            then .error schemaInvalid
      else if (sortedSet values).any fun position => decide (position < 1) ||
        decide ((evidenceCount : Int) < position) then
        .error (.generationService "OLLAMA_ANSWER_CITATION_INVALID")
      else .ok ⟨stripped, sortedSet values⟩
    | _, _ => .error schemaInvalid
  | _ => .error schemaInvalid

/-- `_parse_claims`. -/
def parseClaims : JsonValue → Except PyException (List GeneratedClaim)
  | .object members =>
    if !hasKeys members ["claims"] then .error schemaInvalid
    else match members.lookup "claims" with
    | some (.array claims) =>
      if claims.isEmpty || decide (8 < claims.length) then .error schemaInvalid
      else claims.mapM (parseClaim tables evidenceCount)
    | _ => .error schemaInvalid
  | _ => .error schemaInvalid

end

/-! ### Markers -/

/-- The symbols of markers and between them are no digits, and ASCII digits are. -/
structure MarkersApart (tables : TextTables) : Prop where
  digits : ReadsAsciiDigits tables.toUnicodeTables
  others : ∀ c ∈ ['[', ']', ' ', '\n'], tables.decimal c = none

section

variable (tables : TextTables)

/-- The digits of the marker that a text starts with. -/
def markerHere : List Char → Option (List Char)
  | [] => none
  | c :: rest =>
    let number := rest.takeWhile (isDigit tables.toUnicodeTables)
    if c = '[' ∧ number ≠ [] ∧ (rest.dropWhile (isDigit tables.toUnicodeTables)).head? = some ']'
      then some number else none

/-- The digits of all markers in a text. -/
def markersOf : List Char → List (List Char)
  | [] => []
  | c :: rest => (markerHere tables (c :: rest)).toList ++ markersOf rest

end

variable {tables : TextTables} {text front back : List Char}

theorem not_digit (hapart : MarkersApart tables) {c : Char} (hc : c ∈ ['[', ']', ' ', '\n']) :
    isDigit tables.toUnicodeTables c = false := by
  unfold isDigit
  rw [hapart.others c hc]
  rfl

theorem takeWhile_run (hapart : MarkersApart tables) {number : List Char}
    (hnumber : ∀ c ∈ number, isDigit tables.toUnicodeTables c = true) :
    (number ++ ']' :: back).takeWhile (isDigit tables.toUnicodeTables) = number ∧
      (number ++ ']' :: back).dropWhile (isDigit tables.toUnicodeTables) = ']' :: back := by
  have hend : isDigit tables.toUnicodeTables ']' = false := not_digit hapart (by decide)
  rw [List.takeWhile_append_of_pos hnumber, List.dropWhile_append_of_pos hnumber,
    List.takeWhile_cons_of_neg (Bool.eq_false_iff.mp hend),
    List.dropWhile_cons_of_neg (Bool.eq_false_iff.mp hend)]
  exact ⟨List.append_nil number, rfl⟩

/-- A text starts with a marker exactly if it starts with digits in brackets. -/
theorem markerHere_eq_some (hapart : MarkersApart tables) {number : List Char} :
    markerHere tables text = some number ↔
    number ≠ [] ∧ (∀ c ∈ number, isDigit tables.toUnicodeTables c = true) ∧
    ∃ tail, text = '[' :: number ++ ']' :: tail := by
  cases text with
  | nil => simp [markerHere]
  | cons c rest =>
    unfold markerHere
    rw [Option.ite_none_right_eq_some]
    constructor
    · rintro ⟨⟨rfl, hne, hend⟩, hnumber⟩
      obtain rfl := Option.some.inj hnumber
      obtain ⟨tail, htail⟩ : ∃ tail, rest.dropWhile (isDigit tables.toUnicodeTables) =
          ']' :: tail :=
        List.head?_eq_some_iff.mp hend
      refine ⟨hne, List.all_eq_true.mp List.all_takeWhile, tail, ?_⟩
      rw [List.cons_append, ← htail, List.takeWhile_append_dropWhile]
    · rintro ⟨hne, hnumber, tail, htext⟩
      rw [List.cons_append] at htext
      obtain ⟨rfl, rfl⟩ := List.cons.inj htext
      obtain ⟨htake, hdrop⟩ : _ ∧ (number ++ ']' :: tail).dropWhile _ = _ :=
        takeWhile_run hapart hnumber
      rw [htake, hdrop]
      exact ⟨⟨rfl, hne, rfl⟩, rfl⟩

/-- No marker starts with a symbol that is no bracket. -/
theorem markersOf_cons_of_ne {c : Char} (hc : c ≠ '[') :
    markersOf tables (c :: text) = markersOf tables text := by
  have hnone : markerHere tables (c :: text) = none := if_neg fun h => hc h.1
  rw [markersOf, hnone]
  rfl

theorem markersOf_append_of_ne (hfront : ∀ c ∈ front, c ≠ '[') :
    markersOf tables (front ++ back) = markersOf tables back := by
  induction front with
  | nil => rfl
  | cons c front ih =>
    obtain ⟨hc, hfront⟩ := List.forall_mem_cons.mp hfront
    rw [List.cons_append, markersOf_cons_of_ne hc, ih hfront]

theorem ne_bracket_of_digit (hapart : MarkersApart tables) {c : Char}
    (hc : isDigit tables.toUnicodeTables c = true) : c ≠ '[' := by
  rintro rfl
  rw [not_digit hapart (by decide)] at hc
  cases hc

/-- A rendered marker is read, and the text after it is read for itself. -/
theorem markersOf_marker (hapart : MarkersApart tables) {number : List Char} (hne : number ≠ [])
    (hnumber : ∀ c ∈ number, isDigit tables.toUnicodeTables c = true) :
    markersOf tables ('[' :: number ++ ']' :: back) = number :: markersOf tables back := by
  have hsome : markerHere tables ('[' :: number ++ ']' :: back) = some number :=
    (markerHere_eq_some hapart).mpr ⟨hne, hnumber, back, rfl⟩
  rw [List.cons_append] at hsome ⊢
  rw [markersOf, hsome, markersOf_append_of_ne fun c hc => ne_bracket_of_digit hapart
    (hnumber c hc), markersOf_cons_of_ne (by decide)]
  rfl

/-- A run of symbols ends before a symbol of another kind. -/
theorem takeWhile_joint {p : Char → Bool} {c : Char} (hc : p c = false) :
    (front ++ c :: back).takeWhile p = front.takeWhile p ∧
    (front ++ c :: back).dropWhile p = front.dropWhile p ++ c :: back := by
  induction front with
  | nil => simp [hc]
  | cons a front ih => by_cases ha : p a = true <;> simp [ha, ih.1, ih.2]

/-- No marker goes over a joint that starts with a symbol of no marker. -/
theorem markersOf_append (hapart : MarkersApart tables) {c : Char} (hc : c ∈ [' ', '\n']) :
    markersOf tables (front ++ c :: back) = markersOf tables front ++ markersOf tables back := by
  have hdigit : isDigit tables.toUnicodeTables c = false := not_digit hapart (by
    rcases List.mem_pair.mp hc with rfl | rfl <;> decide)
  have hne : c ≠ '[' ∧ c ≠ ']' := by
    rcases List.mem_pair.mp hc with rfl | rfl <;> decide
  induction front with
  | nil => exact markersOf_cons_of_ne hne.1
  | cons a front ih =>
    have hsame : markerHere tables (a :: (front ++ c :: back)) =
        markerHere tables (a :: front) := by
      obtain ⟨htake, hdrop⟩ : _ ∧ (front ++ c :: back).dropWhile _ = _ := takeWhile_joint hdigit
      have hend : (front.dropWhile (isDigit tables.toUnicodeTables) ++ c :: back).head? = some ']' ↔
          (front.dropWhile (isDigit tables.toUnicodeTables)).head? = some ']' := by
        cases front.dropWhile (isDigit tables.toUnicodeTables) with
        | nil => simp [hne.2]
        | cons b rest => rfl
      unfold markerHere
      simp only [htake, hdrop, hend]
    rw [List.cons_append, markersOf, markersOf, hsame, ih, List.append_assoc]

/-! ### The search finds the markers -/

theorem mem_ends_citationPattern {c d : Cursor Char} (h : d ∈ (citationPattern tables).ends c) :
    ∃ number, number ≠ [] ∧ (∀ a ∈ number, isDigit tables.toUnicodeTables a = true) ∧
    c.rest = '[' :: number ++ ']' :: d.rest ∧
      d.groups = c.groups ++ [number] := by
  obtain ⟨e, he, hinner⟩ := List.mem_flatMap.mp h
  obtain ⟨f, hf, hd⟩ := List.mem_flatMap.mp hinner
  obtain ⟨a, rest, hrest, ha, rfl⟩ := Pattern.mem_ends_char.mp he
  obtain ⟨⟨g, hg, hgf⟩, hgroups⟩ := Pattern.ends_group rfl hf
  obtain ⟨number, hnumber, hdigits, hne⟩ := Pattern.mem_ends_plus_char hg
  obtain ⟨b, tail, htail, hb, rfl⟩ := Pattern.mem_ends_char.mp hd
  have hnumber : rest = number ++ ']' :: tail := by
    rw [← of_decide_eq_true hb, ← htail, ← hgf]
    exact hnumber
  refine ⟨number, List.ne_nil_of_length_pos hne, hdigits, ?_, ?_⟩
  · rw [hrest, of_decide_eq_true ha, hnumber]
    rfl
  · have hlength : f.rest.length = tail.length + 1 := by
      rw [htail]
      rfl
    show f.groups = c.groups ++ [number]
    rw [hgroups, hlength, hnumber]
    simp

theorem exists_mem_ends_citationPattern {c : Cursor Char} {number tail : List Char}
    (hne : number ≠ []) (hnumber : ∀ a ∈ number, isDigit tables.toUnicodeTables a = true)
    (hrest : c.rest = '[' :: number ++ ']' :: tail) : (citationPattern tables).ends c ≠ [] := by
  have hopen : (⟨some '[', number ++ ']' :: tail, c.groups⟩ : Cursor Char) ∈ (exactly '[').ends c :=
    Pattern.mem_ends_char.mpr ⟨'[', _, hrest, decide_eq_true rfl, rfl⟩
  have hdigits : (⟨number.getLast?, ']' :: tail, c.groups⟩ : Cursor Char) ∈
      (digits tables.toUnicodeTables).ends ⟨some '[', number ++ ']' :: tail, c.groups⟩ :=
    Pattern.mem_ends_plus_run rfl hnumber hne
  have hclose : ∀ groups, (⟨some ']', tail, groups⟩ : Cursor Char) ∈
      (exactly ']').ends ⟨number.getLast?, ']' :: tail, groups⟩ :=
    fun groups => Pattern.mem_ends_char.mpr ⟨']', tail, rfl, decide_eq_true rfl, rfl⟩
  obtain ⟨groups, hgroup⟩ : ∃ groups, (⟨number.getLast?, ']' :: tail, groups⟩ : Cursor Char) ∈
      (Pattern.group (digits tables.toUnicodeTables)).ends ⟨some '[', number ++ ']' :: tail,
        c.groups⟩ :=
    ⟨_, List.mem_map.mpr ⟨_, hdigits, rfl⟩⟩
  have hinner := List.mem_flatMap.mpr ⟨_, hgroup, hclose groups⟩
  exact List.ne_nil_of_mem (List.mem_flatMap.mpr ⟨_, hopen, hinner⟩)

theorem match?_citationPattern (hapart : MarkersApart tables) (before : Option Char)
    (rest : List Char) : (citationPattern tables).match? before rest =
      (markerHere tables rest).map fun number => ⟨number.length + 2, [number]⟩ := by
  unfold Pattern.match?
  cases hends : ((citationPattern tables).ends ⟨before, rest, []⟩).head? with
  | none =>
    cases hhere : markerHere tables rest with
    | none => rfl
    | some number =>
      obtain ⟨hne, hnumber, tail, hrest⟩ := (markerHere_eq_some hapart).mp hhere
      exact absurd (List.head?_eq_none_iff.mp hends)
        (exists_mem_ends_citationPattern hne hnumber hrest)
  | some d =>
    obtain ⟨number, hne, hnumber, hrest, hgroups⟩ :=
      mem_ends_citationPattern (List.mem_of_head? hends)
    have hrest : rest = '[' :: number ++ ']' :: d.rest := hrest
    have hhere : markerHere tables rest = some number :=
      (markerHere_eq_some hapart).mpr ⟨hne, hnumber, d.rest, hrest⟩
    rw [hhere, Option.map_some, Option.map_some, hgroups, hrest]
    simp only [List.cons_append, List.length_cons, List.length_append, List.nil_append,
      Option.some.injEq, Match.mk.injEq, and_true]
    omega

theorem findFrom_citationPattern (hapart : MarkersApart tables) (before : Option Char)
    (pos skip : Nat) (rest : List Char) :
    ((citationPattern tables).findFrom before pos skip rest).map (fun m => m.groups.headD []) =
      markersOf tables (rest.drop skip) := by
  induction rest generalizing before pos skip with
  | nil => simp [Pattern.findFrom, markersOf]
  | cons a rest ih =>
    cases skip with
    | succ skip =>
      rw [Pattern.findFrom, ih]
      rfl
    | zero =>
      rw [Pattern.findFrom, match?_citationPattern hapart, List.drop_zero, markersOf]
      cases hhere : markerHere tables (a :: rest) with
      | none =>
        simp only [Option.map_none]
        rw [ih]
        rfl
      | some number =>
        obtain ⟨hne, hnumber, tail, hrest⟩ := (markerHere_eq_some hapart).mp hhere
        rw [List.cons_append] at hrest
        obtain ⟨-, rfl⟩ := List.cons.inj hrest
        -- in the rest of the marker no other one starts
        have hskip : (number ++ ']' :: tail).drop (number.length + 2 - 1) = tail := by
          rw [show number.length + 2 - 1 = number.length + 1 by omega, List.drop_append]
          simp
        have hinside : markersOf tables (number ++ ']' :: tail) = markersOf tables tail := by
          rw [markersOf_append_of_ne fun c hc => ne_bracket_of_digit hapart (hnumber c hc),
            markersOf_cons_of_ne (by decide)]
        simp only [Option.map_some]
        rw [if_neg (by omega), List.map_cons, ih, hskip, hinside]
        rfl

theorem markerTexts_eq (hapart : MarkersApart tables) (text : List Char) :
    markerTexts tables text = markersOf tables text := by
  unfold markerTexts Pattern.findAll
  rw [List.take_length, List.drop_zero, findFrom_citationPattern hapart, List.drop_zero]

/-! ### What is parsed -/

theorem stripped_isInfix (text : List Char) : strip text <:+: text := by
  have hinner :=
    ((text.dropWhile fun c => isPySpace c).reverse.dropWhile_suffix fun c => isPySpace c)
  have hdropped : strip text <+: text.dropWhile fun c => isPySpace c := by
    rw [← List.reverse_suffix]
    simpa [strip, stripBy] using hinner
  exact hdropped.isInfix.trans (List.dropWhile_suffix _).isInfix

theorem markerHere_append (hapart : MarkersApart tables) (back : List Char) {number : List Char}
    (h : markerHere tables front = some number) :
    markerHere tables (front ++ back) = some number := by
  obtain ⟨hne, hnumber, tail, rfl⟩ := (markerHere_eq_some hapart).mp h
  refine (markerHere_eq_some hapart).mpr ⟨hne, hnumber, tail ++ back, ?_⟩
  rw [List.append_assoc]
  rfl

/-- A part of a text without markers has none. -/
theorem markersOf_infix (hapart : MarkersApart tables) (h : markersOf tables text = [])
    {part : List Char} (hpart : part <:+: text) : markersOf tables part = [] := by
  obtain ⟨before, after, rfl⟩ := hpart
  have hpart : markersOf tables (part ++ after) = [] := by
    rw [List.append_assoc] at h
    induction before with
    | nil => exact h
    | cons c before ih =>
      rw [List.cons_append, markersOf] at h
      exact ih (List.append_eq_nil_iff.mp h).2
  clear h
  induction part with
  | nil => rfl
  | cons c part ih =>
    rw [List.cons_append, markersOf] at hpart
    obtain ⟨hhere, hrest⟩ := List.append_eq_nil_iff.mp hpart
    have hnone : markerHere tables (c :: part) = none := by
      by_contra hsome
      obtain ⟨number, hnumber⟩ := Option.ne_none_iff_exists'.mp hsome
      have := markerHere_append hapart after hnumber
      rw [List.cons_append] at this
      rw [this] at hhere
      cases hhere
    rw [markersOf, hnone, ih hrest]
    rfl

/-- A claim that was parsed: its text holds no marker, and its positions are in range. -/
structure WellParsed (tables : TextTables) (evidenceCount : Nat) (claim : GeneratedClaim) :
    Prop where
  unmarked : markersOf tables claim.text = []
  cites : claim.citationIds ≠ []
  range : ∀ position ∈ claim.citationIds, 1 ≤ position ∧ position ≤ evidenceCount

theorem mem_sortedSet {position : Int} {positions : List Int} :
    position ∈ sortedSet positions ↔ position ∈ positions := by
  unfold sortedSet
  rw [List.mem_insertionSort, List.mem_dedup]

theorem parseClaim_spec (hapart : MarkersApart tables) {count : Nat} {value : JsonValue}
    {claim : GeneratedClaim} (h : parseClaim tables count value = .ok claim) :
    WellParsed tables count claim := by
  unfold parseClaim at h
  split at h
  · rename_i members
    split_ifs at h
    split at h
    · rename_i text citationIds htext hids
      simp only [Bool.or_eq_true] at h
      split_ifs at h with hcontent hrange
      cases h
      simp only [not_or, decide_eq_true_eq, Bool.not_eq_true', List.isEmpty_iff,
        List.isEmpty_eq_false_iff] at hcontent
      obtain ⟨⟨⟨⟨-, -⟩, hmarkers⟩, hcited⟩, hints⟩ := hcontent
      refine ⟨?_, ?_, fun position hposition => ?_⟩
      · rw [not_not, markerTexts_eq hapart] at hmarkers
        exact markersOf_infix hapart hmarkers (stripped_isInfix _)
      · rw [not_not] at hints
        have hpos : 0 < (citationIds.filterMap exactInt?).length :=
          hints ▸ List.length_pos_iff.mpr hcited
        obtain ⟨position, hposition⟩ := List.exists_mem_of_length_pos hpos
        exact List.ne_nil_of_mem (mem_sortedSet.mpr hposition)
      · have := List.any_eq_false.mp (Bool.eq_false_iff.mpr hrange) position hposition
        simp only [Bool.or_eq_true, decide_eq_true_eq, not_or] at this
        omega
    · cases h
  · cases h

theorem parseClaims_spec (hapart : MarkersApart tables) {count : Nat} {payload : JsonValue}
    {claims : List GeneratedClaim} (h : parseClaims tables count payload = .ok claims) :
    claims ≠ [] ∧ ∀ claim ∈ claims, WellParsed tables count claim := by
  unfold parseClaims at h
  split at h
  · split_ifs at h
    split at h
    · rename_i values _
      simp only [Bool.or_eq_true] at h
      split_ifs at h with hlength
      simp only [not_or, List.isEmpty_iff] at hlength
      constructor
      · rintro rfl
        exact hlength.1 (List.forall₂_nil_right_iff.mp (mapM_eq_ok.mp h))
      · intro claim hclaim
        obtain ⟨value, -, hvalue⟩ := exists_of_mapM_ok h hclaim
        exact parseClaim_spec hapart hvalue
    · cases h
  · cases h

/-! ### What is rendered -/

/-- The digits of a position. -/
def positionText (position : Int) : List Char := (toString position).toList

/-- A position in brackets. -/
def marker (position : Int) : List Char := '[' :: positionText position ++ [']']

/-- The line of a claim. -/
def line (claim : GeneratedClaim) : List Char :=
  claim.text ++ ' ' :: claim.citationIds.flatMap marker

/-- A position that `str` and `int` accept. -/
def Printable (position : Int) : Prop := (Nat.toDigits 10 position.natAbs).length ≤ 4300

theorem intText_eq_ok {position : Int} {text : List Char} : PyObject.intText position = .ok text ↔
    Printable position ∧ text = positionText position := by
  unfold PyObject.intText Printable positionText
  split_ifs with hlong
  · simp [hlong]
  · simp [Nat.not_lt.mp hlong, eq_comm]

/-- Where each result is a function of its element, so are all. -/
theorem eq_map_of_forall₂ {α β : Type} {R : α → β → Prop} {g : α → β} {P : α → Prop}
    (hstep : ∀ x y, R x y → y = g x ∧ P x) {xs : List α} {ys : List β} (h : List.Forall₂ R xs ys) :
    ys = xs.map g ∧ ∀ x ∈ xs, P x := by
  induction h with
  | nil => exact ⟨rfl, by simp⟩
  | cons hfirst _ ih =>
    obtain ⟨rfl, hx⟩ := hstep _ _ hfirst
    exact ⟨congrArg _ ih.1, List.forall_mem_cons.mpr ⟨hx, ih.2⟩⟩

theorem renderClaim_ok {claim : GeneratedClaim} {text : List Char}
    (h : renderClaim claim.toObject = .ok text) :
    text = line claim ∧ ∀ position ∈ claim.citationIds, Printable position := by
  have hitems : (PyObject.ofPositions claim.citationIds).items =
      .ok (claim.citationIds.map PyObject.ofInt) := rfl
  have hrender : renderClaim claim.toObject = (do
      let markers ← (claim.citationIds.map PyObject.ofInt).mapM fun position => do
        let number ← position.format
        .ok ('[' :: number ++ [']'])
      .ok (claim.text ++ ' ' :: markers.flatten)) := rfl
  rw [hrender] at h
  obtain ⟨markers, hmarkers, htext⟩ := bind_eq_ok.mp h
  obtain rfl := Except.ok.inj htext
  obtain ⟨rfl, hprintable⟩ : markers = claim.citationIds.map marker ∧
      ∀ position ∈ claim.citationIds, Printable position := by
    refine eq_map_of_forall₂ (fun position text h => ?_)
      (List.forall₂_map_left_iff.mp (mapM_eq_ok.mp hmarkers))
    obtain ⟨number, hnumber, htext⟩ := bind_eq_ok.mp h
    obtain rfl := Except.ok.inj htext
    obtain ⟨hprintable, rfl⟩ := intText_eq_ok.mp hnumber
    exact ⟨rfl, hprintable⟩
  exact ⟨rfl, hprintable⟩

theorem renderClaims_ok {claims : List GeneratedClaim} {answer : List Char}
    (h : renderClaims (claims.map GeneratedClaim.toObject) = .ok answer) :
    answer = ['\n'].intercalate (claims.map line) ∧ ∀ claim ∈ claims,
      ∀ position ∈ claim.citationIds, Printable position := by
  obtain ⟨rendered, hrendered, h⟩ := bind_eq_ok.mp h
  simp only at h
  split_ifs at h
  obtain rfl := Except.ok.inj h
  obtain ⟨rfl, hprintable⟩ := eq_map_of_forall₂ (fun claim text h => renderClaim_ok h)
    (List.forall₂_map_left_iff.mp (mapM_eq_ok.mp hrendered))
  exact ⟨rfl, hprintable⟩

/-! ### The round trip -/

theorem positionText_eq {position : Int} (h : 1 ≤ position) :
    positionText position = Nat.toDigits 10 position.toNat := by
  obtain ⟨n, rfl⟩ := Int.eq_ofNat_of_zero_le (Int.le_trans (by decide) h)
  exact Nat.toList_repr

theorem positionText_digits (hapart : MarkersApart tables) {position : Int} (h : 1 ≤ position) :
    positionText position ≠ [] ∧ ∀ c ∈ positionText position,
      isDigit tables.toUnicodeTables c = true := by
  rw [positionText_eq h]
  refine ⟨Nat.toDigits_ne_nil, fun c hc => ?_⟩
  have hdecimal := hapart.digits c (Nat.isDigit_of_mem_toDigits (by decide) (by decide) hc)
  unfold isDigit
  rw [hdecimal]
  rfl

theorem markersOf_markers (hapart : MarkersApart tables) {positions : List Int}
    (h : ∀ position ∈ positions, 1 ≤ position) :
    markersOf tables (positions.flatMap marker) = positions.map positionText := by
  induction positions with
  | nil => rfl
  | cons position positions ih =>
    obtain ⟨hpositive, hrest⟩ := List.forall_mem_cons.mp h
    obtain ⟨hne, hdigits⟩ := positionText_digits hapart hpositive
    have hsplit : marker position ++ positions.flatMap marker =
        '[' :: positionText position ++ ']' :: positions.flatMap marker := by
      unfold marker
      rw [List.append_assoc]
      rfl
    rw [List.flatMap_cons, hsplit, markersOf_marker hapart hne hdigits, ih hrest, List.map_cons]

theorem markersOf_line (hapart : MarkersApart tables) {count : Nat} {claim : GeneratedClaim}
    (h : WellParsed tables count claim) :
    markersOf tables (line claim) = claim.citationIds.map positionText := by
  unfold line
  rw [markersOf_append hapart (by decide), h.unmarked, List.nil_append,
    markersOf_markers hapart fun position hposition => (h.range position hposition).1]

/-- The positions that the claims cite, in their order. -/
def citedBy (claims : List GeneratedClaim) : List Int := claims.flatMap (·.citationIds)

/-- The markers of the answer are those of its claims, in their order. -/
theorem markersOf_answer (hapart : MarkersApart tables) {count : Nat} {claims : List GeneratedClaim}
    (h : ∀ claim ∈ claims, WellParsed tables count claim) :
    markersOf tables (['\n'].intercalate (claims.map line)) =
      (citedBy claims).map positionText := by
  unfold citedBy
  induction claims with
  | nil => rfl
  | cons claim claims ih =>
    obtain ⟨hclaim, hrest⟩ := List.forall_mem_cons.mp h
    rw [List.flatMap_cons, List.map_append, ← markersOf_line hapart hclaim]
    cases claims with
    | nil => simp [List.intercalate]
    | cons next claims =>
      have hjoin : ['\n'].intercalate ((claim :: next :: claims).map line) =
          line claim ++ '\n' :: ['\n'].intercalate ((next :: claims).map line) := by
        simp [List.intercalate]
      rw [hjoin, markersOf_append hapart (by decide), ih hrest]

theorem readPosition_positionText (hapart : MarkersApart tables) {position : Int} (h : 1 ≤ position)
    (hprintable : Printable position) :
    readPosition tables (positionText position) = .ok position.toNat := by
  have htext := positionText_eq h
  have hvalue : ∀ {cs : List Char} {value : Nat}, (∀ c ∈ cs, c.isDigit = true) →
      cs.foldl (fun n c => 10 * n + (tables.decimal c).getD 0) value =
        Nat.ofDigitChars 10 cs value := by
    intro cs
    induction cs with
    | nil => exact fun _ => rfl
    | cons c cs ih =>
      intro value hcs
      obtain ⟨hc, hcs⟩ := List.forall_mem_cons.mp hcs
      rw [List.foldl_cons, hapart.digits c hc, Nat.ofDigitChars_cons, ih hcs]
      rfl
  have hlength : ¬4300 < (positionText position).length := by
    rw [htext]
    unfold Printable at hprintable
    rw [show position.natAbs = position.toNat by omega] at hprintable
    omega
  unfold readPosition
  rw [if_neg hlength, htext, intOf, hvalue fun c hc => Nat.isDigit_of_mem_toDigits (by decide)
    (by decide) hc, Nat.ofDigitChars_ten_toDigits]

theorem sortedSet_toNat {positions : List Int} (h : ∀ position ∈ positions, 1 ≤ position) :
    ((positions.map Int.toNat).dedup.insertionSort (· ≤ ·)).map Int.ofNat =
      sortedSet positions := by
  have hsame : (positions.map Int.toNat).map Int.ofNat = positions := by
    rw [List.map_map]
    refine (List.map_congr_left fun position hposition => ?_).trans (List.map_id _)
    have := h position hposition
    exact Int.toNat_of_nonneg (by omega)
  unfold sortedSet
  rw [List.map_insertionSort (· ≤ ·) (· ≤ ·) Int.ofNat _ fun a _ b _ => Int.ofNat_le.symm,
    ← List.dedup_map_of_injective fun a b h => Int.ofNat.inj h, hsame]

/-- What is rendered from parsed claims is read back: the markers are those of the claims, in their
order, and the positions are the sorted union of the cited ones. -/
theorem citations_round_trip (hapart : MarkersApart tables) {payload : JsonValue}
    {evidenceCount : Nat} {claims : List GeneratedClaim} {answer : List Char}
    (hparse : parseClaims tables evidenceCount payload = .ok claims)
    (hrender : renderClaims (claims.map GeneratedClaim.toObject) = .ok answer) :
    markerTexts tables answer = (citedBy claims).map positionText ∧
      ∃ positions, validatedCitationPositions tables answer evidenceCount = .ok positions ∧
        positions.map Int.ofNat = sortedSet (citedBy claims) := by
  obtain ⟨hne, hparsed⟩ := parseClaims_spec hapart hparse
  obtain ⟨rfl, hprintable⟩ := renderClaims_ok hrender
  have hmarkers : markerTexts tables (['\n'].intercalate (claims.map line)) =
      (citedBy claims).map positionText := by
    rw [markerTexts_eq hapart, markersOf_answer hapart hparsed]
  have hrange : ∀ position ∈ citedBy claims, 1 ≤ position ∧ position ≤ (evidenceCount : Int) := by
    intro position hposition
    obtain ⟨claim, hclaim, hposition⟩ := List.mem_flatMap.mp hposition
    exact (hparsed claim hclaim).range position hposition
  have hread : ((citedBy claims).map positionText).mapM (readPosition tables) =
      .ok ((citedBy claims).map Int.toNat) := by
    rw [mapM_eq_ok, List.forall₂_map_left_iff, List.forall₂_map_right_iff, List.forall₂_same]
    intro position hposition
    obtain ⟨claim, hclaim, hcited⟩ := List.mem_flatMap.mp hposition
    exact readPosition_positionText hapart (hrange position hposition).1
      (hprintable claim hclaim position hcited)
  refine ⟨hmarkers, _, ?_, sortedSet_toNat fun position hposition => (hrange position hposition).1⟩
  have hnonempty : (citedBy claims) ≠ [] := by
    obtain ⟨claim, hclaim⟩ := List.exists_mem_of_ne_nil _ hne
    obtain ⟨position, hposition⟩ := List.exists_mem_of_ne_nil _ (hparsed claim hclaim).cites
    exact List.ne_nil_of_mem (List.mem_flatMap.mpr ⟨claim, hclaim, hposition⟩)
  unfold validatedCitationPositions
  rw [hmarkers, hread]
  have hany : (((citedBy claims).map Int.toNat).any fun position =>
      decide (position < 1) || decide (evidenceCount < position)) = false := by
    rw [List.any_eq_false]
    intro n hn
    obtain ⟨position, hposition, rfl⟩ := List.mem_map.mp hn
    have := hrange position hposition
    simp only [Bool.or_eq_true, decide_eq_true_eq, not_or]
    omega
  simp only [bind, Except.bind, hany, List.isEmpty_iff, List.map_eq_nil_iff, hnonempty, if_false,
    Bool.false_eq_true]

theorem asciiText_apart : MarkersApart asciiText :=
  ⟨asciiTables_readsAsciiDigits, by simp [asciiText, asciiTables]⟩

/-- A claim that ends as a marker begins. -/
def bracketPayload : JsonValue :=
  .object [("claims",
    .array [.object [("text", .str " see [1"), ("citation_ids", .array [.int 2, .int 1, .int 2])],
      .object [("text", .str "2] as above"), ("citation_ids", .array [.int 3])]])]

theorem citations_round_trip_bracket :
    markerTexts asciiText "see [1 [1][2]\n2] as above [3]".toList = [['1'], ['2'], ['3']] ∧
    ∃ positions,
      validatedCitationPositions asciiText "see [1 [1][2]\n2] as above [3]".toList 3 =
        .ok positions ∧
      positions.map Int.ofNat = sortedSet [1, 2, 3] := by
  have hparse : parseClaims asciiText 3 bracketPayload =
      .ok [⟨"see [1".toList, [1, 2]⟩, ⟨"2] as above".toList, [3]⟩] := by rfl
  exact citations_round_trip asciiText_apart hparse (by rfl)

end ZhiyanRag.Rag
