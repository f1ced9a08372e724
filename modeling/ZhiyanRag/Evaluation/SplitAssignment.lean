import Mathlib.Algebra.Order.BigOperators.Group.List
import Mathlib.Algebra.Order.Field.Rat
import ZhiyanRag.Evaluation.LeakageGroups

/-!
# Splits of the leakage groups

`assign_group_splits` of `build_assisted_formal_corpus.py`: groups of several candidates go where
they fit, the largest first, and single candidates stay in the split of their slot while it has
room. What is placed and what remains always add up to the targets (`Placed`), so the last places
are exactly filled.
-/

namespace ZhiyanRag.Evaluation

/-- `SPLIT_TARGETS`. -/
def splitTargets : List (String × Int) := [("dev", 300), ("test", 100), ("acceptance", 100)]

/-- `SPLIT_PRIORITY`. -/
def splitPriorities : List (String × Nat) := [("dev", 2), ("test", 1), ("acceptance", 0)]

def splitTarget (split : String) : Int := (splitTargets.lookup split).getD 0

def splitPriority (split : String) : Nat := (splitPriorities.lookup split).getD 0

/-- `max(values, key=...)`, where `less` compares the keys: the first of the largest. -/
def firstMax {α : Type} (less : α → α → Bool) : List α → Option α
  | [] => none
  | x :: rest => some (rest.foldl (fun best y => if less best y then y else best) x)

/-- `remaining` and `assignments`, two dictionaries. -/
structure SplitState (count : Nat) where
  remaining : List (String × Int)
  assignments : List (Fin count × String)

/-- `assignments[index] = split`. -/
def putSplit {count : Nat} (split : String) (index : Fin count) :
    List (Fin count × String) → List (Fin count × String)
  | [] => [(index, split)]
  | (other, old) :: rest => if other = index then (other, split) :: rest else (other, old) ::
      putSplit split index rest

/-- Each index of the group gets the split, whose places become fewer. -/
def SplitState.place {count : Nat} (group : List (Fin count)) (split : String)
    (state : SplitState count) : SplitState count where
  remaining := state.remaining.map fun entry => if entry.1 = split
    then (entry.1, entry.2 - group.length) else entry
  assignments := group.foldl (fun assignments index => putSplit split index assignments)
    state.assignments

section

variable (rows : List CandidateSlot)

/-- Sorted by `(-len(group), min(slot_id))`. -/
def multiGroups (groups : List (List (Fin rows.length))) : List (List (Fin rows.length)) :=
  (groups.filter fun group => decide (1 < group.length)).insertionSort fun group other =>
    other.length < group.length ∨
      (group.length = other.length ∧ minSlotId rows group ≤ minSlotId rows other)

def singletonGroups (groups : List (List (Fin rows.length))) : List (Fin rows.length) :=
  (groups.filterMap fun
    | [index] => some index
    | _ => none).insertionSort fun index other => (rows.get index).slotId ≤ (rows.get other).slotId

/-- How many of the group were in the split. -/
def originalCount (group : List (Fin rows.length)) (split : String) : Nat :=
  group.countP fun index => decide ((rows.get index).split = split)

/-- By the original members, then the share of the places left, then the priority. -/
def groupLess (group : List (Fin rows.length)) (entry other : String × Int) : Bool :=
  let count := originalCount rows group entry.1
  let count' := originalCount rows group other.1
  let share := (entry.2 : Rat) / splitTarget entry.1
  let share' := (other.2 : Rat) / splitTarget other.1
  decide (count < count' ∨
    (count = count' ∧
      (share < share' ∨ (share = share' ∧ splitPriority entry.1 < splitPriority other.1))))

def placeGroup (state : SplitState rows.length) (group : List (Fin rows.length)) :
    Except PyError (SplitState rows.length) :=
  match firstMax (groupLess rows group)
    (state.remaining.filter fun entry => decide ((group.length : Int) ≤ entry.2)) with
  | none => .error ⟨.valueError, "cannot assign a leakage group within split capacities"⟩
  | some (chosen, _) => .ok (state.place group chosen)

/-- The split with the most places left. -/
def roomiest (remaining : List (String × Int)) : Option (String × Int) :=
  firstMax (fun entry other => decide (entry.2 < other.2 ∨
    (entry.2 = other.2 ∧ splitPriority entry.1 < splitPriority other.1))) remaining

def placeSingle (state : SplitState rows.length) (index : Fin rows.length) :
    Except PyError (SplitState rows.length) :=
  let original := (rows.get index).split
  match state.remaining.lookup original with
  | none => .error ⟨.lookupError, original⟩
  | some left =>
    match if 0 < left then some (original, left) else roomiest state.remaining with
    | none => .error ⟨.valueError, "max() arg is an empty sequence"⟩
    | some (chosen, left) =>
      if left ≤ 0 then .error ⟨.valueError, "cannot complete exact split allocation"⟩
      else .ok (state.place [index] chosen)

/-- The text of the dictionary. -/
def remainingText (remaining : List (String × Int)) : String :=
  "\x7b" ++ ", ".intercalate (remaining.map fun entry => "'" ++ entry.1 ++ "': " ++ entry.2.repr) ++
    "\x7d"

def assignGroupSplits (groups : List (List (Fin rows.length))) :
    Except PyError (List (Fin rows.length × String)) :=
  if rows.length ≠ (groups.map List.length).sum then
    .error ⟨.valueError, "leakage groups do not cover each candidate exactly once"⟩
  else do
    let state ← (multiGroups rows groups).foldlM (placeGroup rows)
      { remaining := splitTargets, assignments := [] }
    let state ← (singletonGroups rows groups).foldlM (placeSingle rows) state
    if state.remaining.any fun entry => decide (entry.2 ≠ 0) then
      .error ⟨.valueError, "split allocation did not fill targets: " ++
        remainingText state.remaining⟩
    else .ok state.assignments

end

/-! ### The largest -/

section

variable {α : Type} {less : α → α → Bool} {xs : List α} {best : α}

theorem firstMax_mem (h : firstMax less xs = some best) : best ∈ xs := by
  cases xs with
  | nil => cases h
  | cons x rest =>
    obtain rfl := Option.some.inj h
    clear h
    induction rest generalizing x with
    | nil => exact List.mem_singleton_self x
    | cons y rest ih =>
      rw [List.foldl_cons]
      split_ifs
      · exact List.mem_cons_of_mem _ (ih y)
      · rcases List.mem_cons.mp (ih x) with heq | hmem
        · rw [heq]
          exact List.mem_cons_self
        · exact List.mem_cons_of_mem _ (List.mem_cons_of_mem _ hmem)

theorem firstMax_eq_none (h : firstMax less xs = none) : xs = [] := by
  cases xs with
  | nil => rfl
  | cons => cases h

/-- The largest element has the largest value of what the comparison respects. -/
theorem le_firstMax {f : α → Int} (hless : ∀ x y, less x y = true → f x ≤ f y)
    (hnot : ∀ x y, less x y = false → f y ≤ f x) (h : firstMax less xs = some best) :
    ∀ y ∈ xs, f y ≤ f best := by
  cases xs with
  | nil => cases h
  | cons x rest =>
    obtain rfl := Option.some.inj h
    clear h
    induction rest generalizing x with
    | nil => exact fun y hy => (List.mem_singleton.mp hy) ▸ le_refl _
    | cons z rest ih =>
      intro y hy
      rw [List.foldl_cons]
      cases hcompare : less x z with
      | true =>
        have hrest := ih z
        rcases List.mem_cons.mp hy with rfl | hy
        · exact (hless _ _ hcompare).trans (hrest z List.mem_cons_self)
        · exact hrest y hy
      | false =>
        have hrest := ih x
        rcases List.mem_cons.mp hy with rfl | hy
        · exact hrest y List.mem_cons_self
        · rcases List.mem_cons.mp hy with rfl | hy
          · exact (hnot _ _ hcompare).trans (hrest x List.mem_cons_self)
          · exact hrest y (List.mem_cons_of_mem _ hy)

end

/-! ### What is placed -/

section

variable {count : Nat} {placed : List (List (Fin count) × String)} {state : SplitState count}
  {group : List (Fin count)} {split : String}

/-- How many candidates went to a split. -/
def placedIn (placed : List (List (Fin count) × String)) (split : String) : Int :=
  ((placed.filter fun entry => decide (entry.2 = split)).map
    fun entry => (entry.1.length : Int)).sum

/-- The state after these groups were placed. -/
structure Placed (placed : List (List (Fin count) × String)) (state : SplitState count) : Prop where
  assignments : state.assignments = placed.flatMap fun entry => entry.1.map fun index =>
    (index, entry.2)
  remaining : state.remaining = splitTargets.map fun target =>
    (target.1, target.2 - placedIn placed target.1)
  known : ∀ entry ∈ placed, entry.2 ∈ splitTargets.map (·.1)
  room : ∀ entry ∈ state.remaining, 0 ≤ entry.2

theorem putSplit_of_notMem {index : Fin count} {assignments : List (Fin count × String)}
    (h : index ∉ assignments.map (·.1)) :
    putSplit split index assignments = assignments ++ [(index, split)] := by
  induction assignments with
  | nil => rfl
  | cons entry rest ih =>
    obtain ⟨other, old⟩ := entry
    obtain ⟨hother, hrest⟩ := not_or.mp (List.mem_cons.not.mp h)
    unfold putSplit
    rw [if_neg (Ne.symm hother), ih hrest]
    rfl

theorem foldl_putSplit {assignments : List (Fin count × String)} (hnodup : group.Nodup)
    (hfresh : ∀ index ∈ group, index ∉ assignments.map (·.1)) :
    group.foldl (fun assignments index => putSplit split index assignments) assignments =
      assignments ++ group.map fun index => (index, split) := by
  induction group generalizing assignments with
  | nil => exact (List.append_nil _).symm
  | cons index rest ih =>
    obtain ⟨hindex, hrest⟩ := List.nodup_cons.mp hnodup
    rw [List.foldl_cons, putSplit_of_notMem (hfresh index List.mem_cons_self), ih hrest,
      List.append_assoc]
    · rfl
    · intro other hother hmem
      rw [List.map_append, List.mem_append] at hmem
      rcases hmem with hmem | hmem
      · exact hfresh other (List.mem_cons_of_mem _ hother) hmem
      · have heq : other = index := List.mem_singleton.mp hmem
        exact hindex (heq ▸ hother)

theorem placedIn_append (placed : List (List (Fin count) × String)) (group : List (Fin count))
    (chosen split : String) :
    placedIn (placed ++ [(group, chosen)]) split = placedIn placed split + if chosen = split
      then (group.length : Int) else 0 := by
  unfold placedIn
  rw [List.filter_append, List.map_append, List.sum_append]
  by_cases h : chosen = split <;> simp [h]

/-- The keys of the assignments are the placed indices. -/
theorem Placed.keys (h : Placed placed state) :
    state.assignments.map (·.1) = (placed.map (·.1)).flatten := by
  rw [h.assignments]
  simp only [List.map_flatMap, List.map_map, Function.comp_def, List.map_id']
  exact List.flatMap_def

/-- Placing a fresh group where there is room. -/
theorem Placed.place (h : Placed placed state) {left : Int}
    (hchosen : (split, left) ∈ state.remaining) (hroom : group.length ≤ left) (hnodup : group.Nodup)
    (hfresh : ∀ index ∈ group, index ∉ (placed.map (·.1)).flatten) :
    Placed (placed ++ [(group, split)]) (state.place group split) where
  assignments := by
    show group.foldl _ state.assignments = _
    rw [foldl_putSplit hnodup fun index hindex => h.keys ▸ hfresh index hindex, h.assignments,
      List.flatMap_append]
    simp
  remaining := by
    show state.remaining.map _ = _
    rw [h.remaining, List.map_map]
    refine List.map_congr_left fun target _ => ?_
    rw [placedIn_append]
    by_cases heq : target.1 = split
    · simp [heq]
      omega
    · simp [heq, Ne.symm heq]
  known := by
    intro entry hentry
    rcases List.mem_append.mp hentry with hentry | hentry
    · exact h.known entry hentry
    · rw [List.mem_singleton.mp hentry]
      rw [h.remaining] at hchosen
      obtain ⟨target, htarget, heq⟩ := List.mem_map.mp hchosen
      exact List.mem_map.mpr ⟨target, htarget, congrArg Prod.fst heq⟩
  room := by
    intro entry hentry
    obtain ⟨old, hold, rfl⟩ := List.mem_map.mp hentry
    have hpositive := h.room old hold
    split_ifs with heq
    · have hkeys : (state.remaining.map (·.1)).Nodup := by
        rw [h.remaining, List.map_map]
        exact (by decide : (splitTargets.map (·.1)).Nodup)
      have hsame : old = (split, left) := List.inj_on_of_nodup_map hkeys hold hchosen heq
      show 0 ≤ old.2 - group.length
      rw [hsame]
      exact Int.sub_nonneg_of_le hroom
    · exact hpositive

/-- What remains are the places of the candidates that are not placed. -/
theorem Placed.sum_remaining (h : Placed placed state) :
    (state.remaining.map (·.2)).sum = 500 - ((placed.map (·.1)).flatten.length : Int) := by
  have hsum : placedIn placed "dev" + placedIn placed "test" + placedIn placed "acceptance" =
      ((placed.map (·.1)).flatten.length : Int) := by
    have hknown := h.known
    clear h
    induction placed using List.reverseRecOn with
    | nil => rfl
    | append_singleton placed entry ih =>
      obtain ⟨group, chosen⟩ := entry
      have hrest := ih fun entry hentry => hknown entry (List.mem_append_left _ hentry)
      have hchosen : chosen = "dev" ∨ chosen = "test" ∨ chosen = "acceptance" := by
        simpa [splitTargets] using hknown (group, chosen)
          (List.mem_append_right _ (List.mem_singleton_self _))
      have hlast : (([(group, chosen)].map (·.1)).flatten.length : Int) = group.length := by simp
      rw [placedIn_append, placedIn_append, placedIn_append, List.map_append, List.flatten_append,
        List.length_append, Nat.cast_add, hlast]
      rcases hchosen with rfl | rfl | rfl <;>
        simp only [String.reduceEq, if_true, if_false] <;> omega
  rw [h.remaining]
  simp only [splitTargets, List.map_cons, List.map_nil, List.sum_cons, List.sum_nil]
  omega

end

/-! ### The two loops -/

section

variable {rows : List CandidateSlot} {placed : List (List (Fin rows.length) × String)}
  {state : SplitState rows.length} {groups : List (List (Fin rows.length))}

/-- The key of the dictionary of remaining places is one of the three splits. -/
theorem Placed.mem_keys (h : Placed placed state) {entry : String × Int}
    (hentry : entry ∈ state.remaining) : entry.1 ∈ splitTargets.map (·.1) := by
  rw [h.remaining] at hentry
  obtain ⟨target, htarget, rfl⟩ := List.mem_map.mp hentry
  exact List.mem_map.mpr ⟨target, htarget, rfl⟩

theorem Placed.exists_entry (h : Placed placed state) {split : String}
    (hsplit : split ∈ splitTargets.map (·.1)) : ∃ left, state.remaining.lookup split = some left ∧
    (split, left) ∈ state.remaining := by
  rw [h.remaining]
  simp only [splitTargets, List.map_cons, List.map_nil, List.mem_cons, List.not_mem_nil, or_false]
    at hsplit
  rcases hsplit with rfl | rfl | rfl <;> simp [splitTargets, List.lookup_cons]

theorem Placed.lookup_none (h : Placed placed state) {split : String}
    (hsplit : split ∉ splitTargets.map (·.1)) : state.remaining.lookup split = none := by
  refine List.lookup_eq_none_iff.mpr fun entry hentry => ?_
  exact bne_iff_ne.mpr fun heq => hsplit (heq ▸ h.mem_keys hentry)

/-- The group goes to a split where it fits, if there is one. -/
theorem placeGroup_spec (h : Placed placed state) {group : List (Fin rows.length)}
    (hnodup : group.Nodup) (hfresh : ∀ index ∈ group, index ∉ (placed.map (·.1)).flatten) :
    (∃ split state', placeGroup rows state group = .ok state' ∧
      Placed (placed ++ [(group, split)]) state') ∨
      ((∀ entry ∈ state.remaining, entry.2 < group.length) ∧
        placeGroup rows state group =
          .error ⟨.valueError, "cannot assign a leakage group within split capacities"⟩) := by
  cases hchosen :
    firstMax (groupLess rows group)
      (state.remaining.filter fun entry => decide ((group.length : Int) ≤ entry.2)) with
  | none =>
    refine .inr ⟨fun entry hentry => ?_, by simp only [placeGroup, hchosen]⟩
    have hempty := List.filter_eq_nil_iff.mp (firstMax_eq_none hchosen) entry hentry
    rw [decide_eq_true_eq] at hempty
    omega
  | some entry =>
    obtain ⟨split, left⟩ := entry
    obtain ⟨hmem, hroom⟩ := List.mem_filter.mp (firstMax_mem hchosen)
    exact .inl ⟨split, _, by simp only [placeGroup, hchosen],
      h.place hmem (of_decide_eq_true hroom) hnodup hfresh⟩

/-- While a candidate is not placed, some split has a place, and the roomiest has one. -/
theorem Placed.roomiest_spec (h : Placed placed state)
    (hroom : (placed.map (·.1)).flatten.length < 500) :
    ∃ split left, roomiest state.remaining = some (split, left) ∧ (split, left) ∈ state.remaining ∧
    0 < left := by
  cases hchosen : roomiest state.remaining with
  | none =>
    have hempty := firstMax_eq_none hchosen
    rw [h.remaining] at hempty
    exact absurd hempty (List.cons_ne_nil _ _)
  | some entry =>
    obtain ⟨split, left⟩ := entry
    refine ⟨split, left, rfl, firstMax_mem hchosen, ?_⟩
    by_contra hnone
    have hzero : ∀ count ∈ state.remaining.map (·.2), count ≤ 0 := by
      intro count hcount
      obtain ⟨entry, hentry, rfl⟩ := List.mem_map.mp hcount
      have hle : entry.2 ≤ left := le_firstMax (f := fun entry => entry.2) (fun x y h => by
          rw [decide_eq_true_eq] at h
          omega) (fun x y h => by
          rw [decide_eq_false_iff_not] at h
          omega) hchosen entry hentry
      exact hle.trans (not_lt.mp hnone)
    have hsum := List.sum_le_card_nsmul _ 0 hzero
    rw [h.sum_remaining, nsmul_zero] at hsum
    omega

theorem placeSingle_spec (h : Placed placed state) {index : Fin rows.length}
    (hfresh : index ∉ (placed.map (·.1)).flatten)
    (hroom : (placed.map (·.1)).flatten.length < 500) :
    ((rows.get index).split ∈ splitTargets.map (·.1) ∧
        ∃ split state', placeSingle rows state index = .ok state' ∧
        Placed (placed ++ [([index], split)]) state') ∨
      ((rows.get index).split ∉ splitTargets.map (·.1) ∧
        placeSingle rows state index = .error ⟨.lookupError, (rows.get index).split⟩) := by
  have hplace : ∀ {split left}, (split, left) ∈ state.remaining → 0 < left →
      Placed (placed ++ [([index], split)]) (state.place [index] split) := fun hmem hleft =>
    h.place hmem (Int.add_one_le_of_lt hleft) (List.nodup_singleton index) fun other hother =>
      (List.mem_singleton.mp hother).symm ▸ hfresh
  by_cases hsplit : (rows.get index).split ∈ splitTargets.map (·.1)
  · refine .inl ⟨hsplit, ?_⟩
    obtain ⟨left, hlookup, hmem⟩ := h.exists_entry hsplit
    by_cases hleft : 0 < left
    · refine ⟨_, _, ?_, hplace hmem hleft⟩
      simp only [placeSingle, hlookup, if_pos hleft, if_neg hleft.not_ge]
    · obtain ⟨split, most, hroomiest, hmost, hpositive⟩ := h.roomiest_spec hroom
      refine ⟨_, _, ?_, hplace hmost hpositive⟩
      simp only [placeSingle, hlookup, if_neg hleft, hroomiest, if_neg hpositive.not_ge]
  · exact .inr ⟨hsplit, by simp only [placeSingle, h.lookup_none hsplit]⟩

/-- A group that fits in no split when its turn comes. -/
def DoesNotFit (groups : List (List (Fin rows.length))) (state : SplitState rows.length) : Prop :=
  ∃ before group after state', groups = before ++ group :: after ∧
    before.foldlM (placeGroup rows) state = .ok state' ∧ ∀ entry ∈ state'.remaining,
      entry.2 < group.length

theorem placeGroups_spec (groups : List (List (Fin rows.length))) (h : Placed placed state)
    (hnodup : ((placed.map (·.1)).flatten ++ groups.flatten).Nodup) :
    (∃ more state', groups.foldlM (placeGroup rows) state = .ok state' ∧ more.map (·.1) = groups ∧
      Placed (placed ++ more) state') ∨ (DoesNotFit groups state ∧
        groups.foldlM (placeGroup rows) state =
          .error ⟨.valueError, "cannot assign a leakage group within split capacities"⟩) := by
  induction groups generalizing placed state with
  | nil => exact .inl ⟨[], state, rfl, rfl, by simpa using h⟩
  | cons group rest ih =>
    rw [List.flatten_cons, ← List.append_assoc] at hnodup
    have hsplit := List.nodup_append.mp (List.nodup_append.mp hnodup).1
    have hfresh : ∀ index ∈ group, index ∉ (placed.map (·.1)).flatten := fun index hindex hmem =>
      hsplit.2.2 index hmem index hindex rfl
    rcases placeGroup_spec h hsplit.2.1 hfresh with ⟨split, next, hnext, hplaced⟩ | ⟨hfull, herror⟩
    · have hkeys : ((placed ++ [(group, split)]).map (·.1)).flatten = (placed.map (·.1)).flatten ++
          group := by simp
      rw [List.foldlM_cons, hnext]
      rcases ih hplaced (hkeys ▸ hnodup) with ⟨more, state', hrest, hmore,
        hplaced'⟩ | ⟨⟨before, other, after, state', hsplitAt, hbefore, hfull⟩, herror⟩
      · refine .inl ⟨(group, split) :: more, state', hrest, by rw [List.map_cons, hmore], ?_⟩
        rw [List.append_assoc] at hplaced'
        exact hplaced'
      · refine .inr ⟨⟨group :: before, other, after, state', by rw [hsplitAt]; rfl, ?_,
          hfull⟩, herror⟩
        rw [List.foldlM_cons, hnext]
        exact hbefore
    · refine .inr ⟨⟨[], group, rest, state, rfl, rfl, hfull⟩, ?_⟩
      rw [List.foldlM_cons, herror]
      rfl

theorem placeSingles_spec (indices : List (Fin rows.length)) (h : Placed placed state)
    (hnodup : ((placed.map (·.1)).flatten ++ indices).Nodup)
    (hlength : (placed.map (·.1)).flatten.length + indices.length = 500) :
    ((∀ index ∈ indices, (rows.get index).split ∈ splitTargets.map (·.1)) ∧ ∃ more state',
        indices.foldlM (placeSingle rows) state = .ok state' ∧ more.map (·.1) = indices.map ([·]) ∧
        Placed (placed ++ more) state') ∨
      ∃ index ∈ indices, (rows.get index).split ∉ splitTargets.map (·.1) ∧
        indices.foldlM (placeSingle rows) state =
          .error ⟨.lookupError, (rows.get index).split⟩ := by
  induction indices generalizing placed state with
  | nil =>
    exact .inl ⟨fun index hindex => absurd hindex List.not_mem_nil, [], state, rfl, rfl,
      by simpa using h⟩
  | cons index rest ih =>
    have hfresh : index ∉ (placed.map (·.1)).flatten := fun hmem =>
      (List.nodup_append.mp hnodup).2.2 index hmem index List.mem_cons_self rfl
    rw [List.length_cons] at hlength
    rcases placeSingle_spec h hfresh (by omega)
      with ⟨hknown, split, next, hnext, hplaced⟩ | ⟨hunknown, herror⟩
    · have hkeys : ((placed ++ [([index], split)]).map (·.1)).flatten =
          (placed.map (·.1)).flatten ++ [index] := by simp
      rw [List.foldlM_cons, hnext]
      have hnodup' : (((placed ++ [([index], split)]).map (·.1)).flatten ++ rest).Nodup := by
        rw [hkeys, List.append_assoc]
        exact hnodup
      have hlength' : ((placed ++ [([index], split)]).map (·.1)).flatten.length + rest.length =
          500 := by
        rw [hkeys, List.length_append, List.length_singleton]
        omega
      rcases ih hplaced hnodup' hlength' with ⟨hall, more, state', hrest, hmore, hplaced'⟩ | ⟨other,
        hother, hunknown, herror⟩
      · refine .inl ⟨List.forall_mem_cons.mpr ⟨hknown, hall⟩, ([index], split) :: more, state',
          hrest, ?_, ?_⟩
        · rw [List.map_cons, hmore, List.map_cons]
        · rw [List.append_assoc] at hplaced'
          exact hplaced'
      · exact .inr ⟨other, List.mem_cons_of_mem _ hother, hunknown, herror⟩
    · refine .inr ⟨index, List.mem_cons_self, hunknown, ?_⟩
      rw [List.foldlM_cons, herror]
      rfl

/-! ### All groups -/

theorem mem_multiGroups {group : List (Fin rows.length)} :
    group ∈ multiGroups rows groups ↔ group ∈ groups ∧ 1 < group.length := by
  unfold multiGroups
  rw [List.mem_insertionSort, List.mem_filter, decide_eq_true_eq]

theorem mem_singletonGroups {index : Fin rows.length} :
    index ∈ singletonGroups rows groups ↔ [index] ∈ groups := by
  unfold singletonGroups
  rw [List.mem_insertionSort, List.mem_filterMap]
  refine ⟨fun ⟨group, hgroup, heq⟩ => ?_, fun h => ⟨[index], h, rfl⟩⟩
  match group, heq with
  | [_], heq => exact Option.some.inj heq ▸ hgroup

/-- Every candidate is in a group of several or alone. -/
theorem placingOrder_perm (hnonempty : ∀ group ∈ groups, group ≠ []) :
    ((multiGroups rows groups).flatten ++ singletonGroups rows groups).Perm groups.flatten := by
  have hsorted : ((multiGroups rows groups).flatten ++ singletonGroups rows groups).Perm
      ((groups.filter fun group => decide (1 < group.length)).flatten ++ groups.filterMap fun
        | [index] => some index
        | _ => none) :=
    (List.perm_insertionSort _ _).flatten.append (List.perm_insertionSort _ _)
  refine hsorted.trans ?_
  clear hsorted
  induction groups with
  | nil => exact .refl _
  | cons group rest ih =>
    have hrest := ih fun group hgroup => hnonempty group (List.mem_cons_of_mem _ hgroup)
    match group with
    | [] => exact absurd rfl (hnonempty [] List.mem_cons_self)
    | [index] =>
      rw [List.filter_cons_of_neg (by simp), List.filterMap_cons, List.flatten_cons]
      exact List.perm_middle.trans (hrest.cons index)
    | index :: other :: others =>
      rw [List.filter_cons_of_pos (by simp), List.filterMap_cons, List.flatten_cons,
        List.flatten_cons, List.append_assoc]
      exact hrest.append_left _

/-- Each candidate has one split, the splits have their sizes and no group is divided. -/
structure GoodSplits (rows : List CandidateSlot) (groups : List (List (Fin rows.length)))
    (assignments : List (Fin rows.length × String)) : Prop where
  total : (assignments.map (·.1)).Perm (List.finRange rows.length)
  sizes : ∀ target ∈ splitTargets,
    (assignments.countP fun entry => decide (entry.2 = target.1) : Int) = target.2
  together : ∀ group ∈ groups, ∃ split, ∀ index ∈ group, (index, split) ∈ assignments
  singlesKnown : ∀ index, [index] ∈ groups → (rows.get index).split ∈ splitTargets.map (·.1)

/-- How `assign_group_splits` ends on a partition of 500 candidates. -/
def AssignmentOutcome (rows : List CandidateSlot) (groups : List (List (Fin rows.length))) : Prop :=
  (DoesNotFit (multiGroups rows groups) { remaining := splitTargets, assignments := [] } ∧
      assignGroupSplits rows groups = .error ⟨.valueError,
        "cannot assign a leakage group within split capacities"⟩) ∨
    (∃ index, [index] ∈ groups ∧ (rows.get index).split ∉ splitTargets.map (·.1) ∧
      assignGroupSplits rows groups = .error ⟨.lookupError, (rows.get index).split⟩) ∨
    ∃ assignments, assignGroupSplits rows groups = .ok assignments ∧
    GoodSplits rows groups assignments

theorem Placed.countP_assignments (h : Placed placed state) (split : String) :
    (state.assignments.countP fun entry => decide (entry.2 = split) : Int) =
      placedIn placed split := by
  rw [h.assignments]
  clear h
  induction placed using List.reverseRecOn with
  | nil => rfl
  | append_singleton placed entry ih =>
    obtain ⟨group, chosen⟩ := entry
    rw [List.flatMap_append, List.countP_append, Nat.cast_add, ih, placedIn_append]
    by_cases heq : chosen = split <;> simp [heq, List.countP_eq_zero]

/-- With all candidates placed no place is left. -/
theorem Placed.full (h : Placed placed state) (hall : (placed.map (·.1)).flatten.length = 500) :
    ∀ entry ∈ state.remaining, entry.2 = 0 := by
  intro entry hentry
  have hsum := h.sum_remaining
  rw [hall] at hsum
  have hle := List.single_le_sum (l := state.remaining.map (·.2))
    (fun left hleft => by
      obtain ⟨entry, hentry, rfl⟩ := List.mem_map.mp hleft
      exact h.room entry hentry) entry.2 (List.mem_map.mpr ⟨entry, hentry, rfl⟩)
  have := h.room entry hentry
  omega

theorem assignGroupSplits_outcome (hcount : rows.length = 500)
    (hpartition : groups.flatten.Perm (List.finRange rows.length))
    (hnonempty : ∀ group ∈ groups, group ≠ []) : AssignmentOutcome rows groups := by
  have horder := (placingOrder_perm hnonempty).trans hpartition
  have hnodup : ((multiGroups rows groups).flatten ++ singletonGroups rows groups).Nodup :=
    horder.nodup_iff.mpr (List.nodup_finRange rows.length)
  have hlength : ((multiGroups rows groups).flatten ++ singletonGroups rows groups).length =
      500 := by
    rw [horder.length_eq, List.length_finRange, hcount]
  have hcover : ¬rows.length ≠ (groups.map List.length).sum := by
    rw [← List.length_flatten, hpartition.length_eq, List.length_finRange]
    exact not_not.mpr rfl
  have hstart : Placed ([] : List (List (Fin rows.length) × String))
      { remaining := splitTargets, assignments := [] } :=
    ⟨rfl, rfl, fun entry hentry => absurd hentry List.not_mem_nil, by simp [splitTargets]⟩
  rw [List.length_append] at hlength
  rcases placeGroups_spec (multiGroups rows groups) hstart (List.nodup_append.mp hnodup).1 with
    ⟨placed, state, hmulti, hplaced, hstate⟩ | ⟨hfull, herror⟩
  · rw [List.nil_append] at hstate
    rcases placeSingles_spec (singletonGroups rows groups) hstate (hplaced.symm ▸ hnodup)
      (hplaced.symm ▸ hlength) with
      ⟨hknown, more, final, hsingles, hmore, hfinal⟩ | ⟨index, hindex, hunknown, herror⟩
    · have hall : ((placed ++ more).map (·.1)).flatten = (multiGroups rows groups).flatten ++
          singletonGroups rows groups := by
        rw [List.map_append, List.flatten_append, hplaced, hmore, ← List.flatMap_def,
          List.flatMap_singleton']
      have hfull := hfinal.full (by rw [hall, List.length_append, hlength])
      refine .inr (.inr ⟨final.assignments, ?_, ?_, fun target htarget => ?_,
        fun group hgroup => ?_, fun index hindex => ?_⟩)
      · unfold assignGroupSplits
        rw [if_neg hcover, hmulti]
        refine bind_eq_ok.mpr ⟨state, rfl, bind_eq_ok.mpr ⟨final, hsingles, ?_⟩⟩
        rw [if_neg (by simpa using fun split left hentry => hfull (split, left) hentry)]
      · rw [hfinal.keys, hall]
        exact horder
      · have hzero := hfull (target.1, target.2 - placedIn (placed ++ more) target.1)
          (hfinal.remaining ▸ List.mem_map.mpr ⟨target, htarget, rfl⟩)
        rw [hfinal.countP_assignments]
        omega
      · obtain ⟨entry, hentry, rfl⟩ : ∃ entry ∈ placed ++ more, entry.1 = group := by
          by_cases hlarge : 1 < group.length
          · obtain ⟨entry, hentry, heq⟩ :=
              List.mem_map.mp (hplaced.symm ▸ mem_multiGroups.mpr ⟨hgroup, hlarge⟩ :
              group ∈ placed.map (·.1))
            exact ⟨entry, List.mem_append_left _ hentry, heq⟩
          · obtain ⟨index, rfl⟩ : ∃ index, group = [index] := by
              have := List.length_pos_iff.mpr (hnonempty group hgroup)
              exact List.length_eq_one_iff.mp (by omega)
            obtain ⟨entry, hentry, heq⟩ := List.mem_map.mp (hmore.symm ▸
              List.mem_map.mpr ⟨index, mem_singletonGroups.mpr hgroup, rfl⟩ : [index] ∈
                more.map (·.1))
            exact ⟨entry, List.mem_append_right _ hentry, heq⟩
        refine ⟨entry.2, fun index hindex => ?_⟩
        rw [hfinal.assignments]
        exact List.mem_flatMap.mpr ⟨entry, hentry, List.mem_map.mpr ⟨index, hindex, rfl⟩⟩
      · exact hknown index (mem_singletonGroups.mpr hindex)
    · refine .inr (.inl ⟨index, mem_singletonGroups.mp hindex, hunknown, ?_⟩)
      unfold assignGroupSplits
      rw [if_neg hcover, hmulti]
      exact bind_eq_error.mpr (.inr ⟨_, rfl, by rw [herror]; rfl⟩)
  · refine .inl ⟨hfull, ?_⟩
    unfold assignGroupSplits
    rw [if_neg hcover, herror]
    rfl

end

/-! ### Matching candidates share a split -/

section

variable {F : Type} {ar : VectorArithmetic F} {rows : List CandidateSlot}
  {questionVectors answerVectors : List (List F)}

theorem GoodSplits.split_unique {groups : List (List (Fin rows.length))}
    {assignments : List (Fin rows.length × String)} (h : GoodSplits rows groups assignments)
    {index : Fin rows.length} {split other : String} (hsplit : (index, split) ∈ assignments)
    (hother : (index, other) ∈ assignments) : split = other :=
  congrArg Prod.snd (List.inj_on_of_nodup_map (h.total.nodup_iff.mpr (List.nodup_finRange _)) hsplit
    hother rfl)

theorem GoodSplits.matching {groups : List (List (Fin rows.length))}
    {assignments : List (Fin rows.length × String)} (h : GoodSplits rows groups assignments)
    (hgroups : IsGrouping ar rows questionVectors answerVectors groups)
    {left right : Fin rows.length}
    (hmatch : Matches ar rows questionVectors answerVectors left right) {split other : String}
    (hleft : (left, split) ∈ assignments) (hright : (right, other) ∈ assignments) :
    split = other := by
  obtain ⟨group, hgroup, hmem⟩ :=
    List.mem_flatten.mp (hgroups.partition.mem_iff.mpr (List.mem_finRange left))
  have hmem' := (hgroups.components group hgroup left hmem right).mpr (.rel _ _ hmatch)
  obtain ⟨common, hcommon⟩ := h.together group hgroup
  exact (h.split_unique hleft (hcommon left hmem)).trans
    (h.split_unique (hcommon right hmem') hright)

/-- What grouping and assignment do with 500 candidates. -/
structure LeakageSound (ar : VectorArithmetic F) (rows : List CandidateSlot)
    (questionVectors answerVectors : List (List F)) : Prop where
  mismatch : rows.length ≠ questionVectors.length ∨ rows.length ≠ answerVectors.length → ∀ fuel,
    groupCandidates ar rows questionVectors answerVectors fuel =
      some (.error ⟨.valueError, "candidate and embedding counts do not match"⟩)
  symmetric : ∀ left right, Matches ar rows questionVectors answerVectors left right →
    Matches ar rows questionVectors answerVectors right left
  grouped : rows.length = questionVectors.length → rows.length = answerVectors.length → ∃ grouping,
    (∀ fuel, rows.length ≤ fuel →
      groupCandidates ar rows questionVectors answerVectors fuel = some (.ok grouping)) ∧
    IsGrouping ar rows questionVectors answerVectors grouping.groups ∧
    (∀ rows' questionVectors' answerVectors', rows'.length = questionVectors'.length →
      rows'.length = answerVectors'.length →
      (rows'.zip (questionVectors'.zip answerVectors')).Perm
        (rows.zip (questionVectors.zip answerVectors)) → ∃ grouping',
        (∀ fuel, rows'.length ≤ fuel →
          groupCandidates ar rows' questionVectors' answerVectors' fuel = some (.ok grouping')) ∧
          slotClasses rows' grouping'.groups = slotClasses rows grouping.groups) ∧
    AssignmentOutcome rows grouping.groups ∧
    ∀ assignments, assignGroupSplits rows grouping.groups = .ok assignments →
      ∀ left right, Matches ar rows questionVectors answerVectors left right →
        ∀ split other, (left, split) ∈ assignments → (right, other) ∈ assignments → split = other

/-- The groups are the connected components in any order of the rows, and an assignment keeps each
group in one split. -/
theorem leakageGroups_sound (ar : VectorArithmetic F) (rows : List CandidateSlot)
    (questionVectors answerVectors : List (List F))
    (hcount : rows.length = 500) (hunique : (rows.map (·.slotId)).Nodup) :
    LeakageSound ar rows questionVectors answerVectors where
  mismatch := fun h fuel => by
    unfold groupCandidates
    rw [if_pos h]
  symmetric := fun _ _ h => h.symm
  grouped := by
    intro hquestions hanswers
    obtain ⟨grouping, hrun, hgroups⟩ := groupCandidates_spec ar hquestions hanswers
    have houtcome := assignGroupSplits_outcome hcount hgroups.partition hgroups.nonempty
    refine ⟨grouping, hrun, hgroups, ?_, houtcome, ?_⟩
    · intro rows' questionVectors' answerVectors' hquestions' hanswers' hperm
      obtain ⟨grouping', hrun', hgroups'⟩ := groupCandidates_spec ar hquestions' hanswers'
      exact ⟨grouping', hrun', slotClasses_perm hquestions hanswers hunique hquestions' hanswers'
        hperm hgroups hgroups'⟩
    · intro assignments hassign left right hmatch split other hleft hright
      rcases houtcome with ⟨-, herror⟩ | ⟨_, -, -, herror⟩ | ⟨_, hassign', hgood⟩
      · exact nomatch hassign.symm.trans herror
      · exact nomatch hassign.symm.trans herror
      · cases hassign.symm.trans hassign'
        exact hgood.matching hgroups hmatch hleft hright

end

/-! ### Candidates of one split -/

/-- Exact arithmetic; no pair of zero vectors is rounded. -/
def exactArithmetic : VectorArithmetic Rat where
  mul := (· * ·)
  mul_comm := mul_comm
  sum := List.sum
  atLeast := fun value threshold => decide (threshold ≤ value)
  round6 := id

/-- 500 candidates without sources, all in one split. -/
def numberedRows (split : String) : List CandidateSlot := (List.range 500).map fun i =>
  { slotId := String.ofList (Nat.toDigits 10 i), split, answerability := "ANSWERABLE",
    sourceDocumentIds := [], sourceChunkIds := [] }

def zeroVectors : List (List Rat) := List.replicate 500 [0]

theorem numberedRows_length (split : String) : (numberedRows split).length = 500 := by
  unfold numberedRows
  rw [List.length_map, List.length_range]

theorem numberedRows_unique (split : String) : ((numberedRows split).map (·.slotId)).Nodup := by
  unfold numberedRows
  rw [List.map_map]
  refine List.nodup_range.map fun i j h => ?_
  have hdigits := String.ofList_injective h
  rw [← Nat.ofDigitChars_ten_toDigits (n := i), hdigits, Nat.ofDigitChars_ten_toDigits]

/-- The first two questions are the same. -/
def pairedVectors : List (List Rat) := [1] :: [1] :: List.replicate 498 [0]

theorem leakageGroups_sound_numbered :
    (∃ left right, left ≠ right ∧
      Matches exactArithmetic (numberedRows "dev") pairedVectors zeroVectors left right) ∧
    LeakageSound exactArithmetic (numberedRows "dev") pairedVectors zeroVectors := by
  refine ⟨⟨⟨0, by rw [numberedRows_length]; decide⟩, ⟨1, by rw [numberedRows_length]; decide⟩,
    ?_, ?_⟩, leakageGroups_sound exactArithmetic (numberedRows "dev") pairedVectors zeroVectors
      (numberedRows_length "dev") (numberedRows_unique "dev")⟩
  · exact fun h => absurd (congrArg Fin.val h) (by decide)
  · have hsame :
        exactArithmetic.atLeast (cosine exactArithmetic [1] [1]) questionSimilarityThreshold =
          true := by
      decide +kernel
    unfold Matches pairReason questionSimilarity pairedVectors matchReason
    rw [List.getD_cons_zero, List.getD_cons_succ, List.getD_cons_zero, if_pos hsame]
    rfl

theorem numberedRows_noMatch (split : String) (left right : Fin (numberedRows split).length) :
    ¬Matches exactArithmetic (numberedRows split) zeroVectors zeroVectors left right := by
  have hvector : ∀ index : Fin (numberedRows split).length, zeroVectors.getD index [] =
      [0] := fun index => by
    have hindex : (index : Nat) < (List.replicate 500 ([0] : List Rat)).length := by
      rw [List.length_replicate, ← numberedRows_length split]
      exact index.isLt
    unfold zeroVectors
    rw [List.getD_eq_getElem _ _ hindex, List.getElem_replicate]
  have hsources : ∀ index : Fin (numberedRows split).length,
      ((numberedRows split).get index).sourceChunkIds = [] ∧
      ((numberedRows split).get index).sourceDocumentIds = [] := fun index => by
    obtain ⟨i, -, heq⟩ := List.mem_map.mp (List.get_mem (numberedRows split) index)
    rw [← heq]
    exact ⟨rfl, rfl⟩
  have hlow : exactArithmetic.atLeast (cosine exactArithmetic [0] [0]) questionSimilarityThreshold =
      false := by decide +kernel
  unfold Matches pairReason questionSimilarity answerSimilarity matchReason
  rw [hvector, hvector, (hsources left).1, (hsources left).2]
  simp [hlow, shares]

/-- A single candidate whose slot is in no target split has no place in `remaining`. -/
theorem online_candidates_rejected : ∃ grouping,
    groupCandidates exactArithmetic (numberedRows "online_hard_cases") zeroVectors zeroVectors 500 =
      some (.ok grouping) ∧
      assignGroupSplits (numberedRows "online_hard_cases") grouping.groups =
        .error ⟨.lookupError, "online_hard_cases"⟩ := by
  have hlength := numberedRows_length "online_hard_cases"
  have hvectors : (numberedRows "online_hard_cases").length = zeroVectors.length :=
    hlength.trans List.length_replicate.symm
  obtain ⟨grouping, hrun, hgroups⟩ := groupCandidates_spec exactArithmetic hvectors hvectors
  have hsplit : ∀ index, ((numberedRows "online_hard_cases").get index).split =
      "online_hard_cases" := fun index => by
    obtain ⟨i, -, heq⟩ := List.mem_map.mp (List.get_mem (numberedRows "online_hard_cases") index)
    rw [← heq]
  have hsingle : ∀ group ∈ grouping.groups, ∃ index, group = [index] := by
    intro group hgroup
    obtain ⟨first, hfirst⟩ := List.exists_mem_of_ne_nil group (hgroups.nonempty group hgroup)
    have hlone : ∀ {i j},
        Relation.EqvGen (Matches exactArithmetic (numberedRows "online_hard_cases") zeroVectors
          zeroVectors) i j → i = j := by
      intro i j h
      induction h with
      | rel i j hmatch => exact absurd hmatch (numberedRows_noMatch _ i j)
      | refl => rfl
      | symm _ _ _ ih => exact ih.symm
      | trans _ _ _ _ _ ih ih' => exact ih.trans ih'
    have hnodup : group.Nodup :=
      (List.nodup_flatten.mp (hgroups.partition.nodup_iff.mpr (List.nodup_finRange _))).1
        group hgroup
    refine ⟨first,
      List.perm_singleton.mp ((List.perm_ext_iff_of_nodup hnodup (List.nodup_singleton first)).mpr
        fun index => ?_)⟩
    rw [hgroups.components group hgroup first hfirst index, List.mem_singleton]
    exact ⟨fun h => (hlone h).symm, fun h => h ▸ .refl _⟩
  refine ⟨grouping, hrun 500 (le_of_eq hlength), ?_⟩
  rcases assignGroupSplits_outcome hlength hgroups.partition hgroups.nonempty with
    ⟨⟨before, group, after, _, horder, -⟩, -⟩ | ⟨index, -, -, herror⟩ | ⟨_, -, hgood⟩
  · obtain ⟨hgroup, hlarge⟩ :=
      mem_multiGroups.mp (horder ▸ List.mem_append_right before List.mem_cons_self : group ∈
        multiGroups _ grouping.groups)
    obtain ⟨index, rfl⟩ := hsingle group hgroup
    exact absurd hlarge (by simp)
  · rw [herror, hsplit]
  · obtain ⟨group, hgroup, -⟩ :=
      List.mem_flatten.mp
        (hgroups.partition.mem_iff.mpr (List.mem_finRange ⟨0, by rw [hlength]; decide⟩))
    obtain ⟨index, rfl⟩ := hsingle group hgroup
    have hknown := hgood.singlesKnown index hgroup
    rw [hsplit] at hknown
    exact absurd hknown (by decide)

end ZhiyanRag.Evaluation
