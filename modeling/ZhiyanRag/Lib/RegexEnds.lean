import ZhiyanRag.Lib.Regex

/-!
# What a cursor depends on

A cursor after a match remembers the last symbol used up (`Pattern.ends_before`), and the groups
before it change nothing (`Pattern.ends_prepend`). An optional part tries its body first
(`Pattern.ends_optional`), and in front of a part that cannot fail the preferred way is taken
(`Pattern.head?_seq`).
-/

namespace Regex

universe u

variable {α : Type u}

/-- The symbols between two cursors, and the one before the second. -/
def Reads (c : Cursor α) (run : List α) (d : Cursor α) : Prop :=
  c.rest = run ++ d.rest ∧ d.before = run.getLast?.or c.before

theorem Reads.refl (c : Cursor α) : Reads c [] c := ⟨rfl, rfl⟩

theorem Reads.trans {c d e : Cursor α} {front back : List α} (h : Reads c front d)
    (h' : Reads d back e) : Reads c (front ++ back) e := by
  obtain ⟨hrest, hbefore⟩ := h
  obtain ⟨hrest', hbefore'⟩ := h'
  refine ⟨by rw [hrest, hrest', List.append_assoc], ?_⟩
  rw [hbefore', hbefore, List.getLast?_append, Option.or_assoc]

theorem repeatedEnds_reads {p : α → Prop} {body : Cursor α → List (Cursor α)}
    (hbody : ∀ c, ∀ d ∈ body c, ∃ run, Reads c run d ∧ ∀ a ∈ run, p a) {fuel least : Nat}
    {most : Option Nat}
    {c d : Cursor α} (h : d ∈ repeatedEnds body fuel least most c) :
    ∃ run, Reads c run d ∧ ∀ a ∈ run, p a := by
  induction fuel generalizing least most c with
  | zero =>
    unfold repeatedEnds at h
    split at h
    · rw [List.mem_singleton.mp h]
      exact ⟨[], Reads.refl c, by rintro a ⟨⟩⟩
    · cases h
  | succ fuel ih =>
    unfold repeatedEnds at h
    rcases List.mem_append.mp h with h | h
    · split at h
      · cases h
      · obtain ⟨e, he, hd⟩ := List.mem_flatMap.mp h
        obtain ⟨front, hfront, hp⟩ := hbody c e (List.mem_filter.mp he).1
        obtain ⟨back, hback, hp'⟩ := ih hd
        exact ⟨front ++ back, hfront.trans hback, List.forall_mem_append.mpr ⟨hp, hp'⟩⟩
    · split at h
      · rw [List.mem_singleton.mp h]
        exact ⟨[], Reads.refl c, by rintro a ⟨⟩⟩
      · cases h

/-- A cursor with other groups in front. -/
def Cursor.prepend (groups : List (List α)) (c : Cursor α) : Cursor α :=
  ⟨c.before, c.rest, groups ++ c.groups⟩

theorem repeatedEnds_prepend {body : Cursor α → List (Cursor α)} {groups : List (List α)}
    (hbody : ∀ c : Cursor α, body (c.prepend groups) = (body c).map (Cursor.prepend groups))
    {fuel least : Nat}
    {most : Option Nat} {c : Cursor α} :
    repeatedEnds body fuel least most (c.prepend groups) =
      (repeatedEnds body fuel least most c).map (Cursor.prepend groups) := by
  induction fuel generalizing least most c with
  | zero =>
    unfold repeatedEnds
    split <;> rfl
  | succ fuel ih =>
    unfold repeatedEnds
    have hlast : (if least = 0 then [c.prepend groups] else []) =
        (if least = 0 then [c] else []).map (Cursor.prepend groups) := by split <;> rfl
    rw [List.map_append, hlast]
    congr 1
    split
    · rfl
    · rw [hbody, List.filter_map, List.flatMap_map, List.map_flatMap]
      exact congrArg (fun f => List.flatMap f _) (funext fun d => ih)

/-- Of two matches the first ends before the second starts. -/
theorem Chain.stop_le {lo hi : Nat} {ms : List (Found α)} {a b : Found α} (h : Chain lo ms hi)
    (ha : a ∈ ms) (hb : b ∈ ms) (hlt : a.start < b.start) : a.stop ≤ b.start := by
  induction ms generalizing lo with
  | nil => cases ha
  | cons m ms ih =>
    obtain ⟨hlo, hlength, hrest⟩ := h
    rcases List.mem_cons.mp ha with rfl | ha'
    · rcases List.mem_cons.mp hb with rfl | hb'
      · omega
      · exact (hrest.bounds hb').1
    · rcases List.mem_cons.mp hb with rfl | hb'
      · have hstart := (hrest.bounds ha').1
        have hstop : b.stop = b.start + b.length := rfl
        omega
      · exact ih hrest ha' hb'

namespace Pattern

variable {r s : Pattern α}

/-- All symbols that the pattern can use up have the property. -/
def Over (p : α → Prop) : Pattern α → Prop
  | empty | assert _ => True
  | char q => ∀ a, q a = true → p a
  | seq r s | alt r s => r.Over p ∧ s.Over p
  | group r | repeated _ _ r => r.Over p

/-- The text between the cursors is used up, and its last symbol is before the second. -/
theorem ends_over {p : α → Prop} (hr : r.Over p) {c d : Cursor α} (h : d ∈ r.ends c) :
    ∃ run, Reads c run d ∧ ∀ a ∈ run, p a := by
  induction r generalizing c d with
  | empty =>
    rw [List.mem_singleton.mp h]
    exact ⟨[], Reads.refl c, by rintro a ⟨⟩⟩
  | char q =>
    obtain ⟨a, rest, hrest, ha, rfl⟩ := mem_ends_char.mp h
    exact ⟨[a], ⟨hrest, rfl⟩, fun b hb => List.mem_singleton.mp hb ▸ hr a ha⟩
  | assert q =>
    unfold ends at h
    split at h
    · rw [List.mem_singleton.mp h]
      exact ⟨[], Reads.refl c, by rintro a ⟨⟩⟩
    · cases h
  | seq r s ihr ihs =>
    obtain ⟨e, he, hd⟩ := List.mem_flatMap.mp h
    obtain ⟨front, hfront, hp⟩ := ihr hr.1 he
    obtain ⟨back, hback, hp'⟩ := ihs hr.2 hd
    exact ⟨front ++ back, hfront.trans hback, List.forall_mem_append.mpr ⟨hp, hp'⟩⟩
  | alt r s ihr ihs => exact (List.mem_append.mp h).elim (ihr hr.1) (ihs hr.2)
  | group r ih =>
    obtain ⟨e, he, rfl⟩ := List.mem_map.mp h
    obtain ⟨run, hread, hp⟩ := ih hr he
    exact ⟨run, ⟨hread.1, hread.2⟩, hp⟩
  | repeated least most r ih => exact repeatedEnds_reads (fun _ _ hd => ih hr hd) h

theorem over_true (r : Pattern α) : r.Over fun _ => True := by
  induction r with
  | empty => exact trivial
  | char q => exact fun _ _ => trivial
  | assert q => exact trivial
  | seq r s ihr ihs => exact ⟨ihr, ihs⟩
  | alt r s ihr ihs => exact ⟨ihr, ihs⟩
  | group r ih => exact ih
  | repeated least most r ih => exact ih

theorem ends_reads {c d : Cursor α} (h : d ∈ r.ends c) : ∃ run, Reads c run d := by
  obtain ⟨run, hread, -⟩ := ends_over (over_true r) h
  exact ⟨run, hread⟩

theorem over_oneOf {p : α → Prop} {rs : List (Pattern α)} (h : ∀ r ∈ rs, r.Over p) :
    (oneOf rs).Over p := by
  induction rs with
  | nil => exact trivial
  | cons r rs ih =>
    cases rs with
    | nil => exact h r List.mem_cons_self
    | cons s rs => exact ⟨h r List.mem_cons_self, ih fun t ht => h t (List.mem_cons_of_mem _ ht)⟩

theorem startsWith_oneOf {p : α → Prop} {rs : List (Pattern α)} (h : ∀ r ∈ rs, StartsWith p r) :
    StartsWith p (oneOf rs) := by
  induction rs with
  | nil => exact fun c d hd => by cases hd
  | cons r rs ih =>
    cases rs with
    | nil => exact h r List.mem_cons_self
    | cons s rs =>
      exact (h r List.mem_cons_self).alt (ih fun t ht => h t (List.mem_cons_of_mem _ ht))

theorem over_literal [DecidableEq α] {p : α → Prop} {word : List α} (h : ∀ a ∈ word, p a) :
    (literal word).Over p := by
  induction word with
  | nil => exact trivial
  | cons a word ih =>
    refine ⟨fun b hb => ?_, ih fun b hb => h b (List.mem_cons_of_mem _ hb)⟩
    rw [of_decide_eq_true hb]
    exact h a List.mem_cons_self

/-- A repeated symbol class can use up all of a run, and goes on behind its last symbol. -/
theorem mem_ends_plus_run {p : α → Bool} {run tail : List α} {c : Cursor α}
    (hrest : c.rest = run ++ tail) (hrun : ∀ a ∈ run, p a = true) (hne : run ≠ []) :
    ⟨run.getLast?, tail, c.groups⟩ ∈ (plus (char p)).ends c := by
  obtain ⟨before, hmem⟩ := exists_mem_ends_plus_char hrest hrun (List.length_pos_of_ne_nil hne)
  obtain ⟨run', hrest', hbefore⟩ := ends_reads hmem
  have hsame : run' = run := List.append_cancel_right (hrest'.symm.trans hrest)
  have hbefore : before = run'.getLast?.or c.before := hbefore
  rw [hsame, List.getLast?_eq_some_getLast hne, Option.some_or] at hbefore
  rw [List.getLast?_eq_some_getLast hne, ← hbefore]
  exact hmem

/-- The groups matched before are carried along. -/
theorem ends_prepend (groups : List (List α)) (c : Cursor α) :
    r.ends (c.prepend groups) = (r.ends c).map (Cursor.prepend groups) := by
  induction r generalizing c with
  | empty => rfl
  | char p =>
    unfold ends Cursor.prepend
    split
    · rename_i hrest
      rw [show c.rest = [] from hrest]
      rfl
    · rename_i a rest hrest
      rw [show c.rest = a :: rest from hrest]
      simp only
      split <;> rfl
  | assert p =>
    unfold ends Cursor.prepend
    simp only
    split <;> rfl
  | seq r s ihr ihs =>
    unfold ends
    rw [ihr, List.flatMap_map, List.map_flatMap]
    exact congrArg (fun f => List.flatMap f _) (funext fun d => ihs d)
  | alt r s ihr ihs =>
    unfold ends
    rw [ihr, ihs, List.map_append]
  | group r ih =>
    unfold ends
    rw [ih, List.map_map, List.map_map]
    refine List.map_congr_left fun d _ => ?_
    show (⟨_, _, _⟩ : Cursor α) = ⟨_, _, _⟩
    simp [Cursor.prepend]
  | repeated least most r ih => exact repeatedEnds_prepend ih

/-- Whether there is a way of matching does not depend on the groups. -/
theorem ends_eq_nil_iff (c : Cursor α) : r.ends c = [] ↔ r.ends ⟨c.before, c.rest, []⟩ = [] := by
  have h := ends_prepend (r := r) c.groups ⟨c.before, c.rest, []⟩
  rw [show (⟨c.before, c.rest, []⟩ : Cursor α).prepend c.groups = c by simp [Cursor.prepend]] at h
  rw [h, List.map_eq_nil_iff]

theorem ends_optional (c : Cursor α) :
    (optional r).ends c = (r.ends c).filter (fun d => decide (d.rest.length < c.rest.length)) ++
      [c] := by
  have honce : ∀ (fuel : Nat) (d : Cursor α), repeatedEnds r.ends fuel 0 (some 0) d = [d] := by
    intro fuel d
    cases fuel <;> rfl
  show repeatedEnds r.ends c.rest.length 0 (some 1) c = _
  cases hlength : c.rest.length with
  | zero =>
    have hnone : (r.ends c).filter (fun d => decide (d.rest.length < 0)) = [] :=
      List.filter_eq_nil_iff.mpr fun d _ => by simp
    rw [hnone]
    rfl
  | succ fuel =>
    unfold repeatedEnds
    rw [if_neg (by decide), if_pos rfl, hlength]
    congr 1
    show List.flatMap (fun d => repeatedEnds r.ends fuel 0 (some 0) d) _ = _
    simp only [honce]
    exact List.flatMap_singleton' _

/-- In front of a part that cannot fail, the preferred way is taken. -/
theorem head?_seq (hs : ∀ c : Cursor α, s.ends c ≠ []) (c : Cursor α) :
    ((seq r s).ends c).head? = (r.ends c).head?.bind fun d => (s.ends d).head? := by
  show ((r.ends c).flatMap s.ends).head? = _
  cases r.ends c with
  | nil => rfl
  | cons d ds =>
    rw [List.flatMap_cons, List.head?_append_of_ne_nil _ (hs d), List.head?_cons, Option.bind_some]

theorem ends_optional_ne_nil (c : Cursor α) : (optional r).ends c ≠ [] := by
  rw [ends_optional]
  exact List.append_ne_nil_of_right_ne_nil _ (List.cons_ne_nil c [])

theorem ends_seq_ne_nil (hr : ∀ c : Cursor α, r.ends c ≠ []) (hs : ∀ c : Cursor α, s.ends c ≠ [])
    (c : Cursor α) : (seq r s).ends c ≠ [] := by
  intro hnil
  obtain ⟨d, ds, hends⟩ := List.exists_cons_of_ne_nil (hr c)
  have hd : s.ends d = [] := List.flatMap_eq_nil_iff.mp hnil d (hends ▸ List.mem_cons_self)
  exact hs d hd

/-- The preferred way through an optional part: that of its body, or none. -/
theorem head?_optional {p : α → Prop} (hr : StartsWith p r) (c : Cursor α) :
    ((optional r).ends c).head? = (r.ends c).head?.or (some c) := by
  have hall : ∀ d ∈ r.ends c, decide (d.rest.length < c.rest.length) = true := by
    intro d hd
    obtain ⟨a, rest, hrest, -, hle⟩ := hr c d hd
    rw [hrest, List.length_cons]
    exact decide_eq_true (Nat.lt_succ_of_le hle)
  rw [ends_optional, List.filter_eq_self.mpr hall, List.head?_append, List.head?_cons]

/-- The preferred match at an offset of a text, and the cursor behind it. -/
theorem matchAt_reads {text : List α} {start : Nat} {m : Match α}
    (h : r.matchAt text start = some m) :
    ∃ d,
      (r.ends ⟨if start = 0 then none else text[start - 1]?, text.drop start, []⟩).head? = some d ∧
      text.drop (start + m.length) = d.rest ∧
      (0 < m.length → d.before = text[start + m.length - 1]?) := by
  obtain ⟨d, hd, rfl⟩ := Option.map_eq_some_iff.mp h
  obtain ⟨run, hrest, hbefore⟩ := ends_reads (List.mem_of_head? hd)
  have hrest : text.drop start = run ++ d.rest := hrest
  have hlength : (text.drop start).length - d.rest.length = run.length := by
    rw [hrest, List.length_append, Nat.add_sub_cancel]
  refine ⟨d, hd, ?_, fun hpos => ?_⟩
  · show text.drop (start + ((text.drop start).length - d.rest.length)) = d.rest
    rw [hlength, ← List.drop_drop, hrest, List.drop_left]
  · show d.before = text[start + ((text.drop start).length - d.rest.length) - 1]?
    have hpos : 0 < (text.drop start).length - d.rest.length := hpos
    rw [hlength] at hpos ⊢
    rw [hbefore, List.getLast?_eq_getElem?, List.getElem?_eq_getElem (by omega), Option.some_or,
      ← List.getElem?_eq_getElem (by omega), show start + run.length - 1 =
        start + (run.length - 1) by omega,
      ← List.getElem?_drop, hrest, List.getElem?_append_left (by omega)]

end Pattern

end Regex
