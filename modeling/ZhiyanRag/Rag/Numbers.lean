import ZhiyanRag.Ingestion.Parser
import ZhiyanRag.Lib.RegexEnds

/-!
# Numbers in claims and evidence

`_NUMBER` and `_NUMBER_WITH_UNIT` of `claim_evidence.py`. Both look at the one character before a
number, so a search that failed at the first digit of a model name goes on at its second
(`numbers_whole_iff`).
-/

namespace ZhiyanRag.Rag

open Regex Ingestion

/-! ### The patterns -/

/-- `[A-Za-z]`, which `re.IGNORECASE` widens by four letters. -/
def isLatinLetter (c : Char) : Bool :=
  (decide ('A' ≤ c) && decide (c ≤ 'Z')) || (decide ('a' ≤ c) && decide (c ≤ 'z')) ||
    decide (c = 'İ') ||
    decide (c = 'ı') || decide (c = 'ſ') || decide (c = Char.ofNat 0x212A)

/-- `[A-Za-z_]`, with `re.IGNORECASE`. -/
def isGuard (c : Char) : Bool := isLatinLetter c || decide (c = '_')

/-- `(?<![A-Za-z_])`. -/
def notAfterGuard : Pattern Char := .assert fun before _ => !before.any isGuard

/-- `[-+]?`. -/
def sign : Pattern Char := .optional (.char fun c => decide (c = '-') || decide (c = '+'))

/-- The units that are written in one way only. -/
def plainUnits : List String := ["%", "％", "周", "星期", "天", "日", "月", "年", "小时", "分钟", "秒"]

/-- The units with an optional plural. -/
def pluralUnits : List String := ["week", "day", "month", "year", "hour", "minute", "second"]

/-- The alternatives of `(?P<unit>…)`. -/
def unitWord : Pattern Char :=
  .oneOf (plainUnits.map literal ++ pluralUnits.map fun word => .seq (caseless word)
    (.optional (.char (anyCase 's'))))

section

variable (unicode : UnicodeTables)

def isDigit (c : Char) : Bool := (unicode.decimal c).isSome

/-- `\d+`. -/
def digits : Pattern Char := .plus (.char (isDigit unicode))

/-- `(?:\.\d+)?`. -/
def fraction : Pattern Char := .optional (.seq (exactly '.') (digits unicode))

/-- `(?:e[-+]?\d+)?`. -/
def exponent : Pattern Char := .optional (.seq (.char (anyCase 'e')) (.seq sign (digits unicode)))

/-- `_NUMBER`. -/
def number : Pattern Char :=
  .seq notAfterGuard (.seq sign (.seq (digits unicode)
    (.seq (fraction unicode) (.seq (exponent unicode) (.optional (exactly '%'))))))

/-- `(?P<value>…)`. -/
def unitValue : Pattern Char := .seq sign (.seq (digits unicode) (fraction unicode))

/-- What follows the value. -/
def unitTail : Pattern Char :=
  .seq (.star space) (.seq (.optional (exactly '-')) (.seq (.star space)
    (.seq (.group unitWord) (.assert fun _ next => !next.any isLatinLetter))))

/-- `_NUMBER_WITH_UNIT`; its groups are the value and the unit. -/
def numberWithUnit : Pattern Char := .seq notAfterGuard (.seq (.group (unitValue unicode)) unitTail)

end

/-! ### Whole numbers -/

/-- The characters of these patterns that are no `\d`: category `Nd` has no letters, signs or units.
-/
def DecimalsApart (unicode : UnicodeTables) : Prop :=
  ∀ c, isGuard c = true ∨ c ∈ "+-.%％周星期天日月年小时分钟秒".toList → isDigit unicode c = false

section

variable {unicode : UnicodeTables} {text : List Char} {i : Nat}

/-- The offset holds a digit. -/
def DigitAt (unicode : UnicodeTables) (text : List Char) (i : Nat) : Prop :=
  text[i]?.any (isDigit unicode) = true

/-- The offset follows a letter or an underscore. -/
def AfterGuard (text : List Char) (i : Nat) : Prop := 0 < i ∧ text[i - 1]?.any isGuard = true

/-- The index of the first digit of a match. -/
def firstDigit (unicode : UnicodeTables) (text : List Char) (m : Found Char) : Nat :=
  m.start + (slice text m.start m.stop).findIdx (isDigit unicode)

/-- Before the first digit of the match there is no ASCII letter, underscore or digit. -/
def Whole (unicode : UnicodeTables) (text : List Char) (m : Found Char) : Prop :=
  0 < firstDigit unicode text m → ∀ c, text[firstDigit unicode text m - 1]? = some c →
    ¬(c.isAlpha = true ∨ c = '_' ∨ isDigit unicode c = true)

theorem isGuard_of_isAlpha {c : Char} (h : c.isAlpha = true ∨ c = '_') : isGuard c = true := by
  unfold isGuard isLatinLetter
  rcases h with h | rfl
  · change (decide ('A' ≤ c ∧ c ≤ 'Z') || (decide ('a' ≤ c) && decide (c ≤ 'z'))) = true at h
    simp only [Bool.or_eq_true, Bool.and_eq_true, decide_eq_true_eq] at h
    simp only [Bool.or_eq_true, Bool.and_eq_true, decide_eq_true_eq]
    tauto
  · decide

theorem ends_notAfterGuard {c d : Cursor Char} :
    d ∈ notAfterGuard.ends c ↔ c.before.any isGuard = false ∧ d = c := by
  unfold notAfterGuard Pattern.ends
  by_cases h : c.before.any isGuard = true
  · simp [h]
  · simp [Bool.not_eq_true _ ▸ h]

/-- A sign, or nothing. -/
theorem ends_sign {c d : Cursor Char} (h : d ∈ sign.ends c) :
    d = c ∨ ∃ a, (a = '-' ∨ a = '+') ∧ c.rest = a :: d.rest ∧ d = ⟨some a, d.rest, c.groups⟩ := by
  unfold sign at h
  rw [Pattern.ends_optional] at h
  rcases List.mem_append.mp h with h | h
  · obtain ⟨a, rest, hrest, ha, rfl⟩ := Pattern.mem_ends_char.mp (List.mem_filter.mp h).1
    rw [Bool.or_eq_true, decide_eq_true_eq, decide_eq_true_eq] at ha
    exact .inr ⟨a, ha, hrest, rfl⟩
  · exact .inl (List.mem_singleton.mp h)

theorem mem_ends_sign (c : Cursor Char) : c ∈ sign.ends c := by
  unfold sign
  rw [Pattern.ends_optional]
  exact List.mem_append_right _ (List.mem_singleton_self c)

/-- What stands where a number starts. -/
theorem ends_signed {r : Pattern Char} {c d : Cursor Char}
    (h : d ∈ (Pattern.seq sign (.seq (digits unicode) r)).ends c) :
    ∃ e, (c = e ∨ ∃ a, (a = '-' ∨ a = '+') ∧ c.rest = a :: e.rest) ∧
      ∃ a run tail, e.rest = a :: run ++ tail ∧ isDigit unicode a = true ∧
        (∀ b ∈ run, isDigit unicode b = true) ∧
        d ∈ r.ends ⟨(a :: run).getLast?, tail, c.groups⟩ := by
  obtain ⟨e, he, hd⟩ := List.mem_flatMap.mp h
  obtain ⟨f, hf, hd⟩ := List.mem_flatMap.mp hd
  obtain ⟨run, hrun, hall, hlength⟩ := Pattern.mem_ends_plus_char hf
  obtain ⟨run', hrest, hbefore⟩ := Pattern.ends_reads hf
  have hsame : run' = run := List.append_cancel_right (hrest.symm.trans hrun)
  have hgroups : f.groups = c.groups := by
    rw [Pattern.ends_groups (r := digits unicode) rfl hf]
    rcases ends_sign he with rfl | ⟨a, -, -, heq⟩
    · rfl
    · rw [heq]
  rw [hsame] at hbefore
  cases run with
  | nil => cases hlength
  | cons a run =>
    have hf : f = ⟨(a :: run).getLast?, f.rest, c.groups⟩ := by
      rw [← hgroups, List.getLast?_eq_some_getLast (List.cons_ne_nil a run)]
      rw [List.getLast?_eq_some_getLast (List.cons_ne_nil a run), Option.some_or] at hbefore
      rw [← hbefore]
    refine ⟨e, ?_, a, run, f.rest, hrun, hall a List.mem_cons_self,
      fun b hb => hall b (List.mem_cons_of_mem _ hb), ?_⟩
    · rcases ends_sign he with rfl | ⟨b, hb, hrest, -⟩
      · exact .inl rfl
      · exact .inr ⟨b, hb, hrest⟩
    · rw [← hf]
      exact hd

/-- A number can start at every run of digits. -/
theorem mem_ends_signed {r : Pattern Char} {c d : Cursor Char} {run tail : List Char}
    (hrest : c.rest = run ++ tail) (hrun : ∀ a ∈ run, isDigit unicode a = true) (hne : run ≠ [])
    (hd : d ∈ r.ends ⟨run.getLast?, tail, c.groups⟩) :
    d ∈ (Pattern.seq sign (.seq (digits unicode) r)).ends c :=
  List.mem_flatMap.mpr
    ⟨c, mem_ends_sign c, List.mem_flatMap.mpr ⟨_, Pattern.mem_ends_plus_run hrest hrun hne, hd⟩⟩

/-- What a scan needs to know of a pattern for numbers. -/
structure ReadsNumbers (unicode : UnicodeTables) (r : Pattern Char) : Prop where
  start : ∀ {text : List Char} {i : Nat} {m : Match Char}, r.matchAt text i = some m →
    0 < m.length ∧ ¬AfterGuard text i ∧
    (DigitAt unicode text i ∨ (text[i]? = some '-' ∨ text[i]? = some '+') ∧
      DigitAt unicode text (i + 1))
  back : ∀ {text : List Char} {i : Nat}, DigitAt unicode text i → DigitAt unicode text (i + 1) →
    ¬AfterGuard text i → (r.matchAt text (i + 1)).isSome = true → (r.matchAt text i).isSome = true
  stop : ∀ {text : List Char} {i : Nat} {m : Match Char}, r.matchAt text i = some m →
    DigitAt unicode text (i + m.length - 1) → ¬DigitAt unicode text (i + m.length)

theorem drop_of_digitAt (h : DigitAt unicode text i) :
    ∃ c, isDigit unicode c = true ∧ text.drop i = c :: text.drop (i + 1) := by
  obtain ⟨c, hc, hdigit⟩ := (Option.any_eq_true _ _).mp h
  obtain ⟨hlt, rfl⟩ := List.getElem?_eq_some_iff.mp hc
  exact ⟨_, hdigit, List.drop_eq_getElem_cons hlt⟩

theorem getElem?_of_drop {a : Char} {rest : List Char} (h : text.drop i = a :: rest) :
    text[i]? = some a := by
  rw [← List.head?_drop, h]
  rfl

theorem not_afterGuard {before : Option Char}
    (hbefore : before = if i = 0 then none else text[i - 1]?) :
    before.any isGuard = false ↔ ¬AfterGuard text i := by
  rw [hbefore]
  unfold AfterGuard
  by_cases hzero : i = 0
  · simp [hzero]
  · simp [hzero, Nat.pos_of_ne_zero hzero]

/-- The cursor where a pattern starts to match. -/
def cursorAt (text : List Char) (i : Nat) : Cursor Char :=
  ⟨if i = 0 then none else text[i - 1]?, text.drop i, []⟩

theorem mem_ends_anchored {r : Pattern Char} {d : Cursor Char} :
    d ∈ (Pattern.seq notAfterGuard r).ends (cursorAt text i) ↔ ¬AfterGuard text i ∧
    d ∈ r.ends (cursorAt text i) := by
  show d ∈ List.flatMap _ _ ↔ _
  rw [List.mem_flatMap]
  constructor
  · rintro ⟨e, he, hd⟩
    obtain ⟨hguard, rfl⟩ := ends_notAfterGuard.mp he
    exact ⟨(not_afterGuard rfl).mp hguard, hd⟩
  · rintro ⟨hguard, hd⟩
    exact ⟨_, ends_notAfterGuard.mpr ⟨(not_afterGuard rfl).mpr hguard, rfl⟩, hd⟩

theorem matchAt_isSome {r : Pattern Char} :
    (r.matchAt text i).isSome = true ↔ r.ends (cursorAt text i) ≠ [] := by
  unfold Pattern.matchAt Pattern.match?
  rw [Option.isSome_map, List.isSome_head?]
  rfl

/-- A signed number at an offset starts with a digit, or a sign and a digit. -/
theorem signed_start {r : Pattern Char} {d : Cursor Char}
    (h : d ∈ (Pattern.seq sign (.seq (digits unicode) r)).ends (cursorAt text i)) :
    d.rest.length < (text.drop i).length ∧
      (DigitAt unicode text i ∨ (text[i]? = some '-' ∨ text[i]? = some '+') ∧
        DigitAt unicode text (i + 1)) := by
  obtain ⟨e, hstart, a, run, tail, hrest, ha, -, hd⟩ := ends_signed h
  have hshort : d.rest.length ≤ tail.length := (Pattern.ends_suffix hd).length_le
  have hlength : e.rest.length = run.length + tail.length + 1 := by
    rw [hrest, List.length_append, List.length_cons]
    omega
  rcases hstart with rfl | ⟨b, hb, hsign⟩
  · have hget := getElem?_of_drop hrest
    refine ⟨by show _ < (text.drop i).length; have : (text.drop i).length = _ := hlength; omega,
      .inl ?_⟩
    exact (Option.any_eq_true _ _).mpr ⟨a, hget, ha⟩
  · have hsign : text.drop i = b :: e.rest := hsign
    refine ⟨by rw [hsign, List.length_cons]; omega, .inr ⟨?_, ?_⟩⟩
    · rw [getElem?_of_drop hsign]
      exact hb.imp (congrArg some) (congrArg some)
    · have hnext : text.drop (i + 1) = a :: (run ++ tail) := by
        rw [← List.drop_drop, hsign]
        exact hrest
      exact (Option.any_eq_true _ _).mpr ⟨a, getElem?_of_drop hnext, ha⟩

/-- A signed number that starts with a digit after a digit can start there. -/
theorem signed_back {r : Pattern Char} {d : Cursor Char} (hapart : DecimalsApart unicode)
    (hfirst : DigitAt unicode text i) (hsecond : DigitAt unicode text (i + 1))
    (h : d ∈ (Pattern.seq sign (.seq (digits unicode) r)).ends (cursorAt text (i + 1))) :
    d ∈ (Pattern.seq sign (.seq (digits unicode) r)).ends (cursorAt text i) := by
  obtain ⟨c, hc, hdrop⟩ := drop_of_digitAt hfirst
  obtain ⟨e, hstart, a, run, tail, hrest, ha, hall, hd⟩ := ends_signed h
  rcases hstart with rfl | ⟨b, hb, hsign⟩
  · have hrest : text.drop (i + 1) = a :: run ++ tail := hrest
    have hback : (cursorAt text i).rest = (c :: a :: run) ++ tail := by
      show text.drop i = _
      rw [hdrop, hrest]
      rfl
    refine mem_ends_signed hback ?_ (List.cons_ne_nil _ _) ?_
    · intro x hx
      rcases List.mem_cons.mp hx with rfl | hx
      · exact hc
      · rcases List.mem_cons.mp hx with rfl | hx
        · exact ha
        · exact hall x hx
    · rw [List.getLast?_cons_cons]
      exact hd
  · -- a sign is no digit
    obtain ⟨x, hx, hdigit⟩ := (Option.any_eq_true _ _).mp hsecond
    have hsign : text.drop (i + 1) = b :: e.rest := hsign
    rw [getElem?_of_drop hsign] at hx
    cases hx
    have := hapart b (.inr (by rcases hb with rfl | rfl <;> decide))
    rw [this] at hdigit
    cases hdigit

/-- The preferred way through digits leaves none. -/
theorem head?_digits {c d : Cursor Char} (h : ((digits unicode).ends c).head? = some d) :
    d.rest.head?.any (isDigit unicode) = false := by
  have hnone := Pattern.head?_ends_plus_char h
  cases hhead : d.rest.head? with
  | none => rfl
  | some a => exact hnone a hhead

theorem head?_seq_digits {r : Pattern Char} {c d : Cursor Char}
    (h : ((Pattern.seq r (digits unicode)).ends c).head? = some d) :
    d.rest.head?.any (isDigit unicode) = false := by
  have h : ((r.ends c).flatMap (digits unicode).ends).head? = some d := h
  rw [List.head?_flatMap] at h
  obtain ⟨-, e, -, -, he, -⟩ := List.findSome?_eq_some_iff.mp h
  exact head?_digits he

theorem head?_flatMap_eq_some {β γ : Type} {f : β → List γ} {xs : List β} {y : γ}
    (h : (xs.flatMap f).head? = some y) : ∃ x, (f x).head? = some y := by
  rw [List.head?_flatMap] at h
  obtain ⟨-, x, -, -, hx, -⟩ := List.findSome?_eq_some_iff.mp h
  exact ⟨x, hx⟩

/-- The preferred way through a part that ends with digits, if it can be left out. -/
theorem head?_optional_digits {p : Char → Prop} {r : Pattern Char} {c d : Cursor Char}
    (hr : Pattern.StartsWith p (.seq r (digits unicode)))
    (hc : c.rest.head?.any (isDigit unicode) = false)
    (h : ((Pattern.optional (.seq r (digits unicode))).ends c).head? = some d) :
    d.rest.head?.any (isDigit unicode) = false := by
  rw [Pattern.head?_optional hr] at h
  rcases Option.or_eq_some_iff.mp h with h | ⟨-, h⟩
  · exact head?_seq_digits h
  · rw [← Option.some.inj h]
    exact hc

theorem percent_startsWith : Pattern.StartsWith (fun _ => True) (exactly '%') :=
  Pattern.startsWith_char fun _ _ => trivial

theorem fraction_startsWith :
    Pattern.StartsWith (fun _ => True) (.seq (exactly '.') (digits unicode)) :=
  (Pattern.startsWith_char fun _ _ => trivial).seq

theorem exponent_startsWith :
    Pattern.StartsWith (fun _ => True) (.seq (.seq (.char (anyCase 'e')) sign) (digits unicode)) :=
  (Pattern.startsWith_char fun _ _ => trivial).seq.seq

/-- The exponent's digits are the last part of it. -/
theorem ends_exponent : (exponent unicode).ends =
    (Pattern.optional (.seq (.seq (.char (anyCase 'e')) sign) (digits unicode))).ends := by
  funext c
  unfold exponent
  rw [Pattern.ends_optional, Pattern.ends_optional]
  have hassoc : (Pattern.seq (.char (anyCase 'e')) (.seq sign (digits unicode))).ends c =
      (Pattern.seq (.seq (.char (anyCase 'e')) sign) (digits unicode)).ends c :=
        (List.flatMap_assoc).symm
  rw [hassoc]

/-- After the preferred match of a number, the digits are used up. -/
theorem head?_number (hapart : DecimalsApart unicode) {c d : Cursor Char}
    (h : ((number unicode).ends c).head? = some d) :
    d.rest.head?.any (isDigit unicode) = false ∨ d.before.any (isDigit unicode) = false := by
  obtain ⟨e, he⟩ := head?_flatMap_eq_some h
  obtain ⟨f, hf⟩ := head?_flatMap_eq_some he
  have hpercent : ∀ c : Cursor Char, (Pattern.optional (exactly '%')).ends c ≠ [] :=
    Pattern.ends_optional_ne_nil
  have hexponent : ∀ c :
      Cursor Char, (Pattern.seq (exponent unicode) (.optional (exactly '%'))).ends c ≠ [] :=
    Pattern.ends_seq_ne_nil Pattern.ends_optional_ne_nil hpercent
  have hfraction : ∀ c : Cursor Char,
      (Pattern.seq (fraction unicode) (.seq (exponent unicode) (.optional (exactly '%')))).ends
        c ≠ [] :=
    Pattern.ends_seq_ne_nil Pattern.ends_optional_ne_nil hexponent
  rw [Pattern.head?_seq hfraction] at hf
  obtain ⟨g, hg, hf⟩ := Option.bind_eq_some_iff.mp hf
  rw [Pattern.head?_seq hexponent] at hf
  obtain ⟨g₁, hg₁, hf⟩ := Option.bind_eq_some_iff.mp hf
  rw [Pattern.head?_seq hpercent] at hf
  obtain ⟨g₂, hg₂, hf⟩ := Option.bind_eq_some_iff.mp hf
  have hfirst := head?_optional_digits fraction_startsWith (head?_digits hg) hg₁
  rw [ends_exponent] at hg₂
  have hsecond := head?_optional_digits exponent_startsWith hfirst hg₂
  rw [Pattern.head?_optional percent_startsWith] at hf
  rcases Option.or_eq_some_iff.mp hf with hf | ⟨-, hf⟩
  · obtain ⟨a, rest, -, ha, rfl⟩ := Pattern.mem_ends_char.mp (List.mem_of_head? hf)
    right
    rw [of_decide_eq_true ha]
    exact hapart '%' (.inr (by decide))
  · left
    rw [← Option.some.inj hf]
    exact hsecond

theorem not_digitAt_of_cursor {d : Cursor Char} {m : Match Char}
    (hrest : text.drop (i + m.length) = d.rest) (hbefore : d.before = text[i + m.length - 1]?)
    (h : d.rest.head?.any (isDigit unicode) = false ∨ d.before.any (isDigit unicode) = false)
    (hlast : DigitAt unicode text (i + m.length - 1)) : ¬DigitAt unicode text (i + m.length) := by
  intro hnext
  unfold DigitAt at hlast hnext
  rw [← hbefore] at hlast
  rw [← List.head?_drop, hrest] at hnext
  rcases h with h | h
  · rw [h] at hnext
    cases hnext
  · rw [h] at hlast
    cases hlast

theorem number_readsNumbers (hapart : DecimalsApart unicode) :
    ReadsNumbers unicode (number unicode) := by
  have hstart : ∀ {text : List Char} {i : Nat} {m : Match Char},
      (number unicode).matchAt text i = some m → 0 < m.length ∧ ¬AfterGuard text i ∧
        (DigitAt unicode text i ∨ (text[i]? = some '-' ∨ text[i]? = some '+') ∧
          DigitAt unicode text (i + 1)) := by
    intro text i m h
    obtain ⟨d, hd, rfl⟩ := Option.map_eq_some_iff.mp h
    obtain ⟨hguard, hd⟩ := mem_ends_anchored.mp (List.mem_of_head? hd)
    obtain ⟨hlength, hdigit⟩ := signed_start hd
    exact ⟨Nat.sub_pos_of_lt hlength, hguard, hdigit⟩
  refine ⟨hstart, fun {text i} hfirst hsecond hguard h => ?_, fun {text i m} h => ?_⟩
  · obtain ⟨d, hd⟩ := List.exists_mem_of_ne_nil _ (matchAt_isSome.mp h)
    have hback := signed_back hapart hfirst hsecond (mem_ends_anchored.mp hd).2
    exact matchAt_isSome.mpr (List.ne_nil_of_mem (mem_ends_anchored.mpr ⟨hguard, hback⟩))
  · obtain ⟨d, hd, hrest, hbefore⟩ := Pattern.matchAt_reads h
    exact not_digitAt_of_cursor hrest (hbefore (hstart h).1) (head?_number hapart hd)

theorem toNat_of_isGuard {c : Char} (h : isGuard c = true) :
    65 ≤ c.toNat ∧ c.toNat ≤ 90 ∨ c.toNat = 95 ∨ 97 ≤ c.toNat ∧ c.toNat ≤ 122 ∨ c.toNat = 0x130 ∨
      c.toNat = 0x131 ∨ c.toNat = 0x17F ∨ c.toNat = 0x212A := by
  simp only [isGuard, isLatinLetter, Bool.or_eq_true, Bool.and_eq_true, decide_eq_true_eq] at h
  rcases h with (((((h | h) | rfl) | rfl) | rfl) | rfl) | rfl
  · exact .inl h
  · exact .inr (.inr (.inl h))
  all_goals decide

theorem isPySpace_of_isGuard {c : Char} (h : isGuard c = true) : isPySpace c = false := by
  have := toNat_of_isGuard h
  simp only [isPySpace, isWhiteSpace, Bool.or_eq_false_iff, Bool.and_eq_false_iff,
    decide_eq_false_iff_not, beq_eq_false_iff_ne]
  omega

theorem isGuard_of_anyCase {letter c : Char} (hletter : 97 ≤ letter.toNat ∧ letter.toNat ≤ 122)
    (h : anyCase letter c = true) : isGuard c = true := by
  have hlower : c.toLower = letter → isGuard c = true := by
    rintro rfl
    unfold Char.toLower at hletter
    simp only [isGuard, isLatinLetter, Bool.or_eq_true, Bool.and_eq_true, decide_eq_true_eq]
    split at hletter
    · rename_i hupper
      exact .inl (.inl (.inl (.inl (.inl (.inl hupper)))))
    · exact .inl (.inl (.inl (.inl (.inl (.inr hletter)))))
  have hself : letter.toLower = letter := by
    unfold Char.toLower
    rw [dif_neg]
    rintro ⟨-, hle⟩
    have hle : letter.toNat ≤ 90 := hle
    omega
  unfold anyCase at h
  rw [hself] at h
  simp only [Bool.or_eq_true, Bool.and_eq_true, decide_eq_true_eq] at h
  rcases h with ((h | ⟨-, rfl | rfl⟩) | ⟨-, rfl⟩) | ⟨-, rfl⟩
  · exact hlower h
  all_goals decide

theorem over_sequence {p : Char → Prop} {rs : List (Pattern Char)} (h : ∀ r ∈ rs, r.Over p) :
    (sequence rs).Over p := by
  induction rs with
  | nil => exact trivial
  | cons r rs ih =>
    cases rs with
    | nil => exact h r List.mem_cons_self
    | cons s rs => exact ⟨h r List.mem_cons_self, ih fun t ht => h t (List.mem_cons_of_mem _ ht)⟩

theorem unitWord_over (hapart : DecimalsApart unicode) :
    unitWord.Over fun c => isDigit unicode c = false := by
  have hcase : ∀ letter : Char, 97 ≤ letter.toNat ∧ letter.toNat ≤ 122 →
      ∀ c, anyCase letter c = true → isDigit unicode c = false := fun letter hletter c hc =>
        hapart c (.inl (isGuard_of_anyCase hletter hc))
  refine Pattern.over_oneOf fun r hr => ?_
  rcases List.mem_append.mp hr with hr | hr
  · obtain ⟨word, hword, rfl⟩ := List.mem_map.mp hr
    refine Pattern.over_literal fun c hc => hapart c (.inr ?_)
    have hall : ∀ word ∈ plainUnits, ∀ c ∈ word.toList, c ∈ "+-.%％周星期天日月年小时分钟秒".toList := by
      simp [plainUnits]
    exact hall word hword c hc
  · obtain ⟨word, hword, rfl⟩ := List.mem_map.mp hr
    have hall : ∀ word ∈ pluralUnits, ∀ c ∈ word.toList, 97 ≤ c.toNat ∧ c.toNat ≤ 122 := by
      simp [pluralUnits]
    refine ⟨over_sequence fun q hq => ?_, hcase 's' (by decide)⟩
    obtain ⟨letter, hletter, rfl⟩ := List.mem_map.mp hq
    exact hcase letter (hall word hword letter hletter)

theorem unitWord_startsWith : Pattern.StartsWith (fun _ => True) unitWord := by
  refine Pattern.startsWith_oneOf fun r hr => ?_
  rcases List.mem_append.mp hr with hr | hr
  · obtain ⟨word, hword, rfl⟩ := List.mem_map.mp hr
    have hne : ∀ word ∈ plainUnits, word.toList ≠ [] := by decide
    obtain ⟨a, rest, hrest⟩ := List.exists_cons_of_ne_nil (hne word hword)
    unfold literal
    rw [hrest]
    exact Pattern.startsWith_literal trivial
  · obtain ⟨word, hword, rfl⟩ := List.mem_map.mp hr
    have hlong : ∀ word ∈ pluralUnits, 2 ≤ word.toList.length := by decide
    unfold caseless
    rcases hword' : word.toList with - | ⟨a, - | ⟨b, rest⟩⟩
    · have := hlong word hword
      rw [hword'] at this
      exact absurd this (by decide)
    · have := hlong word hword
      rw [hword'] at this
      exact absurd this (by simp)
    · exact (Pattern.startsWith_char fun _ _ => trivial).seq.seq

/-- White space and a hyphen, and then a unit. -/
theorem ends_unitTail (hapart : DecimalsApart unicode) {c d : Cursor Char}
    (h : d ∈ unitTail.ends c) :
    ∃ front back, c.rest = front ++ back ++ d.rest ∧ (∀ a ∈ front, isGuard a = false) ∧ back ≠ [] ∧
      (∀ a ∈ back, isDigit unicode a = false) ∧ d.before.any (isDigit unicode) = false := by
  have hspace : (Pattern.star space).Over fun a => isGuard a = false := by
    intro a ha
    by_contra hguard
    rw [isPySpace_of_isGuard (Bool.of_not_eq_false hguard)] at ha
    cases ha
  have hhyphen : (Pattern.optional (exactly '-')).Over fun a => isGuard a = false := by
    intro a ha
    rw [of_decide_eq_true ha]
    decide
  obtain ⟨e, he, h⟩ := List.mem_flatMap.mp h
  obtain ⟨f, hf, h⟩ := List.mem_flatMap.mp h
  obtain ⟨g, hg, h⟩ := List.mem_flatMap.mp h
  obtain ⟨k, hk, h⟩ := List.mem_flatMap.mp h
  obtain ⟨xs, hxs, hxsGuard⟩ := Pattern.ends_over hspace he
  obtain ⟨ys, hys, hysGuard⟩ := Pattern.ends_over hhyphen hf
  obtain ⟨zs, hzs, hzsGuard⟩ := Pattern.ends_over hspace hg
  obtain ⟨l, hl, rfl⟩ := List.mem_map.mp hk
  obtain ⟨back, ⟨hrest, hbefore⟩, hback⟩ := Pattern.ends_over (unitWord_over hapart) hl
  obtain ⟨a, rest, hgrest, -, hshort⟩ := unitWord_startsWith g l hl
  have hne : back ≠ [] := by
    rintro rfl
    rw [List.nil_append] at hrest
    rw [hrest] at hgrest
    rw [hgrest, List.length_cons] at hshort
    omega
  have hd : d.rest = l.rest ∧ d.before = l.before := by
    unfold Pattern.ends at h
    split at h
    · rw [List.mem_singleton.mp h]
      exact ⟨rfl, rfl⟩
    · cases h
  refine ⟨xs ++ (ys ++ zs), back, ?_, ?_, hne, hback, ?_⟩
  · rw [hxs.1, hys.1, hzs.1, hrest, hd.1]
    simp
  · exact List.forall_mem_append.mpr ⟨hxsGuard, List.forall_mem_append.mpr ⟨hysGuard, hzsGuard⟩⟩
  · rw [hd.2, hbefore, List.getLast?_eq_some_getLast hne, Option.some_or]
    exact hback _ (List.getLast_mem hne)

theorem mem_ends_numberWithUnit {d : Cursor Char} :
    d ∈ (numberWithUnit unicode).ends (cursorAt text i) ↔ ¬AfterGuard text i ∧
    ∃ e ∈ (unitValue unicode).ends (cursorAt text i), d ∈ unitTail.ends ⟨e.before, e.rest,
      e.groups ++ [(text.drop i).take ((text.drop i).length - e.rest.length)]⟩ := by
  unfold numberWithUnit
  rw [mem_ends_anchored]
  refine and_congr_right fun _ => ?_
  show d ∈ List.flatMap _ (List.map _ _) ↔ _
  rw [List.mem_flatMap]
  constructor
  · rintro ⟨f, hf, hd⟩
    obtain ⟨e, he, rfl⟩ := List.mem_map.mp hf
    exact ⟨e, he, hd⟩
  · rintro ⟨e, he, hd⟩
    exact ⟨_, List.mem_map_of_mem he, hd⟩

theorem numberWithUnit_readsNumbers (hapart : DecimalsApart unicode) :
    ReadsNumbers unicode (numberWithUnit unicode) := by
  have hstart : ∀ {text : List Char} {i : Nat} {m : Match Char},
      (numberWithUnit unicode).matchAt text i = some m → 0 < m.length ∧ ¬AfterGuard text i ∧
        (DigitAt unicode text i ∨ (text[i]? = some '-' ∨ text[i]? = some '+') ∧
          DigitAt unicode text (i + 1)) := by
    intro text i m h
    obtain ⟨d, hd, rfl⟩ := Option.map_eq_some_iff.mp h
    obtain ⟨hguard, e, he, hd⟩ := mem_ends_numberWithUnit.mp (List.mem_of_head? hd)
    obtain ⟨hlength, hdigit⟩ := signed_start he
    exact ⟨Nat.sub_pos_of_lt ((Pattern.ends_suffix hd).length_le.trans_lt hlength), hguard, hdigit⟩
  refine ⟨hstart, fun {text i} hfirst hsecond hguard h => ?_, fun {text i m} h => ?_⟩
  · obtain ⟨d, hd⟩ := List.exists_mem_of_ne_nil _ (matchAt_isSome.mp h)
    obtain ⟨-, e, he, hd⟩ := mem_ends_numberWithUnit.mp hd
    have hback := signed_back hapart hfirst hsecond he
    -- the value's text is another group, which changes nothing after it
    have hnone := mt (Pattern.ends_eq_nil_iff (r := unitTail) _).mpr (List.ne_nil_of_mem hd)
    have htail : unitTail.ends ⟨e.before, e.rest,
        e.groups ++ [(text.drop i).take ((text.drop i).length - e.rest.length)]⟩ ≠ [] :=
      mt (Pattern.ends_eq_nil_iff (r := unitTail) _).mp hnone
    obtain ⟨d', hd'⟩ := List.exists_mem_of_ne_nil _ htail
    exact matchAt_isSome.mpr
      (List.ne_nil_of_mem (mem_ends_numberWithUnit.mpr ⟨hguard, e, hback, hd'⟩))
  · obtain ⟨d, hd, hrest, hbefore⟩ := Pattern.matchAt_reads h
    obtain ⟨-, e, -, hd⟩ := mem_ends_numberWithUnit.mp (List.mem_of_head? hd)
    obtain ⟨-, -, -, -, -, -, hlast⟩ := ends_unitTail hapart hd
    exact not_digitAt_of_cursor hrest (hbefore (hstart h).1) (.inr hlast)

/-- Two digits in a row after a letter, at the second of which the pattern matches. -/
def CutAt (unicode : UnicodeTables) (r : Pattern Char) (text : List Char) (i : Nat) : Prop :=
  AfterGuard text i ∧ DigitAt unicode text i ∧ DigitAt unicode text (i + 1) ∧
    (r.matchAt text (i + 1)).isSome = true

theorem isDigit_of_digitAt {c : Char} (h : DigitAt unicode text i) (hc : text[i]? = some c) :
    isDigit unicode c = true := by
  unfold DigitAt at h
  rw [hc] at h
  exact h

theorem firstDigit_of_digitAt {m : Found Char} (hlt : m.start < m.stop)
    (h : DigitAt unicode text m.start) : firstDigit unicode text m = m.start := by
  obtain ⟨c, hc, hdrop⟩ := drop_of_digitAt h
  have hslice : slice text m.start m.stop = c :: slice text (m.start + 1) m.stop := by
    obtain ⟨hlength, heq⟩ := List.getElem?_eq_some_iff.mp (getElem?_of_drop hdrop)
    rw [slice_cons hlt hlength, heq]
  rw [firstDigit, hslice, List.findIdx_cons, hc]
  rfl

theorem firstDigit_of_sign {m : Found Char} {c : Char} (hc : text[m.start]? = some c)
    (hsign : isDigit unicode c = false) (hlt : m.start < m.stop)
    (h : DigitAt unicode text (m.start + 1)) : firstDigit unicode text m = m.start + 1 := by
  obtain ⟨hlength, heq⟩ := List.getElem?_eq_some_iff.mp hc
  rw [firstDigit, slice_cons hlt hlength, heq, List.findIdx_cons, hsign]
  have hrest : (slice text (m.start + 1) m.stop).findIdx (isDigit unicode) = 0 := by
    by_cases hstop : m.start + 1 < m.stop
    · obtain ⟨d, hd, hdrop⟩ := drop_of_digitAt h
      obtain ⟨hlength', heq'⟩ := List.getElem?_eq_some_iff.mp (getElem?_of_drop hdrop)
      rw [slice_cons hstop hlength', heq', List.findIdx_cons, hd]
      rfl
    · have hnil : slice text (m.start + 1) m.stop = [] := by
        refine List.eq_nil_of_length_eq_zero ?_
        rw [length_slice]
        omega
      rw [hnil]
      rfl
  rw [hrest]
  rfl

/-- The matches are whole numbers exactly if every such cut lies in a match. -/
theorem whole_iff_of_readsNumbers {r : Pattern Char} (hr : ReadsNumbers unicode r)
    (hapart : DecimalsApart unicode) : (∀ m ∈ r.findAll text 0 text.length, Whole unicode text m) ↔
      ∀ i, CutAt unicode r text i → ∃ m ∈ r.findAll text 0 text.length, m.start < i ∧
      i < m.stop := by
  have hchain : Chain 0 (r.findAll text 0 text.length) text.length :=
    Pattern.findAll_chain (Nat.zero_le _) (le_refl _)
  have hlt : ∀ {j : Nat}, DigitAt unicode text j → j < text.length := by
    intro j hj
    obtain ⟨c, hc, -⟩ := (Option.any_eq_true _ _).mp hj
    exact (List.getElem?_eq_some_iff.mp hc).1
  constructor
  · rintro hwhole i ⟨hguard, hfirst, hsecond, hmatch⟩
    obtain ⟨m', hm'⟩ := Option.isSome_iff_exists.mp hmatch
    rcases Pattern.findAll_spec.2 (i + 1) (hlt hsecond) with ⟨m, hm, hle, hstop⟩ | hnone
    · refine ⟨m, hm, ?_, by omega⟩
      obtain ⟨-, hpos, hmatchAt⟩ := Pattern.findAll_spec.1 m hm
      by_contra hge
      have hstart : m.start = i ∨ m.start = i + 1 := by omega
      rcases hstart with hstart | hstart
      · exact (hr.start hmatchAt).2.1 (hstart ▸ hguard)
      · have hindex := firstDigit_of_digitAt (by omega) (hstart ▸ hsecond)
        obtain ⟨c, hc, hdigit⟩ := (Option.any_eq_true _ _).mp hfirst
        refine hwhole m hm (by omega) c ?_ (.inr (.inr hdigit))
        rw [hindex, hstart]
        exact hc
    · have := hnone m' hm'
      have := (hr.start hm').1
      omega
  · intro hcut m hm hpos c hc hbad
    obtain ⟨hlength, hmpos, hmatchAt⟩ := Pattern.findAll_spec.1 m hm
    obtain ⟨-, hguard, hdigit⟩ := hr.start hmatchAt
    have hmstop : m.start < m.stop := Nat.lt_add_of_pos_right hmpos
    rcases hdigit with hdigit | ⟨hsign, hdigit⟩
    · rw [firstDigit_of_digitAt hmstop hdigit] at hc hpos
      have hbefore : DigitAt unicode text (m.start - 1) := by
        refine (Option.any_eq_true _ _).mpr ⟨c, hc, ?_⟩
        rcases hbad with halpha | hunder | hdigit
        · exact absurd ⟨hpos,
            (Option.any_eq_true _ _).mpr ⟨c, hc, isGuard_of_isAlpha (.inl halpha)⟩⟩ hguard
        · exact absurd ⟨hpos,
            (Option.any_eq_true _ _).mpr ⟨c, hc, isGuard_of_isAlpha (.inr hunder)⟩⟩ hguard
        · exact hdigit
      -- the digit before lies in no match: one that ends here would have taken this digit too
      have houtside : ∀ m' ∈ r.findAll text 0 text.length,
          ¬(m'.start ≤ m.start - 1 ∧ m.start - 1 < m'.stop) := by
        rintro m' hm' ⟨hle, hstop⟩
        have hdisjoint : m'.stop ≤ m.start := hchain.stop_le hm' hm (by omega)
        obtain ⟨-, -, hmatch'⟩ := Pattern.findAll_spec.1 m' hm'
        have hend : m'.start + m'.length = m.start := by
          have : m'.stop = m'.start + m'.length := rfl
          omega
        exact hr.stop hmatch' (by rw [hend]; exact hbefore) (by rw [hend]; exact hdigit)
      have hsucc : m.start - 1 + 1 = m.start := Nat.sub_add_cancel hpos
      rcases Pattern.findAll_spec.2 (m.start - 1) (by omega : m.start - 1 < text.length)
        with ⟨m', hm', hin⟩ | hnone
      · exact houtside m' hm' hin
      · have hguard' : AfterGuard text (m.start - 1) := by
          by_contra hfree
          have hback := hr.back hbefore (by rw [hsucc]; exact hdigit) hfree
            (by rw [hsucc, hmatchAt]; rfl)
          obtain ⟨m', hm'⟩ := Option.isSome_iff_exists.mp hback
          have := hnone m' hm'
          have := (hr.start hm').1
          omega
        obtain ⟨m', hm', hle, hstop⟩ := hcut (m.start - 1)
          ⟨hguard', hbefore, by rw [hsucc]; exact hdigit, by rw [hsucc, hmatchAt]; rfl⟩
        exact houtside m' hm' ⟨by omega, hstop⟩
    · -- a sign is no letter and no digit
      have happly : ∀ {a : Char}, a = '-' ∨ a = '+' → text[m.start]? = some a → False := by
        intro a ha hget
        have hnodigit : isDigit unicode a = false :=
          hapart a (.inr (by rcases ha with rfl | rfl <;> decide))
        rw [firstDigit_of_sign hget hnodigit hmstop hdigit, Nat.add_sub_cancel, hget] at hc
        cases hc
        rcases hbad with halpha | hunder | hdigit
        · rcases ha with rfl | rfl <;> cases halpha
        · rcases ha with rfl | rfl <;> cases hunder
        · rw [hnodigit] at hdigit
          cases hdigit
      rcases hsign with hsign | hsign
      · exact happly (.inl rfl) hsign
      · exact happly (.inr rfl) hsign

/-- A number starts at every digit that follows a digit. -/
theorem number_matchAt (hapart : DecimalsApart unicode) (hfirst : DigitAt unicode text i)
    (hsecond : DigitAt unicode text (i + 1)) :
    ((number unicode).matchAt text (i + 1)).isSome = true := by
  have hguard : ¬AfterGuard text (i + 1) := by
    rintro ⟨-, hguard⟩
    obtain ⟨c, hc, hguard⟩ := (Option.any_eq_true _ _).mp hguard
    have := isDigit_of_digitAt hfirst hc
    rw [hapart c (.inl hguard)] at this
    cases this
  obtain ⟨c, hc, hdrop⟩ := drop_of_digitAt hsecond
  have htail : ∀ d :
      Cursor Char, (Pattern.seq (fraction unicode)
        (.seq (exponent unicode) (.optional (exactly '%')))).ends d ≠ [] :=
    Pattern.ends_seq_ne_nil Pattern.ends_optional_ne_nil
      (Pattern.ends_seq_ne_nil Pattern.ends_optional_ne_nil Pattern.ends_optional_ne_nil)
  obtain ⟨d, hd⟩ := List.exists_mem_of_ne_nil _ (htail ⟨[c].getLast?, text.drop (i + 1 + 1), []⟩)
  have hrest : (cursorAt text (i + 1)).rest = [c] ++ text.drop (i + 1 + 1) := hdrop
  have hmem : d ∈ (Pattern.seq sign (.seq (digits unicode) _)).ends (cursorAt text (i + 1)) :=
    mem_ends_signed hrest (fun a ha => by rw [List.mem_singleton.mp ha]; exact hc)
      (List.cons_ne_nil _ _) hd
  exact matchAt_isSome.mpr (List.ne_nil_of_mem (mem_ends_anchored.mpr ⟨hguard, hmem⟩))

/-- In a number with a unit, no digit follows a letter. -/
theorem numberWithUnit_parts (hapart : DecimalsApart unicode) {m : Match Char}
    (h : (numberWithUnit unicode).matchAt text i = some m) :
    ∃ front back, text.drop i = front ++ back ++ text.drop (i + m.length) ∧
      (∀ a ∈ front, isGuard a = false) ∧ ∀ a ∈ back, isDigit unicode a = false := by
  have hvalue : (unitValue unicode).Over fun a => isGuard a = false := by
    have hdigits : (digits unicode).Over fun a => isGuard a = false := by
      intro a ha
      by_contra hguard
      rw [hapart a (.inl (Bool.of_not_eq_false hguard))] at ha
      cases ha
    refine ⟨fun a ha => ?_, hdigits, fun a ha => ?_, hdigits⟩
    · rw [Bool.or_eq_true, decide_eq_true_eq, decide_eq_true_eq] at ha
      rcases ha with rfl | rfl <;> decide
    · rw [of_decide_eq_true ha]
      decide
  obtain ⟨d, hd, hrest, -⟩ := Pattern.matchAt_reads h
  obtain ⟨-, e, he, hd⟩ := mem_ends_numberWithUnit.mp (List.mem_of_head? hd)
  obtain ⟨xs, hxs, hxsGuard⟩ := Pattern.ends_over hvalue he
  obtain ⟨front, back, hparts, hfront, -, hback, -⟩ := ends_unitTail hapart hd
  refine ⟨xs ++ front, back, ?_, List.forall_mem_append.mpr ⟨hxsGuard, hfront⟩, hback⟩
  have hfirst : text.drop i = xs ++ e.rest := hxs.1
  have hparts : e.rest = front ++ back ++ d.rest := hparts
  rw [hrest, hfirst, hparts]
  simp

theorem not_cut_in_numberWithUnit (hapart : DecimalsApart unicode) {m : Found Char}
    (hm : m ∈ (numberWithUnit unicode).findAll text 0 text.length) (hguard : AfterGuard text i)
    (hdigit : DigitAt unicode text i) (hstart : m.start < i) (hstop : i < m.stop) : False := by
  obtain ⟨hlength, -, hmatch⟩ := Pattern.findAll_spec.1 m hm
  obtain ⟨front, back, hparts, hfront, hback⟩ := numberWithUnit_parts hapart hmatch
  have hcount := congrArg List.length hparts
  rw [List.length_append, List.length_append, List.length_drop, List.length_drop] at hcount
  have hmstop : m.stop = m.start + m.length := rfl
  obtain ⟨c, hc, hcdigit⟩ := (Option.any_eq_true _ _).mp hdigit
  have hlt := (List.getElem?_eq_some_iff.mp hc).1
  obtain ⟨-, hbefore⟩ := hguard
  obtain ⟨a, ha, haguard⟩ := (Option.any_eq_true _ _).mp hbefore
  have hget : ∀ k, text[m.start + k]? = (front ++ back ++ text.drop (m.start + m.length))[k]? := by
    intro k
    rw [← hparts, List.getElem?_drop]
  by_cases hin : i - 1 - m.start < front.length
  · have h := hget (i - 1 - m.start)
    rw [show m.start + (i - 1 - m.start) = i - 1 by omega, ha, List.append_assoc,
      List.getElem?_append_left hin] at h
    have := hfront a (List.mem_of_getElem? h.symm)
    rw [haguard] at this
    cases this
  · have h := hget (i - m.start)
    rw [show m.start + (i - m.start) = i by omega, hc, List.append_assoc,
      List.getElem?_append_right (by omega), List.getElem?_append_left (by omega)] at h
    have := hback c (List.mem_of_getElem? h.symm)
    rw [hcdigit] at this
    cases this

/-- The matches of `_NUMBER` are whole numbers exactly if two digits after a letter stand in
exponents only, and those of `_NUMBER_WITH_UNIT` exactly if there is no unit after a digit that
follows a letter and a digit. -/
theorem numbers_whole_iff (hapart : DecimalsApart unicode) (text : List Char) :
    ((∀ m ∈ (number unicode).findAll text 0 text.length, Whole unicode text m) ↔
      ∀ i, AfterGuard text i → DigitAt unicode text i → DigitAt unicode text (i + 1) →
        ∃ m ∈ (number unicode).findAll text 0 text.length, m.start < i ∧ i < m.stop) ∧
    ((∀ m ∈ (numberWithUnit unicode).findAll text 0 text.length, Whole unicode text m) ↔
      ∀ i, AfterGuard text i → DigitAt unicode text i → DigitAt unicode text (i + 1) →
        (numberWithUnit unicode).matchAt text (i + 1) = none) := by
  constructor
  · rw [whole_iff_of_readsNumbers (number_readsNumbers hapart) hapart]
    constructor
    · exact fun h i hguard hfirst hsecond =>
        h i ⟨hguard, hfirst, hsecond, number_matchAt hapart hfirst hsecond⟩
    · rintro h i ⟨hguard, hfirst, hsecond, -⟩
      exact h i hguard hfirst hsecond
  · rw [whole_iff_of_readsNumbers (numberWithUnit_readsNumbers hapart) hapart]
    constructor
    · intro h i hguard hfirst hsecond
      by_contra hsome
      obtain ⟨m, hm, hstart, hstop⟩ :=
        h i ⟨hguard, hfirst, hsecond, Option.isSome_iff_ne_none.mpr hsome⟩
      exact not_cut_in_numberWithUnit hapart hm hguard hfirst hstart hstop
    · rintro h i ⟨hguard, hfirst, hsecond, hsome⟩
      rw [h i hguard hfirst hsecond] at hsome
      cases hsome

end

theorem asciiTables_apart : DecimalsApart asciiTables := by
  intro c hc
  have hnone : c.isDigit = false → isDigit asciiTables c = false := by
    intro h
    simp [isDigit, asciiTables, h]
  refine hnone (Bool.eq_false_iff.mpr fun hdigit => ?_)
  have hdigit : 48 ≤ c.toNat ∧ c.toNat ≤ 57 := by
    simpa [Char.isDigit, UInt32.le_iff_toNat_le] using hdigit
  rcases hc with hguard | hmem
  · have := toNat_of_isGuard hguard
    omega
  · have hall : ∀ c ∈ "+-.%％周星期天日月年小时分钟秒".toList, ¬(48 ≤ c.toNat ∧ c.toNat ≤ 57) := by simp
    exact hall c hmem hdigit

theorem numbers_whole_iff_percent :
    ((∀ m ∈ (number asciiTables).findAll "GPT-4 gains 1e10 or 12%".toList 0 23,
        Whole asciiTables "GPT-4 gains 1e10 or 12%".toList m) ↔
      ∀ i, AfterGuard "GPT-4 gains 1e10 or 12%".toList i →
        DigitAt asciiTables "GPT-4 gains 1e10 or 12%".toList i →
        DigitAt asciiTables "GPT-4 gains 1e10 or 12%".toList (i + 1) →
        ∃ m ∈ (number asciiTables).findAll "GPT-4 gains 1e10 or 12%".toList 0 23, m.start < i ∧
        i < m.stop) :=
  (numbers_whole_iff asciiTables_apart "GPT-4 gains 1e10 or 12%".toList).1

/-- The search goes on at the second digit of a model name. -/
theorem number_model_name : ∃ m ∈ (number asciiTables).findAll "GPT1234".toList 0 7,
    slice "GPT1234".toList m.start m.stop = "234".toList ∧
    ¬Whole asciiTables "GPT1234".toList m := by
  have hfound : (number asciiTables).findAll "GPT1234".toList 0 7 = [⟨⟨3, []⟩, 4⟩] := rfl
  refine ⟨⟨⟨3, []⟩, 4⟩, hfound ▸ List.mem_singleton_self _, rfl, fun h => ?_⟩
  exact h (by decide) '1' (by decide) (.inr (.inr (by decide)))

end ZhiyanRag.Rag
