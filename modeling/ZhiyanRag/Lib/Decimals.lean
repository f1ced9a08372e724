import Mathlib.Data.List.Infix
import Mathlib.Algebra.Order.Field.Basic
import Mathlib.Algebra.Order.Field.Rat
import Mathlib.Data.Nat.Prime.Basic
import Mathlib.Data.Rat.Lemmas
import Mathlib.Tactic.NormNum
import ZhiyanRag.Lib.Binary64

/-!
# Decimal texts

The decimal text of an integer, the shortest decimal text of a binary64 number, and a reader of
number tokens: an optional sign, a whole part without leading zeros, an optional fraction and an
optional exponent. What is printed is read back, whatever stops the token (`readToken_formatInt`,
`readToken_floatRepr`).
-/

namespace Decimals

theorem notMem_digits {c : Char} (hc : c.isDigit = false) (n : Nat) :
    c ∉ Nat.toDigits 10 n := fun h => by
  rw [Nat.isDigit_of_mem_toDigits (by decide) (by decide) h] at hc
  cases hc

theorem digits_injective {n m : Nat} (h : Nat.toDigits 10 n = Nat.toDigits 10 m) : n = m := by
  rw [← Nat.ofDigitChars_ten_toDigits (n := n), h, Nat.ofDigitChars_ten_toDigits]

theorem isDigit_digits {n : Nat} : ∀ c ∈ Nat.toDigits 10 n, c.isDigit = true :=
  fun _ => Nat.isDigit_of_mem_toDigits (by decide) (by decide)

/-- The first digit of a positive number is not zero. -/
theorem digits_cons {n : Nat} (hn : n ≠ 0) : ∃ c cs, Nat.toDigits 10 n = c :: cs ∧ c ≠ '0' := by
  induction n using Nat.strong_induction_on with
  | _ n ih =>
    by_cases hsmall : n < 10
    · refine ⟨_, _, Nat.toDigits_of_lt_base hsmall, ?_⟩
      have hall : ∀ m, m < 10 → m ≠ 0 → m.digitChar ≠ '0' := by decide
      exact hall n hsmall hn
    · obtain ⟨c, cs, hdigits, hc⟩ := ih (n / 10) (by omega) (by omega)
      exact ⟨c, _, by rw [Nat.toDigits_of_base_le (by decide) (by omega), hdigits,
        List.cons_append], hc⟩

/-- A formatted `int`. -/
def formatInt : Int → List Char
  | .ofNat n => Nat.toDigits 10 n
  | .negSucc n => '-' :: Nat.toDigits 10 (n + 1)

theorem digits_ne_dash (n : Nat) (text : List Char) : Nat.toDigits 10 n ≠ '-' :: text := fun h =>
  notMem_digits (by decide) n (h ▸ List.mem_cons_self : '-' ∈ Nat.toDigits 10 n)

theorem formatInt_injective {a b : Int} (h : formatInt a = formatInt b) : a = b := by
  cases a with
  | ofNat n =>
    cases b with
    | ofNat m => rw [digits_injective h]
    | negSucc m => exact absurd h (digits_ne_dash n _)
  | negSucc n =>
    cases b with
    | ofNat m => exact absurd h.symm (digits_ne_dash m _)
    | negSucc m => rw [Nat.succ.inj (digits_injective (List.cons.inj h).2)]

/-! ### Reading a token -/

/-- A number token: `-?(?:0|[1-9]\d*)(\.\d+)?([eE][-+]?\d+)?`. -/
structure Token where
  negative : Bool
  whole : List Char
  fraction : List Char
  exponent : Option Int
  deriving DecidableEq

namespace Token

def isInteger (token : Token) : Bool := token.fraction.isEmpty && token.exponent.isNone

def signed {α : Type} [Neg α] (token : Token) (x : α) : α := if token.negative then -x else x

def int (token : Token) : Int := token.signed (Nat.ofDigitChars 10 token.whole 0 : Int)

def magnitude (token : Token) : Rat :=
  (Nat.ofDigitChars 10 (token.whole ++ token.fraction) 0 : Rat) *
    10 ^ (token.exponent.getD 0 - token.fraction.length)

def rational (token : Token) : Rat := token.signed token.magnitude

end Token

/-- The digits in front, if there are any. -/
def readDigits (s : List Char) : Option (List Char × List Char) :=
  if (s.takeWhile Char.isDigit).isEmpty
    then none else some (s.takeWhile Char.isDigit, s.dropWhile Char.isDigit)

def readWhole : List Char → Option (List Char × List Char)
  | '0' :: rest => some (['0'], rest)
  | s => readDigits s

def readFraction : List Char → List Char × List Char
  | '.' :: s => (readDigits s).getD ([], '.' :: s)
  | s => ([], s)

def readSign : List Char → Bool × List Char
  | '-' :: s => (true, s)
  | '+' :: s => (false, s)
  | s => (false, s)

def readExponent : List Char → Option Int × List Char
  | [] => (none, [])
  | c :: s =>
    if c = 'e' ∨ c = 'E' then
      match readDigits (readSign s).2 with
      | some (digits, rest) =>
        let magnitude : Int := Nat.ofDigitChars 10 digits 0
        (some (if (readSign s).1 then -magnitude else magnitude), rest)
      | none => (none, c :: s)
    else (none, c :: s)

def readUnsigned (negative : Bool) (s : List Char) : Option (Token × List Char) :=
  (readWhole s).map fun whole =>
    let fraction := readFraction whole.2
    let exponent := readExponent fraction.2
    (⟨negative, whole.1, fraction.1, exponent.1⟩, exponent.2)

def readToken : List Char → Option (Token × List Char)
  | '-' :: s => readUnsigned true s
  | s => readUnsigned false s

/-- The text does not go on with a digit. -/
def NoDigit (rest : List Char) : Prop := ∀ c ∈ rest.head?, c.isDigit = false

/-- The text does not go on with a part of the token. -/
def Stops (rest : List Char) : Prop :=
  ∀ c ∈ rest.head?, c.isDigit = false ∧ c ≠ '.' ∧ c ≠ 'e' ∧ c ≠ 'E'

theorem Stops.noDigit {rest : List Char} (h : Stops rest) : NoDigit rest := fun c hc => (h c hc).1

theorem readDigits_append {digits rest : List Char} (hne : digits ≠ [])
    (hdigits : ∀ c ∈ digits, c.isDigit = true) (hrest : NoDigit rest) :
    readDigits (digits ++ rest) = some (digits, rest) := by
  have htake : rest.takeWhile Char.isDigit = [] ∧ rest.dropWhile Char.isDigit = rest := by
    cases rest with
    | nil => exact ⟨rfl, rfl⟩
    | cons c rest =>
      have hc := hrest c rfl
      exact ⟨by rw [List.takeWhile_cons_of_neg (by rw [hc]; decide)],
        by rw [List.dropWhile_cons_of_neg (by rw [hc]; decide)]⟩
  unfold readDigits
  rw [List.takeWhile_append_of_pos hdigits, List.dropWhile_append_of_pos hdigits, htake.1, htake.2,
    List.append_nil, if_neg]
  rwa [List.isEmpty_iff]

theorem readWhole_of_ne_zero {c : Char} {s : List Char} (hc : c ≠ '0') :
    readWhole (c :: s) = readDigits (c :: s) := by
  unfold readWhole
  split
  · rename_i heq
    exact absurd (List.cons.inj heq).1 hc
  · rfl

theorem readFraction_of_stops {rest : List Char} (h : ∀ c ∈ rest.head?, c ≠ '.') :
    readFraction rest = ([], rest) := by
  unfold readFraction
  split
  · exact absurd rfl (h '.' rfl)
  · rfl

theorem readExponent_of_stops {rest : List Char} (h : ∀ c ∈ rest.head?, c ≠ 'e' ∧ c ≠ 'E') :
    readExponent rest = (none, rest) := by
  cases rest with
  | nil => rfl
  | cons c rest =>
    obtain ⟨he, hE⟩ := h c rfl
    rw [readExponent, if_neg (not_or.mpr ⟨he, hE⟩)]

theorem readWhole_digits (n : Nat) {rest : List Char} (hrest : NoDigit rest) :
    readWhole (Nat.toDigits 10 n ++ rest) = some (Nat.toDigits 10 n, rest) := by
  by_cases hn : n = 0
  · subst hn
    rfl
  · obtain ⟨c, cs, hdigits, hc⟩ := digits_cons hn
    have hread := readDigits_append (Nat.toDigits_ne_nil (b := 10)) (isDigit_digits (n := n)) hrest
    rw [hdigits] at hread ⊢
    rw [List.cons_append] at hread ⊢
    rw [readWhole_of_ne_zero hc, hread]

/-- A text that can be read without a sign has none. -/
theorem readToken_of_unsigned {s rest : List Char} {token : Token}
    (h : readUnsigned false s = some (token, rest)) : readToken s = some (token, rest) := by
  unfold readToken
  split
  · rename_i s
    have hwhole : readWhole ('-' :: s) = none := by
      rw [readWhole_of_ne_zero (by decide), readDigits, List.takeWhile_cons_of_neg (by decide)]
      rfl
    rw [readUnsigned, hwhole] at h
    cases h
  · exact h

theorem readToken_formatInt (n : Int) {rest : List Char} (hrest : Stops rest) :
    ∃ token, readToken (formatInt n ++ rest) = some (token, rest) ∧ token.isInteger = true ∧
      token.int = n ∧ token.whole = Nat.toDigits 10 n.natAbs := by
  have hunsigned : ∀ (negative : Bool) (m : Nat),
      readUnsigned negative (Nat.toDigits 10 m ++ rest) =
        some (⟨negative, Nat.toDigits 10 m, [], none⟩, rest) := by
    intro negative m
    unfold readUnsigned
    rw [readWhole_digits m hrest.noDigit]
    simp only [Option.map_some, readFraction_of_stops fun c hc => (hrest c hc).2.1,
      readExponent_of_stops fun c hc => (hrest c hc).2.2]
  cases n with
  | ofNat m =>
    exact ⟨_, readToken_of_unsigned (hunsigned false m), rfl,
      congrArg Int.ofNat Nat.ofDigitChars_ten_toDigits, rfl⟩
  | negSucc m =>
    refine ⟨_, hunsigned true (m + 1), rfl, ?_, rfl⟩
    show -((Nat.ofDigitChars 10 (Nat.toDigits 10 (m + 1)) 0 : Nat) : Int) = _
    rw [Nat.ofDigitChars_ten_toDigits]
    rfl

/-! ### Binary64 numbers -/

/-- `0.digits * 10^point`. -/
structure Decimal where
  digits : List Char
  point : Int

namespace Decimal

def value (x : Decimal) : Rat :=
  (Nat.ofDigitChars 10 x.digits 0 : Rat) * 10 ^ (x.point - x.digits.length)

/-- The digits of `m * 10^last`, without trailing zeros. -/
def ofScaled (m : Nat) (last : Int) : Decimal :=
  ⟨((Nat.toDigits 10 m).reverse.dropWhile fun c => decide (c = '0')).reverse,
    (Nat.toDigits 10 m).length + last⟩

/-- `repr` of a positive number with these digits: positional from `10^-4` up to `10^16`. -/
def text (x : Decimal) : List Char :=
  if -4 < x.point ∧ x.point ≤ 16 then
    if x.point ≤ 0 then '0' :: '.' :: (List.replicate (-x.point).toNat '0' ++ x.digits)
    else if x.point < x.digits.length then x.digits.take x.point.toNat ++ '.' ::
      x.digits.drop x.point.toNat
    else x.digits ++ (List.replicate (x.point - x.digits.length).toNat '0' ++ ['.', '0'])
  else
    x.digits.take 1 ++ ((if x.digits.length = 1 then [] else '.' :: x.digits.drop 1) ++
      'e' :: (if x.point - 1 < 0 then '-' else '+') :: Binary64.Number.decimalDigits 2
        (x.point - 1).natAbs)

structure WellFormed (x : Decimal) : Prop where
  isDigit : ∀ c ∈ x.digits, c.isDigit = true
  leading : ∃ c cs, x.digits = c :: cs ∧ c ≠ '0'

end Decimal

/-- The digits of the number, rounded to each of up to seventeen digits. -/
def candidates (q : Rat) : List Decimal :=
  let first := Binary64.Number.leadingExponent q.num.natAbs q.den
  (List.range 17).map fun i : Nat =>
    Decimal.ofScaled (Binary64.scaled 10 q.num.natAbs q.den (first - i)) (first - i)

/-- The digits are nearer to this number than to any other. -/
def readsBack (q : Rat) (x : Decimal) : Bool :=
  decide (Binary64.round? (if q < 0 then -x.value else x.value) = some q)

/-- All digits of a number whose denominator is a power of two. -/
def exactDecimal (q : Rat) : Decimal :=
  Decimal.ofScaled (q.num.natAbs * 5 ^ q.den.log2) (-q.den.log2)

/-- The shortest digits that read back. Seventeen are always enough, so the exact expansion is not
reached. -/
def shortest (q : Rat) : Decimal := ((candidates q).find? (readsBack q)).getD (exactDecimal q)

/-- `repr` of a number. A zero has no sign here. -/
def floatRepr (q : Rat) : List Char :=
  if q = 0 then "0.0".toList else if q < 0 then '-' :: (shortest q).text else (shortest q).text

example : floatRepr (3 / 4) = "0.75".toList := by decide +kernel
example : floatRepr (Binary64.round (1 / 10)) = "0.1".toList := by decide +kernel
example : floatRepr (Binary64.round (1 / 30000)) = "3.3333333333333335e-05".toList := by
  decide +kernel

/-- The digits are the kept ones and zeros. -/
theorem digits_ofScaled (m : Nat) (last : Int) :
    ∃ zeros, Nat.toDigits 10 m = (Decimal.ofScaled m last).digits ++ List.replicate zeros '0' := by
  refine ⟨((Nat.toDigits 10 m).reverse.takeWhile fun c => decide (c = '0')).length, ?_⟩
  have hzeros : (Nat.toDigits 10 m).reverse.takeWhile (fun c => decide (c = '0')) =
      List.replicate ((Nat.toDigits 10 m).reverse.takeWhile fun c => decide (c = '0')).length '0' :=
    List.eq_replicate_of_mem fun c hc =>
      of_decide_eq_true (List.all_eq_true.mp List.all_takeWhile c hc)
  have hsplit :=
    congrArg List.reverse (List.takeWhile_append_dropWhile (p := fun c => decide (c = '0'))
      (l := (Nat.toDigits 10 m).reverse))
  rw [List.reverse_append, List.reverse_reverse, hzeros, List.reverse_replicate] at hsplit
  exact hsplit.symm

theorem value_ofScaled (m : Nat) (last : Int) :
    (Decimal.ofScaled m last).value = m * 10 ^ last := by
  obtain ⟨zeros, hdigits⟩ := digits_ofScaled m last
  have hm : m = 10 ^ zeros * Nat.ofDigitChars 10 (Decimal.ofScaled m last).digits 0 := by
    rw [← Nat.ofDigitChars_replicate_zero, ← Nat.ofDigitChars_append, ← hdigits,
      Nat.ofDigitChars_ten_toDigits]
  have hpoint : (Decimal.ofScaled m last).point = (Decimal.ofScaled m last).digits.length + zeros +
      last := by
    have hlength := congrArg List.length hdigits
    rw [List.length_append, List.length_replicate] at hlength
    show ((Nat.toDigits 10 m).length : Int) + last = _
    omega
  unfold Decimal.value
  generalize Nat.ofDigitChars 10 (Decimal.ofScaled m last).digits 0 = n at hm
  rw [hpoint, show ((Decimal.ofScaled m last).digits.length : Int) + zeros + last -
    (Decimal.ofScaled m last).digits.length = zeros + last by omega, hm, zpow_add₀ (by decide),
    zpow_natCast, Nat.cast_mul, Nat.cast_pow, Nat.cast_ofNat, ← mul_assoc, mul_comm (n : Rat)]

theorem wellFormed_ofScaled {m : Nat} (hm : m ≠ 0) (last : Int) :
    (Decimal.ofScaled m last).WellFormed := by
  obtain ⟨zeros, hdigits⟩ := digits_ofScaled m last
  obtain ⟨c, cs, hcons, hc⟩ := digits_cons hm
  constructor
  · intro d hd
    exact isDigit_digits d (hdigits ▸ List.mem_append_left _ hd)
  · cases hkept : (Decimal.ofScaled m last).digits with
    | nil =>
      rw [hkept, List.nil_append, hcons] at hdigits
      exact absurd (List.eq_of_mem_replicate (hdigits ▸ List.mem_cons_self)) hc
    | cons d ds =>
      rw [hkept, hcons] at hdigits
      exact ⟨d, ds, rfl, (List.cons.inj hdigits).1 ▸ hc⟩

/-! ### Reading a binary64 number -/

/-- A whole part: zero, or digits that do not start with zero. -/
def IsWhole (whole : List Char) : Prop :=
  whole = ['0'] ∨ (∀ c ∈ whole, c.isDigit = true) ∧ ∃ c cs, whole = c :: cs ∧ c ≠ '0'

theorem readWhole_of_isWhole {whole rest : List Char} (h : IsWhole whole) (hrest : NoDigit rest) :
    readWhole (whole ++ rest) = some (whole, rest) := by
  rcases h with rfl | ⟨hdigits, c, cs, rfl, hc⟩
  · rfl
  · have hread := readDigits_append (List.cons_ne_nil c cs) hdigits hrest
    rw [List.cons_append] at hread ⊢
    rw [readWhole_of_ne_zero hc, hread]

theorem noDigit_cons {c : Char} {rest : List Char} (hc : c.isDigit = false) :
    NoDigit (c :: rest) := fun d hd => by
  cases hd
  exact hc

/-- A fraction behind the whole part. -/
theorem readUnsigned_fraction {negative : Bool} {whole fraction rest : List Char}
    (hwhole : IsWhole whole) (hne : fraction ≠ []) (hdigits : ∀ c ∈ fraction, c.isDigit = true)
    (hrest : Stops rest) : readUnsigned negative (whole ++ '.' :: (fraction ++ rest)) =
      some (⟨negative, whole, fraction, none⟩, rest) := by
  unfold readUnsigned
  rw [readWhole_of_isWhole hwhole (noDigit_cons (by decide))]
  have hfraction : readFraction ('.' :: (fraction ++ rest)) = (fraction, rest) := by
    rw [readFraction, readDigits_append hne hdigits hrest.noDigit]
    rfl
  simp only [Option.map_some, hfraction, readExponent_of_stops fun c hc => (hrest c hc).2.2]

/-- An exponent behind the other parts. -/
theorem readExponent_digits {negative : Bool} {digits rest : List Char} (hne : digits ≠ [])
    (hdigits : ∀ c ∈ digits, c.isDigit = true) (hrest : NoDigit rest) :
    readExponent ('e' :: (if negative then '-' else '+') :: (digits ++ rest)) =
      (some (if negative then -(Nat.ofDigitChars 10 digits 0 : Int)
        else (Nat.ofDigitChars 10 digits 0 : Int)), rest) := by
  have hsign : readSign ((if negative then '-' else '+') :: (digits ++ rest)) =
      (negative, digits ++ rest) := by
    cases negative with
    | false => rfl
    | true => rfl
  rw [readExponent, if_pos (.inl rfl), hsign, readDigits_append hne hdigits hrest]

/-- The digits of an exponent, at least two of them. -/
theorem decimalDigits_spec (count n : Nat) : Binary64.Number.decimalDigits count n ≠ [] ∧
    (∀ c ∈ Binary64.Number.decimalDigits count n, c.isDigit = true) ∧
    Nat.ofDigitChars 10 (Binary64.Number.decimalDigits count n) 0 = n := by
  unfold Binary64.Number.decimalDigits
  refine ⟨fun h => Nat.toDigits_ne_nil (List.append_eq_nil_iff.mp h).2, fun c hc => ?_, ?_⟩
  · rcases List.mem_append.mp hc with hc | hc
    · rw [List.eq_of_mem_replicate hc]
      decide
    · exact isDigit_digits c hc
  · rw [Nat.ofDigitChars_append, Nat.ofDigitChars_replicate_zero, Nat.mul_zero,
      Nat.ofDigitChars_ten_toDigits]

/-- A text is read as a number of this value, and not as an integer. -/
def ReadAs (text : List Char) (value : Rat) : Prop :=
  ∀ (negative : Bool) (rest : List Char), Stops rest →
    ∃ token, readUnsigned negative (text ++ rest) = some (token, rest) ∧
      token.negative = negative ∧ token.isInteger = false ∧ token.magnitude = value

theorem isDigit_zeros {d : Char} {n : Nat} (h : d ∈ List.replicate n '0') : d.isDigit = true := by
  rw [List.eq_of_mem_replicate h]
  decide

section

variable {x : Decimal}

theorem Decimal.WellFormed.length_pos (hx : x.WellFormed) : 0 < x.digits.length := by
  obtain ⟨c, cs, hcons, -⟩ := hx.leading
  rw [hcons]
  exact Nat.succ_pos _

/-- A number below one. -/
theorem Decimal.WellFormed.read_small (hx : x.WellFormed) (hsmall : x.point ≤ 0) :
    ReadAs ('0' :: '.' :: (List.replicate (-x.point).toNat '0' ++ x.digits)) x.value := by
  intro negative rest hrest
  have hne : List.replicate (-x.point).toNat '0' ++ x.digits ≠ [] :=
    List.append_ne_nil_of_right_ne_nil _ (List.ne_nil_of_length_pos hx.length_pos)
  refine ⟨⟨negative, ['0'], List.replicate (-x.point).toNat '0' ++ x.digits, none⟩, ?_,
    rfl, ?_, ?_⟩
  · exact readUnsigned_fraction (.inl rfl) hne
      (fun d hd => (List.mem_append.mp hd).elim isDigit_zeros (hx.isDigit d)) hrest
  · simp [Token.isInteger, List.ne_nil_of_length_pos hx.length_pos]
  · unfold Token.magnitude Decimal.value
    rw [List.singleton_append, Nat.ofDigitChars_cons, Nat.ofDigitChars_append,
      Nat.ofDigitChars_replicate_zero, List.length_append, List.length_replicate]
    congr 1
    push_cast
    rw [Int.toNat_of_nonneg (by omega)]
    congr 1
    show (0 : Int) - _ = _
    omega

/-- A number with digits on both sides of the point. -/
theorem Decimal.WellFormed.read_inside (hx : x.WellFormed) (hpos : 0 < x.point)
    (hinside : x.point < x.digits.length) :
    ReadAs (x.digits.take x.point.toNat ++ '.' :: x.digits.drop x.point.toNat) x.value := by
  intro negative rest hrest
  obtain ⟨c, cs, hcons, hc⟩ := hx.leading
  have hne : x.digits.drop x.point.toNat ≠ [] :=
    List.ne_nil_of_length_pos (by rw [List.length_drop]; omega)
  have hwhole : IsWhole (x.digits.take x.point.toNat) := by
    refine .inr ⟨fun d hd => hx.isDigit d (List.mem_of_mem_take hd), c,
      cs.take (x.point.toNat - 1), ?_, hc⟩
    rw [hcons, List.take_cons (by omega)]
  refine ⟨⟨negative, x.digits.take x.point.toNat, x.digits.drop x.point.toNat, none⟩, ?_,
    rfl, ?_, ?_⟩
  · rw [List.append_assoc, List.cons_append]
    exact readUnsigned_fraction hwhole hne (fun d hd => hx.isDigit d (List.mem_of_mem_drop hd))
      hrest
  · simp only [Token.isInteger, List.isEmpty_iff, hne, Option.isNone_none, Bool.and_true,
      Bool.eq_false_iff, ne_eq, not_false_eq_true]
  · unfold Token.magnitude Decimal.value
    rw [List.take_append_drop, List.length_drop]
    congr 2
    show (0 : Int) - _ = _
    omega

/-- A whole number. -/
theorem Decimal.WellFormed.read_whole (hx : x.WellFormed) (houtside : x.digits.length ≤ x.point) :
    ReadAs (x.digits ++ (List.replicate (x.point - x.digits.length).toNat '0' ++ ['.', '0']))
      x.value := by
  intro negative rest hrest
  obtain ⟨c, cs, hcons, hc⟩ := hx.leading
  have hwhole : IsWhole (x.digits ++ List.replicate (x.point - x.digits.length).toNat '0') :=
    .inr ⟨fun d hd => (List.mem_append.mp hd).elim (hx.isDigit d) isDigit_zeros, c,
      cs ++ List.replicate (x.point - x.digits.length).toNat '0',
      by rw [hcons, List.cons_append], hc⟩
  refine ⟨⟨negative, x.digits ++ List.replicate (x.point - x.digits.length).toNat '0', ['0'],
    none⟩, ?_, rfl, rfl, ?_⟩
  · rw [← readUnsigned_fraction hwhole (List.cons_ne_nil '0' [])
      (List.forall_mem_singleton.mpr rfl) hrest]
    simp
  · unfold Token.magnitude Decimal.value
    obtain ⟨zeros, hzeros⟩ :=
      Int.eq_ofNat_of_zero_le (show 0 ≤ x.point - x.digits.length by omega)
    rw [hzeros, Int.toNat_natCast, List.append_assoc, ← List.replicate_succ',
      Nat.ofDigitChars_append, Nat.ofDigitChars_replicate_zero, Nat.cast_mul, Nat.cast_pow,
      Nat.cast_ofNat, zpow_natCast, pow_succ]
    show (10 : Rat) ^ zeros * 10 * _ * 10 ^ (-1 : Int) = _
    rw [zpow_neg_one, mul_assoc, mul_assoc, mul_comm (Nat.ofDigitChars 10 x.digits 0 : Rat) _,
      ← mul_assoc (10 : Rat), mul_inv_cancel₀ (by decide), one_mul, mul_comm]

/-- The exponent behind the digits of a number. -/
theorem readExponent_point {rest : List Char} (hrest : NoDigit rest) :
    readExponent ('e' :: (if x.point - 1 < 0 then '-' else '+') ::
      (Binary64.Number.decimalDigits 2 (x.point - 1).natAbs ++ rest)) =
        (some (x.point - 1), rest) := by
  obtain ⟨hne, hexponent, hvalue⟩ := decimalDigits_spec 2 (x.point - 1).natAbs
  have hsign : (if x.point - 1 < 0 then '-' else '+') =
      if decide (x.point - 1 < 0) then '-' else '+' := by simp
  have hpower : (if decide (x.point - 1 < 0) then -((x.point - 1).natAbs : Int)
      else ((x.point - 1).natAbs : Int)) = x.point - 1 := by
    split <;> rename_i h <;> simp only [decide_eq_true_eq] at h <;> omega
  rw [hsign, readExponent_digits hne hexponent hrest, hvalue, hpower]

/-- A number with an exponent. -/
theorem Decimal.WellFormed.read_exponent (hx : x.WellFormed) :
    ReadAs (x.digits.take 1 ++ ((if x.digits.length = 1 then [] else '.' :: x.digits.drop 1) ++
      'e' :: (if x.point - 1 < 0 then '-' else '+') ::
        Binary64.Number.decimalDigits 2 (x.point - 1).natAbs)) x.value := by
  intro negative rest hrest
  obtain ⟨c, cs, hcons, hc⟩ := hx.leading
  have hpositive := hx.length_pos
  have hwhole : IsWhole (x.digits.take 1) :=
    .inr ⟨fun d hd => hx.isDigit d (List.mem_of_mem_take hd), c, [], by rw [hcons]; rfl, hc⟩
  refine ⟨⟨negative, x.digits.take 1, x.digits.drop 1, some (x.point - 1)⟩, ?_, rfl, ?_, ?_⟩
  · unfold readUnsigned
    by_cases hone : x.digits.length = 1
    · rw [if_pos hone, List.nil_append, List.append_assoc, List.cons_append, List.cons_append,
        readWhole_of_isWhole hwhole (noDigit_cons (by decide))]
      simp only [Option.map_some]
      rw [readFraction_of_stops fun d hd => by cases hd; decide, readExponent_point hrest.noDigit,
        List.drop_of_length_le hone.le]
    · have hdrop : x.digits.drop 1 ≠ [] :=
        List.ne_nil_of_length_pos (by rw [List.length_drop]; omega)
      rw [if_neg hone, List.append_assoc, List.append_assoc, List.cons_append, List.cons_append,
        List.cons_append, readWhole_of_isWhole hwhole (noDigit_cons (by decide))]
      simp only [Option.map_some]
      rw [readFraction, readDigits_append hdrop (fun d hd => hx.isDigit d (List.mem_of_mem_drop hd))
        (noDigit_cons (by decide)), Option.getD_some, readExponent_point hrest.noDigit]
  · simp [Token.isInteger]
  · unfold Token.magnitude Decimal.value
    rw [List.take_append_drop, List.length_drop]
    congr 2
    show x.point - 1 - _ = _
    omega

theorem Decimal.WellFormed.readAs_text (hx : x.WellFormed) : ReadAs x.text x.value := by
  unfold Decimal.text
  by_cases hpositional : -4 < x.point ∧ x.point ≤ 16
  · rw [if_pos hpositional]
    split_ifs with hsmall hinside
    · exact hx.read_small hsmall
    · exact hx.read_inside (not_le.mp hsmall) hinside
    · exact hx.read_whole (not_lt.mp hinside)
  · rw [if_neg hpositional]
    exact hx.read_exponent

end

/-! ### The shortest digits -/

/-- The denominator of a binary64 number is a power of two. -/
theorem den_of_isDouble {q : Rat} (hq : Binary64.isDouble q = true) : q.den = 2 ^ q.den.log2 := by
  have hround := of_decide_eq_true hq
  unfold Binary64.round? at hround
  obtain ⟨z, e, rfl⟩ : ∃ (z : Int) (e : Int), q = z * 2 ^ e := by
    cases hnearest : Binary64.nearest (decide (q < 0)) q.num.natAbs q.den with
    | infinite negative =>
      rw [hnearest] at hround
      cases hround
    | finite negative significand exponent =>
      rw [hnearest] at hround
      have hvalue := Option.some.inj hround
      refine ⟨if negative then -(significand : Int) else significand, exponent, ?_⟩
      rw [← hvalue]
      cases negative with
      | false => simp
      | true => simp
  obtain ⟨k, hk⟩ : ∃ k : Nat, (z * 2 ^ e : Rat).den ∣ 2 ^ k := by
    rcases le_total 0 e with hpos | hneg
    · obtain ⟨k, rfl⟩ := Int.eq_ofNat_of_zero_le hpos
      refine ⟨0, ?_⟩
      have hint : (z * 2 ^ (k : Int) : Rat) = ((z * 2 ^ k : Int) : Rat) := by
        rw [zpow_natCast]; norm_cast
      rw [hint, Rat.den_intCast, pow_zero]
    · obtain ⟨k, hk⟩ := Int.eq_ofNat_of_zero_le (Int.neg_nonneg_of_nonpos hneg)
      obtain rfl : e = -(k : Int) := by omega
      refine ⟨k, ?_⟩
      have hdiv : (z * 2 ^ (-(k : Int)) : Rat) = (z : Rat) / ((2 ^ k : Int) : Rat) := by
        rw [zpow_neg, zpow_natCast, div_eq_mul_inv]
        norm_cast
      rw [hdiv]
      exact_mod_cast Rat.den_dvd z (2 ^ k)
  obtain ⟨j, -, hj⟩ := (Nat.dvd_prime_pow Nat.prime_two).mp hk
  rw [hj, Nat.log2_two_pow]

theorem value_exactDecimal {q : Rat} (hq : Binary64.isDouble q = true) :
    (exactDecimal q).value = |q| := by
  have hden := den_of_isDouble hq
  generalize hj : q.den.log2 = j at hden
  have hq' : |q| = (q.num.natAbs : Rat) / 2 ^ j := by
    calc |q| = |(q.num : Rat) / q.den| := by rw [Rat.num_div_den]
      _ = |(q.num : Rat)| / |(q.den : Rat)| := abs_div _ _
      _ = (q.num.natAbs : Rat) / 2 ^ j := by
        rw [Nat.abs_cast, hden, Nat.cast_natAbs, Int.cast_abs, Nat.cast_pow, Nat.cast_ofNat]
  unfold exactDecimal
  rw [value_ofScaled, hj, hq', zpow_neg, zpow_natCast, Nat.cast_mul, Nat.cast_pow, Nat.cast_ofNat,
    div_eq_mul_inv, mul_assoc,
    show (10 : Rat) = 5 * 2 by norm_num, mul_pow, mul_inv, ← mul_assoc (5 ^ j : Rat),
      mul_inv_cancel₀ (pow_ne_zero j (by norm_num)), one_mul]

/-- The shortest digits are digits, and they read back. -/
theorem shortest_spec {q : Rat} (hq : Binary64.isDouble q = true) (hne : q ≠ 0) :
    (shortest q).WellFormed ∧
    Binary64.round? (if q < 0 then -(shortest q).value else (shortest q).value) = some q := by
  unfold shortest
  cases hfind : (candidates q).find? (readsBack q) with
  | some x =>
    rw [Option.getD_some]
    have hreads : readsBack q x = true := List.find?_some hfind
    have hback := of_decide_eq_true hreads
    obtain ⟨i, -, rfl⟩ := List.mem_map.mp (List.mem_of_find?_eq_some hfind)
    refine ⟨wellFormed_ofScaled (fun hzero => hne ?_) _, hback⟩
    rw [hzero, value_ofScaled, Nat.cast_zero, zero_mul, neg_zero, ite_self, show Binary64.round? 0 =
      some 0 by decide +kernel] at hback
    exact (Option.some.inj hback).symm
  | none =>
    rw [Option.getD_none, value_exactDecimal hq]
    have hnum : q.num.natAbs ≠ 0 := fun h => hne (Rat.num_eq_zero.mp (Int.natAbs_eq_zero.mp h))
    have hsigned : (if q < 0 then -|q| else |q|) = q := by
      split
      · rename_i hneg
        rw [abs_of_neg hneg, neg_neg]
      · rename_i hpos
        exact abs_of_nonneg (not_lt.mp hpos)
    rw [hsigned]
    exact ⟨wellFormed_ofScaled (Nat.mul_ne_zero hnum (pow_ne_zero _ (by decide))) _,
      of_decide_eq_true hq⟩

theorem readToken_floatRepr {q : Rat} (hq : Binary64.isDouble q = true) {rest : List Char}
    (hrest : Stops rest) : ∃ token, readToken (floatRepr q ++ rest) = some (token, rest) ∧
    token.isInteger = false ∧ Binary64.round? token.rational = some q := by
  unfold floatRepr
  by_cases hzero : q = 0
  · subst hzero
    refine ⟨⟨false, ['0'], ['0'], none⟩, ?_, rfl, by decide +kernel⟩
    rw [if_pos rfl]
    exact readUnsigned_fraction (.inl rfl) (List.cons_ne_nil '0' [])
      (List.forall_mem_singleton.mpr rfl) hrest
  rw [if_neg hzero]
  obtain ⟨hformed, hback⟩ := shortest_spec hq hzero
  by_cases hneg : q < 0
  · obtain ⟨token, hread, hnegative, hinteger, hmagnitude⟩ := hformed.readAs_text true rest hrest
    rw [if_pos hneg] at hback ⊢
    refine ⟨token, hread, hinteger, ?_⟩
    rw [← hback, Token.rational, Token.signed, if_pos hnegative, hmagnitude]
  · obtain ⟨token, hread, hnegative, hinteger, hmagnitude⟩ := hformed.readAs_text false rest hrest
    rw [if_neg hneg] at hback ⊢
    refine ⟨token, readToken_of_unsigned hread, hinteger, ?_⟩
    rw [← hback, Token.rational, Token.signed, hnegative, hmagnitude]
    rfl

end Decimals
