import Mathlib.Data.Rat.Lemmas
import Mathlib.Algebra.Order.Ring.Rat
import Mathlib.Data.Rat.Cast.Order

/-!
# Binary64 numbers

The nearest binary64 number of a fraction, ties to even, and its general format with six significant
digits. A number is a sign, a significand and a power of two. Natural numbers below a million are
printed with all their digits (`formatG_nearest_of_lt`).
-/

namespace Binary64

/-- `n / d`, rounded to the nearest integer, ties to the even one. -/
def divHalfEven (n d : Nat) : Nat :=
  if 2 * (n % d) < d then n / d
  else if d < 2 * (n % d) then n / d + 1
  else if n / d % 2 = 0 then n / d
  else n / d + 1

theorem divHalfEven_mul (n : Nat) {d : Nat} (h : 0 < d) : divHalfEven (n * d) d = n := by
  unfold divHalfEven
  rw [Nat.mul_mod_left, if_pos (by omega), Nat.mul_div_cancel _ h]

/-- `n / d / base^exponent`, rounded to the nearest integer. -/
def scaled (base n d : Nat) (exponent : Int) : Nat :=
  if 0 ≤ exponent then divHalfEven n (d * base ^ exponent.toNat)
    else divHalfEven (n * base ^ (-exponent).toNat) d

/-- `base^exponent ≤ n / d`. -/
def atLeast (base n d : Nat) (exponent : Int) : Bool :=
  if 0 ≤ exponent then decide (d * base ^ exponent.toNat ≤ n)
    else decide (d ≤ n * base ^ (-exponent).toNat)

/-- What a computation in binary64 yields. -/
inductive Number
  | finite (negative : Bool) (significand : Nat) (exponent : Int)
  | infinite (negative : Bool)
  deriving DecidableEq

/-- The power of two of the last binary digit of `n / d`. -/
def unitExponent (n d : Nat) : Int :=
  let e : Int := (n.log2 : Int) - d.log2
  max (-1074) ((if atLeast 2 n d e then e else e - 1) - 52)

/-- The nearest number of `± n / d`. -/
def nearest (negative : Bool) (n d : Nat) : Number :=
  if n = 0 then .finite negative 0 0
  else if atLeast 2 (scaled 2 n d (unitExponent n d)) 1 (1024 - unitExponent n d)
    then .infinite negative
  else .finite negative (scaled 2 n d (unitExponent n d)) (unitExponent n d)

namespace Number

/-- The rational number of a finite number. -/
def value : Number → Option Rat
  | finite negative significand exponent =>
    let magnitude := (significand : Rat) * (2 : Rat) ^ exponent
    some (if negative then -magnitude else magnitude)
  | infinite _ => none

/-- The decimal digits of a number, the last `count` of them. -/
def decimalDigits (count n : Nat) : List Char :=
  let text := Nat.toDigits 10 n
  List.replicate (count - text.length) '0' ++ text

/-- Without trailing zeros, and without a point at the end. -/
def dropZeros (whole decimals : List Char) : List Char :=
  let kept := (decimals.reverse.dropWhile fun c => decide (c = '0')).reverse
  if kept.isEmpty then whole else whole ++ '.' :: kept

/-- The power of ten of the first decimal digit of `n / d`. -/
def leadingExponent (n d : Nat) : Int :=
  let e : Int := ((Nat.toDigits 10 n).length : Int) - (Nat.toDigits 10 d).length
  if atLeast 10 n d e then e else e - 1

/-- `n / d` with six significant digits. -/
def generalDigits (n d : Nat) : List Char :=
  let first := leadingExponent n d
  let rounded := scaled 10 n d (first - 5)
  let exponent := if rounded = 10 ^ 6 then first + 1 else first
  let six := decimalDigits 6 (if rounded = 10 ^ 6 then 10 ^ 5 else rounded)
  if exponent < -4 ∨ 6 ≤ exponent then
    dropZeros (six.take 1) (six.drop 1) ++ 'e' :: (if exponent < 0 then '-' else '+') ::
      decimalDigits 2 exponent.natAbs
  else if 0 ≤ exponent
    then dropZeros (six.take (exponent.toNat + 1)) (six.drop (exponent.toNat + 1))
  else dropZeros ['0'] (List.replicate ((-exponent).toNat - 1) '0' ++ six)

/-- `format(number, "g")`. -/
def formatG : Number → String
  | infinite negative => if negative then "-inf" else "inf"
  | finite negative significand exponent =>
    let digits := if significand = 0 then ['0']
      else if 0 ≤ exponent then generalDigits (significand * 2 ^ exponent.toNat) 1
      else generalDigits significand (2 ^ (-exponent).toNat)
    String.ofList (if negative then '-' :: digits else digits)

end Number

/-- The rational number, rounded to the nearest number. -/
def round? (q : Rat) : Option Rat := (nearest (decide (q < 0)) q.num.natAbs q.den).value

/-- The result of an operation whose exact result is this rational number; the operations below do
not overflow. -/
def round (q : Rat) : Rat := (round? q).getD q

/-- The rational number is a number. -/
def isDouble (q : Rat) : Bool := decide (round? q = some q)

/-! ### Whole numbers -/

/-- A natural number below `2^53` keeps all its digits. -/
theorem nearest_of_lt {n : Nat} (hzero : n ≠ 0) (h : n < 2 ^ 53) :
    ∃ k : Nat, nearest false n 1 = .finite false (n * 2 ^ k) (-(k : Int)) := by
  have hlog : n.log2 < 53 := (Nat.log2_lt hzero).mpr h
  obtain ⟨k, hk⟩ : ∃ k, n.log2 + k = 52 := Nat.exists_eq_add_of_le (by omega) |>.imp
    fun _ => Eq.symm
  have hleast : atLeast 2 n 1 n.log2 = true := by
    unfold atLeast
    rw [if_pos (Int.natCast_nonneg _), Int.toNat_natCast, Nat.one_mul]
    exact decide_eq_true (Nat.log2_self_le hzero)
  have hunit : unitExponent n 1 = -(k : Int) := by
    unfold unitExponent
    rw [show Nat.log2 1 = 0 from rfl, Int.natCast_zero, Int.sub_zero]
    show max (-1074) ((if atLeast 2 n 1 n.log2 = true then _ else _) - 52) = _
    rw [if_pos hleast]
    omega
  have hscaled : scaled 2 n 1 (unitExponent n 1) = n * 2 ^ k := by
    rw [hunit]
    unfold scaled
    by_cases hk : k = 0
    · subst hk
      have := divHalfEven_mul n Nat.one_pos
      rw [Nat.mul_one] at this
      rw [Int.natCast_zero, Int.neg_zero, if_pos (le_refl _), Nat.pow_zero, Nat.mul_one]
      exact this
    · rw [if_neg (by omega), Int.neg_neg, Int.toNat_natCast]
      have := divHalfEven_mul (n * 2 ^ k) Nat.one_pos
      rwa [Nat.mul_one] at this
  have hfinite : atLeast 2 (scaled 2 n 1 (unitExponent n 1)) 1 (1024 - unitExponent n 1) =
      false := by
    rw [hscaled, hunit]
    obtain ⟨limit, hlimit⟩ : ∃ limit : Nat, (limit : Int) = 1024 := ⟨1024, rfl⟩
    rw [← hlimit]
    unfold atLeast
    rw [if_pos (by omega), decide_eq_false_iff_not, Nat.not_le, Nat.one_mul,
      show ((limit : Int) - -(k : Int)).toNat = limit + k by omega, Nat.pow_add]
    exact Nat.mul_lt_mul_of_pos_right
      (h.trans_le (Nat.pow_le_pow_right (by decide) (by omega))) (Nat.pow_pos (by decide))
  refine ⟨k, ?_⟩
  unfold nearest
  rw [if_neg hzero, if_neg (by rw [hfinite]; exact Bool.false_ne_true), hscaled, hunit]

namespace Number

theorem toDigits_mul_pow {n : Nat} (hzero : n ≠ 0) (k : Nat) :
    Nat.toDigits 10 (n * 10 ^ k) = Nat.toDigits 10 n ++ List.replicate k '0' := by
  induction k with
  | zero => rw [pow_zero, Nat.mul_one, List.replicate_zero, List.append_nil]
  | succ k ih =>
    have hpos : 0 < n * 10 ^ k := Nat.mul_pos (Nat.pos_of_ne_zero hzero) (Nat.pow_pos (by decide))
    have hdiv : n * 10 ^ (k + 1) / 10 = n * 10 ^ k := by
      rw [Nat.pow_succ, ← Nat.mul_assoc, Nat.mul_div_cancel _ (by decide)]
    have hmod : n * 10 ^ (k + 1) % 10 = 0 := by
      rw [Nat.pow_succ, ← Nat.mul_assoc, Nat.mul_mod_left]
    rw [Nat.toDigits_of_base_le (by decide) (by omega), hdiv, hmod, ih, List.append_assoc,
      List.replicate_succ']
    rfl

/-- The first decimal digit of a natural number, written as a fraction. -/
theorem leadingExponent_mul {n d : Nat} (hn : n ≠ 0) (hd : d ≠ 0) :
    leadingExponent (n * d) d = (Nat.toDigits 10 n).length - 1 := by
  have hupper : ∀ m, m < 10 ^ (Nat.toDigits 10 m).length := fun m =>
    (Nat.length_toDigits_le_iff (by decide) Nat.length_toDigits_pos).mp (le_refl _)
  have hlower : ∀ {m}, m ≠ 0 → ∀ k, 10 ^ k ≤ m → k < (Nat.toDigits 10 m).length := by
    intro m hm k hle
    exact (Nat.pow_lt_pow_iff_right (by decide)).mp (hle.trans_lt (hupper m))
  have hlead : ∀ {m}, m ≠ 0 → 10 ^ ((Nat.toDigits 10 m).length - 1) ≤ m := by
    intro m hm
    by_contra hlt
    by_cases hone : (Nat.toDigits 10 m).length = 1
    · rw [hone, Nat.sub_self, pow_zero] at hlt
      omega
    · have hpos := Nat.length_toDigits_pos (b := 10) (n := m)
      have := (Nat.length_toDigits_le_iff (b := 10) (by decide) (by omega)).mpr
        (Nat.lt_of_not_le hlt)
      omega
  have hnd : n * d ≠ 0 := Nat.mul_ne_zero hn hd
  have hposn := Nat.length_toDigits_pos (b := 10) (n := n)
  have hposd := Nat.length_toDigits_pos (b := 10) (n := d)
  have habove : (Nat.toDigits 10 (n * d)).length ≤ (Nat.toDigits 10 n).length +
      (Nat.toDigits 10 d).length := by
    rw [Nat.length_toDigits_le_iff (by decide) (by omega), Nat.pow_add]
    exact Nat.mul_lt_mul'' (hupper n) (hupper d)
  have hbelow : (Nat.toDigits 10 n).length - 1 + ((Nat.toDigits 10 d).length - 1) <
      (Nat.toDigits 10 (n * d)).length := by
    refine hlower hnd _ ?_
    rw [Nat.pow_add]
    exact Nat.mul_le_mul (hlead hn) (hlead hd)
  have hatLeast : ∀ k : Nat, atLeast 10 (n * d) d (k : Int) = decide (10 ^ k ≤ n) := by
    intro k
    unfold atLeast
    rw [if_pos (Int.natCast_nonneg k), Int.toNat_natCast, Nat.mul_comm n d]
    exact decide_eq_decide.mpr (Nat.mul_le_mul_left_iff (Nat.pos_of_ne_zero hd))
  unfold leadingExponent
  by_cases hlong : (Nat.toDigits 10 (n * d)).length =
      (Nat.toDigits 10 n).length + (Nat.toDigits 10 d).length
  · have hexponent : ((Nat.toDigits 10 (n * d)).length : Int) - (Nat.toDigits 10 d).length =
        ((Nat.toDigits 10 n).length : Nat) := by omega
    have hnot := Nat.not_le.mpr (hupper n)
    simp only [hexponent, hatLeast, hnot, decide_false, Bool.false_eq_true, if_false]
  · have hexponent : ((Nat.toDigits 10 (n * d)).length : Int) - (Nat.toDigits 10 d).length =
        ((Nat.toDigits 10 n).length - 1 : Nat) := by omega
    have hle := hlead hn
    simp only [hexponent, hatLeast, hle, decide_true, if_true]
    omega

theorem dropZeros_replicate (whole : List Char) (k : Nat) :
    dropZeros whole (List.replicate k '0') = whole := by
  have hnone : (List.replicate k '0').dropWhile (fun c => decide (c = '0')) = [] := by
    rw [List.dropWhile_replicate]
    rfl
  unfold dropZeros
  rw [List.reverse_replicate, hnone]
  rfl

/-- Six digits are all digits of a natural number below a million. -/
theorem generalDigits_of_lt {n d : Nat} (hn : n ≠ 0) (hd : d ≠ 0) (h : n < 10 ^ 6) :
    generalDigits (n * d) d = Nat.toDigits 10 n := by
  have hpos := Nat.length_toDigits_pos (b := 10) (n := n)
  obtain ⟨k, hk⟩ : ∃ k, (Nat.toDigits 10 n).length + k = 6 :=
    Nat.exists_eq_add_of_le ((Nat.length_toDigits_le_iff (by decide) (by decide)).mpr h) |>.imp
      fun _ => Eq.symm
  have hfirst : leadingExponent (n * d) d = 5 - (k : Int) := by
    rw [leadingExponent_mul hn hd]
    omega
  have hscaled : scaled 10 (n * d) d (5 - (k : Int) - 5) = n * 10 ^ k := by
    have hdpos := Nat.pos_of_ne_zero hd
    unfold scaled
    by_cases hzero : k = 0
    · subst hzero
      have hexact := divHalfEven_mul n hdpos
      simpa using hexact
    · rw [if_neg (by omega), show (-(5 - (k : Int) - 5)).toNat = k by omega, Nat.mul_right_comm]
      exact divHalfEven_mul _ hdpos
  have hlength : (Nat.toDigits 10 (n * 10 ^ k)).length = 6 := by
    rw [toDigits_mul_pow hn, List.length_append, List.length_replicate, hk]
  have hrounded : n * 10 ^ k ≠ 10 ^ 6 := by
    have hlt : n * 10 ^ k < 10 ^ 6 := by
      rw [← hlength]
      exact (Nat.length_toDigits_le_iff (by decide) Nat.length_toDigits_pos).mp (le_refl _)
    exact hlt.ne
  have hsix : decimalDigits 6 (n * 10 ^ k) = Nat.toDigits 10 n ++ List.replicate k '0' := by
    unfold decimalDigits
    simp only [hlength, Nat.sub_self, List.replicate_zero, List.nil_append]
    exact toDigits_mul_pow hn k
  have hwhole : (5 - (k : Int)).toNat + 1 = (Nat.toDigits 10 n).length := by omega
  unfold generalDigits
  simp only [hfirst, hscaled, if_neg hrounded, hsix, hwhole]
  rw [if_neg (by omega), if_pos (by omega), List.take_left, List.drop_left, dropZeros_replicate]

end Number

/-- A natural number below a million is printed with all its digits. -/
theorem formatG_nearest_of_lt {n : Nat} (h : n < 10 ^ 6) :
    (nearest false n 1).formatG = String.ofList (Nat.toDigits 10 n) := by
  by_cases hzero : n = 0
  · subst hzero
    rfl
  obtain ⟨k, hnearest⟩ := nearest_of_lt hzero (h.trans (by decide))
  have hpow : 2 ^ k ≠ 0 := (Nat.pow_pos (by decide)).ne'
  have hsignificand : n * 2 ^ k ≠ 0 := Nat.mul_ne_zero hzero hpow
  rw [hnearest]
  simp only [Number.formatG, if_neg hsignificand, Bool.false_eq_true, if_false]
  by_cases hk : k = 0
  · subst hk
    rw [← Number.generalDigits_of_lt hzero Nat.one_ne_zero h]
    simp
  · rw [if_neg (by omega), Int.neg_neg, Int.toNat_natCast, Number.generalDigits_of_lt hzero hpow h]

example : (nearest false 1234567 1).formatG = "1.23457e+06" := by decide +kernel
example : (nearest true 1 10).formatG = "-0.1" := by decide +kernel
example : (nearest false 123456 1000000000).formatG = "0.000123456" := by decide +kernel

end Binary64
