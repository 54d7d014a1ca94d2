import Mathlib.Data.Rat.Floor
import NewApi.Lib.Decimal

/-!
# The value of a decimal

A decimal stands for a rational number.  Sums and products are those of the values, and the integer
part is the value cut off towards zero, as far as an `int64` keeps it.
-/

namespace NewApi.Lib

namespace Decimal

/-- The number that a decimal stands for. -/
def toRat (d : Decimal) : ℚ :=
  d.coef * 10 ^ d.exp

/-- Cut off the fraction, towards zero. -/
def truncate (q : ℚ) : ℤ :=
  if 0 ≤ q then ⌊q⌋ else ⌈q⌉

@[simp] theorem truncate_intCast (n : ℤ) : truncate n = n := by
  rw [truncate, Int.floor_intCast, Int.ceil_intCast, ite_id]

/-- A number is cut off to an integer: this is the next one on the side of zero. -/
def CutTo (n : ℤ) (q : ℚ) : Prop :=
  if 0 ≤ q then n ≤ q ∧ q < n + 1 else n - 1 < q ∧ q ≤ n

theorem truncate_eq_iff (q : ℚ) (n : ℤ) : truncate q = n ↔ CutTo n q := by
  unfold truncate CutTo
  split
  · exact Int.floor_eq_iff
  · exact Int.ceil_eq_iff

theorem truncate_div (n : ℤ) (d : ℕ) : truncate (n / d) = n.tdiv d := by
  rcases Nat.eq_zero_or_pos d with rfl | hd
  · simp [truncate]
  have hd' : (0 : ℚ) < d := Nat.cast_pos.2 hd
  rw [truncate]
  split
  case isTrue hpos =>
    have hn : 0 ≤ n := by
      have hmul := mul_nonneg hpos hd'.le
      rw [div_mul_cancel₀ _ hd'.ne'] at hmul
      exact Int.cast_nonneg_iff.1 hmul
    rw [Rat.floor_intCast_div_natCast, Int.tdiv_eq_ediv_of_nonneg hn]
  case isFalse hneg =>
    have hn : 0 ≤ -n := by
      by_contra hpos
      exact hneg (div_nonneg (Int.cast_nonneg (by omega)) hd'.le)
    have hceil : ⌈(n / d : ℚ)⌉ = -⌊((-n : ℤ) / d : ℚ)⌋ := by
      rw [← Int.ceil_neg, Int.cast_neg, neg_div, neg_neg]
    rw [hceil, Rat.floor_intCast_div_natCast, ← Int.tdiv_eq_ediv_of_nonneg hn, Int.neg_tdiv,
      neg_neg]

@[simp] theorem toRat_ofInt (n : ℤ) : (ofInt n).toRat = n := by
  simp [toRat, ofInt]

theorem toRat_mul (a b : Decimal) : (a * b).toRat = a.toRat * b.toRat := by
  have hexp : ((10 : ℚ) ^ (a.exp + b.exp)) = 10 ^ a.exp * 10 ^ b.exp := zpow_add₀ (by norm_num) _ _
  show ((a.coef * b.coef : ℤ) : ℚ) * 10 ^ (a.exp + b.exp) = _
  rw [toRat, toRat, hexp, Int.cast_mul]
  ring

/-- The coefficient at another exponent is the value in units of that power of ten. -/
theorem rescale_eq (d : Decimal) (exp : ℤ) : d.rescale exp = truncate (d.toRat / 10 ^ exp) := by
  have hten : (10 : ℚ) ≠ 0 := by norm_num
  have hvalue : d.toRat / 10 ^ exp = d.coef * 10 ^ (d.exp - exp) := by
    rw [toRat, zpow_sub₀ hten, mul_div_assoc]
  rw [hvalue, rescale]
  split
  case isTrue hle =>
    have hpow : (10 : ℚ) ^ (d.exp - exp) = ((10 ^ (d.exp - exp).toNat : ℤ) : ℚ) := by
      rw [Int.cast_pow, ← zpow_natCast, Int.toNat_of_nonneg (by omega)]
      norm_num
    rw [hpow, ← Int.cast_mul, truncate_intCast]
  case isFalse hlt =>
    have hpow : (10 : ℚ) ^ (d.exp - exp) = 1 / ((10 ^ (exp - d.exp).toNat : ℕ) : ℚ) := by
      rw [Nat.cast_pow, ← zpow_natCast, Int.toNat_of_nonneg (by omega), one_div, ← zpow_neg,
        neg_sub]
      norm_num
    rw [hpow, mul_one_div, truncate_div]
    norm_num

theorem rescale_zero (d : Decimal) : d.rescale 0 = truncate d.toRat := by
  rw [rescale_eq, zpow_zero, div_one]

theorem intPart_eq (d : Decimal) : d.intPart = (truncate d.toRat).bmod (2 ^ 64) := by
  rw [intPart, rescale_zero]

/-- At a smaller exponent no digit is lost. -/
theorem toRat_rescale {d : Decimal} {exp : ℤ} (hexp : exp ≤ d.exp) :
    (d.rescale exp : ℚ) * 10 ^ exp = d.toRat := by
  have hten : (10 : ℚ) ≠ 0 := by norm_num
  have hpow : ((10 ^ (d.exp - exp).toNat : ℤ) : ℚ) = 10 ^ (d.exp - exp) := by
    rw [Int.cast_pow, ← zpow_natCast, Int.toNat_of_nonneg (by omega)]
    norm_num
  rw [rescale, if_pos hexp, Int.cast_mul, hpow, mul_assoc, ← zpow_add₀ hten, sub_add_cancel, toRat]

theorem toRat_add (a b : Decimal) : (a + b).toRat = a.toRat + b.toRat := by
  show ((a.rescale (min a.exp b.exp) + b.rescale (min a.exp b.exp) : ℤ) : ℚ) *
    10 ^ min a.exp b.exp = _
  rw [Int.cast_add, add_mul, toRat_rescale (min_le_left _ _), toRat_rescale (min_le_right _ _)]

theorem lt_iff (a b : Decimal) : a.lt b = true ↔ a.toRat < b.toRat := by
  have hpow : (0 : ℚ) < 10 ^ min a.exp b.exp := zpow_pos (by norm_num) _
  rw [lt, decide_eq_true_eq, ← toRat_rescale (d := a) (min_le_left a.exp b.exp),
    ← toRat_rescale (d := b) (min_le_right a.exp b.exp), mul_lt_mul_iff_left₀ hpow, Int.cast_lt]

theorem le_iff (a b : Decimal) : a.le b = true ↔ a.toRat ≤ b.toRat := by
  rw [le, Bool.not_eq_true', ← Bool.not_eq_true, lt_iff, not_lt]

/-- A quotient that ends within sixteen decimals is not rounded. -/
theorem div_eq_of_exact {a b : Decimal} {k : ℤ} (hb : b.coef ≠ 0)
    (hk : a.toRat * 10 ^ 16 = k * b.toRat) : a / b = ⟨k, -16⟩ := by
  have hten : (10 : ℚ) ≠ 0 := by norm_num
  have hquotient {num den : ℤ} (hden : den ≠ 0) (hnum : num = k * den) :
      (if 2 * (num.tmod den).natAbs < den.natAbs then num.tdiv den
        else num.tdiv den + if num.sign * den.sign < 0 then -1 else 1) = k := by
    rw [hnum, Int.mul_tmod_left, if_pos (by omega), Int.mul_tdiv_cancel k hden]
  have hscaled : (a.coef : ℚ) * 10 ^ (a.exp - b.exp + 16) = k * b.coef := by
    have hpow : (10 : ℚ) ^ (a.exp - b.exp + 16) * 10 ^ b.exp = 10 ^ a.exp * 10 ^ 16 := by
      rw [← zpow_add₀ hten, ← zpow_natCast, ← zpow_add₀ hten]
      congr 1
      push_cast
      omega
    refine mul_right_cancel₀ (zpow_ne_zero b.exp hten) ?_
    rw [toRat, toRat] at hk
    rw [mul_assoc, hpow, ← mul_assoc, hk, mul_assoc]
  show div a b = _
  unfold div
  dsimp only
  by_cases hexp : a.exp - b.exp + 16 < 0
  · -- the divisor is extended
    rw [if_pos hexp, if_pos hexp, hquotient (mul_ne_zero hb (pow_ne_zero _ (by norm_num))) ?_]
    have hpow : (10 : ℚ) ^ (-(a.exp - b.exp + 16)).toNat * 10 ^ (a.exp - b.exp + 16) = 1 := by
      rw [← zpow_natCast, Int.toNat_of_nonneg (by omega), ← zpow_add₀ hten, neg_add_cancel,
        zpow_zero]
    have hcoef : (a.coef : ℚ) = k * (b.coef * 10 ^ (-(a.exp - b.exp + 16)).toNat) := by
      rw [← mul_assoc, ← hscaled, mul_assoc, mul_comm (10 ^ (a.exp - b.exp + 16) : ℚ), hpow,
        mul_one]
    exact_mod_cast hcoef
  · -- the dividend is extended
    rw [if_neg hexp, if_neg hexp, hquotient hb ?_]
    have hcoef : (a.coef : ℚ) * 10 ^ (a.exp - b.exp + 16).toNat = k * b.coef := by
      rw [← hscaled, ← zpow_natCast, Int.toNat_of_nonneg (by omega)]
    exact_mod_cast hcoef

theorem isZero_iff (d : Decimal) : d.isZero = true ↔ d.toRat = 0 := by
  have hpow : (10 : ℚ) ^ d.exp ≠ 0 := zpow_ne_zero _ (by norm_num)
  rw [isZero, decide_eq_true_eq, toRat, mul_eq_zero, or_iff_left hpow, Int.cast_eq_zero]

/-- Round to an integer by way of the tenths, half away from zero. -/
def roundTenths (q : ℚ) : ℤ :=
  let tenths := truncate (q * 10)
  if tenths < 0 then (tenths - 5).tdiv 10 else (tenths + 5).tdiv 10

/-- Round to an `int64`, which keeps the low bits. -/
def roundInt64 (q : ℚ) : ℤ :=
  (roundTenths q).bmod (2 ^ 64)

theorem rescale_zero_round (d : Decimal) : d.round.rescale 0 = roundTenths d.toRat := by
  rw [round]
  split
  case isTrue hexp =>
    have hvalue : d.toRat = d.coef := by rw [toRat, hexp, zpow_zero, mul_one]
    have htenths : truncate (d.toRat * 10) = d.coef * 10 := by
      rw [hvalue]
      exact_mod_cast truncate_intCast (d.coef * 10)
    rw [rescale_zero, hvalue, truncate_intCast, ← hvalue, roundTenths, htenths]
    split
    case isTrue hneg =>
      have hopposite : d.coef * 10 - 5 = -(5 - d.coef * 10) := by omega
      rw [hopposite, Int.neg_tdiv, Int.tdiv_eq_ediv_of_nonneg (by omega)]
      omega
    case isFalse hpos =>
      rw [Int.tdiv_eq_ediv_of_nonneg (by omega)]
      omega
  case isFalse hexp =>
    have htenths : d.rescale (-1) = truncate (d.toRat * 10) := by
      rw [rescale_eq, zpow_neg_one, div_inv_eq_mul]
    rw [htenths, rescale_zero, toRat_ofInt, truncate_intCast]
    rfl

theorem round_intPart (d : Decimal) : d.round.intPart = roundInt64 d.toRat := by
  rw [intPart, rescale_zero_round, roundInt64]

/-- A number that is not negative is rounded to one at most a half away. -/
theorem roundTenths_near {q : ℚ} (hq : 0 ≤ q) : |(roundTenths q : ℚ) - q| ≤ 1 / 2 := by
  have hpos : 0 ≤ q * 10 := mul_nonneg hq (by norm_num)
  have hfloor : truncate (q * 10) = ⌊q * 10⌋ := if_pos hpos
  have htenths : 0 ≤ ⌊q * 10⌋ := Int.floor_nonneg.2 hpos
  have hround : roundTenths q = (⌊q * 10⌋ + 5) / 10 := by
    rw [roundTenths, hfloor, if_neg (by omega), Int.tdiv_eq_ediv_of_nonneg (by omega)]
  have hlow : ((⌊q * 10⌋ : ℤ) : ℚ) ≤ q * 10 := Int.floor_le _
  have hhigh : q * 10 < (⌊q * 10⌋ : ℤ) + 1 := Int.lt_floor_add_one _
  have hupper : ((roundTenths q * 10 : ℤ) : ℚ) ≤ (⌊q * 10⌋ + 5 : ℤ) := Int.cast_le.2 (by omega)
  have hlower : ((⌊q * 10⌋ - 4 : ℤ) : ℚ) ≤ (roundTenths q * 10 : ℤ) := Int.cast_le.2 (by omega)
  push_cast at hupper hlower
  rw [abs_le]
  constructor <;> linarith

end Decimal

/-- Zero is a floating-point number. -/
class ExactZero (F : Type) [Float64 F] : Prop where
  toDecimal_zero : (Float64.toDecimal (Float64.ofInt 0 : F)).toRat = 0

instance : ExactZero Decimal where
  toDecimal_zero := Decimal.toRat_ofInt 0

end NewApi.Lib
