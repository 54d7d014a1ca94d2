import NewApi.Lib.DecimalValue
import NewApi.Lib.Integers

/-!
# Floating point and rationals

The finite numbers of a floating-point type stand for rationals.  Comparisons and conversions respect
them, while sums, products and quotients are rounded, and next to nothing is known of these.  Only where a
development asks for the results of arithmetic that does not round, it asks for `ExactArithmetic`.
The decimals have both.
-/

namespace NewApi.Lib

open Strings (InInt64)

/-- The number that a float is written as: its shortest decimal. -/
def value {F : Type} [Float64 F] (x : F) : ℚ :=
  (Float64.toDecimal x).toRat

/-- The numbers stand for rationals, integers of up to 53 bits for themselves.  A product with zero is
zero, and the shortest decimals are ordered like the numbers. -/
class FiniteFloat (F : Type) [Float64 F] where
  val : F → ℚ
  val_ofInt (n : ℤ) (hn : n.natAbs ≤ 2 ^ 53) : val (Float64.ofInt n) = n
  ofInt_mono {m n : ℤ} (h : m ≤ n) : val (Float64.ofInt m) ≤ val (Float64.ofInt n)
  toInt_eq (x : F) (hx : InInt64 (Decimal.truncate (val x))) :
    Float64.toInt x = Decimal.truncate (val x)
  /-- What is left of a number that is too large depends on the machine. -/
  toInt_ne_zero (x : F) (hx : ¬ InInt64 (Decimal.truncate (val x))) : Float64.toInt x ≠ 0
  le_iff (x y : F) : Float64.le x y = true ↔ val x ≤ val y
  eq_iff (x y : F) : Float64.eq x y = true ↔ val x = val y
  mul_eq_zero {x y : F} (h : val x = 0 ∨ val y = 0) : val (x * y) = 0
  value_ofInt (n : ℤ) (hn : n.natAbs ≤ 2 ^ 53) : value (Float64.ofInt n : F) = n
  value_le_iff (x y : F) : value x ≤ value y ↔ val x ≤ val y

namespace FiniteFloat

variable {F : Type} [Float64 F] [FiniteFloat F]

theorem val_zero : val (Float64.ofInt 0 : F) = 0 := by
  rw [val_ofInt 0 (by decide), Int.cast_zero]

theorem value_zero : value (Float64.ofInt 0 : F) = 0 := by
  rw [value_ofInt 0 (by decide), Int.cast_zero]

/-- A float is zero when it is written as zero. -/
theorem value_eq_zero_iff (x : F) : value x = 0 ↔ val x = 0 := by
  have hle := value_le_iff x (Float64.ofInt 0)
  have hge := value_le_iff (Float64.ofInt 0) x
  rw [value_zero, val_zero] at hle hge
  rw [le_antisymm_iff, le_antisymm_iff, hle, hge]

/-- A number is converted to zero when nothing is left in front of the point. -/
theorem toInt_eq_zero_iff (x : F) : Float64.toInt x = 0 ↔ Decimal.truncate (val x) = 0 := by
  by_cases hx : InInt64 (Decimal.truncate (val x))
  · rw [toInt_eq x hx]
  · refine iff_of_false (toInt_ne_zero x hx) fun hzero => ?_
    exact hx (hzero ▸ (by decide : InInt64 0))

theorem val_ofInt_pos {n : ℤ} (hn : 0 < n) : 0 < val (Float64.ofInt n : F) := by
  have hone : val (Float64.ofInt 1 : F) ≤ val (Float64.ofInt n) := ofInt_mono (by omega)
  rw [val_ofInt 1 (by decide), Int.cast_one] at hone
  exact zero_lt_one.trans_le hone

end FiniteFloat

instance {F : Type} [Float64 F] [FiniteFloat F] : ExactZero F where
  toDecimal_zero := FiniteFloat.value_zero

/-- The numbers stand for rationals, and nothing but a quotient is ever rounded. -/
class ExactArithmetic (F : Type) [Float64 F] where
  val : F → ℚ
  val_ofInt (n : ℤ) : val (Float64.ofInt n) = n
  val_mul (x y : F) : val (x * y) = val x * val y
  /-- A quotient of integers that ends within sixteen decimals. -/
  val_div (m n k : ℤ) (hn : n ≠ 0) (hk : m * 10 ^ 16 = k * n) :
    val (Float64.ofInt m / Float64.ofInt n) = m / n
  toInt_eq (x : F) : Float64.toInt x = Decimal.truncate (val x)
  eq_iff (x y : F) : Float64.eq x y = true ↔ val x = val y

/-- The quotient of two integers that ends within sixteen decimals is not rounded. -/
theorem Decimal.toRat_div_ofInt {m n k : ℤ} (hn : n ≠ 0) (hk : m * 10 ^ 16 = k * n) :
    (Decimal.ofInt m / Decimal.ofInt n).toRat = m / n := by
  have hn' : (n : ℚ) ≠ 0 := Int.cast_ne_zero.2 hn
  have hk' : (m : ℚ) * 10 ^ 16 = k * n := by exact_mod_cast hk
  have hquotient : (Decimal.ofInt m / Decimal.ofInt n : Decimal) = ⟨k, -16⟩ := by
    refine Decimal.div_eq_of_exact hn ?_
    rw [Decimal.toRat_ofInt, Decimal.toRat_ofInt]
    exact hk'
  have hpow : (10 : ℚ) ^ (-16 : ℤ) = 1 / 10 ^ 16 := by norm_num
  rw [hquotient, Decimal.toRat, hpow, eq_div_iff hn', mul_one_div, div_mul_eq_mul_div, ← hk',
    mul_div_assoc, div_self (by norm_num), mul_one]

theorem Decimal.eq_iff (x y : Decimal) : Float64.eq x y = true ↔ x.toRat = y.toRat := by
  show (x.le y && y.le x) = true ↔ _
  rw [Bool.and_eq_true, Decimal.le_iff, Decimal.le_iff, le_antisymm_iff]

instance : FiniteFloat Decimal where
  val := Decimal.toRat
  val_ofInt n _ := Decimal.toRat_ofInt n
  ofInt_mono {m n} h := by
    show (Decimal.ofInt m).toRat ≤ (Decimal.ofInt n).toRat
    rw [Decimal.toRat_ofInt, Decimal.toRat_ofInt]
    exact Int.cast_le.2 h
  toInt_eq d _ := Decimal.rescale_zero d
  toInt_ne_zero d hd hzero := by
    have hvalue : Decimal.truncate d.toRat = 0 := (Decimal.rescale_zero d).symm.trans hzero
    exact hd (hvalue ▸ (by decide : InInt64 0))
  le_iff := Decimal.le_iff
  eq_iff := Decimal.eq_iff
  mul_eq_zero {x y} h := by
    rw [Decimal.toRat_mul]
    rcases h with h | h
    · rw [h, zero_mul]
    · rw [h, mul_zero]
  value_ofInt n _ := Decimal.toRat_ofInt n
  value_le_iff _ _ := Iff.rfl

instance : ExactArithmetic Decimal where
  val := Decimal.toRat
  val_ofInt := Decimal.toRat_ofInt
  val_mul := Decimal.toRat_mul
  val_div _ _ _ := Decimal.toRat_div_ofInt
  toInt_eq := Decimal.rescale_zero
  eq_iff := Decimal.eq_iff

end NewApi.Lib
