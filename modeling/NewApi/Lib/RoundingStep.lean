import NewApi.Lib.DecimalValue
import NewApi.Lib.Integers

/-!
# The steps of a rounding

A number is rounded to an integer when it lies in the step of the integer, and converted to an
`int64` when it does so but for a multiple of `2 ^ 64`.  Two amounts that are rounded differently, one
half away from zero and the other cut off, are near each other when their difference is.
-/

namespace NewApi.Lib

namespace Decimal

open Strings (InInt64 bmod_of_inInt64 inInt64_bmod)

theorem intPart_inInt64 (d : Decimal) : InInt64 d.intPart :=
  inInt64_bmod (d.rescale 0)

/-- By way of the tenths nothing is lost. -/
theorem roundTenths_eq_floor {q : ℚ} (hq : 0 ≤ q) : roundTenths q = ⌊q + 1 / 2⌋ := by
  have hpos : 0 ≤ q * 10 := mul_nonneg hq (by norm_num)
  have htenths : 0 ≤ ⌊q * 10⌋ := Int.floor_nonneg.2 hpos
  have htruncate : truncate (q * 10) = ⌊q * 10⌋ := if_pos hpos
  have hround : roundTenths q = (⌊q * 10⌋ + 5) / 10 := by
    rw [roundTenths, htruncate, if_neg (by omega), Int.tdiv_eq_ediv_of_nonneg (by omega)]
  have hlow : (⌊q * 10⌋ : ℚ) ≤ q * 10 := Int.floor_le _
  have hhigh : q * 10 < ⌊q * 10⌋ + 1 := Int.lt_floor_add_one _
  have hlower : (((⌊q * 10⌋ + 5) / 10 * 10 : ℤ) : ℚ) ≤ (⌊q * 10⌋ + 5 : ℤ) :=
    Int.cast_le.2 (by omega)
  have hupper : ((⌊q * 10⌋ + 5 + 1 : ℤ) : ℚ) ≤ ((⌊q * 10⌋ + 5) / 10 * 10 + 10 : ℤ) :=
    Int.cast_le.2 (by omega)
  push_cast at hlower hupper
  rw [hround, eq_comm, Int.floor_eq_iff]
  constructor <;> linarith

theorem roundTenths_nonneg {q : ℚ} (hq : 0 ≤ q) : 0 ≤ roundTenths q := by
  rw [roundTenths_eq_floor hq]
  exact Int.floor_nonneg.2 (by linarith)

theorem truncate_neg (q : ℚ) : truncate (-q) = -truncate q := by
  unfold truncate
  rcases lt_trichotomy q 0 with hq | rfl | hq
  · rw [if_pos (by linarith), if_neg (not_le.2 hq), Int.floor_neg]
  · simp
  · rw [if_neg (by linarith), if_pos hq.le, Int.ceil_neg]

theorem truncate_eq_zero_iff (q : ℚ) : truncate q = 0 ↔ |q| < 1 := by
  unfold truncate
  rcases le_or_gt 0 q with hq | hq
  · rw [if_pos hq, abs_of_nonneg hq, Int.floor_eq_zero_iff, Set.mem_Ico, and_iff_right hq]
  · rw [if_neg (not_le.2 hq), abs_of_neg hq, Int.ceil_eq_zero_iff, Set.mem_Ioc, and_iff_left hq.le]
    constructor <;> intro h <;> linarith

theorem roundTenths_neg (q : ℚ) : roundTenths (-q) = -roundTenths q := by
  have hround (n : ℤ) : (if -n < 0 then (-n - 5).tdiv 10 else (-n + 5).tdiv 10) =
      -(if n < 0 then (n - 5).tdiv 10 else (n + 5).tdiv 10) := by
    rcases Int.lt_trichotomy n 0 with hn | rfl | hn
    · have hopposite : -n + 5 = -(n - 5) := by omega
      rw [if_neg (by omega), if_pos hn, hopposite, Int.neg_tdiv]
    · decide
    · have hopposite : -n - 5 = -(n + 5) := by omega
      rw [if_pos (by omega), if_neg (by omega), hopposite, Int.neg_tdiv]
  unfold roundTenths
  rw [neg_mul, truncate_neg]
  exact hround _

/-- A number is rounded to an integer: it is less than a half away from it, or a half on the side of
zero. -/
def InStep (n : ℤ) (q : ℚ) : Prop :=
  |q - n| < 1 / 2 ∨ |q - n| = 1 / 2 ∧ |q| < |(n : ℚ)|

theorem inStep_neg (n : ℤ) (q : ℚ) : InStep (-n) (-q) ↔ InStep n q := by
  unfold InStep
  rw [Int.cast_neg, neg_sub_neg, abs_sub_comm, abs_neg, abs_neg]

theorem inStep_of_nonneg {q : ℚ} (hq : 0 ≤ q) (n : ℤ) : InStep n q ↔ ⌊q + 1 / 2⌋ = n := by
  rw [Int.floor_eq_iff]
  constructor
  · intro h
    rcases h with hnear | ⟨hhalf, hside⟩
    · obtain ⟨hlow, hhigh⟩ := abs_lt.1 hnear
      constructor <;> linarith
    · rw [abs_of_nonneg hq] at hside
      rcases abs_choice (q - n) with habs | habs
      · -- above the integer the number is not on the side of zero
        exfalso
        rw [hhalf] at habs
        have hn : (-1 : ℚ) < n := by linarith
        have hnonneg : 0 ≤ n := by
          have hn' : (-1 : ℤ) < n := by exact_mod_cast hn
          omega
        rw [abs_of_nonneg (Int.cast_nonneg hnonneg)] at hside
        linarith
      · rw [hhalf] at habs
        constructor <;> linarith
  · rintro ⟨hlow, hhigh⟩
    rcases hlow.lt_or_eq with hlt | heq
    · exact .inl (abs_lt.2 ⟨by linarith, by linarith⟩)
    · have hgap : q - n = -(1 / 2) := by linarith
      refine .inr ⟨by rw [hgap, abs_neg]; norm_num, ?_⟩
      rw [abs_of_nonneg hq]
      exact lt_of_lt_of_le (by linarith) (le_abs_self _)

/-- Rounding half away from zero, as a distance. -/
theorem roundTenths_eq_iff (q : ℚ) (n : ℤ) : roundTenths q = n ↔ InStep n q := by
  rcases le_or_gt 0 q with hq | hq
  · rw [roundTenths_eq_floor hq, inStep_of_nonneg hq]
  · have hopposite : 0 ≤ -q := by linarith
    rw [← inStep_neg, inStep_of_nonneg hopposite, ← roundTenths_eq_floor hopposite, roundTenths_neg,
      neg_inj]

/-- Rounding to an `int64`, as a distance: the low bits are kept. -/
theorem roundInt64_eq_iff {n : ℤ} (hn : InInt64 n) (q : ℚ) :
    roundInt64 q = n ↔ ∃ k : ℤ, InStep (n + k * 2 ^ 64) q := by
  constructor
  · intro h
    refine ⟨(roundTenths q).bdiv (2 ^ 64), (roundTenths_eq_iff _ _).1 ?_⟩
    rw [← h, roundInt64, Int.bmod_eq_self_sub_bdiv_mul]
    norm_num
  · rintro ⟨k, hstep⟩
    have hsum : roundInt64 q = (n + k * (2 ^ 64 : ℕ)).bmod (2 ^ 64) := by
      rw [roundInt64, (roundTenths_eq_iff _ _).2 hstep]
      norm_num
    rw [hsum, Int.add_mul_bmod_self_right, bmod_of_inInt64 hn]

theorem roundInt64_inInt64 (q : ℚ) : InInt64 (roundInt64 q) :=
  inInt64_bmod (roundTenths q)

/-- A number of which nothing is left: it is rounded to zero, but for a multiple of `2 ^ 64`. -/
def Vanishes (q : ℚ) : Prop :=
  ∃ k : ℤ, InStep (k * 2 ^ 64) q

theorem roundInt64_eq_zero_iff (q : ℚ) : roundInt64 q = 0 ↔ Vanishes q := by
  rw [roundInt64_eq_iff (by decide)]
  unfold Vanishes
  simp only [zero_add]

theorem vanishes_of_lt {q : ℚ} (hq : |q| < 1 / 2) : Vanishes q := by
  refine ⟨0, .inl ?_⟩
  rwa [zero_mul, Int.cast_zero, sub_zero]

/-- A charge of at least one, where there is a minimum. -/
def atLeastOne (minimum : Prop) [Decidable minimum] (n : ℤ) : ℤ :=
  if minimum ∧ n = 0 then 1 else n

/-- An amount is charged as an integer: it is in the step of one that counts as that integer, but for
a multiple of `2 ^ 64`. -/
def ChargedAs (minimum : Prop) [Decidable minimum] (n : ℤ) (q : ℚ) : Prop :=
  ∃ m k : ℤ, atLeastOne minimum m = n ∧ InStep (m + k * 2 ^ 64) q

theorem atLeastOne_of {minimum : Prop} [Decidable minimum] (hminimum : minimum) (n : ℤ) :
    atLeastOne minimum n = atLeastOne True n :=
  if_congr (and_congr_left fun _ => iff_of_true hminimum trivial) rfl rfl

theorem atLeastOne_inInt64 {minimum : Prop} [Decidable minimum] {n : ℤ} :
    InInt64 (atLeastOne minimum n) ↔ InInt64 n := by
  unfold atLeastOne
  split
  case isTrue h =>
    rw [h.2]
    exact iff_of_true (by decide) (by decide)
  case isFalse => rfl

theorem atLeastOne_roundInt64_eq_iff (minimum : Prop) [Decidable minimum] (n : ℤ) (q : ℚ) :
    atLeastOne minimum (roundInt64 q) = n ↔ InInt64 n ∧ ChargedAs minimum n q := by
  constructor
  · intro h
    obtain ⟨k, hstep⟩ := (roundInt64_eq_iff (roundInt64_inInt64 q) q).1 rfl
    exact ⟨h ▸ atLeastOne_inInt64.2 (roundInt64_inInt64 q), _, k, h, hstep⟩
  · rintro ⟨hn, m, k, rfl, hstep⟩
    rw [(roundInt64_eq_iff (atLeastOne_inInt64.1 hn) q).2 ⟨k, hstep⟩]

/-- What is added to an amount is lost in its charge: the sum stays in the step of what the amount is
charged as. -/
def SurplusLost (minimum : Prop) [Decidable minimum] (amount surplus : ℚ) : Prop :=
  ChargedAs minimum (atLeastOne minimum (roundInt64 amount)) (amount + surplus)

theorem atLeastOne_add_eq_iff (minimum : Prop) [Decidable minimum] (amount surplus : ℚ) :
    atLeastOne minimum (roundInt64 (amount + surplus)) = atLeastOne minimum (roundInt64 amount) ↔
      SurplusLost minimum amount surplus := by
  rw [atLeastOne_roundInt64_eq_iff, and_iff_right (atLeastOne_inInt64.2 (roundInt64_inInt64 _)),
    SurplusLost]

/-- An amount in the range of an `int64` is charged right when its surplus is lost. -/
theorem charged_add_eq_iff (minimum : Prop) [Decidable minimum] (amount surplus : ℚ) :
    atLeastOne minimum (roundInt64 (amount + surplus)) = atLeastOne minimum (roundTenths amount) ↔
      InInt64 (roundTenths amount) ∧ SurplusLost minimum amount surplus := by
  rw [atLeastOne_roundInt64_eq_iff, atLeastOne_inInt64]
  refine and_congr_right fun hrange => ?_
  rw [SurplusLost, roundInt64, bmod_of_inInt64 hrange]

theorem surplusLost_zero (minimum : Prop) [Decidable minimum] (amount : ℚ) :
    SurplusLost minimum amount 0 := by
  rw [SurplusLost, add_zero]
  exact ((atLeastOne_roundInt64_eq_iff minimum _ amount).1 rfl).2

/-- A truncated amount is at most one away from a rounded one, both of at least one: the second is
charged as an integer, and the first lies between the one before and the second one after it. -/
def NearlyCharged (x y : ℚ) : Prop :=
  ∃ n : ℤ, InInt64 n ∧ ChargedAs True n y ∧
    if x ≤ 0 then 0 ≤ n ∧ n ≤ 2 else n - 1 ≤ x ∧ x < n + 2 ∧ x < 2 ^ 63

theorem near_atLeastOne_iff (x y : ℚ) :
    InInt64 (truncate (if x ≤ 0 then 1 else x)) ∧
        |truncate (if x ≤ 0 then 1 else x) - atLeastOne True (roundInt64 y)| ≤ 1 ↔
      NearlyCharged x y := by
  -- the integer is the rounded charge
  have hcharge : NearlyCharged x y ↔
      let n := atLeastOne True (roundInt64 y)
      if x ≤ 0 then 0 ≤ n ∧ n ≤ 2 else n - 1 ≤ x ∧ x < n + 2 ∧ x < 2 ^ 63 := by
    constructor
    · rintro ⟨n, hn, hcharged, hnear⟩
      rw [(atLeastOne_roundInt64_eq_iff True n y).2 ⟨hn, hcharged⟩]
      exact hnear
    · intro hnear
      obtain ⟨hn, hcharged⟩ := (atLeastOne_roundInt64_eq_iff True _ y).1 rfl
      exact ⟨_, hn, hcharged, hnear⟩
  rw [hcharge]
  generalize atLeastOne True (roundInt64 y) = n
  dsimp only
  by_cases hx : x ≤ 0
  · have hone : truncate 1 = 1 := by
      exact_mod_cast truncate_intCast 1
    rw [if_pos hx, if_pos hx, hone, abs_le, and_iff_right (by decide)]
    omega
  · have hpos : 0 < x := not_le.1 hx
    have hfloor : truncate x = ⌊x⌋ := if_pos hpos.le
    have hnonneg : 0 ≤ ⌊x⌋ := Int.floor_nonneg.2 hpos.le
    have hlower : n - 1 ≤ ⌊x⌋ ↔ n - 1 ≤ x := by
      rw [Int.le_floor]
      push_cast
      rfl
    have hupper : ⌊x⌋ < n + 2 ↔ x < n + 2 := by
      rw [Int.floor_lt]
      push_cast
      rfl
    have hrange : ⌊x⌋ < 2 ^ 63 ↔ x < 2 ^ 63 := by
      rw [Int.floor_lt]
      push_cast
      rfl
    rw [if_neg hx, if_neg hx, hfloor, ← hlower, ← hupper, ← hrange, abs_le, InInt64]
    omega

end Decimal

end NewApi.Lib
