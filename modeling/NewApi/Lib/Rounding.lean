import Mathlib.Algebra.Order.Archimedean.Basic
import Mathlib.Algebra.Order.BigOperators.Group.List

/-!
# Rounding one by one

Amounts that are charged one by one, each rounded to an integer, add up to the rounded sum but for
at most one for each amount.
-/

namespace NewApi.Lib

/-- A charge is at most a half away from what it charges for; for nothing it may be one. -/
structure Rounds (charge : ℚ → ℤ) : Prop where
  near : ∀ x, 0 < x → |(charge x : ℚ) - x| ≤ 1 / 2
  nothing : 0 ≤ charge 0 ∧ charge 0 ≤ 1

namespace Rounds

variable {charge : ℚ → ℤ} {xs : List ℚ}

/-- Where something is charged for, half a unit of the tolerance stays unused. -/
theorem sum_near (hcharge : Rounds charge) (hxs : ∀ x ∈ xs, 0 ≤ x) :
    |((xs.map charge).sum : ℚ) - xs.sum| ≤ xs.length - if 0 < xs.sum then 1 / 2 else 0 := by
  induction xs with
  | nil => simp
  | cons x xs ih =>
      obtain ⟨hx, hxs'⟩ := List.forall_mem_cons.1 hxs
      have hsum : 0 ≤ xs.sum := List.sum_nonneg hxs'
      have hrest := ih hxs'
      rw [List.map_cons, List.sum_cons, List.sum_cons, List.length_cons, Int.cast_add, Nat.cast_succ]
      have htriangle : |(charge x + (xs.map charge).sum : ℚ) - (x + xs.sum)| ≤
          |(charge x : ℚ) - x| + |((xs.map charge).sum : ℚ) - xs.sum| := by
        rw [add_sub_add_comm]
        exact abs_add_le _ _
      rcases hx.eq_or_lt with rfl | hpos
      · have hnothing : |(charge 0 : ℚ) - 0| ≤ 1 := by
          rw [sub_zero, abs_of_nonneg (Int.cast_nonneg hcharge.nothing.1)]
          exact_mod_cast hcharge.nothing.2
        rw [zero_add] at htriangle ⊢
        linarith
      · have hnear := hcharge.near x hpos
        rw [if_pos (add_pos_of_pos_of_nonneg hpos hsum)]
        split at hrest <;> linarith

/-- The charges add up to the charge for the sum. -/
theorem sum_near_total (hcharge : Rounds charge) (hxs : ∀ x ∈ xs, 0 ≤ x) (hpos : 0 < xs.sum) :
    |(xs.map charge).sum - charge xs.sum| ≤ xs.length := by
  have hsum := hcharge.sum_near hxs
  have htotal := hcharge.near xs.sum hpos
  rw [if_pos hpos] at hsum
  have hboth : |((xs.map charge).sum : ℚ) - charge xs.sum| ≤ xs.length := by
    have htriangle := abs_sub_le ((xs.map charge).sum : ℚ) xs.sum (charge xs.sum)
    rw [abs_sub_comm xs.sum] at htriangle
    linarith
  exact_mod_cast hboth

/-- Charges for nothing. -/
theorem sum_of_nothing (hxs : ∀ x ∈ xs, 0 ≤ x) (hzero : xs.sum = 0) :
    (xs.map charge).sum = xs.length * charge 0 := by
  induction xs with
  | nil => simp
  | cons x xs ih =>
      obtain ⟨hx, hxs'⟩ := List.forall_mem_cons.1 hxs
      have hsum : 0 ≤ xs.sum := List.sum_nonneg hxs'
      rw [List.sum_cons] at hzero
      obtain ⟨rfl, hrest⟩ := (add_eq_zero_iff_of_nonneg hx hsum).1 hzero
      rw [List.map_cons, List.sum_cons, ih hxs' hrest, List.length_cons]
      push_cast
      ring

/-- What is charged at most one, for as much of it as is allowed, is worth nothing. -/
theorem eq_zero_of_le_one (hcharge : Rounds charge) {x bound : ℚ} (hx : 0 ≤ x)
    (hbelow : x < bound) (hbound : 4 < bound)
    (hone : ∀ n : ℕ, n * x < bound → charge (n * x) ≤ 1) : x = 0 := by
  rcases hx.eq_or_lt with hzero | hpos
  · exact hzero.symm
  -- a multiple that is charged more than one
  obtain ⟨n, hlow, hhigh⟩ : ∃ n : ℕ, 3 / 2 < n * x ∧ n * x < bound := by
    rcases lt_or_ge (3 / 2) x with hlarge | hsmall
    · exact ⟨1, by rwa [Nat.cast_one, one_mul], by rwa [Nat.cast_one, one_mul]⟩
    · -- the one after the last that is at most two
      let n := ⌊2 / x⌋.toNat
      have hn : (n : ℚ) = (⌊2 / x⌋ : ℤ) := by
        exact_mod_cast Int.toNat_of_nonneg (Int.floor_nonneg.2 (by positivity))
      have hlast := Int.floor_le (2 / x)
      have hnext := Int.lt_floor_add_one (2 / x)
      rw [le_div_iff₀ hpos, ← hn] at hlast
      rw [div_lt_iff₀ hpos, ← hn] at hnext
      refine ⟨n + 1, ?_, ?_⟩
      · push_cast
        linarith
      · push_cast
        linarith
  have hnear := (abs_le.1 (hcharge.near (n * x) (by linarith))).1
  have hle : (charge (n * x) : ℚ) ≤ 1 := by exact_mod_cast hone n hhigh
  linarith

end Rounds

end NewApi.Lib
