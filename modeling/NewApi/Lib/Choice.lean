import Mathlib.Algebra.GroupWithZero.Nat
import Mathlib.Data.List.GetD
import Mathlib.Order.Interval.Finset.Nat

/-!
# Choosing by priority and weight

The items of a pool fall into levels of equal priority, the highest level first, and one item
of a level is drawn at random with a probability proportional to its weight.  The draw walks
through the weights of the level until the random number is used up.
-/

namespace NewApi.Lib

/-- A source of random numbers: `intn n` is one of the numbers below `n`. -/
structure Rand where
  intn : ℕ → ℕ
  intn_lt : ∀ {n}, 0 < n → intn n < n

namespace Choice

variable {α : Type*}

/-- The source that gives the number `r` wherever it is one of the numbers asked for. -/
def constRand (r : ℕ) : Rand where
  intn := fun n => if r < n then r else 0
  intn_lt := by
    intro n hn
    split <;> assumption

theorem constRand_intn {r n : ℕ} (hr : r < n) : (constRand r).intn n = r :=
  if_pos hr

section Draw

variable (w : α → ℕ)

/-- The sum of the weights. -/
def weight (xs : List α) : ℕ :=
  (xs.map w).sum

/-- Subtract the weights from the number one after the other, up to the item that makes it
negative. -/
def draw : ℤ → List α → Option α
  | _, [] => none
  | r, x :: xs => if r - w x < 0 then some x else draw (r - w x) xs

variable {w} {r : ℤ} {x : α} {xs : List α}

theorem weight_cons (x : α) (xs : List α) : weight w (x :: xs) = w x + weight w xs := by
  rw [weight, List.map_cons, List.sum_cons]
  rfl

theorem weight_eq_zero : weight w xs = 0 ↔ ∀ x ∈ xs, w x = 0 := by
  induction xs with
  | nil => simp [weight]
  | cons x xs ih =>
      rw [weight_cons, List.forall_mem_cons, ← ih]
      omega

/-- Only items of the pool are drawn, and none of weight zero by a number of the range. -/
theorem draw_some (hr : 0 ≤ r) (hdraw : draw w r xs = some x) : x ∈ xs ∧ 0 < w x := by
  induction xs generalizing r with
  | nil => cases hdraw
  | cons y xs ih =>
      rw [draw] at hdraw
      split at hdraw
      case isTrue hlast =>
        obtain rfl := Option.some.inj hdraw
        exact ⟨List.mem_cons_self .., by omega⟩
      case isFalse hmore =>
        obtain ⟨hx, hpos⟩ := ih (by omega) hdraw
        exact ⟨List.mem_cons_of_mem y hx, hpos⟩

theorem mem_of_draw (hdraw : draw w r xs = some x) : x ∈ xs := by
  induction xs generalizing r with
  | nil => cases hdraw
  | cons y xs ih =>
      rw [draw] at hdraw
      split at hdraw
      case isTrue hlast =>
        obtain rfl := Option.some.inj hdraw
        exact List.mem_cons_self ..
      case isFalse hmore => exact List.mem_cons_of_mem y (ih hdraw)

/-- Every number below the sum of the weights draws an item. -/
theorem exists_draw (hxs : xs ≠ []) (hlt : r < weight w xs) : ∃ x, draw w r xs = some x := by
  induction xs generalizing r with
  | nil => exact absurd rfl hxs
  | cons y xs ih =>
      rw [draw]
      split
      case isTrue hlast => exact ⟨y, rfl⟩
      case isFalse hmore =>
        rw [weight_cons] at hlt
        refine ih (fun hnone => ?_) (by omega)
        have hzero : weight w xs = 0 := by
          rw [hnone]
          rfl
        omega

/-- An item is drawn by as many consecutive numbers of the range as it weighs. -/
theorem draw_of_mem (hx : x ∈ xs) : ∃ first : ℤ, 0 ≤ first ∧ first + w x ≤ weight w xs ∧
    ∀ r, first ≤ r → r < first + w x → draw w r xs = some x := by
  induction xs with
  | nil => cases hx
  | cons y xs ih =>
      rcases List.mem_cons.1 hx with rfl | hlater
      · refine ⟨0, Int.le_refl 0, ?_, fun r _ hlt => ?_⟩
        · rw [weight_cons]
          omega
        · rw [draw, if_pos (by omega)]
      · obtain ⟨first, hfirst, hlast, hdraw⟩ := ih hlater
        refine ⟨first + w y, by omega, ?_, fun r hge hlt => ?_⟩
        · rw [weight_cons]
          omega
        · rw [draw, if_neg (by omega)]
          exact hdraw (r - w y) (by omega) (by omega)

/-- The place of the item that is drawn. -/
def drawPlace (w : α → ℕ) : ℤ → List α → Option ℕ
  | _, [] => none
  | r, x :: xs => if r - w x < 0 then some 0 else (drawPlace w (r - w x) xs).map (· + 1)

theorem draw_eq_place : draw w r xs = (drawPlace w r xs).bind fun i => xs[i]? := by
  induction xs generalizing r with
  | nil => rfl
  | cons x xs ih =>
      rw [draw, drawPlace]
      split
      case isTrue hlast => rfl
      case isFalse hmore =>
        rw [ih]
        cases drawPlace w (r - w x) xs with
        | none => rfl
        | some i => rfl

/-- The numbers that draw a place follow those that draw the places before it. -/
theorem drawPlace_iff {i : ℕ} (hr : 0 ≤ r) : drawPlace w r xs = some i ↔
    i < xs.length ∧ weight w (xs.take i) ≤ r ∧ r < weight w (xs.take (i + 1)) := by
  induction xs generalizing r i with
  | nil => simp [drawPlace]
  | cons x xs ih =>
      rw [drawPlace, List.length_cons]
      cases i with
      | zero =>
          have hfirst : (weight w (List.take (0 + 1) (x :: xs)) : ℤ) = w x := by
            simp [weight]
          rw [hfirst, List.take_zero]
          show _ ↔ _ ∧ ((0 : ℕ) : ℤ) ≤ r ∧ _
          split
          case isTrue hlast =>
            exact iff_of_true rfl ⟨Nat.succ_pos _, by omega, by omega⟩
          case isFalse hmore =>
            refine iff_of_false ?_ fun h => hmore (by omega)
            cases drawPlace w (r - w x) xs <;> simp
      | succ i =>
          rw [List.take_succ_cons, List.take_succ_cons, weight_cons, weight_cons]
          split
          case isTrue hlast =>
            refine iff_of_false (by simp) fun h => ?_
            have hlow := h.2.1
            push_cast at hlow
            omega
          case isFalse hmore =>
            have hmap : (drawPlace w (r - w x) xs).map (· + 1) = some (i + 1) ↔
                drawPlace w (r - w x) xs = some i := by
              cases drawPlace w (r - w x) xs <;> simp
            rw [hmap, ih (by omega)]
            push_cast
            omega

/-- Of the numbers of the range, a place is drawn by as many as its item weighs. -/
theorem card_drawPlace {i : ℕ} (hx : xs[i]? = some x) :
    ((Finset.range (weight w xs)).filter fun r : ℕ => drawPlace w r xs = some i).card = w x := by
  obtain ⟨hi, rfl⟩ := List.getElem?_eq_some_iff.1 hx
  have hnext : weight w (xs.take (i + 1)) = weight w (xs.take i) + w xs[i] := by
    rw [weight, weight, List.take_succ_eq_append_getElem hi, List.map_append, List.sum_append]
    simp
  have hall : weight w (xs.take (i + 1)) ≤ weight w xs := by
    have hsplit : weight w xs = weight w (xs.take (i + 1)) + weight w (xs.drop (i + 1)) := by
      rw [weight, weight, weight, ← List.sum_append, ← List.map_append, List.take_append_drop]
    omega
  have hinterval : ((Finset.range (weight w xs)).filter fun r : ℕ => drawPlace w r xs = some i) =
      Finset.Ico (weight w (xs.take i)) (weight w (xs.take (i + 1))) := by
    ext r
    rw [Finset.mem_filter, Finset.mem_range, Finset.mem_Ico, drawPlace_iff (Int.natCast_nonneg r)]
    omega
  rw [hinterval, Nat.card_Ico]
  omega

end Draw

section Levels

variable {f : α → ℤ} {xs ys : List α} {p : ℤ}

/-- The distinct priorities of the pool, the highest first. -/
def levels (f : α → ℤ) (xs : List α) : List ℤ :=
  (xs.map f).dedup.insertionSort (· ≥ ·)

/-- The priority of the level with the given number; after the last level it stays there. -/
def level (f : α → ℤ) (xs : List α) (n : ℕ) : ℤ :=
  let ps := levels f xs
  ps.getD (if ps.length ≤ n then ps.length - 1 else n) 0

theorem mem_levels : p ∈ levels f xs ↔ ∃ x ∈ xs, f x = p := by
  rw [levels, List.mem_insertionSort, List.mem_dedup, List.mem_map]

theorem levels_nodup : (levels f xs).Nodup :=
  (List.perm_insertionSort _ _).nodup_iff.2 (List.nodup_dedup _)

theorem levels_sorted : (levels f xs).Pairwise (· ≥ ·) :=
  List.sortedGE_insertionSort.pairwise

theorem levels_eq_nil : levels f xs = [] ↔ xs = [] := by
  constructor
  · intro hnone
    by_contra hxs
    obtain ⟨x, hx⟩ := List.exists_mem_of_ne_nil xs hxs
    have hlevel : f x ∈ levels f xs := mem_levels.2 ⟨x, hx, rfl⟩
    rw [hnone] at hlevel
    cases hlevel
  · rintro rfl
    rfl

/-- Pools with the same priorities have the same levels. -/
theorem levels_congr {β : Type*} {g : β → ℤ} {ys : List β}
    (hsame : ∀ p, (∃ x ∈ xs, f x = p) ↔ ∃ y ∈ ys, g y = p) : levels f xs = levels g ys := by
  have hperm : (levels f xs).Perm (levels g ys) := by
    rw [List.perm_ext_iff_of_nodup levels_nodup levels_nodup]
    intro p
    rw [mem_levels, mem_levels, hsame]
  exact hperm.eq_of_sortedGE levels_sorted.sortedGE levels_sorted.sortedGE

/-- A level of a pool that is not empty has an item. -/
theorem level_mem (hxs : xs ≠ []) (n : ℕ) : level f xs n ∈ levels f xs := by
  have hlength : 0 < (levels f xs).length :=
    List.length_pos_iff.2 fun hnone => hxs (levels_eq_nil.1 hnone)
  rw [level]
  have hindex : (if (levels f xs).length ≤ n then (levels f xs).length - 1 else n) <
      (levels f xs).length := by
    split <;> omega
  rw [List.getD_eq_getElem _ _ hindex]
  exact List.getElem_mem hindex

theorem exists_level (hxs : xs ≠ []) (n : ℕ) : ∃ x ∈ xs, f x = level f xs n :=
  mem_levels.1 (level_mem hxs n)

/-- The first level is the highest priority. -/
theorem max?_eq_level (hxs : xs ≠ []) : (xs.map f).max? = some (level f xs 0) := by
  cases hlevels : levels f xs with
  | nil => exact absurd (levels_eq_nil.1 hlevels) hxs
  | cons p ps =>
      have hfirst : level f xs 0 = p := by
        rw [level, hlevels]
        rfl
      have hsorted : (levels f xs).Pairwise (· ≥ ·) := levels_sorted
      rw [hlevels, List.pairwise_cons] at hsorted
      rw [hfirst, List.max?_eq_some_iff]
      constructor
      · obtain ⟨x, hx, rfl⟩ := mem_levels.1 (hlevels ▸ List.mem_cons_self .. : p ∈ levels f xs)
        exact List.mem_map_of_mem hx
      · intro q hq
        obtain ⟨x, hx, rfl⟩ := List.mem_map.1 hq
        have hlevel : f x ∈ levels f xs := mem_levels.2 ⟨x, hx, rfl⟩
        rw [hlevels] at hlevel
        rcases List.mem_cons.1 hlevel with hsame | hlater
        · exact hsame.le
        · exact hsorted.1 (f x) hlater

end Levels

end Choice

end NewApi.Lib
