import Mathlib.Algebra.BigOperators.Group.List.Basic
import Mathlib.Algebra.Ring.Int.Defs

/-!
# Pools of concurrent activities

The activities a program has in progress are kept in a list, in the order they were
started; an activity that takes a step replaces its own entry.  The total of a measure over
the pool then changes by the change of that one entry.
-/

namespace NewApi.Lib

variable {ι : Type*}

/-- Sum of a measure over all activities of a pool. -/
def total (f : ι → ℤ) (pool : List ι) : ℤ :=
  (pool.map f).sum

namespace Pool

open scoped List

variable {f : ι → ℤ} {pool : List ι}

@[simp] theorem total_nil : total f [] = 0 := rfl

@[simp] theorem total_cons (x : ι) : total f (x :: pool) = f x + total f pool := by
  simp [total]

/-- Starting an activity adds its measure. -/
@[simp] theorem total_append (more : List ι) :
    total f (pool ++ more) = total f pool + total f more := by
  simp [total]

/-- A step of one activity exchanges the measure of its entry. -/
theorem total_set {i : ℕ} {x y : ι} (hx : pool[i]? = some x) :
    total f (pool.set i y) = total f pool - f x + f y := by
  induction pool generalizing i with
  | nil => simp at hx
  | cons z pool ih =>
      cases i with
      | zero =>
          obtain rfl : z = x := by simpa using hx
          simp only [List.set_cons_zero, total_cons]
          omega
      | succ i =>
          have hrest := ih (i := i) (by simpa using hx)
          simp only [List.set_cons_succ, total_cons, hrest]
          omega

/-- A measure that vanishes on every activity of the pool has total zero. -/
theorem total_eq_zero (hzero : ∀ x ∈ pool, f x = 0) : total f pool = 0 := by
  induction pool with
  | nil => rfl
  | cons x pool ih =>
      have hx : f x = 0 := hzero x (by simp)
      have hrest : total f pool = 0 := ih fun y hy => hzero y (by simp [hy])
      simp [hx, hrest]

/-- A measure that is nowhere negative has no negative total. -/
theorem total_nonneg (hpos : ∀ x ∈ pool, 0 ≤ f x) : 0 ≤ total f pool := by
  induction pool with
  | nil => exact Int.le_refl 0
  | cons x pool ih =>
      have hx : 0 ≤ f x := hpos x (by simp)
      have hrest : 0 ≤ total f pool := ih fun y hy => hpos y (by simp [hy])
      rw [total_cons]
      omega

/-- A measure that is nowhere positive has no positive total. -/
theorem total_nonpos (hneg : ∀ x ∈ pool, f x ≤ 0) : total f pool ≤ 0 := by
  induction pool with
  | nil => exact Int.le_refl 0
  | cons x pool ih =>
      have hx : f x ≤ 0 := hneg x (by simp)
      have hrest : total f pool ≤ 0 := ih fun y hy => hneg y (by simp [hy])
      rw [total_cons]
      omega

/-- What holds of every activity still holds after one of them takes a step to a state in
which it holds. -/
theorem forall_mem_set {P : ι → Prop} {i : ℕ} {y : ι} (hall : ∀ x ∈ pool, P x) (hy : P y) :
    ∀ x ∈ pool.set i y, P x := by
  intro x hx
  rcases List.mem_or_eq_of_mem_set hx with hmem | rfl
  · exact hall x hmem
  · exact hy

/-- Replacing an activity by itself changes nothing. -/
theorem set_self {i : ℕ} {x : ι} (hx : pool[i]? = some x) : pool.set i x = pool := by
  obtain ⟨hlength, rfl⟩ := List.getElem?_eq_some_iff.mp hx
  exact List.set_getElem_self hlength

/-- A step of one activity exchanges the items of its entry. -/
theorem flatMap_set_perm {κ : Type*} (items : ι → List κ) (y : ι) {i : ℕ} {x : ι}
    (hx : pool[i]? = some x) :
    (pool.set i y).flatMap items ++ items x ~ pool.flatMap items ++ items y := by
  obtain ⟨hlength, rfl⟩ := List.getElem?_eq_some_iff.mp hx
  have hset : (pool.set i y).flatMap items ~ items y ++ (pool.eraseIdx i).flatMap items :=
    (List.set_perm_cons_eraseIdx hlength y).flatMap_right items
  have hpool : items pool[i] ++ (pool.eraseIdx i).flatMap items ~ pool.flatMap items :=
    (List.getElem_cons_eraseIdx_perm hlength).flatMap_right items
  calc (pool.set i y).flatMap items ++ items pool[i]
      _ ~ items y ++ (pool.eraseIdx i).flatMap items ++ items pool[i] := hset.append_right _
      _ ~ items pool[i] ++ (items y ++ (pool.eraseIdx i).flatMap items) := List.perm_append_comm
      _ ~ items y ++ (items pool[i] ++ (pool.eraseIdx i).flatMap items) :=
          List.perm_append_comm_assoc _ _ _
      _ ~ items y ++ pool.flatMap items := hpool.append_left _
      _ ~ pool.flatMap items ++ items y := List.perm_append_comm

/-- The last activity that meets a condition, with its place. -/
def lastMatch (p : ι → Bool) : List ι → Option (ℕ × ι)
  | [] => none
  | x :: pool =>
      match lastMatch p pool with
      | some (i, y) => some (i + 1, y)
      | none => if p x then some (0, x) else none

theorem lastMatch_some {p : ι → Bool} {i : ℕ} {x : ι} (hmatch : lastMatch p pool = some (i, x)) :
    pool[i]? = some x ∧ p x = true := by
  induction pool generalizing i with
  | nil => simp [lastMatch] at hmatch
  | cons y pool ih =>
      rw [lastMatch] at hmatch
      cases hrest : lastMatch p pool with
      | some found =>
          obtain ⟨k, z⟩ := found
          rw [hrest] at hmatch
          obtain ⟨rfl, rfl⟩ : k + 1 = i ∧ z = x := by simpa using hmatch
          obtain ⟨hget, hz⟩ := ih hrest
          exact ⟨by simpa using hget, hz⟩
      | none =>
          rw [hrest] at hmatch
          simp only [Option.ite_none_right_eq_some, Option.some.injEq, Prod.mk.injEq] at hmatch
          obtain ⟨hy, rfl, rfl⟩ := hmatch
          exact ⟨rfl, hy⟩

/-- A condition on an attribute of the activities is met last by the same attribute in pools with
the same attributes. -/
theorem lastMatch_congr {κ : Type*} {key : ι → κ} {p : κ → Bool} {pool other : List ι}
    (hkeys : pool.map key = other.map key) :
    (lastMatch (fun x => p (key x)) pool).map (fun found => key found.2) =
      (lastMatch (fun x => p (key x)) other).map fun found => key found.2 := by
  induction pool generalizing other with
  | nil =>
      rw [List.map_nil] at hkeys
      rw [List.map_eq_nil_iff.1 hkeys.symm]
  | cons x pool ih =>
      obtain ⟨y, rest, rfl, hxy, hrest⟩ := List.map_eq_cons_iff.1 hkeys.symm
      have hlast := ih hrest.symm
      rw [lastMatch, lastMatch]
      cases hpool : lastMatch (fun x => p (key x)) pool with
      | some found =>
          rw [hpool] at hlast
          obtain ⟨found', hfound', hsame⟩ := Option.map_eq_some_iff.1 hlast.symm
          rw [hfound']
          exact congrArg some hsame.symm
      | none =>
          rw [hpool] at hlast
          rw [Option.map_eq_none_iff.1 hlast.symm, hxy]
          dsimp only
          split
          · exact congrArg some hxy.symm
          · rfl

end Pool

end NewApi.Lib
