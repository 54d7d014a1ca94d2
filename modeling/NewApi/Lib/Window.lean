import Mathlib.Data.List.Count

/-!
# Windows over a history

In a history with the newest event first, the events of a window are a prefix: an older event is in
the window only if the newer ones are.  How many there are is told by one place of the history.
-/

namespace NewApi.Lib

variable {α : Type*} {p : α → Bool} {xs ys : List α}

/-- The window does not begin again further back. -/
def IsWindow (p : α → Bool) (xs : List α) : Prop :=
  xs.Pairwise fun newer older => p older = true → p newer = true

theorem IsWindow.countP_eq_zero {x : α} (hwindow : IsWindow p (x :: xs)) (hx : p x = false) :
    xs.countP p = 0 := by
  rw [List.countP_eq_zero]
  intro y hy hp
  have hnewer := (List.pairwise_cons.1 hwindow).1 y hy hp
  rw [hx] at hnewer
  cases hnewer

/-- At most `k` events are in the window when the event in place `k` is not. -/
theorem IsWindow.countP_le_iff (hwindow : IsWindow p xs) (k : ℕ) :
    xs.countP p ≤ k ↔ ∀ x ∈ xs[k]?, p x = false := by
  induction xs generalizing k with
  | nil => simp
  | cons x xs ih =>
      cases hx : p x with
      | true =>
          rw [List.countP_cons_of_pos hx]
          cases k with
          | zero =>
              refine iff_of_false (by omega) fun hnone => ?_
              have hfirst := hnone x rfl
              rw [hx] at hfirst
              cases hfirst
          | succ k =>
              rw [List.getElem?_cons_succ, ← ih (List.pairwise_cons.1 hwindow).2]
              omega
      | false =>
          -- the window is over before it begins
          have hnone := hwindow.countP_eq_zero hx
          rw [List.countP_cons_of_neg (by rw [hx]; exact Bool.false_ne_true), hnone]
          refine iff_of_true (Nat.zero_le k) fun y hy => ?_
          rcases List.mem_cons.1 (List.mem_of_getElem? hy) with rfl | hmem
          · exact hx
          · exact Bool.eq_false_iff.2 (List.countP_eq_zero.1 hnone y hmem)

/-- When the window reaches into the older part of a history, it covers the newer part. -/
theorem IsWindow.countP_append (hwindow : IsWindow p (xs ++ ys)) :
    (xs ++ ys).countP p = if ys.countP p = 0 then xs.countP p else xs.length + ys.countP p := by
  rw [List.countP_append]
  split
  case isTrue hnone => rw [hnone, Nat.add_zero]
  case isFalse hsome =>
    obtain ⟨y, hy, hp⟩ := List.countP_pos_iff.1 (Nat.pos_of_ne_zero hsome)
    have hall : xs.countP p = xs.length := by
      rw [List.countP_eq_length]
      intro x hx
      exact (List.pairwise_append.1 hwindow).2.2 x hx y hy hp
    rw [hall]

end NewApi.Lib
