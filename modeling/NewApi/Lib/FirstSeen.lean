import Mathlib.Data.List.Induction
import Mathlib.Data.List.Nodup

/-!
# The order of first occurrences

`List.eraseDups` lists what a list holds in the order in which it is seen first.  A table whose
entries are numbered when they are first seen has this order.
-/

namespace NewApi.Lib

variable {α β : Type*} [DecidableEq α] [DecidableEq β]

/-- One more occurrence. -/
theorem eraseDups_concat (xs : List α) (x : α) :
    (xs ++ [x]).eraseDups = if x ∈ xs then xs.eraseDups else xs.eraseDups ++ [x] := by
  rw [List.eraseDups_append]
  split
  case isTrue hold =>
    have hnone : [x].removeAll xs = [] := by simp [List.removeAll, hold]
    rw [hnone, List.eraseDups_nil, List.append_nil]
  case isFalse hnew =>
    have hone : [x].removeAll xs = [x] := by simp [List.removeAll, hnew]
    rw [hone]
    rfl

theorem nodup_eraseDups (xs : List α) : xs.eraseDups.Nodup := by
  induction xs using List.reverseRecOn with
  | nil => exact List.nodup_nil
  | append_singleton xs x ih =>
      rw [eraseDups_concat]
      split
      case isTrue hold => exact ih
      case isFalse hnew =>
        refine List.nodup_append.2 ⟨ih, List.nodup_singleton x, fun a ha b hb hab => hnew ?_⟩
        rw [← List.mem_singleton.1 hb, ← hab]
        exact List.mem_eraseDups.1 ha

/-- Names that tell the elements apart are seen in the order of the elements. -/
theorem eraseDups_map {f : α → β} {xs : List α} (hf : ∀ a ∈ xs, ∀ b ∈ xs, f a = f b → a = b) :
    (xs.map f).eraseDups = xs.eraseDups.map f := by
  induction xs using List.reverseRecOn with
  | nil => rfl
  | append_singleton xs x ih =>
      have hxs : ∀ a ∈ xs, ∀ b ∈ xs, f a = f b → a = b := fun a ha b hb =>
        hf a (List.mem_append_left _ ha) b (List.mem_append_left _ hb)
      have hmem : f x ∈ xs.map f ↔ x ∈ xs := by
        refine ⟨fun hseen => ?_, fun hseen => List.mem_map_of_mem hseen⟩
        obtain ⟨a, ha, heq⟩ := List.mem_map.1 hseen
        rw [← hf a (List.mem_append_left _ ha) x (List.mem_append_right _ (List.mem_singleton_self x)) heq]
        exact ha
      rw [List.map_append, List.map_singleton, eraseDups_concat, eraseDups_concat, ih hxs]
      by_cases hseen : x ∈ xs
      · rw [if_pos hseen, if_pos (hmem.2 hseen)]
      · rw [if_neg hseen, if_neg (mt hmem.1 hseen), List.map_append, List.map_singleton]

omit [DecidableEq α] [DecidableEq β] in
/-- Names that tell the elements apart tell the lists apart. -/
theorem eq_of_map_eq {f : α → β} {xs ys : List α} (hf : ∀ a ∈ xs, ∀ b ∈ ys, f a = f b → a = b)
    (hmap : xs.map f = ys.map f) : xs = ys := by
  induction xs generalizing ys with
  | nil => exact (List.map_eq_nil_iff.1 hmap.symm).symm
  | cons x xs ih =>
      cases ys with
      | nil => cases hmap
      | cons y ys =>
          obtain ⟨hhead, htail⟩ := List.cons.inj hmap
          rw [hf x List.mem_cons_self y List.mem_cons_self hhead, ih (fun a ha b hb =>
            hf a (List.mem_cons_of_mem x ha) b (List.mem_cons_of_mem y hb)) htail]

end NewApi.Lib
