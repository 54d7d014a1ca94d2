import NewApi.Lib.Outcome

/-!
# Slices

A slice has items, and behind them the spare room of its array, with what was written there.  A cut
may reach into the spare room; beyond it, it panics.
-/

namespace NewApi.Lib

universe u

structure Slice (α : Type u) where
  items : List α
  spare : List α

namespace Slice

variable {α : Type u} (s : Slice α) (n : ℕ)

/-- The array from the first item of the slice on. -/
def room : List α :=
  s.items ++ s.spare

/-- `s[:n]`. -/
def upTo : Outcome (List α) :=
  if n ≤ s.room.length then .ok (s.room.take n) else .panicked

variable {s n}

theorem length_room : s.room.length = s.items.length + s.spare.length :=
  List.length_append

theorem upTo_of_le (hn : n ≤ s.items.length) : s.upTo n = .ok (s.items.take n) := by
  have hroom : n ≤ s.room.length := by
    rw [length_room]
    omega
  rw [upTo, if_pos hroom, room, List.take_append_of_le_length hn]

theorem length_of_upTo {cut : List α} (hcut : s.upTo n = .ok cut) : cut.length = n := by
  unfold upTo at hcut
  split at hcut
  case isTrue hroom =>
    cases hcut
    rw [List.length_take]
    omega
  case isFalse => cases hcut

/-- A cut is the items as far as they go exactly if there are that many. -/
theorem upTo_eq_take_iff : s.upTo n = .ok (s.items.take n) ↔ n ≤ s.items.length := by
  constructor
  · intro hcut
    have hlength := length_of_upTo hcut
    rw [List.length_take] at hlength
    omega
  · exact upTo_of_le

end Slice

end NewApi.Lib
