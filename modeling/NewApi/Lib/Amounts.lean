import Mathlib.Data.List.AList
import Mathlib.Data.Int.Basic

/-!
# Maps of integer amounts

A finite map from keys to integers that is read as an amount for each key, zero when the
key is absent.  Entries are unique by construction, so taking an entry out removes all that
the map holds for its key.
-/

namespace NewApi.Lib

/-- A finite map with at most one integer for each key. -/
abbrev Amounts (κ : Type*) := AList fun _ : κ => ℤ

namespace Amounts

variable {κ : Type*} [DecidableEq κ]

/-- The amount held for a key, zero when there is no entry. -/
def amount (m : Amounts κ) (key : κ) : ℤ :=
  (m.lookup key).getD 0

/-- Add to the entry of a key, creating the entry when it is absent. -/
def add (m : Amounts κ) (key : κ) (value : ℤ) : Amounts κ :=
  match m.lookup key with
  | none => m.insert key value
  | some old => m.insert key (old + value)

@[simp] theorem amount_empty (key : κ) : amount (∅ : Amounts κ) key = 0 := rfl

theorem amount_add (m : Amounts κ) (key key' : κ) (value : ℤ) :
    amount (add m key value) key' = amount m key' + if key' = key then value else 0 := by
  by_cases hkey : key' = key
  · subst hkey
    cases hlookup : m.lookup key' with
    | none => simp [add, amount, hlookup]
    | some old => simp [add, amount, hlookup]
  · cases hlookup : m.lookup key with
    | none => simp [add, amount, hlookup, AList.lookup_insert_ne hkey, hkey]
    | some old => simp [add, amount, hlookup, AList.lookup_insert_ne hkey, hkey]

/-- Erasing an entry takes its value out of the amounts. -/
theorem amount_erase {m : Amounts κ} {key : κ} {value : ℤ} (hkey : m.lookup key = some value)
    (key' : κ) :
    amount (m.erase key) key' = amount m key' - if key' = key then value else 0 := by
  by_cases hsame : key' = key
  · subst hsame
    simp [amount, hkey]
  · simp [amount, AList.lookup_erase_ne hsame, hsame]

end Amounts

end NewApi.Lib
