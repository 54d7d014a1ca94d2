import NewApi.Lib.Strings
import Mathlib.Tactic.NormNum

/-!
# Integers as texts

The decimal text of a 64-bit integer and the reading of one: an optional sign and digits, in range.
-/

namespace NewApi.Lib.Strings

/-- The range of a signed 64-bit integer. -/
def InInt64 (n : ℤ) : Prop :=
  -2 ^ 63 ≤ n ∧ n < 2 ^ 63

instance (n : ℤ) : Decidable (InInt64 n) :=
  inferInstanceAs (Decidable (_ ∧ _))

/-- In its range, a result of the machine is the integer. -/
theorem bmod_of_inInt64 {n : ℤ} (hn : InInt64 n) : n.bmod (2 ^ 64) = n := by
  obtain ⟨hlow, hhigh⟩ := hn
  exact Int.bmod_eq_of_le (by norm_num; omega) (by norm_num; omega)

theorem inInt64_bmod (n : ℤ) : InInt64 (n.bmod (2 ^ 64)) := by
  have hlow : -((2 ^ 64 : ℕ) / 2 : ℤ) ≤ n.bmod (2 ^ 64) := Int.le_bmod (by norm_num)
  have hhigh : n.bmod (2 ^ 64) < ((2 ^ 64 : ℕ) + 1) / 2 := Int.bmod_lt (by norm_num)
  norm_num at hlow hhigh
  exact ⟨hlow, hhigh⟩

/-- The characters behind a sign, and whether the sign is a minus. -/
def cutSign : List Char → Bool × List Char
  | '-' :: digits => (true, digits)
  | '+' :: digits => (false, digits)
  | digits => (false, digits)

/-- Digits behind a sign, as a number. -/
def signedValue (cut : Bool × List Char) : ℤ :=
  let magnitude : ℤ := Nat.ofDigitChars 10 cut.2 0
  if cut.1 then -magnitude else magnitude

/-- `strconv.Atoi`. -/
def atoi (s : String) : Option ℤ :=
  let cut := cutSign s.toList
  if cut.2 ≠ [] ∧ cut.2.all Char.isDigit ∧ InInt64 (signedValue cut) then some (signedValue cut)
  else none

/-- `strconv.Itoa`. -/
def itoa (n : ℤ) : String :=
  if n < 0 then String.singleton '-' ++ n.natAbs.repr else n.natAbs.repr

/-- `strconv.FormatBool`. -/
def formatBool (b : Bool) : String :=
  if b then "true" else "false"

/-- `strconv.ParseBool`. -/
def parseBool (s : String) : Option Bool :=
  if s ∈ ["1", "t", "T", "TRUE", "true", "True"] then some true
  else if s ∈ ["0", "f", "F", "FALSE", "false", "False"] then some false
  else none

theorem parseBool_formatBool (b : Bool) : parseBool (formatBool b) = some b := by
  cases b <;> decide

section

variable {n : ℤ} {c : Char} {s : String}

theorem repr_ne_nil (k : ℕ) : k.repr.toList ≠ [] := by
  rw [Nat.toList_repr]
  exact Nat.toDigits_ne_nil

theorem isDigit_of_mem_repr {k : ℕ} (hc : c ∈ k.repr.toList) : c.isDigit = true := by
  rw [Nat.toList_repr] at hc
  exact Nat.isDigit_of_mem_toDigits (by omega) (by omega) hc

theorem cutSign_of_isDigit {digits : List Char} (hdigits : ∀ c ∈ digits, c.isDigit = true) :
    cutSign digits = (false, digits) := by
  unfold cutSign
  split
  · exact absurd (hdigits '-' List.mem_cons_self) (by decide)
  · exact absurd (hdigits '+' List.mem_cons_self) (by decide)
  · rfl

theorem ofDigitChars_repr (k : ℕ) : Nat.ofDigitChars 10 k.repr.toList 0 = k := by
  rw [Nat.toList_repr]
  exact Nat.ofDigitChars_ten_toDigits

theorem atoi_eq_some_iff : atoi s = some n ↔
    (cutSign s.toList).2 ≠ [] ∧ (cutSign s.toList).2.all Char.isDigit ∧ InInt64 n ∧
      signedValue (cutSign s.toList) = n := by
  simp only [atoi, Option.ite_none_right_eq_some, Option.some.injEq]
  constructor
  · intro hread
    obtain ⟨⟨hne, hdigits, hrange⟩, rfl⟩ := hread
    exact ⟨hne, hdigits, hrange, rfl⟩
  · intro hread
    obtain ⟨hne, hdigits, hrange, rfl⟩ := hread
    exact ⟨⟨hne, hdigits, hrange⟩, rfl⟩

theorem cutSign_itoa (n : ℤ) :
    cutSign (itoa n).toList = (decide (n < 0), n.natAbs.repr.toList) := by
  by_cases hneg : n < 0
  · rw [itoa, if_pos hneg, String.toList_append, String.toList_singleton, decide_eq_true hneg]
    rfl
  · rw [itoa, if_neg hneg, decide_eq_false hneg]
    exact cutSign_of_isDigit fun c hc => isDigit_of_mem_repr hc

/-- Reading undoes writing. -/
theorem atoi_itoa (hn : InInt64 n) : atoi (itoa n) = some n := by
  rw [atoi_eq_some_iff, cutSign_itoa]
  refine ⟨repr_ne_nil _, List.all_eq_true.2 fun c hc => isDigit_of_mem_repr hc, hn, ?_⟩
  show (if decide (n < 0) = true then
    -((Nat.ofDigitChars 10 n.natAbs.repr.toList 0 : ℕ) : ℤ)
      else (Nat.ofDigitChars 10 n.natAbs.repr.toList 0 : ℕ)) = n
  rw [ofDigitChars_repr]
  split
  case isTrue hneg =>
    have hneg := of_decide_eq_true hneg
    omega
  case isFalse hneg =>
    have hneg := mt decide_eq_true hneg
    omega

theorem itoa_ne_empty (n : ℤ) : itoa n ≠ "" := by
  intro hempty
  have hlist := congrArg String.toList hempty
  rw [itoa] at hlist
  split at hlist
  · simp at hlist
  · exact repr_ne_nil _ hlist

/-- The text of an integer has digits only, after its sign. -/
theorem isDigit_of_mem_itoa (hc : c ∈ (itoa n).toList) : c.isDigit = true ∨ n < 0 ∧ c = '-' := by
  rw [itoa] at hc
  split at hc
  case isTrue hneg =>
    rw [String.toList_append, String.toList_singleton, List.singleton_append,
      List.mem_cons] at hc
    rcases hc with rfl | hc
    · exact .inr ⟨hneg, rfl⟩
    · exact .inl (isDigit_of_mem_repr hc)
  case isFalse => exact .inl (isDigit_of_mem_repr hc)

/-- A text with a minus sign in it is read as no positive integer. -/
theorem notMem_minus_of_atoi_pos (hread : atoi s = some n) (hpos : 0 < n) : '-' ∉ s.toList := by
  intro hminus
  obtain ⟨-, hdigits, -, hvalue⟩ := atoi_eq_some_iff.1 hread
  have hclean : '-' ∉ (cutSign s.toList).2 := fun hmem =>
    absurd (List.all_eq_true.1 hdigits _ hmem) (by decide)
  generalize s.toList = chars at hminus hvalue hclean
  unfold cutSign at hclean hvalue
  split at hclean
  case h_1 digits =>
    have hneg : -((Nat.ofDigitChars 10 digits 0 : ℕ) : ℤ) = n := hvalue
    omega
  case h_2 digits =>
    rcases List.mem_cons.1 hminus with hfirst | hrest
    · exact absurd hfirst (by decide)
    · exact hclean hrest
  case h_3 => exact hclean hminus

end

theorem isSpace_of_isDigit {c : Char} (hc : c.isDigit = true) : isSpace c = false := by
  have hbounds : 48 ≤ c.toNat ∧ c.toNat ≤ 57 := by
    simpa [Char.isDigit, UInt32.le_iff_toNat_le] using hc
  simp only [isSpace, Bool.or_eq_false_iff, decide_eq_false_iff_not, Bool.and_eq_false_iff,
    List.mem_cons, List.not_mem_nil, not_or, or_false]
  omega

theorem trimSpace_itoa (n : ℤ) : trimSpace (itoa n) = itoa n := by
  refine trim_of_forall fun c hc => ?_
  obtain hdigit | ⟨-, rfl⟩ := isDigit_of_mem_itoa hc
  · exact isSpace_of_isDigit hdigit
  · decide

end NewApi.Lib.Strings
