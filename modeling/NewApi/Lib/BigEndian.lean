import Mathlib.Data.Nat.Digits.Defs

/-!
# Numbers and texts in bytes

A number in a fixed count of bytes, the most significant one first, and a text behind its length.
-/

namespace NewApi.Lib.BigEndian

variable {n width : ℕ}

/-- The low bytes of a number, `width` of them. -/
def bigEndian : ℕ → ℕ → List UInt8
  | 0, _ => []
  | width + 1, n => UInt8.ofNat (n / 256 ^ width) :: bigEndian width n

/-- The number that bytes stand for. -/
def value (bytes : List UInt8) : ℕ :=
  Nat.ofDigits 256 (bytes.reverse.map UInt8.toNat)

theorem length_bigEndian (width n : ℕ) : (bigEndian width n).length = width := by
  induction width with
  | zero => rfl
  | succ width ih => exact congrArg (· + 1) ih

theorem value_cons (byte : UInt8) (bytes : List UInt8) :
    value (byte :: bytes) = value bytes + 256 ^ bytes.length * byte.toNat := by
  unfold value
  rw [List.reverse_cons, List.map_append, Nat.ofDigits_append, List.length_map, List.length_reverse]
  exact congrArg (fun digit => _ + 256 ^ bytes.length * digit) Nat.ofDigits_singleton

/-- The bytes of a number stand for it, as far as they go. -/
theorem value_bigEndian (width n : ℕ) : value (bigEndian width n) = n % 256 ^ width := by
  induction width with
  | zero => exact (Nat.mod_one n).symm
  | succ width ih =>
      have hbyte : (UInt8.ofNat (n / 256 ^ width)).toNat = n / 256 ^ width % 256 :=
        UInt8.toNat_ofNat'
      rw [bigEndian, value_cons, ih, length_bigEndian, hbyte, Nat.pow_succ, Nat.mod_mul]

/-! ## Reading from the front -/

/-- The first `width` bytes as a number, if there are as many, and the rest. -/
def readUint (width : ℕ) (bytes : List UInt8) : Option (ℕ × List UInt8) :=
  if bytes.length < width then none else some (value (bytes.take width), bytes.drop width)

/-- A text behind its length. -/
def sized (width : ℕ) (text : List UInt8) : List UInt8 :=
  bigEndian width text.length ++ text

theorem readUint_append (hn : n < 256 ^ width) (rest : List UInt8) :
    readUint width (bigEndian width n ++ rest) = some (n, rest) := by
  have hlength := length_bigEndian width n
  unfold readUint
  rw [if_neg (by rw [List.length_append]; omega), List.take_left' hlength, List.drop_left' hlength,
    value_bigEndian, Nat.mod_eq_of_lt hn]

end NewApi.Lib.BigEndian
