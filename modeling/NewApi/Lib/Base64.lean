import Mathlib.Tactic.NormNum

/-!
# Base64

Three bytes are four digits; one or two bytes at the end are padded.  Decoding skips line breaks.
-/

namespace NewApi.Lib.Base64

abbrev Byte :=
  BitVec 8

/-- The character of a digit. -/
def digitChar (n : ℕ) : Char :=
  if n < 26 then Char.ofNat (65 + n)
  else if n < 52 then Char.ofNat (97 + (n - 26))
  else if n < 62 then Char.ofNat (48 + (n - 52))
  else if n = 62 then '+'
  else '/'

/-- The digit of a character. -/
def digit (c : Char) : Option ℕ :=
  let n := c.toNat
  if 65 ≤ n ∧ n ≤ 90 then some (n - 65)
  else if 97 ≤ n ∧ n ≤ 122 then some (n - 97 + 26)
  else if 48 ≤ n ∧ n ≤ 57 then some (n - 48 + 52)
  else if c = '+' then some 62
  else if c = '/' then some 63
  else none

def encode : List Byte → List Char
  | [] => []
  | [a] => [digitChar (a.toNat / 4), digitChar (a.toNat % 4 * 16), '=', '=']
  | [a, b] =>
      [digitChar (a.toNat / 4), digitChar (a.toNat % 4 * 16 + b.toNat / 16),
        digitChar (b.toNat % 16 * 4), '=']
  | a :: b :: c :: bytes =>
      digitChar (a.toNat / 4) :: digitChar (a.toNat % 4 * 16 + b.toNat / 16) ::
        digitChar (b.toNat % 16 * 4 + c.toNat / 64) :: digitChar (c.toNat % 64) :: encode bytes

/-- The first byte of four digits, of which two are given. -/
def firstByte (v w : ℕ) : Byte :=
  BitVec.ofNat 8 (v * 4 + w / 16)

def secondByte (w x : ℕ) : Byte :=
  BitVec.ofNat 8 (w % 16 * 16 + x / 4)

def thirdByte (x y : ℕ) : Byte :=
  BitVec.ofNat 8 (x % 4 * 64 + y)

/-- Digits and padding; nothing may follow the padding. -/
def decodeDigits : List Char → Option (List Byte)
  | [] => some []
  | c :: d :: e :: f :: cs =>
      match digit c, digit d, digit e, digit f with
      | some v, some w, some x, some y =>
          (decodeDigits cs).map fun bytes =>
            firstByte v w :: secondByte w x :: thirdByte x y :: bytes
      | some v, some w, some x, none =>
          if f = '=' ∧ cs = [] then some [firstByte v w, secondByte w x] else none
      | some v, some w, none, none =>
          if e = '=' ∧ f = '=' ∧ cs = [] then some [firstByte v w] else none
      | _, _, _, _ => none
  | _ => none

def decode (cs : List Char) : Option (List Byte) :=
  decodeDigits (cs.filter fun c => c ≠ '\r' ∧ c ≠ '\n')

section

variable {n : ℕ}

@[simp] theorem digit_digitChar (hn : n < 64) : digit (digitChar n) = some n := by
  have hall : ∀ k : Fin 64, digit (digitChar k.1) = some k.1 := by decide
  exact hall ⟨n, hn⟩

theorem digit_padding : digit '=' = none := by
  decide

theorem firstByte_eq (a b : Byte) :
    firstByte (a.toNat / 4) (a.toNat % 4 * 16 + b.toNat / 16) = a := by
  have hvalue : a.toNat / 4 * 4 + (a.toNat % 4 * 16 + b.toNat / 16) / 16 = a.toNat := by
    have hb := b.isLt
    omega
  rw [firstByte, hvalue, BitVec.ofNat_toNat, BitVec.setWidth_eq]

theorem secondByte_eq (a b c : Byte) :
    secondByte (a.toNat % 4 * 16 + b.toNat / 16) (b.toNat % 16 * 4 + c.toNat / 64) = b := by
  have hvalue : (a.toNat % 4 * 16 + b.toNat / 16) % 16 * 16 +
      (b.toNat % 16 * 4 + c.toNat / 64) / 4 = b.toNat := by
    have hb := b.isLt
    have hc := c.isLt
    omega
  rw [secondByte, hvalue, BitVec.ofNat_toNat, BitVec.setWidth_eq]

theorem thirdByte_eq (b c : Byte) :
    thirdByte (b.toNat % 16 * 4 + c.toNat / 64) (c.toNat % 64) = c := by
  have hvalue : (b.toNat % 16 * 4 + c.toNat / 64) % 4 * 64 + c.toNat % 64 = c.toNat := by
    have hc := c.isLt
    omega
  rw [thirdByte, hvalue, BitVec.ofNat_toNat, BitVec.setWidth_eq]

/-- Decoding gives the bytes back. -/
theorem decodeDigits_encode (bytes : List Byte) : decodeDigits (encode bytes) = some bytes := by
  induction bytes using encode.induct with
  | case1 => rfl
  | case2 a =>
      have ha := a.isLt
      have hfirst : firstByte (a.toNat / 4) (a.toNat % 4 * 16) = a := firstByte_eq a 0
      rw [encode, decodeDigits, digit_digitChar (by omega), digit_digitChar (by omega),
        digit_padding]
      simp [hfirst]
  | case3 a b =>
      have ha := a.isLt
      have hb := b.isLt
      have hsecond : secondByte (a.toNat % 4 * 16 + b.toNat / 16) (b.toNat % 16 * 4) = b :=
        secondByte_eq a b 0
      rw [encode, decodeDigits, digit_digitChar (by omega), digit_digitChar (by omega),
        digit_digitChar (by omega), digit_padding]
      simp [hsecond, firstByte_eq]
  | case4 a b c bytes ih =>
      have ha := a.isLt
      have hb := b.isLt
      have hc := c.isLt
      rw [encode, decodeDigits, digit_digitChar (by omega), digit_digitChar (by omega),
        digit_digitChar (by omega), digit_digitChar (by omega), ih]
      simp [firstByte_eq, secondByte_eq, thirdByte_eq]

theorem digitChar_not_break (n : ℕ) : digitChar n ≠ '\r' ∧ digitChar n ≠ '\n' := by
  by_cases hn : n < 64
  · have hdigit := digit_digitChar hn
    constructor
    · intro hsame
      rw [hsame] at hdigit
      cases hdigit
    · intro hsame
      rw [hsame] at hdigit
      cases hdigit
  · rw [digitChar, if_neg (by omega), if_neg (by omega), if_neg (by omega), if_neg (by omega)]
    decide

theorem not_break_of_mem_encode (bytes : List Byte) :
    ∀ c ∈ encode bytes, c ≠ '\r' ∧ c ≠ '\n' := by
  induction bytes using encode.induct with
  | case1 =>
      intro c hc
      cases hc
  | case2 a => simp [encode, digitChar_not_break]
  | case3 a b => simp [encode, digitChar_not_break]
  | case4 a b c bytes ih => simpa [encode, digitChar_not_break] using ih

theorem decode_encode (bytes : List Byte) : decode (encode bytes) = some bytes := by
  have hfilter : (encode bytes).filter (fun c => c ≠ '\r' ∧ c ≠ '\n') = encode bytes := by
    rw [List.filter_eq_self]
    exact fun c hc => decide_eq_true (not_break_of_mem_encode bytes c hc)
  rw [decode, hfilter, decodeDigits_encode]

end

end NewApi.Lib.Base64
