import Mathlib.Tactic.Ring

/-!
# Blocks of addresses

An address is a list of bytes, the first one the most significant; a block is given by an address
and the number of leading bits that its members share with it. A program tests membership byte by
byte under a mask.
-/

namespace NewApi.Lib

/-- The number that the bytes are. -/
def addressValue : List UInt8 → ℕ
  | [] => 0
  | byte :: bytes => byte.toNat * 2 ^ (8 * bytes.length) + addressValue bytes

structure Block where
  base : List UInt8
  ones : ℕ
deriving DecidableEq

/-- The mask of the first `n` bits of a byte. -/
def leadingMask (n : ℕ) : UInt8 :=
  ~~~(0xff >>> UInt8.ofNat n)

/-- The mask of the first `n` bits of so many bytes. -/
def blockMask : (n length : ℕ) → List UInt8
  | _, 0 => []
  | n, length + 1 =>
      if 8 ≤ n then 0xff :: blockMask (n - 8) length else leadingMask n :: blockMask 0 length

def masked (mask address : List UInt8) : List UInt8 :=
  List.zipWith (· &&& ·) address mask

namespace Block

/-- Addresses of one length are in one block when they have the same leading bits. -/
def Mem (block : Block) (address : List UInt8) : Prop :=
  address.length = block.base.length ∧
    addressValue address / 2 ^ (8 * address.length - block.ones) =
      addressValue block.base / 2 ^ (8 * address.length - block.ones)

instance (block : Block) (address : List UInt8) : Decidable (block.Mem address) :=
  inferInstanceAs (Decidable (_ ∧ _))

end Block

section

variable {n : ℕ} {x y : UInt8} {xs ys : List UInt8}

@[simp] theorem length_blockMask (n length : ℕ) : (blockMask n length).length = length := by
  induction length generalizing n with
  | zero => rfl
  | succ length ih =>
      rw [blockMask]
      split
      all_goals rw [List.length_cons, ih]

theorem addressValue_lt (bytes : List UInt8) : addressValue bytes < 2 ^ (8 * bytes.length) := by
  induction bytes with
  | nil => exact Nat.one_pos
  | cons byte bytes ih =>
      have hbyte : byte.toNat + 1 ≤ 2 ^ 8 := byte.toNat_lt
      calc byte.toNat * 2 ^ (8 * bytes.length) + addressValue bytes
          _ < byte.toNat * 2 ^ (8 * bytes.length) + 2 ^ (8 * bytes.length) := by omega
          _ = (byte.toNat + 1) * 2 ^ (8 * bytes.length) := by ring
          _ ≤ 2 ^ 8 * 2 ^ (8 * bytes.length) := Nat.mul_le_mul_right _ hbyte
          _ = 2 ^ (8 * (bytes.length + 1)) := by ring

/-- Under a leading mask a byte keeps its leading bits. -/
theorem toNat_and_leadingMask (hn : n < 8) (byte : UInt8) :
    (byte &&& leadingMask n).toNat = byte.toNat / 2 ^ (8 - n) * 2 ^ (8 - n) := by
  -- eight masks and 256 bytes are few enough to try them all
  have hall : ∀ n < 8, ∀ k < 256,
      (UInt8.ofNat k &&& leadingMask n).toNat = k / 2 ^ (8 - n) * 2 ^ (8 - n) := by
    decide +kernel
  simpa using hall n hn byte.toNat byte.toNat_lt

theorem and_leadingMask_eq_iff (hn : n < 8) :
    y &&& leadingMask n = x &&& leadingMask n ↔
      y.toNat / 2 ^ (8 - n) = x.toNat / 2 ^ (8 - n) := by
  rw [← UInt8.toNat_inj, toNat_and_leadingMask hn, toNat_and_leadingMask hn,
    Nat.mul_left_inj (Nat.two_pow_pos _).ne']

/-- The leading bits of a first byte and of the rest, cut at the byte. -/
theorem div_two_pow_byte {a v m k : ℕ} (hk : k ≤ m) :
    (a * 2 ^ m + v) / 2 ^ k = a * 2 ^ (m - k) + v / 2 ^ k := by
  have hsplit : a * 2 ^ m = a * 2 ^ (m - k) * 2 ^ k := by
    rw [Nat.mul_assoc, ← Nat.pow_add, Nat.sub_add_cancel hk]
  rw [hsplit, Nat.add_comm, Nat.add_mul_div_right _ _ (Nat.two_pow_pos k), Nat.add_comm]

theorem div_two_pow_rest {a v m k : ℕ} (hv : v < 2 ^ m) :
    (a * 2 ^ m + v) / 2 ^ (m + k) = a / 2 ^ k := by
  rw [Nat.pow_add, ← Nat.div_div_eq_div_mul, div_two_pow_byte (Nat.le_refl m), Nat.sub_self,
    Nat.pow_zero, Nat.mul_one, Nat.div_eq_of_lt hv, Nat.add_zero]

theorem mul_add_inj {a b v w k : ℕ} (hv : v < k) (hw : w < k) :
    a * k + v = b * k + w ↔ a = b ∧ v = w := by
  constructor
  · intro hsum
    have hquot := congrArg (· / k) hsum
    simp only [Nat.add_comm (_ * k), Nat.add_mul_div_right _ _ (Nat.zero_lt_of_lt hv),
      Nat.div_eq_of_lt hv, Nat.div_eq_of_lt hw, Nat.zero_add] at hquot
    subst hquot
    exact ⟨rfl, Nat.add_left_cancel hsum⟩
  · rintro ⟨rfl, rfl⟩
    rfl

namespace Block

/-- A whole byte of the prefix is the same. -/
theorem mem_cons_of_le (hn : 8 ≤ n) :
    (Block.mk (x :: xs) n).Mem (y :: ys) ↔ y = x ∧ (Block.mk xs (n - 8)).Mem ys := by
  simp only [Mem, List.length_cons, Nat.add_right_cancel_iff]
  rw [and_left_comm]
  refine and_congr_right fun hlength => ?_
  have hbits : 8 * (ys.length + 1) - n = 8 * ys.length - (n - 8) := by omega
  have hk : 8 * ys.length - (n - 8) ≤ 8 * ys.length := Nat.sub_le _ _
  -- the bits that the rest shares with the prefix do not reach into those of the first byte
  have hquot : ∀ bytes : List UInt8, bytes.length = ys.length →
      addressValue bytes / 2 ^ (8 * ys.length - (n - 8)) <
        2 ^ (8 * ys.length - (8 * ys.length - (n - 8))) := by
    intro bytes hbytes
    rw [Nat.div_lt_iff_lt_mul (Nat.two_pow_pos _), ← Nat.pow_add, Nat.sub_add_cancel hk, ← hbytes]
    exact addressValue_lt bytes
  rw [addressValue, addressValue, hbits, ← hlength, div_two_pow_byte hk, div_two_pow_byte hk,
    mul_add_inj (hquot ys rfl) (hquot xs hlength.symm), UInt8.toNat_inj]

/-- The prefix ends in a byte. -/
theorem mem_cons_of_lt (hn : n < 8) :
    (Block.mk (x :: xs) n).Mem (y :: ys) ↔
      y.toNat / 2 ^ (8 - n) = x.toNat / 2 ^ (8 - n) ∧ ys.length = xs.length := by
  simp only [Mem, List.length_cons, Nat.add_right_cancel_iff]
  rw [and_comm]
  refine and_congr_left fun hlength => ?_
  have hbits : 8 * (ys.length + 1) - n = 8 * ys.length + (8 - n) := by omega
  rw [addressValue, addressValue, hbits, div_two_pow_rest (addressValue_lt ys), ← hlength,
    div_two_pow_rest (hlength ▸ addressValue_lt xs)]

theorem mem_zero : (Block.mk xs 0).Mem ys ↔ ys.length = xs.length := by
  refine ⟨And.left, fun hlength => ⟨hlength, ?_⟩⟩
  rw [Nat.sub_zero, Nat.div_eq_of_lt (addressValue_lt ys),
    Nat.div_eq_of_lt (hlength ▸ addressValue_lt xs)]

theorem masked_zero (hlength : ys.length = xs.length) :
    masked (blockMask 0 ys.length) ys = masked (blockMask 0 ys.length) xs := by
  induction ys generalizing xs with
  | nil =>
      obtain rfl : xs = [] := List.length_eq_zero_iff.1 hlength.symm
      rfl
  | cons y ys ih =>
      obtain ⟨x, xs, rfl⟩ := List.exists_cons_of_length_eq_add_one hlength.symm
      have hzero : ∀ byte : UInt8, byte &&& leadingMask 0 = 0 := fun byte => by
        rw [← UInt8.toNat_inj, toNat_and_leadingMask (by omega), Nat.div_eq_of_lt byte.toNat_lt]
        rfl
      simp only [List.length_cons, blockMask, masked]
      rw [if_neg (by omega), List.zipWith_cons_cons, List.zipWith_cons_cons, hzero, hzero]
      exact congrArg _ (ih (by simpa using hlength))

/-- Comparing all bytes under the mask of the prefix decides membership. -/
theorem mem_iff_masked (hlength : ys.length = xs.length) :
    (Block.mk xs n).Mem ys ↔
      masked (blockMask n ys.length) ys = masked (blockMask n ys.length) xs := by
  induction ys generalizing xs n with
  | nil =>
      obtain rfl : xs = [] := List.length_eq_zero_iff.1 hlength.symm
      exact iff_of_true ⟨rfl, rfl⟩ rfl
  | cons y ys ih =>
      obtain ⟨x, xs, rfl⟩ := List.exists_cons_of_length_eq_add_one hlength.symm
      have hlength' : ys.length = xs.length := by simpa using hlength
      have hfull : ∀ byte : UInt8, byte &&& 0xff = byte := fun byte => by
        rw [← UInt8.toNat_inj, UInt8.toNat_and]
        exact Nat.and_two_pow_sub_one_of_lt_two_pow byte.toNat_lt
      simp only [List.length_cons, blockMask, masked]
      split
      case isTrue hn =>
        rw [mem_cons_of_le hn, ih hlength', List.zipWith_cons_cons, List.zipWith_cons_cons,
          List.cons.injEq, hfull, hfull]
        rfl
      case isFalse hn =>
        -- the prefix ends in this byte, so under the mask the rest of every address is zero
        have hrest := masked_zero hlength'
        rw [mem_cons_of_lt (by omega), ← and_leadingMask_eq_iff (by omega), List.zipWith_cons_cons,
          List.zipWith_cons_cons, List.cons.injEq]
        exact and_congr_right' (iff_of_true hlength' hrest)

/-- Fewer common bits are asked for by a larger block. -/
theorem Mem.of_le {m : ℕ} (hm : m ≤ n) (hmem : (Block.mk xs n).Mem ys) :
    (Block.mk xs m).Mem ys := by
  obtain ⟨hlength, hbits⟩ := hmem
  refine ⟨hlength, ?_⟩
  obtain ⟨more, hmore⟩ := Nat.exists_eq_add_of_le
    (show 8 * ys.length - n ≤ 8 * ys.length - m by omega)
  show addressValue ys / 2 ^ (8 * ys.length - m) = addressValue xs / 2 ^ (8 * ys.length - m)
  rw [hmore, Nat.pow_add, ← Nat.div_div_eq_div_mul, ← Nat.div_div_eq_div_mul]
  exact congrArg (· / 2 ^ more) hbits

/-- Blocks with a common member have bases that share the bits that both ask for. -/
theorem Mem.base_mem {block other : Block} (hmem : block.Mem ys) (hother : other.Mem ys) :
    (Block.mk other.base (min block.ones other.ones)).Mem block.base := by
  have hshort := hmem.of_le (Nat.min_le_left block.ones other.ones)
  have hshort' := hother.of_le (Nat.min_le_right block.ones other.ones)
  refine ⟨hmem.1.symm.trans hother.1, ?_⟩
  rw [← hmem.1]
  exact hshort.2.symm.trans hshort'.2

/-- A block of one address. -/
theorem mem_full : (Block.mk xs (8 * xs.length)).Mem ys ↔ ys = xs := by
  induction ys generalizing xs with
  | nil =>
      cases xs with
      | nil => exact iff_of_true ⟨rfl, rfl⟩ rfl
      | cons x xs => exact iff_of_false (fun hmem => nomatch hmem.1) nofun
  | cons y ys ih =>
      cases xs with
      | nil => exact iff_of_false (fun hmem => nomatch hmem.1) nofun
      | cons x xs =>
          have hrest : 8 * (x :: xs).length - 8 = 8 * xs.length := by
            rw [List.length_cons]
            omega
          rw [mem_cons_of_le (by rw [List.length_cons]; omega), hrest, ih, List.cons.injEq]

end Block

end

end NewApi.Lib
