import Mathlib.Algebra.Group.Int.Defs
import Mathlib.Algebra.Group.Nat.Defs
import Mathlib.Data.Int.Basic

/-!
# Decimal numbers and the interface of binary floating point

`Decimal` is the arbitrary-precision decimal `coef * 10 ^ exp` with the operations of the
usual decimal package: exact sums and products, a quotient with sixteen fractional digits,
rounding half away from zero.  `Float64` is the interface of a binary floating-point type
whose rounding is left open: code that computes with floats is stated over any instance.
-/

namespace NewApi.Lib

/-- The number `coef * 10 ^ exp`. -/
structure Decimal where
  coef : ℤ
  exp : ℤ
deriving DecidableEq, Repr

namespace Decimal

/-- `decimal.NewFromInt`. -/
def ofInt (n : ℤ) : Decimal where
  coef := n
  exp := 0

def zero : Decimal := ofInt 0

/-- The coefficient at another exponent; digits below it are cut off. -/
def rescale (d : Decimal) (exp : ℤ) : ℤ :=
  if exp ≤ d.exp then
    d.coef * 10 ^ (d.exp - exp).toNat
  else
    d.coef.tdiv (10 ^ (exp - d.exp).toNat)

def add (a b : Decimal) : Decimal :=
  let exp := min a.exp b.exp
  { coef := a.rescale exp + b.rescale exp, exp := exp }

def sub (a b : Decimal) : Decimal :=
  let exp := min a.exp b.exp
  { coef := a.rescale exp - b.rescale exp, exp := exp }

def mul (a b : Decimal) : Decimal where
  coef := a.coef * b.coef
  exp := a.exp + b.exp

/-- Order of two decimals, on their coefficients at the smaller exponent. -/
def lt (a b : Decimal) : Bool :=
  let exp := min a.exp b.exp
  decide (a.rescale exp < b.rescale exp)

def le (a b : Decimal) : Bool :=
  !b.lt a

def isZero (d : Decimal) : Bool :=
  decide (d.coef = 0)

/-- Quotient with sixteen fractional digits, the last one rounded half away from zero. -/
def div (a b : Decimal) : Decimal :=
  let e := a.exp - b.exp + 16
  let num := if e < 0 then a.coef else a.coef * 10 ^ e.toNat
  let den := if e < 0 then b.coef * 10 ^ (-e).toNat else b.coef
  let quotient := num.tdiv den
  let remainder := num.tmod den
  let up := if num.sign * den.sign < 0 then -1 else 1
  { coef := if 2 * remainder.natAbs < den.natAbs then quotient else quotient + up
    exp := -16 }

/-- `Round(0)`: to an integer, half away from zero. -/
def round (d : Decimal) : Decimal :=
  if d.exp = 0 then d
  else
    let tenths := d.rescale (-1)
    ofInt (if tenths < 0 then (tenths - 5).tdiv 10 else (tenths + 5).tdiv 10)

/-- `IntPart()`: the integer part, cut off towards zero, of which an `int64` keeps the low bits. -/
def intPart (d : Decimal) : ℤ :=
  (d.rescale 0).bmod (2 ^ 64)

instance : Add Decimal := ⟨add⟩
instance : Sub Decimal := ⟨sub⟩
instance : Mul Decimal := ⟨mul⟩
instance : Div Decimal := ⟨div⟩

end Decimal

/-- Floating-point numbers: arithmetic, comparison, conversion from and to integers, and
the shortest decimal that reads back as the number. -/
class Float64 (F : Type) extends Add F, Sub F, Mul F, Div F where
  ofInt : ℤ → F
  toInt : F → ℤ
  round : F → F
  lt : F → F → Bool
  le : F → F → Bool
  eq : F → F → Bool
  toDecimal : F → Decimal

/-- Decimal arithmetic as an instance: what floating point does while nothing is rounded. -/
instance : Float64 Decimal where
  ofInt := Decimal.ofInt
  toInt d := d.rescale 0
  round := Decimal.round
  lt := Decimal.lt
  le := Decimal.le
  eq a b := Decimal.le a b && Decimal.le b a
  toDecimal d := d

end NewApi.Lib
