import Mathlib.Data.Int.Log
import Mathlib.Data.Rat.Floor

/-!
# Doubles as their bits

The binary64 format: what its bits mean, how two of them compare, and the
double nearest to a rational number. Comparison goes by the bits, whose order
as integers is the order of the numbers on either side of zero.
-/

namespace NodeLink.Lib

abbrev Double := BitVec 64

namespace Double

def exponent (x : Double) : Nat := x.toNat / 2 ^ 52 % 2 ^ 11

def fraction (x : Double) : Nat := x.toNat % 2 ^ 52

def isFinite (x : Double) : Bool := decide (x.exponent ≠ 2047)

def isNaN (x : Double) : Bool :=
  decide (x.exponent = 2047) && decide (x.fraction ≠ 0)

/-- The place of a number that is not `NaN` among all of them; both zeros are
at 0. -/
def rank (x : Double) : Int :=
  if x.msb then -((x.toNat % 2 ^ 63 : Nat) : Int)
  else ((x.toNat % 2 ^ 63 : Nat) : Int)

def lt (x y : Double) : Bool :=
  !x.isNaN && !y.isNaN && decide (x.rank < y.rank)

def le (x y : Double) : Bool :=
  !x.isNaN && !y.isNaN && decide (x.rank ≤ y.rank)

/-- Equal as numbers. -/
def same (x y : Double) : Bool :=
  !x.isNaN && !y.isNaN && decide (x.rank = y.rank)

/-- The number a finite double stands for. -/
def value (x : Double) : ℚ :=
  (if x.msb then -1 else 1) *
    ((if x.exponent = 0 then x.fraction else 2 ^ 52 + x.fraction : Nat) : ℚ) *
    2 ^ (max (x.exponent : Int) 1 - 1075)

/-- The nearest integer, the even one of two. -/
def roundHalfEven (q : ℚ) : Int :=
  if q - ⌊q⌋ < 1 / 2 then ⌊q⌋
  else if 1 / 2 < q - ⌊q⌋ then ⌊q⌋ + 1
  else if ⌊q⌋ % 2 = 0 then ⌊q⌋
  else ⌊q⌋ + 1

/-- The exponent of the last place of the doubles near a positive number. -/
def lastPlace (q : ℚ) : Int := max (Int.log 2 q) (-1022) - 52

def infinity : Double := 0x7ff0000000000000#64

/-- The double nearest to a number that is not negative. A significand that is
rounded up to the next power of two carries into the exponent. -/
def ofNonneg (q : ℚ) : Double :=
  if q = 0 then 0
  else if 2047 * 2 ^ 52 ≤
      (lastPlace q + 1074) * 2 ^ 52 + roundHalfEven (q / 2 ^ lastPlace q) then
    infinity
  else
    BitVec.ofInt 64
      ((lastPlace q + 1074) * 2 ^ 52 + roundHalfEven (q / 2 ^ lastPlace q))

end Double

end NodeLink.Lib
