/-!
Digits in base `2 ^ 64`, and the steps on single digits that longer arithmetic is made of.

A step works on natural numbers and then splits its total: what fits in a digit stays at its
place, the rest is handed on as a carry, a borrow or a high digit. Nothing is lost as long as
the total is below `2 ^ 128`.
-/

namespace Bignum

/-- One positional unit of a number: a word of 64 bits. -/
abbrev Digit := UInt64

namespace Digit

/-- The base, `2 ^ 64`. -/
abbrev base : Nat := 18446744073709551616

/-- The largest digit, `2 ^ 64 - 1`. -/
def max : Digit := 0xffffffffffffffff

/-- A total below `2 ^ 128` as its low and its high digit. -/
def split (total : Nat) : Digit × Digit :=
  (UInt64.ofNat total, UInt64.ofNat (total / base))

/-- `a + b + carry`: the digit that stays, and whether one is carried on. -/
def addCarry (a b : Digit) (carry : Bool) : Digit × Bool :=
  let total := a.toNat + b.toNat + carry.toNat
  (UInt64.ofNat total, decide (base ≤ total))

/-- `a - b - borrow`: the digit that stays, and whether one had to be borrowed. -/
def subBorrow (a b : Digit) (borrow : Bool) : Digit × Bool :=
  let taken := b.toNat + borrow.toNat
  (UInt64.ofNat (base + a.toNat - taken), decide (a.toNat < taken))

/-- The number of bits up to the highest one that is set; `0` for zero. -/
def bitLength (d : Digit) : Nat :=
  if d = 0 then 0 else d.toNat.log2 + 1

/-- The place of the lowest bit that is set. -/
def lowestBit? (d : Digit) : Option Nat :=
  (List.range 64).find? fun place => d.toNat.testBit place

/-- The exponent of a digit that is a power of two. -/
def powerOfTwo? (d : Digit) : Option Nat :=
  if d.toNat = 1 <<< d.toNat.log2 then some d.toNat.log2 else none

end Digit

end Bignum
