import Bignum.Digits.Quotient

/-!
Signed integers of any size: a sign flag over a digit sequence.

An integer is canonical when its digits are and zero has no sign, so that every value has one
form. All operations answer canonical integers when they are given canonical ones.
-/

namespace Bignum

/-- A sign and digits. -/
structure Integer where
  negative : Bool
  digits : Digits
  deriving DecidableEq, Repr

namespace Integer

/-- The value of an integer. -/
def toInt (v : Integer) : Int :=
  if v.negative then -(v.digits.toNat : Int) else v.digits.toNat

/-- The one form of a value. -/
def Canonical (v : Integer) : Prop :=
  v.digits.Canonical ∧ (v.digits = [] → v.negative = false)

instance (v : Integer) : Decidable v.Canonical :=
  inferInstanceAs (Decidable (v.digits.Canonical ∧ (v.digits = [] → v.negative = false)))

/-! ### Construction -/

/-- Put a sign to canonical digits. Zero takes none. -/
def ofCanonical (negative : Bool) (digits : Digits) : Integer :=
  { negative := negative && !digits.isEmpty, digits := digits }

/-- Put a sign to any digits. -/
def ofMagnitude (negative : Bool) (digits : Digits) : Integer :=
  ofCanonical negative digits.trim

def zero : Integer := { negative := false, digits := [] }

def one : Integer := { negative := false, digits := [1] }

def minusOne : Integer := { negative := true, digits := [1] }

instance : Inhabited Integer := ⟨zero⟩

/-- Put a sign to any digits, in storage of their own for those that are kept. -/
def ofDigits (limit : Nat) (negative : Bool) (digits : Digits) :
    Except ArithmeticError Integer :=
  liftAllocation ((digits.trim.copy limit).map (ofCanonical negative))

/-! ### Sign and parity -/

def isZero (v : Integer) : Bool := v.digits.isEmpty

/-- Zero has no sign and is not positive either. -/
def isPositive (v : Integer) : Bool := !v.negative && !v.isZero

/-- `-1`, `0` or `1`, as the sign is. -/
def signum (v : Integer) : Int :=
  if v.isZero then 0 else if v.negative then -1 else 1

/-- The lowest digit, whatever the sign; `0` for zero. -/
def lowDigit (v : Integer) : Digit := v.digits.headD 0

/-- Only the lowest digit decides the parity, whatever the sign. -/
def isOdd (v : Integer) : Bool := v.lowDigit.toNat % 2 == 1

def isEven (v : Integer) : Bool := !v.isOdd

/-- The same digits without a sign. -/
def abs (v : Integer) : Integer := { negative := false, digits := v.digits }

/-- The opposite value. Zero keeps having no sign. -/
def neg (v : Integer) : Integer := { v with negative := !v.negative && !v.isZero }

/-! ### Binary form -/

/-- The number of bits of the absolute value; `0` for zero. -/
def bitLength (v : Integer) : Nat := v.digits.bitLength

/-- The exponent of the largest power of two that divides the value; zero has none. -/
def lowestBit? (v : Integer) : Option Nat := v.digits.lowestBit?

/-- Whether the absolute value is a power of two. -/
def isPowerOfTwo (v : Integer) : Bool := v.digits.powerOfTwo?.isSome

end Integer

end Bignum
