import Bignum.Digits.Product
import Bignum.Integer.Operand

/-!
The four operations on integers of any size, with any operand on the right, shifts and powers.

Equal signs add magnitudes, different signs subtract the smaller magnitude from the larger and
take the sign of the larger. Products and quotients are negative when exactly one side is.
Division rounds toward zero, so a remainder has the sign of the dividend. A power is made by
repeated squaring: the base is squared once per bit of the exponent, and the square is multiplied
into the result where the bit is set.
-/

namespace Bignum

/-- `result * base ^ exponent` for an exponent that is not zero. The square after its highest bit is
not made, so no square is larger than the result. -/
def Digits.powLoop (limit : Nat) (result base : Digits) (exponent : Nat) :
    Except AllocationError Digits :=
  (if exponent % 2 = 1 then result.mul limit base else .ok result).bind fun multiplied =>
    if exponent / 2 = 0 then .ok multiplied
    else (base.mul limit base).bind fun squared =>
      powLoop limit multiplied squared (exponent / 2)
termination_by exponent
decreasing_by omega

namespace Integer

/-! ### Sum and difference -/

/-- `a` plus the integer with the given sign and canonical digits. -/
def addSigned (limit : Nat) (a : Integer) (negative : Bool) (digits : Digits) :
    Except AllocationError Integer :=
  if digits.isEmpty then (a.digits.copy limit).map (ofCanonical a.negative)
  else if a.isZero then (digits.copy limit).map (ofCanonical negative)
  else if a.negative = negative then
    (a.digits.add limit digits).map (ofMagnitude a.negative)
  else
    (a.digits.sub limit digits).map fun difference =>
      ofMagnitude (if difference.2 then negative else a.negative) difference.1

/-- `a + b`. -/
def add (limit : Nat) (a : Integer) (b : Operand) : Except ArithmeticError Integer :=
  let rhs := b.normalize
  liftAllocation (a.addSigned limit rhs.negative rhs.digits)

/-- `a - b`. -/
def sub (limit : Nat) (a : Integer) (b : Operand) : Except ArithmeticError Integer :=
  let rhs := b.normalize
  liftAllocation (a.addSigned limit (!rhs.negative) rhs.digits)

/-! ### Product -/

/-- Whether a product takes over the digits of its left factor as they are: the left factor is
not zero and the right one is `1` or `-1`. -/
def mulKeepsDigits (a : Integer) (b : Operand) : Bool :=
  !a.isZero && b.normalize.digits == [1]

/-- `a * b`. -/
def mul (limit : Nat) (a : Integer) (b : Operand) : Except ArithmeticError Integer :=
  let rhs := b.normalize
  let negative := a.negative != rhs.negative
  if a.isZero || rhs.digits.isEmpty then .ok zero
  else if a.mulKeepsDigits b then .ok { negative := negative, digits := a.digits }
  else liftAllocation ((a.digits.mul limit rhs.digits).map (ofMagnitude negative))

/-! ### Quotient and remainder -/

/-- The quotient `a / b`, rounded toward zero, and the remainder. -/
def divRem (limit : Nat) (a : Integer) (b : Operand) :
    Except ArithmeticError (Integer × Integer) :=
  let rhs := b.normalize
  (a.digits.divRem limit rhs.digits).map fun result =>
    (ofMagnitude (a.negative != rhs.negative) result.1, ofMagnitude a.negative result.2)

/-- `a / b`, rounded toward zero. -/
def div (limit : Nat) (a : Integer) (b : Operand) : Except ArithmeticError Integer :=
  (a.divRem limit b).map (·.1)

/-- What `a / b` leaves over. -/
def rem (limit : Nat) (a : Integer) (b : Operand) : Except ArithmeticError Integer :=
  (a.divRem limit b).map (·.2)

/-! ### Shifts -/

/-- `a * 2 ^ bits`. -/
def shl (limit : Nat) (a : Integer) (bits : Nat) : Except ArithmeticError Integer :=
  liftAllocation ((a.digits.shl limit bits).map (ofMagnitude a.negative))

/-- `a / 2 ^ bits`, rounded toward zero. -/
def shr (limit : Nat) (a : Integer) (bits : Nat) : Except ArithmeticError Integer :=
  liftAllocation ((a.digits.shr limit bits).map (ofMagnitude a.negative))

/-! ### Powers -/

/-- `a ^ exponent`; `0 ^ 0` is one. -/
def pow (limit : Nat) (a : Integer) (exponent : Nat) : Except ArithmeticError Integer :=
  if exponent = 0 then .ok one
  else if a.isZero then .ok zero
  else liftAllocation do
    let base ← a.digits.copy limit
    let result ← Digits.powLoop limit [1] base exponent
    return ofMagnitude (a.negative && exponent % 2 == 1) result

end Integer

end Bignum
