import Bignum.Integer.Basic

/-!
Steps of one. A step away from zero takes a new digit first when every digit is at its largest; a
step toward zero drops the digit that became zero. On digits with another owner a step is made on
a copy, for which room is asked first; on digits without one, only growth asks for room.
-/

namespace Bignum

/-- One more, with room for a carry out of the top taken beforehand. -/
def Digits.stepUp (limit : Nat) (shared : Bool) (ds : Digits) : Except AllocationError Digits :=
  let room :=
    if ds.all (· == Digit.max) then ds.length + 1 else if shared then ds.length else 0
  (Storage.request limit room).map fun _ => (increment ds.widened).1

/-- One less than a sequence that is not zero. -/
def Digits.stepDown (limit : Nat) (shared : Bool) (ds : Digits) :
    Except AllocationError Digits :=
  (Storage.request limit (if shared then ds.length else 0)).map fun _ => trim (decrement ds)

namespace Integer

/-- Add one. -/
def increment (limit : Nat) (shared : Bool) (v : Integer) : Except ArithmeticError Integer :=
  liftAllocation <|
    if v.negative then (v.digits.stepDown limit shared).map (ofCanonical true)
    else (v.digits.stepUp limit shared).map (ofCanonical false)

/-- Subtract one. -/
def decrement (limit : Nat) (shared : Bool) (v : Integer) : Except ArithmeticError Integer :=
  liftAllocation <|
    if v.negative || v.isZero then (v.digits.stepUp limit shared).map (ofCanonical true)
    else (v.digits.stepDown limit shared).map (ofCanonical false)

end Integer

end Bignum
