import Bignum.Integer.Operand

/-!
Narrowing to fixed-size integers, in two forms: keep the low bits of the two's complement of any
value, or give the value exactly and refuse those out of range.
-/

namespace Bignum

/-- A value is out of the range of the type it should be narrowed to. -/
structure OutOfRange where
  target : FixedType
  deriving DecidableEq, Repr

/-- The wording of the error. -/
def OutOfRange.message (e : OutOfRange) : String :=
  "big integer out of range for " ++ e.target.name

namespace Integer

/-! ### Low bits -/

/-- The low 128 bits of the two's complement. -/
def wrap128 (v : Integer) : BitVec 128 :=
  let magnitude := BitVec.ofNat 128
    ((v.digits.getD 0 0).toNat + Digit.base * (v.digits.getD 1 0).toNat)
  if v.negative then -magnitude else magnitude

/-- The low 64 bits of the two's complement. -/
def wrap64 (v : Integer) : BitVec 64 := v.wrap128.setWidth 64

/-! ### Exact -/

/-- The absolute value, if two digits hold it. -/
def magnitude128? (v : Integer) : Option (BitVec 128) :=
  match v.digits with
  | [] => some 0
  | [low] => some (BitVec.ofNat 128 low.toNat)
  | [low, high] => some (BitVec.ofNat 128 (low.toNat + Digit.base * high.toNat))
  | _ => none

/-- The value without a sign, if it has none and 128 bits hold it. -/
def unsigned128? (v : Integer) : Option (BitVec 128) :=
  if v.negative then none else v.magnitude128?

/-- The two's complement of the value, if 128 bits hold it. There is one more value below zero than
above it. -/
def signed128? (v : Integer) : Option (BitVec 128) :=
  v.magnitude128?.bind fun magnitude =>
    if v.negative then
      if 1 <<< 127 < magnitude.toNat then none else some (-magnitude)
    else if magnitude.toNat < 1 <<< 127 then some magnitude else none

/-- The value in the widest type that has a sign, or in the widest that has none. -/
def widest? (signed : Bool) (v : Integer) : Option Int :=
  if signed then v.signed128?.map (·.toInt) else v.unsigned128?.map fun word => word.toNat

/-- The value in a fixed-size type, by way of the widest type of the same kind. -/
def narrow (type : FixedType) (v : Integer) : Except OutOfRange FixedInt :=
  match (v.widest? type.signed).bind (FixedInt.ofInt? type) with
  | none => .error { target := type }
  | some x => .ok x

end Integer

end Bignum
