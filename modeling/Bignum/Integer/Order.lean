import Bignum.Integer.Operand

/-!
The order of integers: any negative one is below any other, and of two with the same sign the
digits decide. Comparisons go by the order, except that two integers are equal when their forms are.
-/

namespace Bignum

namespace Integer

/-- Compare with any operand. -/
def compareOperand (a : Integer) (b : Operand) : Ordering :=
  let rhs := b.normalize
  match a.negative, rhs.negative with
  | false, true => .gt
  | true, false => .lt
  | false, false => Digits.compare a.digits rhs.digits
  | true, true => Digits.compare rhs.digits a.digits

/-- The order of two integers. -/
def compare (a b : Integer) : Ordering := a.compareOperand (.big b)

/-- The order of a fixed-size integer and `a`: the other way round, and turned over. -/
def compareFixed (x : FixedInt) (a : Integer) : Ordering := (a.compareOperand (.ofFixed x)).swap

/-- What is fed to a hash function. -/
def hashed (v : Integer) : Bool × Digits := (v.negative, v.digits)

/-- The larger of two; the second when they are equal. -/
def max (a b : Integer) : Integer := if compare a b == .gt then a else b

/-- The smaller of two; the first when they are equal. -/
def min (a b : Integer) : Integer := if compare a b == .gt then b else a

end Integer

/-- The operators of comparison. -/
inductive Comparison where
  | eq | ne | lt | le | gt | ge
  deriving DecidableEq, Repr

namespace Comparison

/-- Whether a comparison holds of two sides that are in the given order. -/
def holds : Comparison → Ordering → Bool
  | .eq, order => order.isEq
  | .ne, order => order.isNe
  | .lt, order => order.isLT
  | .le, order => order.isLE
  | .gt, order => order.isGT
  | .ge, order => order.isGE

/-- `a op b`. Signs and digits decide whether two integers are equal. -/
def apply (op : Comparison) (a b : Integer) : Bool :=
  match op with
  | .eq => a == b
  | .ne => a != b
  | _ => op.holds (a.compare b)

/-- `a op x` with a fixed-size integer on the right. -/
def applyRight (op : Comparison) (a : Integer) (x : FixedInt) : Bool :=
  op.holds (a.compareOperand (.ofFixed x))

/-- `x op a` with a fixed-size integer on the left. Whether the sides are equal is asked the other
way round. -/
def applyLeft (op : Comparison) (x : FixedInt) (a : Integer) : Bool :=
  match op with
  | .eq | .ne => op.applyRight a x
  | _ => op.holds (Integer.compareFixed x a)

end Comparison

end Bignum
