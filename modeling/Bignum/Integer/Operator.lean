import Bignum.Integer.Arithmetic

/-!
The five arithmetic operators. An operator gives the value of the checked operation, and stops the
program with the error's message where that has none.
-/

namespace Bignum

/-- The operators of arithmetic. -/
inductive Operator where
  | add | sub | mul | div | rem
  deriving DecidableEq, Repr

namespace Operator

/-- The operation behind an operator. -/
def checked : Operator → (limit : Nat) → Integer → Operand → Except ArithmeticError Integer
  | .add => Integer.add
  | .sub => Integer.sub
  | .mul => Integer.mul
  | .div => Integer.div
  | .rem => Integer.rem

/-- `a op b`, whether the sides are lent or handed over. -/
def apply (op : Operator) (limit : Nat) (a : Integer) (b : Operand) : Except Panic Integer :=
  orPanic (op.checked limit a b)

/-- `target op= b`: the target afterwards, which keeps its value when the program stops. -/
def assign (op : Operator) (limit : Nat) (target : Integer) (b : Operand) :
    Integer × Except Panic Unit :=
  match op.apply limit target b with
  | .ok value => (value, .ok ())
  | .error panic => (target, .error panic)

/-- `x op b` with a fixed-size integer on the left. Sum and product are made the other way round,
the others after widening. -/
def applyFixed (op : Operator) (limit : Nat) (x : FixedInt) (b : Integer) :
    Except Panic Integer :=
  match op with
  | .add | .mul => op.apply limit b (.ofFixed x)
  | .sub | .div | .rem => op.apply limit (.ofFixed x) (.big b)

end Operator

end Bignum
