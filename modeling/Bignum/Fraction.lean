import Bignum.Integer.Divisor
import Bignum.Text.Inspect
import Bignum.Text.Layout

/-!
Divisions that have not been carried out: a numerator over a denominator that is not zero. Two
fractions are equal when their values are, whatever their parts.
-/

namespace Bignum

/-- A numerator over a denominator. -/
structure Fraction where
  numerator : Integer
  denominator : Integer
  deriving DecidableEq, Repr

namespace Fraction

/-- `n / d`, for a `d` that is not zero. -/
def make (n d : Integer) : Except ArithmeticError Fraction :=
  if d.isZero then .error .divisionByZero
  else .ok { numerator := n, denominator := d }

/-- The truncated quotient and the remainder. -/
def evaluate (limit : Nat) (f : Fraction) : Except ArithmeticError (Integer × Integer) :=
  f.numerator.divRem limit (.big f.denominator)

/-- Lowest terms with a positive denominator. -/
def reduce (limit : Nat) (f : Fraction) : Except ArithmeticError Fraction := do
  let divisor ← f.numerator.gcd limit (.big f.denominator)
  let numerator ← f.numerator.div limit (.big divisor)
  let denominator ← f.denominator.div limit (.big divisor)
  if denominator.negative then
    return { numerator := numerator.neg, denominator := denominator.neg }
  else return { numerator := numerator, denominator := denominator }

/-- Whether two fractions have one value, by cross multiplication. Products that have no room
are equal to nothing. -/
def equal (limit : Nat) (f g : Fraction) : Bool :=
  match f.numerator.mul limit (.big g.denominator), g.numerator.mul limit (.big f.denominator) with
  | .ok left, .ok right => left == right
  | _, _ => false

/-! ### Text -/

/-- Both parts with a slash between them. -/
def toText (limit : Nat) (f : Fraction) : Except AllocationError String := do
  let numerator ← f.numerator.format limit .decimal .plain
  let denominator ← f.denominator.format limit .decimal .plain
  return numerator ++ "/" ++ denominator

/-- The parts by name, each in the given layout. -/
def inspect (limit : Nat) (layout : Text.Layout) (f : Fraction) :
    Except AllocationError String := do
  let numerator ← f.numerator.format limit .inspect layout
  let denominator ← f.denominator.format limit .inspect layout
  return Text.record layout.alternate "Fraction"
    [("numerator", numerator), ("denominator", denominator)]

end Fraction

namespace Integer

/-- `a / b` as a fraction. -/
def ratio (a : Integer) (b : Operand) : Except ArithmeticError Fraction :=
  Fraction.make a b.toInteger

/-- `1 / a`. -/
def reciprocal (a : Integer) : Except ArithmeticError Fraction := Fraction.make one a

end Integer

end Bignum
