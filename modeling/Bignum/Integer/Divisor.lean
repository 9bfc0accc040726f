import Bignum.Integer.Arithmetic

/-!
Greatest common divisors by Euclid's method, and least common multiples by way of them. Signs do
not matter, and neither answer is ever negative.
-/

namespace Bignum

/-- Replace `(a, b)` by `(b, a % b)` until `b` is zero, for at most `fuel` rounds. -/
def Digits.euclid (limit : Nat) : (fuel : Nat) → (a b : Digits) → Except ArithmeticError Digits
  | 0, a, _ => .ok a
  | fuel + 1, a, b =>
      if b.isEmpty then .ok a
      else (a.divRem limit b).bind fun result => euclid limit fuel b result.2

/-- The greatest common divisor of two digit sequences. The second one falls in each round, so
its number is a bound on the rounds. -/
def Digits.gcd (limit : Nat) (a b : Digits) : Except ArithmeticError Digits := do
  let first ← liftAllocation (a.copy limit)
  let second ← liftAllocation (b.copy limit)
  euclid limit (b.toNat + 1) first second

namespace Integer

/-- The greatest common divisor; `0` when both are zero. -/
def gcd (limit : Nat) (a : Integer) (b : Operand) : Except ArithmeticError Integer :=
  (a.digits.gcd limit b.normalize.digits).map (ofMagnitude false)

/-- The least common multiple; `0` when either is zero. -/
def lcm (limit : Nat) (a : Integer) (b : Operand) : Except ArithmeticError Integer :=
  let rhs := b.normalize
  if a.isZero || rhs.digits.isEmpty then .ok zero
  else do
    let divisor ← a.gcd limit b
    let product ← liftAllocation (a.digits.mul limit rhs.digits)
    let result ← product.divRem limit divisor.digits
    return ofMagnitude false result.1

end Integer

end Bignum
