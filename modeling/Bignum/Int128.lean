import Bignum.Integer.Narrow
import Bignum.Integer.Operator
import Bignum.Text.Numeral

/-!
Signed integers of 128 bits, as a reference for integers of any size. Everything is computed from
the values, not from digits; an operation whose result does not fit stops the program.
-/

namespace Bignum

/-- A value of 128 bits. -/
structure Int128 where
  value : Int
  least_le : FixedType.int128.least ≤ value
  le_greatest : value ≤ FixedType.int128.greatest
  deriving DecidableEq, Repr

namespace Int128

/-- The value, if it fits. -/
def ofInt? (value : Int) : Option Int128 :=
  if h : FixedType.int128.least ≤ value ∧ value ≤ FixedType.int128.greatest then
    some { value := value, least_le := h.1, le_greatest := h.2 }
  else none

/-- The low 128 bits of any value. -/
def wrap (value : Int) : Int128 where
  value := value.bmod (1 <<< 128)
  least_le := by
    have := @Int.le_bmod value (1 <<< 128) (by decide)
    rw [show FixedType.int128.least = -170141183460469231731687303715884105728 from rfl]
    omega
  le_greatest := by
    have := @Int.bmod_lt value (1 <<< 128) (by decide)
    rw [show FixedType.int128.greatest = 170141183460469231731687303715884105727 from rfl]
    omega

/-- The result of an operation, or the end of the program where it does not fit. -/
def orOverflow (action : String) (value : Int) : Except Panic Int128 :=
  match ofInt? value with
  | some x => .ok x
  | none => .error { message := "attempt to " ++ action ++ " with overflow" }

/-! ### Conversion -/

/-- The value of an integer, which has to fit. -/
def ofInteger (v : Integer) : Except Panic Int128 :=
  match (v.narrow .int128).toOption.bind fun x => ofInt? x.value with
  | some x => .ok x
  | none => .error
      { message :=
          "reference model value out of range: TryFromBigIntError \x7b target: \"i128\" \x7d" }

def toInteger (x : Int128) : Integer :=
  Integer.ofWord (decide (x.value < 0)) (BitVec.ofNat 128 x.value.natAbs)

/-! ### Arithmetic -/

def add (x y : Int128) : Except Panic Int128 := orOverflow "add" (x.value + y.value)

def sub (x y : Int128) : Except Panic Int128 := orOverflow "subtract" (x.value - y.value)

def mul (x y : Int128) : Except Panic Int128 := orOverflow "multiply" (x.value * y.value)

/-- The quotient, rounded toward zero, and the remainder; nothing when `y` is zero. -/
def divRem (x y : Int128) : Except Panic (Option (Int128 × Int128)) :=
  if y.value = 0 then .ok none
  else do
    let quotient ← orOverflow "divide" (x.value.tdiv y.value)
    let rest ← orOverflow "calculate the remainder" (x.value.tmod y.value)
    return some (quotient, rest)

/-- Euclid's method: replace `(a, b)` by `(b, a % b)` until `b` is zero. -/
def euclid (a b : Nat) : Nat :=
  if b = 0 then a else euclid b (a % b)
termination_by b
decreasing_by exact Nat.mod_lt _ (Nat.pos_of_ne_zero ‹_›)

/-- The greatest common divisor, which wraps around when it is `2 ^ 127`. -/
def gcd (x y : Int128) : Int128 := wrap (euclid x.value.natAbs y.value.natAbs)

/-- The least common multiple; `0` when either is zero. -/
def lcm (x y : Int128) : Except Panic Int128 :=
  if x.value = 0 ∨ y.value = 0 then .ok (wrap 0)
  else do
    let reduced ← orOverflow "divide" (x.value.tdiv (x.gcd y).value)
    let product ← reduced.mul y
    orOverflow "negate" product.value.natAbs

/-! ### Text -/

/-- The symbols of a number, lowest first. -/
def symbols (radix n : Nat) : List Char :=
  if n = 0 ∨ radix < 2 then []
  else Text.symbol (n % radix) :: symbols radix (n / radix)
termination_by n
decreasing_by exact Nat.div_lt_self (by omega) (by omega)

/-- The text of a value in radix 2 to 36. -/
def toText (radix : Nat) (x : Int128) : String :=
  if x.value = 0 then "0"
  else String.ofList
    ((if x.value < 0 then ['-'] else []) ++ (symbols radix x.value.natAbs).reverse)

end Int128

end Bignum
