import Bignum.FixedInt
import Bignum.Integer.Basic

/-!
What stands on the right of an operation: an integer of any size or a fixed-size one. Both are
brought to a sign and canonical digits first, so that each operation is written once.
-/

namespace Bignum

/-- A right-hand side. Fixed-size integers of every type widen to a sign and 128 bits. -/
inductive Operand where
  | word (negative : Bool) (magnitude : BitVec 128)
  | big (value : Integer)
  deriving DecidableEq, Repr

namespace Operand

/-- Where the digits of a normal form are held: with it, or in the integer it was made from. -/
inductive Residence where
  | inline
  | borrowed
  deriving DecidableEq, Repr

/-- A sign and canonical digits. -/
structure Normal where
  negative : Bool
  digits : Digits
  residence : Residence
  deriving DecidableEq, Repr

/-- The absolute value of every fixed-size integer fits into 128 bits. -/
def ofFixed (x : FixedInt) : Operand :=
  .word (decide (x.value < 0)) (BitVec.ofNat 128 x.value.natAbs)

/-- The one or two digits of a word; none for zero. -/
def wordDigits (magnitude : BitVec 128) : Digits :=
  let parts := Digit.split magnitude.toNat
  if magnitude = 0 then [] else if parts.2 = 0 then [parts.1] else [parts.1, parts.2]

/-- The sign and the digits of an operand. -/
def normalize : Operand → Normal
  | .word negative magnitude =>
      { negative := negative && magnitude != 0
        digits := wordDigits magnitude
        residence := .inline }
  | .big value =>
      { negative := value.negative, digits := value.digits, residence := .borrowed }

def isZero : Operand → Bool
  | .word _ magnitude => magnitude == 0
  | .big value => value.isZero

end Operand

namespace Integer

/-- The integer with a sign and a magnitude of 128 bits. -/
def ofWord (negative : Bool) (magnitude : BitVec 128) : Integer :=
  let parts := Digit.split magnitude.toNat
  ofMagnitude negative [parts.1, parts.2]

/-- Widening is exact. -/
def ofFixed (x : FixedInt) : Integer :=
  ofWord (decide (x.value < 0)) (BitVec.ofNat 128 x.value.natAbs)

end Integer

namespace Operand

/-- The operand as an integer. -/
def toInteger : Operand → Integer
  | .word negative magnitude => Integer.ofWord negative magnitude
  | .big value => value

end Operand

end Bignum
