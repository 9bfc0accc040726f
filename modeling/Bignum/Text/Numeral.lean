import Bignum.Integer.Basic

/-!
Numerals in radix 2 to 36.

A magnitude is divided by the largest power of the radix that one digit holds, again and again.
Each remainder gives as many symbols as that power has zeros, except for the last one, which gives
none for the zeros in front. The symbols come least significant first.
-/

namespace Bignum.Text

/-! ### Symbols -/

/-- The symbol for a value below 36: `0` to `9`, then `A` to `Z`. -/
def symbol (value : Nat) : Char :=
  Char.ofNat (if value < 10 then 48 + value else 55 + value)

/-- The value of a symbol below `radix`, at most 36. Letters count in either case. -/
def symbolValue? (radix : Nat) (c : Char) : Option Nat :=
  let code := c.toNat
  let value? :=
    if 48 ≤ code ∧ code ≤ 57 then some (code - 48)
    else if 65 ≤ code ∧ code ≤ 90 then some (code - 55)
    else if 97 ≤ code ∧ code ≤ 122 then some (code - 87)
    else none
  value?.filter (· < radix)

/-! ### Chunks -/

/-- The largest exponent, at most the given one, with a power of `radix` that a digit holds. -/
def largestExponent (radix : Nat) : (most : Nat) → Nat
  | 0 => 0
  | most + 1 => if radix.pow (most + 1) < Digit.base then most + 1 else largestExponent radix most

/-- How many symbols a digit's worth of text has. -/
def chunkLength (radix : Nat) : Nat := largestExponent radix 63

/-- The largest power of `radix` that a digit holds. -/
def chunkPower (radix : Nat) : Digit := UInt64.ofNat (radix.pow (chunkLength radix))

/-- The symbols of one remainder, lowest first: `count` of them, or fewer for the last remainder
when only zeros are left in front. -/
def chunkSymbols (radix : Nat) : (count : Nat) → (last : Bool) → (rest : Nat) → List Char
  | 0, _, _ => []
  | count + 1, last, rest =>
      if last && rest == 0 then []
      else symbol (rest % radix) :: chunkSymbols radix count last (rest / radix)

/-! ### Numerals -/

/-- The symbols of a canonical magnitude, lowest first, in at most `fuel` remainders. -/
def symbols (radix : Nat) : (fuel : Nat) → Digits → List Char
  | 0, _ => []
  | fuel + 1, ds =>
      if ds.isEmpty then []
      else
        let result := Digits.divRemDigit (chunkPower radix) ds
        let above := Digits.trim result.1
        chunkSymbols radix (chunkLength radix) above.isEmpty result.2.toNat ++
          symbols radix fuel above

/-- The numeral of a canonical magnitude, without zeros in front; zero has no symbols. Each
division at least halves the magnitude, so there are no more of them than bits. -/
def numeral (limit radix : Nat) (ds : Digits) : Except AllocationError (List Char) :=
  (ds.copy limit).map fun work => (symbols radix (64 * work.length) work).reverse

end Bignum.Text

namespace Bignum.Integer

/-- The text of an integer: a minus sign if it is negative, zeros up to `minDigits` symbols, and
the numeral. Zero, and every value in a radix below 2, is written in zeros alone, at least one. -/
def toText (limit radix minDigits : Nat) (v : Integer) : Except ArithmeticError String :=
  if 36 < radix then .error (.invalidRadix radix)
  else if radix < 2 || v.isZero then
    .ok (String.ofList (List.replicate (Nat.max minDigits 1) '0'))
  else liftAllocation <| (Text.numeral limit radix v.digits).map fun numeral =>
    String.ofList ((if v.negative then ['-'] else []) ++
      List.replicate (minDigits - numeral.length) '0' ++ numeral)

end Bignum.Integer
