import Bignum.Digits.Basic

/-!
Multiplication and division by powers of two. A shift moves whole digits first and the bits that
are left over, fewer than 64, by one pass over the digits.
-/

namespace Bignum.Digits

/-! ### Passes by fewer than 64 bits -/

/-- Multiply by `2 ^ bits` over the length of the sequence and add `carry`. The last digit of the
answer is what is carried out of the top. -/
def shiftUp (bits : Nat) : Digits → (carry : Digit) → Digits × Digit
  | [], carry => ([], carry)
  | d :: ds, carry =>
      let total := Digit.split ((d.toNat <<< bits) + carry.toNat)
      let above := shiftUp bits ds total.2
      (total.1 :: above.1, above.2)

/-- Divide by `2 ^ bits`: each digit keeps its high bits and takes the low ones of the digit
above it. -/
def shiftDown (bits : Nat) : Digits → Digits
  | [] => []
  | d :: ds =>
      UInt64.ofNat ((d.toNat >>> bits) + ((ds.headD 0).toNat <<< (64 - bits))) ::
        shiftDown bits ds

/-! ### Shifts by any number of bits -/

/-- `a * 2 ^ bits`. Room is asked for the digits moved by, those there are, and one more; zero
asks for none. -/
def shl (limit : Nat) (a : Digits) (bits : Nat) : Except AllocationError Digits :=
  if a.isEmpty then .ok []
  else do
    Storage.request limit (bits / 64 + a.length + 1)
    let shifted := shiftUp (bits % 64) a 0
    return trim (List.replicate (bits / 64) 0 ++ shifted.1 ++ [shifted.2])

/-- `a / 2 ^ bits`, rounded down. -/
def shr (limit : Nat) (a : Digits) (bits : Nat) : Except AllocationError Digits :=
  if a.length ≤ bits / 64 then .ok []
  else do
    let kept := a.drop (bits / 64)
    Storage.request limit kept.length
    return trim (shiftDown (bits % 64) kept)

/-- Clear all bits of the digit at `place` but the lowest `bits`. -/
def maskAt (place bits : Nat) (ds : Digits) : Digits :=
  ds.modify place fun d => UInt64.ofNat (d.toNat % (1 <<< bits))

/-- `a % 2 ^ bits`. -/
def lowBits (limit : Nat) (a : Digits) (bits : Nat) : Except AllocationError Digits :=
  if a.length ≤ bits / 64 then copy limit a
  else if bits % 64 = 0 then (copy limit (a.take (bits / 64))).map trim
  else (copy limit (a.take (bits / 64 + 1))).map fun kept =>
    trim (maskAt (bits / 64) (bits % 64) kept)

end Bignum.Digits
