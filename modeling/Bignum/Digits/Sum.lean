import Bignum.Digits.Basic

/-!
Sums and differences of digit sequences, in one pass from the lowest place up with a carry or a
borrow of one.
-/

namespace Bignum.Digits

/-! ### Ripple passes -/

/-- Add `b` to `a` place by place over the length of `a`, reading missing digits of `b` as zero.
The flag says whether one is carried out of the top. -/
def addPass : (a b : Digits) → (carry : Bool) → Digits × Bool
  | [], _, carry => ([], carry)
  | x :: xs, b, carry =>
      let here := Digit.addCarry x (b.headD 0) carry
      let above := addPass xs b.tail here.2
      (here.1 :: above.1, above.2)

/-- Subtract `b` from `a` place by place over the length of `a`, reading missing digits of `b`
as zero. The flag says whether one was borrowed from beyond the top. -/
def subPass : (a b : Digits) → (borrow : Bool) → Digits × Bool
  | [], _, borrow => ([], borrow)
  | x :: xs, b, borrow =>
      let here := Digit.subBorrow x (b.headD 0) borrow
      let above := subPass xs b.tail here.2
      (here.1 :: above.1, above.2)

/-! ### Sum and difference -/

/-- `a + b`. Room is asked for one digit more than the longer of the two. -/
def add (limit : Nat) (a b : Digits) : Except AllocationError Digits := do
  let long := if b.length ≤ a.length then a else b
  let short := if b.length ≤ a.length then b else a
  Storage.request limit (long.length + 1)
  let sum := addPass long short false
  return trim (sum.1 ++ [if sum.2 then 1 else 0])

/-- The pass that a difference is made by: over the larger sequence, less the smaller one. -/
def differencePass (a b : Digits) : Digits × Bool :=
  let flipped := compare a b == .lt
  subPass (if flipped then b else a) (if flipped then a else b) false

/-- `|a - b|`, and whether `b` is the larger one. Room is asked for as many digits as the larger
one has. -/
def sub (limit : Nat) (a b : Digits) : Except AllocationError (Digits × Bool) := do
  let flipped := compare a b == .lt
  Storage.request limit (if flipped then b else a).length
  return (trim (differencePass a b).1, flipped)

/-! ### Steps of one -/

/-- Add one in place. The flag says whether one is carried out of the top. -/
def increment : Digits → Digits × Bool
  | [] => ([], true)
  | d :: ds =>
      if d = Digit.max then
        let above := increment ds
        (0 :: above.1, above.2)
      else ((d + 1) :: ds, false)

/-- The digits that a step away from zero is made on: with room for a carry where there will be
one. -/
def widened (ds : Digits) : Digits := if ds.all (· == Digit.max) then ds ++ [0] else ds

/-- Subtract one in place, which may leave a zero digit at the top. Zero wraps around. -/
def decrement : Digits → Digits
  | [] => []
  | d :: ds => if d = 0 then Digit.max :: decrement ds else (d - 1) :: ds

end Bignum.Digits
