import Bignum.Digits.Shift

/-!
Products of digit sequences. A product with a power of two is a shift; any other is made row by
row. Each row multiplies one digit into a window of the result that is as long as the other
factor, and the lowest digit of the window is then final.
-/

namespace Bignum.Digits

/-! ### Rows -/

/-- Add `factor * b + carry` to `window`, place by place over the length of `b`, reading missing
digits of the window as zero. The last digit of the answer is carried out of the top. A place
totals at most `(2 ^ 64 - 1) ^ 2 + 2 * (2 ^ 64 - 1)`, which two digits hold. -/
def mulRow (factor : Digit) : (b window : Digits) → (carry : Digit) → Digits × Digit
  | [], _, carry => ([], carry)
  | y :: ys, window, carry =>
      let total := Digit.split
        ((window.headD 0).toNat + factor.toNat * y.toNat + carry.toNat)
      let above := mulRow factor ys window.tail total.2
      (total.1 :: above.1, above.2)

/-- `a * b + window`, one row for each digit of `a`. -/
def mulRows : (a b window : Digits) → Digits
  | [], _, window => window
  | x :: xs, b, window =>
      let row := mulRow x b window 0
      let sum := row.1 ++ [row.2]
      sum.headD 0 :: mulRows xs b sum.tail

/-! ### Product -/

/-- `a * b`. Room is asked for as many digits as both have together; a product with zero asks
for none. -/
def mul (limit : Nat) (a b : Digits) : Except AllocationError Digits :=
  if a.isEmpty || b.isEmpty then .ok []
  else match b.powerOfTwo?, a.powerOfTwo? with
    | some bits, _ => shl limit a bits
    | none, some bits => shl limit b bits
    | none, none => do
        Storage.request limit (a.length + b.length)
        return trim (mulRows a b (List.replicate b.length 0))

/-- `ds * factor + addend` in place, where there is room for `room` digits. The storage grows only
when a digit is carried out of the top. -/
def mulAddDigit (limit room : Nat) (ds : Digits) (factor addend : Digit) :
    Except AllocationError Digits :=
  let row := mulRow factor ds [] addend
  if row.2 = 0 then .ok row.1
  else do
    Storage.grow limit room (ds.length + 1)
    return row.1 ++ [row.2]

end Bignum.Digits
