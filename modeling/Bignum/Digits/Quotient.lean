import Bignum.ArithmeticError
import Bignum.Digits.Shift
import Bignum.Digits.Sum

/-!
Truncating division of digit sequences. Which way it is done depends on the divisor alone, once
it is no larger than the dividend: a power of two takes a shift and a mask, a single digit one
pass, and any other divisor the schoolbook method.

The pass by one digit goes from the top place down. The remainder so far and the next digit make a
number of two digits; since the remainder is below the divisor, the quotient of the two is one
digit again.

For the schoolbook method both numbers are first shifted so that the top bit of the divisor is set.
Then the quotient is found digit by digit from the top: the next digit of the dividend is put below
the remainder so far, and this window is divided by the divisor. The quotient digit of a window is
tried from its top two digits and the top digit of the divisor. The trial is never too small. It is
lowered while the next digit of each shows that it is too large, and then exceeds the true digit by
at most one. So after its multiple of the divisor has been subtracted, at most one divisor has to
be added back.
-/

namespace Bignum.Digits

/-! ### One digit -/

/-- Divide by one digit over the length of the sequence: the quotient, which may have zero digits
at the top, and the remainder. -/
def divRemDigit (divisor : Digit) : Digits → Digits × Digit
  | [] => ([], 0)
  | d :: ds =>
      let above := divRemDigit divisor ds
      let current := above.2.toNat * Digit.base + d.toNat
      (UInt64.ofNat (current / divisor.toNat) :: above.1,
        UInt64.ofNat (current % divisor.toNat))

/-! ### Trial digits -/

/-- A tried quotient digit, and what the top two digits of the window leave over for it. -/
structure Trial where
  quotient : Nat
  rest : Nat
  deriving DecidableEq, Repr

namespace Trial

/-- The quotient of the window's top two digits by the divisor's top digit, or the largest digit
where the quotient is larger. -/
def first (top leading : Nat) : Trial :=
  if leading / top < Digit.base then { quotient := leading / top, rest := leading % top }
  else { quotient := Digit.base - 1, rest := leading - (Digit.base - 1) * top }

/-- Whether the second digit of the divisor and the third of the window show that a trial is too
large. They say nothing once the rest needs more than one digit. -/
def Exceeds (second third : Nat) (trial : Trial) : Prop :=
  trial.rest < Digit.base ∧ trial.rest * Digit.base + third < trial.quotient * second

instance (second third : Nat) (trial : Trial) : Decidable (trial.Exceeds second third) :=
  inferInstanceAs (Decidable (_ ∧ _))

/-- A trial that is too large is not zero. -/
theorem Exceeds.quotient_pos {second third : Nat} {trial : Trial}
    (h : trial.Exceeds second third) : 0 < trial.quotient := by
  rcases Nat.eq_zero_or_pos trial.quotient with hzero | hpos
  · rw [Exceeds, hzero, Nat.zero_mul] at h
    exact absurd h.2 (Nat.not_lt_zero _)
  · exact hpos

/-- One less, with one more `top` left over. -/
def lower (top : Nat) (trial : Trial) : Trial :=
  { quotient := trial.quotient - 1, rest := trial.rest + top }

/-- Lower a trial while it is seen to be too large. -/
def refine (top second third : Nat) (trial : Trial) : Trial :=
  if trial.Exceeds second third then refine top second third (trial.lower top) else trial
termination_by trial.quotient
decreasing_by
  rename_i h
  exact Nat.sub_lt h.quotient_pos Nat.one_pos

end Trial

/-! ### One window -/

/-- The digit at a place, zero beyond the top. -/
def digitAt (ds : Digits) (place : Nat) : Nat := (ds.getD place 0).toNat

/-- The quotient digit to try for a window that is one digit longer than the divisor. -/
def trialDigit (divisor window : Digits) : Trial :=
  let n := divisor.length
  let top := digitAt divisor (n - 1)
  (Trial.first top (digitAt window n * Digit.base + digitAt window (n - 1))).refine
    top (digitAt divisor (n - 2)) (digitAt window (n - 2))

/-- Subtract `factor * divisor + carry` and a borrow from a window that is longer than the
divisor, the carry at last from the digit above it. The flag says whether more was subtracted
than there was. -/
def subMultiple (factor : Digit) :
    (divisor window : Digits) → (carry : Digit) → (borrow : Bool) → Digits × Bool
  | [], window, carry, borrow => subPass window [carry] borrow
  | v :: vs, window, carry, borrow =>
      let product := Digit.split (factor.toNat * v.toNat + carry.toNat)
      let here := Digit.subBorrow (window.headD 0) product.1 borrow
      let above := subMultiple factor vs window.tail product.2 here.2
      (here.1 :: above.1, above.2)

/-- Divide a window by the divisor: the quotient digit, and the window less its multiple. -/
def divideWindow (divisor window : Digits) : Digit × Digits :=
  let factor := UInt64.ofNat (trialDigit divisor window).quotient
  let reduced := subMultiple factor divisor window 0 false
  if reduced.2 then (factor - 1, (addPass reduced.1 divisor false).1)
  else (factor, reduced.1)

/-! ### All windows -/

/-- Divide `low` with `high` above it, where `high` has as many digits as the divisor: one
quotient digit for each digit of `low`, and the remainder. -/
def divideWindows (divisor : Digits) : (low high : Digits) → Digits × Digits
  | [], high => ([], high)
  | d :: ds, high =>
      let above := divideWindows divisor ds high
      let here := divideWindow divisor (d :: above.2)
      (here.1 :: above.1, here.2.take divisor.length)

/-- The quotient and the remainder of `n` by `d`, where `d` has at least two digits and is at most
`n`. Room is asked for the shifted divisor, the shifted dividend and the quotient. -/
def divRemSchoolbook (limit : Nat) (n d : Digits) :
    Except AllocationError (Digits × Digits) := do
  let bits := 64 - (d.getLastD 0).bitLength
  Storage.request limit (d.length + 1)
  let divisor := (shiftUp bits d 0).1
  Storage.request limit (n.length + 1)
  let shifted := shiftUp bits n 0
  let dividend := shifted.1 ++ [shifted.2]
  let count := dividend.length - divisor.length
  Storage.request limit count
  let result := divideWindows divisor (dividend.take count) (dividend.drop count)
  return (trim result.1, trim (shiftDown bits result.2))

/-! ### Any divisor -/

/-- The quotient and the remainder of `n` by `d`. -/
def divRem (limit : Nat) (n d : Digits) : Except ArithmeticError (Digits × Digits) :=
  if d.isEmpty then .error .divisionByZero
  else liftAllocation <|
    if compare n d == .lt then (copy limit n).map fun rest => ([], rest)
    else match d.powerOfTwo?, d with
      | some bits, _ => do
          let quotient ← shr limit n bits
          let rest ← lowBits limit n bits
          return (quotient, rest)
      | none, [divisor] => (copy limit n).map fun dividend =>
          let result := divRemDigit divisor dividend
          (trim result.1, trim [result.2])
      | none, _ => divRemSchoolbook limit n d

end Bignum.Digits
