import Bignum.Proofs.Digits.Product

/-!
Row by row multiplication as a loop over one output, in words.

The rows of a product can share an output with as many digits as both factors. A row then starts at
its own place and writes its carry behind its last digit. `wordRows` is that loop with nothing wider
than a digit in it but the product of two: it stops at a place outside the output, and at a carry
that is more than one digit.

* `Digit.wordStep_eq`: the high digit of a product has room for both carries below it.
* `wordRow_eq`: a row changes its window of the output as `mulRow` does, and nothing else.
* `wordRows_eq`: the loop never stops, and leaves the rows of `mulRows`.
-/

namespace Bignum

namespace Digit

/-- `here + x * y + carry` in words: the digit that stays, and the high digit of the product with
the carries of both additions, if one digit holds that. -/
def wordStep (x y here carry : Digit) : Option (Digit × Digit) :=
  let product := split (x.toNat * y.toNat)
  let low := addCarry here product.1 false
  let sum := addCarry low.1 carry false
  let high := product.2.toNat + low.2.toNat + sum.2.toNat
  if high < base then some (sum.1, UInt64.ofNat high) else none

/-- What is above the low digit of a total that two digits hold is one digit. -/
theorem if_high_lt {low : Digit} {high total : Nat} (whole : low.toNat + base * high = total)
    (fits : total < base * base) :
    (if high < base then some (low, UInt64.ofNat high) else none) = some (split total) := by
  have small : high < base :=
    Nat.lt_of_mul_lt_mul_left (Nat.lt_of_le_of_lt (Nat.le_add_left _ _) (whole.trans_lt fits))
  rw [if_pos small, split_eq whole]

/-- **No carry of a row overflows**: one step totals no more than two digits hold. -/
theorem wordStep_eq (x y here carry : Digit) :
    wordStep x y here carry = some (split (here.toNat + x.toNat * y.toNat + carry.toNat)) := by
  have fits := row_total_lt here x y carry
  have wide := split_toNat (Nat.lt_of_le_of_lt
    (Nat.le_add_left (x.toNat * y.toNat) here.toNat)
    (Nat.lt_of_le_of_lt (Nat.le_add_right _ _) fits))
  simp only [wordStep]
  generalize split (x.toNat * y.toNat) = product at wide ⊢
  have first := Digits.addCarry_toNat here product.1 false
  generalize addCarry here product.1 false = low at first ⊢
  have second := Digits.addCarry_toNat low.1 carry false
  generalize addCarry low.1 carry false = sum at second ⊢
  simp only [Bool.toNat_false, Nat.add_zero] at first second
  have whole : sum.1.toNat + base * (product.2.toNat + low.2.toNat + sum.2.toNat) =
      here.toNat + x.toNat * y.toNat + carry.toNat := by
    linear_combination wide + first + second
  exact if_high_lt whole fits

end Digit

namespace Digits

/-- A row from a place of the output on: the output, and what is carried beyond the last digit. -/
def wordRow (x : Digit) : (b output : Digits) → (place : Nat) → (carry : Digit) →
    Option (Digits × Digit)
  | [], output, _, carry => some (output, carry)
  | y :: ys, output, place, carry =>
      (output[place]?).bind fun here =>
        (Digit.wordStep x y here carry).bind fun step =>
          wordRow x ys (output.set place step.1) (place + 1) step.2

/-- One row for each digit of `a`, from a place of the output on. The carry of a row is written, not
added, behind its last digit. -/
def wordRows (b : Digits) : (a output : Digits) → (place : Nat) → Option Digits
  | [], output, _ => some output
  | x :: xs, output, place =>
      (wordRow x b output place 0).bind fun row =>
        if place + b.length < row.1.length then
          wordRows b xs (row.1.set (place + b.length) row.2) (place + 1)
        else none

/-! ### Windows in place -/

theorem read_window (below : Digits) (here : Digit) (window above : Digits) :
    (below ++ here :: window ++ above)[below.length]? = some here := by
  simp

/-- What has been written in a window joins what is below it. -/
theorem set_window (below : Digits) (here d : Digit) (window above : Digits) :
    (below ++ here :: window ++ above).set below.length d =
      (below ++ [d]) ++ window ++ above := by
  simp

theorem length_joined (below : Digits) (d : Digit) : below.length + 1 = (below ++ [d]).length := by
  simp

/-- **A row changes its window only**, and that as a row over the window alone does. -/
theorem wordRow_eq (x : Digit) {b window : Digits} (same : window.length = b.length)
    (below above : Digits) (carry : Digit) :
    wordRow x b (below ++ window ++ above) below.length carry =
      some (below ++ (mulRow x b window carry).1 ++ above, (mulRow x b window carry).2) := by
  induction b generalizing window below carry with
  | nil =>
      rw [List.length_eq_zero_iff.mp same]
      rfl
  | cons y ys ih =>
      cases window with
      | nil => cases same
      | cons here window =>
          simp only [wordRow, read_window, Option.bind_some, Digit.wordStep_eq, set_window, mulRow,
            List.headD_cons, List.tail_cons]
          rw [length_joined, ih (Nat.succ.inj same)]
          simp

/-- **The loop leaves the rows of the product**: the output below a place is final, its window holds
what the rows so far add up to, and the rest is still zero. -/
theorem wordRows_eq (a : Digits) {b window : Digits} (same : window.length = b.length)
    (below : Digits) :
    wordRows b a (below ++ window ++ List.replicate a.length 0) below.length =
      some (below ++ mulRows a b window) := by
  induction a generalizing window below with
  | nil => simp [wordRows, mulRows]
  | cons x xs ih =>
      have length := length_mulRow x b window 0
      simp only [wordRows, wordRow_eq x same, Option.bind_some, mulRows]
      generalize mulRow x b window 0 = row at *
      obtain ⟨digits, carry⟩ := row
      simp only at length ⊢
      obtain ⟨final, rest, sum⟩ : ∃ final rest, digits ++ [carry] = final :: rest :=
        List.exists_cons_of_ne_nil (List.append_ne_nil_of_right_ne_nil _ (List.cons_ne_nil _ _))
      have behind : below.length + b.length = (below ++ digits).length := by
        rw [List.length_append, length]
      have room : below.length + b.length <
          (below ++ digits ++ List.replicate (xs.length + 1) 0).length := by
        rw [List.length_append, ← behind, List.length_replicate]
        omega
      have written : (below ++ digits ++ List.replicate (xs.length + 1) 0).set
          (below.length + b.length) carry =
          (below ++ [final]) ++ rest ++ List.replicate xs.length 0 := by
        rw [behind, List.replicate_succ, List.set_append_right _ _ (Nat.le_refl _), Nat.sub_self,
          List.set_cons_zero, List.append_assoc, ← List.singleton_append,
          ← List.append_assoc digits, sum]
        simp
      have window' : rest.length = b.length := by
        have lengths := congrArg List.length sum
        simp only [List.length_append, List.length_cons, List.length_nil] at lengths
        omega
      rw [if_pos (by simpa using room), List.length_cons, written, length_joined below final,
        ih window', sum]
      simp

/-- The whole loop, from an output of zero digits. -/
theorem wordRows_zeros (a b : Digits) :
    wordRows b a (List.replicate (a.length + b.length) 0) 0 =
      some (mulRows a b (List.replicate b.length 0)) := by
  have same : (List.replicate b.length (0 : Digit)).length = b.length := List.length_replicate
  have rows := wordRows_eq a same []
  rw [List.nil_append, List.replicate_append_replicate, Nat.add_comm b.length] at rows
  exact rows

end Digits

end Bignum
