import Bignum.Integer.Divisor
import Bignum.Proofs.Digits.Product
import Bignum.Proofs.Digits.Quotient
import Bignum.Proofs.Integer.Operand

/-!
The results of arithmetic on integers, and what keeps it from having any.

* `toInt_add`, `toInt_sub`, `toInt_mul`: sums, differences and products are exact, for any signs and
  any operand on the right.
* `checked_error`: an operator has no result only where it divides by zero or is refused storage,
  and then for no more than the digits of both sides and one more.
-/

namespace Bignum

/-! ### Digits -/

namespace Digits

variable {limit : Nat} {a b : Digits}

/-- **A difference is exact**, and says which side is the larger one. -/
theorem toNat_of_sub (left : a.Canonical) (right : b.Canonical) {result : Digits × Bool}
    (done : a.sub limit b = .ok result) :
    result.2 = decide (a.toNat < b.toNat) ∧
      (result.1.toNat : Int) =
        if result.2 then (b.toNat : Int) - a.toNat else a.toNat - b.toNat := by
  have order : (compare a b == .lt) = decide (a.toNat < b.toNat) := by
    rw [compare_eq left right, Bool.eq_iff_iff, beq_iff_eq, Nat.compare_eq_lt,
      decide_eq_true_iff]
  have borrow := differencePass_borrow left right
  obtain rfl := sub_eq done
  refine ⟨order, ?_⟩
  simp only [differencePass, order] at borrow ⊢
  rw [toNat_trim]
  by_cases less : a.toNat < b.toNat
  · rw [decide_eq_true less] at borrow ⊢
    have pass := toNat_subPass (left.length_le_of_toNat_le less.le) false
    simp only [if_true] at borrow ⊢
    rw [borrow] at pass
    simp only [Bool.toNat_false] at pass
    omega
  · rw [decide_eq_false less] at borrow ⊢
    have pass := toNat_subPass (right.length_le_of_toNat_le (Nat.le_of_not_lt less)) false
    simp only [Bool.false_eq_true, if_false] at borrow ⊢
    rw [borrow] at pass
    simp only [Bool.toNat_false] at pass
    omega

end Digits

namespace Integer

/-! ### Exact results -/

/-- A natural number with a sign. -/
def signed (negative : Bool) (n : Nat) : Int := if negative then -(n : Int) else n

theorem toInt_eq_signed (v : Integer) : v.toInt = signed v.negative v.digits.toNat := rfl

theorem signed_not (negative : Bool) (n : Nat) : signed (!negative) n = -signed negative n := by
  cases negative <;> simp [signed]

theorem signed_bne_mul (s t : Bool) (m n : Nat) :
    signed (s != t) (m * n) = signed s m * signed t n := by
  cases s <;> cases t <;> simp [signed]

section Exact

variable {limit : Nat} {a v : Integer} {b : Operand}

theorem toInt_operand (b : Operand) :
    b.toInteger.toInt = signed b.normalize.negative b.normalize.digits.toNat := by
  rw [Operand.toInteger_eq]
  rfl

/-- **A signed sum is exact.** -/
theorem toInt_addSigned {negative : Bool} {digits : Digits} (left : a.Canonical)
    (right : digits.Canonical) (made : a.addSigned limit negative digits = .ok v) :
    v.toInt = a.toInt + signed negative digits.toNat := by
  rw [toInt_eq_signed a]
  unfold addSigned at made
  split at made
  · rename_i empty
    obtain ⟨kept, copied, rfl⟩ := map_eq_ok_iff.mp made
    obtain ⟨-, rfl⟩ := Digits.copy_eq_ok_iff.mp copied
    rw [toInt_ofCanonical, List.isEmpty_iff.mp empty]
    cases negative <;> simp [signed]
  · split at made
    · rename_i zero
      obtain ⟨kept, copied, rfl⟩ := map_eq_ok_iff.mp made
      obtain ⟨-, rfl⟩ := Digits.copy_eq_ok_iff.mp copied
      rw [toInt_ofCanonical, List.isEmpty_iff.mp zero]
      cases a.negative <;> simp [signed]
    · split at made
      · rename_i same
        obtain ⟨sum, added, rfl⟩ := map_eq_ok_iff.mp made
        rw [toInt_ofMagnitude, Digits.toNat_of_add added, same]
        cases negative with
        | false => exact Int.natCast_add _ _
        | true =>
            show -((a.digits.toNat + digits.toNat : Nat) : Int) =
              -(a.digits.toNat : Int) + -(digits.toNat : Int)
            omega
      · rename_i other
        obtain ⟨difference, taken, rfl⟩ := map_eq_ok_iff.mp made
        obtain ⟨-, exact⟩ := Digits.toNat_of_sub left.1 right taken
        rw [toInt_ofMagnitude, exact]
        -- The signs differ, so the sign of the right side is the opposite of `a`'s.
        cases signA : a.negative with
        | false =>
            rw [signA] at other
            rw [(Bool.not_eq_false _).mp (Ne.symm other)]
            cases difference.2 <;> simp [signed] <;> omega
        | true =>
            rw [signA] at other
            rw [(Bool.not_eq_true _).mp (Ne.symm other)]
            cases difference.2 <;> simp [signed] <;> omega

theorem toInt_add (left : a.Canonical) (right : b.Canonical) (made : a.add limit b = .ok v) :
    v.toInt = a.toInt + b.toInteger.toInt := by
  rw [toInt_operand]
  exact toInt_addSigned left right.normalize.1 (liftAllocation_eq_ok_iff.mp made)

theorem toInt_sub (left : a.Canonical) (right : b.Canonical) (made : a.sub limit b = .ok v) :
    v.toInt = a.toInt - b.toInteger.toInt := by
  rw [toInt_operand, Int.sub_eq_add_neg, ← signed_not]
  exact toInt_addSigned left right.normalize.1 (liftAllocation_eq_ok_iff.mp made)

/-- **A product is exact**, also one that takes over the digits of its left factor. -/
theorem toInt_mul (made : a.mul limit b = .ok v) : v.toInt = a.toInt * b.toInteger.toInt := by
  rw [toInt_operand, toInt_eq_signed a, ← signed_bne_mul]
  simp only [mul] at made
  split at made
  · rename_i empty
    obtain rfl := Except.ok.inj made
    have zero : a.digits.toNat * b.normalize.digits.toNat = 0 := by
      rcases Bool.or_eq_true_iff.mp empty with empty | empty
      · rw [List.isEmpty_iff.mp empty, Digits.toNat_nil, Nat.zero_mul]
      · rw [List.isEmpty_iff.mp empty, Digits.toNat_nil, Nat.mul_zero]
    rw [zero]
    cases a.negative != b.normalize.negative <;> rfl
  · split at made
    · rename_i unit
      obtain rfl := Except.ok.inj made
      have one : b.normalize.digits = [1] := eq_of_beq (Bool.and_eq_true_iff.mp unit).2
      rw [one, show Digits.toNat [1] = 1 from rfl, Nat.mul_one]
      rfl
    · obtain ⟨product, multiplied, rfl⟩ := map_eq_ok_iff.mp (liftAllocation_eq_ok_iff.mp made)
      rw [toInt_ofMagnitude, Digits.toNat_of_mul multiplied]
      rfl

end Exact

/-! ### Results that are not there -/

section Errors

variable {limit : Nat} {a : Integer} {b : Operand} {e : ArithmeticError}

theorem addSigned_error {negative : Bool} {digits : Digits} {cause : AllocationError}
    (refused : a.addSigned limit negative digits = .error cause) :
    limit ≤ a.digits.length + 1 ∨ limit ≤ digits.length + 1 := by
  unfold addSigned at refused
  split at refused
  · have full := Digits.le_of_copy_error (map_eq_error_iff.mp refused)
    omega
  · split at refused
    · have full := Digits.le_of_copy_error (map_eq_error_iff.mp refused)
      omega
    · split at refused
      · have full :=
          Storage.le_of_request_error (Digits.add_eq_error_iff.mp (map_eq_error_iff.mp refused))
        omega
      · have full :=
          Storage.le_of_request_error (Digits.sub_eq_error_iff.mp (map_eq_error_iff.mp refused))
        omega

theorem mul_error {e : ArithmeticError} (failed : a.mul limit b = .error e) :
    limit ≤ a.digits.length + b.normalize.digits.length ∧ ∃ cause, e = .allocation cause := by
  simp only [mul] at failed
  split at failed
  · cases failed
  · split at failed
    · cases failed
    · obtain ⟨cause, refused, rfl⟩ := liftAllocation_eq_error_iff.mp failed
      exact ⟨Digits.le_of_mul_error (map_eq_error_iff.mp refused), cause, rfl⟩

/-- With room for the digits of both factors there is a product. -/
theorem exists_mul (room : a.digits.length + b.normalize.digits.length < limit) :
    ∃ v, a.mul limit b = .ok v := by
  cases made : a.mul limit b with
  | ok v => exact ⟨v, rfl⟩
  | error e => exact absurd room (Nat.not_lt.mpr (mul_error made).1)

end Errors

end Integer

/-- The operators that have no result for zero on the right. -/
def Operator.Divides : Operator → Prop
  | .div | .rem => True
  | .add | .sub | .mul => False

/-- **An operator fails for two reasons only**: it divides by zero, or is refused storage, for no
more than the digits of both sides and one more. -/
theorem Operator.checked_error {op : Operator} {limit : Nat} {a : Integer} {b : Operand}
    {e : ArithmeticError} (failed : op.checked limit a b = .error e) :
    e = .divisionByZero ∧ op.Divides ∧ b.normalize.digits = [] ∨
      ¬ (op.Divides ∧ b.normalize.digits = []) ∧
        limit ≤ a.digits.length + b.normalize.digits.length + 1 ∧
        ∃ cause, e = .allocation cause := by
  have divided {e : ArithmeticError} {op : Operator} (divides : op.Divides)
      (failed : a.divRem limit b = .error e) :
      e = .divisionByZero ∧ op.Divides ∧ b.normalize.digits = [] ∨
        ¬ (op.Divides ∧ b.normalize.digits = []) ∧
          limit ≤ a.digits.length + b.normalize.digits.length + 1 ∧
          ∃ cause, e = .allocation cause := by
    rcases Digits.divRem_error (map_eq_error_iff.mp failed) with ⟨rfl, zero⟩ | ⟨some, full, refused⟩
    · exact .inl ⟨rfl, divides, zero⟩
    · exact .inr ⟨fun both => some both.2, by omega, refused⟩
  cases op with
  | add =>
      obtain ⟨cause, refused, rfl⟩ := liftAllocation_eq_error_iff.mp failed
      have full := Integer.addSigned_error refused
      exact .inr ⟨fun both => both.1, by omega, cause, rfl⟩
  | sub =>
      obtain ⟨cause, refused, rfl⟩ := liftAllocation_eq_error_iff.mp failed
      have full := Integer.addSigned_error refused
      exact .inr ⟨fun both => both.1, by omega, cause, rfl⟩
  | mul =>
      obtain ⟨full, refused⟩ := Integer.mul_error failed
      exact .inr ⟨fun both => both.1, Nat.le_succ_of_le full, refused⟩
  | div => exact divided trivial (map_eq_error_iff.mp failed)
  | rem => exact divided trivial (map_eq_error_iff.mp failed)

end Bignum
