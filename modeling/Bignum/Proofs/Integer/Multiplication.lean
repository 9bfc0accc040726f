import Bignum.Proofs.Digits.ProductLoop
import Bignum.Proofs.Integer.Arithmetic

/-!
Products are exact, whichever way they are made.

* `Digits.MulSound`: a product of digits is the same from a shift, from the rows, and from the loop
  over one output; it is refused as a request for the digits of both factors is.
* `Integer.MulSound`: a product of integers has the product of the values and of the signs, also
  where the digits of the left factor are taken over.
* `multiplication_exact`: both hold of all canonical factors.
-/

namespace Bignum

/-! ### Digits -/

namespace Digits

/-- What the product of two digit sequences is, and when there is none. -/
structure MulSound (limit : Nat) (a b : Digits) : Prop where
  exact : ∀ result, a.mul limit b = .ok result →
    result.Canonical ∧ result.toNat = a.toNat * b.toNat
  /-- The loop over one output stays inside of it, overflows nowhere, and leaves the same number. -/
  loop : ∃ output, wordRows b a (List.replicate (a.length + b.length) 0) 0 = some output ∧
    ∀ result, a.mul limit b = .ok result → output.trim = result
  zero : a = [] ∨ b = [] → a.mul limit b = .ok []
  refused : a ≠ [] → b ≠ [] → ∀ cause, a.mul limit b = .error cause ↔
    Storage.request limit (a.length + b.length) = .error cause
  named : a.length < 2 ^ 57 → b.length < 2 ^ 57 → ∀ cause, a.mul limit b = .error cause →
    cause.requested = a.length + b.length
  exchanged : a.mul limit b = b.mul limit a

variable {limit : Nat} {a b result : Digits}

/-- **The shift and the rows agree**: a product made either way is what the rows leave. -/
theorem trim_mulRows_of_mul (done : a.mul limit b = .ok result) :
    (mulRows a b (List.replicate b.length 0)).trim = result := by
  refine (canonical_trim _).eq_of_toNat_eq (canonical_of_mul done) ?_
  rw [toNat_trim, toNat_mulRows a List.length_replicate, toNat_replicate_zero, Nat.add_zero,
    toNat_of_mul done]

theorem mul_zero_factor (zero : a = [] ∨ b = []) : a.mul limit b = .ok [] := by
  have empty : (a.isEmpty || b.isEmpty) = true := by
    rwa [Bool.or_eq_true_iff, List.isEmpty_iff, List.isEmpty_iff]
  rw [mul, if_pos empty]

theorem mulSound (left : a.Canonical) (right : b.Canonical) : MulSound limit a b where
  exact _ done := ⟨canonical_of_mul done, toNat_of_mul done⟩
  loop := ⟨_, wordRows_zeros a b, fun _ done => trim_mulRows_of_mul done⟩
  zero := mul_zero_factor
  refused someA someB cause := by
    rw [mul_eq_error_iff left right]
    exact and_iff_right ⟨someA, someB⟩
  named shortA shortB cause refused := by
    have requested :=
      Storage.requested_of_request_error ((mul_eq_error_iff left right).mp refused).2
    rw [requested, Storage.maxRequest]
    omega
  exchanged := mul_exchange left right

end Digits

/-! ### Integers -/

namespace Integer

/-- What the product of two integers is; a factor of `1` or `-1` costs no digits. -/
structure MulSound (limit : Nat) (a : Integer) (b : Operand) : Prop where
  exact : ∀ v, a.mul limit b = .ok v → v.Canonical ∧ v.toInt = a.toInt * b.toInteger.toInt
  sign : ∀ v, a.mul limit b = .ok v →
    v.negative = (!v.isZero && (a.negative != b.toInteger.negative))
  unit : b.toInteger.toInt.natAbs = 1 → ∃ v, a.mul limit b = .ok v ∧ v.digits = a.digits

variable {limit : Nat} {a v : Integer} {b : Operand}

/-- A product is negative when exactly one side is, and it is not zero. -/
theorem negative_of_mul (made : a.mul limit b = .ok v) :
    v.negative = (!v.isZero && (a.negative != b.toInteger.negative)) := by
  rw [Operand.toInteger_eq]
  simp only [mul] at made
  split at made
  · obtain rfl := Except.ok.inj made
    rfl
  · rename_i nonzero
    split at made
    · obtain rfl := Except.ok.inj made
      have some : a.isZero = false := (Bool.or_eq_false_iff.mp (Bool.not_eq_true _ ▸ nonzero)).1
      show (a.negative != b.normalize.negative) =
        (!a.isZero && (a.negative != b.normalize.negative))
      rw [some]
      rfl
    · obtain ⟨product, -, rfl⟩ := map_eq_ok_iff.mp (liftAllocation_eq_ok_iff.mp made)
      exact Bool.and_comm _ _

/-- **A factor of `1` or `-1` keeps the digits** of the other one, and asks for none. -/
theorem mul_unit (right : b.Canonical) (unit : b.toInteger.toInt.natAbs = 1) :
    ∃ v, a.mul limit b = .ok v ∧ v.digits = a.digits := by
  have one : b.normalize.digits = [1] := by
    refine right.normalize.1.eq_of_toNat_eq (by decide) ?_
    rw [natAbs_toInt, Operand.toInteger_eq] at unit
    exact unit
  cases zero : a.isZero with
  | true =>
      refine ⟨Integer.zero, ?_, (List.isEmpty_iff.mp zero).symm⟩
      simp only [mul, zero, Bool.true_or, if_true]
  | false =>
      refine ⟨{ negative := a.negative != b.normalize.negative, digits := a.digits }, ?_, rfl⟩
      simp [mul, mulKeepsDigits, zero, one]

theorem mulSound (left : a.Canonical) (right : b.Canonical) : MulSound limit a b where
  exact _ made := ⟨left.mul made, toInt_mul made⟩
  sign _ made := negative_of_mul made
  unit := mul_unit right

end Integer

/-- **Multiplication is exact**, on every path, and can only be refused for want of the digits of
both factors together. -/
theorem multiplication_exact (limit : Nat) :
    (∀ a b : Digits, a.Canonical → b.Canonical → Digits.MulSound limit a b) ∧
    ∀ (a : Integer) (b : Operand), a.Canonical → b.Canonical → Integer.MulSound limit a b :=
  ⟨fun _ _ => Digits.mulSound, fun _ _ => Integer.mulSound⟩

/-- The largest digits, squared row by row and shifted by a power of two that is refused a digit. -/
theorem multiplication_exact_largest :
    let a : Digits := [Digit.max, Digit.max]
    let power : Digits := [0, 2]
    a.Canonical ∧ power.Canonical ∧
      a.mul 5 a = .ok [1, 0, 0xfffffffffffffffe, Digit.max] ∧
      Digits.toNat [1, 0, 0xfffffffffffffffe, Digit.max] = a.toNat * a.toNat ∧
      power.mul 4 a = .error { requested := 4 } ∧
      Integer.MulSound 4 ⟨true, a⟩ (.word true 1) := by
  intro a power
  obtain ⟨digits, integers⟩ := multiplication_exact 4
  have left : a.Canonical := by decide
  have right : power.Canonical := by decide
  have square : a.mul 5 a = .ok [1, 0, 0xfffffffffffffffe, Digit.max] := by decide +kernel
  refine ⟨left, right, square, (((multiplication_exact 5).1 a a left left).exact _ square).2, ?_,
    integers ⟨true, a⟩ (.word true 1) (by decide) trivial⟩
  rw [(digits power a right left).exchanged]
  exact ((digits a power left right).refused (by decide) (by decide) _).mpr rfl

end Bignum
