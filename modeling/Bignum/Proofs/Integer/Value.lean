import Bignum.Integer.Basic
import Bignum.Proofs.Digits.Value

/-!
The values of integers.

* `Integer.toInt_ofMagnitude`: a sign and any digits have the value that they write.
* `Integer.Canonical.eq_of_toInt_eq`: each value has exactly one canonical form.
-/

namespace Bignum.Integer

theorem toInt_ofCanonical (negative : Bool) (ds : Digits) :
    (ofCanonical negative ds).toInt = if negative then -(ds.toNat : Int) else ds.toNat := by
  cases ds with
  | nil => cases negative <;> rfl
  | cons d ds => cases negative <;> rfl

theorem toInt_ofMagnitude (negative : Bool) (ds : Digits) :
    (ofMagnitude negative ds).toInt = if negative then -(ds.toNat : Int) else ds.toNat := by
  rw [ofMagnitude, toInt_ofCanonical, Digits.toNat_trim]

theorem natAbs_toInt (v : Integer) : v.toInt.natAbs = v.digits.toNat := by
  unfold toInt
  split
  · rw [Int.natAbs_neg, Int.natAbs_natCast]
  · rw [Int.natAbs_natCast]

theorem toInt_of_isZero {v : Integer} (zero : v.isZero = true) : v.toInt = 0 := by
  rw [← Int.natAbs_eq_zero, natAbs_toInt, List.isEmpty_iff.mp zero, Digits.toNat_nil]

/-- The sign of a canonical integer is that of its value. -/
theorem Canonical.negative_eq {v : Integer} (canonical : v.Canonical) :
    v.negative = decide (v.toInt < 0) := by
  unfold toInt
  by_cases empty : v.digits = []
  · rw [canonical.2 empty, empty]
    rfl
  · have positive := canonical.1.toNat_pos empty
    cases v.negative with
    | true => exact (decide_eq_true (by simp only [if_true]; omega)).symm
    | false =>
        exact (decide_eq_false (by simp only [Bool.false_eq_true, if_false]; omega)).symm

/-- **One form for each value.** Canonical integers of one value are equal. -/
theorem Canonical.eq_of_toInt_eq {v w : Integer} (left : v.Canonical) (right : w.Canonical)
    (same : v.toInt = w.toInt) : v = w := by
  have digits : v.digits = w.digits :=
    left.1.eq_of_toNat_eq right.1 (by rw [← natAbs_toInt, ← natAbs_toInt, same])
  have sign : v.negative = w.negative := by
    rw [left.negative_eq, right.negative_eq, same]
  cases v
  cases w
  simp_all

end Bignum.Integer
