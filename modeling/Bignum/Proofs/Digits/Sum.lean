import Bignum.Digits.Sum
import Bignum.Proofs.Digits.Value
import Bignum.Proofs.Storage

/-!
Order, sums and differences of digit sequences, in terms of the numbers they write.

* `compare_eq`: canonical sequences compare as their numbers do.
* `toNat_addPass`, `toNat_subPass`: a ripple pass is exact, with what is carried or borrowed at the
  top counted in.
* `subPass_borrow`: no borrow is left over when the larger number stands on the left.
* `toNat_of_add`: a sum is exact.
* `add_eq_error_iff`, `sub_eq_error_iff`: what is asked for goes by the longer side.
* `toNat_increment`, `increment_carry`, `toNat_decrement`: steps of one, and when they carry.
-/

namespace Bignum.Digits

/-! ### Order -/

/-- The higher part decides, and the digit below it only between equal ones. -/
theorem compare_high_first {x y m n : Nat} (smallX : x < Digit.base) (smallY : y < Digit.base) :
    (Ord.compare m n).then (Ord.compare x y) =
      Ord.compare (x + Digit.base * m) (y + Digit.base * n) := by
  have step {i j k l : Nat} (below : k < l) (small : i < Digit.base) :
      i + Digit.base * k < j + Digit.base * l := by
    have : Digit.base * (k + 1) ≤ Digit.base * l := Nat.mul_le_mul_left _ below
    rw [Nat.mul_add] at this
    omega
  rcases Nat.lt_trichotomy m n with less | rfl | more
  · rw [Nat.compare_eq_lt.mpr less, Nat.compare_eq_lt.mpr (step less smallX)]
    rfl
  · rw [Nat.compare_eq_eq.mpr rfl]
    rcases Nat.lt_trichotomy x y with less | rfl | more
    · rw [Nat.compare_eq_lt.mpr (Nat.add_lt_add_right less _)]
      exact Nat.compare_eq_lt.mpr less
    · rw [Nat.compare_eq_eq.mpr rfl, Nat.compare_eq_eq.mpr rfl]
      rfl
    · rw [Nat.compare_eq_gt.mpr (Nat.add_lt_add_right more _)]
      exact Nat.compare_eq_gt.mpr more
  · rw [Nat.compare_eq_gt.mpr more, Nat.compare_eq_gt.mpr (step more smallY)]
    rfl

theorem compareSameLength_eq {as bs : Digits} (same : as.length = bs.length) :
    compareSameLength as bs = Ord.compare as.toNat bs.toNat := by
  induction as generalizing bs with
  | nil =>
      rw [List.length_nil] at same
      rw [List.length_eq_zero_iff.mp same.symm]
      rfl
  | cons a as ih =>
      cases bs with
      | nil => simp at same
      | cons b bs =>
          rw [compareSameLength, ih (Nat.succ.inj same), toNat_cons, toNat_cons]
          exact compare_high_first (Digit.toNat_lt_base a) (Digit.toNat_lt_base b)

/-- A shorter canonical sequence writes a smaller number. -/
theorem Canonical.toNat_lt_of_length_lt {as bs : Digits} (canonical : bs.Canonical)
    (shorter : as.length < bs.length) : as.toNat < bs.toNat := by
  have nonempty : bs ≠ [] := List.ne_nil_of_length_pos (by omega)
  calc as.toNat < Digit.base ^ as.length := toNat_lt_pow_length as
    _ ≤ Digit.base ^ (bs.length - 1) := Nat.pow_le_pow_right Digit.base_pos (by omega)
    _ ≤ bs.toNat := canonical.pow_le_toNat nonempty

/-- **Canonical sequences compare as their numbers do.** -/
theorem compare_eq {as bs : Digits} (left : as.Canonical) (right : bs.Canonical) :
    compare as bs = Ord.compare as.toNat bs.toNat := by
  unfold compare
  rcases Nat.lt_trichotomy as.length bs.length with less | same | more
  · rw [Nat.compare_eq_lt.mpr less, Nat.compare_eq_lt.mpr (right.toNat_lt_of_length_lt less)]
    rfl
  · rw [Nat.compare_eq_eq.mpr same]
    exact compareSameLength_eq same
  · rw [Nat.compare_eq_gt.mpr more, Nat.compare_eq_gt.mpr (left.toNat_lt_of_length_lt more)]
    rfl

/-- What compares as smaller is not longer. -/
theorem length_le_of_compare_lt {as bs : Digits} (less : compare as bs = .lt) :
    as.length ≤ bs.length := by
  refine Nat.le_of_not_lt fun longer => ?_
  rw [compare, Nat.compare_eq_gt.mpr longer] at less
  cases less

/-- What does not compare as smaller is not shorter. -/
theorem length_le_of_compare_ne_lt {as bs : Digits} (notLess : compare as bs ≠ .lt) :
    bs.length ≤ as.length := by
  refine Nat.le_of_not_lt fun shorter => notLess ?_
  rw [compare, Nat.compare_eq_lt.mpr shorter]
  rfl

/-! ### Ripple passes -/

theorem length_addPass (a b : Digits) (carry : Bool) :
    (addPass a b carry).1.length = a.length := by
  induction a generalizing b carry with
  | nil => rfl
  | cons x xs ih => simp [addPass, ih]

theorem length_subPass (a b : Digits) (borrow : Bool) :
    (subPass a b borrow).1.length = a.length := by
  induction a generalizing b borrow with
  | nil => rfl
  | cons x xs ih => simp [subPass, ih]

theorem addCarry_toNat (a b : Digit) (carry : Bool) :
    (Digit.addCarry a b carry).1.toNat + Digit.base * (Digit.addCarry a b carry).2.toNat =
      a.toNat + b.toNat + carry.toNat := by
  have smallA := Digit.toNat_lt_base a
  have smallB := Digit.toNat_lt_base b
  have flag := Bool.toNat_le carry
  simp only [Digit.addCarry, Digit.toNat_ofNat_mod]
  by_cases overflow : Digit.base ≤ a.toNat + b.toNat + carry.toNat
  · rw [decide_eq_true overflow, Nat.mod_eq_sub_mod overflow, Nat.mod_eq_of_lt (by omega)]
    simp only [Bool.toNat_true]
    omega
  · rw [decide_eq_false overflow, Nat.mod_eq_of_lt (by omega)]
    simp only [Bool.toNat_false]
    omega

theorem subBorrow_toNat (a b : Digit) (borrow : Bool) :
    (Digit.subBorrow a b borrow).1.toNat + b.toNat + borrow.toNat =
      a.toNat + Digit.base * (Digit.subBorrow a b borrow).2.toNat := by
  have smallA := Digit.toNat_lt_base a
  have smallB := Digit.toNat_lt_base b
  have flag := Bool.toNat_le borrow
  simp only [Digit.subBorrow, Digit.toNat_ofNat_mod]
  by_cases short : a.toNat < b.toNat + borrow.toNat
  · rw [decide_eq_true short, Nat.mod_eq_of_lt (by omega)]
    simp only [Bool.toNat_true]
    omega
  · rw [decide_eq_false short, Nat.mod_eq_sub_mod (by omega), Nat.mod_eq_of_lt (by omega)]
    simp only [Bool.toNat_false]
    omega

/-- A pass upward adds exactly. -/
theorem toNat_addPass {a b : Digits} (short : b.length ≤ a.length) (carry : Bool) :
    (addPass a b carry).1.toNat + Digit.base ^ a.length * (addPass a b carry).2.toNat =
      a.toNat + b.toNat + carry.toNat := by
  induction a generalizing b carry with
  | nil =>
      rw [List.length_eq_zero_iff.mp (Nat.le_zero.mp short)]
      simp [addPass]
  | cons x xs ih =>
      have here := addCarry_toNat x (b.headD 0) carry
      have above := ih (b := b.tail) (by simp only [List.length_tail, List.length_cons] at *; omega)
        (Digit.addCarry x (b.headD 0) carry).2
      rw [toNat_eq_headD_add_tail b]
      simp only [addPass, toNat_cons, List.length_cons, pow_succ]
      linear_combination here + Digit.base * above

/-- A pass upward subtracts exactly. -/
theorem toNat_subPass {a b : Digits} (short : b.length ≤ a.length) (borrow : Bool) :
    (subPass a b borrow).1.toNat + b.toNat + borrow.toNat =
      a.toNat + Digit.base ^ a.length * (subPass a b borrow).2.toNat := by
  induction a generalizing b borrow with
  | nil =>
      rw [List.length_eq_zero_iff.mp (Nat.le_zero.mp short)]
      simp [subPass]
  | cons x xs ih =>
      have here := subBorrow_toNat x (b.headD 0) borrow
      have above := ih (b := b.tail) (by simp only [List.length_tail, List.length_cons] at *; omega)
        (Digit.subBorrow x (b.headD 0) borrow).2
      rw [toNat_eq_headD_add_tail b]
      simp only [subPass, toNat_cons, List.length_cons, pow_succ]
      linear_combination here + Digit.base * above

/-- **No borrow is left over** when a number no larger is subtracted. -/
theorem subPass_borrow {a b : Digits} (short : b.length ≤ a.length) (le : b.toNat ≤ a.toNat) :
    (subPass a b false).2 = false := by
  have exact := toNat_subPass short false
  have small := toNat_lt_pow_length (subPass a b false).1
  rw [length_subPass] at small
  cases borrowed : (subPass a b false).2 with
  | false => rfl
  | true =>
      rw [borrowed] at exact
      simp only [Bool.toNat_true, Bool.toNat_false] at exact
      omega

/-- A sequence no longer than a canonical one is the shorter operand of a difference. -/
theorem Canonical.length_le_of_toNat_le {as bs : Digits} (canonical : as.Canonical)
    (le : as.toNat ≤ bs.toNat) : as.length ≤ bs.length :=
  (canonical.length_le_iff _).mpr (Nat.lt_of_le_of_lt le (toNat_lt_pow_length bs))

/-! ### Sums -/

section Add

variable {limit : Nat} {a b result : Digits}

/-- What is carried out of the top of a pass is one digit more. -/
theorem toNat_addPass_append (short : b.length ≤ a.length) :
    toNat ((addPass a b false).1 ++ [if (addPass a b false).2 then 1 else 0]) =
      a.toNat + b.toNat := by
  have pass := toNat_addPass short false
  have top : (if (addPass a b false).2 then (1 : Digit) else 0).toNat =
      (addPass a b false).2.toNat := by
    cases (addPass a b false).2 <;> rfl
  rw [toNat_append, length_addPass, toNat_cons, toNat_nil, top]
  simpa using pass

/-- **A sum is exact.** -/
theorem toNat_of_add (done : a.add limit b = .ok result) : result.toNat = a.toNat + b.toNat := by
  obtain ⟨_, -, made⟩ := bind_eq_ok_iff.mp done
  obtain rfl := Except.ok.inj made
  rw [toNat_trim]
  by_cases short : b.length ≤ a.length
  · simp only [if_pos short]
    exact toNat_addPass_append short
  · simp only [if_neg short]
    rw [toNat_addPass_append (Nat.le_of_not_le short), Nat.add_comm]

theorem canonical_of_add (done : a.add limit b = .ok result) : result.Canonical := by
  obtain ⟨_, -, made⟩ := bind_eq_ok_iff.mp done
  exact Except.ok.inj made ▸ canonical_trim _

/-- A sum is refused exactly if one digit more than the longer side has is refused. -/
theorem add_eq_error_iff {cause : AllocationError} : a.add limit b = .error cause ↔
    Storage.request limit (max a.length b.length + 1) = .error cause := by
  have longer : (if b.length ≤ a.length then a else b).length = max a.length b.length := by
    split <;> omega
  rw [← longer]
  refine bind_eq_error_iff.trans ⟨?_, .inl⟩
  rintro (refused | ⟨_, -, impossible⟩)
  · exact refused
  · cases impossible

/-- A difference is refused exactly if the digits of the longer side are. -/
theorem sub_eq_error_iff {cause : AllocationError} : a.sub limit b = .error cause ↔
    Storage.request limit (max a.length b.length) = .error cause := by
  have longer : (if (compare a b == .lt) = true then b else a).length = max a.length b.length := by
    split
    · rename_i less
      exact (Nat.max_eq_right (length_le_of_compare_lt (eq_of_beq less))).symm
    · rename_i notLess
      refine (Nat.max_eq_left (length_le_of_compare_ne_lt fun less => ?_)).symm
      exact notLess (beq_iff_eq.mpr less)
  rw [← longer]
  refine bind_eq_error_iff.trans ⟨?_, .inl⟩
  rintro (refused | ⟨_, -, impossible⟩)
  · exact refused
  · cases impossible

end Add

/-! ### Steps of one -/

theorem length_increment (ds : Digits) : (increment ds).1.length = ds.length := by
  induction ds with
  | nil => rfl
  | cons d ds ih =>
      unfold increment
      split
      · simp [ih]
      · rfl

theorem length_decrement (ds : Digits) : (decrement ds).length = ds.length := by
  induction ds with
  | nil => rfl
  | cons d ds ih =>
      unfold decrement
      split
      · simp [ih]
      · rfl

/-- Adding one is exact, with the carry counted in. -/
theorem toNat_increment (ds : Digits) :
    (increment ds).1.toNat + Digit.base ^ ds.length * (increment ds).2.toNat = ds.toNat + 1 := by
  induction ds with
  | nil => rfl
  | cons d ds ih =>
      unfold increment
      split
      · rename_i largest
        have top : d.toNat + 1 = Digit.base := by rw [largest]; rfl
        simp only [toNat_cons, List.length_cons, pow_succ, UInt64.toNat_zero]
        linear_combination Digit.base * ih - top
      · rename_i smaller
        have small := Digit.toNat_lt_base d
        have notTop : d.toNat + 1 ≠ Digit.base := fun top =>
          smaller (UInt64.toNat_inj.mp (Nat.succ.inj top))
        have next : (d + 1).toNat = d.toNat + 1 := by
          rw [UInt64.toNat_add]
          exact Nat.mod_eq_of_lt (show d.toNat + 1 < Digit.base by omega)
        simp only [toNat_cons, next, Bool.toNat_false]
        omega

/-- One is carried out of the top exactly when every digit is at its largest. -/
theorem increment_carry (ds : Digits) : (increment ds).2 = ds.all (· == Digit.max) := by
  induction ds with
  | nil => rfl
  | cons d ds ih =>
      unfold increment
      split
      · rename_i largest
        simp [largest, ih]
      · rename_i smaller
        simp [smaller]

/-- Subtracting one from a number that is not zero is exact. -/
theorem toNat_decrement {ds : Digits} (positive : 0 < ds.toNat) :
    (decrement ds).toNat + 1 = ds.toNat := by
  induction ds with
  | nil => exact absurd positive (Nat.lt_irrefl 0)
  | cons d ds ih =>
      unfold decrement
      split
      · rename_i zero
        rw [toNat_cons, zero, UInt64.toNat_zero, Nat.zero_add] at positive
        have below := ih (Nat.pos_of_mul_pos_left positive)
        have top : Digit.max.toNat + 1 = Digit.base := by decide
        simp only [toNat_cons, zero, UInt64.toNat_zero]
        linear_combination Digit.base * below + top
      · rename_i nonzero
        have some : d.toNat ≠ 0 := fun zero => nonzero (Digit.eq_zero_iff_toNat.mpr zero)
        have less : (d - 1).toNat = d.toNat - 1 :=
          UInt64.toNat_sub_of_le d 1 (by rw [UInt64.le_iff_toNat_le, UInt64.toNat_one]; omega)
        simp only [toNat_cons, less]
        omega

end Bignum.Digits
