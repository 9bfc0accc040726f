import Bignum.Proofs.Integer.Arithmetic

/-!
Sums and differences are exact, for any signs.

* `Digits.SumSound`: of digits, a sum is that of the numbers, and a difference their distance; it
  says which side is larger, and borrows nothing from beyond the top.
* `Integer.SumSound`: of integers, both are those of the values. Nothing but want of storage for one
  digit more than either side has keeps them from being there.
* `addition_exact`: both hold of all canonical sides.
-/

namespace Bignum

/-! ### Digits -/

namespace Digits

/-- What the sum and the difference of two digit sequences are, and when there are none. -/
structure SumSound (limit : Nat) (a b : Digits) : Prop where
  sum : ∀ result, a.add limit b = .ok result →
    result.Canonical ∧ result.toNat = a.toNat + b.toNat
  difference : ∀ result, a.sub limit b = .ok result →
    result.1.Canonical ∧ result.1.toNat = ((a.toNat : Int) - b.toNat).natAbs
  flag : ∀ result, a.sub limit b = .ok result → (result.2 = true ↔ a.toNat < b.toNat)
  /-- A difference is made in one pass, after which no borrow is left over. -/
  settled : (∀ result, a.sub limit b = .ok result → result.1 = (differencePass a b).1.trim) ∧
    (differencePass a b).2 = false
  sumRefused : ∀ cause, a.add limit b = .error cause ↔
    Storage.request limit (max a.length b.length + 1) = .error cause
  differenceRefused : ∀ cause, a.sub limit b = .error cause ↔
    Storage.request limit (max a.length b.length) = .error cause

variable {limit : Nat} {a b : Digits} {result : Digits × Bool}

theorem natAbs_of_sub (left : a.Canonical) (right : b.Canonical)
    (done : a.sub limit b = .ok result) :
    result.1.toNat = ((a.toNat : Int) - b.toNat).natAbs := by
  obtain ⟨flag, exact⟩ := toNat_of_sub left right done
  rw [flag] at exact
  by_cases less : a.toNat < b.toNat
  · rw [decide_eq_true less, if_pos rfl] at exact
    omega
  · rw [decide_eq_false less, if_neg Bool.false_ne_true] at exact
    omega

theorem sumSound (left : a.Canonical) (right : b.Canonical) : SumSound limit a b where
  sum _ done := ⟨canonical_of_add done, toNat_of_add done⟩
  difference _ done := by
    refine ⟨?_, natAbs_of_sub left right done⟩
    rw [← sub_eq done]
    exact canonical_trim _
  flag _ done := by
    rw [(toNat_of_sub left right done).1, decide_eq_true_iff]
  settled := by
    refine ⟨fun result done => ?_, differencePass_borrow left right⟩
    rw [← sub_eq done]
  sumRefused _ := add_eq_error_iff
  differenceRefused _ := sub_eq_error_iff

end Digits

/-! ### Integers -/

namespace Integer

/-- What the sum and the difference of two integers are, and what they need. -/
structure SumSound (limit : Nat) (a : Integer) (b : Operand) : Prop where
  sum : ∀ v, a.add limit b = .ok v → v.Canonical ∧ v.toInt = a.toInt + b.toInteger.toInt
  difference : ∀ v, a.sub limit b = .ok v → v.Canonical ∧ v.toInt = a.toInt - b.toInteger.toInt
  granted : a.digits.length + 1 < limit → b.toInteger.digits.length + 1 < limit →
    (∃ v, a.add limit b = .ok v) ∧ ∃ v, a.sub limit b = .ok v
  refused : ∀ e, a.add limit b = .error e ∨ a.sub limit b = .error e →
    ∃ cause, e = .allocation cause

variable {limit : Nat} {a : Integer} {b : Operand}

theorem exists_addSigned {negative : Bool} {digits : Digits} (roomA : a.digits.length + 1 < limit)
    (roomB : digits.length + 1 < limit) :
    ∃ v, liftAllocation (a.addSigned limit negative digits) = .ok v := by
  cases made : a.addSigned limit negative digits with
  | ok v => exact ⟨v, rfl⟩
  | error cause =>
      have full := addSigned_error made
      omega

theorem sumSound (left : a.Canonical) (right : b.Canonical) : SumSound limit a b where
  sum _ made :=
    ⟨left.addSigned right.normalize.1 (liftAllocation_eq_ok_iff.mp made), toInt_add left right made⟩
  difference _ made :=
    ⟨left.addSigned right.normalize.1 (liftAllocation_eq_ok_iff.mp made), toInt_sub left right made⟩
  granted roomA roomB := by
    rw [Operand.toInteger_eq] at roomB
    exact ⟨exists_addSigned roomA roomB, exists_addSigned roomA roomB⟩
  refused e failed := by
    rcases failed with failed | failed
    · obtain ⟨cause, -, rfl⟩ := liftAllocation_eq_error_iff.mp failed
      exact ⟨cause, rfl⟩
    · obtain ⟨cause, -, rfl⟩ := liftAllocation_eq_error_iff.mp failed
      exact ⟨cause, rfl⟩

end Integer

/-- **Addition and subtraction are exact**, for any signs and lengths. -/
theorem addition_exact (limit : Nat) :
    (∀ a b : Digits, a.Canonical → b.Canonical → Digits.SumSound limit a b) ∧
    ∀ (a : Integer) (b : Operand), a.Canonical → b.Canonical → Integer.SumSound limit a b :=
  ⟨fun _ _ => Digits.sumSound, fun _ _ => Integer.sumSound⟩

/-- A carry through all digits, and a difference that loses all digits but one. -/
theorem addition_exact_carried :
    let a : Digits := [Digit.max, Digit.max]
    let b : Digits := [0, 0, 1]
    a.Canonical ∧ b.Canonical ∧
      a.add 4 [1] = .ok b ∧ b.toNat = a.toNat + Digits.toNat [1] ∧
      a.sub 4 b = .ok ([1], true) ∧ (Digits.differencePass a b).2 = false ∧
      Integer.SumSound 4 ⟨true, a⟩ (.big ⟨false, b⟩) := by
  intro a b
  obtain ⟨digits, integers⟩ := addition_exact 4
  have left : a.Canonical := by decide
  have right : b.Canonical := by decide
  have sum : a.add 4 [1] = .ok b := by decide
  exact ⟨left, right, sum, ((digits a [1] left (by decide)).sum _ sum).2, by decide,
    (digits a b left right).settled.2,
    integers _ _ (by decide) (show Integer.Canonical _ by decide)⟩

end Bignum
