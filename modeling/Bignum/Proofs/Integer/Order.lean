import Bignum.Integer.Order
import Bignum.Proofs.Integer.Operand

/-!
The order of integers is that of their values.

Comparing goes by signs, lengths and digits, and equality by the form alone. For canonical integers
both agree with the values, with any operand on the right (`compareOperand_eq`) and for each
operator of comparison (`Comparison.apply_iff`).

* `comparisons_agree`: order, equality and what is hashed say the same of two integers, and
  comparing with a fixed-size integer on either side is comparing with that integer, widened.
-/

namespace Bignum

namespace Integer

variable {a b : Integer}

/-! ### Order -/

theorem toInt_of_not_negative (positive : a.negative = false) : a.toInt = a.digits.toNat := by
  rw [toInt, positive, if_neg Bool.false_ne_true]

theorem toInt_of_negative (negative : a.negative = true) : a.toInt = -(a.digits.toNat : Int) := by
  rw [toInt, negative, if_pos rfl]

/-- A canonical integer with a sign is below zero. -/
theorem Canonical.toInt_neg (canonical : a.Canonical) (negative : a.negative = true) :
    a.toInt < 0 := by
  rw [canonical.negative_eq] at negative
  exact of_decide_eq_true negative

theorem toInt_nonneg (positive : a.negative = false) : 0 ≤ a.toInt := by
  rw [toInt_of_not_negative positive]
  exact Int.natCast_nonneg _

/-- The order of two integers with the same sign is that of their digits, turned over below zero. -/
theorem compare_natCast (m n : Nat) : Ord.compare (m : Int) n = Ord.compare m n := by
  rcases Nat.lt_trichotomy m n with less | rfl | more
  · rw [Nat.compare_eq_lt.mpr less, Int.compare_eq_lt.mpr (Int.ofNat_lt.mpr less)]
  · rw [Nat.compare_eq_eq.mpr rfl, Int.compare_eq_eq.mpr rfl]
  · rw [Nat.compare_eq_gt.mpr more, Int.compare_eq_gt.mpr (Int.ofNat_lt.mpr more)]

theorem compare_neg_natCast (m n : Nat) : Ord.compare (-(m : Int)) (-n) = Ord.compare n m := by
  rcases Nat.lt_trichotomy m n with less | rfl | more
  · rw [Nat.compare_eq_gt.mpr less, Int.compare_eq_gt.mpr (by omega)]
  · rw [Nat.compare_eq_eq.mpr rfl, Int.compare_eq_eq.mpr rfl]
  · rw [Nat.compare_eq_lt.mpr more, Int.compare_eq_lt.mpr (by omega)]

/-- **Canonical integers compare as their values do.** -/
theorem Canonical.compare_eq (left : a.Canonical) (right : b.Canonical) :
    a.compare b = Ord.compare a.toInt b.toInt := by
  rw [compare, compareOperand]
  simp only [Operand.normalize]
  cases signA : a.negative with
  | false =>
      cases signB : b.negative with
      | false =>
          rw [toInt_of_not_negative signA, toInt_of_not_negative signB, compare_natCast]
          exact Digits.compare_eq left.1 right.1
      | true =>
          have above := Int.lt_of_lt_of_le (right.toInt_neg signB) (toInt_nonneg signA)
          exact (Int.compare_eq_gt.mpr above).symm
  | true =>
      cases signB : b.negative with
      | false =>
          have below := Int.lt_of_lt_of_le (left.toInt_neg signA) (toInt_nonneg signB)
          exact (Int.compare_eq_lt.mpr below).symm
      | true =>
          rw [toInt_of_negative signA, toInt_of_negative signB, compare_neg_natCast]
          exact Digits.compare_eq right.1 left.1

/-- Comparing does not tell a word from the integer that it stands for. -/
theorem compareOperand_toInteger (a : Integer) (b : Operand) :
    a.compareOperand b = a.compare b.toInteger := by
  simp only [compare, compareOperand, Operand.normalize_toInteger]

theorem Canonical.compareOperand_eq (left : a.Canonical) {b : Operand} (right : b.Canonical) :
    a.compareOperand b = Ord.compare a.toInt b.toInteger.toInt := by
  rw [compareOperand_toInteger]
  exact left.compare_eq right.toInteger

/-! ### Equality -/

theorem Canonical.eq_iff_toInt (left : a.Canonical) (right : b.Canonical) :
    a = b ↔ a.toInt = b.toInt := by
  constructor
  · exact congrArg toInt
  · exact left.eq_of_toInt_eq right

theorem hashed_inj : a.hashed = b.hashed ↔ a = b := by
  cases a
  cases b
  simp [hashed]

end Integer

/-! ### Comparisons -/

namespace Comparison

/-- What a comparison says of two values. -/
def Relates : Comparison → Int → Int → Prop
  | .eq, m, n => m = n
  | .ne, m, n => m ≠ n
  | .lt, m, n => m < n
  | .le, m, n => m ≤ n
  | .gt, m, n => n < m
  | .ge, m, n => n ≤ m

theorem holds_compare_iff (op : Comparison) (m n : Int) :
    op.holds (Ord.compare m n) = true ↔ op.Relates m n := by
  rcases Int.lt_trichotomy m n with less | rfl | more
  · rw [Int.compare_eq_lt.mpr less]
    cases op <;> simp [holds, Relates] <;> omega
  · rw [Int.compare_eq_eq.mpr rfl]
    cases op <;> simp [holds, Relates]
  · rw [Int.compare_eq_gt.mpr more]
    cases op <;> simp [holds, Relates] <;> omega

section Apply

variable {a b : Integer}

/-- **A comparison of canonical integers is one of their values.** -/
theorem apply_iff (op : Comparison) (left : a.Canonical) (right : b.Canonical) :
    op.apply a b = true ↔ op.Relates a.toInt b.toInt := by
  cases op with
  | eq => exact beq_iff_eq.trans (left.eq_iff_toInt right)
  | ne => exact bne_iff_ne.trans (not_congr (left.eq_iff_toInt right))
  | lt | le | gt | ge =>
      rw [← holds_compare_iff, ← left.compare_eq right]
      rfl

variable {x : FixedInt}

theorem applyRight_iff (op : Comparison) (left : a.Canonical) :
    op.applyRight a x = true ↔ op.Relates a.toInt x.value := by
  have order : a.compareOperand (.ofFixed x) = Ord.compare a.toInt x.value := by
    rw [left.compareOperand_eq (b := .ofFixed x) trivial]
    exact congrArg _ (Integer.toInt_ofFixed x)
  rw [applyRight, order, holds_compare_iff]

theorem applyLeft_iff (op : Comparison) (right : a.Canonical) :
    op.applyLeft x a = true ↔ op.Relates x.value a.toInt := by
  have order : Integer.compareFixed x a = Ord.compare x.value a.toInt := by
    rw [Integer.compareFixed, right.compareOperand_eq (b := .ofFixed x) trivial, Int.compare_swap]
    exact congrArg (Ord.compare · a.toInt) (Integer.toInt_ofFixed x)
  cases op with
  | eq => exact (applyRight_iff .eq right).trans eq_comm
  | ne => exact (applyRight_iff .ne right).trans ne_comm
  | lt | le | gt | ge =>
      rw [← holds_compare_iff, ← order]
      rfl

end Apply

end Comparison

/-- **Order, equality and hashing agree with the values.** Canonical integers are in the order of
their values; they are equal exactly if neither is larger, if their values are equal, and if what is
hashed of them is; and each comparison of them is one of their values. A fixed-size integer, on
either side, compares like the canonical integer that it is widened to. -/
theorem comparisons_agree {a b : Integer} (left : a.Canonical) (right : b.Canonical) :
    a.compare b = Ord.compare a.toInt b.toInt ∧
      ((a == b) = true ↔ a.compare b = .eq) ∧
      (a.compare b = .eq ↔ a.toInt = b.toInt) ∧
      (a.toInt = b.toInt ↔ a.hashed = b.hashed) ∧
      (∀ op : Comparison, op.apply a b = true ↔ op.Relates a.toInt b.toInt) ∧
      ∀ x : FixedInt, (Integer.ofFixed x).Canonical ∧ (Integer.ofFixed x).toInt = x.value ∧
        a.compareOperand (.ofFixed x) = a.compare (Integer.ofFixed x) ∧
        Integer.compareFixed x a = (Integer.ofFixed x).compare a ∧
        ∀ op : Comparison, op.applyRight a x = op.apply a (Integer.ofFixed x) ∧
          op.applyLeft x a = op.apply (Integer.ofFixed x) a := by
  have order := left.compare_eq right
  have equal := left.eq_iff_toInt right
  have unordered : a.compare b = .eq ↔ a.toInt = b.toInt := by
    rw [order]
    exact Int.compare_eq_eq
  refine ⟨order, ?_, unordered, equal.symm.trans Integer.hashed_inj.symm,
    fun op => op.apply_iff left right, ?_⟩
  · exact beq_iff_eq.trans (equal.trans unordered.symm)
  · intro x
    have widened := Integer.canonical_ofFixed x
    have value := Integer.toInt_ofFixed x
    have same : a.compareOperand (.ofFixed x) = a.compare (Integer.ofFixed x) :=
      Integer.compareOperand_toInteger a (.ofFixed x)
    refine ⟨widened, value, same, ?_, fun op => ⟨?_, ?_⟩⟩
    · rw [Integer.compareFixed, same, left.compare_eq widened, widened.compare_eq left,
        Int.compare_swap]
    · rw [Bool.eq_iff_iff, op.applyRight_iff left, op.apply_iff left widened, value]
    · rw [Bool.eq_iff_iff, op.applyLeft_iff left, op.apply_iff widened left, value]

/-- The least of the widest signed type, above an integer of three digits and equal to one of
two. -/
theorem comparisons_agree_least :
    let least : FixedInt :=
      ⟨.int128, -170141183460469231731687303715884105728, by decide, by decide⟩
    let a : Integer := { negative := true, digits := [0, 9223372036854775808] }
    let b : Integer := { negative := true, digits := [0, 0, 1] }
    a.Canonical ∧ b.Canonical ∧ a.compare b = Ord.compare a.toInt b.toInt ∧
      Comparison.eq.applyLeft least a = Comparison.eq.apply (Integer.ofFixed least) a ∧
      Comparison.lt.applyLeft least b = Comparison.lt.apply (Integer.ofFixed least) b := by
  intro least a b
  have canonicalA : a.Canonical := by decide
  have canonicalB : b.Canonical := by decide
  obtain ⟨order, -, -, -, -, fixed⟩ := comparisons_agree canonicalA canonicalB
  obtain ⟨-, -, -, -, -, fixedB⟩ := comparisons_agree canonicalB canonicalA
  exact ⟨canonicalA, canonicalB, order, ((fixed least).2.2.2.2 .eq).2,
    ((fixedB least).2.2.2.2 .lt).2⟩

end Bignum
