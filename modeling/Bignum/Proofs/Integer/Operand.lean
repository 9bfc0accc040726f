import Bignum.Proofs.Integer.Canonical
import Bignum.Proofs.Integer.Value

/-!
Operands and the integers that they stand for.

A word is brought to a sign and digits without being made an integer first. Both ways end in the one
canonical form of its value (`Operand.toInteger_eq`), so an operation does not tell a word from the
integer that it stands for (`Operand.normalize_toInteger`), and widening is exact
(`Integer.toInt_ofFixed`).
-/

namespace Bignum

/-! ### Fixed-size integers -/

namespace FixedType

theorem span_le (type : FixedType) : type.span ≤ 2 ^ 128 := by
  cases type <;> decide

theorem span_le_of_signed {type : FixedType} (signed : type.signed = true) :
    type.span < 2 ^ 128 := by
  cases type with
  | int8 | int16 | int32 | int64 | int128 | intSize => decide
  | uint8 | uint16 | uint32 | uint64 | uint128 | uintSize => cases signed

end FixedType

namespace FixedInt

/-- The absolute value of a fixed-size integer, least ones included, is a word. -/
theorem natAbs_lt (x : FixedInt) : x.value.natAbs < 2 ^ 128 := by
  have low := x.least_le
  have high := x.le_greatest
  have span := x.type.span_le
  unfold FixedType.greatest at high
  unfold FixedType.least at low
  split at low
  · rename_i signed
    have narrower := FixedType.span_le_of_signed signed
    omega
  · omega

end FixedInt

/-! ### One form -/

namespace Integer

/-- The value of a sign and a word. -/
theorem toInt_ofWord (negative : Bool) (magnitude : BitVec 128) :
    (ofWord negative magnitude).toInt =
      if negative then -(magnitude.toNat : Int) else magnitude.toNat := by
  have whole : (Digit.split magnitude.toNat).1.toNat +
      Digit.base * (Digit.split magnitude.toNat).2.toNat = magnitude.toNat :=
    Digit.split_toNat magnitude.isLt
  have digits : Digits.toNat [(Digit.split magnitude.toNat).1, (Digit.split magnitude.toNat).2] =
      magnitude.toNat := by
    simpa using whole
  rw [ofWord, toInt_ofMagnitude, digits]

/-- **Widening is exact.** -/
theorem toInt_ofFixed (x : FixedInt) : (ofFixed x).toInt = x.value := by
  have word : (BitVec.ofNat 128 x.value.natAbs).toNat = x.value.natAbs :=
    Nat.mod_eq_of_lt x.natAbs_lt
  rw [ofFixed, toInt_ofWord, word]
  by_cases below : x.value < 0
  · rw [decide_eq_true below, if_pos rfl]
    omega
  · rw [decide_eq_false below, if_neg Bool.false_ne_true]
    omega

theorem canonical_ofFixed (x : FixedInt) : (ofFixed x).Canonical := canonical_ofMagnitude _ _

end Integer

namespace Operand

/-- The sign and the digits of an operand are those of the integer that it stands for. -/
theorem toInteger_eq (b : Operand) :
    b.toInteger = { negative := b.normalize.negative, digits := b.normalize.digits } := by
  cases b with
  | big value => rfl
  | word negative magnitude =>
      have form : Integer.Canonical ⟨negative && magnitude != 0, wordDigits magnitude⟩ :=
        Canonical.normalize (b := word negative magnitude) trivial
      show Integer.ofWord negative magnitude = ⟨negative && magnitude != 0, wordDigits magnitude⟩
      refine Integer.Canonical.eq_of_toInt_eq (Integer.canonical_ofMagnitude _ _) form ?_
      rw [Integer.toInt_ofWord, Integer.toInt, toNat_wordDigits]
      by_cases zero : magnitude = 0
      · subst zero
        cases negative <;> rfl
      · rw [bne_iff_ne.mpr zero, Bool.and_true]

theorem digits_toInteger (b : Operand) : b.toInteger.digits = b.normalize.digits :=
  congrArg Integer.digits b.toInteger_eq

/-- **A word is the integer that it stands for**, as far as operations can tell. -/
theorem normalize_toInteger (b : Operand) :
    (big b.toInteger).normalize = { b.normalize with residence := .borrowed } := by
  rw [toInteger_eq]
  rfl

theorem Canonical.toInteger {b : Operand} (canonical : b.Canonical) : b.toInteger.Canonical := by
  rw [toInteger_eq]
  exact canonical.normalize

end Operand

end Bignum
