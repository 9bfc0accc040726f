import Bignum.Digits.Quotient
import Bignum.Proofs.Digits.Value

/-!
Division by one digit, by the numbers.

The remainder so far stays below the divisor, so that it makes a quotient of one digit with the
digit below it (`Digit.current_div_lt`). Hence nothing is cut off on the way down, and the digits of
the quotient and the remainder are those of the numbers (`Digits.toNat_divRemDigit`).
-/

namespace Bignum

/-- A remainder and the next digit make one digit of the quotient. -/
theorem Digit.current_div_lt {divisor rest d : Nat} (below : rest < divisor) (small : d < base) :
    (rest * base + d) / divisor < base := by
  refine Nat.div_lt_of_lt_mul ?_
  calc rest * base + d
      < (rest + 1) * base := by rw [Nat.add_mul]; omega
    _ ≤ divisor * base := Nat.mul_le_mul_right base below

namespace Digits

theorem length_divRemDigit (divisor : Digit) (ds : Digits) :
    (divRemDigit divisor ds).1.length = ds.length := by
  induction ds with
  | nil => rfl
  | cons d ds ih => simp [divRemDigit, ih]

variable {divisor : Digit}

/-- **Division by one digit is exact**: the digits write the quotient, and the last answer is the
remainder. -/
theorem toNat_divRemDigit (nonzero : divisor ≠ 0) (ds : Digits) :
    (divRemDigit divisor ds).1.toNat = ds.toNat / divisor.toNat ∧
      (divRemDigit divisor ds).2.toNat = ds.toNat % divisor.toNat := by
  have positive := Digit.toNat_pos nonzero
  induction ds with
  | nil => simp [divRemDigit]
  | cons d ds ih =>
      obtain ⟨quotient, rest⟩ := ih
      have below : (divRemDigit divisor ds).2.toNat < divisor.toNat :=
        rest ▸ Nat.mod_lt _ positive
      have fits := Digit.current_div_lt below (Digit.toNat_lt_base d)
      have small := (Nat.mod_lt ((divRemDigit divisor ds).2.toNat * Digit.base + d.toNat)
        positive).trans (Digit.toNat_lt_base divisor)
      -- What the divisor takes out of the digits above it, it takes out of the whole number.
      have whole : d.toNat + Digit.base * toNat ds =
          (divRemDigit divisor ds).2.toNat * Digit.base + d.toNat +
            divisor.toNat * (Digit.base * (toNat ds / divisor.toNat)) := by
        rw [rest]
        linear_combination Digit.base * (Nat.div_add_mod (toNat ds) divisor.toNat).symm
      simp only [divRemDigit, toNat_cons, Digit.toNat_ofNat_of_lt fits,
        Digit.toNat_ofNat_of_lt small]
      rw [whole, Nat.add_mul_div_left _ _ positive, Nat.add_mul_mod_self_left, quotient]
      exact ⟨rfl, rfl⟩

/-- The remainder is below the divisor, and what is divided is their sum. -/
theorem divRemDigit_recompose (nonzero : divisor ≠ 0) (ds : Digits) :
    (divRemDigit divisor ds).2.toNat < divisor.toNat ∧
      ds.toNat = (divRemDigit divisor ds).1.toNat * divisor.toNat +
        (divRemDigit divisor ds).2.toNat := by
  obtain ⟨quotient, rest⟩ := toNat_divRemDigit nonzero ds
  have positive := Digit.toNat_pos nonzero
  rw [quotient, rest]
  exact ⟨Nat.mod_lt _ positive, (Nat.div_add_mod' _ _).symm⟩

end Digits

end Bignum
