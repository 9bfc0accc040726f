import Bignum.Proofs.Integer.Arithmetic

/-!
Division of integers rounds toward zero.

The signs are put to a quotient and a remainder of magnitudes (`Integer.toInt_divRem`), which is
division of the values with the remainder on the side of the dividend.

* `division_exact`: every divisor but zero has its quotient and remainder, as digits and as
  integers, and no dividend makes a division by zero of it.
-/

namespace Bignum

/-- What dividing `n` by `d` should answer. -/
structure Digits.IsDivRem (n d quotient rest : Digits) : Prop where
  quotient_canonical : quotient.Canonical
  rest_canonical : rest.Canonical
  exact : n.toNat = quotient.toNat * d.toNat + rest.toNat
  below : rest.toNat < d.toNat

theorem Digits.isDivRem_of_divRem {limit : Nat} {n d : Digits} {result : Digits × Digits}
    (left : n.Canonical) (right : d.Canonical) (nonzero : d ≠ [])
    (done : n.divRem limit d = .ok result) : n.IsDivRem d result.1 result.2 := by
  obtain ⟨quotient, rest⟩ := divRem_exact left right done
  obtain ⟨quotientCanonical, restCanonical⟩ := canonical_of_divRem left done
  refine ⟨quotientCanonical, restCanonical, ?_, ?_⟩
  · rw [quotient, rest]
    exact (Nat.div_add_mod' n.toNat d.toNat).symm
  · rw [rest]
    exact Nat.mod_lt _ (right.toNat_pos nonzero)

namespace Integer

/-- What dividing `a` by `b` should answer: the remainder is on the side of `a`, so the quotient is
rounded toward zero. -/
structure IsDivRem (a b quotient rest : Integer) : Prop where
  quotient_canonical : quotient.Canonical
  rest_canonical : rest.Canonical
  exact : a.toInt = quotient.toInt * b.toInt + rest.toInt
  below : rest.toInt.natAbs < b.toInt.natAbs
  sign : rest.toInt = 0 ∨ rest.toInt.sign = a.toInt.sign
  towardZero : quotient.toInt = a.toInt.tdiv b.toInt

theorem signed_bne_div (s t : Bool) (m n : Nat) :
    signed (s != t) (m / n) = (signed s m).tdiv (signed t n) := by
  cases s <;> cases t <;> simp [signed, Int.neg_tdiv, Int.tdiv_neg]

theorem signed_mod (s t : Bool) (m n : Nat) :
    signed s (m % n) = (signed s m).tmod (signed t n) := by
  cases s <;> cases t <;> simp [signed, Int.neg_tmod, Int.tmod_neg, Int.tmod_eq_emod_of_nonneg]

variable {limit : Nat} {a : Integer} {b : Operand}

/-- **A signed division is exact**, for any signs. -/
theorem toInt_divRem {result : Integer × Integer} (left : a.Canonical) (right : b.Canonical)
    (made : a.divRem limit b = .ok result) :
    result.1.toInt = a.toInt.tdiv b.toInteger.toInt ∧
      result.2.toInt = a.toInt.tmod b.toInteger.toInt := by
  obtain ⟨digits, divided, rfl⟩ := map_eq_ok_iff.mp made
  obtain ⟨quotient, rest⟩ := Digits.divRem_exact left.1 right.normalize.1 divided
  simp only [toInt_ofMagnitude, toInt_operand, toInt_eq_signed a, ← signed_bne_div, ← signed_mod,
    ← quotient, ← rest]
  exact ⟨rfl, rfl⟩

theorem isDivRem_of_divRem {result : Integer × Integer} (left : a.Canonical)
    (right : b.Canonical) (nonzero : b.toInteger.toInt ≠ 0)
    (made : a.divRem limit b = .ok result) : a.IsDivRem b.toInteger result.1 result.2 := by
  obtain ⟨quotient, rest⟩ := toInt_divRem left right made
  obtain ⟨quotientCanonical, restCanonical⟩ := canonical_divRem made
  refine ⟨quotientCanonical, restCanonical, ?_, ?_, ?_, quotient⟩
  · rw [quotient, rest]
    exact (Int.tdiv_mul_add_tmod _ _).symm
  · rw [rest, Int.natAbs_tmod]
    exact Nat.mod_lt _ (Int.natAbs_pos.mpr nonzero)
  · rw [rest, Int.sign_tmod]
    by_cases divides : b.toInteger.toInt ∣ a.toInt
    · exact .inl (Int.tmod_eq_zero_of_dvd divides)
    · exact .inr (if_neg divides)

theorem divRem_eq_divisionByZero_iff :
    a.divRem limit b = .error .divisionByZero ↔ b.normalize.digits = [] :=
  map_eq_error_iff.trans Digits.divRem_eq_divisionByZero_iff

theorem exists_divRem (nonzero : b.normalize.digits ≠ []) (room : a.digits.length + 1 < limit) :
    ∃ result, a.divRem limit b = .ok result := by
  obtain ⟨digits, divided⟩ := Digits.exists_divRem nonzero room
  exact ⟨_, map_eq_ok_iff.mpr ⟨digits, divided, rfl⟩⟩

end Integer

namespace Operand

/-- An operand is zero exactly if its normal form has no digits. -/
theorem isZero_iff {b : Operand} : b.isZero = true ↔ b.normalize.digits = [] := by
  cases b with
  | big value => exact List.isEmpty_iff
  | word negative magnitude =>
      show (magnitude == 0) = true ↔ wordDigits magnitude = []
      rw [beq_iff_eq, ← (canonical_wordDigits magnitude).toNat_eq_zero_iff, toNat_wordDigits,
        ← BitVec.toNat_inj]
      rfl

theorem toInt_ne_zero {b : Operand} (canonical : b.Canonical) (nonzero : b.isZero = false) :
    b.toInteger.toInt ≠ 0 := by
  intro zero
  have digits : b.normalize.digits.toNat = 0 := by
    rw [← Int.natAbs_eq_zero, Integer.natAbs_toInt, toInteger_eq] at zero
    exact zero
  rw [canonical.normalize.1.toNat_eq_zero_iff, ← isZero_iff, nonzero] at digits
  cases digits

end Operand

/-- **Division is exact** and rounds toward zero, on every path and for any signs, and only a
divisor that is zero makes it a division by zero. -/
theorem division_exact (limit : Nat) :
    (∀ n d : Digits, n.Canonical → d.Canonical → d ≠ [] →
      (n.length + 1 < limit → ∃ result, n.divRem limit d = .ok result) ∧
      ∀ quotient rest, n.divRem limit d = .ok (quotient, rest) → n.IsDivRem d quotient rest) ∧
    (∀ (a : Integer) (b : Operand), a.Canonical → b.Canonical → b.isZero = false →
      (a.digits.length + 1 < limit → ∃ result, a.divRem limit b = .ok result) ∧
      ∀ quotient rest, a.divRem limit b = .ok (quotient, rest) →
        a.IsDivRem b.toInteger quotient rest) ∧
    (∀ n d : Digits, n.divRem limit d = .error .divisionByZero ↔ d = []) ∧
    ∀ (a : Integer) (b : Operand),
      a.divRem limit b = .error .divisionByZero ↔ b.isZero = true := by
  refine ⟨fun n d left right nonzero =>
      ⟨Digits.exists_divRem nonzero, fun quotient rest done => ?_⟩,
    fun a b left right nonzero => ⟨fun room => ?_, fun quotient rest made => ?_⟩,
    fun n d => Digits.divRem_eq_divisionByZero_iff,
    fun a b => Integer.divRem_eq_divisionByZero_iff.trans Operand.isZero_iff.symm⟩
  · exact Digits.isDivRem_of_divRem left right nonzero done
  · refine Integer.exists_divRem (fun zero => ?_) room
    rw [Operand.isZero_iff.mpr zero] at nonzero
    cases nonzero
  · exact Integer.isDivRem_of_divRem left right (Operand.toInt_ne_zero right nonzero) made

/-- A division for which the tried digit is one too large, of a negative number. -/
theorem division_exact_added_back :
    let n : Digits := [0, 0, 0x8000000000000000, 0x7fffffffffffffff]
    let d : Digits := [1, 0, 0x8000000000000000]
    let quotient : Digits := [0xfffffffffffffffe]
    let rest : Digits := [2, 0xffffffffffffffff, 0x7fffffffffffffff]
    n.Canonical ∧ d.Canonical ∧ d ≠ [] ∧ n.divRem 6 d = .ok (quotient, rest) ∧
      n.IsDivRem d quotient rest ∧
      Integer.IsDivRem ⟨true, n⟩ ⟨false, d⟩ ⟨true, quotient⟩ ⟨true, rest⟩ ∧
      n.divRem 6 [] = .error .divisionByZero := by
  intro n d quotient rest
  have left : n.Canonical := by decide
  have right : d.Canonical := by decide
  have done : n.divRem 6 d = .ok (quotient, rest) := by decide +kernel
  obtain ⟨digits, integers, byZero, -⟩ := division_exact 6
  have signed := integers ⟨true, n⟩ (.big ⟨false, d⟩) (by decide)
    (show Integer.Canonical ⟨false, d⟩ by decide) rfl
  refine ⟨left, right, by decide, done, (digits n d left right (by decide)).2 _ _ done, ?_,
    (byZero n []).mpr rfl⟩
  exact signed.2 _ _ (by decide +kernel)

end Bignum
