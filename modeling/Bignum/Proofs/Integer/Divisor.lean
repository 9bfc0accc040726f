import Bignum.Integer.Divisor
import Bignum.Proofs.Digits.Product
import Bignum.Proofs.Integer.Division

/-!
Greatest common divisors and least common multiples are those of the values.

`Digits.Euclid` is the loop of Euclid's method without a bound on its rounds. In each round the
common divisors stay the same (`Digits.gcd_of_divRem`) and the second number falls, so the loop ends
(`Digits.euclid_ends`), within the rounds that the library allows it.

* `Integer.GcdSound`: the greatest common divisor is there unless storage is refused, no division of
  the loop is one by zero, and the answer is divided by exactly the common divisors of both sides.
* `Integer.LcmSound`: the same of least common multiples, which are what the greatest common divisor
  leaves of the product.
* `divisors_exact`: both hold of all canonical sides.
-/

namespace Bignum

/-! ### The loop -/

namespace Digits

/-- Euclid's method, started with two numbers, ends with an outcome. -/
inductive Euclid (limit : Nat) : Digits → Digits → Except ArithmeticError Digits → Prop where
  | done (a : Digits) : Euclid limit a [] (.ok a)
  | failed {a b : Digits} {e : ArithmeticError} :
      b ≠ [] → a.divRem limit b = .error e → Euclid limit a b (.error e)
  | round {a b : Digits} {result : Digits × Digits} {outcome : Except ArithmeticError Digits} :
      b ≠ [] → a.divRem limit b = .ok result → Euclid limit b result.2 outcome →
        Euclid limit a b outcome

variable {limit : Nat} {a b : Digits}

/-- **A round keeps the common divisors.** -/
theorem gcd_of_divRem {result : Digits × Digits} (left : a.Canonical) (right : b.Canonical)
    (done : a.divRem limit b = .ok result) :
    Nat.gcd b.toNat result.2.toNat = Nat.gcd a.toNat b.toNat := by
  rw [(divRem_exact left right done).2, Nat.gcd_comm a.toNat, Nat.gcd_rec b.toNat a.toNat,
    Nat.gcd_comm]

/-- **The loop ends**: its second number falls in each round. -/
theorem euclid_ends {fuel : Nat} (left : a.Canonical) (right : b.Canonical)
    (enough : b.toNat < fuel) : Euclid limit a b (euclid limit fuel a b) := by
  induction fuel generalizing a b with
  | zero => exact absurd enough (Nat.not_lt_zero _)
  | succ fuel ih =>
      rw [euclid]
      split
      · rename_i empty
        rw [List.isEmpty_iff.mp empty]
        exact .done a
      · rename_i some
        have nonzero : b ≠ [] := fun empty => some (List.isEmpty_iff.mpr empty)
        cases done : a.divRem limit b with
        | error e => exact .failed nonzero done
        | ok result =>
            have division := isDivRem_of_divRem left right nonzero done
            refine .round nonzero done (ih right division.rest_canonical ?_)
            exact Nat.lt_of_lt_of_le division.below (Nat.le_of_lt_succ enough)

/-- There is one outcome only. -/
theorem Euclid.unique {first second : Except ArithmeticError Digits}
    (run : Euclid limit a b first) (other : Euclid limit a b second) : first = second := by
  induction run with
  | done a =>
      cases other with
      | done => rfl
      | failed nonzero => exact absurd rfl nonzero
      | round nonzero => exact absurd rfl nonzero
  | failed nonzero failed =>
      cases other with
      | done => exact absurd rfl nonzero
      | failed _ failed' => exact congrArg _ (Except.error.inj (failed.symm.trans failed'))
      | round _ done => exact absurd (failed.symm.trans done) nofun
  | round nonzero done _ ih =>
      cases other with
      | done => exact absurd rfl nonzero
      | failed _ failed => exact absurd (failed.symm.trans done) nofun
      | round _ done' rest =>
          obtain rfl := Except.ok.inj (done.symm.trans done')
          exact ih rest

/-- **The loop ends with the greatest common divisor.** -/
theorem Euclid.greatest {outcome : Except ArithmeticError Digits} (run : Euclid limit a b outcome)
    (left : a.Canonical) (right : b.Canonical) {divisor : Digits} (found : outcome = .ok divisor) :
    divisor.Canonical ∧ divisor.toNat = Nat.gcd a.toNat b.toNat := by
  induction run with
  | done a =>
      obtain rfl := Except.ok.inj found
      exact ⟨left, (Nat.gcd_zero_right _).symm⟩
  | failed => cases found
  | round nonzero done _ ih =>
      obtain ⟨canonical, value⟩ := ih right (canonical_of_divRem left done).2 found
      exact ⟨canonical, value.trans (gcd_of_divRem left right done)⟩

/-- **No round divides by zero**, and none needs more storage than one digit beyond the longer of
the two numbers that the loop starts with. -/
theorem Euclid.refused {outcome : Except ArithmeticError Digits} (run : Euclid limit a b outcome)
    (left : a.Canonical) (right : b.Canonical) {e : ArithmeticError} (failed : outcome = .error e) :
    limit ≤ max a.length b.length + 1 ∧ ∃ cause, e = .allocation cause := by
  induction run with
  | done => cases failed
  | failed nonzero stopped =>
      obtain rfl := Except.error.inj failed
      rcases divRem_error stopped with ⟨-, zero⟩ | ⟨-, full, refused⟩
      · exact absurd zero nonzero
      · exact ⟨by omega, refused⟩
  | round nonzero done _ ih =>
      have division := isDivRem_of_divRem left right nonzero done
      obtain ⟨full, refused⟩ := ih right division.rest_canonical failed
      have shorter := division.rest_canonical.length_le_of_toNat_le division.below.le
      exact ⟨by omega, refused⟩

/-- Where both numbers can be copied, the divisor is what the loop ends with. -/
theorem gcd_eq_of_grants (roomA : Storage.Grants limit a.length)
    (roomB : Storage.Grants limit b.length) : a.gcd limit b = euclid limit (b.toNat + 1) a b := by
  rw [gcd, roomA.copy_eq (Nat.le_refl _), roomB.copy_eq (Nat.le_refl _)]
  rfl

theorem euclid_of_gcd (left : a.Canonical) (right : b.Canonical) {divisor : Digits}
    (found : a.gcd limit b = .ok divisor) : Euclid limit a b (.ok divisor) := by
  obtain ⟨first, copied, found⟩ := bind_eq_ok_iff.mp found
  obtain ⟨second, copied', found⟩ := bind_eq_ok_iff.mp found
  obtain ⟨-, rfl⟩ := copy_eq_ok_iff.mp (liftAllocation_eq_ok_iff.mp copied)
  obtain ⟨-, rfl⟩ := copy_eq_ok_iff.mp (liftAllocation_eq_ok_iff.mp copied')
  exact found ▸ euclid_ends left right (Nat.lt_succ_self _)

theorem gcd_error (left : a.Canonical) (right : b.Canonical) {e : ArithmeticError}
    (failed : a.gcd limit b = .error e) :
    limit ≤ max a.length b.length + 1 ∧ ∃ cause, e = .allocation cause := by
  rcases bind_eq_error_iff.mp failed with stopped | ⟨first, copied, failed⟩
  · obtain ⟨cause, refused, rfl⟩ := liftAllocation_eq_error_iff.mp stopped
    have full := le_of_copy_error refused
    exact ⟨by omega, cause, rfl⟩
  · rcases bind_eq_error_iff.mp failed with stopped | ⟨second, copied', failed⟩
    · obtain ⟨cause, refused, rfl⟩ := liftAllocation_eq_error_iff.mp stopped
      have full := le_of_copy_error refused
      exact ⟨by omega, cause, rfl⟩
    · obtain ⟨-, rfl⟩ := copy_eq_ok_iff.mp (liftAllocation_eq_ok_iff.mp copied)
      obtain ⟨-, rfl⟩ := copy_eq_ok_iff.mp (liftAllocation_eq_ok_iff.mp copied')
      exact (euclid_ends left right (Nat.lt_succ_self _)).refused left right failed

end Digits

/-! ### Integers -/

namespace Integer

variable {limit : Nat} {a v : Integer} {b : Operand}

theorem toNat_operand (b : Operand) : b.normalize.digits.toNat = b.toInteger.toInt.natAbs := by
  rw [natAbs_toInt, b.digits_toInteger]

/-- The greatest common divisor takes no sign. -/
theorem negative_of_gcd (made : a.gcd limit b = .ok v) : v.negative = false := by
  obtain ⟨divisor, -, rfl⟩ := map_eq_ok_iff.mp made
  rfl

theorem toNat_of_gcd (left : a.Canonical) (right : b.Canonical) (made : a.gcd limit b = .ok v) :
    v.digits.toNat = Int.gcd a.toInt b.toInteger.toInt := by
  obtain ⟨divisor, found, rfl⟩ := map_eq_ok_iff.mp made
  obtain ⟨-, value⟩ :=
    (Digits.euclid_of_gcd left.1 right.normalize.1 found).greatest left.1 right.normalize.1 rfl
  rw [← natAbs_toInt a, toNat_operand] at value
  exact (Digits.toNat_trim divisor).trans value

/-- **The value of a greatest common divisor.** -/
theorem toInt_gcd (left : a.Canonical) (right : b.Canonical) (made : a.gcd limit b = .ok v) :
    v.toInt = Int.gcd a.toInt b.toInteger.toInt := by
  rw [toInt, negative_of_gcd made, if_neg Bool.false_ne_true, toNat_of_gcd left right made]

/-- **The value of a least common multiple**: the product divided by the greatest common divisor. -/
theorem toInt_lcm (left : a.Canonical) (right : b.Canonical) (made : a.lcm limit b = .ok v) :
    v.toInt = Int.lcm a.toInt b.toInteger.toInt := by
  simp only [lcm] at made
  split at made
  · rename_i zero
    obtain rfl := Except.ok.inj made
    rcases Bool.or_eq_true_iff.mp zero with zero | zero
    · rw [toInt_of_isZero zero, Int.zero_lcm]
      rfl
    · rw [← b.digits_toInteger] at zero
      rw [toInt_of_isZero zero, Int.lcm_zero]
      rfl
  · obtain ⟨divisor, found, made⟩ := bind_eq_ok_iff.mp made
    obtain ⟨product, multiplied, made⟩ := bind_eq_ok_iff.mp made
    obtain ⟨result, divided, made⟩ := bind_eq_ok_iff.mp made
    obtain rfl := Except.ok.inj made
    have multiplied := liftAllocation_eq_ok_iff.mp multiplied
    obtain ⟨quotient, -⟩ :=
      Digits.divRem_exact (Digits.canonical_of_mul multiplied) (canonical_gcd found).1 divided
    rw [toInt_ofMagnitude, quotient, Digits.toNat_of_mul multiplied, toNat_of_gcd left right found,
      ← natAbs_toInt a, toNat_operand]
    rfl

/-- The least common multiple takes no sign. -/
theorem negative_of_lcm (made : a.lcm limit b = .ok v) : v.negative = false := by
  simp only [lcm] at made
  split at made
  · exact Except.ok.inj made ▸ rfl
  · obtain ⟨divisor, -, made⟩ := bind_eq_ok_iff.mp made
    obtain ⟨product, -, made⟩ := bind_eq_ok_iff.mp made
    obtain ⟨result, -, made⟩ := bind_eq_ok_iff.mp made
    exact Except.ok.inj made ▸ rfl

/-- What a least common multiple can be refused: storage for a digit more than its product has. The
greatest common divisor that the product is divided by is not zero. -/
theorem lcm_error (left : a.Canonical) (right : b.Canonical) {e : ArithmeticError}
    (failed : a.lcm limit b = .error e) :
    limit ≤ a.digits.length + b.normalize.digits.length + 1 ∧ ∃ cause, e = .allocation cause := by
  simp only [lcm] at failed
  split at failed
  · cases failed
  · rename_i nonzero
    have some : a.digits ≠ [] := fun empty =>
      nonzero (Bool.or_eq_true_iff.mpr (.inl (List.isEmpty_iff.mpr empty)))
    rcases bind_eq_error_iff.mp failed with stopped | ⟨divisor, found, failed⟩
    · obtain ⟨full, refused⟩ := Digits.gcd_error left.1 right.normalize.1
        (map_eq_error_iff.mp stopped)
      exact ⟨by omega, refused⟩
    · rcases bind_eq_error_iff.mp failed with stopped | ⟨product, multiplied, failed⟩
      · obtain ⟨cause, refused, rfl⟩ := liftAllocation_eq_error_iff.mp stopped
        exact ⟨Nat.le_succ_of_le (Digits.le_of_mul_error refused), cause, rfl⟩
      · rcases bind_eq_error_iff.mp failed with stopped | ⟨result, -, impossible⟩
        · have short := Digits.length_le_of_mul (liftAllocation_eq_ok_iff.mp multiplied)
          rcases Digits.divRem_error stopped with ⟨-, empty⟩ | ⟨-, full, refused⟩
          · have value := toNat_of_gcd left right found
            rw [empty, Digits.toNat_nil, eq_comm, Int.gcd_eq_zero_iff, ← Int.natAbs_eq_zero,
              natAbs_toInt, left.1.toNat_eq_zero_iff] at value
            exact absurd value.1 some
          · exact ⟨by omega, refused⟩
        · cases impossible

/-! ### What they are -/

/-- What the greatest common divisor of two integers is, and that there is one. -/
structure GcdSound (limit : Nat) (a : Integer) (b : Operand) : Prop where
  /-- The loop ends, without a division by zero, and with the answer. -/
  ends : ∃ outcome, Digits.Euclid limit a.digits b.toInteger.digits outcome ∧
    (∀ other, Digits.Euclid limit a.digits b.toInteger.digits other → other = outcome) ∧
    outcome ≠ .error .divisionByZero ∧
    (Storage.Grants limit a.digits.length → Storage.Grants limit b.toInteger.digits.length →
      a.gcd limit b = outcome.map (ofMagnitude false))
  granted : Storage.Grants limit (a.digits.length + 1) →
    Storage.Grants limit (b.toInteger.digits.length + 1) → ∃ v, a.gcd limit b = .ok v
  refused : ∀ e, a.gcd limit b = .error e → ∃ cause, e = .allocation cause
  form : ∀ v, a.gcd limit b = .ok v → v.Canonical ∧ v.negative = false
  common : ∀ v, a.gcd limit b = .ok v → v.toInt ∣ a.toInt ∧ v.toInt ∣ b.toInteger.toInt
  greatest : ∀ v, a.gcd limit b = .ok v →
    ∀ d, d ∣ a.toInt → d ∣ b.toInteger.toInt → d ∣ v.toInt
  zeroLeft : a.toInt = 0 → ∀ v, a.gcd limit b = .ok v → v.toInt = |b.toInteger.toInt|
  zeroRight : b.toInteger.toInt = 0 → ∀ v, a.gcd limit b = .ok v → v.toInt = |a.toInt|

/-- What the least common multiple of two integers is, and that there is one. -/
structure LcmSound (limit : Nat) (a : Integer) (b : Operand) : Prop where
  granted : Storage.Grants limit (a.digits.length + b.toInteger.digits.length + 1) →
    ∃ v, a.lcm limit b = .ok v
  refused : ∀ e, a.lcm limit b = .error e → ∃ cause, e = .allocation cause
  form : ∀ v, a.lcm limit b = .ok v → v.Canonical ∧ v.negative = false
  common : ∀ v, a.lcm limit b = .ok v → a.toInt ∣ v.toInt ∧ b.toInteger.toInt ∣ v.toInt
  least : ∀ v, a.lcm limit b = .ok v →
    ∀ m, a.toInt ∣ m → b.toInteger.toInt ∣ m → v.toInt ∣ m
  zero : a.toInt = 0 ∨ b.toInteger.toInt = 0 → a.lcm limit b = .ok zero
  product : ∀ divisor multiple, a.gcd limit b = .ok divisor → a.lcm limit b = .ok multiple →
    divisor.toInt * multiple.toInt = |a.toInt * b.toInteger.toInt|

theorem gcdSound (left : a.Canonical) (right : b.Canonical) : GcdSound limit a b where
  ends := by
    rw [b.digits_toInteger]
    have run : Digits.Euclid limit a.digits b.normalize.digits _ :=
      Digits.euclid_ends left.1 right.normalize.1 (Nat.lt_succ_self _)
    refine ⟨_, run, fun other run' => run'.unique run, fun stopped => ?_, fun roomA roomB => ?_⟩
    · obtain ⟨-, cause, impossible⟩ := run.refused left.1 right.normalize.1 stopped
      cases impossible
    · rw [gcd, Digits.gcd_eq_of_grants roomA roomB]
  granted roomA roomB := by
    rw [b.digits_toInteger] at roomB
    have shortA := roomA.lt (Nat.succ_pos _)
    have shortB := roomB.lt (Nat.succ_pos _)
    cases made : a.gcd limit b with
    | ok v => exact ⟨v, rfl⟩
    | error e =>
        obtain ⟨full, -⟩ := Digits.gcd_error left.1 right.normalize.1 (map_eq_error_iff.mp made)
        omega
  refused e failed :=
    (Digits.gcd_error left.1 right.normalize.1 (map_eq_error_iff.mp failed)).2
  form _ made := ⟨canonical_gcd made, negative_of_gcd made⟩
  common v made := by
    rw [toInt_gcd left right made]
    exact ⟨Int.gcd_dvd_left _ _, Int.gcd_dvd_right _ _⟩
  greatest v made d divides divides' := by
    rw [toInt_gcd left right made]
    exact Int.dvd_coe_gcd divides divides'
  zeroLeft zero v made := by
    rw [toInt_gcd left right made, zero, Int.gcd_zero_left, Int.natCast_natAbs]
  zeroRight zero v made := by
    rw [toInt_gcd left right made, zero, Int.gcd_zero_right, Int.natCast_natAbs]

theorem lcmSound (left : a.Canonical) (right : b.Canonical) : LcmSound limit a b where
  granted room := by
    rw [b.digits_toInteger] at room
    cases made : a.lcm limit b with
    | ok v => exact ⟨v, rfl⟩
    | error e =>
        obtain ⟨full, -⟩ := lcm_error left right made
        exact absurd (room.lt (Nat.succ_pos _)) (Nat.not_lt.mpr full)
  refused e failed := (lcm_error left right failed).2
  form _ made := ⟨canonical_lcm made, negative_of_lcm made⟩
  common v made := by
    rw [toInt_lcm left right made]
    exact ⟨Int.dvd_lcm_left _ _, Int.dvd_lcm_right _ _⟩
  least v made m divides divides' := by
    rw [toInt_lcm left right made]
    exact Int.coe_lcm_dvd divides divides'
  zero zero := by
    have empty : (a.isZero || b.normalize.digits.isEmpty) = true := by
      rw [Bool.or_eq_true_iff, isZero, List.isEmpty_iff, List.isEmpty_iff,
        ← left.1.toNat_eq_zero_iff, ← right.normalize.1.toNat_eq_zero_iff, ← natAbs_toInt,
        toNat_operand, Int.natAbs_eq_zero, Int.natAbs_eq_zero]
      exact zero
    simp only [lcm, empty, if_true]
  product divisor multiple found made := by
    rw [toInt_gcd left right found, toInt_lcm left right made, ← Int.natCast_mul,
      Int.gcd_mul_lcm, ← Int.natAbs_mul, Int.natCast_natAbs]

end Integer

/-- **The greatest common divisor and the least common multiple are those of the values**, for any
signs and with zeros on either side. -/
theorem divisors_exact (limit : Nat) {a : Integer} {b : Operand} (left : a.Canonical)
    (right : b.Canonical) : Integer.GcdSound limit a b ∧ Integer.LcmSound limit a b :=
  ⟨Integer.gcdSound left right, Integer.lcmSound left right⟩

/-- Two negative sides of two digits each, one of them a word. -/
theorem divisors_exact_negative :
    let a : Integer := { negative := true, digits := [0, 6] }
    let b : Operand := .word true (BitVec.ofNat 128 276701161105643274240)
    let divisor : Integer := { negative := false, digits := [0, 3] }
    let multiple : Integer := { negative := false, digits := [0, 30] }
    a.Canonical ∧ b.Canonical ∧ b.toInteger = { negative := true, digits := [0, 15] } ∧
      a.gcd 6 b = .ok divisor ∧ a.lcm 6 b = .ok multiple ∧
      (divisor.toInt ∣ a.toInt ∧ divisor.toInt ∣ b.toInteger.toInt) ∧
      divisor.toInt * multiple.toInt = |a.toInt * b.toInteger.toInt| ∧
      ∃ outcome, Digits.Euclid 6 a.digits b.toInteger.digits outcome ∧
        a.gcd 6 b = outcome.map (Integer.ofMagnitude false) := by
  intro a b divisor multiple
  have canonical : a.Canonical := by decide
  obtain ⟨gcd, lcm⟩ := divisors_exact 6 canonical (b := b) trivial
  have value : b.toInteger = { negative := true, digits := [0, 15] } := by decide +kernel
  have found : a.gcd 6 b = .ok divisor := by decide +kernel
  have made : a.lcm 6 b = .ok multiple := by decide +kernel
  have room : Storage.Grants 6 b.toInteger.digits.length := by
    rw [value]
    exact Storage.grants_iff.mpr (by decide)
  obtain ⟨outcome, run, -, -, answer⟩ := gcd.ends
  exact ⟨canonical, trivial, value, found, made, gcd.common _ found, lcm.product _ _ found made,
    outcome, run, answer (Storage.grants_iff.mpr (by decide)) room⟩

end Bignum
