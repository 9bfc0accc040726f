import Bignum.Digits.Quotient
import Bignum.Proofs.Digits.OneDigit
import Bignum.Proofs.Digits.Schoolbook

/-!
Division of digit sequences, by their numbers.

* `divRem_exact`: the quotient and the remainder are those of the numbers, whichever of the four
  ways they are found. Their digits are canonical (`canonical_of_divRem`).
* `divRem_eq_divisionByZero_iff`: division by zero is told by the divisor alone.
* `divRem_error`: nothing else keeps a division from having a result than storage for one digit more
  than the dividend has.
-/

namespace Bignum.Digits

variable {limit : Nat} {n d : Digits} {result : Digits × Digits}

/-- What is left to the schoolbook method has two digits at least. -/
theorem two_le_length (nonzero : ¬ d.isEmpty = true) (several : ∀ digit, d = [digit] → False) :
    2 ≤ d.length := by
  match d, nonzero, several with
  | [], nonzero, _ => exact absurd rfl nonzero
  | [digit], _, several => exact (several digit rfl).elim
  | _ :: _ :: ds, _, _ => exact Nat.le_add_left 2 ds.length

/-- **Division is exact**, whichever way it is done. -/
theorem divRem_exact (left : n.Canonical) (right : d.Canonical)
    (done : n.divRem limit d = .ok result) :
    result.1.toNat = n.toNat / d.toNat ∧ result.2.toNat = n.toNat % d.toNat := by
  unfold divRem at done
  split at done
  · cases done
  · rename_i nonzero
    have done := liftAllocation_eq_ok_iff.mp done
    split at done
    · rename_i less
      have smaller : n.toNat < d.toNat :=
        Nat.compare_eq_lt.mp ((compare_eq left right).symm.trans (eq_of_beq less))
      obtain ⟨rest, copied, rfl⟩ := map_eq_ok_iff.mp done
      obtain ⟨-, rfl⟩ := copy_eq_ok_iff.mp copied
      exact ⟨(Nat.div_eq_of_lt smaller).symm, (Nat.mod_eq_of_lt smaller).symm⟩
    · rename_i notLess
      split at done
      · rename_i power
        obtain ⟨quotient, shifted, done⟩ := bind_eq_ok_iff.mp done
        obtain ⟨rest, masked, made⟩ := bind_eq_ok_iff.mp done
        obtain rfl := Except.ok.inj made
        rw [toNat_of_powerOfTwo? power]
        exact ⟨toNat_of_shr shifted, toNat_of_lowBits masked⟩
      · rename_i divisor _
        obtain ⟨dividend, copied, rfl⟩ := map_eq_ok_iff.mp done
        obtain ⟨-, rfl⟩ := copy_eq_ok_iff.mp copied
        obtain ⟨quotient, rest⟩ := toNat_divRemDigit (canonical_singleton.mp right) n
        simp only [toNat_trim, toNat_cons, toNat_nil, Nat.mul_zero, Nat.add_zero]
        exact ⟨quotient, rest⟩
      · rename_i several _ _
        have long := two_le_length nonzero several
        have notShorter := length_le_of_compare_ne_lt fun less => notLess (beq_iff_eq.mpr less)
        exact divRemSchoolbook_exact right long notShorter done

theorem canonical_of_divRem (left : n.Canonical) (done : n.divRem limit d = .ok result) :
    result.1.Canonical ∧ result.2.Canonical := by
  unfold divRem at done
  split at done
  · cases done
  · have done := liftAllocation_eq_ok_iff.mp done
    split at done
    · obtain ⟨rest, copied, rfl⟩ := map_eq_ok_iff.mp done
      obtain ⟨-, rfl⟩ := copy_eq_ok_iff.mp copied
      exact ⟨canonical_nil, left⟩
    · split at done
      · obtain ⟨quotient, shifted, done⟩ := bind_eq_ok_iff.mp done
        obtain ⟨rest, masked, made⟩ := bind_eq_ok_iff.mp done
        obtain rfl := Except.ok.inj made
        exact ⟨canonical_of_shr shifted, canonical_of_lowBits left masked⟩
      · obtain ⟨dividend, -, rfl⟩ := map_eq_ok_iff.mp done
        exact ⟨canonical_trim _, canonical_trim _⟩
      · obtain ⟨_, -, done⟩ := bind_eq_ok_iff.mp done
        obtain ⟨_, -, done⟩ := bind_eq_ok_iff.mp done
        obtain ⟨_, -, made⟩ := bind_eq_ok_iff.mp done
        obtain rfl := Except.ok.inj made
        exact ⟨canonical_trim _, canonical_trim _⟩

/-! ### Divisions without a result -/

theorem le_of_divRemSchoolbook_error {cause : AllocationError} (le : d.length ≤ n.length)
    (refused : divRemSchoolbook limit n d = .error cause) : limit ≤ n.length + 1 := by
  rcases bind_eq_error_iff.mp refused with refused | ⟨_, -, refused⟩
  · exact Nat.le_trans (Storage.le_of_request_error refused) (Nat.succ_le_succ le)
  · rcases bind_eq_error_iff.mp refused with refused | ⟨_, -, refused⟩
    · exact Storage.le_of_request_error refused
    · rcases bind_eq_error_iff.mp refused with refused | ⟨_, -, impossible⟩
      · have full := Storage.le_of_request_error refused
        rw [List.length_append, length_shiftUp, List.length_singleton] at full
        exact Nat.le_trans full (Nat.sub_le _ _)
      · cases impossible

/-- A division has no result only if the divisor is zero or storage is refused, for no more than one
digit more than the dividend has. -/
theorem divRem_error {e : ArithmeticError} (failed : n.divRem limit d = .error e) :
    e = .divisionByZero ∧ d = [] ∨
      d ≠ [] ∧ limit ≤ n.length + 1 ∧ ∃ cause, e = .allocation cause := by
  unfold divRem at failed
  split at failed
  · rename_i empty
    exact .inl ⟨(Except.error.inj failed).symm, List.isEmpty_iff.mp empty⟩
  · rename_i nonempty
    obtain ⟨cause, refused, rfl⟩ := liftAllocation_eq_error_iff.mp failed
    refine .inr ⟨fun empty => nonempty (List.isEmpty_iff.mpr empty), ?_, cause, rfl⟩
    split at refused
    · exact Nat.le_succ_of_le (le_of_copy_error (map_eq_error_iff.mp refused))
    · rename_i notLess
      split at refused
      · rcases bind_eq_error_iff.mp refused with refused | ⟨_, -, refused⟩
        · exact Nat.le_succ_of_le (le_of_shr_error refused)
        · rcases bind_eq_error_iff.mp refused with refused | ⟨_, -, impossible⟩
          · exact Nat.le_succ_of_le (le_of_lowBits_error refused)
          · cases impossible
      · exact Nat.le_succ_of_le (le_of_copy_error (map_eq_error_iff.mp refused))
      · have notShorter := length_le_of_compare_ne_lt fun less => notLess (beq_iff_eq.mpr less)
        exact le_of_divRemSchoolbook_error notShorter refused

/-- **Only a divisor that is zero is a division by zero**, and it is whatever is divided. -/
theorem divRem_eq_divisionByZero_iff :
    n.divRem limit d = .error .divisionByZero ↔ d = [] := by
  constructor
  · intro failed
    rcases divRem_error failed with ⟨-, zero⟩ | ⟨-, -, cause, impossible⟩
    · exact zero
    · cases impossible
  · rintro rfl
    rfl

/-- A division has a result where there is room for it. -/
theorem exists_divRem (nonzero : d ≠ []) (room : n.length + 1 < limit) :
    ∃ result, n.divRem limit d = .ok result := by
  cases done : n.divRem limit d with
  | ok result => exact ⟨result, rfl⟩
  | error e =>
      rcases divRem_error done with ⟨-, zero⟩ | ⟨-, full, -⟩
      · exact absurd zero nonzero
      · exact absurd room (Nat.not_lt.mpr full)

end Bignum.Digits
