import Bignum.Digits.Product
import Bignum.Proofs.Digits.Bits
import Bignum.Proofs.Digits.Sum

/-!
Products of digit sequences, by their numbers.

* `Digit.row_total_lt`: no place of a row totals more than two digits hold.
* `Digits.toNat_mulRow`: a row adds the multiple of its factor, and nothing is lost.
* `Digits.toNat_of_mul`: a product is exact, whether it is made by a shift or row by row. Its digits
  are canonical (`Digits.canonical_of_mul`), and it is only refused for want of the digits of both
  factors together (`Digits.le_of_mul_error`).
* `Digits.toNat_of_mulAddDigit`: the same for multiplying by one digit in place, which grows only by
  a digit that the others cannot hold (`Digits.carry_eq_zero_iff`) and is refused only for want of
  that one (`Digits.mulAddDigit_eq_error_iff`).
-/

namespace Bignum

/-- A product of two digits and two digits more fit into two digits. -/
theorem Digit.row_total_lt (w f y c : Digit) :
    w.toNat + f.toNat * y.toNat + c.toNat < base * base := by
  have window := toNat_lt_base w
  have carry := toNat_lt_base c
  simp only [base] at window carry ⊢
  have product : f.toNat * y.toNat ≤ 18446744073709551615 * 18446744073709551615 :=
    Nat.mul_le_mul (Nat.le_of_lt_succ (toNat_lt_base f)) (Nat.le_of_lt_succ (toNat_lt_base y))
  omega

namespace Digits

theorem length_mulRow (factor : Digit) (b window : Digits) (carry : Digit) :
    (mulRow factor b window carry).1.length = b.length := by
  induction b generalizing window carry with
  | nil => rfl
  | cons y ys ih => simp [mulRow, ih]

/-- **A row multiplies exactly.** What its digits cannot hold is in the digit carried out. -/
theorem toNat_mulRow (factor : Digit) {b window : Digits} (short : window.length ≤ b.length)
    (carry : Digit) :
    (mulRow factor b window carry).1.toNat +
        Digit.base ^ b.length * (mulRow factor b window carry).2.toNat =
      window.toNat + factor.toNat * b.toNat + carry.toNat := by
  induction b generalizing window carry with
  | nil =>
      rw [List.length_eq_zero_iff.mp (Nat.le_zero.mp short)]
      simp [mulRow]
  | cons y ys ih =>
      have here := Digit.split_toNat (Digit.row_total_lt (window.headD 0) factor y carry)
      have shorter : window.tail.length ≤ ys.length := by
        simp only [List.length_tail, List.length_cons] at *
        omega
      have above := ih shorter
        (Digit.split ((window.headD 0).toNat + factor.toNat * y.toNat + carry.toNat)).2
      rw [toNat_eq_headD_add_tail window]
      simp only [mulRow, toNat_cons, List.length_cons, pow_succ]
      linear_combination here + Digit.base * above

/-- Row by row, the rows below a window are final. -/
theorem toNat_mulRows (a : Digits) {b window : Digits} (same : window.length = b.length) :
    (mulRows a b window).toNat = a.toNat * b.toNat + window.toNat := by
  induction a generalizing window with
  | nil => simp [mulRows]
  | cons x xs ih =>
      have row := toNat_mulRow x same.le 0
      have length : ((mulRow x b window 0).1 ++ [(mulRow x b window 0).2]).tail.length =
          b.length := by
        simp [length_mulRow]
      have sum := toNat_eq_headD_add_tail ((mulRow x b window 0).1 ++ [(mulRow x b window 0).2])
      rw [toNat_append, length_mulRow, toNat_cons, toNat_nil, Nat.mul_zero, Nat.add_zero, row,
        UInt64.toNat_zero, Nat.add_zero] at sum
      rw [mulRows, toNat_cons, ih length, toNat_cons]
      linear_combination -sum

section Mul

variable {limit : Nat} {a b result : Digits}

/-- **A product is exact.** -/
theorem toNat_of_mul (done : a.mul limit b = .ok result) :
    result.toNat = a.toNat * b.toNat := by
  unfold mul at done
  split at done
  · rename_i empty
    obtain rfl := Except.ok.inj done
    rcases Bool.or_eq_true_iff.mp empty with empty | empty
    · rw [List.isEmpty_iff.mp empty, toNat_nil, Nat.zero_mul]
    · rw [List.isEmpty_iff.mp empty, toNat_nil, Nat.mul_zero]
  · split at done
    · rename_i power
      rw [toNat_of_shl done, toNat_of_powerOfTwo? power]
    · rename_i power
      rw [toNat_of_shl done, toNat_of_powerOfTwo? power, Nat.mul_comm]
    · obtain ⟨_, -, made⟩ := bind_eq_ok_iff.mp done
      obtain rfl := Except.ok.inj made
      rw [toNat_trim, toNat_mulRows a List.length_replicate, toNat_replicate_zero, Nat.add_zero]

theorem canonical_of_mul (done : a.mul limit b = .ok result) : result.Canonical := by
  unfold mul at done
  split at done
  · obtain rfl := Except.ok.inj done
    exact canonical_nil
  · split at done
    · exact canonical_of_shl done
    · exact canonical_of_shl done
    · obtain ⟨_, -, made⟩ := bind_eq_ok_iff.mp done
      exact Except.ok.inj made ▸ canonical_trim _

theorem length_le_of_mul (done : a.mul limit b = .ok result) :
    result.length ≤ a.length + b.length := by
  rw [(canonical_of_mul done).length_le_iff, toNat_of_mul done, pow_add]
  exact Nat.mul_lt_mul'' a.toNat_lt_pow_length b.toNat_lt_pow_length

/-- A product has at most one digit less than both factors have together. -/
theorem Canonical.length_add_length_le (left : a.Canonical) (right : b.Canonical) (someA : a ≠ [])
    (someB : b ≠ []) {m : Nat} (small : a.toNat * b.toNat < Digit.base ^ m) :
    a.length + b.length ≤ m + 1 := by
  have large := Nat.mul_le_mul (left.pow_le_toNat someA) (right.pow_le_toNat someB)
  rw [← pow_add] at large
  have fewer := (Nat.pow_lt_pow_iff_right (by decide)).mp (Nat.lt_of_le_of_lt large small)
  omega

/-- A product is only refused the digits of both factors together. -/
theorem le_of_mul_error {cause : AllocationError} (refused : a.mul limit b = .error cause) :
    limit ≤ a.length + b.length := by
  unfold mul at refused
  split at refused
  · cases refused
  · split at refused
    · rename_i power
      have short := lt_of_powerOfTwo? power
      have long := le_of_shl_error refused
      omega
    · rename_i power
      have short := lt_of_powerOfTwo? power
      have long := le_of_shl_error refused
      omega
    · rcases bind_eq_error_iff.mp refused with refused | ⟨_, -, impossible⟩
      · exact Storage.le_of_request_error refused
      · cases impossible

/-- **A product is refused exactly if the digits of both factors are**, also when it is a shift. -/
theorem mul_eq_error_iff (left : a.Canonical) (right : b.Canonical) {cause : AllocationError} :
    a.mul limit b = .error cause ↔
      (a ≠ [] ∧ b ≠ []) ∧ Storage.request limit (a.length + b.length) = .error cause := by
  by_cases nonzero : a ≠ [] ∧ b ≠ []
  · have some : ¬ (a.isEmpty || b.isEmpty) = true := by
      simpa [not_or] using nonzero
    rw [mul, if_neg some]
    split
    · rename_i power
      have moved := div_of_powerOfTwo? right power
      rw [shl_eq_error_iff, show _ / 64 + a.length + 1 = a.length + b.length by omega]
      exact and_congr_left fun _ => ⟨fun _ => nonzero, fun _ => nonzero.1⟩
    · rename_i power
      have moved := div_of_powerOfTwo? left power
      rw [shl_eq_error_iff, show _ / 64 + b.length + 1 = a.length + b.length by omega]
      exact and_congr_left fun _ => ⟨fun _ => nonzero, fun _ => nonzero.2⟩
    · refine bind_eq_error_iff.trans ⟨?_, fun both => .inl both.2⟩
      rintro (refused | ⟨_, -, impossible⟩)
      · exact ⟨nonzero, refused⟩
      · cases impossible
  · have zero : (a.isEmpty || b.isEmpty) = true := by
      rw [Bool.or_eq_true_iff, List.isEmpty_iff, List.isEmpty_iff]
      exact Decidable.or_iff_not_not_and_not.mpr nonzero
    rw [mul, if_pos zero]
    exact ⟨nofun, fun both => absurd both.1 nonzero⟩

/-- **The factors of a product can be exchanged**: the result is the same, or the refusal. -/
theorem mul_exchange (left : a.Canonical) (right : b.Canonical) :
    a.mul limit b = b.mul limit a := by
  have refusals (cause : AllocationError) :
      a.mul limit b = .error cause ↔ b.mul limit a = .error cause := by
    rw [mul_eq_error_iff left right, mul_eq_error_iff right left, and_comm (a := a ≠ []),
      Nat.add_comm]
  cases done : a.mul limit b with
  | error cause => exact ((refusals cause).mp done).symm
  | ok result =>
      cases done' : b.mul limit a with
      | error cause => exact absurd ((refusals cause).mpr done') (done ▸ nofun)
      | ok result' =>
          refine congrArg Except.ok
            ((canonical_of_mul done).eq_of_toNat_eq (canonical_of_mul done') ?_)
          rw [toNat_of_mul done, toNat_of_mul done', Nat.mul_comm]

end Mul

section MulAddDigit

/-- A row of nothing but a product and what is added to it. -/
theorem toNat_mulRow_nil (factor addend : Digit) (ds : Digits) :
    (mulRow factor ds [] addend).1.toNat +
        Digit.base ^ ds.length * (mulRow factor ds [] addend).2.toNat =
      ds.toNat * factor.toNat + addend.toNat := by
  have row := toNat_mulRow factor (show ([] : Digits).length ≤ ds.length from Nat.zero_le _) addend
  rwa [toNat_nil, Nat.zero_add, Nat.mul_comm factor.toNat] at row

/-- **A digit is carried out of the top exactly if the digits there are cannot hold the number.** -/
theorem carry_eq_zero_iff (factor addend : Digit) (ds : Digits) :
    (mulRow factor ds [] addend).2 = 0 ↔
      ds.toNat * factor.toNat + addend.toNat < Digit.base ^ ds.length := by
  have small := toNat_lt_pow_length (mulRow factor ds [] addend).1
  rw [length_mulRow] at small
  rw [Digit.eq_zero_iff_toNat, ← toNat_mulRow_nil]
  constructor
  · intro nothing
    rwa [nothing, Nat.mul_zero, Nat.add_zero]
  · intro fits
    by_contra carried
    have large := Nat.le_mul_of_pos_right (Digit.base ^ ds.length) (Nat.pos_of_ne_zero carried)
    omega

variable {limit room : Nat} {ds result : Digits} {factor addend : Digit}

/-- The digit that is carried is put on top of the others, if it is not zero. -/
theorem eq_of_mulAddDigit (done : ds.mulAddDigit limit room factor addend = .ok result) :
    result = (mulRow factor ds [] addend).1 ++
      if (mulRow factor ds [] addend).2 = 0 then [] else [(mulRow factor ds [] addend).2] := by
  simp only [mulAddDigit] at done
  split at done
  · rename_i nothing
    rw [if_pos nothing, List.append_nil]
    exact (Except.ok.inj done).symm
  · rename_i carried
    obtain ⟨_, -, done⟩ := bind_eq_ok_iff.mp done
    rw [if_neg carried]
    exact (Except.ok.inj done).symm

theorem toNat_of_mulAddDigit (done : ds.mulAddDigit limit room factor addend = .ok result) :
    result.toNat = ds.toNat * factor.toNat + addend.toNat := by
  rw [eq_of_mulAddDigit done, toNat_append, length_mulRow, ← toNat_mulRow_nil]
  split
  · rename_i nothing
    rw [nothing]
    rfl
  · rw [toNat_cons, toNat_nil, Nat.mul_zero, Nat.add_zero]

theorem length_eq_of_mulAddDigit (done : ds.mulAddDigit limit room factor addend = .ok result) :
    result.length = ds.length + if (mulRow factor ds [] addend).2 = 0 then 0 else 1 := by
  rw [eq_of_mulAddDigit done, List.length_append, length_mulRow]
  split
  · rfl
  · rfl

theorem length_of_mulAddDigit (done : ds.mulAddDigit limit room factor addend = .ok result) :
    result.length ≤ ds.length + 1 := by
  rw [length_eq_of_mulAddDigit done]
  split
  · exact Nat.le_succ _
  · exact Nat.le_refl _

/-- There is no other reason to refuse a product in place than the digit that it grows by. -/
theorem mulAddDigit_eq_error_iff {cause : AllocationError} :
    ds.mulAddDigit limit room factor addend = .error cause ↔
      (mulRow factor ds [] addend).2 ≠ 0 ∧
        Storage.grow limit room (ds.length + 1) = .error cause := by
  simp only [mulAddDigit]
  split
  · rename_i nothing
    exact ⟨nofun, fun both => absurd nothing both.1⟩
  · rename_i carried
    refine bind_eq_error_iff.trans ⟨?_, fun both => .inl both.2⟩
    rintro (refused | ⟨_, -, impossible⟩)
    · exact ⟨carried, refused⟩
    · cases impossible

theorem le_of_mulAddDigit_error {cause : AllocationError}
    (refused : ds.mulAddDigit limit room factor addend = .error cause) :
    limit ≤ Storage.mostRoom ds.length :=
  Storage.le_of_grow_error (mulAddDigit_eq_error_iff.mp refused).2

end MulAddDigit

end Digits

end Bignum
