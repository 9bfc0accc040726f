import Bignum.Integer.Divisor
import Bignum.Integer.Step
import Bignum.Proofs.Digits.OneDigit
import Bignum.Proofs.Digits.Product
import Bignum.Proofs.Digits.Shift
import Bignum.Proofs.Integer.Canonical
import Bignum.Sharing.Registers

/-!
Results have fewer digits than storage can be refused for.

Whatever an operation answers was put into storage that was asked for, or is a part of what went in.
So the digits of a result are fewer than the limit (`length_checked_lt`, `length_pow_lt`, ...), and
a copy of it would never be refused.
-/

namespace Bignum

namespace Digits

variable {limit : Nat} {a b result : Digits}

/-! ### Lengths of passes -/

/-- Each row leaves a window as long as the factor, and one digit behind it. -/
theorem length_mulRows (a : Digits) {b window : Digits} (same : window.length = b.length) :
    (mulRows a b window).length = a.length + b.length := by
  induction a generalizing window with
  | nil => simp [mulRows, same]
  | cons x xs ih =>
      have next : ((mulRow x b window 0).1 ++ [(mulRow x b window 0).2]).tail.length =
          b.length := by
        simp [length_mulRow]
      simp only [mulRows, List.length_cons, ih next]
      omega

theorem length_divideWindows {divisor high : Digits} (low : Digits)
    (fits : high.length ≤ divisor.length) :
    (divideWindows divisor low high).1.length = low.length ∧
      (divideWindows divisor low high).2.length ≤ divisor.length := by
  induction low with
  | nil => exact ⟨rfl, fits⟩
  | cons d ds ih =>
      refine ⟨?_, ?_⟩
      · simp only [divideWindows, List.length_cons, ih.1]
      · simp only [divideWindows, List.length_take]
        exact Nat.min_le_left _ _

/-! ### Results -/

section Results

variable (positive : 0 < limit)

include positive

theorem length_copy_lt (done : a.copy limit = .ok result) : result.length < limit := by
  obtain ⟨granted, rfl⟩ := copy_eq_ok_iff.mp done
  exact Storage.lt_of_request positive granted

theorem length_add_lt (done : a.add limit b = .ok result) : result.length < limit := by
  obtain ⟨_, granted, made⟩ := bind_eq_ok_iff.mp done
  obtain rfl := Except.ok.inj made
  refine Nat.lt_of_le_of_lt (length_trim_le _) ?_
  rw [List.length_append, length_addPass]
  exact Storage.lt_of_request positive granted

theorem length_sub_lt {result : Digits × Bool} (done : a.sub limit b = .ok result) :
    result.1.length < limit := by
  obtain ⟨_, granted, made⟩ := bind_eq_ok_iff.mp done
  obtain rfl := Except.ok.inj made
  refine Nat.lt_of_le_of_lt (length_trim_le _) ?_
  rw [differencePass, length_subPass]
  exact Storage.lt_of_request positive granted

theorem length_shl_lt {bits : Nat} (done : a.shl limit bits = .ok result) :
    result.length < limit := by
  unfold shl at done
  split at done
  · obtain rfl := Except.ok.inj done
    exact positive
  · obtain ⟨_, granted, made⟩ := bind_eq_ok_iff.mp done
    obtain rfl := Except.ok.inj made
    refine Nat.lt_of_le_of_lt (length_trim_le _) ?_
    rw [List.length_append, List.length_append, List.length_replicate, length_shiftUp]
    exact Storage.lt_of_request positive granted

theorem length_shr_lt {bits : Nat} (done : a.shr limit bits = .ok result) :
    result.length < limit := by
  unfold shr at done
  split at done
  · obtain rfl := Except.ok.inj done
    exact positive
  · obtain ⟨_, granted, made⟩ := bind_eq_ok_iff.mp done
    obtain rfl := Except.ok.inj made
    refine Nat.lt_of_le_of_lt (length_trim_le _) ?_
    rw [length_shiftDown]
    exact Storage.lt_of_request positive granted

theorem length_lowBits_lt {bits : Nat} (done : a.lowBits limit bits = .ok result) :
    result.length < limit := by
  unfold lowBits at done
  split at done
  · exact length_copy_lt positive done
  · split at done
    · obtain ⟨kept, copied, rfl⟩ := map_eq_ok_iff.mp done
      exact Nat.lt_of_le_of_lt (length_trim_le _) (length_copy_lt positive copied)
    · obtain ⟨kept, copied, rfl⟩ := map_eq_ok_iff.mp done
      refine Nat.lt_of_le_of_lt (length_trim_le _) ?_
      rw [maskAt, List.length_modify]
      exact length_copy_lt positive copied

theorem length_mul_lt (done : a.mul limit b = .ok result) : result.length < limit := by
  unfold mul at done
  split at done
  · obtain rfl := Except.ok.inj done
    exact positive
  · split at done
    · exact length_shl_lt positive done
    · exact length_shl_lt positive done
    · obtain ⟨_, granted, made⟩ := bind_eq_ok_iff.mp done
      obtain rfl := Except.ok.inj made
      refine Nat.lt_of_le_of_lt (length_trim_le _) ?_
      rw [length_mulRows a List.length_replicate]
      exact Storage.lt_of_request positive granted

theorem length_divRemSchoolbook_lt {result : Digits × Digits}
    (done : divRemSchoolbook limit a b = .ok result) :
    result.1.length < limit ∧ result.2.length < limit := by
  obtain ⟨_, divisor, done⟩ := bind_eq_ok_iff.mp done
  obtain ⟨_, dividend, done⟩ := bind_eq_ok_iff.mp done
  obtain ⟨_, quotient, made⟩ := bind_eq_ok_iff.mp done
  obtain rfl := Except.ok.inj made
  have shorter := Storage.lt_of_request positive divisor
  have room := Storage.lt_of_request positive quotient
  generalize 64 - (b.getLastD 0).bitLength = bits at *
  have scaled := length_shiftUp bits b 0
  generalize (shiftUp bits a 0).1 ++ [(shiftUp bits a 0).2] = whole at *
  generalize (shiftUp bits b 0).1 = divisor' at *
  have lengths := length_divideWindows (whole.take (whole.length - divisor'.length))
    (show (whole.drop (whole.length - divisor'.length)).length ≤ divisor'.length by
      rw [List.length_drop]
      omega)
  refine ⟨Nat.lt_of_le_of_lt (length_trim_le _) ?_, Nat.lt_of_le_of_lt (length_trim_le _) ?_⟩
  · rw [lengths.1, List.length_take]
    omega
  · rw [length_shiftDown]
    omega

end Results

variable (large : 1 < limit)

include large

theorem length_divRem_lt {result : Digits × Digits} (done : a.divRem limit b = .ok result) :
    result.1.length < limit ∧ result.2.length < limit := by
  have positive : 0 < limit := Nat.lt_of_succ_lt large
  unfold divRem at done
  split at done
  · cases done
  · have done := liftAllocation_eq_ok_iff.mp done
    split at done
    · obtain ⟨rest, copied, rfl⟩ := map_eq_ok_iff.mp done
      exact ⟨positive, length_copy_lt positive copied⟩
    · split at done
      · obtain ⟨quotient, shifted, done⟩ := bind_eq_ok_iff.mp done
        obtain ⟨rest, masked, made⟩ := bind_eq_ok_iff.mp done
        obtain rfl := Except.ok.inj made
        exact ⟨length_shr_lt positive shifted, length_lowBits_lt positive masked⟩
      · obtain ⟨dividend, copied, rfl⟩ := map_eq_ok_iff.mp done
        refine ⟨Nat.lt_of_le_of_lt (length_trim_le _) ?_,
          Nat.lt_of_le_of_lt (length_trim_le _) large⟩
        rw [length_divRemDigit]
        exact length_copy_lt positive copied
      · exact length_divRemSchoolbook_lt positive done

theorem length_euclid_lt {fuel : Nat} (left : a.length < limit) (right : b.length < limit)
    (done : euclid limit fuel a b = .ok result) : result.length < limit := by
  induction fuel generalizing a b with
  | zero => exact Except.ok.inj done ▸ left
  | succ fuel ih =>
      unfold euclid at done
      split at done
      · exact Except.ok.inj done ▸ left
      · obtain ⟨divided, rest, done⟩ := bind_eq_ok_iff.mp done
        exact ih right (length_divRem_lt large rest).2 done

theorem length_gcd_lt (done : a.gcd limit b = .ok result) : result.length < limit := by
  have positive : 0 < limit := Nat.lt_of_succ_lt large
  obtain ⟨first, copied, done⟩ := bind_eq_ok_iff.mp done
  obtain ⟨second, copied', done⟩ := bind_eq_ok_iff.mp done
  exact length_euclid_lt large (length_copy_lt positive (liftAllocation_eq_ok_iff.mp copied))
    (length_copy_lt positive (liftAllocation_eq_ok_iff.mp copied')) done

omit large in
theorem length_stepUp_lt {shared : Bool} (short : a.length < limit)
    (done : a.stepUp limit shared = .ok result) : result.length < limit := by
  obtain ⟨_, granted, made⟩ := map_eq_ok_iff.mp done
  rw [← made, length_increment, widened]
  split
  · rename_i full
    rw [if_pos full] at granted
    rw [List.length_append, List.length_singleton]
    exact Storage.lt_of_request (Nat.lt_of_le_of_lt (Nat.zero_le _) short) granted
  · exact short

omit large in
theorem request_of_short (short : a.length < limit) (shared : Bool) :
    Storage.request limit (if shared then a.length else 0) = .ok () := by
  refine Storage.request_eq_ok_iff.mpr ?_
  split
  · exact .inr short
  · exact .inl rfl

omit large in
/-- Where a copy would be granted, a step does not tell shared digits from others. -/
theorem stepUp_of_short (short : a.length < limit) (shared : Bool) :
    a.stepUp limit shared = a.stepUp limit false := by
  simp only [stepUp]
  split
  · rfl
  · rw [request_of_short short, request_of_short short]

omit large in
theorem stepDown_of_short (short : a.length < limit) (shared : Bool) :
    a.stepDown limit shared = a.stepDown limit false := by
  rw [stepDown, request_of_short short, stepDown, request_of_short short]

omit large in
theorem length_stepDown_lt {shared : Bool} (short : a.length < limit)
    (done : a.stepDown limit shared = .ok result) : result.length < limit := by
  rw [← stepDown_eq done]
  refine Nat.lt_of_le_of_lt (length_trim_le _) ?_
  rwa [length_decrement]

omit large in
theorem length_powLoop_lt (positive : 0 < limit) {power base : Digits} {exponent : Nat}
    (short : power.length < limit) (done : powLoop limit power base exponent = .ok result) :
    result.length < limit := by
  induction exponent using Nat.strongRecOn generalizing power base with
  | ind exponent ih =>
      rw [powLoop] at done
      obtain ⟨multiplied, product, done⟩ := bind_eq_ok_iff.mp done
      have shorter : multiplied.length < limit := by
        split at product
        · exact length_mul_lt positive product
        · exact Except.ok.inj product ▸ short
      split at done
      · exact Except.ok.inj done ▸ shorter
      · rename_i more
        obtain ⟨squared, -, done⟩ := bind_eq_ok_iff.mp done
        exact ih (exponent / 2) (by omega) shorter done

end Digits

/-! ### Integers -/

namespace Integer

variable {limit : Nat} {a v : Integer} {b : Operand}

theorem length_ofMagnitude_lt {negative : Bool} {ds : Digits} (short : ds.length < limit) :
    (ofMagnitude negative ds).digits.length < limit :=
  Nat.lt_of_le_of_lt (Digits.length_trim_le ds) short

section Steps

variable {shared : Bool} (short : a.digits.length < limit)

include short

theorem increment_of_short (shared : Bool) :
    a.increment limit shared = a.increment limit false := by
  unfold increment
  rw [Digits.stepUp_of_short short shared, Digits.stepDown_of_short short shared]

theorem decrement_of_short (shared : Bool) :
    a.decrement limit shared = a.decrement limit false := by
  unfold decrement
  rw [Digits.stepUp_of_short short shared, Digits.stepDown_of_short short shared]

theorem length_increment_lt (made : a.increment limit shared = .ok v) :
    v.digits.length < limit := by
  have made := liftAllocation_eq_ok_iff.mp made
  split at made
  · obtain ⟨digits, stepped, rfl⟩ := map_eq_ok_iff.mp made
    exact Digits.length_stepDown_lt short stepped
  · obtain ⟨digits, stepped, rfl⟩ := map_eq_ok_iff.mp made
    exact Digits.length_stepUp_lt short stepped

theorem length_decrement_lt (made : a.decrement limit shared = .ok v) :
    v.digits.length < limit := by
  have made := liftAllocation_eq_ok_iff.mp made
  split at made
  · obtain ⟨digits, stepped, rfl⟩ := map_eq_ok_iff.mp made
    exact Digits.length_stepUp_lt short stepped
  · obtain ⟨digits, stepped, rfl⟩ := map_eq_ok_iff.mp made
    exact Digits.length_stepDown_lt short stepped

end Steps

section Positive

variable (positive : 0 < limit)

include positive

theorem length_ofDigits_lt {negative : Bool} {digits : Digits}
    (made : ofDigits limit negative digits = .ok v) : v.digits.length < limit := by
  obtain ⟨kept, copied, rfl⟩ := map_eq_ok_iff.mp (liftAllocation_eq_ok_iff.mp made)
  exact Digits.length_copy_lt positive copied

theorem length_addSigned_lt {negative : Bool} {digits : Digits}
    (made : a.addSigned limit negative digits = .ok v) : v.digits.length < limit := by
  unfold addSigned at made
  split at made
  · obtain ⟨kept, copied, rfl⟩ := map_eq_ok_iff.mp made
    exact Digits.length_copy_lt positive copied
  · split at made
    · obtain ⟨kept, copied, rfl⟩ := map_eq_ok_iff.mp made
      exact Digits.length_copy_lt positive copied
    · split at made
      · obtain ⟨sum, added, rfl⟩ := map_eq_ok_iff.mp made
        exact length_ofMagnitude_lt (Digits.length_add_lt positive added)
      · obtain ⟨difference, taken, rfl⟩ := map_eq_ok_iff.mp made
        exact length_ofMagnitude_lt (Digits.length_sub_lt positive taken)

theorem length_shl_lt {bits : Nat} (made : a.shl limit bits = .ok v) :
    v.digits.length < limit := by
  obtain ⟨digits, shifted, rfl⟩ := map_eq_ok_iff.mp (liftAllocation_eq_ok_iff.mp made)
  exact length_ofMagnitude_lt (Digits.length_shl_lt positive shifted)

theorem length_shr_lt {bits : Nat} (made : a.shr limit bits = .ok v) :
    v.digits.length < limit := by
  obtain ⟨digits, shifted, rfl⟩ := map_eq_ok_iff.mp (liftAllocation_eq_ok_iff.mp made)
  exact length_ofMagnitude_lt (Digits.length_shr_lt positive shifted)

/-- Only a product with `1` or `-1` takes its digits over without asking for storage. -/
theorem length_mul_lt (left : a.digits.length < limit) (made : a.mul limit b = .ok v) :
    v.digits.length < limit := by
  simp only [mul] at made
  split at made
  · exact Except.ok.inj made ▸ positive
  · split at made
    · exact Except.ok.inj made ▸ left
    · obtain ⟨product, multiplied, rfl⟩ := map_eq_ok_iff.mp (liftAllocation_eq_ok_iff.mp made)
      exact length_ofMagnitude_lt (Digits.length_mul_lt positive multiplied)

end Positive

section Large

variable (large : 1 < limit)

include large

theorem length_divRem_lt {result : Integer × Integer} (made : a.divRem limit b = .ok result) :
    result.1.digits.length < limit ∧ result.2.digits.length < limit := by
  obtain ⟨digits, divided, rfl⟩ := map_eq_ok_iff.mp made
  have short := Digits.length_divRem_lt large divided
  exact ⟨length_ofMagnitude_lt short.1, length_ofMagnitude_lt short.2⟩

theorem length_checked_lt {op : Operator} (left : a.digits.length < limit)
    (made : op.checked limit a b = .ok v) : v.digits.length < limit := by
  have positive : 0 < limit := Nat.lt_of_succ_lt large
  cases op with
  | add => exact length_addSigned_lt positive (liftAllocation_eq_ok_iff.mp made)
  | sub => exact length_addSigned_lt positive (liftAllocation_eq_ok_iff.mp made)
  | mul => exact length_mul_lt positive left made
  | div =>
      obtain ⟨result, divided, rfl⟩ := map_eq_ok_iff.mp made
      exact (length_divRem_lt large divided).1
  | rem =>
      obtain ⟨result, divided, rfl⟩ := map_eq_ok_iff.mp made
      exact (length_divRem_lt large divided).2

theorem length_pow_lt {exponent : Nat} (made : a.pow limit exponent = .ok v) :
    v.digits.length < limit := by
  unfold pow at made
  split at made
  · exact Except.ok.inj made ▸ large
  · split at made
    · exact Except.ok.inj made ▸ Nat.lt_of_succ_lt large
    · obtain ⟨base, -, made⟩ := bind_eq_ok_iff.mp (liftAllocation_eq_ok_iff.mp made)
      obtain ⟨result, raised, made⟩ := bind_eq_ok_iff.mp made
      have short := Digits.length_powLoop_lt (Nat.lt_of_succ_lt large)
        (show ([1] : Digits).length < limit from large) raised
      exact Except.ok.inj made ▸ length_ofMagnitude_lt short

theorem length_gcd_lt (made : a.gcd limit b = .ok v) : v.digits.length < limit := by
  obtain ⟨digits, found, rfl⟩ := map_eq_ok_iff.mp made
  exact length_ofMagnitude_lt (Digits.length_gcd_lt large found)

theorem length_lcm_lt (made : a.lcm limit b = .ok v) : v.digits.length < limit := by
  simp only [lcm] at made
  split at made
  · exact Except.ok.inj made ▸ Nat.lt_of_succ_lt large
  · obtain ⟨divisor, -, made⟩ := bind_eq_ok_iff.mp made
    obtain ⟨product, -, made⟩ := bind_eq_ok_iff.mp made
    obtain ⟨result, divided, made⟩ := bind_eq_ok_iff.mp made
    exact Except.ok.inj made ▸ length_ofMagnitude_lt (Digits.length_divRem_lt large divided).1

end Large

end Integer

/-- Whatever a function of two integers answers is canonical and has room. -/
theorem BinaryFn.checked_canonical {limit : Nat} (large : 1 < limit) {fn : BinaryFn}
    {a v : Integer} {b : Operand} (left : a.Canonical ∧ a.digits.length < limit)
    (right : b.Canonical) (made : fn.checked limit a b = .ok v) :
    v.Canonical ∧ v.digits.length < limit := by
  cases fn with
  | operator op =>
      exact ⟨left.1.checked right made, Integer.length_checked_lt large left.2 made⟩
  | gcd => exact ⟨Integer.canonical_gcd made, Integer.length_gcd_lt large made⟩
  | lcm => exact ⟨Integer.canonical_lcm made, Integer.length_lcm_lt large made⟩

end Bignum
