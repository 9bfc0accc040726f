import Bignum.Digits.Basic
import Bignum.Proofs.Digits.Shift

/-!
The binary form of digit sequences, by the numbers they write.

* `Digit.toNat_lt_pow_bitLength`: a digit is below the power of two of its number of bits.
* `toNat_of_powerOfTwo?`: a sequence that is taken for a power of two is one, and the exponent is
  that of a bit of its top digit (`lt_of_powerOfTwo?`, `div_of_powerOfTwo?`).
* `Canonical.bitLength_le_iff`, `lowestBit?_eq_some_iff`, `Canonical.powerOfTwo?_eq_some_iff`: each
  answer is fixed by the number that is written.
* `bitLength_of_shl`, `lowestBit?_of_shl`, `powerOfTwo?_of_shl`: a shift up adds its bits to each
  answer.
-/

namespace Bignum

/-! ### Powers of two that divide -/

section Dividing

variable {n k : Nat}

/-- A power of two divides the numbers that have no bit below it. -/
theorem two_pow_dvd_iff : 2 ^ k ∣ n ↔ ∀ j < k, n.testBit j = false := by
  rw [Nat.dvd_iff_mod_eq_zero]
  constructor
  · intro rest j below
    have bit := Nat.testBit_mod_two_pow n k j
    rwa [rest, Nat.zero_testBit, decide_eq_true below, Bool.true_and, eq_comm] at bit
  · intro clear
    refine Nat.eq_of_testBit_eq fun j => ?_
    rw [Nat.testBit_mod_two_pow, Nat.zero_testBit]
    by_cases below : j < k
    · rw [clear j below, Bool.and_false]
    · rw [decide_eq_false below, Bool.false_and]

/-- A largest power of two is kept when a multiple of the next one is added. -/
theorem isGreatest_dvd_add (greatest : IsGreatest {j | 2 ^ j ∣ n} k) {m : Nat}
    (beyond : 2 ^ (k + 1) ∣ m) : IsGreatest {j | 2 ^ j ∣ n + m} k := by
  refine ⟨Nat.dvd_add greatest.1 ((pow_dvd_pow 2 k.le_succ).trans beyond), fun j divides => ?_⟩
  by_contra more
  have next : 2 ^ (k + 1) ∣ n + m := (pow_dvd_pow 2 (Nat.lt_of_not_le more)).trans divides
  exact absurd (greatest.2 ((Nat.dvd_add_left beyond).mp next)) (Nat.not_succ_le_self k)

theorem isGreatest_dvd_mul (greatest : IsGreatest {j | 2 ^ j ∣ n} k) (bits : Nat) :
    IsGreatest {j | 2 ^ j ∣ n * 2 ^ bits} (k + bits) := by
  have scaled : 2 ^ (k + bits) ∣ n * 2 ^ bits := by
    rw [pow_add]
    exact Nat.mul_dvd_mul_right greatest.1 _
  refine ⟨scaled, fun j divides => ?_⟩
  by_contra more
  have next : 2 ^ (k + 1) * 2 ^ bits ∣ n * 2 ^ bits := by
    rw [← pow_add]
    exact (pow_dvd_pow 2 (by omega)).trans divides
  have divided := Nat.dvd_of_mul_dvd_mul_right (Nat.two_pow_pos bits) next
  exact absurd (greatest.2 divided) (Nat.not_succ_le_self k)

theorem isGreatest_dvd_two_pow (k : Nat) : IsGreatest {j | 2 ^ j ∣ 2 ^ k} k :=
  ⟨dvd_refl _, fun _ divides => (Nat.pow_dvd_pow_iff_le_right (by decide)).mp divides⟩

/-- Zero is divided by all powers of two. -/
theorem not_isGreatest_dvd_zero : ¬ IsGreatest {j | 2 ^ j ∣ 0} k :=
  fun greatest => absurd (greatest.2 (dvd_zero (2 ^ (k + 1)))) (Nat.not_succ_le_self k)

end Dividing

/-! ### Digits -/

theorem Digit.bitLength_le_iff (d : Digit) (k : Nat) : d.bitLength ≤ k ↔ d.toNat < 2 ^ k := by
  unfold bitLength
  split
  · rename_i zero
    rw [eq_zero_iff_toNat.mp zero]
    exact iff_of_true (Nat.zero_le k) (Nat.two_pow_pos k)
  · rename_i nonzero
    exact Nat.succ_le_iff.trans (Nat.log2_lt (mt eq_zero_iff_toNat.mpr nonzero))

theorem Digit.toNat_lt_pow_bitLength (d : Digit) : d.toNat < 2 ^ d.bitLength :=
  (d.bitLength_le_iff _).mp (Nat.le_refl _)

theorem Digit.pow_bitLength_le {d : Digit} (nonzero : d ≠ 0) : 2 ^ (d.bitLength - 1) ≤ d.toNat := by
  rw [bitLength, if_neg nonzero, Nat.add_sub_cancel]
  exact Nat.log2_self_le fun zero => nonzero (eq_zero_iff_toNat.mpr zero)

theorem Digit.bitLength_le (d : Digit) : d.bitLength ≤ 64 :=
  (d.bitLength_le_iff 64).mpr (base_eq ▸ d.toNat_lt_base)

theorem Digit.bitLength_pos {d : Digit} (nonzero : d ≠ 0) : 0 < d.bitLength := by
  rw [bitLength, if_neg nonzero]
  exact Nat.succ_pos _

theorem Digit.toNat_of_powerOfTwo? {d : Digit} {k : Nat} (found : d.powerOfTwo? = some k) :
    d.toNat = 2 ^ k := by
  unfold powerOfTwo? at found
  split at found
  · rename_i exact
    rw [Nat.one_shiftLeft] at exact
    rw [← Option.some.inj found]
    exact exact
  · cases found

theorem Digit.lt_of_lowestBit? {d : Digit} {k : Nat} (found : d.lowestBit? = some k) : k < 64 :=
  List.mem_range.mp (List.find?_range_eq_some.mp found).2.1

theorem Digit.isGreatest_of_lowestBit? {d : Digit} {k : Nat} (found : d.lowestBit? = some k) :
    IsGreatest {j | 2 ^ j ∣ d.toNat} k := by
  obtain ⟨set, -, below⟩ := List.find?_range_eq_some.mp found
  refine ⟨two_pow_dvd_iff.mpr fun j less => by simpa using below j less, fun j divides => ?_⟩
  by_contra more
  have clear := two_pow_dvd_iff.mp divides k (Nat.lt_of_not_le more)
  exact absurd (set.symm.trans clear) nofun

theorem Digit.lowestBit?_eq_none_iff {d : Digit} : d.lowestBit? = none ↔ d = 0 := by
  constructor
  · intro nothing
    have clear := List.find?_eq_none.mp nothing
    have divides : 2 ^ 64 ∣ d.toNat :=
      two_pow_dvd_iff.mpr fun j below => by simpa using clear j (List.mem_range.mpr below)
    exact eq_zero_iff_toNat.mpr (Nat.eq_zero_of_dvd_of_lt divides (base_eq ▸ d.toNat_lt_base))
  · rintro rfl
    decide

theorem Digit.powerOfTwo?_of_toNat {d : Digit} {k : Nat} (power : d.toNat = 2 ^ k) :
    d.powerOfTwo? = some k := by
  rw [powerOfTwo?, power, Nat.log2_two_pow, Nat.one_shiftLeft, if_pos rfl]

/-! ### Sequences -/

namespace Digits

theorem all_zero_iff {ds : Digits} : ds.all (· == 0) = true ↔ ds.toNat = 0 := by
  induction ds with
  | nil => exact iff_of_true rfl rfl
  | cons d ds ih =>
      rw [List.all_cons, Bool.and_eq_true_iff, ih, beq_iff_eq, Digit.eq_zero_iff_toNat, toNat_cons,
        Nat.add_eq_zero_iff, Nat.mul_eq_zero, or_iff_right Digit.base_pos.ne']

/-! ### The top digit -/

section Concat

variable (low : Digits) (top : Digit)

/-- The digits below the top one are less than what it stands for. -/
theorem toNat_concat :
    low.toNat < 2 ^ (64 * low.length) ∧
      toNat (low ++ [top]) = low.toNat + 2 ^ (64 * low.length) * top.toNat := by
  rw [pow_mul, ← Digit.base_eq, toNat_append, toNat_cons, toNat_nil, Nat.mul_zero, Nat.add_zero]
  exact ⟨toNat_lt_pow_length low, rfl⟩

theorem bitLength_concat : bitLength (low ++ [top]) = 64 * low.length + top.bitLength := by
  simp [bitLength]

theorem powerOfTwo?_concat :
    powerOfTwo? (low ++ [top]) =
      if low.all (· == 0) then top.powerOfTwo?.map (64 * low.length + ·) else none := by
  simp [powerOfTwo?]

end Concat

/-! ### Answers -/

variable {ds : Digits} {k : Nat}

/-- **What is taken for a power of two is one.** -/
theorem toNat_of_powerOfTwo? (found : ds.powerOfTwo? = some k) : ds.toNat = 2 ^ k := by
  rcases List.eq_nil_or_concat' ds with rfl | ⟨low, top, rfl⟩
  · cases found
  · rw [powerOfTwo?_concat] at found
    split at found
    · rename_i zeros
      obtain ⟨j, power, rfl⟩ := Option.map_eq_some_iff.mp found
      rw [(toNat_concat low top).2, all_zero_iff.mp zeros, Digit.toNat_of_powerOfTwo? power,
        Nat.zero_add, pow_add]
    · cases found

theorem lt_of_powerOfTwo? (found : ds.powerOfTwo? = some k) : k < 64 * ds.length := by
  have small := toNat_lt_pow_length ds
  rw [toNat_of_powerOfTwo? found, Digit.base_eq, ← pow_mul] at small
  exact (Nat.pow_lt_pow_iff_right (by decide)).mp small

/-- A shift by the exponent moves by all digits but the top one. -/
theorem div_of_powerOfTwo? (canonical : ds.Canonical) (found : ds.powerOfTwo? = some k) :
    k / 64 + 1 = ds.length := by
  have nonempty : ds ≠ [] := by
    rintro rfl
    cases found
  have large := canonical.pow_le_toNat nonempty
  rw [toNat_of_powerOfTwo? found, Digit.base_eq, ← pow_mul] at large
  have least := (Nat.pow_le_pow_iff_right (by decide)).mp large
  have small := lt_of_powerOfTwo? found
  have some := List.length_pos_of_ne_nil nonempty
  omega

/-- **The number of bits is the least that hold the number.** -/
theorem Canonical.bitLength_le_iff (canonical : ds.Canonical) (k : Nat) :
    ds.bitLength ≤ k ↔ ds.toNat < 2 ^ k := by
  rcases List.eq_nil_or_concat' ds with rfl | ⟨low, top, rfl⟩
  · exact iff_of_true (Nat.zero_le k) (Nat.two_pow_pos k)
  · have nonzero : top ≠ 0 := by simpa [Canonical] using canonical
    obtain ⟨small, value⟩ := toNat_concat low top
    rw [bitLength_concat, value]
    rcases Nat.lt_or_ge k (64 * low.length) with short | long
    · have less := Nat.pow_lt_pow_right (by decide : 1 < 2) short
      have least := Nat.le_mul_of_pos_right (2 ^ (64 * low.length)) (Digit.toNat_pos nonzero)
      exact iff_of_false (by omega) (by omega)
    · obtain ⟨j, rfl⟩ := Nat.exists_eq_add_of_le long
      rw [Nat.add_le_add_iff_left, top.bitLength_le_iff, pow_add]
      constructor
      · intro fits
        calc toNat low + 2 ^ (64 * low.length) * top.toNat
            < 2 ^ (64 * low.length) * (top.toNat + 1) := by rw [Nat.mul_add_one]; omega
          _ ≤ 2 ^ (64 * low.length) * 2 ^ j := Nat.mul_le_mul_left _ fits
      · intro fits
        exact Nat.lt_of_mul_lt_mul_left (Nat.lt_of_le_of_lt (Nat.le_add_left _ _) fits)

/-- **What is found is the largest power of two that divides the number.** -/
theorem isGreatest_of_lowestBit? (found : ds.lowestBit? = some k) :
    IsGreatest {j | 2 ^ j ∣ ds.toNat} k := by
  induction ds generalizing k with
  | nil => cases found
  | cons d ds ih =>
      rw [lowestBit?] at found
      split at found
      · rename_i place here
        obtain rfl := Option.some.inj found
        have beyond : 2 ^ (place + 1) ∣ Digit.base :=
          Digit.base_eq ▸ pow_dvd_pow 2 (Digit.lt_of_lowestBit? here)
        exact isGreatest_dvd_add (Digit.isGreatest_of_lowestBit? here) (beyond.mul_right _)
      · rename_i nothing
        obtain ⟨j, above, rfl⟩ := Option.map_eq_some_iff.mp found
        rw [Digit.lowestBit?_eq_none_iff.mp nothing, toNat_cons, UInt64.toNat_zero, Nat.zero_add,
          Nat.mul_comm, Digit.base_eq, Nat.add_comm]
        exact isGreatest_dvd_mul (ih above) 64

theorem lowestBit?_eq_none_iff : ds.lowestBit? = none ↔ ds.toNat = 0 := by
  constructor
  · intro nothing
    induction ds with
    | nil => rfl
    | cons d ds ih =>
        rw [lowestBit?] at nothing
        split at nothing
        · cases nothing
        · rename_i here
          have above := ih (Option.map_eq_none_iff.mp nothing)
          rw [toNat_cons, Digit.lowestBit?_eq_none_iff.mp here, above]
          rfl
  · intro zero
    cases found : ds.lowestBit? with
    | none => rfl
    | some k => exact absurd (zero ▸ isGreatest_of_lowestBit? found) not_isGreatest_dvd_zero

theorem lowestBit?_eq_some_iff :
    ds.lowestBit? = some k ↔ IsGreatest {j | 2 ^ j ∣ ds.toNat} k := by
  refine ⟨isGreatest_of_lowestBit?, fun greatest => ?_⟩
  cases found : ds.lowestBit? with
  | none => exact absurd (lowestBit?_eq_none_iff.mp found ▸ greatest) not_isGreatest_dvd_zero
  | some j => rw [(isGreatest_of_lowestBit? found).unique greatest]

/-- **All powers of two are found.** -/
theorem Canonical.powerOfTwo?_eq_some_iff (canonical : ds.Canonical) :
    ds.powerOfTwo? = some k ↔ ds.toNat = 2 ^ k := by
  refine ⟨toNat_of_powerOfTwo?, fun power => ?_⟩
  rcases List.eq_nil_or_concat' ds with rfl | ⟨low, top, rfl⟩
  · exact absurd power (Nat.two_pow_pos k).ne
  · have large := canonical.pow_le_toNat (List.append_ne_nil_of_right_ne_nil low nofun)
    rw [power, List.length_append, List.length_singleton, Nat.add_sub_cancel, Digit.base_eq,
      ← pow_mul, Nat.pow_le_pow_iff_right (by decide)] at large
    obtain ⟨j, rfl⟩ := Nat.exists_eq_add_of_le large
    obtain ⟨small, value⟩ := toNat_concat low top
    rw [power, pow_add] at value
    -- The power is a multiple of what the top digit stands for, and so is what is below it.
    have divides : 2 ^ (64 * low.length) ∣ toNat low :=
      (Nat.dvd_add_left (Nat.dvd_mul_right _ top.toNat)).mp (value ▸ Nat.dvd_mul_right _ _)
    have zero := Nat.eq_zero_of_dvd_of_lt divides small
    rw [zero, Nat.zero_add] at value
    have topPower := Nat.eq_of_mul_eq_mul_left (Nat.two_pow_pos _) value
    rw [powerOfTwo?_concat, if_pos (all_zero_iff.mpr zero),
      Digit.powerOfTwo?_of_toNat topPower.symm, Option.map_some]

/-- **A power of two has one bit**, which is the lowest and the highest one that is set. -/
theorem Canonical.toNat_eq_two_pow_iff (canonical : ds.Canonical) :
    ds.toNat = 2 ^ k ↔ ds.lowestBit? = some k ∧ ds.bitLength = k + 1 := by
  constructor
  · intro power
    refine ⟨lowestBit?_eq_some_iff.mpr (power ▸ isGreatest_dvd_two_pow k), Nat.le_antisymm ?_ ?_⟩
    · rw [canonical.bitLength_le_iff, power]
      exact Nat.pow_lt_pow_succ (by decide)
    · exact Nat.lt_of_not_le fun short => ((canonical.bitLength_le_iff k).mp short).ne power
  · rintro ⟨lowest, length⟩
    obtain ⟨⟨count, multiple⟩, -⟩ := isGreatest_of_lowestBit? lowest
    have less := (canonical.bitLength_le_iff (k + 1)).mp length.le
    have nonzero : ds.toNat ≠ 0 := fun zero =>
      absurd ((lowestBit?_eq_none_iff.mpr zero).symm.trans lowest) nofun
    rw [multiple, pow_succ] at less
    have single : count = 1 := by
      have few := Nat.lt_of_mul_lt_mul_left less
      have some : count ≠ 0 := by
        rintro rfl
        exact nonzero multiple
      omega
    rw [multiple, single, Nat.mul_one]

/-! ### Shifts up -/

section Shl

variable {limit bits : Nat} {a result : Digits}

theorem bitLength_of_shl (canonical : a.Canonical) (nonzero : a ≠ [])
    (done : a.shl limit bits = .ok result) : result.bitLength = a.bitLength + bits := by
  refine eq_of_forall_ge_iff fun k => ?_
  rw [(canonical_of_shl done).bitLength_le_iff, toNat_of_shl done]
  rcases Nat.lt_or_ge k bits with short | long
  · have less := Nat.pow_lt_pow_right (by decide : 1 < 2) short
    have least := Nat.le_mul_of_pos_left (2 ^ bits) (canonical.toNat_pos nonzero)
    exact iff_of_false (by omega) (by omega)
  · obtain ⟨j, rfl⟩ := Nat.exists_eq_add_of_le' long
    rw [pow_add, Nat.mul_lt_mul_right (Nat.two_pow_pos bits), ← canonical.bitLength_le_iff,
      Nat.add_le_add_iff_right]

theorem lowestBit?_of_shl (done : a.shl limit bits = .ok result) :
    result.lowestBit? = a.lowestBit?.map (· + bits) := by
  cases found : a.lowestBit? with
  | none =>
      rw [Option.map_none, lowestBit?_eq_none_iff, toNat_of_shl done,
        lowestBit?_eq_none_iff.mp found, Nat.zero_mul]
  | some k =>
      rw [Option.map_some, lowestBit?_eq_some_iff, toNat_of_shl done]
      exact isGreatest_dvd_mul (isGreatest_of_lowestBit? found) bits

/-- **A shift up neither makes nor loses a power of two.** -/
theorem powerOfTwo?_of_shl (canonical : a.Canonical) (done : a.shl limit bits = .ok result) :
    result.powerOfTwo? = a.powerOfTwo?.map (· + bits) := by
  refine Option.ext fun k => ?_
  rw [(canonical_of_shl done).powerOfTwo?_eq_some_iff, toNat_of_shl done, Option.map_eq_some_iff]
  constructor
  · intro power
    have least : bits ≤ k :=
      (Nat.pow_dvd_pow_iff_le_right (by decide)).mp (power ▸ Nat.dvd_mul_left _ _)
    obtain ⟨j, rfl⟩ := Nat.exists_eq_add_of_le' least
    rw [pow_add] at power
    exact ⟨j, canonical.powerOfTwo?_eq_some_iff.mpr
      (Nat.eq_of_mul_eq_mul_right (Nat.two_pow_pos bits) power), rfl⟩
  · rintro ⟨j, power, rfl⟩
    rw [toNat_of_powerOfTwo? power, pow_add]

end Shl

end Digits

end Bignum
