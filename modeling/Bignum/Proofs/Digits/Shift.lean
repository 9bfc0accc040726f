import Bignum.Digits.Shift
import Bignum.Proofs.Digits.Value
import Bignum.Proofs.Storage

/-!
Shifts of digit sequences, by the numbers they write.

* `toNat_shiftUp`: a pass upward multiplies exactly, with what is carried out of the top counted in.
* `toNat_of_shl`: a shift by any number of bits multiplies by a power of two.
* `toNat_shiftDown`, `toNat_of_shr`: passes and shifts downward divide, rounding down.
* `toNat_of_lowBits`: a mask of any number of bits leaves the rest of that division.
-/

namespace Bignum

/-- A place of a pass upward totals no more than two digits hold. -/
theorem Digit.shifted_total_lt (d carry : Digit) {bits : Nat} (few : bits < 64) :
    d.toNat <<< bits + carry.toNat < base * base := by
  have small := toNat_lt_base d
  have carried := toNat_lt_base carry
  have scale : 2 ^ bits ≤ 2 ^ 63 := Nat.pow_le_pow_right (by decide) (by omega)
  have product : d.toNat * 2 ^ bits ≤ (base - 1) * 2 ^ 63 :=
    Nat.mul_le_mul (Nat.le_of_lt_succ small) scale
  rw [Nat.shiftLeft_eq]
  simp only [base] at carried product ⊢
  omega

theorem Digit.base_eq : base = 2 ^ 64 := by decide

theorem Digit.base_eq_mul {bits : Nat} (few : bits ≤ 64) : base = 2 ^ bits * 2 ^ (64 - bits) := by
  rw [← pow_add, Nat.add_sub_cancel' few, base_eq]

/-- A place of a pass downward keeps the high bits of its digit and takes the low ones of the digit
above it; the high bits of that one are cut off. -/
theorem Digit.toNat_shiftedDown {bits : Nat} (few : bits ≤ 64) (d above : Digit) :
    (UInt64.ofNat ((d.toNat >>> bits) + (above.toNat <<< (64 - bits)))).toNat =
      d.toNat / 2 ^ bits + 2 ^ (64 - bits) * (above.toNat % 2 ^ bits) := by
  have base := base_eq_mul few
  have kept : d.toNat / 2 ^ bits < 2 ^ (64 - bits) :=
    Nat.div_lt_of_lt_mul (base ▸ toNat_lt_base d)
  have taken : above.toNat % 2 ^ bits < 2 ^ bits := Nat.mod_lt _ (Nat.two_pow_pos bits)
  have fits : d.toNat / 2 ^ bits + 2 ^ (64 - bits) * (above.toNat % 2 ^ bits) < Digit.base := by
    calc d.toNat / 2 ^ bits + 2 ^ (64 - bits) * (above.toNat % 2 ^ bits)
        < 2 ^ (64 - bits) * (above.toNat % 2 ^ bits + 1) := by rw [Nat.mul_add_one]; omega
      _ ≤ 2 ^ (64 - bits) * 2 ^ bits := Nat.mul_le_mul_left _ taken
      _ = Digit.base := by rw [base, Nat.mul_comm]
  have whole : (d.toNat >>> bits) + (above.toNat <<< (64 - bits)) =
      d.toNat / 2 ^ bits + 2 ^ (64 - bits) * (above.toNat % 2 ^ bits) +
        Digit.base * (above.toNat / 2 ^ bits) := by
    rw [Nat.shiftRight_eq_div_pow, Nat.shiftLeft_eq, base]
    linear_combination 2 ^ (64 - bits) * (Nat.div_add_mod above.toNat (2 ^ bits)).symm
  rw [toNat_ofNat_mod, whole, Nat.add_mul_mod_self_left, Nat.mod_eq_of_lt fits]

namespace Digits

/-! ### Passes -/

theorem length_shiftUp (bits : Nat) (ds : Digits) (carry : Digit) :
    (shiftUp bits ds carry).1.length = ds.length := by
  induction ds generalizing carry with
  | nil => rfl
  | cons d ds ih => simp [shiftUp, ih]

theorem length_shiftDown (bits : Nat) (ds : Digits) : (shiftDown bits ds).length = ds.length := by
  induction ds with
  | nil => rfl
  | cons d ds ih => simp [shiftDown, ih]

/-- **A pass upward multiplies exactly.** -/
theorem toNat_shiftUp {bits : Nat} (few : bits < 64) (ds : Digits) (carry : Digit) :
    (shiftUp bits ds carry).1.toNat + Digit.base ^ ds.length * (shiftUp bits ds carry).2.toNat =
      ds.toNat * 2 ^ bits + carry.toNat := by
  induction ds generalizing carry with
  | nil => simp [shiftUp]
  | cons d ds ih =>
      have here := Digit.split_toNat (Digit.shifted_total_lt d carry few)
      have above := ih (Digit.split (d.toNat <<< bits + carry.toNat)).2
      rw [Nat.shiftLeft_eq] at here above
      simp only [shiftUp, Nat.shiftLeft_eq, toNat_cons, List.length_cons, pow_succ]
      linear_combination here + Digit.base * above

/-- The low bits of a number are those of its lowest digit. -/
theorem toNat_mod_pow {bits : Nat} (few : bits ≤ 64) (ds : Digits) :
    ds.toNat % 2 ^ bits = (ds.headD 0).toNat % 2 ^ bits := by
  rw [toNat_eq_headD_add_tail ds, Digit.base_eq_mul few, Nat.mul_assoc, Nat.add_mul_mod_self_left]

/-- **A pass downward divides**, rounding down. -/
theorem toNat_shiftDown {bits : Nat} (few : bits ≤ 64) (ds : Digits) :
    (shiftDown bits ds).toNat = ds.toNat / 2 ^ bits := by
  induction ds with
  | nil => simp [shiftDown]
  | cons d ds ih =>
      have base := Digit.base_eq_mul few
      have here := Digit.toNat_shiftedDown few d (ds.headD 0)
      have above : (d.toNat + Digit.base * toNat ds) / 2 ^ bits =
          d.toNat / 2 ^ bits + 2 ^ (64 - bits) * toNat ds := by
        rw [base, Nat.mul_assoc, Nat.add_mul_div_left _ _ (Nat.two_pow_pos bits)]
      rw [shiftDown, toNat_cons, here, ← toNat_mod_pow few ds, ih, toNat_cons, above, base]
      linear_combination 2 ^ (64 - bits) * (Nat.div_add_mod (toNat ds) (2 ^ bits))

/-! ### Shifts -/

theorem pow_eq_base_pow_mul (bits : Nat) :
    2 ^ bits = Digit.base ^ (bits / 64) * 2 ^ (bits % 64) := by
  rw [Digit.base_eq, ← pow_mul, ← pow_add, Nat.div_add_mod]

/-- A number with no digits beyond those that a shift moves by is below the power of two. -/
theorem toNat_lt_pow_of_length_le {ds : Digits} {bits : Nat} (short : ds.length ≤ bits / 64) :
    ds.toNat < 2 ^ bits := by
  calc ds.toNat < Digit.base ^ ds.length := toNat_lt_pow_length ds
    _ ≤ Digit.base ^ (bits / 64) := Nat.pow_le_pow_right Digit.base_pos short
    _ ≤ Digit.base ^ (bits / 64) * 2 ^ (bits % 64) :=
      Nat.le_mul_of_pos_right _ (Nat.two_pow_pos _)
    _ = 2 ^ bits := (pow_eq_base_pow_mul bits).symm

section Shl

variable {limit bits : Nat} {a result : Digits}

/-- **A shift up multiplies by a power of two.** -/
theorem toNat_of_shl (done : a.shl limit bits = .ok result) :
    result.toNat = a.toNat * 2 ^ bits := by
  unfold shl at done
  split at done
  · rename_i empty
    obtain rfl := Except.ok.inj done
    rw [List.isEmpty_iff.mp empty, toNat_nil, Nat.zero_mul]
  · obtain ⟨_, -, made⟩ := bind_eq_ok_iff.mp done
    obtain rfl := Except.ok.inj made
    have pass := toNat_shiftUp (Nat.mod_lt bits (by decide : 0 < 64)) a 0
    have split := pow_eq_base_pow_mul bits
    simp only [UInt64.toNat_zero, Nat.add_zero] at pass
    simp only [toNat_trim, List.append_assoc, toNat_append, toNat_replicate_zero,
      List.length_replicate, length_shiftUp, toNat_cons, toNat_nil, split]
    linear_combination Digit.base ^ (bits / 64) * pass

theorem canonical_of_shl (done : a.shl limit bits = .ok result) : result.Canonical := by
  unfold shl at done
  split at done
  · obtain rfl := Except.ok.inj done
    exact canonical_nil
  · obtain ⟨_, -, made⟩ := bind_eq_ok_iff.mp done
    exact Except.ok.inj made ▸ canonical_trim _

/-- A shift up is refused exactly if the digits moved by, those there are, and one more are. -/
theorem shl_eq_error_iff {cause : AllocationError} : a.shl limit bits = .error cause ↔
    a ≠ [] ∧ Storage.request limit (bits / 64 + a.length + 1) = .error cause := by
  unfold shl
  split
  · rename_i empty
    exact ⟨nofun, fun both => absurd (List.isEmpty_iff.mp empty) both.1⟩
  · rename_i nonempty
    refine bind_eq_error_iff.trans ⟨?_, fun both => .inl both.2⟩
    rintro (refused | ⟨_, -, impossible⟩)
    · exact ⟨fun empty => nonempty (List.isEmpty_iff.mpr empty), refused⟩
    · cases impossible

theorem le_of_shl_error {cause : AllocationError} (refused : a.shl limit bits = .error cause) :
    limit ≤ bits / 64 + a.length + 1 :=
  Storage.le_of_request_error (shl_eq_error_iff.mp refused).2

end Shl

section Shr

variable {limit bits : Nat} {a result : Digits}

/-- **A shift down divides by a power of two**, rounding down. -/
theorem toNat_of_shr (done : a.shr limit bits = .ok result) :
    result.toNat = a.toNat / 2 ^ bits := by
  unfold shr at done
  split at done
  · rename_i short
    obtain rfl := Except.ok.inj done
    rw [toNat_nil, Nat.div_eq_of_lt (toNat_lt_pow_of_length_le short)]
  · obtain ⟨_, -, made⟩ := bind_eq_ok_iff.mp done
    obtain rfl := Except.ok.inj made
    rw [toNat_trim, toNat_shiftDown (Nat.mod_lt bits (by decide)).le, toNat_drop,
      Nat.div_div_eq_div_mul, ← pow_eq_base_pow_mul]

theorem canonical_of_shr (done : a.shr limit bits = .ok result) : result.Canonical := by
  unfold shr at done
  split at done
  · obtain rfl := Except.ok.inj done
    exact canonical_nil
  · obtain ⟨_, -, made⟩ := bind_eq_ok_iff.mp done
    exact Except.ok.inj made ▸ canonical_trim _

/-- A shift down is refused exactly if the digits that it keeps are. -/
theorem shr_eq_error_iff {cause : AllocationError} : a.shr limit bits = .error cause ↔
    Storage.request limit (a.length - bits / 64) = .error cause := by
  unfold shr
  split
  · rename_i short
    rw [Nat.sub_eq_zero_of_le short, Storage.request_eq_ok_iff.mpr (.inl rfl)]
    exact ⟨nofun, nofun⟩
  · rw [← List.length_drop]
    refine bind_eq_error_iff.trans ⟨?_, .inl⟩
    rintro (refused | ⟨_, -, impossible⟩)
    · exact refused
    · cases impossible

theorem le_of_shr_error {cause : AllocationError}
    (refused : a.shr limit bits = .error cause) : limit ≤ a.length :=
  Nat.le_trans (Storage.le_of_request_error (shr_eq_error_iff.mp refused)) (Nat.sub_le _ _)

end Shr

/-! ### Masks -/

/-- The digit at a place, without its high bits, with the digits below it. -/
theorem toNat_maskAt {ds : Digits} {place bits : Nat} (inRange : place < ds.length)
    (few : bits ≤ 64) :
    (maskAt place bits (ds.take (place + 1))).toNat =
      ds.toNat % (Digit.base ^ place * 2 ^ bits) := by
  have small : ds[place].toNat % 2 ^ bits < Digit.base :=
    Nat.lt_of_le_of_lt (Nat.mod_le _ _) (Digit.toNat_lt_base _)
  have masked : maskAt place bits (ds.take (place + 1)) =
      ds.take place ++ [UInt64.ofNat (ds[place].toNat % 2 ^ bits)] := by
    have here : place < (ds.take (place + 1)).length := by
      rw [List.length_take_of_le inRange]
      exact Nat.lt_succ_self place
    rw [maskAt, List.modify_eq_take_cons_drop here, List.take_take, List.getElem_take,
      Nat.min_eq_left (Nat.le_succ place), List.drop_take_self, Nat.one_shiftLeft]
  have above : ds.toNat / Digit.base ^ place % 2 ^ bits = ds[place].toNat % 2 ^ bits := by
    rw [← toNat_drop, toNat_mod_pow few, List.drop_eq_getElem_cons inRange, List.headD_cons]
  rw [masked, toNat_append, toNat_take, List.length_take_of_le inRange.le, toNat_cons, toNat_nil,
    Digit.toNat_ofNat_of_lt small, Nat.mod_mul, above, Nat.mul_zero, Nat.add_zero]

section LowBits

variable {limit bits : Nat} {a result : Digits}

/-- **A mask leaves the rest of a division by a power of two.** -/
theorem toNat_of_lowBits (done : a.lowBits limit bits = .ok result) :
    result.toNat = a.toNat % 2 ^ bits := by
  unfold lowBits at done
  split at done
  · rename_i short
    obtain ⟨-, rfl⟩ := copy_eq_ok_iff.mp done
    rw [Nat.mod_eq_of_lt (toNat_lt_pow_of_length_le short)]
  · rename_i long
    split at done
    · rename_i whole
      obtain ⟨kept, copied, rfl⟩ := map_eq_ok_iff.mp done
      obtain ⟨-, rfl⟩ := copy_eq_ok_iff.mp copied
      rw [toNat_trim, toNat_take, pow_eq_base_pow_mul bits, whole, pow_zero, Nat.mul_one]
    · obtain ⟨kept, copied, rfl⟩ := map_eq_ok_iff.mp done
      obtain ⟨-, rfl⟩ := copy_eq_ok_iff.mp copied
      rw [toNat_trim, toNat_maskAt (Nat.lt_of_not_le long) (Nat.mod_lt bits (by decide)).le,
        ← pow_eq_base_pow_mul]

theorem canonical_of_lowBits (canonical : a.Canonical) (done : a.lowBits limit bits = .ok result) :
    result.Canonical := by
  unfold lowBits at done
  split at done
  · obtain ⟨-, rfl⟩ := copy_eq_ok_iff.mp done
    exact canonical
  · split at done
    · obtain ⟨kept, -, rfl⟩ := map_eq_ok_iff.mp done
      exact canonical_trim _
    · obtain ⟨kept, -, rfl⟩ := map_eq_ok_iff.mp done
      exact canonical_trim _

/-- A mask is refused exactly if the digits that it keeps a part of are. -/
theorem lowBits_eq_error_iff {cause : AllocationError} : a.lowBits limit bits = .error cause ↔
    Storage.request limit (min a.length ((bits + 63) / 64)) = .error cause := by
  unfold lowBits
  split
  · rw [copy_eq_error_iff, Nat.min_eq_left (by omega)]
  · split
    · rw [map_eq_error_iff, copy_eq_error_iff, List.length_take, Nat.min_comm,
        show bits / 64 = (bits + 63) / 64 by omega]
    · rw [map_eq_error_iff, copy_eq_error_iff, List.length_take, Nat.min_comm,
        show bits / 64 + 1 = (bits + 63) / 64 by omega]

theorem le_of_lowBits_error {cause : AllocationError}
    (refused : a.lowBits limit bits = .error cause) : limit ≤ a.length :=
  Nat.le_trans (Storage.le_of_request_error (lowBits_eq_error_iff.mp refused)) (Nat.min_le_left _ _)

end LowBits

end Digits

end Bignum
