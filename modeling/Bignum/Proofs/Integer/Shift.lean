import Bignum.Proofs.Digits.ShiftLoop
import Bignum.Proofs.Integer.Division

/-!
Shifts and masks are arithmetic with powers of two.

* `Digits.ShiftSound`: a shift up multiplies, a shift down divides, and a mask is the rest of that
  division. A shift down and a mask need no more than the digits that are there, however far they
  go; a shift up is refused exactly as a request for its whole output is. Loops over words make all
  three.
* `Integer.ShiftSound`: of integers, a shift up multiplies the value, and a shift down divides it
  and rounds toward zero, on both sides of zero.
* `shifts_exact`: both hold for any number of bits, of all canonical digits and of every integer.
-/

namespace Bignum

/-! ### Digits -/

namespace Digits

/-- What shifts and a mask of a digit sequence are, and when there are none. -/
structure ShiftSound (limit : Nat) (a : Digits) (bits : Nat) : Prop where
  down : ∀ result, a.shr limit bits = .ok result →
    result.Canonical ∧ result.toNat = a.toNat / 2 ^ bits
  mask : ∀ result, a.lowBits limit bits = .ok result →
    result.Canonical ∧ result.toNat = a.toNat % 2 ^ bits
  up : ∀ result, a.shl limit bits = .ok result →
    result.Canonical ∧ result.toNat = a.toNat * 2 ^ bits
  granted : Storage.Grants limit a.length →
    (∃ result, a.shr limit bits = .ok result) ∧ ∃ result, a.lowBits limit bits = .ok result
  zero : a = [] → a.shl limit bits = .ok []
  refused : a ≠ [] → ∀ cause, a.shl limit bits = .error cause ↔
    Storage.request limit (bits / 64 + a.length + 1) = .error cause
  /-- No memory of 64-bit addresses holds digits that a refusal could not name. -/
  named : a.length < 2 ^ 63 → bits < 2 ^ 64 → ∀ cause, a.shl limit bits = .error cause →
    cause.requested = bits / 64 + a.length + 1
  /-- The loops over words stop nowhere and fill the output that was asked for. -/
  upLoop : a ≠ [] → ∀ result, a.shl limit bits = .ok result →
    ∃ output, a.wordShl bits = some output ∧ output.length = bits / 64 + a.length + 1 ∧
      output.trim = result
  downLoop : ∀ result, a.shr limit bits = .ok result →
    ∃ output, a.wordShr bits = some output ∧ output.length = a.length - bits / 64 ∧
      output.trim = result
  maskLoop : ∀ result, a.lowBits limit bits = .ok result →
    ∃ output, a.wordLowBits bits = some output ∧ output.trim = result

variable {limit bits : Nat} {a : Digits}

theorem exists_shr (room : Storage.Grants limit a.length) :
    ∃ result, a.shr limit bits = .ok result :=
  room.exists_ok (Nat.sub_le _ _) fun _ => shr_eq_error_iff.mp

theorem exists_lowBits (room : Storage.Grants limit a.length) :
    ∃ result, a.lowBits limit bits = .ok result :=
  room.exists_ok (Nat.min_le_left _ _) fun _ => lowBits_eq_error_iff.mp

theorem shiftSound (canonical : a.Canonical) (limit bits : Nat) : ShiftSound limit a bits where
  down _ done := ⟨canonical_of_shr done, toNat_of_shr done⟩
  mask _ done := ⟨canonical_of_lowBits canonical done, toNat_of_lowBits done⟩
  up _ done := ⟨canonical_of_shl done, toNat_of_shl done⟩
  granted room := ⟨exists_shr room, exists_lowBits room⟩
  zero := by
    rintro rfl
    rfl
  refused nonzero _ := shl_eq_error_iff.trans (and_iff_right nonzero)
  named short few cause refused := by
    have requested := Storage.requested_of_request_error (shl_eq_error_iff.mp refused).2
    rw [requested, Storage.maxRequest]
    omega
  upLoop nonzero _ done := wordShl_of_shl nonzero done
  downLoop _ done := wordShr_of_shr done
  maskLoop _ done := wordLowBits_of_lowBits canonical done

end Digits

/-! ### Integers -/

namespace Integer

/-- What shifts of an integer are. A canonical result has no sign where it is zero. -/
structure ShiftSound (limit : Nat) (v : Integer) (bits : Nat) : Prop where
  up : ∀ w, v.shl limit bits = .ok w → w.Canonical ∧ w.toInt = v.toInt * 2 ^ bits
  down : ∀ w, v.shr limit bits = .ok w → w.Canonical ∧ w.toInt = v.toInt.tdiv (2 ^ bits)
  unsigned : ∀ w, v.shl limit bits = .ok w ∨ v.shr limit bits = .ok w →
    w.toInt = 0 → w.negative = false
  granted : Storage.Grants limit v.digits.length → ∃ w, v.shr limit bits = .ok w
  refused : ∀ e, v.shl limit bits = .error e ↔
    ∃ cause, v.digits.shl limit bits = .error cause ∧ .allocation cause = e

variable {limit bits : Nat} {v w : Integer}

theorem toInt_shl (made : v.shl limit bits = .ok w) : w.toInt = v.toInt * 2 ^ bits := by
  obtain ⟨digits, shifted, rfl⟩ := map_eq_ok_iff.mp (liftAllocation_eq_ok_iff.mp made)
  have product := signed_bne_mul v.negative false v.digits.toNat (2 ^ bits)
  rw [Bool.bne_false, ← Digits.toNat_of_shl shifted] at product
  rw [toInt_ofMagnitude, toInt_eq_signed v]
  exact product.trans (by simp [signed])

/-- The sign is that of the value, so the quotient is rounded toward zero. -/
theorem toInt_shr (made : v.shr limit bits = .ok w) : w.toInt = v.toInt.tdiv (2 ^ bits) := by
  obtain ⟨digits, shifted, rfl⟩ := map_eq_ok_iff.mp (liftAllocation_eq_ok_iff.mp made)
  have quotient := signed_bne_div v.negative false v.digits.toNat (2 ^ bits)
  rw [Bool.bne_false, ← Digits.toNat_of_shr shifted] at quotient
  rw [toInt_ofMagnitude, toInt_eq_signed v]
  exact quotient.trans (by simp [signed])

theorem shiftSound (v : Integer) (limit bits : Nat) : ShiftSound limit v bits where
  up _ made := ⟨canonical_shl made, toInt_shl made⟩
  down _ made := ⟨canonical_shr made, toInt_shr made⟩
  unsigned w made zero := by
    have canonical : w.Canonical := made.elim canonical_shl canonical_shr
    rw [canonical.negative_eq, zero]
    rfl
  granted room := by
    obtain ⟨result, shifted⟩ : ∃ result, v.digits.shr limit bits = .ok result :=
      Digits.exists_shr room
    exact ⟨_, liftAllocation_eq_ok_iff.mpr (map_eq_ok_iff.mpr ⟨result, shifted, rfl⟩)⟩
  refused _ := by
    simp only [shl, liftAllocation_eq_error_iff, map_eq_error_iff]

end Integer

/-- **Shifts and masks are exact** for any number of bits, of digits and of integers on both sides
of zero. -/
theorem shifts_exact (limit bits : Nat) :
    (∀ a : Digits, a.Canonical → Digits.ShiftSound limit a bits) ∧
    ∀ v : Integer, Integer.ShiftSound limit v bits :=
  ⟨fun _ canonical => Digits.shiftSound canonical limit bits, fun v => v.shiftSound limit bits⟩

/-- Shifts by one more than the bits of a digit, where rounding down and toward zero differ, and a
shift up by more than there is storage for. -/
theorem shifts_exact_far :
    let a : Digits := [1, 0x8000000000000000]
    let v : Integer := { negative := true, digits := a }
    let w : Integer := { negative := true, digits := [0x4000000000000000] }
    a.Canonical ∧ a ≠ [] ∧
      a.shl 5 65 = .ok [0, 2, 0, 1] ∧ Digits.toNat [0, 2, 0, 1] = a.toNat * 2 ^ 65 ∧
      (∃ output, a.wordShl 65 = some output ∧ output.trim = [0, 2, 0, 1]) ∧
      Storage.request 5 (18446744073709551615 / 64 + a.length + 1) =
        .error { requested := 288230376151711746 } ∧
      a.shl 5 18446744073709551615 = .error { requested := 288230376151711746 } ∧
      v.shr 5 65 = .ok w ∧ w.toInt = v.toInt.tdiv (2 ^ 65) := by
  intro a v w
  obtain ⟨digits, integers⟩ := shifts_exact 5 65
  have canonical : a.Canonical := by decide
  have nonzero : a ≠ [] := by decide
  have up : a.shl 5 65 = .ok [0, 2, 0, 1] := by decide
  have down : v.shr 5 65 = .ok w := by decide
  have full : Storage.request 5 (18446744073709551615 / 64 + a.length + 1) =
      .error { requested := 288230376151711746 } := by decide
  obtain ⟨output, filled, -, trimmed⟩ := (digits a canonical).upLoop nonzero _ up
  exact ⟨canonical, nonzero, up, ((digits a canonical).up _ up).2, ⟨output, filled, trimmed⟩, full,
    (((shifts_exact 5 18446744073709551615).1 a canonical).refused nonzero _).mpr full, down,
    ((integers v).down w down).2⟩

end Bignum
