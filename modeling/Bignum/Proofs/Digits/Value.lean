import Bignum.Digits.Basic
import Mathlib.Data.List.Basic
import Mathlib.Tactic.LinearCombination
import Mathlib.Tactic.Linarith
import Mathlib.Tactic.Ring

/-!
The numbers that digit sequences write.

* `toNat_lt_pow_length`, `Canonical.pow_le_toNat`: the length of a canonical sequence fixes its
  number up to a factor of the base.
* `toNat_trim`, `canonical_trim`, `trim_eq_self_iff`: trimming keeps the number, answers a
  canonical sequence and changes no canonical one.
* `Canonical.eq_of_toNat_eq`: each number is written by exactly one canonical sequence.
-/

namespace Bignum

namespace Digit

/-- A digit is below the base. -/
theorem toNat_lt_base (d : Digit) : d.toNat < base := UInt64.toNat_lt d

theorem toNat_ofNat_of_lt {n : Nat} (small : n < base) : (UInt64.ofNat n).toNat = n :=
  UInt64.toNat_ofNat_of_lt' small

theorem toNat_ofNat_mod (n : Nat) : (UInt64.ofNat n).toNat = n % base := UInt64.toNat_ofNat'

theorem eq_zero_iff_toNat {d : Digit} : d = 0 ↔ d.toNat = 0 := by
  rw [← UInt64.toNat_inj]
  rfl

theorem toNat_pos {d : Digit} (nonzero : d ≠ 0) : 0 < d.toNat :=
  Nat.pos_of_ne_zero (mt eq_zero_iff_toNat.mpr nonzero)

theorem base_pos : 0 < base := by decide

theorem base_pow_pos (n : Nat) : 0 < base ^ n := Nat.pow_pos base_pos

/-- Splitting a total loses nothing as long as two digits hold it. -/
theorem split_toNat {total : Nat} (fits : total < base * base) :
    (split total).1.toNat + base * (split total).2.toNat = total := by
  have high : total / base < base := Nat.div_lt_of_lt_mul fits
  simp only [split, toNat_ofNat_mod, Nat.mod_eq_of_lt high]
  exact Nat.mod_add_div total base

/-- A low digit and a high part are the split of what they write. -/
theorem split_eq {low : Digit} {high total : Nat} (whole : low.toNat + base * high = total) :
    split total = (low, UInt64.ofNat high) := by
  have small := toNat_lt_base low
  have here : UInt64.ofNat total = low := by
    rw [← UInt64.toNat_inj, toNat_ofNat_mod, ← whole, Nat.add_mul_mod_self_left,
      Nat.mod_eq_of_lt small]
  have above : total / base = high := by
    rw [← whole, Nat.add_mul_div_left _ _ base_pos, Nat.div_eq_of_lt small, Nat.zero_add]
  rw [split, here, above]

end Digit

namespace Digits

/-! ### Values -/

@[simp] theorem toNat_nil : toNat [] = 0 := rfl

@[simp] theorem toNat_cons (d : Digit) (ds : Digits) :
    toNat (d :: ds) = d.toNat + Digit.base * toNat ds := rfl

theorem toNat_append (as bs : Digits) :
    toNat (as ++ bs) = as.toNat + Digit.base ^ as.length * bs.toNat := by
  induction as with
  | nil => simp
  | cons a as ih =>
      rw [List.cons_append, toNat_cons, toNat_cons, ih, List.length_cons]
      ring

@[simp] theorem toNat_replicate_zero (n : Nat) : toNat (List.replicate n 0) = 0 := by
  induction n with
  | zero => rfl
  | succ n ih =>
      rw [List.replicate_succ, toNat_cons, ih]
      rfl

theorem toNat_lt_pow_length (ds : Digits) : ds.toNat < Digit.base ^ ds.length := by
  induction ds with
  | nil => simp
  | cons d ds ih =>
      have digit := Digit.toNat_lt_base d
      calc d.toNat + Digit.base * toNat ds
          < Digit.base * (toNat ds + 1) := by rw [Nat.mul_add]; omega
        _ ≤ Digit.base * Digit.base ^ ds.length := Nat.mul_le_mul_left _ ih
        _ = Digit.base ^ (d :: ds).length := by rw [List.length_cons]; ring

/-- The lowest digit and the rest of a sequence, which may be missing. -/
theorem toNat_eq_headD_add_tail (ds : Digits) :
    ds.toNat = (ds.headD 0).toNat + Digit.base * toNat ds.tail := by
  cases ds <;> rfl

/-- The lowest digits of a sequence write the rest of its number. -/
theorem toNat_take (ds : Digits) (n : Nat) : toNat (ds.take n) = ds.toNat % Digit.base ^ n := by
  by_cases short : n ≤ ds.length
  · have whole := toNat_append (ds.take n) (ds.drop n)
    have small := toNat_lt_pow_length (ds.take n)
    rw [List.take_append_drop, List.length_take_of_le short] at whole
    rw [List.length_take_of_le short] at small
    rw [whole, Nat.add_mul_mod_self_left, Nat.mod_eq_of_lt small]
  · have long := Nat.le_of_not_le short
    rw [List.take_of_length_le long, Nat.mod_eq_of_lt]
    exact Nat.lt_of_lt_of_le (toNat_lt_pow_length ds) (Nat.pow_le_pow_right Digit.base_pos long)

/-- The digits from a place up write the number without those below. -/
theorem toNat_drop (ds : Digits) (n : Nat) : toNat (ds.drop n) = ds.toNat / Digit.base ^ n := by
  induction n generalizing ds with
  | zero => simp
  | succ n ih =>
      cases ds with
      | nil => simp
      | cons d ds =>
          rw [List.drop_succ_cons, ih, toNat_cons, pow_succ', ← Nat.div_div_eq_div_mul,
            Nat.add_mul_div_left _ _ Digit.base_pos, Nat.div_eq_of_lt (Digit.toNat_lt_base d),
            Nat.zero_add]

/-! ### Canonical sequences -/

@[simp] theorem canonical_nil : Canonical [] := by simp [Canonical]

theorem canonical_singleton {d : Digit} : Canonical [d] ↔ d ≠ 0 := by simp [Canonical]

@[simp] theorem canonical_cons_cons {c d : Digit} {ds : Digits} :
    Canonical (c :: d :: ds) ↔ Canonical (d :: ds) := by
  simp [Canonical, List.getLast?_cons_cons]

theorem Canonical.tail {d : Digit} {ds : Digits} (canonical : Canonical (d :: ds)) :
    Canonical ds := by
  cases ds with
  | nil => exact canonical_nil
  | cons e es => exact canonical_cons_cons.mp canonical

/-- A digit that is not zero may be put on top of any sequence. -/
theorem canonical_append_singleton {ds : Digits} {d : Digit} (nonzero : d ≠ 0) :
    Canonical (ds ++ [d]) := by
  simp [Canonical, nonzero]

/-- The number of a canonical sequence needs all of its digits. -/
theorem Canonical.pow_le_toNat {ds : Digits} (canonical : ds.Canonical) (nonempty : ds ≠ []) :
    Digit.base ^ (ds.length - 1) ≤ ds.toNat := by
  induction ds with
  | nil => exact absurd rfl nonempty
  | cons d ds ih =>
      cases ds with
      | nil =>
          have : d.toNat ≠ 0 := fun zero =>
            canonical_singleton.mp canonical (Digit.eq_zero_iff_toNat.mpr zero)
          simp only [List.length_singleton, Nat.sub_self, pow_zero, toNat_cons, toNat_nil]
          omega
      | cons e es =>
          have below := ih canonical.tail (List.cons_ne_nil _ _)
          calc Digit.base ^ ((d :: e :: es).length - 1)
              = Digit.base * Digit.base ^ ((e :: es).length - 1) := by
                simp only [List.length_cons, Nat.add_sub_cancel]; ring
            _ ≤ Digit.base * toNat (e :: es) := Nat.mul_le_mul_left _ below
            _ ≤ toNat (d :: e :: es) := Nat.le_add_left _ _

theorem Canonical.toNat_pos {ds : Digits} (canonical : ds.Canonical) (nonempty : ds ≠ []) :
    0 < ds.toNat :=
  Nat.lt_of_lt_of_le (Digit.base_pow_pos _) (canonical.pow_le_toNat nonempty)

/-- Only the empty sequence writes zero canonically. -/
theorem Canonical.toNat_eq_zero_iff {ds : Digits} (canonical : ds.Canonical) :
    ds.toNat = 0 ↔ ds = [] := by
  constructor
  · intro zero
    by_contra nonempty
    exact absurd zero (canonical.toNat_pos nonempty).ne'
  · rintro rfl
    rfl

/-- Any sequence that needs all of its digits is canonical. -/
theorem canonical_of_pow_le_toNat {ds : Digits} (large : Digit.base ^ (ds.length - 1) ≤ ds.toNat) :
    ds.Canonical := by
  rcases List.eq_nil_or_concat' ds with rfl | ⟨low, top, rfl⟩
  · exact canonical_nil
  · by_cases zero : top = 0
    · subst zero
      have small := toNat_lt_pow_length low
      have value : toNat (low ++ [0]) = toNat low := by
        rw [toNat_append]
        simp
      rw [value, List.length_append, List.length_singleton, Nat.add_sub_cancel] at large
      omega
    · exact canonical_append_singleton zero

/-- A canonical sequence has as many digits as its number needs. -/
theorem Canonical.length_le_iff {ds : Digits} (canonical : ds.Canonical) (n : Nat) :
    ds.length ≤ n ↔ ds.toNat < Digit.base ^ n := by
  constructor
  · intro short
    exact Nat.lt_of_lt_of_le (toNat_lt_pow_length ds) (Nat.pow_le_pow_right Digit.base_pos short)
  · intro small
    by_contra long
    have nonempty : ds ≠ [] := by
      rintro rfl
      exact long (Nat.zero_le n)
    have large := canonical.pow_le_toNat nonempty
    have : Digit.base ^ n ≤ Digit.base ^ (ds.length - 1) :=
      Nat.pow_le_pow_right Digit.base_pos (by omega)
    omega

/-- **One form for each number.** Canonical sequences of one number are equal. -/
theorem Canonical.eq_of_toNat_eq {as bs : Digits} (left : as.Canonical) (right : bs.Canonical)
    (same : as.toNat = bs.toNat) : as = bs := by
  induction as generalizing bs with
  | nil => exact ((right.toNat_eq_zero_iff).mp (by rw [← same]; rfl)).symm
  | cons a as ih =>
      cases bs with
      | nil => exact absurd same (left.toNat_pos (List.cons_ne_nil _ _)).ne'
      | cons b bs =>
          simp only [toNat_cons] at same
          have smallA := Digit.toNat_lt_base a
          have smallB := Digit.toNat_lt_base b
          have low : a.toNat = b.toNat := by
            have := congrArg (· % Digit.base) same
            simpa [Nat.add_mul_mod_self_left, Nat.mod_eq_of_lt smallA,
              Nat.mod_eq_of_lt smallB] using this
          have high : toNat as = toNat bs := by
            rw [low] at same
            exact Nat.eq_of_mul_eq_mul_left Digit.base_pos (Nat.add_left_cancel same)
          rw [UInt64.toNat_inj.mp low, ih left.tail right.tail high]

/-! ### Trimming -/

/-- Trimming from the top: a digit stays below digits that stay, and above none unless it is not
zero. -/
theorem trim_cons (d : Digit) (ds : Digits) :
    trim (d :: ds) = if ds.trim = [] ∧ d = 0 then [] else d :: ds.trim := by
  have empty : ds.trim = [] ↔ ds.significantLength = 0 := by
    rw [trim, List.take_eq_nil_iff]
    constructor
    · rintro (zero | rfl)
      · exact zero
      · rfl
    · exact Or.inl
  cases h : ds.significantLength with
  | zero =>
      have nothing := empty.mpr h
      by_cases zero : d = 0
      · rw [if_pos ⟨nothing, zero⟩]
        simp [trim, significantLength, h, zero]
      · rw [if_neg fun both => zero both.2, nothing]
        simp [trim, significantLength, h, zero]
  | succ n =>
      rw [if_neg fun both => by simp [empty.mp both.1] at h]
      simp [trim, significantLength, h]

theorem toNat_trim (ds : Digits) : ds.trim.toNat = ds.toNat := by
  induction ds with
  | nil => rfl
  | cons d ds ih =>
      rw [trim_cons]
      split
      · rename_i both
        rw [both.1] at ih
        rw [toNat_cons, ← ih, both.2]
        rfl
      · rw [toNat_cons, toNat_cons, ih]

theorem canonical_trim (ds : Digits) : ds.trim.Canonical := by
  induction ds with
  | nil => exact canonical_nil
  | cons d ds ih =>
      rw [trim_cons]
      split
      · exact canonical_nil
      · rename_i kept
        cases h : trim ds with
        | nil =>
            rw [h] at kept
            exact canonical_singleton.mpr fun zero => kept ⟨rfl, zero⟩
        | cons e es =>
            rw [h] at ih
            exact canonical_cons_cons.mpr ih

theorem length_trim_le (ds : Digits) : ds.trim.length ≤ ds.length := by
  rw [trim, List.length_take]
  exact Nat.min_le_right _ _

/-- Trimming changes exactly the sequences that are not canonical. -/
theorem trim_eq_self_iff {ds : Digits} : ds.trim = ds ↔ ds.Canonical := by
  constructor
  · intro same
    rw [← same]
    exact canonical_trim ds
  · intro canonical
    exact (canonical_trim ds).eq_of_toNat_eq canonical (toNat_trim ds)

theorem Canonical.trim_eq {ds : Digits} (canonical : ds.Canonical) : ds.trim = ds :=
  trim_eq_self_iff.mpr canonical

end Digits

end Bignum
