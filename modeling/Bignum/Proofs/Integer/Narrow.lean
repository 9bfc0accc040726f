import Bignum.Integer.Narrow
import Bignum.Proofs.Digits.Shift
import Bignum.Proofs.Integer.Operand

/-!
Narrowing keeps the low bits of the two's complement, or the value.

The low bits are those of the word that the value has in two's complement (`Integer.wrap128_eq`), so
they are the value modulo a power of two, with and without a sign. The exact form goes by way of the
widest types; `Integer.unsigned128?_eq_some_iff` and `Integer.signed128?_eq_some_iff` say that these
hold the values that 128 bits have a word for, and no others, and every type of a kind is within the
widest one (`FixedType.Holds.widest`).

* `Integer.NarrowSound`: what narrowing one integer gives in each of the types.
* `narrowing_exact`: this holds of every canonical integer, and what was widened narrows back.
-/

namespace Bignum

/-! ### Ranges -/

namespace FixedType

/-- A value is within the range of a type. -/
def Holds (type : FixedType) (value : Int) : Prop :=
  type.least ≤ value ∧ value ≤ type.greatest

/-- The widest type with a sign, or without one. -/
def widest (signed : Bool) : FixedType := if signed then int128 else uint128

/-- No type has a value that the widest one of its kind has not. -/
theorem Holds.widest {type : FixedType} {value : Int} (holds : type.Holds value) :
    (FixedType.widest type.signed).Holds value := by
  have low : (FixedType.widest type.signed).least ≤ type.least := by
    cases type <;> decide
  have high : type.greatest ≤ (FixedType.widest type.signed).greatest := by
    cases type <;> decide
  exact ⟨Int.le_trans low holds.1, Int.le_trans holds.2 high⟩

theorem holds_int128_iff {value : Int} :
    int128.Holds value ↔ -2 ^ 127 ≤ value ∧ value < 2 ^ 127 := by
  rw [Holds, show int128.least = -2 ^ 127 by decide, show int128.greatest = 2 ^ 127 - 1 by decide]
  omega

theorem holds_uint128_iff {value : Int} : uint128.Holds value ↔ 0 ≤ value ∧ value < 2 ^ 128 := by
  rw [Holds, show uint128.least = 0 by decide, show uint128.greatest = 2 ^ 128 - 1 by decide]
  omega

/-- The values of a type without a sign are their own low bits. -/
theorem Holds.emod_eq {type : FixedType} {value : Int} (holds : type.Holds value)
    (unsigned : type.signed = false) : value % 2 ^ type.bits = value := by
  obtain ⟨low, high⟩ := holds
  rw [least, unsigned] at low
  rw [greatest, span, unsigned, Nat.one_shiftLeft] at high
  push_cast at high
  exact Int.emod_eq_of_lt low (Int.lt_of_le_sub_one high)

/-- The values of a type with a sign are the two's complement of their low bits. -/
theorem Holds.bmod_eq {type : FixedType} {value : Int} (holds : type.Holds value)
    (signed : type.signed = true) : value.bmod (2 ^ type.bits) = value := by
  obtain ⟨low, high⟩ := holds
  have span : (type.span : Int) = 2 ^ (type.bits - 1) := by
    rw [FixedType.span, signed, if_pos rfl, Nat.one_shiftLeft, Nat.cast_pow, Nat.cast_ofNat]
  have double : (2 ^ type.bits : Nat) = 2 * 2 ^ (type.bits - 1) := by
    cases type <;> rfl
  rw [least, signed, if_pos rfl, span] at low
  rw [greatest, span] at high
  rw [double]
  refine Int.bmod_eq_of_le ?_ ?_
  all_goals
    push_cast
    omega

end FixedType

theorem FixedInt.ofInt?_eq_some_iff {type : FixedType} {value : Int} {x : FixedInt} :
    ofInt? type value = some x ↔ x.type = type ∧ x.value = value := by
  unfold ofInt?
  split
  · constructor
    · intro found
      rw [← Option.some.inj found]
      exact ⟨rfl, rfl⟩
    · rintro ⟨rfl, rfl⟩
      rfl
  · rename_i out
    constructor
    · intro impossible
      cases impossible
    · rintro ⟨rfl, rfl⟩
      exact absurd ⟨x.least_le, x.le_greatest⟩ out

namespace Integer

/-! ### Low bits -/

/-- The two lowest digits are all of a number that 128 bits can show. -/
theorem toNat_low_digits (ds : Digits) :
    (ds.getD 0 0).toNat + Digit.base * (ds.getD 1 0).toNat = ds.toNat % 2 ^ 128 := by
  have taken := ds.toNat_take 2
  rw [Digit.base_eq, ← pow_mul] at taken
  rw [← taken]
  match ds with
  | [] => rfl
  | [low] => rfl
  | low :: high :: _ => simp

/-- **The low bits are those of the two's complement.** -/
theorem wrap128_eq (v : Integer) : v.wrap128 = BitVec.ofInt 128 v.toInt := by
  have magnitude : BitVec.ofNat 128
      ((v.digits.getD 0 0).toNat + Digit.base * (v.digits.getD 1 0).toNat) =
        BitVec.ofInt 128 v.digits.toNat := by
    apply BitVec.eq_of_toNat_eq
    rw [toNat_low_digits, BitVec.ofInt_natCast, BitVec.toNat_ofNat, BitVec.toNat_ofNat, Nat.mod_mod]
  rw [wrap128, toInt]
  simp only [magnitude]
  split
  · exact BitVec.ofInt_neg.symm
  · rfl

theorem toNat_wrap128 (v : Integer) : (v.wrap128.toNat : Int) = v.toInt % 2 ^ 128 := by
  rw [wrap128_eq, BitVec.toNat_ofInt, Int.toNat_of_nonneg (Int.emod_nonneg _ (by decide))]
  rfl

theorem toInt_wrap128 (v : Integer) : v.wrap128.toInt = v.toInt.bmod (2 ^ 128) := by
  rw [wrap128_eq, BitVec.toInt_ofInt]

theorem toNat_wrap64 (v : Integer) : (v.wrap64.toNat : Int) = v.toInt % 2 ^ 64 := by
  rw [wrap64, BitVec.toNat_setWidth, Int.natCast_mod, toNat_wrap128]
  exact Int.emod_emod_of_dvd _ (by decide)

theorem toInt_wrap64 (v : Integer) : v.wrap64.toInt = v.toInt.bmod (2 ^ 64) := by
  rw [BitVec.toInt_eq_toNat_bmod, toNat_wrap64]
  exact Int.emod_bmod _ _

/-! ### Values -/

section Values

variable {v : Integer}

/-- Two digits hold exactly the magnitudes that are words. -/
theorem magnitude128?_eq_some_iff (canonical : v.digits.Canonical) {word : BitVec 128} :
    v.magnitude128? = some word ↔ word.toNat = v.digits.toNat := by
  have fits : v.digits.length ≤ 2 ↔ v.digits.toNat < 2 ^ 128 := by
    rw [canonical.length_le_iff, Digit.base_eq, ← pow_mul]
  have held {n : Nat} (small : n < 2 ^ 128) :
      some (BitVec.ofNat 128 n) = some word ↔ word.toNat = n := by
    rw [Option.some_inj, ← BitVec.toNat_inj, BitVec.toNat_ofNat, Nat.mod_eq_of_lt small, eq_comm]
  unfold magnitude128?
  split
  · rename_i digits
    rw [digits]
    exact held (n := 0) (by decide)
  · rename_i low digits
    rw [digits] at fits ⊢
    simpa using held (fits.mp (by simp))
  · rename_i low high digits
    rw [digits] at fits ⊢
    simpa using held (fits.mp (by simp))
  · rename_i notEmpty notOne notTwo
    have long : ¬ v.digits.length ≤ 2 := by
      intro short
      match digits : v.digits, short with
      | [], _ => exact notEmpty digits
      | [low], _ => exact notOne low digits
      | [low, high], _ => exact notTwo low high digits
    constructor
    · intro impossible
      cases impossible
    · intro same
      rw [← same] at fits
      exact absurd (fits.mpr word.isLt) long

/-- **The widest type without a sign holds exactly what it has a word for.** -/
theorem unsigned128?_eq_some_iff (canonical : v.Canonical) {word : BitVec 128} :
    v.unsigned128? = some word ↔ (word.toNat : Int) = v.toInt := by
  unfold unsigned128?
  cases negative : v.negative with
  | true =>
      rw [canonical.negative_eq, decide_eq_true_iff] at negative
      rw [if_pos rfl]
      constructor
      · intro impossible
        cases impossible
      · intro same
        omega
  | false =>
      rw [if_neg Bool.false_ne_true, magnitude128?_eq_some_iff canonical.1, toInt, negative,
        if_neg Bool.false_ne_true, Int.natCast_inj]

/-- A magnitude in two's complement, with the sign of its highest bit. -/
theorem toInt_of_toNat_lt {magnitude : BitVec 128} (small : magnitude.toNat < 2 ^ 127) :
    magnitude.toInt = magnitude.toNat :=
  BitVec.toInt_eq_toNat_of_lt (by omega)

theorem toInt_neg_of_toNat_le {magnitude : BitVec 128} (small : magnitude.toNat ≤ 2 ^ 127) :
    (-magnitude).toInt = -(magnitude.toNat : Int) := by
  have word : -magnitude = BitVec.ofInt 128 (-(magnitude.toNat : Int)) := by
    rw [BitVec.ofInt_neg, BitVec.ofInt_natCast, BitVec.ofNat_toNat, BitVec.setWidth_eq]
  rw [word, BitVec.toInt_ofInt_eq_self (by decide) (by omega) (by omega)]

/-- **The widest type with a sign holds exactly what it has a word for**, the least value
included. -/
theorem signed128?_eq_some_iff (canonical : v.Canonical) {word : BitVec 128} :
    v.signed128? = some word ↔ word.toInt = v.toInt := by
  have low : -2 ^ 127 ≤ word.toInt := BitVec.le_toInt word
  have high : word.toInt < 2 ^ 127 := BitVec.toInt_lt
  unfold signed128?
  cases found : v.magnitude128? with
  | none =>
      constructor
      · intro impossible
        cases impossible
      · intro same
        have small : v.digits.toNat < 2 ^ 128 := by
          rw [← natAbs_toInt, ← same]
          omega
        have held := (magnitude128?_eq_some_iff canonical.1).mpr
          (show (BitVec.ofNat 128 v.digits.toNat).toNat = _ from Nat.mod_eq_of_lt small)
        cases found.symm.trans held
  | some magnitude =>
      have value := (magnitude128?_eq_some_iff canonical.1).mp found
      rw [Option.bind_some, toInt, ← value, Nat.one_shiftLeft]
      cases v.negative with
      | true =>
          simp only [if_true]
          split
          · constructor
            · intro impossible
              cases impossible
            · intro same
              omega
          · rename_i fits
            rw [Option.some_inj, ← BitVec.toInt_inj, toInt_neg_of_toNat_le (Nat.le_of_not_lt fits),
              eq_comm]
      | false =>
          simp only [Bool.false_eq_true, if_false]
          split
          · rename_i fits
            rw [Option.some_inj, ← BitVec.toInt_inj, toInt_of_toNat_lt fits, eq_comm]
          · constructor
            · intro impossible
              cases impossible
            · intro same
              omega

theorem widest?_eq_some_iff (canonical : v.Canonical) {signed : Bool} {value : Int} :
    v.widest? signed = some value ↔ value = v.toInt ∧ (FixedType.widest signed).Holds value := by
  cases signed with
  | true =>
      show v.signed128?.map (·.toInt) = some value ↔ value = v.toInt ∧ FixedType.int128.Holds value
      rw [Option.map_eq_some_iff, FixedType.holds_int128_iff]
      simp only [signed128?_eq_some_iff canonical]
      constructor
      · rintro ⟨word, same, rfl⟩
        exact ⟨same, BitVec.le_toInt word, BitVec.toInt_lt⟩
      · rintro ⟨rfl, low, high⟩
        have word := BitVec.toInt_ofInt_eq_self (by decide : 0 < 128) low high
        exact ⟨_, word, word⟩
  | false =>
      show v.unsigned128?.map (fun word => (word.toNat : Int)) = some value ↔
        value = v.toInt ∧ FixedType.uint128.Holds value
      rw [Option.map_eq_some_iff, FixedType.holds_uint128_iff]
      simp only [unsigned128?_eq_some_iff canonical]
      constructor
      · rintro ⟨word, same, rfl⟩
        have small := word.isLt
        exact ⟨same, by omega, by omega⟩
      · rintro ⟨rfl, low, high⟩
        have word : ((BitVec.ofNat 128 v.toInt.toNat).toNat : Int) = v.toInt := by
          rw [BitVec.toNat_ofNat, Nat.mod_eq_of_lt (by omega), Int.toNat_of_nonneg low]
        exact ⟨_, word, word⟩

/-- **Narrowing gives the value exactly.** -/
theorem narrow_eq_ok_iff (canonical : v.Canonical) {type : FixedType} {x : FixedInt} :
    v.narrow type = .ok x ↔ x.type = type ∧ x.value = v.toInt := by
  have found : v.narrow type = .ok x ↔
      (v.widest? type.signed).bind (FixedInt.ofInt? type) = some x := by
    unfold narrow
    split
    · rename_i none
      rw [none]
      constructor
      · intro impossible
        cases impossible
      · intro impossible
        cases impossible
    · rename_i some
      rw [some, Option.some_inj, Except.ok.injEq]
  rw [found, Option.bind_eq_some_iff]
  simp only [widest?_eq_some_iff canonical, FixedInt.ofInt?_eq_some_iff]
  constructor
  · rintro ⟨value, ⟨rfl, -⟩, same⟩
    exact same
  · rintro ⟨rfl, same⟩
    have holds : x.type.Holds v.toInt := by
      rw [← same]
      exact ⟨x.least_le, x.le_greatest⟩
    exact ⟨v.toInt, ⟨rfl, holds.widest⟩, rfl, same⟩

/-- What was narrowed is within the range of the type. -/
theorem held_of_narrow (canonical : v.Canonical) {type : FixedType} {x : FixedInt}
    (made : v.narrow type = .ok x) : x.value = v.toInt ∧ type.Holds v.toInt := by
  obtain ⟨rfl, same⟩ := (narrow_eq_ok_iff canonical).mp made
  exact ⟨same, same ▸ x.least_le, same ▸ x.le_greatest⟩

/-- **Narrowing fails exactly for what is out of range**, and names the type that was asked for. -/
theorem narrow_eq_error_iff (canonical : v.Canonical) {type : FixedType} {e : OutOfRange} :
    v.narrow type = .error e ↔ ¬ type.Holds v.toInt ∧ e = { target := type } := by
  have named : ∀ e', v.narrow type = .error e' → e' = { target := type } := by
    intro e' failed
    unfold narrow at failed
    split at failed
    · exact (Except.error.inj failed).symm
    · cases failed
  constructor
  · intro failed
    refine ⟨fun holds => ?_, named e failed⟩
    have held :=
      (narrow_eq_ok_iff canonical (x := ⟨type, v.toInt, holds.1, holds.2⟩)).mpr ⟨rfl, rfl⟩
    cases failed.symm.trans held
  · rintro ⟨out, rfl⟩
    cases made : v.narrow type with
    | error e => rw [named e made]
    | ok x => exact absurd (held_of_narrow canonical made).2 out

end Values

/-! ### What narrowing gives -/

/-- What an integer is narrowed to, in both forms and in each of the types. -/
structure NarrowSound (v : Integer) : Prop where
  unsigned128 : (v.wrap128.toNat : Int) = v.toInt % 2 ^ 128
  unsigned64 : (v.wrap64.toNat : Int) = v.toInt % 2 ^ 64
  signed128 : v.wrap128.toInt = v.toInt.bmod (2 ^ 128)
  signed64 : v.wrap64.toInt = v.toInt.bmod (2 ^ 64)
  held : ∀ type, (∃ x, v.narrow type = .ok x) ↔ type.least ≤ v.toInt ∧ v.toInt ≤ type.greatest
  exact : ∀ type x, v.narrow type = .ok x → x.type = type ∧ x.value = v.toInt
  refused : ∀ type, ¬ (type.least ≤ v.toInt ∧ v.toInt ≤ type.greatest) →
    v.narrow type = .error { target := type }
  /-- Where both forms have an answer, it is the same. -/
  agrees : (∀ x, v.narrow .uint128 = .ok x → x.value = v.wrap128.toNat) ∧
    (∀ x, v.narrow .int128 = .ok x → x.value = v.wrap128.toInt) ∧
    (∀ x, v.narrow .uint64 = .ok x → x.value = v.wrap64.toNat) ∧
    ∀ x, v.narrow .int64 = .ok x → x.value = v.wrap64.toInt

theorem narrowSound {v : Integer} (canonical : v.Canonical) : v.NarrowSound where
  unsigned128 := v.toNat_wrap128
  unsigned64 := v.toNat_wrap64
  signed128 := v.toInt_wrap128
  signed64 := v.toInt_wrap64
  held type := by
    constructor
    · rintro ⟨x, made⟩
      exact (held_of_narrow canonical made).2
    · rintro ⟨low, high⟩
      exact ⟨⟨type, v.toInt, low, high⟩, (narrow_eq_ok_iff canonical).mpr ⟨rfl, rfl⟩⟩
  exact type x made := (narrow_eq_ok_iff canonical).mp made
  refused type out := (narrow_eq_error_iff canonical).mpr ⟨out, rfl⟩
  agrees := by
    refine ⟨fun x made => ?_, fun x made => ?_, fun x made => ?_, fun x made => ?_⟩
    all_goals
      obtain ⟨value, holds⟩ := held_of_narrow canonical made
      rw [value]
    · rw [toNat_wrap128]
      exact (holds.emod_eq rfl).symm
    · rw [toInt_wrap128]
      exact (holds.bmod_eq rfl).symm
    · rw [toNat_wrap64]
      exact (holds.emod_eq rfl).symm
    · rw [toInt_wrap64]
      exact (holds.bmod_eq rfl).symm

end Integer

/-- **Narrowing is two's complement or exact**: the low bits of a canonical integer are its value
modulo a power of two, and each type takes exactly the values that it has. What was widened narrows
back. -/
theorem narrowing_exact :
    (∀ v : Integer, v.Canonical → v.NarrowSound) ∧
    ∀ x : FixedInt, (Integer.ofFixed x).narrow x.type = .ok x :=
  ⟨fun _ => Integer.narrowSound,
    fun x => (Integer.narrow_eq_ok_iff (Integer.canonical_ofFixed x)).mpr
      ⟨rfl, (Integer.toInt_ofFixed x).symm⟩⟩

/-- The value next to the least one of the widest signed type, and one of three digits. -/
theorem narrowing_exact_least :
    let least : Integer := { negative := true, digits := [0, 0x8000000000000000] }
    let below : Integer := { negative := true, digits := [1, 0x8000000000000000] }
    let far : Integer := { negative := true, digits := [1, 0, 1] }
    least.Canonical ∧ below.Canonical ∧ far.Canonical ∧
      (∃ x, least.narrow .int128 = .ok x) ∧ least.wrap128.toInt = -2 ^ 127 ∧
      below.narrow .int128 = .error { target := .int128 } ∧ below.wrap128.toInt = 2 ^ 127 - 1 ∧
      far.narrow .int8 = .error { target := .int8 } ∧ far.wrap64.toInt = -1 := by
  intro least below far
  obtain ⟨integers, -⟩ := narrowing_exact
  have canonicalLeast : least.Canonical := by decide
  have canonicalBelow : below.Canonical := by decide
  have canonicalFar : far.Canonical := by decide
  have soundLeast := integers least canonicalLeast
  have soundBelow := integers below canonicalBelow
  have soundFar := integers far canonicalFar
  refine ⟨canonicalLeast, canonicalBelow, canonicalFar,
    (soundLeast.held .int128).mpr (by decide +kernel), ?_, ?_, ?_, ?_, ?_⟩
  · rw [soundLeast.signed128]
    decide +kernel
  · exact soundBelow.refused .int128 (by decide +kernel)
  · rw [soundBelow.signed128]
    decide +kernel
  · exact soundFar.refused .int8 (by decide +kernel)
  · rw [soundFar.signed64]
    decide +kernel

end Bignum
