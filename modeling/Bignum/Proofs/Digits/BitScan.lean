import Bignum.Proofs.Digits.Bits

/-!
Questions about the bits of digit sequences as scans over words.

A scan looks for one word, counts bits in it, and adds all the bits of the words below. The word is
the one at the top, the lowest one that is not zero, or the one at the top if all others are zero.
Counts are words too, and a scan stops where one of them would need more.

* `Digit.bitLength_eq`, `Digit.lowestBit?_eq`, `Digit.powerOfTwo?_eq`: what is counted in one word.
* `wordBitLength_eq`, `wordLowestBit_eq`, `wordPowerOfTwo_eq`: below `2 ^ 58` digits no scan stops,
  and each one answers its question.
* `BitsSound`, `BitsMoved`: what the answers say about the number, and what a shift up does to them.
* `bit_queries_exact`: both hold of all canonical digits and of every shift up that is granted.
-/

namespace Bignum

/-! ### Bits of a word -/

namespace Digit

/-- The number of zeros above the highest bit that is set. -/
def leadingZeros (d : Digit) : Nat := d.toBitVec.clz.toNat

/-- The number of zeros below the lowest bit that is set. -/
def trailingZeros (d : Digit) : Nat := d.toBitVec.ctz.toNat

/-- The number of bits that are set. -/
def ones (d : Digit) : Nat := d.toBitVec.cpop.toNat

variable {d : Digit}

theorem toBitVec_ne_zero (nonzero : d ≠ 0) : d.toBitVec ≠ 0#64 :=
  fun zero => nonzero (UInt64.eq_of_toBitVec_eq zero)

theorem leadingZeros_le (d : Digit) : d.leadingZeros ≤ 64 :=
  BitVec.le_def.mp (BitVec.clz_le (x := d.toBitVec))

/-- What is not above the highest bit is up to it. -/
theorem bitLength_eq (d : Digit) : d.bitLength = 64 - d.leadingZeros := by
  have most : d.bitLength ≤ 64 - d.leadingZeros :=
    (d.bitLength_le_iff _).mpr BitVec.toNat_lt_two_pow_sub_clz
  by_cases zero : d = 0
  · rw [zero]
    decide
  · have large : 2 ^ (63 - d.leadingZeros) ≤ d.toNat :=
      BitVec.two_pow_sub_clz_le_toNat_of_ne_zero (by decide) (toBitVec_ne_zero zero)
    have least : ¬ d.bitLength ≤ 63 - d.leadingZeros := fun short =>
      absurd ((d.bitLength_le_iff _).mp short) (Nat.not_lt.mpr large)
    omega

theorem lowestBit?_eq (nonzero : d ≠ 0) : d.lowestBit? = some d.trailingZeros := by
  have set := BitVec.getLsbD_true_ctz_of_ne_zero (toBitVec_ne_zero nonzero)
  refine List.find?_range_eq_some.mpr
    ⟨set, List.mem_range.mpr (BitVec.lt_of_getLsbD set), fun j below => ?_⟩
  have clear : d.toNat.testBit j = false := BitVec.getLsbD_false_of_lt_ctz below
  rw [clear, Bool.not_false]

theorem trailingZeros_lt (nonzero : d ≠ 0) : d.trailingZeros < 64 :=
  lt_of_lowestBit? (lowestBit?_eq nonzero)

/-! ### Counting ones -/

/-- One more place adds its bit. -/
theorem ones_below_succ (d : Digit) (n : Nat) :
    d.toBitVec.cpopNatRec (n + 1) 0 = d.toBitVec.cpopNatRec n 0 + d.toNat / 2 ^ n % 2 := by
  rw [BitVec.cpopNatRec_succ, BitVec.cpopNatRec_eq, Nat.zero_add, ← Nat.toNat_testBit]
  rfl

theorem ones_below_eq_zero_iff (d : Digit) (n : Nat) :
    d.toBitVec.cpopNatRec n 0 = 0 ↔ d.toNat % 2 ^ n = 0 := by
  induction n with
  | zero => exact iff_of_true rfl (Nat.mod_one _)
  | succ n ih =>
      rw [ones_below_succ, Nat.mod_pow_succ, Nat.add_eq_zero_iff, Nat.add_eq_zero_iff, ih,
        Nat.mul_eq_zero, or_iff_right (Nat.two_pow_pos n).ne']

/-- A single bit among the lowest ones makes a power of two of them. -/
theorem ones_below_eq_one_iff (d : Digit) (n : Nat) :
    d.toBitVec.cpopNatRec n 0 = 1 ↔ ∃ k, d.toNat % 2 ^ n = 2 ^ k := by
  induction n with
  | zero =>
      refine iff_of_false nofun ?_
      rintro ⟨k, power⟩
      exact absurd (power.symm.trans (Nat.mod_one _)) (Nat.two_pow_pos k).ne'
  | succ n ih =>
      rw [ones_below_succ, Nat.mod_pow_succ]
      rcases Nat.mod_two_eq_zero_or_one (d.toNat / 2 ^ n) with clear | set
      · rw [clear, Nat.mul_zero, Nat.add_zero, Nat.add_zero, ih]
      · rw [set, Nat.mul_one, Nat.succ_inj, ones_below_eq_zero_iff]
        constructor
        · intro zero
          exact ⟨n, by rw [zero, Nat.zero_add]⟩
        · rintro ⟨k, power⟩
          -- The power is at least this bit and less than the next one.
          have small := Nat.mod_lt d.toNat (Nat.two_pow_pos n)
          have least : n ≤ k := (Nat.pow_le_pow_iff_right (by decide)).mp (by omega : 2 ^ n ≤ 2 ^ k)
          have most : k < n + 1 := (Nat.pow_lt_pow_iff_right (by decide)).mp
            (by rw [← power, pow_succ]; omega : 2 ^ k < 2 ^ (n + 1))
          obtain rfl : k = n := by omega
          omega

theorem ones_eq_one_iff : d.ones = 1 ↔ ∃ k, d.toNat = 2 ^ k := by
  rw [ones, BitVec.toNat_cpop, ones_below_eq_one_iff, Nat.mod_eq_of_lt (base_eq ▸ d.toNat_lt_base)]

/-- **A word with a single bit is a power of two**, and its exponent is the number of zeros below
that bit. -/
theorem powerOfTwo?_eq (d : Digit) :
    d.powerOfTwo? = if d.ones = 1 then some d.trailingZeros else none := by
  split
  · rename_i single
    obtain ⟨k, power⟩ := ones_eq_one_iff.mp single
    have nonzero : d ≠ 0 := by
      rintro rfl
      exact (Nat.two_pow_pos k).ne power
    have lowest := isGreatest_of_lowestBit? (lowestBit?_eq nonzero)
    rw [power] at lowest
    rw [powerOfTwo?_of_toNat power, lowest.unique (isGreatest_dvd_two_pow k)]
  · rename_i several
    refine Option.eq_none_iff_forall_ne_some.mpr fun k found => several ?_
    exact ones_eq_one_iff.mpr ⟨k, toNat_of_powerOfTwo? found⟩

/-- A count that one word holds. -/
def count? (n : Nat) : Option Nat := if n < base then some n else none

/-- A bit of the word at an index, counted from the lowest bit of all. -/
def place? (index bit : Nat) : Option Nat :=
  (count? (index * 64)).bind fun below => count? (below + bit)

theorem place?_eq {index bit : Nat} (few : index < 2 ^ 58) (inWord : bit < 64) :
    place? index bit = some (64 * index + bit) := by
  have below : index * 64 < base := by
    rw [base_eq]
    omega
  have whole : index * 64 + bit < base := by
    rw [base_eq]
    omega
  rw [place?, count?, if_pos below, Option.bind_some, count?, if_pos whole, Nat.mul_comm]

end Digit

namespace Digits

/-! ### Scans -/

/-- The bits of all words but the zeros at the top. -/
def wordBitLength (ds : Digits) : Option Nat :=
  match ds.getLast? with
  | none => some 0
  | some top =>
      (Digit.count? (ds.length * 64)).bind fun whole =>
        if top.leadingZeros ≤ whole then some (whole - top.leadingZeros) else none

/-- The lowest bit of the lowest word that is not zero. -/
def wordLowestBit (ds : Digits) : Option (Option Nat) :=
  match ds.findIdx? (· != 0) with
  | none => some none
  | some index =>
      (ds[index]?).bind fun here => (Digit.place? index here.trailingZeros).map some

/-- The only bit of the word at the top, if the others are zero. -/
def wordPowerOfTwo (ds : Digits) : Option (Option Nat) :=
  match ds.getLast? with
  | none => some none
  | some top =>
      if top.ones ≠ 1 ∨ ds.dropLast.any (· != 0) then some none
      else (Digit.place? ds.dropLast.length top.trailingZeros).map some

/-! ### The scans answer -/

variable {ds : Digits}

/-- **The scan of the top word counts the bits.** -/
theorem wordBitLength_eq (few : ds.length < 2 ^ 58) : wordBitLength ds = some ds.bitLength := by
  rcases List.eq_nil_or_concat' ds with rfl | ⟨low, top, rfl⟩
  · rfl
  · rw [List.length_append, List.length_singleton] at few
    have narrow : (low.length + 1) * 64 < Digit.base := by
      rw [Digit.base_eq]
      omega
    have most := top.leadingZeros_le
    have within : top.leadingZeros ≤ (low.length + 1) * 64 := by omega
    rw [bitLength_concat, top.bitLength_eq, wordBitLength, List.getLast?_concat]
    simp only [List.length_append, List.length_singleton, Digit.count?, if_pos narrow,
      Option.bind_some, if_pos within, Option.some_inj]
    omega

/-- The lowest bit is in the lowest word that is not zero. -/
theorem lowestBit?_eq_of_findIdx? (ds : Digits) :
    ds.lowestBit? = (ds.findIdx? (· != 0)).bind fun index =>
      (ds[index]?).map fun here => 64 * index + here.trailingZeros := by
  induction ds with
  | nil => rfl
  | cons d ds ih =>
      rw [List.findIdx?_cons, lowestBit?]
      by_cases zero : d = 0
      · rw [zero, Digit.lowestBit?_eq_none_iff.mpr rfl, ih]
        cases ds.findIdx? (· != 0) with
        | none => rfl
        | some index =>
            cases here : ds[index]? with
            | none => simp [here]
            | some above =>
                simp [here]
                omega
      · simp [Digit.lowestBit?_eq zero, zero]

/-- **The scan from the bottom finds the lowest bit.** -/
theorem wordLowestBit_eq (few : ds.length < 2 ^ 58) : wordLowestBit ds = some ds.lowestBit? := by
  rw [wordLowestBit, lowestBit?_eq_of_findIdx?]
  cases found : ds.findIdx? (· != 0) with
  | none => rfl
  | some index =>
      obtain ⟨inRange, nonzero, -⟩ := List.findIdx?_eq_some_iff_getElem.mp found
      have inWord := Digit.trailingZeros_lt (bne_iff_ne.mp nonzero)
      simp only [List.getElem?_eq_getElem inRange, Option.bind_some, Option.map_some,
        Digit.place?_eq (inRange.trans few) inWord]

/-- **The scan for a single bit finds the powers of two.** -/
theorem wordPowerOfTwo_eq (few : ds.length < 2 ^ 58) : wordPowerOfTwo ds = some ds.powerOfTwo? := by
  rcases List.eq_nil_or_concat' ds with rfl | ⟨low, top, rfl⟩
  · rfl
  · rw [List.length_append, List.length_singleton] at few
    have others : low.any (· != 0) = !low.all (· == 0) := List.not_all_eq_any_not.symm
    rw [powerOfTwo?_concat, top.powerOfTwo?_eq, wordPowerOfTwo, List.getLast?_concat]
    simp only [List.dropLast_concat, others]
    by_cases single : top.ones = 1
    · have nonzero : top ≠ 0 := by
        rintro rfl
        exact absurd single (by decide)
      rw [Digit.place?_eq (by omega) (Digit.trailingZeros_lt nonzero)]
      cases low.all (· == 0) with
      | false => simp
      | true => simp [single]
    · simp [single]

/-! ### All questions -/

/-- What the answers say about the number of a digit sequence. -/
structure BitsSound (ds : Digits) : Prop where
  bitLength : IsLeast {k | ds.toNat < 2 ^ k} ds.bitLength
  noBit : ds.lowestBit? = none ↔ ds.toNat = 0
  lowestBit : ∀ k, ds.lowestBit? = some k ↔ IsGreatest {j | 2 ^ j ∣ ds.toNat} k
  powerOfTwo : ∀ k, ds.powerOfTwo? = some k ↔ ds.toNat = 2 ^ k
  oneBit : ds ≠ [] → ∀ k, ds.toNat = 2 ^ k ↔
    ds.lowestBit? = some (ds.bitLength - 1) ∧ ds.bitLength - 1 = k
  /-- So many digits have no more bits than one word counts. -/
  scans : ds.length < 2 ^ 58 → wordBitLength ds = some ds.bitLength ∧
    wordLowestBit ds = some ds.lowestBit? ∧ wordPowerOfTwo ds = some ds.powerOfTwo?

theorem bitsSound (canonical : ds.Canonical) : BitsSound ds where
  bitLength := ⟨(canonical.bitLength_le_iff _).mp (Nat.le_refl _),
    fun k fits => (canonical.bitLength_le_iff k).mpr fits⟩
  noBit := lowestBit?_eq_none_iff
  lowestBit _ := lowestBit?_eq_some_iff
  powerOfTwo _ := canonical.powerOfTwo?_eq_some_iff
  oneBit nonzero k := by
    have some : ¬ ds.bitLength ≤ 0 := by
      rw [canonical.bitLength_le_iff, pow_zero, Nat.lt_one_iff]
      exact (canonical.toNat_pos nonzero).ne'
    rw [canonical.toNat_eq_two_pow_iff]
    constructor
    · rintro ⟨lowest, length⟩
      rw [length, Nat.add_sub_cancel]
      exact ⟨lowest, rfl⟩
    · rintro ⟨lowest, rfl⟩
      exact ⟨lowest, by omega⟩
  scans few := ⟨wordBitLength_eq few, wordLowestBit_eq few, wordPowerOfTwo_eq few⟩

/-- What a shift up does to the answers. -/
structure BitsMoved (ds : Digits) (bits : Nat) (result : Digits) : Prop where
  sound : BitsSound result
  nonzero : result ≠ []
  bitLength : result.bitLength = ds.bitLength + bits
  lowestBit : result.lowestBit? = ds.lowestBit?.map (· + bits)
  powerOfTwo : result.powerOfTwo? = ds.powerOfTwo?.map (· + bits)

theorem bitsMoved (canonical : ds.Canonical) (nonzero : ds ≠ []) {limit bits : Nat}
    {result : Digits} (done : ds.shl limit bits = .ok result) : BitsMoved ds bits result where
  sound := bitsSound (canonical_of_shl done)
  nonzero := by
    rintro rfl
    have zero := toNat_of_shl done
    exact (Nat.mul_pos (canonical.toNat_pos nonzero) (Nat.two_pow_pos bits)).ne zero
  bitLength := bitLength_of_shl canonical nonzero done
  lowestBit := lowestBit?_of_shl done
  powerOfTwo := powerOfTwo?_of_shl canonical done

/-- **The answers about bits are those of the number**, and a shift up moves them by its bits. -/
theorem bit_queries_exact (canonical : ds.Canonical) :
    BitsSound ds ∧ (ds ≠ [] → ∀ limit bits result, ds.shl limit bits = .ok result →
      BitsMoved ds bits result) :=
  ⟨bitsSound canonical, fun nonzero _ _ _ => bitsMoved canonical nonzero⟩

/-- Two bits, which a shift moves apart into two digits. -/
theorem bit_queries_exact_apart :
    let ds : Digits := [0, 0x6000000000000000]
    let result : Digits := [0, 0, 0x8000000000000000, 1]
    ds.Canonical ∧ ds ≠ [] ∧ ds.shl 5 66 = .ok result ∧ ds.bitLength = 127 ∧
      wordBitLength ds = some 127 ∧ wordBitLength result = some 193 ∧
      IsGreatest {j | 2 ^ j ∣ ds.toNat} 125 ∧ wordLowestBit result = some (some 191) ∧
      wordPowerOfTwo result = some none := by
  intro ds result
  have canonical : ds.Canonical := by decide
  have nonzero : ds ≠ [] := by decide
  have done : ds.shl 5 66 = .ok result := by decide
  have length : ds.bitLength = 127 := by decide
  have lowest : ds.lowestBit? = some 125 := by decide
  have several : ds.powerOfTwo? = none := by decide
  obtain ⟨sound, moved⟩ := bit_queries_exact canonical
  have after := moved nonzero 5 66 result done
  obtain ⟨bitLength, lowestBit, powerOfTwo⟩ := after.sound.scans (by decide)
  rw [after.bitLength, length] at bitLength
  rw [after.lowestBit, lowest] at lowestBit
  rw [after.powerOfTwo, several] at powerOfTwo
  exact ⟨canonical, nonzero, done, length, length ▸ (sound.scans (by decide)).1, bitLength,
    (sound.lowestBit 125).mp lowest, lowestBit, powerOfTwo⟩

end Digits

end Bignum
