import Bignum.Proofs.Digits.OneDigit
import Bignum.Proofs.Integer.Value
import Bignum.Proofs.Storage
import Bignum.Proofs.Text.Symbol
import Mathlib.Data.Nat.Digits.Lemmas

/-!
The text of an integer is its numeral.

What is to be written is said without chunks: `standard` takes the places of a number from Mathlib's
`Nat.digits`, and `written` puts a sign and zeros in front.

* `chunkSymbols_append`, `chunkSymbols_last`: a remainder gives the places that it stands for, those
  with zeros too unless it is the last.
* `symbols_eq`: all remainders together give the places of the number.
* `toText_eq`: the text of an integer is `written`, as long as its digits can be copied.
-/

namespace Bignum

namespace Text

/-! ### Numerals -/

/-- The symbols of the values below 36. -/
def alphabet : List Char := "0123456789ABCDEFGHIJKLMNOPQRSTUVWXYZ".toList

/-- The numeral of a number, most significant place first and without zeros in front. -/
def standard (radix n : Nat) : List Char :=
  if n = 0 then ['0'] else (Nat.digits radix n).reverse.map fun value => alphabet.getD value ' '

/-- The text of a value: a minus sign if it is negative, zeros up to `minDigits` places, and the
numeral. -/
def written (radix minDigits : Nat) (value : Int) : String :=
  String.ofList ((if value < 0 then ['-'] else []) ++
    (standard radix value.natAbs).leftpad minDigits '0')

theorem symbol_eq_getD : ∀ value < 36, symbol value = alphabet.getD value ' ' := by
  decide

variable {radix : Nat}

/-- Any number but zero is written by its places alone. -/
theorem standard_eq_map_symbol (range : 2 ≤ radix ∧ radix ≤ 36) {n : Nat} (positive : n ≠ 0) :
    standard radix n = (Nat.digits radix n).reverse.map symbol := by
  rw [standard, if_neg positive]
  refine List.map_congr_left fun value mem => (symbol_eq_getD value ?_).symm
  have below := Nat.digits_lt_base (show 1 < radix by omega) (List.mem_reverse.mp mem)
  omega

/-! ### Chunks -/

/-- A remainder with more above it gives all of its places. -/
theorem chunkSymbols_append (large : 1 < radix) (count : Nat) {rest above : Nat}
    (small : rest < radix ^ count) (more : above ≠ 0) :
    chunkSymbols radix count false rest ++ (Nat.digits radix above).map symbol =
      (Nat.digits radix (rest + radix ^ count * above)).map symbol := by
  induction count generalizing rest with
  | zero =>
      rw [Nat.pow_zero] at small ⊢
      obtain rfl : rest = 0 := by omega
      simp [chunkSymbols]
  | succ count ih =>
      have lower : rest / radix < radix ^ count :=
        Nat.div_lt_of_lt_mul (by rw [Nat.pow_succ, Nat.mul_comm] at small; exact small)
      have split : rest + radix ^ (count + 1) * above =
          rest % radix + radix * (rest / radix + radix ^ count * above) := by
        rw [Nat.pow_succ]
        linear_combination (Nat.mod_add_div rest radix).symm
      have positive : rest / radix + radix ^ count * above ≠ 0 := by
        have high : 0 < radix ^ count * above :=
          Nat.mul_pos (Nat.pow_pos (by omega)) (Nat.pos_of_ne_zero more)
        exact (Nat.add_pos_right _ high).ne'
      rw [split, Nat.digits_add radix large _ _ (Nat.mod_lt rest (by omega)) (.inr positive),
        List.map_cons, ← ih lower]
      rfl

/-- The last remainder gives no zeros in front. -/
theorem chunkSymbols_last (large : 1 < radix) (count : Nat) {rest : Nat}
    (small : rest < radix ^ count) :
    chunkSymbols radix count true rest = (Nat.digits radix rest).map symbol := by
  induction count generalizing rest with
  | zero =>
      rw [Nat.pow_zero] at small
      obtain rfl : rest = 0 := by omega
      simp [chunkSymbols]
  | succ count ih =>
      have lower : rest / radix < radix ^ count :=
        Nat.div_lt_of_lt_mul (by rw [Nat.pow_succ, Nat.mul_comm] at small; exact small)
      by_cases nothing : rest = 0
      · simp [chunkSymbols, nothing]
      · have some : (rest == 0) = false := beq_eq_false_iff_ne.mpr nothing
        rw [Nat.digits_def' large (Nat.pos_of_ne_zero nothing), List.map_cons, ← ih lower,
          chunkSymbols, some]
        rfl

/-! ### All remainders -/

/-- A digit holds the power of the radix that a magnitude is divided by. -/
theorem toNat_chunkPower (radix : Nat) :
    (chunkPower radix).toNat = radix ^ chunkLength radix :=
  Digit.toNat_ofNat_of_lt (pow_chunkLength_lt radix)

/-- **The remainders write the number.** The fuel is enough as soon as the number has no more bits
than that, since every division at least halves it. -/
theorem symbols_eq (range : 2 ≤ radix ∧ radix ≤ 36) {fuel : Nat} {ds : Digits}
    (canonical : ds.Canonical) (enough : ds.toNat < 2 ^ fuel) :
    symbols radix fuel ds = (Nat.digits radix ds.toNat).map symbol := by
  have large : 1 < radix := by omega
  have chunk := toNat_chunkPower radix
  have halves : 2 ≤ radix ^ chunkLength radix :=
    range.1.trans (Nat.le_self_pow (chunkLength_pos range.2).ne' radix)
  have nonzero : chunkPower radix ≠ 0 := fun zero => by
    rw [Digit.eq_zero_iff_toNat.mp zero] at chunk
    omega
  induction fuel generalizing ds with
  | zero =>
      obtain zero : ds.toNat = 0 := by omega
      rw [zero, symbols, Nat.digits_zero, List.map_nil]
  | succ fuel ih =>
      obtain ⟨quotient, rest⟩ := Digits.toNat_divRemDigit nonzero ds
      rw [chunk] at quotient rest
      have above : (Digits.divRemDigit (chunkPower radix) ds).1.trim.toNat =
          ds.toNat / radix ^ chunkLength radix := by
        rw [Digits.toNat_trim, quotient]
      have shorter : ds.toNat / radix ^ chunkLength radix < 2 ^ fuel := by
        refine Nat.div_lt_of_lt_mul (enough.trans_le ?_)
        rw [Nat.pow_succ, Nat.mul_comm]
        exact Nat.mul_le_mul_right _ halves
      have small := Nat.mod_lt ds.toNat (show 0 < radix ^ chunkLength radix by omega)
      rw [symbols]
      split
      · rename_i empty
        rw [List.isEmpty_iff.mp empty, Digits.toNat_nil, Nat.digits_zero, List.map_nil]
      · simp only [rest]
        rw [ih (Digits.canonical_trim _) (above ▸ shorter), above]
        -- The remainder is the last one exactly if nothing is above it.
        have last := (Digits.canonical_trim
          (Digits.divRemDigit (chunkPower radix) ds).1).toNat_eq_zero_iff
        rw [above] at last
        by_cases nothing : ds.toNat / radix ^ chunkLength radix = 0
        · rw [last.mp nothing, List.isEmpty_nil, chunkSymbols_last large _ small, nothing,
            Nat.digits_zero, List.map_nil, List.append_nil]
          rw [Nat.mod_eq_of_lt ((Nat.div_eq_zero_iff_lt (by omega)).mp nothing)]
        · rw [List.isEmpty_eq_false_iff.mpr fun empty => nothing (last.mpr empty),
            chunkSymbols_append large _ small nothing, Nat.mod_add_div]

/-- The numeral of a magnitude is written whenever its digits can be copied. -/
theorem numeral_eq (range : 2 ≤ radix ∧ radix ≤ 36) {limit : Nat} {ds : Digits}
    (canonical : ds.Canonical) (room : ds.length < limit) :
    numeral limit radix ds = .ok ((Nat.digits radix ds.toNat).reverse.map symbol) := by
  have copied : ds.copy limit = .ok ds :=
    Digits.copy_eq_ok_iff.mpr ⟨Storage.request_eq_ok_iff.mpr (.inr room), rfl⟩
  have enough : ds.toNat < 2 ^ (64 * ds.length) := by
    rw [Nat.pow_mul]
    exact Digits.toNat_lt_pow_length ds
  rw [numeral, copied, Except.map, symbols_eq range canonical enough, List.map_reverse]

end Text

namespace Integer

open Text

/-- **The text of an integer is its value, written.** -/
theorem toText_eq {limit radix : Nat} (range : 2 ≤ radix ∧ radix ≤ 36) {v : Integer}
    (canonical : v.Canonical) (room : v.digits.length < limit) (minDigits : Nat) :
    v.toText limit radix minDigits = .ok (written radix minDigits v.toInt) := by
  have sign : v.negative = decide (v.toInt < 0) := canonical.negative_eq
  unfold toText written
  rw [if_neg (by omega), natAbs_toInt]
  by_cases empty : v.digits = []
  · have zero : v.isZero = true := List.isEmpty_iff.mpr empty
    have nothing : ¬ v.toInt < 0 := by
      rw [canonical.2 empty] at sign
      exact of_decide_eq_false sign.symm
    rw [zero, Bool.or_true, if_pos rfl, if_neg nothing, empty]
    have padded : List.replicate (minDigits.max 1) '0' =
        List.replicate (minDigits - 1) '0' ++ ['0'] := by
      rw [← List.replicate_succ']
      congr 1
      show Max.max minDigits 1 = minDigits - 1 + 1
      omega
    simp [standard, List.leftpad, padded]
  · have some : v.isZero = false := List.isEmpty_eq_false_iff.mpr empty
    have positive := (canonical.1.toNat_pos empty).ne'
    rw [some, Bool.or_false, if_neg (by simp; omega), numeral_eq range canonical.1 room,
      standard_eq_map_symbol range positive]
    simp [Except.map, Except.mapError, liftAllocation, List.leftpad, sign]

end Integer

end Bignum
