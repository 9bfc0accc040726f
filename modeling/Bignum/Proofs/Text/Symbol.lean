import Bignum.Text.Numeral
import Mathlib.Tactic.ByContra
import Mathlib.Tactic.Ring

/-!
The symbols of numerals, and how many of them one digit holds.

* `symbolValue?_eq_some_iff`: what is read as a symbol of some value is its symbol in either case.
* `pow_chunkLength_lt`, `two_le_chunkLength`: a digit holds a chunk of symbols, and a chunk more
  than one of them.
-/

namespace Bignum.Text

/-! ### Symbols -/

/-- The symbol of a value below the radix, in either case. -/
def IsSymbol (radix : Nat) (c : Char) (value : Nat) : Prop :=
  value < radix ∧ (c = symbol value ∨ c = (symbol value).toLower)

/-- A smaller radix has fewer symbols, with the same values. -/
theorem symbolValue?_eq_filter {radix : Nat} (small : radix ≤ 36) (c : Char) :
    symbolValue? radix c = (symbolValue? 36 c).filter (· < radix) := by
  simp only [symbolValue?, Option.filter_filter]
  congr 1
  funext value
  by_cases below : value < radix
  · have : value < 36 := by omega
    simp [below, this]
  · simp [below]

theorem symbolValue?_symbol : ∀ value < 36,
    symbolValue? 36 (symbol value) = some value ∧
      symbolValue? 36 (symbol value).toLower = some value := by
  decide

theorem symbol_of_symbolValue? : ∀ code < 123,
    ∀ value ∈ symbolValue? 36 (Char.ofNat code),
      Char.ofNat code = symbol value ∨ Char.ofNat code = (symbol value).toLower := by
  decide

theorem symbolValue?_eq_some_iff {radix : Nat} (small : radix ≤ 36) {c : Char} {value : Nat} :
    symbolValue? radix c = some value ↔ IsSymbol radix c value := by
  rw [symbolValue?_eq_filter small, Option.filter_eq_some_iff, decide_eq_true_iff]
  constructor
  · rintro ⟨found, below⟩
    have letter : c.toNat < 123 := by
      by_contra large
      simp [symbolValue?, show ¬ c.toNat ≤ 57 by omega, show ¬ c.toNat ≤ 90 by omega,
        show ¬ c.toNat ≤ 122 by omega] at found
    have spelled := symbol_of_symbolValue? c.toNat letter value
    rw [Char.ofNat_toNat] at spelled
    exact ⟨below, spelled found⟩
  · rintro ⟨below, rfl | rfl⟩
    · exact ⟨(symbolValue?_symbol value (by omega)).1, below⟩
    · exact ⟨(symbolValue?_symbol value (by omega)).2, below⟩

theorem symbolValue?_eq_none_iff {radix : Nat} (small : radix ≤ 36) {c : Char} :
    symbolValue? radix c = none ↔ ¬ ∃ value, IsSymbol radix c value := by
  rw [Option.eq_none_iff_forall_ne_some, not_exists]
  exact forall_congr' fun value => not_congr (symbolValue?_eq_some_iff small)

/-- A character is the symbol of one value at most. -/
theorem IsSymbol.unique {radix : Nat} (small : radix ≤ 36) {c : Char} {m n : Nat}
    (first : IsSymbol radix c m) (second : IsSymbol radix c n) : m = n := by
  have found := (symbolValue?_eq_some_iff small).mpr first
  rw [(symbolValue?_eq_some_iff small).mpr second] at found
  exact (Option.some.inj found).symm

theorem not_isSymbol_underscore {radix : Nat} (small : radix ≤ 36) (value : Nat) :
    ¬ IsSymbol radix '_' value := by
  intro found
  have none : symbolValue? 36 '_' = none := by decide
  rw [← symbolValue?_eq_some_iff small, symbolValue?_eq_filter small, none] at found
  cases found

/-! ### Chunks -/

theorem pow_largestExponent_lt (radix most : Nat) :
    radix ^ largestExponent radix most < Digit.base := by
  induction most with
  | zero =>
      rw [largestExponent, Nat.pow_zero]
      decide
  | succ most ih =>
      unfold largestExponent
      split
      · rename_i fits
        exact fits
      · exact ih

theorem le_largestExponent {radix most exponent : Nat} (le : exponent ≤ most)
    (fits : radix ^ exponent < Digit.base) : exponent ≤ largestExponent radix most := by
  induction most with
  | zero => exact le
  | succ most ih =>
      unfold largestExponent
      split
      · exact le
      · rename_i large
        refine ih (Nat.le_of_lt_succ (Nat.lt_of_le_of_ne le ?_))
        rintro rfl
        exact large fits

/-- A digit holds the largest value of a chunk. -/
theorem pow_chunkLength_lt (radix : Nat) : radix ^ chunkLength radix < Digit.base :=
  pow_largestExponent_lt radix 63

/-- A chunk has more than one symbol. -/
theorem two_le_chunkLength {radix : Nat} (small : radix ≤ 36) : 2 ≤ chunkLength radix :=
  le_largestExponent (by decide) (Nat.lt_of_le_of_lt (Nat.pow_le_pow_left small 2) (by decide))

theorem chunkLength_pos {radix : Nat} (small : radix ≤ 36) : 0 < chunkLength radix :=
  Nat.zero_lt_of_lt (two_le_chunkLength small)

end Bignum.Text
