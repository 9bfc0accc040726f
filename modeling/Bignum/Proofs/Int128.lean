import Bignum.Int128
import Bignum.Proofs.Integer.Addition
import Bignum.Proofs.Integer.Divisor
import Bignum.Proofs.Integer.Narrow
import Bignum.Proofs.Text.Numeral

/-!
Integers of 128 bits are a reference for integers of any size, as long as the sides have 64 bits.

The reference computes on values and stops the program where 128 bits do not hold one. From sides of
64 bits it never does: a product is no further from zero than `2 ^ 126`, and a least common multiple
divides before it multiplies. Digits multiply first and write text in chunks, but have the same
values, and a value has one integer only (`Int128.eq_toInteger`).

* `Int128.Agree`: both sides have one value for a result, which fits.
* `Int128.Conforms`: they do so in every operation of the reference.
* `reference_conforms`: for all sides of 64 bits and in all radices.
-/

namespace Bignum

/-! ### Ranges -/

namespace FixedType

variable {value other : Int}

theorem Holds.natAbs_le (holds : int64.Holds value) : value.natAbs ≤ 2 ^ 63 := by
  obtain ⟨low, high⟩ := holds
  rw [show int64.least = -2 ^ 63 by decide] at low
  rw [show int64.greatest = 2 ^ 63 - 1 by decide] at high
  omega

theorem holds_int128_of_natAbs_lt (small : value.natAbs < 2 ^ 127) : int128.Holds value := by
  rw [holds_int128_iff]
  omega

/-- A product of two sides of 64 bits is no further from zero than `2 ^ 126`. -/
theorem natAbs_mul_lt (left : value.natAbs ≤ 2 ^ 63) (right : other.natAbs ≤ 2 ^ 63) :
    (value * other).natAbs < 2 ^ 127 := by
  rw [Int.natAbs_mul]
  exact (Nat.mul_le_mul left right).trans_lt (by decide)

end FixedType

namespace Int128

/-! ### Values -/

section Values

variable {x y : Int128} {v : Integer}

theorem eq_of_value (same : x.value = y.value) : x = y := by
  cases x
  cases y
  cases same
  rfl

theorem holds (x : Int128) : FixedType.int128.Holds x.value := ⟨x.least_le, x.le_greatest⟩

theorem exists_value {value : Int} (holds : FixedType.int128.Holds value) :
    ∃ z : Int128, z.value = value :=
  ⟨⟨value, holds.1, holds.2⟩, rfl⟩

/-- What fits is no overflow. -/
theorem orOverflow_value (action : String) (x : Int128) : orOverflow action x.value = .ok x := by
  rw [orOverflow, ofInt?, dif_pos ⟨x.least_le, x.le_greatest⟩]

theorem wrap_value (x : Int128) : wrap x.value = x := eq_of_value (x.holds.bmod_eq rfl)

theorem toInt_toInteger (x : Int128) : x.toInteger.toInt = x.value :=
  Integer.toInt_ofFixed ⟨.int128, x.value, x.least_le, x.le_greatest⟩

/-- **One integer for each value.** -/
theorem eq_toInteger (canonical : v.Canonical) (same : v.toInt = x.value) : v = x.toInteger :=
  canonical.eq_of_toInt_eq (Integer.canonical_ofMagnitude _ _)
    (same.trans x.toInt_toInteger.symm)

theorem ofInteger_eq (canonical : v.Canonical) (same : v.toInt = x.value) :
    ofInteger v = .ok x := by
  have narrowed : v.narrow .int128 = .ok ⟨.int128, x.value, x.least_le, x.le_greatest⟩ :=
    (Integer.narrow_eq_ok_iff canonical).mpr ⟨rfl, same.symm⟩
  have fits : ofInt? x.value = some x := by
    rw [ofInt?, dif_pos ⟨x.least_le, x.le_greatest⟩]
  rw [ofInteger, narrowed]
  simp only [Except.toOption, Option.bind_some, fits]

end Values

/-! ### Euclid's method -/

theorem gcd_le_of_natAbs_le {m n : Int} {most : Nat} (left : m.natAbs ≤ most)
    (right : n.natAbs ≤ most) : Int.gcd m n ≤ most := by
  by_cases zero : m = 0
  · rw [zero, Int.gcd_zero_left]
    exact right
  · exact (Int.gcd_le_natAbs_left _ zero).trans left

/-- Euclid's method finds the greatest common divisor. -/
theorem euclid_eq_gcd (m n : Nat) : euclid m n = Nat.gcd m n := by
  induction m, n using euclid.induct with
  | case1 m => rw [euclid, if_pos rfl, Nat.gcd_zero_right]
  | case2 m n some ih => rw [euclid, if_neg some, ih, Nat.gcd_comm, ← Nat.gcd_rec, Nat.gcd_comm]

/-! ### Agreement -/

/-- The reference and the digits both have the value for a result: 128 bits hold it, and the digits
are those of its integer. -/
def Agree (value : Int) (reference : Except Panic Int128)
    (result : Except ArithmeticError Integer) : Prop :=
  ∃ z : Int128, z.value = value ∧ reference = .ok z ∧ result = .ok z.toInteger

theorem agree_value {z : Int128} {reference : Except Panic Int128} {v : Integer}
    {result : Except ArithmeticError Integer} (answer : reference = .ok z) (made : result = .ok v)
    (canonical : v.Canonical) (exact : v.toInt = z.value) : Agree z.value reference result :=
  ⟨z, rfl, answer, eq_toInteger canonical exact ▸ made⟩

/-- Two sides of 64 bits, for the reference and for digits. -/
structure Sides (x y : Int128) (a : Integer) (b : Operand) : Prop where
  left : a.Canonical
  right : b.Canonical
  valueLeft : a.toInt = x.value
  valueRight : b.toInteger.toInt = y.value
  smallLeft : x.value.natAbs ≤ 2 ^ 63
  smallRight : y.value.natAbs ≤ 2 ^ 63

section Operations

variable {limit : Nat} {x y : Int128} {a : Integer} {b : Operand} (sides : Sides x y a b)

include sides

/-- One digit holds what 64 bits hold. -/
theorem Sides.length_le : a.digits.length ≤ 1 ∧ b.normalize.digits.length ≤ 1 := by
  rw [sides.left.1.length_le_iff, sides.right.normalize.1.length_le_iff, ← Integer.natAbs_toInt,
    Integer.toNat_operand, sides.valueLeft, sides.valueRight, Nat.pow_one, Digit.base_eq]
  have left := sides.smallLeft
  have right := sides.smallRight
  omega

/-- An operator agrees where 128 bits hold the value of its result. -/
theorem Sides.agree (op : Operator) {action : String} {value : Int}
    (holds : FixedType.int128.Holds value) (granted : ∃ v, op.checked limit a b = .ok v)
    (exact : ∀ v, op.checked limit a b = .ok v → v.toInt = value) :
    Agree value (orOverflow action value) (op.checked limit a b) := by
  obtain ⟨z, rfl⟩ := exists_value holds
  obtain ⟨v, made⟩ := granted
  exact agree_value (orOverflow_value action z) made (sides.left.checked sides.right made)
    (exact v made)

theorem Sides.add (room : 3 < limit) :
    Agree (x.value + y.value) (x.add y) (a.add limit b) := by
  obtain ⟨shortA, shortB⟩ := sides.length_le
  have left := sides.smallLeft
  have right := sides.smallRight
  have holds : FixedType.int128.Holds (x.value + y.value) :=
    FixedType.holds_int128_of_natAbs_lt (by omega)
  refine sides.agree .add holds (Integer.exists_addSigned (by omega) (by omega)) ?_
  intro v made
  rw [Integer.toInt_add sides.left sides.right made, sides.valueLeft, sides.valueRight]

theorem Sides.sub (room : 3 < limit) :
    Agree (x.value - y.value) (x.sub y) (a.sub limit b) := by
  obtain ⟨shortA, shortB⟩ := sides.length_le
  have left := sides.smallLeft
  have right := sides.smallRight
  have holds : FixedType.int128.Holds (x.value - y.value) :=
    FixedType.holds_int128_of_natAbs_lt (by omega)
  refine sides.agree .sub holds (Integer.exists_addSigned (by omega) (by omega)) ?_
  intro v made
  rw [Integer.toInt_sub sides.left sides.right made, sides.valueLeft, sides.valueRight]

theorem Sides.mul (room : 3 < limit) :
    Agree (x.value * y.value) (x.mul y) (a.mul limit b) := by
  obtain ⟨shortA, shortB⟩ := sides.length_le
  have holds : FixedType.int128.Holds (x.value * y.value) :=
    FixedType.holds_int128_of_natAbs_lt (FixedType.natAbs_mul_lt sides.smallLeft sides.smallRight)
  refine sides.agree .mul holds (Integer.exists_mul (by omega)) ?_
  intro v made
  rw [Integer.toInt_mul made, sides.valueLeft, sides.valueRight]

/-! ### Quotients -/

theorem Sides.zero_iff : b.normalize.digits = [] ↔ y.value = 0 := by
  rw [← sides.right.normalize.1.toNat_eq_zero_iff, Integer.toNat_operand, sides.valueRight,
    Int.natAbs_eq_zero]

/-- **Both divide by zero, or neither does.** -/
theorem Sides.divRem_none_iff :
    x.divRem y = .ok none ↔ a.divRem limit b = .error .divisionByZero := by
  rw [Integer.divRem_eq_divisionByZero_iff, sides.zero_iff, divRem]
  split
  · rename_i zero
    exact iff_of_true rfl zero
  · rename_i nonzero
    refine iff_of_false (fun nothing => ?_) nonzero
    obtain ⟨quotient, -, nothing⟩ := bind_eq_ok_iff.mp nothing
    obtain ⟨rest, -, nothing⟩ := bind_eq_ok_iff.mp nothing
    cases nothing

/-- A quotient is no further from zero than the dividend, and a remainder neither. -/
theorem Sides.divRem (room : 3 < limit) (nonzero : y.value ≠ 0) :
    ∃ quotient rest : Int128,
      quotient.value = x.value.tdiv y.value ∧ rest.value = x.value.tmod y.value ∧
        x.divRem y = .ok (some (quotient, rest)) ∧
        a.divRem limit b = .ok (quotient.toInteger, rest.toInteger) := by
  obtain ⟨shortA, -⟩ := sides.length_le
  have most := sides.smallLeft
  have quotientFits : (x.value.tdiv y.value).natAbs < 2 ^ 127 := by
    rw [Int.natAbs_tdiv]
    exact (Nat.div_le_self _ _).trans_lt (by omega)
  have restFits : (x.value.tmod y.value).natAbs < 2 ^ 127 := by
    rw [Int.natAbs_tmod]
    exact (Nat.mod_le _ _).trans_lt (by omega)
  obtain ⟨quotient, isQuotient⟩ := exists_value (FixedType.holds_int128_of_natAbs_lt quotientFits)
  obtain ⟨rest, isRest⟩ := exists_value (FixedType.holds_int128_of_natAbs_lt restFits)
  obtain ⟨result, divided⟩ :=
    Integer.exists_divRem (mt sides.zero_iff.mp nonzero) (show a.digits.length + 1 < limit by omega)
  obtain ⟨canonicalQuotient, canonicalRest⟩ := Integer.canonical_divRem divided
  obtain ⟨exactQuotient, exactRest⟩ := Integer.toInt_divRem sides.left sides.right divided
  rw [sides.valueLeft, sides.valueRight] at exactQuotient exactRest
  refine ⟨quotient, rest, isQuotient, isRest, ?_, ?_⟩
  · rw [Int128.divRem, if_neg nonzero, ← isQuotient, ← isRest, orOverflow_value, orOverflow_value]
    rfl
  · rw [divided, ← eq_toInteger canonicalQuotient (exactQuotient.trans isQuotient.symm),
      ← eq_toInteger canonicalRest (exactRest.trans isRest.symm)]

/-! ### Divisors -/

theorem Sides.gcd_value : (x.gcd y).value = Int.gcd x.value y.value := by
  have small := gcd_le_of_natAbs_le sides.smallLeft sides.smallRight
  have holds : FixedType.int128.Holds (Int.gcd x.value y.value) :=
    FixedType.holds_int128_of_natAbs_lt (by omega)
  obtain ⟨z, value⟩ := exists_value holds
  have found : euclid x.value.natAbs y.value.natAbs = Int.gcd x.value y.value := euclid_eq_gcd _ _
  rw [Int128.gcd, found, ← value, wrap_value]

theorem Sides.gcd (room : 3 < limit) :
    Agree (Int.gcd x.value y.value) (.ok (x.gcd y)) (a.gcd limit b) := by
  obtain ⟨shortA, shortB⟩ := sides.length_le
  rw [← sides.gcd_value]
  cases made : a.gcd limit b with
  | error e =>
      obtain ⟨full, -⟩ := Digits.gcd_error sides.left.1 sides.right.normalize.1
        (map_eq_error_iff.mp made)
      omega
  | ok v =>
      refine agree_value rfl rfl (Integer.canonical_gcd made) ?_
      rw [Integer.toInt_gcd sides.left sides.right made, sides.valueLeft, sides.valueRight,
        sides.gcd_value]

/-- To divide before multiplying gives the same multiple as to divide after it. -/
theorem Sides.natAbs_reduced_mul :
    (x.value.tdiv (x.gcd y).value * y.value).natAbs = Int.lcm x.value y.value := by
  have divides : Int.gcd x.value y.value ∣ x.value.natAbs := Nat.gcd_dvd_left _ _
  rw [sides.gcd_value, Int.natAbs_mul, Int.natAbs_tdiv, Int.natAbs_natCast]
  exact Nat.div_mul_right_comm divides _

/-- No step of a least common multiple leaves the 128 bits. -/
theorem Sides.lcm_value : ∃ z : Int128, z.value = Int.lcm x.value y.value ∧ x.lcm y = .ok z := by
  have most := sides.smallLeft
  by_cases zero : x.value = 0 ∨ y.value = 0
  · obtain ⟨z, value⟩ := exists_value
      (FixedType.holds_int128_of_natAbs_lt (show Int.natAbs 0 < 2 ^ 127 by decide))
    refine ⟨z, ?_, ?_⟩
    · rcases zero with zero | zero
      · rw [zero, Int.zero_lcm, value, Nat.cast_zero]
      · rw [zero, Int.lcm_zero, value, Nat.cast_zero]
    · rw [Int128.lcm, if_pos zero, ← value, wrap_value]
  · have small : (x.value.tdiv (x.gcd y).value).natAbs ≤ 2 ^ 63 := by
      rw [Int.natAbs_tdiv]
      exact (Nat.div_le_self _ _).trans most
    obtain ⟨reduced, isReduced⟩ := exists_value
      (FixedType.holds_int128_of_natAbs_lt (small.trans_lt (by decide)))
    rw [← isReduced] at small
    have less := FixedType.natAbs_mul_lt small sides.smallRight
    obtain ⟨product, isProduct⟩ := exists_value (FixedType.holds_int128_of_natAbs_lt less)
    have multiple : product.value.natAbs = Int.lcm x.value y.value := by
      rw [isProduct, isReduced, sides.natAbs_reduced_mul]
    rw [← isProduct, ← Int.natAbs_natCast product.value.natAbs] at less
    obtain ⟨z, value⟩ := exists_value (FixedType.holds_int128_of_natAbs_lt less)
    refine ⟨z, by rw [value, multiple], ?_⟩
    rw [Int128.lcm, if_neg zero, ← isReduced, orOverflow_value]
    show (reduced.mul y).bind _ = _
    rw [Int128.mul, ← isProduct, orOverflow_value]
    show orOverflow "negate" product.value.natAbs = _
    rw [← value, orOverflow_value]

theorem Sides.lcm (room : 3 < limit) :
    Agree (Int.lcm x.value y.value) (x.lcm y) (a.lcm limit b) := by
  obtain ⟨shortA, shortB⟩ := sides.length_le
  obtain ⟨z, value, answer⟩ := sides.lcm_value
  rw [← value]
  cases made : a.lcm limit b with
  | error e =>
      obtain ⟨full, -⟩ := Integer.lcm_error sides.left sides.right made
      omega
  | ok v =>
      refine agree_value answer rfl (Integer.canonical_lcm made) ?_
      rw [Integer.toInt_lcm sides.left sides.right made, sides.valueLeft, sides.valueRight, value]

end Operations

/-! ### Text -/

theorem symbols_eq {radix : Nat} (large : 2 ≤ radix) (n : Nat) :
    symbols radix n = (Nat.digits radix n).map Text.symbol := by
  induction n using symbols.induct radix with
  | case1 n stop =>
      obtain rfl : n = 0 := by omega
      rw [symbols, if_pos stop, Nat.digits_zero, List.map_nil]
  | case2 n more ih =>
      rw [symbols, if_neg more, ih, Nat.digits_def' large (show 0 < n by omega), List.map_cons]

/-- **The text of a value is its numeral**, place by place. -/
theorem toText_eq {radix : Nat} (range : 2 ≤ radix ∧ radix ≤ 36) (x : Int128) :
    x.toText radix = Text.written radix 0 x.value := by
  rw [toText, Text.written, List.leftpad, Nat.zero_sub, List.replicate_zero, List.nil_append]
  split
  · rename_i zero
    rw [zero]
    rfl
  · rename_i nonzero
    rw [symbols_eq range.1, Text.standard_eq_map_symbol range (Int.natAbs_ne_zero.mpr nonzero),
      List.map_reverse]

/-! ### All operations -/

/-- The reference and the digits agree in every operation of the reference, which never stops. -/
structure Conforms (limit : Nat) (x y : Int128) (a : Integer) (b : Operand) : Prop where
  add : Agree (x.value + y.value) (x.add y) (a.add limit b)
  sub : Agree (x.value - y.value) (x.sub y) (a.sub limit b)
  mul : Agree (x.value * y.value) (x.mul y) (a.mul limit b)
  divRem : y.value ≠ 0 → ∃ quotient rest : Int128,
    quotient.value = x.value.tdiv y.value ∧ rest.value = x.value.tmod y.value ∧
      x.divRem y = .ok (some (quotient, rest)) ∧
      a.divRem limit b = .ok (quotient.toInteger, rest.toInteger)
  divByZero : y.value = 0 → x.divRem y = .ok none
  nothing : x.divRem y = .ok none ↔ a.divRem limit b = .error .divisionByZero
  gcd : Agree (Int.gcd x.value y.value) (.ok (x.gcd y)) (a.gcd limit b)
  lcm : Agree (Int.lcm x.value y.value) (x.lcm y) (a.lcm limit b)
  text : ∀ radix, 2 ≤ radix → radix ≤ 36 → a.toText limit radix 0 = .ok (x.toText radix)

theorem Sides.conforms {limit : Nat} {x y : Int128} {a : Integer} {b : Operand}
    (sides : Sides x y a b) (room : 3 < limit) : Conforms limit x y a b where
  add := sides.add room
  sub := sides.sub room
  mul := sides.mul room
  divRem := sides.divRem room
  divByZero zero := by rw [Int128.divRem, if_pos zero]
  nothing := sides.divRem_none_iff
  gcd := sides.gcd room
  lcm := sides.lcm room
  text radix low high := by
    have short := sides.length_le.1
    rw [Integer.toText_eq ⟨low, high⟩ sides.left (by omega), toText_eq ⟨low, high⟩,
      sides.valueLeft]

end Int128

/-- **The reference conforms.** Sides of 64 bits are integers of 128 bits, and every operation of
those is within its range and has the value of the operation on digits; the quotient is missing
exactly where digits have a division by zero, and the text is the same in every radix. -/
theorem reference_conforms {limit : Nat} (room : 3 < limit) {a b : FixedInt}
    (left : a.type = .int64) (right : b.type = .int64) :
    ∃ x y : Int128, x.value = a.value ∧ y.value = b.value ∧
      Int128.ofInteger (.ofFixed a) = .ok x ∧ Int128.ofInteger (.ofFixed b) = .ok y ∧
      Int128.Conforms limit x y (.ofFixed a) (.big (.ofFixed b)) := by
  have smallA : a.value.natAbs ≤ 2 ^ 63 :=
    FixedType.Holds.natAbs_le (left ▸ ⟨a.least_le, a.le_greatest⟩)
  have smallB : b.value.natAbs ≤ 2 ^ 63 :=
    FixedType.Holds.natAbs_le (right ▸ ⟨b.least_le, b.le_greatest⟩)
  obtain ⟨x, valueA⟩ := Int128.exists_value
    (FixedType.holds_int128_of_natAbs_lt (smallA.trans_lt (by decide)))
  obtain ⟨y, valueB⟩ := Int128.exists_value
    (FixedType.holds_int128_of_natAbs_lt (smallB.trans_lt (by decide)))
  have canonicalA := Integer.canonical_ofFixed a
  have canonicalB := Integer.canonical_ofFixed b
  have sameA := (Integer.toInt_ofFixed a).trans valueA.symm
  have sameB := (Integer.toInt_ofFixed b).trans valueB.symm
  have sides : Int128.Sides x y (.ofFixed a) (.big (.ofFixed b)) :=
    ⟨canonicalA, canonicalB, sameA, sameB, valueA ▸ smallA, valueB ▸ smallB⟩
  exact ⟨x, y, valueA, valueB, Int128.ofInteger_eq canonicalA sameA,
    Int128.ofInteger_eq canonicalB sameB, sides.conforms room⟩

/-- The least value of 64 bits on both sides, with a divisor that has no place among these. -/
theorem reference_conforms_least :
    let least : FixedInt :=
      { type := .int64, value := -9223372036854775808, least_le := by decide,
        le_greatest := by decide }
    let a := Integer.ofFixed least
    3 < 4 ∧ least.type = .int64 ∧
      ∃ x y : Int128, x.value = least.value ∧ y.value = least.value ∧
        Int128.Conforms 4 x y a (.big a) ∧
        (∃ product : Int128, product.value = 2 ^ 126 ∧ x.mul y = .ok product ∧
          a.mul 4 (.big a) = .ok product.toInteger) ∧
        (x.gcd y).value = 2 ^ 63 ∧ a.gcd 4 (.big a) = .ok (x.gcd y).toInteger := by
  intro least a
  have room : 3 < 4 := by decide
  obtain ⟨x, y, valueX, valueY, -, -, conforms⟩ :=
    reference_conforms room (show least.type = .int64 from rfl) (show least.type = .int64 from rfl)
  obtain ⟨product, value, answer, made⟩ := conforms.mul
  obtain ⟨divisor, divisorValue, found, foundToo⟩ := conforms.gcd
  obtain rfl := Except.ok.inj found
  rw [valueX, valueY] at value
  rw [valueX, valueY, Int.gcd_self] at divisorValue
  have square : least.value * least.value = 2 ^ 126 := by decide
  have magnitude : (least.value.natAbs : Int) = 2 ^ 63 := by decide
  exact ⟨room, rfl, x, y, valueX, valueY, conforms, ⟨product, value.trans square, answer, made⟩,
    divisorValue.trans magnitude, foundToo⟩

end Bignum
