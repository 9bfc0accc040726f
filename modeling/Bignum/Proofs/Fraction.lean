import Bignum.Fraction
import Bignum.Proofs.Integer.Divisor
import Bignum.Proofs.Integer.Order

/-!
Fractions and the rational numbers that they stand for.

Reducing a fraction divides both parts by one number, their greatest common divisor with the sign of
the denominator (`Fraction.Scales`, `Fraction.reduce_scales`). That keeps the rational number
(`Fraction.Scales.toRat`), and a rational number has one fraction in lowest terms
(`Fraction.Lowest.unique`), so reduced fractions are as good as their values.

* `Fraction.ReduceSound`: a reduced fraction is there, in lowest terms and worth the same, reducing
  it again changes nothing, and it divides into the same quotient.
* `Fraction.EqualSound`: cross multiplication finds two fractions equal exactly if they are reduced
  to the same one, and relates fractions as an equality does.
* `fractions_canonical`: both hold of all fractions that can be made.
-/

namespace Bignum

namespace Integer

theorem toInt_opposite (v : Integer) : v.neg.toInt = -v.toInt := by
  by_cases empty : v.digits = []
  · simp [toInt, neg, isZero, empty]
  · cases sign : v.negative <;> simp [toInt, neg, isZero, empty, sign]

theorem toInt_div {limit : Nat} {a v : Integer} {b : Operand} (left : a.Canonical)
    (right : b.Canonical) (made : a.div limit b = .ok v) :
    v.Canonical ∧ v.toInt = a.toInt.tdiv b.toInteger.toInt := by
  obtain ⟨result, divided, rfl⟩ := map_eq_ok_iff.mp made
  exact ⟨(canonical_divRem divided).1, (toInt_divRem left right divided).1⟩

end Integer

namespace Fraction

/-- A fraction as it can be made: of canonical integers, the lower one of which is not zero. -/
structure Proper (f : Fraction) : Prop where
  numerator : f.numerator.Canonical
  denominator : f.denominator.Canonical
  nonzero : f.denominator.toInt ≠ 0

theorem proper_of_make {n d : Integer} {f : Fraction} (upper : n.Canonical) (lower : d.Canonical)
    (made : make n d = .ok f) : f.Proper := by
  unfold make at made
  split at made
  · cases made
  · rename_i nonzero
    obtain rfl := Except.ok.inj made
    exact ⟨upper, lower,
      Operand.toInt_ne_zero (b := .big d) lower ((Bool.not_eq_true _).mp nonzero)⟩

/-- The rational number that a fraction stands for. -/
def toRat (f : Fraction) : Rat := .divInt f.numerator.toInt f.denominator.toInt

/-- The greatest common divisor of both parts, with the sign of the denominator. -/
def commonFactor (f : Fraction) : Int :=
  f.denominator.toInt.sign * Int.gcd f.numerator.toInt f.denominator.toInt

/-! ### Scaling -/

/-- The parts of `f` are those of `r`, times a factor. -/
structure Scales (r : Fraction) (factor : Int) (f : Fraction) : Prop where
  numerator : f.numerator.toInt = r.numerator.toInt * factor
  denominator : f.denominator.toInt = r.denominator.toInt * factor
  nonzero : factor ≠ 0

/-- Lowest terms, with a positive denominator. -/
structure Lowest (r : Fraction) : Prop where
  positive : 0 < r.denominator.toInt
  coprime : Int.gcd r.numerator.toInt r.denominator.toInt = 1

variable {limit : Nat} {f g r s : Fraction} {factor : Int}

/-- **Scaling keeps the value.** -/
theorem Scales.toRat (scales : r.Scales factor f) : f.toRat = r.toRat := by
  rw [Fraction.toRat, Fraction.toRat, scales.numerator, scales.denominator,
    Rat.divInt_mul_right scales.nonzero]

theorem Lowest.toRat_parts (lowest : r.Lowest) :
    r.toRat.num = r.numerator.toInt ∧ (r.toRat.den : Int) = r.denominator.toInt := by
  have positive := lowest.positive
  have nonzero : r.denominator.toInt.natAbs ≠ 0 := by omega
  have coprime : r.numerator.toInt.natAbs.Coprime r.denominator.toInt.natAbs := lowest.coprime
  have same : r.toRat = ⟨r.numerator.toInt, r.denominator.toInt.natAbs, nonzero, coprime⟩ := by
    rw [Rat.mk_eq_divInt, Int.natAbs_of_nonneg positive.le]
    rfl
  rw [same]
  exact ⟨rfl, Int.natAbs_of_nonneg positive.le⟩

/-- **One fraction in lowest terms for each value.** -/
theorem Lowest.unique (left : r.Lowest) (right : s.Lowest) (properLeft : r.Proper)
    (properRight : s.Proper) (same : r.toRat = s.toRat) : r = s := by
  obtain ⟨numerator, denominator⟩ := left.toRat_parts
  obtain ⟨numerator', denominator'⟩ := right.toRat_parts
  have upper : r.numerator = s.numerator :=
    properLeft.numerator.eq_of_toInt_eq properRight.numerator
      (by rw [← numerator, ← numerator', same])
  have lower : r.denominator = s.denominator :=
    properLeft.denominator.eq_of_toInt_eq properRight.denominator
      (by rw [← denominator, ← denominator', same])
  exact congrArg₂ Fraction.mk upper lower

/-! ### Reducing -/

/-- Both parts are divided by their greatest common divisor, and take the opposite signs where the
denominator would be negative. -/
theorem parts_of_reduce (proper : f.Proper) (made : f.reduce limit = .ok r) :
    ∃ upper lower : Integer, lower.Canonical ∧
      upper.toInt * Int.gcd f.numerator.toInt f.denominator.toInt = f.numerator.toInt ∧
      lower.toInt * Int.gcd f.numerator.toInt f.denominator.toInt = f.denominator.toInt ∧
      r = if lower.negative then ⟨upper.neg, lower.neg⟩ else ⟨upper, lower⟩ := by
  obtain ⟨divisor, found, made⟩ := bind_eq_ok_iff.mp made
  obtain ⟨upper, top, made⟩ := bind_eq_ok_iff.mp made
  obtain ⟨lower, bottom, made⟩ := bind_eq_ok_iff.mp made
  have canonical : Operand.Canonical (.big divisor) := Integer.canonical_gcd found
  have value : divisor.toInt = Int.gcd f.numerator.toInt f.denominator.toInt :=
    Integer.toInt_gcd proper.numerator (b := .big f.denominator) proper.denominator found
  have exactUpper : upper.toInt = f.numerator.toInt.tdiv divisor.toInt :=
    (Integer.toInt_div proper.numerator canonical top).2
  obtain ⟨form, exactLower⟩ := Integer.toInt_div proper.denominator canonical bottom
  change lower.toInt = f.denominator.toInt.tdiv divisor.toInt at exactLower
  refine ⟨upper, lower, form, ?_, ?_, ?_⟩
  · rw [exactUpper, value, Int.tdiv_mul_cancel (Int.gcd_dvd_left _ _)]
  · rw [exactLower, value, Int.tdiv_mul_cancel (Int.gcd_dvd_right _ _)]
  · split at made
    · rename_i negative
      rw [if_pos negative, ← Except.ok.inj made]
    · rename_i positive
      rw [if_neg positive, ← Except.ok.inj made]

/-- **Reducing divides both parts by one number**, and leaves a positive denominator. -/
theorem reduce_scales (proper : f.Proper) (made : f.reduce limit = .ok r) :
    r.Scales f.commonFactor f ∧ 0 < r.denominator.toInt := by
  obtain ⟨upper, lower, form, wholeUpper, wholeLower, rfl⟩ := parts_of_reduce proper made
  have nonzero := proper.nonzero
  have positive : 0 < (Int.gcd f.numerator.toInt f.denominator.toInt : Int) :=
    Int.natCast_pos.mpr (Int.gcd_pos_of_ne_zero_right _ nonzero)
  have factor : f.commonFactor =
      lower.toInt.sign * Int.gcd f.numerator.toInt f.denominator.toInt := by
    rw [commonFactor]
    nth_rewrite 1 [← wholeLower]
    rw [Int.sign_mul, Int.sign_eq_one_of_pos positive, Int.mul_one]
  split
  · rename_i negative
    have below := form.toInt_neg negative
    rw [Int.sign_eq_neg_one_of_neg below] at factor
    refine ⟨⟨?_, ?_, by omega⟩, ?_⟩
    · rw [Integer.toInt_opposite, factor, Int.neg_one_mul, Int.neg_mul_neg, wholeUpper]
    · rw [Integer.toInt_opposite, factor, Int.neg_one_mul, Int.neg_mul_neg, wholeLower]
    · rw [Integer.toInt_opposite]
      omega
  · rename_i notNegative
    have some : lower.toInt ≠ 0 := by
      intro zero
      rw [zero, Int.zero_mul] at wholeLower
      exact nonzero wholeLower.symm
    have above : 0 < lower.toInt :=
      (Integer.toInt_nonneg ((Bool.not_eq_true _).mp notNegative)).lt_of_ne' some
    rw [Int.sign_eq_one_of_pos above, Int.one_mul] at factor
    exact ⟨⟨factor ▸ wholeUpper.symm, factor ▸ wholeLower.symm, by omega⟩, above⟩

theorem natAbs_commonFactor (proper : f.Proper) :
    f.commonFactor.natAbs = Int.gcd f.numerator.toInt f.denominator.toInt := by
  rw [commonFactor, Int.natAbs_mul, Int.natAbs_sign_of_ne_zero proper.nonzero, Nat.one_mul,
    Int.natAbs_natCast]

/-- **Reducing leads to lowest terms.** -/
theorem lowest_of_reduce (proper : f.Proper) (made : f.reduce limit = .ok r) : r.Lowest := by
  obtain ⟨scales, positive⟩ := reduce_scales proper made
  refine ⟨positive, ?_⟩
  have common : Int.gcd f.numerator.toInt f.denominator.toInt =
      Int.gcd r.numerator.toInt r.denominator.toInt *
        Int.gcd f.numerator.toInt f.denominator.toInt := by
    rw [← natAbs_commonFactor proper, ← Int.gcd_mul_right, ← scales.numerator, ← scales.denominator]
    exact natAbs_commonFactor proper
  have some := Int.gcd_pos_of_ne_zero_right f.numerator.toInt proper.nonzero
  exact Nat.eq_of_mul_eq_mul_right some (common.symm.trans (Nat.one_mul _).symm)

theorem proper_of_reduce (proper : f.Proper) (made : f.reduce limit = .ok r) : r.Proper := by
  obtain ⟨numerator, denominator⟩ := Integer.canonical_reduce made
  exact ⟨numerator, denominator, (lowest_of_reduce proper made).positive.ne'⟩

/-- Storage for a digit more than each part has. -/
structure Room (limit : Nat) (f : Fraction) : Prop where
  numerator : Storage.Grants limit (f.numerator.digits.length + 1)
  denominator : Storage.Grants limit (f.denominator.digits.length + 1)

/-- A fraction that another one scales has no longer parts. -/
theorem Scales.room (scales : r.Scales factor f) (proper : r.Proper) (room : f.Room limit) :
    r.Room limit := by
  have shorter {small large : Integer} (canonical : small.Canonical)
      (whole : large.toInt = small.toInt * factor) : small.digits.length ≤ large.digits.length := by
    refine canonical.1.length_le_of_toNat_le ?_
    rw [← Integer.natAbs_toInt, ← Integer.natAbs_toInt, whole, Int.natAbs_mul]
    exact Nat.le_mul_of_pos_right _ (Int.natAbs_pos.mpr scales.nonzero)
  exact ⟨fun n le => room.numerator n (le.trans (Nat.succ_le_succ
      (shorter proper.numerator scales.numerator))),
    fun n le => room.denominator n (le.trans (Nat.succ_le_succ
      (shorter proper.denominator scales.denominator)))⟩

/-- Reducing never divides by zero. -/
theorem reduce_error (proper : f.Proper) {e : ArithmeticError}
    (failed : f.reduce limit = .error e) :
    limit ≤ max f.numerator.digits.length f.denominator.digits.length + 1 ∧
      ∃ cause, e = .allocation cause := by
  rcases bind_eq_error_iff.mp failed with stopped | ⟨divisor, found, failed⟩
  · exact Digits.gcd_error proper.numerator.1 proper.denominator.1 (map_eq_error_iff.mp stopped)
  · have divided {a : Integer} {e : ArithmeticError}
        (stopped : a.div limit (.big divisor) = .error e) :
        limit ≤ a.digits.length + 1 ∧ ∃ cause, e = .allocation cause := by
      rcases Digits.divRem_error (map_eq_error_iff.mp (map_eq_error_iff.mp stopped)) with
        ⟨-, empty⟩ | ⟨-, full, refused⟩
      · have value := Integer.toNat_of_gcd proper.numerator (b := .big f.denominator)
          proper.denominator found
        rw [show divisor.digits = [] from empty, Digits.toNat_nil, eq_comm, Int.gcd_eq_zero_iff]
          at value
        exact absurd value.2 proper.nonzero
      · exact ⟨full, refused⟩
    rcases bind_eq_error_iff.mp failed with stopped | ⟨upper, -, failed⟩
    · obtain ⟨full, refused⟩ := divided stopped
      exact ⟨by omega, refused⟩
    · rcases bind_eq_error_iff.mp failed with stopped | ⟨lower, -, impossible⟩
      · obtain ⟨full, refused⟩ := divided stopped
        exact ⟨by omega, refused⟩
      · split at impossible
        · cases impossible
        · cases impossible

theorem exists_reduce (proper : f.Proper) (room : f.Room limit) : ∃ r, f.reduce limit = .ok r := by
  cases made : f.reduce limit with
  | ok r => exact ⟨r, rfl⟩
  | error e =>
      obtain ⟨full, -⟩ := reduce_error proper made
      have upper := room.numerator.lt (Nat.succ_pos _)
      have lower := room.denominator.lt (Nat.succ_pos _)
      omega

/-- **A reduced fraction is reduced to itself.** -/
theorem reduce_reduce (proper : f.Proper) (room : f.Room limit) (made : f.reduce limit = .ok r) :
    r.reduce limit = .ok r := by
  have properAgain := proper_of_reduce proper made
  have roomAgain := (reduce_scales proper made).1.room properAgain room
  obtain ⟨s, again⟩ := exists_reduce properAgain roomAgain
  have same : s = r :=
    (lowest_of_reduce properAgain again).unique (lowest_of_reduce proper made)
      (proper_of_reduce properAgain again) properAgain
      (reduce_scales properAgain again).1.toRat.symm
  rw [again, same]

/-! ### Dividing -/

/-- A factor of both sides of a division is one of the remainder, and none of the quotient. -/
theorem tdiv_tmod_mul_right (n d : Int) {k : Int} (nonzero : k ≠ 0) :
    (n * k).tdiv (d * k) = n.tdiv d ∧ (n * k).tmod (d * k) = n.tmod d * k := by
  have quotient : (n * k).tdiv (d * k) = n.tdiv d := by
    rcases Int.lt_or_gt_of_ne nonzero with negative | positive
    · rw [← Int.neg_tdiv_neg, ← Int.mul_neg, ← Int.mul_neg]
      exact Int.mul_tdiv_mul_of_pos_left n d (Int.neg_pos_of_neg negative)
    · exact Int.mul_tdiv_mul_of_pos_left n d positive
  refine ⟨quotient, ?_⟩
  rw [Int.tmod_def, Int.tmod_def, quotient, Int.sub_mul, Int.mul_right_comm]

theorem Proper.digits_ne_nil (proper : f.Proper) : f.denominator.digits ≠ [] := fun empty =>
  proper.nonzero (Integer.toInt_of_isZero (List.isEmpty_iff.mpr empty))

theorem exists_evaluate (proper : f.Proper) (room : f.Room limit) :
    ∃ result, f.evaluate limit = .ok result :=
  Integer.exists_divRem (b := .big f.denominator) proper.digits_ne_nil
    (room.numerator.lt (Nat.succ_pos _))

/-- **Scaling keeps the quotient**, and scales the remainder. -/
theorem Scales.evaluate (scales : r.Scales factor f) (properScaled : f.Proper) (proper : r.Proper)
    {scaled result : Integer × Integer} (made : f.evaluate limit = .ok scaled)
    (made' : r.evaluate limit = .ok result) :
    scaled.1 = result.1 ∧ scaled.2.toInt = result.2.toInt * factor := by
  obtain ⟨quotient, rest⟩ := Integer.toInt_divRem properScaled.numerator
    (b := .big f.denominator) properScaled.denominator made
  obtain ⟨quotient', rest'⟩ := Integer.toInt_divRem proper.numerator
    (b := .big r.denominator) proper.denominator made'
  obtain ⟨same, scaledRest⟩ :=
    tdiv_tmod_mul_right r.numerator.toInt r.denominator.toInt scales.nonzero
  rw [← scales.numerator, ← scales.denominator] at same scaledRest
  constructor
  · exact (Integer.canonical_divRem made).1.eq_of_toInt_eq (Integer.canonical_divRem made').1
      (quotient.trans (same.trans quotient'.symm))
  · rw [rest']
    exact rest.trans scaledRest

/-! ### Comparing -/

/-- Storage for both products of a cross multiplication. -/
structure Comparable (limit : Nat) (f g : Fraction) : Prop where
  left : Storage.Grants limit (f.numerator.digits.length + g.denominator.digits.length)
  right : Storage.Grants limit (g.numerator.digits.length + f.denominator.digits.length)

theorem equal_iff_products : f.equal limit g = true ↔
    ∃ product, f.numerator.mul limit (.big g.denominator) = .ok product ∧
      g.numerator.mul limit (.big f.denominator) = .ok product := by
  unfold equal
  split
  · rename_i left right made made'
    rw [made, made', beq_iff_eq]
    constructor
    · rintro rfl
      exact ⟨left, rfl, rfl⟩
    · rintro ⟨product, same, same'⟩
      exact (Except.ok.inj same).trans (Except.ok.inj same').symm
  · rename_i missing
    constructor
    · intro impossible
      cases impossible
    · rintro ⟨product, made, made'⟩
      exact absurd made' (missing product product made)

theorem toRat_eq_iff (left : f.Proper) (right : g.Proper) : f.toRat = g.toRat ↔
    f.numerator.toInt * g.denominator.toInt = g.numerator.toInt * f.denominator.toInt :=
  Rat.divInt_eq_divInt_iff left.nonzero right.nonzero

/-- **Fractions that are found equal have one value.** -/
theorem toRat_of_equal (left : f.Proper) (right : g.Proper) (same : f.equal limit g = true) :
    f.toRat = g.toRat := by
  obtain ⟨product, made, made'⟩ := equal_iff_products.mp same
  rw [toRat_eq_iff left right]
  exact (Integer.toInt_mul made).symm.trans (Integer.toInt_mul made')

/-- **Fractions of one value are found equal**, with storage for the products. -/
theorem equal_of_toRat (left : f.Proper) (right : g.Proper) (room : f.Comparable limit g)
    (same : f.toRat = g.toRat) : f.equal limit g = true := by
  have someLeft := List.length_pos_of_ne_nil left.digits_ne_nil
  have someRight := List.length_pos_of_ne_nil right.digits_ne_nil
  obtain ⟨product, made⟩ := Integer.exists_mul (a := f.numerator) (b := .big g.denominator)
    (room.left.lt (by omega))
  obtain ⟨product', made'⟩ := Integer.exists_mul (a := g.numerator) (b := .big f.denominator)
    (room.right.lt (by omega))
  have value : product.toInt = product'.toInt := by
    rw [Integer.toInt_mul made, Integer.toInt_mul made']
    exact (toRat_eq_iff left right).mp same
  obtain rfl := (left.numerator.mul made).eq_of_toInt_eq (right.numerator.mul made') value
  exact equal_iff_products.mpr ⟨product, made, made'⟩

theorem equal_symm (limit : Nat) (f g : Fraction) : f.equal limit g = g.equal limit f := by
  rw [Bool.eq_iff_iff, equal_iff_products, equal_iff_products]
  exact exists_congr fun product => and_comm

/-! ### What they are -/

/-- What reducing a fraction does. -/
structure ReduceSound (limit : Nat) (f : Fraction) : Prop where
  granted : f.Room limit → ∃ r, f.reduce limit = .ok r
  refused : ∀ e, f.reduce limit = .error e → ∃ cause, e = .allocation cause
  lowest : ∀ r, f.reduce limit = .ok r → r.Proper ∧ 0 < r.denominator.toInt ∧
    Int.gcd r.numerator.toInt r.denominator.toInt = 1
  value : ∀ r, f.reduce limit = .ok r →
    r.numerator.toInt * f.denominator.toInt = f.numerator.toInt * r.denominator.toInt
  again : f.Room limit → ∀ r, f.reduce limit = .ok r → r.reduce limit = .ok r
  /-- Both divide into one quotient. The remainders differ by what the parts were divided by. -/
  divided : f.Room limit → ∀ r, f.reduce limit = .ok r → ∃ quotient rest rest',
    f.evaluate limit = .ok (quotient, rest) ∧ r.evaluate limit = .ok (quotient, rest') ∧
      rest.toInt = rest'.toInt * f.commonFactor

/-- What finding two fractions equal means. -/
structure EqualSound (limit : Nat) (f g : Fraction) : Prop where
  reduced : f.Comparable limit g → ∀ r s, f.reduce limit = .ok r → g.reduce limit = .ok s →
    (f.equal limit g = true ↔ r.numerator = s.numerator ∧ r.denominator = s.denominator)
  refl : f.Comparable limit f → f.equal limit f = true
  symm : f.equal limit g = true → g.equal limit f = true
  trans : ∀ h : Fraction, h.Proper → f.Comparable limit h →
    f.equal limit g = true → g.equal limit h = true → f.equal limit h = true

theorem reduceSound (proper : f.Proper) (limit : Nat) : f.ReduceSound limit where
  granted := exists_reduce proper
  refused _ failed := (reduce_error proper failed).2
  lowest r made :=
    have lowest := lowest_of_reduce proper made
    ⟨proper_of_reduce proper made, lowest.positive, lowest.coprime⟩
  value r made := by
    have same := (reduce_scales proper made).1.toRat
    exact ((toRat_eq_iff proper (proper_of_reduce proper made)).mp same).symm
  again room r made := reduce_reduce proper room made
  divided room r made := by
    obtain ⟨scales, -⟩ := reduce_scales proper made
    have properAgain := proper_of_reduce proper made
    obtain ⟨⟨quotient, rest⟩, divided⟩ := exists_evaluate proper room
    obtain ⟨⟨quotient', rest'⟩, divided'⟩ :=
      exists_evaluate properAgain (scales.room properAgain room)
    obtain ⟨same, scaled⟩ := scales.evaluate proper properAgain divided divided'
    obtain rfl : quotient = quotient' := same
    exact ⟨quotient, rest, rest', divided, divided', scaled⟩

theorem equalSound (left : f.Proper) (right : g.Proper) (limit : Nat) : f.EqualSound limit g where
  reduced room r s made made' := by
    have valueLeft := (reduce_scales left made).1.toRat
    have valueRight := (reduce_scales right made').1.toRat
    constructor
    · intro same
      have value : r.toRat = s.toRat := by
        rw [← valueLeft, ← valueRight]
        exact toRat_of_equal left right same
      obtain rfl := (lowest_of_reduce left made).unique (lowest_of_reduce right made')
        (proper_of_reduce left made) (proper_of_reduce right made') value
      exact ⟨rfl, rfl⟩
    · rintro ⟨upper, lower⟩
      refine equal_of_toRat left right room ?_
      rw [valueLeft, valueRight, toRat, toRat, upper, lower]
  refl room := equal_of_toRat left left room rfl
  symm same := equal_symm limit f g ▸ same
  trans h proper room same same' := equal_of_toRat left proper room
    ((toRat_of_equal left right same).trans (toRat_of_equal right proper same'))

end Fraction

/-- **Fractions have one reduced form each, and are equal exactly if it is the same.** Every
fraction that can be made of canonical integers is reduced to lowest terms with a positive
denominator, without a change of its value or its quotient; and finding fractions equal is an
equivalence, as far as there is storage for the products that are compared. -/
theorem fractions_canonical (limit : Nat) :
    (∀ (n d : Integer) (f : Fraction), n.Canonical → d.Canonical → Fraction.make n d = .ok f →
      f.Proper) ∧
    (∀ f : Fraction, f.Proper → f.ReduceSound limit) ∧
    ∀ f g : Fraction, f.Proper → g.Proper → f.EqualSound limit g :=
  ⟨fun _ _ _ => Fraction.proper_of_make, fun _ proper => Fraction.reduceSound proper limit,
    fun _ _ left right => Fraction.equalSound left right limit⟩

/-- Parts of two digits, a denominator that is negative, and a common factor that is not a digit. -/
theorem fractions_canonical_negative :
    let f : Fraction := ⟨⟨false, [0, 15]⟩, ⟨true, [0, 6]⟩⟩
    let g : Fraction := ⟨⟨true, [10]⟩, ⟨false, [4]⟩⟩
    let r : Fraction := ⟨⟨true, [5]⟩, ⟨false, [2]⟩⟩
    f.Proper ∧ f.Room 5 ∧ f.reduce 5 = .ok r ∧ r.reduce 5 = .ok r ∧
      f.commonFactor = -(3 * Digit.base) ∧
      (∃ quotient rest rest', f.evaluate 5 = .ok (quotient, rest) ∧
        r.evaluate 5 = .ok (quotient, rest') ∧ rest.toInt = rest'.toInt * f.commonFactor) ∧
      g.Proper ∧ f.Comparable 5 g ∧ g.reduce 5 = .ok r ∧ f.equal 5 g = true := by
  intro f g r
  obtain ⟨made, reduces, compares⟩ := fractions_canonical 5
  have properF : f.Proper := made ⟨false, [0, 15]⟩ ⟨true, [0, 6]⟩ f (by decide) (by decide) rfl
  have properG : g.Proper := made ⟨true, [10]⟩ ⟨false, [4]⟩ g (by decide) (by decide) rfl
  have room : f.Room 5 :=
    ⟨Storage.grants_iff.mpr (by decide), Storage.grants_iff.mpr (by decide)⟩
  have comparable : f.Comparable 5 g :=
    ⟨Storage.grants_iff.mpr (by decide), Storage.grants_iff.mpr (by decide)⟩
  have reduced : f.reduce 5 = .ok r := by decide +kernel
  have reduced' : g.reduce 5 = .ok r := by decide +kernel
  have sound := reduces f properF
  exact ⟨properF, room, reduced, sound.again room r reduced, by decide +kernel,
    sound.divided room r reduced, properG, comparable, reduced',
    ((compares f g properF properG).reduced comparable r r reduced reduced').mpr ⟨rfl, rfl⟩⟩

end Bignum
