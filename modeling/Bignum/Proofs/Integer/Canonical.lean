import Bignum.Fraction
import Bignum.Integer.Arithmetic
import Bignum.Int128
import Bignum.Proofs.Cell.History
import Bignum.Proofs.Digits.Sum
import Bignum.Proofs.Storage
import Bignum.Text.Parse

/-!
Every integer that can be made is canonical.

`Integer.Made` lists the ways in which integers are made: from digits, words and text, by every
operation, and by way of a cell. Most results are trimmed, so that their canonical form is that of
`ofMagnitude`. The others take digits over as they are, or change them in place.

* `Digits.canonical_increment_widened`, `Digits.differencePass_borrow`: what the ways around
  trimming rely on.
* `made_canonical`: the highest digit of an integer that can be made is not zero, and zero has no
  sign; and arithmetic on such integers never carries or borrows out of its top.
-/

namespace Bignum

/-! ### Digits in place -/

namespace Digits

/-- With its room a step away from zero carries nothing out of the top. -/
theorem increment_widened_carry (ds : Digits) : (increment ds.widened).2 = false := by
  rw [increment_carry, widened]
  split
  · rw [List.all_append]
    exact Bool.and_eq_false_iff.mpr (.inr (by decide))
  · rename_i room
    exact Bool.not_eq_true _ ▸ room

theorem toNat_increment_widened (ds : Digits) : (increment ds.widened).1.toNat = ds.toNat + 1 := by
  have step := toNat_increment ds.widened
  rw [increment_widened_carry] at step
  have same : ds.widened.toNat = ds.toNat := by
    unfold widened
    split
    · rw [toNat_append]
      simp
    · rfl
  simpa [same] using step

theorem canonical_increment_widened {ds : Digits} (canonical : ds.Canonical) :
    (increment ds.widened).1.Canonical := by
  apply canonical_of_pow_le_toNat
  rw [toNat_increment_widened, length_increment, widened]
  split
  · rename_i full
    -- Only the sequence of largest digits reaches the next power of the base.
    have step := toNat_increment ds
    rw [increment_carry, full] at step
    rw [List.length_append, List.length_singleton, Nat.add_sub_cancel]
    simp only [Bool.toNat_true, Nat.mul_one] at step
    omega
  · rename_i room
    have nonempty : ds ≠ [] := by
      rintro rfl
      exact room rfl
    exact Nat.le_succ_of_le (canonical.pow_le_toNat nonempty)

theorem stepUp_eq {limit : Nat} {shared : Bool} {ds result : Digits}
    (done : ds.stepUp limit shared = .ok result) : (increment ds.widened).1 = result := by
  obtain ⟨_, -, made⟩ := map_eq_ok_iff.mp done
  exact made

/-- A step away from zero does not end at zero. -/
theorem stepUp_ne_nil {limit : Nat} {shared : Bool} {ds result : Digits}
    (done : ds.stepUp limit shared = .ok result) : result ≠ [] := by
  rintro rfl
  have next := toNat_increment_widened ds
  rw [stepUp_eq done] at next
  exact absurd next (Nat.succ_ne_zero _).symm

theorem stepDown_eq {limit : Nat} {shared : Bool} {ds result : Digits}
    (done : ds.stepDown limit shared = .ok result) : trim (decrement ds) = result := by
  obtain ⟨_, -, made⟩ := map_eq_ok_iff.mp done
  exact made

theorem sub_eq {limit : Nat} {a b : Digits} {result : Digits × Bool}
    (done : a.sub limit b = .ok result) :
    (trim (differencePass a b).1, compare a b == .lt) = result := by
  obtain ⟨_, -, made⟩ := bind_eq_ok_iff.mp done
  exact Except.ok.inj made

/-- The larger sequence less the smaller one borrows nothing from beyond the top. -/
theorem differencePass_borrow {a b : Digits} (left : a.Canonical) (right : b.Canonical) :
    (differencePass a b).2 = false := by
  have order := compare_eq left right
  simp only [differencePass]
  by_cases less : a.toNat < b.toNat
  · rw [order, Nat.compare_eq_lt.mpr less]
    exact subPass_borrow (left.length_le_of_toNat_le less.le) less.le
  · have le : b.toNat ≤ a.toNat := Nat.le_of_not_lt less
    have flag : (compare a b == .lt) = false := by
      rw [order]
      rcases Nat.lt_or_eq_of_le le with more | same
      · rw [Nat.compare_eq_gt.mpr more]
        rfl
      · rw [Nat.compare_eq_eq.mpr same.symm]
        rfl
    rw [flag]
    exact subPass_borrow (right.length_le_of_toNat_le le) le

end Digits

/-! ### Operands -/

/-- Words of any size are canonical once they are normal. -/
def Operand.Canonical : Operand → Prop
  | .word _ _ => True
  | .big value => value.Canonical

theorem Operand.canonical_of_big {b : Operand}
    (canonical : ∀ value, b = .big value → value.Canonical) : b.Canonical := by
  cases b with
  | word negative magnitude => trivial
  | big value => exact canonical value rfl

/-- The digits of a word write its magnitude. -/
theorem Operand.toNat_wordDigits (magnitude : BitVec 128) :
    (wordDigits magnitude).toNat = magnitude.toNat := by
  have whole : (Digit.split magnitude.toNat).1.toNat +
      Digit.base * (Digit.split magnitude.toNat).2.toNat = magnitude.toNat :=
    Digit.split_toNat magnitude.isLt
  simp only [wordDigits]
  split
  · rename_i zero
    rw [zero]
    rfl
  · split
    · rename_i high
      rw [high] at whole
      exact whole
    · exact whole

theorem Operand.canonical_wordDigits (magnitude : BitVec 128) :
    (wordDigits magnitude).Canonical := by
  have whole := toNat_wordDigits magnitude
  simp only [wordDigits] at whole ⊢
  split
  · exact Digits.canonical_nil
  · rename_i nonzero
    split
    · rename_i high
      refine Digits.canonical_singleton.mpr fun low => nonzero (BitVec.eq_of_toNat_eq ?_)
      rw [if_neg nonzero, if_pos high, low] at whole
      exact whole.symm
    · rename_i high
      exact @Digits.canonical_append_singleton [_] _ high

theorem Operand.Canonical.normalize {b : Operand} (canonical : b.Canonical) :
    b.normalize.digits.Canonical ∧ (b.normalize.digits = [] → b.normalize.negative = false) := by
  cases b with
  | word negative magnitude =>
      refine ⟨canonical_wordDigits magnitude, fun empty => ?_⟩
      have zero : magnitude = 0 := by
        have whole := toNat_wordDigits magnitude
        rw [show wordDigits magnitude = [] from empty] at whole
        exact BitVec.eq_of_toNat_eq whole.symm
      subst zero
      cases negative <;> rfl
  | big value => exact canonical

namespace Integer

/-! ### Results -/

theorem canonical_ofCanonical (negative : Bool) {ds : Digits} (canonical : ds.Canonical) :
    (ofCanonical negative ds).Canonical := by
  refine ⟨canonical, ?_⟩
  rintro rfl
  exact Bool.and_false negative

theorem canonical_ofMagnitude (negative : Bool) (ds : Digits) :
    (ofMagnitude negative ds).Canonical :=
  canonical_ofCanonical negative (Digits.canonical_trim ds)

theorem canonical_zero : Canonical zero := by decide

theorem canonical_one : Canonical one := by decide

theorem canonical_minusOne : Canonical minusOne := by decide

theorem Canonical.abs {v : Integer} (canonical : v.Canonical) : v.abs.Canonical :=
  ⟨canonical.1, fun _ => rfl⟩

theorem Canonical.neg {v : Integer} (canonical : v.Canonical) : v.neg.Canonical := by
  refine ⟨canonical.1, fun empty => ?_⟩
  have zero : v.isZero = true := List.isEmpty_iff.mpr empty
  show (!v.negative && !v.isZero) = false
  rw [zero, Bool.not_true, Bool.and_false]

section Operations

variable {limit : Nat} {a v : Integer} {b : Operand}

theorem canonical_ofDigits {negative : Bool} {digits : Digits}
    (made : ofDigits limit negative digits = .ok v) : v.Canonical := by
  obtain ⟨kept, copied, rfl⟩ := map_eq_ok_iff.mp (liftAllocation_eq_ok_iff.mp made)
  obtain ⟨-, rfl⟩ := Digits.copy_eq_ok_iff.mp copied
  exact canonical_ofMagnitude negative digits

theorem canonical_ofText {radix : Nat} {text : String}
    (made : ofText limit radix text = .ok v) : v.Canonical := by
  unfold ofText at made
  split at made
  · cases made
  · obtain ⟨r, -, made⟩ := bind_eq_ok_iff.mp made
    split at made
    · cases made
    · split at made
      · exact Except.ok.inj made ▸ canonical_ofMagnitude _ _
      · split at made
        · cases made
        · exact Except.ok.inj made ▸ canonical_ofMagnitude _ _

theorem Canonical.addSigned {negative : Bool} {digits : Digits} (left : a.Canonical)
    (right : digits.Canonical) (made : a.addSigned limit negative digits = .ok v) :
    v.Canonical := by
  unfold Integer.addSigned at made
  split at made
  · obtain ⟨kept, copied, rfl⟩ := map_eq_ok_iff.mp made
    obtain ⟨-, rfl⟩ := Digits.copy_eq_ok_iff.mp copied
    exact canonical_ofCanonical _ left.1
  · split at made
    · obtain ⟨kept, copied, rfl⟩ := map_eq_ok_iff.mp made
      obtain ⟨-, rfl⟩ := Digits.copy_eq_ok_iff.mp copied
      exact canonical_ofCanonical _ right
    · split at made
      · obtain ⟨sum, -, rfl⟩ := map_eq_ok_iff.mp made
        exact canonical_ofMagnitude _ _
      · obtain ⟨difference, -, rfl⟩ := map_eq_ok_iff.mp made
        exact canonical_ofMagnitude _ _

theorem Canonical.mul (left : a.Canonical) (made : a.mul limit b = .ok v) : v.Canonical := by
  simp only [Integer.mul] at made
  split at made
  · exact Except.ok.inj made ▸ canonical_zero
  · rename_i nonzero
    split at made
    · obtain rfl := Except.ok.inj made
      refine ⟨left.1, fun empty => absurd ?_ nonzero⟩
      rw [isZero, empty]
      rfl
    · obtain ⟨product, -, rfl⟩ := map_eq_ok_iff.mp (liftAllocation_eq_ok_iff.mp made)
      exact canonical_ofMagnitude _ _

theorem canonical_divRem {result : Integer × Integer} (made : a.divRem limit b = .ok result) :
    result.1.Canonical ∧ result.2.Canonical := by
  obtain ⟨digits, -, rfl⟩ := map_eq_ok_iff.mp made
  exact ⟨canonical_ofMagnitude _ _, canonical_ofMagnitude _ _⟩

theorem Canonical.checked {op : Operator} (left : a.Canonical) (right : b.Canonical)
    (made : op.checked limit a b = .ok v) : v.Canonical := by
  cases op with
  | add => exact left.addSigned right.normalize.1 (liftAllocation_eq_ok_iff.mp made)
  | sub => exact left.addSigned right.normalize.1 (liftAllocation_eq_ok_iff.mp made)
  | mul => exact left.mul made
  | div =>
      obtain ⟨result, divided, rfl⟩ := map_eq_ok_iff.mp made
      exact (canonical_divRem divided).1
  | rem =>
      obtain ⟨result, divided, rfl⟩ := map_eq_ok_iff.mp made
      exact (canonical_divRem divided).2

theorem Canonical.apply {op : Operator} (left : a.Canonical) (right : b.Canonical)
    (made : op.apply limit a b = .ok v) : v.Canonical :=
  left.checked right (orPanic_eq_ok_iff.mp made)

/-- A refused assignment leaves its target, which was canonical before. -/
theorem Canonical.assign {op : Operator} (left : a.Canonical) (right : b.Canonical) :
    (op.assign limit a b).1.Canonical := by
  unfold Operator.assign
  split
  · rename_i made
    exact left.apply right made
  · exact left

theorem Canonical.applyFixed {op : Operator} {x : FixedInt} (right : a.Canonical)
    (made : op.applyFixed limit x a = .ok v) : v.Canonical := by
  have word : (Operand.ofFixed x).Canonical := trivial
  have widened : (ofFixed x).Canonical := canonical_ofMagnitude _ _
  have big : (Operand.big a).Canonical := right
  cases op with
  | add => exact right.apply word made
  | sub => exact widened.apply big made
  | mul => exact right.apply word made
  | div => exact widened.apply big made
  | rem => exact widened.apply big made

theorem canonical_pow {exponent : Nat} (made : a.pow limit exponent = .ok v) : v.Canonical := by
  unfold pow at made
  split at made
  · exact Except.ok.inj made ▸ canonical_one
  · split at made
    · exact Except.ok.inj made ▸ canonical_zero
    · obtain ⟨base, -, made⟩ := bind_eq_ok_iff.mp (liftAllocation_eq_ok_iff.mp made)
      obtain ⟨result, -, made⟩ := bind_eq_ok_iff.mp made
      exact Except.ok.inj made ▸ canonical_ofMagnitude _ _

theorem canonical_gcd (made : a.gcd limit b = .ok v) : v.Canonical := by
  obtain ⟨digits, -, rfl⟩ := map_eq_ok_iff.mp made
  exact canonical_ofMagnitude _ _

theorem canonical_lcm (made : a.lcm limit b = .ok v) : v.Canonical := by
  simp only [lcm] at made
  split at made
  · exact Except.ok.inj made ▸ canonical_zero
  · obtain ⟨divisor, -, made⟩ := bind_eq_ok_iff.mp made
    obtain ⟨product, -, made⟩ := bind_eq_ok_iff.mp made
    obtain ⟨result, -, made⟩ := bind_eq_ok_iff.mp made
    exact Except.ok.inj made ▸ canonical_ofMagnitude _ _

theorem canonical_shl {bits : Nat} (made : a.shl limit bits = .ok v) : v.Canonical := by
  obtain ⟨digits, -, rfl⟩ := map_eq_ok_iff.mp (liftAllocation_eq_ok_iff.mp made)
  exact canonical_ofMagnitude _ _

theorem canonical_shr {bits : Nat} (made : a.shr limit bits = .ok v) : v.Canonical := by
  obtain ⟨digits, -, rfl⟩ := map_eq_ok_iff.mp (liftAllocation_eq_ok_iff.mp made)
  exact canonical_ofMagnitude _ _

theorem Canonical.increment {shared : Bool} (canonical : a.Canonical)
    (made : a.increment limit shared = .ok v) : v.Canonical := by
  have made := liftAllocation_eq_ok_iff.mp made
  split at made
  · obtain ⟨digits, stepped, rfl⟩ := map_eq_ok_iff.mp made
    exact Digits.stepDown_eq stepped ▸ canonical_ofCanonical _ (Digits.canonical_trim _)
  · obtain ⟨digits, stepped, rfl⟩ := map_eq_ok_iff.mp made
    exact Digits.stepUp_eq stepped ▸
      canonical_ofCanonical _ (Digits.canonical_increment_widened canonical.1)

theorem Canonical.decrement {shared : Bool} (canonical : a.Canonical)
    (made : a.decrement limit shared = .ok v) : v.Canonical := by
  have made := liftAllocation_eq_ok_iff.mp made
  split at made
  · obtain ⟨digits, stepped, rfl⟩ := map_eq_ok_iff.mp made
    exact Digits.stepUp_eq stepped ▸
      canonical_ofCanonical _ (Digits.canonical_increment_widened canonical.1)
  · obtain ⟨digits, stepped, rfl⟩ := map_eq_ok_iff.mp made
    exact Digits.stepDown_eq stepped ▸ canonical_ofCanonical _ (Digits.canonical_trim _)

theorem canonical_reduce {f g : Fraction} (made : f.reduce limit = .ok g) :
    g.numerator.Canonical ∧ g.denominator.Canonical := by
  obtain ⟨divisor, -, made⟩ := bind_eq_ok_iff.mp made
  obtain ⟨numerator, top, made⟩ := bind_eq_ok_iff.mp made
  obtain ⟨denominator, bottom, made⟩ := bind_eq_ok_iff.mp made
  obtain ⟨_, divided, rfl⟩ := map_eq_ok_iff.mp top
  obtain ⟨_, divided', rfl⟩ := map_eq_ok_iff.mp bottom
  have top := (canonical_divRem divided).1
  have bottom := (canonical_divRem divided').1
  split at made
  · obtain rfl := Except.ok.inj made
    exact ⟨top.neg, bottom.neg⟩
  · obtain rfl := Except.ok.inj made
    exact ⟨top, bottom⟩

end Operations

/-! ### Integers that can be made -/

/-- The integers that can be made by any number of operations in any order. Each operation may be
refused storage at a limit of its own. -/
inductive Made : Integer → Prop where
  | zero : Made zero
  | one : Made one
  | minusOne : Made minusOne
  | digits {limit : Nat} {negative : Bool} {digits : Digits} {v : Integer} :
      ofDigits limit negative digits = .ok v → Made v
  | buffer (negative : Bool) (digits : Digits) : Made (ofMagnitude negative digits)
  | word (negative : Bool) (magnitude : BitVec 128) : Made (ofWord negative magnitude)
  | fixed (x : FixedInt) : Made (ofFixed x)
  | text {limit radix : Nat} {text : String} {v : Integer} :
      ofText limit radix text = .ok v → Made v
  | checked {op : Operator} {limit : Nat} {a v : Integer} {b : Operand} :
      Made a → (∀ value, b = .big value → Made value) → op.checked limit a b = .ok v → Made v
  | applied {op : Operator} {limit : Nat} {a v : Integer} {b : Operand} :
      Made a → (∀ value, b = .big value → Made value) → op.apply limit a b = .ok v → Made v
  | assigned {op : Operator} {limit : Nat} {a : Integer} {b : Operand} :
      Made a → (∀ value, b = .big value → Made value) → Made (op.assign limit a b).1
  | appliedFixed {op : Operator} {limit : Nat} {x : FixedInt} {b v : Integer} :
      Made b → op.applyFixed limit x b = .ok v → Made v
  | quotient {limit : Nat} {a : Integer} {b : Operand} {result : Integer × Integer} :
      Made a → (∀ value, b = .big value → Made value) → a.divRem limit b = .ok result →
        Made result.1
  | remainder {limit : Nat} {a : Integer} {b : Operand} {result : Integer × Integer} :
      Made a → (∀ value, b = .big value → Made value) → a.divRem limit b = .ok result →
        Made result.2
  | pow {limit exponent : Nat} {a v : Integer} : Made a → a.pow limit exponent = .ok v → Made v
  | gcd {limit : Nat} {a v : Integer} {b : Operand} :
      Made a → (∀ value, b = .big value → Made value) → a.gcd limit b = .ok v → Made v
  | lcm {limit : Nat} {a v : Integer} {b : Operand} :
      Made a → (∀ value, b = .big value → Made value) → a.lcm limit b = .ok v → Made v
  | shl {limit bits : Nat} {a v : Integer} : Made a → a.shl limit bits = .ok v → Made v
  | shr {limit bits : Nat} {a v : Integer} : Made a → a.shr limit bits = .ok v → Made v
  | abs {a : Integer} : Made a → Made a.abs
  | neg {a : Integer} : Made a → Made a.neg
  | increment {limit : Nat} {shared : Bool} {a v : Integer} :
      Made a → a.increment limit shared = .ok v → Made v
  | decrement {limit : Nat} {shared : Bool} {a v : Integer} :
      Made a → a.decrement limit shared = .ok v → Made v
  | numerator {limit : Nat} {f g : Fraction} :
      Made f.numerator → Made f.denominator → f.reduce limit = .ok g → Made g.numerator
  | denominator {limit : Nat} {f g : Fraction} :
      Made f.numerator → Made f.denominator → f.reduce limit = .ok g → Made g.denominator
  /-- A program on a cell that is given integers that can be made shows such, to its closures too,
  and leaves one behind. -/
  | shown {c : Cell} {program : Body} {v : Integer} :
      c.current.number < c.nextNumber → Made c.current.value →
        (∀ w ∈ (program.history (program.run c).nested).written, Made w) →
        v ∈ (program.run c).cell.current.value ::
          (program.history (program.run c).nested).shown →
        Made v

theorem Made.canonical {v : Integer} (made : v.Made) : v.Canonical := by
  induction made with
  | zero => exact canonical_zero
  | one => exact canonical_one
  | minusOne => exact canonical_minusOne
  | digits granted => exact canonical_ofDigits granted
  | buffer negative digits => exact canonical_ofMagnitude negative digits
  | word negative magnitude => exact canonical_ofMagnitude _ _
  | fixed x => exact canonical_ofMagnitude _ _
  | text read => exact canonical_ofText read
  | checked _ _ granted left right => exact left.checked (Operand.canonical_of_big right) granted
  | applied _ _ granted left right => exact left.apply (Operand.canonical_of_big right) granted
  | assigned _ _ left right => exact left.assign (Operand.canonical_of_big right)
  | appliedFixed _ granted canonical => exact canonical.applyFixed granted
  | quotient _ _ divided => exact (canonical_divRem divided).1
  | remainder _ _ divided => exact (canonical_divRem divided).2
  | pow _ granted => exact canonical_pow granted
  | gcd _ _ granted => exact canonical_gcd granted
  | lcm _ _ granted => exact canonical_lcm granted
  | shl _ granted => exact canonical_shl granted
  | shr _ granted => exact canonical_shr granted
  | abs _ canonical => exact canonical.abs
  | neg _ canonical => exact canonical.neg
  | increment _ granted canonical => exact canonical.increment granted
  | decrement _ granted canonical => exact canonical.decrement granted
  | numerator _ _ reduced => exact (canonical_reduce reduced).1
  | denominator _ _ reduced => exact (canonical_reduce reduced).2
  | @shown c program v numbered _ _ mem start written =>
      rcases List.mem_cons.mp ((program.ran c numbered).shown v mem) with rfl | mem
      · exact start
      · exact written v mem

/-- **Every integer that can be made is canonical.** So are the digits that arithmetic with any
operand gets from it, and what trimming leaves of any digits; a step away from zero carries nothing
out of the room that was made for it, and no difference borrows from beyond its larger side. -/
theorem made_canonical {v : Integer} (made : v.Made) :
    v.Canonical ∧
      (∀ digits : Digits, digits.trim.Canonical) ∧
      (Digits.increment v.digits.widened).2 = false ∧
      ∀ b : Operand, (∀ value, b = .big value → value.Made) →
        b.normalize.digits.Canonical ∧
          (Digits.differencePass v.digits b.normalize.digits).2 = false := by
  refine ⟨made.canonical, Digits.canonical_trim, Digits.increment_widened_carry _, ?_⟩
  intro b madeRight
  have canonical : b.Canonical :=
    Operand.canonical_of_big fun value big => (madeRight value big).canonical
  have right := canonical.normalize.1
  exact ⟨right, Digits.differencePass_borrow made.canonical.1 right⟩

/-- One more than the largest digit. -/
theorem made_canonical_two_digits :
    Made { negative := false, digits := [0, 1] } ∧
      Canonical { negative := false, digits := [0, 1] } ∧
      (Digits.differencePass [0, 1] [Digit.max]).2 = false := by
  have largest : Made { negative := false, digits := [Digit.max] } := .buffer false [Digit.max, 0]
  have next : Made { negative := false, digits := [0, 1] } :=
    largest.increment (show increment 65536 false _ = .ok _ from rfl)
  obtain ⟨canonical, -, -, below⟩ := made_canonical next
  exact ⟨next, canonical,
    (below (.big { negative := false, digits := [Digit.max] }) fun value same =>
      Operand.big.inj same ▸ largest).2⟩

end Integer

end Bignum
