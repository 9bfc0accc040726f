import Bignum.Fraction
import Bignum.Integer.Operator
import Bignum.Proofs.Integer.Arithmetic

/-!
Arithmetic has one meaning, whatever stands on either side and however it is written.

* `operators_agree`: an operation does not tell a fixed-size integer on the right from the integer
  that it is widened to; an operator gives what the operation behind it answers or stops with the
  wording of its error; and with a fixed-size integer on the left it is, where storage is granted,
  the operation on that integer, widened.
-/

namespace Bignum

/-- Stopped for want of storage. -/
def Refused {α : Type} (result : Except Panic α) : Prop :=
  ∃ cause : AllocationError,
    result = .error { message := (ArithmeticError.allocation cause).message }

/-- A refusal is never worded as a division by zero. -/
theorem ArithmeticError.message_ne (cause : AllocationError) :
    (allocation cause).message ≠ divisionByZero.message := by
  show "big integer allocation failed: " ++ cause.message ≠ "attempt to divide by zero"
  generalize cause.message = reason
  intro same
  have letters := congrArg String.toList same
  rw [String.toList_append] at letters
  cases letters

/-! ### Fixed-size integers on the right -/

namespace Operand

theorem length_wordDigits_le (magnitude : BitVec 128) : (wordDigits magnitude).length ≤ 2 := by
  simp only [wordDigits]
  split
  · exact Nat.zero_le 2
  · split
    · exact Nat.le_succ 1
    · exact Nat.le_refl 2

end Operand

namespace Integer

/-- A widened integer has no more than two digits. -/
theorem length_ofFixed_le (x : FixedInt) : (ofFixed x).digits.length ≤ 2 := by
  have form : ofFixed x = _ := Operand.toInteger_eq (.ofFixed x)
  rw [form]
  exact Operand.length_wordDigits_le _

section Widened

variable (limit : Nat) (a : Integer) (b : Operand)

/-! No operation tells a word from the integer that it stands for. -/

theorem divRem_toInteger : a.divRem limit (.big b.toInteger) = a.divRem limit b := by
  simp only [divRem, Operand.normalize_toInteger]

theorem gcd_toInteger : a.gcd limit (.big b.toInteger) = a.gcd limit b := by
  simp only [gcd, Operand.normalize_toInteger]

theorem lcm_toInteger : a.lcm limit (.big b.toInteger) = a.lcm limit b := by
  simp only [lcm, gcd_toInteger, Operand.normalize_toInteger]

end Widened

end Integer

namespace Operator

variable {op : Operator} {limit : Nat} {a : Integer} {b : Operand} {x : FixedInt}

theorem checked_toInteger (op : Operator) (limit : Nat) (a : Integer) (b : Operand) :
    op.checked limit a (.big b.toInteger) = op.checked limit a b := by
  cases op with
  | add => simp only [checked, Integer.add, Operand.normalize_toInteger]
  | sub => simp only [checked, Integer.sub, Operand.normalize_toInteger]
  | mul =>
      simp only [checked, Integer.mul, Integer.mulKeepsDigits, Operand.normalize_toInteger]
      rfl
  | div => simp only [checked, Integer.div, Integer.divRem_toInteger]
  | rem => simp only [checked, Integer.rem, Integer.divRem_toInteger]

/-! ### Operators and the operations behind them -/

/-- An operator follows the operation behind it: it gives the value, also to what it assigns to, or
stops with the wording of the error, and then what it assigns to keeps its value. -/
def Follows (op : Operator) (limit : Nat) (a : Integer) (b : Operand) : Prop :=
  match op.checked limit a b with
  | .ok value => op.apply limit a b = .ok value ∧ op.assign limit a b = (value, .ok ())
  | .error e =>
      op.apply limit a b = .error { message := e.message } ∧
        op.assign limit a b = (a, .error { message := e.message })

theorem follows (op : Operator) (limit : Nat) (a : Integer) (b : Operand) :
    op.Follows limit a b := by
  unfold Follows
  split
  · rename_i value made
    have given : op.apply limit a b = .ok value := orPanic_eq_ok_iff.mpr made
    exact ⟨given, by rw [assign, given]⟩
  · rename_i e failed
    have stopped : op.apply limit a b = .error { message := e.message } :=
      orPanic_eq_error_iff.mpr ⟨e, failed, rfl⟩
    exact ⟨stopped, by rw [assign, stopped]⟩

/-- Nothing is divided by zero. -/
theorem checked_zero (divides : op.Divides) (zero : b.normalize.digits = []) :
    op.checked limit a b = .error .divisionByZero := by
  have divided : a.divRem limit b = .error .divisionByZero := by
    simp only [Integer.divRem, zero]
    rfl
  cases op with
  | add | sub | mul => exact divides.elim
  | div => exact map_eq_error_iff.mpr divided
  | rem => exact map_eq_error_iff.mpr divided

/-- An operator stops for two reasons only. -/
theorem apply_error {panic : Panic} (stopped : op.apply limit a b = .error panic) :
    (op.Divides ∧ b.normalize.digits = []) ∧
        panic.message = ArithmeticError.divisionByZero.message ∨
      Refused (op.apply limit a b) ∧ limit ≤ a.digits.length + b.normalize.digits.length + 1 := by
  obtain ⟨e, failed, wording⟩ := orPanic_eq_error_iff.mp stopped
  rcases checked_error failed with ⟨rfl, divides⟩ | ⟨-, full, cause, rfl⟩
  · exact .inl ⟨divides, wording⟩
  · exact .inr ⟨⟨cause, orPanic_eq_error_iff.mpr ⟨_, failed, rfl⟩⟩, full⟩

theorem le_of_refused (refused : Refused (op.apply limit a b)) :
    limit ≤ a.digits.length + b.normalize.digits.length + 1 := by
  obtain ⟨cause, stopped⟩ := refused
  rcases apply_error stopped with ⟨-, wording⟩ | ⟨-, full⟩
  · exact absurd wording (ArithmeticError.message_ne cause)
  · exact full

/-- Where storage is granted, an operator stops exactly if it divides by zero. -/
theorem apply_eq_error_iff (granted : ¬ Refused (op.apply limit a b)) {panic : Panic} :
    op.apply limit a b = .error panic ↔ (op.Divides ∧ b.normalize.digits = []) ∧
      panic.message = ArithmeticError.divisionByZero.message := by
  constructor
  · intro stopped
    rcases apply_error stopped with zero | ⟨refused, -⟩
    · exact zero
    · exact absurd refused granted
  · rintro ⟨⟨divides, zero⟩, wording⟩
    exact orPanic_eq_error_iff.mpr ⟨.divisionByZero, checked_zero divides zero, wording⟩

/-! ### Fixed-size integers on the left -/

/-- With a fixed-size integer on the left, the sides of an operator that does not divide may be
exchanged; those of one that does never are. -/
theorem applyFixed_eq (op : Operator) (limit : Nat) (x : FixedInt) (a : Integer) :
    op.applyFixed limit x a = op.apply limit a (.ofFixed x) ∧ ¬ op.Divides ∨
      op.applyFixed limit x a = op.apply limit (.ofFixed x) (.big a) := by
  cases op with
  | add | mul => exact .inl ⟨rfl, id⟩
  | sub | div | rem => exact .inr rfl

theorem le_of_applyFixed_refused (refused : Refused (op.applyFixed limit x a)) :
    limit ≤ a.digits.length + 3 := by
  have word := Operand.length_wordDigits_le (BitVec.ofNat 128 x.value.natAbs)
  rcases applyFixed_eq op limit x a with ⟨exchanged, -⟩ | kept
  · rw [exchanged] at refused
    have full := le_of_refused refused
    simp only [Operand.ofFixed, Operand.normalize] at full
    omega
  · rw [kept] at refused
    have full := le_of_refused refused
    have short := Integer.length_ofFixed_le x
    simp only [Operand.normalize] at full
    omega

theorem applyFixed_eq_error_iff (granted : ¬ Refused (op.applyFixed limit x a)) {panic : Panic} :
    op.applyFixed limit x a = .error panic ↔ (op.Divides ∧ a.digits = []) ∧
      panic.message = ArithmeticError.divisionByZero.message := by
  rcases applyFixed_eq op limit x a with ⟨exchanged, keeps⟩ | kept
  · rw [exchanged] at granted ⊢
    rw [apply_eq_error_iff granted]
    constructor
    · rintro ⟨⟨divides, -⟩, -⟩
      exact absurd divides keeps
    · rintro ⟨⟨divides, -⟩, -⟩
      exact absurd divides keeps
  · rw [kept] at granted ⊢
    exact apply_eq_error_iff granted

/-- **The sides of a sum and of a product can be exchanged**: what both give has one value, and
one form. -/
theorem applyFixed_unique (canonical : a.Canonical) {v w : Integer}
    (given : op.applyFixed limit x a = .ok v)
    (widened : op.apply limit (.ofFixed x) (.big a) = .ok w) : v = w := by
  have fixed := Integer.canonical_ofFixed x
  have exchanged (same : v.toInt = w.toInt) : v = w :=
    (canonical.applyFixed given).eq_of_toInt_eq
      (fixed.apply (b := .big a) canonical widened) same
  have word : (Operand.ofFixed x).Canonical := trivial
  cases op with
  | add =>
      have sum := Integer.toInt_add canonical word (orPanic_eq_ok_iff.mp given)
      have sum' := Integer.toInt_add (b := .big a) fixed canonical (orPanic_eq_ok_iff.mp widened)
      exact exchanged (sum.trans ((Int.add_comm _ _).trans sum'.symm))
  | mul =>
      have product := Integer.toInt_mul (orPanic_eq_ok_iff.mp given)
      have product' := Integer.toInt_mul (orPanic_eq_ok_iff.mp widened)
      exact exchanged (product.trans ((Int.mul_comm _ _).trans product'.symm))
  | sub | div | rem => exact Except.ok.inj (given.symm.trans widened)

/-- Where storage is granted, a fixed-size integer on the left is the integer it is widened to. -/
theorem applyFixed_eq_apply (canonical : a.Canonical)
    (granted : ¬ Refused (op.applyFixed limit x a))
    (widened : ¬ Refused (op.apply limit (.ofFixed x) (.big a))) :
    op.applyFixed limit x a = op.apply limit (.ofFixed x) (.big a) := by
  -- Either both stop, for the same division by zero, or neither does.
  cases left : op.applyFixed limit x a with
  | error panic =>
      exact ((apply_eq_error_iff widened).mpr ((applyFixed_eq_error_iff granted).mp left)).symm
  | ok v =>
      cases right : op.apply limit (.ofFixed x) (.big a) with
      | error panic =>
          have stopped :=
            (applyFixed_eq_error_iff granted).mpr ((apply_eq_error_iff widened).mp right)
          exact left.symm.trans stopped
      | ok w => exact congrArg Except.ok (applyFixed_unique canonical left right)

end Operator

/-- **Arithmetic has one meaning**, whatever stands on either side and however it is written.

A fixed-size integer on the right gives the value or the error of the integer that it is widened to.
An operator, also one that assigns, gives the value of the operation behind it, and stops with the
wording of the error exactly if that has one. A fixed-size integer on the left gives, unless storage
is refused to either, what the integer that it is widened to gives there, and stops exactly if it is
divided by zero; nothing is refused where there is room for three digits more. -/
theorem operators_agree {a : Integer} (canonical : a.Canonical) (limit : Nat) :
    (∀ x : FixedInt,
      (∀ op : Operator,
        op.checked limit a (.ofFixed x) = op.checked limit a (.big (.ofFixed x))) ∧
      a.divRem limit (.ofFixed x) = a.divRem limit (.big (.ofFixed x)) ∧
      a.gcd limit (.ofFixed x) = a.gcd limit (.big (.ofFixed x)) ∧
      a.lcm limit (.ofFixed x) = a.lcm limit (.big (.ofFixed x)) ∧
      a.ratio (.ofFixed x) = a.ratio (.big (.ofFixed x))) ∧
    (∀ (op : Operator) (y : Operand), op.Follows limit a y) ∧
    ∀ (op : Operator) (x : FixedInt),
      (¬ Refused (op.applyFixed limit x a) → ¬ Refused (op.apply limit (.ofFixed x) (.big a)) →
        op.applyFixed limit x a = op.apply limit (.ofFixed x) (.big a) ∧
        ∀ panic, op.applyFixed limit x a = .error panic ↔ (op.Divides ∧ a.isZero = true) ∧
          panic.message = ArithmeticError.divisionByZero.message) ∧
      (a.digits.length + 3 < limit → ¬ Refused (op.applyFixed limit x a) ∧
        ¬ Refused (op.apply limit (.ofFixed x) (.big a))) := by
  refine ⟨fun x => ?_, fun op y => op.follows limit a y, fun op x => ⟨fun left right => ?_, ?_⟩⟩
  · exact ⟨fun op => (op.checked_toInteger limit a (.ofFixed x)).symm,
      (a.divRem_toInteger limit (.ofFixed x)).symm, (a.gcd_toInteger limit (.ofFixed x)).symm,
      (a.lcm_toInteger limit (.ofFixed x)).symm, rfl⟩
  · refine ⟨Operator.applyFixed_eq_apply canonical left right, fun panic => ?_⟩
    rw [Integer.isZero, List.isEmpty_iff]
    exact Operator.applyFixed_eq_error_iff left
  · intro room
    refine ⟨fun refused => ?_, fun refused => ?_⟩
    · have full := Operator.le_of_applyFixed_refused refused
      omega
    · have full := Operator.le_of_refused refused
      have short := Integer.length_ofFixed_le x
      simp only [Operand.normalize] at full
      omega

/-- The least of the widest signed type, times an integer of three digits and divided by zero. -/
theorem operators_agree_least :
    let least : FixedInt :=
      ⟨.int128, -170141183460469231731687303715884105728, by decide, by decide⟩
    let a : Integer := { negative := true, digits := [0, 0, 1] }
    a.Canonical ∧ a.digits.length + 3 < 65536 ∧
      Operator.mul.applyFixed 65536 least a = Operator.mul.apply 65536 (.ofFixed least) (.big a) ∧
      Operator.div.applyFixed 65536 least .zero =
        .error { message := "attempt to divide by zero" } := by
  intro least a
  have canonical : a.Canonical := by decide
  have room : a.digits.length + 3 < 65536 := by decide
  obtain ⟨-, -, left⟩ := operators_agree canonical 65536
  obtain ⟨-, -, divided⟩ := operators_agree Integer.canonical_zero 65536
  have granted := (left .mul least).2 room
  have grantedZero := (divided .div least).2 (by decide)
  refine ⟨canonical, room, ((left .mul least).1 granted.1 granted.2).1, ?_⟩
  exact (((divided .div least).1 grantedZero.1 grantedZero.2).2 _).mpr ⟨⟨trivial, rfl⟩, rfl⟩

end Bignum
