import Bignum.Proofs.Integer.Canonical
import Bignum.Proofs.Sharing.Pool
import Bignum.Sharing.Registers

/-!
Registers that hold an integer each, with nothing shared.

`Privates.step` carries the steps of registers out on integers alone: a copy is the integer itself,
and a change in place is a new integer. `RegisterOp.Ready` says when a step can be carried out,
`RegisterOp.Shares` which steps take digits over instead of making new ones, and
`RegisterOp.origin` where an exchange moves them.
-/

namespace Bignum

/-! ### Registers with digits of their own -/

/-- Registers that hold an integer each, or nothing. -/
abbrev Privates := List (Option Integer)

namespace Privates

/-- The integer in a register. -/
def value? (m : Privates) (r : Nat) : Option Integer := (m[r]?).join

/-- The integer in a register, zero if there is none. -/
def valueAt (m : Privates) (r : Nat) : Integer := (m.value? r).getD .zero

/-- The right-hand side of a step. -/
def rightSide (m : Privates) : RightSide → Operand
  | .register r => .big (m.valueAt r)
  | .operand b => b

def put (target : Nat) (v : Integer) (m : Privates) : Privates := m.set target (some v)

/-- A step: its failure, if any, and the registers afterwards. -/
abbrev Result := Except StepError Unit × Privates

/-- Put a checked result into a register. -/
def putResult (target : Nat) (result : Except ArithmeticError Integer) (m : Privates) : Result :=
  match result with
  | .ok v => (.ok (), m.put target v)
  | .error cause => (.error (.arithmetic cause), m)

/-- Stop where a step has no result. -/
def Result.orPanic : Result → Result
  | (.error (.arithmetic cause), m) => (.error (.panic { message := cause.message }), m)
  | result => result

/-- Carry a step out. -/
def step (limit : Nat) (op : RegisterOp) (m : Privates) : Result :=
  match op with
  | .set target v => m.putResult target (Integer.ofDigits limit v.negative v.digits)
  | .clone target source => (.ok (), m.put target (m.valueAt source))
  | .abs target source => (.ok (), m.put target (m.valueAt source).abs)
  | .neg target source => (.ok (), m.put target (m.valueAt source).neg)
  | .drop target => (.ok (), m.set target none)
  | .exchange r s => (.ok (), (m.set r (m.value? s)).set s (m.value? r))
  | .negate target => (.ok (), m.put target (m.valueAt target).neg)
  | .increment target => m.putResult target ((m.valueAt target).increment limit false)
  | .decrement target => m.putResult target ((m.valueAt target).decrement limit false)
  | .shl target source bits => m.putResult target ((m.valueAt source).shl limit bits)
  | .shr target source bits => m.putResult target ((m.valueAt source).shr limit bits)
  | .pow target source exponent => m.putResult target ((m.valueAt source).pow limit exponent)
  | .rebuild target source negative =>
      (.ok (), m.put target (.ofMagnitude negative (m.valueAt source).digits))
  | .apply op target source rhs =>
      (m.putResult target (op.checked limit (m.valueAt source) (m.rightSide rhs))).orPanic
  | .assign op target rhs =>
      (m.putResult target (op.checked limit (m.valueAt target) (m.rightSide rhs))).orPanic
  | .divMod target rest source divisor =>
      match (m.valueAt source).divRem limit (.big (m.valueAt divisor)) with
      | .ok result => (.ok (), (m.put rest result.2).put target result.1)
      | .error cause => (.error (.arithmetic cause), m)
  | .binary fn target source rhs =>
      m.putResult target (fn.checked limit (m.valueAt source) (m.rightSide rhs))

/-- Carry steps out one after another, whether they fail or not. -/
def stepAll (limit : Nat) (ops : List RegisterOp) (m : Privates) : Privates :=
  ops.foldl (fun m op => (m.step limit op).2) m

/-- Whether a register is in use. -/
def Holds (m : Privates) (r : Nat) : Prop := (m.value? r).isSome = true

instance (m : Privates) (r : Nat) : Decidable (m.Holds r) :=
  inferInstanceAs (Decidable (_ = true))

end Privates

/-! ### Steps that can be carried out -/

instance : DecidablePred Operand.Canonical
  | .word _ _ => .isTrue trivial
  | .big value => inferInstanceAs (Decidable value.Canonical)

/-- A right-hand side that is there. -/
def RightSide.Ready (m : Privates) : RightSide → Prop
  | .register r => m.Holds r
  | .operand b => b.Canonical

instance (m : Privates) : DecidablePred (RightSide.Ready m)
  | .register r => inferInstanceAs (Decidable (m.Holds r))
  | .operand b => inferInstanceAs (Decidable b.Canonical)

namespace RegisterOp

/-- The registers that a step reads are in use, and those that it writes are there. -/
def Ready (m : Privates) : RegisterOp → Prop
  | set target _ | drop target => target < m.length
  | clone target source | abs target source | neg target source | shl target source _
  | shr target source _ | pow target source _ | rebuild target source _ =>
      target < m.length ∧ m.Holds source
  | exchange r s => r < m.length ∧ s < m.length
  | negate target | increment target | decrement target => m.Holds target
  | apply _ target source rhs | binary _ target source rhs =>
      target < m.length ∧ m.Holds source ∧ rhs.Ready m
  | assign _ target rhs => m.Holds target ∧ rhs.Ready m
  | divMod target rest source divisor =>
      target < m.length ∧ rest < m.length ∧ m.Holds source ∧ m.Holds divisor

instance (m : Privates) (op : RegisterOp) : Decidable (op.Ready m) := by
  cases op <;> unfold Ready <;> infer_instance

/-- Every step of a run can be carried out when its turn comes. -/
def ReadyAll (limit : Nat) : List RegisterOp → Privates → Prop
  | [], _ => True
  | op :: ops, m => op.Ready m ∧ ReadyAll limit ops (m.step limit op).2

instance (limit : Nat) : (ops : List RegisterOp) → (m : Privates) → Decidable (ReadyAll limit ops m)
  | [], _ => .isTrue trivial
  | op :: ops, m =>
      have := instDecidableReadyAll limit ops (m.step limit op).2
      inferInstanceAs (Decidable (op.Ready m ∧ ReadyAll limit ops (m.step limit op).2))

/-- A product takes over the digits of its left factor: that is not zero, and the right factor is
`1` or `-1`. -/
def UnitProduct (op : Operator) (a : Integer) (b : Operand) : Prop :=
  op = .mul ∧ a ≠ .zero ∧ (b.toInteger = .one ∨ b.toInteger = .minusOne)

/-- The steps that may make two registers share a block. -/
def Shares (m : Privates) : RegisterOp → Prop
  | clone _ _ | abs _ _ | neg _ _ | rebuild _ _ _ => True
  | apply op _ source rhs | binary (.operator op) _ source rhs =>
      UnitProduct op (m.valueAt source) (m.rightSide rhs)
  | assign op target rhs => UnitProduct op (m.valueAt target) (m.rightSide rhs)
  | _ => False

/-- The register that a block was in before a step moved it. -/
def origin : RegisterOp → Nat → Nat
  | exchange r s, slot => Pool.exchanged r s slot
  | _, slot => slot

end RegisterOp

/-! ### Products that keep digits -/

namespace Integer

variable {a : Integer} {b : Operand}

theorem mul_of_keepsDigits (limit : Nat) (keeps : a.mulKeepsDigits b = true) :
    a.mul limit b =
      .ok { negative := a.negative != b.normalize.negative, digits := a.digits } := by
  have parts := keeps
  rw [mulKeepsDigits, Bool.and_eq_true, Bool.not_eq_true', beq_iff_eq] at parts
  simp only [mul, keeps, parts.1, parts.2]
  rfl

/-- The digits of a product are kept only by `1` and `-1`. -/
theorem unitProduct_of_keepsDigits (right : b.Canonical) (keeps : a.mulKeepsDigits b = true) :
    RegisterOp.UnitProduct .mul a b := by
  rw [mulKeepsDigits, Bool.and_eq_true, Bool.not_eq_true', beq_iff_eq] at keeps
  obtain ⟨nonzero, unit⟩ := keeps
  refine ⟨rfl, ?_, ?_⟩
  · rintro rfl
    cases nonzero
  · cases b with
    | big value =>
        obtain ⟨negative, digits⟩ := value
        obtain rfl : digits = [1] := unit
        cases negative
        · exact .inl rfl
        · exact .inr rfl
    | word negative magnitude =>
        have one : magnitude = 1 := by
          have whole := Operand.toNat_wordDigits magnitude
          rw [show Operand.wordDigits magnitude = [1] from unit] at whole
          exact BitVec.eq_of_toNat_eq whole.symm
        subst one
        cases negative
        · exact .inl (by decide)
        · exact .inr (by decide)

end Integer

end Bignum
