import Bignum.Integer.Divisor
import Bignum.Integer.Operator
import Bignum.Sharing.Buffer

/-!
Registers that hold integers whose digits live in a pool.

A register is a sign and a slot. Copies, absolute values and negations share the digits of the
register that they are made from, and so does a product with `1` or `-1` on the right; all other
results are put into a block of their own. Steps of one change the digits in place, after moving
away from a shared block.
-/

namespace Bignum

/-- A sign for each slot of a pool. -/
structure Registers where
  pool : Pool
  negative : List Bool
  deriving DecidableEq, Repr

/-- Why a step on registers fails. -/
inductive StepError where
  | arithmetic (cause : ArithmeticError)
  | panic (cause : Panic)
  deriving DecidableEq, Repr

namespace Registers

/-- Registers with nothing in them. -/
def empty (count : Nat) : Registers :=
  { pool := .empty count, negative := List.replicate count false }

/-! ### Looking -/

/-- Whether the integer in a register has a sign. -/
def isNegative (rs : Registers) (r : Nat) : Bool := rs.negative.getD r false

/-- The integer in a register. -/
def value? (rs : Registers) (r : Nat) : Option Integer :=
  (rs.pool.block? r).map fun block =>
    { negative := rs.isNegative r, digits := block.digits }

/-! ### Putting -/

/-- Change the sign of a register and leave its digits where they are. -/
def setSign (r : Nat) (negative : Bool) (rs : Registers) : Registers :=
  { rs with negative := rs.negative.set r negative }

/-- Put an integer into a register, in a block of its own. -/
def place (r : Nat) (v : Integer) (rs : Registers) : Registers :=
  { pool := rs.pool.place r v.digits, negative := rs.negative.set r v.negative }

/-- Put the digits of another register into a register, with a sign. -/
def shareAs (source target : Nat) (negative : Bool) (rs : Registers) : Registers :=
  { pool := rs.pool.share source target, negative := rs.negative.set target negative }

/-! ### Steps of one -/

/-- One more in a slot. Room for a carry out of the top is taken before a digit changes. -/
def stepUp (limit slot : Nat) (p : Pool) : Grant :=
  let room : Grant :=
    if (p.digits slot).all (· == Digit.max) then p.append limit slot 1 0 else (.ok (), p)
  room.andThen fun q => q.edit limit slot fun ds => (Digits.increment ds).1

/-- One less in a slot that does not show zero. -/
def stepDown (limit slot : Nat) (p : Pool) : Grant :=
  (p.edit limit slot Digits.decrement).andThen fun q => q.trim limit slot

/-- A step on registers: its failure, if any, and the registers afterwards. -/
abbrev Result := Except StepError Unit × Registers

/-- Stop where a step has no result. -/
def Result.orPanic : Result → Result
  | (.error (.arithmetic cause), rs) => (.error (.panic { message := cause.message }), rs)
  | result => result

/-- Change the pool under the registers, and one sign if that is granted. -/
def stepWith (r : Nat) (grant : Grant) (sign : Pool → Bool) (rs : Registers) : Result :=
  match grant.1 with
  | .ok () => (.ok (), { rs with pool := grant.2 }.setSign r (sign grant.2))
  | .error cause => (.error (.arithmetic (.allocation cause)), { rs with pool := grant.2 })

/-- Add one in place. -/
def increment (limit r : Nat) (rs : Registers) : Result :=
  if rs.isNegative r then
    rs.stepWith r (stepDown limit r rs.pool) fun p => !(p.digits r).isEmpty
  else rs.stepWith r (stepUp limit r rs.pool) fun _ => false

/-- Subtract one in place. -/
def decrement (limit r : Nat) (rs : Registers) : Result :=
  if rs.isNegative r || (rs.pool.digits r).isEmpty then
    rs.stepWith r (stepUp limit r rs.pool) fun _ => true
  else rs.stepWith r (stepDown limit r rs.pool) fun _ => false

end Registers

/-! ### Steps as data -/

/-- The functions of two integers. -/
inductive BinaryFn where
  | operator (op : Operator)
  | gcd
  | lcm
  deriving DecidableEq, Repr

/-- The checked form of a function. -/
def BinaryFn.checked : BinaryFn → (limit : Nat) → Integer → Operand →
    Except ArithmeticError Integer
  | .operator op => op.checked
  | .gcd => Integer.gcd
  | .lcm => Integer.lcm

/-- Where the right-hand side of a step is. -/
inductive RightSide where
  | register (r : Nat)
  | operand (b : Operand)
  deriving DecidableEq, Repr

/-- What can be done with registers. -/
inductive RegisterOp where
  | set (target : Nat) (v : Integer)
  | clone (target source : Nat)
  | abs (target source : Nat)
  | neg (target source : Nat)
  | drop (target : Nat)
  | exchange (r s : Nat)
  | negate (target : Nat)
  | increment (target : Nat)
  | decrement (target : Nat)
  | shl (target source bits : Nat)
  | shr (target source bits : Nat)
  | pow (target source exponent : Nat)
  /-- Put a sign to the digits of a register, less the zeros at their top. -/
  | rebuild (target source : Nat) (negative : Bool)
  /-- An operator, which stops the program where it has no result. -/
  | apply (op : Operator) (target source : Nat) (rhs : RightSide)
  /-- An operator that assigns, which stops the program where it has no result. -/
  | assign (op : Operator) (target : Nat) (rhs : RightSide)
  /-- Quotient and remainder, the remainder being written first. -/
  | divMod (target rest source divisor : Nat)
  | binary (fn : BinaryFn) (target source : Nat) (rhs : RightSide)
  deriving DecidableEq, Repr

namespace RegisterOp

/-- The integer in a register, zero if there is none. -/
def valueAt (rs : Registers) (r : Nat) : Integer := (rs.value? r).getD .zero

/-- The right-hand side of a step. -/
def rightSide (rs : Registers) : RightSide → Operand
  | .register r => .big (valueAt rs r)
  | .operand b => b

/-- Put a checked result into a register, in a block of its own. -/
def placeResult (target : Nat) (result : Except ArithmeticError Integer) (rs : Registers) :
    Registers.Result :=
  match result with
  | .ok v => (.ok (), rs.place target v)
  | .error cause => (.error (.arithmetic cause), rs)

/-- Put `source fn b` into a register. -/
def applyFn (limit : Nat) (fn : BinaryFn) (target source : Nat) (b : Operand) (rs : Registers) :
    Registers.Result :=
  let a := valueAt rs source
  if fn = .operator .mul ∧ a.mulKeepsDigits b then
    (.ok (), rs.shareAs source target (a.negative != b.normalize.negative))
  else placeResult target (fn.checked limit a b) rs

/-- Carry a step out. -/
def run (limit : Nat) (op : RegisterOp) (rs : Registers) : Registers.Result :=
  match op with
  | set target v => placeResult target (Integer.ofDigits limit v.negative v.digits) rs
  | clone target source => (.ok (), rs.shareAs source target (rs.isNegative source))
  | abs target source => (.ok (), rs.shareAs source target false)
  | neg target source =>
      (.ok (), rs.shareAs source target (valueAt rs source).neg.negative)
  | drop target => (.ok (), { rs with pool := rs.pool.release target })
  | exchange r s =>
      (.ok (), ({ rs with pool := rs.pool.exchange r s }.setSign r (rs.isNegative s)).setSign s
        (rs.isNegative r))
  | negate target => (.ok (), rs.setSign target (valueAt rs target).neg.negative)
  | increment target => rs.increment limit target
  | decrement target => rs.decrement limit target
  | shl target source bits => placeResult target ((valueAt rs source).shl limit bits) rs
  | shr target source bits => placeResult target ((valueAt rs source).shr limit bits) rs
  | pow target source exponent =>
      placeResult target ((valueAt rs source).pow limit exponent) rs
  | rebuild target source negative =>
      let grant := (rs.pool.share source target).trim limit target
      match grant.1 with
      | .ok () =>
          (.ok (), { rs with pool := grant.2 }.setSign target
            (negative && !(grant.2.digits target).isEmpty))
      | .error cause => (.error (.arithmetic (.allocation cause)), rs)
  | apply op target source rhs =>
      (applyFn limit (.operator op) target source (rightSide rs rhs) rs).orPanic
  | assign op target rhs =>
      (applyFn limit (.operator op) target target (rightSide rs rhs) rs).orPanic
  | divMod target rest source divisor =>
      match (valueAt rs source).divRem limit (.big (valueAt rs divisor)) with
      | .ok result => (.ok (), (rs.place rest result.2).place target result.1)
      | .error cause => (.error (.arithmetic cause), rs)
  | binary fn target source rhs => applyFn limit fn target source (rightSide rs rhs) rs

/-- Carry steps out one after another, whether they fail or not. -/
def runAll (limit : Nat) (ops : List RegisterOp) (rs : Registers) : Registers :=
  ops.foldl (fun rs op => (op.run limit rs).2) rs

end RegisterOp

end Bignum
