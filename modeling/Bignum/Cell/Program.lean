import Bignum.Cell.State
import Bignum.Integer.Operator
import Bignum.Integer.Order
import Bignum.Integer.Step

/-!
Programs of operations on one cell.

An update runs a closure on the current value and installs the result if nothing was published in
the meantime; otherwise it has lost a race and runs the closure again on the new value. Since a
closure may itself operate on the cell, operations nest. A closure is given call by call: for each
of its first calls the operations to run and the verdict to reach, and for all later calls a
verdict that is reached without touching the cell, which cannot lose.
-/

namespace Bignum

/-- What a closure makes of a value. -/
inductive Verdict where
  | install (value : Integer)
  | decline
  | fail (cause : ArithmeticError)
  deriving DecidableEq, Repr

namespace Verdict

/-- Install a result, or fail where there is none. -/
def ofResult : Except ArithmeticError Integer → Verdict
  | .ok value => .install value
  | .error cause => .fail cause

/-- Install a value, or decline. -/
def ofOption : Option Integer → Verdict
  | some value => .install value
  | none => .decline

end Verdict

/-- How an update ends. -/
inductive Outcome where
  | installed (previous current : Integer)
  | declined (current : Integer)
  | failed (cause : ArithmeticError)
  deriving DecidableEq, Repr

namespace Outcome

/-- The value before an update. -/
def previous : Outcome → Except CellError Integer
  | .installed previous _ => .ok previous
  | .declined current => .ok current
  | .failed cause => .error (.arithmetic cause)

/-- The value after an update. -/
def latest : Outcome → Except CellError Integer
  | .installed _ current => .ok current
  | .declined current => .ok current
  | .failed cause => .error (.arithmetic cause)

/-- Whether a value was exchanged, and the one that was found, for an update that cannot fail. -/
def exchange? : Outcome → Option (Except Integer Integer)
  | .installed previous _ => some (.ok previous)
  | .declined current => some (.error current)
  | .failed _ => none

/-- The value that was found, for an update that cannot fail. -/
def found? : Outcome → Option Integer
  | .installed previous _ => some previous
  | .declined current => some current
  | .failed _ => none

end Outcome

/-! ### Traces -/

mutual

/-- What an operation did. -/
inductive Trace where
  | loaded (version : Version)
  | replaced (previous : Integer)
  | updated (moments : List Moment) (outcome : Outcome)

/-- What happened in an update, leaving aside what the operations in its closure logged. -/
inductive Moment where
  /-- The caller was told of a new snapshot after a lost race. -/
  | retried (snapshot : Integer)
  /-- The closure was called on a snapshot and ran operations. -/
  | called (snapshot : Integer) (nested : List Trace)
  | logged (event : CellEvent)

end

/-! ### Programs -/

mutual

/-- An operation on a cell. -/
inductive CellOp where
  | load
  | replace (value : Integer)
  | update (closure : Closure)

/-- The calls of a closure, one after another. -/
inductive Closure where
  /-- From now on every call reaches its verdict without touching the cell. -/
  | settle (verdict : Integer → Verdict)
  | call (body : Integer → Body) (rest : Closure)

/-- One call: operations on the cell, each of which may depend on what came before it, and a
verdict. -/
inductive Body where
  | finish (verdict : Verdict)
  | perform (op : CellOp) (next : Trace → Body)

end

namespace CellOp

/-! ### Updates that do not touch the cell -/

/-- An update whose closure reaches its verdict without touching the cell. -/
def modify (verdict : Integer → Verdict) : CellOp := .update (.settle verdict)

/-- Install `value` if the current value equals `expected`. -/
def compareExchange (expected value : Integer) : CellOp :=
  modify fun current => if current = expected then .install value else .decline

/-- Apply an operator with `b` on the right. -/
def fetch (limit : Nat) (op : Operator) (b : Operand) : CellOp :=
  modify fun current => .ofResult (op.checked limit current b)

/-- Raise the value to at least `b`. -/
def fetchMax (b : Operand) : CellOp :=
  modify fun current => if current.compareOperand b = .lt then .install b.toInteger else .decline

/-- Lower the value to at most `b`. -/
def fetchMin (b : Operand) : CellOp :=
  modify fun current => if current.compareOperand b = .gt then .install b.toInteger else .decline

/-- Add one. The step is made on a copy, since the current version keeps its digits. -/
def increment (limit : Nat) : CellOp :=
  modify fun current => .ofResult (current.increment limit true)

/-- Subtract one. -/
def decrement (limit : Nat) : CellOp :=
  modify fun current => .ofResult (current.decrement limit true)

end CellOp

end Bignum
