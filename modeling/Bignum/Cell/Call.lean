import Bignum.Cell.Run
import Bignum.Text.Layout

/-!
The operations of a cell by name.

A call is an operation that a program can perform, together with the way in which it reads its
answer off what the operation did. Most updates answer the value that they found, and steps of one
answer the value that they leave. An update that may decline says whether it did.
-/

namespace Bignum

/-- What a call answers. -/
inductive CellReply where
  | done
  | value (v : Integer)
  /-- The value that was found, as a failure where it was not exchanged. -/
  | exchange (result : Except Integer Integer)
  | result (result : Except CellError Integer)
  | text (result : Except AllocationError String)
  deriving Repr

/-- An operation by name. -/
inductive CellCall where
  | load
  /-- Show the value, which is loaded for that. -/
  | inspect (limit : Nat)
  | store (value : Integer)
  | swap (value : Integer)
  | compareExchange (expected value : Integer)
  /-- Run a closure that may decline, but does not fail. The snapshots that a caller may ask to be
  told of are among the moments of the update. -/
  | fetchUpdate (closure : Closure)
  /-- Run a closure that may fail. -/
  | tryUpdate (closure : Closure)
  | fetch (limit : Nat) (op : Operator) (b : Operand)
  | fetchMax (b : Operand)
  | fetchMin (b : Operand)
  | increment (limit : Nat)
  | decrement (limit : Nat)

/-- The text of a value in a cell for inspection. -/
def Cell.inspect (limit : Nat) (v : Integer) : Except AllocationError String :=
  (v.format limit .inspect .plain).map fun text => "AtomicBigInt(" ++ text ++ ")"

namespace CellCall

/-- The operation that a call performs. -/
def op : CellCall → CellOp
  | load | inspect _ => .load
  | store value | swap value => .replace value
  | compareExchange expected value => .compareExchange expected value
  | fetchUpdate closure | tryUpdate closure => .update closure
  | fetch limit op b => .fetch limit op b
  | fetchMax b => .fetchMax b
  | fetchMin b => .fetchMin b
  | increment limit => .increment limit
  | decrement limit => .decrement limit

/-- The answer of a call that did what a trace says. There is none where the trace is not that of
its operation, and none for an update that failed and cannot. -/
def reply? : CellCall → Trace → Option CellReply
  | load, .loaded version => some (.value version.value)
  | inspect limit, .loaded version => some (.text (Cell.inspect limit version.value))
  | store _, .replaced _ => some .done
  | swap _, .replaced previous => some (.value previous)
  | compareExchange _ _, .updated _ outcome => outcome.exchange?.map .exchange
  | fetchUpdate _, .updated _ outcome => outcome.exchange?.map .exchange
  | tryUpdate _, .updated _ outcome => some (.result outcome.previous)
  | fetch _ _ _, .updated _ outcome => some (.result outcome.previous)
  | fetchMax _, .updated _ outcome => outcome.found?.map .value
  | fetchMin _, .updated _ outcome => outcome.found?.map .value
  | increment _, .updated _ outcome => some (.result outcome.latest)
  | decrement _, .updated _ outcome => some (.result outcome.latest)
  | _, _ => none

end CellCall

end Bignum
