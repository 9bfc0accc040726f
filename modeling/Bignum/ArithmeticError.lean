import Bignum.Storage

/-!
The reasons for which a calculation with integers has no result, and their wording; and stops of
the program, where an operation has no result and no error to answer.
-/

namespace Bignum

/-- Why a calculation has no result. -/
inductive ArithmeticError where
  | divisionByZero
  | allocation (cause : AllocationError)
  | invalidRadix (radix : Nat)
  deriving DecidableEq, Repr

namespace ArithmeticError

/-- The refusal of storage behind an error. -/
def source? : ArithmeticError → Option AllocationError
  | .allocation cause => some cause
  | _ => none

/-- The wording of an error. -/
def message : ArithmeticError → String
  | .divisionByZero => "attempt to divide by zero"
  | .allocation cause => "big integer allocation failed: " ++ cause.message
  | .invalidRadix radix => s!"radix must be in the range 2..=36, got {radix}"

end ArithmeticError

/-- A refusal of storage ends a calculation. -/
def liftAllocation {α : Type} (result : Except AllocationError α) : Except ArithmeticError α :=
  result.mapError .allocation

/-! ### Stops -/

/-- The program stops with a message. -/
structure Panic where
  message : String
  deriving DecidableEq, Repr

/-- Stop where a calculation has no result. -/
def orPanic {α : Type} (result : Except ArithmeticError α) : Except Panic α :=
  result.mapError fun e => { message := e.message }

end Bignum
