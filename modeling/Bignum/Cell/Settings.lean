import Bignum.ArithmeticError

/-!
The settings of a cell and the errors that its operations can end in.
-/

namespace Bignum

/-- The settings of a cell. -/
structure CellSettings where
  /-- How many replaced versions may wait before a scan is made for those that can be freed. -/
  reclaimThreshold : Nat
  /-- The hazard slots that a cell starts with. -/
  initialSlots : Nat
  /-- After how many lost races of one update a warning is logged. -/
  warnRetries : Nat
  deriving DecidableEq, Repr

/-- Why settings are refused. -/
inductive SettingsError where
  | zeroReclaimThreshold
  | zeroHazardSlots
  deriving DecidableEq, Repr

/-- The wording of a refusal. -/
def SettingsError.message : SettingsError → String
  | .zeroReclaimThreshold => "reclaim_threshold must be at least 1"
  | .zeroHazardSlots => "initial_hazard_slots must be at least 1"

namespace CellSettings

/-- The settings of a cell for which none are given. -/
def standard : CellSettings :=
  { reclaimThreshold := 16, initialSlots := 4, warnRetries := 1024 }

/-- The threshold and the number of slots are at least one. -/
def check (s : CellSettings) : Except SettingsError Unit :=
  if s.reclaimThreshold = 0 then .error .zeroReclaimThreshold
  else if s.initialSlots = 0 then .error .zeroHazardSlots
  else .ok ()

end CellSettings

/-- Why an operation on a cell fails. -/
inductive CellError where
  | settings (cause : SettingsError)
  | arithmetic (cause : ArithmeticError)
  deriving DecidableEq, Repr

namespace CellError

/-- The wording of the error behind this one. -/
def source : CellError → String
  | .settings cause => cause.message
  | .arithmetic cause => cause.message

/-- The wording of an error. -/
def message : CellError → String
  | .settings cause => "invalid cell config: " ++ cause.message
  | .arithmetic cause => "cell update failed: " ++ cause.message

end CellError

end Bignum
