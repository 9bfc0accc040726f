import Bignum.Cell.Settings
import Bignum.Integer.Basic

/-!
A cell that holds one version of an integer at a time.

Each value that is published is a version of its own, also one that equals the version before it.
Whoever reads the current version announces it in a hazard slot first. A version that has been
replaced waits in a queue; when enough of them wait, a scan frees those that no slot announces and
puts the others back.

The functions here are the single steps that operations on a cell consist of.
-/

namespace Bignum

/-- A published value. No two versions of a cell have the same number. -/
structure Version where
  number : Nat
  value : Integer
  deriving DecidableEq, Repr

/-- A place in which one operation at a time announces the version that it looks at. -/
structure HazardSlot where
  active : Bool
  announced : Option Nat
  deriving DecidableEq, Repr

/-- A slot that nobody holds. -/
def HazardSlot.idle : HazardSlot := { active := false, announced := none }

/-- What a cell logs. -/
inductive CellEvent where
  /-- A scan freed `reclaimed` versions and put `deferred` ones back; `pending` wait now. -/
  | scan (reclaimed deferred pending : Nat)
  | lostRace (attempt : Nat)
  | contended (retries : Nat)
  deriving DecidableEq, Repr

/-- What a cell counts. -/
structure CellCounters where
  loads : Nat
  casAttempts : Nat
  casFailures : Nat
  retired : Nat
  reclaimed : Nat
  deriving DecidableEq, Repr

/-- The state of a cell. -/
structure Cell where
  settings : CellSettings
  current : Version
  /-- The number that the next version gets. -/
  nextNumber : Nat
  /-- All hazard slots, the oldest first. -/
  slots : List HazardSlot
  /-- Replaced versions that wait to be freed, the one that has waited longest first. -/
  queue : List Version
  /-- The numbers of the versions that have been freed. -/
  freed : List Nat
  /-- The count of waiting versions that retiring and scanning keep. -/
  pending : Nat
  counters : CellCounters
  /-- Everything logged so far. -/
  log : List CellEvent
  deriving DecidableEq, Repr

namespace Cell

/-- A cell that holds a value. -/
def create (settings : CellSettings) (value : Integer) : Cell :=
  { settings := settings
    current := { number := 0, value := value }
    nextNumber := 1
    slots := List.replicate settings.initialSlots .idle
    queue := []
    freed := []
    pending := 0
    counters :=
      { loads := 0, casAttempts := 0, casFailures := 0, retired := 0, reclaimed := 0 }
    log := [] }

/-- A cell with settings that are checked first. -/
def create? (settings : CellSettings) (value : Integer) : Except CellError Cell :=
  match settings.check with
  | .ok () => .ok (create settings value)
  | .error cause => .error (.settings cause)

/-! ### Hazard slots -/

/-- The most recently registered slot that is idle. -/
def idleSlot? (c : Cell) : Option Nat :=
  (List.range c.slots.length).reverse.find? fun slot =>
    (c.slots[slot]?).any fun s => !s.active

/-- Take an idle slot, or register a new one when there is none: the slot, and the cell. -/
def acquire (c : Cell) : Nat × Cell :=
  match c.idleSlot? with
  | some slot =>
      (slot, { c with slots := c.slots.modify slot fun s => { s with active := true } })
  | none =>
      (c.slots.length, { c with slots := c.slots ++ [{ active := true, announced := none }] })

/-- Announce the current version in a slot. -/
def protect (slot : Nat) (c : Cell) : Cell :=
  { c with slots := c.slots.modify slot fun s =>
      { s with announced := some c.current.number } }

/-- Give a slot back. -/
def release (slot : Nat) (c : Cell) : Cell :=
  { c with slots := c.slots.set slot .idle }

/-- The numbers that slots announce. -/
def announced (c : Cell) : List Nat := c.slots.filterMap (·.announced)

/-! ### Reclamation -/

/-- Free every waiting version that no slot announces. -/
def scan (c : Cell) : Cell :=
  let deferred := c.queue.filter fun v => c.announced.contains v.number
  let reclaimed := c.queue.filter fun v => !c.announced.contains v.number
  let pending := c.pending - reclaimed.length
  { c with
    queue := deferred
    freed := c.freed ++ reclaimed.map (·.number)
    pending := pending
    counters := { c.counters with reclaimed := c.counters.reclaimed + reclaimed.length }
    log := c.log ++ [.scan reclaimed.length deferred.length pending] }

/-- Let a replaced version wait, and scan when enough of them do. -/
def retire (replaced : Version) (c : Cell) : Cell :=
  let waiting : Cell :=
    { c with
      queue := c.queue ++ [replaced]
      pending := c.pending + 1
      counters := { c.counters with retired := c.counters.retired + 1 } }
  if c.settings.reclaimThreshold ≤ waiting.pending then waiting.scan else waiting

/-! ### Publishing -/

/-- Make a value the current version. -/
def publish (value : Integer) (c : Cell) : Cell :=
  { c with
    current := { number := c.nextNumber, value := value }
    nextNumber := c.nextNumber + 1 }

/-- Put a value in the place of the current version, whatever that is: the previous value, and
the cell. -/
def replace (value : Integer) (c : Cell) : Integer × Cell :=
  (c.current.value, (c.publish value).retire c.current)

/-- Read the current version under the protection of a slot. -/
def load (c : Cell) : Version × Cell :=
  let (slot, held) := c.acquire
  let guarded := held.protect slot
  let given := guarded.release slot
  (guarded.current,
    { given with counters := { given.counters with loads := given.counters.loads + 1 } })

/-- Change the value in place, for a caller that nobody shares the cell with. -/
def withValue (value : Integer) (c : Cell) : Cell :=
  { c with current := { c.current with value := value } }

end Cell

end Bignum
