import Bignum.Cell.State

/-!
A cell that threads share.

`Cell` makes each operation in one piece. Here any number of threads take turns, and between two
accesses to what they share any other thread may make any number of its own. An access is a load,
store, exchange or compare-and-swap of one pointer or flag, or a send to or a receive from the
queue of replaced versions. A thread knows versions by their addresses only, and the address of a
freed version may be given to a later one.

`Frame` lists what an operation is about to do next, and `Access` what then happens. A closure may
operate on the cell too, so a thread has a stack of frames.
-/

namespace Bignum.Threads

/-- Where a value lies in memory. -/
abbrev Address := Nat

/-- What lies at an address: a value that may still be published, or a version. -/
inductive Content where
  | candidate (value : Integer)
  | version (v : Version)
  deriving DecidableEq, Repr

def Content.value : Content → Integer
  | .candidate value => value
  | .version v => v.value

/-- A hazard slot. What it announces is an address, whatever lies there. -/
structure Slot where
  active : Bool
  announced : Option Address
  deriving DecidableEq, Repr

/-- What the threads share. -/
structure Shared where
  /-- How many replaced versions may wait before a scan is made. -/
  threshold : Nat
  memory : Address → Option Content
  /-- The number that the next version gets. -/
  nextNumber : Nat
  /-- The address of the current version. -/
  current : Address
  /-- The list of hazard slots, the oldest first. New ones are linked in at its head. -/
  slots : List Slot
  /-- The versions that wait to be freed. -/
  queue : List Address
  /-- The count of waiting versions. -/
  pending : UInt64
  /-- The numbers of the versions that have been freed. -/
  freed : List Nat
  /-- Whether something has been looked for or freed at an address where it does not lie. -/
  astray : Bool

namespace Shared

/-- A new cell, whose version lies at the address `0`. -/
def create (settings : CellSettings) (value : Integer) : Shared :=
  { threshold := settings.reclaimThreshold
    memory := fun a => if a = 0 then some (.version { number := 0, value := value }) else none
    nextNumber := 1
    current := 0
    slots := List.replicate settings.initialSlots { active := false, announced := none }
    queue := []
    pending := 0
    freed := []
    astray := false }

/-- Put something, or nothing, at an address. -/
def write (a : Address) (content : Option Content) (s : Shared) : Shared :=
  { s with memory := fun b => if b = a then content else s.memory b }

/-- Let a value lie at an address. -/
def allocate (a : Address) (value : Integer) (s : Shared) : Shared :=
  s.write a (some (.candidate value))

/-- Make the value at an address the current version. -/
def install (a : Address) (s : Shared) : Shared :=
  match s.memory a with
  | some content =>
      { s.write a (some (.version { number := s.nextNumber, value := content.value })) with
        current := a
        nextNumber := s.nextNumber + 1 }
  | none => { s with current := a, astray := true }

/-- Free what lies at an address. -/
def free (a : Address) (s : Shared) : Shared :=
  match s.memory a with
  | some (.version v) => { s.write a none with freed := s.freed ++ [v.number] }
  | some (.candidate _) => s.write a none
  | none => { s with astray := true }

/-- Set the flag of a slot. -/
def setActive (slot : Nat) (active : Bool) (s : Shared) : Shared :=
  { s with slots := s.slots.modify slot fun x => { x with active := active } }

/-- Store an address, or none, in a slot. -/
def announce (slot : Nat) (announced : Option Address) (s : Shared) : Shared :=
  { s with slots := s.slots.modify slot fun x => { x with announced := announced } }

/-- Link in a slot that its owner has taken already. -/
def register (s : Shared) : Shared :=
  { s with slots := s.slots ++ [{ active := true, announced := none }] }

/-- Send an address to the queue. -/
def send (a : Address) (s : Shared) : Shared := { s with queue := s.queue ++ [a] }

end Shared

/-- What an operation takes a slot for. -/
inductive Goal where
  | load
  | update
  deriving DecidableEq, Repr

/-- What a slot protects: an address that was current after it had been announced, and the version
that lay there. -/
structure Kept where
  address : Address
  version : Version
  deriving DecidableEq, Repr

/-- What an operation is about to do. -/
inductive Frame where
  /-- Load the head of the slot list. -/
  | seek (goal : Goal)
  /-- Look at the next older one of `left` slots, or make a new slot if none is left. -/
  | walk (goal : Goal) (left : Nat)
  /-- Take a slot that was idle. -/
  | claim (goal : Goal) (slot : Nat)
  /-- Link in a new slot, if there are still `length` others. -/
  | link (goal : Goal) (length : Nat)
  /-- Load the current address. The slot may protect another version still. -/
  | read (goal : Goal) (slot : Nat) (kept : Option Kept)
  /-- Announce an address. -/
  | announce (goal : Goal) (slot : Nat) (a : Address) (kept : Option Kept)
  /-- See whether the announced address is current. -/
  | validate (goal : Goal) (slot : Nat) (a : Address)
  /-- Copy the value that a load answers. -/
  | copy (slot : Nat) (kept : Kept)
  /-- Run the closure of an update. -/
  | compute (slot : Nat) (kept : Kept)
  /-- Allocate the value that the closure made of the version `seen`. -/
  | allocate (slot : Nat) (kept : Kept) (seen : Version) (value : Integer)
  /-- Compare and swap the current address. -/
  | compareSwap (slot : Nat) (kept : Kept) (seen : Version) (candidate : Address)
  /-- Free a candidate that was not installed. -/
  | discard (slot : Nat) (kept : Kept) (candidate : Address)
  /-- Copy the value that an update has replaced. -/
  | copyReplaced (slot : Nat) (kept : Kept)
  /-- Clear a slot before it is given back. A version that was replaced is retired afterwards. -/
  | clear (slot : Nat) (kept : Kept) (replaced : Option Address)
  | release (slot : Nat) (replaced : Option Address)
  /-- Allocate the value of a store or a swap. -/
  | allocateNew (value : Integer)
  | exchange (candidate : Address)
  | copyOld (replaced : Address)
  /-- Send a replaced version to the queue. -/
  | send (replaced : Address)
  /-- Count a version that was sent. -/
  | count
  /-- Receive the waiting versions one by one. -/
  | drain (batch : List Address)
  /-- Load the head of the slot list, to read what is announced. -/
  | scan (batch : List Address)
  /-- Read what the next older one of `left` slots announces. -/
  | collect (batch : List Address) (left : Nat) (announced : List Address)
  /-- Free what is not announced, and send the rest back. -/
  | settle (batch announced : List Address) (reclaimed : Nat)
  deriving DecidableEq, Repr

/-- An operation on the cell. -/
inductive Operation where
  | load
  | swap (value : Integer)
  | update
  deriving DecidableEq, Repr

/-- How an operation begins. -/
def Operation.frame : Operation → Frame
  | .load => .seek .load
  | .swap value => .allocateNew value
  | .update => .seek .update

/-- What is done with a version once it is protected. -/
def Goal.frame : Goal → (slot : Nat) → Kept → Frame
  | .load => .copy
  | .update => .compute

/-- The address at which an operation is about to look for a version. -/
def Frame.looksAt (current : Address) : Frame → Option Address
  | .validate _ _ a => if current = a then some a else none
  | .copy _ kept => some kept.address
  | .compute _ kept => some kept.address
  | .copyReplaced _ kept => some kept.address
  | .copyOld replaced => some replaced
  | _ => none

/-- One access by an operation, with what is shared before and after it. The operation goes on with
the first of the frames; it ends if there are none, and a second one waits for the first. -/
inductive Access : Shared → Frame → Shared → List Frame → Prop where
  /- Taking a slot. -/
  | seek {s goal} : Access s (.seek goal) s [.walk goal s.slots.length]
  | busy {s goal k slot} : s.slots[k]? = some slot → slot.active = true →
      Access s (.walk goal (k + 1)) s [.walk goal k]
  | idle {s goal k slot} : s.slots[k]? = some slot → slot.active = false →
      Access s (.walk goal (k + 1)) s [.claim goal k]
  | claim {s goal k slot} : s.slots[k]? = some slot → slot.active = false →
      Access s (.claim goal k) (s.setActive k true) [.read goal k none]
  | beaten {s goal k slot} : s.slots[k]? = some slot → slot.active = true →
      Access s (.claim goal k) s [.walk goal k]
  | exhausted {s goal} : Access s (.walk goal 0) s [.link goal s.slots.length]
  | link {s goal} : Access s (.link goal s.slots.length) s.register [.read goal s.slots.length none]
  /-- Another slot was linked in first, or the compare-and-swap fails without a reason. -/
  | relink {s goal n} : Access s (.link goal n) s [.link goal s.slots.length]
  /- Protecting the current version. -/
  | read {s goal k kept} : Access s (.read goal k kept) s [.announce goal k s.current kept]
  | announce {s goal k a kept} :
      Access s (.announce goal k a kept) (s.announce k (some a)) [.validate goal k a]
  | validate {s goal k v} : s.memory s.current = some (.version v) →
      Access s (.validate goal k s.current) s [goal.frame k ⟨s.current, v⟩]
  | moved {s goal k a} : s.current ≠ a →
      Access s (.validate goal k a) s [.announce goal k s.current none]
  /- Loading. -/
  | copy {s k kept v} : s.memory kept.address = some (.version v) →
      Access s (.copy k kept) s [.clear k kept none]
  /- Updating. -/
  | nest {s k kept} (op : Operation) : Access s (.compute k kept) s [op.frame, .compute k kept]
  | compute {s k kept v} (value : Integer) : s.memory kept.address = some (.version v) →
      Access s (.compute k kept) s [.allocate k kept v value]
  /-- The closure declines or fails. -/
  | stop {s k kept v} : s.memory kept.address = some (.version v) →
      Access s (.compute k kept) s [.clear k kept none]
  | allocate {s k kept seen value a} : s.memory a = none →
      Access s (.allocate k kept seen value) (s.allocate a value) [.compareSwap k kept seen a]
  | won {s k kept seen a} : s.current = kept.address →
      Access s (.compareSwap k kept seen a) (s.install a) [.copyReplaced k kept]
  | lost {s k kept seen a} : s.current ≠ kept.address →
      Access s (.compareSwap k kept seen a) s [.discard k kept a]
  | discard {s k kept a} :
      Access s (.discard k kept a) (s.free a) [.read .update k (some kept)]
  | copyReplaced {s k kept v} : s.memory kept.address = some (.version v) →
      Access s (.copyReplaced k kept) s [.clear k kept (some kept.address)]
  /- Giving the slot back. -/
  | clear {s k kept replaced} :
      Access s (.clear k kept replaced) (s.announce k none) [.release k replaced]
  | release {s k replaced} :
      Access s (.release k replaced) (s.setActive k false) (replaced.map Frame.send).toList
  /- Storing and swapping. -/
  | allocateNew {s value a} : s.memory a = none →
      Access s (.allocateNew value) (s.allocate a value) [.exchange a]
  | exchange {s a} : Access s (.exchange a) (s.install a) [.copyOld s.current]
  | copyOld {s a v} : s.memory a = some (.version v) → Access s (.copyOld a) s [.send a]
  /- Retiring. -/
  | send {s a} : Access s (.send a) (s.send a) [.count]
  | count {s} : Access s .count { s with pending := s.pending + 1 }
      (if s.threshold ≤ (s.pending + 1).toNat then [.drain []] else [])
  /- Scanning. -/
  | receive {s a rest batch} : s.queue = a :: rest →
      Access s (.drain batch) { s with queue := rest } [.drain (batch ++ [a])]
  | drained {s batch} : s.queue = [] → Access s (.drain batch) s [.scan batch]
  | scan {s batch} : Access s (.scan batch) s [.collect batch s.slots.length []]
  | collect {s batch k announced slot} : s.slots[k]? = some slot →
      Access s (.collect batch (k + 1) announced) s
        [.collect batch k (announced ++ slot.announced.toList)]
  | collected {s batch announced} :
      Access s (.collect batch 0 announced) s [.settle batch announced 0]
  | defer {s a batch announced n} : a ∈ announced →
      Access s (.settle (a :: batch) announced n) (s.send a) [.settle batch announced n]
  | reclaim {s a batch announced n} : a ∉ announced →
      Access s (.settle (a :: batch) announced n) (s.free a) [.settle batch announced (n + 1)]
  | settle {s announced n} :
      Access s (.settle [] announced n) { s with pending := s.pending - n.toUInt64 } []
  /-- There is no version where one is looked for. -/
  | stray {s φ a} : φ.looksAt s.current = some a → (∀ v, s.memory a ≠ some (.version v)) →
      Access s φ { s with astray := true } [φ]

/-- Threads and what they share. The frames of a thread are its operations in progress, the
innermost first; a thread without frames is between two operations. -/
structure State where
  shared : Shared
  threads : List (List Frame)

namespace State

/-- A new cell and threads that have not begun. -/
def create (settings : CellSettings) (value : Integer) (threads : Nat) : State :=
  { shared := Shared.create settings value, threads := List.replicate threads [] }

/-- All operations in progress. -/
def frames (s : State) : List Frame := s.threads.flatten

end State

/-- The turn of one thread. -/
inductive Turn : State → State → Prop where
  | begin {s : State} {i : Nat} (op : Operation) : s.threads[i]? = some [] →
      Turn s { s with threads := s.threads.set i [op.frame] }
  | access {s : State} {i : Nat} {φ : Frame} {outer next : List Frame} {shared : Shared} :
      s.threads[i]? = some (φ :: outer) → Access s.shared φ shared next →
      Turn s { shared := shared, threads := s.threads.set i (next ++ outer) }

/-- The states that turns lead to, in any order. -/
inductive Reachable (settings : CellSettings) (value : Integer) (threads : Nat) : State → Prop where
  | create : Reachable settings value threads (.create settings value threads)
  | turn {s t : State} : Reachable settings value threads s → Turn s t →
      Reachable settings value threads t

end Bignum.Threads
