import Bignum.Sharing.Pool
import Bignum.Text.Inspect

/-!
Digit buffers: slots of a pool that can be written to.

A buffer that shares its block moves to a copy of its own before it is written to, so that no
other owner sees a change. Room is asked for before any digit changes. Every operation answers
the pool afterwards also where it is refused.

A block is as long as its digits, and has no room beside them to be recorded. Room that storage
keeps was granted to it once, at the same limit, so it never reaches the limit; and digits that
come to lie in it would be granted if they were asked for. Whoever hands digits over was granted
them as well.
-/

namespace Bignum

/-- Whether an operation on a pool was granted, and the pool afterwards. -/
abbrev Grant := Except AllocationError Unit × Pool

namespace Grant

/-- Go on with the pool if all went well so far. -/
def andThen (first : Grant) (next : Pool → Grant) : Grant :=
  match first.1 with
  | .ok () => next first.2
  | .error cause => (.error cause, first.2)

/-- Change the pool if all went well so far. -/
def thenChange (first : Grant) (change : Pool → Pool) : Grant :=
  first.andThen fun p => (.ok (), change p)

end Grant

namespace Pool

/-! ### Writing -/

/-- Become the only owner, with room for `additional` more digits. -/
def exclusive (limit slot additional : Nat) (p : Pool) : Grant :=
  let length := (p.digits slot).length
  if p.isShared slot then
    match Storage.request limit (length + additional) with
    | .error cause => (.error cause, p)
    | .ok () => (Storage.extend limit length additional, p.place slot (p.digits slot))
  else (Storage.extend limit length additional, p)

/-- Add digits at the top. Adding none changes nothing. -/
def append (limit slot count : Nat) (digit : Digit) (p : Pool) : Grant :=
  if count = 0 then (.ok (), p)
  else (p.exclusive limit slot count).thenChange
    (overwrite slot (· ++ List.replicate count digit))

/-- Drop all digits from the given length up. A shared buffer copies only what it keeps. -/
def truncate (limit slot length : Nat) (p : Pool) : Grant :=
  let digits := p.digits slot
  if digits.length ≤ length then (.ok (), p)
  else if p.isShared slot then
    match Storage.request limit length with
    | .error cause => (.error cause, p)
    | .ok () => (.ok (), p.place slot (digits.take length))
  else (.ok (), p.overwrite slot (·.take length))

/-- Drop the zero digits at the top. -/
def trim (limit slot : Nat) (p : Pool) : Grant :=
  p.truncate limit slot (p.digits slot).significantLength

/-- Make a buffer exactly so long, with zero digits at the top where it was shorter. -/
def resize (limit slot length : Nat) (p : Pool) : Grant :=
  let current := (p.digits slot).length
  if length ≤ current then p.truncate limit slot length
  else (p.exclusive limit slot (length - current)).thenChange
    (overwrite slot (· ++ List.replicate (length - current) 0))

/-- Change the digits in place, without changing their number. -/
def edit (limit slot : Nat) (f : Digits → Digits) (p : Pool) : Grant :=
  (p.exclusive limit slot 0).thenChange (overwrite slot f)

/-- Replace all digits by a copy of the given ones. -/
def assign (limit slot : Nat) (digits : Digits) (p : Pool) : Grant :=
  if p.isShared slot then
    match Storage.request limit digits.length with
    | .error cause => (.error cause, p)
    | .ok () => (.ok (), p.place slot digits)
  else
    let length := (p.digits slot).length
    match Storage.extend limit length (digits.length - length) with
    | .error cause => (.error cause, p)
    | .ok () => (.ok (), p.overwrite slot fun _ => digits)

/-! ### Inspection -/

/-- The text of a buffer for inspection. -/
def inspect (pretty : Bool) (slot : Nat) (p : Pool) : String :=
  let digits := (p.digits slot).map fun d => toString d.toNat
  Text.record pretty "DigitBuffer"
    [("digits", Text.list pretty digits), ("ref_count", toString (p.owners slot))]

end Pool

/-! ### Operations as data -/

/-- What can be done with buffers. -/
inductive BufferOp where
  /-- Take over digits, for which the storage has been granted. -/
  | create (slot : Nat) (digits : Digits)
  /-- Copy digits. -/
  | copy (slot : Nat) (digits : Digits)
  | zeroed (slot count : Nat)
  | clone (source target : Nat)
  | drop (slot : Nat)
  /-- Give up a buffer and keep its digits. -/
  | take (slot : Nat)
  | exchange (s t : Nat)
  /-- Write one digit, if there is one at that place. -/
  | write (slot place : Nat) (digit : Digit)
  | resize (slot length : Nat)
  | append (slot count : Nat) (digit : Digit)
  | truncate (slot length : Nat)
  | trim (slot : Nat)
  | assign (slot : Nat) (digits : Digits)
  deriving DecidableEq, Repr

/-- What an operation answers when it is granted. -/
inductive BufferReply where
  | done
  | taken (digits : Digits)
  | written (inRange : Bool)
  deriving DecidableEq, Repr

namespace BufferOp

/-- Put new digits into a slot if their storage is granted. -/
def placeNew (slot : Nat) (digits : Except AllocationError Digits) (p : Pool) : Grant :=
  match digits with
  | .error cause => (.error cause, p)
  | .ok digits => (.ok (), p.place slot digits)

/-- The change that an operation makes. -/
def change (limit : Nat) (op : BufferOp) (p : Pool) : Grant :=
  match op with
  | create slot digits => (.ok (), p.place slot digits)
  | copy slot digits => placeNew slot (digits.copy limit) p
  | zeroed slot count => placeNew slot (Digits.zeroed limit count) p
  | clone source target => (.ok (), p.share source target)
  | drop slot | take slot => (.ok (), p.release slot)
  | exchange s t => (.ok (), p.exchange s t)
  | write slot place digit => p.edit limit slot (·.set place digit)
  | resize slot length => p.resize limit slot length
  | append slot count digit => p.append limit slot count digit
  | truncate slot length => p.truncate limit slot length
  | trim slot => p.trim limit slot
  | assign slot digits => p.assign limit slot digits

/-- The answer of an operation that is granted on a pool. -/
def reply (op : BufferOp) (p : Pool) : BufferReply :=
  match op with
  | take slot => .taken (p.digits slot)
  | write slot place _ => .written (place < (p.digits slot).length)
  | _ => .done

/-- Carry an operation out. -/
def run (limit : Nat) (op : BufferOp) (p : Pool) : Except AllocationError BufferReply × Pool :=
  let grant := op.change limit p
  (grant.1.map fun _ => op.reply p, grant.2)

end BufferOp

end Bignum
