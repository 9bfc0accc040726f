import Bignum.Digits.Basic

/-!
Digit storage with several owners.

A pool holds blocks of digits and a row of slots. A slot that is in use owns one block, together
with any other slots on the same block; each block counts its owners. What a slot shows are the
digits of its block, so digits may only be changed in a block with a single owner.
-/

namespace Bignum

/-- Digits and the number of slots that own them. -/
structure Block where
  digits : Digits
  owners : Nat
  deriving DecidableEq, Repr

/-- Blocks, and for each slot the place of the block that it owns. -/
structure Pool where
  blocks : List Block
  slots : List (Option Nat)
  deriving DecidableEq, Repr

namespace Pool

/-- A pool with nothing in its slots. -/
def empty (count : Nat) : Pool := { blocks := [], slots := List.replicate count none }

/-! ### Looking -/

/-- The block that a slot owns. -/
def owned? (p : Pool) (slot : Nat) : Option Nat := (p.slots[slot]?).join

/-- The digits and the count of owners behind a slot. -/
def block? (p : Pool) (slot : Nat) : Option Block :=
  (p.owned? slot).bind fun block => p.blocks[block]?

/-- The digits that a slot shows. -/
def digits (p : Pool) (slot : Nat) : Digits := (p.block? slot).elim [] (·.digits)

/-- The number of owners of the block of a slot. -/
def owners (p : Pool) (slot : Nat) : Nat := (p.block? slot).elim 0 (·.owners)

/-- Whether a slot owns its block together with others. -/
def isShared (p : Pool) (slot : Nat) : Bool := 1 < p.owners slot

/-- Whether two slots own the same block. -/
def sameBlock (p : Pool) (s t : Nat) : Bool :=
  (p.owned? s).isSome && p.owned? s == p.owned? t

/-- The first slot on the block of a slot. -/
def firstOwner (p : Pool) (slot : Nat) : Nat :=
  p.slots.findIdx fun owned => owned == p.owned? slot

/-! ### Owning -/

/-- Give up what a slot owns. -/
def release (slot : Nat) (p : Pool) : Pool :=
  match p.owned? slot with
  | none => p
  | some block =>
      { blocks := p.blocks.modify block fun b => { b with owners := b.owners - 1 }
        slots := p.slots.set slot none }

/-- Put digits into a slot, in a block of their own. -/
def place (slot : Nat) (digits : Digits) (p : Pool) : Pool :=
  let q := p.release slot
  { blocks := q.blocks ++ [{ digits := digits, owners := 1 }]
    slots := q.slots.set slot (some q.blocks.length) }

/-- Make `target` one more owner of the block of `source`. -/
def share (source target : Nat) (p : Pool) : Pool :=
  match p.owned? source with
  | none => p
  | some block =>
      if target < p.slots.length then
        let joined : Pool :=
          { p with blocks := p.blocks.modify block fun b => { b with owners := b.owners + 1 } }
        let freed := joined.release target
        { freed with slots := freed.slots.set target (some block) }
      else p

/-- Exchange what two slots own. -/
def exchange (s t : Nat) (p : Pool) : Pool :=
  if s < p.slots.length ∧ t < p.slots.length then
    { p with slots := (p.slots.set s (p.owned? t)).set t (p.owned? s) }
  else p

/-- Change the digits in the block of a slot, for all of its owners. -/
def overwrite (slot : Nat) (f : Digits → Digits) (p : Pool) : Pool :=
  match p.owned? slot with
  | none => p
  | some block =>
      { p with blocks := p.blocks.modify block fun b => { b with digits := f b.digits } }

end Pool

end Bignum
