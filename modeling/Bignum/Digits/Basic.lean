import Bignum.Digit
import Bignum.Storage

/-!
Sequences of digits, least significant first, and the natural numbers that they write.

A sequence is canonical when its last digit is not zero, so that zero is written by no digits at
all. `trim` makes any sequence canonical without changing its number. Canonical sequences are
compared, and asked for their binary form, by their length and their top digits first.
-/

namespace Bignum

/-- Digits in base `2 ^ 64`, least significant first. -/
abbrev Digits := List Digit

namespace Digits

/-- The number that a sequence writes. -/
def toNat : Digits → Nat
  | [] => 0
  | d :: ds => d.toNat + Digit.base * toNat ds

/-- No zero digit at the top. -/
def Canonical (ds : Digits) : Prop := ds.getLast? ≠ some 0

instance (ds : Digits) : Decidable ds.Canonical :=
  inferInstanceAs (Decidable (ds.getLast? ≠ some 0))

/-- The length that is left when the zero digits at the top are dropped. -/
def significantLength : Digits → Nat
  | [] => 0
  | d :: ds =>
      match significantLength ds with
      | 0 => if d = 0 then 0 else 1
      | n + 1 => n + 2

/-- Drop the zero digits at the top. -/
def trim (ds : Digits) : Digits := ds.take ds.significantLength

/-- A sequence of zero digits in storage of its own. -/
def zeroed (limit count : Nat) : Except AllocationError Digits := do
  Storage.request limit count
  return List.replicate count 0

/-- The same digits in storage of their own. -/
def copy (limit : Nat) (ds : Digits) : Except AllocationError Digits := do
  Storage.request limit ds.length
  return ds

/-! ### Order -/

/-- Compare two equally long sequences. A higher place outweighs all lower ones. -/
def compareSameLength : Digits → Digits → Ordering
  | a :: as, b :: bs => (compareSameLength as bs).then (Ord.compare a.toNat b.toNat)
  | _, _ => .eq

/-- The order of the numbers of two canonical sequences: the longer one is the larger, and of two
equally long ones the highest place where they differ decides. -/
def compare (a b : Digits) : Ordering :=
  (Ord.compare a.length b.length).then (compareSameLength a b)

/-! ### Bits -/

/-- The number of bits up to the highest one that is set; `0` for zero. -/
def bitLength (ds : Digits) : Nat :=
  match ds.getLast? with
  | none => 0
  | some top => 64 * (ds.length - 1) + top.bitLength

/-- The place of the lowest bit that is set; zero has none. -/
def lowestBit? : Digits → Option Nat
  | [] => none
  | d :: ds =>
      match d.lowestBit? with
      | some place => some place
      | none => (lowestBit? ds).map (64 + ·)

/-- The `k` for which a canonical sequence writes `2 ^ k`: its top digit is a power of two and
all others are zero. -/
def powerOfTwo? (ds : Digits) : Option Nat :=
  match ds.getLast? with
  | none => none
  | some top =>
      if ds.dropLast.all (· == 0) then top.powerOfTwo?.map (64 * (ds.length - 1) + ·) else none

end Digits

end Bignum
