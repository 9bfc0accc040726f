/-!
Requests for digit storage. Storage is finite: a request for `limit` digits or more is refused,
and the refusal names the number of digits that was needed. A request for no digits is always
granted.

Most storage is asked for exactly. Digits that are put on top one after the other ask for room
ahead, so that they do not have to ask each time (`grow`).
-/

namespace Bignum

/-- Storage for `requested` digits was refused. -/
structure AllocationError where
  requested : Nat
  deriving DecidableEq, Repr

namespace AllocationError

/-- The wording of a refusal. -/
def message (e : AllocationError) : String :=
  s!"digit allocation failed: requested {e.requested} digits"

end AllocationError

namespace Storage

/-- The largest number of digits that a refusal can name, `2 ^ 64 - 1`. -/
def maxRequest : Nat := 18446744073709551615

/-- Ask for room for `count` digits, of which fewer than `limit` can be had. -/
def request (limit count : Nat) : Except AllocationError Unit :=
  if count = 0 ∨ count < limit then .ok ()
  else .error { requested := min count maxRequest }

/-- Ask for `additional` digits on top of `length` that are there already. Asking for none is
always granted, whatever is there. Digits for which there is room left over are asked for as well,
since room that was granted once is granted again. -/
def extend (limit length additional : Nat) : Except AllocationError Unit :=
  if additional = 0 then .ok () else request limit (length + additional)

/-- The room that storage with room for `room` digits has once it holds `count`. Where it has to
grow, it at least doubles, and has room for four digits or more. -/
def roomFor (room count : Nat) : Nat :=
  if count ≤ room then room else max (max (2 * room) count) 4

/-- Let storage with room for `room` digits hold `count`. Nothing is asked for where they fit. A
refusal names the digits to be held, not the room that was asked for. -/
def grow (limit room count : Nat) : Except AllocationError Unit :=
  if count ≤ room then .ok ()
  else (request limit (roomFor room count)).mapError fun _ =>
    { requested := min count maxRequest }

end Storage

end Bignum
