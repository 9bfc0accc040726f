import Bignum.Digits.Product
import Bignum.Text.Inspect
import Bignum.Text.Numeral

/-!
Reading integers from text in radix 2 to 36.

A text is one optional sign and then symbols in either case, among which underscores may stand
anywhere after the first symbol. Symbols are collected until they fill a digit, which is then
brought in with one multiplication.
-/

namespace Bignum

/-- Why a text is not an integer. -/
inductive ParseError where
  /-- There is no symbol in it. -/
  | empty
  /-- A character is neither a symbol nor a separator; `index` counts bytes from the start. -/
  | invalidDigit (index : Nat) (found : Char)
  | invalidRadix (radix : Nat)
  | allocation (cause : AllocationError)
  deriving DecidableEq, Repr

namespace ParseError

/-- The refusal of storage behind an error. -/
def source? : ParseError → Option AllocationError
  | .allocation cause => some cause
  | _ => none

/-- The wording of an error. -/
def message : ParseError → String
  | .empty => "cannot parse integer from empty string"
  | .invalidDigit index found => "invalid digit " ++ Text.quote found ++ s!" at byte {index}"
  | .invalidRadix radix => s!"radix must be in the range 2..=36, got {radix}"
  | .allocation cause => "cannot parse integer: " ++ cause.message

end ParseError

namespace Text

/-- What has been read: the digits so far and how many there is room for, the value and the number
of the symbols that wait to be brought in, and whether there was a symbol at all. -/
structure Reading where
  digits : Digits
  room : Nat
  pending : Nat
  count : Nat
  seen : Bool
  deriving DecidableEq, Repr

namespace Reading

/-- Nothing has been read. -/
def start : Reading := { digits := [], room := 0, pending := 0, count := 0, seen := false }

/-- Bring the waiting symbols in. -/
def flush (limit radix : Nat) (r : Reading) : Except AllocationError Reading :=
  let scale := UInt64.ofNat (radix.pow r.count)
  (r.digits.mulAddDigit limit r.room scale (UInt64.ofNat r.pending)).map fun digits =>
    { digits := digits
      room := Storage.roomFor r.room digits.length
      pending := 0
      count := 0
      seen := r.seen }

/-- Read one symbol. -/
def push (limit radix value : Nat) (r : Reading) : Except AllocationError Reading :=
  let next : Reading :=
    { digits := r.digits
      room := r.room
      pending := r.pending * radix + value
      count := r.count + 1
      seen := true }
  if next.count = chunkLength radix then next.flush limit radix else .ok next

end Reading

/-- Read all characters after the sign. The first one stands at byte `index`. -/
def readSymbols (limit radix : Nat) : List Char → (index : Nat) → Reading →
    Except ParseError Reading
  | [], _, r => .ok r
  | c :: cs, index, r =>
      if c = '_' && r.seen then readSymbols limit radix cs (index + c.utf8Size) r
      else match symbolValue? radix c with
        | none => .error (.invalidDigit index c)
        | some value =>
            match r.push limit radix value with
            | .error cause => .error (.allocation cause)
            | .ok next => readSymbols limit radix cs (index + c.utf8Size) next

/-- Split one sign off: whether it is a minus, what follows, and where that starts. -/
def splitSign : List Char → Bool × List Char × Nat
  | '-' :: cs => (true, cs, 1)
  | '+' :: cs => (false, cs, 1)
  | cs => (false, cs, 0)

end Text

namespace Integer

/-- The integer that a text writes in the given radix. -/
def ofText (limit radix : Nat) (text : String) : Except ParseError Integer :=
  if radix < 2 || 36 < radix then .error (.invalidRadix radix)
  else
    let (negative, body, index) := Text.splitSign text.toList
    (Text.readSymbols limit radix body index .start).bind fun r =>
      if !r.seen then .error .empty
      else if r.count = 0 then .ok (ofMagnitude negative r.digits)
      else match r.flush limit radix with
        | .error cause => .error (.allocation cause)
        | .ok last => .ok (ofMagnitude negative last.digits)

end Integer

end Bignum
