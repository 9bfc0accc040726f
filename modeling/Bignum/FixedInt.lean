/-!
Integers of a fixed number of bits, in the twelve types that they come in.
-/

namespace Bignum

/-- The types of fixed-size integers. The two pointer-sized ones have 64 bits. -/
inductive FixedType where
  | int8 | int16 | int32 | int64 | int128 | intSize
  | uint8 | uint16 | uint32 | uint64 | uint128 | uintSize
  deriving DecidableEq, Repr

namespace FixedType

/-- Every type once. -/
def all : List FixedType :=
  [int8, int16, int32, int64, int128, intSize, uint8, uint16, uint32, uint64, uint128, uintSize]

/-- The width of a type. -/
def bits : FixedType → Nat
  | int8 | uint8 => 8
  | int16 | uint16 => 16
  | int32 | uint32 => 32
  | int64 | uint64 | intSize | uintSize => 64
  | int128 | uint128 => 128

/-- Whether a type has negative values. -/
def signed : FixedType → Bool
  | int8 | int16 | int32 | int64 | int128 | intSize => true
  | uint8 | uint16 | uint32 | uint64 | uint128 | uintSize => false

/-- The name that messages use. -/
def name : FixedType → String
  | int8 => "i8"
  | int16 => "i16"
  | int32 => "i32"
  | int64 => "i64"
  | int128 => "i128"
  | intSize => "isize"
  | uint8 => "u8"
  | uint16 => "u16"
  | uint32 => "u32"
  | uint64 => "u64"
  | uint128 => "u128"
  | uintSize => "usize"

/-- The type that messages call by a name. -/
def ofName? (text : String) : Option FixedType :=
  all.find? fun type => type.name == text

/-- The number of values of a type that are not negative. -/
def span (type : FixedType) : Nat := 1 <<< (if type.signed then type.bits - 1 else type.bits)

/-- The least value of a type. -/
def least (type : FixedType) : Int := if type.signed then -(type.span : Int) else 0

/-- The greatest value of a type. -/
def greatest (type : FixedType) : Int := (type.span : Int) - 1

end FixedType

/-- A value within the range of its type. -/
structure FixedInt where
  type : FixedType
  value : Int
  least_le : type.least ≤ value
  le_greatest : value ≤ type.greatest
  deriving DecidableEq, Repr

namespace FixedInt

/-- The value in the given type, if it is within range. -/
def ofInt? (type : FixedType) (value : Int) : Option FixedInt :=
  if h : type.least ≤ value ∧ value ≤ type.greatest then
    some { type := type, value := value, least_le := h.1, le_greatest := h.2 }
  else none

end FixedInt

end Bignum
