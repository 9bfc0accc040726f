import Bignum.ArithmeticError
import Bignum.Text.Numeral

/-!
Integers laid out in a field: a width with fill on either side of the text, or zeros between the
sign and the numeral, and marks for plus and for the radix.
-/

namespace Bignum.Text

/-! ### Layouts -/

/-- Where a text goes in a wider field. -/
inductive Alignment where
  | left | center | right
  deriving DecidableEq, Repr

/-- How a text is laid out. A number without an alignment stands at the right. -/
structure Layout where
  fill : Char
  alignment : Option Alignment
  /-- Write a plus sign before numbers that are not negative. -/
  plus : Bool
  /-- Mark the radix. -/
  alternate : Bool
  /-- Fill with zeros after the sign, whatever the fill and the alignment are. -/
  zeros : Bool
  /-- Widths have sixteen bits. -/
  width : Option UInt16
  deriving DecidableEq, Repr

namespace Layout

/-- No width and no marks. -/
def plain : Layout :=
  { fill := ' ', alignment := none, plus := false, alternate := false, zeros := false
    width := none }

/-- How the program stops where a field would be too wide. -/
def tooWide : Panic := { message := "Formatting argument out of range" }

/-- The same layout in a field of the given width, which has to be one that a layout can have,
whatever is to be laid out in it. -/
def inField (layout : Layout) (width : Nat) : Except Panic Layout :=
  if width < UInt16.size then .ok { layout with width := some (UInt16.ofNat width) }
  else .error tooWide

/-- How many characters there are at least. -/
def columns (layout : Layout) : Nat := layout.width.elim 0 UInt16.toNat

/-- How many of the missing characters stand before the text. -/
def before (layout : Layout) (missing : Nat) : Nat :=
  match layout.alignment with
  | some .left => 0
  | some .center => missing / 2
  | some .right | none => missing

/-- A number of which the sign, the mark of the radix and the numeral are given. -/
def number (layout : Layout) (negative : Bool) (mark numeral : List Char) : List Char :=
  let sign := if negative then ['-'] else if layout.plus then ['+'] else []
  let lead := sign ++ if layout.alternate then mark else []
  let missing := layout.columns - (lead.length + numeral.length)
  if layout.zeros then lead ++ List.replicate missing '0' ++ numeral
  else
    let before := layout.before missing
    List.replicate before layout.fill ++ lead ++ numeral ++
      List.replicate (missing - before) layout.fill

end Layout

/-! ### Styles -/

/-- The forms that an integer can be written in. The one for inspection is decimal too. -/
inductive Style where
  | decimal | inspect | lowerHex | upperHex | octal | binary
  deriving DecidableEq, Repr

namespace Style

/-- The base of the numerals of a style. -/
def radix : Style → Nat
  | decimal | inspect => 10
  | lowerHex | upperHex => 16
  | octal => 8
  | binary => 2

/-- What marks the radix before a numeral. -/
def mark : Style → List Char
  | decimal | inspect => []
  | lowerHex | upperHex => ['0', 'x']
  | octal => ['0', 'o']
  | binary => ['0', 'b']

end Style

end Bignum.Text

namespace Bignum.Integer

/-- The numeral of an absolute value in a style; a single zero for zero. -/
def styledNumeral (limit : Nat) (style : Text.Style) (v : Integer) :
    Except AllocationError (List Char) :=
  if v.isZero then .ok ['0']
  else (Text.numeral limit style.radix v.digits).map fun numeral =>
    if style = .lowerHex then numeral.map Char.toLower else numeral

/-- An integer in a style and a layout. -/
def format (limit : Nat) (style : Text.Style) (layout : Text.Layout) (v : Integer) :
    Except AllocationError String :=
  (v.styledNumeral limit style).map fun numeral =>
    String.ofList (layout.number v.negative style.mark numeral)

end Bignum.Integer
