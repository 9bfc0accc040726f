import Bignum.Text.Printable

/-!
Text for inspection.

Characters stand in single quotes, with an escape for those that cannot be shown as they are.
Values with named parts stand on one line, or with each part on a line of its own. Parts on lines of
their own are indented by four spaces at the start of every line, also of lines that their text
brings with it.
-/

namespace Bignum.Text

/-! ### Characters -/

/-- What stands for a character within single quotes. -/
def escape (c : Char) : List Char :=
  if c = '\x00' then ['\\', '0']
  else if c = '\t' then ['\\', 't']
  else if c = '\n' then ['\\', 'n']
  else if c = '\r' then ['\\', 'r']
  else if c = '\'' || c = '\\' then ['\\', c]
  else if isPrintable c then [c]
  else ['\\', 'u', '\x7b'] ++ Nat.toDigits 16 c.toNat ++ ['\x7d']

/-- A character in single quotes. -/
def quote (c : Char) : String := String.ofList ('\'' :: escape c ++ ['\''])

/-! ### Records and lists -/

/-- Four spaces at the start of each line; `fresh` is whether the text starts a line. -/
def indent : (fresh : Bool) → List Char → List Char
  | _, [] => []
  | fresh, c :: cs =>
      (if fresh then [' ', ' ', ' ', ' '] else []) ++ c :: indent (c == '\n') cs

/-- One part on lines of its own. -/
def part (text : String) : String :=
  String.ofList (indent true (text.toList ++ [',', '\n']))

/-- A record with its fields. -/
def record (pretty : Bool) (name : String) (fields : List (String × String)) : String :=
  let parts := fields.map fun field => field.1 ++ ": " ++ field.2
  if pretty then name ++ " \x7b\n" ++ String.join (parts.map part) ++ "\x7d"
  else name ++ " \x7b " ++ ", ".intercalate parts ++ " \x7d"

/-- A list of items. -/
def list (pretty : Bool) (items : List String) : String :=
  if items.isEmpty then "[]"
  else if pretty then "[\n" ++ String.join (items.map part) ++ "]"
  else "[" ++ ", ".intercalate items ++ "]"

end Bignum.Text
