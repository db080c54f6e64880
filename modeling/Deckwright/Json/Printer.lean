import Deckwright.Json.Basic
import Deckwright.Number.Shortest

/-!
# Writing JSON

The compact form, without white space, and the indented form. A floating-point number
is written with the fewest digits that read back, positionally for decimal exponents
from -5 to 15 and with a signed exponent otherwise; a number that is not finite is
written `null`.
-/

namespace Deckwright.Json

/-- A floating-point number: positional for exponents from -5 to 15, always with a point or an exponent. -/
def floatText : Floating → List Char
  | .finite negative mantissa exponent =>
    let (digits, power) := Floating.shortest .double mantissa exponent
    let lead : Int := power + ((Floating.digitsOf digits).length : Int) - 1
    Floating.sign negative ++
      if -5 ≤ lead && lead < 16 then Floating.positional digits power true
      else Floating.scientific digits power true
  | _ => "null".toList

/-- One character of a string: quotes, backslashes and control characters are escaped. -/
def escaped (c : Char) : List Char :=
  if c = '"' then ['\\', '"']
  else if c = '\\' then ['\\', '\\']
  else if c = '\n' then ['\\', 'n']
  else if c = '\r' then ['\\', 'r']
  else if c = '\t' then ['\\', 't']
  else if c.toNat = 0x08 then ['\\', 'b']
  else if c.toNat = 0x0C then ['\\', 'f']
  else if c.toNat < 0x20 then
    let digits := Nat.toDigits 16 c.toNat
    ['\\', 'u'] ++ List.replicate (4 - digits.length) '0' ++ digits
  else [c]

/-- A string between quotes. -/
def quotedText (s : String) : List Char :=
  '"' :: s.toList.flatMap escaped ++ ['"']

/-- The text of a value that is neither an array nor an object. -/
def scalarText : Json → List Char
  | .bool true => "true".toList
  | .bool false => "false".toList
  | .int i => (toString i).toList
  | .float x => floatText x
  | .string s => quotedText s
  | _ => "null".toList

mutual

/-- The compact text of a value. -/
def compactText : Json → List Char
  | .array items => '[' :: compactItems items ++ [']']
  | .object fields => '\x7b' :: compactFields fields ++ ['\x7d']
  | other => scalarText other

/-- The items of an array, separated by commas. -/
def compactItems : List Json → List Char
  | [] => []
  | [item] => compactText item
  | item :: next :: rest => compactText item ++ ',' :: compactItems (next :: rest)

/-- The fields of an object, separated by commas. -/
def compactFields : List (String × Json) → List Char
  | [] => []
  | [(name, value)] => quotedText name ++ ':' :: compactText value
  | (name, value) :: next :: rest =>
    quotedText name ++ ':' :: compactText value ++ ',' :: compactFields (next :: rest)

end

/-- A line break followed by two spaces for each level. -/
def newLine (level : Nat) : List Char :=
  '\n' :: List.replicate (2 * level) ' '

mutual

/-- The text of a value whose lines, after the first, are indented by `level` steps of two spaces. -/
def indentedText (level : Nat) : Json → List Char
  | .array [] => ['[', ']']
  | .array (item :: rest) =>
    '[' :: newLine (level + 1) ++ indentedText (level + 1) item ++
      indentedItems (level + 1) rest ++ newLine level ++ [']']
  | .object [] => ['\x7b', '\x7d']
  | .object ((name, value) :: rest) =>
    '\x7b' :: newLine (level + 1) ++ quotedText name ++ ':' :: ' ' ::
      indentedText (level + 1) value ++ indentedFields (level + 1) rest ++
      newLine level ++ ['\x7d']
  | other => scalarText other

/-- The items after the first, each on a line of its own. -/
def indentedItems (level : Nat) : List Json → List Char
  | [] => []
  | item :: rest => ',' :: newLine level ++ indentedText level item ++ indentedItems level rest

/-- The fields after the first, each on a line of its own. -/
def indentedFields (level : Nat) : List (String × Json) → List Char
  | [] => []
  | (name, value) :: rest =>
    ',' :: newLine level ++ quotedText name ++ ':' :: ' ' :: indentedText level value ++
      indentedFields level rest

end

/-- The value on one line, without white space. -/
def compact (value : Json) : String :=
  String.ofList (compactText value)

/-- The value over several lines, indented by two spaces for each level. -/
def pretty (value : Json) : String :=
  String.ofList (indentedText 0 value)

end Deckwright.Json
