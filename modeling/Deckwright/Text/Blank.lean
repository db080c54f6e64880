/-!
# White space

The characters that count as white space, and the trimming of a text by them.
White space is the Unicode property `White_Space`: a no-break space and an
ideographic space belong to it, a zero-width space and a byte order mark do not.

Texts are handled as lists of characters here, so that each function recurses on
its input; `String` is the form in which texts are kept and handed out.
-/

namespace Deckwright.Text

/-- The 25 characters of the property `White_Space`. -/
def isSpace (c : Char) : Bool :=
  let n := c.toNat
  (0x09 ≤ n && n ≤ 0x0D) || n == 0x20 || n == 0x85 || n == 0xA0 || n == 0x1680 ||
  (0x2000 ≤ n && n ≤ 0x200A) || n == 0x2028 || n == 0x2029 || n == 0x202F ||
  n == 0x205F || n == 0x3000

/-- The white space of ASCII: tab, line feed, vertical tab, form feed, carriage return and space. -/
def isAsciiSpace (c : Char) : Bool :=
  (0x09 ≤ c.toNat && c.toNat ≤ 0x0D) || c == ' '

/-- A text without its leading white space. -/
def trimLeft (cs : List Char) : List Char :=
  cs.dropWhile isSpace

/-- A text without the characters at its end that satisfy `p`. -/
def dropEndWhile (p : Char → Bool) (cs : List Char) : List Char :=
  (cs.reverse.dropWhile p).reverse

/-- A text without its trailing white space. -/
def trimRight (cs : List Char) : List Char :=
  dropEndWhile isSpace cs

/-- A text without white space at either end. -/
def trim (cs : List Char) : List Char :=
  trimRight (trimLeft cs)

/-- A text is blank when it holds white space only. -/
def isBlank (cs : List Char) : Bool :=
  cs.all isSpace

/-- The first run of characters other than white space, if there is one. -/
def firstWord? (cs : List Char) : Option (List Char) :=
  match (trimLeft cs).takeWhile (fun c => !isSpace c) with
  | [] => none
  | word => some word

end Deckwright.Text

namespace Deckwright

/-- The string without white space at either end. -/
def trimmed (s : String) : String :=
  String.ofList (Text.trim s.toList)

/-- Whether the string holds white space only. -/
def blank (s : String) : Bool :=
  Text.isBlank s.toList

end Deckwright
