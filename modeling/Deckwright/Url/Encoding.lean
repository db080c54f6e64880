import Deckwright.Text.Rest

/-!
# Percent encoding

A character that may not stand in a part of an address is written as its UTF-8 bytes, each as
a percent sign and two hexadecimal digits. Which characters these are depends on the part;
control characters and everything beyond ASCII are always among them.
-/

namespace Deckwright.Url

/-- The bytes of a character in UTF-8. -/
def utf8 (c : Char) : List Nat :=
  (String.utf8EncodeChar c).map UInt8.toNat

/-- The hexadecimal digit of a value below 16. -/
def hexDigit (n : Nat) : Char :=
  Char.ofNat (if n < 10 then n + '0'.toNat else n - 10 + 'A'.toNat)

/-- A byte as a percent sign and two digits. -/
def percentByte (byte : Nat) : List Char :=
  ['%', hexDigit (byte / 16), hexDigit (byte % 16)]

/-- A text with the characters encoded that are in `reserved`, control characters or not ASCII. -/
def percentEncode (reserved cs : List Char) : List Char :=
  cs.flatMap fun c =>
    if c.toNat < 0x20 || 0x7F ≤ c.toNat || reserved.contains c then (utf8 c).flatMap percentByte
    else [c]

/-- The bytes that a text stands for. -/
def percentDecode : List Char → List Nat
  | '%' :: a :: b :: rest =>
    match Text.digitValue? a, Text.digitValue? b with
    | some high, some low => (high * 16 + low) :: percentDecode rest
    | _, _ => utf8 '%' ++ percentDecode (a :: b :: rest)
  | c :: rest => utf8 c ++ percentDecode rest
  | [] => []

/-- The characters that are encoded in a fragment. -/
def fragmentReserved : List Char := [' ', '"', '<', '>', Char.ofNat 0x60]

/-- The characters that are encoded in a query; an apostrophe only where the scheme is special. -/
def queryReserved (special : Bool) : List Char :=
  [' ', '"', '#', '<', '>'] ++ if special then ['\''] else []

/-- The characters that are encoded in a path. -/
def pathReserved : List Char :=
  fragmentReserved ++ ['#', '?', '\x7b', '\x7d']

/-- The characters that are encoded in one segment of a path, so that it stays one segment. -/
def segmentReserved (special : Bool) : List Char :=
  pathReserved ++ ['/', '%'] ++ if special then ['\\'] else []

/-- The characters that are encoded in a user name and a password. -/
def userReserved : List Char :=
  pathReserved ++ ['/', ':', ';', '=', '@', '[', '\\', ']', '^', '|']

end Deckwright.Url
