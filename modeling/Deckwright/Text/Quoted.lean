import Deckwright.Text.Alphanumeric
import Deckwright.Text.Unprintable

/-!
# Quoted texts

The form in which messages show a text: between double quotes, with the quote, the
backslash and every character that would not show as itself written as an escape.
-/

namespace Deckwright.Text

/-- The characters of one quoted character. -/
def quotedChar (c : Char) : List Char :=
  if c = '"' then ['\\', '"']
  else if c = '\\' then ['\\', '\\']
  else if c = '\n' then ['\\', 'n']
  else if c = '\r' then ['\\', 'r']
  else if c = '\t' then ['\\', 't']
  else if c.toNat = 0 then ['\\', '0']
  else if 0x20 ≤ c.toNat && c.toNat < 0x7F then [c]
  else if inRanges c.toNat unprintableRanges then
    ['\\', 'u', '\x7b'] ++ Nat.toDigits 16 c.toNat ++ ['\x7d']
  else [c]

/-- The text between double quotes, escaped. -/
def quoted (s : String) : String :=
  String.ofList ('"' :: s.toList.flatMap quotedChar ++ ['"'])

end Deckwright.Text
