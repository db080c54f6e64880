/-!
# Reading from the front of a text

A reader takes something off the front of a text and hands back what is left. The type
`Rest` carries the proof that something was taken, which is what lets a reader call
itself on the remainder.
-/

namespace Deckwright.Text

/-- What may be left of a text after something was read from its front. -/
abbrev Rest (cs : List Char) :=
  { rest : List Char // rest.length < cs.length }

/-- What is left of a longer text is left of it as well. -/
def Rest.widen {cs ds : List Char} (h : ds.length ≤ cs.length) (rest : Rest ds) : Rest cs :=
  ⟨rest.val, Nat.lt_of_lt_of_le rest.property h⟩

/-- What remains after a run of characters is no longer than the text. -/
theorem length_dropWhile_le (p : Char → Bool) (cs : List Char) :
    (cs.dropWhile p).length ≤ cs.length :=
  (List.dropWhile_sublist p).length_le

/-- Whether the character is one of the digits 0 to 9. -/
def isDigit (c : Char) : Bool :=
  '0' ≤ c && c ≤ '9'

/-- The value of a digit of any base up to 16. -/
def digitValue? (c : Char) : Option Nat :=
  if '0' ≤ c && c ≤ '9' then some (c.toNat - '0'.toNat)
  else if 'a' ≤ c && c ≤ 'f' then some (c.toNat - 'a'.toNat + 10)
  else if 'A' ≤ c && c ≤ 'F' then some (c.toNat - 'A'.toNat + 10)
  else none

/-- The number written by digits of the given base; `none` if one is not a digit of it. -/
def number? (base : Nat) (digits : List Char) : Option Nat :=
  digits.foldlM (fun n c =>
    match digitValue? c with
    | some d => if d < base then some (n * base + d) else none
    | none => none) 0

/-- The number written by decimal digits; other characters count as zero. -/
def decimal (digits : List Char) : Nat :=
  digits.foldl (fun n c => n * 10 + (digitValue? c).getD 0) 0

/-- The character with the given code point, if it is one. -/
def scalar? (n : Nat) : Option Char :=
  if n.isValidChar then some (Char.ofNat n) else none

end Deckwright.Text
