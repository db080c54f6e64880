import Deckwright.Number.Shortest

/-!
# Writing TOML strings and numbers

A string is written in the first of four forms that shows it without escapes: between
quotes, between apostrophes, and each of these over several lines between three marks. A
string that none of them can show is escaped. A number is written positionally, with the
fewest digits that read back.
-/

namespace Deckwright.Toml

/-- The length of the longest run of a character in a text that continues a run of `run` of them. -/
def longestRun (mark : Char) (run : Nat) : List Char → Nat
  | [] => run
  | c :: rest =>
    if c = mark then longestRun mark (run + 1) rest else max run (longestRun mark 0 rest)

/-- A control character that only an escape can show. -/
def needsEscape (c : Char) : Bool :=
  c != '\t' && c != '\n' && (c.toNat < 0x20 || c.toNat == 0x7F)

/-- The four digits of the code of a control character. -/
def codeDigits (c : Char) : List Char :=
  let digits := (Nat.toDigits 16 c.toNat).map Char.toUpper
  List.replicate (4 - digits.length) '0' ++ digits

/-- One character of an escaped string, other than a quote; on several lines an end of line stands as it is. -/
def escapedChar (multiline : Bool) (c : Char) : List Char :=
  if c = '\\' then ['\\', '\\']
  else if c = '\n' then (if multiline then ['\n'] else ['\\', 'n'])
  else if c = '\t' then ['\\', 't']
  else if c = '\r' then ['\\', 'r']
  else if c.toNat = 0x08 then ['\\', 'b']
  else if c.toNat = 0x0C then ['\\', 'f']
  else if needsEscape c then ['\\', 'u'] ++ codeDigits c
  else [c]

/--
The characters of an escaped string behind `run` quotes that stand as they are. On one line
every quote is escaped, on several lines each third one in a row.
-/
def escapedFrom (multiline : Bool) (run : Nat) : List Char → List Char
  | [] => []
  | '"' :: rest =>
    if multiline && run < 2 then '"' :: escapedFrom multiline (run + 1) rest
    else '\\' :: '"' :: escapedFrom multiline 0 rest
  | c :: rest => escapedChar multiline c ++ escapedFrom multiline 0 rest

/-- A text between two copies of a mark. -/
def between (mark : List Char) (text : List Char) : List Char :=
  mark ++ text ++ mark

/-- A text between two copies of a mark, on lines of its own if it has several lines. -/
def betweenLines (mark : List Char) (lines : Bool) (text : List Char) : List Char :=
  between mark (if lines then '\n' :: text else text)

/-- A string as TOML. -/
def stringText (text : List Char) : List Char :=
  let escape := text.any needsEscape
  let backslash := text.contains '\\'
  let lines := text.contains '\n'
  let quotes := longestRun '"' 0 text
  let apostrophes := longestRun '\'' 0 text
  let quoteMarks := ['"', '"', '"']
  let apostropheMarks := ['\'', '\'', '\'']
  if !escape && !backslash && !lines && quotes = 0 then between ['"'] (escapedFrom false 0 text)
  else if !escape && !lines && apostrophes = 0 then between ['\''] text
  else if !escape && !backslash && quotes ≤ 2 then
    betweenLines quoteMarks lines (escapedFrom true 0 text)
  else if !escape && apostrophes ≤ 2 then betweenLines apostropheMarks lines text
  else if lines then betweenLines quoteMarks lines (escapedFrom true 0 text)
  else between ['"'] (escapedFrom false 0 text)

/-- A number of the 64-bit format as TOML. -/
def floatText : Floating → List Char
  | .finite negative mantissa exponent =>
    let (digits, power) := Floating.shortest .double mantissa exponent
    Floating.sign negative ++ Floating.positional digits power true
  | .infinite negative => Floating.sign negative ++ "inf".toList
  | .undefined => "nan".toList

end Deckwright.Toml
