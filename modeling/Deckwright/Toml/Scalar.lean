import Deckwright.Toml.Basic
import Deckwright.Text.Blank
import Deckwright.Text.Lines
import Deckwright.Text.Rest

/-!
# TOML strings, numbers and dates

Readers for the values that hold no other values. Each takes its value from the front of
a text and hands back what follows it.
-/

namespace Deckwright.Toml

/-- Space and tab. -/
def isGap (c : Char) : Bool :=
  c == ' ' || c == '\t'

/-- A character that may stand in a string or comment as it is: a tab, or no control character. -/
def isTextChar (c : Char) : Bool :=
  c == '\t' || (0x20 ≤ c.toNat && c.toNat != 0x7F)

/-- What follows the end of a line at the front of a text. -/
def newline? : List Char → Option (List Char)
  | '\n' :: rest => some rest
  | '\r' :: '\n' :: rest => some rest
  | _ => none

theorem newline?_length {cs rest : List Char} (h : newline? cs = some rest) :
    rest.length < cs.length := by
  unfold newline? at h
  split at h
  · obtain rfl := Option.some.inj h
    exact Nat.lt_succ_self _
  · obtain rfl := Option.some.inj h
    exact Nat.lt_succ_of_lt (Nat.lt_succ_self _)
  · simp at h

/-! ## Strings -/

/-- The character whose code is written by hexadecimal digits at the front of a text, and what follows. -/
def coded? (width : Nat) (cs : List Char) : Option (Char × List Char) :=
  if cs.length < width then none
  else ((Text.number? 16 (cs.take width)).bind Text.scalar?).map fun c => (c, cs.drop width)

theorem coded?_length {width : Nat} {cs rest : List Char} {c : Char}
    (h : coded? width cs = some (c, rest)) : rest.length ≤ cs.length := by
  unfold coded? at h
  split at h
  · simp at h
  · obtain ⟨_, -, hEq⟩ := Option.map_eq_some_iff.1 h
    obtain ⟨-, rfl⟩ := Prod.mk.inj hEq
    rw [List.length_drop]
    omega

/-- The character that an escape stands for, given the text behind the backslash, and what follows. -/
def escape? : List Char → Option (Char × List Char)
  | 'u' :: rest => coded? 4 rest
  | 'U' :: rest => coded? 8 rest
  | 'b' :: rest => some (Char.ofNat 0x08, rest)
  | 't' :: rest => some ('\t', rest)
  | 'n' :: rest => some ('\n', rest)
  | 'f' :: rest => some (Char.ofNat 0x0C, rest)
  | 'r' :: rest => some ('\r', rest)
  | '"' :: rest => some ('"', rest)
  | '\\' :: rest => some ('\\', rest)
  | _ => none

theorem escape?_length {cs rest : List Char} {c : Char} (h : escape? cs = some (c, rest)) :
    rest.length < cs.length := by
  unfold escape? at h
  split at h
  · exact Nat.lt_succ_of_le (coded?_length h)
  · exact Nat.lt_succ_of_le (coded?_length h)
  all_goals simp_all

/-- The characters of a one-line string up to its closing quote, and what follows the quote. -/
def basicBody (cs : List Char) : Option (List Char × List Char) :=
  match cs with
  | [] => none
  | '"' :: rest => some ([], rest)
  | '\\' :: rest =>
    match h : escape? rest with
    | some (c, after) =>
      have := escape?_length h
      (basicBody after).map fun (text, rest) => (c :: text, rest)
    | none => none
  | c :: rest =>
    if isTextChar c then (basicBody rest).map fun (text, rest) => (c :: text, rest) else none
termination_by cs.length

/-- The characters of a one-line literal string, and what follows its closing quote. -/
def literalBody : List Char → Option (List Char × List Char)
  | [] => none
  | c :: rest =>
    if c == '\'' then some ([], rest)
    else if isTextChar c then (literalBody rest).map fun (text, rest) => (c :: text, rest)
    else none

/-- A text without the white space and the ends of lines at its front. -/
def skipBlankLines : List Char → List Char
  | [] => []
  | '\r' :: '\n' :: rest => skipBlankLines rest
  | c :: rest => if isGap c || c == '\n' then skipBlankLines rest else c :: rest

theorem skipBlankLines_length_le (cs : List Char) : (skipBlankLines cs).length ≤ cs.length := by
  fun_induction skipBlankLines cs with
  | case1 => exact Nat.le_refl _
  | case2 rest ih => exact Nat.le_succ_of_le (Nat.le_succ_of_le ih)
  | case3 c rest _ _ ih => exact Nat.le_succ_of_le ih
  | case4 c rest => exact Nat.le_refl _

/-- What follows a backslash at the end of a line: the text behind the line end and all white space. -/
def foldedLine? (cs : List Char) : Option (List Char) :=
  (newline? (cs.dropWhile isGap)).map skipBlankLines

theorem foldedLine?_length {cs rest : List Char} (h : foldedLine? cs = some rest) :
    rest.length < cs.length := by
  simp only [foldedLine?, Option.map_eq_some_iff] at h
  obtain ⟨line, hLine, rfl⟩ := h
  have := newline?_length hLine
  have := Text.length_dropWhile_le isGap cs
  have := skipBlankLines_length_le line
  omega

/-- Up to two quotes more that belong to a text before its closing three, and what follows those. -/
def closing (quote : Char) : List Char → List Char × List Char
  | c :: d :: rest =>
    if c == quote && d == quote then ([quote, quote], rest)
    else if c == quote then ([quote], d :: rest)
    else ([], c :: d :: rest)
  | [c] => if c == quote then ([quote], []) else ([], [c])
  | [] => ([], [])

/-- The characters of a string over several lines, and what follows its closing quotes. -/
def basicLinesBody (cs : List Char) : Option (List Char × List Char) :=
  match cs with
  | [] => none
  | '"' :: '"' :: '"' :: rest => some (closing '"' rest)
  | '\r' :: '\n' :: rest => (basicLinesBody rest).map fun (text, rest) => ('\n' :: text, rest)
  | '\\' :: rest =>
    match hFold : foldedLine? rest with
    | some after =>
      have := foldedLine?_length hFold
      basicLinesBody after
    | none =>
      match h : escape? rest with
      | some (c, after) =>
        have := escape?_length h
        (basicLinesBody after).map fun (text, rest) => (c :: text, rest)
      | none => none
  | c :: rest =>
    if isTextChar c || c == '\n' then
      (basicLinesBody rest).map fun (text, rest) => (c :: text, rest)
    else none
termination_by cs.length

/-- The characters of a literal string over several lines, and what follows its closing quotes. -/
def literalLinesBody : List Char → Option (List Char × List Char)
  | [] => none
  | '\'' :: '\'' :: '\'' :: rest => some (closing '\'' rest)
  | '\r' :: '\n' :: rest => (literalLinesBody rest).map fun (text, rest) => ('\n' :: text, rest)
  | c :: rest =>
    if isTextChar c || c == '\n' then
      (literalLinesBody rest).map fun (text, rest) => (c :: text, rest)
    else none

/-- A text without the end of line at its front. -/
def skipNewline (cs : List Char) : List Char :=
  (newline? cs).getD cs

/-- The string at the front of a text. -/
def string? : List Char → Option (List Char × List Char)
  | '"' :: '"' :: '"' :: rest => basicLinesBody (skipNewline rest)
  | '\'' :: '\'' :: '\'' :: rest => literalLinesBody (skipNewline rest)
  | '"' :: rest => basicBody rest
  | '\'' :: rest => literalBody rest
  | _ => none

/-! ## Numbers -/

/-- Digits in which single underscores may stand between two digits, without them, and what follows. -/
def digits (isDigit : Char → Bool) : List Char → List Char × List Char
  | '_' :: c :: rest =>
    if isDigit c then
      let (more, after) := digits isDigit rest
      (c :: more, after)
    else ([], '_' :: c :: rest)
  | c :: rest =>
    if isDigit c then
      let (more, after) := digits isDigit rest
      (c :: more, after)
    else ([], c :: rest)
  | [] => ([], [])

/-- One digit or more, of which underscores may separate two. -/
def digits? (isDigit : Char → Bool) : List Char → Option (List Char × List Char)
  | c :: rest =>
    if isDigit c then
      let (more, after) := digits isDigit rest
      some (c :: more, after)
    else none
  | [] => none

/-- Whether a number is negative, and the text behind its sign. -/
def takeSign : List Char → Bool × List Char
  | '-' :: rest => (true, rest)
  | '+' :: rest => (false, rest)
  | cs => (false, cs)

/-- An integer of 64 bits. -/
def integer? (negative : Bool) (size : Nat) : Option Toml :=
  let i : Int := if negative then -(size : Int) else size
  if -0x8000000000000000 ≤ i && i < 0x8000000000000000 then some (.integer i) else none

/-- A number in base 16, 8 or 2, given the letter of its base and the text behind it. -/
def basedInteger? (letter : Char) (cs : List Char) : Option (Toml × List Char) := do
  let base ← if letter = 'x' then some 16 else if letter = 'o' then some 8
    else if letter = 'b' then some 2 else none
  let (text, rest) ← digits? (fun c => (Text.number? base [c]).isSome) cs
  return (← integer? false (← Text.number? base text), rest)

/-- The fraction at the front of a text, if there is one; `none` if its digits are missing. -/
def fraction? : List Char → Option (List Char × List Char)
  | '.' :: rest => digits? Text.isDigit rest
  | cs => some ([], cs)

/-- The exponent at the front of a text, if there is one; `none` if its digits are missing. -/
def power? : List Char → Option (Option Int × List Char)
  | c :: rest =>
    if c == 'e' || c == 'E' then do
      let (negative, rest) := takeSign rest
      let (text, rest) ← digits? Text.isDigit rest
      let size : Int := Text.decimal text
      return (some (if negative then -size else size), rest)
    else some (none, c :: rest)
  | [] => some (none, [])

/-- The 64-bit number nearest to `digits * 10 ^ power`, without writing out powers far out of range. -/
def nearest (negative : Bool) (digits : Nat) (power : Int) : Floating :=
  let size : Int := (Nat.toDigits 10 digits).length + power
  if digits = 0 || size < -400 then Floating.round .double negative 0 1
  else if 400 < size then .infinite negative
  else Floating.ofDecimal .double negative digits power

/-- A number at the front of a text; a positive one beyond the greatest is refused. -/
def number? (cs : List Char) : Option (Toml × List Char) := do
  let (negative, body) := takeSign cs
  if let some rest := Text.after? "inf".toList body then
    return (.float (.infinite negative), rest)
  if let some rest := Text.after? "nan".toList body then
    return (.float .undefined, rest)
  match cs with
  | '0' :: letter :: rest =>
    if letter == 'x' || letter == 'o' || letter == 'b' then return ← basedInteger? letter rest
  | _ => pure ()
  let (whole, rest) ←
    match body with
    | '0' :: rest => some (['0'], rest)
    | _ => digits? Text.isDigit body
  let (fraction, afterFraction) ← fraction? rest
  let (power, after) ← power? afterFraction
  if fraction.isEmpty && power.isNone then
    return (← integer? negative (Text.decimal whole), after)
  let x := nearest negative (Text.decimal (whole ++ fraction)) (power.getD 0 - fraction.length)
  if x = .infinite false then none else return (.float x, after)

/-! ## Dates and times -/

/-- Exactly `count` digits, and what follows them. -/
def fixedDigits? (count : Nat) (cs : List Char) : Option (Nat × List Char) :=
  let text := cs.take count
  if text.length = count && text.all Text.isDigit then some (Text.decimal text, cs.drop count)
  else none

/-- What follows the given character at the front of a text. -/
def expect? (c : Char) (cs : List Char) : Option (List Char) :=
  Text.after? [c] cs

/-- A number with at least `width` digits. -/
def padded (width n : Nat) : List Char :=
  let text := Nat.toDigits 10 n
  List.replicate (width - text.length) '0' ++ text

/-- The number of days of a month. -/
def daysInMonth (year month : Nat) : Nat :=
  if month = 2 then
    if year % 4 = 0 && (year % 100 != 0 || year % 400 = 0) then 29 else 28
  else if month = 4 || month = 6 || month = 9 || month = 11 then 30
  else 31

/-- A date, as text. -/
def date? (cs : List Char) : Option (List Char × List Char) := do
  let (year, cs) ← fixedDigits? 4 cs
  let (month, cs) ← fixedDigits? 2 (← expect? '-' cs)
  let (day, cs) ← fixedDigits? 2 (← expect? '-' cs)
  if 1 ≤ month && month ≤ 12 && 1 ≤ day && day ≤ daysInMonth year month then
    return (padded 4 year ++ '-' :: padded 2 month ++ '-' :: padded 2 day, cs)
  else none

/-- The fraction of a second as text: at most nine digits, without zeros at the end. -/
def secondFraction (text : List Char) : List Char :=
  let text := Text.dropEndWhile (· == '0') (text.take 9)
  if text.isEmpty then [] else '.' :: text

/-- A time of day, as text; the seconds may reach 60. -/
def time? (cs : List Char) : Option (List Char × List Char) := do
  let (hour, cs) ← fixedDigits? 2 cs
  let (minute, cs) ← fixedDigits? 2 (← expect? ':' cs)
  let (second, cs) ← fixedDigits? 2 (← expect? ':' cs)
  if 23 < hour || 59 < minute || 60 < second then none
  let text := padded 2 hour ++ ':' :: padded 2 minute ++ ':' :: padded 2 second
  match cs with
  | '.' :: rest =>
    let fraction := rest.takeWhile Text.isDigit
    if fraction.isEmpty then none
    else return (text ++ secondFraction fraction, rest.dropWhile Text.isDigit)
  | _ => return (text, cs)

/-- The offset of a time from UTC, as text; nothing if there is none. -/
def offset? (cs : List Char) : Option (List Char × List Char) :=
  match cs with
  | 'Z' :: rest => some (['Z'], rest)
  | 'z' :: rest => some (['Z'], rest)
  | c :: rest =>
    if c == '+' || c == '-' then do
      let (hour, rest) ← fixedDigits? 2 rest
      let (minute, rest) ← fixedDigits? 2 (← expect? ':' rest)
      if 23 < hour || 59 < minute then none
      let sign := if c == '-' && 0 < hour + minute then '-' else '+'
      return (sign :: padded 2 hour ++ ':' :: padded 2 minute, rest)
    else some ([], cs)
  | [] => some ([], [])

/-- A date, a time, or both with or without an offset. -/
def datetime? (cs : List Char) : Option (Toml × List Char) :=
  let value (text rest : List Char) := (Toml.datetime (String.ofList text), rest)
  match date? cs with
  | some (date, after) =>
    match after with
    | c :: rest =>
      if c == 'T' || c == 't' || c == ' ' then
        match time? rest with
        | some (time, rest) =>
          (offset? rest).map fun (offset, rest) => value (date ++ 'T' :: time ++ offset) rest
        | none => some (value date after)
      else some (value date after)
    | [] => some (value date after)
  | none => (time? cs).map fun (time, rest) => value time rest

/-- A value other than an array or a table. -/
def scalar? (cs : List Char) : Option (Toml × List Char) :=
  match cs with
  | c :: _ =>
    if c == '"' || c == '\'' then
      (string? cs).map fun (text, rest) => (.string (String.ofList text), rest)
    else if c == 't' then (Text.after? "true".toList cs).map (Toml.boolean true, ·)
    else if c == 'f' then (Text.after? "false".toList cs).map (Toml.boolean false, ·)
    else datetime? cs <|> number? cs
  | [] => none

end Deckwright.Toml
