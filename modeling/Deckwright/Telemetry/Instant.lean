import Deckwright.Text.Blank
import Deckwright.Text.Rest

/-!
# Instants

Points in time to the nanosecond, in the Gregorian calendar and in universal time. They are
read from texts like `2024-01-01T02:00:00.5+02:00` and written as `2024-01-01T00:00:00.500Z`.
A minute may have a leap second, whose number is 60.

A reader takes its value from the front of a text and hands back the rest.
-/

namespace Deckwright.Telemetry

/-! ## The calendar -/

/-- A day of the calendar. -/
structure Date where
  year : Int
  month : Nat
  day : Nat
  deriving DecidableEq, Inhabited

namespace Date

/-- The first and the last year of the calendar. -/
def firstYear : Int := -262143

@[inherit_doc firstYear]
def lastYear : Int := 262142

/-- Whether a year has a day more. -/
def isLeapYear (year : Int) : Bool :=
  year % 4 = 0 && (year % 100 != 0 || year % 400 = 0)

/-- The number of days of a month. -/
def daysIn (year : Int) (month : Nat) : Nat :=
  match month with
  | 2 => if isLeapYear year then 29 else 28
  | 4 => 30
  | 6 => 30
  | 9 => 30
  | 11 => 30
  | _ => 31

/-- Whether there is such a day. -/
def isValid (date : Date) : Bool :=
  firstYear ≤ date.year && date.year ≤ lastYear && 1 ≤ date.month && date.month ≤ 12 &&
    1 ≤ date.day && date.day ≤ daysIn date.year date.month

/-- The number of days since 1 March of the year 0; a year is taken to begin in March. -/
def number (date : Date) : Int :=
  let year := if date.month ≤ 2 then date.year - 1 else date.year
  let inEra := year % 400
  let month : Int := (date.month + 9) % 12
  year / 400 * 146097 + inEra * 365 + inEra / 4 - inEra / 100 + (153 * month + 2) / 5 + date.day - 1

/-- The day with the given number. -/
def ofNumber (number : Int) : Date :=
  let inEra := number % 146097
  let year := (inEra - inEra / 1460 + inEra / 36524 - inEra / 146096) / 365
  let inYear := inEra - (365 * year + year / 4 - year / 100)
  let month := (5 * inYear + 2) / 153
  { year := year + number / 146097 * 400 + if month < 10 then 0 else 1
    month := ((month + 2) % 12 + 1).toNat
    day := (inYear - (153 * month + 2) / 5 + 1).toNat }

end Date

/-! ## Instants -/

/-- A point in time: the minute, counted from 1 March of the year 0, and the time in the minute. -/
structure Instant where
  minute : Int
  second : Nat
  nanosecond : Nat
  deriving DecidableEq, Inhabited

namespace Instant

/-- The day of an instant. -/
def date (t : Instant) : Date :=
  Date.ofNumber (t.minute / 1440)

/-- The whole milliseconds from one instant to a later one, none if it is not later. -/
def millisecondsTo (start finish : Instant) : Nat :=
  let nanoseconds (t : Instant) : Int := (t.minute * 60 + t.second) * 1000000000 + t.nanosecond
  ((nanoseconds finish - nanoseconds start) / 1000000).toNat

/-! ## Reading -/

/-- A number of at most `most` digits. -/
def digits? (most : Nat) (cs : List Char) : Option (Nat × List Char) :=
  match (cs.take most).takeWhile Text.isDigit with
  | [] => none
  | run => some (Text.decimal run, cs.drop run.length)

/-- A number of at most two digits, behind any white space. -/
def field? (cs : List Char) : Option (Nat × List Char) :=
  digits? 2 (Text.trimLeft cs)

/-- What follows a mark, which may stand behind white space. -/
def mark? (mark : Char) (cs : List Char) : Option (List Char) :=
  match Text.trimLeft cs with
  | c :: rest => if c = mark then some rest else none
  | [] => none

/-- A year: four digits at most, or any number of them behind a sign. -/
def year? (cs : List Char) : Option (Int × List Char) :=
  match Text.trimLeft cs with
  | '-' :: rest => (digits? rest.length rest).map fun (n, rest) => (-(n : Int), rest)
  | '+' :: rest => (digits? rest.length rest).map fun (n, rest) => ((n : Int), rest)
  | rest => (digits? 4 rest).map fun (n, rest) => ((n : Int), rest)

/-- A day of the calendar. -/
def date? (cs : List Char) : Option (Date × List Char) := do
  let (year, cs) ← year? cs
  let (month, cs) ← field? (← mark? '-' cs)
  let (day, cs) ← field? (← mark? '-' cs)
  let date : Date := { year, month, day }
  if date.isValid then some (date, cs) else none

/-- A fraction of a second in nanoseconds; digits behind the ninth do not count. -/
def fraction? (cs : List Char) : Option (Nat × List Char) :=
  match cs with
  | '.' :: rest =>
    (digits? 9 rest).map fun (n, after) =>
      (n * Nat.pow 10 (9 - (rest.length - after.length)), after.dropWhile Text.isDigit)
  | _ => some (0, cs)

/-- A time of day: the minute of the day, the second and the nanosecond. -/
def time? (cs : List Char) : Option ((Nat × Nat × Nat) × List Char) := do
  let (hour, cs) ← field? cs
  let (minute, cs) ← field? (← mark? ':' cs)
  let (second, cs) ← field? (← mark? ':' cs)
  let (nanosecond, cs) ← fraction? cs
  if hour < 24 && minute < 60 && second ≤ 60 then
    some ((hour * 60 + minute, second, nanosecond), cs)
  else none

/-- Two digits. -/
def twoDigits? : List Char → Option (Nat × List Char)
  | a :: b :: rest =>
    if Text.isDigit a && Text.isDigit b then some (Text.decimal [a, b], rest) else none
  | _ => none

/-- The minutes of an offset behind its sign: hours, any colons and white space, minutes. -/
def offsetMinutes? (cs : List Char) : Option (Nat × List Char) := do
  let (hours, cs) ← twoDigits? cs
  let (minutes, cs) ← twoDigits? (cs.dropWhile fun c => c == ':' || Text.isSpace c)
  if hours < 24 && minutes < 60 then some (hours * 60 + minutes, cs) else none

/-- The offset from universal time in minutes. -/
def offset? (cs : List Char) : Option (Int × List Char) :=
  match cs with
  | '+' :: rest => (offsetMinutes? rest).map fun (n, rest) => ((n : Int), rest)
  | '-' :: rest => (offsetMinutes? rest).map fun (n, rest) => (-(n : Int), rest)
  | '\u2212' :: rest => (offsetMinutes? rest).map fun (n, rest) => (-(n : Int), rest)
  | 'Z' :: rest => some (0, rest)
  | 'z' :: rest => some (0, rest)
  | _ => if (cs.take 3).map Char.toUpper = ['U', 'T', 'C'] then some (0, cs.drop 3) else none

/-- What follows the mark between date and time. -/
def separator? : List Char → Option (List Char)
  | 'T' :: rest => some rest
  | 't' :: rest => some rest
  | ' ' :: rest => some rest
  | _ => none

/-- The instant that a text tells. -/
def ofString? (text : String) : Option Instant := do
  let (date, cs) ← date? text.toList
  let ((minute, second, nanosecond), cs) ← time? (← separator? cs)
  let (offset, cs) ← offset? (Text.trimLeft cs)
  let t : Instant := { minute := date.number * 1440 + minute - offset, second, nanosecond }
  if Text.isBlank cs && t.date.isValid then some t else none

/-! ## Writing -/

/-- A number with at least `width` digits. -/
def padded (width n : Nat) : String :=
  let digits := Nat.toDigits 10 n
  String.ofList (List.replicate (width - digits.length) '0' ++ digits)

/-- A year with four digits, and with a sign unless it is one of 0 to 9999. -/
def yearText (year : Int) : String :=
  if 0 ≤ year && year ≤ 9999 then padded 4 year.toNat
  else (if year < 0 then "-" else "+") ++ padded 4 year.natAbs

/-- The fraction of a second with the least of 0, 3, 6 and 9 digits that shows it. -/
def fractionText (nanosecond : Nat) : String :=
  if nanosecond = 0 then ""
  else if nanosecond % 1000000 = 0 then "." ++ padded 3 (nanosecond / 1000000)
  else if nanosecond % 1000 = 0 then "." ++ padded 6 (nanosecond / 1000)
  else "." ++ padded 9 nanosecond

/-- The text of an instant, in universal time. -/
def toString (t : Instant) : String :=
  let date := t.date
  let minute := (t.minute % 1440).toNat
  yearText date.year ++ "-" ++ padded 2 date.month ++ "-" ++ padded 2 date.day ++ "T" ++
    padded 2 (minute / 60) ++ ":" ++ padded 2 (minute % 60) ++ ":" ++ padded 2 t.second ++
    fractionText t.nanosecond ++ "Z"

end Instant

end Deckwright.Telemetry
