import Deckwright.Json.Basic
import Deckwright.Text.Rest

/-!
# Numbers in JSON

A numeral is an optional minus sign, digits without a leading zero, and optionally a
fraction and an exponent. It is an integer if it has neither and fits 64 bits (`-0` is
not an integer); otherwise it is a floating-point number. Of the digits only a 64-bit
significand is kept, which is scaled by a rounded power of ten, so the last place of a
long numeral may differ from the nearest number. A numeral beyond the greatest number
is refused.
-/

namespace Deckwright.Json

/-- A numeral taken apart. -/
structure Numeral where
  negative : Bool
  whole : List Char
  fraction : Option (List Char)
  /-- Whether the exponent is negative, and its digits. -/
  power : Option (Bool × List Char)

namespace Numeral

/-- The numeral at the front of a text, and what follows it; the digits of each part may still be missing. -/
def take (cs : List Char) : Numeral × List Char :=
  let negative := cs.head? == some '-'
  let cs := if negative then cs.drop 1 else cs
  let whole := cs.takeWhile Text.isDigit
  let cs := cs.dropWhile Text.isDigit
  let pointed := cs.head? == some '.'
  let fraction := if pointed then some ((cs.drop 1).takeWhile Text.isDigit) else none
  let cs := if pointed then (cs.drop 1).dropWhile Text.isDigit else cs
  if cs.head? == some 'e' || cs.head? == some 'E' then
    let cs := cs.drop 1
    let signed := cs.head? == some '+' || cs.head? == some '-'
    let digits := if signed then cs.drop 1 else cs
    (⟨negative, whole, fraction, some (cs.head? == some '-', digits.takeWhile Text.isDigit)⟩,
      digits.dropWhile Text.isDigit)
  else (⟨negative, whole, fraction, none⟩, cs)

/-- Every part has a digit, and the whole part no leading zero. -/
def wellFormed (n : Numeral) : Bool :=
  !n.whole.isEmpty && (n.whole.length == 1 || n.whole.head? != some '0') &&
    n.fraction.all (fun digits => !digits.isEmpty) && n.power.all (fun (_, digits) => !digits.isEmpty)

/-- Takes digits into a significand of 64 bits while they fit: the significand and the digits left over. -/
def fill (significand : Nat) : List Char → Nat × List Char
  | [] => (significand, [])
  | c :: rest =>
    let next := significand * 10 + (Text.digitValue? c).getD 0
    if 0x10000000000000000 ≤ next then (significand, c :: rest) else fill next rest

/-- The number scaled by a power of ten, by rounded powers up to `10 ^ 308` at a time. -/
def scale (x : Floating) (exponent : Int) : Floating :=
  if exponent.natAbs ≤ 308 then
    let power := Floating.ofDecimal .double false 1 exponent.natAbs
    if 0 ≤ exponent then x.times .double power else x.dividedBy .double power
  else if x.isZero then x
  else if 0 ≤ exponent then .infinite false
  else scale (x.dividedBy .double (Floating.ofDecimal .double false 1 308)) (exponent + 308)
termination_by (-exponent).toNat
decreasing_by omega

/-- The floating-point number of a numeral. -/
def toFloating (n : Numeral) : Floating :=
  let (significand, dropped) := fill 0 n.whole
  let fraction := n.fraction.getD []
  let (significand, unused) := fill significand fraction
  let exponent : Int := (dropped.length : Int) - ((fraction.length - unused.length : Nat) : Int)
  let zero := Floating.ofInt .double 0
  let size :=
    match n.power with
    | none => scale (Floating.ofInt .double significand) exponent
    | some (negative, digits) =>
      let power := Text.decimal digits
      if 0x80000000 ≤ power then
        if significand = 0 || negative then zero else .infinite false
      else
        scale (Floating.ofInt .double significand) (if negative then exponent - power else exponent + power)
  size.withSign n.negative

/-- The value of a numeral, unless it is too large. -/
def value? (n : Numeral) : Option Json :=
  let (significand, dropped) := fill 0 n.whole
  if n.fraction.isNone && n.power.isNone && dropped.isEmpty &&
      (!n.negative || (0 < significand && significand ≤ 0x8000000000000000)) then
    some (.int (if n.negative then -(significand : Int) else significand))
  else
    let x := n.toFloating
    if x.isFinite then some (.float x) else none

end Numeral

/-- The number at the front of a text, and what follows it. -/
def number? (cs : List Char) : Option (Json × List Char) :=
  let (numeral, rest) := Numeral.take cs
  if numeral.wellFormed then numeral.value?.map fun value => (value, rest) else none

end Deckwright.Json
