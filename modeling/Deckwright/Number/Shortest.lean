import Deckwright.Number.Floating

/-!
# Shortest decimals

The decimal with the fewest digits that reads back as a given floating-point number;
among several of that length the nearest to the number, and of two equally near ones
the even one. The search goes over decimal grids from the coarse to the fine: a decimal
`c * 10 ^ k` reads back exactly if it lies in the interval of values that round to the
number, so the first grid with a point in that interval holds the answer.
-/

namespace Deckwright.Floating

/--
The point of the grid of multiples of `10 ^ k` that reads back as `mantissa * 2 ^ exponent`
and is nearest to it, as a multiple of `10 ^ k`; `none` if only zero or no point reads back.
-/
def gridPoint? (format : Format) (mantissa : Nat) (exponent k : Int) : Option Nat :=
  -- A quarter of the last place, measured in grid steps, is `num / den`.
  let num := pow2 (exponent - 2) * pow10 (-k)
  let den := pow2 (2 - exponent) * pow10 k
  let below := if mantissa = pow2 (format.precision - 1) && format.least < exponent then 1 else 2
  let value := 4 * mantissa * num
  let low := (4 * mantissa - below) * num
  let high := (4 * mantissa + 2) * num
  let reads (c : Nat) : Bool :=
    c != 0 && (if mantissa % 2 = 0 then low ≤ c * den && c * den ≤ high
      else low < c * den && c * den < high)
  let down := value / den
  let up := down + 1
  match reads down, reads up with
  | false, false => none
  | true, false => some down
  | false, true => some up
  | true, true =>
    let toDown := value - down * den
    let toUp := up * den - value
    if toDown < toUp then some down
    else if toUp < toDown then some up
    else if down % 2 = 0 then some down
    else some up

/-- The first grid from `10 ^ k` on, of `steps + 1` grids, with a point that reads back. -/
def firstGrid (format : Format) (mantissa : Nat) (exponent : Int) : Nat → Int → Nat × Int
  | 0, k => (((gridPoint? format mantissa exponent k).getD 0), k)
  | steps + 1, k =>
    match gridPoint? format mantissa exponent k with
    | some c => (c, k)
    | none => firstGrid format mantissa exponent steps (k - 1)

/--
The shortest decimal of `mantissa * 2 ^ exponent`: its digits and the power of ten they
are multiplied with. The first grid tried is coarser than the number itself.
-/
def shortest (format : Format) (mantissa : Nat) (exponent : Int) : Nat × Int :=
  if mantissa = 0 then (0, 0)
  else
    let bits : Int := (mantissa.log2 : Int) + exponent + 1
    firstGrid format mantissa exponent 40 (bits * 30103 / 100000 + 1)

/-- The decimal digits of a natural number. -/
def digitsOf (n : Nat) : List Char :=
  Nat.toDigits 10 n

/-- A decimal in positional notation, with `.0` behind a whole number if `point` asks for it. -/
def positional (digits : Nat) (exponent : Int) (point : Bool) : List Char :=
  let text := digitsOf digits
  if 0 ≤ exponent then
    (if digits = 0 then ['0'] else text ++ List.replicate exponent.toNat '0') ++
      (if point then ['.', '0'] else [])
  else
    let places := (-exponent).toNat
    let padded := List.replicate (places + 1 - text.length) '0' ++ text
    padded.take (padded.length - places) ++ '.' :: padded.drop (padded.length - places)

/-- A decimal in scientific notation: one digit before the point, and a signed exponent. -/
def scientific (digits : Nat) (exponent : Int) (plus : Bool) : List Char :=
  let text := digitsOf digits
  let power : Int := exponent + (text.length : Int) - 1
  let lead := match text with
    | [] => ['0']
    | [d] => [d]
    | d :: more => d :: '.' :: more
  lead ++ 'e' :: (if 0 ≤ power then (if plus then ['+'] else []) else ['-']) ++
    digitsOf power.natAbs

/-- The minus sign of a negative number. -/
def sign (negative : Bool) : List Char :=
  if negative then ['-'] else []

end Deckwright.Floating
