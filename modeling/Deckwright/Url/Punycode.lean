import Deckwright.Text.Rest

/-!
# Punycode

A label with characters beyond ASCII, written in ASCII: its ASCII characters, and then for
each other character the number of steps from the one before it in a count over characters
and positions. Numbers have digits of base 36 and a last digit that tells itself apart.
-/

namespace Deckwright.Url.Punycode

/-- The digit of a value below 36: letters, then numerals. -/
def digit (n : Nat) : Char :=
  Char.ofNat (if n < 26 then n + 'a'.toNat else n - 26 + '0'.toNat)

/-- The value of a digit. -/
def value? (c : Char) : Option Nat :=
  if 'a' ≤ c && c ≤ 'z' then some (c.toNat - 'a'.toNat)
  else if Text.isDigit c then some (c.toNat - '0'.toNat + 26)
  else none

/-- The least value that a digit must have to be followed by another one. -/
def threshold (bias place : Nat) : Nat :=
  max 1 (min 26 (36 * (place + 1) - bias))

/-- A number, from the given place on. -/
def number (bias place n : Nat) : List Char :=
  let t := threshold bias place
  if n < t then [digit n]
  else digit (t + (n - t) % (36 - t)) :: number bias (place + 1) ((n - t) / (36 - t))
termination_by n
decreasing_by
  have hLow : 1 ≤ threshold bias place := Nat.le_max_left ..
  have : (n - threshold bias place) / (36 - threshold bias place) ≤ n - threshold bias place :=
    Nat.div_le_self ..
  omega

/-- The bias behind a step scaled to `delta`. -/
def settle (delta offset : Nat) : Nat :=
  if 455 < delta then settle (delta / 35) (offset + 36)
  else offset + 36 * delta / (delta + 38)
termination_by delta

/-- The bias behind a step `delta`, with `count` characters written. -/
def adapt (delta count : Nat) (first : Bool) : Nat :=
  let delta := if first then delta / 700 else delta / 2
  settle (delta + delta / count) 0

/-- The state of the encoder: the steps since the last number, the bias and the characters written. -/
structure Encoder where
  delta : Nat
  bias : Nat
  count : Nat
  first : Bool

/-- The numbers for the places of the code point `n` in a text. -/
def placesOf (n : Nat) (state : Encoder) : List Char → List Char × Encoder
  | [] => ([], state)
  | c :: rest =>
    if c.toNat < n then placesOf n { state with delta := state.delta + 1 } rest
    else if c.toNat = n then
      let next : Encoder :=
        { delta := 0, bias := adapt state.delta (state.count + 1) state.first
          count := state.count + 1, first := false }
      let (text, state') := placesOf n next rest
      (number state.bias 0 state.delta ++ text, state')
    else placesOf n state rest

/-- The numbers for the given code points in order, of which all below `least` are written. -/
def places (cs : List Char) (least : Nat) (state : Encoder) : List Nat → List Char
  | [] => []
  | n :: rest =>
    let state := { state with delta := state.delta + (n - least) * (state.count + 1) }
    let (text, state) := placesOf n state cs
    text ++ places cs (n + 1) { state with delta := state.delta + 1 } rest

/-- The punycode of a label. -/
def encode (cs : List Char) : List Char :=
  let basic := cs.filter fun c => c.toNat < 0x80
  let others := ((cs.filter fun c => 0x80 ≤ c.toNat).map Char.toNat).mergeSort.eraseDups
  let start : Encoder := { delta := 0, bias := 72, count := basic.length, first := true }
  basic ++ (if basic.isEmpty then [] else ['-']) ++ places cs 0x80 start others

/-- The number at the front of a text, and what follows it. -/
def number? (bias place weight : Nat) : List Char → Option (Nat × List Char)
  | [] => none
  | c :: rest =>
    match value? c with
    | none => none
    | some d =>
      let t := threshold bias place
      if d < t then some (d * weight, rest)
      else
        (number? bias (place + 1) (weight * (36 - t)) rest).map fun (n, rest) =>
          (d * weight + n, rest)

/-- Puts in the characters that the numbers of a text stand for, at most `fuel` of them. -/
def decodeFrom (fuel : Nat) (cs : List Char) (point index bias : Nat) (first : Bool)
    (text : List Char) : Option (List Char) :=
  match fuel, text with
  | _, [] => some cs
  | 0, _ => none
  | fuel + 1, text =>
    match number? bias 0 1 text with
    | none => none
    | some (delta, rest) =>
      let count := cs.length + 1
      let total := index + delta
      let point := point + total / count
      let place := total % count
      match Text.scalar? point with
      | none => none
      | some c =>
        decodeFrom fuel (cs.take place ++ c :: cs.drop place) point (place + 1)
          (adapt delta count first) false rest

/-- The label that a punycode stands for. -/
def decode? (text : List Char) : Option (List Char) :=
  let reversed := text.reverse
  let tail := (reversed.takeWhile (· != '-')).reverse
  let basic := ((reversed.dropWhile (· != '-')).drop 1).reverse
  decodeFrom text.length basic 0x80 0 72 true tail

end Deckwright.Url.Punycode
