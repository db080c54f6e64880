import Deckwright.Json.Numeral
import Deckwright.Text.Lines

/-!
# Reading JSON

A text is read as one value with white space around it. Arrays and objects may be
nested 127 deep. Of two fields with one name the later one counts. Control characters
and halves of surrogate pairs are refused in strings.
-/

namespace Deckwright.Json

/-- The white space between the parts of a value. -/
def isGap (c : Char) : Bool :=
  c == ' ' || c == '\n' || c == '\t' || c == '\r'

/-- A text without the white space at its front. -/
def skipGap (cs : List Char) : List Char :=
  cs.dropWhile isGap

theorem skipGap_length (cs : List Char) : (skipGap cs).length ≤ cs.length :=
  Text.length_dropWhile_le isGap cs

/-- What is left behind the first character after the white space of a text. -/
theorem length_of_skipGap {cs rest : List Char} {c : Char} (h : skipGap cs = c :: rest) :
    rest.length < cs.length := by
  have := skipGap_length cs
  simp only [h, List.length_cons] at this
  omega

/-- The character that a one-letter escape stands for. -/
def escape? (c : Char) : Option Char :=
  if c = '"' || c = '\\' || c = '/' then some c
  else if c = 'b' then some (Char.ofNat 0x08)
  else if c = 'f' then some (Char.ofNat 0x0C)
  else if c = 'n' then some '\n'
  else if c = 'r' then some '\r'
  else if c = 't' then some '\t'
  else none

/-- Whether a code unit is the first, or the second, half of a surrogate pair. -/
def isHigh (unit : Nat) : Bool := 0xD800 ≤ unit && unit < 0xDC00

@[inherit_doc isHigh]
def isLow (unit : Nat) : Bool := 0xDC00 ≤ unit && unit < 0xE000

/--
The characters of a string up to its closing quote, and what follows the quote. `high` is
the first half of a surrogate pair whose second half must come next.
-/
def stringBody (high : Option Nat) : List Char → Option (List Char × List Char)
  | [] => none
  | '\\' :: 'u' :: a :: b :: c :: d :: rest =>
    match Text.number? 16 [a, b, c, d], high with
    | none, _ => none
    | some unit, some first =>
      if isLow unit then
        (stringBody none rest).map fun (text, rest) =>
          (Char.ofNat (0x10000 + (first - 0xD800) * 0x400 + (unit - 0xDC00)) :: text, rest)
      else none
    | some unit, none =>
      if isHigh unit then stringBody (some unit) rest
      else if isLow unit then none
      else (stringBody none rest).map fun (text, rest) => (Char.ofNat unit :: text, rest)
  | '\\' :: e :: rest =>
    if high.isSome then none
    else
      match escape? e with
      | some c => (stringBody none rest).map fun (text, rest) => (c :: text, rest)
      | none => none
  | c :: rest =>
    if high.isSome || c == '\\' || c.toNat < 0x20 then none
    else if c = '"' then some ([], rest)
    else (stringBody none rest).map fun (text, rest) => (c :: text, rest)

/-- A string is followed by less than it is read from. -/
theorem stringBody_length {high : Option Nat} {cs text rest : List Char}
    (h : stringBody high cs = some (text, rest)) : rest.length < cs.length := by
  fun_induction stringBody high cs generalizing text rest <;>
    simp_all [Option.map_eq_some_iff] <;> grind

/-- The greatest number of arrays and objects that may be open at once. -/
def depthLimit : Nat := 127

/-- The words that stand for values. -/
def word? (cs : List Char) : Option (Json × List Char) :=
  ((Text.after? "null".toList cs).map (Json.null, ·)) <|>
  ((Text.after? "true".toList cs).map (Json.bool true, ·)) <|>
  ((Text.after? "false".toList cs).map (Json.bool false, ·))

/-- A value that is neither an array nor an object nor a string. -/
def plain? (cs : List Char) : Option (Json × Text.Rest cs) :=
  match word? cs <|> number? cs with
  | some (value, rest) => if h : rest.length < cs.length then some (value, ⟨rest, h⟩) else none
  | none => none

mutual

/-- The value at the front of a text, below at most `depth` further arrays and objects. -/
def value? (depth : Nat) (cs : List Char) : Option (Json × Text.Rest cs) :=
  match h : skipGap cs with
  | '"' :: rest =>
    match hs : stringBody none rest with
    | some (text, after) =>
      some (.string (String.ofList text),
        ⟨after, Nat.lt_trans (stringBody_length hs) (length_of_skipGap h)⟩)
    | none => none
  | '[' :: rest =>
    match depth with
    | 0 => none
    | depth + 1 =>
      have hRest := length_of_skipGap h
      match hr : skipGap rest with
      | ']' :: after => some (.array [], ⟨after, Nat.lt_trans (length_of_skipGap hr) hRest⟩)
      | _ =>
        (items? depth rest).map fun (items, after) =>
          (.array items, after.widen (Nat.le_of_lt hRest))
  | '\x7b' :: rest =>
    match depth with
    | 0 => none
    | depth + 1 =>
      have hRest := length_of_skipGap h
      match hr : skipGap rest with
      | '\x7d' :: after => some (.object [], ⟨after, Nat.lt_trans (length_of_skipGap hr) hRest⟩)
      | _ =>
        (members? depth rest).map fun (members, after) =>
          (ofFields members, after.widen (Nat.le_of_lt hRest))
  | other =>
    have hOther : other.length ≤ cs.length := h ▸ skipGap_length cs
    (plain? other).map fun (value, after) => (value, after.widen hOther)
termination_by 2 * cs.length

/-- The items of an array from the first one on, and the text behind the closing bracket. -/
def items? (depth : Nat) (cs : List Char) : Option (List Json × Text.Rest cs) :=
  match value? depth cs with
  | none => none
  | some (item, ⟨after, hAfter⟩) =>
    match h : skipGap after with
    | ']' :: rest => some ([item], ⟨rest, Nat.lt_trans (length_of_skipGap h) hAfter⟩)
    | ',' :: rest =>
      have hRest := Nat.lt_trans (length_of_skipGap h) hAfter
      (items? depth rest).map fun (items, end?) =>
        (item :: items, end?.widen (Nat.le_of_lt hRest))
    | _ => none
termination_by 2 * cs.length + 1

/-- The fields of an object from the first one on, and the text behind the closing brace. -/
def members? (depth : Nat) (cs : List Char) : Option (List (String × Json) × Text.Rest cs) :=
  match h : skipGap cs with
  | '"' :: rest =>
    match hs : stringBody none rest with
    | none => none
    | some (name, behindName) =>
      have hName := Nat.lt_trans (stringBody_length hs) (length_of_skipGap h)
      match hc : skipGap behindName with
      | ':' :: rest =>
        have hColon := Nat.lt_trans (length_of_skipGap hc) hName
        match value? depth rest with
        | none => none
        | some (value, ⟨after, hAfter⟩) =>
          have hValue := Nat.lt_trans hAfter hColon
          match he : skipGap after with
          | '\x7d' :: rest =>
            some ([(String.ofList name, value)],
              ⟨rest, Nat.lt_trans (length_of_skipGap he) hValue⟩)
          | ',' :: rest =>
            have hRest := Nat.lt_trans (length_of_skipGap he) hValue
            (members? depth rest).map fun (members, end?) =>
              ((String.ofList name, value) :: members, end?.widen (Nat.le_of_lt hRest))
          | _ => none
      | _ => none
  | _ => none
termination_by 2 * cs.length + 1

end

/-- The value that a text holds, with nothing but white space around it. -/
def read? (text : String) : Option Json :=
  match value? depthLimit text.toList with
  | some (value, ⟨rest, _⟩) => if (skipGap rest).isEmpty then some value else none
  | none => none

end Deckwright.Json
