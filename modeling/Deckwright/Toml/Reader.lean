import Deckwright.Toml.Scalar
import Deckwright.Toml.Tree

/-!
# Reading TOML

A document is a list of statements, one to a line: keys with values, and headers. At most
79 arrays and inline tables may be open at once, and a dotted key has at most 79 parts.
-/

namespace Deckwright.Toml

/-- A text without spaces and tabs at its front. -/
def skipGap (cs : List Char) : List Char :=
  cs.dropWhile isGap

theorem skipGap_length (cs : List Char) : (skipGap cs).length ≤ cs.length :=
  Text.length_dropWhile_le isGap cs

/-- What is left behind the first character after the spaces at the front of a text. -/
theorem length_of_skipGap {cs rest : List Char} {c : Char} (h : skipGap cs = c :: rest) :
    rest.length < cs.length := by
  have := skipGap_length cs
  simp only [h, List.length_cons] at this
  omega

/-- A text without the white space, the ends of lines and the comments at its front. -/
def skipLines (cs : List Char) : List Char :=
  match cs with
  | [] => []
  | '\r' :: '\n' :: rest => skipLines rest
  | c :: rest =>
    if isGap c || c == '\n' then skipLines rest
    else if c == '#' then
      have := Text.length_dropWhile_le isTextChar rest
      skipLines (rest.dropWhile isTextChar)
    else c :: rest
termination_by cs.length

theorem skipLines_length (cs : List Char) : (skipLines cs).length ≤ cs.length := by
  fun_induction skipLines cs with
  | case1 => simp
  | case2 rest ih => simp; omega
  | case3 c rest _ _ ih => simp; omega
  | case4 c rest _ _ _ hShorter ih => simp; omega
  | case5 c rest => simp

/-- What is left behind the first character after the lines skipped at the front of a text. -/
theorem length_of_skipLines {cs rest : List Char} {c : Char} (h : skipLines cs = c :: rest) :
    rest.length < cs.length := by
  have := skipLines_length cs
  simp only [h, List.length_cons] at this
  omega

/-- The rest of a text, if it is shorter than the text. -/
def shorter? {α : Type} (cs : List Char) : Option (α × List Char) → Option (α × Text.Rest cs)
  | some (value, rest) =>
    if h : rest.length < cs.length then some (value, ⟨rest, h⟩) else none
  | none => none

/-! ## Keys -/

/-- A character of a key without quotes. -/
def isBareKeyChar (c : Char) : Bool :=
  Text.isDigit c || ('a' ≤ c && c ≤ 'z') || ('A' ≤ c && c ≤ 'Z') || c == '-' || c == '_'

/-- One part of a key: bare, or a string on one line. -/
def simpleKey? (cs : List Char) : Option (String × Text.Rest cs) :=
  shorter? cs <|
    match cs with
    | '"' :: rest => (basicBody rest).map fun (text, rest) => (String.ofList text, rest)
    | '\'' :: rest => (literalBody rest).map fun (text, rest) => (String.ofList text, rest)
    | _ => some (String.ofList (cs.takeWhile isBareKeyChar), cs.dropWhile isBareKeyChar)

/-- The parts of a dotted key, with spaces around each, and the text behind the spaces. -/
def keyParts? (cs : List Char) : Option (List String × Text.Rest cs) :=
  match simpleKey? (skipGap cs) with
  | none => none
  | some (part, ⟨after, hAfter⟩) =>
    have hPart := Nat.lt_of_lt_of_le hAfter (skipGap_length cs)
    match h : skipGap after with
    | '.' :: rest =>
      have hRest := Nat.lt_trans (length_of_skipGap h) hPart
      (keyParts? rest).map fun (parts, end?) => (part :: parts, end?.widen (Nat.le_of_lt hRest))
    | other =>
      have hOther : other.length ≤ after.length := h ▸ skipGap_length after
      some ([part], ⟨other, Nat.lt_of_le_of_lt hOther hPart⟩)
termination_by cs.length

/-- The greatest number of parts of a key, and of arrays and inline tables open at once. -/
def depthLimit : Nat := 79

/-- A dotted key: the parts before the last one, and the last one. -/
def key? (cs : List Char) : Option ((List String × String) × Text.Rest cs) :=
  match keyParts? cs with
  | some (parts, rest) =>
    if depthLimit < parts.length then none
    else parts.getLast?.map fun last => ((parts.dropLast, last), rest)
  | none => none

/-- What follows the equals sign behind a key. -/
def afterEquals? {cs : List Char} : Text.Rest cs → Option (Text.Rest cs)
  | ⟨'=' :: rest, h⟩ => some ⟨rest, Nat.lt_trans (Nat.lt_succ_self _) h⟩
  | _ => none

/-! ## Values -/

mutual

/-- The value at the front of a text, below at most `depth` further arrays and inline tables. -/
def value? (depth : Nat) (cs : List Char) : Option (Toml × Text.Rest cs) :=
  match cs with
  | '[' :: rest =>
    match depth with
    | 0 => none
    | depth + 1 =>
      (items? depth rest).map fun (items, after) =>
        (.array items, after.widen (Nat.le_succ rest.length))
  | '\x7b' :: rest =>
    match depth with
    | 0 => none
    | depth + 1 =>
      match h : skipGap rest with
      | '\x7d' :: after =>
        some (.table [], ⟨after, Nat.lt_succ_of_lt (length_of_skipGap h)⟩)
      | _ =>
        match pairs? depth rest with
        | some (pairs, after) =>
          (inlineTable? pairs).map fun table => (table, after.widen (Nat.le_succ rest.length))
        | none => none
  | other => shorter? other (scalar? other)
termination_by 2 * cs.length

/-- The remaining items of an array, over any number of lines, and the text behind its bracket. -/
def items? (depth : Nat) (cs : List Char) : Option (List Toml × Text.Rest cs) :=
  match h : skipLines cs with
  | ']' :: rest => some ([], ⟨rest, length_of_skipLines h⟩)
  | other =>
    have hOther : other.length ≤ cs.length := h ▸ skipLines_length cs
    match value? depth other with
    | none => none
    | some (item, ⟨after, hAfter⟩) =>
      have hItem := Nat.lt_of_lt_of_le hAfter hOther
      match he : skipLines after with
      | ']' :: rest => some ([item], ⟨rest, Nat.lt_trans (length_of_skipLines he) hItem⟩)
      | ',' :: rest =>
        have hRest := Nat.lt_trans (length_of_skipLines he) hItem
        (items? depth rest).map fun (items, end?) =>
          (item :: items, end?.widen (Nat.le_of_lt hRest))
      | _ => none
termination_by 2 * cs.length + 1

/-- The keys and values of an inline table from the first one on, and the text behind its brace. -/
def pairs? (depth : Nat) (cs : List Char) :
    Option (List (List String × String × Toml) × Text.Rest cs) :=
  match key? cs with
  | none => none
  | some ((path, key), afterKey) =>
    match afterEquals? afterKey with
    | none => none
    | some ⟨rest, hRest⟩ =>
      have hGap := skipGap_length rest
      match value? depth (skipGap rest) with
      | none => none
      | some (value, ⟨after, hAfter⟩) =>
        have hValue := Nat.lt_of_lt_of_le hAfter (Nat.le_trans hGap (Nat.le_of_lt hRest))
        match he : skipGap after with
        | '\x7d' :: rest =>
          some ([(path, key, value)], ⟨rest, Nat.lt_trans (length_of_skipGap he) hValue⟩)
        | ',' :: rest =>
          have hRest := Nat.lt_trans (length_of_skipGap he) hValue
          (pairs? depth rest).map fun (pairs, end?) =>
            ((path, key, value) :: pairs, end?.widen (Nat.le_of_lt hRest))
        | _ => none
termination_by 2 * cs.length + 1

end

/-! ## Lines -/

/-- What follows the end of a line: spaces, a comment, and a line end or the end of the text. -/
def lineEnd? (cs : List Char) : Option (List Char) :=
  let rest :=
    match skipGap cs with
    | '#' :: rest => rest.dropWhile isTextChar
    | rest => rest
  if rest.isEmpty then some [] else newline? rest

/-- A header or a key with its value, at the front of a line. -/
def statement? (cs : List Char) : Option (Statement × List Char) :=
  match cs with
  | '[' :: '[' :: rest =>
    match key? rest with
    | some ((path, key), ⟨']' :: ']' :: rest, _⟩) => some (.element path key, rest)
    | _ => none
  | '[' :: rest =>
    match key? rest with
    | some ((path, key), ⟨']' :: rest, _⟩) => some (.table path key, rest)
    | _ => none
  | _ =>
    match key? cs with
    | some ((path, key), ⟨'=' :: rest, _⟩) =>
      (value? depthLimit (skipGap rest)).map fun (value, rest) => (.assign path key value, rest.val)
    | _ => none

/-- The first line of a text: the statement it holds, if any, and the text behind its end. -/
def line? (cs : List Char) : Option (Option Statement × List Char) :=
  let body := skipGap cs
  match lineEnd? body with
  | some after => some (none, after)
  | none =>
    match statement? body with
    | some (statement, rest) => (lineEnd? rest).map fun after => (some statement, after)
    | none => none

/-- The statements of a document. -/
def statements? (cs : List Char) : Option (List Statement) :=
  if cs.isEmpty then some []
  else
    match line? cs with
    | none => none
    | some (statement, after) =>
      if after.length < cs.length then
        (statements? after).map fun others => statement.toList ++ others
      else none
termination_by cs.length

/-- The table that a TOML document defines; a byte order mark in front is skipped. -/
def read? (text : String) : Option Entries :=
  let cs := text.toList
  let cs := if cs.head? == some (Char.ofNat 0xFEFF) then cs.drop 1 else cs
  (statements? cs).bind ofStatements?

end Deckwright.Toml
