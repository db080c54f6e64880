/-!
# Lines and cuts

A text as a list of lines, and texts cut at a character. A line ends at a line feed,
or at a carriage return followed by one; a lone carriage return is text, and an end
of line at the end of the text opens no further line.
-/

namespace Deckwright.Text

/-- The lines of a text, without their ends. -/
def lines : List Char → List (List Char)
  | [] => []
  | '\r' :: '\n' :: rest => [] :: lines rest
  | '\n' :: rest => [] :: lines rest
  | c :: rest =>
    match lines rest with
    | [] => [[c]]
    | line :: others => (c :: line) :: others

/-- The first line of a text, empty for the empty text. -/
def firstLine (cs : List Char) : List Char :=
  (lines cs).headD []

/-- The text before the first `stop` and the text after it, if `stop` occurs. -/
def cut? (stop : Char) : List Char → Option (List Char × List Char)
  | [] => none
  | c :: rest =>
    if c = stop then some ([], rest)
    else (cut? stop rest).map fun (before, after) => (c :: before, after)

/-- The parts of a text between the occurrences of `stop`: one more than there are of them. -/
def split (stop : Char) : List Char → List (List Char)
  | [] => [[]]
  | c :: rest =>
    if c = stop then [] :: split stop rest
    else
      match split stop rest with
      | [] => [[c]]
      | part :: others => (c :: part) :: others

/-- Whether `part` occurs in the text. -/
def occursIn (part : List Char) : List Char → Bool
  | [] => part.isEmpty
  | c :: rest => part.isPrefixOf (c :: rest) || occursIn part rest

/-- What follows `start` in a text that begins with it. -/
def after? : (start text : List Char) → Option (List Char)
  | [], text => some text
  | _ :: _, [] => none
  | c :: start, d :: text => if c = d then after? start text else none

/-- What is left of a text after a cut is shorter than the text. -/
theorem cut?_length {stop : Char} {cs before after : List Char}
    (h : cut? stop cs = some (before, after)) : after.length < cs.length := by
  induction cs generalizing before with
  | nil => simp [cut?] at h
  | cons c rest ih =>
    unfold cut? at h
    split at h
    · simp_all
    · obtain ⟨⟨first, second⟩, hCut, hEq⟩ := Option.map_eq_some_iff.1 h
      obtain ⟨-, rfl⟩ := Prod.mk.inj hEq
      exact Nat.lt_succ_of_lt (ih hCut)

end Deckwright.Text
