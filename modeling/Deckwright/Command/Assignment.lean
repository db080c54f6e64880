import Deckwright.Json.Reader

/-!
# Assignments

Values of context variables as they are written on a command line: a name, an equals sign and
a value, which is JSON if it can be read as JSON and otherwise the text itself.
-/

namespace Deckwright

/-- A value for a context variable, under the name of the variable. -/
abbrev Assignment := String × Json

/-- Why a text is no assignment. -/
inductive AssignmentError where
  | noEquals (text : String)
  | noName (text : String)
  deriving DecidableEq, Inhabited

/-- What is wrong with a text. -/
def AssignmentError.message : AssignmentError → String
  | noEquals text => "expected key=value, got '" ++ text ++ "'"
  | noName text => "missing key in '" ++ text ++ "'"

namespace Assignment

/-- The value that a text stands for. -/
def valueOf (text : String) : Json :=
  (Json.read? text).getD (.string text)

/-- Reads an assignment; the name ends at the first equals sign. -/
def read (text : String) : Except AssignmentError Assignment :=
  match Text.cut? '=' text.toList with
  | none => .error (.noEquals text)
  | some ([], _) => .error (.noName text)
  | some (name, value) => .ok (String.ofList name, valueOf (String.ofList value))

end Assignment

end Deckwright
