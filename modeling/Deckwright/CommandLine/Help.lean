import Deckwright.CommandLine.Page

/-!
# Help

The help of a page: what it is about, how it is used, and a section each for its commands, its
operand and its options, in which what things are about stands in a column.
-/

namespace Deckwright.CommandLine

/-- The long name of an option, with the name of its value. -/
def Choice.label {α : Type} (choice : Choice α) : String :=
  "--" ++ choice.long ++
    match choice.action with
    | .value name _ => " <" ++ name ++ ">"
    | _ => ""

/-- An option in a list of options, in which long names stand below each other. -/
def Choice.entry {α : Type} (choice : Choice α) : String × String :=
  ((match choice.short with
    | some letter => String.ofList ['-', letter, ',', ' ']
    | none => "    ") ++ choice.label, choice.about)

/-- Whether an option asks for a text instead of a command. -/
def Choice.isQuestion {α : Type} (choice : Choice α) : Bool :=
  match choice.action with
  | .help => true
  | .version => true
  | _ => false

/-- The width of the first column of a section. -/
def columnWidth (entries : List (String × String)) : Nat :=
  (entries.map fun entry => entry.1.length).foldl max 0

/-- A line of a section whose first column has a width. -/
def entryLine (width : Nat) (entry : String × String) : String :=
  "  " ++ entry.1 ++ String.ofList (List.replicate (width + 2 - entry.1.length) ' ') ++ entry.2

/-- A section with a line for each entry, none without entries. -/
def helpSection (title : String) (entries : List (String × String)) : List String :=
  if entries.isEmpty then []
  else [String.intercalate "\n" ((title ++ ":") :: entries.map (entryLine (columnWidth entries)))]

namespace Page

variable {α : Type} (page : Page α)

/-- How a page is used: the words that lead to it, and what may follow. -/
def usage : String :=
  String.intercalate " "
    (page.path ++
      (if page.choices.any fun choice => !choice.required && !choice.isQuestion then ["[OPTIONS]"]
      else []) ++
      (page.choices.filter (·.required)).map Choice.label ++
      (page.operand.map (·.label)).toList ++
      if page.commands.isEmpty then [] else ["<COMMAND>"])

/-- The text of the help. -/
def help : String :=
  String.intercalate "\n\n"
    ([page.about, "Usage: " ++ page.usage] ++ helpSection "Commands" page.commands ++
      helpSection "Arguments" (page.operand.map fun o => (o.label, o.about)).toList ++
      helpSection "Options" (page.choices.map Choice.entry)) ++ "\n"

end Page

end Deckwright.CommandLine
