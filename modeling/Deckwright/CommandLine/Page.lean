import Deckwright.Text.Lines

/-!
# Pages

A command line is a path of words through pages: the program, a command, an action of a command.
A page says what may be written at its place: options, an operand, or the name of a further
page. Options and operands change a value of the page's own type, in which the arguments are
collected. The same page gives the rules for reading and the text of the help.
-/

namespace Deckwright.CommandLine

/-- What an option does with the arguments so far. -/
inductive Action (α : Type) where
  /-- Stands alone. -/
  | flag (set : α → α)
  /-- Takes a value, shown under a name; without a result the value is refused. -/
  | value (name : String) (set : String → α → Option α)
  /-- Asks for the help of the page. -/
  | help
  /-- Asks for the version of the program. -/
  | version

/-- An option: two hyphens and a long name, or a hyphen and a letter. -/
structure Choice (α : Type) where
  short : Option Char := none
  long : String
  about : String
  required : Bool := false
  /-- Whether it may be given more than once. -/
  repeatable : Bool := false
  action : Action α

/-- An argument that stands by itself. -/
structure Operand (α : Type) where
  label : String
  about : String
  set : String → α → Option α

/-- What may be written at one place of a command line. -/
structure Page (α : Type) where
  /-- The words that lead to the page. -/
  path : List String
  about : String
  operand : Option (Operand α) := none
  choices : List (Choice α) := []
  /-- The names of the pages behind this one, each with what it is about. -/
  commands : List (String × String) := []

/-! ## Options of every page -/

/-- The option that asks for help. -/
def helpChoice {α : Type} : Choice α :=
  { short := some 'h', long := "help", about := "Print help", action := .help }

/-- The option that asks for the version. -/
def versionChoice {α : Type} : Choice α :=
  { short := some 'V', long := "version", about := "Print version", action := .version }

/-- The option for a more detailed log, which is kept apart from what commands print. -/
def verboseChoice {α : Type} : Choice α :=
  { short := some 'v', long := "verbose", about := "Enable verbose logging", action := .flag id }

/-- The command that asks for help, with what it is about. -/
def helpCommand : String × String :=
  ("help", "Print this message or the help of the given subcommand(s)")

namespace Page

variable {α : Type}

/-- Whether a word leads to another page. -/
def leadsOn (page : Page α) (word : String) : Bool :=
  page.commands.any fun command => command.1 == word

/-- The option with a letter. -/
def short? (page : Page α) (letter : Char) : Option (Choice α) :=
  page.choices.find? fun choice => choice.short == some letter

/-- The option with a long name. -/
def long? (page : Page α) (name : String) : Option (Choice α) :=
  page.choices.find? fun choice => choice.long == name

end Page

end Deckwright.CommandLine
