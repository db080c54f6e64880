import Deckwright.Command.Basic
import Deckwright.CommandLine.Scan

/-!
# Reading command lines

The pages of the program and the commands that they lead to.
-/

namespace Deckwright.CommandLine

/-- The name of the program. -/
def programName : String := "promptdeck"

/-- The version of the program. -/
def versionNumber : String := "0.1.0"

/-- The answer to the question for the version. -/
def versionText : String :=
  programName ++ " " ++ versionNumber ++ "\n"

/-- The options of a page, behind which come those of every page. -/
def withCommon {α : Type} (choices : List (Choice α)) : List (Choice α) :=
  choices ++ [verboseChoice, helpChoice]

/-- The operand for the path of a document. -/
def fileOperand {α : Type} (set : String → α → α) : Operand α :=
  { label := "<FILE>", about := "Markdown deck file", set := fun text given => some (set text given) }

/-- The option for the model. -/
def modelChoice {α : Type} (set : String → α → α) : Choice α :=
  { short := some 'm', long := "model", about := "Override the model"
    action := .value "MODEL" fun text given => some (set text given) }

/-! ## Pages with arguments -/

/-- The arguments for rendering. -/
structure RenderWords where
  file : Option String := none
  args : RenderArgs := {}

namespace RenderWords

/-- One more assignment, which has to be one. -/
def addAssignment (text : String) (words : RenderWords) : Option RenderWords :=
  match Assignment.read text with
  | .ok assignment =>
    some { words with
      args := { words.args with assignments := words.args.assignments ++ [assignment] } }
  | .error _ => none

/-- One more identifier of a sample. -/
def addSample (id : String) (words : RenderWords) : Option RenderWords :=
  some { words with args := { words.args with samples := words.args.samples ++ [id] } }

/-- The JSON object with values for context variables. -/
def setContextJson (text : String) (words : RenderWords) : Option RenderWords :=
  some { words with args := { words.args with contextJson := some text } }

/-- An option without a value. -/
def flag (set : RenderArgs → RenderArgs) : Action RenderWords :=
  .flag fun words => { words with args := set words.args }

/-- The options for rendering. -/
def choices : List (Choice RenderWords) :=
  [{ short := some 'c', long := "context", about := "Context value as key=value (repeatable)"
     repeatable := true, action := .value "CONTEXT" addAssignment },
    { long := "context-json", about := "Context values as a JSON object"
      action := .value "CONTEXT_JSON" setContextJson },
    { short := some 's', long := "sample"
      about := "Include a footnote-referenced sample by id (repeatable)"
      repeatable := true, action := .value "SAMPLES" addSample },
    modelChoice fun text words => { words with args := { words.args with model := some text } },
    { long := "no-telemetry", about := "Do not attach bfMetadata"
      action := flag fun args => { args with noTelemetry := true } },
    { long := "use-defaults", about := "Fill missing context values from declared defaults"
      action := flag fun args => { args with useDefaults := true } },
    { long := "strip-metadata", about := "Print the provider body with bfMetadata removed"
      action := flag fun args => { args with stripMetadata := true } }]

/-- The command, if there is a file. -/
def command? (words : RenderWords) : Option Command :=
  words.file.map fun file => .render file words.args

end RenderWords

/-- The arguments for grading. -/
structure GradeWords where
  file : Option String := none
  user : Option String := none
  response : Option String := none
  model : Option String := none

namespace GradeWords

/-- The options for grading. -/
def choices : List (Choice GradeWords) :=
  [{ short := some 'u', long := "user", about := "The user message of the exchange"
     required := true, action := .value "USER" fun text words => some { words with user := some text } },
    { short := some 'r', long := "response", about := "The assistant response to grade"
      required := true
      action := .value "RESPONSE" fun text words => some { words with response := some text } },
    modelChoice fun text words => { words with model := some text }]

/-- The command, if there are a file and both sides of an exchange. -/
def command? (words : GradeWords) : Option Command := do
  return .grade (← words.file)
    { user := ← words.user, response := ← words.response, model := words.model }

end GradeWords

/-! ## The pages -/

/-- Rendering. -/
def renderPage : Page RenderWords where
  path := [programName, "render"]
  about := "Render a deck into an OpenAI-compatible request (JSON on stdout)"
  operand := some (fileOperand fun file words => { words with file := some file })
  choices := withCommon RenderWords.choices

/-- Grading. -/
def gradePage : Page GradeWords where
  path := [programName, "grade"]
  about := "Render a request that grades one exchange against the deck"
  operand := some (fileOperand fun file words => { words with file := some file })
  choices := withCommon GradeWords.choices

/-- A command that takes a document and nothing else. -/
def documentPage (name about : String) : Page (Option String) where
  path := [programName, name]
  about
  operand := some (fileOperand fun file _ => some file)
  choices := withCommon []

/-- Outlines. -/
def inspectPage : Page (Option String) :=
  documentPage "inspect" "Print the deck tree"

/-- Named samples. -/
def samplesPage : Page (Option String) :=
  documentPage "samples" "Print named samples from the deck's TOML embeds as JSON"

/-- The registry. -/
def syncPage : Page (Option String) :=
  documentPage "sync" "Create or update the deck in the remote registry"

/-- Printing the settings. -/
def showPage : Page Unit where
  path := [programName, "config", "show"]
  about := "Print the effective configuration"
  choices := withCommon []

/-- Printing where the configuration file is. -/
def pathPage : Page Unit where
  path := [programName, "config", "path"]
  about := "Print the configuration file path"
  choices := withCommon []

/-- Writing a configuration file; the argument is whether it may take the place of another one. -/
def initPage : Page Bool where
  path := [programName, "config", "init"]
  about := "Write a default configuration file"
  choices := withCommon
    [{ long := "force", about := "Overwrite an existing file", action := .flag fun _ => true }]

/-- A page as a command of another page. -/
def Page.listed {α : Type} (page : Page α) : String × String :=
  (page.path.getLast?.getD "", page.about)

/-- The actions on the configuration. -/
def configPage : Page Unit where
  path := [programName, "config"]
  about := "Configuration management"
  choices := withCommon []
  commands := [showPage.listed, pathPage.listed, initPage.listed, helpCommand]

/-- The program. -/
def rootPage : Page Unit where
  path := [programName]
  about := "PromptDeck: markdown prompt decks rendered as chat requests"
  choices := withCommon [] ++ [versionChoice]
  commands :=
    [renderPage.listed, inspectPage.listed, samplesPage.listed, gradePage.listed, syncPage.listed,
      configPage.listed, helpCommand]

/-- The command that asks for help, of the page with a path. -/
def helpPage (path : List String) : Page Unit where
  path := path ++ [helpCommand.1]
  about := helpCommand.2
  operand := some
    { label := "[COMMAND]...", about := "Print help for the subcommand(s)", set := fun _ _ => none }

/-- The help of the page that words lead to. -/
def helpAt : List String → Stop
  | [] => .help rootPage.help
  | ["render"] => .help renderPage.help
  | ["inspect"] => .help inspectPage.help
  | ["samples"] => .help samplesPage.help
  | ["grade"] => .help gradePage.help
  | ["sync"] => .help syncPage.help
  | ["config"] => .help configPage.help
  | ["config", "show"] => .help showPage.help
  | ["config", "path"] => .help pathPage.help
  | ["config", "init"] => .help initPage.help
  | ["config", "help"] => .help (helpPage configPage.path).help
  | ["help"] => .help (helpPage rootPage.path).help
  | _ => .usage

/-! ## Reading -/

/-- A command that all its arguments are there for. -/
def complete : Option Command → Except Stop Command
  | some command => .ok command
  | none => .error .usage

/-- Reads the words behind the name of an action on the configuration. -/
def readConfig (name : String) (words : List String) : Except Stop Command :=
  match name with
  | "show" => (showPage.arguments () words).map fun _ => .showConfig
  | "path" => (pathPage.arguments () words).map fun _ => .configPath
  | "init" => (initPage.arguments false words).map .initConfig
  | "help" => .error (helpAt ("config" :: words))
  | _ => .error .usage

/-- Reads the words behind the name of a command. -/
def readCommand (name : String) (words : List String) : Except Stop Command :=
  match name with
  | "render" => (renderPage.arguments {} words).bind fun given => complete given.command?
  | "inspect" => (inspectPage.arguments none words).bind fun file => complete (file.map .inspect)
  | "samples" => (samplesPage.arguments none words).bind fun file => complete (file.map .samples)
  | "grade" => (gradePage.arguments {} words).bind fun given => complete given.command?
  | "sync" => (syncPage.arguments none words).bind fun file => complete (file.map .sync)
  | "config" =>
    match configPage.scan { value := () } words with
    | .ok (_, some (name, words)) => readConfig name words
    | .ok (_, none) => .error .usage
    | .error stop => .error stop
  | "help" => .error (helpAt words)
  | _ => .error .usage

/-- Reads the words behind the name of the program. -/
def read (words : List String) : Except Stop Command :=
  match rootPage.scan { value := () } words with
  | .ok (_, some (name, words)) => readCommand name words
  | .ok (_, none) => .error .usage
  | .error stop => .error stop

end Deckwright.CommandLine
