import Deckwright.Command.Assignment
import Deckwright.Config
import Deckwright.Document.Expansion
import Deckwright.Registry.Basic

/-!
# Commands

What the program can be asked to do, with the arguments of each command, and the ways in which
commands fail.
-/

namespace Deckwright

/-- What the rendering of a document is given besides the document. -/
structure RenderArgs where
  /-- Values for context variables; of two with one name the later one counts. -/
  assignments : List Assignment := []
  /-- A JSON object with values for context variables. -/
  contextJson : Option String := none
  /-- The identifiers of the samples asked for. -/
  samples : List String := []
  model : Option String := none
  /-- Leaves out the note for telemetry. -/
  noTelemetry : Bool := false
  /-- Gives variables without a value their defaults. -/
  useDefaults : Bool := false
  /-- Prints what goes to the provider of the model. -/
  stripMetadata : Bool := false
  deriving Inhabited

/-- What the grading of an exchange is given besides the document. -/
structure GradeArgs where
  user : String
  response : String
  model : Option String := none
  deriving DecidableEq, Inhabited

/-- A command; `file` is the path of a document. -/
inductive Command where
  /-- Prints the request that the document makes. -/
  | render (file : String) (args : RenderArgs)
  /-- Prints the request for the grade of an exchange. -/
  | grade (file : String) (args : GradeArgs)
  /-- Prints the outline of the deck. -/
  | inspect (file : String)
  /-- Prints the named samples. -/
  | samples (file : String)
  /-- Brings the deck to the registry. -/
  | sync (file : String)
  /-- Prints the settings. -/
  | showConfig
  /-- Prints where the configuration file is. -/
  | configPath
  /-- Writes a configuration file with the default settings. -/
  | initConfig (force : Bool)
  deriving Inhabited

/-- The path of the document that a command works on. -/
def Command.document? : Command → Option String
  | .render file _ => some file
  | .grade file _ => some file
  | .inspect file => some file
  | .samples file => some file
  | .sync file => some file
  | _ => none

/-- Why values for context variables cannot be used. -/
inductive ContextError where
  /-- The text is no JSON. -/
  | malformed
  /-- The text is JSON, but no object. -/
  | notObject
  deriving DecidableEq, Inhabited

/-- Why a command fails. -/
inductive CommandError where
  /-- There are no settings in the file at `path`. -/
  | config (path : String) (error : ConfigError)
  /-- The document cannot be read. -/
  | unreadable (file : String) (cause : DiskError)
  | document (error : DocumentError)
  | context (error : ContextError)
  /-- The settings in the file at `path` do not allow to reach the registry. -/
  | registryDisabled (path : String)
  | registry (error : RegistryError)
  /-- A configuration file is there already. -/
  | configExists (path : String)
  /-- The configuration file cannot be written. -/
  | unwritable (cause : DiskError)
  deriving Inhabited

/-- What is wrong with values for context variables. -/
def ContextError.message : ContextError → String
  | malformed => "--context-json must be JSON"
  | notObject => "--context-json must be a JSON object"

/-- What is wrong with the settings in the file at `path`; `cause` writes the reason of the system. -/
def ConfigError.messageAt (path : String) (cause : DiskError → String) : ConfigError → String
  | unreadable e => "Failed to read config file at " ++ path ++ cause e
  | malformed => "Failed to parse config file at " ++ path
  | invalid problem => "Configuration validation failed: " ++ problem.message

namespace CommandError

/-- The text of an error; `cause` writes the reason why the system cannot read a file. -/
def messageWith (cause : DiskError → String) : CommandError → String
  | config path e => "Failed to load config: " ++ e.messageAt path cause
  | unreadable file e => "Failed to read " ++ file ++ cause e
  | document e => e.message
  | context e => e.message
  | registryDisabled path =>
    "Registry sync is disabled; set registry.enabled = true in " ++ path
  | registry e => e.message
  | configExists path => path ++ " already exists (use --force to overwrite)"
  | unwritable e => e.message

/-- The text of an error. -/
def message (e : CommandError) : String :=
  e.messageWith fun cause => ": " ++ cause.message

/-- The text of an error without the reason of the system, as far as that has a number. -/
def summary (e : CommandError) : String :=
  e.messageWith fun cause => if cause.number?.isSome then "" else ": " ++ cause.message

end CommandError

end Deckwright
