import Deckwright.Command.Options
import Deckwright.Deck.Outline
import Deckwright.Document.Reading
import Deckwright.Grader
import Deckwright.Registry.Http
import Deckwright.Telemetry.Transport

/-!
# Running commands

What each command does, given what surrounds it. A command does not write files: what it wants
to have written is part of its result. Only bringing a deck to the registry sends requests.

Rendering and grading need the settings before they read the document, and the document before
they look at the values for its context variables. The registry is reached only if the settings
say so, which is checked before the document is read.
-/

namespace Deckwright

/-- What a command is surrounded by. -/
structure Surroundings (σ : Type) where
  environment : String → Option String
  disk : Disk
  /-- The way to send requests. -/
  transport : Registry.Transport σ

/-- What a command leaves behind: the text that it prints, and a file to write. -/
structure Output where
  text : String
  /-- The path and the text of the file. -/
  file : Option (String × String) := none
  deriving DecidableEq, Inhabited

namespace Output

/-- Prints a text as lines of its own. -/
def line (text : String) : Output :=
  { text := text ++ "\n" }

/-- Prints a value over several lines. -/
def json (value : Json) : Output :=
  line value.pretty

end Output

/-- A document that was read, together with its text. -/
structure LoadedDeck extends ReadDeck where
  raw : String
  deriving Inhabited

namespace Surroundings

variable {σ : Type} (s : Surroundings σ)

/-- Where the configuration file is. -/
def configPath : String :=
  Config.path (s.environment Config.homeVariable)

/-- The settings. -/
def config : Except CommandError Config :=
  (Config.load (s.disk.read s.configPath) s.environment).mapError (.config s.configPath)

/-- The document at a path. -/
def load (file : String) : Except CommandError LoadedDeck := do
  let raw ← (s.disk.read file).mapError (.unreadable file)
  let found ← (Document.load s.disk.files (Path.ofString file)).mapError .document
  return { toReadDeck := found, raw }

end Surroundings

namespace Command

/-- The names of the named samples on a line, nothing if there are none. -/
def sampleLine (samples : Ordered Sample) : String :=
  if samples.isEmpty then ""
  else "  samples: " ++ String.intercalate ", " (samples.map (·.1)) ++ "\n"

/-- The named samples by identifier, each with its fields in their declared order. -/
def samplesJson (samples : Ordered Sample) : Json :=
  .object (samples.map fun (id, s) => (id, .object s.fields))

/-- A request as it is printed: with the note for telemetry, or as the provider gets it. -/
def printedPayload (strip : Bool) (p : Payload) : Json :=
  if strip then (Telemetry.detach p).body else p.toJson

section

variable {σ : Type} (s : Surroundings σ)

/-- Renders the document. -/
def runRender (file : String) (args : RenderArgs) : Except CommandError Output := do
  let config ← s.config
  let loaded ← s.load file
  let options ← (args.options config loaded.deck).mapError .context
  return .json (printedPayload args.stripMetadata (loaded.deck.render options))

/-- Renders the request for a grade. -/
def runGrade (file : String) (args : GradeArgs) : Except CommandError Output := do
  let config ← s.config
  let loaded ← s.load file
  return .json (loaded.deck.renderExchange args.user args.response (args.options config)).toJson

/-- Outlines the deck. -/
def runInspect (file : String) : Except CommandError Output := do
  let loaded ← s.load file
  return { text := loaded.deck.outline ++ sampleLine loaded.samples }

/-- Lists the named samples. -/
def runSamples (file : String) : Except CommandError Output := do
  let loaded ← s.load file
  return .json (samplesJson loaded.samples)

/-- The document of a deck, as far as the settings allow to bring it to the registry. -/
def syncUpload (file : String) : Except CommandError (Config × Upload) := do
  let config ← s.config
  if config.registry.enabled then
    let loaded ← s.load file
    return (config, .ofDeck loaded.deck loaded.raw)
  else throw (.registryDisabled s.configPath)

/-- Brings the deck to the registry. -/
def runSync (file : String) (state : σ) : Except CommandError Output × σ :=
  match syncUpload s file with
  | .error e => (.error e, state)
  | .ok (config, upload) =>
    match Registry.Http.ofConfig config.registry with
    | .error e => (.error (.registry e), state)
    | .ok http =>
      match (http.registry s.transport).sync upload {} state with
      | (.ok outcome, _, state) => (.ok (.line (upload.deckId ++ ": " ++ outcome.name)), state)
      | (.error e, _, state) => (.error (.registry e), state)

/-- Prints the settings. -/
def runShowConfig : Except CommandError Output := do
  let config ← s.config
  return .line config.toToml

/-- Prints where the configuration file is. -/
def runConfigPath : Except CommandError Output :=
  .ok (.line s.configPath)

/-- Has a configuration file written. -/
def runInitConfig (force : Bool) : Except CommandError Output :=
  if s.disk.has s.configPath && !force then .error (.configExists s.configPath)
  else
    .ok { text := "Wrote " ++ s.configPath ++ "\n"
          file := some (s.configPath, Config.toToml {}) }

/-- Runs a command. -/
def run (command : Command) (state : σ) : Except CommandError Output × σ :=
  match command with
  | .render file args => (runRender s file args, state)
  | .grade file args => (runGrade s file args, state)
  | .inspect file => (runInspect s file, state)
  | .samples file => (runSamples s file, state)
  | .sync file => runSync s file state
  | .showConfig => (runShowConfig s, state)
  | .configPath => (runConfigPath s, state)
  | .initConfig force => (runInitConfig s force, state)

end

end Command

end Deckwright
