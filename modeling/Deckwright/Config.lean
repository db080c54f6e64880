import Deckwright.Disk.Basic
import Deckwright.Json.Decode
import Deckwright.Request.Codec
import Deckwright.Text.Quoted
import Deckwright.Toml.Printer
import Deckwright.Toml.Reader

/-!
# Configuration

The settings that hold for every deck: the model and the temperature of requests, whether
requests carry a note for telemetry, and the registry. They come from a TOML file, whose
unknown entries are ignored, and environment variables that are not empty replace some of
them. Settings are checked twice, as the file gives them and as they are used.
-/

namespace Deckwright

/-- The settings of the remote registry. -/
structure RegistryConfig where
  enabled : Bool := false
  apiUrl : Option String := none
  apiKey : Option String := none
  deriving DecidableEq, Inhabited

/-- The settings. -/
structure Config where
  defaultModel : String := Deckwright.defaultModel
  defaultTemperature : Option Floating := none
  captureTelemetry : Bool := true
  registry : RegistryConfig := {}
  deriving DecidableEq, Inhabited

/-- A setting that is not allowed. -/
inductive ConfigProblem where
  | temperatureOutOfRange
  | blankModel
  | registryWithoutUrl
  deriving DecidableEq, Inhabited

/-- Why a configuration file gives no settings. -/
inductive ConfigError where
  /-- There is a file, but it cannot be read. -/
  | unreadable (cause : DiskError)
  /-- The text is no TOML, or a setting has the wrong type. -/
  | malformed
  | invalid (problem : ConfigProblem)
  deriving DecidableEq, Inhabited

/-- What is wrong with a setting. -/
def ConfigProblem.message : ConfigProblem → String
  | temperatureOutOfRange => "default_temperature must be between 0.0 and 2.0"
  | blankModel => "default_model must not be empty"
  | registryWithoutUrl => "registry.api_url is required when the registry is enabled"

namespace RegistryConfig

/-- The settings of the registry as an object. -/
def toJson (r : RegistryConfig) : Json :=
  Json.ofFields ([("enabled", .bool r.enabled)] ++ Json.field? "api_url" Json.string r.apiUrl ++
    Json.field? "api_key" Json.string r.apiKey)

/-- Reads the settings of the registry. -/
def ofJson? (value : Json) : Option RegistryConfig := do
  let fields ← value.record? ["enabled", "api_url", "api_key"] 0
  return {
    enabled := ← fields.defaulted? "enabled" false Json.bool?
    apiUrl := ← fields.optional? "api_url" Json.string?
    apiKey := ← fields.optional? "api_key" Json.string? }

end RegistryConfig

namespace Config

/-! ## Encoding -/

/-- The settings as an object. -/
def toJson (c : Config) : Json :=
  Json.ofFields ([("default_model", .string c.defaultModel)] ++
    Json.field? "default_temperature" temperatureToJson c.defaultTemperature ++
    [("capture_telemetry", .bool c.captureTelemetry), ("registry", c.registry.toJson)])

/-- Reads the settings. -/
def ofJson? (value : Json) : Option Config := do
  let fields ← value.record?
    ["default_model", "default_temperature", "capture_telemetry", "registry"] 0
  return {
    defaultModel := ← fields.defaulted? "default_model" Deckwright.defaultModel Json.string?
    defaultTemperature := ← fields.optional? "default_temperature" Json.single?
    captureTelemetry := ← fields.defaulted? "capture_telemetry" true Json.bool?
    registry := ← fields.defaulted? "registry" {} RegistryConfig.ofJson? }

/-- A date as a setting: a record without any of the fields that settings have. -/
def dateSetting (text : String) : Json :=
  .object [("$__toml_private_datetime", .string text)]

/-- A setting on a line of its own. -/
def settingLine (name : String) (value : List Char) : String :=
  name ++ " = " ++ String.ofList value ++ "\n"

/-- A truth value as text. -/
def boolText (b : Bool) : String :=
  if b then "true" else "false"

/-- A setting that is written only if it has a value. -/
def settingLine? {α : Type} (name : String) (text : α → List Char) : Option α → String
  | some value => settingLine name (text value)
  | none => ""

/-- A string as the value of a setting. -/
def tomlString (s : String) : List Char :=
  Toml.stringText s.toList

/-- The settings as the text of a configuration file. -/
def toToml (c : Config) : String :=
  settingLine "default_model" (tomlString c.defaultModel) ++
    settingLine? "default_temperature"
      (fun t => Toml.floatText (t.convert .double)) c.defaultTemperature ++
    settingLine "capture_telemetry" (boolText c.captureTelemetry).toList ++
    "\n[registry]\n" ++
    settingLine "enabled" (boolText c.registry.enabled).toList ++
    settingLine? "api_url" tomlString c.registry.apiUrl ++
    settingLine? "api_key" tomlString c.registry.apiKey

/-! ## Display -/

/-- A number of the 32-bit format for display: positional for decimal exponents from -4 to 15. -/
def shownFloat : Floating → String
  | .finite negative mantissa exponent =>
    let (digits, power) := Floating.shortest .single mantissa exponent
    let lead : Int := power + ((Floating.digitsOf digits).length : Int) - 1
    String.ofList (Floating.sign negative ++
      if digits = 0 || -4 ≤ lead && lead < 16 then Floating.positional digits power true
      else Floating.scientific digits power false)
  | .infinite negative => if negative then "-inf" else "inf"
  | .undefined => "NaN"

/-- An optional value for display. -/
def shownOption {α : Type} (text : α → String) : Option α → String
  | some value => "Some(" ++ text value ++ ")"
  | none => "None"

/-- What stands for a secret when it is displayed. -/
def redacted : String := "[REDACTED]"

/-- The settings for display, with the key of the registry hidden. -/
def shown (c : Config) : String :=
  "AppConfig \x7b default_model: " ++ Text.quoted c.defaultModel ++
    ", default_temperature: " ++ shownOption shownFloat c.defaultTemperature ++
    ", capture_telemetry: " ++ boolText c.captureTelemetry ++
    ", registry: RegistryConfig \x7b enabled: " ++ boolText c.registry.enabled ++
    ", api_url: " ++ shownOption Text.quoted c.registry.apiUrl ++
    ", api_key: " ++ Text.quoted (if c.registry.apiKey.isSome then redacted else "None") ++
    " \x7d \x7d"

/-! ## Loading -/

/-- The first setting that is not allowed. -/
def problem? (c : Config) : Option ConfigProblem :=
  if c.defaultTemperature.any fun t => !t.isBetweenZeroAnd 2 then some .temperatureOutOfRange
  else if blank c.defaultModel then some .blankModel
  else if c.registry.enabled && c.registry.apiUrl.isNone then some .registryWithoutUrl
  else none

/-- The settings, if they are allowed. -/
def validate (c : Config) : Except ConfigError Config :=
  match c.problem? with
  | some problem => .error (.invalid problem)
  | none => .ok c

/-- The settings that a configuration file gives, checked. -/
def ofToml (text : String) : Except ConfigError Config :=
  match Toml.read? text with
  | none => .error .malformed
  | some entries =>
    match ofJson? ((Toml.table entries).toJson dateSetting) with
    | none => .error .malformed
    | some c => c.validate

/-- The settings of the configuration file, or the default ones if there is no file. -/
def ofFile : Except DiskError String → Except ConfigError Config
  | .ok text => ofToml text
  | .error cause => if cause.isAbsence then .ok {} else .error (.unreadable cause)

/-- The variable that replaces the model. -/
def modelVariable : String := "PROMPTDECK_MODEL"

/-- The variable that replaces the address of the registry. -/
def urlVariable : String := "PROMPTDECK_REGISTRY_URL"

/-- The variable that replaces the key of the registry. -/
def keyVariable : String := "PROMPTDECK_API_KEY"

/-- The value of an environment variable, unless it is empty. -/
def setting? (environment : String → Option String) (name : String) : Option String :=
  (environment name).filter fun value => !value.isEmpty

/-- The settings with those replaced that the environment gives. -/
def withEnvironment (environment : String → Option String) (c : Config) : Config :=
  { c with
    defaultModel := (setting? environment modelVariable).getD c.defaultModel
    registry :=
      { c.registry with
        apiUrl := (setting? environment urlVariable).or c.registry.apiUrl
        apiKey := (setting? environment keyVariable).or c.registry.apiKey } }

/-- The settings to use: those of the file, then of the environment, checked after each. -/
def load (file : Except DiskError String) (environment : String → Option String) :
    Except ConfigError Config :=
  match ofFile file with
  | .ok c => (c.withEnvironment environment).validate
  | .error error => .error error

/-! ## Where the file is -/

/-- The variable that holds the home directory. -/
def homeVariable : String := "HOME"

/-- A name inside a directory. -/
def inside (directory name : String) : String :=
  if directory.isEmpty || directory.toList.getLast? == some '/' then directory ++ name
  else directory ++ "/" ++ name

/-- The directory of the configuration file, below the home directory. -/
def directory (home : Option String) : String :=
  inside (home.getD "/tmp") ".promptdeck"

/-- The path of the configuration file. -/
def path (home : Option String) : String :=
  inside (directory home) "config.toml"

end Config

end Deckwright
