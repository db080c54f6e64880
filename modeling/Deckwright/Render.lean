import Deckwright.Config
import Deckwright.Deck.Scopes
import Deckwright.Json.Printer
import Deckwright.SystemText

/-!
# Rendering

A deck rendered as a request: the system text, then for every context variable that has a
value the question as the assistant's and the value as the user's message, then the tools,
and over all of it the caller's overrides.
-/

namespace Deckwright

/-- A value as the text of a message: a string as it is, anything else as JSON. -/
def Json.messageText : Json → String
  | .string s => s
  | value => value.compact

/-- The messages of one variable: its question and its value, none if the value is absent or `null`. -/
def ContextVariable.messages (values : Json.Fields) (v : ContextVariable) : List Message :=
  match values.get? v.name with
  | none => []
  | some value =>
    if value.isNull then [] else [.assistant v.question, .user value.messageText]

/-- The messages of the variables of a deck that have a value, in the order of the variables. -/
def Deck.contextMessages (d : Deck) (values : Json.Fields) : List Message :=
  d.allContext.flatMap (ContextVariable.messages values)

/-- What a rendering is given besides the deck. -/
structure RenderOptions where
  /-- The values of context variables. -/
  context : Json.Fields := []
  /-- The identifiers of the samples asked for. -/
  renderedSamples : List String := []
  /-- Attributes of the note for telemetry. -/
  attributes : Option Json := none
  captureTelemetry : Bool := true
  defaultModel : String := Deckwright.defaultModel
  temperature : Option Floating := none
  overrides : Overrides := {}
  deriving Inhabited

namespace RenderOptions

/-- The options that the settings give. -/
def ofConfig (c : Config) : RenderOptions :=
  { captureTelemetry := c.captureTelemetry
    defaultModel := c.defaultModel
    temperature := c.defaultTemperature }

/-- The options with a value for one more variable. -/
def withContext (name : String) (value : Json) (options : RenderOptions) : RenderOptions :=
  { options with context := options.context.insert name value }

end RenderOptions

/-- The note on a rendering. -/
def Deck.metadata (d : Deck) (options : RenderOptions) : Metadata :=
  { deckId := d.name, values := options.context, attributes := options.attributes }

/-- The request that a deck makes. -/
def Deck.render (d : Deck) (options : RenderOptions) : Payload :=
  let generated : Payload :=
    { model := options.defaultModel
      messages :=
        .system (d.systemText options.renderedSamples) :: d.contextMessages options.context
      temperature := options.temperature
      tools := d.tools.map fun tool => { tool } }
  { generated.override options.overrides with
    metadata := if options.captureTelemetry then some (d.metadata options) else none }

end Deckwright
