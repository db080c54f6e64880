import Deckwright.Message
import Deckwright.Tool

/-!
# Requests

The body of a chat request: model, messages, parameters and tools, with any further fields
that the caller wants in it. A note on the deck that made it may be attached; it is meant
for telemetry and never for the provider of the model.

Overrides are fields that a caller sets on top of what was generated.
-/

namespace Deckwright

/-- The model of a request that names no other. -/
def defaultModel : String := "openai/gpt-4o"

/-- A tool as part of a request. -/
structure ApiTool where
  kind : String := "function"
  tool : Tool
  deriving Inhabited

/-- The note on the deck and the values that a request was made from. -/
structure Metadata where
  deckId : String
  values : Json.Fields := []
  attributes : Option Json := none
  deriving Inhabited

/-- The body of a chat request. -/
structure Payload where
  model : String
  messages : List Message
  temperature : Option Floating := none
  maxTokens : Option UInt32 := none
  tools : List ApiTool := []
  metadata : Option Metadata := none
  /-- Further fields, which are written in place of generated ones of the same name. -/
  extra : Json.Fields := []
  deriving Inhabited

/-- Fields to set in a request. -/
structure Overrides where
  model : Option String := none
  temperature : Option Floating := none
  maxTokens : Option UInt32 := none
  messages : Option (List Message) := none
  extra : Json.Fields := []
  deriving Inhabited

namespace Overrides

/-- Overrides that set the model. -/
def ofModel (model : String) : Overrides :=
  { model := some model }

/-- Whether nothing is set. -/
def isEmpty (o : Overrides) : Bool :=
  o.model.isNone && o.temperature.isNone && o.maxTokens.isNone && o.messages.isNone &&
    o.extra.isEmpty

end Overrides

namespace Payload

/-- The payload with the fields set that the overrides hold. -/
def override (p : Payload) (o : Overrides) : Payload :=
  { p with
    model := o.model.getD p.model
    temperature := o.temperature.or p.temperature
    maxTokens := o.maxTokens.or p.maxTokens
    messages := o.messages.getD p.messages
    extra := p.extra.update o.extra }

/-- The content of the first system message. -/
def systemContent? (p : Payload) : Option String :=
  (p.messages.find? fun m => m.role = .system).map (·.content)

end Payload

end Deckwright
