import Deckwright.Deck.Codec
import Deckwright.Request.Basic

/-!
# Requests as JSON

A payload is an object of its own fields and the further ones. Fields without a value are
left out, and so are empty tools. Where a further field has the name of a generated one, the
further field is written. A temperature has 32 bits and is written with all their digits; one
that is not finite is written `null`.
-/

namespace Deckwright

namespace ApiTool

/-- A tool of a request as an object. -/
def toJson (t : ApiTool) : Json :=
  Json.ofFields [("type", .string t.kind), ("function", t.tool.toJson)]

/-- Reads a tool of a request. -/
def ofJson? (value : Json) : Option ApiTool := do
  let fields ← value.record? ["type", "function"] 2
  return {
    kind := ← fields.required? "type" Json.string?
    tool := ← fields.required? "function" Tool.ofJson? }

end ApiTool

namespace Metadata

/-- A note as an object; absent attributes are left out. -/
def toJson (m : Metadata) : Json :=
  Json.ofFields ([("deckId", .string m.deckId), ("contextVariables", .object m.values)] ++
    Json.field? "attributes" id m.attributes)

/-- Reads a note. -/
def ofJson? (value : Json) : Option Metadata := do
  let fields ← value.record? ["deckId", "contextVariables", "attributes"] 1
  return {
    deckId := ← fields.required? "deckId" Json.string?
    values := ← fields.defaulted? "contextVariables" [] Json.fields?
    attributes := ← fields.optional? "attributes" Json.any? }

end Metadata

/-- A temperature as a number. -/
def temperatureToJson (temperature : Floating) : Json :=
  Json.finite (.float (temperature.convert .double))

/-- A limit on tokens as a number. -/
def tokensToJson (tokens : UInt32) : Json :=
  .int tokens.toNat

/-- Messages as an array. -/
def messagesToJson (messages : List Message) : Json :=
  .array (messages.map Message.toJson)

/-- The fields of an object other than those of the given names. -/
def otherFields (names : List String) (fields : Json.Fields) : Json.Fields :=
  fields.filter fun field => !names.contains field.1

namespace Payload

/-- The names of the fields that a payload has of its own. -/
def ownNames : List String :=
  ["model", "messages", "temperature", "max_tokens", "tools", "bfMetadata"]

/-- The fields of a payload other than the further ones. -/
def ownFields (p : Payload) : List (String × Json) :=
  [("model", .string p.model), ("messages", messagesToJson p.messages)] ++
    Json.field? "temperature" temperatureToJson p.temperature ++
    Json.field? "max_tokens" tokensToJson p.maxTokens ++
    nonemptyField "tools" ApiTool.toJson p.tools ++
    Json.field? "bfMetadata" Metadata.toJson p.metadata

/-- The fields of a payload as they are written. -/
def fields (p : Payload) : Json.Fields :=
  (Ordered.ofList p.ownFields).update p.extra

/-- A payload as an object. -/
def toJson (p : Payload) : Json :=
  .object p.fields

/-- Reads a payload. -/
def ofJson? (value : Json) : Option Payload := do
  let fields ← value.fields?
  return {
    model := ← fields.required? "model" Json.string?
    messages := ← fields.required? "messages" (Json.list? Message.ofJson?)
    temperature := ← fields.optional? "temperature" Json.single?
    maxTokens := ← fields.optional? "max_tokens" Json.uint32?
    tools := ← fields.defaulted? "tools" [] (Json.list? ApiTool.ofJson?)
    metadata := ← fields.optional? "bfMetadata" Metadata.ofJson?
    extra := otherFields ownNames fields }

end Payload

namespace Overrides

/-- The names of the fields that overrides have of their own. -/
def ownNames : List String :=
  ["model", "temperature", "max_tokens", "messages"]

/-- The fields of overrides other than the further ones. -/
def ownFields (o : Overrides) : List (String × Json) :=
  Json.field? "model" Json.string o.model ++
    Json.field? "temperature" temperatureToJson o.temperature ++
    Json.field? "max_tokens" tokensToJson o.maxTokens ++
    Json.field? "messages" messagesToJson o.messages

/-- Overrides as an object. -/
def toJson (o : Overrides) : Json :=
  .object ((Ordered.ofList o.ownFields).update o.extra)

/-- Reads overrides. -/
def ofJson? (value : Json) : Option Overrides := do
  let fields ← value.fields?
  return {
    model := ← fields.optional? "model" Json.string?
    temperature := ← fields.optional? "temperature" Json.single?
    maxTokens := ← fields.optional? "max_tokens" Json.uint32?
    messages := ← fields.optional? "messages" (Json.list? Message.ofJson?)
    extra := otherFields ownNames fields }

end Overrides

end Deckwright
