import Deckwright.Json.Decode

/-!
# Tools

A tool that the model may call: a name, a description and the schema of its parameters.
-/

namespace Deckwright

/-- The definition of a tool. -/
structure Tool where
  name : String
  description : String := ""
  parameters : Json := .object []
  deriving Inhabited

namespace Tool

/-- A tool as an object. -/
def toJson (tool : Tool) : Json :=
  Json.ofFields [("name", .string tool.name), ("description", .string tool.description),
    ("parameters", tool.parameters)]

/-- Reads a tool. -/
def ofJson? (value : Json) : Option Tool := do
  let fields ← value.record? ["name", "description", "parameters"] 1
  return {
    name := ← fields.required? "name" Json.string?
    description := ← fields.defaulted? "description" "" Json.string?
    parameters := ← fields.defaulted? "parameters" (.object []) Json.any? }

end Tool

end Deckwright
