import Deckwright.Json.Decode

/-!
# Context variables

A context variable is a typed slot that is filled when a deck is rendered and shown as a
question and its answer. Its position is the number of sibling nodes declared before it;
as JSON it is a number of 64 bits.

A list of declarations is merged by name: the last declaration of a name counts, in the
place and at the position of the first one.
-/

namespace Deckwright

/-- The type of the values of a context variable. -/
inductive ContextKind where
  | string
  | number
  | boolean
  | object
  deriving DecidableEq, Inhabited

namespace ContextKind

/-- The name of a type. -/
def name : ContextKind → String
  | string => "string"
  | number => "number"
  | boolean => "boolean"
  | object => "object"

/-- The type with the given name. -/
def ofName? : String → Option ContextKind
  | "string" => some string
  | "number" => some number
  | "boolean" => some boolean
  | "object" => some object
  | _ => none

theorem ofName?_name (kind : ContextKind) : ofName? kind.name = some kind := by
  cases kind <;> rfl

end ContextKind

/-- A typed slot of a deck or group. -/
structure ContextVariable where
  name : String
  kind : ContextKind
  question : String
  description : Option String := none
  default : Option Json := none
  position : Nat := 0
  deriving Inhabited

namespace ContextVariable

/-- The variable declared behind the given number of sibling nodes. -/
def atPosition (v : ContextVariable) (position : Nat) : ContextVariable :=
  { v with position }

/-- A variable as an object; a position of 0 is left out. -/
def toJson (v : ContextVariable) : Json :=
  Json.ofFields
    ([("name", .string v.name), ("type", .string v.kind.name), ("question", .string v.question)] ++
      Json.field? "description" Json.string v.description ++ Json.field? "default" id v.default ++
      if v.position = 0 then [] else [("position", .int v.position)])

/-- Reads a variable; `empty` tells how a type given as an object is filled. -/
def ofJson? (empty : Json → Bool) (value : Json) : Option ContextVariable := do
  let fields ← value.record?
    ["name", "type", "question", "description", "default", "position"] 3
  return {
    name := ← fields.required? "name" Json.string?
    kind := ← fields.required? "type" fun kind => (kind.choice? empty).bind ContextKind.ofName?
    question := ← fields.required? "question" Json.string?
    description := ← fields.optional? "description" Json.string?
    default := ← fields.optional? "default" Json.any?
    position := ← fields.defaulted? "position" 0 fun value => value.uint64?.map UInt64.toNat }

end ContextVariable

/-- A list of variables with one more declaration merged into it. -/
def mergeContext : List ContextVariable → ContextVariable → List ContextVariable
  | [], v => [v]
  | w :: rest, v =>
    if w.name = v.name then { v with position := w.position } :: rest
    else w :: mergeContext rest v

end Deckwright
