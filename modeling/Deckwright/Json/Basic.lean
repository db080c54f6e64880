import Deckwright.Number.Floating
import Deckwright.Ordered

/-!
# JSON values

The values that decks carry as data: defaults, parameters, attributes, extra fields.
The fields of an object are kept in the order of their names by code point, each name
once; `Ordered.insert` and `Ordered.ofList` keep that order.
-/

namespace Deckwright

/-- A JSON value. Numbers are integers of 64 bits or floating-point numbers. -/
inductive Json where
  | null
  | bool (b : Bool)
  | int (i : Int)
  | float (x : Floating)
  | string (s : String)
  | array (items : List Json)
  | object (fields : List (String × Json))
  deriving Inhabited

namespace Json

/-- The fields of an object. -/
abbrev Fields := Ordered Json

/-- Whether the value is `null`. -/
def isNull : Json → Bool
  | .null => true
  | _ => false

/-- The fields of an object. -/
def fields? : Json → Option Fields
  | .object fields => some fields
  | _ => none

/-- The object with the given fields, listed in any order. -/
def ofFields (fields : List (String × Json)) : Json :=
  .object (Ordered.ofList fields)

/-- A field that is written only if it has a value. -/
def field? {α : Type} (name : String) (encode : α → Json) : Option α → List (String × Json)
  | some value => [(name, encode value)]
  | none => []

/-- An optional value, written as `null` when it is absent. -/
def ofOption {α : Type} (encode : α → Json) : Option α → Json
  | some value => encode value
  | none => .null

mutual

/-- The value with every number that is not finite replaced by `null`. -/
def finite : Json → Json
  | .float x => if x.isFinite then .float x else .null
  | .array items => .array (finiteItems items)
  | .object fields => .object (finiteFields fields)
  | other => other

/-- `finite` on each item. -/
def finiteItems : List Json → List Json
  | [] => []
  | item :: rest => finite item :: finiteItems rest

/-- `finite` on the value of each field. -/
def finiteFields : List (String × Json) → List (String × Json)
  | [] => []
  | (name, value) :: rest => (name, finite value) :: finiteFields rest

end

end Json

end Deckwright
