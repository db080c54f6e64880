import Deckwright.Json.Basic

/-!
# TOML values

The values of a TOML document. Tables keep the order of the document. A date or time is
kept as its text in the normal form of RFC 3339.
-/

namespace Deckwright

/-- A TOML value. -/
inductive Toml where
  | string (s : String)
  | integer (i : Int)
  | float (x : Floating)
  | boolean (b : Bool)
  | datetime (text : String)
  | array (items : List Toml)
  | table (entries : List (String × Toml))
  deriving Inhabited

namespace Toml

/-- The entries of a table, in document order. -/
abbrev Entries := List (String × Toml)

/-- The entry of a table with the given name. -/
def Entries.get? (name : String) (entries : Entries) : Option Toml :=
  entries.lookup name

mutual

/-- The value as JSON; `date` is what a date becomes. -/
def toJson (date : String → Json) : Toml → Json
  | .string s => .string s
  | .integer i => .int i
  | .float x => .float x
  | .boolean b => .bool b
  | .datetime text => date text
  | .array items => .array (toJsonAll date items)
  | .table entries => Json.ofFields (toJsonEntries date entries)

/-- The items of an array as JSON. -/
def toJsonAll (date : String → Json) : List Toml → List Json
  | [] => []
  | item :: rest => toJson date item :: toJsonAll date rest

/-- The entries of a table as JSON. -/
def toJsonEntries (date : String → Json) : List (String × Toml) → List (String × Json)
  | [] => []
  | (name, value) :: rest => (name, toJson date value) :: toJsonEntries date rest

end

end Toml

end Deckwright
