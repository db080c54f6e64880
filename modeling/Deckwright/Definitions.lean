import Deckwright.Context
import Deckwright.Sample
import Deckwright.Tool
import Deckwright.Toml.Reader

/-!
# Definitions

What a TOML file declares for a deck: context variables in the table `contexts`, samples in
the table `samples`, each under its name, and tools in the array `tools`. A fragment picks
one of them by name.
-/

namespace Deckwright

/-- The declarations of a TOML file, each kind in the order of the file. -/
structure Definitions where
  context : List ContextVariable := []
  samples : List Sample := []
  tools : List Tool := []
  deriving Inhabited

/-- Why a TOML file declares nothing. -/
inductive DefinitionError where
  /-- The text is no TOML, or an entry has the wrong shape. -/
  | malformed
  /-- The entry of this name is no table. -/
  | noTable (name : String)
  /-- The entry of this name is no array. -/
  | noTables (name : String)
  /-- The sample of this name has a score out of range. -/
  | scoreOutOfRange (id : String) (score : Int8)
  deriving DecidableEq, Inhabited

namespace Definitions

/-- The table under a name at the top of a file; an absent one is empty. -/
def table? (top : Toml.Entries) (name : String) : Except DefinitionError Toml.Entries :=
  match top.get? name with
  | none => .ok []
  | some (.table entries) => .ok entries
  | some _ => .error (.noTable name)

/-- The array under a name at the top of a file; an absent one is empty. -/
def array? (top : Toml.Entries) (name : String) : Except DefinitionError (List Toml) :=
  match top.get? name with
  | none => .ok []
  | some (.array items) => .ok items
  | some _ => .error (.noTables name)

/-- An entry as JSON, with dates as their text. -/
def content (value : Toml) : Json :=
  value.toJson .string

/-- No content of an alternative, written as an empty array or table. -/
def isEmptyContent : Json → Bool
  | .array [] => true
  | .object [] => true
  | _ => false

/-- The context variable declared by an entry of `contexts`. -/
def contextFrom? (name : String) (value : Toml) : Option ContextVariable := do
  let fields ← (content value).record? ["type", "question", "description", "default"] 2
  return {
    name
    kind := ← fields.required? "type" fun kind =>
      (kind.choice? isEmptyContent).bind ContextKind.ofName?
    question := ← fields.required? "question" Json.string?
    description := ← fields.optional? "description" Json.string?
    default := ← fields.optional? "default" fun value => some value.finite }

/-- The sample declared by an entry of `samples`; the name of the entry is its identifier. -/
def sample? (id : String) (value : Toml) : Except DefinitionError Sample :=
  match Sample.ofJson? (content value) with
  | none => .error .malformed
  | some s => if s.scoreInRange then .ok { s with id } else .error (.scoreOutOfRange id s.score)

/-- The tool declared by an element of `tools`. -/
def tool? (value : Toml) : Option Tool :=
  (Tool.ofJson? (content value)).map fun tool => { tool with parameters := tool.parameters.finite }

/-- A part of a file that has the right shape. -/
def shaped {α : Type} : Option α → Except DefinitionError α
  | some value => .ok value
  | none => .error .malformed

/-- The declarations of a TOML text. -/
def read? (text : String) : Except DefinitionError Definitions := do
  let top ← shaped (Toml.read? text)
  let context ← (← table? top "contexts").mapM fun (name, value) => shaped (contextFrom? name value)
  let samples ← (← table? top "samples").mapM fun (id, value) => sample? id value
  let tools ← (← array? top "tools").mapM fun value => shaped (tool? value)
  return { context, samples, tools }

/-- The declaration of the given name alone: a context variable, else a sample, else a tool. -/
def select? (name : String) (all : Definitions) : Option Definitions :=
  match all.context.find? (fun v => v.name = name) with
  | some v => some { context := [v] }
  | none =>
    match all.samples.find? (fun s => s.id = some name) with
    | some s => some { samples := [s] }
    | none => (all.tools.find? fun tool => tool.name = name).map fun tool => { tools := [tool] }

end Definitions

end Deckwright
