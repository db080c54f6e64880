import Deckwright.Json.Decode

/-!
# Messages

The messages of a chat request: who speaks, and what is said.
-/

namespace Deckwright

/-- The speaker of a message. -/
inductive Role where
  | system
  | assistant
  | user
  deriving DecidableEq, Inhabited

namespace Role

/-- The name of a role. -/
def name : Role → String
  | system => "system"
  | assistant => "assistant"
  | user => "user"

/-- The role with the given name. -/
def ofName? : String → Option Role
  | "system" => some system
  | "assistant" => some assistant
  | "user" => some user
  | _ => none

theorem ofName?_name (role : Role) : ofName? role.name = some role := by
  cases role <;> rfl

end Role

/-- A message of a chat request. -/
structure Message where
  role : Role
  content : String
  deriving DecidableEq, Inhabited

namespace Message

/-- A message of the system. -/
def system (content : String) : Message := ⟨.system, content⟩

/-- A message of the assistant. -/
def assistant (content : String) : Message := ⟨.assistant, content⟩

/-- A message of the user. -/
def user (content : String) : Message := ⟨.user, content⟩

/-- The message of a role. -/
def ofRole : Role → String → Message
  | .system => system
  | .assistant => assistant
  | .user => user

/-- A message as an object. -/
def toJson (m : Message) : Json :=
  Json.ofFields [("role", .string m.role.name), ("content", .string m.content)]

/-- Reads a message. -/
def ofJson? (value : Json) : Option Message := do
  let fields ← value.record? ["role", "content"] 2
  return {
    role := ← fields.required? "role" fun role => (role.choice? Json.isNull).bind Role.ofName?
    content := ← fields.required? "content" Json.string? }

end Message

end Deckwright
