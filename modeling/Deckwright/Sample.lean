import Deckwright.Json.Decode
import Deckwright.Text.Blank

/-!
# Samples

A sample is a graded example attached to a leaf: a text, or an exchange between a user
and an assistant, with a score from -3 to 3. A score of 0 makes it inert. A sample with
an identifier can be referred to by a footnote marker.
-/

namespace Deckwright

/-- A graded example. -/
structure Sample where
  id : Option String := none
  text : String
  score : Int8
  description : Option String := none
  userMessage : Option String := none
  assistantResponse : Option String := none
  deriving DecidableEq, Inhabited

namespace Sample

/-- The least and the greatest score of a sample. -/
def leastScore : Int := -3

@[inherit_doc leastScore]
def greatestScore : Int := 3

/-- Whether a score lies between the least and the greatest one. -/
def validScore (score : Int) : Bool :=
  leastScore ≤ score && score ≤ greatestScore

/-- Whether the sample's score lies between the least and the greatest one. -/
def scoreInRange (s : Sample) : Bool :=
  validScore s.score.toInt

/-- A sample with score 0 is never rendered. -/
def isInert (s : Sample) : Bool :=
  s.score == 0

/-- A part of an explanation: a trimmed text behind its label, nothing for a blank text. -/
def explanationPart (label : String) (text : Option String) : List String :=
  match text with
  | some text => if blank text then [] else [label ++ trimmed text]
  | none => []

/-- What a rendered sample says: text, user message, assistant response and description, a line each. -/
def explanation (s : Sample) : String :=
  String.intercalate "\n"
    (explanationPart "" (some s.text) ++ explanationPart "User: " s.userMessage ++
      explanationPart "Assistant: " s.assistantResponse ++ explanationPart "" s.description)

/-- The fields of a sample in their declared order; absent ones are left out. -/
def fields (s : Sample) : List (String × Json) :=
  Json.field? "id" Json.string s.id ++ [("text", .string s.text), ("score", .int s.score.toInt)] ++
    Json.field? "description" Json.string s.description ++
    Json.field? "userMessage" Json.string s.userMessage ++
    Json.field? "assistantResponse" Json.string s.assistantResponse

/-- A sample as an object. -/
def toJson (s : Sample) : Json :=
  Json.ofFields s.fields

/-- The score of a record, which may go under the name `rating` instead, but not under both. -/
def score? (fields : Json.Fields) : Option Int8 :=
  match fields.get? "score", fields.get? "rating" with
  | some score, none => score.int8?
  | none, some rating => rating.int8?
  | _, _ => none

/-- Reads a sample. -/
def ofJson? (value : Json) : Option Sample := do
  let fields ← value.record?
    ["id", "text", "score", "description", "userMessage", "assistantResponse"] 3
  return {
    id := ← fields.optional? "id" Json.string?
    text := ← fields.defaulted? "text" "" Json.string?
    score := ← score? fields
    description := ← fields.optional? "description" Json.string?
    userMessage := ← fields.optional? "userMessage" Json.string?
    assistantResponse := ← fields.optional? "assistantResponse" Json.string? }

end Sample

end Deckwright
