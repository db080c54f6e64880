import Deckwright.Render

/-!
# Grading

A deck made into the judge of an exchange: behind its content comes a group that asks for a
grade, with two context variables for what the user said and what the assistant answered.
-/

namespace Deckwright

namespace Grader

/-- The name of the group that asks for a grade. -/
def groupName : String := "Evaluation"

/-- The variable that holds what the user said. -/
def userVariable : ContextVariable :=
  { name := "userMessage", kind := .string, question := "What did the user say?" }

/-- The variable that holds what the assistant answered. -/
def responseVariable : ContextVariable :=
  { name := "assistantResponse", kind := .string, question := "How did the assistant respond?" }

/-- The header of the group in the given layout; in markdown it is a heading of level 2. -/
def header (layout : Layout) : Header :=
  { name := groupName
    layout
    level := match layout with
      | .tagged => 0
      | .markdown => 2
    context := [userVariable, responseVariable] }

/-- What the group asks for. -/
def instructions : List Node :=
  [.lead "Grade the assistant response to the user message against every instruction above.",
    .leaf "Score from -3 (clearly violates the instructions) to 3 (follows them exemplarily)." [],
    .leaf "Use 0 only when the instructions say nothing about this exchange." [],
    .leaf "Judge the response, not the user message." [],
    .leaf "Reply with JSON only: \x7b\"score\": <integer>, \"reason\": \"<one sentence>\"\x7d" []]

/-- The group that asks for a grade. -/
def group (layout : Layout) : Node :=
  .group (header layout) instructions

end Grader

namespace Deck

/-- The deck with the group that asks for a grade behind its content. -/
def graded (d : Deck) : Deck :=
  { d with children := d.children ++ [Grader.group d.layout] }

/-- The request for a grade. -/
def renderGraded (d : Deck) (options : RenderOptions) : Payload :=
  d.graded.render options

/-- The request for the grade of one exchange. -/
def renderExchange (d : Deck) (user response : String) (options : RenderOptions) : Payload :=
  d.renderGraded
    ((options.withContext Grader.userVariable.name (.string user)).withContext
      Grader.responseVariable.name (.string response))

end Deck

end Deckwright
