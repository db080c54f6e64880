import Deckwright.Command.Basic
import Deckwright.Render

/-!
# Options from a command line

How the arguments of a command become options of a rendering. A value for a context variable
comes from the last assignment to it, otherwise from the JSON object, otherwise, if defaults
are asked for, from the deck.
-/

namespace Deckwright

/-- Options that set the model, if one is given. -/
def RenderOptions.withModel (model : Option String) (options : RenderOptions) : RenderOptions :=
  match model with
  | some model => { options with overrides := .ofModel model }
  | none => options

namespace RenderArgs

/-- The values in the JSON object, none if there is no object. -/
def jsonContext (args : RenderArgs) : Except ContextError Json.Fields :=
  match args.contextJson with
  | none => .ok []
  | some text =>
    match Json.read? text with
    | none => .error .malformed
    | some (.object fields) => .ok fields
    | some _ => .error .notObject

/-- The values that are given for context variables. -/
def givenContext (args : RenderArgs) : Except ContextError Json.Fields :=
  args.jsonContext.map fun fields => Ordered.update fields args.assignments

/-- The values of the context variables of a deck. -/
def context (args : RenderArgs) (d : Deck) : Except ContextError Json.Fields :=
  args.givenContext.map fun values => if args.useDefaults then d.withDefaults values else values

/-- The options for rendering a deck. -/
def options (args : RenderArgs) (c : Config) (d : Deck) : Except ContextError RenderOptions :=
  (args.context d).map fun context =>
    let base := RenderOptions.ofConfig c
    RenderOptions.withModel args.model
      { base with
        context
        renderedSamples := args.samples
        captureTelemetry := base.captureTelemetry && !args.noTelemetry }

end RenderArgs

/-- The options for grading an exchange. -/
def GradeArgs.options (args : GradeArgs) (c : Config) : RenderOptions :=
  (RenderOptions.ofConfig c).withModel args.model

end Deckwright
