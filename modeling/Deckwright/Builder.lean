import Deckwright.Deck.Basic
import Deckwright.Text.Quoted

/-!
# Building decks

A deck built by a chain of calls. A builder is a value: a call leaves the builder it was made
on as it was and gives a new one. A call that is not allowed adds nothing and is remembered;
every later call is then without effect, and the deck cannot be built.

A `Call` is such a call as data, with the body of a group as a list of further calls.
-/

namespace Deckwright

/-- A call that is not allowed. -/
inductive BuildError where
  | emptyValue
  | emptyLead
  | emptyGroupName
  | emptyContextName (question : String)
  | scoreOutOfRange (text : String) (score : Int)
  | emptyToolName
  deriving DecidableEq, Inhabited

/-- The text of an error. -/
def BuildError.message (e : BuildError) : String :=
  "Builder error: " ++ match e with
    | emptyValue => "spec value cannot be empty"
    | emptyLead => "lead text cannot be empty"
    | emptyGroupName => "group name cannot be empty"
    | emptyContextName question =>
      "context variable name cannot be empty (question: " ++ Text.quoted question ++ ")"
    | scoreOutOfRange text score =>
      "sample " ++ Text.quoted text ++ " has score " ++ toString score ++
        ", expected a value in " ++ toString Sample.leastScore ++ "..=" ++
        toString Sample.greatestScore
    | emptyToolName => "tool name cannot be empty"

/-! ## Samples -/

/-- What a sample may have besides its text and its score. -/
structure SampleDetails where
  id : Option String := none
  description : Option String := none
  userMessage : Option String := none
  assistantResponse : Option String := none
  deriving DecidableEq, Inhabited

/-- The samples of a leaf under construction. -/
structure SampleBuilder where
  samples : List Sample := []
  error : Option BuildError := none
  deriving Inhabited

/-- One more sample, if its score is in range and there is no error yet. -/
def SampleBuilder.add (b : SampleBuilder) (text : String) (score : Int)
    (details : SampleDetails) : SampleBuilder :=
  match b.error with
  | some _ => b
  | none =>
    if Sample.validScore score then
      let s : Sample :=
        { id := details.id, text, score := Int8.ofInt score, description := details.description
          userMessage := details.userMessage, assistantResponse := details.assistantResponse }
      { b with samples := b.samples ++ [s] }
    else { b with error := some (.scoreOutOfRange text score) }

/-- The samples of a leaf: a list, or what a sample builder has made. -/
inductive Samples where
  | list (samples : List Sample)
  | built (builder : SampleBuilder)
  deriving Inhabited

/-- The error of the first sample whose score is out of range. -/
def scoreError? (samples : List Sample) : Option BuildError :=
  (samples.find? fun s => !s.scoreInRange).map fun s => .scoreOutOfRange s.text s.score.toInt

/-- The samples as they were given, unless the sample builder has an error. -/
def Samples.given : Samples → Except BuildError (List Sample)
  | list samples => .ok samples
  | built b =>
    match b.error with
    | some e => .error e
    | none => .ok b.samples

/-- The samples, if all of them are allowed. -/
def Samples.toList (s : Samples) : Except BuildError (List Sample) :=
  match s.given with
  | .error e => .error e
  | .ok samples =>
    match scoreError? samples with
    | some e => .error e
    | none => .ok samples

/-! ## Context variables -/

/-- The context variables of one call. -/
structure ContextBuilder where
  declared : List ContextVariable := []
  error : Option BuildError := none
  deriving Inhabited

/-- One more variable, if it has a name and there is no error yet. -/
def ContextBuilder.declare (b : ContextBuilder) (kind : ContextKind) (name question : String) :
    ContextBuilder :=
  match b.error with
  | some _ => b
  | none =>
    if blank name then { b with error := some (.emptyContextName question) }
    else { b with declared := mergeContext b.declared { name, kind, question } }

/-! ## Decks and the bodies of groups -/

/-- A deck or the body of a group under construction. -/
structure Builder where
  name : String := ""
  cards : List Node := []
  context : List ContextVariable := []
  tools : List Tool := []
  error : Option BuildError := none
  deriving Inhabited

namespace Builder

/-- A builder that goes on from a deck. -/
def ofDeck (d : Deck) : Builder :=
  { name := d.name, cards := d.children, context := d.context, tools := d.tools }

/-- The builder after a call: unchanged if there is an error already, with the error of the call if it fails. -/
def attempt (b : Builder) (call : Builder → Except BuildError Builder) : Builder :=
  match b.error with
  | some _ => b
  | none =>
    match call b with
    | .ok next => next
    | .error e => { b with error := some e }

/-- Adds a node. -/
def addCard (b : Builder) (node : Node) : Builder :=
  { b with cards := b.cards ++ [node] }

/-- Adds a leaf with samples. -/
def specWith (b : Builder) (value : String) (samples : Samples) : Builder :=
  b.attempt fun b =>
    if blank value then .error .emptyValue
    else samples.toList.map fun list => b.addCard (.leaf value list)

/-- Adds a leaf. -/
def spec (b : Builder) (value : String) : Builder :=
  b.attempt fun b =>
    if blank value then .error .emptyValue else .ok (b.addCard (.leaf value []))

/-- Adds a lead. -/
def lead (b : Builder) (text : String) : Builder :=
  b.attempt fun b =>
    if blank text then .error .emptyLead else .ok (b.addCard (.lead text))

/-- Adds a tagged group with the given body; its tools become tools of the deck. -/
def group (b : Builder) (name : String) (body : Builder) : Builder :=
  b.attempt fun b =>
    if blank name then .error .emptyGroupName
    else
      match body.error with
      | some e => .error e
      | none =>
        .ok { b.addCard (.group { name, context := body.context } body.cards) with
          tools := b.tools ++ body.tools }

/-- Declares context variables behind the nodes that are there. -/
def declare (b : Builder) (made : ContextBuilder) : Builder :=
  b.attempt fun b =>
    match made.error with
    | some e => .error e
    | none =>
      let placed := made.declared.map fun v => v.atPosition b.cards.length
      .ok { b with context := placed.foldl mergeContext b.context }

/-- Adds a tool. -/
def tool (b : Builder) (tool : Tool) : Builder :=
  b.attempt fun b =>
    if blank tool.name then .error .emptyToolName else .ok { b with tools := b.tools ++ [tool] }

/-- The deck, unless a call was not allowed. It has no title and is tagged. -/
def build (b : Builder) : Except BuildError Deck :=
  match b.error with
  | some e => .error e
  | none =>
    .ok { Deck.empty b.name with children := b.cards, context := b.context, tools := b.tools }

end Builder

/-! ## Calls as data -/

/-- A call on a builder. -/
inductive Call where
  | spec (value : String)
  | specWith (value : String) (samples : Samples)
  | lead (text : String)
  | tool (tool : Tool)
  | context (declarations : List (ContextKind × String × String))
  /-- A group, and the calls on the empty builder that make its body. -/
  | group (name : String) (body : List Call)
  deriving Inhabited

/-- The samples of one leaf, each given by text, score and details. -/
def SampleBuilder.ofList (given : List (String × Int × SampleDetails)) : SampleBuilder :=
  given.foldl (fun b (text, score, details) => b.add text score details) {}

/-- The variables of one call, each given by type, name and question. -/
def ContextBuilder.ofList (declarations : List (ContextKind × String × String)) :
    ContextBuilder :=
  declarations.foldl (fun b (kind, name, question) => b.declare kind name question) {}

mutual

/-- The builder after a call. -/
def Builder.perform (b : Builder) : Call → Builder
  | .spec value => b.spec value
  | .specWith value samples => b.specWith value samples
  | .lead text => b.lead text
  | .tool tool => b.tool tool
  | .context declarations => b.declare (.ofList declarations)
  | .group name body => b.group name (Builder.performAll {} body)

/-- The builder after a list of calls. -/
def Builder.performAll (b : Builder) : List Call → Builder
  | [] => b
  | call :: rest => Builder.performAll (b.perform call) rest

end

end Deckwright
