import Deckwright.Deck.Footnotes
import Deckwright.Deck.Outline

/-!
# The system text of a deck

The text that a deck becomes in the system message. A tagged group puts its children, one
per line, between `<Name>` and `</Name>`. A group in markdown layout is a heading and then
blocks between blank lines, where neighbouring leaves make one list.

A sample is part of the text only if it passes the gate: its score is not 0, and if its leaf
refers to it by a marker, it is one of the samples asked for. A sample that is referred to
stands where its marker stands, the others behind the text of the leaf.
-/

namespace Deckwright

/-! ## Samples -/

/-- The gate: whether a sample becomes text, given the identifiers of the samples asked for. -/
def Sample.renders (s : Sample) (referenced : Bool) (asked : List String) : Bool :=
  !s.isInert && (!referenced ||
    match s.id with
    | some id => asked.contains id
    | none => false)

/-- The text of a sample between tags. -/
def Sample.tag (s : Sample) : String :=
  let id := match s.id with
    | some id => " id=\"" ++ id ++ "\""
    | none => ""
  "<sample" ++ id ++ " score=\"" ++ toString s.score.toInt ++ "\">" ++ s.explanation ++ "</sample>"

/-! ## Leaves -/

/-- A part of the value of a leaf: one character, or a marker with the single space before it. -/
inductive Segment where
  | character (c : Char)
  | marker (spaced : Bool) (id : List Char)
  deriving DecidableEq, Inhabited

/-- The segments of a text. -/
def segments (cs : List Char) : List Segment :=
  match cs with
  | [] => []
  | ' ' :: '[' :: '^' :: rest =>
    match h : markerId? rest with
    | some (id, after) =>
      have := markerId?_length h
      .marker true id :: segments after
    | none => .character ' ' :: segments ('[' :: '^' :: rest)
  | '[' :: '^' :: rest =>
    match h : markerId? rest with
    | some (id, after) =>
      have := markerId?_length h
      .marker false id :: segments after
    | none => .character '[' :: segments ('^' :: rest)
  | c :: rest => .character c :: segments rest
termination_by cs.length

/-- A segment as it was written. -/
def Segment.source : Segment → List Char
  | .character c => [c]
  | .marker spaced id => (if spaced then [' '] else []) ++ '[' :: '^' :: id ++ [']']

/--
The text of a segment. The marker of an attached sample gives way to the sample, or to
nothing if the sample does not pass the gate; any other marker stays as it is.
-/
def Segment.text (asked : List String) (samples : List Sample) : Segment → List Char
  | .character c => [c]
  | .marker spaced id =>
    match samples.find? fun s => s.id = some (String.ofList id) with
    | some s =>
      if s.renders true asked then (if spaced then [' '] else []) ++ s.tag.toList else []
    | none => (Segment.marker spaced id).source

/-- Whether a sample is referred to by one of the given identifiers. -/
def Sample.referencedIn (s : Sample) (ids : List String) : Bool :=
  match s.id with
  | some id => ids.contains id
  | none => false

/-- The samples of a leaf that stand behind its text. -/
def appendedSamples (asked : List String) (value : String) (samples : List Sample) : List Sample :=
  samples.filter fun s => !s.referencedIn (footnoteRefs value) && s.renders false asked

/-- The text of a leaf. -/
def leafText (asked : List String) (value : String) (samples : List Sample) : String :=
  let body := String.ofList ((segments value.toList).flatMap (Segment.text asked samples))
  match appendedSamples asked value samples with
  | [] => body
  | appended =>
    body ++ "\n<samples>\n" ++ String.intercalate "\n" (appended.map Sample.tag) ++ "\n</samples>"

/-- A further line of a list item, set under the text of the first line unless it is indented. -/
def continuation : List Char → List Char
  | line@(' ' :: _) => line
  | line@('\t' :: _) => line
  | line => ' ' :: ' ' :: line

/-- A text as a list item. -/
def bullet (text : String) : String :=
  let lines := Text.lines text.toList
  let items := ("- ".toList ++ lines.headD []) :: (lines.drop 1).map continuation
  String.ofList (List.intercalate ['\n'] items)

/-! ## Groups and decks -/

/-- Bullets as one block. -/
def bulletBlock : List String → List String
  | [] => []
  | bullets => [String.intercalate "\n" bullets]

/-- The texts of a tagged group's children between its tags. -/
def taggedText (name : String) (texts : List String) : String :=
  let body := String.intercalate "\n" texts
  "<" ++ name ++ ">\n" ++ (if body.isEmpty then "" else body ++ "\n") ++ "</" ++ name ++ ">"

/-- The heading of a group, of a level from 1 to 6. -/
def headingText (header : Header) : String :=
  String.ofList (List.replicate (max 1 (min 6 header.level.toNat)) '#') ++ " " ++ header.name

mutual

/-- The text of a node; `asked` holds the identifiers of the samples asked for. -/
def Node.text (asked : List String) : Node → String
  | .leaf value samples => leafText asked value samples
  | .lead text => text
  | .group header children =>
    match header.layout with
    | .tagged => taggedText header.name (Node.texts asked children)
    | .markdown =>
      String.intercalate "\n\n" (headingText header :: Node.blocks asked [] children)

/-- The texts of a list of nodes. -/
def Node.texts (asked : List String) : List Node → List String
  | [] => []
  | node :: rest => node.text asked :: Node.texts asked rest

/-- The blocks of a list of nodes that follows the given bullets. -/
def Node.blocks (asked bullets : List String) : List Node → List String
  | [] => bulletBlock bullets
  | .leaf value samples :: rest =>
    Node.blocks asked (bullets ++ [bullet (leafText asked value samples)]) rest
  | node :: rest => bulletBlock bullets ++ node.text asked :: Node.blocks asked [] rest

end

/-- The title of a deck as a heading. -/
def titleText (title : String) : String :=
  "# " ++ title

/-- The system text of a deck; `asked` holds the identifiers of the samples asked for. -/
def Deck.systemText (d : Deck) (asked : List String) : String :=
  let title := (d.title.map titleText).toList
  match d.layout with
  | .tagged =>
    let body := String.intercalate "\n" (Node.texts asked d.children)
    String.intercalate "\n" (title ++ if body.isEmpty then [] else [body])
  | .markdown => String.intercalate "\n\n" (title ++ Node.blocks asked [] d.children)

end Deckwright
