import Deckwright.Markdown.Block
import Deckwright.Path

/-!
# The pieces of a document

What the blocks of a markdown document say about a deck, in order: headings, leaves, leads
and embeds. An image whose target is a markdown or TOML file embeds that file at the point
where it stands; any other image is text. The text before, between and behind the embeds
of a paragraph or list item makes one lead or leaf each, unless it is blank.
-/

namespace Deckwright.Document

/-- What an embedded file holds. -/
inductive EmbedKind where
  | markdown
  | toml
  deriving DecidableEq, Inhabited

/-- The kind of file with the given extension. -/
def EmbedKind.ofExtension? (extension : String) : Option EmbedKind :=
  match extension.toLower with
  | "md" => some markdown
  | "markdown" => some markdown
  | "toml" => some toml
  | _ => none

/-- An embedded file, as the embedding document refers to it, and the part that is wanted. -/
structure Embed where
  kind : EmbedKind
  file : Path
  fragment : Option String
  deriving DecidableEq, Inhabited

namespace Embed

/-- A target as the text of a path and a fragment; an empty fragment is none. -/
def splitFragment (target : String) : String × Option String :=
  match Text.cut? '#' target.toList with
  | some (path, []) => (String.ofList path, none)
  | some (path, fragment) => (String.ofList path, some (String.ofList fragment))
  | none => (target, none)

/-- The embed that an image with the given target stands for, if it stands for one. -/
def ofTarget? (target : String) : Option Embed :=
  if Text.occursIn [':', '/', '/'] target.toList then none
  else
    let (path, fragment) := splitFragment target
    let file := Path.ofString path
    (file.extension?.bind EmbedKind.ofExtension?).map fun kind => { kind, file, fragment }

end Embed

/-- What a document says, in the order of its text. -/
inductive Piece where
  /-- A heading that is not empty. -/
  | heading (level : UInt8) (text : String)
  | leaf (text : String)
  | lead (text : String)
  | embed (embed : Embed)
  deriving DecidableEq, Inhabited

namespace Piece

/-- The piece made of a run of text without the white space around it; a blank run makes none. -/
def ofRun (make : String → Piece) (run : String) : List Piece :=
  if blank run then [] else [make (trimmed run)]

/-- The pieces of inline content that continues the given run of text. -/
def ofInlines (make : String → Piece) (run : String) : List Markdown.Inline → List Piece
  | [] => ofRun make run
  | .text more :: rest => ofInlines make (run ++ more) rest
  | .image alt target :: rest =>
    match Embed.ofTarget? target with
    | some found => ofRun make run ++ .embed found :: ofInlines make "" rest
    | none => ofInlines make (run ++ "![" ++ alt ++ "](" ++ target ++ ")") rest

/-- The pieces of a block. -/
def ofBlock : Markdown.Block → List Piece
  | .heading level text => if text.isEmpty then [] else [heading (UInt8.ofNat level) text]
  | .list items => items.flatMap fun item => ofInlines leaf "" (Markdown.inlines item)
  | .code text => [lead text]
  | .paragraph content => ofInlines lead "" content

/-- The pieces of a document. -/
def ofText (text : String) : List Piece :=
  (Markdown.blocks text).flatMap ofBlock

end Piece

end Deckwright.Document
