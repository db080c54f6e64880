import Deckwright.Definitions
import Deckwright.Document.Piece
import Deckwright.Files

/-!
# The expansion of a document

A document with every embedded file in the place of its embed, down through the documents
that these embed in turn. Files are found relative to the directory of the document that
embeds them. An embed that cannot be followed stands in the expansion as its error.

The chain of documents that are open at an embed must not hold the embedded one. Each
document on the chain is one file less that can still be embedded (`Files.unvisited_lt`),
so the expansion is finite.
-/

namespace Deckwright

/-- Why a document makes no deck. Each cause names the file it is found in. -/
inductive DocumentError where
  /-- There is no such file. -/
  | unreadable (path : Path)
  /-- The TOML file is malformed. -/
  | malformed (path : Path)
  /-- An entry of the TOML file is not allowed. -/
  | invalid (path : Path) (reason : String)
  /-- Nothing in the file goes by the name. -/
  | missingFragment (path : Path) (fragment : String)
  /-- The document is embedded in itself, directly or through others. -/
  | cycle (path : Path)
  deriving DecidableEq, Inhabited

namespace DocumentError

/-- The file that an error is about. -/
def path : DocumentError → Path
  | unreadable path => path
  | malformed path => path
  | invalid path _ => path
  | missingFragment path _ => path
  | cycle path => path

/-- The text of an error. -/
def message : DocumentError → String
  | unreadable path => "failed to read " ++ path.toString ++ ": " ++ path.toString ++ " not found"
  | malformed path => "invalid TOML in " ++ path.toString
  | invalid path reason => "invalid embed in " ++ path.toString ++ ": " ++ reason
  | missingFragment path fragment =>
    "fragment '#" ++ fragment ++ "' not found in " ++ path.toString
  | cycle path => "embed cycle: " ++ path.toString ++ " includes itself"

/-- The error of a TOML file that declares nothing. -/
def ofDefinitions (path : Path) : DefinitionError → DocumentError
  | .malformed => malformed path
  | .noTable name => invalid path ("`" ++ name ++ "` must be a table")
  | .noTables name => invalid path ("`" ++ name ++ "` must be an array of tables")
  | .scoreOutOfRange id score =>
    invalid path
      ("sample '" ++ id ++ "' has score " ++ toString score.toInt ++ " outside " ++
        toString Sample.leastScore ++ "..=" ++ toString Sample.greatestScore)

end DocumentError

namespace Document

/-- A piece of a document with what it embeds. -/
inductive Part where
  | heading (level : UInt8) (text : String)
  | leaf (text : String)
  | lead (text : String)
  /-- What an embedded TOML file declares, or the one declaration that is wanted. -/
  | definitions (declared : Definitions)
  /-- The expansion of an embedded document, and the name of the group that is wanted. -/
  | document (path : Path) (fragment : Option String) (parts : List Part)
  /-- An embed that cannot be followed. -/
  | failed (error : DocumentError)
  deriving Inhabited

/-- What is wanted of the TOML file at the given path. -/
def definitionsIn (path : Path) (fragment : Option String) (text : String) :
    Except DocumentError Definitions :=
  match Definitions.read? text, fragment with
  | .error error, _ => .error (.ofDefinitions path error)
  | .ok all, none => .ok all
  | .ok all, some name =>
    match all.select? name with
    | some one => .ok one
    | none => .error (.missingFragment path name)

/-- The part that an embedded TOML file makes. -/
def Part.ofDefinitions (files : Files) (path : Path) (fragment : Option String) : Part :=
  match files.find? path with
  | none => .failed (.unreadable path)
  | some text =>
    match definitionsIn path fragment text with
    | .ok declared => .definitions declared
    | .error error => .failed error

/--
The expansion of a document in the directory `base`; `chain` holds the paths of the documents
that are open, the document itself first.
-/
def expand (files : Files) (chain : List Path) (base : Path) (text : String) : List Part :=
  (Piece.ofText text).map fun piece =>
    match piece with
    | .heading level text => .heading level text
    | .leaf text => .leaf text
    | .lead text => .lead text
    | .embed ⟨kind, file, fragment⟩ =>
      let path := (base.join file).normalize
      match kind with
      | .toml => .ofDefinitions files path fragment
      | .markdown =>
        if hNew : path ∈ chain then .failed (.cycle path)
        else
          match hFile : files.find? path with
          | none => .failed (.unreadable path)
          | some text =>
            have := Files.unvisited_lt hNew hFile
            .document path fragment (expand files (path :: chain) path.parent text)
termination_by files.unvisited chain

end Document

end Deckwright
