import Deckwright.Text.Lines

/-!
# Paths

Paths of files: absolute or relative, and the parts between the slashes. Empty parts do
not count, so a doubled or a final slash changes nothing. A path is normalized without
looking at any files: `.` is dropped, and `..` takes back the part before it.
-/

namespace Deckwright

/-- A path: whether it starts at the root, and its parts. -/
structure Path where
  absolute : Bool := false
  parts : List String := []
  deriving DecidableEq, Inhabited

namespace Path

/-- The path written in a text. -/
def ofString (text : String) : Path where
  absolute := text.toList.head? == some '/'
  parts := ((Text.split '/' text.toList).filter fun part => !part.isEmpty).map String.ofList

/-- The path as text. -/
def toString (path : Path) : String :=
  (if path.absolute then "/" else "") ++ String.intercalate "/" path.parts

/-- A path seen from a base; an absolute one does not depend on the base. -/
def join (base path : Path) : Path :=
  if path.absolute then path else { base with parts := base.parts ++ path.parts }

/-- The path without its last part; there is nothing above a path without parts. -/
def parent (path : Path) : Path :=
  if path.parts.isEmpty then {} else { path with parts := path.parts.dropLast }

/-- One more part behind normalized parts, which are given with the last one first. -/
def foldPart (reversed : List String) (part : String) : List String :=
  if part = "." then reversed
  else if part = ".." then
    match reversed with
    | [] => [".."]
    | last :: others => if last = ".." then ".." :: last :: others else others
  else part :: reversed

/--
The path without `.` parts, in which each `..` has taken back an ordinary part before it;
a `..` with none before it stays, also behind the root.
-/
def normalize (path : Path) : Path :=
  { path with parts := (path.parts.foldl foldPart []).reverse }

/-- The name of the file that the path leads to. -/
def fileName? (path : Path) : Option String :=
  match (path.parts.filter (· ≠ ".")).getLast? with
  | some name => if name = ".." then none else some name
  | none => none

/-- What follows the last dot of a name, unless that dot is its first character. -/
def extensionOf? (name : String) : Option String :=
  match Text.cut? '.' name.toList.reverse with
  | some (_, []) => none
  | some (reversed, _) => some (String.ofList reversed.reverse)
  | none => none

/-- The extension of the file that the path leads to. -/
def extension? (path : Path) : Option String :=
  path.fileName?.bind extensionOf?

end Path

end Deckwright
