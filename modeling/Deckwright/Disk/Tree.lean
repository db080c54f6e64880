import Deckwright.Disk.Basic

/-!
# Trees of files

Files and directories in memory, as seen from a working directory. A path is walked part by
part from there: an empty part and `.` stay in a directory, `..` goes up, and any other part
has to be in the directory that was reached. Above the working directory there are directories
only, and of the files outside nothing is known.
-/

namespace Deckwright

/-- Files under their normalized paths, and directories that hold no file so far. -/
structure Tree where
  files : Files := []
  directories : List Path := []
  deriving Inhabited

namespace Tree

/-- The number of bytes that a name may have. -/
def nameLimit : Nat := 255

/-- Whether a normalized path leads upwards only, and so to the working directory or above it. -/
def isAbove (path : Path) : Bool :=
  path.parts.all (· == "..")

/-- Whether a path lies below a directory. -/
def isBelow (directory path : Path) : Bool :=
  directory.absolute == path.absolute && directory.parts.isPrefixOf path.parts &&
    directory.parts.length < path.parts.length

/-- Whether a normalized path leads to a file. -/
def hasFile (tree : Tree) (path : Path) : Bool :=
  (tree.files.find? path).isSome

/-- Whether a normalized path leads to a directory. -/
def hasDirectory (tree : Tree) (path : Path) : Bool :=
  isAbove path || tree.directories.any (fun d => d == path || isBelow path d) ||
    tree.files.any fun file => isBelow path file.1

/-- The normalized path that one part leads to. -/
def go (here : Path) (part : String) : Path :=
  (here.join { parts := [part] }).normalize

/-! ## Walking -/

/-- Whether a part of a path names what is in a directory. -/
def isName (part : String) : Bool :=
  !(part == "" || part == "." || part == "..")

/-- Goes one part further from a place that is there. -/
def step (tree : Tree) (here : Path) (part : String) : Except DiskError Path :=
  if tree.hasFile here then .error .notDirectory
  else if !isName part then .ok (if part = ".." then go here part else here)
  else if nameLimit < part.utf8ByteSize then .error .nameTooLong
  else if tree.hasFile (go here part) || tree.hasDirectory (go here part) then .ok (go here part)
  else .error .missing

/-- The directory that the walk along a path starts from. -/
def start (written : String) : Path :=
  { absolute := written.toList.head? == some '/' }

/-- The parts of a path as it is written. -/
def partsOf (written : String) : List String :=
  (Text.split '/' written.toList).map String.ofList

/-- The normalized path of what a path as it is written leads to. -/
def find (tree : Tree) (written : String) : Except DiskError Path :=
  if written.toList.contains '\x00' then .error .zeroByte
  else if written.isEmpty then .error .missing
  else (partsOf written).foldlM tree.step (start written)

/-- The text of the file that a path leads to. -/
def read (tree : Tree) (written : String) : Except DiskError String :=
  match tree.find written with
  | .error e => .error e
  | .ok place =>
    match tree.files.find? place with
    | some text => .ok text
    | none => .error .directory

/-- The tree as the disk of a command. -/
def disk (tree : Tree) : Disk :=
  { read := tree.read, files := tree.files }

/-! ## Writing -/

/-- Goes one part further, into a new directory if the part leads nowhere. -/
def enter (here : Tree × Path) (part : String) : Except DiskError (Tree × Path) :=
  match here.1.step here.2 part with
  | .ok place => .ok (here.1, place)
  | .error .missing =>
    .ok ({ here.1 with directories := go here.2 part :: here.1.directories }, go here.2 part)
  | .error e => .error e

/-- Puts a file into a directory that is there. -/
def putFile (tree : Tree) (directory : Path) (name text : String) : Except DiskError Tree :=
  match tree.step directory name with
  | .ok place =>
    if tree.hasFile place then .ok { tree with files := tree.files.put place text }
    else .error .directory
  | .error .missing => .ok { tree with files := tree.files.put (go directory name) text }
  | .error e => .error e

/-- Writes a file, and makes the directories on the way to it. -/
def write (tree : Tree) (written text : String) : Except DiskError Tree :=
  if written.toList.contains '\x00' then .error .zeroByte
  else
    match (partsOf written).dropLast.foldlM enter (tree, start written) with
    | .ok (tree, directory) => tree.putFile directory ((partsOf written).getLast?.getD "") text
    | .error e => .error e

/-- The tree with a file written into it, if that is possible. -/
def withFile (tree : Tree) (written text : String) : Tree :=
  match tree.write written text with
  | .ok tree => tree
  | .error _ => tree

/-- The tree of files given by path and text. -/
def ofFiles (entries : List (String × String)) (directories : List Path) : Tree :=
  entries.foldl (fun tree (written, text) => tree.withFile written text) { directories }

end Tree

end Deckwright
