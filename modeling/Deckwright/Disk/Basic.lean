import Deckwright.Files

/-!
# Disks

What a command sees of the files around it. A file is read under its path as it is written,
which the system walks part by part: a directory that is not there makes the path lead
nowhere, even if a `..` leaves that directory again. Documents are embedded by normalized
paths instead, so a disk gives its texts under those as well.
-/

namespace Deckwright

/-- Why a file cannot be read or written. -/
inductive DiskError where
  | missing
  /-- A part of the path that is not the last one leads to a file. -/
  | notDirectory
  | directory
  | nameTooLong
  /-- The path has a character that no path can have. -/
  | zeroByte
  /-- Any other reason, in the words of the system. -/
  | other (text : String)
  deriving DecidableEq, Inhabited

namespace DiskError

/-- The number that the system gives to an error. -/
def number? : DiskError → Option Nat
  | missing => some 2
  | notDirectory => some 20
  | directory => some 21
  | nameTooLong => some 36
  | zeroByte => none
  | other _ => none

/-- What went wrong. -/
def text : DiskError → String
  | missing => "No such file or directory"
  | notDirectory => "Not a directory"
  | directory => "Is a directory"
  | nameTooLong => "File name too long"
  | zeroByte => "file name contained an unexpected NUL byte"
  | other text => text

/-- What went wrong, with the number of the error. -/
def message (e : DiskError) : String :=
  match e.number? with
  | some number => e.text ++ " (os error " ++ toString number ++ ")"
  | none => e.text

/-- Whether the path leads to nothing at all. -/
def isAbsence : DiskError → Bool
  | directory => false
  | other _ => false
  | _ => true

end DiskError

/-- The files that a command can read. -/
structure Disk where
  /-- The text of the file under a path as it is written. -/
  read : String → Except DiskError String
  /-- The texts that documents embed, by normalized path. -/
  files : Files

namespace Disk

/-- Whether a path leads to anything. -/
def has (disk : Disk) (path : String) : Bool :=
  match disk.read path with
  | .ok _ => true
  | .error e => !e.isAbsence

end Disk

end Deckwright
