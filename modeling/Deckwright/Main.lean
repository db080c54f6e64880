import Deckwright.CommandLine.Ending

/-!
# The program

The outer layer: the environment and the files that a command needs are read, the command is
run on them, and what it leaves behind is printed and written. There is no way to send requests
from here, so a registry is never reached.
-/

namespace Deckwright.Program

/-- The reason for an error with a number, which some calls give with its sign changed. -/
def causeNumbered (number : UInt32) (details : String) : DiskError :=
  if number = 20 || -number = 20 then .notDirectory
  else if number = 21 || -number = 21 then .directory
  else if number = 36 || -number = 36 then .nameTooLong
  else .other details

/-- The reason of the system for an error. -/
def causeOf : IO.Error → DiskError
  | .noFileOrDirectory .. => .missing
  | .noSuchThing .. => .missing
  | .inappropriateType _ number details => causeNumbered number details
  | .invalidArgument _ number details => causeNumbered number details
  | error => .other (toString error)

/-- Reads the file at a path as it is written. -/
def readFile (path : String) : IO (Except DiskError String) := do
  if path.isEmpty then return .error .missing
  try
    let text ← IO.FS.readFile path
    return .ok text
  catch error => return .error (causeOf error)

/-- Reads the files that a document embeds, as long as another one of them is there. -/
partial def embedded (files : Files) (document : Path) : IO Files := do
  match Document.load files document with
  | .error (.unreadable path) =>
    match ← readFile path.toString with
    | .ok text => embedded (files.put path text) document
    | .error _ => return files
  | _ => return files

/-- The environment variables that matter. -/
def readEnvironment : IO (String → Option String) := do
  let names := [Config.homeVariable, Config.modelVariable, Config.urlVariable, Config.keyVariable]
  let values ← names.mapM fun name => do return (name, ← IO.getEnv name)
  return fun name => (values.lookup name).join

/-- What a command has to be surrounded by. -/
def surroundingsOf (command : Command) : IO (Surroundings Unit) := do
  let environment ← readEnvironment
  let configPath := Config.path (environment Config.homeVariable)
  let config ← readFile configPath
  let (document, files) ← match command.document? with
    | some path => pure ([(path, ← readFile path)], ← embedded [] (Path.ofString path))
    | none => pure ([], [])
  let texts := document ++ [(configPath, config)]
  return {
    environment
    disk := { read := fun path => (texts.lookup path).getD (.error .missing), files }
    transport := fun _ state => (none, state) }

/-- Writes a file, and makes the directories on the way to it. -/
def writeFile (path text : String) : IO (Except CommandError Unit) := do
  try
    IO.FS.createDirAll (Path.ofString path).parent.toString
    IO.FS.writeFile path text
    return .ok ()
  catch error => return .error (.unwritable (causeOf error))

/-- Writes the file of an output; the result is the text to print. -/
def commit (output : Output) : IO (Except CommandError String) := do
  match output.file with
  | none => return .ok output.text
  | some (path, text) => return (← writeFile path text).map fun _ => output.text

/-- The ending of a command line. -/
def perform (words : List String) : IO CommandLine.Ending := do
  match CommandLine.read words with
  | .error stop => return .ofStop stop
  | .ok command =>
    match (command.run (← surroundingsOf command) ()).1 with
    | .error e => return .ofResult (.error e)
    | .ok output => return .ofResult (← commit output)

end Deckwright.Program

/-- Runs the program on the words behind its name. -/
def main (words : List String) : IO UInt32 := do
  let ending ← Deckwright.Program.perform words
  IO.print ending.text
  match ending.error with
  | some e => IO.eprintln ("Error: " ++ Deckwright.Text.quoted e.message)
  | none =>
    if ending.code = 2 then
      IO.eprintln ("Usage: " ++ Deckwright.CommandLine.rootPage.usage)
  return ending.code.toUInt32
