import Deckwright.Command.Session
import Deckwright.CommandLine.Reading

/-!
# Endings

How the program ends: with a code, what it has printed, and the error if a command has failed.
The code is 0 for success, 1 for a command that failed and 2 for a command line without one.
-/

namespace Deckwright.CommandLine

/-- How the program ends. -/
structure Ending where
  code : UInt8
  text : String := ""
  error : Option CommandError := none
  deriving Inhabited

namespace Ending

/-- The ending of a command line that gives no command. -/
def ofStop : Stop → Ending
  | .usage => { code := 2 }
  | .help text => { code := 0, text }
  | .version => { code := 0, text := versionText }

/-- The ending of a command. -/
def ofResult : Except CommandError String → Ending
  | .ok text => { code := 0, text }
  | .error e => { code := 1, error := some e }

end Ending

/-- Runs the program in a session. -/
def perform {σ : Type} (environment : String → Option String) (transport : Registry.Transport σ)
    (words : List String) (session : Session σ) : Ending × Session σ :=
  match read words with
  | .error stop => (.ofStop stop, session)
  | .ok command =>
    let (result, session) := session.run environment transport command
    (.ofResult result, session)

end Deckwright.CommandLine
