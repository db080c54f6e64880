import Deckwright.Command.Run
import Deckwright.Disk.Tree

/-!
# Sessions

Commands run one after the other over a tree of files in memory, each on what the ones before
it left behind.
-/

namespace Deckwright

/-- The files, and the state of the way to send requests. -/
structure Session (σ : Type) where
  tree : Tree
  state : σ
  deriving Inhabited

namespace Session

/-- The tree with the file of an output written, and the text of the output. -/
def commit (tree : Tree) (output : Output) : Except CommandError String × Tree :=
  match output.file with
  | none => (.ok output.text, tree)
  | some (path, text) =>
    match tree.write path text with
    | .ok tree => (.ok output.text, tree)
    | .error cause => (.error (.unwritable cause), tree)

/-- Runs a command; the result is the text that it prints. -/
def run {σ : Type} (environment : String → Option String) (transport : Registry.Transport σ)
    (command : Command) (session : Session σ) : Except CommandError String × Session σ :=
  match command.run { environment, disk := session.tree.disk, transport } session.state with
  | (.error e, state) => (.error e, { session with state })
  | (.ok output, state) =>
    let (result, tree) := commit session.tree output
    (result, { tree, state })

end Session

end Deckwright
