import Deckwright.Deck.Scopes
import Deckwright.Text.Lines

/-!
# Outlines

A deck in brief: a line per node, indented by depth, then a line per context variable and
per tool.
-/

namespace Deckwright

/-- The first line of a text. -/
def firstLine (text : String) : String :=
  String.ofList (Text.firstLine text.toList)

/-- Two spaces for each level of depth. -/
def indentation (depth : Nat) : String :=
  String.ofList (List.replicate (2 * depth) ' ')

mutual

/-- The lines of a node at the given depth. -/
def Node.outline (depth : Nat) : Node → String
  | .leaf value samples =>
    indentation depth ++ "- " ++ firstLine value ++
      (if samples.isEmpty then "\n" else " [" ++ toString samples.length ++ " samples]\n")
  | .lead text => indentation depth ++ "> " ++ firstLine text ++ "\n"
  | .group header children =>
    indentation depth ++ "[" ++ header.name ++ "]\n" ++ Node.outlineAll (depth + 1) children

/-- The lines of a list of nodes. -/
def Node.outlineAll (depth : Nat) : List Node → String
  | [] => ""
  | node :: rest => node.outline depth ++ Node.outlineAll depth rest

end

/-- The outline of a deck. -/
def Deck.outline (d : Deck) : String :=
  "deck " ++ d.name ++ "\n" ++ Node.outlineAll 1 d.children ++
    String.join (d.allContext.map fun v =>
      "  context " ++ v.name ++ " (" ++ v.kind.name ++ "): " ++ v.question ++ "\n") ++
    String.join (d.tools.map fun tool => "  tool " ++ tool.name ++ "\n")

end Deckwright
