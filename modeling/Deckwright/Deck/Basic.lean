import Deckwright.Context
import Deckwright.Sample
import Deckwright.Tool

/-!
# Decks

A deck is a tree of nodes: leaves (a text with graded samples), leads (narrative text
between them) and named groups of further nodes. The order of the nodes is the order of
the rendered text.
-/

namespace Deckwright

/-- How a group or the body of a deck is written. -/
inductive Layout where
  /-- Between an opening and a closing tag, one child per line. -/
  | tagged
  /-- Under a heading, as blocks between blank lines, with leaves as bullets. -/
  | markdown
  deriving DecidableEq, Inhabited

/-- What a group is apart from its children. -/
structure Header where
  name : String
  layout : Layout := .tagged
  /-- The level of the heading in markdown layout. -/
  level : UInt8 := 0
  context : List ContextVariable := []
  deriving Inhabited

/-- An element of a deck. -/
inductive Node where
  | leaf (value : String) (samples : List Sample)
  | lead (text : String)
  | group (header : Header) (children : List Node)
  deriving Inhabited

/-- A prompt document. -/
structure Deck where
  name : String
  title : Option String := none
  layout : Layout := .tagged
  children : List Node := []
  context : List ContextVariable := []
  tools : List Tool := []
  deriving Inhabited

namespace Node

/-- Whether the node is a leaf. -/
def isLeaf : Node → Bool
  | leaf .. => true
  | _ => false

/-- The header and the children of a group. -/
def group? : Node → Option (Header × List Node)
  | group header children => some (header, children)
  | _ => none

end Node

namespace Deck

/-- The name of a deck that has no other. -/
def defaultName : String := "deck"

/-- An empty deck in tagged layout; a blank name gives way to the default one. -/
def empty (name : String) : Deck :=
  { name := if blank name then defaultName else name }

/-- The first group at the top of the deck with the given name. -/
def group? (d : Deck) (name : String) : Option (Header × List Node) :=
  (d.children.filterMap Node.group?).find? fun (header, _) => header.name = name

end Deck

mutual

/-- The samples of a node and of everything below it that have an identifier, in order. -/
def Node.identified : Node → List Sample
  | .leaf _ samples => samples.filter fun s => s.id.isSome
  | .lead _ => []
  | .group _ children => Node.identifiedIn children

/-- The samples with an identifier in a list of nodes, in order. -/
def Node.identifiedIn : List Node → List Sample
  | [] => []
  | node :: rest => node.identified ++ Node.identifiedIn rest

end

/-- The samples of a deck that have an identifier, in order. -/
def Deck.identified (d : Deck) : List Sample :=
  Node.identifiedIn d.children

end Deckwright
