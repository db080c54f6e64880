import Deckwright.Deck.Footnotes
import Deckwright.Document.Draft

/-!
# Reading documents

From the text of a markdown document to a deck in which every leaf carries the samples that
its markers refer to. The samples are those of all embedded files together, and of two with
one identifier the one declared last; so they are attached when the whole tree is there.
-/

namespace Deckwright

mutual

/-- The node with samples attached to the leaves that refer to them, in the order of their markers. -/
def Node.attach (named : Ordered Sample) : Node → Node
  | .leaf value samples => .leaf value (samples ++ (footnoteRefs value).filterMap fun id => named.get? id)
  | .lead text => .lead text
  | .group header children => .group header (Node.attachAll named children)

/-- `Node.attach` on each node of a list. -/
def Node.attachAll (named : Ordered Sample) : List Node → List Node
  | [] => []
  | node :: rest => node.attach named :: Node.attachAll named rest

end

/-- A deck together with the named samples that its document declares. -/
structure ReadDeck where
  deck : Deck
  samples : Ordered Sample
  deriving Inhabited

namespace Document

/-- The declared samples by identifier, of two with one identifier the later one. -/
def namedSamples (doc : Document) : Ordered Sample :=
  Ordered.ofList (doc.samples.filterMap fun s => s.id.map fun id => (id, s))

/-- The document with its samples attached. -/
def attached (doc : Document) : ReadDeck :=
  let samples := doc.namedSamples
  { deck := { doc.deck with children := Node.attachAll samples doc.deck.children }, samples }

/-- The deck that an expansion makes. -/
def ofParts (parts : List Part) : Except DocumentError Document :=
  (Draft.addAll {} parts).map Draft.finish

/-- Reads the text of a document in the directory `base`. -/
def read (files : Files) (base : Path) (text : String) : Except DocumentError ReadDeck :=
  (ofParts (expand files [] base text)).map attached

/-- Reads the document at a path. -/
def load (files : Files) (path : Path) : Except DocumentError ReadDeck :=
  let path := path.normalize
  match files.find? path with
  | none => .error (.unreadable path)
  | some text => (ofParts (expand files [path] path.parent text)).map attached

end Document

end Deckwright
