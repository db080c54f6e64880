import Deckwright.SystemText

/-!
# Leaves make the difference

Of a node the samples asked for reach the leaves only; all around them is names, leads and layout.
So trees of one shape have the same text if each leaf of the one has the text of its counterpart in
the other (`systemText_of_sameText`), whatever the reason is why the texts of the leaves agree.
-/

namespace Deckwright

mutual

/-- Nodes of one shape whose leaves have the same text, each with the samples asked for on its
side. -/
inductive Node.SameText (asked others : List String) : Node → Node → Prop where
  | leaf {value otherValue : String} {samples otherSamples : List Sample}
      (h : leafText asked value samples = leafText others otherValue otherSamples) :
      Node.SameText asked others (.leaf value samples) (.leaf otherValue otherSamples)
  | lead (text : String) : Node.SameText asked others (.lead text) (.lead text)
  | group {header : Header} {children otherChildren : List Node}
      (h : Node.SameTextAll asked others children otherChildren) :
      Node.SameText asked others (.group header children) (.group header otherChildren)

/-- `Node.SameText` for the nodes of two lists, one after the other. -/
inductive Node.SameTextAll (asked others : List String) : List Node → List Node → Prop where
  | nil : Node.SameTextAll asked others [] []
  | cons {node other : Node} {rest more : List Node} (hNode : Node.SameText asked others node other)
      (hRest : Node.SameTextAll asked others rest more) :
      Node.SameTextAll asked others (node :: rest) (other :: more)

end

mutual

theorem Node.text_of_sameText {asked others : List String} {node other : Node}
    (h : Node.SameText asked others node other) : node.text asked = other.text others := by
  cases h with
  | leaf hText => exact hText
  | lead text => rfl
  | group hChildren =>
      rw [Node.text, Node.text, Node.texts_of_sameText hChildren,
        Node.blocks_of_sameText hChildren]

theorem Node.texts_of_sameText {asked others : List String} {nodes more : List Node}
    (h : Node.SameTextAll asked others nodes more) :
    Node.texts asked nodes = Node.texts others more := by
  cases h with
  | nil => rfl
  | cons hNode hRest =>
      rw [Node.texts, Node.texts, Node.text_of_sameText hNode, Node.texts_of_sameText hRest]

theorem Node.blocks_of_sameText {asked others bullets : List String} {nodes more : List Node}
    (h : Node.SameTextAll asked others nodes more) :
    Node.blocks asked bullets nodes = Node.blocks others bullets more := by
  cases h with
  | nil => rfl
  | cons hNode hRest =>
      cases hNode with
      | leaf hText => rw [Node.blocks, Node.blocks, hText, Node.blocks_of_sameText hRest]
      | lead text =>
          simp only [Node.blocks]
          rw [Node.blocks_of_sameText hRest]
          rfl
      | @group header children otherChildren hChildren =>
          have hText : (Node.group header children).text asked =
              (Node.group header otherChildren).text others :=
            Node.text_of_sameText (.group hChildren)
          simp only [Node.blocks]
          rw [hText, Node.blocks_of_sameText hRest]

end

/-- Decks that are the same up to their leaves have the same text if their leaves have. -/
theorem systemText_of_sameText {asked others : List String} {d : Deck} {children : List Node}
    (h : Node.SameTextAll asked others d.children children) :
    d.systemText asked = ({ d with children } : Deck).systemText others := by
  simp only [Deck.systemText]
  rw [Node.texts_of_sameText h, Node.blocks_of_sameText h]

end Deckwright
