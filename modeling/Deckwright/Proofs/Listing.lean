import Deckwright.Document.Reading

/-!
# Listings

Two listings of a document, written down independently of each other.

* `Deck.preorder` lists the tree that reading makes: every leaf and lead by its text, every
  group by its name and level in front of its children, and the title in front of it all.
* `Document.listing` lists the text that is read: the blocks in their order, with the listing
  of an embedded document where its embed stands. It knows of no tree, no open groups and no
  pieces of text that are still to be put somewhere.

An `Entry` is one line of either. `Node.placed` is the preorder once more with the places: the
number of an entry is its index in the listing, and each entry carries the numbers of the groups
around it. That is the form in which growing drafts are described, see
`Deckwright.Proofs.Growth`.
-/

namespace Deckwright

/-- One line of a listing. -/
inductive Entry where
  | leaf (value : String)
  | lead (text : String)
  | group (name : String) (level : UInt8)
  deriving DecidableEq, Inhabited

/-- The line for the first heading of level 1, which makes no group. -/
def Entry.title (text : String) : Entry :=
  .lead ("# " ++ text)

/-! ## The listing of a tree -/

mutual

/-- A node and everything below it, parents first. -/
def Node.preorder : Node → List Entry
  | .leaf value _ => [.leaf value]
  | .lead text => [.lead text]
  | .group header children => .group header.name header.level :: Node.preorderAll children

/-- `Node.preorder` of the nodes of a list, one after the other. -/
def Node.preorderAll : List Node → List Entry
  | [] => []
  | node :: rest => node.preorder ++ Node.preorderAll rest

end

/-- The title of a deck as a line, and then its tree. -/
def Deck.preorder (d : Deck) : List Entry :=
  (d.title.map Entry.title).toList ++ Node.preorderAll d.children

/-- A line together with the numbers of the groups around it, the innermost first. -/
abbrev Placed := List Nat × Entry

mutual

/-- The lines of a node that has the given number, inside the groups of the given numbers. -/
def Node.placed (around : List Nat) (number : Nat) : Node → List Placed
  | .leaf value _ => [(around, .leaf value)]
  | .lead text => [(around, .lead text)]
  | .group header children =>
    (around, .group header.name header.level) ::
      Node.placedAll (number :: around) (number + 1) children

/-- The lines of a list of nodes, the first of which has the given number. -/
def Node.placedAll (around : List Nat) (number : Nat) : List Node → List Placed
  | [] => []
  | node :: rest =>
    node.placed around number ++ Node.placedAll around (number + node.preorder.length) rest

end

/-- The lines of a deck with their places; the title, where there is one, has the number 0. -/
def Deck.placed (d : Deck) : List Placed :=
  let title := (d.title.map fun text => (([] : List Nat), Entry.title text)).toList
  title ++ Node.placedAll [] title.length d.children

mutual

theorem Node.map_snd_placed (around : List Nat) (number : Nat) (node : Node) :
    (node.placed around number).map Prod.snd = node.preorder := by
  cases node with
  | leaf value samples => rfl
  | lead text => rfl
  | group header children =>
      simp only [Node.placed, Node.preorder, List.map_cons]
      rw [Node.map_snd_placedAll]

theorem Node.map_snd_placedAll (around : List Nat) (number : Nat) (nodes : List Node) :
    (Node.placedAll around number nodes).map Prod.snd = Node.preorderAll nodes := by
  cases nodes with
  | nil => rfl
  | cons node rest =>
      simp only [Node.placedAll, Node.preorderAll, List.map_append]
      rw [Node.map_snd_placed, Node.map_snd_placedAll]

end

/-- The places of the lines do not change what is listed. -/
theorem Deck.map_snd_placed (d : Deck) : d.placed.map Prod.snd = d.preorder := by
  simp only [Deck.placed, Deck.preorder, List.map_append, Node.map_snd_placedAll]
  cases d.title <;> rfl

@[simp] theorem Node.length_placed (around : List Nat) (number : Nat) (node : Node) :
    (node.placed around number).length = node.preorder.length := by
  rw [← Node.map_snd_placed around number node, List.length_map]

@[simp] theorem Node.length_placedAll (around : List Nat) (number : Nat) (nodes : List Node) :
    (Node.placedAll around number nodes).length = (Node.preorderAll nodes).length := by
  rw [← Node.map_snd_placedAll around number nodes, List.length_map]

theorem Node.preorderAll_append (nodes more : List Node) :
    Node.preorderAll (nodes ++ more) = Node.preorderAll nodes ++ Node.preorderAll more := by
  induction nodes with
  | nil => rfl
  | cons node rest ih => simp [Node.preorderAll, ih]

theorem Node.placedAll_append (around : List Nat) (number : Nat) (nodes more : List Node) :
    Node.placedAll around number (nodes ++ more) =
      Node.placedAll around number nodes ++
        Node.placedAll around (number + (Node.preorderAll nodes).length) more := by
  induction nodes generalizing number with
  | nil => simp [Node.placedAll, Node.preorderAll]
  | cons node rest ih =>
      simp [Node.placedAll, Node.preorderAll, ih, Nat.add_assoc]

mutual

/-- The lines of a node are inside the groups around it, and else only inside groups of its own. -/
theorem Node.around_placed {around : List Nat} {number : Nat} {node : Node}
    {line : Placed} (h : line ∈ node.placed around number) :
    ∃ inner, line.1 = inner ++ around ∧ ∀ n ∈ inner, number ≤ n := by
  cases node with
  | leaf value samples =>
      simp only [Node.placed, List.mem_singleton] at h
      exact ⟨[], by simp [h], by simp⟩
  | lead text =>
      simp only [Node.placed, List.mem_singleton] at h
      exact ⟨[], by simp [h], by simp⟩
  | group header children =>
      simp only [Node.placed, List.mem_cons] at h
      rcases h with rfl | hChild
      · exact ⟨[], rfl, by simp⟩
      · obtain ⟨inner, hLine, hInner⟩ := Node.around_placedAll hChild
        refine ⟨inner ++ [number], by simp [hLine], ?_⟩
        intro n hMem
        rcases List.mem_append.1 hMem with hIn | hOwn
        · exact Nat.le_of_succ_le (hInner n hIn)
        · exact Nat.le_of_eq (List.mem_singleton.1 hOwn).symm

theorem Node.around_placedAll {around : List Nat} {number : Nat}
    {nodes : List Node} {line : Placed} (h : line ∈ Node.placedAll around number nodes) :
    ∃ inner, line.1 = inner ++ around ∧ ∀ n ∈ inner, number ≤ n := by
  cases nodes with
  | nil => simp [Node.placedAll] at h
  | cons node rest =>
      rcases List.mem_append.1 h with hNode | hRest
      · exact Node.around_placed hNode
      · obtain ⟨inner, hLine, hInner⟩ := Node.around_placedAll hRest
        refine ⟨inner, hLine, ?_⟩
        intro n hMem
        have := hInner n hMem
        omega

end

mutual

/-- Attaching samples to leaves does not change what is listed. -/
theorem Node.preorder_attach (named : Ordered Sample) (node : Node) :
    (node.attach named).preorder = node.preorder := by
  cases node with
  | leaf value samples => rfl
  | lead text => rfl
  | group header children =>
      simp only [Node.attach, Node.preorder]
      rw [Node.preorderAll_attachAll]

theorem Node.preorderAll_attachAll (named : Ordered Sample) (nodes : List Node) :
    Node.preorderAll (Node.attachAll named nodes) = Node.preorderAll nodes := by
  cases nodes with
  | nil => rfl
  | cons node rest =>
      simp only [Node.attachAll, Node.preorderAll]
      rw [Node.preorder_attach, Node.preorderAll_attachAll]

end

mutual

/-- Attached samples move no line. -/
theorem Node.placed_attach (named : Ordered Sample) (around : List Nat) (number : Nat)
    (node : Node) : (node.attach named).placed around number = node.placed around number := by
  cases node with
  | leaf value samples => rfl
  | lead text => rfl
  | group header children =>
      simp only [Node.attach, Node.placed]
      rw [Node.placedAll_attachAll]

theorem Node.placedAll_attachAll (named : Ordered Sample) (around : List Nat) (number : Nat)
    (nodes : List Node) :
    Node.placedAll around number (Node.attachAll named nodes) =
      Node.placedAll around number nodes := by
  cases nodes with
  | nil => rfl
  | cons node rest =>
      simp only [Node.attachAll, Node.placedAll, Node.preorder_attach]
      rw [Node.placed_attach, Node.placedAll_attachAll]

end

/-! ## The listing of a text -/

namespace Markdown

/-- The file that an inline embeds, if it embeds one. -/
def Inline.embed? : Inline → Option Document.Embed
  | .text _ => none
  | .image _ target => Document.Embed.ofTarget? target

/-- An inline as text. -/
def Inline.written : Inline → String
  | .text run => run
  | .image alt target => "![" ++ alt ++ "](" ++ target ++ ")"

/-- Inline content cut at its embeds: the text in front of the first one, and each embed with
the text between it and the next. -/
def cutAtEmbeds : List Inline → String × List (Document.Embed × String)
  | [] => ("", [])
  | inline :: rest =>
    let (run, more) := cutAtEmbeds rest
    match inline.embed? with
    | some embed => ("", (embed, run) :: more)
    | none => (inline.written ++ run, more)

/-- Whether a block is a heading of level 1 that is not empty. -/
def Block.isTitle : Block → Bool
  | .heading level text => level = 1 && !text.isEmpty
  | _ => false

end Markdown

namespace Document

open Markdown (Inline Block cutAtEmbeds)

/-- The line of a run of text; a blank run makes none. -/
def runListing (make : String → Entry) (run : String) : List Entry :=
  if blank run then [] else [make (trimmed run)]

/-- The listing of inline content, given what is listed for an embed. -/
def contentListing (make : String → Entry) (embedded : Embed → List Entry)
    (content : List Inline) : List Entry :=
  let (first, more) := cutAtEmbeds content
  runListing make first ++ more.flatMap fun (embed, run) => embedded embed ++ runListing make run

/-- The listing of a block; `named` tells whether a heading of level 1 came before. -/
def blockListing (embedded : Embed → List Entry) (named : Bool) : Block → List Entry
  | .heading level text =>
    if text.isEmpty then []
    else if level = 1 && !named then [.title text]
    else [.group text (UInt8.ofNat level)]
  | .list items => items.flatMap fun item => contentListing .leaf embedded (Markdown.inlines item)
  | .code text => [.lead text]
  | .paragraph content => contentListing .lead embedded content

/-- The listings of blocks in their order. -/
def blocksListing (embedded : Embed → List Entry) : (named : Bool) → List Block → List Entry
  | _, [] => []
  | named, block :: rest =>
    blockListing embedded named block ++ blocksListing embedded (named || block.isTitle) rest

/-- The preorder of the group that the fragment names in the tree of an expansion. -/
def selectionListing (parts : List Part) (fragment : String) : List Entry :=
  match ofParts parts with
  | .ok doc => ((doc.content? (some fragment)).map Node.preorderAll).getD []
  | .error _ => []

/--
The listing of a document in the directory `base`: of its blocks in their order, and in the
place of an embed that of the embedded document, or of the group that is wanted of it. The
documents on the `chain` are open, so they are not embedded again.
-/
def listing (files : Files) (chain : List Path) (base : Path) (text : String) : List Entry :=
  blocksListing (fun embed =>
    let path := (base.join embed.file).normalize
    match embed.kind with
    | .toml => []
    | .markdown =>
      if hNew : path ∈ chain then []
      else
        match hFile : files.find? path with
        | none => []
        | some inner =>
          have := Files.unvisited_lt hNew hFile
          match embed.fragment with
          | none => listing files (path :: chain) path.parent inner
          | some fragment =>
            selectionListing (expand files (path :: chain) path.parent inner) fragment)
    false (Markdown.blocks text)
termination_by files.unvisited chain

end Document

end Deckwright
