import Deckwright.Proofs.Blocks
import Deckwright.Proofs.Standing

/-!
# Where a node stands in the text

Every node of a deck has a passage in the system text: a leaf its text, as a list item where the
parent is in markdown layout, a lead its text, a group its own text. The passages of siblings stand
in a row with only line feeds between them (`Node.row_cons`), and the row of a group stands between
the opening and the closing of the group (`Node.text_group_eq`). Nothing around a row depends on
what the nodes in it say, so the place of a passage is found by going down the tree.

A place is given by the text in front of it. `Node.before` says what is in front of the node at a
path of child numbers.

* `At.passage`: behind that stands the passage of the node.
* `before_sibling`: the passage of a node is over where that of a later sibling starts.
* `At.exists_row`: what is inside of a group stands between the opening and the closing.

Main result: `systemText_passages`, for the nodes of a deck at all depths.
-/

namespace Deckwright

namespace Node

/-! ## Siblings in a row -/

/-- What a node contributes to the text of a parent of the given layout. -/
def passage (asked : List String) : Layout → Node → String
  | .markdown, .leaf value samples => bullet (leafText asked value samples)
  | _, node => node.text asked

/-- The passages of siblings, one after the other. -/
def row (asked : List String) (under : Layout) (nodes : List Node) : String :=
  match under with
  | .tagged => lineText asked nodes
  | .markdown => blockText asked nodes

/-- What stands between a node and the siblings behind it. -/
def between (under : Layout) (node : Node) (rest : List Node) : String :=
  match under with
  | .tagged => lineGap rest
  | .markdown => if node.isLeaf then gap rest else if rest = [] then "" else "\n\n"

/-- What stands in front of the row of a group. -/
def opening (header : Header) (children : List Node) : String :=
  match header.layout with
  | .tagged => "<" ++ header.name ++ ">\n"
  | .markdown => headingText header ++ if children = [] then "" else "\n\n"

/-- What stands behind the row of a group. -/
def closing (asked : List String) (header : Header) (children : List Node) : String :=
  match header.layout with
  | .tagged =>
    (if row asked .tagged children = "" then "" else "\n") ++ ("</" ++ header.name ++ ">")
  | .markdown => ""

variable {asked : List String} {under : Layout}

theorem row_cons (node : Node) (rest : List Node) :
    row asked under (node :: rest) =
      node.passage asked under ++ between under node rest ++ row asked under rest := by
  cases under with
  | tagged => exact lineText_cons node rest
  | markdown =>
      show blockText asked (node :: rest) = _
      cases hNode : node.isLeaf with
      | true =>
          obtain ⟨value, samples, rfl⟩ := exists_of_isLeaf hNode
          exact blockText_leaf value samples rest
      | false =>
          have hPassage : node.passage asked .markdown = node.text asked := by
            cases node with
            | leaf value samples => cases hNode
            | lead text => rfl
            | group header children => rfl
          rw [blockText_cons hNode, hPassage, between, hNode]
          rfl

theorem passage_group (header : Header) (children : List Node) :
    (Node.group header children).passage asked under = (Node.group header children).text asked := by
  cases under <;> rfl

theorem text_group_eq (header : Header) (children : List Node) :
    (Node.group header children).text asked =
      opening header children ++ row asked header.layout children ++
        closing asked header children := by
  rw [Node.text, opening, closing]
  cases header.layout with
  | tagged =>
      show taggedText header.name (texts asked children) = _
      by_cases hBody : "\n".intercalate (texts asked children) = ""
      · simp only [taggedText, row, lineText, hBody, String.isEmpty_iff, if_true,
          String.append_empty, String.empty_append, String.append_assoc]
      · simp only [taggedText, row, lineText, hBody, String.isEmpty_iff, if_false,
          String.append_assoc]
  | markdown =>
      show String.intercalate "\n\n" (headingText header :: blocks asked [] children) = _
      rw [intercalate_cons]
      simp only [blocks_eq_nil_iff, true_and, row, blockText, String.append_empty]

/-! ## The way to a node -/

/-- The node at a path below the given nodes, which have a parent of layout `under`: the path gives
the number of the child at each step, and `inner` is the layout of the node's own parent. -/
inductive At : Layout → List Node → List Nat → Layout → Node → Prop where
  | child {under : Layout} {nodes : List Node} {index : Nat} {node : Node}
      (h : nodes[index]? = some node) : At under nodes [index] under node
  | inside {under inner : Layout} {nodes children : List Node} {index : Nat} {header : Header}
      {path : List Nat} {node : Node} (hGroup : nodes[index]? = some (.group header children))
      (h : At header.layout children path inner node) : At under nodes (index :: path) inner node

/-- The text in front of a node in the row of its siblings. -/
def ahead (asked : List String) (under : Layout) : List Node → Nat → String
  | node :: rest, index + 1 =>
    node.passage asked under ++ between under node rest ++ ahead asked under rest index
  | _, _ => ""

/-- The text in front of the node at a path, from where the row of the given nodes starts. -/
def before (asked : List String) (under : Layout) (nodes : List Node) : List Nat → String
  | [] => ""
  | [index] => ahead asked under nodes index
  | index :: next :: path =>
    ahead asked under nodes index ++
      match nodes[index]? with
      | some (.group header children) =>
        opening header children ++ before asked header.layout children (next :: path)
      | _ => ""

variable {nodes children : List Node} {index : Nat} {header : Header} {path : List Nat}
  {inner : Layout} {node : Node}

theorem At.ne_nil (h : At under nodes path inner node) : path ≠ [] := by
  cases h <;> exact List.cons_ne_nil _ _

theorem at_singleton_iff :
    At under nodes [index] inner node ↔ nodes[index]? = some node ∧ inner = under := by
  constructor
  · intro h
    cases h with
    | child h => exact ⟨h, rfl⟩
    | inside hGroup h => exact absurd rfl h.ne_nil
  · rintro ⟨h, rfl⟩
    exact .child h

theorem at_cons_iff (hPath : path ≠ []) :
    At under nodes (index :: path) inner node ↔
      ∃ header children, nodes[index]? = some (.group header children) ∧
        At header.layout children path inner node := by
  constructor
  · intro h
    cases h with
    | child h => exact absurd rfl hPath
    | inside hGroup h => exact ⟨_, _, hGroup, h⟩
  · rintro ⟨header, children, hGroup, h⟩
    exact .inside hGroup h

theorem ahead_zero : ahead asked under nodes 0 = "" := by
  cases nodes <;> rfl

theorem before_cons (hGroup : nodes[index]? = some (.group header children)) (hPath : path ≠ []) :
    before asked under nodes (index :: path) =
      ahead asked under nodes index ++ opening header children ++
        before asked header.layout children path := by
  obtain ⟨next, rest, rfl⟩ := List.exists_cons_of_ne_nil hPath
  simp only [before, hGroup, String.append_assoc]

/-- A node stands in the row of its siblings behind what is in front of it. -/
theorem row_of_getElem? (asked : List String) (under : Layout) (h : nodes[index]? = some node) :
    ∃ after, row asked under nodes =
      ahead asked under nodes index ++ node.passage asked under ++ after := by
  induction nodes generalizing index with
  | nil => simp at h
  | cons first rest ih =>
      cases index with
      | zero =>
          obtain rfl : first = node := by simpa using h
          refine ⟨between under first rest ++ row asked under rest, ?_⟩
          rw [row_cons, ahead_zero, String.empty_append, String.append_assoc]
      | succ index =>
          obtain ⟨after, hRow⟩ := ih (by simpa using h)
          refine ⟨after, ?_⟩
          rw [row_cons, ahead, hRow]
          simp only [String.append_assoc]

/-- The passage of a node is over where that of a later sibling starts. -/
theorem ahead_of_lt {later : Nat} {other : Node} (h : nodes[index]? = some node)
    (hOther : nodes[later]? = some other) (hLess : index < later) :
    ∃ gap, ahead asked under nodes later =
      ahead asked under nodes index ++ node.passage asked under ++ gap := by
  induction nodes generalizing index later with
  | nil => simp at h
  | cons first rest ih =>
      obtain ⟨later, rfl⟩ := Nat.exists_eq_succ_of_ne_zero (Nat.ne_zero_of_lt hLess)
      cases index with
      | zero =>
          obtain rfl : first = node := by simpa using h
          refine ⟨between under first rest ++ ahead asked under rest later, ?_⟩
          rw [ahead, ahead_zero, String.empty_append, String.append_assoc]
      | succ index =>
          obtain ⟨gap, hAhead⟩ := ih (by simpa using h) (by simpa using hOther)
            (Nat.lt_of_succ_lt_succ hLess)
          refine ⟨gap, ?_⟩
          rw [ahead, ahead, hAhead]
          simp only [String.append_assoc]

/-! ## Passages -/

/-- Behind the text in front of a node stands its passage. -/
theorem At.passage (asked : List String) (h : At under nodes path inner node) :
    ∃ after, row asked under nodes =
      before asked under nodes path ++ node.passage asked inner ++ after := by
  induction h with
  | child h => exact row_of_getElem? asked _ h
  | @inside under inner nodes children index header path node hGroup h ih =>
      obtain ⟨after, hRow⟩ := row_of_getElem? asked under hGroup
      obtain ⟨rest, hInner⟩ := ih
      refine ⟨rest ++ closing asked header children ++ after, ?_⟩
      rw [hRow, passage_group, text_group_eq, hInner, before_cons hGroup h.ne_nil]
      simp only [String.append_assoc]

/-- In front of the second item of a list, in a group that has no tags inside of one that has. -/
example :
    before [] .tagged
      [.group { name := "A", level := 1, layout := .tagged } [.lead "x",
        .group { name := "B", level := 2, layout := .markdown } [.leaf "y" [], .leaf "z" []]]]
      [0, 1, 1] = "<A>\nx\n## B\n\n- y\n" := by decide +kernel

/-- Behind the way to a group goes the way on inside of it. -/
theorem At.append_iff {more : List Nat} {last : Layout}
    (h : At under nodes path inner (.group header children)) (hMore : more ≠ []) :
    At under nodes (path ++ more) last node ↔ At header.layout children more last node := by
  generalize hNode : Node.group header children = group at h
  induction h with
  | child h =>
      subst hNode
      rw [List.singleton_append, at_cons_iff hMore]
      simp [h]
  | inside hGroup h ih =>
      rw [List.cons_append, at_cons_iff (List.append_ne_nil_of_left_ne_nil h.ne_nil more),
        ← ih hNode]
      simp [hGroup]

theorem At.before_append {more : List Nat}
    (h : At under nodes path inner (.group header children)) (hMore : more ≠ []) :
    before asked under nodes (path ++ more) =
      before asked under nodes path ++ opening header children ++
        before asked header.layout children more := by
  generalize hNode : Node.group header children = group at h
  induction h with
  | child h =>
      subst hNode
      exact before_cons h hMore
  | inside hGroup h ih =>
      rw [List.cons_append, before_cons hGroup (List.append_ne_nil_of_left_ne_nil h.ne_nil more),
        before_cons hGroup h.ne_nil, ih hNode]
      simp only [String.append_assoc]

/-- The passage of a node is over where that of a later sibling starts, at any depth. -/
theorem before_sibling (asked : List String) {later : Nat} {last : Layout} {other : Node}
    (h : At under nodes (path ++ [index]) inner node)
    (hOther : At under nodes (path ++ [later]) last other) (hLess : index < later) :
    ∃ gap, before asked under nodes (path ++ [later]) =
      before asked under nodes (path ++ [index]) ++ node.passage asked inner ++ gap := by
  induction path generalizing under nodes with
  | nil =>
      obtain ⟨hNode, rfl⟩ := at_singleton_iff.1 h
      exact ahead_of_lt hNode (at_singleton_iff.1 hOther).1 hLess
  | cons first rest ih =>
      have hRest : ∀ number : Nat, rest ++ [number] ≠ [] := fun number => by simp
      obtain ⟨header, children, hGroup, hInner⟩ := (at_cons_iff (hRest index)).1 h
      obtain ⟨header', children', hGroup', hLater⟩ := (at_cons_iff (hRest later)).1 hOther
      obtain ⟨rfl, rfl⟩ := Node.group.inj (Option.some.inj (hGroup'.symm.trans hGroup))
      obtain ⟨gap, hGap⟩ := ih hInner hLater
      refine ⟨gap, ?_⟩
      rw [List.cons_append, List.cons_append, before_cons hGroup (hRest later),
        before_cons hGroup (hRest index), hGap]
      simp only [String.append_assoc]

/-- Every node of a tree is at the end of a path. -/
theorem exists_at_of_stand (h : Node.Stand [node] nodes) (under : Layout) :
    ∃ path inner, At under nodes path inner node := by
  induction h generalizing under with
  | @here nodes h =>
      obtain ⟨index, hIndex⟩ := List.mem_iff_getElem?.1 (h.subset (List.mem_singleton_self node))
      exact ⟨[index], under, .child hIndex⟩
  | @within nodes header children hGroup h ih =>
      obtain ⟨index, hIndex⟩ := List.mem_iff_getElem?.1 hGroup
      obtain ⟨path, inner, hAt⟩ := ih header.layout
      exact ⟨index :: path, inner, .inside hIndex hAt⟩

/-- What is inside of a group stands in the row of the group, behind the opening. -/
theorem At.exists_row (asked : List String) {more : List Nat} {last : Layout}
    (hGroup : At under nodes path inner (.group header children)) (hMore : more ≠ [])
    (h : At under nodes (path ++ more) last node) :
    ∃ front back,
      row asked header.layout children = front ++ node.passage asked last ++ back ∧
      before asked under nodes (path ++ more) =
        before asked under nodes path ++ opening header children ++ front := by
  obtain ⟨back, hRow⟩ := At.passage asked ((hGroup.append_iff hMore).1 h)
  exact ⟨before asked header.layout children more, back, hRow, hGroup.before_append hMore⟩

/-- A tagged group is its row between its tags, each of them on a line of its own. -/
theorem passage_tagged (hTagged : header.layout = .tagged) :
    (Node.group header children).passage asked under =
      "<" ++ header.name ++ ">\n" ++ row asked header.layout children ++
        (if row asked header.layout children = "" then "" else "\n") ++
          ("</" ++ header.name ++ ">") := by
  rw [passage_group, text_group_eq, opening, closing, hTagged]
  simp only [String.append_assoc]

/-- The closing tag of a group is at the start of a line. -/
theorem exists_passage_append (asked : List String) (under : Layout)
    (hTagged : header.layout = .tagged) :
    ∃ rest, (Node.group header children).passage asked under =
      rest ++ ("\n</" ++ header.name ++ ">") := by
  have hOpen : ">\n" = ">" ++ "\n" := by decide
  have hClose : "\n</" = "\n" ++ "</" := by decide
  rw [passage_tagged hTagged]
  by_cases hRow : row asked header.layout children = ""
  · -- the line feed behind the opening tag is the one in front of the closing tag
    refine ⟨"<" ++ header.name ++ ">", ?_⟩
    rw [if_pos hRow, hRow, hOpen, hClose]
    simp only [String.append_assoc, String.empty_append]
  · refine ⟨"<" ++ header.name ++ ">\n" ++ row asked header.layout children, ?_⟩
    rw [if_neg hRow, hClose]
    simp only [String.append_assoc]

end Node

/-! ## Decks -/

/-- The passages of a deck are laid out in its text, with `before path` in front of the passage of
the node at a path. -/
structure Deck.Laid (d : Deck) (asked : List String) (before : List Nat → String) : Prop where
  /-- Behind the text in front of a node stands its passage, in one piece. -/
  stands {path : List Nat} {under : Layout} {node : Node}
    (h : Node.At d.layout d.children path under node) :
    ∃ after, d.systemText asked = before path ++ node.passage asked under ++ after
  /-- Siblings stand in the order they have as children, and none starts before the other ends. -/
  siblings {path : List Nat} {index later : Nat} {under beside : Layout} {node other : Node}
    (h : Node.At d.layout d.children (path ++ [index]) under node)
    (hOther : Node.At d.layout d.children (path ++ [later]) beside other) (hLess : index < later) :
    ∃ gap, before (path ++ [later]) = before (path ++ [index]) ++ node.passage asked under ++ gap
  /-- What is inside of a group, at any depth, stands inside of the passage of the group. -/
  inside {path more : List Nat} {under inner : Layout} {header : Header} {children : List Node}
    {node : Node} (hGroup : Node.At d.layout d.children path under (.group header children))
    (h : Node.At d.layout d.children (path ++ more) inner node) (hMore : more ≠ []) :
    ∃ front back,
      (Node.group header children).passage asked under =
        front ++ node.passage asked inner ++ back ∧
      before (path ++ more) = before path ++ front
  /-- The passage of a tagged group starts with the one tag and a line feed and ends with a line
  feed and the other tag. An empty row has no line of its own, and the line feeds are the same. -/
  tagged {path : List Nat} {under : Layout} {header : Header} {children : List Node}
    (hGroup : Node.At d.layout d.children path under (.group header children))
    (hTagged : header.layout = .tagged) :
    (∃ rest, (Node.group header children).passage asked under =
      "<" ++ header.name ++ ">\n" ++ rest) ∧
    (∃ rest, (Node.group header children).passage asked under =
      rest ++ ("\n</" ++ header.name ++ ">")) ∧
    ∃ body, (Node.group header children).passage asked under =
        "<" ++ header.name ++ ">\n" ++ body ++ (if body = "" then "" else "\n") ++
          ("</" ++ header.name ++ ">") ∧
      ∀ more inner node, more ≠ [] →
        Node.At d.layout d.children (path ++ more) inner node →
        ∃ front back, body = front ++ node.passage asked inner ++ back ∧
          before (path ++ more) = before path ++ ("<" ++ header.name ++ ">\n") ++ front

section Decks

variable {d : Deck} {asked : List String}

/-- What stands in front of the row of a deck. -/
def Deck.opening (d : Deck) (asked : List String) : String :=
  match d.title, d.layout with
  | none, _ => ""
  | some title, .tagged =>
    titleText title ++ if Node.row asked .tagged d.children = "" then "" else "\n"
  | some title, .markdown => titleText title ++ if d.children = [] then "" else "\n\n"

theorem systemText_eq_row :
    d.systemText asked = d.opening asked ++ Node.row asked d.layout d.children := by
  cases hLayout : d.layout with
  | tagged =>
      cases hTitle : d.title with
      | none =>
          rw [systemText_untitled hLayout hTitle, Deck.opening, hTitle, String.empty_append]
          rfl
      | some title =>
          rw [systemText_titled hLayout hTitle]
          simp only [Deck.opening, hTitle, hLayout]
          show titleText title ++ (if Node.lineText asked d.children = "" then "" else _) =
            titleText title ++ (if Node.lineText asked d.children = "" then "" else _) ++ _
          by_cases hBody : Node.lineText asked d.children = ""
          · simp only [hBody, if_true, Node.row, String.append_empty]
          · simp only [hBody, if_false, Node.row, Deck.body, String.append_assoc]
  | markdown =>
      rw [systemText_markdown hLayout]
      cases hTitle : d.title with
      | none =>
          simp only [Deck.opening, hTitle, String.empty_append]
          rfl
      | some title =>
          simp only [Deck.opening, hTitle, hLayout, Option.map_some, Option.toList_some,
            List.singleton_append, intercalate_cons, Node.blocks_eq_nil_iff, true_and]
          rfl

/--
**The text has the shape of the tree.** Every node of a deck, at any depth and in any mix of
layouts, has a passage in the text of the deck. Passages of siblings follow one another, and what is
inside of a group stands inside of the passage of the group, between the tags if it has tags.
-/
theorem systemText_passages (d : Deck) (asked : List String) :
    (∀ node, Node.Stand [node] d.children →
      ∃ path under, Node.At d.layout d.children path under node) ∧
    ∃ before, d.Laid asked before := by
  refine ⟨fun node h => Node.exists_at_of_stand h d.layout,
    fun path => d.opening asked ++ Node.before asked d.layout d.children path, ?_⟩
  constructor
  case stands =>
    intro path under node h
    obtain ⟨after, hRow⟩ := h.passage asked
    refine ⟨after, ?_⟩
    rw [systemText_eq_row, hRow]
    simp only [String.append_assoc]
  case siblings =>
    intro path index later under beside node other h hOther hLess
    obtain ⟨gap, hGap⟩ := Node.before_sibling asked h hOther hLess
    refine ⟨gap, ?_⟩
    rw [hGap]
    simp only [String.append_assoc]
  case inside =>
    intro path more under inner header children node hGroup h hMore
    obtain ⟨front, back, hRow, hBefore⟩ := hGroup.exists_row asked hMore h
    refine ⟨Node.opening header children ++ front, back ++ Node.closing asked header children,
      ?_, ?_⟩
    · rw [Node.passage_group, Node.text_group_eq, hRow]
      simp only [String.append_assoc]
    · rw [hBefore]
      simp only [String.append_assoc]
  case tagged =>
    intro path under header children hGroup hTagged
    have hPassage := @Node.passage_tagged asked under children header hTagged
    refine ⟨?_, Node.exists_passage_append asked under hTagged,
      Node.row asked header.layout children, hPassage, ?_⟩
    · rw [hPassage, String.append_assoc, String.append_assoc]
      exact ⟨_, rfl⟩
    · intro more inner node hMore h
      obtain ⟨front, back, hRow, hBefore⟩ := hGroup.exists_row asked hMore h
      refine ⟨front, back, hRow, ?_⟩
      rw [hBefore, Node.opening, hTagged]
      simp only [String.append_assoc]

end Decks

end Deckwright
