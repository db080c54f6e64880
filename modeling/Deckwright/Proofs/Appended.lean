import Deckwright.Grader
import Deckwright.Proofs.Chunks

/-!
# A node behind a deck

What a node changes in the system text when it comes behind all others. Neighbouring leaves share a
block and an empty body of a tagged deck is left out, so it depends on the last nodes and on the
title what stands in front of the new text. But whatever was there stays as it is, and in front of
the new text come line feeds only (`precedes_append`).

Main result: `systemText_graded`. The group that asks for a grade is such a node, and its text is
the same for all decks of one layout.
-/

namespace Deckwright

/-- Line feeds, as many as given. -/
def lineFeeds (count : Nat) : String :=
  String.ofList (List.replicate count '\n')

/-- A part behind others stands behind a separator, unless there are no others. -/
theorem intercalate_append_singleton (sep : String) (parts : List String) (last : String) :
    sep.intercalate (parts ++ [last]) =
      sep.intercalate parts ++ (if parts = [] then "" else sep) ++ last := by
  by_cases hParts : parts = []
  · simp [hParts]
  · rw [String.intercalate_append_of_ne_nil hParts (by simp), if_neg hParts,
      String.intercalate_singleton]

/-- A part in front of others stands in front of a separator, unless there are no others. -/
theorem intercalate_cons (sep first : String) (rest : List String) :
    sep.intercalate (first :: rest) =
      first ++ (if rest = [] then "" else sep) ++ sep.intercalate rest := by
  by_cases hRest : rest = []
  · simp [hRest]
  · rw [← List.singleton_append, String.intercalate_append_of_ne_nil (by simp) hRest, if_neg hRest,
      String.intercalate_singleton]

namespace Node

variable {asked : List String}

/-- Nodes one per line. -/
def lineText (asked : List String) (nodes : List Node) : String :=
  String.intercalate "\n" (texts asked nodes)

theorem exists_of_isLeaf {node : Node} (h : node.isLeaf = true) :
    ∃ value samples, node = .leaf value samples := by
  cases node with
  | leaf value samples => exact ⟨value, samples, rfl⟩
  | lead text => cases h
  | group header children => cases h

theorem texts_append (nodes more : List Node) :
    texts asked (nodes ++ more) = texts asked nodes ++ texts asked more := by
  induction nodes with
  | nil => rfl
  | cons node rest ih => rw [List.cons_append, texts, ih, texts, List.cons_append]

theorem texts_eq_nil_iff {nodes : List Node} : texts asked nodes = [] ↔ nodes = [] := by
  cases nodes <;> simp [texts]

/-- A node that is no leaf closes the list in front of it and is a block of its own. -/
theorem blocks_cons {node : Node} (hNode : node.isLeaf = false) (bullets : List String)
    (rest : List Node) :
    blocks asked bullets (node :: rest) =
      bulletBlock bullets ++ node.text asked :: blocks asked [] rest := by
  cases node with
  | leaf value samples => cases hNode
  | lead text => rfl
  | group header children => rfl

theorem blocks_append_singleton {node : Node} (hNode : node.isLeaf = false)
    (bullets : List String) (nodes : List Node) :
    blocks asked bullets (nodes ++ [node]) = blocks asked bullets nodes ++ [node.text asked] := by
  induction nodes generalizing bullets with
  | nil => rw [List.nil_append, blocks_cons hNode, blocks, blocks, bulletBlock]
  | cons first rest ih =>
      rw [List.cons_append]
      cases hFirst : first.isLeaf with
      | true =>
          obtain ⟨value, samples, rfl⟩ := exists_of_isLeaf hFirst
          exact ih _
      | false =>
          rw [blocks_cons hFirst, blocks_cons hFirst, ih, List.append_assoc, List.cons_append]

theorem bulletBlock_eq_nil_iff {bullets : List String} :
    bulletBlock bullets = [] ↔ bullets = [] := by
  cases bullets <;> simp [bulletBlock]

theorem blocks_eq_nil_iff {bullets : List String} {nodes : List Node} :
    blocks asked bullets nodes = [] ↔ bullets = [] ∧ nodes = [] := by
  induction nodes generalizing bullets with
  | nil => simp [blocks, bulletBlock_eq_nil_iff]
  | cons first rest ih =>
      cases hFirst : first.isLeaf with
      | true =>
          obtain ⟨value, samples, rfl⟩ := exists_of_isLeaf hFirst
          simp [blocks, ih]
      | false => simp [blocks_cons hFirst]

/-- The text of a group starts with the tag or the heading of the group. -/
theorem head?_text_group (header : Header) (children : List Node) :
    ((Node.group header children).text asked).toList.head? =
      some (match header.layout with
        | .tagged => '<'
        | .markdown => '#') := by
  cases hLayout : header.layout with
  | tagged =>
      have hStart : "<".toList = ['<'] := by decide
      simp only [Node.text, hLayout, taggedText, String.toList_append, hStart]
      rfl
  | markdown =>
      obtain ⟨count, hCount⟩ : ∃ count, max 1 (min 6 header.level.toNat) = count + 1 :=
        Nat.exists_eq_succ_of_ne_zero (by omega)
      simp only [Node.text, hLayout, headingText, hCount, List.replicate_succ]
      rw [String.toList_intercalate]
      cases blocks asked [] children <;> simp

end Node

/-! ## Decks -/

section Decks

variable {asked : List String} {d : Deck}

/-- The deck with a node behind its content. -/
def Deck.append (d : Deck) (node : Node) : Deck :=
  { d with children := d.children ++ [node] }

/-- The texts of the nodes of a deck, one per line. -/
def Deck.body (d : Deck) (asked : List String) : String :=
  Node.lineText asked d.children

theorem systemText_tagged (h : d.layout = .tagged) :
    d.systemText asked =
      String.intercalate "\n" ((d.title.map titleText).toList ++
        if (d.body asked).isEmpty then [] else [d.body asked]) := by
  simp only [Deck.systemText, h]
  rfl

theorem systemText_untitled (h : d.layout = .tagged) (hTitle : d.title = none) :
    d.systemText asked = d.body asked := by
  rw [systemText_tagged h, hTitle]
  cases hEmpty : (d.body asked).isEmpty with
  | true => rw [String.isEmpty_iff.1 hEmpty]; rfl
  | false => rfl

theorem systemText_titled (h : d.layout = .tagged) {title : String}
    (hTitle : d.title = some title) :
    d.systemText asked =
      titleText title ++ if d.body asked = "" then "" else "\n" ++ d.body asked := by
  rw [systemText_tagged h, hTitle]
  by_cases hEmpty : d.body asked = ""
  · rw [if_pos hEmpty, hEmpty]
    exact String.append_empty.symm
  · rw [if_neg hEmpty, if_neg (by rwa [String.isEmpty_iff])]
    exact String.append_assoc

theorem systemText_markdown (h : d.layout = .markdown) :
    d.systemText asked =
      String.intercalate "\n\n" ((d.title.map titleText).toList ++
        Node.blocks asked [] d.children) := by
  simp only [Deck.systemText, h]

/-- What a deck becomes when a text stands behind its own: the text is as it was, at most two line
feeds follow it, and none only where there was nothing. -/
def Deck.Precedes (d : Deck) (asked : List String) (text whole : String) : Prop :=
  ∃ breaks ≤ 2, whole = d.systemText asked ++ lineFeeds breaks ++ text ∧
    (breaks = 0 ↔ d.title = none ∧ d.children = [])

theorem precedes_of_markdown (h : d.layout = .markdown) {node : Node}
    (hNode : node.isLeaf = false) :
    d.Precedes asked (node.text asked) ((d.append node).systemText asked) := by
  have hWhole : (d.append node).systemText asked =
      String.intercalate "\n\n" (((d.title.map titleText).toList ++
        Node.blocks asked [] d.children) ++ [node.text asked]) := by
    rw [systemText_markdown (d := d.append node) h, Deck.append,
      Node.blocks_append_singleton hNode, List.append_assoc]
  rw [Deck.Precedes, hWhole, intercalate_append_singleton, ← systemText_markdown h]
  have hNil : (d.title.map titleText).toList ++ Node.blocks asked [] d.children = [] ↔
      d.title = none ∧ d.children = [] := by
    rw [List.append_eq_nil_iff, Node.blocks_eq_nil_iff]
    cases d.title <;> simp
  by_cases hEmpty : (d.title.map titleText).toList ++ Node.blocks asked [] d.children = []
  · rw [if_pos hEmpty]
    exact ⟨0, by omega, rfl, iff_of_true rfl (hNil.1 hEmpty)⟩
  · rw [if_neg hEmpty]
    exact ⟨2, by omega, rfl, iff_of_false (by omega) (fun hNone => hEmpty (hNil.2 hNone))⟩

theorem body_append (node : Node) :
    (d.append node).body asked =
      d.body asked ++ (if d.children = [] then "" else "\n") ++ node.text asked := by
  rw [Deck.body, Deck.append, Node.lineText, Node.texts_append, Node.texts, Node.texts,
    intercalate_append_singleton]
  simp only [Node.texts_eq_nil_iff, Deck.body, Node.lineText]

theorem body_of_children_nil (h : d.children = []) : d.body asked = "" := by
  rw [Deck.body, h]
  rfl

theorem precedes_of_tagged (h : d.layout = .tagged) {node : Node}
    (hText : node.text asked ≠ "") :
    d.Precedes asked (node.text asked) ((d.append node).systemText asked) := by
  have hSome : (d.append node).body asked ≠ "" := by
    rw [body_append]
    simp [hText]
  have hOne : lineFeeds 1 = "\n" := by decide
  have hTwo : lineFeeds 2 = "\n" ++ "\n" := by decide
  cases hTitle : d.title with
  | none =>
      rw [Deck.Precedes, systemText_untitled (d := d.append node) h hTitle,
        systemText_untitled h hTitle, body_append]
      by_cases hChildren : d.children = []
      · rw [if_pos hChildren]
        exact ⟨0, by omega, rfl, by simp [hTitle, hChildren]⟩
      · rw [if_neg hChildren]
        exact ⟨1, by omega, rfl, by simp [hChildren]⟩
  | some title =>
      rw [Deck.Precedes, systemText_titled (d := d.append node) h hTitle, if_neg hSome,
        systemText_titled h hTitle, body_append]
      by_cases hChildren : d.children = []
      · -- only the title is there
        rw [if_pos hChildren, body_of_children_nil hChildren, if_pos rfl]
        refine ⟨1, by omega, ?_, by simp [hTitle]⟩
        rw [hOne, String.empty_append, String.empty_append, String.append_empty,
          String.append_assoc]
      · rw [if_neg hChildren]
        by_cases hBody : d.body asked = ""
        · -- the nodes that are there have no text, and their body was left out
          refine ⟨2, by omega, ?_, by simp [hTitle]⟩
          rw [if_pos hBody, hBody, hTwo, String.empty_append, String.append_empty,
            String.append_assoc, String.append_assoc]
        · refine ⟨1, by omega, ?_, by simp [hTitle]⟩
          rw [if_neg hBody, hOne]
          simp only [String.append_assoc]

/-- A node that is no leaf and has a text leaves the text in front of it as it was. -/
theorem precedes_append {node : Node} (hNode : node.isLeaf = false)
    (hText : node.text asked ≠ "") :
    d.Precedes asked (node.text asked) ((d.append node).systemText asked) := by
  cases hLayout : d.layout with
  | tagged => exact precedes_of_tagged hLayout hText
  | markdown => exact precedes_of_markdown hLayout hNode

/-! ## The group that asks for a grade -/

/-- The text that asks for a grade. -/
def Grader.evaluationText (layout : Layout) : String :=
  (Grader.group layout).text []

/-- The group has no samples, so no sample can be asked for in it. -/
theorem text_group (layout : Layout) (asked : List String) :
    (Grader.group layout).text asked = Grader.evaluationText layout := by
  cases layout with
  | tagged =>
      simp only [Grader.evaluationText, Grader.group, Grader.header, Grader.instructions, Node.text,
        Node.texts, leafText_nil]
  | markdown =>
      simp only [Grader.evaluationText, Grader.group, Grader.header, Grader.instructions, Node.text,
        Node.blocks, leafText_nil]

/--
**Grading keeps the deck.** In the system text of a deck that is graded the text of the deck comes
first, as it is without the grader, then line feeds only, none of them only where the deck is
empty, and then a text that depends on the layout alone and does not start with a line feed.
-/
theorem systemText_graded (d : Deck) (asked : List String) :
    ∃ breaks ≤ 2,
      d.graded.systemText asked =
        d.systemText asked ++ lineFeeds breaks ++ Grader.evaluationText d.layout ∧
      (breaks = 0 ↔ d.title = none ∧ d.children = []) ∧
      (Grader.evaluationText d.layout).toList.head? ≠ some '\n' := by
  have hHead : (Grader.evaluationText d.layout).toList.head? ≠ some '\n' := by
    rw [Grader.evaluationText, Grader.group, Node.head?_text_group]
    cases d.layout <;> simp [Grader.header]
  have hText : (Grader.group d.layout).text asked ≠ "" := by
    intro hEmpty
    have hStart := @Node.head?_text_group asked (Grader.header d.layout) Grader.instructions
    rw [← Grader.group, hEmpty] at hStart
    cases hStart
  have hPrecedes : d.Precedes asked ((Grader.group d.layout).text asked)
      (d.graded.systemText asked) :=
    precedes_append rfl hText
  obtain ⟨breaks, hLe, hWhole, hNone⟩ := hPrecedes
  rw [text_group] at hWhole
  exact ⟨breaks, hLe, hWhole, hNone, hHead⟩

end Decks

end Deckwright
