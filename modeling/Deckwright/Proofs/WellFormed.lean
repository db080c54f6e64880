import Deckwright.Proofs.Everywhere
import Deckwright.Proofs.Naming
import Deckwright.Proofs.Redeclarations
import Deckwright.Proofs.SoleEmbed

/-!
# Decks that are read are well formed

Whatever documents take part in a reading, the deck that comes of it is in good order: its texts
are tidy, its groups are groups of headings, and in each of its scopes the variables have different
names and stand where there are children to stand before or behind (`wellFormed_of_reads`).

Each part of this holds of a single piece of a document, and growing the deck keeps it. For the
variables of a scope this is so because a variable of a new name comes last, behind all children
that are there, and one of a known name takes over the position that it finds (`ScopeSorted`).
-/

namespace Deckwright

open Document (LevelInRange Tidy)

namespace Node

/-! ## Scopes -/

/-- The variables of a scope have different names, no position is behind the last child, and the
positions do not decrease. -/
structure ScopeSorted (declared : List ContextVariable) (children : List Node) : Prop
    extends ScopeOk declared children where
  ascending : declared.Pairwise fun v later => v.position ≤ later.position

variable {declared : List ContextVariable} {children : List Node}

theorem scopeSorted_nil (children : List Node) : ScopeSorted [] children where
  positions := PositionsOk.nil children
  nodup := List.nodup_nil
  ascending := List.Pairwise.nil

theorem ScopeSorted.append (h : ScopeSorted declared children) (more : List Node) :
    ScopeSorted declared (children ++ more) where
  positions := h.positions.append more
  nodup := h.nodup
  ascending := h.ascending

/-- Only the number of children matters for a scope. -/
theorem ScopeSorted.of_length {others : List Node} (h : ScopeSorted declared children)
    (hLength : others.length = children.length) : ScopeSorted declared others where
  positions := by
    intro v hMem
    have hLe := h.positions v hMem
    omega
  nodup := h.nodup
  ascending := h.ascending

theorem ScopeSorted.merge (h : ScopeSorted declared children) (v : ContextVariable) :
    ScopeSorted (mergeContext declared (v.atPosition children.length)) children where
  toScopeOk := h.toScopeOk.mergeContext rfl
  ascending := by
    by_cases hMem : (v.atPosition children.length).name ∈ declared.map ContextVariable.name
    · -- the variable takes the position of the one that it replaces
      obtain ⟨before, w, after, rfl, -, -, -, hMerge⟩ :=
        exists_mergeContext_of_mem h.toScopeOk hMem
      rw [hMerge]
      have hOld := h.ascending
      rw [List.pairwise_append, List.pairwise_cons] at hOld ⊢
      obtain ⟨hBefore, ⟨hLater, hAfter⟩, hAcross⟩ := hOld
      refine ⟨hBefore, ⟨hLater, hAfter⟩, ?_⟩
      intro u hu x hx
      rcases List.mem_cons.1 hx with rfl | hx
      · exact hAcross u hu w List.mem_cons_self
      · exact hAcross u hu x (List.mem_cons_of_mem w hx)
    · rw [mergeContext_of_new hMem, List.pairwise_append]
      refine ⟨h.ascending, List.pairwise_singleton _ _, ?_⟩
      intro u hu x hx
      rw [List.mem_singleton.1 hx]
      exact h.positions u hu

/-! ## Nodes -/

/-- A group that a heading has opened, and the variables that are declared in it. -/
structure GroupOk (header : Header) (children : List Node) : Prop where
  layout : header.layout = .markdown
  level : LevelInRange header.level
  name : Tidy header.name
  scope : ScopeSorted header.context children

/-- The node has no text that reading would not make, and if it is a group, all is well with it. -/
def WellFormed : Node → Prop
  | .leaf value _ => Tidy value
  | .lead text => blank text = false
  | .group header children => GroupOk header children

end Node

namespace Document

open Node (Everywhere ScopeSorted)

theorem blank_titleLead (text : String) : blank ("# " ++ text) = false := by
  rw [blank, String.toList_append]
  exact Markdown.isBlank_cons (by decide)

theorem kept_wellFormed : Kept Node.WellFormed where
  title := blank_titleLead
  grow {header children} more h := by
    have hGroup : Node.GroupOk header children := h
    exact ⟨hGroup.layout, hGroup.level, hGroup.name, hGroup.scope.append more⟩
  merge {header children} v h := by
    have hGroup : Node.GroupOk header children := h
    exact ⟨hGroup.layout, hGroup.level, hGroup.name, hGroup.scope.merge v⟩

/-- What a part makes by itself is well formed. -/
theorem Part.TextOk.makes {part : Part} (h : part.TextOk) : part.Makes Node.WellFormed := by
  cases part with
  | heading level text => exact ⟨rfl, h.1, h.2, Node.scopeSorted_nil []⟩
  | leaf text => exact h
  | lead text => exact h
  | definitions declared => trivial
  | document path fragment parts => trivial
  | failed error => trivial

/-- Samples are attached to well formed nodes, and do not change what they are. -/
theorem wellFormed_attach {named : Ordered Sample} (node : Node) (h : node.WellFormed) :
    (node.attach named).WellFormed := by
  cases node with
  | leaf value samples => exact h
  | lead text => exact h
  | group header children =>
      have hGroup : Node.GroupOk header children := h
      exact ⟨hGroup.layout, hGroup.level, hGroup.name,
        hGroup.scope.of_length (length_attachAll named children)⟩

/-! ## The scope of the deck -/

namespace Draft

/-- The variables of the deck, and the nodes at its top that are closed already. -/
def RootSorted (draft : Draft) : Prop :=
  ScopeSorted draft.context draft.root

namespace RootSorted

variable {draft : Draft}

theorem push (h : draft.RootSorted) (node : Node) : (draft.push node).RootSorted := by
  unfold Draft.push
  split
  · exact ScopeSorted.append h [node]
  · exact h

theorem pushAll (h : draft.RootSorted) (nodes : List Node) : (draft.pushAll nodes).RootSorted := by
  induction nodes generalizing draft with
  | nil => exact h
  | cons node rest ih => exact ih (h.push node)

theorem closeTo (h : draft.RootSorted) (level : UInt8) : (draft.closeTo level).RootSorted :=
  ScopeSorted.append h _

theorem addHeading (h : draft.RootSorted) (level : UInt8) (text : String) :
    (draft.addHeading level text).RootSorted := by
  have hNamed : RootSorted { draft with name := some text } := h
  unfold Draft.addHeading
  split
  · dsimp only
    split
    · exact h
    · exact (hNamed.closeTo 1).push _
  · exact h.closeTo level

theorem addContext (h : draft.RootSorted) (v : ContextVariable) :
    (draft.addContext v).RootSorted := by
  unfold Draft.addContext
  split
  · exact ScopeSorted.merge h v
  · exact h

theorem declare (h : draft.RootSorted) (context : List ContextVariable) (tools : List Tool)
    (samples : List Sample) : (draft.declare context tools samples).RootSorted := by
  have hFold : RootSorted (context.foldl Draft.addContext draft) := by
    induction context generalizing draft with
    | nil => exact h
    | cons v rest ih => exact ih (h.addContext v)
  exact hFold

theorem add {next : Draft} {part : Part} (h : draft.RootSorted)
    (hAdd : draft.add part = .ok next) : next.RootSorted := by
  cases added_of_ok hAdd with
  | heading level text => exact h.addHeading level text
  | leaf text => exact h.push _
  | lead text => exact h.push _
  | definitions declared => exact h.declare _ _ _
  | document hOwn hContent => exact (h.declare _ _ _).pushAll _

theorem addAll {last : Draft} {parts : List Part} (h : draft.RootSorted)
    (hAdd : draft.addAll parts = .ok last) : last.RootSorted := by
  induction parts generalizing draft with
  | nil =>
      simp only [Draft.addAll, Except.ok.injEq] at hAdd
      exact hAdd ▸ h
  | cons part rest ih =>
      obtain ⟨next, hPart, hRest⟩ := addAll_cons_ok hAdd
      exact ih (h.add hPart) hRest

end RootSorted

end Draft

end Document

/-! ## Decks -/

/-- The deck is in markdown layout, all is well with its nodes and its scope, and no two tools have
one name. -/
structure Deck.WellFormed (d : Deck) : Prop where
  layout : d.layout = .markdown
  nodes : Node.Everywhere Node.WellFormed d.children
  scope : Node.ScopeSorted d.context d.children
  tools : (d.tools.map Tool.name).Nodup

namespace Document

/-- A deck that is read is well formed, and the headings of level 1 of its own document, not of
embedded ones, say what it is called. -/
theorem wellFormed_of_reads {files : Files} {top : Source} {result : ReadDeck}
    (h : Reads files top result) :
    result.deck.WellFormed ∧ top.Names files result.deck := by
  obtain ⟨doc, hDoc, rfl⟩ := h.exists_doc
  have hTools := nodup_tools_of_ok hDoc
  have hNodes : Node.Everywhere Node.WellFormed doc.deck.children :=
    everywhere_ofParts kept_wellFormed (fun part hIn => (top.textOk_of_in hIn).makes) hDoc
  obtain ⟨draft, hAdd, rfl⟩ := ofParts_eq_ok hDoc
  have hEmpty : Draft.RootSorted {} := Node.scopeSorted_nil []
  have hScope : Node.ScopeSorted draft.finish.deck.context draft.finish.deck.children :=
    (hEmpty.addAll hAdd).closeTo 0
  have hNames := names_finish hAdd
  constructor
  · exact
      { layout := rfl
        nodes := everywhere_attachAll wellFormed_attach hNodes
        scope := hScope.of_length (length_attachAll _ _)
        tools := hTools }
  · exact ⟨hNames.titled, hNames.untitled⟩

/-- A file with a title, variables of its deck and of a group, and one that declares again what it
declares. -/
def lateTitleFiles : Files :=
  [(.ofString "inner.md", "# Inner\n\n![](slots.toml)\n\n### Deep\n- one\n\n![](slots.toml)"),
    (.ofString "slots.toml",
      "[contexts.x]\ntype = \"string\"\nquestion = \"X?\"\n\n[[tools]]\nname = \"look\"")]

/-- A text in which the heading that names the deck comes behind a leaf. -/
def lateTitle : Source :=
  ⟨[], {}, "- first\n\n# Late\n\n![](slots.toml)\n\n# Chapter\n\n![](inner.md)\n\n#"⟩

/-- The deck goes by its late heading and has no title; the title of the embedded file and the
second heading of level 1 have no part in it. -/
theorem wellFormed_of_reads_lateTitle : ∃ result, Reads lateTitleFiles lateTitle result ∧
    result.deck.WellFormed ∧ lateTitle.Names lateTitleFiles result.deck ∧
    result.deck.name = "Late" ∧ result.deck.title = none ∧
    result.deck.preorder = [.leaf "first", .lead "# Late", .group "Chapter" 1, .lead "# Inner",
      .group "Deep" 3, .leaf "one"] ∧
    result.deck.context.map (fun v => (v.name, v.position)) = [("x", 2)] := by
  have hRead : (read lateTitleFiles {} lateTitle.text).toOption.map (fun result =>
      (result.deck.name, result.deck.title, result.deck.preorder,
        result.deck.context.map fun v => (v.name, v.position))) =
      some ("Late", none, [.leaf "first", .lead "# Late", .group "Chapter" 1, .lead "# Inner",
        .group "Deep" 3, .leaf "one"], [("x", 2)]) := by
    decide +kernel
  obtain ⟨result, hResult, hFound⟩ := exists_of_toOption_map hRead
  simp only [Prod.mk.injEq] at hFound
  obtain ⟨hName, hTitle, hPreorder, hContext⟩ := hFound
  have hReads : Reads lateTitleFiles lateTitle result := .text hResult
  obtain ⟨hWellFormed, hNames⟩ := wellFormed_of_reads hReads
  exact ⟨result, hReads, hWellFormed, hNames, hName, hTitle, hPreorder, hContext⟩

end Document

end Deckwright
