import Deckwright.Proofs.Growth

/-!
# Embedded content stays whole

What is wanted of an embedded document, its whole tree or one group of it, is pushed into the
draft of the document that embeds it, and no later operation on that draft looks inside a node
again. So it stands in the finished tree as it was: the same nodes, side by side and in the same
order (`stand_of_mem_parts`).
-/

namespace Deckwright

/-- The nodes stand somewhere in a tree: unchanged, as neighbours and in this order. -/
inductive Node.Stand (nodes : List Node) : List Node → Prop where
  | here {tree : List Node} (h : nodes <:+: tree) : Node.Stand nodes tree
  | within {tree : List Node} {header : Header} {children : List Node}
      (hGroup : .group header children ∈ tree) (h : Node.Stand nodes children) :
      Node.Stand nodes tree

theorem Node.Stand.append_right {nodes tree : List Node} (h : Node.Stand nodes tree)
    (more : List Node) : Node.Stand nodes (tree ++ more) := by
  cases h with
  | here hInfix => exact .here (hInfix.trans (List.prefix_append _ _).isInfix)
  | within hGroup hBelow => exact .within (List.mem_append_left more hGroup) hBelow

theorem Node.Stand.append_left {nodes tree : List Node} (h : Node.Stand nodes tree)
    (more : List Node) : Node.Stand nodes (more ++ tree) := by
  cases h with
  | here hInfix => exact .here (hInfix.trans (List.suffix_append _ _).isInfix)
  | within hGroup hBelow => exact .within (List.mem_append_right more hGroup) hBelow

namespace Document

/-- The nodes stand in the tree of a draft or below one of its open groups. -/
def Draft.Holds (nodes : List Node) (draft : Draft) : Prop :=
  Node.Stand nodes draft.root ∨ ∃ group ∈ draft.opened, Node.Stand nodes group.children

namespace Draft.Holds

variable {nodes : List Node} {draft : Draft}

theorem push (h : Holds nodes draft) (node : Node) : Holds nodes (draft.push node) := by
  unfold Draft.push
  split
  · exact h.imp_left fun hRoot => hRoot.append_right [node]
  · rename_i group outer hOpened
    refine h.imp_right ?_
    rintro ⟨other, hMem, hStand⟩
    rw [hOpened, List.mem_cons] at hMem
    rcases hMem with rfl | hOuter
    · exact ⟨_, List.mem_cons_self, hStand.append_right [node]⟩
    · exact ⟨other, List.mem_cons_of_mem _ hOuter, hStand⟩

theorem closeGroups {pending : List Node} {opened : List OpenGroup} (level : UInt8)
    (h : Node.Stand nodes pending ∨ ∃ group ∈ opened, Node.Stand nodes group.children) :
    Node.Stand nodes (closeGroups level pending opened).1 ∨
      ∃ group ∈ (Document.closeGroups level pending opened).2,
        Node.Stand nodes group.children := by
  induction opened generalizing pending with
  | nil => exact h
  | cons group outer ih =>
      simp only [Document.closeGroups]
      have hGroup : Node.Stand nodes (group.children ++ pending) ∨
          ∃ other ∈ outer, Node.Stand nodes other.children := by
        rcases h with hPending | ⟨other, hMem, hStand⟩
        · exact .inl (hPending.append_left group.children)
        · rcases List.mem_cons.1 hMem with rfl | hOuter
          · exact .inl (hStand.append_right pending)
          · exact .inr ⟨other, hOuter, hStand⟩
      split
      · exact ih (hGroup.imp_left fun hStand => .within (List.mem_singleton_self _) hStand)
      · rcases hGroup with hStand | ⟨other, hOuter, hStand⟩
        · exact .inr ⟨_, List.mem_cons_self, hStand⟩
        · exact .inr ⟨other, List.mem_cons_of_mem _ hOuter, hStand⟩

theorem closeTo (h : Holds nodes draft) (level : UInt8) : Holds nodes (draft.closeTo level) := by
  rcases h with hRoot | hOpened
  · exact .inl (hRoot.append_right _)
  · exact (closeGroups level (.inr hOpened)).imp_left fun hStand => hStand.append_left _

theorem addHeading (h : Holds nodes draft) (level : UInt8) (text : String) :
    Holds nodes (draft.addHeading level text) := by
  have hNamed : Holds nodes { draft with name := some text } := h
  unfold Draft.addHeading
  split
  · dsimp only
    split
    · exact hNamed
    · exact (hNamed.closeTo 1).push _
  · refine (h.closeTo level).imp_right ?_
    rintro ⟨group, hMem, hStand⟩
    exact ⟨group, List.mem_cons_of_mem _ hMem, hStand⟩

theorem addContext (h : Holds nodes draft) (v : ContextVariable) :
    Holds nodes (draft.addContext v) := by
  unfold Draft.addContext
  split
  · exact h
  · rename_i group outer hOpened
    refine h.imp_right ?_
    rintro ⟨other, hMem, hStand⟩
    rw [hOpened, List.mem_cons] at hMem
    rcases hMem with rfl | hOuter
    · exact ⟨_, List.mem_cons_self, hStand⟩
    · exact ⟨other, List.mem_cons_of_mem _ hOuter, hStand⟩

theorem declare (h : Holds nodes draft) (context : List ContextVariable) (tools : List Tool)
    (samples : List Sample) : Holds nodes (draft.declare context tools samples) := by
  have hFold : Holds nodes (context.foldl Draft.addContext draft) := by
    induction context generalizing draft with
    | nil => exact h
    | cons v rest ih => exact ih (h.addContext v)
  exact hFold

theorem pushAll (h : Holds nodes draft) (more : List Node) : Holds nodes (draft.pushAll more) := by
  induction more generalizing draft with
  | nil => exact h
  | cons node rest ih => exact ih (h.push node)

/-- Nodes that are pushed one after the other stand in the draft. -/
theorem of_pushAll (nodes : List Node) (draft : Draft) : Holds nodes (draft.pushAll nodes) := by
  cases hOpened : draft.opened with
  | nil =>
      rw [Draft.pushAll_of_nil hOpened]
      exact .inl (.here (List.suffix_append _ _).isInfix)
  | cons group outer =>
      rw [Draft.pushAll_of_cons hOpened]
      exact .inr ⟨_, List.mem_cons_self, .here (List.suffix_append _ _).isInfix⟩

theorem add {next : Draft} {part : Part} (h : Holds nodes draft)
    (hAdd : draft.add part = .ok next) : Holds nodes next := by
  cases part with
  | heading level text =>
      simp only [Draft.add, Except.ok.injEq] at hAdd
      exact hAdd ▸ h.addHeading level text
  | leaf text =>
      simp only [Draft.add, Except.ok.injEq] at hAdd
      exact hAdd ▸ h.push _
  | lead text =>
      simp only [Draft.add, Except.ok.injEq] at hAdd
      exact hAdd ▸ h.push _
  | definitions declared =>
      simp only [Draft.add, Except.ok.injEq] at hAdd
      exact hAdd ▸ h.declare _ _ _
  | document path fragment parts =>
      obtain ⟨own, content, -, -, rfl⟩ := add_document_ok hAdd
      exact (h.declare _ _ _).pushAll content
  | failed error => simp [Draft.add] at hAdd

theorem addAll {next : Draft} {parts : List Part} (h : Holds nodes draft)
    (hAdd : draft.addAll parts = .ok next) : Holds nodes next := by
  induction parts generalizing draft with
  | nil =>
      simp only [Draft.addAll, Except.ok.injEq] at hAdd
      exact hAdd ▸ h
  | cons part rest ih =>
      obtain ⟨middle, hPart, hRest⟩ := addAll_cons_ok hAdd
      exact ih (h.add hPart) hRest

/-- In the finished deck everything is in the tree. -/
theorem finish (h : Holds nodes draft) : Node.Stand nodes draft.finish.deck.children := by
  rcases h.closeTo 0 with hRoot | ⟨group, hMem, -⟩
  · exact hRoot
  · rw [Draft.opened_closeTo_zero] at hMem
    cases hMem

end Draft.Holds

/-- The content of an embedded document stands in the tree of the document that embeds it. -/
theorem stand_of_mem_parts {parts own : List Part} {path : Path} {fragment : Option String}
    {start draft : Draft} (h : start.addAll parts = .ok draft)
    (hMem : Part.document path fragment own ∈ parts) :
    ∃ doc nodes, ofParts own = .ok doc ∧ doc.content? fragment = some nodes ∧
      Node.Stand nodes draft.finish.deck.children := by
  induction parts generalizing start with
  | nil => cases hMem
  | cons part rest ih =>
      obtain ⟨middle, hPart, hLater⟩ := addAll_cons_ok h
      rcases List.mem_cons.1 hMem with rfl | hRest
      · obtain ⟨draft, nodes, hOwn, hContent, rfl⟩ := add_document_ok hPart
        refine ⟨draft.finish, nodes, by simp [ofParts, hOwn, Except.map], hContent, ?_⟩
        exact ((Draft.Holds.of_pushAll nodes _).addAll hLater).finish
      · exact ih hLater hRest

end Document

end Deckwright
