import Deckwright.Proofs.Marks
import Deckwright.Proofs.Standing

/-!
# Properties of all nodes of a deck

A property of nodes holds everywhere in a tree if every node that stands in it has the property, at
whatever depth. Growing drafts keep such a property if a group keeps it when a child or a variable
comes last in it (`Kept`). So of a deck that is read one has to check only what the parts of its
expansion make by themselves (`Part.Makes`): `everywhere_ofParts` says that the property then holds
everywhere in the deck, also where it was made by a document that is embedded. Samples are attached
only after that, node by node (`everywhere_attachAll`).
-/

namespace Deckwright

/-! ## Trees -/

/-- Every node in the tree has the property. -/
def Node.Everywhere (P : Node → Prop) (tree : List Node) : Prop :=
  ∀ node, Node.Stand [node] tree → P node

namespace Node

variable {P : Node → Prop} {tree more children : List Node} {header : Header}

theorem stand_singleton_iff {node : Node} :
    Stand [node] tree ↔
      node ∈ tree ∨ ∃ header children, .group header children ∈ tree ∧ Stand [node] children := by
  constructor
  · intro h
    cases h with
    | here hInfix => exact .inl (hInfix.subset List.mem_cons_self)
    | within hGroup hBelow => exact .inr ⟨_, _, hGroup, hBelow⟩
  · rintro (hMem | ⟨header, children, hGroup, hBelow⟩)
    · obtain ⟨before, after, rfl⟩ := List.append_of_mem hMem
      exact .here ⟨before, after, by simp⟩
    · exact .within hGroup hBelow

/-- A tree has a property everywhere if its nodes have it and the trees below them. -/
theorem everywhere_iff :
    Everywhere P tree ↔
      ∀ node ∈ tree, P node ∧ ∀ header children, node = .group header children →
        Everywhere P children := by
  constructor
  · intro h node hMem
    refine ⟨h node (stand_singleton_iff.2 (.inl hMem)), ?_⟩
    rintro header children rfl inner hInner
    exact h inner (.within hMem hInner)
  · intro h node hStand
    rcases stand_singleton_iff.1 hStand with hMem | ⟨header, children, hGroup, hBelow⟩
    · exact (h node hMem).1
    · exact (h _ hGroup).2 header children rfl node hBelow

theorem everywhere_nil : Everywhere P [] :=
  everywhere_iff.2 fun _ hMem => absurd hMem List.not_mem_nil

theorem everywhere_append :
    Everywhere P (tree ++ more) ↔ Everywhere P tree ∧ Everywhere P more := by
  rw [everywhere_iff, everywhere_iff, everywhere_iff, List.forall_mem_append]

theorem everywhere_cons {node : Node} :
    Everywhere P (node :: more) ↔ Everywhere P [node] ∧ Everywhere P more := by
  rw [← List.singleton_append, everywhere_append]

theorem everywhere_group :
    Everywhere P [.group header children] ↔ P (.group header children) ∧ Everywhere P children := by
  rw [everywhere_iff, List.forall_mem_singleton]
  refine and_congr_right fun _ => ⟨fun h => h header children rfl, ?_⟩
  rintro h _ _ ⟨⟩
  exact h

/-- A node that is no group has nothing below it. -/
theorem everywhere_singleton {node : Node} (hNode : node.group? = none) (h : P node) :
    Everywhere P [node] := by
  rw [everywhere_iff, List.forall_mem_singleton]
  refine ⟨h, ?_⟩
  rintro header children rfl
  cases hNode

theorem Everywhere.of_stand {nodes : List Node} (h : Everywhere P tree) (hStand : Stand nodes tree) :
    Everywhere P nodes := by
  induction hStand with
  | here hInfix => exact everywhere_iff.2 fun node hMem => everywhere_iff.1 h node (hInfix.subset hMem)
  | within hGroup _ ih => exact ih ((everywhere_iff.1 h _ hGroup).2 _ _ rfl)

end Node

namespace Document

open Node (Everywhere everywhere_iff everywhere_append everywhere_cons everywhere_group
  everywhere_singleton)

/-- A group that goes by a path of names stands in the tree. -/
theorem stand_of_groupAt? {nodes : List Node} {names : List String} {node : Node}
    (h : groupAt? nodes names = some node) : Node.Stand [node] nodes := by
  induction names generalizing nodes with
  | nil => cases h
  | cons name rest ih =>
      cases rest with
      | nil => exact Node.stand_singleton_iff.2 (.inl (List.mem_of_find?_eq_some h))
      | cons next rest =>
          rw [groupAt?] at h
          · split at h
            · rename_i header children hFound
              exact .within (List.mem_of_find?_eq_some hFound) (ih h)
            · cases h
          · exact List.cons_ne_nil _ _

/-! ## Drafts -/

/-- A property of nodes that growing groups keep, and that titles have where they are leads. -/
structure Kept (P : Node → Prop) : Prop where
  title : ∀ text, P (Draft.titleLead text)
  grow : ∀ {header children} more, P (.group header children) →
    P (.group header (children ++ more))
  merge : ∀ {header : Header} {children} (v : ContextVariable), P (.group header children) →
    P (.group
      { header with context := mergeContext header.context (v.atPosition children.length) }
      children)

/-- What a part of an expansion makes by itself has the property. -/
def Part.Makes (P : Node → Prop) : Part → Prop
  | .heading level text => P (.group { name := text, layout := .markdown, level } [])
  | .leaf text => P (.leaf text [])
  | .lead text => P (.lead text)
  | _ => True

/-- Every node of a draft has the property, and its open groups would have it if closed now. -/
structure Draft.Has (P : Node → Prop) (draft : Draft) : Prop where
  root : Everywhere P draft.root
  opened : ∀ group ∈ draft.opened, Everywhere P [group.node]

namespace Kept

variable {P : Node → Prop} (hKept : Kept P) {draft : Draft}

include hKept

theorem everywhere_grow {header : Header} {children more : List Node}
    (h : Everywhere P [.group header children]) (hMore : Everywhere P more) :
    Everywhere P [.group header (children ++ more)] := by
  rw [everywhere_group] at h ⊢
  exact ⟨hKept.grow more h.1, everywhere_append.2 ⟨h.2, hMore⟩⟩

theorem everywhere_title (text : String) : Everywhere P [Draft.titleLead text] :=
  everywhere_singleton rfl (hKept.title text)

theorem push {node : Node} (h : draft.Has P) (hNode : Everywhere P [node]) :
    (draft.push node).Has P := by
  unfold Draft.push
  split
  · exact ⟨everywhere_append.2 ⟨h.root, hNode⟩, h.opened⟩
  · rename_i group outer hOpened
    refine ⟨h.root, fun other hMem => ?_⟩
    rcases List.mem_cons.1 hMem with rfl | hOuter
    · exact hKept.everywhere_grow (h.opened group (hOpened ▸ List.mem_cons_self)) hNode
    · exact h.opened other (hOpened ▸ List.mem_cons_of_mem group hOuter)

theorem pushAll {nodes : List Node} (h : draft.Has P) (hNodes : Everywhere P nodes) :
    (draft.pushAll nodes).Has P := by
  induction nodes generalizing draft with
  | nil => exact h
  | cons node rest ih =>
      obtain ⟨hNode, hRest⟩ := everywhere_cons.1 hNodes
      exact ih (hKept.push h hNode) hRest

theorem closeGroups {pending : List Node} {opened : List OpenGroup} (level : UInt8)
    (hPending : Everywhere P pending) (h : ∀ group ∈ opened, Everywhere P [group.node]) :
    Everywhere P (closeGroups level pending opened).1 ∧
      ∀ group ∈ (Document.closeGroups level pending opened).2, Everywhere P [group.node] := by
  induction opened generalizing pending with
  | nil => exact ⟨hPending, h⟩
  | cons group outer ih =>
      have hOuter := fun other hMem => h other (List.mem_cons_of_mem group hMem)
      have hGroup := hKept.everywhere_grow (h group List.mem_cons_self) hPending
      simp only [Document.closeGroups]
      split
      · exact ih hGroup hOuter
      · refine ⟨Node.everywhere_nil, fun other hMem => ?_⟩
        rcases List.mem_cons.1 hMem with rfl | hMem
        · exact hGroup
        · exact hOuter other hMem

theorem closeTo (h : draft.Has P) (level : UInt8) : (draft.closeTo level).Has P := by
  obtain ⟨hPending, hOpened⟩ := hKept.closeGroups level Node.everywhere_nil h.opened
  exact ⟨everywhere_append.2 ⟨h.root, hPending⟩, hOpened⟩

theorem addHeading {level : UInt8} {text : String} (h : draft.Has P)
    (hGroup : P (.group { name := text, layout := .markdown, level } [])) :
    (draft.addHeading level text).Has P := by
  have hNamed : Draft.Has P { draft with name := some text } := ⟨h.root, h.opened⟩
  unfold Draft.addHeading
  split
  · dsimp only
    split
    · exact ⟨h.root, h.opened⟩
    · exact hKept.push (hKept.closeTo hNamed 1) (hKept.everywhere_title text)
  · refine ⟨(hKept.closeTo h level).root, fun group hMem => ?_⟩
    rcases List.mem_cons.1 hMem with rfl | hOuter
    · exact everywhere_group.2 ⟨hGroup, Node.everywhere_nil⟩
    · exact (hKept.closeTo h level).opened group hOuter

theorem addContext (h : draft.Has P) (v : ContextVariable) : (draft.addContext v).Has P := by
  unfold Draft.addContext
  split
  · exact ⟨h.root, h.opened⟩
  · rename_i group outer hOpened
    refine ⟨h.root, fun other hMem => ?_⟩
    rcases List.mem_cons.1 hMem with rfl | hOuter
    · have hGroup := everywhere_group.1 (h.opened group (hOpened ▸ List.mem_cons_self))
      exact everywhere_group.2 ⟨hKept.merge v hGroup.1, hGroup.2⟩
    · exact h.opened other (hOpened ▸ List.mem_cons_of_mem group hOuter)

theorem declare (h : draft.Has P) (context : List ContextVariable) (tools : List Tool)
    (samples : List Sample) : (draft.declare context tools samples).Has P := by
  have hFold : Draft.Has P (context.foldl Draft.addContext draft) := by
    induction context generalizing draft with
    | nil => exact h
    | cons v rest ih => exact ih (hKept.addContext h v)
  exact ⟨hFold.root, hFold.opened⟩

theorem finish (h : draft.Has P) : Everywhere P draft.finish.deck.children :=
  (hKept.closeTo h 0).root

/-- What is wanted of a document has the property where all of the document has it. -/
theorem everywhere_content {doc : Document} (h : Everywhere P doc.deck.children)
    {fragment : Option String} {nodes : List Node} (hContent : doc.content? fragment = some nodes) :
    Everywhere P nodes := by
  cases fragment with
  | none =>
      rw [content?, Option.some.injEq] at hContent
      subst hContent
      refine everywhere_append.2 ⟨?_, h⟩
      cases doc.deck.title with
      | none => exact Node.everywhere_nil
      | some title => exact hKept.everywhere_title title
  | some fragment =>
      rw [content?, Option.map_eq_some_iff] at hContent
      obtain ⟨node, hFound, rfl⟩ := hContent
      exact h.of_stand (stand_of_groupAt? hFound)

end Kept

section Runs

variable {P : Node → Prop}

mutual

/-- A draft keeps the property when a part is added. -/
theorem has_add (hKept : Kept P) {draft next : Draft} {part : Part} (h : draft.Has P)
    (hPart : ∀ other : Part, other.In [part] → other.Makes P) (hAdd : draft.add part = .ok next) :
    next.Has P := by
  have hOwn := hPart part (.here List.mem_cons_self)
  cases added_of_ok hAdd with
  | heading level text => exact hKept.addHeading h hOwn
  | leaf text => exact hKept.push h (everywhere_singleton rfl hOwn)
  | lead text => exact hKept.push h (everywhere_singleton rfl hOwn)
  | definitions declared => exact hKept.declare h _ _ _
  | document hAll hContent =>
      have hInner :=
        has_addAll hKept ⟨Node.everywhere_nil, by simp⟩
          (fun other hIn => hPart other (.deeper List.mem_cons_self hIn)) hAll
      exact hKept.pushAll (hKept.declare h _ _ _)
        (hKept.everywhere_content (hKept.finish hInner) hContent)

/-- A draft keeps the property when parts are added one after the other. -/
theorem has_addAll (hKept : Kept P) {draft last : Draft} {parts : List Part} (h : draft.Has P)
    (hParts : ∀ part : Part, part.In parts → part.Makes P) (hAdd : draft.addAll parts = .ok last) :
    last.Has P := by
  cases parts with
  | nil =>
      simp only [Draft.addAll, Except.ok.injEq] at hAdd
      exact hAdd ▸ h
  | cons part rest =>
      obtain ⟨next, hPart, hRest⟩ := addAll_cons_ok hAdd
      have hNext := has_add hKept h (fun other hIn => hParts other (Part.in_cons.2 (.inl hIn))) hPart
      exact has_addAll hKept hNext (fun other hIn => hParts other (Part.in_cons.2 (.inr hIn))) hRest

end

/-- A property that growing drafts keep holds everywhere in a deck if the parts make nothing
without it. -/
theorem everywhere_ofParts (hKept : Kept P) {parts : List Part} {doc : Document}
    (hParts : ∀ part : Part, part.In parts → part.Makes P) (h : ofParts parts = .ok doc) :
    Everywhere P doc.deck.children := by
  obtain ⟨draft, hAdd, rfl⟩ := ofParts_eq_ok h
  exact hKept.finish (has_addAll hKept ⟨Node.everywhere_nil, by simp⟩ hParts hAdd)

end Runs

/-! ## Attached samples -/

theorem attachAll_eq_map (named : Ordered Sample) (nodes : List Node) :
    Node.attachAll named nodes = nodes.map (Node.attach named) := by
  induction nodes with
  | nil => rfl
  | cons node rest ih => rw [Node.attachAll, ih, List.map_cons]

/-- What stands in a tree with its samples stood there without them. -/
theorem exists_of_stand_attachAll {named : Ordered Sample} {node : Node} {tree : List Node}
    (h : Node.Stand [node] (Node.attachAll named tree)) :
    ∃ bare, Node.Stand [bare] tree ∧ node = bare.attach named := by
  generalize hAttached : Node.attachAll named tree = attached at h
  induction h generalizing tree with
  | here hInfix =>
      have hMem := hInfix.subset List.mem_cons_self
      rw [← hAttached, attachAll_eq_map] at hMem
      obtain ⟨bare, hBare, rfl⟩ := List.mem_map.1 hMem
      exact ⟨bare, Node.stand_singleton_iff.2 (.inl hBare), rfl⟩
  | within hGroup _ ih =>
      rw [← hAttached, attachAll_eq_map] at hGroup
      obtain ⟨bare, hBare, hNode⟩ := List.mem_map.1 hGroup
      cases bare with
      | leaf value samples => cases hNode
      | lead text => cases hNode
      | group header children =>
          rw [Node.attach, Node.group.injEq] at hNode
          obtain ⟨inner, hInner, hEq⟩ := ih hNode.2
          exact ⟨inner, .within hBare hInner, hEq⟩

/-- Attaching samples gives every node a property if it gives it to those that have another one. -/
theorem everywhere_attachAll {P Q : Node → Prop} {named : Ordered Sample}
    (hAttach : ∀ node, P node → Q (node.attach named)) {tree : List Node} (h : Everywhere P tree) :
    Everywhere Q (Node.attachAll named tree) := by
  intro node hStand
  obtain ⟨bare, hBare, rfl⟩ := exists_of_stand_attachAll hStand
  exact hAttach bare (h bare hBare)

end Document

end Deckwright
