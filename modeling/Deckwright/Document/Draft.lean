import Deckwright.Deck.Basic
import Deckwright.Deck.Scopes
import Deckwright.Document.Expansion
import Deckwright.Text.Name

/-!
# Decks from expansions

A deck grows from the parts of an expansion in order. A heading opens a group, below the
open group of the nearest lesser level, and closes those of its own level and deeper ones;
everything else goes into the innermost open group. The first heading of level 1 names the
deck instead: as its title if nothing came before it, as a lead otherwise. An embedded
document grows a deck of its own, whose content then goes where the embed stands.
-/

namespace Deckwright.Document

/-- A group that may still receive children. -/
structure OpenGroup where
  header : Header
  children : List Node := []
  deriving Inhabited

/-- The group as a node. -/
def OpenGroup.node (group : OpenGroup) : Node :=
  .group group.header group.children

/-- A deck that is growing. -/
structure Draft where
  /-- The first heading of level 1. -/
  name : Option String := none
  title : Option String := none
  /-- The closed nodes at the top. -/
  root : List Node := []
  /-- The open groups, the innermost first. -/
  opened : List OpenGroup := []
  context : List ContextVariable := []
  tools : List Tool := []
  /-- The samples in the order of their declarations. -/
  samples : List Sample := []
  deriving Inhabited

/-- The tools with one more; it takes the place of one with the same name. -/
def mergeTool : List Tool → Tool → List Tool
  | [], tool => [tool]
  | t :: rest, tool => if t.name = tool.name then tool :: rest else t :: mergeTool rest tool

/--
Closes the innermost groups of the given level and deeper ones. The nodes `pending` go to the
end of the innermost group, or to the root if there is none; the result holds the nodes that
are still to go to the root, and the groups that stay open.
-/
def closeGroups (level : UInt8) (pending : List Node) : List OpenGroup → List Node × List OpenGroup
  | [] => (pending, [])
  | group :: outer =>
    let group := { group with children := group.children ++ pending }
    if level ≤ group.header.level then closeGroups level [group.node] outer
    else ([], group :: outer)

namespace Draft

/-- Puts a node at the end of the innermost open group. -/
def push (node : Node) (draft : Draft) : Draft :=
  match draft.opened with
  | [] => { draft with root := draft.root ++ [node] }
  | group :: outer =>
    { draft with opened := { group with children := group.children ++ [node] } :: outer }

/-- Closes every open group of the given level and deeper ones. -/
def closeTo (level : UInt8) (draft : Draft) : Draft :=
  let (pending, opened) := closeGroups level [] draft.opened
  { draft with root := draft.root ++ pending, opened }

/-- The lead that a heading of level 1 makes when it opens no group. -/
def titleLead (text : String) : Node :=
  .lead ("# " ++ text)

/-- Adds a heading that is not empty. -/
def addHeading (level : UInt8) (text : String) (draft : Draft) : Draft :=
  if level = 1 && draft.name.isNone then
    let draft := { draft with name := some text }
    if draft.root.isEmpty && draft.opened.isEmpty then { draft with title := some text }
    else (draft.closeTo 1).push (titleLead text)
  else
    let draft := draft.closeTo level
    let header := { name := text, layout := .markdown, level }
    { draft with opened := { header } :: draft.opened }

/-- Declares a variable in the innermost open group, behind the children that are there. -/
def addContext (draft : Draft) (v : ContextVariable) : Draft :=
  match draft.opened with
  | [] => { draft with context := mergeContext draft.context (v.atPosition draft.root.length) }
  | group :: outer =>
    let context := mergeContext group.header.context (v.atPosition group.children.length)
    { draft with opened := { group with header := { group.header with context } } :: outer }

/-- Declares context variables, tools and samples, in this order. -/
def declare (context : List ContextVariable) (tools : List Tool) (samples : List Sample)
    (draft : Draft) : Draft :=
  let draft := context.foldl addContext draft
  { draft with
    tools := tools.foldl mergeTool draft.tools
    samples := draft.samples ++ samples }

end Draft

end Document

open Document

/-- A document as a deck: the tree of its content, and the samples that it declares. -/
structure Document where
  deck : Deck
  /-- The samples in the order of their declarations. -/
  samples : List Sample
  deriving Inhabited

namespace Document

/-- The document that a draft has become, with all groups closed. -/
def Draft.finish (draft : Draft) : Document :=
  let draft := draft.closeTo 0
  { deck :=
      { Deck.empty (draft.name.getD Deck.defaultName) with
        title := draft.title
        layout := .markdown
        children := draft.root
        context := draft.context
        tools := draft.tools }
    samples := draft.samples }

/-- Whether the node is a group that goes by the given name. -/
def isGroupNamed (name : String) : Node → Bool
  | .group header _ => lookupName header.name = lookupName name
  | _ => false

/-- The group reached through groups of the given names, each the first one of its name. -/
def groupAt? (nodes : List Node) : List String → Option Node
  | [] => none
  | [name] => nodes.find? (isGroupNamed name)
  | name :: names =>
    match nodes.find? (isGroupNamed name) with
    | some (.group _ children) => groupAt? children names
    | _ => none

/-- The nodes of an embedded document: all of them below its title, or one group named by its path. -/
def content? (doc : Document) : Option String → Option (List Node)
  | none => some ((doc.deck.title.map Draft.titleLead).toList ++ doc.deck.children)
  | some fragment =>
    let names := (Text.split '.' fragment.toList).map String.ofList
    (groupAt? doc.deck.children names).map fun node => [node]

/-- Adds an embedded document: its declarations, then its content. -/
def Draft.splice (path : Path) (fragment : Option String) (doc : Document) (draft : Draft) :
    Except DocumentError Draft :=
  let draft := draft.declare doc.deck.context doc.deck.tools doc.samples
  match doc.content? fragment with
  | some nodes => .ok (nodes.foldl (fun draft node => draft.push node) draft)
  | none => .error (.missingFragment path (fragment.getD ""))

mutual

/-- Adds a part of an expansion. -/
def Draft.add (draft : Draft) : Part → Except DocumentError Draft
  | .heading level text => .ok (draft.addHeading level text)
  | .leaf text => .ok (draft.push (.leaf text []))
  | .lead text => .ok (draft.push (.lead text))
  | .definitions declared =>
    .ok (draft.declare declared.context declared.tools declared.samples)
  | .document path fragment parts =>
    match Draft.addAll {} parts with
    | .ok own => draft.splice path fragment own.finish
    | .error error => .error error
  | .failed error => .error error

/-- Adds the parts of an expansion in order, up to the first one that fails. -/
def Draft.addAll (draft : Draft) : List Part → Except DocumentError Draft
  | [] => .ok draft
  | part :: rest =>
    match draft.add part with
    | .ok draft => Draft.addAll draft rest
    | .error error => .error error

end

end Document

end Deckwright
