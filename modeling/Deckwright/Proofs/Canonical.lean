import Mathlib.Tactic.MkIffOfInductiveProp
import Deckwright.Deck.Basic
import Deckwright.Markdown.Block

/-!
# Canonical decks

A deck is canonical if its system text says everything about it: it is in markdown layout down to
its groups, declares nothing, its groups are nested as their levels are, and its texts can be told
apart as what they are once they stand in a document. The lines of a text are here what stands
between its line feeds.
-/

namespace Deckwright

open Markdown (Line Inline Fence fence? heading? isIndented isOuterBullet inlines)

/-- What stands between the line feeds of a text. -/
def textLines (text : String) : List Line :=
  Text.split '\n' text.toList

/-- Whether inline content is an image. -/
def Markdown.Inline.isImage : Inline → Bool
  | .image _ _ => true
  | .text _ => false

/-- A text without images. -/
def NoImages (text : String) : Prop :=
  ∀ inline ∈ inlines text, inline.isImage = false

instance (text : String) : Decidable (NoImages text) :=
  inferInstanceAs (Decidable (∀ inline ∈ inlines text, inline.isImage = false))

/-- Names and titles that a heading can hold. -/
@[mk_iff]
structure NameOk (name : String) : Prop where
  notEmpty : name ≠ ""
  trimmed : trimmed name = name
  oneLine : '\n' ∉ name.toList
  noMark : name.toList.getLast? ≠ some '#'

instance (name : String) : Decidable (NameOk name) :=
  decidable_of_iff _ (nameOk_iff name).symm

/-- Leaves that a list item can hold. -/
@[mk_iff]
structure LeafOk (value : String) : Prop where
  notEmpty : value ≠ ""
  trimmed : trimmed value = value
  lines : ∀ line ∈ textLines value, Text.trimRight line = line ∧ Text.isBlank line = false
  indented : ∀ line ∈ (textLines value).tail, isIndented line
  noImages : NoImages value

instance (value : String) : Decidable (LeafOk value) :=
  decidable_of_iff _ (leafOk_iff value).symm

/-- Fenced code with both of its fences. -/
@[mk_iff]
structure ClosedFence (text : String) (fence : Fence) (opening last : Line) (body : List Line) :
    Prop where
  lines : textLines text = opening :: (body ++ [last])
  trimmed : ∀ line ∈ textLines text, Text.trimRight line = line
  opens : fence? opening = some fence
  inside : ∀ line ∈ body, fence.starts line = false
  closes : fence.starts last

instance (text : String) (fence : Fence) (opening last : Line) (body : List Line) :
    Decidable (ClosedFence text fence opening last body) :=
  decidable_of_iff _ (closedFence_iff text fence opening last body).symm

/-- A line of a paragraph. -/
@[mk_iff]
structure PlainLine (line : Line) : Prop where
  trimmed : Text.trimRight line = line
  notBlank : Text.isBlank line = false
  noHeading : heading? line = none
  noFence : fence? line = none
  noBullet : isOuterBullet line = false

instance (line : Line) : Decidable (PlainLine line) :=
  decidable_of_iff _ (plainLine_iff line).symm

/-- Leads that are one paragraph. -/
@[mk_iff]
structure PlainParagraph (text : String) : Prop where
  notEmpty : text ≠ ""
  trimmed : trimmed text = text
  lines : ∀ line ∈ textLines text, PlainLine line
  noImages : NoImages text

instance (text : String) : Decidable (PlainParagraph text) :=
  decidable_of_iff _ (plainParagraph_iff text).symm

/-- Leads that are one block of a document. -/
def LeadOk (text : String) : Prop :=
  (∃ fence opening last body, ClosedFence text fence opening last body) ∨ PlainParagraph text

/-- Groups stand behind leaves and leads, and the levels of neighbouring groups never increase. -/
def Node.Precedes : Node → Node → Prop
  | .group header _, .group next _ => next.level ≤ header.level
  | .group _ _, _ => False
  | _, _ => True

mutual

/-- Nodes in a group of level `parent`, which is 0 at the top of a deck. -/
def Node.Canonical (parent : UInt8) : Node → Prop
  | .leaf value samples => LeafOk value ∧ samples = []
  | .lead text => LeadOk text
  | .group header children =>
    header.layout = .markdown ∧ header.context = [] ∧ NameOk header.name ∧
      parent < header.level ∧ header.level ≤ 6 ∧ Node.CanonicalAll header.level children

/-- `Node.Canonical` for a list of nodes. -/
def Node.CanonicalAll (parent : UInt8) : List Node → Prop
  | [] => True
  | node :: rest =>
    node.Canonical parent ∧ (∀ next ∈ rest, node.Precedes next) ∧ Node.CanonicalAll parent rest

end

/-- Decks that their system text describes. Groups below the top have greater levels than 1. -/
structure Deck.Canonical (d : Deck) : Prop where
  layout : d.layout = .markdown
  context : d.context = []
  tools : d.tools = []
  name : NameOk d.name
  title : d.title = some d.name ∨
    d.title = none ∧ d.name = Deck.defaultName ∧
      ∀ header children, Node.group header children ∈ d.children → header.level ≠ 1
  children : Node.CanonicalAll 0 d.children

end Deckwright
