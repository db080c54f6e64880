import Deckwright.Proofs.Growth
import Deckwright.Proofs.Merging
import Deckwright.Proofs.OrderedMaps
import Deckwright.Proofs.SampleBinding

/-!
# Decks with the entries of some names

The entries of a deck are its context variables, its tools and its samples. `ReadDeck.only` takes
away all whose name is not to be kept, and leaves the tree and its texts as they are. Every step in
which a draft grows can be done before or after that: names are compared with names only, and
positions count nodes, of which there are as many as before. So two drafts that differ in other
entries only still do so when the same parts are added to both (`Draft.only_addAll`), and so do the
decks that they become (`only_attached_finish`).

Main result: `only_ofParts`, for two expansions that differ in one place.
-/

namespace Deckwright

section Only

variable (keep : String → Bool)

/-! ## Restricted decks -/

/-- The variables whose names are kept. -/
def keptContext (declared : List ContextVariable) : List ContextVariable :=
  declared.filter fun v => keep v.name

/-- The samples whose identifiers are kept, and those without one. -/
def keptSamples (samples : List Sample) : List Sample :=
  samples.filter fun s => s.id.all keep

/-- The tools whose names are kept. -/
def keptTools (tools : List Tool) : List Tool :=
  tools.filter fun tool => keep tool.name

def Header.only (header : Header) : Header :=
  { header with context := keptContext keep header.context }

mutual

/-- The node with no variables and samples but those whose names are kept. -/
def Node.only : Node → Node
  | .leaf value samples => .leaf value (keptSamples keep samples)
  | .lead text => .lead text
  | .group header children => .group (header.only keep) (Node.onlyAll children)

/-- `Node.only` on each node of a list. -/
def Node.onlyAll : List Node → List Node
  | [] => []
  | node :: rest => node.only :: Node.onlyAll rest

end

theorem Node.onlyAll_eq_map (nodes : List Node) :
    Node.onlyAll keep nodes = nodes.map (Node.only keep) := by
  induction nodes with
  | nil => rfl
  | cons node rest ih => rw [Node.onlyAll, ih, List.map_cons]

/-- The deck with no entries but those whose names are kept. -/
def Deck.only (d : Deck) : Deck :=
  { d with
    children := Node.onlyAll keep d.children
    context := keptContext keep d.context
    tools := keptTools keep d.tools }

@[inherit_doc Deck.only]
def ReadDeck.only (result : ReadDeck) : ReadDeck :=
  { deck := result.deck.only keep
    samples := result.samples.filter fun entry => keep entry.1 }

namespace Document

/-- The document with no entries but those whose names are kept. -/
def only (doc : Document) : Document :=
  { deck := doc.deck.only keep, samples := keptSamples keep doc.samples }

def OpenGroup.only (group : OpenGroup) : OpenGroup :=
  { header := group.header.only keep, children := Node.onlyAll keep group.children }

/-- The draft with no entries but those whose names are kept. -/
def Draft.only (draft : Draft) : Draft :=
  { draft with
    root := Node.onlyAll keep draft.root
    opened := draft.opened.map (OpenGroup.only keep)
    context := keptContext keep draft.context
    tools := keptTools keep draft.tools
    samples := keptSamples keep draft.samples }

end Document

/-! ## Entries that are merged -/

theorem keptContext_mergeContext (declared : List ContextVariable) (v : ContextVariable) :
    keptContext keep (mergeContext declared v) =
      if keep v.name then mergeContext (keptContext keep declared) v
      else keptContext keep declared := by
  rw [mergeContext_eq]
  exact ContextVariable.overwrites.filter_mergeBy keep declared v

theorem keptTools_mergeTools (tools more : List Tool) :
    keptTools keep (more.foldl Document.mergeTool tools) =
      (keptTools keep more).foldl Document.mergeTool (keptTools keep tools) := by
  rw [Document.mergeTool_eq]
  exact Tool.overwrites.filter_foldl_mergeBy keep tools more

/-! ## Growing drafts -/

namespace Document

open Draft

theorem only_node (group : OpenGroup) : (group.only keep).node = group.node.only keep := by
  rw [OpenGroup.node, OpenGroup.node, OpenGroup.only, Node.only]

theorem onlyAll_append (nodes more : List Node) :
    Node.onlyAll keep (nodes ++ more) = Node.onlyAll keep nodes ++ Node.onlyAll keep more := by
  simp only [Node.onlyAll_eq_map, List.map_append]

/-- Which groups are closed depends on their levels only. -/
theorem closeGroups_only (level : UInt8) (pending : List Node) (groups : List OpenGroup) :
    closeGroups level (Node.onlyAll keep pending) (groups.map (OpenGroup.only keep)) =
      (Node.onlyAll keep (closeGroups level pending groups).1,
        (closeGroups level pending groups).2.map (OpenGroup.only keep)) := by
  induction groups generalizing pending with
  | nil => rfl
  | cons group outer ih =>
      have hGroup : { group.only keep with
          children := (group.only keep).children ++ Node.onlyAll keep pending } =
          OpenGroup.only keep { group with children := group.children ++ pending } := by
        simp only [OpenGroup.only, onlyAll_append]
      rw [List.map_cons, closeGroups, closeGroups, hGroup, only_node]
      have hLevel : (OpenGroup.only keep { group with
          children := group.children ++ pending }).header.level = group.header.level := rfl
      simp only [hLevel]
      split
      · exact ih [_]
      · rfl

namespace Draft

theorem only_push (node : Node) (draft : Draft) :
    (draft.push node).only keep = (draft.only keep).push (node.only keep) := by
  cases hOpened : draft.opened with
  | nil => simp [push, Draft.only, hOpened, onlyAll_append, Node.onlyAll]
  | cons group outer =>
      simp [push, Draft.only, hOpened, OpenGroup.only, onlyAll_append, Node.onlyAll]

theorem only_pushAll (nodes : List Node) (draft : Draft) :
    (draft.pushAll nodes).only keep = (draft.only keep).pushAll (Node.onlyAll keep nodes) := by
  induction nodes generalizing draft with
  | nil => rfl
  | cons node rest ih =>
      rw [pushAll, List.foldl_cons, Node.onlyAll, pushAll, List.foldl_cons, ← only_push]
      exact ih (draft.push node)

theorem only_closeTo (level : UInt8) (draft : Draft) :
    (draft.closeTo level).only keep = (draft.only keep).closeTo level := by
  have hClose := closeGroups_only keep level [] draft.opened
  rw [Node.onlyAll] at hClose
  simp [closeTo, Draft.only, hClose, onlyAll_append]

theorem only_addHeading (level : UInt8) (text : String) (draft : Draft) :
    (draft.addHeading level text).only keep = (draft.only keep).addHeading level text := by
  -- Whether the heading names the deck depends on what is there, which is as much as before.
  have hRoot : (draft.only keep).root.isEmpty = draft.root.isEmpty := by
    simp [Draft.only, Node.onlyAll_eq_map]
  have hOpened : (draft.only keep).opened.isEmpty = draft.opened.isEmpty := by
    simp [Draft.only]
  have hName : (draft.only keep).name = draft.name := rfl
  simp only [addHeading, hRoot, hOpened, hName]
  split
  · split
    · rfl
    · rw [only_push, only_closeTo]
      rfl
  · rw [← only_closeTo]
    rfl

theorem only_addContext (draft : Draft) (v : ContextVariable) :
    (draft.addContext v).only keep =
      if keep v.name then (draft.only keep).addContext v else draft.only keep := by
  have hLength : ∀ nodes, (Node.onlyAll keep nodes).length = nodes.length := fun nodes => by
    rw [Node.onlyAll_eq_map, List.length_map]
  have hName : ∀ position, (v.atPosition position).name = v.name := fun _ => rfl
  cases hOpened : draft.opened with
  | nil =>
      simp only [addContext, Draft.only, hOpened, List.map_nil, keptContext_mergeContext, hName,
        hLength]
      split <;> rfl
  | cons group outer =>
      simp only [addContext, Draft.only, hOpened, List.map_cons, OpenGroup.only, Header.only,
        keptContext_mergeContext, hName, hLength]
      split <;> rfl

theorem only_addContexts (context : List ContextVariable) (draft : Draft) :
    (context.foldl addContext draft).only keep =
      (keptContext keep context).foldl addContext (draft.only keep) := by
  induction context generalizing draft with
  | nil => rfl
  | cons v rest ih =>
      rw [List.foldl_cons, ih, only_addContext, keptContext, keptContext, List.filter_cons]
      cases keep v.name with
      | true => rfl
      | false => rfl

/-- Of what is declared only what is kept counts. -/
theorem only_declare (context : List ContextVariable) (tools : List Tool) (samples : List Sample)
    (draft : Draft) :
    (draft.declare context tools samples).only keep =
      (draft.only keep).declare (keptContext keep context) (keptTools keep tools)
        (keptSamples keep samples) := by
  simp only [declare, ← only_addContexts]
  simp [Draft.only, keptTools_mergeTools, keptSamples]

end Draft

/-! ## Reading -/

variable {keep}

/-- Drafts that differ in other entries do so with one more part. -/
theorem Draft.only_add {draft other : Draft} (h : draft.only keep = other.only keep) (part : Part) :
    (draft.add part).map (Draft.only keep) = (other.add part).map (Draft.only keep) := by
  cases part with
  | heading level text => simp only [Draft.add, Except.map, only_addHeading, h]
  | leaf text => simp only [Draft.add, Except.map, only_push, h]
  | lead text => simp only [Draft.add, Except.map, only_push, h]
  | definitions declared => simp only [Draft.add, Except.map, only_declare, h]
  | document path fragment parts =>
      -- The embedded document starts from an empty draft, so both drafts get the same of it.
      simp only [Draft.add]
      cases Draft.addAll {} parts with
      | error error => rfl
      | ok own =>
          simp only [Draft.splice]
          cases own.finish.content? fragment with
          | none => rfl
          | some nodes =>
              have hPushed := fun draft : Draft => only_pushAll keep nodes draft
              simp only [pushAll] at hPushed
              simp only [Except.map, hPushed, only_declare, h]
  | failed error => rfl

/-- Computations that go on alike from results that look alike look alike. -/
theorem map_bind_congr {ε α β γ δ : Type} {f : α → γ} {g : β → δ} {more : α → Except ε β}
    {first other : Except ε α} (h : first.map f = other.map f)
    (hMore : ∀ a b, f a = f b → (more a).map g = (more b).map g) :
    (first.bind more).map g = (other.bind more).map g := by
  cases first with
  | error error =>
      cases other with
      | error error' => exact congrArg Except.error (Except.error.inj h)
      | ok b => cases h
  | ok a =>
      cases other with
      | error error => cases h
      | ok b => exact hMore a b (Except.ok.inj h)

theorem addAll_append_eq_bind (draft : Draft) (parts more : List Part) :
    draft.addAll (parts ++ more) = (draft.addAll parts).bind fun next => next.addAll more := by
  rw [addAll_append]
  cases draft.addAll parts with
  | error error => rfl
  | ok next => rfl

theorem addAll_singleton (draft : Draft) (part : Part) : draft.addAll [part] = draft.add part := by
  rw [Draft.addAll]
  cases draft.add part with
  | error error => rfl
  | ok next => rfl

theorem Draft.only_addAll {draft other : Draft} (h : draft.only keep = other.only keep)
    (parts : List Part) :
    (draft.addAll parts).map (Draft.only keep) = (other.addAll parts).map (Draft.only keep) := by
  induction parts generalizing draft other with
  | nil => exact congrArg Except.ok h
  | cons part rest ih =>
      rw [← List.singleton_append, addAll_append_eq_bind, addAll_append_eq_bind, addAll_singleton,
        addAll_singleton]
      exact map_bind_congr (only_add h part) fun _ _ hNext => ih hNext

theorem Draft.only_finish (draft : Draft) :
    draft.finish.only keep = (draft.only keep).finish := by
  have hClosed := only_closeTo keep 0 draft
  simp only [Draft.finish, Document.only, Deck.only, ← hClosed]
  rfl

/-- The map of the samples that are kept is what is kept of the map. -/
theorem namedSamples_only (doc : Document) :
    (doc.only keep).namedSamples = doc.namedSamples.filter fun entry => keep entry.1 := by
  rw [namedSamples, namedSamples, ← Ordered.ofList_filter, Document.only, keptSamples,
    List.filter_filterMap, List.filterMap_filter]
  congr 2
  funext s
  cases hId : s.id with
  | none => rfl
  | some id =>
      cases hKeep : keep id with
      | true => simp [Option.filter, hKeep]
      | false => simp [Option.filter, hKeep]

end Document

/-- A leaf that is restricted is given what is kept of its samples. -/
theorem keptSamples_filterMap {named : Ordered Sample}
    (hNamed : ∀ id s, named.get? id = some s → s.id = some id) (ids : List String) :
    keptSamples keep (ids.filterMap fun id => named.get? id) =
      ids.filterMap fun id => Ordered.get? id (named.filter fun entry => keep entry.1) := by
  rw [keptSamples, List.filter_filterMap]
  congr 1
  funext id
  rw [Ordered.get?_filter keep]
  cases hGet : named.get? id with
  | none => simp
  | some s => simp [Option.filter, hNamed id s hGet]

mutual

theorem Node.only_attach {named : Ordered Sample}
    (hNamed : ∀ id s, named.get? id = some s → s.id = some id) (node : Node) :
    (node.attach named).only keep =
      (node.only keep).attach (named.filter fun entry => keep entry.1) := by
  cases node with
  | leaf value samples =>
      simp only [Node.attach, Node.only, keptSamples, List.filter_append]
      have hKept := keptSamples_filterMap keep hNamed (footnoteRefs value)
      rw [keptSamples] at hKept
      rw [hKept]
  | lead text => rfl
  | group header children =>
      simp only [Node.attach, Node.only, Node.only_attachAll hNamed children]

theorem Node.only_attachAll {named : Ordered Sample}
    (hNamed : ∀ id s, named.get? id = some s → s.id = some id) (nodes : List Node) :
    Node.onlyAll keep (Node.attachAll named nodes) =
      Node.attachAll (named.filter fun entry => keep entry.1) (Node.onlyAll keep nodes) := by
  cases nodes with
  | nil => rfl
  | cons node rest =>
      simp only [Node.attachAll, Node.onlyAll, Node.only_attach hNamed node,
        Node.only_attachAll hNamed rest]

end

namespace Document

variable {keep}

theorem only_attached (doc : Document) :
    doc.attached.only keep = (doc.only keep).attached := by
  have hNamed : ∀ id s, doc.namedSamples.get? id = some s → s.id = some id := fun id s hGet =>
    (doc.get?_namedSamples.1 hGet).1
  simp only [attached, namedSamples_only, ReadDeck.only, Deck.only, Node.only_attachAll keep hNamed]
  rfl

/-- What a draft comes to when it is complete and its samples are attached. -/
theorem only_attached_finish {draft other : Draft} (h : draft.only keep = other.only keep) :
    draft.finish.attached.only keep = other.finish.attached.only keep := by
  rw [only_attached, only_attached, Draft.only_finish, Draft.only_finish, h]

/-- Two expansions are the same but in one place. If what they have there makes no difference for
the entries that are kept, whatever draft it is added to, then it makes none for the decks. -/
theorem only_ofParts {middle other : List Part}
    (h : ∀ draft : Draft, (draft.addAll middle).map (Draft.only keep) =
      (draft.addAll other).map (Draft.only keep)) (before after : List Part) :
    ((ofParts (before ++ (middle ++ after))).map attached).map (ReadDeck.only keep) =
      ((ofParts (before ++ (other ++ after))).map attached).map (ReadDeck.only keep) := by
  have hOutcome : ∀ parts : List Part, (ofParts parts).map attached =
      (Draft.addAll {} parts).bind fun draft => .ok draft.finish.attached := fun parts => by
    rw [ofParts]
    cases Draft.addAll {} parts with
    | error error => rfl
    | ok draft => rfl
  rw [hOutcome, hOutcome]
  refine map_bind_congr (f := Draft.only keep) ?_ fun _ _ hLast =>
    congrArg Except.ok (only_attached_finish hLast)
  rw [addAll_append_eq_bind, addAll_append_eq_bind]
  cases Draft.addAll {} before with
  | error error => rfl
  | ok draft =>
      show (draft.addAll (middle ++ after)).map _ = (draft.addAll (other ++ after)).map _
      rw [addAll_append_eq_bind, addAll_append_eq_bind]
      exact map_bind_congr (h draft) fun _ _ hNext => Draft.only_addAll hNext after

end Document

end Only

end Deckwright
