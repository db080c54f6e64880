import Deckwright.Proofs.Expansion

/-!
# How drafts grow

A draft lists what its tree would list if all open groups were closed now (`Draft.placed`), and
its frames are the open groups, each with its number in that listing and its level. This module
says what each operation on drafts does to the two, and from then on no proof looks into a draft.

* `placed_closeTo`, `frames_closeTo`: closing groups changes nothing that is listed, and takes
  away the innermost frames down to the first one of a lesser level.
* `placed_push`: a node is listed behind everything else, inside the groups of the frames.
* `placed_addHeading`, `frames_addHeading`: a heading closes groups, is listed inside those that
  are left, and opens one unless it is the first of level 1.
* `Step`, `step_add`: what adding any part of an expansion does. The lines it adds are those of
  `Part.listing`, all of them inside the frames that the part leaves open and otherwise only
  inside groups that it brings itself.

The one invariant is `Draft.TitleOk`: a deck without a name has no title.
-/

namespace Deckwright.Document

/-! ## Open groups -/

/-- An open group: its number in the listing and its level. -/
structure Frame where
  number : Nat
  level : UInt8
  deriving DecidableEq

/-- The groups that stay open when those of a level and deeper ones are closed. -/
def below (level : UInt8) (frames : List Frame) : List Frame :=
  frames.dropWhile fun frame => level ≤ frame.level

/-- The numbers of frames, the innermost first. -/
abbrev numbers (frames : List Frame) : List Nat :=
  frames.map Frame.number

namespace OpenGroup

/-- The line of an open group. -/
def entry (group : OpenGroup) : Entry :=
  .group group.header.name group.header.level

/-- The number behind all lines of the open groups, the outermost of which has number `start`. -/
def next (start : Nat) : List OpenGroup → Nat
  | [] => start
  | group :: outer => next start outer + 1 + (Node.preorderAll group.children).length

/-- The frames of the open groups, the innermost first. -/
def frames (start : Nat) : List OpenGroup → List Frame
  | [] => []
  | group :: outer => ⟨next start outer, group.header.level⟩ :: frames start outer

/-- The lines of the open groups and of the children that they have so far. -/
def placed (start : Nat) : List OpenGroup → List Placed
  | [] => []
  | group :: outer =>
    placed start outer ++ (numbers (frames start outer), group.entry) ::
      Node.placedAll (numbers (frames start (group :: outer))) (next start outer + 1)
        group.children

theorem length_placed (start : Nat) (opened : List OpenGroup) :
    start + (placed start opened).length = next start opened := by
  induction opened with
  | nil => rfl
  | cons group outer ih =>
      simp only [placed, next, List.length_append, List.length_cons, Node.length_placedAll]
      omega

/-- Closing groups hands the pending nodes on without a change to what is listed. -/
theorem placed_closeGroups (start : Nat) (level : UInt8) (pending : List Node)
    (opened : List OpenGroup) :
    Node.placedAll [] start (closeGroups level pending opened).1 ++
        placed (start + (Node.preorderAll (closeGroups level pending opened).1).length)
          (closeGroups level pending opened).2 =
      placed start opened ++
        Node.placedAll (numbers (frames start opened)) (next start opened) pending := by
  induction opened generalizing pending with
  | nil => simp [closeGroups, placed, frames, next]
  | cons group outer ih =>
      simp only [closeGroups]
      split
      · rw [ih]
        simp [placed, OpenGroup.node, OpenGroup.entry, Node.placedAll, Node.placed, frames, next,
          Node.placedAll_append]
      · simp [placed, OpenGroup.entry, Node.placedAll, frames, next, Node.placedAll_append,
          Node.preorderAll]

/-- Nodes go to the root only when no group stays open. -/
theorem closeGroups_eq (level : UInt8) (pending : List Node) (opened : List OpenGroup) :
    (closeGroups level pending opened).2 = [] ∨
      (closeGroups level pending opened).1 = [] := by
  induction opened generalizing pending with
  | nil => exact .inl rfl
  | cons group outer ih =>
      simp only [closeGroups]
      split
      · exact ih _
      · exact .inr rfl

theorem frames_closeGroups (start : Nat) (level : UInt8) (pending : List Node)
    (opened : List OpenGroup) :
    frames start (closeGroups level pending opened).2 = below level (frames start opened) := by
  induction opened generalizing pending with
  | nil => rfl
  | cons group outer ih =>
      simp only [closeGroups, frames, below]
      split
      · rename_i hLevel
        rw [ih, List.dropWhile_cons_of_pos (by simpa using hLevel)]
        rfl
      · rename_i hLevel
        rw [List.dropWhile_cons_of_neg (by simpa using hLevel)]
        rfl

end OpenGroup

/-! ## Drafts -/

namespace Draft

/-- The line of the title, where there is one. -/
def titleLine (draft : Draft) : List Placed :=
  (draft.title.map fun text => (([] : List Nat), Entry.title text)).toList

/-- The number behind the title and the nodes at the top. -/
def start (draft : Draft) : Nat :=
  draft.titleLine.length + (Node.preorderAll draft.root).length

/-- The open groups, the innermost first. -/
def frames (draft : Draft) : List Frame :=
  OpenGroup.frames draft.start draft.opened

/-- The lines of the draft with their places. -/
def placed (draft : Draft) : List Placed :=
  draft.titleLine ++ Node.placedAll [] draft.titleLine.length draft.root ++
    OpenGroup.placed draft.start draft.opened

/-- Whether the draft has a name of its own. -/
def named (draft : Draft) : Bool :=
  draft.name.isSome

/-- A draft without a name has no title. -/
def TitleOk (draft : Draft) : Prop :=
  draft.name = none → draft.title = none

theorem length_placed (draft : Draft) :
    draft.placed.length = OpenGroup.next draft.start draft.opened := by
  simp only [placed, List.length_append, Node.length_placedAll]
  exact OpenGroup.length_placed draft.start draft.opened

@[simp] theorem frames_empty : frames {} = [] := rfl

theorem titleOk_empty : TitleOk {} := fun _ => rfl

/-! ### Closing groups -/

theorem placed_closeTo (level : UInt8) (draft : Draft) :
    (draft.closeTo level).placed = draft.placed := by
  have hGroups := OpenGroup.placed_closeGroups draft.start level [] draft.opened
  simp only [Node.placedAll, List.append_nil] at hGroups
  simp only [placed, closeTo, start, titleLine, Node.placedAll_append, Node.preorderAll_append,
    List.length_append, List.append_assoc, List.append_cancel_left_eq]
  rw [← Nat.add_assoc]
  exact hGroups

theorem frames_closeTo (level : UInt8) (draft : Draft) :
    (draft.closeTo level).frames = below level draft.frames := by
  have hGroups := OpenGroup.frames_closeGroups draft.start level [] draft.opened
  unfold frames
  rw [← hGroups]
  rcases OpenGroup.closeGroups_eq level [] draft.opened with hNone | hRoot
  · simp [closeTo, hNone, OpenGroup.frames]
  · simp [closeTo, hRoot, start, titleLine]

@[simp] theorem name_closeTo (level : UInt8) (draft : Draft) :
    (draft.closeTo level).name = draft.name := rfl

/-! ### Nodes -/

theorem placed_push (node : Node) (draft : Draft) :
    (draft.push node).placed =
      draft.placed ++ node.placed (numbers draft.frames) draft.placed.length := by
  rw [length_placed]
  unfold push
  split
  · rename_i hOpened
    simp [placed, frames, start, titleLine, hOpened, OpenGroup.placed, OpenGroup.frames,
      OpenGroup.next, Node.placedAll_append, Node.placedAll]
  · rename_i group outer hOpened
    simp [placed, frames, start, titleLine, hOpened, OpenGroup.placed, OpenGroup.frames,
      OpenGroup.next, OpenGroup.entry, Node.placedAll_append, Node.placedAll]

@[simp] theorem frames_push (node : Node) (draft : Draft) :
    (draft.push node).frames = draft.frames := by
  unfold push
  split
  · rename_i hOpened
    simp [frames, hOpened, OpenGroup.frames]
  · rename_i hOpened
    simp [frames, start, titleLine, hOpened, OpenGroup.frames]

@[simp] theorem name_push (node : Node) (draft : Draft) : (draft.push node).name = draft.name := by
  unfold push
  split <;> rfl

@[simp] theorem title_push (node : Node) (draft : Draft) :
    (draft.push node).title = draft.title := by
  unfold push
  split <;> rfl

/-- Pushes nodes one after the other. -/
def pushAll (nodes : List Node) (draft : Draft) : Draft :=
  nodes.foldl (fun draft node => draft.push node) draft

theorem pushAll_of_nil {draft : Draft} (h : draft.opened = []) (nodes : List Node) :
    draft.pushAll nodes = { draft with root := draft.root ++ nodes } := by
  induction nodes generalizing draft with
  | nil => simp [pushAll]
  | cons node rest ih =>
      have hPush : draft.push node = { draft with root := draft.root ++ [node] } := by
        simp only [push, h]
      have hRest := @ih (draft.push node) (by rw [hPush]; exact h)
      rw [pushAll, List.foldl_cons]
      exact hRest.trans (by simp [hPush])

theorem pushAll_of_cons {draft : Draft} {group : OpenGroup} {outer : List OpenGroup}
    (h : draft.opened = group :: outer) (nodes : List Node) :
    draft.pushAll nodes =
      { draft with opened := { group with children := group.children ++ nodes } :: outer } := by
  induction nodes generalizing draft group with
  | nil => simp [pushAll, ← h]
  | cons node rest ih =>
      have hPush : draft.push node =
          { draft with opened :=
              { group with children := group.children ++ [node] } :: outer } := by
        simp only [push, h]
      have hRest := @ih (draft.push node) _ (by rw [hPush])
      rw [pushAll, List.foldl_cons]
      exact hRest.trans (by simp [hPush])

@[simp] theorem frames_pushAll (nodes : List Node) (draft : Draft) :
    (draft.pushAll nodes).frames = draft.frames := by
  induction nodes generalizing draft with
  | nil => rfl
  | cons node rest ih => exact (ih (draft.push node)).trans (frames_push node draft)

@[simp] theorem name_pushAll (nodes : List Node) (draft : Draft) :
    (draft.pushAll nodes).name = draft.name := by
  induction nodes generalizing draft with
  | nil => rfl
  | cons node rest ih => exact (ih (draft.push node)).trans (name_push node draft)

@[simp] theorem title_pushAll (nodes : List Node) (draft : Draft) :
    (draft.pushAll nodes).title = draft.title := by
  induction nodes generalizing draft with
  | nil => rfl
  | cons node rest ih => exact (ih (draft.push node)).trans (title_push node draft)

theorem placed_pushAll (nodes : List Node) (draft : Draft) :
    (draft.pushAll nodes).placed =
      draft.placed ++ Node.placedAll (numbers draft.frames) draft.placed.length nodes := by
  induction nodes generalizing draft with
  | nil => simp [pushAll, Node.placedAll]
  | cons node rest ih =>
      have hRest := ih (draft.push node)
      rw [frames_push, placed_push] at hRest
      simp only [pushAll, List.foldl_cons] at hRest ⊢
      rw [hRest]
      simp [Node.placedAll]

/-! ### Declarations -/

@[simp] theorem placed_addContext (draft : Draft) (v : ContextVariable) :
    (draft.addContext v).placed = draft.placed := by
  unfold addContext
  split
  · rfl
  · rename_i hOpened
    simp [placed, start, titleLine, hOpened, OpenGroup.placed, OpenGroup.frames, OpenGroup.entry]

@[simp] theorem frames_addContext (draft : Draft) (v : ContextVariable) :
    (draft.addContext v).frames = draft.frames := by
  unfold addContext
  split
  · rfl
  · rename_i hOpened
    simp [frames, start, titleLine, hOpened, OpenGroup.frames]

@[simp] theorem name_addContext (draft : Draft) (v : ContextVariable) :
    (draft.addContext v).name = draft.name := by
  unfold addContext
  split <;> rfl

@[simp] theorem title_addContext (draft : Draft) (v : ContextVariable) :
    (draft.addContext v).title = draft.title := by
  unfold addContext
  split <;> rfl

section Declare

variable (context : List ContextVariable) (tools : List Tool) (samples : List Sample)
variable (draft : Draft)

/-- What no declaration of a variable changes, `declare` does not change. -/
theorem declare_induct {α : Type} (view : Draft → α)
    (hContext : ∀ draft v, view (addContext draft v) = view draft)
    (hRest : ∀ (draft : Draft) tools samples, view { draft with tools, samples } = view draft) :
    view (draft.declare context tools samples) = view draft := by
  have hFold : view (context.foldl addContext draft) = view draft := by
    induction context generalizing draft with
    | nil => rfl
    | cons v rest ih => exact (ih (draft.addContext v)).trans (hContext draft v)
  exact (hRest _ _ _).trans hFold

@[simp] theorem placed_declare : (draft.declare context tools samples).placed = draft.placed :=
  declare_induct context tools samples draft placed placed_addContext fun _ _ _ => rfl

@[simp] theorem frames_declare : (draft.declare context tools samples).frames = draft.frames :=
  declare_induct context tools samples draft frames frames_addContext fun _ _ _ => rfl

@[simp] theorem name_declare : (draft.declare context tools samples).name = draft.name :=
  declare_induct context tools samples draft Draft.name name_addContext fun _ _ _ => rfl

@[simp] theorem title_declare : (draft.declare context tools samples).title = draft.title :=
  declare_induct context tools samples draft Draft.title title_addContext fun _ _ _ => rfl

end Declare

/-! ### Headings -/

/-- Whether a heading of this level names the deck instead of opening a group. -/
def naming (draft : Draft) (level : UInt8) : Bool :=
  level = 1 && !draft.named

theorem placed_addHeading {draft : Draft} (hTitle : draft.TitleOk) (level : UInt8)
    (text : String) :
    (draft.addHeading level text).placed =
      draft.placed ++ [(numbers (below level draft.frames),
        if draft.naming level then .title text else .group text level)] := by
  by_cases hNaming : level = 1 ∧ draft.name.isNone
  · obtain ⟨rfl, hName⟩ := hNaming
    rw [Option.isNone_iff_eq_none] at hName
    simp only [addHeading, naming, named, hName, Option.isNone_none, Option.isSome_none,
      decide_true, Bool.not_false, Bool.and_self, if_true]
    split
    · -- Nothing is there yet, so the title is the first line.
      rename_i hEmpty
      simp only [Bool.and_eq_true, List.isEmpty_iff] at hEmpty
      simp [placed, frames, start, titleLine, hTitle hName, hEmpty, below, OpenGroup.placed,
        OpenGroup.frames, Node.placedAll]
    · rw [placed_push, placed_closeTo, frames_closeTo]
      rfl
  · have hOpens : ¬ (decide (level = 1) && draft.name.isNone) = true := by simpa using hNaming
    have hGroup : draft.naming level = false := by
      cases hName : draft.name <;> simp_all [naming, named]
    simp only [addHeading, if_neg hOpens, hGroup]
    have hPlaced := placed_closeTo level draft
    have hFrames := frames_closeTo level draft
    rw [← hPlaced, ← hFrames]
    simp [placed, frames, start, titleLine, OpenGroup.placed, OpenGroup.entry, Node.placedAll]

theorem frames_addHeading (draft : Draft) (level : UInt8) (text : String) :
    (draft.addHeading level text).frames =
      (if draft.naming level then [] else [⟨draft.placed.length, level⟩]) ++
        below level draft.frames := by
  by_cases hNaming : level = 1 ∧ draft.name.isNone
  · obtain ⟨rfl, hName⟩ := hNaming
    rw [Option.isNone_iff_eq_none] at hName
    simp only [addHeading, naming, named, hName, Option.isNone_none, Option.isSome_none,
      decide_true, Bool.not_false, Bool.and_self, if_true]
    split
    · rename_i hEmpty
      simp only [Bool.and_eq_true, List.isEmpty_iff] at hEmpty
      simp [frames, hEmpty, below, OpenGroup.frames]
    · rw [frames_push, frames_closeTo]
      rfl
  · have hOpens : ¬ (decide (level = 1) && draft.name.isNone) = true := by simpa using hNaming
    have hGroup : draft.naming level = false := by
      cases hName : draft.name <;> simp_all [naming, named]
    simp only [addHeading, if_neg hOpens, hGroup]
    rw [← placed_closeTo level draft, ← frames_closeTo level draft, length_placed]
    simp [frames, start, titleLine, OpenGroup.frames]

theorem named_addHeading (draft : Draft) (level : UInt8) (text : String) :
    (draft.addHeading level text).named = (draft.named || level = 1) := by
  unfold addHeading named
  by_cases hOne : level = 1
  · cases hName : draft.name with
    | none =>
        simp only [hOne, Option.isNone_none, decide_true, Bool.and_self, if_true]
        split <;> simp
    | some name => simp [hOne, hName]
  · simp [hOne]

theorem titleOk_addHeading {draft : Draft} (hTitle : draft.TitleOk) (level : UInt8)
    (text : String) : (draft.addHeading level text).TitleOk := by
  intro hName
  have hNamed := named_addHeading draft level text
  rw [named, hName] at hNamed
  simp only [Option.isSome_none, Bool.false_eq, Bool.or_eq_false_iff, decide_eq_false_iff_not]
    at hNamed
  have hNone : draft.name = none := by simpa [named] using hNamed.1
  simp only [addHeading, hNamed.2, decide_false, Bool.false_and, Bool.false_eq_true, if_false]
  exact hTitle hNone

/-! ### The finished deck -/

/-- Level 0 closes every group. -/
theorem opened_closeTo_zero (draft : Draft) : (draft.closeTo 0).opened = [] := by
  have hAll : ∀ (opened : List OpenGroup) (pending : List Node),
      (closeGroups 0 pending opened).2 = [] := by
    intro opened
    induction opened with
    | nil => intro pending; rfl
    | cons group outer ih =>
        intro pending
        have hZero : (0 : UInt8) ≤ group.header.level := by
          rw [UInt8.le_iff_toNat_le]
          exact Nat.zero_le _
        simp only [closeGroups, if_pos hZero]
        exact ih _
  exact hAll draft.opened []

/-- The finished deck lists what the draft lists. -/
theorem placed_finish (draft : Draft) : draft.finish.deck.placed = draft.placed := by
  rw [← placed_closeTo 0 draft]
  have hOpened := opened_closeTo_zero draft
  simp only [placed, hOpened, OpenGroup.placed, List.append_nil]
  rfl

end Draft

/-! ## Adding parts -/

/-- A mapped computation succeeds if the computation does. -/
theorem exists_of_map_ok {ε α β : Type} {f : α → β} {computation : Except ε α} {b : β}
    (h : computation.map f = .ok b) : ∃ a, computation = .ok a ∧ b = f a := by
  cases computation with
  | error error => cases h
  | ok a => exact ⟨a, rfl, (Except.ok.inj h).symm⟩

theorem exists_ok_of_toBool {ε α : Type} {computation : Except ε α}
    (h : computation.toBool = true) : ∃ a, computation = .ok a := by
  cases computation with
  | error error => cases h
  | ok a => exact ⟨a, rfl⟩

/-- What is found of the result of a computation is found of a result. -/
theorem exists_of_toOption_map {ε α β : Type} {f : α → β} {computation : Except ε α} {b : β}
    (h : computation.toOption.map f = some b) : ∃ a, computation = .ok a ∧ f a = b := by
  cases computation with
  | error error => cases h
  | ok a => exact ⟨a, rfl, Option.some.inj h⟩

theorem ofParts_eq_ok {parts : List Part} {doc : Document} (h : ofParts parts = .ok doc) :
    ∃ draft, Draft.addAll {} parts = .ok draft ∧ doc = draft.finish :=
  exists_of_map_ok h

/-- The first part is added first. -/
theorem addAll_cons_ok {draft last : Draft} {part : Part} {rest : List Part}
    (h : draft.addAll (part :: rest) = .ok last) :
    ∃ next, draft.add part = .ok next ∧ next.addAll rest = .ok last := by
  simp only [Draft.addAll] at h
  split at h
  · rename_i next hPart
    exact ⟨next, hPart, h⟩
  · cases h

/-- Adding parts one after the other. -/
theorem addAll_append (draft : Draft) (parts more : List Part) :
    draft.addAll (parts ++ more) =
      match draft.addAll parts with
      | .ok next => next.addAll more
      | .error error => .error error := by
  induction parts generalizing draft with
  | nil => rfl
  | cons part rest ih =>
      simp only [List.cons_append, Draft.addAll]
      cases draft.add part with
      | ok next => exact ih next
      | error error => rfl

theorem addAll_append_ok {draft last : Draft} {parts more : List Part}
    (h : draft.addAll (parts ++ more) = .ok last) :
    ∃ next, draft.addAll parts = .ok next ∧ next.addAll more = .ok last := by
  rw [addAll_append] at h
  cases hParts : draft.addAll parts with
  | ok next =>
      rw [hParts] at h
      exact ⟨next, rfl, h⟩
  | error error =>
      rw [hParts] at h
      cases h

/-- The frames that a part leaves open. -/
def Part.leaves (frames : List Frame) : Part → List Frame
  | .heading level _ => below level frames
  | _ => frames

/-- The frame that a part opens, given the number of its line. -/
def Part.opens (named : Bool) (number : Nat) : Part → List Frame
  | .heading level _ => if level = 1 && !named then [] else [⟨number, level⟩]
  | _ => []

/-- What one part of an expansion does to a draft. -/
structure Step (draft : Draft) (part : Part) (next : Draft) : Prop where
  /-- The lines of the part come behind those of the draft, inside the groups that the part
  leaves open and otherwise only inside groups of its own. -/
  placed : ∃ lines, next.placed = draft.placed ++ lines ∧
    lines.map Prod.snd = part.listing draft.named ∧
    ∀ line ∈ lines, ∃ inner, line.1 = inner ++ numbers (part.leaves draft.frames) ∧
      ∀ n ∈ inner, draft.placed.length ≤ n
  frames : next.frames =
    part.opens draft.named draft.placed.length ++ part.leaves draft.frames
  named : next.named = (draft.named || part.isTitle)
  titleOk : next.TitleOk

/-- A part that pushes nodes and else only declares. -/
theorem Step.of_pushAll {draft start : Draft} {part : Part} {nodes : List Node}
    (hTitle : draft.TitleOk) (hPlaced : start.placed = draft.placed)
    (hFrames : start.frames = draft.frames) (hName : start.name = draft.name)
    (hTitles : start.title = draft.title)
    (hLeaves : part.leaves draft.frames = draft.frames)
    (hOpens : part.opens draft.named draft.placed.length = [])
    (hIsTitle : part.isTitle = false)
    (hListing : Node.preorderAll nodes = part.listing draft.named) :
    Step draft part (start.pushAll nodes) where
  placed := by
    refine ⟨_, by rw [Draft.placed_pushAll, hPlaced, hFrames], ?_, ?_⟩
    · rw [Node.map_snd_placedAll, hListing]
    · intro line hLine
      rw [hLeaves]
      exact Node.around_placedAll hLine
  frames := by rw [Draft.frames_pushAll, hFrames, hLeaves, hOpens, List.nil_append]
  named := by simp [Draft.named, hName, hIsTitle]
  titleOk := by simpa [Draft.TitleOk, hName, hTitles] using hTitle

theorem Step.of_heading {draft : Draft} (hTitle : draft.TitleOk) (level : UInt8)
    (text : String) : Step draft (.heading level text) (draft.addHeading level text) where
  placed := by
    refine ⟨_, Draft.placed_addHeading hTitle level text, ?_, ?_⟩
    · show [if draft.naming level then Entry.title text else .group text level] =
        if draft.naming level then [Entry.title text] else [.group text level]
      split <;> rfl
    · intro line hLine
      rw [List.mem_singleton] at hLine
      exact ⟨[], by simp [hLine, Part.leaves], by simp⟩
  frames := Draft.frames_addHeading draft level text
  named := Draft.named_addHeading draft level text
  titleOk := Draft.titleOk_addHeading hTitle level text

/-- The content of a document without a fragment is its title and its tree. -/
theorem preorderAll_content (doc : Document) :
    (doc.content? none).map Node.preorderAll = some doc.deck.preorder := by
  simp only [content?, Option.map_some, Deck.preorder, Node.preorderAll_append]
  cases doc.deck.title <;> rfl

/-- An embedded document is read like any other; then its deck is declared and what is wanted of
it is added. -/
theorem add_document_ok {path : Path} {fragment : Option String} {parts : List Part}
    {draft next : Draft} (h : draft.add (.document path fragment parts) = .ok next) :
    ∃ own nodes, Draft.addAll {} parts = .ok own ∧ own.finish.content? fragment = some nodes ∧
      next = (draft.declare own.finish.deck.context own.finish.deck.tools
        own.finish.samples).pushAll nodes := by
  simp only [Draft.add] at h
  split at h
  · rename_i own hOwn
    unfold Draft.splice at h
    cases hContent : own.finish.content? fragment with
    | none => simp [hContent] at h
    | some nodes =>
        simp only [hContent, Except.ok.injEq] at h
        exact ⟨own, nodes, hOwn, hContent, h.symm⟩
  · cases h

/-- What a draft becomes when a part is added to it; a part that failed cannot be added. -/
inductive Added (draft : Draft) : Part → Draft → Prop where
  | heading (level : UInt8) (text : String) :
      Added draft (.heading level text) (draft.addHeading level text)
  | leaf (text : String) : Added draft (.leaf text) (draft.push (.leaf text []))
  | lead (text : String) : Added draft (.lead text) (draft.push (.lead text))
  | definitions (declared : Definitions) :
      Added draft (.definitions declared)
        (draft.declare declared.context declared.tools declared.samples)
  | document {path : Path} {fragment : Option String} {parts : List Part} {own : Draft}
      {nodes : List Node} (hOwn : Draft.addAll {} parts = .ok own)
      (hContent : own.finish.content? fragment = some nodes) :
      Added draft (.document path fragment parts)
        ((draft.declare own.finish.deck.context own.finish.deck.tools
          own.finish.samples).pushAll nodes)

theorem added_of_ok {draft next : Draft} {part : Part} (h : draft.add part = .ok next) :
    Added draft part next := by
  cases part with
  | heading level text =>
      simp only [Draft.add, Except.ok.injEq] at h
      exact h ▸ .heading level text
  | leaf text =>
      simp only [Draft.add, Except.ok.injEq] at h
      exact h ▸ .leaf text
  | lead text =>
      simp only [Draft.add, Except.ok.injEq] at h
      exact h ▸ .lead text
  | definitions declared =>
      simp only [Draft.add, Except.ok.injEq] at h
      exact h ▸ .definitions declared
  | document path fragment parts =>
      obtain ⟨own, nodes, hOwn, hContent, rfl⟩ := add_document_ok h
      exact .document hOwn hContent
  | failed error => simp [Draft.add] at h

/-- The draft without more lines. -/
theorem Draft.preorder_finish (draft : Draft) :
    draft.finish.deck.preorder = draft.placed.map Prod.snd := by
  rw [← Deck.map_snd_placed, Draft.placed_finish]

mutual

/-- Adding a part is a step. -/
theorem step_add {draft next : Draft} {part : Part} (hTitle : draft.TitleOk)
    (h : draft.add part = .ok next) : Step draft part next := by
  cases part with
  | heading level text =>
      simp only [Draft.add, Except.ok.injEq] at h
      subst h
      exact Step.of_heading hTitle level text
  | leaf text =>
      simp only [Draft.add, Except.ok.injEq] at h
      subst h
      exact @Step.of_pushAll draft draft _ [.leaf text []] hTitle rfl rfl rfl rfl rfl rfl rfl rfl
  | lead text =>
      simp only [Draft.add, Except.ok.injEq] at h
      subst h
      exact @Step.of_pushAll draft draft _ [.lead text] hTitle rfl rfl rfl rfl rfl rfl rfl rfl
  | definitions declared =>
      simp only [Draft.add, Except.ok.injEq] at h
      subst h
      exact @Step.of_pushAll draft _ _ [] hTitle (Draft.placed_declare _ _ _ draft)
        (Draft.frames_declare _ _ _ draft) (Draft.name_declare _ _ _ draft)
        (Draft.title_declare _ _ _ draft) rfl rfl rfl rfl
  | document path fragment parts =>
      obtain ⟨own, nodes, hOwn, hContent, rfl⟩ := add_document_ok h
      have hListing : own.finish.deck.preorder = Part.listingAll false parts := by
        rw [Draft.preorder_finish, preorder_addAll Draft.titleOk_empty hOwn]
        rfl
      refine Step.of_pushAll hTitle (Draft.placed_declare _ _ _ draft)
        (Draft.frames_declare _ _ _ draft) (Draft.name_declare _ _ _ draft)
        (Draft.title_declare _ _ _ draft) rfl rfl rfl ?_
      cases fragment with
      | none =>
          have hAll := preorderAll_content own.finish
          rw [hContent, Option.map_some, Option.some.injEq] at hAll
          simpa [Part.listing, hListing] using hAll
      | some fragment =>
          have hParts : ofParts parts = .ok own.finish := by
            simp [ofParts, hOwn, Except.map]
          simp [Part.listing, selectionListing, hParts, hContent]
  | failed error => simp [Draft.add] at h

/-- Adding parts lists them behind what the draft lists. -/
theorem preorder_addAll {draft next : Draft} {parts : List Part} (hTitle : draft.TitleOk)
    (h : draft.addAll parts = .ok next) :
    next.placed.map Prod.snd =
      draft.placed.map Prod.snd ++ Part.listingAll draft.named parts := by
  cases parts with
  | nil =>
      simp only [Draft.addAll, Except.ok.injEq] at h
      simp [h, Part.listingAll]
  | cons part rest =>
      obtain ⟨middle, hPart, hRest⟩ := addAll_cons_ok h
      have hStep := step_add hTitle hPart
      obtain ⟨lines, hPlaced, hLines, -⟩ := hStep.placed
      rw [preorder_addAll hStep.titleOk hRest, hPlaced, List.map_append, hLines, hStep.named,
        List.append_assoc]
      rfl

end

end Deckwright.Document
