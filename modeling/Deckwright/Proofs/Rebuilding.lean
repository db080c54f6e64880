import Deckwright.Proofs.Canonical
import Deckwright.Proofs.Growth

/-!
# Trees that grow back

The parts of a tree are its headings, leaves and leads from left to right. Adding them to a draft
puts the nodes of the tree back, once the groups that they opened are closed: `closeTo_addAll` is
the induction over the tree. It rests on two facts about closing groups.

* `closeTo_eq_self`: where all open groups have lesser levels, there is nothing to close.
* `closeTo_closeTo`: deeper groups may be closed first.
-/

namespace Deckwright

open Document

mutual

/-- The parts that a node is written as. -/
def Node.parts : Node → List Part
  | .leaf value _ => [.leaf value]
  | .lead text => [.lead text]
  | .group header children => .heading header.level header.name :: Node.partsAll children

/-- The parts that nodes are written as, from left to right. -/
def Node.partsAll : List Node → List Part
  | [] => []
  | node :: rest => node.parts ++ Node.partsAll rest

end

namespace Document

/-! ## Closing groups -/

namespace Draft

variable {draft : Draft}

/-- Where all open groups have lesser levels, nodes that are to go on stay where they are. -/
theorem closeGroups_of_lt {level : UInt8} (h : ∀ frame ∈ draft.frames, frame.level < level)
    (pending : List Node) :
    closeGroups level pending draft.opened =
      match draft.opened with
      | [] => (pending, [])
      | group :: outer => ([], { group with children := group.children ++ pending } :: outer) := by
  cases hOpened : draft.opened with
  | nil => rfl
  | cons group outer =>
      have hFrame : group.header.level < level := by
        apply h ⟨OpenGroup.next draft.start outer, group.header.level⟩
        rw [frames, hOpened, OpenGroup.frames]
        exact List.mem_cons_self
      simp only [closeGroups, if_neg (UInt8.not_le.2 hFrame)]

theorem closeTo_eq_self {level : UInt8} (h : ∀ frame ∈ draft.frames, frame.level < level) :
    draft.closeTo level = draft := by
  have hSame : closeGroups level [] draft.opened = ([], draft.opened) := by
    rw [closeGroups_of_lt h]
    cases draft.opened with
    | nil => rfl
    | cons group outer => simp
  simp [closeTo, hSame]

theorem closeGroups_closeGroups {low high : UInt8} (h : low ≤ high) (pending : List Node)
    (opened : List OpenGroup) :
    ((closeGroups high pending opened).1 ++
        (closeGroups low [] (closeGroups high pending opened).2).1,
      (closeGroups low [] (closeGroups high pending opened).2).2) =
      closeGroups low pending opened := by
  induction opened generalizing pending with
  | nil => simp [closeGroups]
  | cons group outer ih =>
      by_cases hHigh : high ≤ group.header.level
      · have hLow : low ≤ group.header.level := UInt8.le_trans h hHigh
        simp only [closeGroups, hHigh, hLow, if_true]
        exact ih _
      · simp only [closeGroups, hHigh, if_false, List.nil_append, List.append_nil]

/-- Deeper groups may be closed first. -/
theorem closeTo_closeTo {low high : UInt8} (h : low ≤ high) :
    (draft.closeTo high).closeTo low = draft.closeTo low := by
  have hGroups := closeGroups_closeGroups h [] draft.opened
  have hRoot := congrArg Prod.fst hGroups
  have hOpened := congrArg Prod.snd hGroups
  simp only at hRoot hOpened
  simp only [closeTo, List.append_assoc, hRoot, hOpened]

theorem not_naming {level : UInt8} (h : draft.naming level = false) :
    ¬ (decide (level = 1) && draft.name.isNone) = true := by
  rw [naming, named, Option.not_isSome] at h
  rw [h]
  decide

/-- A heading closes the groups of its level and deeper ones by itself. -/
theorem addHeading_closeTo {level other : UInt8} (hLevel : level ≤ other)
    (hNaming : draft.naming level = false) (text : String) :
    (draft.closeTo other).addHeading level text = draft.addHeading level text := by
  unfold addHeading
  rw [name_closeTo, if_neg (not_naming hNaming), if_neg (not_naming hNaming),
    closeTo_closeTo hLevel]

/-- A group that was opened and filled closes as a node. -/
theorem closeTo_addHeading {header : Header} (hLayout : header.layout = .markdown)
    (hContext : header.context = []) (hNaming : draft.naming header.level = false)
    (hOpen : ∀ frame ∈ draft.frames, frame.level < header.level) (children : List Node) :
    ((draft.addHeading header.level header.name).pushAll children).closeTo header.level =
      draft.push (.group header children) := by
  have hHeader : ({ name := header.name, layout := .markdown, level := header.level } : Header) =
      header := by
    cases header
    simp_all
  have hOpened : draft.addHeading header.level header.name =
      { draft with opened := { header } :: draft.opened } := by
    unfold addHeading
    rw [if_neg (not_naming hNaming), closeTo_eq_self hOpen, hHeader]
  rw [hOpened, @pushAll_of_cons _ { header } draft.opened rfl, List.nil_append]
  have hClosed : closeGroups header.level [] ({ header, children } :: draft.opened) =
      closeGroups header.level [.group header children] draft.opened := by
    simp only [closeGroups, List.append_nil, if_pos (UInt8.le_refl _)]
    rfl
  simp only [closeTo, hClosed, closeGroups_of_lt hOpen, push]
  cases draft.opened with
  | nil => rfl
  | cons group outer => simp

/-- What comes behind a group does not see whether the group has been closed. -/
theorem addAll_of_closeTo {closed : Draft} {header : Header} {children rest : List Node}
    (hClosed : draft.closeTo header.level = closed)
    (hPrecedes : ∀ next ∈ rest, (Node.group header children).Precedes next)
    (hNaming : ∀ next inner, .group next inner ∈ rest → draft.naming next.level = false)
    (hSome : rest ≠ []) :
    draft.addAll (Node.partsAll rest) = closed.addAll (Node.partsAll rest) := by
  cases rest with
  | nil => exact absurd rfl hSome
  | cons node rest =>
      have hNode := hPrecedes node List.mem_cons_self
      cases node with
      | leaf value samples => exact absurd hNode id
      | lead text => exact absurd hNode id
      | group next inner =>
          have hHeading :=
            addHeading_closeTo hNode (hNaming next inner List.mem_cons_self) next.name
          rw [hClosed] at hHeading
          simp only [Node.partsAll, Node.parts, List.cons_append, Draft.addAll, Draft.add, hHeading]

end Draft

/-! ## Floors -/

/-- A draft takes groups of the level `floor` and deeper ones into the innermost group: the open
groups have lesser levels, and none of these groups could name the deck. -/
structure Draft.Ready (floor : UInt8) (draft : Draft) : Prop where
  lesser : ∀ frame ∈ draft.frames, frame.level < floor
  named : draft.named ∨ 1 < floor

namespace Draft.Ready

variable {floor level : UInt8} {draft : Draft}

theorem push (h : draft.Ready floor) (node : Node) : (draft.push node).Ready floor where
  lesser := by
    rw [Draft.frames_push]
    exact h.lesser
  named := by
    rw [Draft.named, Draft.name_push]
    exact h.named

theorem naming (h : draft.Ready floor) (hLevel : floor ≤ level) : draft.naming level = false := by
  rcases h.named with hName | hOne
  · simp [Draft.naming, hName]
  · have hNotOne : level ≠ 1 := by
      rintro rfl
      exact UInt8.not_le.2 hOne hLevel
    simp [Draft.naming, hNotOne]

theorem below (h : draft.Ready floor) (hLevel : floor ≤ level) :
    ∀ frame ∈ draft.frames, frame.level < level :=
  fun frame hMem => UInt8.lt_of_lt_of_le (h.lesser frame hMem) hLevel

theorem toNat_add_one (hSix : level ≤ 6) : (level + 1).toNat = level.toNat + 1 := by
  rw [UInt8.le_iff_toNat_le] at hSix
  have hSixNat : (6 : UInt8).toNat = 6 := rfl
  have hOneNat : (1 : UInt8).toNat = 1 := rfl
  rw [UInt8.toNat_add, hOneNat]
  omega

theorem lt_add_one (hSix : level ≤ 6) : level < level + 1 := by
  rw [UInt8.lt_iff_toNat_lt, toNat_add_one hSix]
  omega

/-- The floor of an opened group is right above its level. -/
theorem addHeading (h : draft.Ready floor) (hFloor : 0 < floor) (hLevel : floor ≤ level)
    (hSix : level ≤ 6) (text : String) : (draft.addHeading level text).Ready (level + 1) where
  lesser := by
    intro frame hMem
    rw [Draft.frames_addHeading, h.naming hLevel] at hMem
    rcases List.mem_append.1 hMem with hNew | hOld
    · rw [List.mem_singleton.1 hNew]
      exact lt_add_one hSix
    · have hFrame := h.below hLevel frame ((List.dropWhile_suffix _).mem hOld)
      exact UInt8.lt_trans hFrame (lt_add_one hSix)
  named := by
    right
    have hNext := toNat_add_one hSix
    have hPositive : (0 : UInt8).toNat < floor.toNat := UInt8.lt_iff_toNat_lt.1 hFloor
    have hNat := UInt8.le_iff_toNat_le.1 hLevel
    have hOneNat : (1 : UInt8).toNat = 1 := rfl
    rw [UInt8.lt_iff_toNat_lt]
    omega

end Draft.Ready

/-- The groups among canonical nodes are not above the floor of their parent. -/
theorem floor_le {parent floor : UInt8} {nodes : List Node} (h : Node.CanonicalAll parent nodes)
    (hFloor : floor.toNat = parent.toNat + 1) {header : Header} {children : List Node}
    (hMem : .group header children ∈ nodes) : floor ≤ header.level := by
  induction nodes with
  | nil => cases hMem
  | cons node rest ih =>
      rcases List.mem_cons.1 hMem with rfl | hRest
      · have hParent := UInt8.lt_iff_toNat_lt.1 h.1.2.2.2.1
        rw [UInt8.le_iff_toNat_le, hFloor]
        exact hParent
      · exact ih h.2.2 hRest

/-! ## Trees -/

/-- The parts of canonical nodes put these nodes back into a draft. -/
theorem closeTo_addAll {parent floor : UInt8} {nodes : List Node}
    (h : Node.CanonicalAll parent nodes) (hFloor : floor.toNat = parent.toNat + 1) {draft : Draft}
    (hReady : draft.Ready floor) :
    ∃ next, draft.addAll (Node.partsAll nodes) = .ok next ∧
      next.closeTo floor = draft.pushAll nodes := by
  cases nodes with
  | nil => exact ⟨draft, rfl, Draft.closeTo_eq_self hReady.lesser⟩
  | cons node rest =>
      obtain ⟨hNode, hPrecedes, hRest⟩ := id h
      have hPushed := hReady.push node
      obtain ⟨last, hLast, hClosed⟩ := closeTo_addAll hRest hFloor hPushed
      cases node with
      | leaf value samples =>
          obtain ⟨-, rfl⟩ := hNode
          exact ⟨last, hLast, hClosed⟩
      | lead text => exact ⟨last, hLast, hClosed⟩
      | group header children =>
          obtain ⟨hLayout, hContext, -, -, hSix, hChildren⟩ := hNode
          have hLevel : floor ≤ header.level := floor_le h hFloor List.mem_cons_self
          have hPositive : 0 < floor := by
            rw [UInt8.lt_iff_toNat_lt, hFloor]
            exact Nat.succ_pos _
          obtain ⟨inner, hInner, hInnerClosed⟩ :=
            closeTo_addAll hChildren (Draft.Ready.toNat_add_one hSix)
              (hReady.addHeading hPositive hLevel hSix header.name)
          have hGroup : inner.closeTo header.level = draft.push (.group header children) := by
            rw [← Draft.closeTo_addHeading hLayout hContext (hReady.naming hLevel)
              (hReady.below hLevel) children, ← hInnerClosed,
              Draft.closeTo_closeTo (UInt8.le_of_lt (Draft.Ready.lt_add_one hSix))]
          have hParts : draft.addAll (Node.partsAll (.group header children :: rest)) =
              inner.addAll (Node.partsAll rest) := by
            simp only [Node.partsAll, Node.parts, List.cons_append, Draft.addAll, Draft.add,
              addAll_append, hInner]
          rw [hParts]
          by_cases hSome : rest = []
          · subst hSome
            refine ⟨inner, rfl, ?_⟩
            rw [← Draft.closeTo_closeTo hLevel, hGroup, Draft.closeTo_eq_self hPushed.lesser]
            rfl
          · have hName : inner.name = draft.name := by
              have hSame := congrArg Draft.name hGroup
              rwa [Draft.name_closeTo, Draft.name_push] at hSame
            rw [Draft.addAll_of_closeTo hGroup hPrecedes ?_ hSome]
            · exact ⟨last, hLast, hClosed⟩
            · intro next others hMem
              rw [Draft.naming, Draft.named, hName]
              exact hReady.naming (floor_le hRest hFloor hMem)

end Document

end Deckwright
