import Deckwright.Proofs.Nesting
import Deckwright.Proofs.PieceTexts

/-!
# What a deck is called

The first heading of level 1 that is not empty names the deck, wherever in its document it stands,
and no later heading does. It is the title as well if nothing is listed before it: no leaf, no lead
and no group, be it open or closed, and be it from an embedded document (`names_finish`).
-/

namespace Deckwright.Document

open Markdown (Block)

/-! ## Drafts -/

namespace Draft

/-- What a draft is called does not change any more when it has a name. -/
theorem called_add {draft next : Draft} {part : Part} {name : String}
    (hName : draft.name = some name) (h : draft.add part = .ok next) :
    next.name = some name ∧ next.title = draft.title := by
  cases added_of_ok h with
  | heading level text =>
      simp only [addHeading, hName, Option.isNone_some, Bool.and_false, Bool.false_eq_true, if_false]
      exact ⟨hName, rfl⟩
  | leaf text => simp [hName]
  | lead text => simp [hName]
  | definitions declared => simp [hName]
  | document hOwn hContent => simp [hName]

theorem called_addAll {draft last : Draft} {parts : List Part} {name : String}
    (hName : draft.name = some name) (h : draft.addAll parts = .ok last) :
    last.name = some name ∧ last.title = draft.title := by
  induction parts generalizing draft with
  | nil =>
      simp only [Draft.addAll, Except.ok.injEq] at h
      exact h ▸ ⟨hName, rfl⟩
  | cons part rest ih =>
      obtain ⟨next, hPart, hRest⟩ := addAll_cons_ok h
      obtain ⟨hNext, hTitle⟩ := called_add hName hPart
      rw [← hTitle]
      exact ih hNext hRest

/-- Without a title a draft lists something as soon as it has a node or an open group. -/
theorem placed_eq_nil_iff {draft : Draft} (hTitle : draft.title = none) :
    draft.placed = [] ↔ draft.root = [] ∧ draft.opened = [] := by
  have hLine : draft.titleLine = [] := by rw [titleLine, hTitle]; rfl
  rw [placed, hLine, List.nil_append, List.append_eq_nil_iff]
  refine and_congr ?_ ?_
  · cases draft.root with
    | nil => simp [Node.placedAll]
    | cons node rest => cases node <;> simp [Node.placedAll, Node.placed]
  · cases draft.opened with
    | nil => simp [OpenGroup.placed]
    | cons group outer => simp [OpenGroup.placed]

/-- The heading that names a draft is its title if there is nothing yet. -/
theorem called_addHeading {draft : Draft} (hName : draft.name = none) (hTitle : draft.title = none)
    (text : String) :
    (draft.addHeading 1 text).name = some text ∧
      (draft.addHeading 1 text).title = if draft.placed = [] then some text else none := by
  have hEmpty : (draft.root.isEmpty && draft.opened.isEmpty) = true ↔ draft.placed = [] := by
    rw [placed_eq_nil_iff hTitle, Bool.and_eq_true, List.isEmpty_iff, List.isEmpty_iff]
  simp only [addHeading, hName, Option.isNone_none, decide_true, Bool.and_self, if_true, hEmpty]
  split
  · exact ⟨rfl, rfl⟩
  · simp [closeTo, hTitle]

end Draft

/-! ## Documents -/

/-- Block `k` is the first heading of level 1 that is not empty. -/
structure Source.FirstTitle (source : Source) (k : Nat) (text : String) : Prop where
  heading : source.blocks[k]? = some (.heading 1 text)
  notEmpty : text ≠ ""
  first : ∀ j other, j < k → source.blocks[j]? = some (.heading 1 other) → other = ""

/-- What a deck is called, by the headings of level 1 of its document. -/
structure Source.Names (files : Files) (source : Source) (d : Deck) : Prop where
  /-- The first one that is not empty is the name, and the title if nothing is listed before it. -/
  titled : ∀ {k text}, source.FirstTitle k text →
    d.name = text ∧
      d.title = if source.linesOf files (source.blocks.take k) = [] then some text else none
  /-- Without such a heading the deck goes by the default name and has no title. -/
  untitled : (∀ text, .heading 1 text ∈ source.blocks → text = "") →
    d.name = Deck.defaultName ∧ d.title = none

theorem isTitle_iff {block : Block} :
    block.isTitle ↔ ∃ text, block = .heading 1 text ∧ text ≠ "" := by
  cases block with
  | heading level text =>
      simp only [Block.isTitle, Bool.and_eq_true, decide_eq_true_eq, Bool.not_eq_true',
        Block.heading.injEq]
      constructor
      · rintro ⟨rfl, hText⟩
        exact ⟨text, ⟨rfl, rfl⟩, by simpa using hText⟩
      · rintro ⟨other, ⟨rfl, rfl⟩, hText⟩
        exact ⟨rfl, by simpa using hText⟩
  | list items => simp [Block.isTitle]
  | code text => simp [Block.isTitle]
  | paragraph content => simp [Block.isTitle]

variable {files : Files} {source : Source}

/-- The blocks behind the ones that are read go on from the draft of those. -/
theorem Reached.addAll_drop {j : Nat} {reached draft : Draft} (hReached : Reached files source j reached)
    (h : Draft.addAll {} (source.parts files) = .ok draft) :
    reached.addAll ((source.blocks.drop j).flatMap
      (Part.ofBlock files source.chain source.base)) = .ok draft := by
  obtain ⟨before, hBefore, hRest⟩ := exists_draftAt h j
  have hSame := hReached.at_block
  rw [Source.DraftAt] at hBefore hSame
  rw [hBefore, Except.ok.injEq] at hSame
  rwa [← hSame]

/-- Behind blocks none of which is a title the draft has neither a name nor a title. -/
theorem Reached.not_called {j : Nat} {draft : Draft} (h : Reached files source j draft)
    (hNone : ∀ block ∈ source.blocks.take j, ¬ block.isTitle) :
    draft.name = none ∧ draft.title = none := by
  have hNamed : draft.named = false := by
    rw [h.named, List.any_eq_false]
    exact hNone
  have hName : draft.name = none := by simpa [Draft.named] using hNamed
  exact ⟨hName, h.titleOk hName⟩

theorem Source.FirstTitle.not_isTitle {k : Nat} {text : String} (h : source.FirstTitle k text)
    (block : Block) (hMem : block ∈ source.blocks.take k) : ¬ block.isTitle := by
  rw [isTitle_iff]
  rintro ⟨other, rfl, hOther⟩
  obtain ⟨j, hLess, hAt⟩ := List.mem_take_iff_getElem.1 hMem
  have hBlock : source.blocks[j]? = some (.heading 1 other) :=
    List.getElem?_eq_some_iff.2 ⟨by omega, hAt⟩
  exact hOther (h.first j other (by omega) hBlock)

/-- A document is called what its headings say. -/
theorem names_finish {draft : Draft} (h : Draft.addAll {} (source.parts files) = .ok draft) :
    source.Names files draft.finish.deck where
  titled {k text} hFirst := by
    obtain ⟨hLength, hAt⟩ := List.getElem?_eq_some_iff.1 hFirst.heading
    obtain ⟨reached, hReached⟩ := exists_reached h (Nat.le_of_lt hLength)
    obtain ⟨hName, hTitle⟩ := hReached.not_called hFirst.not_isTitle
    have hNothing : reached.placed = [] ↔ source.linesOf files (source.blocks.take k) = [] := by
      rw [← hReached.at_block.lines, List.map_eq_nil_iff]
    -- the rest of the blocks goes on from the draft that the heading names
    have hRest := hReached.addAll_drop h
    rw [List.drop_eq_getElem_cons hLength, hAt, List.flatMap_cons] at hRest
    have hBlock : Part.ofBlock files source.chain source.base (.heading 1 text) =
        [.heading 1 text] := by
      simp [Part.ofBlock, Piece.ofBlock, Part.ofPiece, hFirst.notEmpty]
    rw [hBlock, List.singleton_append] at hRest
    obtain ⟨named, hHeading, hMore⟩ := addAll_cons_ok hRest
    rw [Draft.add, Except.ok.injEq] at hHeading
    obtain ⟨hNamed, hTitled⟩ := Draft.called_addHeading hName hTitle text
    rw [hHeading] at hNamed hTitled
    obtain ⟨hLast, hLastTitle⟩ := Draft.called_addAll hNamed hMore
    have hTidy : Tidy text :=
      ⟨Markdown.textOk_of_mem_blocks (List.mem_of_getElem? hFirst.heading), hFirst.notEmpty⟩
    constructor
    · show (Deck.empty (draft.name.getD Deck.defaultName)).name = text
      rw [hLast, Option.getD_some, Deck.empty, hTidy.blank]
      rfl
    · show draft.title = _
      rw [hLastTitle, hTitled]
      simp only [hNothing]
  untitled hNone := by
    obtain ⟨reached, hReached⟩ := exists_reached h (Nat.le_refl source.blocks.length)
    have hRest := hReached.addAll_drop h
    rw [List.drop_length, List.flatMap_nil, Draft.addAll, Except.ok.injEq] at hRest
    have hNotTitle : ∀ block ∈ source.blocks.take source.blocks.length, ¬ block.isTitle := by
      intro block hMem hTitle
      obtain ⟨text, rfl, hText⟩ := isTitle_iff.1 hTitle
      exact hText (hNone text (List.mem_of_mem_take hMem))
    obtain ⟨hName, hTitle⟩ := hReached.not_called hNotTitle
    rw [hRest] at hName hTitle
    refine ⟨?_, hTitle⟩
    show (Deck.empty (draft.name.getD Deck.defaultName)).name = _
    rw [hName, Option.getD_none]
    rfl

end Deckwright.Document
