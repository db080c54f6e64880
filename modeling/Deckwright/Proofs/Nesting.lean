import Deckwright.Proofs.Readings

/-!
# Which group a node is in

A heading of level `n` opens a group, and what later blocks of the same document make is inside
that group up to the next heading of level `n` or less. Embedded documents do not change that:
however their own headings are nested, they neither close nor open a group of the document that
embeds them.

The statement is about positions, not about texts, since the same text may stand in many places.
By `Deckwright.Proofs.Preorder` the lines of a deck are those of the blocks in their order; so
the lines that block `j` makes are those with the numbers from `lineOf j` up to `lineOf (j + 1)`.

## Main results

* `mem_numbers_frames`: the invariant. The frames of a draft have levels and numbers that grow
  inwards (`FramesOk`), and a group is among them as long as no heading has closed it.
* `inside_iff`: for one document, which lines are inside the group of a heading.
* `nested_of_reads`: for every document that takes part in a reading, with what the tree of an
  embedded document becomes in the tree of the one that embeds it.
-/

namespace Deckwright

/-- Line number `inner` of the deck is inside the group whose own line has number `outer`. -/
def Deck.Inside (d : Deck) (inner outer : Nat) : Prop :=
  ∃ line, d.placed[inner]? = some line ∧ outer ∈ line.1

namespace Markdown

/-- Whether a block is a heading that closes the groups of a level: a heading that is not empty,
of that level or a lesser one. -/
def Block.Closes (level : Nat) : Block → Prop
  | .heading own text => text.isEmpty = false ∧ own ≤ level
  | _ => False

/-- No block behind block `i` closes the groups of a level, up to block `j` and not in it. -/
theorem forall_not_closes_iff {blocks : List Block} {i j level : Nat} {block : Block} (hij : i < j)
    (hBlock : blocks[j]? = some block) :
    (∀ k other, i < k → k ≤ j → blocks[k]? = some other → ¬ other.Closes level) ↔
      (∀ k other, i < k → k < j → blocks[k]? = some other → ¬ other.Closes level) ∧
        ¬ block.Closes level := by
  constructor
  · intro hAll
    exact ⟨fun k other hik hk => hAll k other hik (Nat.le_of_lt hk),
      hAll j block hij (Nat.le_refl j) hBlock⟩
  · rintro ⟨hBefore, hHere⟩ k other hik hk hAt
    rcases Nat.lt_or_eq_of_le hk with hLess | rfl
    · exact hBefore k other hik hLess hAt
    · rw [hBlock, Option.some.injEq] at hAt
      exact hAt ▸ hHere

end Markdown

namespace Document

open Markdown (Block)

/-! ## Frames -/

/-- The frames of a listing with `size` lines: levels and numbers grow inwards. -/
structure FramesOk (size : Nat) (frames : List Frame) : Prop where
  sorted : frames.Pairwise fun inner outer =>
    outer.level < inner.level ∧ outer.number < inner.number
  number_lt : ∀ frame ∈ frames, frame.number < size

theorem FramesOk.mono {size more : Nat} {frames : List Frame} (h : FramesOk size frames)
    (hMore : size ≤ more) : FramesOk more frames where
  sorted := h.sorted
  number_lt := by
    intro frame hMem
    have := h.number_lt frame hMem
    omega

theorem FramesOk.below {size : Nat} {frames : List Frame} (h : FramesOk size frames)
    (level : UInt8) : FramesOk size (below level frames) where
  sorted := h.sorted.sublist (List.dropWhile_sublist _)
  number_lt frame hMem := h.number_lt frame ((List.dropWhile_sublist _).mem hMem)

/-- Because levels grow inwards, exactly the frames of lesser levels are left. -/
theorem mem_below {frames : List Frame} {level : UInt8} {frame : Frame}
    (hSorted : frames.Pairwise fun inner outer =>
      outer.level < inner.level ∧ outer.number < inner.number) :
    frame ∈ below level frames ↔ frame ∈ frames ∧ frame.level < level := by
  induction frames with
  | nil => simp [below]
  | cons inner outer ih =>
      rw [List.pairwise_cons] at hSorted
      by_cases hLevel : level ≤ inner.level
      · have hDrop : below level (inner :: outer) = below level outer :=
          List.dropWhile_cons_of_pos (by simpa using hLevel)
        rw [hDrop, ih hSorted.2, List.mem_cons]
        constructor
        · rintro ⟨hMem, hLess⟩
          exact ⟨.inr hMem, hLess⟩
        · rintro ⟨rfl | hMem, hLess⟩
          · exact absurd hLess (UInt8.not_lt.2 hLevel)
          · exact ⟨hMem, hLess⟩
      · have hKeep : below level (inner :: outer) = inner :: outer :=
          List.dropWhile_cons_of_neg (by simpa using hLevel)
        have hLess : inner.level < level := UInt8.not_le.1 hLevel
        rw [hKeep]
        refine ⟨fun hMem => ⟨hMem, ?_⟩, And.left⟩
        rcases List.mem_cons.1 hMem with rfl | hOuter
        · exact hLess
        · exact UInt8.lt_trans (hSorted.1 frame hOuter).1 hLess

/-- The frame that a new group gets is the innermost one. -/
theorem FramesOk.open {size : Nat} {frames : List Frame} (h : FramesOk size frames)
    (level : UInt8) : FramesOk (size + 1) (⟨size, level⟩ :: Document.below level frames) where
  sorted := by
    have hBelow := h.below level
    refine List.pairwise_cons.2 ⟨fun frame hMem => ⟨?_, hBelow.number_lt frame hMem⟩,
      hBelow.sorted⟩
    exact ((mem_below h.sorted).1 hMem).2
  number_lt := by
    intro frame hMem
    rcases List.mem_cons.1 hMem with rfl | hOuter
    · exact Nat.lt_succ_self size
    · exact Nat.lt_succ_of_lt ((h.below level).number_lt frame hOuter)

/-! ## Blocks -/

/-- The frames that a block leaves open. -/
def leaves (frames : List Frame) : Block → List Frame
  | .heading level text => if text.isEmpty then frames else below (UInt8.ofNat level) frames
  | _ => frames

/-- The frame that a block opens, given the number of its line. -/
def opens (named : Bool) (number : Nat) : Block → List Frame
  | .heading level text =>
    if text.isEmpty || level = 1 && !named then [] else [⟨number, UInt8.ofNat level⟩]
  | _ => []

/-- What one block of a document does to a draft. -/
structure BlockStep (embedded : Embed → List Entry) (draft : Draft) (block : Block)
    (next : Draft) : Prop where
  placed : ∃ lines, next.placed = draft.placed ++ lines ∧
    lines.map Prod.snd = blockListing embedded draft.named block ∧
    ∀ line ∈ lines, ∃ inner, line.1 = inner ++ numbers (leaves draft.frames block) ∧
      ∀ n ∈ inner, draft.placed.length ≤ n
  frames : next.frames =
    opens draft.named draft.placed.length block ++ leaves draft.frames block
  named : next.named = (draft.named || block.isTitle)
  titleOk : next.TitleOk

/-- Only headings open or close frames. -/
theorem Part.leaves_and_opens {part : Part} (h : part.isHeading = false) (frames : List Frame)
    (named : Bool) (number : Nat) :
    part.leaves frames = frames ∧ part.opens named number = [] := by
  cases part with
  | heading level text => cases h
  | _ => exact ⟨rfl, rfl⟩

/-- Parts without a heading add lines inside the frames and leave the frames as they are. -/
theorem placed_addAll {draft next : Draft} {parts : List Part} (hTitle : draft.TitleOk)
    (hParts : ∀ part ∈ parts, part.isHeading = false) (h : draft.addAll parts = .ok next) :
    (∃ lines, next.placed = draft.placed ++ lines ∧
      lines.map Prod.snd = Part.listingAll draft.named parts ∧
      ∀ line ∈ lines, ∃ inner, line.1 = inner ++ numbers draft.frames ∧
        ∀ n ∈ inner, draft.placed.length ≤ n) ∧
    next.frames = draft.frames ∧ next.named = draft.named ∧ next.TitleOk := by
  induction parts generalizing draft with
  | nil =>
      simp only [Draft.addAll, Except.ok.injEq] at h
      subst h
      exact ⟨⟨[], by simp [Part.listingAll]⟩, rfl, rfl, hTitle⟩
  | cons part rest ih =>
      have hPart := hParts part List.mem_cons_self
      have hRest := fun other hMem => hParts other (List.mem_cons_of_mem part hMem)
      obtain ⟨middle, hAdd, hMore⟩ := addAll_cons_ok h
      have hStep := step_add hTitle hAdd
      obtain ⟨hLeaves, hOpens⟩ :=
        Part.leaves_and_opens hPart draft.frames draft.named draft.placed.length
      have hFrames : middle.frames = draft.frames := by
        rw [hStep.frames, hLeaves, hOpens, List.nil_append]
      have hNamed : middle.named = draft.named := by
        rw [hStep.named, Part.isTitle_eq_false hPart, Bool.or_false]
      obtain ⟨lines, hPlaced, hLines, hAround⟩ := hStep.placed
      obtain ⟨⟨more, hPlacedMore, hLinesMore, hAroundMore⟩, hRestOk⟩ := ih hStep.titleOk hRest hMore
      rw [hFrames, hNamed] at hRestOk
      refine ⟨⟨lines ++ more, ?_, ?_, ?_⟩, hRestOk⟩
      · rw [hPlacedMore, hPlaced, List.append_assoc]
      · rw [List.map_append, hLines, hLinesMore, hNamed]
        simp [Part.listingAll, Part.isTitle_eq_false hPart]
      · intro line hMem
        rcases List.mem_append.1 hMem with hHere | hThere
        · rw [hLeaves] at hAround
          exact hAround line hHere
        · obtain ⟨inner, hLine, hInner⟩ := hAroundMore line hThere
          refine ⟨inner, by rw [hLine, hFrames], ?_⟩
          intro n hIn
          have hLater := hInner n hIn
          rw [hPlaced, List.length_append] at hLater
          omega

section Blocks

variable {files : Files} {chain : List Path} {base : Path}

/-- A block that is no heading has no frames and is no title. -/
theorem leaves_and_opens {block : Block} (h : ∀ level text, block ≠ .heading level text)
    (frames : List Frame) (named : Bool) (number : Nat) :
    leaves frames block = frames ∧ opens named number block = [] ∧ block.isTitle = false := by
  cases block with
  | heading level text => exact absurd rfl (h level text)
  | _ => exact ⟨rfl, rfl, rfl⟩

/-- Adding a heading is a step; without a text it is no part at all. -/
theorem blockStep_heading {draft next : Draft} {level : Nat} {text : String}
    (hLevel : level ≤ 6) (hTitle : draft.TitleOk)
    (h : draft.addAll (Part.ofBlock files chain base (.heading level text)) = .ok next) :
    BlockStep (embedListing files chain base) draft (.heading level text) next := by
  by_cases hText : text.isEmpty
  · simp only [Part.ofBlock, Piece.ofBlock, hText, if_true, List.map_nil, Draft.addAll,
      Except.ok.injEq] at h
    subst h
    exact
      { placed := ⟨[], by simp [blockListing, hText]⟩
        frames := by simp [opens, leaves, hText]
        named := by simp [Block.isTitle, hText]
        titleOk := hTitle }
  · simp only [Part.ofBlock, Piece.ofBlock, hText, Bool.false_eq_true, if_false,
      List.map_cons, List.map_nil, Part.ofPiece, Draft.addAll, Draft.add,
      Except.ok.injEq] at h
    subst h
    have hOne : UInt8.ofNat level = 1 ↔ level = 1 := by
      rw [← UInt8.toNat_inj, Markdown.toNat_ofNat_level hLevel]
      rfl
    have hStep := Step.of_heading hTitle (UInt8.ofNat level) text
    obtain ⟨lines, hPlaced, hLines, hAround⟩ := hStep.placed
    refine
      { placed := ⟨lines, hPlaced, ?_, ?_⟩
        frames := ?_
        named := ?_
        titleOk := hStep.titleOk }
    · rw [hLines]
      simp [Part.listing, blockListing, hText, hOne]
    · simpa [Part.leaves, leaves, hText] using hAround
    · rw [hStep.frames]
      simp [Part.leaves, Part.opens, leaves, opens, hText, hOne]
    · rw [hStep.named]
      simp [Part.isTitle, Block.isTitle, hText, hOne]

/-- Adding the parts of a block is a step. -/
theorem blockStep_addAll {draft next : Draft} {block : Block} (hLevel : block.LevelOk)
    (hTitle : draft.TitleOk) (h : draft.addAll (Part.ofBlock files chain base block) = .ok next) :
    BlockStep (embedListing files chain base) draft block next := by
  by_cases hHeading : ∃ level text, block = .heading level text
  · obtain ⟨level, text, rfl⟩ := hHeading
    exact blockStep_heading hLevel.2 hTitle h
  · have hBlock : ∀ level text, block ≠ .heading level text := by
      intro level text hEq
      exact hHeading ⟨level, text, hEq⟩
    have hListing : Part.listingAll draft.named (Part.ofBlock files chain base block) =
        blockListing (embedListing files chain base) draft.named block := by
      have hMore := @listingAll_ofBlock files chain base block hLevel draft.named []
      simpa [Part.listingAll] using hMore
    obtain ⟨⟨lines, hPlaced, hLines, hAround⟩, hFrames, hNamed, hTitleOk⟩ :=
      placed_addAll hTitle (isHeading_ofBlock hBlock) h
    obtain ⟨hLeaves, hOpens, hIsTitle⟩ :=
      leaves_and_opens hBlock draft.frames draft.named draft.placed.length
    refine
      { placed := ⟨lines, hPlaced, ?_, ?_⟩
        frames := by rw [hFrames, hOpens, hLeaves, List.nil_append]
        named := by rw [hNamed, hIsTitle, Bool.or_false]
        titleOk := hTitleOk }
    · rw [hLines, hListing]
    · rw [hLeaves]
      exact hAround

end Blocks

/-! ## One document -/

namespace Source

/-- The listing of some of the blocks of the document. -/
def linesOf (files : Files) (source : Source) (blocks : List Block) : List Entry :=
  blocksListing (embedListing files source.chain source.base) false blocks

/-- The number of the first line that block `j` makes. -/
def lineOf (files : Files) (source : Source) (j : Nat) : Nat :=
  (source.linesOf files (source.blocks.take j)).length

/-- Block `i` is a heading that opens a group: it is not empty, and not the first of level 1. -/
structure OpensGroup (source : Source) (i level : Nat) (name : String) : Prop where
  heading : source.blocks[i]? = some (.heading level name)
  name_ne : name.isEmpty = false
  titled : level = 1 → ∃ k title, k < i ∧ source.blocks[k]? = some (.heading 1 title) ∧
    title.isEmpty = false

/-- The draft behind the first `j` blocks. -/
def DraftAt (files : Files) (source : Source) (j : Nat) (draft : Draft) : Prop :=
  Draft.addAll {}
    ((source.blocks.take j).flatMap (Part.ofBlock files source.chain source.base)) = .ok draft

end Source

open Source

section Runs

variable {files : Files} {source : Source}

theorem levelOk_of_mem {block : Block} (h : block ∈ source.blocks) : block.LevelOk :=
  Markdown.levelOk_of_mem_blocks h

/-- Every prefix of the blocks has a draft, and the rest of the blocks goes on from it. -/
theorem exists_draftAt {draft : Draft} (h : Draft.addAll {} (source.parts files) = .ok draft)
    (j : Nat) :
    ∃ reached, source.DraftAt files j reached ∧
      reached.addAll ((source.blocks.drop j).flatMap
        (Part.ofBlock files source.chain source.base)) = .ok draft := by
  rw [parts, expand_eq, ← List.take_append_drop j (Markdown.blocks source.text),
    List.flatMap_append] at h
  exact addAll_append_ok h

/-- The draft behind some blocks lists them, and it has a name if one of them is a title. -/
theorem Source.DraftAt.lines {j : Nat} {draft : Draft} (h : source.DraftAt files j draft) :
    draft.placed.map Prod.snd = source.linesOf files (source.blocks.take j) := by
  rw [preorder_addAll Draft.titleOk_empty h, linesOf, ← listingAll_ofBlocks]
  · rfl
  · exact fun block hMem => levelOk_of_mem (List.mem_of_mem_take hMem)

theorem Source.DraftAt.length_placed {j : Nat} {draft : Draft} (h : source.DraftAt files j draft) :
    draft.placed.length = source.lineOf files j := by
  rw [← List.length_map (f := Prod.snd), h.lines, lineOf]

/-- From one block to the next. -/
theorem Source.DraftAt.succ {draft : Draft} (h : Draft.addAll {} (source.parts files) = .ok draft)
    {j : Nat} {block : Block} (hBlock : source.blocks[j]? = some block) {reached : Draft}
    (hReached : source.DraftAt files j reached) (hTitle : reached.TitleOk) :
    ∃ next, source.DraftAt files (j + 1) next ∧
      BlockStep (embedListing files source.chain source.base) reached block next := by
  obtain ⟨next, hNext, -⟩ := exists_draftAt h (j + 1)
  have hTake : source.blocks.take (j + 1) = source.blocks.take j ++ [block] := by
    rw [List.take_add_one, hBlock]
    rfl
  have hSplit := hNext
  rw [DraftAt, hTake, List.flatMap_append] at hSplit
  obtain ⟨middle, hMiddle, hStep⟩ := addAll_append_ok hSplit
  rw [DraftAt, hMiddle] at hReached
  obtain rfl : middle = reached := by simpa using hReached
  simp only [List.flatMap_cons, List.flatMap_nil, List.append_nil] at hStep
  exact ⟨next, hNext, blockStep_addAll (levelOk_of_mem (List.mem_of_getElem? hBlock)) hTitle hStep⟩

/-- What is known of the draft behind the first `j` blocks. -/
structure Reached (files : Files) (source : Source) (j : Nat) (draft : Draft) : Prop where
  at_block : source.DraftAt files j draft
  titleOk : draft.TitleOk
  framesOk : FramesOk draft.placed.length draft.frames
  named : draft.named = (source.blocks.take j).any Block.isTitle

theorem Reached.zero : Reached files source 0 {} where
  at_block := rfl
  titleOk := Draft.titleOk_empty
  framesOk := ⟨List.Pairwise.nil, by simp⟩
  named := rfl

theorem BlockStep.framesOk {embedded : Embed → List Entry} {draft next : Draft} {block : Block}
    (h : BlockStep embedded draft block next)
    (hFrames : FramesOk draft.placed.length draft.frames) :
    FramesOk next.placed.length next.frames := by
  obtain ⟨lines, hPlaced, hLines, -⟩ := h.placed
  have hLength : next.placed.length =
      draft.placed.length + (blockListing embedded draft.named block).length := by
    rw [hPlaced, List.length_append, ← hLines, List.length_map]
  rw [h.frames, hLength]
  cases block with
  | heading level text =>
      by_cases hText : text.isEmpty
      · simpa [opens, leaves, blockListing, hText] using hFrames
      · by_cases hNaming : level = 1 ∧ draft.named = false
        · simpa [opens, leaves, blockListing, hText, hNaming] using
            (hFrames.below (UInt8.ofNat 1)).mono (Nat.le_succ _)
        · have hOpens : opens draft.named draft.placed.length (.heading level text) =
              [⟨draft.placed.length, UInt8.ofNat level⟩] := by
            simp_all [opens]
          have hOne : (blockListing embedded draft.named (.heading level text)).length = 1 := by
            simp only [blockListing, if_neg hText]
            split <;> rfl
          rw [hOpens, hOne]
          simpa [leaves, hText] using hFrames.open (UInt8.ofNat level)
  | list items => exact hFrames.mono (Nat.le_add_right _ _)
  | code text => exact hFrames.mono (Nat.le_add_right _ _)
  | paragraph content => exact hFrames.mono (Nat.le_add_right _ _)

theorem Reached.succ {draft : Draft} (h : Draft.addAll {} (source.parts files) = .ok draft)
    {j : Nat} {block : Block} (hBlock : source.blocks[j]? = some block) {reached : Draft}
    (hReached : Reached files source j reached) :
    ∃ next, Reached files source (j + 1) next ∧
      BlockStep (embedListing files source.chain source.base) reached block next := by
  obtain ⟨next, hNext, hStep⟩ :=
    Source.DraftAt.succ h hBlock hReached.at_block hReached.titleOk
  refine ⟨next, ⟨hNext, hStep.titleOk, hStep.framesOk hReached.framesOk, ?_⟩, hStep⟩
  rw [hStep.named, hReached.named, List.take_add_one, hBlock, Option.toList_some,
    List.any_append, List.any_cons, List.any_nil, Bool.or_false]

/-- Every prefix of the blocks is reached. -/
theorem exists_reached {draft : Draft} (h : Draft.addAll {} (source.parts files) = .ok draft)
    {j : Nat} (hj : j ≤ source.blocks.length) : ∃ reached, Reached files source j reached := by
  induction j with
  | zero => exact ⟨{}, Reached.zero⟩
  | succ j ih =>
      obtain ⟨reached, hReached⟩ := ih (Nat.le_of_succ_le hj)
      obtain ⟨next, hNext, -⟩ := hReached.succ h (List.getElem?_eq_getElem hj)
      exact ⟨next, hNext⟩

/-- Adding parts only adds lines. -/
theorem exists_placed_addAll {draft next : Draft} {parts : List Part} (hTitle : draft.TitleOk)
    (h : draft.addAll parts = .ok next) : ∃ lines, next.placed = draft.placed ++ lines := by
  induction parts generalizing draft with
  | nil =>
      simp only [Draft.addAll, Except.ok.injEq] at h
      exact ⟨[], by simp [h]⟩
  | cons part rest ih =>
      obtain ⟨middle, hAdd, hRest⟩ := addAll_cons_ok h
      have hStep := step_add hTitle hAdd
      obtain ⟨lines, hPlaced, -⟩ := hStep.placed
      obtain ⟨more, hMore⟩ := ih hStep.titleOk hRest
      exact ⟨lines ++ more, by rw [hMore, hPlaced, List.append_assoc]⟩

/-! ### The group of one heading -/

/-- What is known of the group of level `level` whose line has number `number`. -/
structure Tracked (number level : Nat) (draft : Draft) : Prop where
  number_lt : number < draft.placed.length
  level_eq : ∀ frame ∈ draft.frames, frame.number = number → frame.level = UInt8.ofNat level

/-- Whether the group is left open by a block is decided by the level of the block alone. -/
theorem mem_numbers_leaves {draft : Draft} {block : Block} {number level : Nat}
    (hLevel : level ≤ 6) (hBlock : block.LevelOk)
    (hFrames : FramesOk draft.placed.length draft.frames) (hGroup : Tracked number level draft) :
    number ∈ numbers (leaves draft.frames block) ↔
      number ∈ numbers draft.frames ∧ ¬ block.Closes level := by
  cases block with
  | heading own text =>
      by_cases hText : text.isEmpty
      · simp [leaves, Block.Closes, hText]
      · have hLess : UInt8.ofNat level < UInt8.ofNat own ↔ level < own := by
          rw [UInt8.lt_iff_toNat_lt, Markdown.toNat_ofNat_level hLevel,
            Markdown.toNat_ofNat_level hBlock.2]
        simp only [leaves, Block.Closes, hText, List.mem_map, Bool.false_eq_true, if_false,
          true_and, Nat.not_le, mem_below hFrames.sorted]
        constructor
        · rintro ⟨frame, ⟨hMem, hOwn⟩, rfl⟩
          rw [hGroup.level_eq frame hMem rfl, hLess] at hOwn
          exact ⟨⟨frame, hMem, rfl⟩, hOwn⟩
        · rintro ⟨⟨frame, hMem, rfl⟩, hOwn⟩
          refine ⟨frame, ⟨hMem, ?_⟩, rfl⟩
          rwa [hGroup.level_eq frame hMem rfl, hLess]
  | list items => simp [leaves, Block.Closes]
  | code text => simp [leaves, Block.Closes]
  | paragraph content => simp [leaves, Block.Closes]

theorem mem_leaves {frames : List Frame} {block : Block} {frame : Frame}
    (h : frame ∈ leaves frames block) : frame ∈ frames := by
  cases block with
  | heading level text =>
      simp only [leaves] at h
      split at h
      · exact h
      · exact (List.dropWhile_sublist _).mem h
  | list items => exact h
  | code text => exact h
  | paragraph content => exact h

theorem number_of_mem_opens {named : Bool} {number : Nat} {block : Block} {frame : Frame}
    (h : frame ∈ opens named number block) : frame.number = number := by
  cases block with
  | heading level text =>
      simp only [opens] at h
      split at h
      · simp at h
      · rw [List.mem_singleton.1 h]
  | list items => simp [opens] at h
  | code text => simp [opens] at h
  | paragraph content => simp [opens] at h

/-- A block behind the heading leaves the group tracked, and open unless it closes it. -/
theorem Tracked.step {embedded : Embed → List Entry} {draft next : Draft} {block : Block}
    {number level : Nat} (hLevel : level ≤ 6) (hBlock : block.LevelOk)
    (hFrames : FramesOk draft.placed.length draft.frames) (hGroup : Tracked number level draft)
    (hStep : BlockStep embedded draft block next) :
    Tracked number level next ∧
      (number ∈ numbers next.frames ↔ number ∈ numbers draft.frames ∧ ¬ block.Closes level) := by
  obtain ⟨lines, hPlaced, -⟩ := hStep.placed
  have hNew : ∀ frame ∈ opens draft.named draft.placed.length block, frame.number ≠ number := by
    intro frame hMem hEq
    have := hGroup.number_lt
    rw [number_of_mem_opens hMem] at hEq
    omega
  refine ⟨{ number_lt := ?_, level_eq := ?_ }, ?_⟩
  · have := hGroup.number_lt
    rw [hPlaced, List.length_append]
    omega
  · intro frame hMem hNumber
    rw [hStep.frames, List.mem_append] at hMem
    rcases hMem with hOpens | hLeaves
    · exact absurd hNumber (hNew frame hOpens)
    · exact hGroup.level_eq frame (mem_leaves hLeaves) hNumber
  · rw [← mem_numbers_leaves hLevel hBlock hFrames hGroup, hStep.frames, numbers,
      List.map_append, List.mem_append]
    constructor
    · rintro (hOpens | hLeaves)
      · obtain ⟨frame, hMem, hNumber⟩ := List.mem_map.1 hOpens
        exact absurd hNumber (hNew frame hMem)
      · exact hLeaves
    · exact Or.inr

/-- Behind its heading the group is tracked and open. -/
theorem Tracked.of_opensGroup {embedded : Embed → List Entry} {draft next : Draft}
    {i level : Nat} {name : String} (hOpens : source.OpensGroup i level name)
    (hReached : Reached files source i draft)
    (hStep : BlockStep embedded draft (.heading level name) next) :
    Tracked draft.placed.length level next ∧ draft.placed.length ∈ numbers next.frames ∧
      ∃ line, next.placed = draft.placed ++ [line] ∧
        line.2 = .group name (UInt8.ofNat level) := by
  have hNaming : (level = 1 && !draft.named) = false := by
    by_cases hOne : level = 1
    · obtain ⟨k, title, hk, hTitle, hText⟩ := hOpens.titled hOne
      have hMem : Block.heading 1 title ∈ source.blocks.take i := by
        rw [List.mem_take_iff_getElem]
        obtain ⟨hLength, hBlock⟩ := List.getElem?_eq_some_iff.1 hTitle
        exact ⟨k, by omega, hBlock⟩
      have hNamed : draft.named = true := by
        rw [hReached.named, List.any_eq_true]
        exact ⟨_, hMem, by simp [Block.isTitle, hText]⟩
      simp [hNamed]
    · simp [hOne]
  have hFrames := hStep.frames
  simp only [opens, leaves, hOpens.name_ne, hNaming, Bool.or_self, Bool.false_eq_true, if_false,
    List.singleton_append] at hFrames
  obtain ⟨lines, hPlaced, hLines, -⟩ := hStep.placed
  simp only [blockListing, hOpens.name_ne, hNaming, Bool.false_eq_true, if_false] at hLines
  obtain ⟨line, rfl, hLine⟩ : ∃ line, lines = [line] ∧
      line.2 = .group name (UInt8.ofNat level) := by
    cases lines with
    | nil => simp at hLines
    | cons line rest =>
        simp only [List.map_cons, List.cons.injEq, List.map_eq_nil_iff] at hLines
        exact ⟨line, by rw [hLines.2], hLines.1⟩
  refine ⟨{ number_lt := ?_, level_eq := ?_ }, ?_, line, hPlaced, hLine⟩
  · rw [hPlaced, List.length_append, List.length_singleton]
    omega
  · intro frame hMem hNumber
    rw [hFrames, List.mem_cons] at hMem
    rcases hMem with rfl | hOuter
    · rfl
    · have := (hReached.framesOk.below (UInt8.ofNat level)).number_lt frame hOuter
      omega
  · rw [hFrames]
    exact List.mem_cons_self

/-- Behind later blocks the group is open exactly if none of them has closed it. -/
theorem mem_numbers_frames {draft : Draft} (h : Draft.addAll {} (source.parts files) = .ok draft)
    {i level : Nat} {name : String} (hOpens : source.OpensGroup i level name) {m : Nat}
    (hm : i < m) (hLength : m ≤ source.blocks.length) :
    ∃ reached, Reached files source m reached ∧
      Tracked (source.lineOf files i) level reached ∧
      (source.lineOf files i ∈ numbers reached.frames ↔
        ∀ k block, i < k → k < m → source.blocks[k]? = some block → ¬ block.Closes level) := by
  have hLevel : level ≤ 6 := (levelOk_of_mem (List.mem_of_getElem? hOpens.heading)).2
  induction hm with
  | refl =>
      obtain ⟨before, hBefore⟩ := exists_reached h (Nat.le_of_succ_le hLength)
      obtain ⟨reached, hReached, hStep⟩ := hBefore.succ h hOpens.heading
      obtain ⟨hTracked, hMem, -⟩ := Tracked.of_opensGroup hOpens hBefore hStep
      rw [hBefore.at_block.length_placed] at hTracked hMem
      refine ⟨reached, hReached, hTracked, iff_of_true hMem ?_⟩
      intro k block hik hk
      omega
  | @step m hm ih =>
      obtain ⟨reached, hReached, hTracked, hIff⟩ := ih (Nat.le_of_succ_le hLength)
      have hBlock := List.getElem?_eq_getElem hLength
      obtain ⟨next, hNext, hStep⟩ := hReached.succ h hBlock
      have hOk := levelOk_of_mem (List.mem_of_getElem? hBlock)
      obtain ⟨hTrackedNext, hIffNext⟩ := hTracked.step hLevel hOk hReached.framesOk hStep
      refine ⟨next, hNext, hTrackedNext, ?_⟩
      rw [hIffNext, hIff, ← Markdown.forall_not_closes_iff hm hBlock]
      simp only [Nat.lt_succ_iff]

/-- A finished deck lists the blocks of its document. -/
theorem preorder_finish_eq {draft : Draft} (h : Draft.addAll {} (source.parts files) = .ok draft) :
    draft.finish.deck.preorder = source.linesOf files source.blocks := by
  rw [Draft.preorder_finish, preorder_addAll Draft.titleOk_empty h, parts, expand_eq, linesOf,
    ← listingAll_ofBlocks]
  · rfl
  · exact fun block hMem => levelOk_of_mem hMem

/-- The line of a heading that opens a group is that of the group. -/
theorem getElem?_lineOf {draft : Draft} (h : Draft.addAll {} (source.parts files) = .ok draft)
    {i level : Nat} {name : String} (hOpens : source.OpensGroup i level name) :
    draft.finish.deck.preorder[source.lineOf files i]? =
      some (.group name (UInt8.ofNat level)) := by
  have hLength : i < source.blocks.length :=
    (List.getElem?_eq_some_iff.1 hOpens.heading).1
  obtain ⟨before, hBefore⟩ := exists_reached h (Nat.le_of_lt hLength)
  obtain ⟨reached, hReached, hStep⟩ := hBefore.succ h hOpens.heading
  obtain ⟨-, -, line, hLine, hEntry⟩ := Tracked.of_opensGroup hOpens hBefore hStep
  obtain ⟨after, hAfter, hRest⟩ := exists_draftAt h (i + 1)
  obtain rfl : after = reached := by
    have hAt := hReached.at_block
    rw [DraftAt] at hAfter hAt
    simpa [hAfter] using hAt
  obtain ⟨more, hMore⟩ := exists_placed_addAll hReached.titleOk hRest
  rw [Draft.preorder_finish, hMore, hLine, List.map_append, List.map_append,
    ← hBefore.at_block.length_placed, ← List.length_map (f := Prod.snd), List.append_assoc,
    List.getElem?_append_right (Nat.le_refl _), Nat.sub_self]
  simp [hEntry]

/-- The lines of a later block are inside the group of a heading exactly if no heading of the
same document in between, or the block itself, closes the group. -/
theorem inside_iff {draft : Draft} (h : Draft.addAll {} (source.parts files) = .ok draft)
    {i j level number : Nat} {name : String} (hOpens : source.OpensGroup i level name)
    (hij : i < j) (hFirst : source.lineOf files j ≤ number)
    (hLast : number < source.lineOf files (j + 1)) :
    draft.finish.deck.Inside number (source.lineOf files i) ↔
      ∀ k block, i < k → k ≤ j → source.blocks[k]? = some block → ¬ block.Closes level := by
  have hLength : j < source.blocks.length := by
    rcases Nat.lt_or_ge j source.blocks.length with hLess | hShort
    · exact hLess
    · rw [lineOf, List.take_of_length_le hShort] at hFirst
      rw [lineOf, List.take_of_length_le (Nat.le_succ_of_le hShort)] at hLast
      omega
  have hBlock := List.getElem?_eq_getElem hLength
  have hOk := levelOk_of_mem (List.mem_of_getElem? hBlock)
  have hLevel : level ≤ 6 := (levelOk_of_mem (List.mem_of_getElem? hOpens.heading)).2
  obtain ⟨reached, hReached, hTracked, hIff⟩ :=
    mem_numbers_frames h hOpens hij (Nat.le_of_lt hLength)
  obtain ⟨next, hNext, hStep⟩ := hReached.succ h hBlock
  obtain ⟨lines, hPlaced, -, hAround⟩ := hStep.placed
  -- The line stands among those of the step, and later steps only append.
  obtain ⟨after, hAfter, hRest⟩ := exists_draftAt h (j + 1)
  obtain rfl : after = next := by
    have hAt := hNext.at_block
    rw [DraftAt] at hAfter hAt
    simpa [hAfter] using hAt
  obtain ⟨more, hMore⟩ := exists_placed_addAll hNext.titleOk hRest
  rw [← hReached.at_block.length_placed] at hFirst
  rw [← hNext.at_block.length_placed, hPlaced, List.length_append] at hLast
  have hIndex : number - reached.placed.length < lines.length := by omega
  have hLine : draft.finish.deck.placed[number]? =
      some lines[number - reached.placed.length] := by
    rw [Draft.placed_finish, hMore, hPlaced, List.append_assoc,
      List.getElem?_append_right hFirst, List.getElem?_append_left hIndex,
      List.getElem?_eq_getElem hIndex]
  obtain ⟨inner, hEq, hInner⟩ := hAround _ (List.getElem_mem hIndex)
  have hOuter : draft.finish.deck.Inside number (source.lineOf files i) ↔
      source.lineOf files i ∈ numbers (leaves reached.frames source.blocks[j]) := by
    simp only [Deck.Inside, hLine, Option.some.injEq, exists_eq_left', hEq, List.mem_append]
    constructor
    · rintro (hIn | hOuter)
      · have := hInner _ hIn
        have := hTracked.number_lt
        omega
      · exact hOuter
    · exact Or.inr
  rw [hOuter, mem_numbers_leaves hLevel hOk hReached.framesOk hTracked, hIff,
    ← Markdown.forall_not_closes_iff hij hBlock]

end Runs

/-! ## All documents of a reading -/

/-- How the headings of a document nest the lines of its deck. -/
structure Nested (files : Files) (source : Source) (doc : Document) : Prop where
  /-- The lines of the deck are those of the blocks, block after block. -/
  lines : doc.deck.preorder = source.linesOf files source.blocks
  /-- The line of a heading that opens a group is that of the group. -/
  group : ∀ {i level name}, source.OpensGroup i level name →
    doc.deck.preorder[source.lineOf files i]? = some (.group name (UInt8.ofNat level))
  /-- A line of a later block is inside the group exactly if no heading of this document,
  from behind the group's own up to the block, closes the group. -/
  inside : ∀ {i j level number name}, source.OpensGroup i level name → i < j →
    source.lineOf files j ≤ number → number < source.lineOf files (j + 1) →
    (doc.deck.Inside number (source.lineOf files i) ↔
      ∀ k block, i < k → k ≤ j → source.blocks[k]? = some block → ¬ block.Closes level)
  /-- What is wanted of an embedded document stands unchanged in this one's tree. -/
  embeds : ∀ {fragment inner}, source.Embeds files fragment inner →
    ∃ own nodes, ofParts (inner.parts files) = .ok own ∧ own.content? fragment = some nodes ∧
      Node.Stand nodes doc.deck.children

/-- The samples that are attached in the end move no line into or out of a group. -/
theorem placed_attached (doc : Document) : doc.attached.deck.placed = doc.deck.placed := by
  simp only [attached, Deck.placed, Node.placedAll_attachAll]

/-- In a successful reading the headings of every document, the embedded ones included, nest
the lines of its own blocks and nothing else. -/
theorem nested_of_reads {files : Files} {top source : Source} {result : ReadDeck}
    (hReads : Reads files top result) (h : Reaches files top source) :
    ∃ doc, ofParts (source.parts files) = .ok doc ∧ Nested files source doc ∧
      (source = top → result = doc.attached ∧ result.deck.placed = doc.deck.placed) := by
  obtain ⟨doc, hDoc⟩ := h.exists_doc hReads
  obtain ⟨draft, hAdd, rfl⟩ := ofParts_eq_ok hDoc
  refine ⟨draft.finish, hDoc, ?_, ?_⟩
  · exact
      { lines := preorder_finish_eq hAdd
        group := getElem?_lineOf hAdd
        inside := inside_iff hAdd
        embeds := by
          rintro fragment inner ⟨path, hMem, -⟩
          exact stand_of_mem_parts hAdd hMem }
  · rintro rfl
    obtain ⟨own, hOwn, hResult⟩ := hReads.exists_doc
    rw [hDoc, Except.ok.injEq] at hOwn
    subst hOwn
    rw [hResult]
    exact ⟨rfl, placed_attached _⟩

/-- A file with a title and a heading of its own. -/
def jumpFiles : Files :=
  [(.ofString "b.md", "# B\n\n### T\n- w")]

/-- A text that jumps from level 2 to level 4, embeds the file there, and has a late title. -/
def jump : Source :=
  ⟨[], {}, "## R\n\n#### D\n\n![](b.md)\n\n# L\n\nz"⟩

theorem blocks_jump : jump.blocks =
    [.heading 2 "R", .heading 4 "D", .paragraph [.image "" "b.md"], .heading 1 "L",
      .paragraph [.text "z"]] := by
  decide +kernel

/-- The embedded leaf is inside the group of level 2, in spite of the heading of level 1 and the
jump in between; the paragraph behind the late title is not. -/
theorem nested_of_reads_jump : ∃ result doc, Reads jumpFiles jump result ∧
    Reaches jumpFiles jump jump ∧ ofParts (jump.parts jumpFiles) = .ok doc ∧
    doc.deck.preorder =
      [.group "R" 2, .group "D" 4, .lead "# B", .group "T" 3, .leaf "w", .lead "# L", .lead "z"] ∧
    doc.deck.Inside 4 0 ∧ ¬ doc.deck.Inside 6 0 := by
  have hOk : (read jumpFiles {} jump.text).toBool = true := by decide +kernel
  cases hRead : read jumpFiles {} jump.text with
  | error error => simp [hRead, Except.toBool] at hOk
  | ok result =>
      have hReads : Reads jumpFiles jump result := .text hRead
      obtain ⟨doc, hDoc, hNested, -⟩ := nested_of_reads hReads .top
      have hOpens : jump.OpensGroup 0 2 "R" :=
        ⟨by rw [blocks_jump]; rfl, by decide +kernel, by simp⟩
      have hNumber : jump.lineOf jumpFiles 0 = 0 := rfl
      refine ⟨result, doc, hReads, .top, hDoc, hNested.lines.trans (by decide +kernel), ?_, ?_⟩
      · have hIff := @hNested.inside 0 2 2 4 "R" hOpens (by decide) (by decide +kernel)
          (by decide +kernel)
        rw [hNumber] at hIff
        apply hIff.2
        intro k block hk hk' hAt
        rw [blocks_jump] at hAt
        obtain rfl | rfl : k = 1 ∨ k = 2 := by omega
        · obtain rfl : Block.heading 4 "D" = block := by simpa using hAt
          simp [Block.Closes]
        · obtain rfl : Block.paragraph [.image "" "b.md"] = block := by simpa using hAt
          simp [Block.Closes]
      · have hIff := @hNested.inside 0 4 2 6 "R" hOpens (by decide) (by decide +kernel)
          (by decide +kernel)
        rw [hNumber] at hIff
        intro hInside
        refine hIff.1 hInside 3 (.heading 1 "L") (by decide) (by decide) ?_ ?_
        · rw [blocks_jump]
          rfl
        · exact ⟨by decide +kernel, by decide⟩

end Document

end Deckwright
