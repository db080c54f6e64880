import Deckwright.Proofs.Listing
import Deckwright.Proofs.Steps

/-!
# What an expansion lists

`Document.expand` makes a tree of parts of a text: its pieces, with the expansion of an embedded
document in the place of its embed. Listing these parts in their order gives `Document.listing`,
the listing that is defined by the blocks of the text (`listing_eq`). So whatever is shown of the
parts of a document is shown of its blocks.

Three facts about the reading of text go into this.

* `levelOk_of_mem_blocks`: headings have a level from 1 to 6, which is why their level as a
  byte is their level.
* `ofInlines_eq`: the pieces of inline content are the blank-free runs between its embeds, and
  these embeds, in the order of the text.
* `expand_eq`: an expansion is made piece by piece.
-/

namespace Deckwright

/-! ## Headings -/

namespace Markdown

/-- The levels that headings have. -/
def Block.LevelOk : Block → Prop
  | .heading level _ => 1 ≤ level ∧ level ≤ 6
  | _ => True

theorem levelOk_of_heading? {line : Line} {level : Nat} {text : String}
    (h : heading? line = some (level, text)) : 1 ≤ level ∧ level ≤ 6 := by
  simp only [heading?] at h
  split at h
  · cases h
  · rename_i hMarks
    simp only [Bool.or_eq_true, decide_eq_true_eq, not_or] at hMarks
    obtain ⟨⟨-, hSome⟩, hSix⟩ := hMarks
    split at h
    · simp only [Option.some.injEq, Prod.mk.injEq] at h
      obtain ⟨rfl, -⟩ := h
      refine ⟨?_, Nat.le_of_not_lt hSix⟩
      rw [List.isEmpty_iff] at hSome
      exact List.length_pos_iff.2 hSome
    · cases h

theorem levelOk_of_mem_close {opened : Open} {block : Block} (h : block ∈ opened.close) :
    block.LevelOk := by
  cases opened with
  | nothing => simp [Open.close] at h
  | code fence lines => simp only [Open.close, List.mem_singleton] at h; subst h; trivial
  | list items =>
      simp only [Open.close] at h
      split at h
      · simp at h
      · simp only [List.mem_singleton] at h; subst h; trivial
  | paragraph lines => simp only [Open.close, List.mem_singleton] at h; subst h; trivial

theorem levelOk_of_mem_start {line : Line} {block : Block} (h : block ∈ (start line).1) :
    block.LevelOk := by
  unfold start at h
  split at h
  · simp at h
  · split at h
    · rename_i hHeading
      simp only [List.mem_singleton] at h
      subst h
      exact levelOk_of_heading? hHeading
    · split at h <;> simp at h

/-- A line completes blocks that were open or that it makes itself. -/
theorem mem_step {opened : Open} {line : Line} {rest : List Line} {block : Block}
    (h : block ∈ (opened.step line rest).1) :
    (∃ last : Open, block ∈ last.close) ∨ block ∈ (start line).1 := by
  cases hFence : opened.fence with
  | some fence =>
      cases opened with
      | code own lines =>
          simp only [Open.step] at h
          split at h
          · exact .inl ⟨.code own (Text.trimRight line :: lines), h⟩
          · cases h
      | _ => cases hFence
  | none =>
      rcases Open.step_cases hFence line rest with ⟨next, hStep, -, -⟩ | ⟨-, hStep⟩ | ⟨-, hStep⟩
      · rw [hStep] at h
        cases h
      · rw [hStep] at h
        exact .inl ⟨opened, h⟩
      · rw [hStep] at h
        exact (List.mem_append.1 h).imp (fun hClose => ⟨opened, hClose⟩) id

theorem levelOk_of_mem_step {opened : Open} {line : Line} {rest : List Line} {block : Block}
    (h : block ∈ (opened.step line rest).1) : block.LevelOk := by
  rcases mem_step h with ⟨last, hClose⟩ | hStart
  · exact levelOk_of_mem_close hClose
  · exact levelOk_of_mem_start hStart

theorem levelOk_of_mem_blocksFrom {opened : Open} {lines : List Line} {block : Block}
    (h : block ∈ blocksFrom opened lines) : block.LevelOk := by
  induction lines generalizing opened with
  | nil => exact levelOk_of_mem_close h
  | cons line rest ih =>
      simp only [blocksFrom, List.mem_append] at h
      exact h.elim levelOk_of_mem_step ih

/-- The headings of a document have levels from 1 to 6. -/
theorem levelOk_of_mem_blocks {text : String} {block : Block} (h : block ∈ blocks text) :
    block.LevelOk :=
  levelOk_of_mem_blocksFrom h

/-- The level of a heading as a byte is its level. -/
theorem toNat_ofNat_level {level : Nat} (h : level ≤ 6) : (UInt8.ofNat level).toNat = level := by
  rw [UInt8.toNat_ofNat']
  omega

end Markdown

/-! ## Pieces of inline content -/

namespace Document

open Markdown (Inline Block cutAtEmbeds)

/-- Content in front of an embed is cut off with the text that goes on before it. -/
theorem Piece.ofInlines_eq (make : String → Piece) (run : String) (content : List Inline) :
    Piece.ofInlines make run content =
      Piece.ofRun make (run ++ (cutAtEmbeds content).1) ++
        (cutAtEmbeds content).2.flatMap fun cut => Piece.embed cut.1 :: Piece.ofRun make cut.2 := by
  induction content generalizing run with
  | nil => simp [Piece.ofInlines, cutAtEmbeds]
  | cons inline rest ih =>
      cases inline with
      | text more =>
          simp only [Piece.ofInlines, cutAtEmbeds, Inline.embed?, Inline.written]
          rw [ih, String.append_assoc]
      | image alt target =>
          simp only [Piece.ofInlines, cutAtEmbeds, Inline.embed?, Inline.written]
          cases Embed.ofTarget? target with
          | none =>
              simp only [ih, String.append_assoc]
          | some embed =>
              simp only [ih, String.empty_append, String.append_empty, List.flatMap_cons,
                List.cons_append]

/-! ## Expansions piece by piece -/

/-- The part that an embed makes. -/
def Part.ofEmbed (files : Files) (chain : List Path) (base : Path) (embed : Embed) : Part :=
  let path := (base.join embed.file).normalize
  match embed.kind with
  | .toml => .ofDefinitions files path embed.fragment
  | .markdown =>
    if path ∈ chain then .failed (.cycle path)
    else
      match files.find? path with
      | none => .failed (.unreadable path)
      | some text =>
        .document path embed.fragment (expand files (path :: chain) path.parent text)

/-- The part that a piece makes. -/
def Part.ofPiece (files : Files) (chain : List Path) (base : Path) : Piece → Part
  | .heading level text => .heading level text
  | .leaf text => .leaf text
  | .lead text => .lead text
  | .embed embed => .ofEmbed files chain base embed

/-- The parts that a block makes. -/
def Part.ofBlock (files : Files) (chain : List Path) (base : Path) (block : Block) : List Part :=
  (Piece.ofBlock block).map (Part.ofPiece files chain base)

theorem expand_eq_map (files : Files) (chain : List Path) (base : Path) (text : String) :
    expand files chain base text = (Piece.ofText text).map (Part.ofPiece files chain base) := by
  rw [expand]
  apply List.map_congr_left
  intro piece _
  cases piece with
  | heading level text => rfl
  | leaf text => rfl
  | lead text => rfl
  | embed embed =>
      obtain ⟨kind, file, fragment⟩ := embed
      simp only [Part.ofPiece, Part.ofEmbed]
      cases kind with
      | toml => rfl
      | markdown =>
          dsimp only
          split
          · rfl
          · split <;> simp_all

/-- An expansion is made block by block. -/
theorem expand_eq (files : Files) (chain : List Path) (base : Path) (text : String) :
    expand files chain base text =
      (Markdown.blocks text).flatMap (Part.ofBlock files chain base) := by
  rw [expand_eq_map, Piece.ofText, List.map_flatMap]
  rfl

/-! ## The listing of parts -/

/-- Whether a part is a heading. -/
def Part.isHeading : Part → Bool
  | .heading _ _ => true
  | _ => false

/-- Whether a part is a heading of level 1. -/
def Part.isTitle : Part → Bool
  | .heading level _ => level = 1
  | _ => false

theorem Part.isTitle_eq_false {part : Part} (h : part.isHeading = false) :
    part.isTitle = false := by
  cases part with
  | heading level text => cases h
  | _ => rfl

mutual

/-- What is listed for a part; `named` tells whether a heading of level 1 came before. -/
def Part.listing (named : Bool) : Part → List Entry
  | .heading level text =>
    if level = 1 && !named then [.title text] else [.group text level]
  | .leaf text => [.leaf text]
  | .lead text => [.lead text]
  | .definitions _ => []
  | .document _ none parts => Part.listingAll false parts
  | .document _ (some fragment) parts => selectionListing parts fragment
  | .failed _ => []

/-- What is listed for parts in their order. -/
def Part.listingAll (named : Bool) : List Part → List Entry
  | [] => []
  | part :: rest => part.listing named ++ Part.listingAll (named || part.isTitle) rest

end

/-! ## Blocks and their parts -/

section Blocks

variable (files : Files) (chain : List Path) (base : Path)

/-- What is listed for an embed, taken from its part. -/
def embedListing (embed : Embed) : List Entry :=
  (Part.ofEmbed files chain base embed).listing false

theorem isHeading_ofEmbed (embed : Embed) :
    (Part.ofEmbed files chain base embed).isHeading = false := by
  simp only [Part.ofEmbed]
  split
  · simp only [Part.ofDefinitions]
    split
    · rfl
    · split <;> rfl
  · split
    · rfl
    · split <;> rfl

theorem listing_ofEmbed (named : Bool) (embed : Embed) :
    (Part.ofEmbed files chain base embed).listing named = embedListing files chain base embed := by
  have hHeading := isHeading_ofEmbed files chain base embed
  unfold embedListing
  cases hPart : Part.ofEmbed files chain base embed with
  | heading level text =>
      rw [hPart] at hHeading
      cases hHeading
  | document path fragment parts => cases fragment <;> rfl
  | leaf text => rfl
  | lead text => rfl
  | definitions declared => rfl
  | failed error => rfl

/-- A piece of text is listed by its line, and it is no heading. -/
structure MakesLine (makePiece : String → Piece) (make : String → Entry) : Prop where
  listing (named : Bool) (text : String) :
    (Part.ofPiece files chain base (makePiece text)).listing named = [make text]
  isHeading (text : String) :
    (Part.ofPiece files chain base (makePiece text)).isHeading = false

theorem makesLine_leaf : MakesLine files chain base .leaf .leaf :=
  ⟨fun _ _ => rfl, fun _ => rfl⟩

theorem makesLine_lead : MakesLine files chain base .lead .lead :=
  ⟨fun _ _ => rfl, fun _ => rfl⟩

variable {files chain base}
variable {makePiece : String → Piece} {make : String → Entry}

theorem listingAll_ofRun (hMake : MakesLine files chain base makePiece make) (named : Bool)
    (run : String) (more : List Part) :
    Part.listingAll named
        ((Piece.ofRun makePiece run).map (Part.ofPiece files chain base) ++ more) =
      runListing make run ++ Part.listingAll named more := by
  unfold Piece.ofRun runListing
  by_cases hBlank : blank run
  · simp [hBlank]
  · simp [hBlank, Part.listingAll, hMake.listing, Part.isTitle_eq_false (hMake.isHeading _)]

/-- The parts of inline content are listed as the content is. -/
theorem listingAll_ofInlines (hMake : MakesLine files chain base makePiece make) (named : Bool)
    (content : List Inline) (more : List Part) :
    Part.listingAll named
        ((Piece.ofInlines makePiece "" content).map (Part.ofPiece files chain base) ++ more) =
      contentListing make (embedListing files chain base) content ++
        Part.listingAll named more := by
  have hCuts : ∀ cuts : List (Embed × String),
      Part.listingAll named
          ((cuts.flatMap fun cut => Piece.embed cut.1 :: Piece.ofRun makePiece cut.2).map
            (Part.ofPiece files chain base) ++ more) =
        (cuts.flatMap fun cut => embedListing files chain base cut.1 ++ runListing make cut.2) ++
          Part.listingAll named more := by
    intro cuts
    induction cuts with
    | nil => rfl
    | cons cut cuts ih =>
        simp only [List.flatMap_cons, List.cons_append, List.map_cons, List.map_append,
          List.append_assoc, Part.listingAll, Part.ofPiece, listing_ofEmbed,
          Part.isTitle_eq_false (isHeading_ofEmbed files chain base _), Bool.or_false]
        rw [listingAll_ofRun hMake, ih]
  rw [Piece.ofInlines_eq, String.empty_append, List.map_append, List.append_assoc,
    listingAll_ofRun hMake, hCuts]
  simp only [contentListing, List.append_assoc]

theorem listingAll_items (named : Bool) (items : List String) (more : List Part) :
    Part.listingAll named
        ((items.flatMap fun item => Piece.ofInlines .leaf "" (Markdown.inlines item)).map
          (Part.ofPiece files chain base) ++ more) =
      (items.flatMap fun item =>
        contentListing .leaf (embedListing files chain base) (Markdown.inlines item)) ++
        Part.listingAll named more := by
  induction items with
  | nil => rfl
  | cons item items ih =>
      simp only [List.flatMap_cons, List.map_append, List.append_assoc]
      rw [listingAll_ofInlines (makesLine_leaf files chain base), ih]

/-- The parts of a block are listed as the block is, and behind them a deck has its name if it
had one or if the block gives it one. -/
theorem listingAll_ofBlock {block : Block} (hLevel : block.LevelOk) (named : Bool)
    (more : List Part) :
    Part.listingAll named (Part.ofBlock files chain base block ++ more) =
      blockListing (embedListing files chain base) named block ++
        Part.listingAll (named || block.isTitle) more := by
  unfold Part.ofBlock
  cases block with
  | heading level text =>
      have hOne : UInt8.ofNat level = 1 ↔ level = 1 := by
        rw [← UInt8.toNat_inj, Markdown.toNat_ofNat_level hLevel.2]
        rfl
      by_cases hText : text.isEmpty
      · simp [Piece.ofBlock, blockListing, Block.isTitle, hText]
      · simp [Piece.ofBlock, blockListing, Block.isTitle, hText, Part.ofPiece, Part.listingAll,
          Part.listing, Part.isTitle, hOne]
  | list items =>
      simp only [Piece.ofBlock, blockListing, Block.isTitle, Bool.or_false]
      exact listingAll_items named items more
  | code text =>
      simp [Piece.ofBlock, blockListing, Block.isTitle, Part.ofPiece, Part.listingAll,
        Part.listing, Part.isTitle]
  | paragraph content =>
      simp only [Piece.ofBlock, blockListing, Block.isTitle, Bool.or_false]
      exact listingAll_ofInlines (makesLine_lead files chain base) named content more

theorem listingAll_ofBlocks {blocks : List Block} (hLevels : ∀ block ∈ blocks, block.LevelOk)
    (named : Bool) :
    Part.listingAll named (blocks.flatMap (Part.ofBlock files chain base)) =
      blocksListing (embedListing files chain base) named blocks := by
  induction blocks generalizing named with
  | nil => rfl
  | cons block rest ih =>
      rw [List.flatMap_cons, listingAll_ofBlock (hLevels block List.mem_cons_self),
        ih fun other hMem => hLevels other (List.mem_cons_of_mem block hMem)]
      rfl

/-- Only a heading makes a heading. -/
theorem isHeading_ofBlock {block : Block} (hBlock : ∀ level text, block ≠ .heading level text) :
    ∀ part ∈ Part.ofBlock files chain base block, part.isHeading = false := by
  have hRun : ∀ {make : String → Piece} {run : String},
      (∀ text, (Part.ofPiece files chain base (make text)).isHeading = false) →
      ∀ piece ∈ Piece.ofRun make run, (Part.ofPiece files chain base piece).isHeading = false := by
    intro make run hMake piece hMem
    unfold Piece.ofRun at hMem
    split at hMem
    · simp at hMem
    · rw [List.mem_singleton] at hMem
      subst hMem
      exact hMake _
  have hContent : ∀ {make : String → Piece} {content : List Markdown.Inline},
      (∀ text, (Part.ofPiece files chain base (make text)).isHeading = false) →
      ∀ piece ∈ Piece.ofInlines make "" content,
        (Part.ofPiece files chain base piece).isHeading = false := by
    intro make content hMake piece hMem
    rw [Piece.ofInlines_eq] at hMem
    rcases List.mem_append.1 hMem with hFirst | hCut
    · exact hRun hMake piece hFirst
    · obtain ⟨cut, -, hIn⟩ := List.mem_flatMap.1 hCut
      rcases List.mem_cons.1 hIn with rfl | hMore
      · exact isHeading_ofEmbed files chain base cut.1
      · exact hRun hMake piece hMore
  intro part hPart
  obtain ⟨piece, hPiece, rfl⟩ := List.mem_map.1 hPart
  cases block with
  | heading level text => exact absurd rfl (hBlock level text)
  | list items =>
      obtain ⟨item, -, hIn⟩ := List.mem_flatMap.1 hPiece
      exact hContent (fun _ => rfl) piece hIn
  | code text =>
      rw [Piece.ofBlock, List.mem_singleton] at hPiece
      subst hPiece
      rfl
  | paragraph content => exact hContent (fun _ => rfl) piece hPiece

end Blocks

/-- The listing of a document, with what is listed for its embeds taken from their parts. -/
theorem listing_eq_blocksListing (files : Files) (chain : List Path) (base : Path)
    (text : String) :
    listing files chain base text =
      blocksListing (embedListing files chain base) false (Markdown.blocks text) := by
  induction hUnvisited : files.unvisited chain using Nat.strongRecOn
    generalizing chain base text with
  | ind unvisited ih =>
      rw [listing]
      congr 1
      funext embed
      simp only [embedListing, Part.ofEmbed]
      cases embed.kind with
      | toml =>
          simp only [Part.ofDefinitions]
          split
          · rfl
          · split <;> rfl
      | markdown =>
          dsimp only
          split
          · rfl
          · rename_i hNew
            split
            · simp_all [Part.listing]
            · rename_i inner hFile
              have hLess := Files.unvisited_lt hNew hFile
              rw [hUnvisited] at hLess
              cases embed.fragment with
              | none =>
                  simp only [hFile, Part.listing]
                  rw [ih _ hLess _ _ _ rfl, expand_eq, listingAll_ofBlocks]
                  exact fun block hMem => Markdown.levelOk_of_mem_blocks hMem
              | some fragment => simp only [hFile, Part.listing]

/-- The parts of an expansion are listed as the document is. -/
theorem listing_eq (files : Files) (chain : List Path) (base : Path) (text : String) :
    listing files chain base text = Part.listingAll false (expand files chain base text) := by
  rw [listing_eq_blocksListing, expand_eq, listingAll_ofBlocks]
  exact fun block hMem => Markdown.levelOk_of_mem_blocks hMem

end Document

end Deckwright
