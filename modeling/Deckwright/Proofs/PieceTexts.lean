import Deckwright.Proofs.ContextOrder
import Deckwright.Proofs.ReadingBack

/-!
# The texts of the pieces of a document

Reading takes white space off the texts that become names and leaves, and drops what is blank. So
a heading that is a piece of a document has a trimmed name and a level from 1 to 6, a leaf a trimmed
value, and no lead is blank (`textOk_of_mem_ofText`). Fenced code is the one text that is kept with
its white space; it is not blank because its first line is the fence that opened it, and that is
what has to be known of the block that is open at a line (`Open.TextOk`).

The parts of an expansion are such pieces too, at whatever depth (`Source.textOk_of_in`).
-/

namespace Deckwright

namespace Markdown

/-! ## Blocks -/

/-- The text of a heading is trimmed, and fenced code is not blank. -/
def Block.TextOk : Block → Prop
  | .heading _ text => trimmed text = text
  | .code text => blank text = false
  | _ => True

/-- The first line of fenced code is not blank; lines are kept with the latest first. -/
def Open.TextOk : Open → Prop
  | .code _ lines => ∃ first later, lines = later ++ [first] ∧ Text.isBlank first = false
  | _ => True

theorem textOk_of_fence {opened : Open} (h : opened.fence = none) : opened.TextOk := by
  cases opened with
  | code fence lines => cases h
  | _ => trivial

theorem trimmed_of_heading? {line : Line} {level : Nat} {text : String}
    (h : heading? line = some (level, text)) : trimmed text = text := by
  simp only [heading?] at h
  split at h
  · cases h
  · split at h
    · simp only [Option.some.injEq, Prod.mk.injEq] at h
      obtain ⟨-, rfl⟩ := h
      rw [trimmed, String.toList_ofList, Text.trim_trimRight_of_starts]
      exact List.rdropWhile_prefix _ _
    · cases h

theorem textOk_of_mem_close {opened : Open} (hOpened : opened.TextOk) {block : Block}
    (h : block ∈ opened.close) : block.TextOk := by
  cases opened with
  | nothing => cases h
  | code fence lines =>
      obtain ⟨first, later, rfl, hFirst⟩ := hOpened
      rw [Open.close, List.mem_singleton] at h
      subst h
      show blank _ = false
      rw [blank, String.toList_ofList, joinLines, List.reverse_append, List.reverse_singleton,
        List.singleton_append, intercalate_eq_flatMap, Text.isBlank, List.all_append]
      rw [Text.isBlank] at hFirst
      rw [hFirst, Bool.false_and]
  | list items =>
      simp only [Open.close] at h
      split at h
      · cases h
      · rw [List.mem_singleton.1 h]
        trivial
  | paragraph lines =>
      rw [Open.close, List.mem_singleton] at h
      subst h
      trivial

theorem textOk_start (line : Line) :
    (start line).2.TextOk ∧ ∀ block ∈ (start line).1, block.TextOk := by
  unfold start
  split
  · rename_i fence hFence
    have hLine : Text.isBlank (Text.trimRight line) = false := by
      rw [Text.isBlank_trimRight]
      exact isBlank_of_fence? hFence
    exact ⟨⟨_, [], rfl, hLine⟩, by simp⟩
  · split
    · rename_i hHeading
      refine ⟨trivial, fun block hMem => ?_⟩
      rw [List.mem_singleton.1 hMem]
      exact trimmed_of_heading? hHeading
    · split
      · exact ⟨trivial, by simp⟩
      · exact ⟨trivial, by simp⟩

theorem textOk_restart {opened : Open} (hOpened : opened.TextOk) (line : Line) :
    (opened.restart line).2.TextOk ∧ ∀ block ∈ (opened.restart line).1, block.TextOk := by
  obtain ⟨hNext, hBlocks⟩ := textOk_start line
  refine ⟨hNext, fun block hMem => ?_⟩
  rcases List.mem_append.1 hMem with hClose | hStart
  · exact textOk_of_mem_close hOpened hClose
  · exact hBlocks block hStart

/-- Code that is open goes on with its first line, and no other block has to remember a line. -/
theorem textOk_step {opened : Open} (hOpened : opened.TextOk) (line : Line) (rest : List Line) :
    (opened.step line rest).2.TextOk ∧ ∀ block ∈ (opened.step line rest).1, block.TextOk := by
  have hNone : ∀ block ∈ ([] : List Block), block.TextOk := by simp
  have hClose : ∀ {last : Open}, last.TextOk →
      Open.nothing.TextOk ∧ ∀ block ∈ last.close, block.TextOk :=
    fun hLast => ⟨trivial, fun _ hMem => textOk_of_mem_close hLast hMem⟩
  cases hFence : opened.fence with
  | some fence =>
      cases opened with
      | code own lines =>
          obtain ⟨first, later, rfl, hFirst⟩ := hOpened
          have hLonger : (Open.code own (Text.trimRight line :: (later ++ [first]))).TextOk :=
            ⟨first, Text.trimRight line :: later, rfl, hFirst⟩
          simp only [Open.step]
          split
          · exact hClose hLonger
          · exact ⟨hLonger, hNone⟩
      | _ => cases hFence
  | none =>
      rcases Open.step_cases hFence line rest with ⟨next, hStep, hNext, -⟩ | ⟨-, hStep⟩ | ⟨-, hStep⟩
      · rw [hStep]
        exact ⟨textOk_of_fence hNext, hNone⟩
      · rw [hStep]
        exact hClose hOpened
      · rw [hStep]
        exact textOk_restart hOpened line

theorem textOk_of_mem_blocksFrom {opened : Open} (hOpened : opened.TextOk) {lines : List Line}
    {block : Block} (h : block ∈ blocksFrom opened lines) : block.TextOk := by
  induction lines generalizing opened with
  | nil => exact textOk_of_mem_close hOpened h
  | cons line rest ih =>
      obtain ⟨hNext, hBlocks⟩ := textOk_step hOpened line rest
      rcases List.mem_append.1 h with hHere | hLater
      · exact hBlocks block hHere
      · exact ih hNext hLater

/-- The headings of a document are trimmed, and its fenced code is not blank. -/
theorem textOk_of_mem_blocks {text : String} {block : Block} (h : block ∈ blocks text) :
    block.TextOk := by
  have hOpened : Open.nothing.TextOk := trivial
  exact textOk_of_mem_blocksFrom hOpened h

end Markdown

namespace Document

open Markdown (Inline Block)

/-! ## Pieces -/

/-- A text without white space at its ends that is not empty. -/
structure Tidy (text : String) : Prop where
  trimmed : trimmed text = text
  notEmpty : text ≠ ""

/-- The levels of headings. -/
structure LevelInRange (level : UInt8) : Prop where
  least : 1 ≤ level.toNat
  greatest : level.toNat ≤ 6

theorem trimmed_eq_empty_iff {text : String} : trimmed text = "" ↔ blank text := by
  rw [trimmed, blank, ← Text.trim_eq_nil_iff, ← String.toList_inj, String.toList_ofList]
  rfl

/-- A text that is not blank is tidy once it is trimmed. -/
theorem tidy_trimmed {text : String} (h : blank text = false) : Tidy (trimmed text) where
  trimmed := by
    rw [Deckwright.trimmed, Deckwright.trimmed, String.toList_ofList, Text.trim_trim]
  notEmpty hEmpty := by
    rw [trimmed_eq_empty_iff, h] at hEmpty
    cases hEmpty

theorem Tidy.blank {text : String} (h : Tidy text) : blank text = false := by
  by_contra hBlank
  rw [Bool.not_eq_false, ← trimmed_eq_empty_iff, h.trimmed] at hBlank
  exact h.notEmpty hBlank

/-- What a piece of a document says is tidy; a lead may be fenced code with white space around it. -/
def Piece.TextOk : Piece → Prop
  | .heading level text => LevelInRange level ∧ Tidy text
  | .leaf text => Tidy text
  | .lead text => blank text = false
  | .embed _ => True

theorem textOk_of_mem_ofRun {make : String → Piece} (hMake : ∀ text, Tidy text → (make text).TextOk)
    {run : String} {piece : Piece} (h : piece ∈ Piece.ofRun make run) : piece.TextOk := by
  unfold Piece.ofRun at h
  split at h
  · cases h
  · rename_i hSome
    rw [List.mem_singleton.1 h]
    exact hMake _ (tidy_trimmed (by simpa using hSome))

theorem textOk_of_mem_ofInlines {make : String → Piece}
    (hMake : ∀ text, Tidy text → (make text).TextOk) {run : String} {content : List Inline}
    {piece : Piece} (h : piece ∈ Piece.ofInlines make run content) : piece.TextOk := by
  rw [Piece.ofInlines_eq, List.mem_append, List.mem_flatMap] at h
  rcases h with hFirst | ⟨cut, -, hCut⟩
  · exact textOk_of_mem_ofRun hMake hFirst
  · rcases List.mem_cons.1 hCut with rfl | hRun
    · trivial
    · exact textOk_of_mem_ofRun hMake hRun

theorem textOk_of_mem_ofBlock {block : Block} (hLevel : block.LevelOk) (hText : block.TextOk)
    {piece : Piece} (h : piece ∈ Piece.ofBlock block) : piece.TextOk := by
  cases block with
  | heading level text =>
      rw [Piece.ofBlock] at h
      split at h
      · cases h
      · rename_i hSome
        have hByte := Markdown.toNat_ofNat_level hLevel.2
        rw [List.mem_singleton.1 h]
        exact ⟨⟨by rw [hByte]; exact hLevel.1, by rw [hByte]; exact hLevel.2⟩, hText,
          by simpa using hSome⟩
  | list items =>
      obtain ⟨item, -, hItem⟩ := List.mem_flatMap.1 h
      have hLeaf : ∀ text, Tidy text → (Piece.leaf text).TextOk := fun _ hTidy => hTidy
      exact textOk_of_mem_ofInlines hLeaf hItem
  | code text =>
      rw [Piece.ofBlock, List.mem_singleton] at h
      exact h ▸ hText
  | paragraph content =>
      have hLead : ∀ text, Tidy text → (Piece.lead text).TextOk := fun _ hTidy => hTidy.blank
      exact textOk_of_mem_ofInlines hLead h

theorem textOk_of_mem_ofText {text : String} {piece : Piece} (h : piece ∈ Piece.ofText text) :
    piece.TextOk := by
  obtain ⟨block, hBlock, hPiece⟩ := List.mem_flatMap.1 h
  exact textOk_of_mem_ofBlock (Markdown.levelOk_of_mem_blocks hBlock)
    (Markdown.textOk_of_mem_blocks hBlock) hPiece

/-! ## Parts -/

/-- What a part says by itself is tidy, like what a piece says. -/
def Part.TextOk : Part → Prop
  | .heading level text => LevelInRange level ∧ Tidy text
  | .leaf text => Tidy text
  | .lead text => blank text = false
  | _ => True

theorem Part.textOk_ofEmbed (files : Files) (chain : List Path) (base : Path) (embed : Embed) :
    (Part.ofEmbed files chain base embed).TextOk := by
  simp only [Part.ofEmbed]
  split
  · simp only [Part.ofDefinitions]
    split
    · trivial
    · split <;> trivial
  · split
    · trivial
    · split <;> trivial

/-- The parts of a document are tidy. -/
theorem Source.textOk_of_mem {files : Files} {source : Source} {part : Part}
    (h : part ∈ source.parts files) : part.TextOk := by
  rw [parts, expand_eq_map] at h
  obtain ⟨piece, hMem, rfl⟩ := List.mem_map.1 h
  have hPiece := textOk_of_mem_ofText hMem
  cases piece with
  | heading level text => exact hPiece
  | leaf text => exact hPiece
  | lead text => exact hPiece
  | embed embed => exact Part.textOk_ofEmbed files _ _ embed

/-- All parts of an expansion are tidy, those of embedded documents included. -/
theorem Source.textOk_of_in {files : Files} {source : Source} {part : Part}
    (h : part.In (source.parts files)) : part.TextOk := by
  obtain ⟨inner, -, hMem⟩ := Reaches.top.of_in h
  exact inner.textOk_of_mem hMem

end Document

end Deckwright
