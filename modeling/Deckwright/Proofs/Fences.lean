import Deckwright.Proofs.Boundaries
import Deckwright.Proofs.EmbedGraph

/-!
# Embeds outside of fenced code

Which embeds does the reader of a document follow? Those that are left when the lines of fenced code
are blank (`embedsIn_visible`). That is not obvious line by line, for a blank line in a list asks
whether the list goes on behind it, and the answer is another one once the code is gone. It does not
matter for what a document says: a list that goes on has the items of two lists
(`Piece.ofBlocks_list_append`, `Piece.ofBlocks_blank`).

What is fenced code depends on what is open where its mark stands (`Open.step_cases`). A mark that is
indented in a list is text of an item, and so is all that stands behind it. Where there is no such
mark, the code is what stands between the marks of the text (`visible_eq_outside`).

Main result: `exists_read_iff`, which documents are read without files.
-/

namespace Deckwright

open Markdown

/-! ## Lists item by item -/

namespace Document

/-- The pieces of blocks. -/
def Piece.ofBlocks (blocks : List Block) : List Piece :=
  blocks.flatMap Piece.ofBlock

theorem Piece.ofBlocks_append (blocks more : List Block) :
    ofBlocks (blocks ++ more) = ofBlocks blocks ++ ofBlocks more :=
  List.flatMap_append

/-- The pieces of a list are those of its items that are not blank. -/
theorem Piece.ofBlocks_close_list (items : List Line) :
    ofBlocks (Open.list items).close =
      (items.reverse.filter (!Text.isBlank ·)).flatMap fun item =>
        ofInlines leaf "" (inlines (String.ofList item)) := by
  rw [Open.close]
  split
  · rename_i hNone
    rw [hNone]
    rfl
  · rename_i kept hKept
    rw [ofBlocks, List.flatMap_singleton, ofBlock, List.flatMap_map]

theorem Piece.ofBlocks_close_append (newer older : List Line) :
    ofBlocks (Open.list (newer ++ older)).close =
      ofBlocks (Open.list older).close ++ ofBlocks (Open.list newer).close := by
  rw [ofBlocks_close_list, ofBlocks_close_list, ofBlocks_close_list, List.reverse_append,
    List.filter_append, List.flatMap_append]

/-- The older items of a list might as well be a list of their own. -/
theorem Piece.ofBlocks_list_append {newer : List Line} (hSome : newer ≠ []) (older : List Line)
    (lines : List Line) :
    ofBlocks (blocksFrom (.list (newer ++ older)) lines) =
      ofBlocks (Open.list older).close ++ ofBlocks (blocksFrom (.list newer) lines) := by
  induction lines generalizing newer with
  | nil => exact ofBlocks_close_append newer older
  | cons line rest ih =>
      rcases Open.step_list line rest with ⟨grow, hStep, hGrow⟩ | ⟨blocks, next, hStep⟩
      · obtain ⟨hNext, hAppend⟩ := hGrow newer older hSome
        rw [blocksFrom_of_step (hStep _), blocksFrom_of_step (hStep _), hAppend]
        exact ih hNext
      · rw [blocksFrom_of_step (hStep _), blocksFrom_of_step (hStep _)]
        simp only [ofBlocks_append, ofBlocks_close_append, List.append_assoc]

/-! ## Blank lines in lists -/

theorem Piece.ofBlocks_list_resumes {lines : List Line} (h : listResumes lines)
    (items : List Line) :
    ofBlocks (blocksFrom (.list items) lines) =
      ofBlocks (Open.list items).close ++ ofBlocks (blocksFrom .nothing lines) := by
  induction lines with
  | nil => cases h
  | cons line rest ih =>
      cases hBlank : Text.isBlank line with
      | true =>
          rw [listResumes_blank hBlank] at h
          rw [blocksFrom_of_step (Open.step_list_blank hBlank h items), List.nil_append, ih h,
            blocksFrom_blank hBlank]
      | false =>
          rw [listResumes_of_not_blank hBlank] at h
          obtain ⟨item, hItem, hOuter⟩ := exists_item_of_isOuterBullet h
          rw [blocksFrom_of_step (Open.step_list_bullet hItem hOuter items rest),
            blocksFrom_of_step (Open.step_nothing_bullet hItem rest)]
          exact ofBlocks_list_append (List.cons_ne_nil item []) items rest

/-- What a blank line is to the blocks of a document does not show in its pieces: a list that goes
on behind the line has the items of two lists. -/
theorem Piece.ofBlocks_blank {opened : Open} (hCode : opened.fence = none) {line : Line}
    (hBlank : Text.isBlank line) (rest : List Line) :
    ofBlocks (blocksFrom opened (line :: rest)) =
      ofBlocks opened.close ++ ofBlocks (blocksFrom .nothing rest) := by
  rcases Open.step_blank hCode hBlank rest with hClose | ⟨items, rfl, hResumes, hKeep⟩
  · rw [blocksFrom_of_step hClose, ofBlocks_append]
  · rw [blocksFrom_of_step hKeep, List.nil_append, ofBlocks_list_resumes hResumes]

end Document

/-! ## Fences that the reader sees -/

namespace Markdown

/-- Whether a line is one of fenced code. -/
def Open.covers (opened : Open) (line : Line) : Bool :=
  opened.fence.isSome || ((fence? line).isSome && !opened.hides line)

/-- The lines of a document without those of fenced code, as the reader sees it. -/
def visible (opened : Open) : List Line → List Line
  | [] => []
  | line :: rest =>
    (if opened.covers line then [] else line) :: visible (opened.step line rest).2 rest

/-- The lines of a document without those from each mark up to the next one of its kind. -/
def outside (opened : Option Fence) : List Line → List Line
  | [] => []
  | line :: rest =>
    match opened with
    | some fence => [] :: outside (if fence.starts line then none else some fence) rest
    | none => (if (fence? line).isSome then [] else line) :: outside (fence? line) rest

/-- No mark is text of an item. -/
def marksSeen (opened : Open) : List Line → Bool
  | [] => true
  | line :: rest => !opened.hides line && marksSeen (opened.step line rest).2 rest

/-- Where no mark is hidden, the reader sees fenced code as it stands between the marks. -/
theorem visible_eq_outside {opened : Open} {lines : List Line} (h : marksSeen opened lines) :
    visible opened lines = outside opened.fence lines := by
  induction lines generalizing opened with
  | nil => rfl
  | cons line rest ih =>
      rw [marksSeen, Bool.and_eq_true, Bool.not_eq_true'] at h
      rw [visible, ih h.2, Open.fence_step, Open.covers, h.1]
      cases opened.fence <;> simp [outside]

theorem Open.covers_of_none {line : Line} (h : fence? line = none) (opened : Open) :
    opened.covers line = opened.fence.isSome := by
  simp [covers, h]

/-- Which items a list has does not matter for the fenced code behind it. -/
theorem visible_list (items others : List Line) (lines : List Line) :
    visible (.list items) lines = visible (.list others) lines := by
  induction lines generalizing items others with
  | nil => rfl
  | cons line rest ih =>
      have hCovers : (Open.list items).covers line = (Open.list others).covers line := rfl
      rw [visible, visible, hCovers]
      rcases Open.step_list line rest with ⟨grow, hStep, -⟩ | ⟨blocks, next, hStep⟩
      · rw [hStep, hStep, ih (grow items) (grow others)]
      · rw [hStep, hStep]

/-- Nor does a list matter that goes on anew. -/
theorem visible_list_resumes {lines : List Line} (h : listResumes lines) (items : List Line) :
    visible (.list items) lines = visible .nothing lines := by
  induction lines with
  | nil => rfl
  | cons line rest ih =>
      have hCovers (hNone : fence? line = none) :
          (Open.list items).covers line = Open.nothing.covers line := by
        rw [Open.covers_of_none hNone, Open.covers_of_none hNone]
        rfl
      rw [visible, visible]
      cases hBlank : Text.isBlank line with
      | true =>
          rw [listResumes_blank hBlank] at h
          rw [hCovers (fence?_of_isBlank hBlank), Open.step_list_blank hBlank h items, ih h,
            Open.step, if_pos hBlank]
      | false =>
          rw [listResumes_of_not_blank hBlank] at h
          obtain ⟨item, hItem, hOuter⟩ := exists_item_of_isOuterBullet h
          rw [hCovers (fence?_of_bullet? hItem), Open.step_list_bullet hItem hOuter,
            Open.step_nothing_bullet hItem, visible_list (item :: items) [item]]

theorem visible_step_blank {opened : Open} (hCode : opened.fence = none) {line : Line}
    (hBlank : Text.isBlank line) (rest : List Line) :
    visible (opened.step line rest).2 rest = visible .nothing rest := by
  rcases Open.step_blank hCode hBlank rest with hClose | ⟨items, rfl, hResumes, hKeep⟩
  · rw [hClose]
  · rw [hKeep, visible_list_resumes hResumes]

/-- What is open, unless that is fenced code. -/
def Open.uncovered : Open → Open
  | .code _ _ => .nothing
  | opened => opened

theorem Open.uncovered_eq_self {opened : Open} (h : opened.fence = none) :
    opened.uncovered = opened := by
  cases opened with
  | code fence lines => cases h
  | _ => rfl

end Markdown

/-! ## Embeds outside of fenced code -/

namespace Document

/-- The embed that a piece is. -/
def Piece.embed? : Piece → Option Embed
  | .embed found => some found
  | _ => none

/-- The embeds in blocks. -/
def embedsIn (blocks : List Block) : List Embed :=
  (Piece.ofBlocks blocks).filterMap Piece.embed?

theorem embedsIn_append (blocks more : List Block) :
    embedsIn (blocks ++ more) = embedsIn blocks ++ embedsIn more := by
  rw [embedsIn, Piece.ofBlocks_append, List.filterMap_append]
  rfl

theorem embedsIn_blank {opened : Open} (hCode : opened.fence = none) {line : Line}
    (hBlank : Text.isBlank line) (rest : List Line) :
    embedsIn (blocksFrom opened (line :: rest)) =
      embedsIn opened.close ++ embedsIn (blocksFrom .nothing rest) := by
  rw [embedsIn, Piece.ofBlocks_blank hCode hBlank, List.filterMap_append]
  rfl

/-- A line of fenced code completes no block with embeds and opens none. -/
theorem embedsIn_step_code (fence : Fence) (lines : List Line) (line : Line) (rest : List Line) :
    embedsIn ((Open.code fence lines).step line rest).1 = [] ∧
      ((Open.code fence lines).step line rest).2.uncovered = .nothing := by
  by_cases hCloses : fence.starts line
  · simp only [Open.step, hCloses, if_true]
    exact ⟨rfl, rfl⟩
  · simp only [Open.step, hCloses, if_false, Bool.false_eq_true]
    exact ⟨rfl, rfl⟩

/-- Fenced code has no embeds, so that none are lost with it. -/
theorem embedsIn_visible (opened : Open) (lines : List Line) :
    embedsIn (blocksFrom opened lines) =
      embedsIn (blocksFrom opened.uncovered (visible opened lines)) := by
  induction lines generalizing opened with
  | nil =>
      rw [visible, blocksFrom, blocksFrom]
      cases opened <;> rfl
  | cons line rest ih =>
      cases hFence : opened.fence with
      | some fence =>
          cases opened with
          | code own lines =>
              obtain ⟨hNone, hNext⟩ := embedsIn_step_code own lines line rest
              have hVisible : blocksFrom (Open.code own lines).uncovered
                  (visible (.code own lines) (line :: rest)) =
                    blocksFrom .nothing (visible ((Open.code own lines).step line rest).2 rest) :=
                blocksFrom_blank rfl _
              rw [hVisible, blocksFrom_cons, embedsIn_append, hNone, ih, hNext]
              rfl
          | _ => cases hFence
      | none =>
          rw [Open.uncovered_eq_self hFence, visible]
          cases hCovers : opened.covers line with
          | true =>
              have hMark : (fence? line).isSome ∧ opened.hides line = false := by
                simpa [Open.covers, hFence] using hCovers
              obtain ⟨fence, hOpens⟩ := Option.isSome_iff_exists.1 hMark.1
              have hStep := Open.step_opening hFence hOpens hMark.2 rest
              rw [if_pos rfl, blocksFrom_of_step hStep, hStep, embedsIn_append,
                ih (.code fence _), embedsIn_blank hFence rfl]
              rfl
          | false =>
              rw [if_neg (by decide)]
              cases hBlank : Text.isBlank line with
              | true =>
                  -- whether a list goes on may depend on the code behind the line
                  rw [embedsIn_blank hFence hBlank, embedsIn_blank hFence hBlank,
                    visible_step_blank hFence hBlank, ih .nothing]
                  rfl
              | false =>
                  have hNext : (opened.step line rest).2.fence = none := by
                    rw [Open.fence_step, hFence]
                    cases hHides : opened.hides line with
                    | true => rfl
                    | false => simpa [Open.covers, hFence, hHides] using hCovers
                  have hSame := opened.step_of_not_blank hBlank
                    (visible (opened.step line rest).2 rest) rest
                  rw [blocksFrom_cons, blocksFrom_cons, hSame, embedsIn_append, embedsIn_append, ih,
                    Open.uncovered_eq_self hNext]

/-! ## Reading without files -/

theorem mem_embedsIn {text : String} {found : Embed} :
    found ∈ embedsIn (blocks text) ↔ .embed found ∈ Piece.ofText text := by
  rw [embedsIn, List.mem_filterMap]
  constructor
  · rintro ⟨piece, hMem, hFound⟩
    cases piece with
    | embed own =>
        obtain rfl : own = found := Option.some.inj hFound
        exact hMem
    | _ => cases hFound
  · exact fun h => ⟨_, h, rfl⟩

/-- Where there are no files no embed can be followed. -/
theorem Part.ofEmbed_nil (base : Path) (found : Embed) :
    ∃ error, Part.ofEmbed [] [] base found = .failed error := by
  obtain ⟨kind, file, fragment⟩ := found
  cases kind with
  | toml => exact ⟨_, rfl⟩
  | markdown => exact ⟨_, rfl⟩

/-- A document asks for no file exactly if it has no embed. -/
theorem exists_read_iff_embedsIn (text : String) :
    (∃ result, ∀ files base, read files base text = .ok result) ↔ embedsIn (blocks text) = [] := by
  constructor
  · rintro ⟨result, hRead⟩
    obtain ⟨doc, hDoc, -⟩ := exists_of_map_ok (hRead [] (Path.ofString ""))
    rw [List.eq_nil_iff_forall_not_mem]
    intro found hFound
    obtain ⟨error, hFailed⟩ := Part.ofEmbed_nil (Path.ofString "") found
    refine failed_not_mem hDoc error ?_
    rw [expand_eq_map, List.mem_map]
    exact ⟨_, mem_embedsIn.1 hFound, hFailed⟩
  · intro hNone
    have hPlain : ∀ piece ∈ Piece.ofText text, ∀ found, piece ≠ .embed found := by
      rintro _ hMem found rfl
      rw [← mem_embedsIn, hNone] at hMem
      cases hMem
    have hSame (files : Files) (base : Path) :
        expand files [] base text = expand [] [] (Path.ofString "") text := by
      rw [expand_eq_map, expand_eq_map]
      apply List.map_congr_left
      intro piece hMem
      cases piece with
      | embed found => exact absurd rfl (hPlain _ hMem found)
      | _ => rfl
    cases hParts : ofParts (expand [] [] (Path.ofString "") text) with
    | ok doc => exact ⟨doc.attached, fun files base => by rw [read, hSame, hParts]; rfl⟩
    | error error =>
        obtain ⟨part, hMem, draft, hAdd⟩ := exists_add_error (ofParts_eq_error.1 hParts)
        rw [expand_eq_map, List.mem_map] at hMem
        obtain ⟨piece, hPiece, rfl⟩ := hMem
        cases piece with
        | embed found => exact absurd rfl (hPlain _ hPiece found)
        | _ => cases hAdd

/-- **Embeds in fenced code are not followed.** A document needs no file exactly if it has no embed
outside of the fenced code that the reader sees, and that is the code between the marks of its text
unless a mark is taken for text of an item. -/
theorem exists_read_iff (text : String) :
    ((∃ result, ∀ files base, read files base text = .ok result) ↔
        embedsIn (blocksFrom .nothing (visible .nothing (Text.lines text.toList))) = []) ∧
      (marksSeen .nothing (Text.lines text.toList) →
        ((∃ result, ∀ files base, read files base text = .ok result) ↔
          embedsIn (blocksFrom .nothing (outside none (Text.lines text.toList))) = [])) := by
  have hVisible : (∃ result, ∀ files base, read files base text = .ok result) ↔
      embedsIn (blocksFrom .nothing (visible .nothing (Text.lines text.toList))) = [] := by
    rw [exists_read_iff_embedsIn, blocks, embedsIn_visible]
    rfl
  refine ⟨hVisible, fun hSeen => ?_⟩
  rw [hVisible, visible_eq_outside hSeen]
  rfl

/-- Fenced code at the top, behind a paragraph and behind an item, with what would be embeds. -/
def fencedText : String :=
  "```\n![](a.md)\n```\nText\n  ~~~ md\n# ![](b.md)\n~~~\n- item\n ```\n- ![](c.toml)\n"

theorem exists_read_iff_fenced :
    marksSeen .nothing (Text.lines fencedText.toList) ∧
      embedsIn (blocksFrom .nothing (outside none (Text.lines fencedText.toList))) = [] ∧
        ∃ result, ∀ files base, read files base fencedText = .ok result := by
  have hSeen : marksSeen .nothing (Text.lines fencedText.toList) := by decide +kernel
  have hOutside :
      embedsIn (blocksFrom .nothing (outside none (Text.lines fencedText.toList))) = [] := by decide +kernel
  exact ⟨hSeen, hOutside, ((exists_read_iff fencedText).2 hSeen).2 hOutside⟩

/-- Fenced code that is indented below an item, with an embed. -/
def itemText : String :=
  "- a\n  ```\n  ![x](m.md)\n  ```\n"

/-- The reader takes such code for text of the item, and follows the embed. -/
theorem not_read_itemText :
    embedsIn (blocksFrom .nothing (outside none (Text.lines itemText.toList))) = [] ∧
      ¬ ∃ result, ∀ files base, read files base itemText = .ok result := by
  refine ⟨by decide +kernel, ?_⟩
  rw [exists_read_iff_embedsIn]
  decide +kernel

end Document

end Deckwright
