import Deckwright.Document.Piece
import Deckwright.Proofs.Chunks
import Deckwright.Proofs.Inlines
import Deckwright.Proofs.Steps

/-!
# Reading chunks back

The reader of blocks goes through the lines of a chunk and ends with the block of that chunk, if
what follows is nothing or a blank line, and for a list no further list behind the blank line
(`Follows`). So a text that is made of chunks is read as the pieces of these chunks
(`ofText_join`).

* `blocksFrom_item`: inside an open list, the lines of a leaf become one more item.
* `Chunk.reads`: the lines of a chunk become its block.
* `textLines_join`: the lines of such a text are those of its chunks with a blank line after each
  but the last.
-/

namespace Deckwright

namespace Markdown

/-! ## Kinds of lines -/

section FirstCharacter

variable {c : Char} {rest : Line}

theorem trimLeft_cons (h : Text.isSpace c = false) : Text.trimLeft (c :: rest) = c :: rest := by
  rw [Text.trimLeft, List.dropWhile_cons_of_neg (by simp [h])]

theorem indentation_cons (h : Text.isSpace c = false) : indentation (c :: rest) = 0 := by
  rw [indentation, List.takeWhile_cons_of_neg (by simp [h])]
  rfl

theorem isBlank_cons (h : Text.isSpace c = false) : Text.isBlank (c :: rest) = false := by
  simp [Text.isBlank, h]

theorem fence?_cons (h : Text.isSpace c = false) (hTicks : c ≠ '`') (hTildes : c ≠ '~') :
    fence? (c :: rest) = none := by
  have hTicks' : ('`' == c) = false := by simpa using hTicks.symm
  have hTildes' : ('~' == c) = false := by simpa using hTildes.symm
  have hMarks : Fence.ticks.mark = ['`', '`', '`'] ∧ Fence.tildes.mark = ['~', '~', '~'] := by
    decide
  simp [fence?, Fence.starts, trimLeft_cons h, hMarks, List.isPrefixOf, hTicks', hTildes']

theorem heading?_cons (h : Text.isSpace c = false) (hMark : c ≠ '#') :
    heading? (c :: rest) = none := by
  simp [heading?, trimLeft_cons h, hMark]

theorem bullet?_cons (h : Text.isSpace c = false) (hMark : c ≠ '-' ∧ c ≠ '*' ∧ c ≠ '+') :
    bullet? (c :: rest) = none := by
  simp [bullet?, trimLeft_cons h, indentation_cons h, hMark]

end FirstCharacter

/-- The line of a list item. -/
theorem bullet?_mark (first : Line) : bullet? ('-' :: ' ' :: first) = some (Text.trim first) := by
  have hSpace : Text.isSpace '-' = false := by decide
  have hGap : Text.trim (' ' :: first) = Text.trim first := Text.trim_cons (by decide) first
  simp [bullet?, trimLeft_cons hSpace, indentation_cons hSpace, opensWithGap, hGap]

theorem exists_headingLine {level : Nat} (h : 0 < level) (name : List Char) :
    ∃ rest, List.replicate level '#' ++ ' ' :: name = '#' :: rest := by
  cases level with
  | zero => cases h
  | succ n => exact ⟨_, rfl⟩

/-- The line of a heading. Of the text behind the marks the `#` at its end do not belong to the
heading. -/
theorem heading?_headingLine {level : Nat} {name : List Char} (hLevel : 0 < level)
    (hSix : level ≤ 6) (hName : Text.trim name = name) :
    heading? (List.replicate level '#' ++ ' ' :: name) =
      some (level, String.ofList (Text.trimRight (Text.dropEndWhile (· == '#') name))) := by
  have hSpace : Text.isSpace '#' = false := by decide
  obtain ⟨rest, hLine⟩ := exists_headingLine hLevel name
  have hTrim : Text.trimLeft (List.replicate level '#' ++ ' ' :: name) =
      List.replicate level '#' ++ ' ' :: name := by
    rw [hLine, trimLeft_cons hSpace]
  have hIndent : indentation (List.replicate level '#' ++ ' ' :: name) = 0 := by
    rw [hLine, indentation_cons hSpace]
  have hAll : ∀ c ∈ List.replicate level '#', (c == '#') = true := by
    intro c hMem
    rw [(List.mem_replicate.1 hMem).2]
    rfl
  have hMarks : (List.replicate level '#' ++ ' ' :: name).takeWhile (· == '#') =
      List.replicate level '#' := by
    rw [List.takeWhile_append_of_pos hAll, List.takeWhile_cons_of_neg (by decide),
      List.append_nil]
  have hRest : (List.replicate level '#' ++ ' ' :: name).dropWhile (· == '#') = ' ' :: name := by
    rw [List.dropWhile_append_of_pos hAll, List.dropWhile_cons_of_neg (by decide)]
  have hGap : Text.trim (' ' :: name) = name := by rw [Text.trim_cons (by decide), hName]
  have hBounds : ¬ (level = 0 ∨ 6 < level) := by omega
  simp [heading?, hTrim, hIndent, hMarks, hRest, hGap, opensWithGap, hBounds]

/-- The line of a heading whose text does not end in `#`. -/
theorem heading?_line {level : Nat} {name : List Char} (hLevel : 0 < level) (hSix : level ≤ 6)
    (hName : Text.trim name = name) (hMark : name.getLast? ≠ some '#') :
    heading? (List.replicate level '#' ++ ' ' :: name) = some (level, String.ofList name) := by
  have hEnd : Text.dropEndWhile (· == '#') name = name := by
    refine Text.dropEndWhile_eq_self_iff.2 fun hSome hLast => hMark ?_
    rw [List.getLast?_eq_some_getLast hSome]
    simpa using hLast
  rw [heading?_headingLine hLevel hSix hName, hEnd, (Text.trim_eq_self_iff.1 hName).2]

/-! ## What follows a chunk -/

/-- Nothing or a blank line, and behind a list no further list. -/
structure Follows (isItems : Bool) (rest : List Line) : Prop where
  blank : ∀ line ∈ rest.head?, Text.isBlank line
  ends : isItems → listResumes rest = false

theorem blocksFrom_blank {line : Line} (h : Text.isBlank line) (rest : List Line) :
    blocksFrom .nothing (line :: rest) = blocksFrom .nothing rest := by
  simp [blocksFrom, Open.step, h]

theorem blocksFrom_list_of_follows {items : List Line} {rest : List Line} (h : Follows true rest) :
    blocksFrom (.list items) rest = (Open.list items).close ++ blocksFrom .nothing rest := by
  cases rest with
  | nil => simp [blocksFrom, Open.close]
  | cons line rest =>
      have hBlank : Text.isBlank line := h.blank line rfl
      have hResumes : listResumes rest = false :=
        (listResumes_blank hBlank rest).symm.trans (h.ends rfl)
      simp [blocksFrom, Open.step, hBlank, hResumes]

theorem blocksFrom_paragraph_of_follows {lines : List Line} {rest : List Line}
    (h : Follows false rest) :
    blocksFrom (.paragraph lines) rest =
      (Open.paragraph lines).close ++ blocksFrom .nothing rest := by
  cases rest with
  | nil => simp [blocksFrom, Open.close]
  | cons line rest =>
      have hBlank : Text.isBlank line := h.blank line rfl
      simp [blocksFrom, Open.step, hBlank]

/-! ## Lists -/

/-- The further lines of an item. -/
theorem blocksFrom_indented {more : List Line}
    (h : ∀ line ∈ more, isIndented line ∧ Text.trimRight line = line ∧ Text.isBlank line = false)
    (item : Line) (items : List Line) (rest : List Line) :
    blocksFrom (.list (item :: items)) (more ++ rest) =
      blocksFrom (.list ((item ++ more.flatMap ('\n' :: ·)) :: items)) rest := by
  induction more generalizing item with
  | nil => simp
  | cons line more ih =>
      obtain ⟨hIndented, hTrim, hBlank⟩ := h line List.mem_cons_self
      have hStep : (Open.list (item :: items)).step line (more ++ rest) =
          ([], .list ((item ++ '\n' :: line) :: items)) := by
        simp [Open.step, hBlank, hIndented, hTrim, continueItem]
      rw [List.cons_append, blocksFrom_of_step hStep]
      have hLater := ih (fun other hMem => h other (List.mem_cons_of_mem _ hMem))
        (item ++ '\n' :: line)
      simpa using hLater

/-- Lines and the line feeds between them. -/
theorem intercalate_eq_flatMap (first : Line) (more : List Line) :
    ['\n'].intercalate (first :: more) = first ++ more.flatMap ('\n' :: ·) := by
  induction more generalizing first with
  | nil => simp
  | cons line more ih => rw [List.intercalate_cons_cons, ih, List.flatMap_cons]; simp

theorem textLines_item {value : String} {first : Line} {more : List Line}
    (h : textLines value = first :: more) :
    textLines ("- " ++ value) = ('-' :: ' ' :: first) :: more := by
  have hText : ("- " ++ value).toList = '-' :: ' ' :: value.toList := by
    rw [String.toList_append]
    rfl
  rw [textLines] at h ⊢
  rw [hText, Text.split, if_neg (by decide), Text.split, if_neg (by decide), h]

/-- A text without white space in front has none in front of its first line. -/
theorem trimLeft_firstLine {text : String} (hTrim : trimmed text = text) {first : Line}
    {more : List Line} (hLines : textLines text = first :: more) :
    Text.trimLeft first = first := by
  have hStart := (Text.trim_eq_self_iff.1 (trim_toList hTrim)).1
  have hText := intercalate_textLines text
  rw [hLines, intercalate_eq_flatMap] at hText
  cases first with
  | nil => rfl
  | cons c rest =>
      rw [Text.trimLeft_eq_self_iff] at hStart ⊢
      intro _
      have hFirst := hStart (by rw [← hText]; exact Nat.succ_pos _)
      simpa [← hText] using hFirst

/-- The first line of an item holds all of its line but the bullet. -/
theorem trim_first {value : String} (h : LeafOk value) {first : Line} {more : List Line}
    (hLines : textLines value = first :: more) : Text.trim first = first :=
  Text.trim_eq_self_iff.2 ⟨trimLeft_firstLine h.trimmed hLines,
    (h.lines first (hLines ▸ List.mem_cons_self)).1⟩

theorem isIndented_of_trimLeft {line : Line} (h : Text.trimLeft line = line) :
    isIndented line = false := by
  rw [Text.trimLeft_eq_self_iff] at h
  unfold isIndented
  split
  · exact absurd (by decide : Text.isSpace ' ' = true) (h (Nat.succ_pos _))
  · exact absurd (by decide : Text.isSpace '\t' = true) (h (Nat.succ_pos _))
  · rfl

/-- Inside a list, the lines of a leaf are one more item. -/
theorem blocksFrom_item {value : String} (h : LeafOk value) (items rest : List Line) :
    blocksFrom (.list items) (textLines ("- " ++ value) ++ rest) =
      blocksFrom (.list (value.toList :: items)) rest := by
  have hIndented := h.indented
  have hText := intercalate_textLines value
  obtain ⟨first, more, hLines⟩ := exists_textLines value
  have hItem : bullet? ('-' :: ' ' :: first) = some first := by
    rw [bullet?_mark, trim_first h hLines]
  have hStep := Open.step_list_bullet hItem rfl items (more ++ rest)
  rw [hLines, List.tail_cons] at hIndented
  rw [hLines, intercalate_eq_flatMap] at hText
  rw [textLines_item hLines, List.cons_append, blocksFrom_of_step hStep, ← hText,
    List.nil_append]
  refine blocksFrom_indented (fun line hLine => ⟨hIndented line hLine, ?_⟩) _ _ _
  exact h.lines line (hLines ▸ List.mem_cons_of_mem _ hLine)

/-- The line of a leaf opens a list. -/
theorem blocksFrom_nothing_item (value : String) (rest : List Line) :
    blocksFrom .nothing (textLines ("- " ++ value) ++ rest) =
      blocksFrom (.list []) (textLines ("- " ++ value) ++ rest) := by
  obtain ⟨first, more, hLines⟩ := exists_textLines value
  have hItem := bullet?_mark first
  rw [textLines_item hLines, List.cons_append,
    blocksFrom_of_step (Open.step_nothing_bullet hItem (more ++ rest)),
    blocksFrom_of_step (Open.step_list_bullet hItem rfl [] (more ++ rest))]

theorem blocksFrom_items {values : List String} (h : ∀ value ∈ values, LeafOk value)
    (items rest : List Line) :
    blocksFrom (.list items) (values.flatMap (fun value => textLines ("- " ++ value)) ++ rest) =
      blocksFrom (.list ((values.map String.toList).reverse ++ items)) rest := by
  induction values generalizing items with
  | nil => rfl
  | cons value values ih =>
      have hLater := ih (fun other hMem => h other (List.mem_cons_of_mem _ hMem))
        (value.toList :: items)
      rw [List.flatMap_cons, List.append_assoc, blocksFrom_item (h value List.mem_cons_self),
        hLater]
      simp

/-! ## Leads -/

/-- Lines of fenced code up to the closing fence. -/
theorem blocksFrom_code {fence : Fence} {body : List Line} {last : Line}
    (hInside : ∀ line ∈ body, fence.starts line = false) (hCloses : fence.starts last)
    (lines rest : List Line) :
    blocksFrom (.code fence lines) (body ++ [last] ++ rest) =
      .code (String.ofList (joinLines (((body ++ [last]).map Text.trimRight).reverse ++ lines))) ::
        blocksFrom .nothing rest := by
  induction body generalizing lines with
  | nil =>
      have hStep : (Open.code fence lines).step last rest =
          ((Open.code fence (Text.trimRight last :: lines)).close, .nothing) := by
        simp [Open.step, hCloses]
      rw [List.nil_append, List.singleton_append, blocksFrom_of_step hStep]
      rfl
  | cons line body ih =>
      have hStep : (Open.code fence lines).step line (body ++ [last] ++ rest) =
          ([], .code fence (Text.trimRight line :: lines)) := by
        simp [Open.step, hInside line List.mem_cons_self]
      have hLater := ih (fun other hMem => hInside other (List.mem_cons_of_mem _ hMem))
        (Text.trimRight line :: lines)
      rw [List.cons_append, List.cons_append, blocksFrom_of_step hStep, List.nil_append, hLater]
      simp

theorem blocksFrom_closedFence {text : String} {fence : Fence} {opening last : Line}
    {body : List Line} (h : ClosedFence text fence opening last body) (rest : List Line) :
    blocksFrom .nothing (textLines text ++ rest) = .code text :: blocksFrom .nothing rest := by
  have hTrimmed := h.trimmed
  have hText := intercalate_textLines text
  rw [h.lines] at hTrimmed hText
  have hOpening := hTrimmed opening List.mem_cons_self
  have hStep : Open.nothing.step opening (body ++ [last] ++ rest) =
      ([], .code fence [opening]) := by
    simp [Open.step, start, isBlank_of_fence? h.opens, h.opens, hOpening]
  have hSame : (body ++ [last]).map Text.trimRight = body ++ [last] :=
    (List.map_congr_left fun line hLine => hTrimmed line (List.mem_cons_of_mem _ hLine)).trans
      (List.map_id _)
  rw [h.lines, List.cons_append, blocksFrom_of_step hStep, List.nil_append,
    blocksFrom_code h.inside h.closes, hSame]
  rw [joinLines, List.reverse_append, List.reverse_reverse, List.reverse_singleton,
    List.singleton_append, hText, String.ofList_toList]

/-- The lines of a paragraph. -/
theorem blocksFrom_plainLines {more : List Line} (h : ∀ line ∈ more, PlainLine line)
    (lines rest : List Line) :
    blocksFrom (.paragraph lines) (more ++ rest) =
      blocksFrom (.paragraph (more.reverse ++ lines)) rest := by
  induction more generalizing lines with
  | nil => rfl
  | cons line more ih =>
      have hLine := h line List.mem_cons_self
      have hStep : (Open.paragraph lines).step line (more ++ rest) =
          ([], .paragraph (line :: lines)) := by
        simp [Open.step, hLine.notBlank, hLine.noHeading, hLine.noFence, hLine.noBullet,
          hLine.trimmed]
      have hLater := ih (fun other hMem => h other (List.mem_cons_of_mem _ hMem)) (line :: lines)
      rw [List.cons_append, blocksFrom_of_step hStep, List.nil_append, hLater]
      simp

theorem blocksFrom_plainParagraph {text : String} (h : PlainParagraph text) {rest : List Line}
    (hRest : Follows false rest) :
    blocksFrom .nothing (textLines text ++ rest) =
      .paragraph (inlines text) :: blocksFrom .nothing rest := by
  have hPlain := h.lines
  have hText := intercalate_textLines text
  obtain ⟨first, more, hLines⟩ := exists_textLines text
  rw [hLines] at hPlain hText
  have hFirst := hPlain first List.mem_cons_self
  have hOuter := isIndented_of_trimLeft (trimLeft_firstLine h.trimmed hLines)
  have hBullet : bullet? first = none := by
    have hNone := hFirst.noBullet
    rw [isOuterBullet, hOuter] at hNone
    simpa using hNone
  have hStep : Open.nothing.step first (more ++ rest) = ([], .paragraph [first]) := by
    simp [Open.step, start, hFirst.notBlank, hFirst.noFence, hFirst.noHeading, hBullet,
      hFirst.trimmed]
  rw [hLines, List.cons_append, blocksFrom_of_step hStep, List.nil_append,
    blocksFrom_plainLines (fun line hLine => hPlain line (List.mem_cons_of_mem _ hLine)),
    blocksFrom_paragraph_of_follows hRest]
  rw [Open.close, joinLines, List.reverse_append, List.reverse_reverse,
    List.reverse_singleton, List.singleton_append, List.singleton_append, hText,
    String.ofList_toList]

/-! ## Pieces of texts without images -/

/-- A text without images is one run. -/
theorem inlines_of_noImages {text : String} (hSome : text ≠ "") (h : NoImages text) :
    inlines text = [.text text] := by
  obtain ⟨hNormal, insides, hSpells⟩ := inlines_eq_iff.1 (rfl : inlines text = inlines text)
  unfold NoImages at h
  generalize inlines text = content at h hNormal hSpells ⊢
  generalize hText : text.toList = cs at hSpells
  cases hSpells with
  | nil => exact absurd (String.toList_inj.1 hText) hSome
  | image _ _ => cases h _ List.mem_cons_self
  | @text rest _ _ run hRest =>
      cases hRest with
      | nil =>
          rw [List.append_nil] at hText
          rw [String.toList_inj.1 hText]
      | text more _ =>
          cases hNormal with
          | text _ hNext _ _ => cases hNext _ rfl
      | image _ _ => cases h _ (List.mem_cons_of_mem _ List.mem_cons_self)

end Markdown

open Document Markdown

/-- A trimmed text without images is one piece. -/
theorem ofInlines_of_noImages (make : String → Piece) {text : String} (hSome : text ≠ "")
    (hTrim : trimmed text = text) (h : NoImages text) :
    Piece.ofInlines make "" (Markdown.inlines text) = [make text] := by
  have hBlank : blank text = false := isBlank_toList hSome hTrim
  rw [Markdown.inlines_of_noImages hSome h, Piece.ofInlines, Piece.ofInlines, String.empty_append,
    Piece.ofRun, hBlank, hTrim]
  rfl

/-! ## Chunks -/

namespace Chunk

/-- The pieces of a document that a chunk makes. -/
def pieces : Chunk → List Piece
  | heading level name => [.heading level name]
  | items values => values.map .leaf
  | lead text => [.lead text]

/-- The line of a heading chunk. -/
theorem textLines_heading {level : UInt8} {name : String} (h : (heading level name).Ok) :
    textLines (heading level name).text =
      [List.replicate level.toNat '#' ++ ' ' :: name.toList] := by
  obtain ⟨hLevel, hSix, hName⟩ := h
  rw [UInt8.lt_iff_toNat_lt] at hLevel
  rw [UInt8.le_iff_toNat_le] at hSix
  have hClamp : max 1 (min 6 level.toNat) = level.toNat := by
    have hSixNat : (6 : UInt8).toNat = 6 := rfl
    have hZeroNat : (0 : UInt8).toNat = 0 := rfl
    omega
  have hText : (heading level name).text.toList =
      List.replicate level.toNat '#' ++ ' ' :: name.toList := by
    simp [text, headingText, hClamp]
  rw [textLines, hText]
  apply Text.split_of_not_mem
  intro hMem
  rcases List.mem_append.1 hMem with hMarks | hRest
  · exact absurd (List.mem_replicate.1 hMarks).2 (by decide)
  · rcases List.mem_cons.1 hRest with hSpace | hIn
    · exact absurd hSpace (by decide)
    · exact hName.oneLine hIn

theorem reads_heading {level : UInt8} {name : String} (h : (heading level name).Ok)
    (rest : List Line) :
    blocksFrom .nothing (textLines (heading level name).text ++ rest) =
      .heading level.toNat name :: blocksFrom .nothing rest := by
  obtain ⟨hLevel, hSix, hName⟩ := id h
  rw [UInt8.lt_iff_toNat_lt] at hLevel
  rw [UInt8.le_iff_toNat_le] at hSix
  have hHeading := heading?_line hLevel hSix (trim_toList hName.trimmed) hName.noMark
  rw [String.ofList_toList] at hHeading
  obtain ⟨more, hLine⟩ := exists_headingLine hLevel name.toList
  have hSpace : Text.isSpace '#' = false := by decide
  have hStep : Open.nothing.step (List.replicate level.toNat '#' ++ ' ' :: name.toList) rest =
      ([.heading level.toNat name], .nothing) := by
    rw [hLine] at hHeading ⊢
    simp [Open.step, start, isBlank_cons hSpace, hHeading,
      fence?_cons hSpace (by decide) (by decide)]
  rw [textLines_heading h, List.singleton_append, blocksFrom_of_step hStep]
  rfl

/-- Texts with line feeds between them have the lines of each. -/
theorem textLines_intercalate {texts : List String} (h : texts ≠ []) :
    textLines (String.intercalate "\n" texts) = texts.flatMap textLines := by
  induction texts with
  | nil => exact absurd rfl h
  | cons text rest ih =>
      cases rest with
      | nil => simp
      | cons next rest =>
          rw [String.intercalate_cons_cons, textLines_append, ih (by simp)]
          exact List.flatMap_cons.symm

theorem textLines_items {values : List String} (h : (items values).Ok) :
    textLines (items values).text = values.flatMap fun value => textLines ("- " ++ value) := by
  obtain ⟨hSome, hLeaves⟩ := h
  rw [text, textLines_intercalate (by simpa using hSome), List.flatMap_map]
  exact List.flatMap_congr fun value hMem => by rw [bullet_eq (hLeaves value hMem)]

theorem reads_items {values : List String} (h : (items values).Ok) {rest : List Line}
    (hRest : Follows true rest) :
    blocksFrom .nothing (textLines (items values).text ++ rest) =
      .list values :: blocksFrom .nothing rest := by
  obtain ⟨hSome, hLeaves⟩ := id h
  have hStart : blocksFrom .nothing (textLines (items values).text ++ rest) =
      blocksFrom (.list []) (textLines (items values).text ++ rest) := by
    rw [textLines_items h]
    cases values with
    | nil => exact absurd rfl hSome
    | cons value values =>
        rw [List.flatMap_cons, List.append_assoc]
        exact blocksFrom_nothing_item value _
  have hKeep : (values.map String.toList).filter (fun item => !Text.isBlank item) =
      values.map String.toList := by
    rw [List.filter_eq_self]
    intro item hItem
    obtain ⟨value, hValue, rfl⟩ := List.mem_map.1 hItem
    have hLeaf := hLeaves value hValue
    rw [isBlank_toList hLeaf.notEmpty hLeaf.trimmed]
    rfl
  have hValues : (values.map String.toList).map String.ofList = values := by
    rw [List.map_map]
    exact (List.map_congr_left fun value _ => String.ofList_toList).trans (List.map_id values)
  rw [hStart, textLines_items h, blocksFrom_items hLeaves, blocksFrom_list_of_follows hRest,
    List.append_nil, Open.close, List.reverse_reverse, hKeep]
  split
  · rename_i hNone
    exact absurd (List.map_eq_nil_iff.1 hNone) hSome
  · rw [hValues]
    rfl

/-- What follows a chunk is read as if it stood alone. -/
theorem reads {chunk : Chunk} (h : chunk.Ok) {rest : List Line}
    (hRest : Follows chunk.isItems rest) :
    (blocksFrom .nothing (textLines chunk.text ++ rest)).flatMap Piece.ofBlock =
      chunk.pieces ++ (blocksFrom .nothing rest).flatMap Piece.ofBlock := by
  cases chunk with
  | heading level name =>
      have hName : name.isEmpty = false := by simpa using h.2.2.notEmpty
      rw [reads_heading h, List.flatMap_cons, Piece.ofBlock, hName]
      simp [pieces]
  | items values =>
      have hItems : (values.flatMap fun item => Piece.ofInlines .leaf "" (inlines item)) =
          values.map .leaf := by
        rw [← List.flatMap_singleton' (values.map Piece.leaf), List.flatMap_map]
        refine List.flatMap_congr fun value hMem => ?_
        have hLeaf := h.2 value hMem
        exact ofInlines_of_noImages .leaf hLeaf.notEmpty hLeaf.trimmed hLeaf.noImages
      rw [reads_items h hRest, List.flatMap_cons, Piece.ofBlock, hItems]
      rfl
  | lead text =>
      rcases h with ⟨fence, opening, last, body, hCode⟩ | hPlain
      · rw [Chunk.text, blocksFrom_closedFence hCode]
        rfl
      · rw [Chunk.text, blocksFrom_plainParagraph hPlain hRest, List.flatMap_cons, Piece.ofBlock,
          ofInlines_of_noImages .lead hPlain.notEmpty hPlain.trimmed hPlain.noImages]
        rfl

/-! ### The lines of chunks -/

/-- What the lines of a chunk are like at its edges. -/
structure LinesOk (chunk : Chunk) : Prop where
  trimmed : ∀ line ∈ textLines chunk.text, Text.trimRight line = line
  last : ∀ line ∈ (textLines chunk.text).getLast?, Text.isBlank line = false
  first : ∃ first more, textLines chunk.text = first :: more ∧ Text.isBlank first = false ∧
    (chunk.isItems = false → isOuterBullet first = false)

theorem linesOk_heading {level : UInt8} {name : String} (h : (heading level name).Ok) :
    LinesOk (heading level name) := by
  have hName := h.2.2
  have hLines := textLines_heading h
  obtain ⟨more, hLine⟩ := exists_headingLine (UInt8.lt_iff_toNat_lt.1 h.1) name.toList
  have hSpace : Text.isSpace '#' = false := by decide
  have hSome : name.toList ≠ [] := toList_ne_nil hName.notEmpty
  have hRight := (Text.trim_eq_self_iff.1 (trim_toList hName.trimmed)).2
  constructor
  · intro line hMem
    rw [hLines, List.mem_singleton] at hMem
    rw [hMem]
    exact Text.trimRight_append (@Text.trimRight_append [' '] _ hRight hSome) (by simp)
  · intro line hMem
    rw [hLines, List.getLast?_singleton, Option.mem_some_iff] at hMem
    rw [← hMem, hLine, isBlank_cons hSpace]
  · refine ⟨_, [], hLines, ?_, fun _ => ?_⟩
    · rw [hLine, isBlank_cons hSpace]
    · rw [hLine, isOuterBullet, bullet?_cons hSpace (by decide)]
      rfl

/-- Every line of a list is trimmed at its end, and none is blank. -/
theorem line_of_items {values : List String} (h : (items values).Ok) :
    ∀ line ∈ textLines (items values).text,
      Text.trimRight line = line ∧ Text.isBlank line = false := by
  intro line hMem
  rw [textLines_items h] at hMem
  obtain ⟨value, hValue, hIn⟩ := List.mem_flatMap.1 hMem
  have hLeaf := h.2 value hValue
  obtain ⟨first, more, hLines⟩ := exists_textLines value
  have hFirst := hLeaf.lines first (hLines ▸ List.mem_cons_self)
  rw [textLines_item hLines] at hIn
  rcases List.mem_cons.1 hIn with rfl | hMore
  · have hSome := Text.ne_nil_of_not_isBlank hFirst.2
    exact ⟨@Text.trimRight_append ['-', ' '] _ hFirst.1 hSome,
      isBlank_cons (by decide)⟩
  · exact hLeaf.lines line (hLines ▸ List.mem_cons_of_mem _ hMore)

theorem linesOk_items {values : List String} (h : (items values).Ok) :
    LinesOk (items values) where
  trimmed line hMem := (line_of_items h line hMem).1
  last line hMem := (line_of_items h line (List.mem_of_getLast? hMem)).2
  first := by
    obtain ⟨first, more, hLines⟩ := exists_textLines (items values).text
    have hFirst := line_of_items h first (hLines ▸ List.mem_cons_self)
    exact ⟨first, more, hLines, hFirst.2, fun hItems => by cases hItems⟩

theorem linesOk_closedFence {text : String} {fence : Fence} {opening last : Line}
    {body : List Line} (h : ClosedFence text fence opening last body) : LinesOk (lead text) where
  trimmed := h.trimmed
  last := by
    intro line hMem
    rw [Chunk.text, h.lines, ← List.cons_append, List.getLast?_concat,
      Option.mem_some_iff] at hMem
    rw [← hMem]
    exact isBlank_of_starts h.closes
  first := by
    refine ⟨opening, body ++ [last], h.lines, isBlank_of_fence? h.opens, ?_⟩
    intro _
    rw [isOuterBullet, bullet?_of_fence? h.opens]
    rfl

theorem linesOk_plainParagraph {text : String} (h : PlainParagraph text) :
    LinesOk (lead text) where
  trimmed line hMem := (h.lines line hMem).trimmed
  last line hMem := (h.lines line (List.mem_of_getLast? hMem)).notBlank
  first := by
    obtain ⟨first, more, hLines⟩ := exists_textLines text
    have hFirst := h.lines first (hLines ▸ List.mem_cons_self)
    exact ⟨first, more, hLines, hFirst.notBlank, fun _ => hFirst.noBullet⟩

theorem linesOk {chunk : Chunk} (h : chunk.Ok) : LinesOk chunk := by
  cases chunk with
  | heading level name => exact linesOk_heading h
  | items values => exact linesOk_items h
  | lead text =>
      rcases h with ⟨fence, opening, last, body, hCode⟩ | hPlain
      · exact linesOk_closedFence hCode
      · exact linesOk_plainParagraph hPlain

/-! ### Texts made of chunks -/

/-- The lines of chunks with a blank line between each two. -/
def layOut : List Chunk → List Line
  | [] => []
  | [chunk] => textLines chunk.text
  | chunk :: next :: rest => textLines chunk.text ++ [] :: layOut (next :: rest)

theorem textLines_join {chunks : List Chunk} (h : chunks ≠ []) :
    textLines (join (chunks.map text)) = layOut chunks := by
  induction chunks with
  | nil => exact absurd rfl h
  | cons chunk rest ih =>
      cases rest with
      | nil => simp [join, layOut]
      | cons next rest =>
          have hJoin : join ((chunk :: next :: rest).map text) =
              chunk.text ++ "\n" ++ ("" ++ "\n" ++ join ((next :: rest).map text)) := by
            apply String.toList_inj.1
            simp [join]
          rw [hJoin, textLines_append, textLines_append, ih (by simp), layOut]
          rfl

/-- The lines of chunks are lines. -/
theorem areLines_layOut {chunks : List Chunk} (hSome : chunks ≠ [])
    (hOk : ∀ chunk ∈ chunks, chunk.Ok) : Text.AreLines (layOut chunks) := by
  have hAll : (∀ line ∈ layOut chunks, Text.trimRight line = line) ∧
      ∀ line ∈ (layOut chunks).getLast?, Text.isBlank line = false := by
    induction chunks with
    | nil => exact absurd rfl hSome
    | cons chunk rest ih =>
        have hChunk := linesOk (hOk chunk List.mem_cons_self)
        cases rest with
        | nil => exact ⟨hChunk.trimmed, hChunk.last⟩
        | cons next rest =>
            obtain ⟨hTrimmed, hLast⟩ := ih (by simp) fun other hMem =>
              hOk other (List.mem_cons_of_mem _ hMem)
            have hMore : layOut (next :: rest) ≠ [] := by
              rw [← textLines_join (by simp)]
              exact textLines_ne_nil _
            constructor
            · intro line hMem
              rcases List.mem_append.1 hMem with hHere | hLater
              · exact hChunk.trimmed line hHere
              · rcases List.mem_cons.1 hLater with rfl | hLater
                · rfl
                · exact hTrimmed line hLater
            · rw [layOut, List.getLast?_append_of_ne_nil _ (by simp),
                List.getLast?_cons_of_ne_nil hMore]
              exact hLast
  exact areLines_of_trimmed hAll.1 hAll.2

/-- Chunks are read one after the other. -/
theorem reads_layOut {chunks : List Chunk} (hOk : ∀ chunk ∈ chunks, chunk.Ok)
    (hChain : chunks.IsChain Apart) :
    (blocksFrom .nothing (layOut chunks)).flatMap Piece.ofBlock = chunks.flatMap pieces := by
  induction chunks with
  | nil => rfl
  | cons chunk rest ih =>
      have hChunk := hOk chunk List.mem_cons_self
      cases rest with
      | nil =>
          have hRead := @reads chunk hChunk [] ⟨by simp, fun _ => rfl⟩
          simpa [layOut, blocksFrom, Open.close] using hRead
      | cons next rest =>
          obtain ⟨hApart, hRest⟩ := List.isChain_cons_cons.1 hChain
          have hLater := ih (fun other hMem => hOk other (List.mem_cons_of_mem _ hMem)) hRest
          have hNext := linesOk (hOk next (by simp))
          obtain ⟨first, more, hLines, hBlank, hOuter⟩ := hNext.first
          have hFollows : Follows chunk.isItems ([] :: layOut (next :: rest)) := by
            refine ⟨by simp [Text.isBlank], fun hItems => ?_⟩
            obtain ⟨others, hFirst⟩ : ∃ others, layOut (next :: rest) = first :: others := by
              cases rest with
              | nil => exact ⟨more, hLines⟩
              | cons one rest => exact ⟨_, by rw [layOut, hLines]; rfl⟩
            rw [listResumes_blank rfl, hFirst, listResumes_of_not_blank hBlank]
            exact hOuter (hApart hItems)
          rw [layOut, reads hChunk hFollows, blocksFrom_blank rfl, hLater]
          rfl

/-- A text that is made of chunks is read as their pieces. -/
theorem ofText_join {chunks : List Chunk} (hOk : ∀ chunk ∈ chunks, chunk.Ok)
    (hChain : chunks.IsChain Apart) :
    Piece.ofText (join (chunks.map text)) = chunks.flatMap pieces := by
  cases chunks with
  | nil => rfl
  | cons chunk rest =>
      have hLines := @textLines_join (chunk :: rest) (by simp)
      have hSplit := @Text.lines_eq_split (join ((chunk :: rest).map text)).toList
      rw [textLines] at hLines
      rw [hLines] at hSplit
      rw [Piece.ofText, Markdown.blocks, hSplit (areLines_layOut (by simp) hOk)]
      exact reads_layOut hOk hChain

end Chunk

end Deckwright
