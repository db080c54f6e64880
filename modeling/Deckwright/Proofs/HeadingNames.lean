import Deckwright.Proofs.Boundaries
import Deckwright.Proofs.Bullets
import Deckwright.Proofs.Naming
import Deckwright.Proofs.Passages
import Deckwright.Proofs.Preorder
import Deckwright.Proofs.ReadingBack

/-!
# The names of headings

A group in markdown layout is rendered under a heading, and a heading that is read makes a group
again. The heading stands on a line of its own wherever the group is in the tree, so it is read
whatever is in front of it, unless that is fenced code which is still open (`blocks_heading`).

Of the name the reader takes away the `#` at its end. That is meant for a closing sequence, which
white space sets off from the name, but it is done to every name. `Keeps` says what should hold of a
name, and `keeps_iff` that it holds of the names that do not end in `#`.
-/

namespace Deckwright

/-! ## Line breaks -/

namespace Text

theorem WholeLines.of_getLast? {more : List Char} (h : more.getLast? = some '\n')
    (cs : List Char) : WholeLines (cs ++ more) :=
  .inr (by rw [List.getLast?_append, h, Option.some_or])

theorem WholeLines.append {cs more : List Char} (h : WholeLines cs) (hMore : WholeLines more) :
    WholeLines (cs ++ more) := by
  rcases hMore with rfl | hLast
  · rwa [List.append_nil]
  · exact .of_getLast? hLast cs

/-- A text that follows a line: nothing, or a further line. -/
def Breaks (cs : List Char) : Prop :=
  cs = [] ∨ cs.head? = some '\n'

theorem Breaks.append {cs more : List Char} (h : Breaks cs) (hMore : Breaks more) :
    Breaks (cs ++ more) := by
  rcases h with rfl | hFirst
  · exact hMore
  · refine .inr ?_
    rw [List.head?_append, hFirst, Option.some_or]

/-- A line is read as it is if it does not end in a carriage return. -/
theorem exists_lines {line back : List Char} (hSome : line ≠ []) (hFeed : '\n' ∉ line)
    (hReturn : line.getLast? ≠ some '\r') (hBack : Breaks back) :
    ∃ rest, lines (line ++ back) = line :: rest := by
  rcases hBack with rfl | hFirst
  · exact ⟨[], by rw [List.append_nil, lines_of_not_mem hSome hFeed]⟩
  · obtain ⟨rest, rfl⟩ : ∃ rest, back = '\n' :: rest := List.head?_eq_some_iff.1 hFirst
    refine ⟨lines rest, ?_⟩
    rw [List.append_cons, lines_append (wholeLines_append line), lines_line hFeed, withoutReturn,
      if_neg hReturn, List.singleton_append]

end Text

/-! ## The line of a heading -/

/-- A name that can stand in a heading: one line without white space at its ends. -/
structure Headline (name : String) : Prop extends Document.Tidy name where
  line : '\n' ∉ name.toList

/-- The line of a heading. -/
def headingLine (level : Nat) (name : String) : String :=
  String.ofList (List.replicate level '#') ++ " " ++ name

/-- What is left of a name behind the marks of a heading. -/
def withoutMarks (name : String) : String :=
  String.ofList (Text.trimRight (Text.dropEndWhile (· == '#') name.toList))

/-- The level of the heading that a group is rendered under. -/
def Header.shown (header : Header) : Nat :=
  max 1 (min 6 header.level.toNat)

theorem Header.shown_bounds (header : Header) : 0 < header.shown ∧ header.shown ≤ 6 := by
  unfold shown
  omega

theorem headingText_eq (header : Header) :
    headingText header = headingLine header.shown header.name :=
  rfl

theorem toList_headingLine (level : Nat) (name : String) :
    (headingLine level name).toList = List.replicate level '#' ++ ' ' :: name.toList := by
  simp [headingLine]

namespace Headline

variable {name : String} {level : Nat}

theorem toList_ne_nil (h : Headline name) : name.toList ≠ [] := fun hNil =>
  h.notEmpty (String.toList_inj.1 hNil)

theorem line_ne_nil (level : Nat) : (headingLine level name).toList ≠ [] := by
  simp [toList_headingLine]

theorem feed_not_mem (h : Headline name) (level : Nat) :
    '\n' ∉ (headingLine level name).toList := by
  have hName := h.line
  simp [toList_headingLine, List.mem_replicate, hName]

theorem getLast?_ne_return (h : Headline name) (level : Nat) :
    (headingLine level name).toList.getLast? ≠ some '\r' := by
  have hTrim := (Text.trim_eq_self_iff.1 (trim_toList h.trimmed)).2
  have hEnd := Text.dropEndWhile_eq_self_iff.1 hTrim h.toList_ne_nil
  rw [toList_headingLine, List.append_cons, List.getLast?_append,
    List.getLast?_eq_some_getLast h.toList_ne_nil, Option.some_or]
  intro hReturn
  rw [Option.some.inj hReturn] at hEnd
  exact hEnd (by decide)

theorem heading? (h : Headline name) (hLevel : 0 < level) (hSix : level ≤ 6) :
    Markdown.heading? (headingLine level name).toList = some (level, withoutMarks name) := by
  rw [toList_headingLine, Markdown.heading?_headingLine hLevel hSix (trim_toList h.trimmed)]
  rfl

/-- A name keeps all of itself unless it ends in a mark. -/
theorem withoutMarks_eq_self_iff (h : Headline name) :
    withoutMarks name = name ↔ name.toList.getLast? ≠ some '#' := by
  have hSome := h.toList_ne_nil
  have hTrim := (Text.trim_eq_self_iff.1 (trim_toList h.trimmed)).2
  have hEnd : Text.dropEndWhile (· == '#') name.toList = name.toList ↔
      name.toList.getLast? ≠ some '#' := by
    rw [Text.dropEndWhile_eq_self_iff, List.getLast?_eq_some_getLast hSome]
    simp [hSome]
  rw [← hEnd]
  constructor
  · intro hSame
    -- what is dropped at the end does not come back by trimming
    have hShort : (Text.trimRight (Text.dropEndWhile (· == '#') name.toList)).length ≤
        (Text.dropEndWhile (· == '#') name.toList).length :=
      (List.rdropWhile_prefix _ _).length_le
    have hText : Text.trimRight (Text.dropEndWhile (· == '#') name.toList) = name.toList := by
      rw [← String.toList_inj, withoutMarks, String.toList_ofList] at hSame
      exact hSame
    rw [hText] at hShort
    exact (List.rdropWhile_prefix _ _).eq_of_length_le hShort
  · intro hKept
    rw [withoutMarks, hKept, hTrim, String.ofList_toList]

end Headline

namespace Markdown

/-- A heading closes what is open, if that is no fenced code. -/
theorem Open.step_heading {opened : Open} (hCode : opened.fence = none) {line : Line} {level : Nat}
    {text : String} (hHeading : heading? ('#' :: line) = some (level, text)) (rest : List Line) :
    opened.step ('#' :: line) rest = (opened.close ++ [.heading level text], .nothing) := by
  have hSpace : Text.isSpace '#' = false := by decide
  have hBlank : Text.isBlank ('#' :: line) = false := isBlank_cons hSpace
  have hFence : fence? ('#' :: line) = none := fence?_cons hSpace (by decide) (by decide)
  have hBullet : bullet? ('#' :: line) = none := bullet?_cons hSpace (by decide)
  have hStart : start ('#' :: line) = ([.heading level text], .nothing) := by
    rw [start, hFence, hHeading]
  cases opened with
  | nothing => simp [step, hBlank, hStart, close]
  | code fence lines => cases hCode
  | list items => simp [step, hBlank, isIndented, hBullet, hHeading, restart, hStart]
  | paragraph lines => simp [step, hBlank, hHeading, restart, hStart]

/-- **Headings.** The line of a heading is read on its own wherever it stands, unless fenced code is
open in front of it. -/
theorem blocks_heading {front back name : String} {level : Nat} (h : Headline name)
    (hLevel : 0 < level) (hSix : level ≤ 6) (hWhole : Text.WholeLines front.toList)
    (hCode : openFence front = none) (hBack : Text.Breaks back.toList) :
    ∃ rest, Text.lines ((headingLine level name).toList ++ back.toList) =
        (headingLine level name).toList :: rest ∧
      blocks (front ++ headingLine level name ++ back) =
        blocks front ++ .heading level (withoutMarks name) :: blocksFrom .nothing rest := by
  obtain ⟨rest, hLines⟩ := Text.exists_lines (Headline.line_ne_nil level) (h.feed_not_mem level)
    (h.getLast?_ne_return level) hBack
  obtain ⟨line, hLine⟩ := exists_headingLine hLevel name.toList
  rw [← toList_headingLine] at hLine
  have hHeading := h.heading? hLevel hSix
  have hResumes : listResumes ((headingLine level name).toList :: rest) = false := by
    rw [hLine, listResumes_of_not_blank (isBlank_cons (by decide)), isOuterBullet,
      bullet?_cons (by decide) (by decide)]
    rfl
  refine ⟨rest, hLines, ?_⟩
  have hAll : Text.lines (front ++ headingLine level name ++ back).toList =
      Text.lines front.toList ++ (headingLine level name).toList :: rest := by
    rw [String.append_assoc, String.toList_append, Text.lines_append hWhole, String.toList_append,
      hLines]
  rw [blocks, hAll]
  refine blocksFrom_append_of_closes .nothing hResumes ?_
  rw [hLine] at hHeading ⊢
  rw [blocksFrom_of_step (Open.step_heading hCode hHeading rest), List.append_assoc,
    List.singleton_append]

/-- The line of a heading and nothing else. -/
theorem blocks_headingLine {name : String} {level : Nat} (h : Headline name) (hLevel : 0 < level)
    (hSix : level ≤ 6) :
    blocks (headingLine level name) = [.heading level (withoutMarks name)] := by
  obtain ⟨rest, hLines, hBlocks⟩ := @blocks_heading "" "" name level h hLevel hSix (.inl rfl) rfl
    (.inl rfl)
  have hRest : rest = [] := by
    rw [String.toList_empty, List.append_nil,
      Text.lines_of_not_mem (Headline.line_ne_nil level) (h.feed_not_mem level)] at hLines
    exact (List.cons.inj hLines).2.symm
  rw [String.empty_append, String.append_empty] at hBlocks
  rw [hBlocks, hRest]
  rfl

end Markdown

/-! ## Where a group stands -/

namespace Node

variable {asked : List String} {under inner : Layout} {nodes : List Node} {node : Node}
  {path : List Nat}

theorem between_cases (under : Layout) (node : Node) (rest : List Node) :
    (rest = [] ∧ between under node rest = "") ∨
      between under node rest = "\n" ∨ between under node rest = "\n\n" := by
  cases rest with
  | nil => exact .inl ⟨rfl, by cases under <;> simp [between, lineGap, gap]⟩
  | cons next rest =>
      refine .inr ?_
      cases under with
      | tagged => exact .inl rfl
      | markdown =>
          cases hLeaf : node.isLeaf with
          | false => exact .inr (by simp [between, hLeaf])
          | true => cases next <;> simp [between, hLeaf, gap]

theorem row_nil : row asked under [] = "" := by
  cases under with
  | tagged => rfl
  | markdown => exact blockText_nil

/-- In front of a node stand whole lines, in the row of its siblings. -/
theorem wholeLines_ahead {index : Nat} (h : nodes[index]? = some node) :
    Text.WholeLines (ahead asked under nodes index).toList := by
  induction nodes generalizing index with
  | nil => simp at h
  | cons first rest ih =>
      cases index with
      | zero => exact .inl (by rw [ahead_zero]; rfl)
      | succ index =>
          have hRest : rest[index]? = some node := by simpa using h
          rw [ahead, String.toList_append, String.toList_append]
          refine .append ?_ (ih hRest)
          rcases between_cases under first rest with ⟨rfl, -⟩ | hBetween | hBetween
          · simp at hRest
          · exact hBetween ▸ .of_getLast? (by decide) _
          · exact hBetween ▸ .of_getLast? (by decide) _

/-- The row of a group that has children starts on a line of its own. -/
theorem wholeLines_opening {header : Header} {children : List Node} (hSome : children ≠ []) :
    Text.WholeLines (opening header children).toList := by
  rw [opening]
  cases header.layout with
  | tagged =>
      rw [String.toList_append]
      exact .of_getLast? (by decide) _
  | markdown =>
      rw [if_neg hSome, String.toList_append]
      exact .of_getLast? (by decide) _

theorem At.nodes_ne_nil (h : At under nodes path inner node) : nodes ≠ [] := by
  rintro rfl
  cases h with
  | child h => simp at h
  | inside hGroup _ => simp at hGroup

/-- In front of a node stand whole lines, at any depth. -/
theorem At.wholeLines_before (asked : List String) (h : At under nodes path inner node) :
    Text.WholeLines (before asked under nodes path).toList := by
  induction h with
  | child h => exact wholeLines_ahead h
  | inside hGroup h ih =>
      have hSome := h.nodes_ne_nil
      rw [before_cons hGroup h.ne_nil, String.toList_append, String.toList_append]
      exact ((wholeLines_ahead hGroup).append (wholeLines_opening hSome)).append ih

/-- Behind a node there is a line break, in the row of its siblings. -/
theorem exists_breaks_of_getElem? (asked : List String) (under : Layout) {index : Nat}
    (h : nodes[index]? = some node) :
    ∃ after, Text.Breaks after.toList ∧ row asked under nodes =
      ahead asked under nodes index ++ node.passage asked under ++ after := by
  induction nodes generalizing index with
  | nil => simp at h
  | cons first rest ih =>
      cases index with
      | zero =>
          obtain rfl : first = node := by simpa using h
          refine ⟨between under first rest ++ row asked under rest, ?_, ?_⟩
          · rcases between_cases under first rest with ⟨rfl, hBetween⟩ | hBetween | hBetween
            · rw [hBetween, row_nil]
              exact .inl rfl
            · rw [hBetween, String.toList_append]
              exact .inr rfl
            · rw [hBetween, String.toList_append]
              exact .inr rfl
          · rw [row_cons, ahead_zero, String.empty_append, String.append_assoc]
      | succ index =>
          obtain ⟨after, hBreaks, hRow⟩ := ih (by simpa using h)
          refine ⟨after, hBreaks, ?_⟩
          rw [row_cons, ahead, hRow]
          simp only [String.append_assoc]

/-- Behind a node that is not empty there is a line break, at any depth. -/
theorem At.exists_breaks (h : At under nodes path inner node)
    (hText : node.passage asked inner ≠ "") :
    ∃ after, Text.Breaks after.toList ∧ row asked under nodes =
      before asked under nodes path ++ node.passage asked inner ++ after := by
  induction h with
  | child h => exact exists_breaks_of_getElem? asked _ h
  | @inside under inner nodes children index header path node hGroup h ih =>
      obtain ⟨after, hAfter, hRow⟩ := exists_breaks_of_getElem? asked under hGroup
      obtain ⟨rest, hRest, hInner⟩ := ih hText
      have hClosing : Text.Breaks (closing asked header children).toList := by
        rw [closing]
        cases hLayout : header.layout with
        | markdown => exact .inl rfl
        | tagged =>
            have hSome : row asked .tagged children ≠ "" := by
              rw [← hLayout, hInner]
              simp [hText]
            simp only [if_neg hSome, String.toList_append]
            exact .inr rfl
      refine ⟨rest ++ closing asked header children ++ after, ?_, ?_⟩
      · rw [String.toList_append, String.toList_append]
        exact (hRest.append hClosing).append hAfter
      · rw [hRow, passage_group, text_group_eq, hInner, before_cons hGroup h.ne_nil]
        simp only [String.append_assoc]

/-- A group in markdown layout starts with the line of its heading. -/
theorem exists_passage_heading (asked : List String) (under : Layout) {header : Header}
    (hLayout : header.layout = .markdown) (children : List Node) :
    ∃ after, Text.Breaks after.toList ∧ (Node.group header children).passage asked under =
      headingText header ++ after := by
  rw [passage_group, text_group_eq, opening, closing, hLayout]
  by_cases hNone : children = []
  · refine ⟨"", .inl rfl, ?_⟩
    simp only [hNone, if_true, row_nil, String.append_empty]
  · refine ⟨"\n\n" ++ row asked .markdown children, ?_, ?_⟩
    · rw [String.toList_append]
      exact .inr rfl
    · simp only [hNone, if_false, String.append_empty, String.append_assoc]

end Node

/-! ## Names that are read back -/

section Names

variable {d : Deck} {asked : List String} {path : List Nat} {header : Header}

/-- The text in front of the node at a path. -/
def Deck.front (d : Deck) (asked : List String) (path : List Nat) : String :=
  d.opening asked ++ Node.before asked d.layout d.children path

/-- The group at the path is rendered under a heading that stands in no fenced code. -/
structure Deck.Heads (d : Deck) (asked : List String) (path : List Nat) (header : Header) :
    Prop where
  node : ∃ under children, Node.At d.layout d.children path under (.group header children)
  layout : header.layout = .markdown
  outside : Markdown.openFence (d.front asked path) = none

/-- A heading as the group that it makes when it is read. -/
def headingGroup (level : Nat) (name : String) : Node :=
  .group { name, layout := .markdown, level := UInt8.ofNat level } []

/-- A name is the name of what is read where it stands in a heading. -/
structure Keeps (name : String) : Prop where
  /-- A heading of the name is one block, of that name. -/
  alone : ∀ level, 0 < level → level ≤ 6 →
    Markdown.blocks (headingLine level name) = [.heading level name]
  /-- Reading it gives a group of that name, or a deck if it is of level 1. -/
  group : ∀ level, 0 < level → level ≤ 6 → ∀ files base, ∃ result,
    Document.read files base (headingLine level name) = .ok result ∧
      if level = 1 then result.deck.name = name ∧ result.deck.title = some name
      else result.deck.children = [headingGroup level name]
  /-- Where a group of that name is rendered under a heading, a heading of that name is read. -/
  rendered : ∀ {d : Deck} {asked path header}, d.Heads asked path header → header.name = name →
    ∃ more, Markdown.blocks (d.systemText asked) =
      Markdown.blocks (d.front asked path) ++ .heading header.shown name :: more
  /-- So if the whole text makes a deck, there is a group of that name in it, or it is the name of
  the deck if the heading is the first of level 1. -/
  listed : ∀ {d : Deck} {asked path header files base result}, d.Heads asked path header →
    header.name = name → Document.read files base (d.systemText asked) = .ok result →
    (∃ number : Nat, result.deck.preorder[number]? =
      some (.group name (UInt8.ofNat header.shown))) ∨ header.shown = 1 ∧ result.deck.name = name

theorem Node.passage_ne_empty (asked : List String) (under : Layout)
    (hLayout : header.layout = .markdown) (children : List Node) :
    (Node.group header children).passage asked under ≠ "" := by
  obtain ⟨after, -, hPassage⟩ := exists_passage_heading asked under hLayout children
  rw [hPassage, headingText]
  simp

/-- In front of a group stand whole lines. -/
theorem Deck.Heads.wholeLines_front (h : d.Heads asked path header) :
    Text.WholeLines (d.front asked path).toList := by
  obtain ⟨under, children, hAt⟩ := h.node
  have hSome := hAt.nodes_ne_nil
  have hRow : Node.row asked d.layout d.children ≠ "" := by
    have hText := Node.passage_ne_empty asked under h.layout children
    obtain ⟨after, -, hRow⟩ := hAt.exists_breaks hText
    rw [hRow]
    simp [hText]
  have hOpening : Text.WholeLines (d.opening asked).toList := by
    unfold Deck.opening
    split
    · exact .inl rfl
    · rename_i hLayout
      rw [hLayout] at hRow
      rw [if_neg hRow, String.toList_append]
      exact .of_getLast? (by decide) _
    · rw [if_neg hSome, String.toList_append]
      exact .of_getLast? (by decide) _
  rw [Deck.front, String.toList_append]
  exact hOpening.append (hAt.wholeLines_before asked)

/-- The heading of a group in the text of a deck. -/
theorem Deck.Heads.systemText (h : d.Heads asked path header) :
    ∃ after, Text.Breaks after.toList ∧
      d.systemText asked = d.front asked path ++ headingText header ++ after := by
  obtain ⟨under, children, hAt⟩ := h.node
  obtain ⟨after, hAfter, hRow⟩ :=
    hAt.exists_breaks (Node.passage_ne_empty asked under h.layout children)
  obtain ⟨body, hBody, hPassage⟩ := Node.exists_passage_heading asked under h.layout children
  refine ⟨body ++ after, ?_, ?_⟩
  · rw [String.toList_append]
    exact hBody.append hAfter
  · rw [systemText_eq_row, hRow, hPassage, Deck.front]
    simp only [String.append_assoc]

/-- What is read where a group is rendered under a heading. -/
theorem Deck.Heads.blocks (h : d.Heads asked path header) (hName : Headline header.name) :
    ∃ more, Markdown.blocks (d.systemText asked) =
      Markdown.blocks (d.front asked path) ++
        .heading header.shown (withoutMarks header.name) :: more := by
  obtain ⟨after, hAfter, hText⟩ := h.systemText
  obtain ⟨hLevel, hSix⟩ := header.shown_bounds
  obtain ⟨rest, -, hBlocks⟩ :=
    Markdown.blocks_heading hName hLevel hSix h.wholeLines_front h.outside hAfter
  exact ⟨_, by rw [hText, headingText_eq]; exact hBlocks⟩

end Names

namespace Document

/-- A heading that is read is the name of a group, or of the deck. -/
theorem listed_of_read {files : Files} {base : Path} {text name : String} {result : ReadDeck}
    {front more : List Markdown.Block} {level : Nat} (hName : name ≠ "")
    (hBlocks : Markdown.blocks text = front ++ .heading level name :: more)
    (hRead : read files base text = .ok result) :
    (∃ number : Nat, result.deck.preorder[number]? = some (.group name (UInt8.ofNat level))) ∨
      level = 1 ∧ result.deck.name = name := by
  obtain ⟨doc, hDoc, rfl⟩ := exists_of_map_ok hRead
  obtain ⟨draft, hAdd, rfl⟩ := ofParts_eq_ok hDoc
  let source : Source := ⟨[], base, text⟩
  have hHeading : source.blocks[front.length]? = some (.heading level name) := by
    show (Markdown.blocks text)[front.length]? = _
    rw [hBlocks, List.getElem?_append_right (Nat.le_refl _), Nat.sub_self]
    rfl
  have hEmpty : name.isEmpty = false := by simpa using hName
  by_cases hFirst : level = 1 ∧ ∀ j other, j < front.length →
      source.blocks[j]? = some (.heading 1 other) → other = ""
  · obtain ⟨rfl, hFirst⟩ := hFirst
    have hTitle : source.FirstTitle front.length name := ⟨hHeading, hName, hFirst⟩
    exact .inr ⟨rfl, ((@names_finish files source draft hAdd).titled hTitle).1⟩
  · have hOpens : source.OpensGroup front.length level name := by
      refine ⟨hHeading, hEmpty, ?_⟩
      rintro rfl
      simp only [true_and, not_forall] at hFirst
      obtain ⟨j, title, hLess, hAt, hTitle⟩ := hFirst
      exact ⟨j, title, hLess, hAt, by simpa using hTitle⟩
    refine .inl ⟨source.lineOf files front.length, ?_⟩
    rw [preorder_attached]
    exact @getElem?_lineOf files source draft hAdd _ _ _ hOpens

/-- A text that is one heading. -/
theorem read_heading {text name : String} {level : Nat} (hName : Headline name) (hSix : level ≤ 6)
    (hBlocks : Markdown.blocks text = [.heading level name]) (files : Files) (base : Path) :
    ∃ result, read files base text = .ok result ∧
      if level = 1 then result.deck.name = name ∧ result.deck.title = some name
      else result.deck.children = [headingGroup level name] := by
  have hLevelOne : UInt8.ofNat level = 1 ↔ level = 1 := by
    rw [← UInt8.toNat_inj, Markdown.toNat_ofNat_level hSix]
    rfl
  have hPieces : Piece.ofText text = [.heading (UInt8.ofNat level) name] := by
    simp [Piece.ofText, hBlocks, Piece.ofBlock, hName.notEmpty]
  have hRead : read files base text =
      .ok (Draft.addHeading (UInt8.ofNat level) name {}).finish.attached := by
    rw [read, expand_eq_map, hPieces]
    rfl
  refine ⟨_, hRead, ?_⟩
  split
  · rename_i hOne
    rw [hLevelOne.2 hOne]
    refine ⟨?_, rfl⟩
    show (Deck.empty name).name = name
    rw [Deck.empty, hName.blank]
    rfl
  · rename_i hOther
    have hOpened : Draft.addHeading (UInt8.ofNat level) name {} =
        { opened := [{ header := { name, layout := .markdown, level := UInt8.ofNat level } }] } := by
      simp [Draft.addHeading, hLevelOne, hOther, Draft.closeTo, closeGroups]
    rw [hOpened]
    simp [Draft.finish, Draft.closeTo, closeGroups, attached, Node.attachAll, Node.attach,
      OpenGroup.node, headingGroup]

end Document

/-- A name that the reader takes nothing from is kept. -/
theorem keeps_of_withoutMarks {name : String} (h : Headline name)
    (hSame : withoutMarks name = name) : Keeps name := by
  have hAlone : ∀ level, 0 < level → level ≤ 6 →
      Markdown.blocks (headingLine level name) = [.heading level name] := by
    intro level hLevel hSix
    rw [Markdown.blocks_headingLine h hLevel hSix, hSame]
  have hRendered {d : Deck} {asked : List String} {path : List Nat} {header : Header}
      (hHeads : d.Heads asked path header) (hName : header.name = name) :
      ∃ more, Markdown.blocks (d.systemText asked) =
        Markdown.blocks (d.front asked path) ++ .heading header.shown name :: more := by
    subst hName
    obtain ⟨more, hMore⟩ := hHeads.blocks h
    exact ⟨more, by rw [hMore, hSame]⟩
  constructor
  case alone => exact hAlone
  case group =>
    intro level hLevel hSix files base
    exact Document.read_heading h hSix (hAlone level hLevel hSix) files base
  case rendered => exact hRendered
  case listed =>
    intro d asked path header files base result hHeads hName hRead
    obtain ⟨more, hBlocks⟩ := hRendered hHeads hName
    exact Document.listed_of_read h.notEmpty hBlocks hRead

/-- The name ends in a closing sequence: marks with white space in front of them, or with nothing. -/
def EndsClosed (name : String) : Prop :=
  ∃ front marks, name.toList = front ++ marks ∧ marks ≠ [] ∧ (∀ c ∈ marks, c = '#') ∧
    (front = [] ∨ ∃ c, front.getLast? = some c ∧ Text.isSpace c)

theorem EndsClosed.getLast? {name : String} (h : EndsClosed name) :
    name.toList.getLast? = some '#' := by
  obtain ⟨front, marks, hName, hSome, hMarks, -⟩ := h
  rw [hName, List.getLast?_append, List.getLast?_eq_some_getLast hSome, Option.some_or,
    hMarks _ (List.getLast_mem hSome)]

/-- **Names.** Of a name behind the marks of a heading is read what is left without the marks at its
end. So a name is kept, in a heading, in a group and in the text of a deck, if and only if it does
not end in a mark, and a name with a closing sequence is not. -/
theorem keeps_iff {name : String} (h : Headline name) :
    (∀ level, 0 < level → level ≤ 6 →
      Markdown.blocks (headingLine level name) = [.heading level (withoutMarks name)]) ∧
    (Keeps name ↔ name.toList.getLast? ≠ some '#') ∧
    (EndsClosed name → ¬ Keeps name) := by
  have hOwn (level : Nat) (hLevel : 0 < level) (hSix : level ≤ 6) :=
    Markdown.blocks_headingLine h hLevel hSix
  have hIff : Keeps name ↔ name.toList.getLast? ≠ some '#' := by
    rw [← h.withoutMarks_eq_self_iff]
    constructor
    · intro hKeeps
      have hOne := hKeeps.alone 1 (by decide) (by decide)
      rw [hOwn 1 (by decide) (by decide)] at hOne
      simpa using hOne
    · exact keeps_of_withoutMarks h
  exact ⟨hOwn, hIff, fun hClosed hKeeps => hIff.1 hKeeps hClosed.getLast?⟩

/-- A name that starts with a mark and has others inside. -/
theorem keeps_iff_inside : Headline "#1 of C# fans" ∧ Keeps "#1 of C# fans" := by
  have hName : Headline "#1 of C# fans" :=
    { trimmed := by decide +kernel
      notEmpty := by decide
      line := by decide }
  exact ⟨hName, (keeps_iff hName).2.1.2 (by decide)⟩

/-- A name that ends in a mark and has no closing sequence loses the mark. -/
theorem not_keeps_cSharp :
    Headline "C#" ∧ ¬ EndsClosed "C#" ∧
      Markdown.blocks (headingLine 2 "C#") = [.heading 2 "C"] ∧ ¬ Keeps "C#" := by
  have hName : Headline "C#" :=
    { trimmed := by decide +kernel
      notEmpty := by decide
      line := by decide }
  have hBlocks : Markdown.blocks (headingLine 2 "C#") = [.heading 2 "C"] := by decide +kernel
  refine ⟨hName, ?_, hBlocks, fun hKeeps => ?_⟩
  · rintro ⟨front, marks, hText, hSome, hMarks, hFront⟩
    have hFirst : "C#".toList = ['C', '#'] := by decide
    rw [hFirst] at hText
    rcases front with _ | ⟨c, _ | ⟨d, rest⟩⟩
    · rw [List.nil_append] at hText
      exact absurd (hMarks 'C' (hText ▸ List.mem_cons_self)) (by decide)
    · obtain ⟨rfl, -⟩ := List.cons.inj hText
      simp [Text.isSpace] at hFront
    · have hNone : marks = [] := by
        simp only [List.cons_append, List.cons.injEq] at hText
        exact (List.append_eq_nil_iff.1 hText.2.2.symm).2
      exact hSome hNone
  · have hTwo := hKeeps.alone 2 (by decide) (by decide)
    rw [hBlocks] at hTwo
    exact absurd hTwo (by decide)

end Deckwright
