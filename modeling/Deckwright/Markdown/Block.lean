import Deckwright.Markdown.Inline

/-!
# Blocks

The blocks of a markdown document: headings, bullet lists, fenced code and paragraphs;
ordered lists, quotes and rules are paragraphs. A document is read line by line. At each
line at most one block is open, and the line is added to it, or closes it, or opens the
next one; `Open.step` is that transition.
-/

namespace Deckwright.Markdown

/-- A line of a document, without its end. -/
abbrev Line := List Char

/-- A block of a document. -/
inductive Block where
  | heading (level : Nat) (text : String)
  | list (items : List String)
  | code (text : String)
  | paragraph (content : List Inline)
  deriving DecidableEq, Inhabited

/-! ## Kinds of lines -/

/-- The number of bytes of white space in front of a line. -/
def indentation (line : Line) : Nat :=
  (line.takeWhile Text.isSpace).foldl (fun size c => size + c.utf8Size) 0

/-- Whether a text is set off from a mark in front of it. -/
def opensWithGap : List Char → Bool
  | ' ' :: _ => true
  | '\t' :: _ => true
  | _ => false

/-- The level and the text of a heading: one to six `#`, indented by at most three bytes. -/
def heading? (line : Line) : Option (Nat × String) :=
  let body := Text.trimLeft line
  let marks := body.takeWhile (· == '#')
  let rest := body.dropWhile (· == '#')
  if 3 < indentation line || marks.isEmpty || 6 < marks.length then none
  else if rest.isEmpty || opensWithGap rest then
    let text := Text.trimRight (Text.dropEndWhile (· == '#') (Text.trim rest))
    some (marks.length, String.ofList text)
  else none

/-- The text of a list item: a bullet, indented by at most three bytes, and white space. -/
def bullet? (line : Line) : Option (List Char) :=
  match Text.trimLeft line with
  | c :: rest =>
    if 3 < indentation line then none
    else if (c == '-' || c == '*' || c == '+') && opensWithGap rest then some (Text.trim rest)
    else none
  | [] => none

/-- A line that continues a list item: two spaces or a tab in front. -/
def isIndented : Line → Bool
  | ' ' :: ' ' :: _ => true
  | '\t' :: _ => true
  | _ => false

/-- A list item that is not indented; such a line ends a paragraph. -/
def isOuterBullet (line : Line) : Bool :=
  (bullet? line).isSome && !isIndented line

/-- The two marks of fenced code. -/
inductive Fence where
  | ticks
  | tildes
  deriving DecidableEq, Inhabited

/-- The characters of a mark. -/
def Fence.mark : Fence → List Char
  | ticks => "```".toList
  | tildes => "~~~".toList

/-- Whether a line starts, after any indentation, with the mark. -/
def Fence.starts (fence : Fence) (line : Line) : Bool :=
  fence.mark.isPrefixOf (Text.trimLeft line)

/-- The mark that a line starts with. -/
def fence? (line : Line) : Option Fence :=
  if Fence.ticks.starts line then some .ticks
  else if Fence.tildes.starts line then some .tildes
  else none

/-! ## Reading line by line -/

/-- The block that is open at a line. Lines and items are kept with the latest first. -/
inductive Open where
  | nothing
  | code (fence : Fence) (lines : List Line)
  | list (items : List Line)
  | paragraph (lines : List Line)
  deriving Inhabited

/-- Lines, the latest first, as one text. -/
def joinLines (lines : List Line) : List Char :=
  List.intercalate ['\n'] lines.reverse

/-- The block made of what is open; blank items are dropped, and with them an empty list. -/
def Open.close : Open → List Block
  | nothing => []
  | code _ lines => [.code (String.ofList (joinLines lines))]
  | list items =>
    match items.reverse.filter (fun item => !Text.isBlank item) with
    | [] => []
    | items => [.list (items.map String.ofList)]
  | paragraph lines => [.paragraph (inlines (String.ofList (joinLines lines)))]

/-- What a line that is not blank makes when nothing is open: the blocks it completes and the one it opens. -/
def start (line : Line) : List Block × Open :=
  match fence? line with
  | some fence => ([], .code fence [Text.trimRight line])
  | none =>
    match heading? line with
    | some (level, text) => ([.heading level text], .nothing)
    | none =>
      match bullet? line with
      | some item => ([], .list [item])
      | none => ([], .paragraph [Text.trimRight line])

/-- Whether the first line that is not blank is a list item without indentation. -/
def listResumes (rest : List Line) : Bool :=
  match rest.find? (fun line => !Text.isBlank line) with
  | some line => isOuterBullet line
  | none => false

/-- Closes what is open and lets the line open something new. -/
def Open.restart (opened : Open) (line : Line) : List Block × Open :=
  let (blocks, next) := start line
  (opened.close ++ blocks, next)

/-- Adds a line of text to the latest item of a list. -/
def continueItem (text : Line) : List Line → List Line
  | [] => []
  | item :: others => (item ++ '\n' :: text) :: others

/--
One line of a document: the blocks that it completes and the block that is open behind it.
The lines that follow matter only for a blank line inside a list, which belongs to the list
if another item follows.
-/
def Open.step (opened : Open) (line : Line) (rest : List Line) : List Block × Open :=
  match opened with
  | nothing => if Text.isBlank line then ([], nothing) else start line
  | code fence lines =>
    let lines := Text.trimRight line :: lines
    if fence.starts line then ((code fence lines).close, nothing) else ([], code fence lines)
  | list items =>
    if Text.isBlank line then
      if listResumes rest then ([], list items) else ((list items).close, nothing)
    else if isIndented line then ([], list (continueItem (Text.trimRight line) items))
    else
      match bullet? line with
      | some item => ([], list (item :: items))
      | none =>
        if (heading? line).isSome || (fence? line).isSome then (list items).restart line
        else ([], list (continueItem (Text.trim line) items))
  | paragraph lines =>
    if Text.isBlank line then ((paragraph lines).close, nothing)
    else if (heading? line).isSome || (fence? line).isSome || isOuterBullet line then
      (paragraph lines).restart line
    else ([], paragraph (Text.trimRight line :: lines))

/-- The blocks of the remaining lines of a document. -/
def blocksFrom (opened : Open) : List Line → List Block
  | [] => opened.close
  | line :: rest =>
    let (blocks, next) := opened.step line rest
    blocks ++ blocksFrom next rest

/-- The blocks of a document. -/
def blocks (text : String) : List Block :=
  blocksFrom .nothing (Text.lines text.toList)

end Deckwright.Markdown
