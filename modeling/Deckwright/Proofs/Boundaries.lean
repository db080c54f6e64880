import Deckwright.Proofs.Blocks
import Deckwright.Proofs.ReadingBack

/-!
# Where texts of blocks may be put together

A text that ends with a line feed is a number of whole lines, and the lines of another text behind
it are its own (`Text.lines_append`). The reader of blocks goes through the lines with one block
open, and whatever follows a line matters to it only by the question whether a list goes on
(`Open.step_append`). So it reads the lines of the first text as if nothing came behind them, and
hands the block that is open at their end on to the second one (`blocksFrom_append`), unless that
one starts with a list.

Two things close the block at the end, if it is no fenced code: a blank line, and the first line of
fenced code, which is then read up to its closing line, whatever stands in between
(`blocksFrom_boundary`, `blocksFrom_fence`).

Main result: `blocks_append`.
-/

namespace Deckwright

/-! ## Whole lines -/

namespace Text

/-- Behind the last of its line feeds a text has nothing. -/
def WholeLines (cs : List Char) : Prop :=
  cs = [] ∨ cs.getLast? = some '\n'

instance (cs : List Char) : Decidable (WholeLines cs) :=
  inferInstanceAs (Decidable (cs = [] ∨ cs.getLast? = some '\n'))

theorem WholeLines.tail {c : Char} {cs : List Char} (h : WholeLines (c :: cs)) : WholeLines cs := by
  cases cs with
  | nil => exact .inl rfl
  | cons d rest =>
      refine .inr ?_
      rw [← List.getLast?_cons_cons]
      exact h.resolve_left (List.cons_ne_nil _ _)

theorem lines_append {cs : List Char} (h : WholeLines cs) (more : List Char) :
    lines (cs ++ more) = lines cs ++ lines more := by
  induction cs using lines.induct with
  | case1 => rfl
  | case2 rest ih =>
      have hRest : WholeLines rest := h.tail.tail
      show lines ('\r' :: '\n' :: (rest ++ more)) = _
      rw [lines, lines, ih hRest, List.cons_append]
  | case3 rest ih =>
      show lines ('\n' :: (rest ++ more)) = _
      rw [lines, lines, ih h.tail, List.cons_append]
  | case4 c rest hReturn hFeed hNone ih =>
      rw [lines_eq_nil_iff.1 hNone] at h
      exact absurd (Option.some.inj (h.resolve_left (List.cons_ne_nil _ _))) hFeed
  | case5 c rest hReturn hFeed line others hLines ih =>
      have hMore : ∀ behind, c = '\r' → rest ++ more = '\n' :: behind → False := by
        intro behind hChar hSplit
        cases rest with
        | nil => cases hLines
        | cons d rest =>
            obtain ⟨rfl, -⟩ := List.cons.inj hSplit
            exact hReturn rest hChar rfl
      rw [List.cons_append, lines, lines, ih h.tail, hLines]
      · rfl
      · exact hReturn
      · exact hFeed
      · exact hMore
      · exact hFeed

/-- A line without a carriage return at its end. -/
def withoutReturn (line : List Char) : List Char :=
  if line.getLast? = some '\r' then line.dropLast else line

/-- Lines, each with a line feed behind it. -/
def ended (parts : List (List Char)) : List Char :=
  parts.flatMap (· ++ ['\n'])

theorem withoutReturn_cons_cons (c d : Char) (rest : List Char) :
    withoutReturn (c :: d :: rest) = c :: withoutReturn (d :: rest) := by
  rw [withoutReturn, withoutReturn, List.getLast?_cons_cons, List.dropLast_cons_cons]
  split <;> rfl

theorem withoutReturn_cases (line : List Char) :
    withoutReturn line = line ∨ line = withoutReturn line ++ ['\r'] := by
  by_cases hReturn : line.getLast? = some '\r'
  · rw [withoutReturn, if_pos hReturn]
    exact .inr (List.dropLast_append_getLast? _ hReturn).symm
  · exact .inl (if_neg hReturn)

theorem lines_line {line : List Char} (h : '\n' ∉ line) :
    lines (line ++ ['\n']) = [withoutReturn line] := by
  induction line with
  | nil => rfl
  | cons c rest ih =>
      rw [List.mem_cons, not_or] at h
      have hFeed : c ≠ '\n' := Ne.symm h.1
      cases rest with
      | nil =>
          by_cases hReturn : c = '\r'
          · rw [hReturn]
            rfl
          · simp [lines, withoutReturn, hReturn]
      | cons d rest =>
          have hNext : ∀ behind, c = '\r' → d :: rest ++ ['\n'] = '\n' :: behind → False := by
            rintro behind - hSplit
            obtain ⟨rfl, -⟩ := List.cons.inj hSplit
            exact h.2 List.mem_cons_self
          rw [List.cons_append, lines, ih h.2, withoutReturn_cons_cons]
          · exact hNext
          · exact hFeed

theorem wholeLines_append (line : List Char) : WholeLines (line ++ ['\n']) :=
  .inr List.getLast?_concat

theorem lines_ended {parts : List (List Char)} (h : ∀ line ∈ parts, '\n' ∉ line) :
    lines (ended parts) = parts.map withoutReturn := by
  induction parts with
  | nil => rfl
  | cons line rest ih =>
      rw [List.forall_mem_cons] at h
      rw [ended, List.flatMap_cons, lines_append (wholeLines_append line), lines_line h.1,
        ← ended, ih h.2]
      rfl

theorem wholeLines_ended (parts : List (List Char)) : WholeLines (ended parts) := by
  induction parts using List.reverseRecOn with
  | nil => exact .inl rfl
  | append_singleton rest line ih =>
      rw [ended, List.flatMap_append, List.flatMap_singleton, ← List.append_assoc]
      exact wholeLines_append _

theorem trimRight_withoutReturn (line : List Char) :
    trimRight (withoutReturn line) = trimRight line := by
  rcases withoutReturn_cases line with hSame | hReturn
  · rw [hSame]
  · calc trimRight (withoutReturn line) = trimRight (withoutReturn line ++ ['\r']) :=
          (List.rdropWhile_concat_pos isSpace _ '\r' (by decide)).symm
      _ = trimRight line := by rw [← hReturn]

end Text

namespace Markdown

/-- The blocks that are complete behind some lines, and the one that is open then. -/
def Open.run (opened : Open) : List Line → List Block × Open
  | [] => ([], opened)
  | line :: rest =>
    let next := (opened.step line rest).2.run rest
    ((opened.step line rest).1 ++ next.1, next.2)

theorem listResumes_append {lines after : List Line} (h : listResumes after = false) :
    listResumes (lines ++ after) = listResumes lines := by
  rw [listResumes, List.find?_append, listResumes]
  cases lines.find? fun line => !Text.isBlank line with
  | some line => rfl
  | none => exact h

theorem listResumes_of_fence? {line : Line} {fence : Fence} (h : fence? line = some fence)
    (rest : List Line) : listResumes (line :: rest) = false := by
  rw [listResumes_of_not_blank (isBlank_of_fence? h), isOuterBullet, bullet?_of_fence? h]
  rfl

/-- Behind a line matters only whether a list goes on. -/
theorem Open.step_append (opened : Open) (line : Line) {rest after : List Line}
    (h : listResumes after = false) :
    opened.step line (rest ++ after) = opened.step line rest := by
  cases opened with
  | nothing => rfl
  | code fence lines => rfl
  | list items => simp only [Open.step, listResumes_append h]
  | paragraph lines => rfl

/-- Lines with others behind them that start no list. -/
theorem blocksFrom_append (opened : Open) {lines after : List Line}
    (h : listResumes after = false) :
    blocksFrom opened (lines ++ after) =
      (opened.run lines).1 ++ blocksFrom (opened.run lines).2 after := by
  induction lines generalizing opened with
  | nil => rfl
  | cons line rest ih =>
      rw [List.cons_append, blocksFrom_cons, Open.step_append opened line h, ih,
        ← List.append_assoc]
      rfl

theorem blocksFrom_eq_run (opened : Open) (lines : List Line) :
    blocksFrom opened lines = (opened.run lines).1 ++ (opened.run lines).2.close := by
  have hEnd := @blocksFrom_append opened lines [] rfl
  rwa [List.append_nil] at hEnd

/-- The block at the end of some lines is over where one that starts anew follows them. -/
theorem blocksFrom_append_of_closes (opened : Open) {lines after : List Line} {blocks : List Block}
    (hResumes : listResumes after = false)
    (hCloses : blocksFrom (opened.run lines).2 after = (opened.run lines).2.close ++ blocks) :
    blocksFrom opened (lines ++ after) = blocksFrom opened lines ++ blocks := by
  rw [blocksFrom_append opened hResumes, hCloses, blocksFrom_eq_run, List.append_assoc]

/-- A blank line with no list behind it closes a block. -/
theorem blocksFrom_boundary {opened : Open} (hCode : opened.fence = none) {line : Line}
    (hBlank : Text.isBlank line) {rest : List Line} (hRest : listResumes rest = false) :
    blocksFrom opened (line :: rest) = opened.close ++ blocksFrom .nothing rest := by
  rcases Open.step_blank hCode hBlank rest with hClose | ⟨items, -, hResumes, -⟩
  · exact blocksFrom_of_step hClose
  · rw [hRest] at hResumes
    cases hResumes

/-- A mark at the start of a line does not reach to a carriage return behind it. -/
theorem Fence.mark_isPrefix_concat {fence : Fence} {line : Line}
    (h : fence.mark <+: line ++ ['\r']) : fence.mark <+: line := by
  rcases List.prefix_concat_iff.1 h with hWhole | hPrefix
  · have hNone : '\r' ∉ fence.mark := by cases fence <;> decide
    exact absurd (hWhole ▸ List.mem_concat_self) hNone
  · exact hPrefix

/-- A carriage return at the end of a line belongs to no mark. -/
theorem Fence.starts_withoutReturn (fence : Fence) (line : Line) :
    fence.starts (Text.withoutReturn line) = fence.starts line := by
  have hReturn (own : Line) : fence.starts (own ++ ['\r']) = fence.starts own := by
    rw [starts, starts, Text.trimLeft, Text.trimLeft, List.dropWhile_append]
    cases hOwn : own.dropWhile Text.isSpace with
    | nil => rfl
    | cons c rest =>
        rw [Bool.eq_iff_iff, List.isPrefixOf_iff_prefix, List.isPrefixOf_iff_prefix]
        exact ⟨mark_isPrefix_concat, fun h => h.trans (List.prefix_append _ _)⟩
  rcases Text.withoutReturn_cases line with hSame | hMore
  · rw [hSame]
  · rw [← hReturn, ← hMore]

/-- A line that starts with a mark opens fenced code of that kind. -/
theorem fence?_of_mark {fence : Fence} {line : Line} (h : fence.mark <+: line) :
    fence? line = some fence ∧ isIndented line = false := by
  obtain ⟨more, rfl⟩ := h
  cases fence with
  | ticks => exact ⟨rfl, rfl⟩
  | tildes => exact ⟨rfl, rfl⟩

theorem mark_isPrefix_withoutReturn {fence : Fence} {line : Line} (h : fence.mark <+: line) :
    fence.mark <+: Text.withoutReturn line := by
  rcases Text.withoutReturn_cases line with hSame | hMore
  · rwa [hSame]
  · rw [hMore] at h
    exact Fence.mark_isPrefix_concat h

/-- Fenced code in whole lines is one block, whatever is open in front of it. -/
theorem blocksFrom_fence {opened : Open} (hCode : opened.fence = none) {fence : Fence}
    {opening : Line} {body : List Line} (hOpening : fence.mark <+: opening)
    (hBody : ∀ line ∈ body, fence.starts line = false) (rest : List Line) :
    blocksFrom opened (opening :: (body ++ [fence.mark] ++ rest)) =
      opened.close ++
        .code (String.ofList (['\n'].intercalate
          ((opening :: body ++ [fence.mark]).map Text.trimRight))) :: blocksFrom .nothing rest := by
  obtain ⟨hFence, hOuter⟩ := fence?_of_mark hOpening
  have hHides : opened.hides opening = false := by cases opened <;> simp [Open.hides, hOuter]
  have hCloses : fence.starts fence.mark := by cases fence <;> decide
  rw [blocksFrom_of_step (Open.step_opening hCode hFence hHides _), blocksFrom_code hBody hCloses,
    joinLines]
  simp

/-- The mark of the fenced code that is still open at the end of a text. -/
def openFence (text : String) : Option Fence :=
  (Open.run .nothing (Text.lines text.toList)).2.fence

/-- What is behind the empty line is not read as part of a list in front of it. -/
theorem blocks_append_blank {first second : String} (hWhole : Text.WholeLines first.toList)
    (hCode : openFence first = none) (hSecond : listResumes (Text.lines second.toList) = false) :
    blocks (first ++ "\n" ++ second) = blocks first ++ blocks second := by
  have hLines : Text.lines (first ++ "\n" ++ second).toList =
      Text.lines first.toList ++ [] :: Text.lines second.toList := by
    rw [String.append_assoc, String.toList_append, Text.lines_append hWhole, String.toList_append]
    rfl
  rw [blocks, hLines]
  exact blocksFrom_append_of_closes .nothing ((listResumes_blank rfl _).trans hSecond)
    (blocksFrom_boundary hCode rfl hSecond)

/-- The lines of fenced code as they are read: those of the code may lose a carriage return. -/
theorem lines_ended_fence (fence : Fence) {opening : Line} {body : List Line}
    (h : ∀ line ∈ opening :: body, '\n' ∉ line) :
    Text.lines (Text.ended (opening :: body ++ [fence.mark])) =
      Text.withoutReturn opening :: (body.map Text.withoutReturn ++ [fence.mark]) := by
  have hMark : Text.withoutReturn fence.mark = fence.mark ∧ '\n' ∉ fence.mark := by
    cases fence <;> decide
  have hParts : ∀ line ∈ opening :: body ++ [fence.mark], '\n' ∉ line := by
    intro line hMem
    rcases List.mem_append.1 hMem with hFront | hLast
    · exact h line hFront
    · exact List.mem_singleton.1 hLast ▸ hMark.2
  rw [Text.lines_ended hParts]
  simp [hMark.1]

theorem blocks_append_fence {first : String} (second : String)
    (hWhole : Text.WholeLines first.toList) (hCode : openFence first = none) {fence : Fence}
    {opening : Line} {body : List Line} (hOpening : fence.mark <+: opening)
    (hLine : ∀ line ∈ opening :: body, '\n' ∉ line)
    (hBody : ∀ line ∈ body, fence.starts line = false) :
    blocks (first ++ String.ofList (Text.ended (opening :: body ++ [fence.mark])) ++ second) =
      blocks first ++
        [.code (String.ofList (['\n'].intercalate
          ((opening :: body ++ [fence.mark]).map Text.trimRight)))] ++ blocks second := by
  have hFence := mark_isPrefix_withoutReturn hOpening
  have hInside : ∀ line ∈ body.map Text.withoutReturn, fence.starts line = false := by
    intro line hMem
    obtain ⟨own, hOwn, rfl⟩ := List.mem_map.1 hMem
    rw [Fence.starts_withoutReturn]
    exact hBody own hOwn
  have hLines : Text.lines (first ++ String.ofList (Text.ended (opening :: body ++ [fence.mark])) ++
      second).toList = Text.lines first.toList ++ Text.withoutReturn opening ::
        (body.map Text.withoutReturn ++ [fence.mark] ++ Text.lines second.toList) := by
    rw [String.append_assoc, String.toList_append, Text.lines_append hWhole,
      String.toList_append, String.toList_ofList, Text.lines_append (Text.wholeLines_ended _),
      lines_ended_fence fence hLine, List.cons_append]
  have hTrim : (Text.withoutReturn opening :: body.map Text.withoutReturn ++ [fence.mark]).map
      Text.trimRight = (opening :: body ++ [fence.mark]).map Text.trimRight := by
    simp [Text.trimRight_withoutReturn]
  rw [blocks, hLines, ← hTrim, List.append_assoc (blocks first)]
  exact blocksFrom_append_of_closes .nothing
    (listResumes_of_fence? (fence?_of_mark hFence).1 _)
    (blocksFrom_fence hCode hFence hInside _)

/-- **Reading is compositional where a block ends.** Behind a text of whole lines that leaves no
fenced code open, an empty line closes what is open, so that another text is read on its own if it
starts with no list, and so do the lines of fenced code, in which nothing else is read. -/
theorem blocks_append (first second : String) (hWhole : Text.WholeLines first.toList)
    (hCode : openFence first = none) :
    ((∀ line ∈ (Text.lines second.toList).find? (!Text.isBlank ·), isOuterBullet line = false) →
      blocks (first ++ "\n" ++ second) = blocks first ++ blocks second) ∧
    ∀ (fence : Fence) (opening : Line) (body : List Line), fence.mark <+: opening →
      (∀ line ∈ opening :: body, '\n' ∉ line) → (∀ line ∈ body, fence.starts line = false) →
      blocks (first ++ String.ofList (Text.ended (opening :: body ++ [fence.mark])) ++ second) =
        blocks first ++
          [.code (String.ofList (['\n'].intercalate
            ((opening :: body ++ [fence.mark]).map Text.trimRight)))] ++ blocks second := by
  refine ⟨fun hSecond => blocks_append_blank hWhole hCode ?_,
    fun fence opening body hOpening hLine hBody =>
      blocks_append_fence second hWhole hCode hOpening hLine hBody⟩
  unfold listResumes
  split
  · exact hSecond _ ‹_›
  · rfl

/-- A list, a fence whose code looks like blocks of all kinds, and a further list behind it. -/
theorem blocks_append_list :
    Text.WholeLines "- a\n\n".toList ∧ openFence "- a\n\n" = none ∧
      blocks ("- a\n\n" ++ "\n" ++ "  b\n- c\n") = blocks "- a\n\n" ++ blocks "  b\n- c\n" ∧
      blocks ("- a\n\n" ++ String.ofList (Text.ended
          ["~~~ md".toList, "# b".toList, [], "- ![](b.md)\r".toList, "~~~".toList]) ++ "- c\n") =
        blocks "- a\n\n" ++ [.code "~~~ md\n# b\n\n- ![](b.md)\n~~~"] ++ blocks "- c\n" := by
  have hWhole : Text.WholeLines "- a\n\n".toList := by decide
  have hCode : openFence "- a\n\n" = none := by decide +kernel
  refine ⟨hWhole, hCode, (blocks_append _ _ hWhole hCode).1 (by decide +kernel), ?_⟩
  exact (blocks_append _ _ hWhole hCode).2 .tildes "~~~ md".toList
    ["# b".toList, [], "- ![](b.md)\r".toList] (by decide) (by decide) (by decide)

end Markdown

end Deckwright
