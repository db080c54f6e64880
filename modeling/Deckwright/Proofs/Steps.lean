import Deckwright.Markdown.Block
import Deckwright.Proofs.Lines

/-!
# One line of a document

The reader of blocks takes one line after the other, and what it does with a line depends on what is
open and on what kind of line it is. Blank lines, list items, headings and marks of fenced code
exclude each other, and with that there are few things that a line can do.

* `Open.step_cases`: where no fenced code is open, a line goes to what is open, or closes it, or
  starts something new.
* `Open.fence_step`: which mark is open behind a line.
* `Open.step_list`: what a line does to a list, for all lists at once.

What is said of the reader elsewhere is by cases on these, and not on the lines.
-/

namespace Deckwright.Markdown

/-! ## Kinds of lines -/

/-- A line that opens fenced code starts with one of the two marks. -/
theorem trimLeft_of_fence? {line : Line} {fence : Fence} (h : fence? line = some fence) :
    ∃ c rest, Text.trimLeft line = c :: rest ∧ (c = '`' ∨ c = '~') := by
  have hMarks : Fence.ticks.mark = ['`', '`', '`'] ∧ Fence.tildes.mark = ['~', '~', '~'] := by
    decide
  unfold fence? at h
  split at h
  · rename_i hTicks
    obtain ⟨rest, hRest⟩ := List.isPrefixOf_iff_prefix.1 hTicks
    exact ⟨'`', '`' :: '`' :: rest, by rw [← hRest, hMarks.1]; rfl, .inl rfl⟩
  · split at h
    · rename_i hTildes
      obtain ⟨rest, hRest⟩ := List.isPrefixOf_iff_prefix.1 hTildes
      exact ⟨'~', '~' :: '~' :: rest, by rw [← hRest, hMarks.2]; rfl, .inr rfl⟩
    · cases h

/-- Such a line is not blank. -/
theorem isBlank_of_fence? {line : Line} {fence : Fence} (h : fence? line = some fence) :
    Text.isBlank line = false := by
  obtain ⟨c, rest, hTrim, -⟩ := trimLeft_of_fence? h
  by_contra hBlank
  rw [Bool.not_eq_false] at hBlank
  rw [Text.trimLeft_of_isBlank hBlank] at hTrim
  cases hTrim

/-- A line that closes fenced code could open it as well. -/
theorem isBlank_of_starts {line : Line} {fence : Fence} (h : fence.starts line) :
    Text.isBlank line = false := by
  by_cases hTicks : Fence.ticks.starts line
  · have hFence : fence? line = some .ticks := if_pos hTicks
    exact isBlank_of_fence? hFence
  · have hFence : fence? line = some .tildes := by
      cases fence with
      | ticks => exact absurd h hTicks
      | tildes => rw [fence?, if_neg hTicks, if_pos h]
    exact isBlank_of_fence? hFence

/-- A line that opens fenced code is no list item. -/
theorem bullet?_of_fence? {line : Line} {fence : Fence} (h : fence? line = some fence) :
    bullet? line = none := by
  obtain ⟨c, rest, hTrim, rfl | rfl⟩ := trimLeft_of_fence? h
  · simp [bullet?, hTrim]
  · simp [bullet?, hTrim]

theorem isBlank_of_bullet? {line item : Line} (h : bullet? line = some item) :
    Text.isBlank line = false := by
  by_contra hBlank
  rw [Bool.not_eq_false] at hBlank
  rw [bullet?, Text.trimLeft_of_isBlank hBlank] at h
  cases h

theorem fence?_of_bullet? {line item : Line} (h : bullet? line = some item) :
    fence? line = none := by
  cases hFence : fence? line with
  | none => rfl
  | some fence =>
      rw [bullet?_of_fence? hFence] at h
      cases h

theorem heading?_of_bullet? {line item : Line} (h : bullet? line = some item) :
    heading? line = none := by
  unfold bullet? at h
  split at h
  · rename_i c rest hTrim
    have hMark : c ≠ '#' := by
      rintro rfl
      simp at h
    simp [heading?, hTrim, hMark]
  · cases h

theorem start_of_bullet? {line item : Line} (h : bullet? line = some item) :
    start line = ([], .list [item]) := by
  rw [start, fence?_of_bullet? h, heading?_of_bullet? h, h]

theorem exists_item_of_isOuterBullet {line : Line} (h : isOuterBullet line) :
    ∃ item, bullet? line = some item ∧ isIndented line = false := by
  rw [isOuterBullet, Bool.and_eq_true, Option.isSome_iff_exists, Bool.not_eq_true'] at h
  obtain ⟨⟨item, hItem⟩, hOuter⟩ := h
  exact ⟨item, hItem, hOuter⟩

theorem fence?_of_isBlank {line : Line} (h : Text.isBlank line) : fence? line = none := by
  cases hFence : fence? line with
  | none => rfl
  | some fence =>
      rw [isBlank_of_fence? hFence] at h
      cases h

theorem listResumes_blank {line : Line} (h : Text.isBlank line) (rest : List Line) :
    listResumes (line :: rest) = listResumes rest := by
  rw [listResumes, List.find?_cons_of_neg (by simp [h]), listResumes]

theorem listResumes_of_not_blank {line : Line} (h : Text.isBlank line = false)
    (rest : List Line) : listResumes (line :: rest) = isOuterBullet line := by
  rw [listResumes, List.find?_cons_of_pos (by simp [h])]

/-! ## What a line does -/

/-- The mark that closes what is open, if that is fenced code. -/
def Open.fence : Open → Option Fence
  | .code fence _ => some fence
  | _ => none

/-- Whether a line that could open fenced code is text of an item instead, by its indentation. -/
def Open.hides (opened : Open) (line : Line) : Bool :=
  match opened with
  | .list _ => isIndented line && (fence? line).isSome
  | _ => false

theorem Open.step_list_blank {line : Line} (h : Text.isBlank line) {rest : List Line}
    (hResumes : listResumes rest) (items : List Line) :
    (Open.list items).step line rest = ([], .list items) := by
  simp [step, h, hResumes]

theorem Open.step_list_bullet {line item : Line} (h : bullet? line = some item)
    (hOuter : isIndented line = false) (items rest : List Line) :
    (Open.list items).step line rest = ([], .list (item :: items)) := by
  simp [step, isBlank_of_bullet? h, hOuter, h]

theorem Open.step_nothing_bullet {line item : Line} (h : bullet? line = some item)
    (rest : List Line) : Open.nothing.step line rest = ([], .list [item]) := by
  simp [step, isBlank_of_bullet? h, start_of_bullet? h]

theorem fence_start (line : Line) : (start line).2.fence = fence? line := by
  unfold start
  split
  · rename_i hFence
    exact hFence.symm
  · rename_i hFence
    rw [hFence]
    split
    · rfl
    · split <;> rfl

/-- A blank line closes what is open, unless that is a list that goes on. -/
theorem Open.step_blank {opened : Open} (hCode : opened.fence = none) {line : Line}
    (hBlank : Text.isBlank line) (rest : List Line) :
    opened.step line rest = (opened.close, .nothing) ∨
      ∃ items, opened = .list items ∧ listResumes rest ∧ opened.step line rest = ([], opened) := by
  cases opened with
  | nothing => exact .inl (if_pos hBlank)
  | code fence lines => cases hCode
  | list items =>
      by_cases hResumes : listResumes rest
      · exact .inr ⟨items, rfl, hResumes, step_list_blank hBlank hResumes items⟩
      · exact .inl (by simp [step, hBlank, hResumes])
  | paragraph lines => exact .inl (if_pos hBlank)

/-- A line where no fenced code is open goes to what is open, and is no mark there or a hidden one,
or it is blank and closes that, or it starts something new. -/
theorem Open.step_cases {opened : Open} (hCode : opened.fence = none) (line : Line)
    (rest : List Line) :
    (∃ next, opened.step line rest = ([], next) ∧ next.fence = none ∧
        (fence? line = none ∨ opened.hides line)) ∨
      (Text.isBlank line ∧ opened.step line rest = (opened.close, .nothing)) ∨
        (opened.hides line = false ∧ opened.step line rest = opened.restart line) := by
  cases hBlank : Text.isBlank line with
  | true =>
      rcases step_blank hCode hBlank rest with hClose | ⟨items, rfl, -, hKeep⟩
      · exact .inr (.inl ⟨rfl, hClose⟩)
      · exact .inl ⟨_, hKeep, hCode, .inl (fence?_of_isBlank hBlank)⟩
  | false =>
      cases opened with
      | nothing => exact .inr (.inr ⟨rfl, by simp [step, hBlank, restart, close]⟩)
      | code fence lines => cases hCode
      | list items =>
          cases hIndented : isIndented line with
          | true =>
              refine .inl ⟨_, by simp [step, hBlank, hIndented]; rfl, rfl, ?_⟩
              cases hFence : fence? line with
              | none => exact .inl rfl
              | some fence => exact .inr (by simp [hides, hIndented, hFence])
          | false =>
              cases hBullet : bullet? line with
              | some item =>
                  exact .inl ⟨_, step_list_bullet hBullet hIndented items rest, rfl,
                    .inl (fence?_of_bullet? hBullet)⟩
              | none =>
                  by_cases hOther : (heading? line).isSome || (fence? line).isSome
                  · exact .inr (.inr ⟨by simp [hides, hIndented],
                      by simp [step, hBlank, hIndented, hBullet, hOther]⟩)
                  · have hFence : fence? line = none := by
                      cases hFence : fence? line with
                      | none => rfl
                      | some fence => simp [hFence] at hOther
                    exact .inl ⟨_, by simp [step, hBlank, hIndented, hBullet, hOther]; rfl, rfl,
                      .inl hFence⟩
      | paragraph lines =>
          by_cases hOther : (heading? line).isSome || (fence? line).isSome || isOuterBullet line
          · exact .inr (.inr ⟨rfl, by simp [step, hBlank, hOther]⟩)
          · have hFence : fence? line = none := by
              cases hFence : fence? line with
              | none => rfl
              | some fence => simp [hFence] at hOther
            exact .inl ⟨_, by simp [step, hBlank, hOther]; rfl, rfl, .inl hFence⟩

/-- A line that opens fenced code closes what is open. -/
theorem Open.step_opening {opened : Open} (hCode : opened.fence = none) {line : Line}
    {fence : Fence} (hFence : fence? line = some fence) (hHides : opened.hides line = false)
    (rest : List Line) :
    opened.step line rest = (opened.close, .code fence [Text.trimRight line]) := by
  rcases step_cases hCode line rest with ⟨next, -, -, hMark⟩ | ⟨hBlank, -⟩ | ⟨-, hStep⟩
  · rw [hFence, hHides] at hMark
    simp at hMark
  · rw [isBlank_of_fence? hFence] at hBlank
    cases hBlank
  · simp [hStep, restart, start, hFence]

/-- What a line does to the mark that is open. -/
theorem Open.fence_step (opened : Open) (line : Line) (rest : List Line) :
    (opened.step line rest).2.fence =
      match opened.fence with
      | some fence => if fence.starts line then none else some fence
      | none => if opened.hides line then none else fence? line := by
  cases hFence : opened.fence with
  | some fence =>
      cases opened with
      | code own lines =>
          obtain rfl : own = fence := Option.some.inj hFence
          by_cases hCloses : own.starts line
          · simp only [step, hCloses, if_true]
            rfl
          · simp only [step, hCloses, if_false, Bool.false_eq_true]
            rfl
      | _ => cases hFence
  | none =>
      rcases step_cases hFence line rest with ⟨next, hStep, hNext, hMark⟩ | ⟨hBlank, hStep⟩ |
        ⟨hHides, hStep⟩
      · rw [hStep, hNext]
        rcases hMark with hNone | hHides
        · simp only [hNone, ite_self]
        · simp only [hHides, if_true]
      · rw [hStep]
        simp only [fence?_of_isBlank hBlank, ite_self]
        rfl
      · rw [hStep]
        simp only [hHides, if_false, Bool.false_eq_true]
        exact fence_start line

theorem Open.step_of_not_blank (opened : Open) {line : Line} (h : Text.isBlank line = false)
    (rest more : List Line) : opened.step line rest = opened.step line more := by
  cases opened <;> simp [step, h]

/-- A line adds to the items of a list, whatever they are, or ends the list. -/
theorem Open.step_list (line : Line) (rest : List Line) :
    (∃ grow : List Line → List Line,
      (∀ items, (Open.list items).step line rest = ([], .list (grow items))) ∧
        ∀ newer older, newer ≠ [] → grow newer ≠ [] ∧ grow (newer ++ older) = grow newer ++ older) ∨
      ∃ blocks next, ∀ items,
        (Open.list items).step line rest = ((Open.list items).close ++ blocks, next) := by
  have hContinue (text : Line) (newer older : List Line) (hSome : newer ≠ []) :
      continueItem text newer ≠ [] ∧
        continueItem text (newer ++ older) = continueItem text newer ++ older := by
    cases newer with
    | nil => exact absurd rfl hSome
    | cons item newer => exact ⟨List.cons_ne_nil _ _, rfl⟩
  by_cases hBlank : Text.isBlank line
  · by_cases hResumes : listResumes rest
    · exact .inl ⟨id, fun items => by simp [step, hBlank, hResumes], fun _ _ h => ⟨h, rfl⟩⟩
    · exact .inr ⟨[], .nothing, fun items => by simp [step, hBlank, hResumes]⟩
  · by_cases hIndented : isIndented line
    · exact .inl ⟨continueItem (Text.trimRight line),
        fun items => by simp [step, hBlank, hIndented], hContinue _⟩
    · cases hBullet : bullet? line with
      | some item =>
          exact .inl ⟨(item :: ·), fun items => by simp [step, hBlank, hIndented, hBullet],
            fun _ _ _ => ⟨List.cons_ne_nil _ _, rfl⟩⟩
      | none =>
          by_cases hOther : (heading? line).isSome || (fence? line).isSome
          · refine .inr ⟨(start line).1, (start line).2, fun items => ?_⟩
            simp only [step, hBlank, hIndented, hBullet, hOther, if_true, Bool.false_eq_true,
              if_false]
            rfl
          · exact .inl ⟨continueItem (Text.trim line),
              fun items => by simp [step, hBlank, hIndented, hBullet, hOther], hContinue _⟩

/-! ## The blocks of the lines behind it -/

theorem blocksFrom_of_step {opened next : Open} {line : Line} {rest : List Line}
    {blocks : List Block} (h : opened.step line rest = (blocks, next)) :
    blocksFrom opened (line :: rest) = blocks ++ blocksFrom next rest := by
  rw [blocksFrom, h]

theorem blocksFrom_cons (opened : Open) (line : Line) (rest : List Line) :
    blocksFrom opened (line :: rest) =
      (opened.step line rest).1 ++ blocksFrom (opened.step line rest).2 rest :=
  blocksFrom_of_step rfl

end Deckwright.Markdown
