import Deckwright.Proofs.Boundaries

/-!
# Leaves read back as items

In markdown layout leaves are written as one list, with the further lines of a leaf under its first
one. The writer leaves a line alone that has white space in front, and the reader takes a line for
indented that has two spaces or a tab there. A line with a single space is neither: if it looks like
an item, a heading or a mark of fenced code, then it leaves its item (`escapes`).

Which lines there are is not quite what was written, for a carriage return at the end of a line is
lost where a line follows (`ItemsRead`). The reader goes through them with a list of items that
grows (`grow`), so reading is a fold over the lines. Every line adds one line to the items, and no
other line than one that starts an item makes them more. That is why nothing can make up for an item
too many (`length_foldl_grow`, `height_foldl_grow`).

Main result: `blocks_bullets_iff`, when leaves are read as one list of as many items.
-/

namespace Deckwright

/-! ## Lines of joined parts -/

namespace Text

theorem lines_of_not_mem {cs : List Char} (hSome : cs ≠ []) (h : '\n' ∉ cs) : lines cs = [cs] := by
  induction cs with
  | nil => exact absurd rfl hSome
  | cons c rest ih =>
      rw [List.mem_cons, not_or] at h
      have hFeed : c ≠ '\n' := Ne.symm h.1
      cases rest with
      | nil => simp [lines]
      | cons d rest =>
          rw [lines, ih (List.cons_ne_nil _ _) h.2]
          · rintro behind - hRest
            exact h.2 (hRest ▸ List.mem_cons_self)
          · exact hFeed

theorem trim_concat {c : Char} (h : isSpace c) (cs : List Char) : trim (cs ++ [c]) = trim cs := by
  have hLast : [c].dropWhile isSpace = [] := by simp [h]
  rw [trim, trim, trimLeft, trimLeft, List.dropWhile_append, hLast]
  split
  · rename_i hBlank
    rw [List.isEmpty_iff.1 hBlank]
  · exact List.rdropWhile_concat_pos isSpace _ c h

theorem trim_withoutReturn (line : List Char) : trim (withoutReturn line) = trim line := by
  rcases withoutReturn_cases line with hSame | hReturn
  · rw [hSame]
  · rw [hReturn, trim_concat (by decide), ← hReturn]

theorem isBlank_withoutReturn (line : List Char) : isBlank (withoutReturn line) = isBlank line := by
  rw [← isBlank_trimRight, trimRight_withoutReturn, isBlank_trimRight]

/-- The first line of a text that starts with a character other than white space. -/
theorem exists_firstLine_cons {cs rest : List Char} {c : Char} (hText : cs = c :: rest)
    (h : isSpace c = false) : ∃ more, firstLine cs = c :: more := by
  have hReturn : c ≠ '\r' := by
    rintro rfl
    exact absurd h (by decide)
  have hFeed : c ≠ '\n' := by
    rintro rfl
    exact absurd h (by decide)
  rw [hText, firstLine, lines]
  · cases lines rest with
    | nil => exact ⟨[], rfl⟩
    | cons line others => exact ⟨line, rfl⟩
  · exact fun _ hChar => absurd hChar hReturn
  · exact hFeed

end Text

namespace Markdown

/-- A part of a text is read as a line: a carriage return at its end may be lost. -/
def ReadAs (part line : Line) : Prop :=
  line = part ∨ line = Text.withoutReturn part

theorem readAs_lines {parts : List Line} (hSome : parts ≠ [])
    (h : ∀ part ∈ parts, part ≠ [] ∧ '\n' ∉ part) :
    List.Forall₂ ReadAs parts (Text.lines (['\n'].intercalate parts)) := by
  induction parts with
  | nil => exact absurd rfl hSome
  | cons part rest ih =>
      obtain ⟨⟨hPart, hFeed⟩, hRest⟩ := List.forall_mem_cons.1 h
      cases rest with
      | nil =>
          rw [List.intercalate_singleton, Text.lines_of_not_mem hPart hFeed]
          exact .cons (.inl rfl) .nil
      | cons next others =>
          rw [List.intercalate_cons_of_ne_nil (List.cons_ne_nil _ _),
            Text.lines_append (Text.wholeLines_append part), Text.lines_line hFeed]
          exact .cons (.inr rfl) (ih (List.cons_ne_nil _ _) hRest)

theorem isIndented_iff {line : Line} :
    isIndented line ↔ (∃ rest, line = ' ' :: ' ' :: rest) ∨ ∃ rest, line = '\t' :: rest := by
  unfold isIndented
  split
  · simp
  · simp
  · rename_i hSpaces hTab
    simp only [Bool.false_eq_true, false_iff, not_or, not_exists]
    exact ⟨hSpaces, hTab⟩

namespace ReadAs

variable {part line : Line}

theorem trim (h : ReadAs part line) : Text.trim line = Text.trim part := by
  rcases h with rfl | rfl
  · rfl
  · exact Text.trim_withoutReturn part

theorem trimRight (h : ReadAs part line) : Text.trimRight line = Text.trimRight part := by
  rcases h with rfl | rfl
  · rfl
  · exact Text.trimRight_withoutReturn part

theorem isBlank (h : ReadAs part line) : Text.isBlank line = Text.isBlank part := by
  rcases h with rfl | rfl
  · rfl
  · exact Text.isBlank_withoutReturn part

theorem isIndented (h : ReadAs part line) : isIndented line = isIndented part := by
  have hReturn (own : Line) : Markdown.isIndented (own ++ ['\r']) = Markdown.isIndented own := by
    rw [Bool.eq_iff_iff, isIndented_iff, isIndented_iff]
    cases own with
    | nil => simp
    | cons c own =>
        cases own with
        | nil => simp
        | cons d own => simp
  rcases h with rfl | rfl
  · rfl
  · rcases Text.withoutReturn_cases part with hSame | hMore
    · rw [hSame]
    · rw [← hReturn, ← hMore]

/-- A carriage return does not matter for the start of a line with two characters in front of it. -/
theorem exists_cons_cons {c d : Char} {rest : Line} (h : ReadAs (c :: d :: rest) line) :
    ∃ more, line = c :: more ∧ ReadAs (d :: rest) more := by
  rcases h with rfl | rfl
  · exact ⟨d :: rest, rfl, .inl rfl⟩
  · exact ⟨_, Text.withoutReturn_cons_cons c d rest, .inr rfl⟩

end ReadAs

/-! ## Items that grow -/

/-- What is left of a line that is added to an item. -/
def shown (line : Line) : Line :=
  if isIndented line then Text.trimRight line else Text.trim line

/-- A line that is not indented and closes a list. -/
def closesList (line : Line) : Bool :=
  !isIndented line && ((heading? line).isSome || (fence? line).isSome)

/-- The items of a list, the latest first, with a line added. -/
def grow (items : List Line) (line : Line) : List Line :=
  match isIndented line, bullet? line with
  | false, some item => item :: items
  | _, _ => continueItem (shown line) items

theorem grow_bullet {line item : Line} (hItem : bullet? line = some item)
    (hOuter : isIndented line = false) (items : List Line) : grow items line = item :: items := by
  simp only [grow, hItem, hOuter]

theorem grow_of_not_outer {line : Line} (h : isOuterBullet line = false) (items : List Line) :
    grow items line = continueItem (shown line) items := by
  unfold grow
  split
  · rename_i hOuter hItem
    simp [isOuterBullet, hOuter, hItem] at h
  · rfl

/-- A line that does not close the list makes its items grow. -/
theorem step_list_grow {line : Line} (hBlank : Text.isBlank line = false)
    (hCloses : closesList line = false) (items rest : List Line) :
    (Open.list items).step line rest = ([], .list (grow items line)) := by
  cases hIndented : isIndented line with
  | true => simp [Open.step, hBlank, hIndented, grow, shown]
  | false =>
      cases hBullet : bullet? line with
      | some item =>
          rw [Open.step_list_bullet hBullet hIndented, grow_bullet hBullet hIndented]
      | none =>
          rw [closesList, hIndented, Bool.not_false, Bool.true_and] at hCloses
          simp [Open.step, hBlank, hIndented, hBullet, hCloses, grow, shown]

theorem blocksFrom_list_grow {lines : List Line}
    (h : ∀ line ∈ lines, Text.isBlank line = false ∧ closesList line = false)
    (items : List Line) :
    blocksFrom (.list items) lines = (Open.list (lines.foldl grow items)).close := by
  induction lines generalizing items with
  | nil => rfl
  | cons line rest ih =>
      obtain ⟨⟨hBlank, hCloses⟩, hRest⟩ := List.forall_mem_cons.1 h
      rw [blocksFrom_of_step (step_list_grow hBlank hCloses items rest), List.nil_append, ih hRest]
      rfl

/-- A line that closes the list starts something new. -/
theorem step_list_closes {line : Line} (hBlank : Text.isBlank line = false)
    (hCloses : closesList line) (items rest : List Line) :
    (Open.list items).step line rest = (Open.list items).restart line := by
  rw [closesList, Bool.and_eq_true, Bool.not_eq_true'] at hCloses
  obtain ⟨hOuter, hOther⟩ := hCloses
  have hBullet : bullet? line = none := by
    cases hItem : bullet? line with
    | none => rfl
    | some item =>
        rw [heading?_of_bullet? hItem, fence?_of_bullet? hItem] at hOther
        cases hOther
  simp [Open.step, hBlank, hOuter, hBullet, hOther]

/-- Fenced code that is open becomes a block. -/
theorem exists_code (fence : Fence) (body lines : List Line) :
    ∃ text, .code text ∈ blocksFrom (.code fence body) lines := by
  induction lines generalizing body with
  | nil => exact ⟨_, List.mem_singleton_self _⟩
  | cons line rest ih =>
      by_cases hCloses : fence.starts line
      · have hStep : (Open.code fence body).step line rest =
            ((Open.code fence (Text.trimRight line :: body)).close, .nothing) := by
          simp [Open.step, hCloses]
        rw [blocksFrom_of_step hStep]
        exact ⟨_, List.mem_append_left _ (List.mem_singleton_self _)⟩
      · have hStep : (Open.code fence body).step line rest =
            ([], .code fence (Text.trimRight line :: body)) := by
          simp [Open.step, hCloses]
        rw [blocksFrom_of_step hStep]
        exact ih _

/-- A line that closes the list makes a heading or fenced code. -/
theorem exists_block_of_closesList {lines : List Line}
    (hBlank : ∀ line ∈ lines, Text.isBlank line = false)
    (h : ∃ line ∈ lines, closesList line) (items : List Line) :
    ∃ block ∈ blocksFrom (.list items) lines, ∀ others, block ≠ .list others := by
  induction lines generalizing items with
  | nil => simp at h
  | cons line rest ih =>
      obtain ⟨hLine, hRest⟩ := List.forall_mem_cons.1 hBlank
      cases hCloses : closesList line with
      | true =>
          have hStep := step_list_closes hLine hCloses items rest
          cases hFence : fence? line with
          | some fence =>
              obtain ⟨text, hCode⟩ := exists_code fence [Text.trimRight line] rest
              have hRestart : (Open.list items).restart line =
                  ((Open.list items).close, .code fence [Text.trimRight line]) := by
                simp [Open.restart, start, hFence]
              rw [blocksFrom_of_step (hStep.trans hRestart)]
              exact ⟨_, List.mem_append_right _ hCode, by simp⟩
          | none =>
              rw [closesList, hFence, Option.isSome_none, Bool.or_false,
                Bool.and_eq_true] at hCloses
              obtain ⟨⟨level, text⟩, hHeading⟩ := Option.isSome_iff_exists.1 hCloses.2
              have hRestart : (Open.list items).restart line =
                  ((Open.list items).close ++ [.heading level text], .nothing) := by
                simp [Open.restart, start, hFence, hHeading]
              rw [blocksFrom_of_step (hStep.trans hRestart)]
              exact ⟨.heading level text, by simp, by simp⟩
      | false =>
          obtain ⟨other, hMem, hOther⟩ := h
          have hLater : ∃ other ∈ rest, closesList other := by
            rcases List.mem_cons.1 hMem with rfl | hLater
            · rw [hCloses] at hOther
              cases hOther
            · exact ⟨other, hLater, hOther⟩
          rw [blocksFrom_of_step (step_list_grow hLine hCloses items rest), List.nil_append]
          exact ih hRest hLater _

/-- No item is made but by a line that starts one. -/
theorem length_foldl_grow (lines items : List Line) :
    (lines.foldl grow items).length = items.length + lines.countP isOuterBullet := by
  induction lines generalizing items with
  | nil => rfl
  | cons line rest ih =>
      rw [List.foldl_cons, ih, List.countP_cons]
      cases hOuter : isOuterBullet line with
      | true =>
          obtain ⟨item, hItem, hIndented⟩ := exists_item_of_isOuterBullet hOuter
          rw [grow_bullet hItem hIndented, List.length_cons, if_pos rfl]
          omega
      | false =>
          have hSame : (continueItem (shown line) items).length = items.length := by
            cases items <;> rfl
          rw [grow_of_not_outer hOuter, hSame, if_neg Bool.false_ne_true, Nat.add_zero]

/-- The lines of items, all together. -/
def height : List Line → Nat
  | [] => 0
  | item :: rest => item.count '\n' + 1 + height rest

theorem height_append (items more : List Line) :
    height (items ++ more) = height items + height more := by
  induction items with
  | nil => exact (Nat.zero_add _).symm
  | cons item rest ih =>
      rw [List.cons_append, height, ih, height]
      omega

theorem height_reverse (items : List Line) : height items.reverse = height items := by
  induction items with
  | nil => rfl
  | cons item rest ih =>
      rw [List.reverse_cons, height_append, ih, height, height, height, Nat.add_zero, Nat.add_comm]

theorem not_mem_trim {line : Line} (h : '\n' ∉ line) : '\n' ∉ Text.trim line :=
  fun hMem => h (List.dropWhile_subset _ ((List.rdropWhile_prefix _ _).subset hMem))

theorem not_mem_shown {line : Line} (h : '\n' ∉ line) : '\n' ∉ shown line := by
  unfold shown
  split
  · exact fun hMem => h ((List.rdropWhile_prefix _ _).subset hMem)
  · exact not_mem_trim h

theorem not_mem_of_bullet? {line item : Line} (hItem : bullet? line = some item)
    (h : '\n' ∉ line) : '\n' ∉ item := by
  unfold bullet? at hItem
  split at hItem
  · rename_i c rest hStart
    split at hItem
    · cases hItem
    · split at hItem
      · obtain rfl := Option.some.inj hItem
        have hRest : rest ⊆ line := fun d hMem =>
          List.dropWhile_subset _ (hStart ▸ List.mem_cons_of_mem c hMem)
        exact not_mem_trim fun hMem => h (hRest hMem)
      · cases hItem
  · cases hItem

/-- Every line adds one line to the items. -/
theorem height_foldl_grow {lines : List Line} (h : ∀ line ∈ lines, '\n' ∉ line) {items : List Line}
    (hItems : items ≠ []) : height (lines.foldl grow items) = height items + lines.length := by
  induction lines generalizing items with
  | nil => rfl
  | cons line rest ih =>
      obtain ⟨hLine, hRest⟩ := List.forall_mem_cons.1 h
      cases hOuter : isOuterBullet line with
      | true =>
          obtain ⟨item, hItem, hIndented⟩ := exists_item_of_isOuterBullet hOuter
          have hNone := List.count_eq_zero.2 (not_mem_of_bullet? hItem hLine)
          rw [List.foldl_cons, grow_bullet hItem hIndented, ih hRest (List.cons_ne_nil _ _), height,
            hNone, List.length_cons]
          omega
      | false =>
          obtain ⟨item, others, rfl⟩ := List.exists_cons_of_ne_nil hItems
          have hNone := List.count_eq_zero.2 (not_mem_shown hLine)
          rw [List.foldl_cons, grow_of_not_outer hOuter, continueItem,
            ih hRest (List.cons_ne_nil _ _), height, height, List.count_append,
            List.count_cons_self, hNone, List.length_cons]
          omega

/-- Items that are left out leave a line out each. -/
theorem length_add_height_filter (p : Line → Bool) (items : List Line) :
    items.length + height (items.filter p) ≤ height items + (items.filter p).length := by
  induction items with
  | nil => exact Nat.le_refl _
  | cons item rest ih =>
      rw [List.filter_cons]
      split
      · simp only [height, List.length_cons] at ih ⊢
        omega
      · simp only [height, List.length_cons] at ih ⊢
        omega

/-! ## The lines of items -/

/-- A line without the indentation of an item that starts something of its own. -/
def escapes (line : Line) : Bool :=
  line.head? = some ' ' && !isIndented line &&
    ((bullet? line).isSome || (heading? line).isSome || (fence? line).isSome)

/-- What the further line of a leaf is read as. -/
structure Further (line read : Line) : Prop where
  notBlank : Text.isBlank read = false
  start : isIndented read ∨ read.head? = some ' '
  shown : shown read = shown (continuation line)

theorem isBlank_continuation {line : Line} (h : Text.isBlank line = false) :
    Text.isBlank (continuation line) = false := by
  unfold continuation
  split
  · exact h
  · exact h
  · rw [Text.isBlank, List.all_cons, List.all_cons, ← Text.isBlank, h, Bool.and_false,
      Bool.and_false]

theorem ReadAs.further {line read : Line} (hBlank : Text.isBlank line = false)
    (h : ReadAs (continuation line) read) : Further line read where
  notBlank := by rw [h.isBlank, isBlank_continuation hBlank]
  start := by
    have hPart := isBlank_continuation hBlank
    rw [h.isIndented]
    unfold continuation at h hPart ⊢
    split at h
    · rename_i rest
      cases rest with
      | nil => cases hPart
      | cons d rest =>
          obtain ⟨more, rfl, -⟩ := h.exists_cons_cons
          exact .inr rfl
    · exact .inl rfl
    · exact .inl rfl
  shown := by
    unfold Markdown.shown
    rw [h.isIndented, h.trim, h.trimRight]

/-- A leaf that might stay one item: it starts with a character other than white space, and no line
of it is blank. -/
structure OneItem (text : String) : Prop where
  starts : ∃ c rest, text.toList = c :: rest ∧ Text.isSpace c = false
  noBlank : ∀ line ∈ Text.lines text.toList, Text.isBlank line = false

/-- The lines that the leaves are read as. -/
inductive ItemsRead : List String → List Line → Prop where
  | nil : ItemsRead [] []
  | cons {text : String} {texts : List String} {first : Line} {more lines : List Line}
      (hFirst : Text.trim first = Text.trim (Text.firstLine text.toList))
      (hMore : List.Forall₂ Further (Text.lines text.toList).tail more)
      (h : ItemsRead texts lines) :
      ItemsRead (text :: texts) (('-' :: ' ' :: first) :: (more ++ lines))

/-- What the parts of list items are read as. -/
theorem itemsRead_of_readAs {texts : List String} {lines : List Line}
    (hTexts : ∀ text ∈ texts, OneItem text)
    (h : List.Forall₂ ReadAs (texts.flatMap itemLines) lines) : ItemsRead texts lines := by
  induction texts generalizing lines with
  | nil =>
      cases h
      exact .nil
  | cons text texts ih =>
      obtain ⟨hText, hRest⟩ := List.forall_mem_cons.1 hTexts
      rw [List.flatMap_cons] at h
      have hLines : List.Forall₂ (flip ReadAs) lines _ := h.flip
      have hOwn := (List.forall₂_take_append _ _ _ hLines).flip
      have hOthers := (List.forall₂_drop_append _ _ _ hLines).flip
      rw [← List.take_append_drop (itemLines text).length lines]
      generalize lines.take (itemLines text).length = own at hOwn ⊢
      obtain ⟨c, behind, hStart, hSpace⟩ := hText.starts
      obtain ⟨rest, hLine⟩ := Text.exists_firstLine_cons hStart hSpace
      cases hOwn with
      | @cons _ read _ more hFirst hMore =>
          rw [hLine] at hFirst
          obtain ⟨_, rfl, hGap⟩ := hFirst.exists_cons_cons
          obtain ⟨first, rfl, hOwn⟩ := hGap.exists_cons_cons
          have hFurther : List.Forall₂ Further (Text.lines text.toList).tail more := by
            have hBlank : ∀ line ∈ (Text.lines text.toList).tail, Text.isBlank line = false :=
              fun line hMem => hText.noBlank line (List.mem_of_mem_tail hMem)
            exact (List.forall₂_and_left _ _ |>.2 ⟨hBlank, List.forall₂_map_left_iff.1 hMore⟩).imp
              fun _ _ hBoth => hBoth.2.further hBoth.1
          refine .cons ?_ hFurther (ih hRest hOthers)
          rw [hOwn.trim, hLine]

/-- The lines of the item that a leaf is read as. -/
def itemParts (text : String) : List Line :=
  Text.trim (Text.firstLine text.toList) ::
    (Text.lines text.toList).tail.map fun line => shown (continuation line)

/-- The item that a leaf is read as. -/
def itemText (text : String) : String :=
  String.ofList (['\n'].intercalate (itemParts text))

theorem not_mem_itemParts (text : String) : ∀ part ∈ itemParts text, '\n' ∉ part := by
  refine List.forall_mem_cons.2 ⟨not_mem_trim (Text.not_mem_firstLine _), ?_⟩
  rw [List.forall_mem_map]
  intro line hMem
  exact not_mem_shown
    (not_mem_continuation (Text.not_mem_lines line (List.mem_of_mem_tail hMem)))

/-- A further line that stays goes to the item. -/
theorem foldl_grow_further {more reads : List Line} (h : List.Forall₂ Further more reads)
    (hStay : ∀ line ∈ reads, escapes line = false) (item : Line) (items : List Line) :
    reads.foldl grow (item :: items) =
      (item ++ more.flatMap fun line => '\n' :: shown (continuation line)) :: items := by
  induction h generalizing item with
  | nil => simp
  | @cons line read more reads hLine _ ih =>
      obtain ⟨hRead, hRest⟩ := List.forall_mem_cons.1 hStay
      have hOuter : isOuterBullet read = false := by
        rcases hLine.start with hIndented | hSpace
        · rw [isOuterBullet, hIndented, Bool.not_true, Bool.and_false]
        · cases hOuter : isOuterBullet read with
          | false => rfl
          | true =>
              rw [isOuterBullet, Bool.and_eq_true] at hOuter
              simp [escapes, hSpace, hOuter.1, hOuter.2] at hRead
      rw [List.foldl_cons, grow_of_not_outer hOuter, continueItem, ih hRest, hLine.shown]
      simp

theorem toList_itemText (text : String) :
    (itemText text).toList = Text.trim (Text.firstLine text.toList) ++
      (Text.lines text.toList).tail.flatMap fun line => '\n' :: shown (continuation line) := by
  rw [itemText, String.toList_ofList, itemParts, intercalate_eq_flatMap, List.flatMap_map]

namespace ItemsRead

variable {texts : List String} {lines : List Line}

/-- Where no line escapes the items of the leaves are added one by one. -/
theorem foldl_grow (h : ItemsRead texts lines) (hStay : ∀ line ∈ lines, escapes line = false)
    (items : List Line) :
    lines.foldl grow items = (texts.map fun text => (itemText text).toList).reverse ++ items := by
  induction h generalizing items with
  | nil => rfl
  | @cons text texts first more lines hFirst hMore _ ih =>
      rw [List.forall_mem_cons, List.forall_mem_append] at hStay
      obtain ⟨-, hOwn, hRest⟩ := hStay
      rw [List.foldl_cons, grow_bullet (bullet?_mark first) rfl, List.foldl_append,
        foldl_grow_further hMore hOwn, hFirst, ← toList_itemText, ih hRest]
      simp

/-- A line of the leaves is not blank; it has a mark, or it is a further line. -/
theorem line_cases (h : ItemsRead texts lines) {line : Line} (hMem : line ∈ lines) :
    Text.isBlank line = false ∧
      ((∃ first, line = '-' :: ' ' :: first) ∨ isIndented line ∨ line.head? = some ' ') := by
  induction h with
  | nil => cases hMem
  | @cons text texts first more lines hFirst hMore _ ih =>
      rw [List.mem_cons, List.mem_append] at hMem
      rcases hMem with rfl | hOwn | hRest
      · exact ⟨isBlank_cons (by decide), .inl ⟨first, rfl⟩⟩
      · obtain ⟨index, hIndex, rfl⟩ := List.getElem_of_mem hOwn
        have hLine := hMore.get (hMore.length_eq ▸ hIndex) hIndex
        exact ⟨hLine.notBlank, .inr hLine.start⟩
      · exact ih hRest

/-- What closes the list escapes. -/
theorem escapes_of_closesList (h : ItemsRead texts lines) {line : Line} (hMem : line ∈ lines)
    (hCloses : closesList line) : escapes line := by
  rw [closesList, Bool.and_eq_true, Bool.not_eq_true'] at hCloses
  obtain ⟨hOuter, hOther⟩ := hCloses
  rcases (h.line_cases hMem).2 with ⟨first, rfl⟩ | hIndented | hSpace
  · rw [heading?_of_bullet? (bullet?_mark first), fence?_of_bullet? (bullet?_mark first)] at hOther
    cases hOther
  · rw [hOuter] at hIndented
    cases hIndented
  · rw [escapes, hSpace, hOuter, Bool.or_assoc, hOther, Bool.or_true]
    rfl

/-- Every leaf has a line that starts an item, and so has every line that escapes as one. -/
theorem le_countP (h : ItemsRead texts lines) (hOpen : ∀ line ∈ lines, closesList line = false) :
    texts.length + lines.countP escapes ≤ lines.countP isOuterBullet := by
  induction h with
  | nil => exact Nat.le_refl _
  | @cons text texts first more lines hFirst hMore _ ih =>
      rw [List.forall_mem_cons, List.forall_mem_append] at hOpen
      obtain ⟨-, hOwn, hRest⟩ := hOpen
      have hMark : isOuterBullet ('-' :: ' ' :: first) := by
        rw [isOuterBullet, bullet?_mark]
        rfl
      have hStay : escapes ('-' :: ' ' :: first) = false := rfl
      have hMoreLe : more.countP escapes ≤ more.countP isOuterBullet := by
        refine List.countP_mono_left fun line hMem hEscapes => ?_
        have hNone := hOwn line hMem
        simp only [escapes, Bool.and_eq_true, Bool.not_eq_true'] at hEscapes
        obtain ⟨⟨-, hOuter⟩, hOther⟩ := hEscapes
        rw [closesList, hOuter, Bool.not_false, Bool.true_and] at hNone
        rw [Bool.or_assoc, hNone, Bool.or_false] at hOther
        rw [isOuterBullet, hOther, hOuter]
        rfl
      have hLater := ih hRest
      rw [List.countP_cons_of_pos hMark, List.countP_cons_of_neg (by simp [hStay]),
        List.countP_append, List.countP_append, List.length_cons]
      omega

/-- The items have as many lines as the leaves were read as. -/
theorem height_eq (h : ItemsRead texts lines) :
    height (texts.map fun text => (itemText text).toList) = lines.length := by
  induction h with
  | nil => rfl
  | @cons text texts first more lines hFirst hMore _ ih =>
      have hSome : itemParts text ≠ [] := List.cons_ne_nil _ _
      have hCount := Text.count_intercalate hSome (not_mem_itemParts text)
      rw [List.map_cons, height, ih, itemText, String.toList_ofList, hCount, itemParts,
        List.length_cons, List.length_map, hMore.length_eq, List.length_cons, List.length_append]
      omega

/-- No line escapes if the items of the leaves are left: these have all the lines, so that no item
was left out, and there are no more of them than leaves. -/
theorem not_escapes {first : Line} {rest : List Line}
    (h : ItemsRead texts (('-' :: ' ' :: first) :: rest)) (hFeeds : ∀ line ∈ rest, '\n' ∉ line)
    (hFirst : '\n' ∉ first) (hOpen : ∀ line ∈ rest, closesList line = false) {p : Line → Bool}
    (hKept : (rest.foldl grow [Text.trim first]).reverse.filter p =
      texts.map fun text => (itemText text).toList) :
    ∀ line ∈ ('-' :: ' ' :: first) :: rest, escapes line = false := by
  have hItem := bullet?_mark first
  have hMark : closesList ('-' :: ' ' :: first) = false := by
    rw [closesList, heading?_of_bullet? hItem, fence?_of_bullet? hItem]
    rfl
  have hOuter : isOuterBullet ('-' :: ' ' :: first) := by
    rw [isOuterBullet, hItem]
    rfl
  have hOne : height [Text.trim first] = 1 := by
    rw [height, List.count_eq_zero.2 (not_mem_trim hFirst)]
    rfl
  have hLines := length_add_height_filter p (rest.foldl grow [Text.trim first]).reverse
  have hHeight := height_foldl_grow hFeeds (List.cons_ne_nil (Text.trim first) [])
  have hCount := h.le_countP (List.forall_mem_cons.2 ⟨hMark, hOpen⟩)
  rw [hKept, height_reverse, hHeight, hOne, h.height_eq, List.length_reverse, length_foldl_grow,
    List.length_singleton, List.length_map, List.length_cons] at hLines
  rw [List.countP_cons_of_pos hOuter] at hCount
  have hNone : (('-' :: ' ' :: first) :: rest).countP escapes = 0 := by omega
  intro line hMem
  exact Bool.eq_false_iff.2 (List.countP_eq_zero.1 hNone line hMem)

end ItemsRead

/-! ## Blocks of leaves -/

/-- The item of a leaf starts with what the leaf starts with. -/
theorem isBlank_itemText {text : String} (h : OneItem text) :
    Text.isBlank (itemText text).toList = false := by
  obtain ⟨c, behind, hStart, hSpace⟩ := h.starts
  obtain ⟨rest, hLine⟩ := Text.exists_firstLine_cons hStart hSpace
  have hTrim : Text.isBlank (Text.trim (c :: rest)) = false := by
    rw [Text.trim, trimLeft_cons hSpace, Text.isBlank_trimRight, isBlank_cons hSpace]
  rw [toList_itemText, hLine, Text.isBlank, List.all_append, ← Text.isBlank, hTrim, Bool.false_and]

theorem close_list_eq_iff {items : List Line} {values : List String} (hSome : values ≠ []) :
    (Open.list items).close = [.list values] ↔
      items.reverse.filter (!Text.isBlank ·) = values.map String.toList := by
  rw [Open.close]
  constructor
  · intro h
    split at h
    · cases h
    · obtain rfl := Block.list.inj (List.singleton_inj.1 h)
      rw [List.map_map]
      simp
  · intro h
    rw [h]
    split
    · rename_i hNone
      exact absurd (List.map_eq_nil_iff.1 hNone) hSome
    · rw [List.map_map]
      simp

/-- The lines of leaves are read as one list of them unless a line escapes. -/
theorem blocksFrom_leaves_iff {texts : List String} {lines : List Line} (hSome : texts ≠ [])
    (hTexts : ∀ text ∈ texts, OneItem text) (h : ItemsRead texts lines)
    (hFeeds : ∀ line ∈ lines, '\n' ∉ line) :
    blocksFrom .nothing lines = [.list (texts.map itemText)] ↔
      ∀ line ∈ lines, escapes line = false := by
  obtain ⟨first, rest, rfl⟩ : ∃ first rest, lines = ('-' :: ' ' :: first) :: rest := by
    cases h with
    | nil => exact absurd rfl hSome
    | cons _ _ _ => exact ⟨_, _, rfl⟩
  have hItem := bullet?_mark first
  have hBlank : ∀ line ∈ rest, Text.isBlank line = false := fun line hMem =>
    (h.line_cases (List.mem_cons_of_mem _ hMem)).1
  have hValues : texts.map itemText ≠ [] := by simpa using hSome
  rw [blocksFrom_of_step (Open.step_nothing_bullet hItem rest), List.nil_append]
  constructor
  · intro hBlocks
    have hOpen : ∀ line ∈ rest, closesList line = false := by
      intro line hMem
      by_contra hCloses
      rw [Bool.not_eq_false] at hCloses
      obtain ⟨block, hBlock, hOther⟩ :=
        exists_block_of_closesList hBlank ⟨line, hMem, hCloses⟩ [Text.trim first]
      rw [hBlocks, List.mem_singleton] at hBlock
      exact hOther _ hBlock
    obtain ⟨hMarked, hFurther⟩ := List.forall_mem_cons.1 hFeeds
    have hFirst : '\n' ∉ first := fun hMem =>
      hMarked (List.mem_cons_of_mem _ (List.mem_cons_of_mem _ hMem))
    rw [blocksFrom_list_grow (fun line hMem => ⟨hBlank line hMem, hOpen line hMem⟩),
      close_list_eq_iff hValues, List.map_map] at hBlocks
    exact h.not_escapes hFurther hFirst hOpen hBlocks
  · intro hStay
    have hOpen : ∀ line ∈ rest, closesList line = false := by
      intro line hMem
      by_contra hCloses
      rw [Bool.not_eq_false] at hCloses
      have hEscapes := h.escapes_of_closesList (List.mem_cons_of_mem _ hMem) hCloses
      rw [hStay line (List.mem_cons_of_mem _ hMem)] at hEscapes
      cases hEscapes
    have hGrown := h.foldl_grow hStay []
    rw [List.foldl_cons, grow_bullet hItem rfl, List.append_nil] at hGrown
    rw [blocksFrom_list_grow (fun line hMem => ⟨hBlank line hMem, hOpen line hMem⟩), hGrown,
      close_list_eq_iff hValues, List.reverse_reverse, List.map_map]
    refine List.filter_eq_self.2 fun item hMem => ?_
    obtain ⟨text, hText, rfl⟩ := List.mem_map.1 hMem
    rw [isBlank_itemText (hTexts text hText)]
    rfl

end Markdown

open Markdown

/-- Leaves next to each other are one block of their list items. -/
theorem Node.blocks_leaves (asked : List String) (bullets : List String)
    (leaves : List (String × List Sample)) :
    Node.blocks asked bullets (leaves.map fun leaf => .leaf leaf.1 leaf.2) =
      bulletBlock (bullets ++ leaves.map fun leaf => bullet (leafText asked leaf.1 leaf.2)) := by
  induction leaves generalizing bullets with
  | nil => rw [List.map_nil, List.map_nil, Node.blocks, List.append_nil]
  | cons leaf rest ih =>
      rw [List.map_cons, List.map_cons, Node.blocks, ih, List.append_assoc, List.singleton_append]

theorem intercalate_append {front back : List Line} (hFront : front ≠ []) (hBack : back ≠ []) :
    ['\n'].intercalate (front ++ back) =
      ['\n'].intercalate front ++ '\n' :: ['\n'].intercalate back := by
  obtain ⟨first, more, rfl⟩ := List.exists_cons_of_ne_nil hFront
  obtain ⟨next, others, rfl⟩ := List.exists_cons_of_ne_nil hBack
  rw [List.cons_append, intercalate_eq_flatMap, intercalate_eq_flatMap, intercalate_eq_flatMap]
  simp

/-- List items under each other have the lines of all of them. -/
theorem toList_intercalate_bullets (texts : List String) :
    ("\n".intercalate (texts.map bullet)).toList =
      ['\n'].intercalate (texts.flatMap itemLines) := by
  induction texts with
  | nil => rfl
  | cons text texts ih =>
      cases texts with
      | nil =>
          rw [List.map_singleton, String.intercalate_singleton, toList_bullet,
            List.flatMap_singleton]
      | cons next others =>
          have hOwn : itemLines text ≠ [] := List.cons_ne_nil _ _
          have hOthers : (next :: others).flatMap itemLines ≠ [] := by
            rw [List.flatMap_cons, itemLines, List.cons_append]
            exact List.cons_ne_nil _ _
          have hSplit : (text :: next :: others).flatMap itemLines =
              itemLines text ++ (next :: others).flatMap itemLines := List.flatMap_cons
          rw [List.map_cons, String.intercalate_cons_of_ne_nil (by simp), String.toList_append,
            String.toList_append, ih, toList_bullet, hSplit, intercalate_append hOwn hOthers,
            List.append_assoc]
          rfl

/-- **Leaves as items.** Leaves that start with a character other than white space and have no blank
lines are written as one block. That is read as one list, with one item for each leaf in their
order, exactly if no line of the block escapes. -/
theorem blocks_bullets_iff {asked : List String} {leaves : List (String × List Sample)}
    (hSome : leaves ≠ [])
    (hLeaves : ∀ leaf ∈ leaves, OneItem (leafText asked leaf.1 leaf.2)) :
    ∃ block, Node.blocks asked [] (leaves.map fun leaf => .leaf leaf.1 leaf.2) = [block] ∧
      (Markdown.blocks block =
          [.list (leaves.map fun leaf => itemText (leafText asked leaf.1 leaf.2))] ↔
        ∀ line ∈ Text.lines block.toList, escapes line = false) := by
  have hTexts : ∀ text ∈ leaves.map fun leaf => leafText asked leaf.1 leaf.2, OneItem text :=
    List.forall_mem_map.2 hLeaves
  have hTextsSome : (leaves.map fun leaf => leafText asked leaf.1 leaf.2) ≠ [] := by
    simpa using hSome
  have hItems (f : String → String) : (leaves.map fun leaf => f (leafText asked leaf.1 leaf.2)) =
      (leaves.map fun leaf => leafText asked leaf.1 leaf.2).map f := by
    rw [List.map_map]
    rfl
  rw [Node.blocks_leaves, List.nil_append, hItems bullet, hItems itemText]
  generalize (leaves.map fun leaf => leafText asked leaf.1 leaf.2) = texts at hTexts hTextsSome
  obtain ⟨first, more, rfl⟩ := List.exists_cons_of_ne_nil hTextsSome
  have hParts : ∀ part ∈ (first :: more).flatMap itemLines, part ≠ [] ∧ '\n' ∉ part := by
    intro part hMem
    obtain ⟨text, -, hPart⟩ := List.mem_flatMap.1 hMem
    exact itemLines_ok part hPart
  have hPartsSome : (first :: more).flatMap itemLines ≠ [] := by
    rw [List.flatMap_cons, itemLines, List.cons_append]
    exact List.cons_ne_nil _ _
  refine ⟨_, rfl, ?_⟩
  rw [Markdown.blocks, toList_intercalate_bullets]
  exact blocksFrom_leaves_iff hTextsSome hTexts
    (itemsRead_of_readAs hTexts (readAs_lines hPartsSome hParts)) Text.not_mem_lines

/-- A line with two spaces stays in its item though it looks like one, and a line without any is
indented. -/
theorem blocks_bullets_nested :
    Node.blocks [] [] [.leaf "a\n  - b" [], .leaf "c\nd" []] = ["- a\n  - b\n- c\n  d"] ∧
      Markdown.blocks "- a\n  - b\n- c\n  d" = [.list ["a\n  - b", "c\n  d"]] := by
  have hBlock : Node.blocks [] [] [.leaf "a\n  - b" [], .leaf "c\nd" []] =
      ["- a\n  - b\n- c\n  d"] := by decide +kernel
  have hFirst : OneItem (leafText [] "a\n  - b" []) :=
    ⟨⟨'a', "\n  - b".toList, by decide +kernel, by decide⟩, by decide +kernel⟩
  have hSecond : OneItem (leafText [] "c\nd" []) :=
    ⟨⟨'c', "\nd".toList, by decide +kernel, by decide⟩, by decide +kernel⟩
  have hLeaves : ∀ leaf ∈ [("a\n  - b", ([] : List Sample)), ("c\nd", [])],
      OneItem (leafText [] leaf.1 leaf.2) := by
    simp [hFirst, hSecond]
  obtain ⟨block, hWritten, hRead⟩ := blocks_bullets_iff (List.cons_ne_nil _ _) hLeaves
  obtain rfl := List.singleton_inj.1 (hBlock.symm.trans hWritten)
  exact ⟨hBlock, (hRead.2 (by decide +kernel)).trans (by decide +kernel)⟩

/-- A line with a single space in front leaves its item. -/
theorem not_one_item :
    OneItem (leafText [] "a\n - b" []) ∧ Node.blocks [] [] [.leaf "a\n - b" []] = ["- a\n - b"] ∧
      Markdown.blocks "- a\n - b" = [.list ["a", "b"]] := by
  have hItem : OneItem (leafText [] "a\n - b" []) :=
    ⟨⟨'a', "\n - b".toList, by decide +kernel, by decide⟩, by decide +kernel⟩
  exact ⟨hItem, by decide +kernel, by decide +kernel⟩

end Deckwright
