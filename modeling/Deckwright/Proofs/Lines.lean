import Mathlib.Data.List.DropRight
import Mathlib.Data.List.TakeWhile
import Deckwright.Text.Blank
import Deckwright.Text.Lines

/-!
# Trimmed texts and their lines

A text is cut at its line feeds (`Text.split`) or into its lines (`Text.lines`), which takes a
carriage return off the end of a line and gives no line for what is behind the last line feed. The
two agree on texts whose lines have no white space at their ends and the last of which is not
empty (`lines_eq_split`). Trimming keeps what has no white space at the end in question.
-/

namespace Deckwright.Text

/-! ## Trimmed texts -/

variable {cs : List Char}

theorem trimLeft_eq_self_iff :
    trimLeft cs = cs ↔ ∀ h : 0 < cs.length, ¬ isSpace cs[0] :=
  List.dropWhile_eq_self_iff

theorem dropEndWhile_eq_self_iff {p : Char → Bool} :
    dropEndWhile p cs = cs ↔ ∀ h : cs ≠ [], ¬ p (cs.getLast h) :=
  List.rdropWhile_eq_self_iff

theorem trim_eq_self_iff : trim cs = cs ↔ trimLeft cs = cs ∧ trimRight cs = cs := by
  constructor
  · intro h
    have hEnd : (trim cs).length ≤ (trimLeft cs).length :=
      (List.rdropWhile_prefix (p := isSpace) (trimLeft cs)).length_le
    have hStart : (trimLeft cs).Sublist cs := List.dropWhile_sublist isSpace
    have hLeft : trimLeft cs = cs := by
      apply hStart.eq_of_length
      rw [h] at hEnd
      exact Nat.le_antisymm hStart.length_le hEnd
    rw [trim, hLeft] at h
    exact ⟨hLeft, h⟩
  · rintro ⟨hLeft, hRight⟩
    rw [trim, hLeft, hRight]

/-- A text without white space at its ends is not blank. -/
theorem isBlank_of_trimLeft (hTrim : trimLeft cs = cs) (hSome : cs ≠ []) : isBlank cs = false := by
  rw [trimLeft_eq_self_iff] at hTrim
  cases cs with
  | nil => exact absurd rfl hSome
  | cons c rest =>
      have hFirst : isSpace c = false := by simpa using hTrim (Nat.succ_pos _)
      simp [isBlank, hFirst]

/-- A text that is not blank keeps something when it is trimmed. -/
theorem ne_nil_of_not_isBlank (h : isBlank cs = false) : cs ≠ [] := by
  rintro rfl
  exact absurd h (by decide)

theorem trim_cons {c : Char} (h : isSpace c) (cs : List Char) : trim (c :: cs) = trim cs := by
  rw [trim, trim, trimLeft, List.dropWhile_cons_of_pos h]
  rfl

/-- What a text without white space in front of it starts with has none in front of it either. -/
theorem trimLeft_of_starts {start : List Char} (hTrim : trimLeft cs = cs) (h : start <+: cs) :
    trimLeft start = start := by
  rw [trimLeft_eq_self_iff] at hTrim ⊢
  intro hSome
  rw [h.getElem hSome]
  exact hTrim (Nat.lt_of_lt_of_le hSome h.length_le)

/-- A text has no white space at its ends once that is taken off both of them, and more at its end
may have gone before. -/
theorem trim_trimRight_of_starts {start : List Char} (h : start <+: trim cs) :
    trim (trimRight start) = trimRight start := by
  have hLeft : trimLeft (trimLeft cs) = trimLeft cs := List.dropWhile_idempotent _ _
  have hPrefix : trimRight start <+: trimLeft cs :=
    (List.rdropWhile_prefix _ _).trans (h.trans (List.rdropWhile_prefix _ _))
  exact trim_eq_self_iff.2
    ⟨trimLeft_of_starts hLeft hPrefix, List.rdropWhile_idempotent _ _⟩

theorem trim_trim (cs : List Char) : trim (trim cs) = trim cs := by
  have hRight : trimRight (trim cs) = trim cs := List.rdropWhile_idempotent _ _
  have hTrim := trim_trimRight_of_starts (List.prefix_refl (trim cs))
  rwa [hRight] at hTrim

theorem trimLeft_of_isBlank (h : isBlank cs) : trimLeft cs = [] := by
  rw [isBlank, List.all_eq_true] at h
  exact List.dropWhile_eq_nil_iff.2 h

/-- Nothing is left of a text that is trimmed only if it is blank. -/
theorem trim_eq_nil_iff : trim cs = [] ↔ isBlank cs := by
  rw [isBlank, List.all_eq_true, trim, trimLeft]
  constructor
  · intro h
    have hAll : ∀ c ∈ cs.dropWhile isSpace, isSpace c := List.rdropWhile_eq_nil_iff.1 h
    have hNone : cs.dropWhile isSpace = [] := by
      by_contra hSome
      have hHead := List.head_dropWhile_not isSpace hSome
      rw [hAll _ (List.head_mem hSome)] at hHead
      cases hHead
    exact List.dropWhile_eq_nil_iff.1 hNone
  · intro h
    rw [List.dropWhile_eq_nil_iff.2 h]
    rfl

/-- White space at the end of a text does not matter for whether it is blank. -/
theorem isBlank_trimRight (cs : List Char) : isBlank (trimRight cs) = isBlank cs := by
  have hEnd : (cs.rtakeWhile isSpace).all isSpace :=
    List.all_eq_true.2 fun _ hMem => List.mem_rtakeWhile_imp hMem
  calc isBlank (trimRight cs) = (isBlank (cs.rdropWhile isSpace) && isBlank (cs.rtakeWhile isSpace)) :=
        by rw [isBlank, isBlank, isBlank, hEnd, Bool.and_true]; rfl
    _ = isBlank cs := by
        rw [isBlank, isBlank, ← List.all_append, List.rdropWhile_append_rtakeWhile, isBlank]

/-- Only the end of a text matters when white space is taken off its end. -/
theorem trimRight_append {more : List Char} (h : trimRight more = more) (hSome : more ≠ []) :
    trimRight (cs ++ more) = cs ++ more := by
  refine dropEndWhile_eq_self_iff.2 fun _ => ?_
  rw [List.getLast_append_of_ne_nil _ hSome]
  exact dropEndWhile_eq_self_iff.1 h hSome

/-! ## Cuts -/

theorem split_eq_splitOn (stop : Char) (cs : List Char) : split stop cs = cs.splitOn stop := by
  induction cs with
  | nil => rfl
  | cons c rest ih =>
      rw [split, List.splitOn_cons_eq_if_modifyHead, ih]
      simp only [beq_iff_eq]
      split
      · rfl
      · cases hRest : rest.splitOn stop with
        | nil => exact absurd hRest (List.splitOn_ne_nil stop rest)
        | cons part others => rfl

theorem split_ne_nil (stop : Char) (cs : List Char) : split stop cs ≠ [] := by
  rw [split_eq_splitOn]
  exact List.splitOn_ne_nil stop cs

theorem split_append (stop : Char) (cs more : List Char) :
    split stop (cs ++ stop :: more) = split stop cs ++ split stop more := by
  rw [split_eq_splitOn, split_eq_splitOn, split_eq_splitOn]
  exact List.splitOn_append_cons_self cs more

theorem split_of_not_mem {stop : Char} (h : stop ∉ cs) : split stop cs = [cs] := by
  rw [split_eq_splitOn]
  exact List.splitOn_eq_singleton h

theorem intercalate_split (stop : Char) (cs : List Char) :
    [stop].intercalate (split stop cs) = cs := by
  rw [split_eq_splitOn]
  exact List.intercalate_splitOn stop

/-! ## Lines -/

/-- A character in front of a cut text stands in front of its first part. -/
theorem split_cons {stop c : Char} (h : c ≠ stop) (cs : List Char) :
    ∃ part others, split stop cs = part :: others ∧
      split stop (c :: cs) = (c :: part) :: others := by
  cases hSplit : split stop cs with
  | nil => exact absurd hSplit (split_ne_nil stop cs)
  | cons part others => exact ⟨part, others, rfl, by rw [split, if_neg h, hSplit]⟩

/-- Parts that are lines: none ends in a carriage return, and the last one is not empty. -/
structure AreLines (parts : List (List Char)) : Prop where
  ends : ∀ line ∈ parts, line.getLast? ≠ some '\r'
  last : parts.getLast? ≠ some []

theorem AreLines.tail {c : Char} {part : List Char} {others : List (List Char)}
    (hSome : cs ≠ []) (hSplit : split '\n' cs = part :: others)
    (h : AreLines ((c :: part) :: others)) : AreLines (split '\n' cs) := by
  rw [hSplit]
  constructor
  · intro line hLine
    rcases List.mem_cons.1 hLine with rfl | hOther
    · cases line with
      | nil => simp
      | cons d line =>
          have hFirst := h.ends _ List.mem_cons_self
          rwa [List.getLast?_cons_cons] at hFirst
    · exact h.ends line (List.mem_cons_of_mem _ hOther)
  · cases others with
    | nil =>
        have hWhole := intercalate_split '\n' cs
        rw [hSplit, List.intercalate_singleton] at hWhole
        simpa [hWhole] using hSome
    | cons other others =>
        have hLast := h.last
        rw [List.getLast?_cons_cons] at hLast ⊢
        exact hLast

/-- Between its line feeds a text has its lines, if these are lines. -/
theorem lines_eq_split (h : AreLines (split '\n' cs)) : lines cs = split '\n' cs := by
  induction cs using lines.induct with
  | case1 => exact absurd rfl h.last
  | case2 rest ih =>
      have hReturn : ['\r'] ∈ split '\n' ('\r' :: '\n' :: rest) := by simp [split]
      exact absurd rfl (h.ends _ hReturn)
  | case3 rest ih =>
      have hSplit : split '\n' ('\n' :: rest) = [] :: split '\n' rest := by simp [split]
      rw [hSplit] at h ⊢
      rw [lines, ih]
      constructor
      · exact fun line hLine => h.ends line (List.mem_cons_of_mem _ hLine)
      · have hLast := h.last
        rwa [List.getLast?_cons_of_ne_nil (split_ne_nil '\n' rest)] at hLast
  | case4 c rest hReturn hFeed hNone ih =>
      obtain ⟨part, others, hSplit, hCons⟩ := split_cons hFeed rest
      rw [hCons] at h ⊢
      by_cases hRest : rest = []
      · subst hRest
        obtain ⟨rfl, rfl⟩ : [] = part ∧ [] = others := by simpa [split] using hSplit
        simp [lines]
      · rw [ih (h.tail hRest hSplit)] at hNone
        exact absurd hNone (split_ne_nil '\n' rest)
  | case5 c rest hReturn hFeed line others hLines ih =>
      obtain ⟨part, parts, hSplit, hCons⟩ := split_cons hFeed rest
      have hRest : rest ≠ [] := by
        rintro rfl
        simp [lines] at hLines
      rw [hCons] at h ⊢
      have hSame := ih (h.tail hRest hSplit)
      rw [hLines, hSplit] at hSame
      injection hSame with hLine hOthers
      rw [lines, hLines, hLine, hOthers]
      · exact hReturn
      · exact hFeed

end Deckwright.Text
