import Deckwright.Proofs.Fences
import Deckwright.Proofs.Inlines
import Deckwright.Proofs.PieceTexts

/-!
# Images that are no embeds

An image that is no embed is text, but what is written is the image (`Inline.written`), and not what
stood in the document. So the text of a paragraph or item without embeds is its source only if the
images have nothing but their targets between their parentheses; a title is lost, and so is the
white space around a target. Trimming does not hide that, for the white space that is lost stands
inside of an image (`Spells.differ`).

* `exists_source_of_mem_blocks`: a paragraph is the content of lines that stand next to each other
  in the document.
* `ofInlines_of_embedFree`: content without embeds makes one piece at most.

Main result: `literal_iff`, when a paragraph or item without embeds is literal.
-/

namespace Deckwright

/-! ## White space around a text -/

namespace Text

variable {c d : Char}

theorem trimLeft_append_cons (h : isSpace c = false) (front back : List Char) :
    trimLeft (front ++ c :: back) = trimLeft front ++ c :: back := by
  have hBack : (c :: back).dropWhile isSpace = c :: back := by simp [h]
  rw [trimLeft, trimLeft, List.dropWhile_append, hBack]
  split
  · rename_i hFront
    rw [List.isEmpty_iff.1 hFront, List.nil_append]
  · rfl

theorem trimRight_append_cons (h : isSpace d = false) (front back : List Char) :
    trimRight (front ++ d :: back) = front ++ d :: trimRight back := by
  have hReverse : (front ++ d :: back).reverse = back.reverse ++ d :: front.reverse := by simp
  have hLeft := trimLeft_append_cons h back.reverse front.reverse
  rw [trimLeft, trimLeft] at hLeft
  rw [trimRight, dropEndWhile, hReverse, hLeft]
  simp [trimRight, dropEndWhile]

/-- White space is taken off up to the first and the last character that is none. -/
theorem trim_around (hFirst : isSpace c = false) (hLast : isSpace d = false)
    (front middle back : List Char) :
    trim (front ++ (c :: (middle ++ [d])) ++ back) =
      trimLeft front ++ (c :: (middle ++ [d])) ++ trimRight back := by
  have hText : front ++ (c :: (middle ++ [d])) ++ back =
      front ++ c :: (middle ++ d :: back) := by simp
  have hLeft : trimLeft front ++ c :: (middle ++ d :: back) =
      (trimLeft front ++ c :: middle) ++ d :: back := by simp
  rw [trim, hText, trimLeft_append_cons hFirst, hLeft, trimRight_append_cons hLast]
  simp

end Text

namespace Markdown

open Text (isSpace)

/-! ## The source of a paragraph -/

/-- The text of a paragraph with the given lines. -/
def paragraphText (part : List Line) : String :=
  String.ofList (List.intercalate ['\n'] (part.map Text.trimRight))

/-- A paragraph that is open has the lines that were read last. -/
def Open.Recalls (read : List Line) : Open → Prop
  | .paragraph lines => ∃ part, part <:+ read ∧ lines.reverse = part.map Text.trimRight
  | _ => True

theorem source_of_mem_close {read : List Line} {opened : Open} (hOpened : opened.Recalls read)
    {content : List Inline} (h : .paragraph content ∈ opened.close) :
    ∃ part, part <:+: read ∧ content = inlines (paragraphText part) := by
  cases opened with
  | nothing => cases h
  | code fence lines => simp [Open.close] at h
  | list items =>
      simp only [Open.close] at h
      split at h
      · cases h
      · simp at h
  | paragraph lines =>
      obtain ⟨part, hPart, hLines⟩ := hOpened
      rw [Open.close, List.mem_singleton, Block.paragraph.injEq, joinLines, hLines] at h
      exact ⟨part, hPart.isInfix, h⟩

/-- A line that starts something starts a paragraph with itself, if any. -/
theorem recalls_start (read : List Line) (line : Line) :
    (start line).2.Recalls (read ++ [line]) ∧ ∀ content, .paragraph content ∉ (start line).1 := by
  unfold start
  split
  · exact ⟨trivial, by simp⟩
  · split
    · exact ⟨trivial, by simp⟩
    · split
      · exact ⟨trivial, by simp⟩
      · exact ⟨⟨[line], List.suffix_append _ _, rfl⟩, by simp⟩

/-- A line goes on with the paragraph that is open, or ends it. -/
theorem recalls_step {read : List Line} {opened : Open} (hOpened : opened.Recalls read)
    (line : Line) (rest : List Line) :
    (opened.step line rest).2.Recalls (read ++ [line]) ∧
      ∀ content, .paragraph content ∈ (opened.step line rest).1 →
        .paragraph content ∈ opened.close := by
  obtain ⟨hStart, hNone⟩ := recalls_start read line
  have hRestart : (opened.restart line).2.Recalls (read ++ [line]) ∧
      ∀ content, .paragraph content ∈ (opened.restart line).1 →
        .paragraph content ∈ opened.close :=
    ⟨hStart, fun content hMem => (List.mem_append.1 hMem).resolve_right (hNone content)⟩
  cases opened with
  | nothing =>
      simp only [Open.step]
      split
      · exact ⟨trivial, by simp⟩
      · exact ⟨hStart, fun content hMem => absurd hMem (hNone content)⟩
  | code fence lines =>
      simp only [Open.step]
      split
      · exact ⟨trivial, by simp [Open.close]⟩
      · exact ⟨trivial, by simp⟩
  | list items =>
      simp only [Open.step]
      split
      · split
        · exact ⟨trivial, by simp⟩
        · exact ⟨trivial, fun content hMem => hMem⟩
      · split
        · exact ⟨trivial, by simp⟩
        · split
          · exact ⟨trivial, by simp⟩
          · split
            · exact hRestart
            · exact ⟨trivial, by simp⟩
  | paragraph lines =>
      obtain ⟨part, ⟨before, hRead⟩, hLines⟩ := hOpened
      simp only [Open.step]
      split
      · exact ⟨trivial, fun content hMem => hMem⟩
      · split
        · exact hRestart
        · refine ⟨⟨part ++ [line], ⟨before, ?_⟩, ?_⟩, by simp⟩
          · rw [← hRead, List.append_assoc]
          · simp [hLines]

theorem exists_source_of_mem_blocksFrom {read lines : List Line} {opened : Open}
    (hOpened : opened.Recalls read) {content : List Inline}
    (h : .paragraph content ∈ blocksFrom opened lines) :
    ∃ part, part <:+: read ++ lines ∧ content = inlines (paragraphText part) := by
  induction lines generalizing read opened with
  | nil =>
      rw [List.append_nil]
      exact source_of_mem_close hOpened h
  | cons line rest ih =>
      obtain ⟨hNext, hBlocks⟩ := recalls_step hOpened line rest
      rw [blocksFrom_cons, List.mem_append] at h
      rcases h with hHere | hLater
      · obtain ⟨part, hPart, hContent⟩ := source_of_mem_close hOpened (hBlocks content hHere)
        exact ⟨part, hPart.trans (List.prefix_append _ _).isInfix, hContent⟩
      · have hRest := ih hNext hLater
        rwa [List.append_assoc, List.singleton_append] at hRest

/-- A paragraph is the content of lines of the document that stand next to each other. -/
theorem exists_source_of_mem_blocks {text : String} {content : List Inline}
    (h : .paragraph content ∈ blocks text) :
    ∃ part, part <:+: Text.lines text.toList ∧ content = inlines (paragraphText part) := by
  have hOpened : Open.nothing.Recalls [] := trivial
  exact exists_source_of_mem_blocksFrom hOpened h

/-! ## Where content is not as it was written -/

/-- A text and its content written out are the same around the images, which start and end with
what is no white space. -/
theorem Spells.differ {content : List Inline} {insides : List (List Char)} {cs : List Char}
    (h : Spells content insides cs) (hSome : insides ≠ []) :
    ∃ front middle middle' back : List Char,
      cs = front ++ ('!' :: (middle ++ [')'])) ++ back ∧
        (contentText content).toList = front ++ ('!' :: (middle' ++ [')'])) ++ back := by
  induction h with
  | nil => exact absurd rfl hSome
  | text run _ ih =>
      obtain ⟨front, middle, middle', back, hText, hContent⟩ := ih hSome
      refine ⟨run.toList ++ front, middle, middle', back, ?_, ?_⟩
      · rw [hText]
        simp
      · rw [contentText, String.toList_append, hContent, Inline.written]
        simp
  | @image content insides cs inside rest alt target hOpens hRest ih =>
      by_cases hMore : insides = []
      · have hEnd : (contentText content).toList = rest := by
          rw [hRest.contentText_eq_iff, hMore]
          simp
        refine ⟨[], '[' :: (alt.toList ++ ']' :: '(' :: inside),
          '[' :: (alt.toList ++ ']' :: '(' :: target.toList), rest, ?_, ?_⟩
        · rw [hOpens.text]
          simp
        · rw [contentText, String.toList_append, hEnd, Inline.written]
          simp
      · obtain ⟨front, middle, middle', back, hText, hContent⟩ := ih hMore
        refine ⟨[],
          '[' :: (alt.toList ++ ']' :: '(' :: (inside ++ ')' :: (front ++ '!' :: middle))),
          '[' :: (alt.toList ++ ']' :: '(' :: (target.toList ++ ')' :: (front ++ '!' :: middle'))),
          back, ?_, ?_⟩
        · rw [hOpens.text, hText]
          simp
        · rw [contentText, String.toList_append, hContent, Inline.written]
          simp

/-- What is lost of a text is not lost by trimming. -/
theorem Spells.trim_eq_iff {content : List Inline} {insides : List (List Char)} {cs : List Char}
    (h : Spells content insides cs) :
    Text.trim (contentText content).toList = Text.trim cs ↔
      ∀ inside ∈ insides, ∀ c ∈ inside, isSpace c = false := by
  rw [← h.contentText_eq_iff]
  refine ⟨fun hTrim => ?_, fun hEq => by rw [hEq]⟩
  by_cases hSome : insides = []
  · rw [h.contentText_eq_iff, hSome]
    simp
  · obtain ⟨front, middle, middle', back, hText, hContent⟩ := h.differ hSome
    have hMark : isSpace '!' = false := by decide
    have hEnd : isSpace ')' = false := by decide
    rw [hText, hContent, Text.trim_around hMark hEnd, Text.trim_around hMark hEnd,
      List.append_left_inj, List.append_right_inj] at hTrim
    rw [hText, hContent, hTrim]

end Markdown

namespace Document

open Markdown (Inline Block inlines contentText Spells)

/-! ## Content without embeds -/

/-- None of the images stands for an embed. -/
def EmbedFree (content : List Inline) : Prop :=
  ∀ inline ∈ content, inline.embed? = none

instance (content : List Inline) : Decidable (EmbedFree content) :=
  inferInstanceAs (Decidable (∀ inline ∈ content, inline.embed? = none))

theorem cutAtEmbeds_of_embedFree {content : List Inline} (h : EmbedFree content) :
    Markdown.cutAtEmbeds content = (contentText content, []) := by
  induction content with
  | nil => rfl
  | cons inline rest ih =>
      obtain ⟨hFirst, hRest⟩ := List.forall_mem_cons.1 h
      simp [Markdown.cutAtEmbeds, ih hRest, hFirst, contentText]

/-- Content without embeds makes one piece at most. -/
theorem ofInlines_of_embedFree (make : String → Piece) {content : List Inline}
    (h : EmbedFree content) :
    Piece.ofInlines make "" content = Piece.ofRun make (contentText content) := by
  rw [Piece.ofInlines_eq, cutAtEmbeds_of_embedFree h, String.empty_append, List.flatMap_nil,
    List.append_nil]

/-- A paragraph or an item of the document, with its source, what is made of a text there, and the
pieces in front of it and behind it. -/
inductive Prose (text : String) : (String → Piece) → String → List Piece → List Piece → Prop where
  | paragraph {front back : List Block} {content : List Inline} {part : List Markdown.Line}
      (hBlocks : Markdown.blocks text = front ++ .paragraph content :: back)
      (hPart : part <:+: Text.lines text.toList)
      (hContent : content = inlines (Markdown.paragraphText part)) :
      Prose text .lead (Markdown.paragraphText part) (Piece.ofBlocks front) (Piece.ofBlocks back)
  | item {front back : List Block} {before after : List String} {source : String}
      (hBlocks : Markdown.blocks text = front ++ .list (before ++ source :: after) :: back) :
      Prose text .leaf source (Piece.ofBlocks front ++ Piece.ofBlock (.list before))
        (Piece.ofBlock (.list after) ++ Piece.ofBlocks back)

theorem Prose.ofText {text source : String} {make : String → Piece} {earlier later : List Piece}
    (h : Prose text make source earlier later) :
    Piece.ofText text = earlier ++ Piece.ofInlines make "" (inlines source) ++ later := by
  cases h with
  | paragraph hBlocks _ hContent =>
      rw [Piece.ofText, hBlocks, ← hContent]
      simp [Piece.ofBlocks, Piece.ofBlock]
  | item hBlocks =>
      rw [Piece.ofText, hBlocks]
      simp [Piece.ofBlocks, Piece.ofBlock]

theorem Prose.injective {text source : String} {make : String → Piece} {earlier later : List Piece}
    (h : Prose text make source earlier later) : Function.Injective make := by
  intro one other hEq
  cases h with
  | paragraph _ _ _ => exact Piece.lead.inj hEq
  | item _ => exact Piece.leaf.inj hEq

/-- Every paragraph has a source. -/
theorem exists_prose {text : String} {front back : List Block} {content : List Inline}
    (h : Markdown.blocks text = front ++ .paragraph content :: back) :
    ∃ source, content = inlines source ∧
      Prose text .lead source (Piece.ofBlocks front) (Piece.ofBlocks back) := by
  have hMem : .paragraph content ∈ Markdown.blocks text := by
    rw [h]
    exact List.mem_append_right _ List.mem_cons_self
  obtain ⟨part, hPart, hContent⟩ := Markdown.exists_source_of_mem_blocks hMem
  exact ⟨_, hContent, .paragraph h hPart hContent⟩

/-! ## Literal text -/

/-- Runs make the same if they are the same without the white space around them. -/
theorem ofRun_eq_iff {make : String → Piece} (hMake : Function.Injective make)
    {one other : String} :
    Piece.ofRun make one = Piece.ofRun make other ↔ trimmed one = trimmed other := by
  have hTrim (run : String) (h : blank run = false) : trimmed run ≠ "" := by
    rw [ne_eq, trimmed_eq_empty_iff, h]
    exact Bool.false_ne_true
  unfold Piece.ofRun
  cases hOne : blank one with
  | true =>
      have hEmpty := trimmed_eq_empty_iff.2 hOne
      cases hOther : blank other with
      | true => simp [hEmpty, trimmed_eq_empty_iff.2 hOther]
      | false => simp [hEmpty, (hTrim other hOther).symm]
  | false =>
      cases hOther : blank other with
      | true => simp [trimmed_eq_empty_iff.2 hOther, hTrim one hOne]
      | false => simp [hMake.eq_iff]

/-- **Literal text.** Every paragraph has a source. A paragraph or item without embeds makes one
lead or leaf, or nothing if it is blank. What that says is the source without the white space around
it, unless an image has white space between its parentheses: the white space around its target is
lost, and so is its title. What the images have there is `insides`. -/
theorem literal_iff (text : String) :
    (∀ front content back, Markdown.blocks text = front ++ .paragraph content :: back →
      ∃ source, content = inlines source ∧
        Prose text .lead source (Piece.ofBlocks front) (Piece.ofBlocks back)) ∧
    ∀ make source earlier later, Prose text make source earlier later → EmbedFree (inlines source) →
      ∃ pieces insides, Piece.ofText text = earlier ++ pieces ++ later ∧
        pieces = Piece.ofRun make (contentText (inlines source)) ∧
        Spells (inlines source) insides source.toList ∧
        (pieces = Piece.ofRun make source ↔
          ∀ inside ∈ insides, ∀ c ∈ inside, Text.isSpace c = false) := by
  refine ⟨fun _ _ _ h => exists_prose h, fun make source earlier later hProse hFree => ?_⟩
  obtain ⟨-, insides, hSpells⟩ := Markdown.inlines_eq_iff.1 (rfl : inlines source = inlines source)
  have hPieces := ofInlines_of_embedFree make hFree
  refine ⟨_, insides, hProse.ofText, hPieces, hSpells, ?_⟩
  rw [hPieces, ofRun_eq_iff hProse.injective, ← hSpells.trim_eq_iff, trimmed, trimmed,
    ← String.toList_inj, String.toList_ofList, String.toList_ofList]

/-- An image with nothing but its target between the parentheses. -/
theorem literal_logo :
    Prose "Look ![logo](logo.png) here" .lead "Look ![logo](logo.png) here" [] [] ∧
      EmbedFree (inlines "Look ![logo](logo.png) here") ∧
        ∃ pieces insides, Piece.ofText "Look ![logo](logo.png) here" = [] ++ pieces ++ [] ∧
          pieces = Piece.ofRun .lead (contentText (inlines "Look ![logo](logo.png) here")) ∧
          Spells (inlines "Look ![logo](logo.png) here") insides
            "Look ![logo](logo.png) here".toList ∧
          (pieces = Piece.ofRun .lead "Look ![logo](logo.png) here" ↔
            ∀ inside ∈ insides, ∀ c ∈ inside, Text.isSpace c = false) := by
  have hProse : Prose "Look ![logo](logo.png) here" .lead "Look ![logo](logo.png) here" [] [] :=
    @Prose.paragraph _ [] [] _ ["Look ![logo](logo.png) here".toList] (by decide +kernel)
      (by decide +kernel) rfl
  have hFree : EmbedFree (inlines "Look ![logo](logo.png) here") := by decide +kernel
  exact ⟨hProse, hFree, (literal_iff _).2 _ _ _ _ hProse hFree⟩

/-- The title of an image is lost. -/
theorem not_literal_titled :
    Prose "![x](pic.png \"A title\")" .lead "![x](pic.png \"A title\")" [] [] ∧
      EmbedFree (inlines "![x](pic.png \"A title\")") ∧
      Piece.ofText "![x](pic.png \"A title\")" = [.lead "![x](pic.png)"] ∧
      Piece.ofRun .lead "![x](pic.png \"A title\")" = [.lead "![x](pic.png \"A title\")"] := by
  have hProse : Prose "![x](pic.png \"A title\")" .lead "![x](pic.png \"A title\")" [] [] :=
    @Prose.paragraph _ [] [] _ ["![x](pic.png \"A title\")".toList] (by decide +kernel)
      (by decide +kernel) rfl
  exact ⟨hProse, by decide +kernel, by decide +kernel, by decide +kernel⟩

end Document

end Deckwright
