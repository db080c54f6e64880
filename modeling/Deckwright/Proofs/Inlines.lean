import Deckwright.Proofs.Canonical
import Deckwright.Proofs.Lines
import Deckwright.Proofs.Listing

/-!
# Inline content in normal form

The content of a text is a list of runs and images that the text is put together from. A text can
be taken apart in many ways, but only in one that is normal: runs are as long as they can be, and no
image starts inside of a run (`Normal`). Nothing of the text is lost, but for what an image may have
between its parentheses besides the target (`Spells`).

The reader of inlines goes from left to right and takes an image wherever one starts
(`inlinesFrom_of_opensImage`), and one character otherwise (`inlinesFrom_of_not_opensImage`).
Whether an image starts in a run depends on what is behind the run, for an image may reach over its
end. It does not depend on how the next image is written there (`clear_congr`), and so content is
read again from its own text.

Main results: `inlines_eq_iff`, what the content of a text is, and `inlines_normal`.
-/

namespace Deckwright

/-! ## Cuts and words -/

namespace Text

variable {stop : Char} {cs before after : List Char}

theorem cut?_append (h : stop ∉ before) (after : List Char) :
    cut? stop (before ++ stop :: after) = some (before, after) := by
  induction before with
  | nil => simp [cut?]
  | cons c rest ih =>
      rw [List.mem_cons, not_or] at h
      obtain ⟨hFirst, hRest⟩ := h
      rw [List.cons_append, cut?, if_neg (Ne.symm hFirst), ih hRest, Option.map_some]

theorem cut?_of_not_mem (h : stop ∉ cs) : cut? stop cs = none := by
  induction cs with
  | nil => rfl
  | cons c rest ih =>
      rw [List.mem_cons, not_or] at h
      obtain ⟨hFirst, hRest⟩ := h
      rw [cut?, if_neg (Ne.symm hFirst), ih hRest, Option.map_none]

/-- A text is cut at the first `stop`. -/
theorem cut?_eq_some_iff :
    cut? stop cs = some (before, after) ↔ cs = before ++ stop :: after ∧ stop ∉ before := by
  constructor
  · intro h
    by_cases hMem : stop ∈ cs
    · obtain ⟨start, rest, hSplit, hStart⟩ := List.eq_append_cons_of_mem hMem
      rw [hSplit, cut?_append hStart, Option.some.injEq, Prod.mk.injEq] at h
      obtain ⟨rfl, rfl⟩ := h
      exact ⟨hSplit, hStart⟩
    · rw [cut?_of_not_mem hMem] at h
      cases h
  · rintro ⟨rfl, hBefore⟩
    exact cut?_append hBefore after

/-- A text without white space is one word. -/
theorem firstWord?_of_noSpace (hSome : cs ≠ []) (h : ∀ c ∈ cs, isSpace c = false) :
    firstWord? cs = some cs := by
  have hTrim : trimLeft cs = cs := by
    rw [trimLeft_eq_self_iff]
    intro hPos
    rw [h _ (List.getElem_mem hPos)]
    exact Bool.false_ne_true
  have hWord : cs.takeWhile (fun c => !isSpace c) = cs := by
    rw [List.takeWhile_eq_self_iff]
    intro c hMem
    simp [h c hMem]
  rw [firstWord?, hTrim, hWord]
  cases cs with
  | nil => exact absurd rfl hSome
  | cons c rest => rfl

/-- The first word of a text is not empty, has no white space and is part of the text. -/
theorem word_of_firstWord? {word : List Char} (h : firstWord? cs = some word) :
    word ≠ [] ∧ ∀ c ∈ word, c ∈ cs ∧ isSpace c = false := by
  unfold firstWord? at h
  split at h
  · cases h
  · rename_i hSome
    obtain rfl := Option.some.inj h
    refine ⟨hSome, fun c hMem => ⟨?_, ?_⟩⟩
    · exact List.dropWhile_subset _ (List.takeWhile_subset _ hMem)
    · simpa using List.mem_takeWhile_imp hMem

/-- There is a first word where there is something else than white space. -/
theorem exists_firstWord? {c : Char} (hMem : c ∈ cs) (h : isSpace c = false) :
    ∃ word, firstWord? cs = some word := by
  have hSome : trimLeft cs ≠ [] := by
    intro hNil
    have hSpace := List.dropWhile_eq_nil_iff.1 hNil c hMem
    rw [h] at hSpace
    cases hSpace
  have hFirst := List.head_dropWhile_not isSpace hSome
  unfold firstWord?
  split
  · rename_i hWord
    obtain ⟨d, rest, hTrim⟩ := List.exists_cons_of_ne_nil hSome
    rw [hTrim] at hWord
    simp only [trimLeft] at hTrim
    simp only [hTrim, List.head_cons] at hFirst
    simp [hFirst] at hWord
  · exact ⟨_, rfl⟩

end Text

namespace Markdown

open Text (cut? cut?_append cut?_eq_some_iff firstWord? isSpace)

/-! ## Images -/

/-- The text starts with an image that has `inside` between its parentheses, and `rest` is what is
behind the image. -/
structure OpensImage (cs alt target inside rest : List Char) : Prop where
  text : cs = '!' :: '[' :: (alt ++ ']' :: '(' :: (inside ++ ')' :: rest))
  noBracket : ']' ∉ alt
  noParenthesis : ')' ∉ inside
  word : firstWord? inside = some target

/-- The text starts with an image. -/
def StartsImage (cs : List Char) : Prop :=
  ∃ alt target inside rest, OpensImage cs alt target inside rest

theorem image?_eq_some_iff {more alt target rest : List Char} :
    image? more = some (alt, target, rest) ↔
      ∃ inside, OpensImage ('!' :: '[' :: more) alt target inside rest := by
  constructor
  · intro h
    unfold image? at h
    split at h
    · rename_i found behind hAlt
      obtain ⟨hMore, hNoBracket⟩ := cut?_eq_some_iff.1 hAlt
      split at h
      · rename_i inside after hInside
        obtain ⟨rfl, hNoParenthesis⟩ := cut?_eq_some_iff.1 hInside
        obtain ⟨word, hWord, hEq⟩ := Option.map_eq_some_iff.1 h
        simp only [Prod.mk.injEq] at hEq
        obtain ⟨rfl, rfl, rfl⟩ := hEq
        exact ⟨inside, by rw [hMore], hNoBracket, hNoParenthesis, hWord⟩
      · cases h
    · cases h
  · rintro ⟨inside, hText, hNoBracket, hNoParenthesis, hWord⟩
    simp only [List.cons.injEq, true_and] at hText
    rw [image?, hText, cut?_append hNoBracket]
    simp only [cut?_append hNoParenthesis, hWord, Option.map_some]

theorem image?_eq_none {more : List Char} (h : ¬ StartsImage ('!' :: '[' :: more)) :
    image? more = none := by
  cases hImage : image? more with
  | none => rfl
  | some found =>
      obtain ⟨inside, hOpens⟩ := image?_eq_some_iff.1 hImage
      exact absurd ⟨_, _, inside, _, hOpens⟩ h

/-! ## Reading from the left -/

theorem inlinesFrom_opening (run more : List Char) :
    inlinesFrom run ('!' :: '[' :: more) =
      match image? more with
      | some (alt, target, rest) =>
        runBefore run (.image (String.ofList alt) (String.ofList target) :: inlinesFrom [] rest)
      | none => inlinesFrom ('[' :: '!' :: run) more := by
  rw [inlinesFrom]
  split
  · rename_i hFound
    simp only [hFound]
  · rename_i hNone
    simp only [hNone]

/-- An image is taken where one starts. -/
theorem inlinesFrom_of_opensImage {cs alt target inside rest : List Char}
    (h : OpensImage cs alt target inside rest) (run : List Char) :
    inlinesFrom run cs =
      runBefore run (.image (String.ofList alt) (String.ofList target) :: inlinesFrom [] rest) := by
  obtain ⟨more, rfl⟩ : ∃ more, cs = '!' :: '[' :: more := ⟨_, h.text⟩
  rw [inlinesFrom_opening, image?_eq_some_iff.2 ⟨inside, h⟩]

/-- Where no image starts one character is taken. -/
theorem inlinesFrom_of_not_opensImage {c : Char} {rest : List Char}
    (h : ¬ StartsImage (c :: rest)) (run : List Char) :
    inlinesFrom run (c :: rest) = inlinesFrom (c :: run) rest := by
  by_cases hOpening : ∃ more, c = '!' ∧ rest = '[' :: more
  · obtain ⟨more, rfl, rfl⟩ := hOpening
    have hNext : inlinesFrom ('!' :: run) ('[' :: more) = inlinesFrom ('[' :: '!' :: run) more := by
      rw [inlinesFrom]
      intro others hBracket
      exact absurd hBracket (by decide)
    rw [inlinesFrom_opening, image?_eq_none h, hNext]
  · rw [inlinesFrom]
    intro more hMark hRest
    exact hOpening ⟨more, hMark, hRest⟩

theorem inlinesFrom_nil (run : List Char) : inlinesFrom run [] = runBefore run [] := by
  rw [inlinesFrom]

/-- A run ends where an image starts, and at the end of the text. -/
theorem inlinesFrom_eq_runBefore {cs : List Char} (h : cs = [] ∨ StartsImage cs)
    (run : List Char) : inlinesFrom run cs = runBefore run (inlinesFrom [] cs) := by
  rcases h with rfl | ⟨alt, target, inside, rest, hOpens⟩
  · rw [inlinesFrom_nil, inlinesFrom_nil]
    rfl
  · rw [inlinesFrom_of_opensImage hOpens, inlinesFrom_of_opensImage hOpens]
    rfl

/-! ## Runs -/

/-- No image starts in the run with `behind` behind it, be it inside of the run or over its end. -/
def Clear (run behind : List Char) : Prop :=
  ∀ part, part <:+ run → part ≠ [] → ¬ StartsImage (part ++ behind)

theorem clear_nil (behind : List Char) : Clear [] behind := by
  intro part hPart hSome
  exact absurd (List.suffix_nil.1 hPart) hSome

theorem clear_cons {c : Char} {run behind : List Char} :
    Clear (c :: run) behind ↔ ¬ StartsImage (c :: (run ++ behind)) ∧ Clear run behind := by
  constructor
  · intro h
    refine ⟨h (c :: run) (List.suffix_refl _) (List.cons_ne_nil _ _), fun part hPart => ?_⟩
    exact h part (hPart.trans (List.suffix_cons c run))
  · rintro ⟨hFirst, hRest⟩ part hPart hSome
    rcases List.suffix_cons_iff.1 hPart with rfl | hInner
    · exact hFirst
    · exact hRest part hInner hSome

theorem clear_concat {run behind : List Char} {c : Char} :
    Clear (run ++ [c]) behind ↔ Clear run (c :: behind) ∧ ¬ StartsImage (c :: behind) := by
  induction run with
  | nil => simp [clear_cons, clear_nil]
  | cons d rest ih =>
      rw [List.cons_append, clear_cons, ih, clear_cons, List.append_assoc, List.singleton_append,
        and_assoc]

/-- A run is read to its end. -/
theorem inlinesFrom_of_clear {more behind : List Char} (h : Clear more behind) (run : List Char) :
    inlinesFrom run (more ++ behind) = inlinesFrom (more.reverse ++ run) behind := by
  induction more generalizing run with
  | nil => rfl
  | cons c rest ih =>
      obtain ⟨hFirst, hRest⟩ := clear_cons.1 h
      rw [List.cons_append, inlinesFrom_of_not_opensImage hFirst, ih hRest]
      simp

/-- In front of a text that starts with another character, what starts with `c` starts with it. -/
theorem exists_cons_of_append {c d : Char} {part cs more rest : List Char}
    (h : part ++ cs = c :: more) (hCs : cs = d :: rest) (hOther : c ≠ d) :
    ∃ b, part = c :: b ∧ b ++ cs = more := by
  cases part with
  | nil =>
      have hHead : d = c := by
        rw [hCs] at h
        exact (List.cons.inj h).1
      exact absurd hHead.symm hOther
  | cons e b =>
      obtain ⟨hHead, hTail⟩ := List.cons.inj h
      exact ⟨b, by rw [hHead], hTail⟩

/-- Whether an image starts in front of another one does not depend on what that one has between
its parentheses. -/
theorem startsImage_append {part cs other alt target inside rest target' inside' rest' : List Char}
    (hSome : part ≠ []) (hOpens : OpensImage cs alt target inside rest)
    (hOther : OpensImage other alt target' inside' rest') (h : StartsImage (part ++ cs)) :
    StartsImage (part ++ other) := by
  obtain ⟨name, word, own, after, hText, hName, hOwn, hWord⟩ := h
  obtain ⟨c, opening, rfl⟩ := List.exists_cons_of_ne_nil hSome
  obtain ⟨hMark, hOpening⟩ := List.cons.inj hText
  obtain ⟨m, rfl, hName'⟩ := exists_cons_of_append hOpening hOpens.text (by decide)
  rw [hMark]
  rcases List.append_eq_append_iff.1 hName' with ⟨b, rfl, -⟩ | ⟨b, rfl, hRest⟩
  · -- the bracket that closes is that of the other image
    refine ⟨m ++ '!' :: '[' :: alt, target', inside', rest', ?_, ?_, hOther.noParenthesis,
      hOther.word⟩
    · rw [hOther.text]
      simp
    · have hBefore : ']' ∉ m := fun hMem => hName (List.mem_append_left _ hMem)
      simp [hBefore, hOther.noBracket]
  · obtain ⟨d, rfl, hBracket⟩ := exists_cons_of_append hRest.symm hOpens.text (by decide)
    obtain ⟨b, rfl, hInside⟩ := exists_cons_of_append hBracket hOpens.text (by decide)
    rcases List.append_eq_append_iff.1 hInside with ⟨e, rfl, -⟩ | ⟨e, rfl, hEnd⟩
    · -- so is the parenthesis, or it stands in the alternative text of the other image
      have hMem : ')' ∈ other := by
        rw [hOther.text]
        simp
      obtain ⟨start, behind, hSplit, hStart⟩ := List.eq_append_cons_of_mem hMem
      obtain ⟨first, hFirst, -⟩ := exists_cons_of_append (hSplit.symm.trans hOther.text) rfl
        (by decide : '!' ≠ ')')
      have hInside : '!' ∈ b ++ start := by simp [hFirst]
      obtain ⟨target, hTarget⟩ := Text.exists_firstWord? hInside (by decide)
      refine ⟨name, target, b ++ start, behind, ?_, hName, ?_, hTarget⟩
      · rw [hSplit]
        simp
      · have hBefore : ')' ∉ b := fun hMem => hOwn (List.mem_append_left _ hMem)
        simp [hBefore, hStart]
    · obtain ⟨f, rfl, -⟩ := exists_cons_of_append hEnd.symm hOpens.text (by decide)
      exact ⟨name, word, own, f ++ other, by simp, hName, hOwn, hWord⟩

theorem clear_congr {run cs other alt target inside rest target' inside' rest' : List Char}
    (hOpens : OpensImage cs alt target inside rest)
    (hOther : OpensImage other alt target' inside' rest') : Clear run cs ↔ Clear run other := by
  constructor
  · exact fun h part hPart hSome hStarts =>
      h part hPart hSome (startsImage_append hSome hOther hOpens hStarts)
  · exact fun h part hPart hSome hStarts =>
      h part hPart hSome (startsImage_append hSome hOpens hOther hStarts)

/-! ## Content and its text -/

/-- Content as text: runs as they are, and images with nothing but the target between their
parentheses. -/
def contentText : List Inline → String
  | [] => ""
  | inline :: rest => inline.written ++ contentText rest

/-- The text is put together from the content. An image may have more between its parentheses than
the target, which is the first word there; `insides` is what the images have. -/
inductive Spells : List Inline → List (List Char) → List Char → Prop where
  | nil : Spells [] [] []
  | text {content : List Inline} {insides : List (List Char)} {cs : List Char} (run : String)
      (h : Spells content insides cs) : Spells (.text run :: content) insides (run.toList ++ cs)
  | image {content : List Inline} {insides : List (List Char)} {cs inside rest : List Char}
      {alt target : String} (hOpens : OpensImage cs alt.toList target.toList inside rest)
      (h : Spells content insides rest) :
      Spells (.image alt target :: content) (inside :: insides) cs

/-- Content in normal form. No run is empty or next to another one, and no image starts in a run, be
it inside of the run or over its end. The alternative texts and targets are such that an image can
have them. -/
inductive Normal : List Inline → Prop where
  | nil : Normal []
  | text {run : String} {content : List Inline} (hSome : run ≠ "")
      (hNext : ∀ next ∈ content.head?, next.isImage)
      (hClear : Clear run.toList (contentText content).toList) (h : Normal content) :
      Normal (.text run :: content)
  | image {alt target : String} {content : List Inline} (hAlt : ']' ∉ alt.toList)
      (hSome : target ≠ "") (hTarget : ∀ c ∈ target.toList, c ≠ ')' ∧ isSpace c = false)
      (h : Normal content) : Normal (.image alt target :: content)

/-- The text of an image starts with the image. -/
theorem opensImage_written {alt target : String} (hAlt : ']' ∉ alt.toList) (hSome : target ≠ "")
    (hTarget : ∀ c ∈ target.toList, c ≠ ')' ∧ isSpace c = false) (rest : List Char) :
    OpensImage ((Inline.image alt target).written.toList ++ rest) alt.toList target.toList
      target.toList rest where
  text := by simp [Inline.written]
  noBracket := hAlt
  noParenthesis hMem := (hTarget _ hMem).1 rfl
  word := Text.firstWord?_of_noSpace (fun hNil => hSome (String.toList_inj.1 hNil))
    fun c hMem => (hTarget c hMem).2

/-- Where content stops being a run, its text ends or goes on with the image that is next. -/
theorem Spells.opens {content : List Inline} {insides : List (List Char)} {cs : List Char}
    (h : Spells content insides cs) (hNext : ∀ next ∈ content.head?, next.isImage) :
    cs = [] ∨ StartsImage cs := by
  cases h with
  | nil => exact .inl rfl
  | text run _ => cases hNext _ rfl
  | image hOpens _ => exact .inr ⟨_, _, _, _, hOpens⟩

/-- Content that is normal is a spelling of its own text. -/
theorem Normal.spells {content : List Inline} (h : Normal content) :
    ∃ insides, Spells content insides (contentText content).toList := by
  induction h with
  | nil => exact ⟨[], .nil⟩
  | @text run content _ _ _ _ ih =>
      obtain ⟨insides, hSpells⟩ := ih
      refine ⟨insides, ?_⟩
      rw [contentText, String.toList_append]
      exact .text run hSpells
  | @image alt target content hAlt hSome hTarget _ ih =>
      obtain ⟨insides, hSpells⟩ := ih
      refine ⟨target.toList :: insides, ?_⟩
      rw [contentText, String.toList_append]
      exact .image (opensImage_written hAlt hSome hTarget _) hSpells

/-- What is behind a run matters for it only as content, and not as it is written. -/
theorem Spells.clear_iff {content : List Inline} {insides : List (List Char)} {cs : List Char}
    (h : Spells content insides cs) (hNormal : Normal content)
    (hNext : ∀ next ∈ content.head?, next.isImage) (run : List Char) :
    Clear run cs ↔ Clear run (contentText content).toList := by
  cases h with
  | nil => rfl
  | text run _ => cases hNext _ rfl
  | image hOpens _ =>
      cases hNormal with
      | image hAlt hSome hTarget _ =>
          rw [contentText, String.toList_append]
          exact clear_congr hOpens (opensImage_written hAlt hSome hTarget _)

/-- Content is written as the text that it is from where no image has white space between its
parentheses, which is where the target is all that stands there. -/
theorem Spells.contentText_eq_iff {content : List Inline} {insides : List (List Char)}
    {cs : List Char} (h : Spells content insides cs) :
    (contentText content).toList = cs ↔ ∀ inside ∈ insides, ∀ c ∈ inside, isSpace c = false := by
  induction h with
  | nil => simp [contentText]
  | text run _ ih =>
      rw [contentText, String.toList_append, Inline.written, List.append_cancel_left_eq]
      exact ih
  | @image content insides cs inside rest alt target hOpens _ ih =>
      obtain ⟨hSome, hWord⟩ := Text.word_of_firstWord? hOpens.word
      have hTarget : target.toList = inside ↔ ∀ c ∈ inside, isSpace c = false := by
        constructor
        · rintro rfl c hMem
          exact (hWord c hMem).2
        · intro hSpace
          have hInside : inside ≠ [] := by
            rintro rfl
            exact hSome (List.eq_nil_iff_forall_not_mem.2 fun c hMem => by simpa using hWord c hMem)
          have hFirst := hOpens.word
          rw [Text.firstWord?_of_noSpace hInside hSpace] at hFirst
          exact (Option.some.inj hFirst).symm
      have hText : (contentText (.image alt target :: content)).toList = cs ↔
          target.toList = inside ∧ (contentText content).toList = rest := by
        have hStop : ')' ∉ target.toList := fun hMem => hOpens.noParenthesis (hWord _ hMem).1
        rw [contentText, String.toList_append, hOpens.text]
        constructor
        · intro hEq
          have hEnd : target.toList ++ ')' :: (contentText content).toList =
              inside ++ ')' :: rest := by
            simpa [Inline.written] using hEq
          have hCut := cut?_append hStop (contentText content).toList
          rw [hEnd, cut?_append hOpens.noParenthesis, Option.some.injEq, Prod.mk.injEq] at hCut
          exact ⟨hCut.1.symm, hCut.2.symm⟩
        · rintro ⟨rfl, rfl⟩
          simp [Inline.written]
      rw [hText, hTarget, ih, List.forall_mem_cons]

/-! ## What the content of a text is -/

/-- A spelling of normal content is read as that content. -/
theorem inlinesFrom_of_spells {content : List Inline} {insides : List (List Char)} {cs : List Char}
    (hNormal : Normal content) (h : Spells content insides cs) : inlinesFrom [] cs = content := by
  induction h with
  | nil => exact inlinesFrom_nil []
  | @text content insides cs run hRest ih =>
      cases hNormal with
      | text hSome hNext hClear hContent =>
          have hRun : run.toList ≠ [] := fun hNil => hSome (String.toList_inj.1 hNil)
          rw [inlinesFrom_of_clear ((hRest.clear_iff hContent hNext _).2 hClear),
            inlinesFrom_eq_runBefore (hRest.opens hNext), ih hContent, List.append_nil, runBefore,
            if_neg (by simpa using hRun), List.reverse_reverse, String.ofList_toList]
  | image hOpens _ ih =>
      cases hNormal with
      | image _ _ _ hContent =>
          rw [inlinesFrom_of_opensImage hOpens, ih hContent, String.ofList_toList,
            String.ofList_toList]
          rfl

theorem normal_runBefore {run cs : List Char} {content : List Inline} {insides : List (List Char)}
    (hNext : ∀ next ∈ content.head?, next.isImage) (hClear : Clear run.reverse cs)
    (hNormal : Normal content) (hSpells : Spells content insides cs) :
    Normal (runBefore run content) ∧
      Spells (runBefore run content) insides (run.reverse ++ cs) := by
  unfold runBefore
  split
  · rename_i hEmpty
    rw [List.isEmpty_iff.1 hEmpty]
    exact ⟨hNormal, hSpells⟩
  · rename_i hSome
    have hList : (String.ofList run.reverse).toList = run.reverse := String.toList_ofList
    have hRun : String.ofList run.reverse ≠ "" := by
      intro hEq
      have hNil := congrArg String.toList hEq
      rw [hList] at hNil
      simp_all
    refine ⟨.text hRun hNext ?_ hNormal, ?_⟩
    · rw [hList]
      exact (hSpells.clear_iff hNormal hNext _).1 hClear
    · have hText := Spells.text (String.ofList run.reverse) hSpells
      rwa [hList] at hText

/-- What is read behind a run in which no image starts is normal, and nothing is lost. -/
theorem normal_inlinesFrom {run cs : List Char} (hClear : Clear run.reverse cs) :
    Normal (inlinesFrom run cs) ∧
      ∃ insides, Spells (inlinesFrom run cs) insides (run.reverse ++ cs) := by
  induction hLength : cs.length using Nat.strongRecOn generalizing run cs with
  | ind length ih =>
      by_cases hStarts : StartsImage cs
      · obtain ⟨alt, target, inside, rest, hOpens⟩ := hStarts
        have hLess : rest.length < length := by
          rw [← hLength, hOpens.text]
          simp only [List.length_cons, List.length_append]
          omega
        obtain ⟨hNormal, insides, hSpells⟩ := @ih _ hLess [] rest (clear_nil rest) rfl
        obtain ⟨hSome, hTarget⟩ := Text.word_of_firstWord? hOpens.word
        have hOpens' : OpensImage cs (String.ofList alt).toList (String.ofList target).toList inside
            rest := by
          rw [String.toList_ofList, String.toList_ofList]
          exact hOpens
        have hImage : Normal (.image (String.ofList alt) (String.ofList target) ::
            inlinesFrom [] rest) := by
          refine .image hOpens'.noBracket (fun hEq => hSome ?_) (fun c hMem => ?_) hNormal
          · rw [← @String.toList_ofList target, hEq]
            rfl
          · rw [String.toList_ofList] at hMem
            obtain ⟨hInside, hSpace⟩ := hTarget c hMem
            exact ⟨fun hEq => hOpens.noParenthesis (hEq ▸ hInside), hSpace⟩
        rw [inlinesFrom_of_opensImage hOpens]
        obtain ⟨hResult, hText⟩ := normal_runBefore (by simp [Inline.isImage]) hClear hImage
          (.image hOpens' hSpells)
        exact ⟨hResult, _, hText⟩
      · cases cs with
        | nil =>
            rw [inlinesFrom_nil]
            obtain ⟨hResult, hText⟩ := normal_runBefore (by simp) hClear .nil .nil
            exact ⟨hResult, _, hText⟩
        | cons c rest =>
            have hNext : Clear (c :: run).reverse rest := by
              rw [List.reverse_cons, clear_concat]
              exact ⟨hClear, hStarts⟩
            have hLess : rest.length < length := by
              rw [← hLength]
              exact Nat.lt_succ_self _
            have hRest := ih _ hLess hNext rfl
            rw [List.reverse_cons, List.append_assoc, List.singleton_append] at hRest
            rwa [inlinesFrom_of_not_opensImage hStarts]

/-- **The content of a text.** Of all that a text can be put together from, its content is what is
in normal form. -/
theorem inlines_eq_iff {text : String} {content : List Inline} :
    inlines text = content ↔ Normal content ∧ ∃ insides, Spells content insides text.toList := by
  constructor
  · rintro rfl
    exact normal_inlinesFrom (clear_nil text.toList)
  · rintro ⟨hNormal, insides, hSpells⟩
    exact inlinesFrom_of_spells hNormal hSpells

/-- **Content is a normal form.** The content of a text is normal, it is read again from its own
text, and the text is put together from it. It is written as the very text unless an image has white
space between its parentheses, be it around the target or in front of a title. -/
theorem inlines_normal (text : String) :
    Normal (inlines text) ∧ inlines (contentText (inlines text)) = inlines text ∧
      ∃ insides, Spells (inlines text) insides text.toList ∧
        (contentText (inlines text) = text ↔
          ∀ inside ∈ insides, ∀ c ∈ inside, isSpace c = false) := by
  obtain ⟨hNormal, insides, hSpells⟩ := inlines_eq_iff.1 (rfl : inlines text = inlines text)
  refine ⟨hNormal, inlines_eq_iff.2 ⟨hNormal, hNormal.spells⟩, insides, hSpells, ?_⟩
  rw [← hSpells.contentText_eq_iff, String.toList_inj]

/-- An opening that comes to nothing stays text, and a title is not kept. -/
example : inlines "a ![b] ![c](d.md 't') ![e](" =
    [.text "a ![b] ", .image "c" "d.md", .text " ![e]("] := by decide +kernel

end Markdown

end Deckwright
