import Deckwright.Proofs.Faults

/-!
# Two ways to give samples

The samples of a leaf are given as a list, or one by one to a sample builder. The builder looks at
every score when it comes and takes nothing more once one is out of range; a list is looked at when
it is there as a whole. Up to the first sample that is out of range both are the same:

* `SampleBuilder.add_described`: what one sample does to a sample builder.
* `SampleBuilder.feed_eq`: behind any list it holds the samples in front of the first one that is
  out of range, and the error of that one.

Main result: `specWith_described`, that the builder of the deck does not tell the two apart.
-/

namespace Deckwright

/-- What a sample has besides its text and its score. -/
def Sample.details (s : Sample) : SampleDetails :=
  { id := s.id, description := s.description, userMessage := s.userMessage
    assistantResponse := s.assistantResponse }

/-- A sample as it is given to a sample builder. -/
def Sample.described (s : Sample) : String × Int × SampleDetails :=
  (s.text, s.score.toInt, s.details)

/-- The error of a sample whose score is out of range. -/
def Sample.rangeError (s : Sample) : BuildError :=
  .scoreOutOfRange s.text s.score.toInt

/-- A list without a sample that is out of range has no error. -/
theorem scoreError?_of_inRange {samples : List Sample} (h : ∀ s ∈ samples, s.scoreInRange) :
    scoreError? samples = none := by
  rw [scoreError?, Option.map_eq_none_iff, List.find?_eq_none]
  intro s hMem
  simp [h s hMem]

/-- The error of a list is that of its first sample that is out of range. -/
theorem scoreError?_append {before after : List Sample} {bad : Sample}
    (hBefore : ∀ s ∈ before, s.scoreInRange) (hBad : bad.scoreInRange = false) :
    scoreError? (before ++ bad :: after) = some bad.rangeError := by
  have hNone : before.find? (fun s => !s.scoreInRange) = none :=
    List.find?_eq_none.2 fun s hMem => by simp [hBefore s hMem]
  rw [scoreError?, List.find?_append, hNone, Option.none_or,
    List.find?_cons_of_pos (by simp [hBad])]
  rfl

/-- Whether all scores are in range, or else where the first one is that is not. -/
theorem inRange_or_exists_bad (samples : List Sample) :
    (∀ s ∈ samples, s.scoreInRange) ∨
      ∃ before bad after, samples = before ++ bad :: after ∧
        (∀ s ∈ before, s.scoreInRange) ∧ bad.scoreInRange = false := by
  induction samples with
  | nil => exact .inl fun _ hMem => absurd hMem List.not_mem_nil
  | cons s rest ih =>
      cases hScore : s.scoreInRange with
      | false => exact .inr ⟨[], s, rest, rfl, fun _ hMem => absurd hMem List.not_mem_nil, hScore⟩
      | true =>
          rcases ih with hAll | ⟨before, bad, after, rfl, hBefore, hBad⟩
          · exact .inl (List.forall_mem_cons.2 ⟨hScore, hAll⟩)
          · exact .inr ⟨s :: before, bad, after, rfl, List.forall_mem_cons.2 ⟨hScore, hBefore⟩, hBad⟩

namespace SampleBuilder

/-- A sample goes behind the others if its score is in range, and is an error otherwise. -/
theorem add_described {b : SampleBuilder} (h : b.error = none) (s : Sample) :
    b.add s.text s.score.toInt s.details =
      if s.scoreInRange then { b with samples := b.samples ++ [s] }
      else { b with error := some s.rangeError } := by
  simp only [add, h, Int8.ofInt_toInt]
  rfl

/-- The samples of a list are given one after the other. -/
def feed (b : SampleBuilder) (samples : List Sample) : SampleBuilder :=
  samples.foldl (fun b s => b.add s.text s.score.toInt s.details) b

theorem ofList_described (samples : List Sample) :
    ofList (samples.map Sample.described) = feed {} samples :=
  List.foldl_map

/-- A sample builder with an error stays as it is. -/
theorem feed_of_error {b : SampleBuilder} {e : BuildError} (h : b.error = some e)
    (samples : List Sample) : b.feed samples = b := by
  induction samples with
  | nil => rfl
  | cons s rest ih =>
      have hStays : b.add s.text s.score.toInt s.details = b := by rw [add, h]
      rw [feed, List.foldl_cons, hStays]
      exact ih

/-- The samples of a list go behind those that are there, up to the first one out of range, which is
the error. -/
theorem feed_eq {b : SampleBuilder} (h : b.error = none) (samples : List Sample) :
    b.feed samples =
      { samples := b.samples ++ samples.takeWhile Sample.scoreInRange
        error := scoreError? samples } := by
  induction samples generalizing b with
  | nil =>
      obtain ⟨made, error⟩ := b
      obtain rfl : error = none := h
      simp [feed, scoreError?]
  | cons s rest ih =>
      rw [feed, List.foldl_cons, add_described h, ← feed]
      cases hScore : s.scoreInRange with
      | true =>
          have hError : scoreError? (s :: rest) = scoreError? rest := by
            rw [scoreError?, List.find?_cons_of_neg (by simp [hScore]), scoreError?]
          rw [if_pos rfl, ih (b := { b with samples := b.samples ++ [s] }) h, hError,
            List.takeWhile_cons_of_pos hScore]
          simp
      | false =>
          have hError : scoreError? (s :: rest) = some s.rangeError :=
            scoreError?_append (fun _ hMem => absurd hMem List.not_mem_nil) hScore
          rw [if_neg (by simp), feed_of_error rfl, hError,
            List.takeWhile_cons_of_neg (by simp [hScore]), List.append_nil]

end SampleBuilder

/-- A list and what a sample builder makes of it come to the same samples or the same error. -/
theorem Samples.toList_described (samples : List Sample) :
    (built (.ofList (samples.map Sample.described))).toList = (list samples).toList := by
  rw [toList, given, toList, given, SampleBuilder.ofList_described, SampleBuilder.feed_eq rfl]
  rcases inRange_or_exists_bad samples with hAll | ⟨before, bad, after, rfl, hBefore, hBad⟩
  · have hKept : samples.takeWhile Sample.scoreInRange = samples :=
      List.takeWhile_eq_self_iff.2 hAll
    simp only [hKept, List.nil_append, scoreError?_of_inRange hAll]
  · simp only [scoreError?_append hBefore hBad]

namespace Builder

/-- **Two ways to give samples.** A list of samples, of any scores, makes of any builder the same as
a sample builder that is fed with them one by one. The first sample out of range is the error, with
its text and its score; a list with such a sample adds nothing, and one without it adds the leaf. -/
theorem specWith_described (b : Builder) (value : String) (samples : List Sample) :
    b.specWith value (.built (.ofList (samples.map Sample.described))) =
        b.specWith value (.list samples) ∧
      (∀ before bad after, samples = before ++ bad :: after →
        (∀ s ∈ before, s.scoreInRange) → bad.scoreInRange = false →
        b.error = none → blank value = false →
        b.specWith value (.list samples) =
          { b with error := some (.scoreOutOfRange bad.text bad.score.toInt) }) ∧
      ((∃ s ∈ samples, s.scoreInRange = false) →
        (b.specWith value (.list samples)).cards = b.cards ∧
        (b.specWith value (.list samples)).context = b.context ∧
        (b.specWith value (.list samples)).tools = b.tools) ∧
      ((∀ s ∈ samples, s.scoreInRange) → b.error = none → blank value = false →
        b.specWith value (.list samples) = b.addCard (.leaf value samples)) := by
  have hBadList : ∀ before bad after, samples = before ++ bad :: after →
      (∀ s ∈ before, s.scoreInRange) → bad.scoreInRange = false →
      (Samples.list samples).toList = .error bad.rangeError := by
    rintro before bad after rfl hBefore hBad
    simp only [Samples.toList, Samples.given, scoreError?_append hBefore hBad]
  refine ⟨?_, ?_, ?_, ?_⟩
  · simp only [specWith, Samples.toList_described]
  · intro before bad after hList hBefore hBad hError hBlank
    simp only [specWith, attempt, hError, hBlank, hBadList before bad after hList hBefore hBad]
    rfl
  · rintro ⟨s, hMem, hScore⟩
    rcases inRange_or_exists_bad samples with hAll | ⟨before, bad, after, hList, hBefore, hBad⟩
    · rw [hAll s hMem] at hScore
      cases hScore
    · simp only [specWith, attempt, hBadList before bad after hList hBefore hBad]
      cases b.error with
      | some e => exact ⟨rfl, rfl, rfl⟩
      | none =>
          cases blank value with
          | true => exact ⟨rfl, rfl, rfl⟩
          | false => exact ⟨rfl, rfl, rfl⟩
  · intro hAll hError hBlank
    simp only [specWith, attempt, hError, hBlank, Samples.toList, Samples.given,
      scoreError?_of_inRange hAll]
    rfl

end Builder

end Deckwright
