import Mathlib.Data.List.Forall2
import Deckwright.Proofs.Gate

/-!
# The markers that rendering finds

Rendering looks for another pattern than the one that binds samples to leaves: it takes the single
space in front of a marker along. `Segmented` says what a scan from the left for that pattern finds,
just as `Markers` says it for markers alone. The space decides where a match starts and nothing else,
so both scans find the same markers (`Segmented.markers`), and a text is rendered by giving each
segment its own text (`stands_iff`).

Main result: `rendered_markers`.
-/

namespace Deckwright

/-! ## Scanning from the left -/

/-- The text starts with a marker of the identifier, or with a single space and then the marker;
`rest` is what is behind it. -/
inductive OpensSegment : List Char → Bool → List Char → List Char → Prop where
  | bare {cs id rest : List Char} (h : OpensMarker cs id rest) : OpensSegment cs false id rest
  | spaced {cs id rest : List Char} (h : OpensMarker cs id rest) :
      OpensSegment (' ' :: cs) true id rest

/-- The segments of a text: all of a marker is taken where one starts, with the space in front of
it, and otherwise one character. -/
inductive Segmented : List Char → List Segment → Prop where
  | done : Segmented [] []
  | marker {cs id rest : List Char} {spaced : Bool} {segs : List Segment}
      (hOpens : OpensSegment cs spaced id rest) (h : Segmented rest segs) :
      Segmented cs (.marker spaced id :: segs)
  | character {c : Char} {rest : List Char} {segs : List Segment}
      (hNone : ∀ spaced id after, ¬ OpensSegment (c :: rest) spaced id after)
      (h : Segmented rest segs) : Segmented (c :: rest) (.character c :: segs)

theorem not_opensMarker_space (rest id after : List Char) : ¬ OpensMarker (' ' :: rest) id after :=
  not_opensMarker_of_cons (by rintro _ ⟨⟩) id after

theorem segments_of_opensSegment {cs id rest : List Char} {spaced : Bool}
    (h : OpensSegment cs spaced id rest) : segments cs = .marker spaced id :: segments rest := by
  cases h with
  | bare h =>
      obtain ⟨inside, rfl, hId⟩ := opensMarker_iff.1 h
      rw [segments_opening, hId]
  | spaced h =>
      obtain ⟨inside, rfl, hId⟩ := opensMarker_iff.1 h
      rw [segments_spaced, hId]

theorem segments_of_not_opensSegment {c : Char} {rest : List Char}
    (h : ∀ spaced id after, ¬ OpensSegment (c :: rest) spaced id after) :
    segments (c :: rest) = .character c :: segments rest := by
  have hBare : ∀ inside, c = '[' → rest = '^' :: inside → markerId? inside = none := by
    rintro inside rfl rfl
    exact markerId?_eq_none fun id after hOpens => h false id after (.bare hOpens)
  have hSpaced : ∀ inside, c = ' ' → rest = '[' :: '^' :: inside → markerId? inside = none := by
    rintro inside rfl rfl
    exact markerId?_eq_none fun id after hOpens => h true id after (.spaced hOpens)
  by_cases hOpening : ∃ inside, c = '[' ∧ rest = '^' :: inside
  · obtain ⟨inside, rfl, rfl⟩ := hOpening
    rw [segments_opening, hBare inside rfl rfl]
  · by_cases hSpace : ∃ inside, c = ' ' ∧ rest = '[' :: '^' :: inside
    · obtain ⟨inside, rfl, rfl⟩ := hSpace
      rw [segments_spaced, hSpaced inside rfl rfl]
    · rw [segments]
      · exact fun inside hFirst hRest => hSpace ⟨inside, hFirst, hRest⟩
      · exact fun inside hFirst hRest => hOpening ⟨inside, hFirst, hRest⟩

theorem not_opensSegment {c : Char} {rest : List Char}
    (hBare : ∀ id after, ¬ OpensMarker (c :: rest) id after)
    (hSpaced : c = ' ' → ∀ id after, ¬ OpensMarker rest id after) (spaced : Bool)
    (id after : List Char) : ¬ OpensSegment (c :: rest) spaced id after := by
  intro hOpens
  cases hOpens with
  | bare h => exact hBare id after h
  | spaced h => exact hSpaced rfl id after h

/-- `segments` finds the segments, and a text has no other list of them. -/
theorem segmented_iff {cs : List Char} {segs : List Segment} :
    Segmented cs segs ↔ segments cs = segs := by
  constructor
  · intro h
    induction h with
    | done => rw [segments]
    | marker hOpens _ ih => rw [segments_of_opensSegment hOpens, ih]
    | character hNone _ ih => rw [segments_of_not_opensSegment hNone, ih]
  · rintro rfl
    induction cs using segments.induct with
    | case1 =>
        rw [segments]
        exact .done
    | case2 inside id after hFound _ ih =>
        have hOpens : OpensSegment (' ' :: '[' :: '^' :: inside) true id after :=
          .spaced (opensMarker_iff.2 ⟨inside, rfl, hFound⟩)
        rw [segments_of_opensSegment hOpens]
        exact .marker hOpens ih
    | case3 inside hFound ih =>
        have hNone := not_opensSegment (not_opensMarker_space ('[' :: '^' :: inside))
          fun _ => not_opensMarker_of_markerId? hFound
        rw [segments_of_not_opensSegment hNone]
        exact .character hNone ih
    | case4 inside id after hFound _ ih =>
        have hOpens : OpensSegment ('[' :: '^' :: inside) false id after :=
          .bare (opensMarker_iff.2 ⟨inside, rfl, hFound⟩)
        rw [segments_of_opensSegment hOpens]
        exact .marker hOpens ih
    | case5 inside hFound ih =>
        have hNone := not_opensSegment (not_opensMarker_of_markerId? hFound) (by rintro ⟨⟩)
        rw [segments_of_not_opensSegment hNone]
        exact .character hNone ih
    | case6 c rest hSpaced hOpening ih =>
        have hNone := not_opensSegment (not_opensMarker_of_cons hOpening) fun hSpace id after h =>
          hSpaced _ hSpace h.text
        rw [segments_of_not_opensSegment hNone]
        exact .character hNone ih

/-- **One scan, one list of markers.** The space in front of a marker opens none itself, so taking
it along or not makes no difference for the markers. -/
theorem Segmented.markers {cs : List Char} {segs : List Segment} (h : Segmented cs segs) :
    Markers cs (segs.filterMap Segment.marker?) := by
  induction h with
  | done => exact .done
  | marker hOpens _ ih =>
      cases hOpens with
      | bare hOpens => exact .marker hOpens ih
      | spaced hOpens => exact .character (not_opensMarker_space _) (.marker hOpens ih)
  | character hNone _ ih =>
      exact .character (fun id after hOpens => hNone false id after (.bare hOpens)) ih

/-! ## The text of a leaf -/

section Leaves

variable {asked : List String} {samples : List Sample}

/-- What a segment becomes. A character and a marker that belongs to no sample stay; any other
marker belongs to the first sample with its identifier, and goes unless that sample is asked for and
its score is not 0. -/
inductive Stands (asked : List String) (samples : List Sample) : Segment → List Char → Prop where
  | character (c : Char) : Stands asked samples (.character c) [c]
  | other {spaced : Bool} {id : List Char} (h : ∀ s ∈ samples, s.id ≠ some (String.ofList id)) :
      Stands asked samples (.marker spaced id) (Segment.marker spaced id).source
  | sample {spaced : Bool} {id : List Char} {before after : List Sample} {s : Sample}
      (hSamples : samples = before ++ s :: after) (hId : s.id = some (String.ofList id))
      (hFirst : ∀ earlier ∈ before, earlier.id ≠ some (String.ofList id)) (hScore : s.score ≠ 0)
      (hAsked : String.ofList id ∈ asked) :
      Stands asked samples (.marker spaced id)
        ((if spaced then [' '] else []) ++ s.tag.toList)
  | dropped {spaced : Bool} {id : List Char} {before after : List Sample} {s : Sample}
      (hSamples : samples = before ++ s :: after) (hId : s.id = some (String.ofList id))
      (hFirst : ∀ earlier ∈ before, earlier.id ≠ some (String.ofList id))
      (hNot : s.score = 0 ∨ String.ofList id ∉ asked) :
      Stands asked samples (.marker spaced id) []

theorem renders_referenced_iff {s : Sample} {id : String} (hId : s.id = some id) :
    s.renders true asked ↔ s.score ≠ 0 ∧ id ∈ asked := by
  rw [Sample.renders_iff, hId]
  simp

theorem find?_of_first {before after : List Sample} {s : Sample} {id : String}
    (hId : s.id = some id) (hFirst : ∀ earlier ∈ before, earlier.id ≠ some id) :
    (before ++ s :: after).find? (fun other => other.id = some id) = some s :=
  List.find?_eq_some_iff_append.2 ⟨by simpa using hId, before, after, rfl, by simpa using hFirst⟩

/-- A segment becomes its text and nothing else. -/
theorem stands_iff {segment : Segment} {text : List Char} :
    Stands asked samples segment text ↔ segment.text asked samples = text := by
  constructor
  · intro h
    cases h with
    | character c => rfl
    | @other spaced id h =>
        have hNone : samples.find? (fun s => s.id = some (String.ofList id)) = none :=
          List.find?_eq_none.2 (by simpa using h)
        rw [Segment.text, hNone]
    | sample hSamples hId hFirst hScore hAsked =>
        rw [Segment.text, hSamples, find?_of_first hId hFirst]
        exact if_pos ((renders_referenced_iff hId).2 ⟨hScore, hAsked⟩)
    | dropped hSamples hId hFirst hNot =>
        rw [Segment.text, hSamples, find?_of_first hId hFirst]
        refine if_neg fun hRenders => ?_
        obtain ⟨hScore, hAsked⟩ := (renders_referenced_iff hId).1 hRenders
        exact hNot.elim hScore (· hAsked)
  · rintro rfl
    cases segment with
    | character c => exact .character c
    | marker spaced id =>
        cases hFind : samples.find? fun s => s.id = some (String.ofList id) with
        | none =>
            rw [Segment.text, hFind]
            exact .other (by simpa using hFind)
        | some s =>
            obtain ⟨hId, before, after, hSamples, hFirst⟩ := List.find?_eq_some_iff_append.1 hFind
            rw [decide_eq_true_eq] at hId
            have hEarlier : ∀ earlier ∈ before, earlier.id ≠ some (String.ofList id) := by
              simpa using hFirst
            rw [Segment.text, hFind]
            by_cases hRenders : s.renders true asked
            · obtain ⟨hScore, hAsked⟩ := (renders_referenced_iff hId).1 hRenders
              simp only [hRenders, if_true]
              exact .sample hSamples hId hEarlier hScore hAsked
            · simp only [hRenders, Bool.false_eq_true, if_false]
              refine .dropped hSamples hId hEarlier ?_
              rwa [renders_referenced_iff hId, not_and_or, not_not] at hRenders

/-- The samples behind the text of a leaf, as text. -/
def appendedBlock (asked : List String) (value : String) (samples : List Sample) : String :=
  match appendedSamples asked value samples with
  | [] => ""
  | appended =>
    "\n<samples>\n" ++ String.intercalate "\n" (appended.map Sample.tag) ++ "\n</samples>"

theorem leafText_eq (asked : List String) (value : String) (samples : List Sample) :
    leafText asked value samples =
      String.ofList ((segments value.toList).flatMap (Segment.text asked samples)) ++
        appendedBlock asked value samples := by
  rw [leafText, appendedBlock]
  cases appendedSamples asked value samples with
  | nil => rw [String.append_empty]
  | cons s rest => simp only [String.append_assoc]

/-- **Markers.** A text has one list of segments, and their markers are the markers of the text,
whose identifiers `footnoteRefs` lists once each, in the order of the first ones. A leaf becomes the
segments of its value, of which none changes but the markers of its samples, and behind them the
samples that have no marker. -/
theorem rendered_markers (value : String) : ∃ segs,
    (∀ other, Segmented value.toList other ↔ other = segs) ∧
    (∀ ids, Markers value.toList ids ↔ ids = segs.filterMap Segment.marker?) ∧
    (∀ id, id ∈ footnoteRefs value ↔ id.toList ∈ segs.filterMap Segment.marker?) ∧
    (footnoteRefs value).Pairwise (fun id later =>
      (segs.filterMap Segment.marker?).idxOf id.toList <
        (segs.filterMap Segment.marker?).idxOf later.toList) ∧
    segs.flatMap Segment.source = value.toList ∧
    ∀ asked samples, ∃ texts, List.Forall₂ (Stands asked samples) segs texts ∧
      (Node.leaf value samples).text asked =
        String.ofList texts.flatten ++ appendedBlock asked value samples := by
  have hSegmented : Segmented value.toList (segments value.toList) := segmented_iff.2 rfl
  have hMarkers := hSegmented.markers
  refine ⟨segments value.toList, fun other => ?_, fun ids => ?_, fun id => ?_,
    pairwise_footnoteRefs hMarkers, flatMap_source_segments _, fun asked samples => ?_⟩
  · rw [segmented_iff, eq_comm]
  · rw [markers_iff, markers_iff.1 hMarkers, eq_comm]
  · rw [mem_footnoteRefs, Refers]
    simp only [markers_iff, markers_iff.1 hMarkers, exists_eq_left']
  · refine ⟨(segments value.toList).map (Segment.text asked samples), ?_, ?_⟩
    · exact List.forall₂_map_right_iff.2 (List.forall₂_same.2 fun _ _ => stands_iff.2 rfl)
    · rw [Node.text, leafText_eq, List.flatMap_def]

end Leaves

end Deckwright
