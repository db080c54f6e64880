import Deckwright.Builder
import Deckwright.Proofs.Markers

/-!
# What the gate lets through

A sample passes the gate of its leaf if its score is not 0 and, where a marker refers to it, it is
asked for (`Sample.Passes`). A sample that no marker refers to then stands behind the text of the
leaf. Of those that a marker refers to, the marker gives way to the first one with its identifier,
and only to that one: a later sample of the same identifier is not in the text even if it passes
and the first one does not. `leafText_of_passes` says both.
-/

namespace Deckwright

namespace Sample

/-- A marker of the value refers to the sample. -/
def ReferredTo (value : String) (s : Sample) : Prop :=
  ∃ id, s.id = some id ∧ Refers value id

/-- The sample passes the gate in a leaf with the given value. -/
structure Passes (asked : List String) (value : String) (s : Sample) : Prop where
  scored : s.score ≠ 0
  askedFor : ∀ id, s.id = some id → Refers value id → id ∈ asked

/-- A sample does not pass if its score is 0, or if it is referred to and not asked for. -/
theorem not_passes_iff {asked : List String} {value : String} {s : Sample} :
    ¬ s.Passes asked value ↔
      s.score = 0 ∨ ∃ id, s.id = some id ∧ Refers value id ∧ id ∉ asked := by
  constructor
  · intro h
    by_contra hNone
    simp only [not_or, not_exists, not_and, not_not] at hNone
    exact h ⟨hNone.1, hNone.2⟩
  · rintro (hScore | ⟨id, hId, hRefers, hNew⟩) hPasses
    · exact hPasses.scored hScore
    · exact hNew (hPasses.askedFor id hId hRefers)

theorem renders_iff {s : Sample} {referenced : Bool} {asked : List String} :
    s.renders referenced asked ↔
      s.score ≠ 0 ∧ (referenced → ∃ id, s.id = some id ∧ id ∈ asked) := by
  rw [renders, isInert]
  cases s.id with
  | none => simp
  | some id => cases referenced <;> simp

theorem referencedIn_iff {s : Sample} {value : String} :
    s.referencedIn (footnoteRefs value) ↔ s.ReferredTo value := by
  rw [referencedIn, ReferredTo]
  cases s.id with
  | none => simp
  | some id => simp [mem_footnoteRefs]

end Sample

/-! ## Samples behind the text -/

section Leaves

variable {asked : List String} {value : String} {samples : List Sample} {s : Sample}

theorem mem_appendedSamples :
    s ∈ appendedSamples asked value samples ↔
      s ∈ samples ∧ ¬ s.ReferredTo value ∧ s.score ≠ 0 := by
  rw [appendedSamples, List.mem_filter, Bool.and_eq_true, Bool.not_eq_true', ← Bool.not_eq_true,
    Sample.referencedIn_iff, Sample.renders_iff]
  simp

theorem isInfix_intercalate {α : Type} {sep part : List α} {parts : List (List α)}
    (h : part ∈ parts) : part <:+: sep.intercalate parts := by
  induction parts with
  | nil => cases h
  | cons first rest ih =>
      cases rest with
      | nil => simp [List.mem_singleton.1 h]
      | cons second rest =>
          rw [List.intercalate_cons_cons]
          rcases List.mem_cons.1 h with rfl | hRest
          · exact ((List.prefix_append _ _).trans (List.prefix_append _ _)).isInfix
          · exact (ih hRest).trans (List.suffix_append _ _).isInfix

/-- The text of a leaf starts with its value, in which markers have given way to samples. -/
theorem body_isPrefix_leafText :
    (segments value.toList).flatMap (Segment.text asked samples) <+:
      (leafText asked value samples).toList := by
  simp only [leafText]
  split
  · simp
  · simp only [String.toList_append, String.toList_ofList, List.append_assoc]
    exact List.prefix_append _ _

/-- A sample that no marker refers to stands behind the text. -/
theorem tag_isInfix_of_mem_appendedSamples (h : s ∈ appendedSamples asked value samples) :
    s.tag.toList <:+: (leafText asked value samples).toList := by
  have hTag : s.tag.toList ∈
      ((appendedSamples asked value samples).map Sample.tag).map String.toList :=
    List.mem_map_of_mem (List.mem_map_of_mem h)
  simp only [leafText]
  split
  · rename_i hNone
    rw [hNone] at h
    cases h
  · simp only [String.toList_append, String.toList_intercalate]
    exact ((isInfix_intercalate hTag).trans (List.suffix_append _ _).isInfix).trans
      (List.prefix_append _ _).isInfix

/-! ## Samples in the place of markers -/

/-- Where a text refers to an identifier, one of its segments is a marker of it. -/
theorem exists_marker {id : String} (h : Refers value id) :
    ∃ spaced, Segment.marker spaced id.toList ∈ segments value.toList := by
  obtain ⟨ids, hMarkers, hMem⟩ := h
  rw [← markers_iff.1 hMarkers, ← filterMap_marker?_segments] at hMem
  obtain ⟨segment, hSegment, hId⟩ := List.mem_filterMap.1 hMem
  cases segment with
  | character c => cases hId
  | marker spaced name =>
      cases hId
      exact ⟨spaced, hSegment⟩

/-- A marker gives way to the first sample of its identifier, if that passes. -/
theorem tag_isInfix_of_find? {id : String} (hRefers : Refers value id)
    (hFirst : samples.find? (fun other => other.id = some id) = some s)
    (hRenders : s.renders true asked) :
    s.tag.toList <:+: (leafText asked value samples).toList := by
  obtain ⟨spaced, hSegment⟩ := exists_marker hRefers
  have hText : s.tag.toList <:+:
      (Segment.marker spaced id.toList).text asked samples := by
    simp only [Segment.text, String.ofList_toList, hFirst, hRenders, if_true]
    exact (List.suffix_append _ _).isInfix
  have hBody : (Segment.marker spaced id.toList).text asked samples <:+:
      (segments value.toList).flatMap (Segment.text asked samples) := by
    rw [List.flatMap_def]
    exact List.infix_of_mem_flatten (List.mem_map_of_mem hSegment)
  exact (hText.trans hBody).trans body_isPrefix_leafText.isInfix

/-- A sample whose identifier another one has before it is not looked up. -/
theorem find?_of_earlier {before after : List Sample}
    (hEarlier : ∃ other ∈ before, other.id = s.id) (id : Option String) :
    (before ++ s :: after).find? (fun other => other.id = id) =
      (before ++ after).find? fun other => other.id = id := by
  rw [List.find?_append, List.find?_append, List.find?_cons]
  split
  · rename_i hId
    obtain ⟨other, hMem, hSame⟩ := hEarlier
    have hFound : (before.find? fun other => other.id = id).isSome := by
      rw [List.find?_isSome]
      exact ⟨other, hMem, by simpa [hSame] using hId⟩
    obtain ⟨first, hFirst⟩ := Option.isSome_iff_exists.1 hFound
    rw [hFirst, Option.some_or, Option.some_or]
  · rfl

theorem leafText_congr {others : List Sample}
    (hFind : ∀ id, samples.find? (fun s => s.id = some id) = others.find? fun s => s.id = some id)
    (hAppended : appendedSamples asked value samples = appendedSamples asked value others) :
    leafText asked value samples = leafText asked value others := by
  have hText : Segment.text asked samples = Segment.text asked others := by
    funext segment
    cases segment with
    | character c => rfl
    | marker spaced id => rw [Segment.text, Segment.text, hFind]
  rw [leafText, leafText, hText, hAppended]

/-! ## All samples -/

/-- A sample that passes the gate is in the text of its leaf unless a marker refers to it and an
earlier sample of the leaf has the same identifier. Then the text is as if it were not there. -/
theorem leafText_of_passes {before after : List Sample} (hPasses : s.Passes asked value) :
    ((s.ReferredTo value → ∀ other ∈ before, other.id ≠ s.id) →
      s.tag.toList <:+: (leafText asked value (before ++ s :: after)).toList) ∧
    (s.ReferredTo value → (∃ other ∈ before, other.id = s.id) →
      leafText asked value (before ++ s :: after) = leafText asked value (before ++ after)) := by
  have hMem : s ∈ before ++ s :: after := List.mem_append_right before List.mem_cons_self
  constructor
  · intro hFirst
    by_cases hReferred : s.ReferredTo value
    · obtain ⟨id, hId, hRefers⟩ := hReferred
      have hNone : ∀ other ∈ before, other.id ≠ some id := hId ▸ hFirst ⟨id, hId, hRefers⟩
      have hFind : (before ++ s :: after).find? (fun other => other.id = some id) = some s := by
        rw [List.find?_append, List.find?_eq_none.2 (by simpa using hNone),
          List.find?_cons_of_pos (by simpa using hId), Option.none_or]
      exact tag_isInfix_of_find? hRefers hFind
        (Sample.renders_iff.2 ⟨hPasses.scored, fun _ => ⟨id, hId, hPasses.askedFor id hId hRefers⟩⟩)
    · exact tag_isInfix_of_mem_appendedSamples
        (mem_appendedSamples.2 ⟨hMem, hReferred, hPasses.scored⟩)
  · intro hReferred hEarlier
    refine leafText_congr (fun id => find?_of_earlier hEarlier (some id)) ?_
    rw [appendedSamples, appendedSamples, List.filter_append, List.filter_append,
      List.filter_cons_of_neg]
    simp [Sample.referencedIn_iff.2 hReferred]

end Leaves

/-- A sample that never becomes text. -/
def dullTwin : Sample := { id := some "a", text := "meh", score := 0 }

/-- A sample with the same identifier that may become text. -/
def goodTwin : Sample := { id := some "a", text := "good", score := 2 }

theorem passes_goodTwin : goodTwin.Passes ["a"] "Note [^a]" where
  scored := by decide
  askedFor := by
    intro id hId _
    rw [goodTwin, Option.some.injEq] at hId
    simp [hId]

theorem referredTo_goodTwin : goodTwin.ReferredTo "Note [^a]" :=
  ⟨"a", rfl, mem_footnoteRefs.1 (by decide +kernel)⟩

/-- The sample is in the text if it comes first, and behind the other one it makes no difference. -/
theorem leafText_of_passes_goodTwin :
    goodTwin.tag.toList <:+: (leafText ["a"] "Note [^a]" [goodTwin, dullTwin]).toList ∧
    leafText ["a"] "Note [^a]" [dullTwin, goodTwin] = leafText ["a"] "Note [^a]" [dullTwin] :=
  ⟨(@leafText_of_passes _ _ _ [] [dullTwin] passes_goodTwin).1 (by simp),
    (@leafText_of_passes _ _ _ [dullTwin] [] passes_goodTwin).2 referredTo_goodTwin
      ⟨dullTwin, List.mem_cons_self, rfl⟩⟩

/-- The two samples are accepted in this order, and the one that passes the gate is not rendered. -/
theorem not_isInfix_tag_goodTwin :
    (Builder.specWith {} "Note [^a]" (.list [dullTwin, goodTwin])).build.toOption.map Deck.children =
      some [.leaf "Note [^a]" [dullTwin, goodTwin]] ∧
    goodTwin.Passes ["a"] "Note [^a]" ∧
    leafText ["a"] "Note [^a]" [dullTwin, goodTwin] = "Note" ∧
    ¬ goodTwin.tag.toList <:+: (leafText ["a"] "Note [^a]" [dullTwin, goodTwin]).toList :=
  ⟨by rfl, passes_goodTwin, by decide +kernel, by decide +kernel⟩

end Deckwright
