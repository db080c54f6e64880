import Mathlib.Data.List.Basic
import Mathlib.Data.List.Induction
import Mathlib.Data.List.TakeWhile
import Deckwright.SystemText

/-!
# The markers of a text

`Markers` says what the footnote markers of a text are without saying how they are found: the text
is read from the left, and wherever a marker starts, all of it is taken. So markers do not overlap,
and what looks like a marker inside the identifier of another one is none.

Three functions of the library look for markers, and they agree.

* `markers_iff`: `markerIds` finds the markers.
* `filterMap_marker?_segments`: the segments by which a leaf is rendered hold the same ones. The
  single space that rendering takes away together with a marker makes no difference.
* `mem_footnoteRefs`, `pairwise_footnoteRefs`: `footnoteRefs` lists each identifier once, in the
  order of the first markers.
-/

namespace Deckwright

/-! ## Reading from the left -/

/-- The text starts with the marker of the identifier, and `rest` is what is behind the marker. -/
structure OpensMarker (cs id rest : List Char) : Prop where
  text : cs = '[' :: '^' :: (id ++ ']' :: rest)
  notEmpty : id ≠ []
  chars : ∀ c ∈ id, isMarkerChar c

/-- The identifiers of the markers in a text: all of a marker is taken where one starts, and
otherwise one character. -/
inductive Markers : List Char → List (List Char) → Prop where
  | done : Markers [] []
  | marker {cs id rest : List Char} {ids : List (List Char)} (hOpens : OpensMarker cs id rest)
      (h : Markers rest ids) : Markers cs (id :: ids)
  | character {c : Char} {rest : List Char} {ids : List (List Char)}
      (hNone : ∀ id after, ¬ OpensMarker (c :: rest) id after) (h : Markers rest ids) :
      Markers (c :: rest) ids

/-- The text has a marker with the identifier. -/
def Refers (value id : String) : Prop :=
  ∃ ids, Markers value.toList ids ∧ id.toList ∈ ids

theorem markerId?_eq_some_iff {cs id rest : List Char} :
    markerId? cs = some (id, rest) ↔
      cs = id ++ ']' :: rest ∧ id ≠ [] ∧ ∀ c ∈ id, isMarkerChar c := by
  constructor
  · intro h
    unfold markerId? at h
    split at h
    · rename_i c name after hTake hDrop
      simp only [Option.some.injEq, Prod.mk.injEq] at h
      obtain ⟨rfl, rfl⟩ := h
      refine ⟨?_, List.cons_ne_nil c name, fun d hMem => ?_⟩
      · rw [← hTake, ← hDrop, List.takeWhile_append_dropWhile]
      · rw [← hTake] at hMem
        exact List.mem_takeWhile_imp hMem
    · cases h
  · rintro ⟨rfl, hSome, hChars⟩
    have hStop : ¬ isMarkerChar ']' := by decide
    obtain ⟨c, name, rfl⟩ := List.exists_cons_of_ne_nil hSome
    have hTake : (c :: name ++ ']' :: rest).takeWhile isMarkerChar = c :: name := by
      rw [List.takeWhile_append_of_pos hChars, List.takeWhile_cons_of_neg hStop, List.append_nil]
    have hDrop : (c :: name ++ ']' :: rest).dropWhile isMarkerChar = ']' :: rest := by
      rw [List.dropWhile_append_of_pos hChars, List.dropWhile_cons_of_neg hStop]
    simp only [markerId?, hTake, hDrop]

/-- A marker starts where an identifier can be read behind its opening. -/
theorem opensMarker_iff {cs id rest : List Char} :
    OpensMarker cs id rest ↔
      ∃ inside, cs = '[' :: '^' :: inside ∧ markerId? inside = some (id, rest) := by
  simp only [markerId?_eq_some_iff]
  constructor
  · rintro ⟨rfl, hSome, hChars⟩
    exact ⟨_, rfl, rfl, hSome, hChars⟩
  · rintro ⟨_, rfl, rfl, hSome, hChars⟩
    exact ⟨rfl, hSome, hChars⟩

theorem not_opensMarker_of_cons {c : Char} {rest : List Char}
    (h : ∀ inside, c = '[' → rest = '^' :: inside → False) (id after : List Char) :
    ¬ OpensMarker (c :: rest) id after := by
  intro hOpens
  obtain ⟨hFirst, hRest⟩ := List.cons.inj hOpens.text
  exact h _ hFirst hRest

theorem markerId?_eq_none {inside : List Char}
    (h : ∀ id after, ¬ OpensMarker ('[' :: '^' :: inside) id after) : markerId? inside = none := by
  cases hFound : markerId? inside with
  | none => rfl
  | some found => exact absurd (opensMarker_iff.2 ⟨inside, rfl, hFound⟩) (h found.1 found.2)

theorem not_opensMarker_of_markerId? {inside : List Char} (h : markerId? inside = none)
    (id after : List Char) : ¬ OpensMarker ('[' :: '^' :: inside) id after := by
  intro hOpens
  obtain ⟨other, hText, hId⟩ := opensMarker_iff.1 hOpens
  obtain rfl : inside = other := by simpa using hText
  rw [h] at hId
  cases hId

/-- Behind the opening of a marker the identifier decides. -/
theorem markerIds_opening (inside : List Char) :
    markerIds ('[' :: '^' :: inside) =
      match markerId? inside with
      | some (id, after) => id :: markerIds after
      | none => markerIds ('^' :: inside) := by
  rw [markerIds]
  split
  · rename_i hFound
    simp only [hFound]
  · rename_i hNone
    simp only [hNone]

theorem markerIds_of_opensMarker {cs id rest : List Char} (h : OpensMarker cs id rest) :
    markerIds cs = id :: markerIds rest := by
  obtain ⟨inside, rfl, hId⟩ := opensMarker_iff.1 h
  rw [markerIds_opening, hId]

theorem markerIds_of_not_opensMarker {c : Char} {rest : List Char}
    (h : ∀ id after, ¬ OpensMarker (c :: rest) id after) :
    markerIds (c :: rest) = markerIds rest := by
  by_cases hOpening : ∃ inside, c = '[' ∧ rest = '^' :: inside
  · obtain ⟨inside, rfl, rfl⟩ := hOpening
    rw [markerIds_opening, markerId?_eq_none h]
  · rw [markerIds]
    intro inside hFirst hRest
    exact hOpening ⟨inside, hFirst, hRest⟩

/-- `markerIds` finds the markers of a text, and a text has no other list of them. -/
theorem markers_iff {cs : List Char} {ids : List (List Char)} :
    Markers cs ids ↔ markerIds cs = ids := by
  constructor
  · intro h
    induction h with
    | done => rw [markerIds]
    | marker hOpens _ ih => rw [markerIds_of_opensMarker hOpens, ih]
    | character hNone _ ih => rw [markerIds_of_not_opensMarker hNone, ih]
  · rintro rfl
    induction cs using markerIds.induct with
    | case1 =>
        rw [markerIds]
        exact .done
    | case2 inside id after hFound _ ih =>
        have hOpens : OpensMarker ('[' :: '^' :: inside) id after :=
          opensMarker_iff.2 ⟨inside, rfl, hFound⟩
        rw [markerIds_of_opensMarker hOpens]
        exact .marker hOpens ih
    | case3 inside hFound ih =>
        have hNone := not_opensMarker_of_markerId? hFound
        rw [markerIds_of_not_opensMarker hNone]
        exact .character hNone ih
    | case4 c rest hOpening ih =>
        have hNone := not_opensMarker_of_cons hOpening
        rw [markerIds_of_not_opensMarker hNone]
        exact .character hNone ih

/-- A bracket that opens belongs to an identifier, and white space ends what could have been one. -/
example : markerIds "[^a[^b] [^] [^c d] [^e]".toList = ["a[^b".toList, "e".toList] := by
  decide +kernel

/-- Every text has its list of markers. -/
theorem markers_markerIds (cs : List Char) : Markers cs (markerIds cs) :=
  markers_iff.2 rfl

/-! ## Segments -/

theorem segments_opening (inside : List Char) :
    segments ('[' :: '^' :: inside) =
      match markerId? inside with
      | some (id, after) => .marker false id :: segments after
      | none => .character '[' :: segments ('^' :: inside) := by
  rw [segments]
  split
  · rename_i hFound
    simp only [hFound]
  · rename_i hNone
    simp only [hNone]

theorem segments_spaced (inside : List Char) :
    segments (' ' :: '[' :: '^' :: inside) =
      match markerId? inside with
      | some (id, after) => .marker true id :: segments after
      | none => .character ' ' :: segments ('[' :: '^' :: inside) := by
  rw [segments]
  split
  · rename_i hFound
    simp only [hFound]
  · rename_i hNone
    simp only [hNone]

/-- The segments of a text make up the text. -/
theorem flatMap_source_segments (cs : List Char) : (segments cs).flatMap Segment.source = cs := by
  induction cs using segments.induct with
  | case1 => simp [segments]
  | case2 inside id after hFound _ ih =>
      simp only [segments_spaced, hFound, List.flatMap_cons, ih]
      simp [Segment.source, (markerId?_eq_some_iff.1 hFound).1]
  | case3 inside hFound ih =>
      simp only [segments_spaced, hFound, List.flatMap_cons, ih]
      rfl
  | case4 inside id after hFound _ ih =>
      simp only [segments_opening, hFound, List.flatMap_cons, ih]
      simp [Segment.source, (markerId?_eq_some_iff.1 hFound).1]
  | case5 inside hFound ih =>
      simp only [segments_opening, hFound, List.flatMap_cons, ih]
      rfl
  | case6 c rest hSpaced hOpening ih =>
      rw [segments, List.flatMap_cons, ih]
      · rfl
      · exact hSpaced
      · exact hOpening

/-- The identifier of a segment that is a marker. -/
def Segment.marker? : Segment → Option (List Char)
  | .character _ => none
  | .marker _ id => some id

/-- The segments of a text hold its markers. -/
theorem filterMap_marker?_segments (cs : List Char) :
    (segments cs).filterMap Segment.marker? = markerIds cs := by
  -- a space starts no marker, whatever is behind it
  have hSpace (rest : List Char) : markerIds (' ' :: rest) = markerIds rest :=
    markerIds_of_not_opensMarker (not_opensMarker_of_cons (by rintro _ ⟨⟩))
  induction cs using segments.induct with
  | case1 => simp [segments, markerIds]
  | case2 inside id after hFound _ ih =>
      rw [hSpace, markerIds_opening, segments_spaced, hFound]
      exact congrArg (id :: ·) ih
  | case3 inside hFound ih =>
      rw [hSpace, segments_spaced, hFound, ← ih]
      rfl
  | case4 inside id after hFound _ ih =>
      rw [markerIds_opening, segments_opening, hFound]
      exact congrArg (id :: ·) ih
  | case5 inside hFound ih =>
      rw [markerIds_opening, segments_opening, hFound, ← ih]
      rfl
  | case6 c rest hSpaced hOpening ih =>
      rw [markerIds_of_not_opensMarker (not_opensMarker_of_cons hOpening), ← ih, segments]
      · rfl
      · exact hSpaced
      · exact hOpening

/-! ## The identifiers of a text -/

section WithoutRepeats

variable {α : Type} [DecidableEq α]

theorem withoutRepeats_append (list : List α) (x : α) :
    withoutRepeats (list ++ [x]) =
      if x ∈ withoutRepeats list then withoutRepeats list else withoutRepeats list ++ [x] := by
  simp only [withoutRepeats, List.foldl_append, List.foldl_cons, List.foldl_nil,
    List.contains_iff_mem]

@[simp] theorem mem_withoutRepeats {list : List α} {x : α} :
    x ∈ withoutRepeats list ↔ x ∈ list := by
  induction list using List.reverseRecOn with
  | nil => rfl
  | append_singleton rest y ih =>
      rw [withoutRepeats_append, List.mem_append, List.mem_singleton, ← ih]
      split
      · rename_i hKnown
        constructor
        · exact .inl
        · rintro (hMem | rfl)
          · exact hMem
          · exact hKnown
      · rw [List.mem_append, List.mem_singleton]

/-- Without its repetitions a list is in the order in which its members come first. -/
theorem pairwise_withoutRepeats (list : List α) :
    (withoutRepeats list).Pairwise fun x y => list.idxOf x < list.idxOf y := by
  induction list using List.reverseRecOn with
  | nil => exact .nil
  | append_singleton rest z ih =>
      -- a further element at the end moves no first place
      have hOld : (withoutRepeats rest).Pairwise fun x y =>
          (rest ++ [z]).idxOf x < (rest ++ [z]).idxOf y := by
        refine ih.imp_of_mem fun {x y} hx hy hLess => ?_
        rw [mem_withoutRepeats] at hx hy
        rwa [List.idxOf_append_of_mem hx, List.idxOf_append_of_mem hy]
      rw [withoutRepeats_append]
      split
      · exact hOld
      · rename_i hNew
        rw [mem_withoutRepeats] at hNew
        refine List.pairwise_append.2 ⟨hOld, List.pairwise_singleton _ _, fun x hx y hy => ?_⟩
        rw [mem_withoutRepeats] at hx
        rw [List.mem_singleton.1 hy, List.idxOf_append_of_mem hx, List.idxOf_append_of_notMem hNew]
        exact Nat.lt_add_right _ (List.idxOf_lt_length_of_mem hx)

end WithoutRepeats

/-- The identifiers that a text refers to are those of its markers. -/
theorem mem_footnoteRefs {value id : String} : id ∈ footnoteRefs value ↔ Refers value id := by
  simp only [footnoteRefs, mem_withoutRepeats, List.mem_map, Refers, markers_iff, exists_eq_left']
  constructor
  · rintro ⟨name, hMem, rfl⟩
    rwa [String.toList_ofList]
  · exact fun hMem => ⟨id.toList, hMem, String.ofList_toList⟩

theorem idxOf_map_ofList (names : List (List Char)) (id : String) :
    (names.map String.ofList).idxOf id = names.idxOf id.toList := by
  induction names with
  | nil => rfl
  | cons name rest ih =>
      have hSame : String.ofList name = id ↔ name = id.toList :=
        ⟨fun h => by rw [← h, String.toList_ofList], fun h => by rw [h, String.ofList_toList]⟩
      simp only [List.map_cons, List.idxOf_cons, ih, beq_eq_decide, hSame]

/-- The identifiers that a text refers to are in the order of their first markers. -/
theorem pairwise_footnoteRefs {value : String} {ids : List (List Char)}
    (h : Markers value.toList ids) :
    (footnoteRefs value).Pairwise fun id later =>
      ids.idxOf id.toList < ids.idxOf later.toList := by
  have hOrder := pairwise_withoutRepeats ((markerIds value.toList).map String.ofList)
  simp only [markers_iff.1 h, idxOf_map_ofList] at hOrder
  rwa [footnoteRefs, markers_iff.1 h]

end Deckwright
