import Deckwright.Text.Blank

/-!
# Footnote markers

A leaf refers to a sample by a marker `[^id]`. The identifier is any run of characters
other than a closing bracket and ASCII white space; it may hold an opening bracket.
-/

namespace Deckwright

/-- Whether a character can be part of the identifier in a marker. -/
def isMarkerChar (c : Char) : Bool :=
  c != ']' && !Text.isAsciiSpace c

/-- The identifier of a marker, and the text behind it, given the text behind its `[^`. -/
def markerId? (cs : List Char) : Option (List Char × List Char) :=
  match cs.takeWhile isMarkerChar, cs.dropWhile isMarkerChar with
  | c :: id, ']' :: rest => some (c :: id, rest)
  | _, _ => none

/-- What follows a marker is shorter than what follows its opening. -/
theorem markerId?_length {cs id rest : List Char} (h : markerId? cs = some (id, rest)) :
    rest.length < cs.length := by
  unfold markerId? at h
  split at h
  · rename_i hDrop
    have hLe : (cs.dropWhile isMarkerChar).length ≤ cs.length :=
      (List.dropWhile_sublist isMarkerChar).length_le
    rw [hDrop] at hLe
    simp at h
    simp at hLe
    obtain ⟨-, rfl⟩ := h
    omega
  · simp at h

/-- The identifiers of the markers in a text, in order. -/
def markerIds (cs : List Char) : List (List Char) :=
  match cs with
  | [] => []
  | '[' :: '^' :: rest =>
    match h : markerId? rest with
    | some (id, after) =>
      have := markerId?_length h
      id :: markerIds after
    | none => markerIds ('^' :: rest)
  | _ :: rest => markerIds rest
termination_by cs.length

/-- A list without the later repetitions of its members. -/
def withoutRepeats {α : Type} [BEq α] (list : List α) : List α :=
  list.foldl (fun seen x => if seen.contains x then seen else seen ++ [x]) []

/-- The identifiers that a text refers to, each once, in the order of their first markers. -/
def footnoteRefs (text : String) : List String :=
  withoutRepeats ((markerIds text.toList).map String.ofList)

end Deckwright
