import Deckwright.Path

/-!
# Normalized paths

Normalizing goes through the parts of a path with a stack. What is on the stack then is settled:
the parts `..` are at its bottom, and no part is `.`. A settled stack is built again by its own
parts, so normalizing a second time changes nothing (`normalize_normalize`).
-/

namespace Deckwright.Path

/-- Parts, the last one first, without `.` and with `..` only in front of the path. -/
inductive Settled : List String → Prop where
  | nil : Settled []
  | up {others : List String} (hUps : ∀ part ∈ others, part = "..") : Settled (".." :: others)
  | name {part : String} {others : List String} (hDot : part ≠ ".") (hUp : part ≠ "..")
      (h : Settled others) : Settled (part :: others)

namespace Settled

theorem of_ups {parts : List String} (h : ∀ part ∈ parts, part = "..") : Settled parts := by
  cases parts with
  | nil => exact .nil
  | cons first others =>
      obtain rfl := h first List.mem_cons_self
      exact .up fun part hMem => h part (List.mem_cons_of_mem _ hMem)

theorem tail {part : String} {others : List String} (h : Settled (part :: others)) :
    Settled others := by
  cases h with
  | up hUps => exact of_ups hUps
  | name _ _ hOthers => exact hOthers

/-- Every further part leaves the stack settled. -/
theorem foldPart {stack : List String} (h : Settled stack) (part : String) :
    Settled (Path.foldPart stack part) := by
  unfold Path.foldPart
  split
  · exact h
  · rename_i hDot
    split
    · cases h with
      | nil => exact .up (by simp)
      | up hUps =>
          dsimp only
          rw [if_pos rfl]
          refine .up fun other hMem => ?_
          rcases List.mem_cons.1 hMem with rfl | hOther
          · rfl
          · exact hUps other hOther
      | name _ hUp hOthers =>
          dsimp only
          rw [if_neg hUp]
          exact hOthers
    · rename_i hUp
      exact .name hDot hUp h

theorem foldl_foldPart {stack : List String} (h : Settled stack) (parts : List String) :
    Settled (parts.foldl Path.foldPart stack) := by
  induction parts generalizing stack with
  | nil => exact h
  | cons part rest ih => exact ih (h.foldPart part)

/-- A part of a settled stack stays where it is put. -/
theorem foldPart_eq {part : String} {others : List String} (h : Settled (part :: others)) :
    Path.foldPart others part = part :: others := by
  cases h with
  | up hUps =>
      cases others with
      | nil => rfl
      | cons last more =>
          obtain rfl := hUps last List.mem_cons_self
          rfl
  | name hDot hUp _ =>
      unfold Path.foldPart
      rw [if_neg hDot, if_neg hUp]

/-- The parts of a settled stack, from its bottom up, build the stack. -/
theorem foldl_reverse {stack : List String} (h : Settled stack) :
    stack.reverse.foldl Path.foldPart [] = stack := by
  induction stack with
  | nil => rfl
  | cons part others ih =>
      rw [List.reverse_cons, List.foldl_append, ih h.tail]
      exact h.foldPart_eq

end Settled

@[simp] theorem normalize_normalize (path : Path) : path.normalize.normalize = path.normalize := by
  have hSettled : Settled (path.parts.foldl foldPart []) := Settled.nil.foldl_foldPart path.parts
  simp only [normalize, hSettled.foldl_reverse]

end Deckwright.Path
