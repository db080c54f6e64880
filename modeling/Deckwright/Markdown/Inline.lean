import Deckwright.Text.Blank
import Deckwright.Text.Lines

/-!
# Inline content

The content of a paragraph: runs of text and images `![alt](target "title")`. The
alternative text ends at the first closing bracket, the parentheses at the first closing
one, and the target is the first word between them; a `![` that starts no image is text.
-/

namespace Deckwright.Markdown

/-- A piece of a paragraph. -/
inductive Inline where
  | text (run : String)
  | image (alt target : String)
  deriving DecidableEq, Inhabited

/-- The alternative text and the target of an image, and the text behind it, given the text behind its `![`. -/
def image? (cs : List Char) : Option (List Char × List Char × List Char) :=
  match Text.cut? ']' cs with
  | some (alt, '(' :: inside) =>
    match Text.cut? ')' inside with
    | some (inside, rest) => (Text.firstWord? inside).map fun target => (alt, target, rest)
    | none => none
  | _ => none

/-- What follows an image is shorter than what follows its opening. -/
theorem image?_length {cs alt target rest : List Char} (h : image? cs = some (alt, target, rest)) :
    rest.length < cs.length := by
  unfold image? at h
  split at h
  · rename_i hAlt
    have hOuter := Text.cut?_length hAlt
    split at h
    · rename_i hInside
      have hInner := Text.cut?_length hInside
      simp only [Option.map_eq_some_iff, Prod.mk.injEq] at h
      obtain ⟨_, _, _, _, rfl⟩ := h
      simp at hOuter
      omega
    · simp at h
  · simp at h

/-- A run of text, given in reverse, in front of other content; an empty run is no content. -/
def runBefore (reversed : List Char) (content : List Inline) : List Inline :=
  if reversed.isEmpty then content else .text (String.ofList reversed.reverse) :: content

/-- The content of a text that continues the given run, which is kept in reverse. -/
def inlinesFrom (run : List Char) (cs : List Char) : List Inline :=
  match cs with
  | [] => runBefore run []
  | '!' :: '[' :: more =>
    match h : image? more with
    | some (alt, target, rest) =>
      have := image?_length h
      runBefore run (.image (String.ofList alt) (String.ofList target) :: inlinesFrom [] rest)
    | none => inlinesFrom ('[' :: '!' :: run) more
  | c :: more => inlinesFrom (c :: run) more
termination_by cs.length

/-- The runs of text and the images of a text. -/
def inlines (text : String) : List Inline :=
  inlinesFrom [] text.toList

end Deckwright.Markdown
