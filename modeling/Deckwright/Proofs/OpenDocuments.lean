import Deckwright.Proofs.EmbedGraph

/-!
# What the open documents are for

The chain of open documents only decides which embeds are refused. Two chains that hold the same
of the paths that a text can reach give the same expansion (`expand_congr`). A file is read with
itself on the chain, its text without. The two readings differ only if the file can be reached
from itself, and then neither of them succeeds (`load_eq_ok_iff_read`).
-/

namespace Deckwright.Document

open Relation (TransGen ReflTransGen)

/-- Of the chain only the paths count that can be reached from the text. -/
theorem expand_congr {files : Files} {chain other : List Path} {base : Path} {text : String}
    (h : ∀ target ∈ embeddedPaths base text, ∀ path, ReflTransGen files.Links target path →
      (path ∈ chain ↔ path ∈ other)) :
    expand files chain base text = expand files other base text := by
  -- every embedded document is one file less that is not on the first chain
  induction hUnvisited : files.unvisited chain using Nat.strongRecOn
    generalizing chain other base text with
  | ind unvisited ih =>
      rw [expand_eq_map, expand_eq_map]
      apply List.map_congr_left
      intro piece hPiece
      cases piece with
      | heading level text => rfl
      | leaf text => rfl
      | lead text => rfl
      | embed embed =>
          obtain ⟨kind, file, fragment⟩ := embed
          cases kind with
          | toml => rfl
          | markdown =>
              have hTarget : (base.join file).normalize ∈ embeddedPaths base text :=
                mem_embeddedPaths.2 ⟨file, fragment, hPiece, rfl⟩
              have hSame := h _ hTarget _ .refl
              simp only [Part.ofPiece, Part.ofEmbed]
              by_cases hOpen : (base.join file).normalize ∈ chain
              · rw [if_pos hOpen, if_pos (hSame.1 hOpen)]
              · rw [if_neg hOpen, if_neg (hOpen ∘ hSame.2)]
                cases hFile : files.find? (base.join file).normalize with
                | none => rfl
                | some inner =>
                    have hLess := Files.unvisited_lt hOpen hFile
                    rw [hUnvisited] at hLess
                    refine congrArg (Part.document _ fragment) (ih _ hLess ?_ rfl)
                    intro target hInner path hPath
                    have hReached := h _ hTarget path (.head ⟨inner, hFile, hInner⟩ hPath)
                    rw [List.mem_cons, List.mem_cons, hReached]

/-- A file that does not embed itself, directly or through others, is read as its text is. -/
theorem load_eq_read {files : Files} {path : Path} {text : String}
    (hFile : files.find? path.normalize = some text)
    (h : ¬ TransGen files.Links path.normalize path.normalize) :
    load files path = read files path.normalize.parent text := by
  have hExpand : expand files [path.normalize] path.normalize.parent text =
      expand files [] path.normalize.parent text := by
    apply expand_congr
    intro target hTarget other hPath
    have hNot : other ≠ path.normalize := by
      rintro rfl
      exact h (.head' ⟨text, hFile, hTarget⟩ hPath)
    simp [hNot]
  simp only [load, hFile, read, hExpand]

/-- The text of a file that embeds itself can reach a cycle. -/
theorem not_acyclic_ofText {files : Files} {path : Path} {text : String}
    (hFile : files.find? path = some text) (h : TransGen files.Links path path) :
    ¬ (Start.ofText path.parent text).Acyclic files := by
  intro hAcyclic
  obtain ⟨target, ⟨found, hFound, hTarget⟩, hPath⟩ := TransGen.head'_iff.1 h
  obtain rfl : text = found := Option.some.inj (hFile.symm.trans hFound)
  have hLink : files.Links path target := ⟨text, hFile, hTarget⟩
  exact hAcyclic target ⟨target, hTarget, .refl⟩ (.tail' hPath hLink)

/-- A file and its text, read in the directory of the file, succeed with the same result. -/
theorem load_eq_ok_iff_read {files : Files} {path : Path} {text : String}
    (hFile : files.find? path.normalize = some text) (result : ReadDeck) :
    load files path = .ok result ↔ read files path.normalize.parent text = .ok result := by
  constructor
  · intro hLoad
    have hAcyclic : (Start.ofFile path).Acyclic files := acyclic_of_ok hLoad
    have hNot := hAcyclic path.normalize ⟨_, List.mem_singleton_self _, .refl⟩
    rwa [← load_eq_read hFile hNot]
  · intro hRead
    have hAcyclic : (Start.ofText path.normalize.parent text).Acyclic files := acyclic_of_ok hRead
    have hNot := fun hCycle => not_acyclic_ofText hFile hCycle hAcyclic
    rwa [load_eq_read hFile hNot]

/-- Two files, the first of which embeds the second from another directory. -/
def siblingFiles : Files :=
  [(.ofString "decks/a.md", "# A\n\n![](../parts/b.md)"), (.ofString "parts/b.md", "- b")]

/-- A path with detours, and the text of its file in the directory of the file. -/
theorem load_eq_ok_iff_read_sibling :
    ∃ result, load siblingFiles (.ofString "./parts/../decks/a.md") = .ok result ∧
      read siblingFiles (.ofString "decks") "# A\n\n![](../parts/b.md)" = .ok result := by
  have hOk : (load siblingFiles (.ofString "./parts/../decks/a.md")).toBool = true := by
    decide +kernel
  have hFile : siblingFiles.find? (Path.ofString "./parts/../decks/a.md").normalize =
      some "# A\n\n![](../parts/b.md)" := by decide +kernel
  have hParent : (Path.ofString "./parts/../decks/a.md").normalize.parent =
      .ofString "decks" := by decide +kernel
  obtain ⟨result, hLoad⟩ := exists_ok_of_toBool hOk
  exact ⟨result, hLoad, hParent ▸ (load_eq_ok_iff_read hFile result).1 hLoad⟩

end Deckwright.Document
