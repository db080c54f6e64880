import Deckwright.Proofs.Growth

/-!
# Reading keeps the order of the text

The tree of a deck, listed parents first, is the listing of the text that it was read from:
nothing is lost, doubled or moved, at whatever depth headings and embeds are nested
(`preorder_read`). The left side is read off the finished tree, the right side off the blocks of
the documents; the two meet in the lines of growing drafts.
-/

namespace Deckwright.Document

/-- The deck that parts make lists them in their order. -/
theorem preorder_ofParts {parts : List Part} {doc : Document} (h : ofParts parts = .ok doc) :
    doc.deck.preorder = Part.listingAll false parts := by
  obtain ⟨draft, hAdd, rfl⟩ := ofParts_eq_ok h
  rw [Draft.preorder_finish, preorder_addAll Draft.titleOk_empty hAdd]
  rfl

/-- Attaching samples changes no line. -/
theorem preorder_attached (doc : Document) :
    doc.attached.deck.preorder = doc.deck.preorder := by
  simp only [attached, Deck.preorder, Node.preorderAll_attachAll]

/-- A text that is read has its own listing as the preorder of its deck. -/
theorem preorder_read {files : Files} {base : Path} {text : String} {result : ReadDeck}
    (h : read files base text = .ok result) :
    result.deck.preorder = listing files [] base text := by
  obtain ⟨doc, hParts, rfl⟩ := exists_of_map_ok h
  rw [preorder_attached, preorder_ofParts hParts, listing_eq]

/-- Two files, the first of which embeds a group of the second inside a list item. -/
def nestedFiles : Files :=
  [(.ofString "a.md", "## S\n- x ![](b.md#T) y\n\n# A\n\nz"),
    (.ofString "b.md", "# B\n\n### T\n- w")]

/-- A text with a late title, a jump from level 2 to 4, and an embed inside a list item. -/
def nestedText : String :=
  "p\n\n## R\n\n- one ![](a.md) two\n\n#### D\n\n# L"

/-- The order of the lines where headings, a late title and embeds inside list items meet. -/
theorem preorder_read_nested : ∃ result, read nestedFiles {} nestedText = .ok result ∧
    result.deck.preorder =
      [.lead "p", .group "R" 2, .leaf "one", .group "S" 2, .leaf "x", .group "T" 3, .leaf "w",
        .leaf "y", .lead "# A", .lead "z", .leaf "two", .group "D" 4, .lead "# L"] := by
  have hOk : (read nestedFiles {} nestedText).toBool = true := by decide +kernel
  cases hRead : read nestedFiles {} nestedText with
  | error error => simp [hRead, Except.toBool] at hOk
  | ok result => exact ⟨result, rfl, (preorder_read hRead).trans (by decide +kernel)⟩

end Deckwright.Document
