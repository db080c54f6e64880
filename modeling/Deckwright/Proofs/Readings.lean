import Deckwright.Proofs.Standing

/-!
# Readings

A deck is read from a text in some directory or from a file (`Reads`). Other documents take part
in it: those that the text embeds, those that these embed, and so on (`Reaches`). Each of them is
a `Source`, a text together with its directory and with the documents that are open around it.
When the reading succeeds, every one of them makes a deck of its own (`Reaches.exists_doc`).
-/

namespace Deckwright.Document

open Markdown (Block)

/-- A document that is being read: the documents that are open, its directory and its text. -/
structure Source where
  chain : List Path
  base : Path
  text : String

namespace Source

/-- The blocks of the document. -/
def blocks (source : Source) : List Block :=
  Markdown.blocks source.text

/-- The expansion of the document. -/
def parts (files : Files) (source : Source) : List Part :=
  expand files source.chain source.base source.text

end Source

/-! ## Readings -/

/-- A reading of a text or of a file, and the deck that it makes. -/
inductive Reads (files : Files) : Source → ReadDeck → Prop where
  | text {base : Path} {text : String} {result : ReadDeck}
      (h : read files base text = .ok result) : Reads files ⟨[], base, text⟩ result
  | file {path : Path} {text : String} {result : ReadDeck}
      (hFile : files.find? path.normalize = some text) (h : load files path = .ok result) :
      Reads files ⟨[path.normalize], path.normalize.parent, text⟩ result

/-- The document embeds another one, or the group of it that the fragment names. -/
def Source.Embeds (files : Files) (source : Source) (fragment : Option String)
    (inner : Source) : Prop :=
  ∃ path, .document path fragment (inner.parts files) ∈ source.parts files ∧
    files.find? path = some inner.text ∧ inner.chain = path :: source.chain ∧
    inner.base = path.parent

/-- A document in the parts of a source comes from a piece that embeds it; it is there and not open
yet. -/
theorem Source.exists_piece {files : Files} {source : Source} {path : Path}
    {fragment : Option String} {own : List Part}
    (h : .document path fragment own ∈ source.parts files) :
    ∃ file text, Piece.embed ⟨.markdown, file, fragment⟩ ∈ Piece.ofText source.text ∧
      path = (source.base.join file).normalize ∧ path ∉ source.chain ∧
      files.find? path = some text ∧
      own = Source.parts files ⟨path :: source.chain, path.parent, text⟩ := by
  rw [parts, expand_eq_map] at h
  obtain ⟨piece, hMem, hPiece⟩ := List.mem_map.1 h
  cases piece with
  | embed embed =>
      obtain ⟨kind, file, wanted⟩ := embed
      cases kind with
      | toml =>
          simp only [Part.ofPiece, Part.ofEmbed, Part.ofDefinitions] at hPiece
          split at hPiece
          · cases hPiece
          · split at hPiece <;> cases hPiece
      | markdown =>
          simp only [Part.ofPiece, Part.ofEmbed] at hPiece
          split at hPiece
          · cases hPiece
          · rename_i hNew
            split at hPiece
            · cases hPiece
            · rename_i text hFile
              injection hPiece with hPath hFragment hOwn
              subst hPath hFragment hOwn
              exact ⟨file, text, hMem, rfl, hNew, hFile, rfl⟩
  | heading level text => cases hPiece
  | leaf text => cases hPiece
  | lead text => cases hPiece

/-- The documents in the parts of a source are the ones that it embeds. -/
theorem Source.exists_embeds {files : Files} {source : Source} {path : Path}
    {fragment : Option String} {own : List Part}
    (h : .document path fragment own ∈ source.parts files) :
    ∃ inner, source.Embeds files fragment inner ∧ own = inner.parts files := by
  obtain ⟨file, text, -, -, -, hFile, hOwn⟩ := source.exists_piece h
  exact ⟨⟨path :: source.chain, path.parent, text⟩, ⟨path, hOwn ▸ h, hFile, rfl, rfl⟩, hOwn⟩

/-- A document embeds what one of its pieces names, if that is there and not open yet. -/
theorem Source.embeds_iff {files : Files} {source inner : Source} {fragment : Option String} :
    source.Embeds files fragment inner ↔
      ∃ file, Piece.embed ⟨.markdown, file, fragment⟩ ∈ Piece.ofText source.text ∧
        (source.base.join file).normalize ∉ source.chain ∧
        files.find? (source.base.join file).normalize = some inner.text ∧
        inner.chain = (source.base.join file).normalize :: source.chain ∧
        inner.base = (source.base.join file).normalize.parent := by
  constructor
  · rintro ⟨path, hMem, hFound, hChain, hBase⟩
    obtain ⟨file, -, hPiece, rfl, hNew, -, -⟩ := source.exists_piece hMem
    exact ⟨file, hPiece, hNew, hFound, hChain, hBase⟩
  · rintro ⟨file, hPiece, hNew, hFound, hChain, hBase⟩
    refine ⟨(source.base.join file).normalize, ?_, hFound, hChain, hBase⟩
    rw [Source.parts, expand_eq_map]
    refine List.mem_map.2 ⟨_, hPiece, ?_⟩
    simp only [Part.ofPiece, Part.ofEmbed, if_neg hNew, hFound]
    rw [Source.parts, hChain, hBase]

/-- The documents that take part in a reading. -/
inductive Reaches (files : Files) (top : Source) : Source → Prop where
  | top : Reaches files top top
  | embed {source inner : Source} {fragment : Option String} (h : Reaches files top source)
      (hEmbeds : source.Embeds files fragment inner) : Reaches files top inner

theorem Reads.exists_doc {files : Files} {top : Source} {result : ReadDeck}
    (h : Reads files top result) :
    ∃ doc, ofParts (top.parts files) = .ok doc ∧ result = doc.attached := by
  cases h with
  | text h => exact exists_of_map_ok h
  | file hFile h =>
      simp only [load, hFile] at h
      exact exists_of_map_ok h

/-- Every document that takes part in a reading makes a deck of its own. -/
theorem Reaches.exists_doc {files : Files} {top source : Source} {result : ReadDeck}
    (hReads : Reads files top result) (h : Reaches files top source) :
    ∃ doc, ofParts (source.parts files) = .ok doc := by
  induction h with
  | top =>
      obtain ⟨doc, hDoc, -⟩ := hReads.exists_doc
      exact ⟨doc, hDoc⟩
  | embed _ hEmbeds ih =>
      obtain ⟨outer, hOuter⟩ := ih
      obtain ⟨path, hMem, -⟩ := hEmbeds
      obtain ⟨draft, hAdd, -⟩ := ofParts_eq_ok hOuter
      obtain ⟨doc, -, hDoc, -⟩ := stand_of_mem_parts hAdd hMem
      exact ⟨doc, hDoc⟩

end Deckwright.Document
