import Mathlib.Data.List.Dedup
import Mathlib.Data.List.Perm.Subperm
import Mathlib.Logic.Relation
import Deckwright.Proofs.Readings

/-!
# The graph of embeds

Files are linked by the documents that they embed (`Files.Links`). A reading starts from a text
or from a file (`Start`) and meets the files that can be reached from there. The graph is read
off the files alone: it knows of no open documents, which are what the reading goes by. The two
sides are tied together in both directions.

* `Source.Traced`: on the chain of open documents every file is linked, over the later ones, to
  all that the innermost document embeds. So an embed that is refused closes a cycle.
* `exists_isFile`, `not_mem_of_transGen`: a reading that succeeds goes along every link, with
  everything that it went through on the chain. So no link leads back.

Main result: `outcome_acyclic`. Reading comes to an end, it succeeds only where the graph has no
cycle and lacks no file, and it reports a cycle only where there is one.
-/

namespace Deckwright

namespace Document

/-- The paths of the documents that a text in the directory `base` embeds. -/
def embeddedPaths (base : Path) (text : String) : List Path :=
  (Piece.ofText text).filterMap fun piece =>
    match piece with
    | .embed ⟨.markdown, file, _⟩ => some (base.join file).normalize
    | _ => none

theorem mem_embeddedPaths {base target : Path} {text : String} :
    target ∈ embeddedPaths base text ↔
      ∃ file fragment, Piece.embed ⟨.markdown, file, fragment⟩ ∈ Piece.ofText text ∧
        (base.join file).normalize = target := by
  simp only [embeddedPaths, List.mem_filterMap]
  constructor
  · rintro ⟨piece, hPiece, hSome⟩
    split at hSome
    · exact ⟨_, _, hPiece, Option.some.inj hSome⟩
    · cases hSome
  · rintro ⟨file, fragment, hPiece, rfl⟩
    exact ⟨_, hPiece, rfl⟩

end Document

/-- The paths that there are files at, each once. -/
def Files.paths (files : Files) : List Path :=
  (files.map Prod.fst).dedup

/-- The file at a path embeds the document at the other one. -/
def Files.Links (files : Files) (path target : Path) : Prop :=
  ∃ text, files.find? path = some text ∧ target ∈ Document.embeddedPaths path.parent text

namespace Document

open Relation (TransGen ReflTransGen)

/-- What is read: a text in a directory, or the file at a path. -/
inductive Start where
  | ofText (base : Path) (text : String)
  | ofFile (path : Path)

namespace Start

/-- What reading comes to. -/
def outcome (files : Files) : Start → Except DocumentError ReadDeck
  | .ofText base text => read files base text
  | .ofFile path => load files path

/-- The document that is read first, if it is there. -/
def source? (files : Files) : Start → Option Source
  | .ofText base text => some ⟨[], base, text⟩
  | .ofFile path =>
    (files.find? path.normalize).map fun text => ⟨[path.normalize], path.normalize.parent, text⟩

/-- The paths where reading enters the graph of embeds. -/
def entries : Start → List Path
  | .ofText base text => embeddedPaths base text
  | .ofFile path => [path.normalize]

/-- The path can be reached in the graph of embeds. -/
def Reachable (files : Files) (start : Start) (path : Path) : Prop :=
  ∃ first ∈ start.entries, ReflTransGen files.Links first path

/-- No path that can be reached leads back to itself. -/
def Acyclic (files : Files) (start : Start) : Prop :=
  ∀ path, start.Reachable files path → ¬ TransGen files.Links path path

theorem Reachable.link {files : Files} {start : Start} {path target : Path}
    (h : start.Reachable files path) (hLink : files.Links path target) :
    start.Reachable files target := by
  obtain ⟨first, hFirst, hPath⟩ := h
  exact ⟨first, hFirst, hPath.tail hLink⟩

theorem outcome_of_source? {files : Files} {start : Start} {top : Source}
    (h : start.source? files = some top) :
    start.outcome files = (ofParts (top.parts files)).map attached := by
  cases start with
  | ofText base text =>
      cases h
      rfl
  | ofFile path =>
      obtain ⟨text, hFile, rfl⟩ := Option.map_eq_some_iff.1 h
      simp only [outcome, load, hFile]
      rfl

theorem outcome_of_source?_none {files : Files} {start : Start}
    (h : start.source? files = none) : ∃ path, start.outcome files = .error (.unreadable path) := by
  cases start with
  | ofText base text => cases h
  | ofFile path =>
      rw [source?, Option.map_eq_none_iff] at h
      exact ⟨path.normalize, by simp only [outcome, load, h]⟩

/-- A reading that succeeds has a document to start with. -/
theorem exists_reads {files : Files} {start : Start} {result : ReadDeck}
    (h : start.outcome files = .ok result) :
    ∃ top, start.source? files = some top ∧ Reads files top result := by
  cases start with
  | ofText base text => exact ⟨_, rfl, .text h⟩
  | ofFile path =>
      cases hFile : files.find? path.normalize with
      | none =>
          simp only [outcome, load, hFile] at h
          cases h
      | some text => exact ⟨_, by rw [source?, hFile, Option.map_some], .file hFile h⟩

end Start

/-! ## The chain of open documents -/

/-- An embedded document makes the chain longer by a file that was not on it. So embedding comes
to an end in every document. -/
theorem wellFounded_embeds (files : Files) :
    WellFounded fun inner source : Source => ∃ fragment, source.Embeds files fragment inner := by
  apply Subrelation.wf _ (measure fun source : Source => files.unvisited source.chain).wf
  rintro inner source ⟨fragment, hEmbeds⟩
  obtain ⟨file, -, hNew, hFile, hChain, -⟩ := Source.embeds_iff.1 hEmbeds
  show files.unvisited inner.chain < files.unvisited source.chain
  rw [hChain]
  exact Files.unvisited_lt hNew hFile

/-- How the documents that are open around a source hang together in the graph of embeds. -/
structure Source.Traced (files : Files) (start : Start) (source : Source) : Prop where
  nodup : source.chain.Nodup
  found : ∀ path ∈ source.chain, ∃ text, files.find? path = some text
  reachable : ∀ path ∈ source.chain, start.Reachable files path
  leads : ∀ path ∈ source.chain, ∀ target ∈ embeddedPaths source.base source.text,
    TransGen files.Links path target
  targets : ∀ target ∈ embeddedPaths source.base source.text, start.Reachable files target

namespace Source.Traced

variable {files : Files} {start : Start} {source inner : Source}

theorem top (h : start.source? files = some source) : source.Traced files start := by
  cases start with
  | ofText base text =>
      cases h
      refine
        { nodup := List.nodup_nil
          found := by simp
          reachable := by simp
          leads := by simp
          targets := fun target hTarget => ⟨target, hTarget, .refl⟩ }
  | ofFile path =>
      obtain ⟨text, hFile, rfl⟩ := Option.map_eq_some_iff.1 h
      have hLinks : ∀ target ∈ embeddedPaths path.normalize.parent text,
          files.Links path.normalize target := fun target hTarget => ⟨text, hFile, hTarget⟩
      have hReachable : (Start.ofFile path).Reachable files path.normalize :=
        ⟨path.normalize, List.mem_singleton_self _, .refl⟩
      refine
        { nodup := List.pairwise_singleton _ _
          found := ?_
          reachable := ?_
          leads := ?_
          targets := fun target hTarget => hReachable.link (hLinks target hTarget) }
      · intro other hMem
        rw [List.mem_singleton.1 hMem]
        exact ⟨text, hFile⟩
      · intro other hMem
        rw [List.mem_singleton.1 hMem]
        exact hReachable
      · intro other hMem target hTarget
        rw [List.mem_singleton.1 hMem]
        exact .single (hLinks target hTarget)

theorem embed (h : source.Traced files start) {fragment : Option String}
    (hEmbeds : source.Embeds files fragment inner) : inner.Traced files start := by
  obtain ⟨file, hPiece, hNew, hFile, hChain, hBase⟩ := Source.embeds_iff.1 hEmbeds
  generalize hPath : (source.base.join file).normalize = path at hNew hFile hChain hBase
  have hMem : path ∈ embeddedPaths source.base source.text :=
    mem_embeddedPaths.2 ⟨file, fragment, hPiece, hPath⟩
  have hLinks : ∀ target ∈ embeddedPaths inner.base inner.text, files.Links path target := by
    intro target hTarget
    exact ⟨inner.text, hFile, hBase ▸ hTarget⟩
  refine
    { nodup := hChain ▸ List.nodup_cons.2 ⟨hNew, h.nodup⟩
      found := ?_
      reachable := ?_
      leads := ?_
      targets := fun target hTarget => (h.targets path hMem).link (hLinks target hTarget) }
  all_goals
    rw [hChain]
    intro other hOther
    rcases List.mem_cons.1 hOther with rfl | hOuter
  · exact ⟨inner.text, hFile⟩
  · exact h.found other hOuter
  · exact h.targets other hMem
  · exact h.reachable other hOuter
  · exact fun target hTarget => .single (hLinks target hTarget)
  · exact fun target hTarget => (h.leads other hOuter path hMem).tail (hLinks target hTarget)

theorem of_reaches {top : Source} (hTop : start.source? files = some top)
    (h : Reaches files top source) : source.Traced files start := by
  induction h with
  | top => exact .top hTop
  | embed _ hEmbeds ih => exact ih.embed hEmbeds

/-- The open documents are different files, so there are no more of them than there are files. -/
theorem length_chain_le (h : source.Traced files start) :
    source.chain.length ≤ files.paths.length := by
  refine (List.subperm_of_subset h.nodup fun path hMem => ?_).length_le
  obtain ⟨text, hFile⟩ := h.found path hMem
  exact List.mem_dedup.2 (List.mem_map.2 ⟨_, Files.mem_of_find? hFile, rfl⟩)

end Source.Traced

/-! ## Failures -/

theorem map_eq_error {α β ε : Type} {result : Except ε α} {f : α → β} {error : ε} :
    result.map f = .error error ↔ result = .error error := by
  cases result <;> simp [Except.map]

theorem ofParts_eq_error {parts : List Part} {error : DocumentError} :
    ofParts parts = .error error ↔ Draft.addAll {} parts = .error error :=
  map_eq_error

/-- The first part that cannot be added is the failure of all. -/
theorem exists_add_error {draft : Draft} {parts : List Part} {error : DocumentError}
    (h : draft.addAll parts = .error error) :
    ∃ part ∈ parts, ∃ before : Draft, before.add part = .error error := by
  induction parts generalizing draft with
  | nil => cases h
  | cons part rest ih =>
      simp only [Draft.addAll] at h
      split at h
      · obtain ⟨other, hMem, hAdd⟩ := ih h
        exact ⟨other, List.mem_cons_of_mem part hMem, hAdd⟩
      · rename_i hPart
        cases h
        exact ⟨part, List.mem_cons_self, draft, hPart⟩

/-- A part cannot be added because its embed failed, or its document makes no deck, or that deck
has no such group. -/
theorem add_error {draft : Draft} {part : Part} {error : DocumentError}
    (h : draft.add part = .error error) :
    part = .failed error ∨ ∃ path fragment own, part = .document path fragment own ∧
      (ofParts own = .error error ∨ ∃ name, error = .missingFragment path name) := by
  cases part with
  | failed other =>
      simp only [Draft.add, Except.error.injEq] at h
      exact .inl (h ▸ rfl)
  | document path fragment own =>
      refine .inr ⟨path, fragment, own, rfl, ?_⟩
      simp only [Draft.add] at h
      cases hOwn : Draft.addAll {} own with
      | error other =>
          simp only [hOwn, Except.error.injEq] at h
          exact .inl (ofParts_eq_error.2 (h ▸ hOwn))
      | ok draft =>
          simp only [hOwn, Draft.splice] at h
          split at h
          · cases h
          · exact .inr ⟨_, (Except.error.inj h).symm⟩
  | heading level text => cases h
  | leaf text => cases h
  | lead text => cases h
  | definitions declared => cases h

/-- Nothing in a document that makes a deck has failed. -/
theorem failed_not_mem {parts : List Part} {doc : Document} (h : ofParts parts = .ok doc)
    (error : DocumentError) : .failed error ∉ parts := by
  obtain ⟨draft, hAdd, -⟩ := ofParts_eq_ok h
  generalize ({} : Draft) = before at hAdd
  clear h
  induction parts generalizing before with
  | nil => simp
  | cons part rest ih =>
      obtain ⟨next, hPart, hRest⟩ := addAll_cons_ok hAdd
      intro hMem
      rcases List.mem_cons.1 hMem with rfl | hLater
      · cases hPart
      · exact ih next hRest hLater

theorem ofDefinitions_error_ne_cycle (path : Path) (cause : DefinitionError) (other : Path) :
    DocumentError.ofDefinitions path cause ≠ .cycle other := by
  cases cause <;> simp [DocumentError.ofDefinitions]

/-- A TOML file closes no cycle. -/
theorem ofDefinitions_ne_cycle (files : Files) (path : Path) (fragment : Option String)
    (other : Path) : Part.ofDefinitions files path fragment ≠ .failed (.cycle other) := by
  unfold Part.ofDefinitions
  split
  · simp
  · split
    · simp
    · rename_i error hError
      rw [ne_eq, Part.failed.injEq]
      rintro rfl
      unfold definitionsIn at hError
      split at hError
      · exact ofDefinitions_error_ne_cycle path _ other (Except.error.inj hError)
      · cases hError
      · split at hError
        · cases hError
        · simp at hError

/-- An embed is refused as a cycle when the document that it names is open. -/
theorem mem_chain_of_cycle {files : Files} {source : Source} {path : Path}
    (h : .failed (.cycle path) ∈ source.parts files) :
    path ∈ source.chain ∧ path ∈ embeddedPaths source.base source.text := by
  rw [Source.parts, expand_eq_map] at h
  obtain ⟨piece, hPiece, hPart⟩ := List.mem_map.1 h
  cases piece with
  | heading level text => cases hPart
  | leaf text => cases hPart
  | lead text => cases hPart
  | embed embed =>
      obtain ⟨kind, file, fragment⟩ := embed
      cases kind with
      | toml => exact absurd hPart (ofDefinitions_ne_cycle files _ fragment path)
      | markdown =>
          simp only [Part.ofPiece, Part.ofEmbed] at hPart
          split at hPart
          · rename_i hOpen
            cases hPart
            exact ⟨hOpen, mem_embeddedPaths.2 ⟨file, fragment, hPiece, rfl⟩⟩
          · split at hPart <;> cases hPart

/-- A refused embed closes a cycle of links. -/
theorem Source.Traced.exists_cycle {files : Files} {start : Start} {source : Source} {path : Path}
    (hTraced : source.Traced files start)
    (h : ofParts (source.parts files) = .error (.cycle path)) :
    start.Reachable files path ∧ TransGen files.Links path path := by
  induction source using (wellFounded_embeds files).induction with
  | h source ih =>
      -- the embed is refused here, or somewhere inside of a document that is embedded here
      obtain ⟨part, hMem, before, hPart⟩ := exists_add_error (ofParts_eq_error.1 h)
      rcases add_error hPart with rfl | ⟨target, fragment, own, rfl, hOwn⟩
      · obtain ⟨hOpen, hTarget⟩ := mem_chain_of_cycle hMem
        exact ⟨hTraced.targets path hTarget, hTraced.leads path hOpen path hTarget⟩
      · obtain ⟨inner, hEmbeds, rfl⟩ := source.exists_embeds hMem
        rcases hOwn with hInner | ⟨name, hName⟩
        · exact ih inner ⟨fragment, hEmbeds⟩ (hTraced.embed hEmbeds) hInner
        · cases hName

/-! ## Readings that succeed -/

/-- The source is the file at the path, with the chain behind it as given. -/
structure Source.IsFile (files : Files) (path : Path) (outer : List Path) (source : Source) :
    Prop where
  chain : source.chain = path :: outer
  found : files.find? path = some source.text
  base : source.base = path.parent

/-- A document that makes a deck embeds everything that it names. -/
theorem Source.exists_embeds_isFile {files : Files} {source : Source} {doc : Document}
    (h : ofParts (source.parts files) = .ok doc) {target : Path}
    (hTarget : target ∈ embeddedPaths source.base source.text) :
    target ∉ source.chain ∧ ∃ fragment inner, source.Embeds files fragment inner ∧
      inner.IsFile files target source.chain := by
  obtain ⟨file, fragment, hPiece, rfl⟩ := mem_embeddedPaths.1 hTarget
  have hPart : Part.ofPiece files source.chain source.base (.embed ⟨.markdown, file, fragment⟩) ∈
      source.parts files := by
    rw [Source.parts, expand_eq_map]
    exact List.mem_map_of_mem hPiece
  simp only [Part.ofPiece, Part.ofEmbed] at hPart
  split at hPart
  · exact absurd hPart (failed_not_mem h _)
  · rename_i hNew
    split at hPart
    · exact absurd hPart (failed_not_mem h _)
    · rename_i text hFile
      refine ⟨hNew, fragment, ⟨_, _, text⟩, ?_, ⟨rfl, hFile, rfl⟩⟩
      exact Source.embeds_iff.2 ⟨file, hPiece, hNew, hFile, rfl, rfl⟩

section Succeeds

variable {files : Files} {start : Start} {top source : Source} {result : ReadDeck}
variable {path target : Path} {outer : List Path}

/-- A reading that succeeds goes along every link. -/
theorem exists_isFile_of_link (hReads : Reads files top result) (hSource : Reaches files top source)
    (hIsFile : source.IsFile files path outer) (hLink : files.Links path target) :
    target ∉ path :: outer ∧
      ∃ inner, Reaches files top inner ∧ inner.IsFile files target (path :: outer) := by
  obtain ⟨text, hFile, hTarget⟩ := hLink
  obtain rfl : source.text = text := Option.some.inj (hIsFile.found.symm.trans hFile)
  obtain ⟨doc, hDoc⟩ := hSource.exists_doc hReads
  rw [← hIsFile.base] at hTarget
  obtain ⟨hNew, fragment, inner, hEmbeds, hInner⟩ := Source.exists_embeds_isFile hDoc hTarget
  rw [hIsFile.chain] at hNew hInner
  exact ⟨hNew, inner, hSource.embed hEmbeds, hInner⟩

/-- A reading that succeeds comes to every path that can be reached. -/
theorem exists_isFile (hTop : start.source? files = some top) (hReads : Reads files top result)
    (h : start.Reachable files path) :
    ∃ source outer, Reaches files top source ∧ source.IsFile files path outer := by
  obtain ⟨first, hFirst, hPath⟩ := h
  induction hPath with
  | refl =>
      cases start with
      | ofText base text =>
          cases hTop
          obtain ⟨doc, hDoc⟩ := Reaches.top.exists_doc hReads
          obtain ⟨-, fragment, inner, hEmbeds, hInner⟩ := Source.exists_embeds_isFile hDoc hFirst
          exact ⟨inner, _, Reaches.top.embed hEmbeds, hInner⟩
      | ofFile path =>
          obtain ⟨text, hFile, rfl⟩ := Option.map_eq_some_iff.1 hTop
          obtain rfl := List.mem_singleton.1 hFirst
          exact ⟨_, [], .top, ⟨rfl, hFile, rfl⟩⟩
  | tail _ hLink ih =>
      obtain ⟨source, outer, hSource, hIsFile⟩ := ih
      obtain ⟨-, inner, hInner, hNext⟩ := exists_isFile_of_link hReads hSource hIsFile hLink
      exact ⟨inner, _, hInner, hNext⟩

/-- Along links the chain keeps where they started, and a file on the chain is never a target. -/
theorem not_mem_of_transGen (hReads : Reads files top result) (hSource : Reaches files top source)
    (hIsFile : source.IsFile files path outer) (h : TransGen files.Links path target) :
    ∃ inner later, Reaches files top inner ∧ inner.IsFile files target later ∧
      path ∈ later ∧ target ∉ later := by
  induction h with
  | single hLink =>
      obtain ⟨hNew, inner, hInner, hNext⟩ := exists_isFile_of_link hReads hSource hIsFile hLink
      exact ⟨inner, _, hInner, hNext, List.mem_cons_self, hNew⟩
  | tail _ hLink ih =>
      obtain ⟨middle, later, hMiddle, hMiddleFile, hMem, -⟩ := ih
      obtain ⟨hNew, inner, hInner, hNext⟩ :=
        exists_isFile_of_link hReads hMiddle hMiddleFile hLink
      exact ⟨inner, _, hInner, hNext, List.mem_cons_of_mem _ hMem, hNew⟩

theorem acyclic_of_ok (h : start.outcome files = .ok result) : start.Acyclic files := by
  obtain ⟨top, hTop, hReads⟩ := Start.exists_reads h
  intro path hReachable hCycle
  obtain ⟨source, outer, hSource, hIsFile⟩ := exists_isFile hTop hReads hReachable
  obtain ⟨-, later, -, -, hMem, hNew⟩ := not_mem_of_transGen hReads hSource hIsFile hCycle
  exact hNew hMem

theorem found_of_ok (h : start.outcome files = .ok result)
    (hReachable : start.Reachable files path) : ∃ text, files.find? path = some text := by
  obtain ⟨top, hTop, hReads⟩ := Start.exists_reads h
  obtain ⟨source, outer, -, hIsFile⟩ := exists_isFile hTop hReads hReachable
  exact ⟨source.text, hIsFile.found⟩

theorem not_cycle_of_acyclic (h : start.Acyclic files) (path : Path) :
    start.outcome files ≠ .error (.cycle path) := by
  intro hOutcome
  cases hTop : start.source? files with
  | none =>
      obtain ⟨missing, hMissing⟩ := Start.outcome_of_source?_none hTop
      rw [hMissing] at hOutcome
      cases hOutcome
  | some top =>
      rw [Start.outcome_of_source? hTop, map_eq_error] at hOutcome
      obtain ⟨hReachable, hCycle⟩ := (Source.Traced.top hTop).exists_cycle hOutcome
      exact h path hReachable hCycle

end Succeeds

/-- Reading comes to an end: embedding is well-founded, and no document has more open documents
around it than there are files. If it succeeds, then the graph of embeds that can be reached has
no cycle, and all of its files are there. If the graph has no cycle, then none is reported. -/
theorem outcome_acyclic (files : Files) (start : Start) :
    (WellFounded fun inner source : Source => ∃ fragment, source.Embeds files fragment inner) ∧
      (∀ top source, start.source? files = some top → Reaches files top source →
        source.chain.Nodup ∧ source.chain.length ≤ files.paths.length) ∧
      (∀ result, start.outcome files = .ok result →
        start.Acyclic files ∧
          ∀ path, start.Reachable files path → ∃ text, files.find? path = some text) ∧
      (start.Acyclic files → ∀ path, start.outcome files ≠ .error (.cycle path)) := by
  refine ⟨wellFounded_embeds files, ?_, ?_, not_cycle_of_acyclic⟩
  · intro top source hTop hSource
    have hTraced := Source.Traced.of_reaches hTop hSource
    exact ⟨hTraced.nodup, hTraced.length_chain_le⟩
  · intro result h
    exact ⟨acyclic_of_ok h, fun path hReachable => found_of_ok h hReachable⟩

/-- Two files embed a third one, and a fourth one embeds the two. -/
def diamondFiles : Files :=
  [(.ofString "a.md", "# A\n\n![](b.md)\n\n- ![](sub/c.md)"), (.ofString "b.md", "![](d.md)"),
    (.ofString "sub/c.md", "![](../d.md)"), (.ofString "d.md", "d")]

/-- A file may be embedded along several ways. -/
theorem outcome_acyclic_diamond :
    (∃ result, (Start.ofFile (.ofString "a.md")).outcome diamondFiles = .ok result) ∧
      (Start.ofFile (.ofString "a.md")).Acyclic diamondFiles := by
  have hOk : ((Start.ofFile (.ofString "a.md")).outcome diamondFiles).toBool = true := by
    decide +kernel
  obtain ⟨result, hOutcome⟩ := exists_ok_of_toBool hOk
  exact ⟨⟨result, hOutcome⟩, ((outcome_acyclic diamondFiles _).2.2.1 result hOutcome).1⟩

end Document

end Deckwright
