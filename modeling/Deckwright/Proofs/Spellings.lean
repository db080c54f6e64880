import Deckwright.Proofs.EmbedGraph
import Deckwright.Proofs.Paths

/-!
# Spellings of a path

A path can be spelled in many ways: with `.`, with detours over `..`, seen from a base that is
spelled in many ways itself. Normalizing gives each spelling the same form, and all that asks whether
two paths are one goes by that form: putting files in and finding them (`read?_inserted`), and the
chain of open documents (`Reaches.normal`).

* `normalize_join`: the spelling of the base does not matter.
* `parts_normalize`: what is left of a path, `..` in front and then ordinary parts.
* `sameFile_iff`: paths that find the same file, whatever files there are, have one normal form.

Main result: `normalize_identifies`.
-/

namespace Deckwright

namespace Path

/-! ## The normal form -/

/-- A settled stack holds ordinary parts on top of some `..`. -/
theorem Settled.exists_names {stack : List String} (h : Settled stack) :
    ∃ ups names, stack = names ++ List.replicate ups ".." ∧
      ∀ part ∈ names, part ≠ "." ∧ part ≠ ".." := by
  induction h with
  | nil => exact ⟨0, [], rfl, by simp⟩
  | @up others hUps =>
      refine ⟨others.length + 1, [], ?_, by simp⟩
      rw [List.nil_append, List.replicate_succ, ← List.eq_replicate_of_mem hUps]
  | @name part others hDot hUp _ ih =>
      obtain ⟨ups, names, rfl, hNames⟩ := ih
      exact ⟨ups, part :: names, rfl, List.forall_mem_cons.2 ⟨⟨hDot, hUp⟩, hNames⟩⟩

/-- A normalized path leads up some times and then down. -/
theorem parts_normalize (path : Path) :
    ∃ ups names, path.normalize.parts = List.replicate ups ".." ++ names ∧
      ∀ part ∈ names, part ≠ "." ∧ part ≠ ".." := by
  obtain ⟨ups, names, hStack, hNames⟩ :=
    (Settled.nil.foldl_foldPart path.parts).exists_names
  refine ⟨ups, names.reverse, ?_, fun part hMem => hNames part (List.mem_reverse.1 hMem)⟩
  rw [normalize, hStack, List.reverse_append, List.reverse_replicate]

/-- What a path leads to is not changed by another spelling of its base. -/
theorem normalize_join (base path : Path) :
    (base.normalize.join path).normalize = (base.join path).normalize := by
  have hSettled : Settled (base.parts.foldl foldPart []) := Settled.nil.foldl_foldPart base.parts
  cases hAbsolute : path.absolute with
  | true => simp only [join, hAbsolute, if_true]
  | false =>
      simp only [join, hAbsolute, normalize, Bool.false_eq_true, if_false, List.foldl_append,
        hSettled.foldl_reverse]

end Path

/-! ## Files -/

namespace Files

/-- What is found under a spelling of a path. -/
def read? (files : Files) (spelling : Path) : Option String :=
  files.find? spelling.normalize

/-- The files that were put in one after the other, each under a spelling of its path. -/
def inserted (entries : List (Path × String)) : Files :=
  entries.foldl (fun files entry => files.put entry.1.normalize entry.2) []

/-- The files of a list are put in from first to last. -/
theorem ofList_eq_inserted (entries : List (String × String)) :
    ofList entries = inserted (entries.map fun entry => (Path.ofString entry.1, entry.2)) := by
  rw [ofList, inserted, List.foldl_map]

theorem inserted_concat (entries : List (Path × String)) (path : Path) (text : String) :
    inserted (entries ++ [(path, text)]) = (inserted entries).put path.normalize text := by
  rw [inserted, List.foldl_concat, ← inserted]

theorem find?_cons (own path : Path) (text : String) (rest : Files) :
    find? ((own, text) :: rest) path = if path = own then some text else find? rest path := by
  rw [find?, find?, List.lookup_cons]
  split <;> simp_all

/-- A file that is put in changes what is found at its path, and at no other one. -/
theorem find?_put (files : Files) (path other : Path) (text : String) :
    (files.put path text).find? other = if other = path then some text else files.find? other := by
  induction files with
  | nil => exact find?_cons path other text []
  | cons file rest ih =>
      obtain ⟨own, old⟩ := file
      rw [put, find?_cons]
      split
      · rename_i hOwn
        rw [find?_cons, hOwn]
        split <;> rfl
      · rename_i hOwn
        rw [find?_cons, ih]
        split
        · rename_i hOther
          rw [if_neg]
          rintro rfl
          exact hOwn hOther.symm
        · rfl

/-- **The reader.** Under a spelling is found what was put in last under any spelling of the path. -/
theorem read?_inserted (entries : List (Path × String)) (spelling : Path) :
    (inserted entries).read? spelling =
      (entries.filter fun entry => entry.1.normalize = spelling.normalize).getLast?.map
        Prod.snd := by
  induction entries using List.reverseRecOn with
  | nil => rfl
  | append_singleton rest entry ih =>
      rw [read?] at ih
      rw [read?, inserted_concat, find?_put, ih, List.filter_append]
      by_cases hSame : entry.1.normalize = spelling.normalize
      · simp [hSame]
      · simp [hSame, Ne.symm hSame]

end Files

/-- The same file is found under both paths, whatever files were put in. -/
def SameFile (path other : Path) : Prop :=
  ∀ entries, (Files.inserted entries).read? path = (Files.inserted entries).read? other

theorem sameFile_iff {path other : Path} :
    SameFile path other ↔ path.normalize = other.normalize := by
  constructor
  · intro h
    -- a file that was put in under the one path is found under the other one
    have hOne := h [(path, "")]
    by_contra hDiffer
    rw [Files.read?_inserted, Files.read?_inserted] at hOne
    simp [hDiffer] at hOne
  · intro h entries
    rw [Files.read?, Files.read?, h]

namespace Document

/-! ## The chain of open documents -/

/-- The open documents of every document that a reading comes to are held under normal forms. -/
theorem Reaches.normal {files : Files} {start : Start} {top source : Source}
    (hTop : start.source? files = some top) (h : Reaches files top source) :
    ∀ path ∈ source.chain, path.normalize = path := by
  induction h with
  | top =>
      cases start with
      | ofText base text =>
          obtain rfl := Option.some.inj hTop
          simp
      | ofFile path =>
          obtain ⟨text, -, rfl⟩ := Option.map_eq_some_iff.1 hTop
          simp
  | embed _ hEmbeds ih =>
      obtain ⟨file, -, -, -, hChain, -⟩ := Source.embeds_iff.1 hEmbeds
      rw [hChain]
      exact List.forall_mem_cons.2 ⟨Path.normalize_normalize _, ih⟩

theorem ofEmbed_eq_cycle_iff {files : Files} {chain : List Path} {base file : Path}
    {fragment : Option String} :
    Part.ofEmbed files chain base ⟨.markdown, file, fragment⟩ =
        .failed (.cycle (base.join file).normalize) ↔
      (base.join file).normalize ∈ chain := by
  simp only [Part.ofEmbed]
  split
  · rename_i hOpen
    exact iff_of_true rfl hOpen
  · rename_i hNew
    refine iff_of_false ?_ hNew
    split <;> rintro ⟨⟩

/-- **Spellings.** Normalizing is settled after one time, does not depend on the spelling of the base
and leaves no `.` and no `..` behind an ordinary part. So a file is found under every spelling of the
path that it was put in under, with the text that was put in last; and the embed of a document is
refused as a cycle if and only if a document is open that is the same file for the reader. -/
theorem normalize_identifies :
    (∀ path : Path, path.normalize.normalize = path.normalize) ∧
    (∀ base path : Path, (base.normalize.join path).normalize = (base.join path).normalize) ∧
    (∀ path : Path, ∃ ups names, path.normalize.parts = List.replicate ups ".." ++ names ∧
      ∀ part ∈ names, part ≠ "." ∧ part ≠ "..") ∧
    (∀ entries spelling, (Files.inserted entries).read? spelling =
      (entries.filter fun entry => entry.1.normalize = spelling.normalize).getLast?.map
        Prod.snd) ∧
    (∀ path other, SameFile path other ↔ path.normalize = other.normalize) ∧
    ∀ {files} {start : Start} {top source file fragment}, start.source? files = some top →
      Reaches files top source →
      (Part.ofEmbed files source.chain source.base ⟨.markdown, file, fragment⟩ =
          .failed (.cycle (source.base.join file).normalize) ↔
        ∃ opened ∈ source.chain, SameFile (source.base.join file) opened) := by
  refine ⟨Path.normalize_normalize, Path.normalize_join, Path.parts_normalize,
    Files.read?_inserted, fun _ _ => sameFile_iff, ?_⟩
  intro files start top source file fragment hTop hSource
  have hNormal := hSource.normal hTop
  rw [ofEmbed_eq_cycle_iff]
  constructor
  · intro hOpen
    exact ⟨_, hOpen, sameFile_iff.2 (Path.normalize_normalize _).symm⟩
  · rintro ⟨opened, hOpen, hSame⟩
    rwa [sameFile_iff.1 hSame, hNormal opened hOpen]

/-- A file that embeds itself by a detour is refused, being the same file for the reader. -/
theorem normalize_identifies_detour :
    (Files.ofList [("docs/./a.md", "![a](../docs/a.md)")]).read?
        (.ofString "docs/x/../a.md") = some "![a](../docs/a.md)" ∧
      Part.ofEmbed [(.ofString "docs/a.md", "![a](../docs/a.md)")] [.ofString "docs/a.md"]
          (.ofString "docs") ⟨.markdown, .ofString "../docs/a.md", none⟩ =
        .failed (.cycle (.ofString "docs/a.md")) := by
  obtain ⟨-, -, -, hRead, hSame, hCycle⟩ := normalize_identifies
  constructor
  · rw [Files.ofList_eq_inserted, hRead]
    decide +kernel
  · have hTop : (Start.ofFile (.ofString "docs/a.md")).source?
        [(.ofString "docs/a.md", "![a](../docs/a.md)")] =
          some ⟨[.ofString "docs/a.md"], .ofString "docs", "![a](../docs/a.md)"⟩ := by
      have hFile : (Path.ofString "docs/a.md").normalize = .ofString "docs/a.md" ∧
          (Path.ofString "docs/a.md").parent = .ofString "docs" := by decide +kernel
      rw [Start.source?, hFile.1, hFile.2, Files.find?_cons, if_pos rfl]
      rfl
    have hOpen : (Path.join (.ofString "docs") (.ofString "../docs/a.md")).normalize =
        .ofString "docs/a.md" := by decide +kernel
    have hRefused := (@hCycle _ _ _ _ (.ofString "../docs/a.md") none hTop .top).2
      ⟨_, List.mem_singleton_self _, (hSame _ _).2 (by decide +kernel)⟩
    rwa [hOpen] at hRefused

end Document

end Deckwright
