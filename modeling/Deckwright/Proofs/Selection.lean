import Deckwright.Proofs.Inlines
import Deckwright.Proofs.OpenDocuments
import Deckwright.Proofs.Paths

/-!
# Embeds of a single group

A fragment names a group of the embedded document by the names of the groups around it. The walk
down to it takes the first group of each name and never comes back, so what can be reached are the
ends of the chains in which every group is the first of its siblings with its name
(`groupAt?_eq_some_iff`).

Which deck the embedded document makes does not depend on where it is embedded: if it makes one on
its own, then no open document can be reached from it (`parts_of_parses`). A fragment that leads
nowhere ends the whole reading, from however deep inside (`Enters.error`).

Main result: `embed_selects`, what the embed of a fragment adds to a draft.
-/

namespace Deckwright.Document

open Relation (TransGen ReflTransGen)

/-! ## The walk down to a group -/

/-- Nested groups, with their children, each the first of its siblings with its name. -/
inductive Chain : List Node → List (Header × List Node) → Prop where
  | nil {nodes : List Node} : Chain nodes []
  | cons {before after children : List Node} {header : Header} {rest : List (Header × List Node)}
      (hFirst : ∀ node ∈ before, isGroupNamed header.name node = false) (h : Chain children rest) :
      Chain (before ++ .group header children :: after) ((header, children) :: rest)

theorem isGroupNamed_iff {name : String} {node : Node} :
    isGroupNamed name node ↔
      ∃ header children, node = .group header children ∧
        lookupName header.name = lookupName name := by
  cases node with
  | group header children => simp [isGroupNamed]
  | leaf value samples => simp [isGroupNamed]
  | lead text => simp [isGroupNamed]

/-- Names that are looked up alike name the same groups. -/
theorem isGroupNamed_congr {name other : String} (h : lookupName name = lookupName other)
    (node : Node) : isGroupNamed name node = isGroupNamed other node := by
  cases node with
  | group header children => simp only [isGroupNamed, h]
  | leaf value samples => rfl
  | lead text => rfl

/-- The first group of a name. -/
theorem find?_isGroupNamed {nodes : List Node} {name : String} {node : Node} :
    nodes.find? (isGroupNamed name) = some node ↔
      ∃ before header children after, nodes = before ++ .group header children :: after ∧
        node = .group header children ∧ lookupName header.name = lookupName name ∧
        ∀ other ∈ before, isGroupNamed header.name other = false := by
  rw [List.find?_eq_some_iff_append]
  constructor
  · rintro ⟨hNamed, before, after, rfl, hBefore⟩
    obtain ⟨header, children, rfl, hName⟩ := isGroupNamed_iff.1 hNamed
    refine ⟨before, header, children, after, rfl, rfl, hName, fun other hMem => ?_⟩
    rw [isGroupNamed_congr hName]
    simpa using hBefore other hMem
  · rintro ⟨before, header, children, after, rfl, rfl, hName, hBefore⟩
    refine ⟨isGroupNamed_iff.2 ⟨header, children, rfl, hName⟩, before, after, rfl, ?_⟩
    intro other hMem
    rw [← isGroupNamed_congr hName, hBefore other hMem]
    rfl

/-- The walk goes down the first groups of the names, one after the other. -/
theorem groupAt?_cons {nodes : List Node} {name : String} {names : List String} {node : Node} :
    groupAt? nodes (name :: names) = some node ↔
      ∃ header children, nodes.find? (isGroupNamed name) = some (.group header children) ∧
        (names = [] ∧ node = .group header children ∨ groupAt? children names = some node) := by
  cases names with
  | nil =>
      rw [groupAt?]
      constructor
      · intro h
        obtain ⟨-, header, children, -, -, rfl, -⟩ := find?_isGroupNamed.1 h
        exact ⟨header, children, h, .inl ⟨rfl, rfl⟩⟩
      · rintro ⟨header, children, hFind, ⟨-, rfl⟩ | hNone⟩
        · exact hFind
        · cases hNone
  | cons next more =>
      simp only [groupAt?]
      constructor
      · intro h
        split at h
        · rename_i header children hFind
          exact ⟨header, children, hFind, .inr h⟩
        · cases h
      · rintro ⟨header, children, hFind, ⟨hNone, -⟩ | hGroup⟩
        · cases hNone
        · rw [hFind]
          exact hGroup

/-- The groups of a chain go by the names. -/
def Goes (chain : List (Header × List Node)) (names : List String) : Prop :=
  chain.map (fun group => lookupName group.1.name) = names.map lookupName

/-- **The walk.** What is reached by names are the ends of the chains that go by them. -/
theorem groupAt?_eq_some_iff {nodes : List Node} {names : List String} {node : Node} :
    groupAt? nodes names = some node ↔
      ∃ chain last, Chain nodes chain ∧ Goes chain names ∧ chain.getLast? = some last ∧
        node = .group last.1 last.2 := by
  induction names generalizing nodes with
  | nil =>
      constructor
      · intro h
        cases h
      · rintro ⟨chain, last, -, hNames, hLast, -⟩
        rw [Goes, List.map_nil, List.map_eq_nil_iff] at hNames
        rw [hNames] at hLast
        cases hLast
  | cons name names ih =>
      rw [groupAt?_cons]
      constructor
      · rintro ⟨header, children, hFind, hRest⟩
        obtain ⟨before, _, _, after, rfl, hNode, hName, hBefore⟩ := find?_isGroupNamed.1 hFind
        injection hNode with hHeader hChildren
        subst hHeader hChildren
        rcases hRest with ⟨rfl, rfl⟩ | hGroup
        · exact ⟨[(header, children)], (header, children), .cons hBefore .nil,
            by simp [Goes, hName], rfl, rfl⟩
        · obtain ⟨chain, last, hChain, hNames, hLast, rfl⟩ := ih.1 hGroup
          refine ⟨(header, children) :: chain, last, .cons hBefore hChain, ?_, ?_, rfl⟩
          · rw [Goes] at hNames ⊢
            rw [List.map_cons, List.map_cons, hNames, hName]
          · rw [List.getLast?_cons, hLast]
            rfl
      · rintro ⟨chain, last, hChain, hNames, hLast, rfl⟩
        cases hChain with
        | nil => cases hLast
        | @cons before after children header rest hFirst hRest =>
            rw [Goes, List.map_cons, List.map_cons, List.cons.injEq] at hNames
            obtain ⟨hName, hNames⟩ := hNames
            refine ⟨header, children, find?_isGroupNamed.2
              ⟨before, header, children, after, rfl, rfl, hName, hFirst⟩, ?_⟩
            cases rest with
            | nil =>
                obtain rfl := Option.some.inj hLast
                exact .inl ⟨List.map_eq_nil_iff.1 hNames.symm, rfl⟩
            | cons next more =>
                exact .inr (ih.2 ⟨next :: more, last, hRest, hNames, by simpa using hLast, rfl⟩)

/-- Nothing is reached by names that no chain goes by. -/
theorem groupAt?_eq_none_iff {nodes : List Node} {names : List String} (hSome : names ≠ []) :
    groupAt? nodes names = none ↔ ∀ chain, Chain nodes chain → ¬ Goes chain names := by
  rw [Option.eq_none_iff_forall_ne_some]
  constructor
  · intro h chain hChain hNames
    have hNotEmpty : chain ≠ [] := by
      rintro rfl
      exact hSome (List.map_eq_nil_iff.1 hNames.symm)
    have hLast := List.getLast?_eq_some_getLast hNotEmpty
    exact h _ (groupAt?_eq_some_iff.2 ⟨chain, _, hChain, hNames, hLast, rfl⟩)
  · intro h node hNode
    obtain ⟨chain, last, hChain, hNames, -, -⟩ := groupAt?_eq_some_iff.1 hNode
    exact h chain hChain hNames

/-- The names in a fragment. -/
def segments (fragment : String) : List String :=
  (Text.split '.' fragment.toList).map String.ofList

theorem segments_ne_nil (fragment : String) : segments fragment ≠ [] := by
  rw [segments, ne_eq, List.map_eq_nil_iff]
  exact Text.split_ne_nil '.' fragment.toList

/-! ## Where a reading comes to -/

/-- The image of a fragment of a file stands for the embed of that fragment. -/
theorem ofTarget?_fragment {name fragment : String} {embed : Embed} (hName : '#' ∉ name.toList)
    (hSome : fragment ≠ "") (h : Embed.ofTarget? (name ++ "#" ++ fragment) = some embed) :
    embed.file = Path.ofString name ∧ embed.fragment = some fragment := by
  have hText : (name ++ "#" ++ fragment).toList = name.toList ++ '#' :: fragment.toList := by simp
  have hSplit : Embed.splitFragment (name ++ "#" ++ fragment) = (name, some fragment) := by
    rw [Embed.splitFragment, hText, Text.cut?_append hName]
    split
    · rename_i hCut
      simp only [Option.some.injEq, Prod.mk.injEq] at hCut
      exact absurd (String.toList_inj.1 hCut.2) hSome
    · rename_i hCut
      simp only [Option.some.injEq, Prod.mk.injEq] at hCut
      rw [← hCut.1, ← hCut.2, String.ofList_toList, String.ofList_toList]
    · rename_i hCut
      cases hCut
  rw [Embed.ofTarget?] at h
  split at h
  · cases h
  · rw [hSplit] at h
    obtain ⟨kind, -, rfl⟩ := Option.map_eq_some_iff.1 h
    exact ⟨rfl, rfl⟩

/-- Reading the source comes to the embed, with what stands in front of it in the draft. -/
def Source.ComesTo (files : Files) (source : Source) (draft : Draft) (embed : Embed) : Prop :=
  ∃ before after, Piece.ofText source.text = before ++ .embed embed :: after ∧
    Draft.addAll {} (before.map (Part.ofPiece files source.chain source.base)) = .ok draft

/-- Reading comes to documents through the embeds that it comes to. -/
inductive Enters (files : Files) (top : Source) : Source → Prop where
  | top : Enters files top top
  | embed {source : Source} {draft : Draft} {file path : Path} {fragment : Option String}
      {text : String} (h : Enters files top source)
      (hComes : source.ComesTo files draft ⟨.markdown, file, fragment⟩)
      (hPath : (source.base.join file).normalize = path) (hNew : path ∉ source.chain)
      (hFile : files.find? path = some text) :
      Enters files top ⟨path :: source.chain, path.parent, text⟩

section Reading

variable {files : Files} {start : Start} {top source : Source} {draft : Draft} {embed : Embed}

theorem Source.ComesTo.mem_ofText (h : source.ComesTo files draft embed) :
    Piece.embed embed ∈ Piece.ofText source.text := by
  obtain ⟨before, after, hPieces, -⟩ := h
  rw [hPieces]
  exact List.mem_append_right _ List.mem_cons_self

/-- An embed that cannot be added is the failure of its document. -/
theorem Source.ComesTo.error {error : DocumentError} (h : source.ComesTo files draft embed)
    (hAdd : draft.add (Part.ofEmbed files source.chain source.base embed) = .error error) :
    ofParts (source.parts files) = .error error := by
  obtain ⟨before, after, hPieces, hBefore⟩ := h
  rw [ofParts_eq_error, Source.parts, expand_eq_map, hPieces, List.map_append, addAll_append,
    hBefore]
  simp only [List.map_cons, Part.ofPiece, Draft.addAll, hAdd]

theorem Enters.reaches (h : Enters files top source) : Reaches files top source := by
  induction h with
  | top => exact .top
  | embed _ hComes hPath hNew hFile ih =>
      subst hPath
      exact ih.embed (Source.embeds_iff.2 ⟨_, hComes.mem_ofText, hNew, hFile, rfl, rfl⟩)

/-- The failure of a document that a reading comes to is the failure of the reading. -/
theorem Enters.error {error : DocumentError} (h : Enters files top source)
    (hError : ofParts (source.parts files) = .error error) :
    ofParts (top.parts files) = .error error := by
  induction h with
  | top => exact hError
  | embed _ hComes hPath hNew hFile ih =>
      refine ih (hComes.error ?_)
      subst hPath
      simp only [Part.ofEmbed, if_neg hNew, hFile, Draft.add]
      rw [ofParts_eq_error, Source.parts] at hError
      rw [hError]

/-! ## The embedded document on its own -/

/-- A file that makes a deck on its own is not open where it is embedded, and makes the same deck
there. -/
theorem parts_of_parses {path : Path} {text : String} {doc : Document}
    (hTop : start.source? files = some top) (hSource : Enters files top source)
    (hTarget : path ∈ embeddedPaths source.base source.text)
    (hNormal : path.normalize = path) (hFile : files.find? path = some text)
    (hParses : ofParts (Source.parts files ⟨[path], path.parent, text⟩) = .ok doc) :
    path ∉ source.chain ∧
      ofParts (Source.parts files ⟨path :: source.chain, path.parent, text⟩) = .ok doc := by
  have hLoad : (Start.ofFile path).outcome files = .ok doc.attached := by
    simp only [Start.outcome, load, hNormal, hFile]
    rw [Source.parts] at hParses
    rw [hParses]
    rfl
  have hCycle : ¬ TransGen files.Links path path :=
    acyclic_of_ok hLoad path ⟨path, by rw [Start.entries, hNormal]; exact List.mem_cons_self, .refl⟩
  have hLeads := (Source.Traced.of_reaches hTop hSource.reaches).leads
  refine ⟨fun hOpen => hCycle (hLeads path hOpen path hTarget), ?_⟩
  have hExpand : expand files (path :: source.chain) path.parent text =
      expand files [path] path.parent text := by
    apply expand_congr
    intro target hInner other hPath
    have hOpen : other ∉ source.chain := by
      intro hOpen
      have hBack := (hLeads other hOpen path hTarget).to_reflTransGen
      exact hCycle (.head' ⟨text, hFile, hInner⟩ (hPath.trans hBack))
    simp [hOpen]
  rwa [Source.parts, hExpand]

/-! ## The embed of a fragment -/

/-- An embedded document adds the group that the fragment leads to, if it leads to one. -/
theorem add_document_fragment {path : Path} {fragment : String} {parts : List Part}
    {doc : Document} (h : ofParts parts = .ok doc) (draft : Draft) :
    draft.add (.document path (some fragment) parts) =
      match groupAt? doc.deck.children (segments fragment) with
      | some node => .ok ((draft.declare doc.deck.context doc.deck.tools doc.samples).push node)
      | none => .error (.missingFragment path fragment) := by
  obtain ⟨own, hOwn, rfl⟩ := ofParts_eq_ok h
  simp only [Draft.add, hOwn, Draft.splice, content?, segments]
  cases groupAt? own.finish.deck.children ((Text.split '.' fragment.toList).map String.ofList) with
  | none => rfl
  | some node => rfl

/-- **Selection.** A reading comes to the image of a fragment of a file, and the file is a document
that makes a deck on its own. A chain that goes by the names in the fragment adds the group at its
end, as it is in that deck, and nothing else but what the deck declares. If no chain goes by them,
the whole reading fails, with the path of the file and the fragment as it is written. -/
theorem embed_selects {name fragment text : String} {path : Path} {doc : Document}
    (hTop : start.source? files = some top) (hSource : Enters files top source)
    (hComes : source.ComesTo files draft embed) (hKind : embed.kind = .markdown)
    (hName : '#' ∉ name.toList) (hSome : fragment ≠ "")
    (hTarget : Embed.ofTarget? (name ++ "#" ++ fragment) = some embed)
    (hPath : (source.base.join (.ofString name)).normalize = path)
    (hFile : files.find? path = some text)
    (hParses : ofParts (Source.parts files ⟨[path], path.parent, text⟩) = .ok doc) :
    (∀ chain header children, Chain doc.deck.children chain → Goes chain (segments fragment) →
      chain.getLast? = some (header, children) →
      draft.add (Part.ofEmbed files source.chain source.base embed) =
        .ok ((draft.declare doc.deck.context doc.deck.tools doc.samples).push
          (.group header children))) ∧
    ((∀ chain, Chain doc.deck.children chain → ¬ Goes chain (segments fragment)) →
      start.outcome files = .error (.missingFragment path fragment)) := by
  obtain ⟨kind, file, wanted⟩ := embed
  obtain rfl : kind = .markdown := hKind
  obtain ⟨hEmbedFile, hFragment⟩ := ofTarget?_fragment hName hSome hTarget
  obtain rfl : file = .ofString name := hEmbedFile
  obtain rfl : wanted = some fragment := hFragment
  have hMem : path ∈ embeddedPaths source.base source.text :=
    mem_embeddedPaths.2 ⟨_, _, hComes.mem_ofText, hPath⟩
  have hNormal : path.normalize = path := by
    rw [← hPath, Path.normalize_normalize]
  obtain ⟨hNew, hDoc⟩ := parts_of_parses hTop hSource hMem hNormal hFile hParses
  have hPart : Part.ofEmbed files source.chain source.base
      ⟨.markdown, .ofString name, some fragment⟩ =
        .document path (some fragment)
          (Source.parts files ⟨path :: source.chain, path.parent, text⟩) := by
    simp only [Part.ofEmbed, hPath, if_neg hNew, hFile]
    rfl
  constructor
  · intro chain header children hChain hNames hLast
    have hGroup := groupAt?_eq_some_iff.2 ⟨chain, _, hChain, hNames, hLast, rfl⟩
    rw [hPart, add_document_fragment hDoc, hGroup]
  · intro hNone
    have hGroup := (groupAt?_eq_none_iff (segments_ne_nil fragment)).2 hNone
    have hAdd : draft.add (Part.ofEmbed files source.chain source.base
        ⟨.markdown, .ofString name, some fragment⟩) = .error (.missingFragment path fragment) := by
      rw [hPart, add_document_fragment hDoc, hGroup]
    rw [Start.outcome_of_source? hTop, hSource.error (hComes.error hAdd)]
    rfl

end Reading

/-- A document with definitions and nested groups; the name of one has a sign and spaces. -/
def personaText : String :=
  "![](vars.toml)\n\n## Persona\n- kind\n### Tone & Style\n- warm\n## Other\n- unused\n"

/-- The document and the file of its definitions: a variable, a sample and a tool. -/
def personaFiles : Files :=
  [(.ofString "persona.md", personaText),
    (.ofString "vars.toml", "[contexts.mood]\ntype = \"string\"\nquestion = \"Mood?\"\n\n" ++
      "[samples.s]\ntext = \"ok\"\nscore = 2\n\n[[tools]]\nname = \"look\"")]

/-- A fragment that leads to a group of the document, which comes with what the document declares,
and a fragment that leads nowhere. -/
theorem embed_selects_persona :
    (∃ doc header children, ofParts (Source.parts personaFiles
          ⟨[.ofString "persona.md"], .ofString "", personaText⟩) = .ok doc ∧
      (Node.group header children).preorder = [.group "Tone & Style" 3, .leaf "warm"] ∧
      doc.deck.context.map ContextVariable.name = ["mood"] ∧
      doc.deck.tools.map Tool.name = ["look"] ∧ doc.samples.map Sample.id = [some "s"] ∧
      Draft.add {} (Part.ofEmbed personaFiles [] (.ofString "")
          ⟨.markdown, .ofString "persona.md", some "persona.tone-style"⟩) =
        .ok ((Draft.declare doc.deck.context doc.deck.tools doc.samples {}).push
          (.group header children))) ∧
      read personaFiles (.ofString "") "![p](persona.md#persona.missing)" =
        .error (.missingFragment (.ofString "persona.md") "persona.missing") := by
  have hRead : (ofParts (Source.parts personaFiles
      ⟨[.ofString "persona.md"], .ofString "", personaText⟩)).toOption.map
      (fun doc => ((groupAt? doc.deck.children (segments "persona.tone-style")).map Node.preorder,
          (groupAt? doc.deck.children (segments "persona.missing")).isNone)) =
      some (some [.group "Tone & Style" 3, .leaf "warm"], true) := by decide +kernel
  have hDeclared : (ofParts (Source.parts personaFiles
      ⟨[.ofString "persona.md"], .ofString "", personaText⟩)).toOption.map
      (fun doc => (doc.deck.context.map ContextVariable.name, doc.deck.tools.map Tool.name,
          doc.samples.map Sample.id)) = some (["mood"], ["look"], [some "s"]) := by decide +kernel
  obtain ⟨doc, hDoc, hFound⟩ := exists_of_toOption_map hRead
  rw [hDoc] at hDeclared
  rw [Prod.mk.injEq, Option.map_eq_some_iff, Option.isNone_iff_eq_none] at hFound
  obtain ⟨⟨node, hNode, hLines⟩, hNone⟩ := hFound
  simp only [Except.toOption, Option.map_some, Option.some.injEq, Prod.mk.injEq] at hDeclared
  obtain ⟨hContext, hTools, hSamples⟩ := hDeclared
  obtain ⟨chain, ⟨header, children⟩, hChain, hNames, hLast, rfl⟩ := groupAt?_eq_some_iff.1 hNode
  have hPath : (Path.join (.ofString "") (.ofString "persona.md")).normalize =
      .ofString "persona.md" := by decide +kernel
  have hFile : personaFiles.find? (.ofString "persona.md") = some personaText := by
    decide +kernel
  have hParent : (Path.ofString "persona.md").parent = .ofString "" := by decide +kernel
  rw [← hParent] at hDoc
  constructor
  · have hTop : (Start.ofText (.ofString "") "![p](persona.md#persona.tone-style)").source?
        personaFiles = some ⟨[], .ofString "", "![p](persona.md#persona.tone-style)"⟩ := rfl
    have hComes : Source.ComesTo personaFiles
        ⟨[], .ofString "", "![p](persona.md#persona.tone-style)"⟩ {}
        ⟨.markdown, .ofString "persona.md", some "persona.tone-style"⟩ :=
      ⟨[], [], by decide +kernel, rfl⟩
    have hAdd := (@embed_selects _ _ _ _ _ _ "persona.md" "persona.tone-style" _ _ _ hTop .top
      hComes rfl (by decide) (by decide) (by decide +kernel) hPath hFile hDoc).1
        _ _ _ hChain hNames hLast
    exact ⟨doc, header, children, hParent ▸ hDoc, hLines, hContext, hTools, hSamples, hAdd⟩
  · have hTop : (Start.ofText (.ofString "") "![p](persona.md#persona.missing)").source?
        personaFiles = some ⟨[], .ofString "", "![p](persona.md#persona.missing)"⟩ := rfl
    have hComes : Source.ComesTo personaFiles
        ⟨[], .ofString "", "![p](persona.md#persona.missing)"⟩ {}
        ⟨.markdown, .ofString "persona.md", some "persona.missing"⟩ :=
      ⟨[], [], by decide +kernel, rfl⟩
    exact (@embed_selects _ _ _ _ _ _ "persona.md" "persona.missing" _ _ _ hTop .top hComes
      rfl (by decide) (by decide) (by decide +kernel) hPath hFile hDoc).2
        ((groupAt?_eq_none_iff (segments_ne_nil _)).1 hNone)

end Deckwright.Document
