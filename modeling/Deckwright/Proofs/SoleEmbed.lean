import Deckwright.Proofs.Inlines
import Deckwright.Proofs.Merging
import Deckwright.Proofs.OpenDocuments
import Deckwright.Proofs.Paths
import Deckwright.Proofs.ReadingBack

/-!
# A text that is one embed

A text with nothing in it but the image of a document is read as the document itself, as far as
anyone can tell who renders it (`read_embedText`). The deck goes another way there: its title
becomes a lead, its variables and tools are declared once more, and samples are attached to its
leaves outside of it.

* `ofText_embedText`: such a text is one embed.
* `nodup_tools_of_ok`: a deck has no two tools of one name, so declaring its tools in an empty
  draft gives them back in their order (`mergeTools_of_nodup`).
* `carries_pushAll`: what is left of a deck when it is embedded in an empty draft.
-/

namespace Deckwright

/-! ## The text of an embed -/

namespace Text

theorem occursIn_iff {part cs : List Char} : occursIn part cs ↔ part <:+: cs := by
  induction cs with
  | nil => simp [occursIn]
  | cons c rest ih => simp [occursIn, ih, List.infix_cons_iff]

end Text

namespace Document

/-- The target of an image that embeds a whole document. -/
structure DocumentTarget (target : String) : Prop where
  noSpace : ∀ c ∈ target.toList, Text.isSpace c = false
  noParenthesis : ')' ∉ target.toList
  noFragment : '#' ∉ target.toList
  noScheme : ¬ "://".toList <:+: target.toList
  extension : ∃ extension, (Path.ofString target).extension? = some extension ∧
    (extension.toLower = "md" ∨ extension.toLower = "markdown")

/-- The text that embeds the target and holds nothing else. -/
def embedText (target : String) : String :=
  "![x](" ++ target ++ ")"

namespace DocumentTarget

variable {target : String}

theorem toList_ne_nil (h : DocumentTarget target) : target.toList ≠ [] := by
  obtain ⟨extension, hExtension, -⟩ := h.extension
  intro hNil
  obtain rfl : target = "" := String.toList_inj.1 hNil
  have hNone : (Path.ofString "").extension? = none := by decide
  rw [hNone] at hExtension
  cases hExtension

theorem ofTarget? (h : DocumentTarget target) :
    Embed.ofTarget? target = some ⟨.markdown, Path.ofString target, none⟩ := by
  obtain ⟨extension, hExtension, hKind⟩ := h.extension
  have hScheme : Text.occursIn [':', '/', '/'] target.toList = false := by
    rw [Bool.eq_false_iff, ne_eq, Text.occursIn_iff]
    exact h.noScheme
  have hMarkdown : EmbedKind.ofExtension? extension = some .markdown := by
    rcases hKind with hLower | hLower
    · simp [EmbedKind.ofExtension?, hLower]
    · simp [EmbedKind.ofExtension?, hLower]
  simp [Embed.ofTarget?, hScheme, Embed.splitFragment, Text.cut?_of_not_mem h.noFragment,
    hExtension, hMarkdown]

theorem ne_empty (h : DocumentTarget target) : target ≠ "" := by
  rintro rfl
  exact h.toList_ne_nil rfl

/-- Such a target can stand between the parentheses of an image. -/
theorem writable (h : DocumentTarget target) :
    ∀ c ∈ target.toList, c ≠ ')' ∧ Text.isSpace c = false := fun c hMem =>
  ⟨fun hEq => h.noParenthesis (hEq ▸ hMem), h.noSpace c hMem⟩

end DocumentTarget

end Document

namespace Markdown

/-- A text of one line that starts with an exclamation mark is a paragraph. -/
theorem blocks_of_exclamation {text : String} {rest : Line} (hText : text.toList = '!' :: rest)
    (hLine : '\n' ∉ text.toList) (hTrim : Text.trimRight text.toList = text.toList) :
    blocks text = [.paragraph (inlines text)] := by
  have hSpace : Text.isSpace '!' = false := by decide
  have hSplit : Text.split '\n' text.toList = [text.toList] := Text.split_of_not_mem hLine
  have hLines : Text.lines text.toList = [text.toList] := by
    rw [Text.lines_eq_split, hSplit]
    rw [hSplit]
    apply areLines_of_trimmed
    · intro line hMem
      rw [List.mem_singleton.1 hMem, hTrim]
    · intro line hMem
      rw [List.getLast?_singleton, Option.mem_some] at hMem
      rw [← hMem, hText, isBlank_cons hSpace]
  have hStep : Open.nothing.step text.toList [] = ([], .paragraph [text.toList]) := by
    have hStart : start text.toList = ([], .paragraph [text.toList]) := by
      simp only [start, hTrim]
      rw [hText, fence?_cons hSpace (by decide) (by decide), heading?_cons hSpace (by decide),
        bullet?_cons hSpace (by decide)]
    rw [Open.step, hStart, hText, isBlank_cons hSpace]
    rfl
  rw [blocks, hLines, blocksFrom_of_step hStep]
  simp [blocksFrom, Open.close, joinLines]

end Markdown

namespace Document

open Markdown (Inline)

/-- The text of an embed is nothing but the image. -/
theorem blocks_embedText {target : String} (hSome : target ≠ "")
    (hTarget : ∀ c ∈ target.toList, c ≠ ')' ∧ Text.isSpace c = false) :
    Markdown.blocks (embedText target) = [.paragraph [.image "x" target]] := by
  have hAlt : ']' ∉ "x".toList := by decide
  have hWritten : (embedText target).toList =
      (Inline.image "x" target).written.toList ++ [] := by
    simp [embedText, Inline.written]
  have hInlines : Markdown.inlines (embedText target) = [.image "x" target] := by
    rw [Markdown.inlines_eq_iff, hWritten]
    exact ⟨.image hAlt hSome hTarget .nil, _,
      .image (Markdown.opensImage_written hAlt hSome hTarget []) .nil⟩
  have hText : (embedText target).toList = "![x](".toList ++ target.toList ++ [')'] := by
    simp [embedText]
  have hLine : '\n' ∉ (embedText target).toList := by
    rw [hText]
    simp only [List.mem_append, not_or]
    exact ⟨⟨by decide, fun hMem => absurd (hTarget _ hMem).2 (by decide)⟩, by decide⟩
  have hTrim : Text.trimRight (embedText target).toList = (embedText target).toList := by
    rw [hText]
    exact Text.trimRight_append (by decide) (by simp)
  rw [Markdown.blocks_of_exclamation hText hLine hTrim, hInlines]

/-- The image of a document makes one piece, the embed. -/
theorem ofText_embedText {target : String} (h : DocumentTarget target) :
    Piece.ofText (embedText target) = [.embed ⟨.markdown, Path.ofString target, none⟩] := by
  rw [Piece.ofText, blocks_embedText h.ne_empty h.writable]
  simp [Piece.ofBlock, Piece.ofInlines, h.ofTarget?, Piece.ofRun, blank, Text.isBlank]

/-! ## Tools -/

theorem nodup_mergeTools {tools : List Tool} (h : (tools.map Tool.name).Nodup)
    (more : List Tool) : ((more.foldl mergeTool tools).map Tool.name).Nodup := by
  rw [mergeTool_eq, Tool.overwrites.map_key_foldl_mergeBy]
  exact nodup_foldl_addKey h _

/-- Tools of different names are merged in their order. -/
theorem mergeTools_of_nodup {tools more : List Tool}
    (h : ((tools ++ more).map Tool.name).Nodup) :
    more.foldl mergeTool tools = tools ++ more := by
  rw [mergeTool_eq]
  exact foldl_mergeBy_of_nodup h

namespace Draft

/-- No two tools of a draft have one name. -/
def DistinctTools (draft : Draft) : Prop :=
  (draft.tools.map Tool.name).Nodup

variable {draft : Draft}

@[simp] theorem tools_push (node : Node) (draft : Draft) :
    (draft.push node).tools = draft.tools := by
  unfold push
  split <;> rfl

@[simp] theorem tools_pushAll (nodes : List Node) (draft : Draft) :
    (draft.pushAll nodes).tools = draft.tools := by
  induction nodes generalizing draft with
  | nil => rfl
  | cons node rest ih => exact (ih (draft.push node)).trans (tools_push node draft)

@[simp] theorem tools_addHeading (level : UInt8) (text : String) (draft : Draft) :
    (draft.addHeading level text).tools = draft.tools := by
  unfold addHeading
  split
  · dsimp only
    split
    · rfl
    · rw [tools_push]
      rfl
  · rfl

@[simp] theorem tools_addContext (draft : Draft) (v : ContextVariable) :
    (draft.addContext v).tools = draft.tools := by
  unfold addContext
  split <;> rfl

theorem tools_declare (context : List ContextVariable) (tools : List Tool)
    (samples : List Sample) (draft : Draft) :
    (draft.declare context tools samples).tools = tools.foldl mergeTool draft.tools := by
  have hFold : (context.foldl addContext draft).tools = draft.tools := by
    induction context generalizing draft with
    | nil => rfl
    | cons v rest ih => exact (ih (draft.addContext v)).trans (tools_addContext draft v)
  simp only [declare, hFold]

theorem DistinctTools.add {next : Draft} {part : Part} (h : draft.DistinctTools)
    (hAdd : draft.add part = .ok next) : next.DistinctTools := by
  unfold DistinctTools at h ⊢
  cases part with
  | heading level text =>
      simp only [Draft.add, Except.ok.injEq] at hAdd
      rwa [← hAdd, tools_addHeading]
  | leaf text =>
      simp only [Draft.add, Except.ok.injEq] at hAdd
      rwa [← hAdd, tools_push]
  | lead text =>
      simp only [Draft.add, Except.ok.injEq] at hAdd
      rwa [← hAdd, tools_push]
  | definitions declared =>
      simp only [Draft.add, Except.ok.injEq] at hAdd
      rw [← hAdd, tools_declare]
      exact nodup_mergeTools h _
  | document path fragment parts =>
      obtain ⟨own, content, -, -, rfl⟩ := add_document_ok hAdd
      rw [tools_pushAll, tools_declare]
      exact nodup_mergeTools h _
  | failed error => simp [Draft.add] at hAdd

theorem DistinctTools.addAll {last : Draft} {parts : List Part} (h : draft.DistinctTools)
    (hAdd : draft.addAll parts = .ok last) : last.DistinctTools := by
  induction parts generalizing draft with
  | nil =>
      simp only [Draft.addAll, Except.ok.injEq] at hAdd
      exact hAdd ▸ h
  | cons part rest ih =>
      obtain ⟨next, hPart, hRest⟩ := addAll_cons_ok hAdd
      exact ih (h.add hPart) hRest

end Draft

theorem nodup_tools_of_ok {parts : List Part} {doc : Document} (h : ofParts parts = .ok doc) :
    (doc.deck.tools.map Tool.name).Nodup := by
  obtain ⟨draft, hAdd, rfl⟩ := ofParts_eq_ok h
  have hEmpty : Draft.DistinctTools {} := List.nodup_nil
  have hDraft : draft.DistinctTools := hEmpty.addAll hAdd
  exact hDraft

/-! ## A deck in an empty one -/

/-- Declaring in a draft without open groups leaves its tree alone. -/
theorem Draft.exists_declare {draft : Draft} (h : draft.opened = [])
    (context : List ContextVariable) (tools : List Tool) (samples : List Sample) :
    ∃ declared, draft.declare context tools samples =
      { draft with
        context := declared
        tools := tools.foldl mergeTool draft.tools
        samples := draft.samples ++ samples } := by
  have hFold : ∃ declared, context.foldl Draft.addContext draft =
      { draft with context := declared } := by
    induction context generalizing draft with
    | nil => exact ⟨draft.context, rfl⟩
    | cons v rest ih =>
        have hFirst : draft.addContext v =
            { draft with
              context := mergeContext draft.context (v.atPosition draft.root.length) } := by
          simp only [Draft.addContext, h]
        obtain ⟨declared, hRest⟩ := @ih (draft.addContext v) (by rw [hFirst]; exact h)
        exact ⟨declared, by rw [List.foldl_cons, hRest, hFirst]⟩
  obtain ⟨declared, hDeclared⟩ := hFold
  exact ⟨declared, by simp only [Draft.declare, hDeclared]⟩

/-- A deck without a title of its own that holds the whole of another one, title and all. -/
structure Carries (outer doc : Document) : Prop where
  title : outer.deck.title = none
  layout : outer.deck.layout = .markdown
  children : outer.deck.children =
    (doc.deck.title.map Draft.titleLead).toList ++ doc.deck.children
  tools : outer.deck.tools = doc.deck.tools
  samples : outer.samples = doc.samples

/-- An empty draft in which a document is declared and its content pushed carries the document. -/
theorem carries_pushAll {doc : Document} (hTools : (doc.deck.tools.map Tool.name).Nodup) :
    (Draft.pushAll ((doc.deck.title.map Draft.titleLead).toList ++ doc.deck.children)
      (Draft.declare doc.deck.context doc.deck.tools doc.samples {})).finish.Carries doc := by
  have hMerged : doc.deck.tools.foldl mergeTool [] = doc.deck.tools := mergeTools_of_nodup hTools
  obtain ⟨declared, hDeclare⟩ := @Draft.exists_declare {} rfl doc.deck.context
    doc.deck.tools doc.samples
  rw [hDeclare, Draft.pushAll_of_nil rfl, hMerged]
  refine
    { title := rfl
      layout := rfl
      children := ?_
      tools := rfl
      samples := rfl }
  simp [Draft.finish, Draft.closeTo, closeGroups]

/-- An embed that stands alone makes a deck that carries the embedded one. -/
theorem ofParts_document_ok {path : Path} {parts : List Part} {doc : Document}
    (h : ofParts parts = .ok doc) :
    ∃ outer, ofParts [.document path none parts] = .ok outer ∧ outer.Carries doc := by
  have hTools := nodup_tools_of_ok h
  obtain ⟨own, hOwn, rfl⟩ := ofParts_eq_ok h
  refine ⟨_, ?_, carries_pushAll hTools⟩
  simp only [ofParts, Draft.addAll, Draft.add, hOwn, Draft.splice, content?]
  rfl

theorem ofParts_document_error {path : Path} {parts : List Part} {error : DocumentError}
    (h : ofParts parts = .error error) :
    ofParts [.document path none parts] = .error error := by
  rw [ofParts_eq_error] at h ⊢
  simp only [Draft.addAll, Draft.add, h]

/-! ## What a reader of the deck sees -/

/-- Two decks that no one can tell apart who renders them: they have the same system text for
whatever samples are asked for, the same tools in the same order, and the same named samples. -/
structure Alike (one other : ReadDeck) : Prop where
  systemText : ∀ asked, one.deck.systemText asked = other.deck.systemText asked
  tools : one.deck.tools = other.deck.tools
  samples : one.samples = other.samples

theorem Carries.alike {outer doc : Document} (h : outer.Carries doc)
    (hLayout : doc.deck.layout = .markdown) : Alike outer.attached doc.attached := by
  have hSamples : outer.namedSamples = doc.namedSamples := by
    rw [namedSamples, namedSamples, h.samples]
  refine { systemText := fun asked => ?_, tools := h.tools, samples := hSamples }
  simp only [Deck.systemText, attached, h.title, h.layout, hLayout, h.children, hSamples]
  cases doc.deck.title with
  | none => rfl
  | some title => rfl

theorem layout_of_ok {parts : List Part} {doc : Document} (h : ofParts parts = .ok doc) :
    doc.deck.layout = .markdown := by
  obtain ⟨draft, -, rfl⟩ := ofParts_eq_ok h
  rfl

/-- A text that is one embed comes to what the embedded file comes to: the same error, or decks
that are alike. -/
theorem read_embedText (files : Files) (base : Path) {target : String}
    (h : DocumentTarget target) :
    let path := (base.join (Path.ofString target)).normalize
    (∃ error, read files base (embedText target) = .error error ∧
        load files path = .error error) ∨
      ∃ one other, read files base (embedText target) = .ok one ∧
        load files path = .ok other ∧ Alike one other := by
  intro path
  have hRead : read files base (embedText target) =
      (ofParts [Part.ofEmbed files [] base ⟨.markdown, Path.ofString target, none⟩]).map
        attached := by
    rw [read, expand_eq_map, ofText_embedText h]
    rfl
  have hNormal : path.normalize = path := Path.normalize_normalize _
  cases hFile : files.find? path with
  | none =>
      have hPart : Part.ofEmbed files [] base ⟨.markdown, Path.ofString target, none⟩ =
          .failed (.unreadable path) := by
        simp only [Part.ofEmbed, List.not_mem_nil, if_false]
        rw [hFile]
      refine .inl ⟨.unreadable path, ?_, ?_⟩
      · rw [hRead, hPart]
        rfl
      · simp only [load, hNormal, hFile]
  | some text =>
      have hPart : Part.ofEmbed files [] base ⟨.markdown, Path.ofString target, none⟩ =
          .document path none (expand files [path] path.parent text) := by
        simp only [Part.ofEmbed, List.not_mem_nil, if_false]
        rw [hFile]
      have hLoad : load files path =
          (ofParts (expand files [path] path.parent text)).map attached := by
        simp only [load, hNormal, hFile]
      rw [hRead, hPart, hLoad]
      cases hParts : ofParts (expand files [path] path.parent text) with
      | error error =>
          rw [ofParts_document_error hParts]
          exact .inl ⟨error, rfl, rfl⟩
      | ok doc =>
          obtain ⟨outer, hOuter, hCarries⟩ := @ofParts_document_ok path _ _ hParts
          rw [hOuter]
          exact .inr ⟨_, _, rfl, rfl, hCarries.alike (layout_of_ok hParts)⟩

/-- A directory with a document that has a title, a tool, and a sample that a leaf refers to. -/
def manualFiles : Files :=
  [(.ofString "docs/manual.md", "# Manual\n\n- be brief [^s]\n\n## Tools\n\n![](tools.toml)"),
    (.ofString "docs/tools.toml",
      "[samples.s]\ntext = \"ok\"\nscore = 2\n\n[[tools]]\nname = \"look\"")]

/-- The manual as the only embed of a text, and the manual itself. -/
theorem read_embedText_manual :
    ∃ one other, read manualFiles (.ofString "docs") (embedText "../docs/manual.md") = .ok one ∧
      load manualFiles (.ofString "docs/manual.md") = .ok other ∧ Alike one other ∧
      one.deck.tools.map Tool.name = ["look"] := by
  have hNoSpace : ("../docs/manual.md".toList.all fun c => !Text.isSpace c) = true := by
    decide +kernel
  have hTarget : DocumentTarget "../docs/manual.md" :=
    { noSpace := fun c hMem => by simpa using List.all_eq_true.1 hNoSpace c hMem
      noParenthesis := by decide +kernel
      noFragment := by decide +kernel
      noScheme := by
        rw [← Text.occursIn_iff]
        decide +kernel
      extension := ⟨"md", by decide +kernel, .inl (by decide +kernel)⟩ }
  have hPath : ((Path.ofString "docs").join (Path.ofString "../docs/manual.md")).normalize =
      .ofString "docs/manual.md" := by decide +kernel
  have hTools : (load manualFiles (.ofString "docs/manual.md")).toOption.map
      (fun result => result.deck.tools.map Tool.name) = some ["look"] := by
    decide +kernel
  have hOutcome := read_embedText manualFiles (.ofString "docs") hTarget
  simp only [hPath] at hOutcome
  rcases hOutcome with ⟨error, -, hError⟩ | ⟨one, other, hOne, hOther, hAlike⟩
  · simp [hError, Except.toOption] at hTools
  · rw [hOther] at hTools
    exact ⟨one, other, hOne, hOther, hAlike, hAlike.tools ▸ Option.some.inj hTools⟩

end Document

end Deckwright
