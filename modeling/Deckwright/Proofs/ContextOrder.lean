import Mathlib.Data.List.TakeWhile
import Deckwright.Proofs.Marks
import Deckwright.Proofs.Readings

/-!
# The order of the context variables

A deck lists its variables scope by scope, as their positions say. Main results:

* `Draft.Records`, `records_addAll`: a draft keeps the declarations of its parts in the order of
  `Part.marksAll hoist`, those of the deck and those in groups alike.
* `bare_allContext_iff`: if no name is declared twice and no group is embedded by its name, the
  variables of a deck that was read are in the order of the expansion exactly if every embedded
  document declares what belongs to its deck before what belongs to its groups. A document that
  declares a variable in a group, then comes to the first heading of level 1 and declares another
  one is not so, and what embeds it has the two variables the other way round.
-/

namespace Deckwright.Document

/-- Whether a draft has an open group. -/
def Draft.inside (draft : Draft) : Bool :=
  !draft.frames.isEmpty

/-- The declarations of a draft are those that are marked. -/
structure Draft.Records (draft : Draft) (marks : List Mark) : Prop where
  positions : draft.PositionsOk
  titleOk : draft.TitleOk
  levels : ∀ frame ∈ draft.frames, frame.level ≠ 0
  declared : draft.declared.map ContextVariable.bare = marks.map Mark.declared
  context : draft.context.map ContextVariable.bare = (deckLevel marks).map Mark.declared
  grouped : draft.grouped.map ContextVariable.bare = (groupLevel marks).map Mark.declared

/-- Parts whose headings have a level and whose embedded documents are embedded as a whole. -/
structure Plain (parts : List Part) : Prop where
  levels : ∀ level text, Part.In (.heading level text) parts → level ≠ 0
  whole : ∀ path fragment own, Part.In (.document path fragment own) parts → fragment = none

theorem plain_cons {part : Part} {rest : List Part} :
    Plain (part :: rest) ↔ Plain [part] ∧ Plain rest := by
  constructor
  · rintro ⟨hLevels, hWhole⟩
    simp only [@Part.in_cons _ part rest] at hLevels hWhole
    constructor
    · exact ⟨fun _ _ h => hLevels _ _ (.inl h), fun _ _ _ h => hWhole _ _ _ (.inl h)⟩
    · exact ⟨fun _ _ h => hLevels _ _ (.inr h), fun _ _ _ h => hWhole _ _ _ (.inr h)⟩
  · rintro ⟨hPart, hRest⟩
    constructor
    · intro level text h
      exact (Part.in_cons.1 h).elim (hPart.levels _ _) (hRest.levels _ _)
    · intro path fragment own h
      exact (Part.in_cons.1 h).elim (hPart.whole _ _ _) (hRest.whole _ _ _)

theorem Plain.own {path : Path} {fragment : Option String} {own : List Part}
    (h : Plain [.document path fragment own]) : Plain own :=
  ⟨fun _ _ hIn => h.levels _ _ (.deeper List.mem_cons_self hIn),
    fun _ _ _ hIn => h.whole _ _ _ (.deeper List.mem_cons_self hIn)⟩

namespace Draft

variable {draft : Draft} {marks : List Mark}

theorem isEmpty_frames (draft : Draft) : draft.frames.isEmpty = draft.opened.isEmpty := by
  unfold frames
  cases draft.opened <;> rfl

theorem records_empty : Records {} [] where
  positions := positionsOk_empty
  titleOk := titleOk_empty
  levels := by simp
  declared := rfl
  context := rfl
  grouped := rfl

theorem Records.addContext (h : draft.Records marks) {v : ContextVariable}
    (hNew : v.name ∉ namesOf marks) :
    (draft.addContext v).Records (marks ++ [⟨draft.inside, v.bare⟩]) := by
  have hNames : v.name ∉ draft.declared.map ContextVariable.name := by
    rw [names_eq_of_bare_eq h.declared]
    exact hNew
  obtain ⟨hPositions, ⟨_, hDeclared⟩, ⟨_, hContext⟩, ⟨_, hGrouped⟩⟩ :=
    addsContext h.positions hNames
  have hInside : draft.inside = !draft.opened.isEmpty := by rw [inside, isEmpty_frames]
  refine ⟨hPositions, ?_, ?_, ?_, ?_, ?_⟩
  · rw [TitleOk, name_addContext, title_addContext]
    exact h.titleOk
  · rw [frames_addContext]
    exact h.levels
  · rw [hDeclared, List.map_append, h.declared, List.map_append]
    rfl
  · rw [hContext, List.map_append, h.context, deckLevel_append, List.map_append, hInside]
    cases draft.opened <;> rfl
  · rw [hGrouped, List.map_append, h.grouped, groupLevel_append, List.map_append, hInside]
    cases draft.opened <;> rfl

theorem inside_addContext (v : ContextVariable) : (draft.addContext v).inside = draft.inside := by
  rw [inside, frames_addContext, inside]

theorem Records.declare (h : draft.Records marks) (context : List ContextVariable)
    (tools : List Tool) (samples : List Sample)
    (hNames : (namesOf marks ++ context.map ContextVariable.name).Nodup) :
    (draft.declare context tools samples).Records
      (marks ++ context.map fun v => ⟨draft.inside, v.bare⟩) := by
  have hFold : (context.foldl Draft.addContext draft).Records
      (marks ++ context.map fun v => ⟨draft.inside, v.bare⟩) := by
    clear tools samples
    induction context generalizing draft marks with
    | nil => simpa using h
    | cons v rest ih =>
        obtain ⟨-, -, hDisjoint⟩ := List.nodup_append.1 hNames
        have hNew : v.name ∉ namesOf marks := fun hMem =>
          hDisjoint _ hMem _ List.mem_cons_self rfl
        have hLater : (namesOf (marks ++ [⟨draft.inside, v.bare⟩]) ++
            rest.map ContextVariable.name).Nodup := by
          rw [namesOf_append, List.append_assoc]
          exact hNames
        have hRest := ih (h.addContext hNew) hLater
        rw [inside_addContext, List.append_assoc] at hRest
        exact hRest
  exact
    { positions := ⟨hFold.positions.root, hFold.positions.opened⟩
      titleOk := hFold.titleOk
      levels := hFold.levels
      declared := hFold.declared
      context := hFold.context
      grouped := hFold.grouped }

/-- The declarations of nodes are declarations in groups. -/
theorem Records.pushAll (h : draft.Records marks) {nodes : List Node} {inner : List Mark}
    (hInner : (nodes.flatMap Node.declarations).map ContextVariable.bare =
      inner.map Mark.declared) (hGrouped : ∀ mark ∈ inner, mark.grouped) :
    (draft.pushAll nodes).Records (marks ++ inner) := by
  have hNone : deckLevel inner = [] := by
    rw [List.filter_eq_nil_iff]
    intro mark hMem
    simp [hGrouped mark hMem]
  have hAll : groupLevel inner = inner := List.filter_eq_self.2 hGrouped
  refine ⟨h.positions.pushAll nodes, ?_, ?_, ?_, ?_, ?_⟩
  · rw [TitleOk, name_pushAll, title_pushAll]
    exact h.titleOk
  · rw [frames_pushAll]
    exact h.levels
  · rw [declared_pushAll h.positions, List.map_append, List.map_append, h.declared, hInner]
  · rw [context_pushAll, h.context, deckLevel_append, hNone, List.append_nil]
  · rw [grouped_pushAll h.positions, List.map_append, h.grouped, hInner,
      groupLevel_append, hAll, List.map_append]

theorem Records.push (h : draft.Records marks) {node : Node} (hNode : node.declarations = []) :
    (draft.push node).Records marks := by
  have hPushed := @Records.pushAll draft marks h [node] [] (by simp [hNode]) (by simp)
  rw [List.append_nil] at hPushed
  exact hPushed

theorem Records.addHeading (h : draft.Records marks) {level : UInt8} (hLevel : level ≠ 0)
    (text : String) : (draft.addHeading level text).Records marks where
  positions := h.positions.addHeading level text
  titleOk := titleOk_addHeading h.titleOk level text
  levels := by
    intro frame hMem
    rw [frames_addHeading] at hMem
    rcases List.mem_append.1 hMem with hNew | hOld
    · split at hNew
      · cases hNew
      · rw [List.mem_singleton.1 hNew]
        exact hLevel
    · exact h.levels frame ((List.dropWhile_suffix _).mem hOld)
  declared := by rw [declared_addHeading h.positions, h.declared]
  context := by rw [context_addHeading, h.context]
  grouped := by rw [grouped_addHeading h.positions, h.grouped]

/-- A draft is inside a group as its parts say. -/
theorem Records.inside_add (h : draft.Records marks) {next : Draft} {part : Part}
    (hAdd : draft.add part = .ok next) :
    next.inside = part.insideAfter draft.named draft.inside := by
  have hFrames := (step_add h.titleOk hAdd).frames
  cases part with
  | heading level text =>
      simp only [Part.opens, Part.leaves] at hFrames
      by_cases hNaming : (decide (level = 1) && !draft.named) = true
      · -- The heading that names the deck closes every group, for all of them have a level.
        have hNone : below level draft.frames = [] := by
          rw [below, List.dropWhile_eq_nil_iff]
          intro frame hMem
          simp only [Bool.and_eq_true, decide_eq_true_eq] at hNaming
          have hPositive := h.levels frame hMem
          rw [hNaming.1, decide_eq_true_eq, UInt8.le_iff_toNat_le]
          have hNat : frame.level.toNat ≠ 0 := fun hZero => hPositive (UInt8.toNat_inj.1 hZero)
          exact Nat.one_le_iff_ne_zero.2 hNat
        rw [if_pos hNaming, hNone] at hFrames
        simp only [Bool.and_eq_true, decide_eq_true_eq, Bool.not_eq_true'] at hNaming
        simp [inside, hFrames, Part.insideAfter, hNaming]
      · rw [if_neg hNaming] at hFrames
        simp only [Bool.and_eq_true, decide_eq_true_eq, Bool.not_eq_true', not_and,
          Bool.not_eq_false] at hNaming
        cases hNamed : draft.named with
        | true => simp [inside, hFrames, Part.insideAfter]
        | false =>
            have hLevel : level ≠ 1 := fun hOne => by simp [hNaming hOne] at hNamed
            simp [inside, hFrames, Part.insideAfter, hLevel]
  | failed error => simp [Draft.add] at hAdd
  | _ => rw [inside, hFrames]; rfl

end Draft

/-! ## Adding parts -/

/-- The declarations of an embedded draft become those of the document that embeds it. -/
theorem Draft.Records.splice {draft own : Draft} {marks inner : List Mark}
    (h : draft.Records marks) (hOwn : own.Records inner)
    (hNames : (namesOf marks ++ namesOf inner).Nodup) {nodes : List Node}
    (hContent : own.finish.content? none = some nodes) :
    ((draft.declare own.finish.deck.context own.finish.deck.tools
      own.finish.samples).pushAll nodes).Records
        (marks ++ (hoist inner).map (Mark.within draft.inside)) := by
  have hNodes : (nodes.flatMap Node.declarations).map ContextVariable.bare =
      ((groupLevel inner).map (Mark.within draft.inside)).map Mark.declared := by
    simp only [content?, Option.some.injEq] at hContent
    rw [← hContent, List.flatMap_append, Draft.grouped_finish hOwn.positions, List.map_append,
      hOwn.grouped, List.map_map]
    cases own.finish.deck.title <;> rfl
  have hGrouped : ∀ mark ∈ (groupLevel inner).map (Mark.within draft.inside), mark.grouped := by
    intro mark hMem
    obtain ⟨one, hOne, rfl⟩ := List.mem_map.1 hMem
    simp [Mark.within, (List.mem_filter.1 hOne).2]
  have hContext : (own.context.map fun v => (⟨draft.inside, v.bare⟩ : Mark)) =
      (deckLevel inner).map (Mark.within draft.inside) := by
    have hMapped := congrArg (List.map fun v => (⟨draft.inside, v⟩ : Mark)) hOwn.context
    rw [List.map_map, List.map_map] at hMapped
    refine hMapped.trans (List.map_congr_left fun mark hMem => ?_)
    have hDeck := (List.mem_filter.1 hMem).2
    simp only [Bool.not_eq_true'] at hDeck
    simp [Mark.within, hDeck]
  have hDeclare : (namesOf marks ++ own.context.map ContextVariable.name).Nodup := by
    rw [names_eq_of_bare_eq hOwn.context]
    exact hNames.sublist ((List.Sublist.refl _).append (List.filter_sublist.map _))
  have hDeclared := h.declare own.context own.tools own.samples hDeclare
  rw [hContext] at hDeclared
  have hPushed := hDeclared.pushAll hNodes hGrouped
  rw [List.append_assoc, ← List.map_append] at hPushed
  exact hPushed

mutual

/-- What a part declares comes behind what the draft declares. -/
theorem records_add {draft next : Draft} {marks : List Mark} {part : Part}
    (h : draft.Records marks) (hPlain : Plain [part])
    (hNames : (namesOf marks ++ namesOf (part.marks hoist draft.inside)).Nodup)
    (hAdd : draft.add part = .ok next) :
    next.Records (marks ++ part.marks hoist draft.inside) := by
  cases part with
  | heading level text =>
      simp only [Draft.add, Except.ok.injEq] at hAdd
      rw [← hAdd]
      show (draft.addHeading level text).Records (marks ++ [])
      rw [List.append_nil]
      exact h.addHeading (hPlain.levels level text (.here List.mem_cons_self)) text
  | leaf text =>
      simp only [Draft.add, Except.ok.injEq] at hAdd
      rw [← hAdd]
      show (draft.push (.leaf text [])).Records (marks ++ [])
      rw [List.append_nil]
      exact h.push rfl
  | lead text =>
      simp only [Draft.add, Except.ok.injEq] at hAdd
      rw [← hAdd]
      show (draft.push (.lead text)).Records (marks ++ [])
      rw [List.append_nil]
      exact h.push rfl
  | definitions declared =>
      simp only [Draft.add, Except.ok.injEq] at hAdd
      rw [← hAdd, Part.marks]
      refine h.declare declared.context declared.tools declared.samples ?_
      have hSame := @names_eq_of_bare_eq declared.context
        (declared.context.map fun v => ⟨draft.inside, v.bare⟩) (by rw [List.map_map]; rfl)
      rw [hSame]
      exact hNames
  | document path fragment parts =>
      rw [hPlain.whole path fragment parts (.here List.mem_cons_self)] at hAdd
      obtain ⟨own, nodes, hOwn, hContent, rfl⟩ := add_document_ok hAdd
      rw [Part.marks, namesOf_within] at hNames
      have hInner : (namesOf (Part.marksAll hoist false false parts)).Nodup :=
        ((hoist_perm _).map _).nodup_iff.1 (List.Nodup.of_append_right hNames)
      have hOwnRecords := records_addAll Draft.records_empty hPlain.own hInner hOwn
      exact h.splice hOwnRecords
        (((List.Perm.refl _).append ((hoist_perm _).map _)).nodup_iff.1 hNames) hContent
  | failed error => simp [Draft.add] at hAdd

/-- What parts declare comes behind what the draft declares, in the order of the parts. -/
theorem records_addAll {draft last : Draft} {marks : List Mark} {parts : List Part}
    (h : draft.Records marks) (hPlain : Plain parts)
    (hNames : (namesOf marks ++
      namesOf (Part.marksAll hoist draft.named draft.inside parts)).Nodup)
    (hAdd : draft.addAll parts = .ok last) :
    last.Records (marks ++ Part.marksAll hoist draft.named draft.inside parts) := by
  cases parts with
  | nil =>
      simp only [Draft.addAll, Except.ok.injEq] at hAdd
      rw [← hAdd, Part.marksAll, List.append_nil]
      exact h
  | cons part rest =>
      obtain ⟨next, hPart, hMore⟩ := addAll_cons_ok hAdd
      obtain ⟨hFirst, hRest⟩ := plain_cons.1 hPlain
      rw [Part.marksAll, namesOf_append, ← List.append_assoc] at hNames
      have hNext := records_add h hFirst (List.Nodup.of_append_left hNames) hPart
      have hNamed := (step_add h.titleOk hPart).named
      have hInside := h.inside_add hPart
      rw [← hNamed, ← hInside] at hNames
      have hLast := records_addAll hNext hRest (by rwa [namesOf_append]) hMore
      rw [Part.marksAll, ← hNamed, ← hInside, ← List.append_assoc]
      exact hLast

end

/-! ## Readings -/

/-- Merging variables with different names keeps all of them in order. -/
theorem foldl_mergeContext {context merged : List ContextVariable}
    (hNames : ((merged ++ context).map ContextVariable.name).Nodup) :
    context.foldl mergeContext merged = merged ++ context := by
  rw [mergeContext_eq]
  exact foldl_mergeBy_of_nodup hNames

/-- What is in an expansion at any depth is in the expansion of a document that takes part. -/
theorem Reaches.of_in {files : Files} {top source : Source} (h : Reaches files top source)
    {part : Part} (hIn : part.In (source.parts files)) :
    ∃ inner, Reaches files top inner ∧ part ∈ inner.parts files := by
  generalize hParts : source.parts files = parts at hIn
  induction hIn generalizing source with
  | here hMem => exact ⟨source, h, hParts ▸ hMem⟩
  | deeper hMem _ ih =>
      obtain ⟨inner, hEmbeds, hOwn⟩ := Source.exists_embeds (hParts ▸ hMem)
      exact ih (h.embed hEmbeds) hOwn.symm

theorem Part.In.trans {part : Part} {path : Path} {fragment : Option String}
    {own parts : List Part} (h : Part.In (.document path fragment own) parts)
    (hIn : part.In own) : part.In parts := by
  generalize hDocument : Part.document path fragment own = document at h
  induction h with
  | here hMem => exact .deeper (hDocument ▸ hMem) hIn
  | deeper hMem _ ih => exact .deeper hMem ih

/-- What is in the expansion of a document that takes part is in the expansion at some depth. -/
theorem Reaches.in_of_mem {files : Files} {top source : Source} (h : Reaches files top source)
    {part : Part} (hMem : part ∈ source.parts files) : part.In (top.parts files) := by
  induction h generalizing part with
  | top => exact .here hMem
  | embed _ hEmbeds ih =>
      obtain ⟨path, hDocument, -⟩ := hEmbeds
      exact (ih hDocument).trans (.here hMem)

/-- A document that is embedded in the expansion of a source at any depth. -/
theorem Reaches.embeds_of_in {files : Files} {top : Source} {path : Path}
    {fragment : Option String} {own : List Part}
    (hIn : Part.In (.document path fragment own) (top.parts files)) :
    ∃ source inner, Reaches files top source ∧ source.Embeds files fragment inner ∧
      own = inner.parts files := by
  obtain ⟨source, hSource, hMem⟩ := Reaches.top.of_in hIn
  obtain ⟨inner, hEmbeds, hOwn⟩ := Source.exists_embeds hMem
  exact ⟨source, inner, hSource, hEmbeds, hOwn⟩

theorem Source.level_of_heading {files : Files} {source : Source} {level : UInt8} {text : String}
    (h : .heading level text ∈ source.parts files) : level ≠ 0 := by
  rw [parts, expand_eq] at h
  obtain ⟨block, hBlock, hPart⟩ := List.mem_flatMap.1 h
  have hLevelOk : block.LevelOk := Markdown.levelOk_of_mem_blocks hBlock
  rintro rfl
  cases block with
  | heading number name =>
      simp only [Part.ofBlock, Piece.ofBlock] at hPart
      split at hPart
      · cases hPart
      · simp only [List.map_cons, List.map_nil, List.mem_singleton, Part.ofPiece,
          Part.heading.injEq] at hPart
        have hNumber := Markdown.toNat_ofNat_level hLevelOk.2
        rw [← hPart.1] at hNumber
        have hPositive : 1 ≤ number := hLevelOk.1
        simp only [UInt8.toNat_zero] at hNumber
        omega
  | _ =>
      exact absurd (isHeading_ofBlock (by rintro _ _ ⟨⟩) _ hPart) (by simp [Part.isHeading])

/-- Whether a document declares what belongs to its deck before what belongs to its groups. -/
def Source.DeckFirst (files : Files) (source : Source) : Prop :=
  Hoisted (Part.marksAll id false false (source.parts files))

instance (files : Files) (source : Source) : Decidable (source.DeckFirst files) :=
  inferInstanceAs (Decidable (List.Pairwise _ _))

/-- The variables of a deck are in the order of the expansion exactly if every embedded document
declares what belongs to its deck before what belongs to its groups. -/
theorem bare_allContext_iff {files : Files} {top : Source} {result : ReadDeck}
    (hReads : Reads files top result)
    (hNames : ((Part.declaredAll (top.parts files)).map ContextVariable.name).Nodup)
    (hWhole : ∀ source fragment inner, Reaches files top source →
      source.Embeds files fragment inner → fragment = none) :
    result.deck.allContext.map ContextVariable.bare =
        (Part.declaredAll (top.parts files)).map ContextVariable.bare ↔
      ∀ source fragment inner, Reaches files top source →
        source.Embeds files fragment inner → inner.DeckFirst files := by
  obtain ⟨doc, hDoc, rfl⟩ := hReads.exists_doc
  obtain ⟨draft, hAdd, rfl⟩ := ofParts_eq_ok hDoc
  have hPlain : Plain (top.parts files) := by
    constructor
    · intro level text hIn
      obtain ⟨inner, -, hMem⟩ := Reaches.top.of_in hIn
      exact inner.level_of_heading hMem
    · intro path fragment own hIn
      obtain ⟨source, inner, hSource, hEmbeds, -⟩ := Reaches.embeds_of_in hIn
      exact hWhole source fragment inner hSource hEmbeds
  have hMarks : (namesOf (Part.marksAll hoist false false (top.parts files))).Nodup := by
    rw [names_eq_of_bare_eq (Part.declared_marksAll false false (top.parts files)).symm] at hNames
    exact ((Part.marksAll_hoist_perm false false (top.parts files)).map _).nodup_iff.2 hNames
  have hRecords := records_addAll Draft.records_empty hPlain hMarks hAdd
  have hDeclared := (Draft.declarations_finish hRecords.positions).symm ▸ hRecords.declared
  have hAll : draft.finish.attached.deck.allContext = draft.finish.deck.declarations := by
    rw [Deck.allContext, declarations_attached, foldl_mergeContext, List.nil_append]
    rw [List.nil_append, names_eq_of_bare_eq hDeclared]
    exact hMarks
  rw [hAll, hDeclared]
  refine (marks_hoist_iff hNames).trans ⟨?_, ?_⟩
  · intro hOrder source fragment inner hSource hEmbeds
    obtain ⟨path, hMem, -⟩ := hEmbeds
    exact hOrder path fragment (inner.parts files) (hSource.in_of_mem hMem)
  · intro hOrder path fragment own hIn
    obtain ⟨source, inner, hSource, hEmbeds, rfl⟩ := Reaches.embeds_of_in hIn
    exact hOrder source fragment inner hSource hEmbeds

/-! ## A document in a document -/

/-- The markdown files that a text embeds. -/
def markdownEmbeds (text : String) : List Embed :=
  (Piece.ofText text).filterMap fun piece =>
    match piece with
    | .embed embed => if embed.kind = .markdown then some embed else none
    | _ => none

/-- A document embeds one other document as a whole, and that one embeds none. -/
structure Source.EmbedsOnly (files : Files) (top inner : Source) (file : Path) : Prop where
  only : markdownEmbeds top.text = [⟨.markdown, file, none⟩]
  none : markdownEmbeds inner.text = []
  found : files.find? (top.base.join file).normalize = some inner.text
  chain : inner.chain = (top.base.join file).normalize :: top.chain
  base : inner.base = (top.base.join file).normalize.parent

section EmbedsOnly

variable {files : Files} {top inner : Source} {file : Path}

theorem Source.EmbedsOnly.eq (h : top.EmbedsOnly files inner file) {source next : Source}
    {fragment : Option String} (hSource : source = top ∨ source = inner)
    (hEmbeds : source.Embeds files fragment next) : fragment = Option.none ∧ next = inner := by
  obtain ⟨name, hPiece, -, hFound, hChain, hBase⟩ := Source.embeds_iff.1 hEmbeds
  have hEmbed : ⟨.markdown, name, fragment⟩ ∈ markdownEmbeds source.text :=
    List.mem_filterMap.2 ⟨_, hPiece, rfl⟩
  rcases hSource with rfl | rfl
  · rw [h.only, List.mem_singleton] at hEmbed
    injection hEmbed with _ hName hFragment
    subst hName hFragment
    rw [h.found, Option.some.injEq] at hFound
    refine ⟨rfl, ?_⟩
    cases next
    cases inner
    simp only [Source.mk.injEq] at hFound hChain hBase ⊢
    exact ⟨hChain.trans h.chain.symm, hBase.trans h.base.symm, hFound.symm⟩
  · rw [h.none] at hEmbed
    cases hEmbed

theorem Source.EmbedsOnly.reaches (h : top.EmbedsOnly files inner file) {source : Source}
    (hReaches : Reaches files top source) : source = top ∨ source = inner := by
  induction hReaches with
  | top => exact .inl rfl
  | embed _ hEmbeds ih => exact .inr (h.eq ih hEmbeds).2

end EmbedsOnly

/-- A file that declares a variable of its deck before one in a group, and the files with the
declarations. -/
def orderedFiles : Files :=
  [(.ofString "s.md", "![](a.toml)\n\n## G\n![](b.toml)"),
    (.ofString "a.toml", "[contexts.a]\ntype=\"string\"\nquestion=\"A?\""),
    (.ofString "b.toml", "[contexts.b]\ntype=\"string\"\nquestion=\"B?\""),
    (.ofString "c.toml", "[contexts.c]\ntype=\"string\"\nquestion=\"C?\"")]

/-- A text that embeds the file inside a group and declares a variable behind it. -/
def ordered : Source :=
  ⟨[], {}, "## S\n![](s.md)\n\n![](c.toml)"⟩

/-- The document that the text embeds. -/
def orderedInner : Source :=
  ⟨[.ofString "s.md"], {}, "![](a.toml)\n\n## G\n![](b.toml)"⟩

theorem embedsOnly_ordered : ordered.EmbedsOnly orderedFiles orderedInner (.ofString "s.md") where
  only := by decide +kernel
  none := by decide +kernel
  found := by decide +kernel
  chain := by decide +kernel
  base := by decide +kernel

/-- The text has its variables in the order of the expansion. -/
theorem bare_allContext_ordered : ∃ result, Reads orderedFiles ordered result ∧
    result.deck.allContext.map ContextVariable.bare =
      (Part.declaredAll (ordered.parts orderedFiles)).map ContextVariable.bare ∧
    (Part.declaredAll (ordered.parts orderedFiles)).map ContextVariable.name = ["a", "b", "c"] := by
  have hOk : (read orderedFiles {} ordered.text).toBool = true := by decide +kernel
  have hNames : (Part.declaredAll (ordered.parts orderedFiles)).map ContextVariable.name =
      ["a", "b", "c"] := by decide +kernel
  have hOnly := embedsOnly_ordered
  cases hRead : read orderedFiles {} ordered.text with
  | error error => simp [hRead, Except.toBool] at hOk
  | ok result =>
      have hReads : Reads orderedFiles ordered result := .text hRead
      refine ⟨result, hReads, (bare_allContext_iff hReads (by rw [hNames]; decide) ?_).2 ?_, hNames⟩
      · intro source fragment inner hSource hEmbeds
        exact (hOnly.eq (hOnly.reaches hSource) hEmbeds).1
      · intro source fragment inner hSource hEmbeds
        rw [(hOnly.eq (hOnly.reaches hSource) hEmbeds).2]
        decide +kernel

/-- A file that declares a variable in a group, then names its deck and declares another one. -/
def lateFiles : Files :=
  [(.ofString "s.md", "## G\n![](a.toml)\n\n# T\n\n![](b.toml)"),
    (.ofString "a.toml", "[contexts.a]\ntype=\"string\"\nquestion=\"A?\""),
    (.ofString "b.toml", "[contexts.b]\ntype=\"string\"\nquestion=\"B?\"")]

/-- A text that embeds the file. -/
def late : Source :=
  ⟨[], {}, "![](s.md)"⟩

theorem embedsOnly_late : late.EmbedsOnly lateFiles
    ⟨[.ofString "s.md"], {}, "## G\n![](a.toml)\n\n# T\n\n![](b.toml)"⟩ (.ofString "s.md") where
  only := by decide +kernel
  none := by decide +kernel
  found := by decide +kernel
  chain := by decide +kernel
  base := by decide +kernel

/-- The two variables change places where the file is embedded. -/
theorem allContext_late : ∃ result, Reads lateFiles late result ∧
    (Part.declaredAll (late.parts lateFiles)).map ContextVariable.name = ["a", "b"] ∧
    (∀ source fragment inner, Reaches lateFiles late source →
      source.Embeds lateFiles fragment inner → fragment = none) ∧
    result.deck.allContext.map ContextVariable.name = ["b", "a"] := by
  have hNames : (read lateFiles {} late.text).toOption.map
      (fun result => result.deck.allContext.map ContextVariable.name) = some ["b", "a"] := by
    decide +kernel
  have hOnly := embedsOnly_late
  cases hRead : read lateFiles {} late.text with
  | error error => simp [hRead, Except.toOption] at hNames
  | ok result =>
      refine ⟨result, .text hRead, by decide +kernel, ?_, ?_⟩
      · intro source fragment inner hSource hEmbeds
        exact (hOnly.eq (hOnly.reaches hSource) hEmbeds).1
      · rw [hRead] at hNames
        exact Option.some.inj hNames

end Deckwright.Document
