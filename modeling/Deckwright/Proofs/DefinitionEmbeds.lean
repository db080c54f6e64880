import Deckwright.Proofs.PickedDefinitions
import Deckwright.Proofs.Selection
import Deckwright.Proofs.SoleEmbed

/-!
# Embeds of a single definition

The image of a TOML file embeds all its definitions, and with a fragment the one of that name. Two
texts that have such images in the same place (`Site`) are read to decks that differ in other
entries only. That fails in two ways. Of several tools of a name the image with a fragment gives the
first one and the image of the file the last one; and a target with `://` anywhere in it, be it in
the fragment, is taken for an address and embeds nothing.

Main result: `selects_iff`, that it fails in no other way.
-/

namespace Deckwright

/-- A part without the letter `stop` does not reach over it. -/
theorem Text.infix_append_cons_iff {stop : Char} {part front back : List Char} (hSome : part ≠ [])
    (hNew : stop ∉ part) :
    part <:+: front ++ stop :: back ↔ part <:+: front ∨ part <:+: back := by
  constructor
  · rintro ⟨before, after, hText⟩
    -- The part ends in `front`, or begins there and would reach over `stop`, or begins behind it.
    rw [List.append_assoc] at hText
    rcases List.append_eq_append_iff.1 hText with ⟨c, rfl, hBack⟩ | ⟨c, rfl, hFront⟩
    · rcases List.append_eq_append_iff.1 hBack with ⟨d, rfl, -⟩ | ⟨d, rfl, hStop⟩
      · exact .inl ⟨before, d, by simp⟩
      · cases d with
        | nil => exact .inl ⟨before, [], by simp⟩
        | cons e d =>
            obtain ⟨rfl, -⟩ := List.cons.inj hStop
            simp at hNew
    · cases c with
      | nil =>
          obtain ⟨e, rest, rfl⟩ := List.exists_cons_of_ne_nil hSome
          obtain ⟨rfl, -⟩ := List.cons.inj hFront
          simp at hNew
      | cons e c =>
          obtain ⟨-, hBack⟩ := List.cons.inj hFront
          exact .inr ⟨c, after, by rw [hBack, List.append_assoc]; rfl⟩
  · rintro (hFront | hBack)
    · exact hFront.trans (List.prefix_append front _).isInfix
    · have hSuffix := (List.suffix_cons stop back).trans (List.suffix_append front _)
      exact hBack.trans hSuffix.isInfix

namespace Document

open Markdown (Inline Block)

/-! ## Where an image stands -/

/-- A place for an image in the content of a block: a paragraph, or an item of a list. -/
inductive Spot where
  | paragraph (before after : List Inline)
  | item (earlier : List String) (before after : List Inline) (later : List String)

namespace Spot

/-- The block has the image in that place. -/
def Holds (image : Inline) : Spot → Block → Prop
  | paragraph before after, block => block = .paragraph (before ++ image :: after)
  | item earlier before after later, block =>
    ∃ text, Markdown.inlines text = before ++ image :: after ∧
      block = .list (earlier ++ text :: later)

/-- The pieces of the block in front of the image. -/
def before : Spot → List Piece
  | paragraph before _ => Piece.ofInlines .lead "" before
  | item earlier before _ _ =>
    Piece.ofBlock (.list earlier) ++ Piece.ofInlines .leaf "" before

/-- The pieces of the block behind the image. -/
def after : Spot → List Piece
  | paragraph _ after => Piece.ofInlines .lead "" after
  | item _ _ after later => Piece.ofInlines .leaf "" after ++ Piece.ofBlock (.list later)

end Spot

/-- A place for an image in a document: a place in a block, and the blocks around it. -/
structure Site where
  front : List Block
  spot : Spot
  back : List Block

namespace Site

/-- The text has the image in that place. -/
def Holds (site : Site) (image : Inline) (text : String) : Prop :=
  ∃ block, site.spot.Holds image block ∧ Markdown.blocks text = site.front ++ block :: site.back

/-- The pieces of the document in front of the image. -/
def before (site : Site) : List Piece :=
  site.front.flatMap Piece.ofBlock ++ site.spot.before

/-- The pieces of the document behind the image. -/
def after (site : Site) : List Piece :=
  site.spot.after ++ site.back.flatMap Piece.ofBlock

/-- The place of an image that is all there is in a document. -/
def sole : Site where
  front := []
  spot := .paragraph [] []
  back := []

end Site

/-- An embed ends the run of text in front of it, and a new one starts behind. -/
theorem Piece.ofInlines_embed {alt target : String} {embed : Embed}
    (hEmbed : Embed.ofTarget? target = some embed) (make : String → Piece) (run : String)
    (before after : List Inline) :
    Piece.ofInlines make run (before ++ .image alt target :: after) =
      Piece.ofInlines make run before ++ .embed embed :: Piece.ofInlines make "" after := by
  induction before generalizing run with
  | nil => simp only [List.nil_append, Piece.ofInlines, hEmbed]
  | cons inline rest ih =>
      cases inline with
      | text more => simp only [List.cons_append, Piece.ofInlines, ih]
      | image other own =>
          simp only [List.cons_append, Piece.ofInlines]
          cases Embed.ofTarget? own with
          | none => exact ih _
          | some found => simp only [ih, List.append_assoc, List.cons_append]

theorem Spot.ofBlock {spot : Spot} {block : Block} {alt target : String} {embed : Embed}
    (h : spot.Holds (.image alt target) block) (hEmbed : Embed.ofTarget? target = some embed) :
    Piece.ofBlock block = spot.before ++ .embed embed :: spot.after := by
  cases spot with
  | paragraph before after =>
      obtain rfl := h
      exact Piece.ofInlines_embed hEmbed _ _ _ _
  | item earlier before after later =>
      obtain ⟨text, hText, rfl⟩ := h
      simp [Piece.ofBlock, Spot.before, Spot.after, hText, Piece.ofInlines_embed hEmbed]

theorem Site.ofText {site : Site} {text alt target : String} {embed : Embed}
    (h : site.Holds (.image alt target) text) (hEmbed : Embed.ofTarget? target = some embed) :
    Piece.ofText text = site.before ++ .embed embed :: site.after := by
  obtain ⟨block, hBlock, hText⟩ := h
  rw [Piece.ofText, hText, List.flatMap_append, List.flatMap_cons, Spot.ofBlock hBlock hEmbed]
  simp [Site.before, Site.after]

theorem sole_holds {target : String} (hSome : target ≠ "")
    (hTarget : ∀ c ∈ target.toList, c ≠ ')' ∧ Text.isSpace c = false) :
    Site.sole.Holds (.image "x" target) (embedText target) :=
  ⟨_, rfl, blocks_embedText hSome hTarget⟩

/-! ## Targets -/

/-- The target of an image that embeds a whole TOML file. -/
structure DefinitionsTarget (target : String) : Prop where
  noSpace : ∀ c ∈ target.toList, Text.isSpace c = false
  noParenthesis : ')' ∉ target.toList
  noFragment : '#' ∉ target.toList
  embeds : Embed.ofTarget? target = some ⟨.toml, Path.ofString target, none⟩

/-- A name that can be written as a fragment. -/
structure FragmentName (name : String) : Prop where
  notEmpty : name ≠ ""
  noSpace : ∀ c ∈ name.toList, Text.isSpace c = false
  noParenthesis : ')' ∉ name.toList

namespace Embed

variable {target name : String}

theorem splitFragment_append (hFragment : '#' ∉ target.toList) (hSome : name ≠ "") :
    splitFragment (target ++ "#" ++ name) = (target, some name) := by
  have hText : (target ++ "#" ++ name).toList = target.toList ++ '#' :: name.toList := by simp
  obtain ⟨c, rest, hName⟩ : ∃ c rest, name.toList = c :: rest :=
    List.exists_cons_of_ne_nil fun hNil => hSome (String.toList_inj.1 hNil)
  rw [splitFragment, hText, Text.cut?_append hFragment, hName]
  simp [← hName]

/-- The image of a fragment embeds it, unless there is a `://` in the fragment. -/
theorem ofTarget?_append {kind : EmbedKind} {file : Path} (hFragment : '#' ∉ target.toList)
    (hSome : name ≠ "") (hEmbeds : ofTarget? target = some ⟨kind, file, none⟩) :
    ofTarget? (target ++ "#" ++ name) =
      if Text.occursIn "://".toList name.toList then none else some ⟨kind, file, some name⟩ := by
  rw [ofTarget?] at hEmbeds
  split at hEmbeds
  · cases hEmbeds
  · rename_i hScheme
    have hSplit : splitFragment target = (target, none) := by
      rw [splitFragment, Text.cut?_of_not_mem hFragment]
    rw [hSplit] at hEmbeds
    obtain ⟨own, hKind, hEmbed⟩ := Option.map_eq_some_iff.1 hEmbeds
    cases hEmbed
    have hOccurs : Text.occursIn [':', '/', '/'] (target ++ "#" ++ name).toList =
        Text.occursIn "://".toList name.toList := by
      have hText : (target ++ "#" ++ name).toList = target.toList ++ '#' :: name.toList := by simp
      rw [hText, Bool.eq_iff_iff, Text.occursIn_iff, Text.occursIn_iff,
        Text.infix_append_cons_iff (by simp) (by simp), ← Text.occursIn_iff]
      simp [hScheme]
    rw [ofTarget?, hOccurs, splitFragment_append hFragment hSome]
    simp [hKind]

end Embed

theorem DefinitionsTarget.ofTarget?_fragment {target name : String} (h : DefinitionsTarget target)
    (hSome : name ≠ "") :
    Embed.ofTarget? (target ++ "#" ++ name) =
      if Text.occursIn "://".toList name.toList then none
      else some ⟨.toml, Path.ofString target, some name⟩ :=
  Embed.ofTarget?_append h.noFragment hSome h.embeds

/-! ## Readings -/

/-- The deck that a document makes. -/
def Source.reading (files : Files) (source : Source) : Except DocumentError ReadDeck :=
  (ofParts (source.parts files)).map attached

/-- The names of the variables of a deck itself, of its tools and of the samples declared for it. -/
def names (result : ReadDeck) : List String :=
  result.deck.context.map ContextVariable.name ++ result.deck.tools.map Tool.name ++
    result.samples.map Prod.fst

/-- The image of a fragment gives the same as the image of the whole file. -/
structure Selects (files : Files) (base : Path) (target name : String) : Prop where
  /-- In any place of any document the two images give the same for the name. -/
  same : ∀ (chain : List Path) (site : Site) (alt one whole : String),
    site.Holds (.image alt (target ++ "#" ++ name)) one →
    site.Holds (.image alt target) whole →
    (Source.reading files ⟨chain, base, one⟩).map (ReadDeck.only (· = name)) =
      (Source.reading files ⟨chain, base, whole⟩).map (ReadDeck.only (· = name))
  /-- For all other names the image of the fragment gives nothing to what stands around it. -/
  nothingElse : ∀ (chain : List Path) (site : Site) (alt one : String),
    site.Holds (.image alt (target ++ "#" ++ name)) one →
    (Source.reading files ⟨chain, base, one⟩).map (ReadDeck.only (· ≠ name)) =
      ((ofParts ((site.before ++ site.after).map (Part.ofPiece files chain base))).map
        attached).map (ReadDeck.only (· ≠ name))
  /-- A document of nothing but the image makes a deck of nothing but the definition. -/
  alone : ∀ (chain : List Path) (alt text : String),
    Site.sole.Holds (.image alt (target ++ "#" ++ name)) text →
    ∃ result, Source.reading files ⟨chain, base, text⟩ = .ok result ∧
      result.deck.children = [] ∧ names result = [name]

/-- A file that is there, and a name that one kind of its definitions has. -/
structure Picks (files : Files) (base : Path) (target name : String) (all : Definitions) :
    Prop where
  file : DefinitionsTarget target
  fragment : FragmentName name
  found : ∃ text, files.find? (base.join (.ofString target)).normalize = some text ∧
    Definitions.read? text = .ok all
  kind : ∃! kind, all.Declares name kind

/-- An image that is an embed makes one part of the expansion. -/
theorem Site.parts {site : Site} {files : Files} {chain : List Path} {base : Path}
    {text alt target : String} {embed : Embed} (h : site.Holds (.image alt target) text)
    (hEmbed : Embed.ofTarget? target = some embed) :
    Source.parts files ⟨chain, base, text⟩ =
      site.before.map (Part.ofPiece files chain base) ++
        ([Part.ofEmbed files chain base embed] ++
          site.after.map (Part.ofPiece files chain base)) := by
  rw [Source.parts, expand_eq_map, Site.ofText h hEmbed, List.map_append, List.map_cons]
  rfl

namespace Picks

variable {files : Files} {base : Path} {target name : String} {all : Definitions}

theorem distinct (h : Picks files base target name all) : all.Distinct := by
  obtain ⟨text, -, hRead⟩ := h.found
  exact Definitions.distinct_of_read? hRead

theorem select? (h : Picks files base target name all) :
    all.select? name = some (all.picked name) :=
  Definitions.select?_of_unique h.distinct h.kind

theorem ofEmbed_whole (h : Picks files base target name all) (chain : List Path) :
    Part.ofEmbed files chain base ⟨.toml, .ofString target, none⟩ = .definitions all := by
  obtain ⟨text, hFile, hRead⟩ := h.found
  simp only [Part.ofEmbed, Part.ofDefinitions, hFile, definitionsIn, hRead]

theorem ofEmbed_one (h : Picks files base target name all) (chain : List Path) :
    Part.ofEmbed files chain base ⟨.toml, .ofString target, some name⟩ =
      .definitions (all.picked name) := by
  obtain ⟨text, hFile, hRead⟩ := h.found
  simp only [Part.ofEmbed, Part.ofDefinitions, hFile, definitionsIn, hRead, h.select?]

theorem ofTarget?_one (h : Picks files base target name all)
    (hScheme : ¬ "://".toList <:+: name.toList) :
    Embed.ofTarget? (target ++ "#" ++ name) =
      some ⟨.toml, Path.ofString target, some name⟩ := by
  rw [h.file.ofTarget?_fragment h.fragment.notEmpty, if_neg]
  rwa [Text.occursIn_iff]

theorem parts_one (h : Picks files base target name all)
    (hScheme : ¬ "://".toList <:+: name.toList) {site : Site} {alt text : String}
    (hHolds : site.Holds (.image alt (target ++ "#" ++ name)) text) (chain : List Path) :
    Source.parts files ⟨chain, base, text⟩ =
      site.before.map (Part.ofPiece files chain base) ++
        ([.definitions (all.picked name)] ++
          site.after.map (Part.ofPiece files chain base)) := by
  rw [Site.parts hHolds (h.ofTarget?_one hScheme), h.ofEmbed_one]

theorem parts_whole (h : Picks files base target name all) {site : Site} {alt text : String}
    (hHolds : site.Holds (.image alt target) text) (chain : List Path) :
    Source.parts files ⟨chain, base, text⟩ =
      site.before.map (Part.ofPiece files chain base) ++
        ([.definitions all] ++ site.after.map (Part.ofPiece files chain base)) := by
  rw [Site.parts hHolds h.file.embeds, h.ofEmbed_whole]

end Picks

/-! ## Where the images agree -/

/-- A document of nothing but the definitions of a file. -/
theorem reading_sole {declared : Definitions} {files : Files} {source : Source}
    (hParts : source.parts files = [.definitions declared]) :
    Source.reading files source =
      .ok (Draft.declare declared.context declared.tools declared.samples {}).finish.attached := by
  rw [Source.reading, hParts]
  rfl

/-- The tools of a name in a document of nothing but the definitions of a file. -/
theorem tools_only_sole (name : String) (declared : Definitions) :
    ((Draft.declare declared.context declared.tools declared.samples {}).finish.attached.only
      (· = name)).deck.tools = (keptTools (· = name) declared.tools).foldl mergeTool [] := by
  have hFinish : ∀ draft : Draft, draft.finish.attached.deck.tools = draft.tools := fun _ => rfl
  rw [ReadDeck.only, Deck.only, hFinish, Draft.tools_declare, keptTools_mergeTools]
  rfl

/-- At most one tool, merged into none, stays what it is. -/
theorem head?_foldl_mergeTool (found : Option Tool) :
    (found.toList.foldl mergeTool []).head? = found := by
  cases found with
  | none => rfl
  | some tool => rfl

theorem addAll_definitions (draft : Draft) (declared : Definitions) :
    draft.addAll [.definitions declared] =
      .ok (draft.declare declared.context declared.tools declared.samples) := rfl

section Selects

variable {files : Files} {base : Path} {target name : String} {all : Definitions}

/-- What one definition declares in an empty draft goes by its name. -/
theorem names_of_select? {one : Definitions} (h : all.select? name = some one) :
    let doc := (Draft.declare one.context one.tools one.samples {}).finish
    doc.attached.deck.children = [] ∧ names doc.attached = [name] := by
  rw [Definitions.select?] at h
  split at h
  · rename_i v hFind
    cases h
    have hName : v.name = name := by simpa using List.find?_some hFind
    exact ⟨rfl, congrArg (fun own => [own]) hName⟩
  · split at h
    · rename_i s hFind
      cases h
      have hName : s.id = some name := by simpa using List.find?_some hFind
      have hSamples : namedSamples (Draft.declare [] [] [s] {}).finish = [(name, s)] := by
        show Ordered.ofList ([s].filterMap fun s => s.id.map fun id => (id, s)) = _
        simp [hName, Ordered.ofList, Ordered.update, Ordered.insert]
      refine ⟨rfl, ?_⟩
      simp only [names, attached, hSamples]
      rfl
    · obtain ⟨tool, hFind, rfl⟩ := Option.map_eq_some_iff.1 h
      have hName : tool.name = name := by simpa using List.find?_some hFind
      exact ⟨rfl, congrArg (fun own => [own]) hName⟩

theorem selects_of_same (h : Picks files base target name all)
    (hScheme : ¬ "://".toList <:+: name.toList)
    (hTools : (all.named name).tools.head? = (all.named name).tools.getLast?) :
    Selects files base target name where
  same chain site alt one whole hOne hWhole := by
    rw [Source.reading, Source.reading, h.parts_one hScheme hOne, h.parts_whole hWhole]
    refine only_ofParts (fun draft => ?_) _ _
    rw [addAll_definitions, addAll_definitions]
    exact congrArg Except.ok (only_declare_picked h.distinct hTools draft)
  nothingElse chain site alt one hOne := by
    rw [Source.reading, h.parts_one hScheme hOne, List.map_append,
      ← List.nil_append (site.after.map (Part.ofPiece files chain base))]
    refine only_ofParts (fun draft => ?_) _ _
    rw [addAll_definitions]
    exact congrArg Except.ok (only_declare_picked_other all name draft)
  alone chain alt text hText := by
    obtain ⟨hChildren, hNames⟩ := names_of_select? h.select?
    exact ⟨_, reading_sole (h.parts_one hScheme hText chain), hChildren, hNames⟩

/-! ## Where they do not -/

theorem holds_one (h : Picks files base target name all) :
    Site.sole.Holds (.image "x" (target ++ "#" ++ name)) (embedText (target ++ "#" ++ name)) := by
  refine sole_holds (fun hNil => ?_) fun c hMem => ?_
  · have := congrArg String.toList hNil
    simp at this
  · have hText : (target ++ "#" ++ name).toList = target.toList ++ '#' :: name.toList := by simp
    rw [hText, List.mem_append, List.mem_cons] at hMem
    rcases hMem with hTarget | rfl | hName
    · exact ⟨fun hEq => h.file.noParenthesis (hEq ▸ hTarget), h.file.noSpace c hTarget⟩
    · exact ⟨by decide, by decide⟩
    · exact ⟨fun hEq => h.fragment.noParenthesis (hEq ▸ hName), h.fragment.noSpace c hName⟩

theorem holds_whole (h : Picks files base target name all) :
    Site.sole.Holds (.image "x" target) (embedText target) := by
  refine sole_holds (fun hNil => ?_) fun c hMem =>
    ⟨fun hEq => h.file.noParenthesis (hEq ▸ hMem), h.file.noSpace c hMem⟩
  have hEmbeds := h.file.embeds
  rw [hNil] at hEmbeds
  exact absurd hEmbeds (by decide)

/-- An image that is no embed is text. -/
theorem ofText_sole {alt target text : String} (h : Site.sole.Holds (.image alt target) text)
    (hEmbed : Embed.ofTarget? target = none) :
    ∃ run, Piece.ofText text = [.lead run] := by
  obtain ⟨block, hBlock, hText⟩ := h
  obtain rfl := hBlock
  have hBlank : blank ("" ++ "![" ++ alt ++ "](" ++ target ++ ")") = false := by
    simp [blank, Text.isBlank, Text.isSpace]
  refine ⟨trimmed ("" ++ "![" ++ alt ++ "](" ++ target ++ ")"), ?_⟩
  simp only [Piece.ofText, hText, Site.sole, List.nil_append, List.flatMap_cons, List.flatMap_nil,
    List.append_nil, Piece.ofBlock, Piece.ofInlines, hEmbed, Piece.ofRun, hBlank]
  rfl

/-- A fragment that looks like an address is text. -/
theorem Selects.noScheme (hSelects : Selects files base target name)
    (h : Picks files base target name all) : ¬ "://".toList <:+: name.toList := by
  intro hScheme
  have hEmbed : Embed.ofTarget? (target ++ "#" ++ name) = none := by
    rw [h.file.ofTarget?_fragment h.fragment.notEmpty, if_pos (Text.occursIn_iff.2 hScheme)]
  obtain ⟨run, hRun⟩ := ofText_sole (holds_one h) hEmbed
  obtain ⟨result, hResult, hChildren, -⟩ := hSelects.alone [] _ _ (holds_one h)
  rw [Source.reading, Source.parts, expand_eq_map, hRun] at hResult
  cases hResult
  cases hChildren

/-- The first tool of the name is the one that the image of the fragment gives, the last one the one
that the image of the file gives. -/
theorem Selects.tools (hSelects : Selects files base target name)
    (h : Picks files base target name all) :
    (all.named name).tools.head? = (all.named name).tools.getLast? := by
  have hScheme := hSelects.noScheme h
  have hSame := hSelects.same [] _ _ _ _ (holds_one h) (holds_whole h)
  rw [reading_sole (h.parts_one hScheme (holds_one h) []),
    reading_sole (h.parts_whole (holds_whole h) [])] at hSame
  -- Of each deck only the tools of the name count: what is picked, and what the merging leaves.
  have hTools := congrArg (fun result => result.deck.tools) (Except.ok.inj hSame)
  have hNamed : keptTools (· = name) all.tools = (all.named name).tools := rfl
  simp only [tools_only_sole] at hTools
  rw [(all.kept_picked name).2.2, hNamed,
    mergeTools_of_named fun tool hMem => Definitions.name_of_mem_tools_named hMem,
    Definitions.picked] at hTools
  rw [← head?_foldl_mergeTool (all.named name).tools.head?, hTools, head?_foldl_mergeTool]

end Selects

/-- **Selection of a definition.** An image of a fragment gives for its name what the image of the
whole file gives, wherever it stands, and nothing for any other name, if and only if there is no
`://` in the fragment and the first and the last tool of that name are the same. -/
theorem selects_iff {files : Files} {base : Path} {target name : String} {all : Definitions}
    (h : Picks files base target name all) :
    Selects files base target name ↔
      ¬ "://".toList <:+: name.toList ∧
        (all.named name).tools.head? = (all.named name).tools.getLast? :=
  ⟨fun hSelects => ⟨hSelects.noScheme h, hSelects.tools h⟩, fun ⟨hScheme, hTools⟩ =>
    selects_of_same h hScheme hTools⟩

/-- A file with a variable, and with two tools of one name. -/
def toolFiles : Files :=
  [(.ofString "parts/all.toml", "[contexts.who]\ntype = \"string\"\nquestion = \"Who?\"\n\n" ++
    "[[tools]]\nname = \"look\"\n\n[[tools]]\nname = \"look\"\ndescription = \"again\"")]

/-- What is declared in the file. -/
theorem exists_read_toolFiles : ∃ text all v first second,
    toolFiles.find? (Path.join (.ofString "parts") (.ofString "all.toml")).normalize = some text ∧
      Definitions.read? text = .ok all ∧ all.context = [v] ∧ v.name = "who" ∧ all.samples = [] ∧
      all.tools = [first, second] ∧ first.name = "look" ∧ second.name = "look" ∧
      first.description ≠ second.description := by
  have hFound : ((toolFiles.find? (Path.join (.ofString "parts")
      (.ofString "all.toml")).normalize).bind fun text => (Definitions.read? text).toOption.map
        fun all => (all.context.map ContextVariable.name, all.samples.map Sample.id,
          all.tools.map fun tool => (tool.name, tool.description))) =
      some (["who"], [], [("look", ""), ("look", "again")]) := by decide +kernel
  obtain ⟨text, hFile, hText⟩ := Option.bind_eq_some_iff.1 hFound
  obtain ⟨all, hRead, hAll⟩ := exists_of_toOption_map hText
  simp only [Prod.mk.injEq, List.map_eq_cons_iff, List.map_eq_nil_iff] at hAll
  obtain ⟨⟨v, _, hContext, hName, rfl⟩, hSamples, first, _, hTools, ⟨hFirst, hPlain⟩, second, _,
    rfl, ⟨hSecond, hAgain⟩, rfl⟩ := hAll
  refine ⟨text, all, v, first, second, hFile, hRead, hContext, hName, hSamples, hTools, hFirst,
    hSecond, ?_⟩
  rw [hPlain, hAgain]
  decide

theorem noSpace_of_all {text : String} (h : (text.toList.all fun c => !Text.isSpace c) = true) :
    ∀ c ∈ text.toList, Text.isSpace c = false := fun c hMem => by
  simpa using List.all_eq_true.1 h c hMem

theorem definitionsTarget_all : DefinitionsTarget "all.toml" where
  noSpace := noSpace_of_all (by decide +kernel)
  noParenthesis := by decide +kernel
  noFragment := by decide +kernel
  embeds := by decide +kernel

/-- Both images give the variable. -/
theorem selects_who : ∃ all, Picks toolFiles (.ofString "parts") "all.toml" "who" all ∧
    Selects toolFiles (.ofString "parts") "all.toml" "who" := by
  obtain ⟨text, all, v, first, second, hFile, hRead, hContext, hName, hSamples, hTools, hFirst,
    hSecond, -⟩ := exists_read_toolFiles
  have hPicks : Picks toolFiles (.ofString "parts") "all.toml" "who" all :=
    { file := definitionsTarget_all
      fragment := ⟨by decide +kernel, noSpace_of_all (by decide +kernel), by decide +kernel⟩
      found := ⟨text, hFile, hRead⟩
      kind := by
        refine ⟨.context, ⟨v, by simp [hContext], hName⟩, fun kind hKind => ?_⟩
        cases kind with
        | context => rfl
        | sample => simp [Definitions.Declares, hSamples] at hKind
        | tool => simp [Definitions.Declares, hTools, hFirst, hSecond] at hKind }
  have hNoTool : (all.named "who").tools = [] := by
    simp [Definitions.named, hTools, hFirst, hSecond]
  refine ⟨all, hPicks, (selects_iff hPicks).2 ⟨?_, by rw [hNoTool]; rfl⟩⟩
  rw [← Text.occursIn_iff]
  decide +kernel

/-- Of the two tools the image of the fragment gives the first one, that of the file the last
one. -/
theorem not_selects_look : ∃ all, Picks toolFiles (.ofString "parts") "all.toml" "look" all ∧
    ¬ Selects toolFiles (.ofString "parts") "all.toml" "look" := by
  obtain ⟨text, all, v, first, second, hFile, hRead, hContext, hName, hSamples, hTools, hFirst,
    hSecond, hDiffer⟩ := exists_read_toolFiles
  have hPicks : Picks toolFiles (.ofString "parts") "all.toml" "look" all :=
    { file := definitionsTarget_all
      fragment := ⟨by decide +kernel, noSpace_of_all (by decide +kernel), by decide +kernel⟩
      found := ⟨text, hFile, hRead⟩
      kind := by
        refine ⟨.tool, ⟨first, by simp [hTools], hFirst⟩, fun kind hKind => ?_⟩
        cases kind with
        | context => simp [Definitions.Declares, hContext, hName] at hKind
        | sample => simp [Definitions.Declares, hSamples] at hKind
        | tool => rfl }
  refine ⟨all, hPicks, fun hSelects => hDiffer ?_⟩
  have hSame := hSelects.tools hPicks
  simp only [Definitions.named, hTools, hFirst, hSecond, decide_true, List.filter_cons_of_pos,
    List.filter_nil, List.head?_cons, List.getLast?_cons_cons, List.getLast?_singleton,
    Option.some.injEq] at hSame
  rw [hSame]

end Document

end Deckwright
