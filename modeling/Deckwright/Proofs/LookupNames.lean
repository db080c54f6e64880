import Deckwright.Proofs.Appended
import Deckwright.Proofs.DefinitionEmbeds
import Deckwright.Proofs.Lowercase

/-!
# Groups by their own look-up names

A fragment is made of names, and so it can be made of the look-up names of the groups that it is to
lead to (`ownFragment`). These hold nothing that has a meaning in a fragment or in an image. Whether
the fragment leads back to the groups is a matter of looking up what was looked up before, and that
fails for a name with a capital I with a dot above, and for no other one.

* `goes_ownFragment_iff`: which chains of groups go by their own look-up names.
* `read_ownFragment`: what reading the image of such a fragment comes to.

Main result: `lookupName_canonical`, both of them together with the law for names.
-/

namespace Deckwright

/-! ## What a look-up name is made of -/

namespace Text

/-- The code points of white space. -/
def spaceRanges : List (Nat × Nat) := [
    (0x09, 0x0D), (0x20, 0x20), (0x85, 0x85), (0xA0, 0xA0), (0x1680, 0x1680), (0x2000, 0x200A),
    (0x2028, 0x2029), (0x202F, 0x202F), (0x205F, 0x205F), (0x3000, 0x3000)
  ]

theorem packed_space_apart :
    packedRanges spaceRanges &&& packedRanges alphanumericRanges = 0 := by
  decide +kernel

theorem isSpace_of_isAlphanumeric {c : Char} (h : isAlphanumeric c) : isSpace c = false := by
  have hIn : isSpace c = inRanges c.toNat spaceRanges := by
    rw [Bool.eq_iff_iff]
    simp [isSpace, inRanges, spaceRanges]
    omega
  have hBit := congrArg (Nat.testBit · c.toNat) packed_space_apart
  rw [isAlphanumeric] at h
  simpa [h, hIn] using hBit

theorem signs_not_alphanumeric : ['.', ')', ':'].any isAlphanumeric = false := by
  decide +kernel

end Text

/-- White space and the signs that have a meaning in an image or a fragment are no part of a look-up
name. -/
theorem of_mem_lookupName {name : String} {c : Char} (h : c ∈ (lookupName name).toList) :
    (Text.isSpace c = false ∧ c ≠ ')' ∧ c ≠ ':') ∧ c ≠ '.' := by
  rcases isLower_of_mem_lookupName h with hLower | ⟨rfl, -⟩
  · have hNone (sign : Char) (hMem : sign ∈ ['.', ')', ':']) : c ≠ sign := by
      rintro rfl
      exact List.any_eq_false.1 Text.signs_not_alphanumeric c hMem hLower.alphanumeric
    exact ⟨⟨Text.isSpace_of_isAlphanumeric hLower.alphanumeric, hNone ')' (by simp),
      hNone ':' (by simp)⟩, hNone '.' (by simp)⟩
  · decide

namespace Document

/-! ## The fragment of a chain -/

section Fragment

variable {chain : List (Header × List Node)}

/-- The fragment that is made of the look-up names of the groups. -/
def ownFragment (chain : List (Header × List Node)) : String :=
  String.intercalate "." (chain.map fun group => lookupName group.1.name)

theorem segments_intercalate {names : List String} (hSome : names ≠ [])
    (h : ∀ name ∈ names, '.' ∉ name.toList) : segments (String.intercalate "." names) = names := by
  induction names with
  | nil => exact absurd rfl hSome
  | cons name rest ih =>
      rw [List.forall_mem_cons] at h
      cases rest with
      | nil =>
          rw [String.intercalate_singleton, segments, Text.split_of_not_mem h.1, List.map_singleton,
            String.ofList_toList]
      | cons next more =>
          have hText : (String.intercalate "." (name :: next :: more)).toList =
              name.toList ++ '.' :: (String.intercalate "." (next :: more)).toList := by
            simp [intercalate_cons]
          have hRest := ih (List.cons_ne_nil _ _) h.2
          rw [segments] at hRest ⊢
          rw [hText, Text.split_append, Text.split_of_not_mem h.1, List.map_append, hRest,
            List.map_singleton, String.ofList_toList, List.singleton_append]

theorem segments_ownFragment (h : chain ≠ []) :
    segments (ownFragment chain) = chain.map fun group => lookupName group.1.name := by
  refine segments_intercalate (by simpa using h) fun name hMem hDot => ?_
  obtain ⟨group, -, rfl⟩ := List.mem_map.1 hMem
  exact (of_mem_lookupName hDot).2 rfl

/-- **Own names.** The groups go by their own look-up names if and only if none of their names has a
capital I with a dot above. -/
theorem goes_ownFragment_iff (h : chain ≠ []) :
    Goes chain (segments (ownFragment chain)) ↔
      ∀ group ∈ chain, Text.dottedI ∉ group.1.name.toList := by
  rw [Goes, segments_ownFragment h, List.map_map, List.map_inj_left]
  refine forall₂_congr fun group _ => ?_
  rw [← lookupName_lookupName_iff, eq_comm]
  rfl

theorem of_mem_ownFragment {c : Char} (h : c ∈ (ownFragment chain).toList) :
    Text.isSpace c = false ∧ c ≠ ')' ∧ c ≠ ':' := by
  induction chain with
  | nil => cases h
  | cons group rest ih =>
      rw [ownFragment, List.map_cons, intercalate_cons] at h
      simp only [String.toList_append, List.mem_append] at h
      rcases h with (hOwn | hDot) | hRest
      · exact (of_mem_lookupName hOwn).1
      · split at hDot
        · cases hDot
        · obtain rfl : c = '.' := by simpa using hDot
          decide
      · exact ih hRest

/-! ## The embed of a group by its own names -/

/-- An image in the directory `base` refers to a document that makes a deck of its own. -/
structure DocumentAt (files : Files) (base : Path) (target : String) (path : Path)
    (doc : Document) : Prop where
  image : DocumentTarget target
  leads : (base.join (.ofString target)).normalize = path
  parses : ∃ text, files.find? path = some text ∧
    ofParts (Source.parts files ⟨[path], path.parent, text⟩) = .ok doc

variable {files : Files} {base path : Path} {target fragment : String} {doc : Document}

/-- Such a document can be embedded with a fragment in which nothing has a meaning in an image. -/
theorem DocumentAt.ofText (h : DocumentAt files base target path doc) (hSome : fragment ≠ "")
    (hSigns : ∀ c ∈ fragment.toList, Text.isSpace c = false ∧ c ≠ ')' ∧ c ≠ ':') :
    Piece.ofText (embedText (target ++ "#" ++ fragment)) =
      [.embed ⟨.markdown, .ofString target, some fragment⟩] := by
  have hScheme : Text.occursIn "://".toList fragment.toList = false := by
    rw [Bool.eq_false_iff, ne_eq, Text.occursIn_iff]
    intro hInfix
    exact (hSigns ':' (hInfix.subset (by simp))).2.2 rfl
  have hEmbed : Embed.ofTarget? (target ++ "#" ++ fragment) =
      some ⟨.markdown, .ofString target, some fragment⟩ := by
    rw [Embed.ofTarget?_append h.image.noFragment hSome h.image.ofTarget?, hScheme]
    rfl
  have hWritable : ∀ c ∈ (target ++ "#" ++ fragment).toList, c ≠ ')' ∧ Text.isSpace c = false := by
    intro c hMem
    simp only [String.toList_append, List.mem_append] at hMem
    rcases hMem with (hTarget | hHash) | hFragment
    · exact h.image.writable c hTarget
    · obtain rfl : c = '#' := by simpa using hHash
      decide
    · exact ⟨(hSigns c hFragment).2.1, (hSigns c hFragment).1⟩
  exact Site.ofText (sole_holds (by simp) hWritable) hEmbed

/-- Reading a text that is the image of a fragment comes to the group that the fragment leads to. -/
theorem DocumentAt.read_fragment (h : DocumentAt files base target path doc) (hSome : fragment ≠ "")
    (hSigns : ∀ c ∈ fragment.toList, Text.isSpace c = false ∧ c ≠ ')' ∧ c ≠ ':') :
    read files base (embedText (target ++ "#" ++ fragment)) =
      match groupAt? doc.deck.children (segments fragment) with
      | some node =>
        .ok ((Draft.declare doc.deck.context doc.deck.tools doc.samples {}).push node).finish.attached
      | none => .error (.missingFragment path fragment) := by
  obtain ⟨text, hFile, hParses⟩ := h.parses
  have hPart : Part.ofEmbed files [] base ⟨.markdown, .ofString target, some fragment⟩ =
      .document path (some fragment) (Source.parts files ⟨[path], path.parent, text⟩) := by
    simp only [Part.ofEmbed, h.leads, List.not_mem_nil, if_false]
    rw [hFile]
    rfl
  rw [read, expand_eq_map, h.ofText hSome hSigns, List.map_singleton, Part.ofPiece, hPart]
  simp only [ofParts, Draft.addAll, add_document_fragment hParses]
  cases groupAt? doc.deck.children (segments fragment) with
  | none => rfl
  | some node => rfl

/-- A group that is all there is in a deck. -/
theorem children_finish_push (context : List ContextVariable) (tools : List Tool)
    (samples : List Sample) (node : Node) :
    (((Draft.declare context tools samples {}).push node).finish).deck.children = [node] ∧
      (((Draft.declare context tools samples {}).push node).finish).samples = samples := by
  obtain ⟨declared, hDeclare⟩ := @Draft.exists_declare {} rfl context tools samples
  rw [hDeclare]
  exact ⟨rfl, rfl⟩

/-- **Look-up names.** A look-up name is its own, and nested groups go by their own look-up names, if
and only if there is no capital I with a dot above. Where there is none and each group is the first
of its siblings with its name, the image of the document with these names as the fragment gives the
innermost group and nothing else. An image with names that no groups go by is an error. -/
theorem lookupName_canonical (name : String) {chain : List (Header × List Node)} (h : chain ≠ []) :
    (lookupName (lookupName name) = lookupName name ↔ Text.dottedI ∉ name.toList) ∧
    (Goes chain (segments (ownFragment chain)) ↔
      ∀ group ∈ chain, Text.dottedI ∉ group.1.name.toList) ∧
    ∀ {files base target path doc header children}, DocumentAt files base target path doc →
      Chain doc.deck.children chain → chain.getLast? = some (header, children) →
      ownFragment chain ≠ "" →
      ((∀ group ∈ chain, Text.dottedI ∉ group.1.name.toList) →
        ∃ result, read files base (embedText (target ++ "#" ++ ownFragment chain)) = .ok result ∧
          result.deck.children = Node.attachAll doc.namedSamples [.group header children]) ∧
      ((∀ other, Chain doc.deck.children other → ¬ Goes other (segments (ownFragment chain))) →
        read files base (embedText (target ++ "#" ++ ownFragment chain)) =
          .error (.missingFragment path (ownFragment chain))) := by
  refine ⟨lookupName_lookupName_iff, goes_ownFragment_iff h, ?_⟩
  intro files base target path doc header children hDoc hChain hLast hSome
  rw [hDoc.read_fragment hSome fun _ => of_mem_ownFragment]
  constructor
  · intro hNone
    have hNames := (goes_ownFragment_iff h).2 hNone
    obtain ⟨hChildren, hSamples⟩ := children_finish_push doc.deck.context doc.deck.tools doc.samples
      (.group header children)
    rw [groupAt?_eq_some_iff.2 ⟨chain, _, hChain, hNames, hLast, rfl⟩]
    refine ⟨_, rfl, ?_⟩
    simp only [attached, namedSamples, hChildren, hSamples]
  · intro hNone
    rw [(groupAt?_eq_none_iff (segments_ne_nil _)).2 hNone]

theorem documentTarget_m : DocumentTarget "m.md" :=
  { noSpace := noSpace_of_all (by decide +kernel)
    noParenthesis := by decide +kernel
    noFragment := by decide +kernel
    noScheme := by
      rw [← Text.occursIn_iff]
      decide +kernel
    extension := ⟨"md", by decide +kernel, .inl (by decide +kernel)⟩ }

/-- A group below another one, whose name has a sign and spaces, by its own look-up names. -/
theorem lookupName_canonical_nested :
    lookupName (lookupName "B & C") = lookupName "B & C" ∧ ∃ result header children samples,
      read [(.ofString "m.md", "## A\n### B & C\n- x\n")] (.ofString "") (embedText "m.md#a.bc") =
          .ok result ∧
        result.deck.children = Node.attachAll samples [.group header children] ∧
        (Node.group header children).preorder = [.group "B & C" 3, .leaf "x"] := by
  have hRead : (ofParts (Source.parts [(.ofString "m.md", "## A\n### B & C\n- x\n")]
      ⟨[.ofString "m.md"], (Path.ofString "m.md").parent,
        "## A\n### B & C\n- x\n"⟩)).toOption.map
      (fun doc => (groupAt? doc.deck.children (segments "A.bC")).map Node.preorder) =
      some (some [.group "B & C" 3, .leaf "x"]) := by decide +kernel
  obtain ⟨doc, hDoc, hFound⟩ := exists_of_toOption_map hRead
  obtain ⟨node, hNode, hLines⟩ := Option.map_eq_some_iff.1 hFound
  obtain ⟨chain, ⟨header, children⟩, hChain, hNames, hLast, rfl⟩ := groupAt?_eq_some_iff.1 hNode
  have hAt : DocumentAt [(.ofString "m.md", "## A\n### B & C\n- x\n")] (.ofString "") "m.md"
      (.ofString "m.md") doc :=
    { image := documentTarget_m
      leads := by decide +kernel
      parses := ⟨_, by decide +kernel, hDoc⟩ }
  have hOwn : chain.map (fun group => lookupName group.1.name) = ["a", "bc"] :=
    hNames.trans (by decide +kernel)
  have hFragment : ownFragment chain = "a.bc" := by
    rw [ownFragment, hOwn]
    decide
  have hDot : ∀ group ∈ chain, Text.dottedI ∉ group.1.name.toList := by
    intro group hMem
    have hName : lookupName group.1.name ∈ ["a", "bc"] := hOwn ▸ List.mem_map_of_mem hMem
    have hPlain : ∀ name ∈ ["a", "bc"], Text.dotAbove ∉ name.toList := by decide
    rw [← dotAbove_mem_lookupName_iff]
    exact hPlain _ hName
  have hSome : chain ≠ [] := by
    rintro rfl
    cases hLast
  have hNotEmpty : ownFragment chain ≠ "" := by
    rw [hFragment]
    decide
  obtain ⟨hSettled, -, hReads⟩ := lookupName_canonical "B & C" hSome
  obtain ⟨result, hResult, hChildren⟩ := (hReads hAt hChain hLast hNotEmpty).1 hDot
  rw [hFragment] at hResult
  exact ⟨hSettled.2 (by decide), result, header, children, doc.namedSamples, hResult, hChildren,
    hLines⟩

/-- The look-up name of a capital I with a dot above is another one when it is looked up, and a
group of that name is not found by it. -/
theorem not_canonical_dottedI :
    lookupName "\u0130" = "i\u0307" ∧
      lookupName (lookupName "\u0130") ≠ lookupName "\u0130" ∧
      read [(.ofString "m.md", "## \u0130\n- x\n")] (.ofString "")
          (embedText ("m.md" ++ "#" ++ lookupName "\u0130")) =
        .error (.missingFragment (.ofString "m.md") "i\u0307") := by
  have hName : lookupName "\u0130" = "i\u0307" := by decide +kernel
  have hOther : lookupName (lookupName "\u0130") ≠ lookupName "\u0130" := by
    rw [ne_eq, lookupName_lookupName_iff]
    decide
  have hRead : (ofParts (Source.parts [(.ofString "m.md", "## \u0130\n- x\n")]
      ⟨[.ofString "m.md"], (Path.ofString "m.md").parent, "## \u0130\n- x\n"⟩)).toOption.map
      (fun doc => (groupAt? doc.deck.children (segments "i\u0307")).isNone) = some true := by
    decide +kernel
  obtain ⟨doc, hDoc, hNone⟩ := exists_of_toOption_map hRead
  have hAt : DocumentAt [(.ofString "m.md", "## \u0130\n- x\n")] (.ofString "") "m.md"
      (.ofString "m.md") doc :=
    { image := documentTarget_m
      leads := by decide +kernel
      parses := ⟨_, by decide +kernel, hDoc⟩ }
  have hSigns : ∀ c ∈ (lookupName "\u0130").toList,
      Text.isSpace c = false ∧ c ≠ ')' ∧ c ≠ ':' :=
    fun _ hMem => (of_mem_lookupName hMem).1
  rw [hName] at hSigns
  refine ⟨hName, hOther, ?_⟩
  rw [hName, hAt.read_fragment (by decide) hSigns, Option.isNone_iff_eq_none.1 hNone]

end Fragment

end Document

end Deckwright
